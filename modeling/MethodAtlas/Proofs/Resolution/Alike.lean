import MethodAtlas.Resolution.Locator
import MethodAtlas.Proofs.Store.View

/-!
# Resolution among alike modules

What a handle is resolved to depends on what requests show, and neither on what a store was asked
for before nor on attributes. Requests are for modules beside the module that names them, so from
one module on only some paths can be asked for.
-/
namespace MethodAtlas

/-- The modules beside those that can be asked for can be asked for themselves. -/
def Accord.Closed (A : Accord) (extensions : List String) : Prop :=
  ∀ path m m' rid assembly name, A.asked path → A.alike path m m' →
    m.module.referenceTarget rid = .ok (some (assembly, name)) → ∀ extension ∈ extensions,
      A.asked (Path.module (Path.directoryOf path) assembly extension)

theorem Accord.closed_sameModules (extensions : List String) : sameModules.Closed extensions :=
  fun _ _ _ _ _ _ _ _ _ _ _ => trivial

/-- Two modules that are alike as answers for one path. -/
structure LocatedModule.Matched (A : Accord) (l l' : LocatedModule) : Prop where
  path : l.path = l'.path
  asked : A.asked l.path
  alike : A.alike l.path l.opened l'.opened

theorem LocatedModule.Matched.module {A : Accord} {l l' : LocatedModule} (h : l.Matched A l') :
    l.module.SameButAttributes l'.module := A.same h.alike

/-- Types of the same number, in modules that are alike as answers for one path. -/
inductive FoundType.Matched (A : Accord) : FoundType → FoundType → Prop
  | here (rid : Nat) : Matched A (here rid) (here rid)
  | elsewhere {l l' : LocatedModule} (h : l.Matched A l') (rid : Nat) :
      Matched A (elsewhere l rid) (elsewhere l' rid)

inductive Resolution.Matched (A : Accord) : Resolution → Resolution → Prop
  | nil : Matched A nil nil
  | found {type type' : FoundType} (h : type.Matched A type') :
      Matched A (found type) (found type')
  | failed (why : ResolveFailure) : Matched A (failed why) (failed why)

theorem FoundType.Matched.place {A : Accord} {type type' : FoundType} (h : type.Matched A type')
    {l l' : LocatedModule} (hl : l.Matched A l') :
    (type.place l).1.Matched A (type'.place l').1 ∧ (type.place l).2 = (type'.place l').2 := by
  cases h with
  | here rid => exact ⟨hl, rfl⟩
  | elsewhere h rid => exact ⟨h, rfl⟩

theorem Module.SameButAttributes.referenceTarget {m m' : Module} (h : m.SameButAttributes m')
    (rid : Nat) : m.referenceTarget rid = m'.referenceTarget rid := by
  rw [Module.referenceTarget, Module.referenceTarget, h.referencePath]
  simp only [h.needRow (α := AssemblyReference) (by decide), h.string]

theorem resolveIn_matched {A : Accord} {l l' : Option LocatedModule}
    (h : Option.Rel (LocatedModule.Matched A) l l') (name : TypeName) :
    Outcome.Agree (Resolution.Matched A) (resolveIn name l) (resolveIn name l') := by
  cases h with
  | none => exact .ok (.failed _)
  | some h =>
    rw [resolveIn, resolveIn, h.module.findType]
    refine Outcome.Agree.bind (R := Eq) (.refl (fun _ => rfl) _) ?_
    rintro found _ rfl
    cases found with
    | none => exact .ok (.failed _)
    | some rid => exact .ok (.found (.elsewhere h rid))

namespace Query.InStep
variable {A : Accord} {disk disk' : Disk}

/-- One directory is searched in step if all that the search asks for there can be asked for. -/
theorem locateIn {directory name : String} {extensions : List String}
    (hasked : ∀ extension ∈ extensions, A.asked (Path.module directory name extension)) :
    InStep A disk disk' (Option.Rel (LocatedModule.Matched A))
      (MethodAtlas.locateIn disk directory name extensions)
      (MethodAtlas.locateIn disk' directory name extensions) := by
  induction extensions with
  | nil => exact .pure .none
  | cons extension extensions ih =>
    have hpath := hasked extension List.mem_cons_self
    refine (module hpath).attempt.bind ?_
    intro r r' hr
    cases hr with
    | ok halike => exact .pure (.some ⟨rfl, hpath, halike⟩)
    | @error e e' hkind =>
      simp only [hkind]
      split
      · exact ih fun other hother => hasked other (List.mem_cons_of_mem extension hother)
      · exact .answer (.error hkind)

/-- A handle is resolved in step in modules that are alike. -/
theorem resolveBeside {extensions : List String} (hclosed : A.Closed extensions)
    {l l' : LocatedModule} (hl : l.Matched A l') (handle : TypeHandle) :
    InStep A disk disk' (Resolution.Matched A)
      (MethodAtlas.resolveBeside disk extensions l handle)
      (MethodAtlas.resolveBeside disk' extensions l' handle) := by
  cases handle with
  | nil => exact .pure .nil
  | definition rid => exact .pure (.found (.here rid))
  | specification rid => exact .pure (.failed _)
  | reference rid =>
    rw [MethodAtlas.resolveBeside, MethodAtlas.resolveBeside, resolveType, resolveType,
      ← hl.module.referenceTarget]
    cases htarget : l.module.referenceTarget rid with
    | error e => exact .answer (.error rfl)
    | ok target =>
      cases target with
      | none => exact .pure (.failed _)
      | some pair =>
        obtain ⟨assembly, name⟩ := pair
        refine bind (R := fun a b => a = some (assembly, name) ∧ b = some (assembly, name))
          (.answer (.ok ⟨rfl, rfl⟩)) ?_
        rintro _ _ ⟨rfl, rfl⟩
        simp only [locateBeside, ← hl.path]
        exact (locateIn (hclosed l.path _ _ rid assembly name hl.asked hl.alike htarget)).bind
          fun _ _ hlocated => .answer (resolveIn_matched hlocated name)

end Query.InStep

/-- A path that can be asked for on the way from an origin: the origin itself, and what a reference
of a module on the way leads to beside it. -/
inductive Asked (shown : String → Except Fault Module) (extensions : List String)
    (origin : String) : String → Prop
  | origin : Asked shown extensions origin origin
  | beside {path : String} {m : Module} {rid : Nat} {assembly : String} {name : TypeName}
      {extension : String} (h : Asked shown extensions origin path) (hshown : shown path = .ok m)
      (htarget : m.referenceTarget rid = .ok (some (assembly, name)))
      (hextension : extension ∈ extensions) :
      Asked shown extensions origin (Path.module (Path.directoryOf path) assembly extension)

/-- What a store shows of the paths that can be asked for on the way from an origin. -/
def ModuleStore.nearby (read : String → Except Fault Image) (extensions : List String)
    (origin : String) (s : ModuleStore) : View where
  paths := Asked (s.shown read) extensions origin
  shown := s.shown read

/-- The modules beside the modules of a view are in the view. -/
def View.Closed (v : View) (extensions : List String) : Prop :=
  ∀ path m rid assembly name, v.paths path → v.shown path = .ok m →
    m.referenceTarget rid = .ok (some (assembly, name)) → ∀ extension ∈ extensions,
      v.paths (Path.module (Path.directoryOf path) assembly extension)

theorem View.Closed.accord {v : View} {extensions : List String} (h : v.Closed extensions) :
    v.accord.Closed extensions := by
  rintro path opened opened' rid assembly name hpath ⟨m, hshown, hm, -⟩ htarget
  rw [hm.referenceTarget] at htarget
  exact h path m rid assembly name hpath hshown htarget

namespace ModuleStore
variable {read : String → Except Fault Image}

theorem closed_nearby (extensions : List String) (origin : String) (s : ModuleStore) :
    (s.nearby read extensions origin).Closed extensions :=
  fun _ _ _ _ _ hpath hshown htarget _ hextension => .beside hpath hshown htarget hextension

/-- Among files that are not told apart by what paths count as one, all views are coherent. -/
theorem coherent_nearby (hread : ∀ p q, PathKey.ofPath p = PathKey.ofPath q → read p = read q)
    (extensions : List String) (origin : String) (s : ModuleStore) :
    (s.nearby read extensions origin).Coherent :=
  fun p q _ _ hkey => s.agree_shown hkey (hread p q hkey)

theorem fits_nearby (extensions : List String) (origin : String) (s : ModuleStore) :
    s.Fits read (s.nearby read extensions origin) :=
  fun path _ => .refl Module.SameButAttributes.refl (s.shown read path)

end ModuleStore

/-- Two modules that a view shows at one path, up to attributes. -/
structure LocatedModule.Alike (v : View) (l l' : LocatedModule) : Prop where
  path : l.path = l'.path
  asked : v.paths l.path
  shown : ∃ m, v.shown l.path = .ok m ∧ l.module.SameButAttributes m ∧
    l'.module.SameButAttributes m

namespace LocatedModule.Alike
variable {v : View} {l l' : LocatedModule} (h : l.Alike v l')
include h

theorem matched : l.Matched v.accord l' := ⟨h.path, h.asked, h.shown⟩

theorem module : l.module.SameButAttributes l'.module := h.matched.module

theorem left : l.Alike v l := by
  obtain ⟨m, hshown, hm, -⟩ := h.shown
  exact ⟨rfl, h.asked, m, hshown, hm, hm⟩

end LocatedModule.Alike
end MethodAtlas
