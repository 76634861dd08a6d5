import MethodAtlas.Store
import MethodAtlas.Proofs.Module.Reading
import MethodAtlas.Proofs.Store.InStep

/-!
# What a store shows

A view says what requests for some paths show, up to attributes. A store fits it if it answers
these requests so, from what it has kept or from files that do not change. Where paths that count
as one show alike modules, requests keep it so (`fits_request`). Then a query can tell two stores
that fit by nothing that it answers, and neither can two queries in step: `InStep.related`.
-/
namespace MethodAtlas

/-- What requests for some paths show. -/
structure View where
  /-- The paths that can be asked for. -/
  paths : String → Prop
  shown : String → Except Fault Module

/-- Paths that count as one show alike modules. -/
def View.Coherent (v : View) : Prop :=
  ∀ p q, v.paths p → v.paths q → PathKey.ofPath p = PathKey.ofPath q →
    Outcome.Agree Module.SameButAttributes (v.shown p) (v.shown q)

/-- What the file at a path holds. -/
def Module.opened (read : String → Except Fault Image) (path : String) : Except Fault Module :=
  read path >>= Module.ofImage

namespace ModuleStore
variable {read : String → Except Fault Image} {s : ModuleStore} {v : View}

/-- What a request shows. -/
def shown (read : String → Except Fault Image) (s : ModuleStore) (path : String) :
    Except Fault Module :=
  (s.request (.constant read) path).1.map (·.module)

/-- A store answers the requests of a view as the view says. -/
def Fits (read : String → Except Fault Image) (v : View) (s : ModuleStore) : Prop :=
  ∀ path, v.paths path → Outcome.Agree Module.SameButAttributes (s.shown read path) (v.shown path)

/-- What opening a module shows does not depend on what was opened before. -/
theorem map_load (path : String) (s : ModuleStore) :
    (load (.constant read) path s).map (·.module) = Module.opened read path := by
  rw [load, Disk.constant, Module.opened]
  cases read path with
  | error e => rfl
  | ok image =>
    simp only [Outcome.ok_bind]
    cases Module.ofImage image <;> rfl

theorem shown_of_find? {path : String} {entry : StoreEntry} (h : s.find? path = some entry) :
    s.shown read path = (entry.answer path).map (·.module) := by
  rw [shown, request, h]

theorem shown_of_not_find? {path : String} (h : s.find? path = none) :
    s.shown read path = Module.opened read path := by
  rw [shown, request, h, ← map_load path s]

/-- A later request shows what the outcome that is kept of the first one does. -/
theorem agree_map_answer (outcome : Except Fault OpenModule) (path : String) :
    Outcome.Agree Eq (((StoreEntry.ofOutcome outcome).answer path).map (·.module))
      (outcome.map (·.module)) := by
  cases outcome with
  | error e => exact .error rfl
  | ok opened => exact .ok rfl

/-- A request leaves what the store shows as it was, up to modules that are told alike, if paths
that count as one are to show alike modules. -/
theorem agree_shown_request {R : Module → Module → Prop} (hR : Equivalence R)
    (hv : ∀ p q, v.paths p → v.paths q → PathKey.ofPath p = PathKey.ofPath q →
      Outcome.Agree R (v.shown p) (v.shown q))
    (hs : ∀ other, v.paths other → Outcome.Agree R (s.shown read other) (v.shown other))
    {path other : String} (hpath : v.paths path) (hother : v.paths other) :
    Outcome.Agree R ((s.request (.constant read) path).2.shown read other) (v.shown other) := by
  rw [request]
  cases hfind : s.find? path with
  | some entry => exact hs other hother
  | none =>
    have hshown := hs other hother
    set t : ModuleStore := ⟨(PathKey.ofPath path, .ofOutcome (load (.constant read) path s)) ::
      s.entries, s.openings + 1⟩
    by_cases hkey : PathKey.ofPath other = PathKey.ofPath path
    -- The new entry answers for every path of its key, and only `hv` relates these to `path`.
    · have hkept : t.find? other = some (.ofOutcome (load (.constant read) path s)) := by
        rw [find?, hkey, List.lookup_cons_self]
      have hfirst := hs path hpath
      rw [shown_of_not_find? hfind, ← map_load path s] at hfirst
      rw [shown_of_find? hkept]
      have hanswer := (agree_map_answer (load (.constant read) path s) other).trans hfirst
        fun _ _ _ h h' => h ▸ h'
      exact hanswer.trans (hv path other hpath hother hkey.symm) fun _ _ _ => hR.trans
    · have hsame : t.find? other = s.find? other := by
        rw [find?, List.lookup_cons, beq_false_of_ne hkey]
        rfl
      cases hentry : s.find? other with
      | some entry => rwa [shown_of_find? (hsame.trans hentry), ← shown_of_find? hentry]
      | none =>
        rwa [shown_of_not_find? (hsame.trans hentry), ← shown_of_not_find? hentry]

/-- Paths that count as one show the same module if their files are the same. -/
theorem agree_shown {p q : String} (hkey : PathKey.ofPath p = PathKey.ofPath q)
    (hread : read p = read q) :
    Outcome.Agree Module.SameButAttributes (s.shown read p) (s.shown read q) := by
  have hsame : s.find? p = s.find? q := by rw [find?, find?, hkey]
  cases hfind : s.find? p with
  | none =>
    rw [shown_of_not_find? hfind, shown_of_not_find? (hsame ▸ hfind), Module.opened,
      Module.opened, hread]
    exact .refl Module.SameButAttributes.refl _
  | some entry =>
    rw [shown_of_find? hfind, shown_of_find? (hsame ▸ hfind)]
    cases entry with
    | opened m => exact .ok (.refl m.module)
    | failed notFound => exact .error rfl

/-- The store that a request leaves fits again. -/
theorem fits_request (hv : v.Coherent) (hs : s.Fits read v) {path : String}
    (hpath : v.paths path) : (s.request (.constant read) path).2.Fits read v :=
  fun _ hother => agree_shown_request ⟨Module.SameButAttributes.refl,
    Module.SameButAttributes.symm, Module.SameButAttributes.trans⟩ hv hs hpath hother

/-- The first request for a path opens its file. -/
theorem request_of_ofBytes {readHeaders : HeaderReader} {path : String} {bytes : ByteArray}
    {m : Module} (hfind : s.find? path = none) (hread : read path = Image.ofBytes readHeaders bytes)
    (h : Module.ofBytes readHeaders bytes = .ok m) :
    s.request (.constant read) path = (.ok ⟨s.openings, m⟩,
      ⟨(.ofPath path, .opened ⟨s.openings, m⟩) :: s.entries, s.openings + 1⟩) := by
  have hload : load (.constant read) path s = .ok ⟨s.openings, m⟩ := by
    obtain ⟨image, himage, hm⟩ := Outcome.bind_eq_ok.mp h
    rw [load, Disk.constant, hread, himage, Outcome.ok_bind, hm]
    rfl
  rw [request, hfind]
  simp only [hload]
  rfl

/-- A module that was opened is opened again. -/
theorem request_again {disk : Disk} {path : String} {opened : OpenModule} {s' : ModuleStore}
    (h : s.request disk path = (.ok opened, s')) : s'.request disk path = (.ok opened, s') := by
  cases hfind : s.find? path with
  | some entry =>
    obtain rfl : s = s' := by
      rw [request, hfind] at h
      exact congrArg Prod.snd h
    exact h
  | none =>
    rw [request, hfind] at h
    simp only [Prod.mk.injEq] at h
    obtain ⟨hload, rfl⟩ := h
    rw [request, find?, List.lookup_cons_self, hload]
    rfl

end ModuleStore

/-- The requests of a view, which are answered as the view says. -/
def View.accord (v : View) : Accord where
  asked := v.paths
  alike path opened opened' := ∃ m, v.shown path = .ok m ∧ opened.module.SameButAttributes m ∧
    opened'.module.SameButAttributes m
  same := by
    rintro path opened opened' ⟨m, -, hm, hm'⟩
    exact hm.trans hm'.symm

namespace Query
variable {α β : Type}

/-- Two queries, of files each, have outcomes that belong together from all stores that fit a view,
and leave stores that fit. -/
def Related (read read' : String → Except Fault Image) (v : View) (R : α → β → Prop)
    (q : Query α) (q' : Query β) : Prop :=
  ∀ s s', s.Fits read v → s'.Fits read' v →
    Outcome.Agree R (exec q s).1 (exec q' s').1 ∧ (exec q s).2.Fits read v ∧
      (exec q' s').2.Fits read' v

/-- Queries in step over the requests of a view are related. -/
theorem InStep.related {read read' : String → Except Fault Image} {v : View}
    {R : α → β → Prop} {q : Query α} {q' : Query β} (hv : v.Coherent)
    (h : InStep v.accord (.constant read) (.constant read') R q q') :
    Related read read' v R q q' := by
  have hrequest : ∀ path, v.paths path → ∀ s s' : ModuleStore, s.Fits read v ∧ s'.Fits read' v →
      Outcome.Agree (v.accord.alike path) (s.request (.constant read) path).1
          (s'.request (.constant read') path).1 ∧
        (s.request (.constant read) path).2.Fits read v ∧
          (s'.request (.constant read') path).2.Fits read' v := by
    rintro path hpath s s' ⟨hs, hs'⟩
    refine ⟨?_, ModuleStore.fits_request hv hs hpath, ModuleStore.fits_request hv hs' hpath⟩
    exact (Outcome.Agree.map_left_iff.mp (hs path hpath)).meet
      (Outcome.Agree.map_left_iff.mp (hs' path hpath))
  intro s s' hs hs'
  exact h.simulate hrequest ⟨hs, hs'⟩

end Query

namespace Sample

/-- Files that all hold the sample. -/
def read : String → Except Fault Image := Image.fromFile ImageHeaders.read? fun _ => .ok bytes

/-- A store that has opened the sample under two names. -/
def store : ModuleStore where
  entries := [(.ofPath "Tests.dll", .opened ⟨0, module⟩), (.ofPath "base.dll", .opened ⟨1, module⟩)]
  openings := 2

/-- A store that has opened one module and another beside it. -/
def storeOf (m base : Module) : ModuleStore where
  entries := [(.ofPath "Tests.dll", .opened ⟨0, m⟩), (.ofPath "base.dll", .opened ⟨1, base⟩)]
  openings := 2

end Sample
end MethodAtlas
