import MethodAtlas.Proofs.Module.Cycles
import MethodAtlas.Proofs.Resolution.References

/-!
# What becomes of a handle

Callers go on by what a handle is resolved to, so each outcome has to mean one thing. A reference is
`Module.LeadsTo` an assembly if its scopes end in one whose name can be read; only then the locator
is asked, once and for that name, and `ResolvedBy` tells the outcome from its answer.
`resolveType_outcomes` puts together what becomes of every handle, for every locator.
-/
namespace MethodAtlas

namespace Module
variable {m : Module} {rid : Nat}

/-- The name that the row of an assembly gives. -/
def assemblyName (m : Module) (rid : Nat) : Except Fault String := do
  let row ← m.needRow AssemblyReference rid
  m.string row.record.name

/-- The scopes of a reference end in an assembly of this name, and name a type of it by this. -/
def LeadsTo (m : Module) (rid : Nat) (assembly : String) (name : TypeName) : Prop :=
  ∃ rids path scope, Ends m.nextScope rid rids ∧ m.ReferenceSpelled rids (path, scope) ∧
    scope.table = .assemblyRef ∧ scope.isNull = false ∧ m.assemblyName scope.row = .ok assembly ∧
    name = path.toTypeName

theorem referenceTarget_of_shape {path : TypePath} {scope : CodedIndex}
    (hpath : m.referencePath rid = .ok (path, scope))
    (hscope : scope.table ≠ .assemblyRef ∨ scope.isNull = true) :
    m.referenceTarget rid = .ok none := by
  rw [referenceTarget, hpath, Outcome.ok_bind]
  exact if_pos hscope

/-- The target of a reference is the assembly that its scopes end in. -/
theorem referenceTarget_eq_some_iff {assembly : String} {name : TypeName} :
    m.referenceTarget rid = .ok (some (assembly, name)) ↔ m.LeadsTo rid assembly name := by
  constructor
  · intro h
    obtain ⟨path, scope, row, hpath, htable, hnull, hrow, hname, rfl⟩ := referenceTarget_eq_some h
    obtain ⟨rids, hends, hspelled⟩ := referencePath_eq_ok_iff.mp hpath
    refine ⟨rids, path, scope, hends, hspelled, htable, hnull, ?_, rfl⟩
    rw [assemblyName, hrow, Outcome.ok_bind, hname]
  · rintro ⟨rids, path, scope, hends, hspelled, htable, hnull, hname, rfl⟩
    obtain ⟨row, hrow, hname⟩ := Outcome.bind_eq_ok.mp hname
    have hscope : ¬ (scope.table ≠ .assemblyRef ∨ scope.isNull = true) := by simp [htable, hnull]
    rw [referenceTarget, referencePath_eq_ok_iff.mpr ⟨rids, hends, hspelled⟩, Outcome.ok_bind]
    simp only [if_neg hscope, hrow, Outcome.ok_bind, hname]
    rfl

end Module

/-- What a reference to a type of this name becomes, by what the locator answers for its assembly
and by what is found in the located module. -/
structure ResolvedBy (name : TypeName) (located : Except Fault (Option LocatedModule))
    (outcome : Except Fault Resolution) : Prop where
  moduleNotFound : outcome = .ok (.failed .moduleNotFound) ↔ located = .ok none
  unlocated {e : Fault} (h : located = .error e) : outcome = .error e
  notFound : outcome = .ok (.failed .notFound) ↔
    ∃ target, located = .ok (some target) ∧ target.module.findType name = .ok none
  unsearched {target : LocatedModule} {e : Fault} (h : located = .ok (some target))
    (he : target.module.findType name = .error e) : outcome = .error e
  found (target : LocatedModule) (rid : Nat) : outcome = .ok (.found (.elsewhere target rid)) ↔
    located = .ok (some target) ∧ target.module.findType name = .ok (some rid)

theorem resolveIn_some (name : TypeName) (target : LocatedModule) :
    resolveIn name (some target) =
      match target.module.findType name with
      | .error e => .error e
      | .ok none => .ok (.failed .notFound)
      | .ok (some rid) => .ok (.found (.elsewhere target rid)) := by
  rw [resolveIn]
  rcases target.module.findType name with e | _ | rid <;> rfl

theorem resolvedBy_some (name : TypeName) (target : LocatedModule) :
    ResolvedBy name (.ok (some target)) (resolveIn name (some target)) where
  moduleNotFound := by
    rw [resolveIn_some]
    rcases target.module.findType name with e | _ | rid <;> simp
  unlocated h := nomatch h
  notFound := by
    rw [resolveIn_some]
    simp only [Except.ok.injEq, Option.some.injEq, exists_eq_left']
    rcases target.module.findType name with e | _ | rid <;> simp
  unsearched h he := by
    cases h
    rw [resolveIn_some, he]
  found target' rid := by
    constructor
    · intro h
      obtain ⟨hsame, hfound⟩ := resolveIn_eq_elsewhere h
      exact ⟨by rw [hsame], hfound⟩
    · rintro ⟨h, hfound⟩
      cases h
      rw [resolveIn_some, hfound]

theorem resolvedBy_bind (name : TypeName) (located : Except Fault (Option LocatedModule)) :
    ResolvedBy name located (located >>= resolveIn name) := by
  rcases located with e | _ | target
  · constructor <;> simp
  · constructor <;> simp [resolveIn]
  · exact resolvedBy_some name target

theorem resolveIn_ne_ambiguous (name : TypeName) (located : Except Fault (Option LocatedModule)) :
    (located >>= resolveIn name) ≠ .ok (.failed .ambiguous) := by
  rcases located with e | _ | target
  · simp
  · simp [resolveIn]
  · rw [Outcome.ok_bind, resolveIn_some]
    rcases target.module.findType name with e | _ | rid <;> simp

section Recording
variable {σ : Type} (locate : String → ExceptT Fault (StateM σ) (Option LocatedModule))

/-- A locator that notes the names that it is asked for. -/
def recording (name : String) : ExceptT Fault (StateM (List String × σ)) (Option LocatedModule) :=
  ExceptT.mk fun (asked, s) =>
    let (located, s') := Query.exec (locate name) s
    (located, asked ++ [name], s')

/-- What a handle is resolved to, the names that the locator has been asked for then, and its
state. -/
def resolveRecording (m : Module) (handle : TypeHandle) (asked : List String) (s : σ) :
    Except Fault Resolution × List String × σ :=
  Query.exec (resolveType (recording locate) m handle) (asked, s)

/-- What becomes of the handles of a module, where the locator has been asked for `asked` and is in
the state `s`. -/
structure HandlesResolved (m : Module) (asked : List String) (s : σ) : Prop where
  /-- Noting the names changes nothing. -/
  plain (handle : TypeHandle) : Query.exec (resolveType locate m handle) s =
    ((resolveRecording locate m handle asked s).1, (resolveRecording locate m handle asked s).2.2)
  nil : resolveRecording locate m .nil asked s = (.ok .nil, asked, s)
  definition (rid : Nat) :
    resolveRecording locate m (.definition rid) asked s = (.ok (.found (.here rid)), asked, s)
  specification (rid : Nat) : resolveRecording locate m (.specification rid) asked s =
    (.ok (.failed .unsupportedShape), asked, s)
  /-- Scopes that end in anything but an assembly are not followed. -/
  unsupported {rid : Nat} {rids : List Nat} {path : TypePath} {scope : CodedIndex}
    (hends : Ends m.nextScope rid rids) (hspelled : m.ReferenceSpelled rids (path, scope))
    (hscope : scope.table ≠ .assemblyRef ∨ scope.isNull = true) :
    resolveRecording locate m (.reference rid) asked s =
      (.ok (.failed .unsupportedShape), asked, s)
  /-- The locator is asked once, for the assembly that the scopes end in. -/
  reference {rid : Nat} {assembly : String} {name : TypeName} (h : m.LeadsTo rid assembly name) :
    (resolveRecording locate m (.reference rid) asked s).2 =
      (asked ++ [assembly], (Query.exec (locate assembly) s).2) ∧
    ResolvedBy name (Query.exec (locate assembly) s).1
      (resolveRecording locate m (.reference rid) asked s).1
  /-- The locator is asked for nothing else. -/
  unasked {handle : TypeHandle}
    (h : ∀ rid assembly name, handle = .reference rid → ¬ m.LeadsTo rid assembly name) :
    (resolveRecording locate m handle asked s).2 = (asked, s)
  unambiguous (handle : TypeHandle) :
    (resolveRecording locate m handle asked s).1 ≠ .ok (.failed .ambiguous)

end Recording

section Resolve
variable {σ : Type} {locate : String → ExceptT Fault (StateM σ) (Option LocatedModule)}
  {m : Module} {rid : Nat}

theorem exec_recording (name : String) (asked : List String) (s : σ) :
    Query.exec (recording locate name) (asked, s) =
      ((Query.exec (locate name) s).1, asked ++ [name], (Query.exec (locate name) s).2) := rfl

/-- A reference into an assembly is resolved by what the locator answers for that. -/
theorem exec_resolveType_of_target {assembly : String} {name : TypeName} (s : σ)
    (h : m.referenceTarget rid = .ok (some (assembly, name))) :
    Query.exec (resolveType locate m (.reference rid)) s =
      ((Query.exec (locate assembly) s).1 >>= resolveIn name,
        (Query.exec (locate assembly) s).2) := by
  cases hlocate : Query.exec (locate assembly) s with
  | mk located s' =>
    cases located with
    | ok target => exact exec_resolveType_of_some h hlocate
    | error e =>
      rw [resolveType, h, Query.exec_bind_of_ok (Query.exec_mk_pure _ _)]
      simp only
      rw [Query.exec_bind, hlocate]
      rfl

/-- Without an assembly to look in, a reference is resolved without the locator. -/
theorem exec_resolveType_of_no_target (s : σ)
    (h : ∀ assembly name, m.referenceTarget rid ≠ .ok (some (assembly, name))) :
    Query.exec (resolveType locate m (.reference rid)) s =
      ((m.referenceTarget rid).map fun _ => .failed .unsupportedShape, s) := by
  rw [resolveType, Query.exec_bind, Query.exec_mk_pure]
  rcases htarget : m.referenceTarget rid with e | _ | ⟨assembly, name⟩
  · rfl
  · rfl
  · exact absurd htarget (h assembly name)

end Resolve

/-- What becomes of every handle, for every locator. -/
theorem resolveType_outcomes {σ : Type}
    (locate : String → ExceptT Fault (StateM σ) (Option LocatedModule)) (m : Module)
    (asked : List String) (s : σ) : HandlesResolved locate m asked s where
  plain handle := by
    cases handle with
    | reference rid =>
      by_cases h : ∃ assembly name, m.referenceTarget rid = .ok (some (assembly, name))
      · obtain ⟨assembly, name, htarget⟩ := h
        rw [resolveRecording, exec_resolveType_of_target _ htarget,
          exec_resolveType_of_target _ htarget, exec_recording]
      · have htarget : ∀ assembly name, m.referenceTarget rid ≠ .ok (some (assembly, name)) := by
          simpa using h
        rw [resolveRecording, exec_resolveType_of_no_target _ htarget,
          exec_resolveType_of_no_target _ htarget]
    | _ => rfl
  nil := rfl
  definition _ := rfl
  specification _ := rfl
  unsupported hends hspelled hscope := by
    have hpath := Module.referencePath_eq_ok_iff.mpr ⟨_, hends, hspelled⟩
    have htarget := Module.referenceTarget_of_shape hpath hscope
    rw [resolveRecording, exec_resolveType_of_no_target _ (by simp [htarget]), htarget]
    rfl
  reference {rid assembly name} h := by
    rw [resolveRecording, exec_resolveType_of_target _ (Module.referenceTarget_eq_some_iff.mpr h),
      exec_recording]
    exact ⟨rfl, resolvedBy_bind name _⟩
  unasked {handle} h := by
    cases handle with
    | reference rid =>
      have htarget : ∀ assembly name, m.referenceTarget rid ≠ .ok (some (assembly, name)) :=
        fun assembly name htarget =>
          h rid assembly name rfl (Module.referenceTarget_eq_some_iff.mp htarget)
      rw [resolveRecording, exec_resolveType_of_no_target _ htarget]
    | _ => rfl
  unambiguous handle := by
    cases handle with
    | reference rid =>
      by_cases h : ∃ assembly name, m.referenceTarget rid = .ok (some (assembly, name))
      · obtain ⟨assembly, name, htarget⟩ := h
        rw [resolveRecording, exec_resolveType_of_target _ htarget]
        exact resolveIn_ne_ambiguous name _
      · have htarget : ∀ assembly name, m.referenceTarget rid ≠ .ok (some (assembly, name)) := by
          simpa using h
        rw [resolveRecording, exec_resolveType_of_no_target _ htarget]
        rcases m.referenceTarget rid with e | _ <;> simp [Except.map]
    | _ => simp [resolveRecording, resolveType]

theorem resolveType_outcomes_sample :
    Sample.module.LeadsTo 3 "base" ⟨"N", ["Y"], "Inner"⟩ ∧
      ∃ target : LocatedModule, target.module = Sample.module ∧
        resolveRecording (fun _ => pure (some target)) Sample.module (.reference 3) [] () =
          (.ok (.found (.elsewhere target 3)), ["base"], ()) := by
  let target : LocatedModule := ⟨"base.dll", ⟨0, Sample.module⟩⟩
  have hnext : Sample.module.nextScope 3 = some 2 ∧ Sample.module.nextScope 2 = none := by
    decide +kernel
  have hnames : Sample.module.scopes.named (Sample.module.needRow TypeReference) 3 = .ok "Inner" ∧
      Sample.module.scopes.named (Sample.module.needRow TypeReference) 2 = .ok "Y" ∧
      Sample.module.scopes.ended (Sample.module.needRow TypeReference) 2 =
        .ok ("N", ⟨.assemblyRef, 2⟩) ∧
      Sample.module.assemblyName 2 = .ok "base" := by decide +kernel
  have hleads : Sample.module.LeadsTo 3 "base" ⟨"N", ["Y"], "Inner"⟩ :=
    ⟨[3, 2], ⟨"N", ["Y", "Inner"]⟩, ⟨.assemblyRef, 2⟩, .step hnext.1 (.last hnext.2),
      ⟨.cons hnames.1 (.cons hnames.2.1 .nil), 2, rfl, hnames.2.2.1⟩, rfl, rfl, hnames.2.2.2, rfl⟩
  have hfind : target.module.findType ⟨"N", ["Y"], "Inner"⟩ = .ok (some 3) := by decide +kernel
  have hresolved :=
    (resolveType_outcomes (σ := Unit) (fun _ => pure (some target)) Sample.module [] ()).reference
      hleads
  exact ⟨hleads, target, rfl,
    Prod.ext ((hresolved.2.found target 3).mpr ⟨rfl, hfind⟩) hresolved.1⟩

end MethodAtlas
