import MethodAtlas.Resolution.Declaring
import MethodAtlas.Proofs.Module.Members
import MethodAtlas.Proofs.Store.View

/-!
# The walk to the declaring type

The walk from the reported type mixes looking at types with resolving their bases. Here the two are
apart: `bases` is the chain of base types alone, and `exec_walk` says that the walk is a look at
each type of that chain. A look fails where it cannot read what it needs, so the walk has an answer
just if every type that it looks at is intact (`isOk_lookAlong`). The answer is then told from the
numbers of public methods along the chain: `findDeclaringType_isTold`.
-/
namespace MethodAtlas

namespace Declaring

/-- The types that the base columns lead to from a type on, at most `left` of them. Each is resolved
beside the module of the one before it, with the store that resolving that one has left. -/
def bases (disk : Disk) (config : Config) :
    (left : Nat) → LocatedModule × Nat → ModuleStore → List (LocatedModule × Nat)
  | 0, _, _ => []
  | left + 1, c, s =>
    match c.1.module.row TypeDefinition c.2 with
    | none => []
    | some row =>
      match Query.exec (resolveBeside disk config.extensions c.1 (.ofCoded row.record.base)) s with
      | (.ok (.found type), s') => type.place c.1 :: bases disk config left (type.place c.1) s'
      | (.ok .nil, _) | (.ok (.failed _), _) | (.error _, _) => []

/-- Whether a type has exactly one public method of a name. -/
def declares (name : String) (c : LocatedModule × Nat) : Bool :=
  match c.1.module.row TypeDefinition c.2 with
  | none => false
  | some row => (c.1.module.publicNamed row name).length = 1

/-- Whether a type has several public methods of a name. -/
def isAmbiguous (name : String) (c : LocatedModule × Nat) : Bool :=
  match c.1.module.row TypeDefinition c.2 with
  | none => false
  | some row => 1 < (c.1.module.publicNamed row name).length

/-- Whether a type and the names of its public methods can be read. -/
def isReadable (c : LocatedModule × Nat) : Bool :=
  match c.1.module.row TypeDefinition c.2 with
  | none => false
  | some row => c.1.module.publicNamesReadable row

/-- The full name of a type. -/
def fullName (c : LocatedModule × Nat) : Except Fault String := c.1.module.typeFullName c.2

/-- Whether an event holds the full name of a type: it is passed over, and events are recorded. -/
def isRecorded (config : Config) (name : String) (c : LocatedModule × Nat) : Bool :=
  config.debugEvents && isAmbiguous name c

/-- Whether a look at a type has an outcome: the type and the names of its public methods can be
read, and its full name too if that is to be answered or recorded. -/
def isIntact (config : Config) (name : String) (kept : Option Target) (c : LocatedModule × Nat) :
    Bool :=
  isReadable c && (!declares name c || kept.isSome || (fullName c).isOk) &&
    (!isRecorded config name c || (fullName c).isOk)

/-- The types of a chain up to the first that declares the method. -/
def inspected (name : String) : List (LocatedModule × Nat) → List (LocatedModule × Nat)
  | [] => []
  | c :: cs => if declares name c then [c] else c :: inspected name cs

variable (sought : Sought) (disk : Disk) (config : Config)

/-- What looks at the types of a chain answer, one after the other. -/
def lookAlong : (reported : Bool) → Option Target → List (LocatedModule × Nat) →
    Except Fault (Option Target)
  | _, candidate, [] => .ok candidate
  | reported, candidate, c :: chain => do
    match ← inspect sought config reported candidate c.1 c.2 with
    | .answer target => pure target
    | .goOn _ kept => lookAlong false kept chain

/-- What the walk answers at the end of a chain of base types. -/
def answerAlong (candidate : Option Target) (chain : List (LocatedModule × Nat)) :
    Except Fault (Option Target) :=
  match chain.find? (declares sought.methodName) with
  | none => .ok candidate
  | some c =>
    if candidate.isSome then .ok none
    else (fullName c).map fun name => some ⟨c.1.path, name, sought.methodName⟩

/-- What the walk keeps of a look at the reported type. -/
def keptOf (reported : LocatedModule × Nat) : Option Target :=
  if declares sought.methodName reported then some sought.target else none

variable {sought disk config} {candidate kept : Option Target} {m : LocatedModule} {rid : Nat}
  {row : Row TypeDefinition} {reported : Bool} {chain : List (LocatedModule × Nat)}

/-- A look at a type that can be read finds whether it declares the method. -/
theorem inspect_eq (hrow : m.module.row TypeDefinition rid = some row)
    (hread : isReadable (m, rid)) :
    inspect sought config reported candidate m rid =
      if declares sought.methodName (m, rid) then
        if reported then .ok (.goOn (.ofCoded row.record.base) (some sought.target))
        else if candidate.isSome then .ok (.answer none)
        else (fullName (m, rid)).map fun name =>
          .answer (some ⟨m.path, name, sought.methodName⟩)
      else if isRecorded config sought.methodName (m, rid) then
        (fullName (m, rid)).map fun _ => .goOn (.ofCoded row.record.base) candidate
      else .ok (.goOn (.ofCoded row.record.base) candidate) := by
  have hneed : m.module.needRow TypeDefinition rid = .ok row := Module.needRow_eq_ok.mpr hrow
  have hnames : m.module.publicMethodsNamed row sought.methodName =
      .ok (m.module.publicNamed row sought.methodName) := by
    apply Module.publicMethodsNamed_eq
    simpa only [isReadable, hrow] using hread
  rw [inspect, hneed, Outcome.ok_bind, hnames, Outcome.ok_bind]
  simp only [declares, isRecorded, isAmbiguous, hrow, fullName]
  rcases m.module.publicNamed row sought.methodName with _ | ⟨method, _ | ⟨other, methods⟩⟩
  · simp
    rfl
  · cases reported <;> cases candidate <;> simp <;> rfl
  · simp only [recordPassedOver]
    cases config.debugEvents
    · simp
      rfl
    · cases m.module.typeFullName rid <;> simp <;> rfl

/-- A look that has an outcome could read the type and the names of its public methods. -/
theorem isReadable_of_inspect {finding : Finding}
    (h : inspect sought config reported candidate m rid = .ok finding) : isReadable (m, rid) := by
  rw [inspect] at h
  obtain ⟨row, hneed, h⟩ := Outcome.bind_eq_ok.mp h
  obtain ⟨matching, hmatching, -⟩ := Outcome.bind_eq_ok.mp h
  obtain ⟨hread, -⟩ := Module.publicMethodsNamed_eq_ok hmatching
  have hrow := Module.needRow_eq_ok.mp hneed
  simpa only [isReadable, hrow] using hread

theorem exists_row_of_isReadable {c : LocatedModule × Nat} (h : isReadable c) :
    ∃ row, c.1.module.row TypeDefinition c.2 = some row := by
  rw [isReadable] at h
  split at h
  · cases h
  · next row hrow => exact ⟨row, hrow⟩

/-- A look that goes on goes on to the base type that the row of the type names. -/
theorem exists_row_of_goOn {base : TypeHandle}
    (h : inspect sought config reported candidate m rid = .ok (.goOn base kept)) :
    ∃ row, m.module.row TypeDefinition rid = some row ∧ base = .ofCoded row.record.base := by
  have hread := isReadable_of_inspect h
  obtain ⟨row, hrow⟩ := exists_row_of_isReadable hread
  refine ⟨row, hrow, ?_⟩
  rw [inspect_eq hrow hread] at h
  split at h
  · split at h
    · cases h
      rfl
    · split at h
      · cases h
      · cases hfull : fullName (m, rid) <;> rw [hfull] at h <;> cases h
  · split at h
    · cases hfull : fullName (m, rid) <;> rw [hfull] at h <;> cases h
      rfl
    · cases h
      rfl

/-- The base type is looked for and not missed where there is none. -/
theorem exec_baseOf (base : TypeHandle) (s : ModuleStore) :
    Query.exec (baseOf disk config m base) s =
      match Query.exec (resolveBeside disk config.extensions m base) s with
      | (.ok (.found type), s') => (.ok (some (type.place m)), s')
      | (.ok .nil, s') | (.ok (.failed _), s') | (.error _, s') => (.ok none, s') := by
  rw [baseOf, Query.exec_bind_of_ok (Query.exec_attempt _ _)]
  rcases Query.exec (resolveBeside disk config.extensions m base) s with
    ⟨e | _ | type | why, s'⟩ <;> rfl

/-- A walk that goes on from a type goes on at its base type, if it has one. -/
theorem exec_walk_of_goOn {base : TypeHandle} {left : Nat} {s : ModuleStore}
    (h : inspect sought config reported candidate m rid = .ok (.goOn base kept)) :
    Query.exec (walk sought disk config (left + 1) reported candidate m rid) s =
      match Query.exec (resolveBeside disk config.extensions m base) s with
      | (.ok (.found type), s') =>
        Query.exec (walk sought disk config left false kept (type.place m).1 (type.place m).2) s'
      | (.ok .nil, s') | (.ok (.failed _), s') | (.error _, s') => (.ok kept, s') := by
  rw [walk, h, Query.exec_bind_of_ok (Query.exec_ofExcept _ _)]
  simp only
  rw [Query.exec_bind, exec_baseOf]
  rcases Query.exec (resolveBeside disk config.extensions m base) s with
    ⟨e | _ | type | why, s'⟩ <;> rfl

/-- The walk from a type on looks at this type and at its base types, one after the other. -/
theorem exec_walk (sought : Sought) (reported : Bool) (candidate : Option Target)
    (m : LocatedModule) (rid left : Nat) (s : ModuleStore) :
    (Query.exec (walk sought disk config (left + 1) reported candidate m rid) s).1 =
      lookAlong sought config reported candidate
        ((m, rid) :: bases disk config left (m, rid) s) := by
  -- A base type takes the place of the type itself, with what is kept of it as the candidate.
  induction left generalizing reported candidate m rid s with
  | zero =>
    cases hinspect : inspect sought config reported candidate m rid with
    | error e => rw [walk, lookAlong, hinspect]; rfl
    | ok finding =>
      cases finding with
      | answer target => rw [walk, lookAlong, hinspect]; rfl
      | goOn base kept =>
        rw [exec_walk_of_goOn hinspect, lookAlong, hinspect]
        rcases Query.exec (resolveBeside disk config.extensions m base) s with
          ⟨e | _ | type | why, s'⟩ <;> rfl
  | succ left ih =>
    cases hinspect : inspect sought config reported candidate m rid with
    | error e => rw [walk, lookAlong, hinspect]; rfl
    | ok finding =>
      cases finding with
      | answer target => rw [walk, lookAlong, hinspect]; rfl
      | goOn base kept =>
        obtain ⟨row, hrow, rfl⟩ := exists_row_of_goOn hinspect
        rw [exec_walk_of_goOn hinspect, lookAlong, hinspect, Outcome.ok_bind, bases]
        simp only [hrow]
        rcases Query.exec (resolveBeside disk config.extensions m
          (.ofCoded row.record.base)) s with ⟨e | _ | type | why, s'⟩
        · rfl
        · rfl
        · exact ih false kept _ _ s'
        · rfl

theorem isIntact_iff {name : String} {c : LocatedModule × Nat} :
    isIntact config name kept c ↔ isReadable c ∧
      (declares name c → kept.isSome = false → (fullName c).isOk) ∧
      (isRecorded config name c → (fullName c).isOk) := by
  rw [isIntact]
  cases isReadable c <;> cases declares name c <;> cases kept.isSome <;>
    cases isRecorded config name c <;> cases (fullName c).isOk <;> decide

theorem not_declares_of_isRecorded {name : String} {c : LocatedModule × Nat}
    (h : isRecorded config name c) : ¬ declares name c := by
  rw [isRecorded, Bool.and_eq_true, isAmbiguous] at h
  rw [declares]
  split
  · exact Bool.false_ne_true
  · next row hrow =>
    simp only [hrow, decide_eq_true_eq] at h ⊢
    omega

/-- A look that has an outcome could read what it needs. -/
theorem reads_of_inspect {finding : Finding}
    (h : inspect sought config reported candidate m rid = .ok finding) :
    isReadable (m, rid) ∧
      (declares sought.methodName (m, rid) → reported = false → candidate.isSome = false →
        (fullName (m, rid)).isOk) ∧
      (isRecorded config sought.methodName (m, rid) → (fullName (m, rid)).isOk) := by
  have hread := isReadable_of_inspect h
  obtain ⟨row, hrow⟩ := exists_row_of_isReadable hread
  rw [inspect_eq hrow hread] at h
  refine ⟨hread, fun hdeclares hreported hcandidate => ?_, fun hrecorded => ?_⟩
  · rw [if_pos hdeclares, hreported, if_neg Bool.false_ne_true, hcandidate,
      if_neg Bool.false_ne_true] at h
    exact Outcome.isOk_of_map h
  · rw [if_neg (not_declares_of_isRecorded hrecorded), if_pos hrecorded] at h
    exact Outcome.isOk_of_map h

/-- A look at an intact type that does not declare the method goes on with what was kept. -/
theorem inspect_of_not_declares (hintact : isIntact config sought.methodName kept (m, rid))
    (h : declares sought.methodName (m, rid) = false) :
    ∃ base, inspect sought config reported candidate m rid = .ok (.goOn base candidate) := by
  obtain ⟨hread, -, hrecorded⟩ := isIntact_iff.mp hintact
  obtain ⟨row, hrow⟩ := exists_row_of_isReadable hread
  refine ⟨.ofCoded row.record.base, ?_⟩
  rw [inspect_eq hrow hread, h, if_neg Bool.false_ne_true]
  split
  · next hname =>
    obtain ⟨name, hfull⟩ := Outcome.exists_of_isOk (hrecorded hname)
    rw [hfull]
    rfl
  · rfl

/-- A look at an intact base type that declares the method ends a walk with the answer that the type
tells. -/
theorem inspect_of_declares (hintact : isIntact config sought.methodName kept (m, rid))
    (h : declares sought.methodName (m, rid)) (chain : List (LocatedModule × Nat)) :
    ∃ target, inspect sought config false kept m rid = .ok (.answer target) ∧
      answerAlong sought kept ((m, rid) :: chain) = .ok target := by
  obtain ⟨hread, hname, -⟩ := isIntact_iff.mp hintact
  obtain ⟨row, hrow⟩ := exists_row_of_isReadable hread
  rw [inspect_eq hrow hread, if_pos h, if_neg Bool.false_ne_true, answerAlong,
    List.find?_cons_of_pos h]
  cases kept with
  | some _ => exact ⟨none, rfl, rfl⟩
  | none =>
    obtain ⟨name, hfull⟩ := Outcome.exists_of_isOk (hname h rfl)
    dsimp only
    rw [hfull]
    exact ⟨_, rfl, rfl⟩

/-- Looks along a chain go on where the first of them does. -/
theorem lookAlong_cons_of_goOn {base : TypeHandle}
    (h : inspect sought config reported candidate m rid = .ok (.goOn base kept)) :
    lookAlong sought config reported candidate ((m, rid) :: chain) =
      lookAlong sought config false kept chain := by
  rw [lookAlong, h]
  rfl

theorem lookAlong_cons_of_answer {target : Option Target}
    (h : inspect sought config reported candidate m rid = .ok (.answer target)) :
    lookAlong sought config reported candidate ((m, rid) :: chain) = .ok target := by
  rw [lookAlong, h]
  rfl

/-- The answer of looks at intact base types is told by which of them declare the method. -/
theorem lookAlong_eq_answerAlong
    (h : ∀ c ∈ inspected sought.methodName chain, isIntact config sought.methodName kept c) :
    lookAlong sought config false kept chain = answerAlong sought kept chain := by
  induction chain with
  | nil => rfl
  | cons c chain ih =>
    obtain ⟨m, rid⟩ := c
    rw [inspected] at h
    cases hdeclares : declares sought.methodName (m, rid) with
    | true =>
      rw [hdeclares, if_pos rfl, List.forall_mem_singleton] at h
      obtain ⟨target, hlook, hanswer⟩ := inspect_of_declares h hdeclares chain
      rw [lookAlong_cons_of_answer hlook, hanswer]
    | false =>
      rw [hdeclares, if_neg Bool.false_ne_true, List.forall_mem_cons] at h
      obtain ⟨base, hlook⟩ := inspect_of_not_declares h.1 hdeclares
      rw [lookAlong_cons_of_goOn hlook, ih h.2, answerAlong, answerAlong,
        List.find?_cons_of_neg (by simp [hdeclares])]

/-- Looks along a chain of base types have an answer just if each type up to the first that declares
the method is intact. -/
theorem isOk_lookAlong :
    (lookAlong sought config false kept chain).isOk ↔
      ∀ c ∈ inspected sought.methodName chain, isIntact config sought.methodName kept c := by
  induction chain with
  | nil => exact iff_of_true rfl (by simp [inspected])
  | cons c chain ih =>
    obtain ⟨m, rid⟩ := c
    rw [inspected]
    by_cases hintact : isIntact config sought.methodName kept (m, rid)
    · cases hdeclares : declares sought.methodName (m, rid) with
      | true =>
        obtain ⟨target, hlook, -⟩ := inspect_of_declares hintact hdeclares chain
        rw [if_pos rfl, List.forall_mem_singleton, lookAlong_cons_of_answer hlook]
        exact iff_of_true rfl hintact
      | false =>
        obtain ⟨base, hlook⟩ := inspect_of_not_declares hintact hdeclares
        rw [if_neg Bool.false_ne_true, List.forall_mem_cons, lookAlong_cons_of_goOn hlook, ih]
        exact (and_iff_right hintact).symm
    · refine iff_of_false ?_ fun hall => hintact (hall (m, rid) ?_)
      · cases hlook : inspect sought config false kept m rid with
        | error e =>
          rw [lookAlong, hlook]
          exact Bool.false_ne_true
        | ok finding =>
          obtain ⟨hread, hname, hrecorded⟩ := reads_of_inspect hlook
          exact absurd (isIntact_iff.mpr ⟨hread, fun h => hname h rfl, hrecorded⟩) hintact
      -- The type is among those looked at, whether or not it counts as declaring the method.
      · split <;> exact List.mem_cons_self

variable (sought)

/-- Looks from an intact reported type on go on to its base types. -/
theorem lookAlong_reported (hintact : isIntact config sought.methodName (keptOf sought (m, rid))
    (m, rid)) :
    lookAlong sought config true none ((m, rid) :: chain) =
      lookAlong sought config false (keptOf sought (m, rid)) chain := by
  rw [keptOf] at hintact ⊢
  cases hdeclares : declares sought.methodName (m, rid) with
  | true =>
    obtain ⟨hread, -, -⟩ := isIntact_iff.mp hintact
    obtain ⟨row, hrow⟩ := exists_row_of_isReadable hread
    have hlook : inspect sought config true none m rid =
        .ok (.goOn (.ofCoded row.record.base) (some sought.target)) := by
      rw [inspect_eq hrow hread, if_pos hdeclares, if_pos rfl]
    exact lookAlong_cons_of_goOn hlook
  | false =>
    obtain ⟨base, hlook⟩ := inspect_of_not_declares hintact hdeclares
    exact lookAlong_cons_of_goOn hlook

/-- The walk starts at the type of the reported name. -/
theorem exec_findDeclaringType {s s' : ModuleStore} {opened : OpenModule}
    (hopen : Query.exec (Query.module disk sought.origin) s = (.ok opened, s'))
    (hfind : opened.module.findFull sought.typeName = .ok (some rid)) :
    (Query.exec (findDeclaringType disk config sought.origin sought.typeName
        sought.methodName) s).1 =
      lookAlong sought config true none ((⟨sought.origin, opened⟩, rid) ::
        bases disk config config.depthLimit (⟨sought.origin, opened⟩, rid) s') := by
  rw [findDeclaringType, Query.exec_bind_of_ok hopen, hfind,
    Query.exec_bind_of_ok (Query.exec_ofExcept _ _)]
  exact exec_walk sought true none _ rid config.depthLimit s'

variable {sought} {reported : LocatedModule × Nat} {chain : List (LocatedModule × Nat)}

end Declaring

open Declaring

namespace Sample

/-- The type `N.Y+Inner`. -/
def inner : LocatedModule × Nat := (⟨"Tests.dll", ⟨0, module⟩⟩, 3)

/-- The chain of base types of `N.Y+Inner`. -/
def chain : List (LocatedModule × Nat) :=
  bases (.constant read) .standard Config.standard.depthLimit inner store

end Sample

example : (Query.exec (findDeclaringType (.constant Sample.read)
    { Config.standard with depthLimit := 0 } "Tests.dll" "N.Y+Inner" "Go") Sample.store).1 =
      .ok none := by
  decide +kernel

/-- A type that has two public methods `Go` and a name outside the heap. -/
def Sample.overloaded : LocatedModule :=
  let counts : List (Option Nat) := TableId.all.map fun t =>
    if t = .typeDef then some 1 else if t = .methodDef then some 2 else none
  let l : Layout := ⟨counts, false, false, false, 32⟩
  let type : TypeDefinition := ⟨0, 0x7FFF, 0, ⟨.typeDef, 0⟩, 1, 1⟩
  let go : MethodDefinition := ⟨0, 0, 6, 15, 0, 1⟩
  ⟨"Tests.dll", ⟨0, { Sample.module with tables := { Sample.tables with
    layout := l
    slices := [(.typeDef, ⟨(l.encodeRecord type).toArray⟩),
      (.methodDef, ⟨(l.encodeRecord go ++ l.encodeRecord go).toArray⟩)] } }⟩⟩

/-- It is passed over, but not if that is to be recorded. -/
example :
    inspect ⟨"Tests.dll", "N.T", "Go"⟩ .standard true none Sample.overloaded 1 =
      .ok (.goOn .nil none) ∧
    inspect ⟨"Tests.dll", "N.T", "Go"⟩ { Config.standard with debugEvents := true } true none
      Sample.overloaded 1 = .error .outOfBounds := by
  decide +kernel

end MethodAtlas
