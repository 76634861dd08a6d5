import MethodAtlas.Proofs.Resolution.Discovery

/-!
# The base types of an attribute

An attribute marks its method if its type or one of the base types has the name of a marker. The
search for that name looks at a type, goes to its base type and looks again, each time in the module
that names the type. Here the chain of base types stands alone, as far as it can be resolved, and
`StateMachine.isMarker_eq_true_iff` tells the answer of the search from it.
-/
namespace MethodAtlas

namespace StateMachine

/-- A type on the way along base types. -/
structure Link where
  /-- The module that names the type. -/
  module : LocatedModule
  /-- The type, as that module names it. -/
  handle : TypeHandle
  /-- The modules that are known when the type is resolved. -/
  store : ModuleStore

/-- A handle that is a definition or a reference has a full name in its module. -/
inductive HasName (m : Module) : TypeHandle → String → Prop
  | definition {rid : Nat} {name : String} (h : m.typeFullName rid = .ok name) :
      HasName m (.definition rid) name
  | reference {rid : Nat} {name : String} (h : m.referenceFullName rid = .ok name) :
      HasName m (.reference rid) name

theorem handleName_eq_some_iff {m : Module} {handle : TypeHandle} {name : String} :
    handleName m handle = .ok (some name) ↔ HasName m handle name := by
  have hmap : ∀ r : Except Fault String, some <$> r = .ok (some name) ↔ r = .ok name := by
    intro r
    cases r <;> simp
  constructor
  · intro h
    cases handle with
    | nil => cases h
    | definition rid => exact .definition ((hmap _).mp h)
    | reference rid => exact .reference ((hmap _).mp h)
    | specification rid => cases h
  · intro h
    cases h with
    | definition h => exact (hmap _).mpr h
    | reference h => exact (hmap _).mpr h

namespace Link

/-- The type has the name of a marker in its module. -/
def IsMarker (l : Link) : Prop := ∃ name ∈ markers, HasName l.module.module l.handle name

variable (disk : Disk) (config : Config)

/-- The row that defines the type and its module, found beside the module that names the type, and
the modules that are known after that. There is none if the type cannot be resolved. -/
def defining (l : Link) : Option ((LocatedModule × Nat) × ModuleStore) :=
  match Query.exec (resolveBeside disk config.extensions l.module l.handle) l.store with
  | (.ok (.found type), s) => some (type.place l.module, s)
  | (.ok .nil, _) | (.ok (.failed _), _) | (.error _, _) => none

/-- The base type, which the module that defines the type names. -/
def next (l : Link) : Option Link := do
  let (place, s) ← l.defining disk config
  let row ← place.1.module.row TypeDefinition place.2
  pure ⟨place.1, .ofCoded row.record.base, s⟩

/-- The types from a first one on, each the base type of the one before it. -/
def chain (first : Link) : Nat → Option Link
  | 0 => some first
  | i + 1 => (first.chain i).bind (next disk config)

/-- What there is to be read of the type is not damaged. -/
structure Readable (l : Link) : Prop where
  name : ∃ named, handleName l.module.module l.handle = .ok named
  row : ∀ place s, l.defining disk config = some (place, s) →
    (place.1.module.row TypeDefinition place.2).isSome

/-- The answer of the search that goes on from a type. -/
def answer (left : Nat) (l : Link) : Except Fault Bool :=
  (Query.exec (isMarker disk config left l.module l.handle) l.store).1

variable {disk config} {l : Link}

/-- The chain of a type goes on as that of its base type. -/
theorem chain_succ (first : Link) (i : Nat) :
    first.chain disk config (i + 1) =
      (first.next disk config).bind fun base => base.chain disk config i := by
  induction i with
  | zero => cases h : first.next disk config <;> simp [chain, h]
  | succ i ih =>
    rw [chain, ih, Option.bind_assoc]
    rfl

/-- A type without a name has no base type. -/
theorem next_of_handleName_eq_none (h : handleName l.module.module l.handle = .ok none) :
    l.next disk config = none := by
  have hmap : ∀ r : Except Fault String, some <$> r ≠ .ok none := by
    intro r
    cases r <;> simp
  obtain ⟨m, handle, s⟩ := l
  cases handle with
  | nil => rfl
  | definition rid => exact absurd h (hmap _)
  | reference rid => exact absurd h (hmap _)
  | specification rid => rfl

/-- The search stops at a marker, whether or not its type can be resolved. -/
theorem answer_of_isMarker (h : l.IsMarker) (left : Nat) :
    answer disk config (left + 1) l = .ok true := by
  obtain ⟨name, hmem, hname⟩ := h
  rw [answer, isMarker, handleName_eq_some_iff.mpr hname,
    Query.exec_bind_of_ok (Query.exec_ofExcept _ _)]
  simp only [List.contains_iff_mem.mpr hmem]
  rfl

theorem defining_of_found {type : FoundType} {s : ModuleStore}
    (h : Query.exec (resolveBeside disk config.extensions l.module l.handle) l.store =
      (.ok (.found type), s)) :
    l.defining disk config = some (type.place l.module, s) := by
  simp only [defining, h]

theorem next_of_defining {place : LocatedModule × Nat} {s : ModuleStore}
    {row : Row TypeDefinition} (h : l.defining disk config = some (place, s))
    (hrow : place.1.module.row TypeDefinition place.2 = some row) :
    l.next disk config = some ⟨place.1, .ofCoded row.record.base, s⟩ := by
  simp [next, h, hrow]

/-- The base type of a type that can be read is looked for and not missed where there is none. -/
theorem exec_baseOf (hread : l.Readable disk config) :
    ∃ s, Query.exec (baseOf disk config l.module l.handle) l.store =
        (.ok ((l.next disk config).map fun base => (base.module, base.handle)), s) ∧
      ∀ base, l.next disk config = some base → base.store = s := by
  rw [baseOf, Query.exec_bind_of_ok (Query.exec_attempt _ _)]
  rcases hrun : Query.exec (resolveBeside disk config.extensions l.module l.handle) l.store with
    ⟨e | _ | type | why, s⟩
  case ok.found =>
    have hdefining := defining_of_found hrun
    obtain ⟨row, hrow⟩ := Option.isSome_iff_exists.mp (hread.row _ _ hdefining)
    have hneed := Module.needRow_eq_ok.mpr hrow
    rw [next_of_defining hdefining hrow]
    refine ⟨s, ?_, by simp⟩
    simp only [hneed]
    rfl
  case error | ok.nil | ok.failed =>
    have hnext : l.next disk config = none := by simp [next, defining, hrun]
    exact ⟨s, by simp [hnext], by simp [hnext]⟩

/-- The search goes on from a type that is no marker to its base type, and ends without one. -/
theorem answer_of_not_isMarker (hread : l.Readable disk config) (h : ¬l.IsMarker) (left : Nat) :
    answer disk config (left + 1) l =
      ((l.next disk config).map (answer disk config left)).getD (.ok false) := by
  obtain ⟨named, hnamed⟩ := hread.name
  rw [answer, isMarker, hnamed, Query.exec_bind_of_ok (Query.exec_ofExcept _ _)]
  cases named with
  | none =>
    rw [next_of_handleName_eq_none hnamed]
    rfl
  | some name =>
    have hplain : name ∉ markers := by
      intro hmem
      exact h ⟨name, hmem, handleName_eq_some_iff.mp hnamed⟩
    obtain ⟨s, hbase, hstore⟩ := exec_baseOf hread
    simp only [List.contains_iff_mem, if_neg hplain]
    rw [Query.exec_bind_of_ok hbase]
    cases hnext : l.next disk config with
    | none => rfl
    | some base =>
      rw [← hstore base hnext]
      rfl

/-- A type of a chain is its first one or lies on the chain of the base type. -/
theorem exists_chain_succ_iff {P : Link → Prop} {left : Nat} :
    (∃ i < left + 1, ∃ l', l.chain disk config i = some l' ∧ P l') ↔
      P l ∨ ∃ base, l.next disk config = some base ∧
        ∃ i < left, ∃ l', base.chain disk config i = some l' ∧ P l' := by
  constructor
  · rintro ⟨i, hi, l', hl', h⟩
    cases i with
    | zero =>
      cases hl'
      exact .inl h
    | succ i =>
      rw [chain_succ] at hl'
      obtain ⟨base, hbase, hl'⟩ := Option.bind_eq_some_iff.mp hl'
      exact .inr ⟨base, hbase, i, Nat.lt_of_succ_lt_succ hi, l', hl', h⟩
  · rintro (h | ⟨base, hbase, i, hi, l', hl', h⟩)
    · exact ⟨0, Nat.zero_lt_succ left, l, rfl, h⟩
    · refine ⟨i + 1, Nat.succ_lt_succ hi, l', ?_, h⟩
      rw [chain_succ, hbase]
      exact hl'

/-- The search finds a marker just if there is one among the types that it looks at. -/
theorem exists_answer {left : Nat}
    (hread : ∀ i < left, ∀ l', l.chain disk config i = some l' → l'.Readable disk config) :
    ∃ found, answer disk config left l = .ok found ∧
      (found = true ↔ ∃ i < left, ∃ l', l.chain disk config i = some l' ∧ l'.IsMarker) := by
  -- A type that is no marker leaves the search with one look fewer, at its base type.
  induction left generalizing l with
  | zero => exact ⟨false, rfl, by simp⟩
  | succ left ih =>
    rw [exists_chain_succ_iff]
    by_cases hmarker : l.IsMarker
    · exact ⟨true, answer_of_isMarker hmarker left, iff_of_true rfl (.inl hmarker)⟩
    · rw [answer_of_not_isMarker (hread 0 (Nat.zero_lt_succ left) l rfl) hmarker,
        or_iff_right hmarker]
      cases hnext : l.next disk config with
      | none => exact ⟨false, rfl, by simp⟩
      | some base =>
        have hbase : ∀ i < left, ∀ l', base.chain disk config i = some l' →
            l'.Readable disk config := by
          intro i hi l' hl'
          apply hread (i + 1) (Nat.succ_lt_succ hi)
          rw [chain_succ, hnext]
          exact hl'
        simpa using ih hbase

end Link

/-- If nothing that is read along the base types of an attribute is damaged, then the search finds a
marker just if the attribute or one of its base types has the name of one, no further away than the
limit on their number. A type with such a name need not be resolved itself. -/
theorem isMarker_eq_true_iff (disk : Disk) (config : Config) (m : LocatedModule)
    (handle : TypeHandle) (s : ModuleStore)
    (hread : ∀ i ≤ config.depthLimit, ∀ l, Link.chain disk config ⟨m, handle, s⟩ i = some l →
      l.Readable disk config) :
    ∃ found,
      (Query.exec (isMarker disk config (config.depthLimit + 1) m handle) s).1 = .ok found ∧
      (found = true ↔ ∃ i ≤ config.depthLimit, ∃ l,
        Link.chain disk config ⟨m, handle, s⟩ i = some l ∧ l.IsMarker) := by
  simp only [← Nat.lt_succ_iff] at hread ⊢
  exact Link.exists_answer hread

end StateMachine

open StateMachine

namespace Sample

/-- The type `N.Y` of the assembly `base`. -/
def derived : Link := ⟨origin, .reference 2, openedOnce⟩

/-- Its base type, a marker whose own module is missing. -/
def marker : Link := ⟨base, .reference 6, openedTwice⟩

theorem defining_derived :
    derived.defining (.constant readCased) .standard = some ((base, 2), openedTwice) := by
  have hrun : Query.exec (resolveBeside (.constant readCased) Config.standard.extensions
      derived.module derived.handle) derived.store =
        (.ok (.found (.elsewhere base 2)), openedTwice) := exec_resolveBeside_base
  exact Link.defining_of_found hrun

theorem row_and_names_derived :
    base.module.row TypeDefinition 2 = some ⟨2, 14, ⟨0, 7, 1, ⟨.typeRef, 6⟩, 1, 2⟩⟩ ∧
      handleName module derived.handle = .ok (some "N.Y") ∧
      handleName module marker.handle =
        .ok (some "System.Runtime.CompilerServices.StateMachineAttribute") := by
  decide +kernel

theorem next_derived : derived.next (.constant readCased) .standard = some marker :=
  Link.next_of_defining defining_derived row_and_names_derived.1

theorem defining_marker : marker.defining (.constant readCased) .standard = none := by
  have hnone : (marker.defining (.constant readCased) .standard).isNone := by decide +kernel
  exact Option.isNone_iff_eq_none.mp hnone

end Sample

theorem isMarker_eq_true_iff_sample :
    Sample.derived.chain (.constant Sample.readCased) .standard 1 = some Sample.marker ∧
      Sample.marker.defining (.constant Sample.readCased) .standard = none ∧
      (Query.exec (isMarker (.constant Sample.readCased) .standard 65 Sample.origin
        (.reference 2)) Sample.openedOnce).1 = .ok true := by
  obtain ⟨hrow, hderived, hmarker⟩ := Sample.row_and_names_derived
  have hchain : Sample.derived.chain (.constant Sample.readCased) .standard 1 =
      some Sample.marker := by
    rw [Link.chain_succ, Sample.next_derived]
    rfl
  have hread : ∀ i ≤ Config.standard.depthLimit, ∀ l,
      Sample.derived.chain (.constant Sample.readCased) .standard i = some l →
        l.Readable (.constant Sample.readCased) .standard := by
    intro i _ l hl
    cases i with
    | zero =>
      cases hl
      refine ⟨⟨_, hderived⟩, ?_⟩
      intro place s hplace
      rw [Sample.defining_derived] at hplace
      cases hplace
      rw [hrow]
      rfl
    | succ i =>
      rw [Link.chain_succ, Sample.next_derived, Option.bind_some] at hl
      cases i with
      | zero =>
        cases hl
        refine ⟨⟨_, hmarker⟩, ?_⟩
        intro place s hplace
        rw [Sample.defining_marker] at hplace
        cases hplace
      | succ i =>
        rw [Link.chain_succ, Link.next, Sample.defining_marker] at hl
        cases hl
  obtain ⟨found, hfound, hiff⟩ := isMarker_eq_true_iff (.constant Sample.readCased) .standard
    Sample.origin (.reference 2) Sample.openedOnce hread
  have hmarked : Sample.marker.IsMarker := ⟨_, by decide, handleName_eq_some_iff.mp hmarker⟩
  rw [hiff.mpr ⟨1, by decide, Sample.marker, hchain, hmarked⟩] at hfound
  exact ⟨hchain, Sample.defining_marker, hfound⟩

end MethodAtlas
