import MethodAtlas.Module.Names
import MethodAtlas.Proofs.Query
import Mathlib.Data.List.Nodup
import Mathlib.Data.List.Perm.Subperm

/-!
# Chains of rows

A row can lead on to another row of its table, and a chain of rows is followed until it ends.
`Ends` says where it leads; a chain that ends comes by no row twice, so it is no longer than the
table. A walk along a chain of types gives up after as many steps as the table has rows:
`Climb.Serves.endless` says that it does so only where the chain would never end. With a reader that
notes the rows it is asked for, the same walk tells how many rows it looks at.
-/
namespace MethodAtlas

/-- Going on from `rid` comes by these and ends at the last of them. -/
inductive Ends (next : Nat → Option Nat) : (rid : Nat) → (rids : List Nat) → Prop
  | last {rid : Nat} (h : next rid = none) : Ends next rid [rid]
  | step {rid outer : Nat} {rids : List Nat} (h : next rid = some outer)
      (rest : Ends next outer rids) : Ends next rid (rid :: rids)

/-- Going on from `rid` never ends. -/
def Endless (next : Nat → Option Nat) (rid : Nat) : Prop :=
  ∃ visit : Nat → Nat, visit 0 = rid ∧ ∀ n, next (visit n) = some (visit (n + 1))

namespace Ends
variable {next : Nat → Option Nat} {rid : Nat} {rids : List Nat}

theorem unique {rids' : List Nat} (h : Ends next rid rids) (h' : Ends next rid rids') :
    rids = rids' := by
  induction h generalizing rids' with
  | last hnext =>
    cases h' with
    | last _ => rfl
    | step hnext' _ => simp [hnext] at hnext'
  | step hnext _ ih =>
    cases h' with
    | last hnext' => simp [hnext] at hnext'
    | step hnext' rest' =>
      rw [hnext] at hnext'
      cases hnext'
      rw [ih rest']

/-- The rest of a chain is the chain from there. -/
theorem exists_suffix {other : Nat} (h : Ends next rid rids) (hmem : other ∈ rids) :
    ∃ rest, Ends next other rest ∧ rest <:+ rids := by
  induction h with
  | last hnext =>
    obtain rfl := List.mem_singleton.mp hmem
    exact ⟨_, .last hnext, List.suffix_refl _⟩
  | @step rid outer rids hnext hrest ih =>
    rcases List.mem_cons.mp hmem with rfl | hmem
    · exact ⟨_, .step hnext hrest, List.suffix_refl _⟩
    · obtain ⟨rest, hends, hsuffix⟩ := ih hmem
      exact ⟨rest, hends, hsuffix.trans (List.suffix_cons _ _)⟩

theorem nodup (h : Ends next rid rids) : rids.Nodup := by
  induction h with
  | last _ => exact List.nodup_singleton _
  | @step rid outer rids hnext hrest ih =>
    refine List.nodup_cons.mpr ⟨fun hmem => ?_, ih⟩
    obtain ⟨rest, hends, hsuffix⟩ := hrest.exists_suffix hmem
    have hlength := hsuffix.length_le
    rw [← (Ends.step hnext hrest).unique hends, List.length_cons] at hlength
    omega

theorem length_pos (h : Ends next rid rids) : 0 < rids.length := by
  cases h <;> simp

theorem singleton_prefix (h : Ends next rid rids) : [rid] <+: rids := by
  cases h <;> simp

/-- A row that leads on to none is the end of the chain. -/
theorem getLast?_eq {top : Nat} (h : Ends next rid rids) (hmem : top ∈ rids)
    (hnext : next top = none) : rids.getLast? = some top := by
  obtain ⟨rest, hends, hsuffix⟩ := h.exists_suffix hmem
  rw [hends.unique (.last hnext)] at hsuffix
  obtain ⟨before, rfl⟩ := hsuffix
  exact List.getLast?_concat

/-- A beginning of a chain that ends is no longer than there are numbers to come by. -/
theorem length_le_of_prefix {n : Nat} {visited : List Nat} (h : Ends next rid rids)
    (hinitial : visited <+: rids) (hbound : ∀ r ∈ visited, 1 ≤ r ∧ r ≤ n) :
    visited.length ≤ n := by
  have hnodup : visited.Nodup := h.nodup.sublist hinitial.sublist
  have hsubset : visited ⊆ List.range' 1 n := by
    intro r hr
    obtain ⟨h1, h2⟩ := hbound r hr
    exact List.mem_range'_1.mpr ⟨h1, by omega⟩
  calc visited.length ≤ (List.range' 1 n).length := (hnodup.subperm hsubset).length_le
    _ = n := List.length_range'

theorem not_endless (h : Ends next rid rids) : ¬ Endless next rid := by
  induction h with
  | last hnext =>
    rintro ⟨visit, rfl, hvisit⟩
    simp [hvisit 0] at hnext
  | step hnext _ ih =>
    rintro ⟨visit, rfl, hvisit⟩
    rw [hvisit 0] at hnext
    cases hnext
    exact ih ⟨fun n => visit (n + 1), rfl, fun n => hvisit (n + 1)⟩

/-- Every chain ends or never does. -/
theorem exists_of_not_endless (h : ¬ Endless next rid) : ∃ rids, Ends next rid rids := by
  by_contra hnone
  -- Where no chain ends, each row leads on to one from which none ends either.
  have hgoes : ∀ r, (¬ ∃ rids, Ends next r rids) →
      ∃ outer, next r = some outer ∧ ¬ ∃ rids, Ends next outer rids := by
    intro r hr
    cases hnext : next r with
    | none => exact absurd ⟨_, .last hnext⟩ hr
    | some outer => exact ⟨outer, rfl, fun ⟨rids, hends⟩ => hr ⟨_, .step hnext hends⟩⟩
  let visit : Nat → Nat := fun n => Nat.rec rid (fun _ r => (next r).getD r) n
  have hvisit : ∀ n, ¬ ∃ rids, Ends next (visit n) rids := by
    intro n
    induction n with
    | zero => exact hnone
    | succ n ih =>
      obtain ⟨outer, hnext, houter⟩ := hgoes _ ih
      have hsucc : visit (n + 1) = (next (visit n)).getD (visit n) := rfl
      rw [hsucc, hnext]
      exact houter
  refine h ⟨visit, rfl, fun n => ?_⟩
  obtain ⟨outer, hnext, -⟩ := hgoes _ (hvisit n)
  have hsucc : visit (n + 1) = (next (visit n)).getD (visit n) := rfl
  rw [hsucc, hnext]
  rfl

end Ends

/-- Whether a fault says that a chain never ends. -/
def Fault.reportsCycle : Fault → Bool
  | .malformed (.nestingCycle _) | .malformed (.scopeCycle _) => true
  | _ => false

namespace Climb
variable {R ρ : Type}

/-- The name that the row of a number gives. -/
def named (c : Climb R ρ) (read : Nat → Except Fault R) (rid : Nat) : Except Fault String := do
  let row ← read rid
  c.name row

/-- What a chain ends in that ends at the row of a number. -/
def ended (c : Climb R ρ) (read : Nat → Except Fault R) (rid : Nat) : Except Fault ρ := do
  let row ← read rid
  c.last row

/-- Whether the rows of a chain can be read, and give these names, the last first, and this end. -/
def Spells (c : Climb R ρ) (read : Nat → Except Fault R) (rids : List Nat) (last : ρ)
    (names : List String) : Prop :=
  List.Forall₂ (fun rid name => c.named read rid = .ok name) rids names.reverse ∧
    ∃ top, rids.getLast? = some top ∧ c.ended read top = .ok last

/-- What a reader of a table of so many rows has to do with where its rows lead. -/
structure Serves (c : Climb R ρ) (read : Nat → Except Fault R) (next : Nat → Option Nat)
    (rows : Nat) : Prop where
  further {rid : Nat} {row : R} (h : read rid = .ok row) : c.further rid row = next rid
  range {rid : Nat} {row : R} (h : read rid = .ok row) : 1 ≤ rid ∧ rid ≤ rows
  read_fault {rid : Nat} {e : Fault} (h : read rid = .error e) : e.reportsCycle = false
  name_fault {row : R} {e : Fault} (h : c.name row = .error e) : e.reportsCycle = false
  last_fault {row : R} {e : Fault} (h : c.last row = .error e) : e.reportsCycle = false

theorem ofExcept_eq {α : Type} (r : Except Fault α) :
    (MonadExcept.ofExcept r : Except Fault α) = r := by
  cases r <;> rfl

section Walk
variable {c : Climb R ρ} {read : Nat → Except Fault R} {cycle : Fault} {left rid : Nat}
  {inner : List String}

/-- A walk that is at a row whose name can be read ends there, gives up or goes on. -/
theorem walk_eq {row : R} {name : String} (hrow : read rid = .ok row)
    (hname : c.name row = .ok name) :
    c.walk read cycle left rid inner =
      match c.further rid row with
      | none => (c.last row).map fun last => (last, name :: inner)
      | some outer =>
        match left with
        | 0 => .error cycle
        | left + 1 => c.walk read cycle left outer (name :: inner) := by
  rw [walk, hrow, Outcome.ok_bind, ofExcept_eq, hname, Outcome.ok_bind]
  cases c.further rid row with
  | none =>
    simp only [ofExcept_eq]
    rfl
  | some outer => cases left <;> rfl

end Walk

namespace Serves
variable {c : Climb R ρ} {read : Nat → Except Fault R} {next : Nat → Option Nat} {rows : Nat}
  (hs : c.Serves read next rows)
include hs

theorem range_of_named {rid : Nat} {name : String} (h : c.named read rid = .ok name) :
    1 ≤ rid ∧ rid ≤ rows := by
  obtain ⟨row, hrow, -⟩ := Outcome.bind_eq_ok.mp h
  exact hs.range hrow

/-- What a walk does at a row: it fails as a read does, ends, gives up or goes on. -/
theorem walk_cases (cycle : Fault) (left rid : Nat) (inner : List String) :
    (∃ e, e.reportsCycle = false ∧ c.walk read cycle left rid inner = .error e) ∨
    ∃ name, c.named read rid = .ok name ∧
      ((∃ last, next rid = none ∧ c.ended read rid = .ok last ∧
        c.walk read cycle left rid inner = .ok (last, name :: inner)) ∨
      (left = 0 ∧ c.walk read cycle left rid inner = .error cycle) ∨
      ∃ outer left', next rid = some outer ∧ left = left' + 1 ∧
        c.walk read cycle left rid inner = c.walk read cycle left' outer (name :: inner)) := by
  cases hrow : read rid with
  | error e => exact .inl ⟨e, hs.read_fault hrow, by rw [walk, hrow]; rfl⟩
  | ok row =>
    have hended : c.ended read rid = c.last row := by rw [ended, hrow, Outcome.ok_bind]
    cases hname : c.name row with
    | error e =>
      exact .inl ⟨e, hs.name_fault hname, by rw [walk, hrow, Outcome.ok_bind, hname]; rfl⟩
    | ok name =>
      have hnamed : c.named read rid = .ok name := by rw [named, hrow, Outcome.ok_bind, hname]
      rw [walk_eq hrow hname, hs.further hrow, hended]
      cases next rid with
      | none =>
        cases hlast : c.last row with
        | error e => exact .inl ⟨e, hs.last_fault hlast, rfl⟩
        | ok last => exact .inr ⟨name, hnamed, .inl ⟨last, rfl, rfl, rfl⟩⟩
      | some outer =>
        cases left with
        | zero => exact .inr ⟨name, hnamed, .inr (.inl ⟨rfl, rfl⟩)⟩
        | succ left => exact .inr ⟨name, hnamed, .inr (.inr ⟨outer, left, rfl, rfl, rfl⟩)⟩

variable {cycle : Fault}

/-- A walk reports a cycle only as it was told to. -/
theorem eq_cycle {left rid : Nat} {inner : List String} {e : Fault}
    (h : c.walk read cycle left rid inner = .error e) (he : e.reportsCycle = true) : e = cycle := by
  induction left using Nat.strongRecOn generalizing rid inner with
  | ind left ih =>
    obtain ⟨e', he', hwalk⟩ | ⟨name, -, hgoes⟩ := hs.walk_cases cycle left rid inner
    · simp_all
    · obtain ⟨last, -, -, hwalk⟩ | ⟨-, hwalk⟩ | ⟨outer, left', -, hleft, hwalk⟩ := hgoes
      · simp [hwalk] at h
      · simp_all
      · rw [hwalk] at h
        exact ih left' (by omega) h

/-- A walk that reports a cycle has been at as many rows as it had steps, and at its first. -/
theorem exists_visited {left rid : Nat} {inner : List String} {e : Fault} {rids : List Nat}
    (h : c.walk read cycle left rid inner = .error e) (he : e.reportsCycle = true)
    (hends : Ends next rid rids) :
    ∃ visited, visited <+: rids ∧ visited.length = left + 1 ∧
      ∀ r ∈ visited, 1 ≤ r ∧ r ≤ rows := by
  induction left using Nat.strongRecOn generalizing rid inner rids with
  | ind left ih =>
    obtain ⟨e', he', hwalk⟩ | ⟨name, hname, hgoes⟩ := hs.walk_cases cycle left rid inner
    · simp_all
    · have hrange := hs.range_of_named hname
      obtain ⟨last, -, -, hwalk⟩ | ⟨rfl, -⟩ | ⟨outer, left', hnext, rfl, hwalk⟩ := hgoes
      · simp [hwalk] at h
      · exact ⟨[rid], hends.singleton_prefix, rfl, by simpa using hrange⟩
      · rw [hwalk] at h
        obtain hnone | ⟨hsome, hrest⟩ := hends
        · simp [hnone] at hnext
        · rw [hsome] at hnext
          cases hnext
          obtain ⟨visited, hinitial, hlength, hvisited⟩ := ih left' (by omega) h hrest
          refine ⟨rid :: visited, List.cons_prefix_cons.mpr ⟨rfl, hinitial⟩, by simp [hlength], ?_⟩
          exact List.forall_mem_cons.mpr ⟨hrange, hvisited⟩

/-- A walk that has an answer followed its chain to the end, and gives what the rows say. -/
theorem exists_ends {left rid : Nat} {names inner : List String} {last : ρ}
    (h : c.walk read cycle left rid inner = .ok (last, names)) :
    ∃ rids own, Ends next rid rids ∧
      List.Forall₂ (fun rid name => c.named read rid = .ok name) rids own ∧
      (∃ top, rids.getLast? = some top ∧ c.ended read top = .ok last) ∧
      names = own.reverse ++ inner := by
  induction left using Nat.strongRecOn generalizing rid inner with
  | ind left ih =>
    obtain ⟨e', -, hwalk⟩ | ⟨name, hname, hgoes⟩ := hs.walk_cases cycle left rid inner
    · simp [hwalk] at h
    · obtain ⟨last', hnext, hended, hwalk⟩ | ⟨-, hwalk⟩ | ⟨outer, left', hnext, hleft, hwalk⟩ :=
        hgoes
      · rw [hwalk] at h
        cases h
        exact ⟨[rid], [name], .last hnext, .cons hname .nil, ⟨rid, rfl, hended⟩, rfl⟩
      · simp [hwalk] at h
      · rw [hwalk] at h
        obtain ⟨rids, own, hends, hnames, hlast, rfl⟩ := ih left' (by omega) h
        refine ⟨rid :: rids, name :: own, .step hnext hends, .cons hname hnames, ?_, by simp⟩
        rwa [List.getLast?_cons_of_ne_nil (List.ne_nil_of_length_pos hends.length_pos)]

theorem exists_spells {left rid : Nat} {names : List String} {last : ρ}
    (h : c.walk read cycle left rid [] = .ok (last, names)) :
    ∃ rids, Ends next rid rids ∧ c.Spells read rids last names := by
  obtain ⟨rids, own, hends, hnames, hlast, rfl⟩ := hs.exists_ends h
  refine ⟨rids, hends, ?_, hlast⟩
  rwa [List.append_nil, List.reverse_reverse]

/-- A walk with as many steps as the table has rows reports a cycle only where its chain never
ends: one that ends has too few rows for so many steps. -/
theorem endless {rid : Nat} {inner : List String} {e : Fault}
    (h : c.walk read cycle rows rid inner = .error e) (he : e.reportsCycle = true) :
    Endless next rid := by
  by_contra hends
  obtain ⟨rids, hends⟩ := Ends.exists_of_not_endless hends
  obtain ⟨visited, hinitial, hlength, hrange⟩ := hs.exists_visited h he hends
  have hle := hends.length_le_of_prefix hinitial hrange
  omega

/-- A walk with steps enough for its chain gives the names of the chain, and what it ends in. -/
theorem walk_of_ends {left rid : Nat} {rids : List Nat} {names inner : List String} {last : ρ}
    (h : Ends next rid rids)
    (hnames : List.Forall₂ (fun rid name => c.named read rid = .ok name) rids names)
    (hlast : ∃ top, rids.getLast? = some top ∧ c.ended read top = .ok last)
    (hleft : rids.length ≤ left + 1) :
    c.walk read cycle left rid inner = .ok (last, names.reverse ++ inner) := by
  induction h generalizing left names inner with
  | @last rid hnone =>
    obtain _ | ⟨hname, _ | _⟩ := hnames
    obtain ⟨row, hrow, hname⟩ := Outcome.bind_eq_ok.mp hname
    obtain ⟨_, rfl, hended⟩ : ∃ top, rid = top ∧ c.ended read top = .ok last := by simpa using hlast
    rw [ended, hrow, Outcome.ok_bind] at hended
    rw [walk_eq hrow hname, hs.further hrow, hnone]
    simp only [hended]
    rfl
  | @step rid outer rids hnext hrest ih =>
    obtain _ | ⟨hname, hnames⟩ := hnames
    obtain ⟨row, hrow, hname⟩ := Outcome.bind_eq_ok.mp hname
    have hpos := hrest.length_pos
    rw [List.getLast?_cons_of_ne_nil (List.ne_nil_of_length_pos hpos)] at hlast
    rw [List.length_cons] at hleft
    obtain ⟨left, rfl⟩ : ∃ n, left = n + 1 := ⟨left - 1, by omega⟩
    rw [walk_eq hrow hname, hs.further hrow, hnext]
    simp only [List.reverse_cons, List.append_assoc]
    exact ih hnames hlast (by omega)

/-- However long a chain is that ends, a walk with as many steps as the table has rows gives what
its rows say. -/
theorem walk_of_spells {rid : Nat} {rids : List Nat} {names : List String} {last : ρ}
    (hends : Ends next rid rids) (h : c.Spells read rids last names) :
    c.walk read cycle rows rid [] = .ok (last, names) := by
  obtain ⟨hnames, hlast⟩ := h
  have hlength : rids.length ≤ rows := by
    refine hends.length_le_of_prefix (List.prefix_refl _) fun r hr => ?_
    obtain ⟨i, hi, rfl⟩ := List.getElem_of_mem hr
    exact hs.range_of_named (hnames.get hi (hnames.length_eq ▸ hi))
  rw [hs.walk_of_ends hends hnames hlast (Nat.le_succ_of_le hlength), List.reverse_reverse,
    List.append_nil]

end Serves

/-- Reads a row and notes its number. -/
def noting (read : Nat → Except Fault R) (rid : Nat) : ExceptT Fault (StateM (List Nat)) R := do
  modify (· ++ [rid])
  ExceptT.mk (pure (read rid))

theorem exec_noting (read : Nat → Except Fault R) (rid : Nat) (seen : List Nat) :
    Query.exec (noting read rid) seen = (read rid, seen ++ [rid]) := rfl

theorem exec_ofExcept {α : Type} (r : Except Fault α) (seen : List Nat) :
    Query.exec (MonadExcept.ofExcept r : ExceptT Fault (StateM (List Nat)) α) seen = (r, seen) := by
  cases r <;> rfl

/-- A walk that notes the rows that it reads has the same outcome, and notes one for each step that
it takes and one for its first. -/
theorem exec_walk_noting (c : Climb R ρ) (read : Nat → Except Fault R) (cycle : Fault)
    (left rid : Nat) (inner : List String) (seen : List Nat) :
    ∃ visited, visited.length ≤ left + 1 ∧
      Query.exec (c.walk (noting read) cycle left rid inner) seen =
        (c.walk read cycle left rid inner, seen ++ visited) := by
  induction left using Nat.strongRecOn generalizing rid inner seen with
  | ind left ih =>
    rw [walk, walk]
    cases hrow : read rid with
    | error e =>
      refine ⟨[rid], by simp, ?_⟩
      rw [Query.exec_bind, exec_noting, hrow]
      rfl
    | ok row =>
      have hread : Query.exec (noting read rid) seen = (.ok row, seen ++ [rid]) := by
        rw [exec_noting, hrow]
      rw [Query.exec_bind_of_ok hread, Outcome.ok_bind, ofExcept_eq]
      cases hname : c.name row with
      | error e =>
        refine ⟨[rid], by simp, ?_⟩
        rw [Query.exec_bind, exec_ofExcept]
        rfl
      | ok name =>
        rw [Query.exec_bind_of_ok (exec_ofExcept _ _), Outcome.ok_bind]
        cases c.further rid row with
        | none =>
          refine ⟨[rid], by simp, ?_⟩
          simp only [ofExcept_eq]
          rw [Query.exec_bind, exec_ofExcept]
          cases c.last row <;> rfl
        | some outer =>
          cases left with
          | zero => exact ⟨[rid], by simp, rfl⟩
          | succ left =>
            obtain ⟨visited, hlength, hexec⟩ :=
              ih left (by omega) outer (name :: inner) (seen ++ [rid])
            refine ⟨rid :: visited, by simpa using hlength, ?_⟩
            simp only [hexec]
            simp

end Climb
end MethodAtlas
