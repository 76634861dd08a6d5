import MethodAtlas.Module.Members
import MethodAtlas.Proofs.Module.Reading
import MethodAtlas.Proofs.Table.Rows

/-!
# Who owns a method

Types own runs of the list of methods, and methods own runs of the list of parameters. Where the
runs start in the order of their owners, they share no place, and each place belongs to the last
owner whose run starts at or before it. Where the first run starts at the first place, they are the
whole list. `methods_partition` says both of methods, with and without a table of pointers, and the
second of parameters.
-/
namespace MethodAtlas

/-- Runs of a list, of which each owner from one on has one. -/
structure Runs where
  owners : Nat
  /-- The place that the run of an owner starts at, or zero if it has none. -/
  start : Nat → Nat
  /-- The number of places of the list. -/
  length : Nat

namespace Runs
variable (r : Runs)

/-- Where a run stops: where that of the next owner starts, or behind the list. -/
def stop (owner : Nat) : Nat := if owner < r.owners then r.start (owner + 1) else r.length + 1

/-- The places of a run. -/
def places (owner : Nat) : List Nat := Module.places (r.start owner) (r.stop owner) r.length

/-- Runs start in the order of their owners. -/
def Ordered : Prop :=
  ∀ k l, 1 ≤ k → k ≤ l → l ≤ r.owners → r.start k ≤ r.start l

variable {r} {owner place : Nat}

theorem mem_places : place ∈ r.places owner ↔
    r.start owner ≠ 0 ∧ r.start owner ≤ place ∧ place < r.stop owner ∧ place ≤ r.length := by
  rw [places, Module.places]
  split
  · simp [*]
  · simp only [List.mem_range'_1]
    omega

/-- A place lies before the run of every later owner. -/
theorem Ordered.lt_start (h : r.Ordered) (hplace : place ∈ r.places owner) {later : Nat}
    (hlater : owner < later) (hcount : later ≤ r.owners) : place < r.start later := by
  obtain ⟨-, -, hstop, -⟩ := mem_places.mp hplace
  rw [stop, if_pos (by omega)] at hstop
  exact hstop.trans_le (h (owner + 1) later (by omega) (by omega) hcount)

/-- No place belongs to two owners. -/
theorem Ordered.eq_of_mem (h : r.Ordered) {other : Nat} (hplace : place ∈ r.places owner)
    (hother : place ∈ r.places other) (hcount : owner ≤ r.owners) (hcount' : other ≤ r.owners) :
    owner = other := by
  obtain ⟨-, hstart, -, -⟩ := mem_places.mp hplace
  obtain ⟨-, hstart', -, -⟩ := mem_places.mp hother
  rcases Nat.lt_trichotomy owner other with hlt | heq | hlt
  · have := h.lt_start hplace hlt hcount'
    omega
  · exact heq
  · have := h.lt_start hother hlt hcount
    omega

/-- The runs of all owners from one on are all places from the start of its run on. -/
theorem Ordered.flatMap_places_from (h : r.Ordered) (count : Nat) (hpos : 1 ≤ owner)
    (hcount : owner + count = r.owners) (hstart : r.start owner ≠ 0) :
    (List.range' owner (count + 1)).flatMap r.places =
      List.range' (r.start owner) (r.length + 1 - r.start owner) := by
  induction count generalizing owner with
  | zero =>
    have hstop : r.stop owner = r.length + 1 := by rw [stop, if_neg (by omega)]
    simp [places, Module.places, hstop, hstart]
  | succ count ih =>
    have hnext : r.start owner ≤ r.start (owner + 1) := h _ _ hpos (by omega) (by omega)
    have hstop : r.stop owner = r.start (owner + 1) := by rw [stop, if_pos (by omega)]
    rw [List.range'_succ, List.flatMap_cons, ih (by omega) (by omega) (by omega), places,
      Module.places, if_neg hstart, hstop]
    by_cases hlist : r.start (owner + 1) ≤ r.length + 1
    · rw [Nat.min_eq_left hlist]
      have happend := List.range'_append_1 (s := r.start owner)
        (m := r.start (owner + 1) - r.start owner) (n := r.length + 1 - r.start (owner + 1))
      rw [Nat.add_sub_of_le hnext] at happend
      rw [happend]
      congr 1
      omega
    · rw [Nat.min_eq_right (by omega), Nat.sub_eq_zero_of_le (by omega : _ ≤ r.start (owner + 1))]
      simp

/-- Runs that start at the first place are the whole list. -/
theorem Ordered.flatMap_places (h : r.Ordered) (howners : 1 ≤ r.owners) (hstart : r.start 1 = 1) :
    (List.range' 1 r.owners).flatMap r.places = List.range' 1 r.length := by
  have hall := h.flatMap_places_from (r.owners - 1) (Nat.le_refl 1) (by omega) (by omega)
  rwa [hstart, Nat.sub_add_cancel howners, Nat.add_sub_cancel] at hall

end Runs

namespace TableStream
variable {α β : Type} [Record α] {s : TableStream}

/-- Rows that can be read come in the order of their numbers. -/
theorem pairwise_readableRows : (s.readableRows α).Pairwise fun a b => a.rid < b.rid := by
  refine List.Pairwise.filterMap _ ?_ (List.pairwise_lt_range' 1)
  intro rid rid' hlt row hrow row' hrow'
  rwa [(s.rid_of_row hrow).1, (s.rid_of_row hrow').1]

/-- What all rows of a table have together is what their numbers have. -/
theorem flatMap_readableRows {f : Row α → List β} {g : Nat → List β}
    (hread : ∀ rid, 1 ≤ rid → rid ≤ s.rows (Record.table α) → (s.row α rid).isSome)
    (hf : ∀ row, s.row α row.rid = some row → f row = g row.rid) :
    (s.readableRows α).flatMap f = (List.range' 1 (s.rows (Record.table α))).flatMap g := by
  rw [readableRows, List.filterMap_eq_flatMap_toList, List.flatMap_assoc]
  apply List.flatMap_congr
  intro rid hrid
  have hrange := List.mem_range'_1.mp hrid
  obtain ⟨row, hrow⟩ := Option.isSome_iff_exists.mp (hread rid hrange.1 (by omega))
  have hrid := (s.rid_of_row hrow).1
  rw [hrow, Option.toList_some, List.flatMap_singleton, hf row (hrid.symm ▸ hrow), hrid]

end TableStream

namespace Module
variable (m : Module)

/-- The runs that the rows of a table own, each of which says where its own starts. -/
def runsOf (α : Type) [Record α] (first : α → Nat) (length : Nat) : Runs where
  owners := m.rowCount (Record.table α)
  start rid := ((m.row α rid).map fun row => first row.record).getD 0
  length := length

/-- The number of places in the list of methods. -/
def listLength : Nat :=
  match m.table MethodPointer with
  | none => m.rowCount .methodDef
  | some pointers => pointers.rowCount

/-- The method at a place of the list of methods. -/
def listed? (place : Nat) : Option (Row MethodDefinition) :=
  match m.table MethodPointer with
  | none => m.row MethodDefinition place
  | some pointers => (pointers.get place).bind fun p => m.row MethodDefinition p.record.method

/-- The list of methods: as the table of pointers has it, without those that are missing, or else
as the table of methods has it. -/
def methodList : List (Row MethodDefinition) :=
  match m.table MethodPointer with
  | none => m.tables.readableRows MethodDefinition
  | some _ => (m.tables.readableRows MethodPointer).filterMap fun p =>
      m.row MethodDefinition p.record.method

/-- The runs of methods that types own. -/
def methodRuns : Runs := m.runsOf TypeDefinition (·.methodList) m.listLength

/-- The runs of parameters that methods own. -/
def parameterRuns : Runs := m.runsOf MethodDefinition (·.paramList) (m.rowCount .param)

/-- The types can be read and their runs of methods start in their order, and no two entries of the
list of methods name one method. -/
structure MethodsInOrder : Prop where
  readable : ∀ rid, 1 ≤ rid → rid ≤ m.rowCount .typeDef → (m.row TypeDefinition rid).isSome
  starts : ∀ t u, m.row TypeDefinition t.rid = some t → m.row TypeDefinition u.rid = some u →
    t.rid ≤ u.rid → t.record.methodList ≤ u.record.methodList
  distinct : ∀ p q d, m.row MethodPointer p.rid = some p → m.row MethodPointer q.rid = some q →
    m.row MethodDefinition d.rid = some d → p.record.method = d.rid → q.record.method = d.rid →
    p = q

/-- The runs of parameters start in the order of their methods. -/
def ParametersInOrder : Prop :=
  ∀ d e, m.row MethodDefinition d.rid = some d → m.row MethodDefinition e.rid = some e →
    d.rid ≤ e.rid → d.record.paramList ≤ e.record.paramList

variable {m} {α : Type} [Record α] {first : α → Nat} {length : Nat}

theorem start_runsOf {rid : Nat} {row : Row α} (h : m.row α rid = some row) :
    (m.runsOf α first length).start rid = first row.record := by
  simp [runsOf, h]

/-- A run stops where the row after its owner says, if there is such a row. -/
theorem stop_runsOf
    (hread : ∀ rid, 1 ≤ rid → rid ≤ m.rowCount (Record.table α) → (m.row α rid).isSome)
    (rid : Nat) : (m.runsOf α first length).stop rid =
      ((m.row α (rid + 1)).map fun row => first row.record).getD (length + 1) := by
  rw [Runs.stop, runsOf]
  split
  · next hlt =>
    obtain ⟨row, hrow⟩ := Option.isSome_iff_exists.mp (hread (rid + 1) (by omega) hlt)
    simp [hrow]
  · next hge =>
    have hnone : m.row α (rid + 1) = none := by
      by_contra hne
      obtain ⟨row, hrow⟩ := Option.ne_none_iff_exists'.mp hne
      exact hge (m.tables.rid_of_row hrow).2.2
    simp [hnone]

/-- Rows that say in their order where their runs start own runs in order. -/
theorem ordered_runsOf
    (hread : ∀ rid, 1 ≤ rid → rid ≤ m.rowCount (Record.table α) → (m.row α rid).isSome)
    (hfirst : ∀ a b, m.row α a.rid = some a → m.row α b.rid = some b → a.rid ≤ b.rid →
      first a.record ≤ first b.record) : (m.runsOf α first length).Ordered := by
  intro k l hk hkl hl
  obtain ⟨a, ha⟩ := Option.isSome_iff_exists.mp (hread k hk (hkl.trans hl))
  obtain ⟨b, hb⟩ := Option.isSome_iff_exists.mp (hread l (hk.trans hkl) hl)
  obtain ⟨rfl, -⟩ := m.tables.rid_of_row ha
  obtain ⟨rfl, -⟩ := m.tables.rid_of_row hb
  rw [start_runsOf ha, start_runsOf hb]
  exact hfirst a b ha hb hkl

/-- A table without coded indexes that has rows can be read in full. -/
theorem isSome_row_of_uncoded (hcols : ∀ col ∈ (Record.table α).columns, col.isCoded = false)
    {known : Nat} {row : Row α} (hrow : m.row α known = some row) (rid : Nat) (h1 : 1 ≤ rid)
    (h2 : rid ≤ m.rowCount (Record.table α)) : (m.row α rid).isSome := by
  cases ht : m.tables.table α with
  | none => simp [Module.row, TableStream.row, ht] at hrow
  | some t =>
    rw [Module.row, m.tables.row_eq_get ht]
    exact t.isSome_get hcols h1 (by rw [m.tables.rowCount_of_table ht]; exact h2)

theorem methodList_eq : m.methodList = (List.range' 1 m.listLength).filterMap m.listed? := by
  rw [methodList, listLength]
  cases hpointers : m.table MethodPointer with
  | none =>
    have hlisted : m.listed? = m.row MethodDefinition := by
      funext place
      rw [listed?, hpointers]
    rw [hlisted]
    rfl
  | some pointers =>
    have hrow : m.tables.row MethodPointer = pointers.get :=
      funext (m.tables.row_eq_get hpointers)
    have hlisted : m.listed? = fun place =>
        (pointers.get place).bind fun p => m.row MethodDefinition p.record.method := by
      funext place
      rw [listed?, hpointers]
    simp only [hlisted, TableStream.readableRows, hrow, List.filterMap_filterMap,
      m.tables.rowCount_of_table hpointers]

theorem row_eq_none (h : m.table α = none) : m.row α = fun _ => none := by
  funext rid
  simp [Module.row, TableStream.row, show m.tables.table α = none from h]

/-- What is listed is a method of the module. -/
theorem row_of_listed? {place : Nat} {d : Row MethodDefinition} (h : m.listed? place = some d) :
    m.row MethodDefinition d.rid = some d := by
  have hrow : ∃ rid, m.row MethodDefinition rid = some d := by
    rw [listed?] at h
    split at h
    · exact ⟨place, h⟩
    · obtain ⟨p, -, hrow⟩ := Option.bind_eq_some_iff.mp h
      exact ⟨_, hrow⟩
  obtain ⟨rid, hrow⟩ := hrow
  rwa [(m.tables.rid_of_row hrow).1]

namespace MethodsInOrder
variable (h : m.MethodsInOrder) {d : Row MethodDefinition} {t : Row TypeDefinition}
include h

theorem ordered : m.methodRuns.Ordered := ordered_runsOf h.readable h.starts

/-- The methods of a type are those in its run. -/
theorem methods_eq (ht : m.row TypeDefinition t.rid = some t) :
    m.methods t = (m.methodRuns.places t.rid).filterMap m.listed? := by
  have hstart : m.methodRuns.start t.rid = t.record.methodList := start_runsOf ht
  have hstop : m.methodRuns.stop t.rid = _ := stop_runsOf h.readable t.rid
  have hlist : m.methodRuns.length = m.listLength := rfl
  rw [methods, Runs.places, hstart, hstop, hlist]
  cases hmethods : m.table MethodDefinition with
  | none =>
    have hrow : m.row MethodDefinition = fun _ => none := row_eq_none hmethods
    have hlisted : m.listed? = fun _ => none := by
      funext place
      rw [listed?]
      split <;> simp [hrow]
    simp [hlisted]
  | some methods =>
    have hrow : m.row MethodDefinition = methods.get := funext (m.tables.row_eq_get hmethods)
    cases hpointers : m.table MethodPointer with
    | none =>
      have hlength : m.listLength = methods.rowCount := by
        rw [listLength, hpointers]
        exact (m.tables.rowCount_of_table hmethods).symm
      have hlisted : m.listed? = methods.get := by
        funext place
        rw [listed?, hpointers, hrow]
      simp only [hlength, hlisted]
    | some pointers =>
      have hlength : m.listLength = pointers.rowCount := by rw [listLength, hpointers]
      have hlisted : m.listed? = fun place =>
          (pointers.get place).bind fun p => methods.get p.record.method := by
        funext place
        rw [listed?, hpointers, hrow]
      simp only [hlength, hlisted]
      rfl

theorem mem_methods_iff (ht : m.row TypeDefinition t.rid = some t) :
    d ∈ m.methods t ↔ ∃ place ∈ m.methodRuns.places t.rid, m.listed? place = some d := by
  rw [h.methods_eq ht, List.mem_filterMap]

/-- A method that is listed has no other place in the list. -/
theorem methodPlace?_eq {place : Nat} (hlisted : m.listed? place = some d) :
    m.methodPlace? d.rid = some place := by
  rw [listed?] at hlisted
  rw [methodPlace?]
  cases hpointers : m.table MethodPointer with
  | none =>
    rw [hpointers] at hlisted
    rw [(m.tables.rid_of_row hlisted).1]
  | some pointers =>
    rw [hpointers] at hlisted
    obtain ⟨p, hget, hrow⟩ := Option.bind_eq_some_iff.mp hlisted
    have hp : m.row MethodPointer place = some p := by
      rw [Module.row, m.tables.row_eq_get hpointers, hget]
    obtain ⟨rfl, -⟩ := m.tables.rid_of_row hp
    have hnames : p.record.method = d.rid := (m.tables.rid_of_row hrow).1.symm
    have hlist : pointers.toList = m.tables.readableRows MethodPointer := by
      rw [← m.tables.rowList_eq_of_uncoded (by decide), TableStream.rowList,
        show m.tables.table MethodPointer = some pointers from hpointers]
    have hmem : p ∈ pointers.toList := by rwa [hlist, m.tables.mem_readableRows]
    have hfound : (pointers.toList.find? fun p => p.record.method == d.rid).isSome := by
      rw [List.find?_isSome]
      exact ⟨p, hmem, by simp [hnames]⟩
    obtain ⟨q, hq⟩ := Option.isSome_iff_exists.mp hfound
    have hqrow : m.row MethodPointer q.rid = some q := by
      rw [Module.row, ← m.tables.mem_readableRows, ← hlist]
      exact List.mem_of_find?_eq_some hq
    have hqnames : q.record.method = d.rid := by simpa using List.find?_some hq
    rw [hnames] at hrow
    obtain rfl := h.distinct p q d hp hqrow hrow hnames hqnames
    simp [hq]

/-- The owner of a place is the last type whose run starts at or before it. -/
theorem getLast?_filter {types : Table TypeDefinition} {place : Nat}
    (htypes : m.table TypeDefinition = some types) (ht : m.row TypeDefinition t.rid = some t)
    (hplace : place ∈ m.methodRuns.places t.rid) :
    (types.toList.filter fun t =>
      t.record.methodList != 0 && t.record.methodList ≤ place).getLast? = some t := by
  have hlist : types.toList = m.tables.readableRows TypeDefinition := by
    rw [← m.tables.rowList_eq_readableRows (α := TypeDefinition) h.readable, TableStream.rowList,
      show m.tables.table TypeDefinition = some types from htypes]
  have hmem : t ∈ m.tables.readableRows TypeDefinition := m.tables.mem_readableRows.mpr ht
  obtain ⟨before, later, hsplit⟩ := List.append_of_mem hmem
  obtain ⟨hne, hle, -, -⟩ := Runs.mem_places.mp hplace
  rw [show m.methodRuns.start t.rid = t.record.methodList from start_runsOf ht] at hne hle
  have hnone : later.filter (fun t => t.record.methodList != 0 && t.record.methodList ≤ place) =
      [] := by
    rw [List.filter_eq_nil_iff]
    intro u hu
    have hmem : u ∈ m.tables.readableRows TypeDefinition := by
      rw [hsplit]
      exact List.mem_append_right _ (List.mem_cons_of_mem _ hu)
    have hrow : m.row TypeDefinition u.rid = some u := m.tables.mem_readableRows.mp hmem
    have hlater : t.rid < u.rid := by
      have hpairwise := m.tables.pairwise_readableRows (α := TypeDefinition)
      rw [hsplit, List.pairwise_append] at hpairwise
      exact (List.pairwise_cons.mp hpairwise.2.1).1 u hu
    have hlt := h.ordered.lt_start hplace hlater (m.tables.rid_of_row hrow).2.2
    rw [show m.methodRuns.start u.rid = u.record.methodList from start_runsOf hrow] at hlt
    simp only [Bool.and_eq_true, decide_eq_true_eq]
    omega
  rw [hlist, hsplit, List.filter_append, List.filter_cons_of_pos (by simp [hne, hle]), hnone,
    List.getLast?_concat]

/-- The owner of a method is the type that has it among its methods. -/
theorem methodOwner?_eq_some_iff (hd : m.row MethodDefinition d.rid = some d)
    (ht : m.row TypeDefinition t.rid = some t) :
    m.methodOwner? d.rid = some t ↔ d ∈ m.methods t := by
  constructor
  · intro howner
    simp only [methodOwner?, Option.bind_eq_bind, Option.bind_eq_some_iff] at howner
    obtain ⟨place, -, types, -, owner, -, howner⟩ := howner
    split at howner
    · next hany =>
      obtain rfl := Option.some.inj howner
      obtain ⟨d', hmem, hrid⟩ := List.any_eq_true.mp hany
      obtain ⟨place, -, hlisted⟩ := (h.mem_methods_iff ht).mp hmem
      have hd' := row_of_listed? hlisted
      rw [beq_iff_eq] at hrid
      rw [hrid, hd] at hd'
      exact Option.some.inj hd' ▸ hmem
    · cases howner
  · intro hmem
    obtain ⟨place, hplace, hlisted⟩ := (h.mem_methods_iff ht).mp hmem
    obtain ⟨types, htypes⟩ : ∃ types, m.table TypeDefinition = some types := by
      by_contra hnone
      have htable : m.tables.table TypeDefinition = none := by
        simpa [Module.table, Option.eq_none_iff_forall_ne_some] using hnone
      simp [Module.row, TableStream.row, htable] at ht
    have hany : (m.methods t).any (fun d' => d'.rid == d.rid) = true :=
      List.any_eq_true.mpr ⟨d, hmem, beq_self_eq_true _⟩
    simp only [methodOwner?, h.methodPlace?_eq hlisted, htypes, Option.bind_eq_bind,
      Option.bind_some, h.getLast?_filter htypes ht hplace, hany, if_true]

/-- No method belongs to two types. -/
theorem eq_of_mem_methods {u : Row TypeDefinition} (ht : m.row TypeDefinition t.rid = some t)
    (hu : m.row TypeDefinition u.rid = some u) (hmem : d ∈ m.methods t) (hmem' : d ∈ m.methods u) :
    t = u := by
  obtain ⟨place, hplace, hlisted⟩ := (h.mem_methods_iff ht).mp hmem
  obtain ⟨place', hplace', hlisted'⟩ := (h.mem_methods_iff hu).mp hmem'
  have hsame := (h.methodPlace?_eq hlisted).symm.trans (h.methodPlace?_eq hlisted')
  obtain rfl := Option.some.inj hsame
  have hrid := h.ordered.eq_of_mem hplace hplace' (m.tables.rid_of_row ht).2.2
    (m.tables.rid_of_row hu).2.2
  rw [hrid, hu] at ht
  exact (Option.some.inj ht).symm

/-- Where the first run starts at the first place, the types have all listed methods in order. -/
theorem flatMap_methods (ht : m.row TypeDefinition 1 = some t) (hfirst : t.record.methodList = 1) :
    (m.tables.readableRows TypeDefinition).flatMap m.methods = m.methodList := by
  obtain ⟨-, -, hcount⟩ := m.tables.rid_of_row ht
  have hstart : m.methodRuns.start 1 = 1 := (start_runsOf ht).trans hfirst
  have hruns := TableStream.flatMap_readableRows (α := TypeDefinition) h.readable
    (g := fun rid => (m.methodRuns.places rid).filterMap m.listed?) fun _ => h.methods_eq
  rw [hruns, ← List.filterMap_flatMap, methodList_eq]
  exact congrArg _ (h.ordered.flatMap_places hcount hstart)

end MethodsInOrder

/-- The parameters of a method are those in its run. -/
theorem parameters_eq {d : Row MethodDefinition} (hd : m.row MethodDefinition d.rid = some d) :
    m.parameters d = (m.parameterRuns.places d.rid).filterMap (m.row Parameter) := by
  have hstart : m.parameterRuns.start d.rid = d.record.paramList := start_runsOf hd
  have hstop : m.parameterRuns.stop d.rid = _ :=
    stop_runsOf (isSome_row_of_uncoded (by decide) hd) d.rid
  have hlist : m.parameterRuns.length = m.rowCount .param := rfl
  rw [parameters, Runs.places, hstart, hstop, hlist]
  cases hparameters : m.table Parameter with
  | none =>
    have hrow : m.row Parameter = fun _ => none := row_eq_none hparameters
    simp [hrow]
  | some parameters =>
    have hrow : m.row Parameter = parameters.get := funext (m.tables.row_eq_get hparameters)
    have hlength : m.rowCount .param = parameters.rowCount :=
      (m.tables.rowCount_of_table hparameters).symm
    simp only [hrow, hlength]

/-- Where the first run starts at the first parameter, the methods have all parameters in order. -/
theorem ParametersInOrder.flatMap_parameters (h : m.ParametersInOrder) {d : Row MethodDefinition}
    (hd : m.row MethodDefinition 1 = some d) (hfirst : d.record.paramList = 1) :
    (m.tables.readableRows MethodDefinition).flatMap m.parameters =
      m.tables.readableRows Parameter := by
  obtain ⟨-, -, hcount⟩ := m.tables.rid_of_row hd
  have hread := isSome_row_of_uncoded (by decide) hd
  have hordered : m.parameterRuns.Ordered := ordered_runsOf hread h
  have hstart : m.parameterRuns.start 1 = 1 := (start_runsOf hd).trans hfirst
  have hruns := TableStream.flatMap_readableRows (α := MethodDefinition) hread
    (g := fun rid => (m.parameterRuns.places rid).filterMap (m.row Parameter))
    fun _ => parameters_eq
  rw [hruns, ← List.filterMap_flatMap]
  exact congrArg _ (hordered.flatMap_places hcount hstart)

/-- Methods and parameters are shared out. Where types start their runs in order and no method is
listed twice, the owner of a method is the one type that has it, and types that start at the first
place have the whole list together. Where methods start their runs in order and at the first
parameter, they have all parameters together. -/
theorem methods_partition (m : Module) :
    (m.MethodsInOrder →
      (∀ d t, m.row MethodDefinition d.rid = some d → m.row TypeDefinition t.rid = some t →
        (m.methodOwner? d.rid = some t ↔ d ∈ m.methods t)) ∧
      (∀ d t u, m.row TypeDefinition t.rid = some t → m.row TypeDefinition u.rid = some u →
        d ∈ m.methods t → d ∈ m.methods u → t = u) ∧
      ((∃ t, m.row TypeDefinition 1 = some t ∧ t.record.methodList = 1) →
        (m.tables.readableRows TypeDefinition).flatMap m.methods = m.methodList)) ∧
    (m.ParametersInOrder → (∃ d, m.row MethodDefinition 1 = some d ∧ d.record.paramList = 1) →
      (m.tables.readableRows MethodDefinition).flatMap m.parameters =
        m.tables.readableRows Parameter) := by
  refine ⟨fun h => ⟨fun d t hd ht => h.methodOwner?_eq_some_iff hd ht,
    fun d t u ht hu => h.eq_of_mem_methods ht hu, ?_⟩, ?_⟩
  · rintro ⟨t, ht, hfirst⟩
    exact h.flatMap_methods ht hfirst
  · rintro h ⟨d, hd, hfirst⟩
    exact h.flatMap_parameters hd hfirst

end Module

namespace Sample

def editedCount? : TableId → Option Nat
  | .typeDef => some 3
  | .methodPtr => some 4
  | .methodDef => some 3
  | .param => some 3
  | _ => none

/-- Three types, the second of which has no methods, and a list of four methods, the third of which
is missing. -/
def edited : Module :=
  { module with
    tables := {
      tables with
      layout := { layout with rowCounts := TableId.all.map editedCount? }
      slices := [
        (.typeDef, stored [⟨0, 3, 1, ⟨.typeDef, 0⟩, 1, 1⟩, ⟨0, 7, 1, ⟨.typeDef, 1⟩, 1, 3⟩,
          (⟨0, 9, 1, ⟨.typeDef, 1⟩, 1, 3⟩ : TypeDefinition)]),
        (.methodPtr, stored [⟨3⟩, ⟨1⟩, ⟨9⟩, (⟨2⟩ : MethodPointer)]),
        (.methodDef, stored [⟨0, 0, 6, 15, 0, 1⟩, ⟨0, 0, 6, 18, 0, 3⟩,
          (⟨0, 0, 6, 15, 0, 3⟩ : MethodDefinition)]),
        (.param, stored [⟨0, 1, 3⟩, ⟨0, 2, 5⟩, (⟨0, 1, 7⟩ : Parameter)])] } }

theorem methodsInOrder_edited : edited.MethodsInOrder where
  readable := by
    have hrows : ∀ rid ∈ List.range' 1 3, (edited.row TypeDefinition rid).isSome := by
      decide +kernel
    have hcount : edited.rowCount .typeDef = 3 := by decide +kernel
    intro rid h1 h2
    exact hrows rid (List.mem_range'_1.mpr ⟨h1, by omega⟩)
  starts := by
    have hrows : ∀ t ∈ edited.tables.readableRows TypeDefinition,
        ∀ u ∈ edited.tables.readableRows TypeDefinition,
          t.rid ≤ u.rid → t.record.methodList ≤ u.record.methodList := by
      decide +kernel
    intro t u ht hu
    exact hrows t (edited.tables.mem_readableRows.mpr ht) u (edited.tables.mem_readableRows.mpr hu)
  distinct := by
    have hrows : ∀ p ∈ edited.tables.readableRows MethodPointer,
        ∀ q ∈ edited.tables.readableRows MethodPointer,
          p.record.method = q.record.method → p = q := by
      decide +kernel
    intro p q d hp hq _ hpd hqd
    exact hrows p (edited.tables.mem_readableRows.mpr hp) q (edited.tables.mem_readableRows.mpr hq)
      (hpd.trans hqd.symm)

theorem parametersInOrder_edited : edited.ParametersInOrder := by
  have hrows : ∀ d ∈ edited.tables.readableRows MethodDefinition,
      ∀ e ∈ edited.tables.readableRows MethodDefinition,
        d.rid ≤ e.rid → d.record.paramList ≤ e.record.paramList := by
    decide +kernel
  intro d e hd he
  exact hrows d (edited.tables.mem_readableRows.mpr hd) e (edited.tables.mem_readableRows.mpr he)

end Sample

theorem Module.methods_partition_sample :
    Sample.edited.methodList.map (·.rid) = [3, 1, 2] ∧
      (Sample.edited.tables.readableRows TypeDefinition).flatMap Sample.edited.methods =
        Sample.edited.methodList ∧
      (Sample.edited.methodOwner? 2).map (·.rid) = some 3 ∧
      (Sample.edited.tables.readableRows MethodDefinition).flatMap Sample.edited.parameters =
        Sample.edited.tables.readableRows Parameter := by
  obtain ⟨hmethods, hparameters⟩ := Module.methods_partition Sample.edited
  obtain ⟨howner, -, hlist⟩ := hmethods Sample.methodsInOrder_edited
  have hnames : Sample.edited.methodList.map (·.rid) = [3, 1, 2] := by decide +kernel
  have htype : (Sample.edited.row TypeDefinition 1).any (·.record.methodList = 1) := by
    decide +kernel
  have hmethod : (Sample.edited.row MethodDefinition 1).any (·.record.paramList = 1) := by
    decide +kernel
  have hlast : ∃ d t, Sample.edited.row MethodDefinition 2 = some d ∧ d.rid = 2 ∧
      Sample.edited.row TypeDefinition 3 = some t ∧ t.rid = 3 ∧ d ∈ Sample.edited.methods t :=
    ⟨⟨2, 14, 0, 0, 6, 18, 0, 3⟩, ⟨3, 28, 0, 9, 1, ⟨.typeDef, 1⟩, 1, 3⟩, by decide +kernel⟩
  obtain ⟨d, t, hd, hdrid, ht, htrid, hmem⟩ := hlast
  refine ⟨hnames, hlist ?_, ?_, hparameters Sample.parametersInOrder_edited ?_⟩
  · simpa [Option.any_eq_true] using htype
  · have hsome := (howner d t (hdrid ▸ hd) (htrid ▸ ht)).mpr hmem
    rw [← hdrid, hsome, Option.map_some, htrid]
  · simpa [Option.any_eq_true] using hmethod

end MethodAtlas
