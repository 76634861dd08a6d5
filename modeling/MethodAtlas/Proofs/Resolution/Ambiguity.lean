import MethodAtlas.Proofs.Resolution.Discovery

/-!
# Methods with several marks

A method that two attributes mark has no state machine, whatever else its module holds. The search
ends at the second mark that it comes to, or before that at a fault. It comes to a mark only if all
rows before it can be read, though: a row between two marks that cannot be read hides the second,
and then the search answers what the first names. The sample shows both.
-/
namespace MethodAtlas

namespace StateMachine

/-- The store that a look at each of these attributes leaves. -/
def afterLooks (disk : Disk) (config : Config) (l : LocatedModule)
    (attributes : List CustomAttribute) (s : ModuleStore) : ModuleStore :=
  attributes.foldl (fun s a => (Query.exec (generatedBy disk config l a) s).2) s

/-- A marker that names a generated type, whichever of these attributes were looked at before. -/
def MarksSteadily (disk : Disk) (config : Config) (l : LocatedModule) (s : ModuleStore)
    (attributes : List CustomAttribute) (a : CustomAttribute) : Prop :=
  ∀ looked ⊆ attributes, ∃ generated,
    Marks disk config l (afterLooks disk config l looked s) a generated

/-- The row of a mark of a method, whichever attributes of the method were looked at before. -/
structure IsSteadyMark (disk : Disk) (config : Config) (l : LocatedModule) (s : ModuleStore)
    (method : Nat) (r : Row CustomAttribute) : Prop where
  row : l.module.row CustomAttribute r.rid = some r
  parent : r.record.parent = ⟨.methodDef, method⟩
  marks : MarksSteadily disk config l s (attributesOf l.module method) r.record

variable {disk : Disk} {config : Config} {l : LocatedModule} {s : ModuleStore}

theorem MarksSteadily.later {attributes : List CustomAttribute} {a b : CustomAttribute}
    (h : MarksSteadily disk config l s (a :: attributes) b) :
    MarksSteadily disk config l (Query.exec (generatedBy disk config l a) s).2 attributes b :=
  fun looked hlooked => h (a :: looked) (List.cons_subset_cons a hlooked)

/-- With what was found before, two marks among the attributes leave no answer. -/
theorem exec_onlyGenerated_ne_some {marks attributes : List CustomAttribute}
    (hsub : marks.Sublist attributes) (found : Option String)
    (hcount : 2 ≤ found.toList.length + marks.length)
    (hmarks : ∀ a ∈ marks, MarksSteadily disk config l s attributes a) (generated : String) :
    (Query.exec (onlyGenerated disk config l found attributes) s).1 ≠ .ok (some generated) := by
  -- The marks that are still to come and what was found stay two or more, until the search ends.
  induction hsub generalizing found s with
  | slnil => cases found <;> simp at hcount
  | @cons marks attributes a hsub ih =>
    have hlater := fun b hb => (hmarks b hb).later
    rw [exec_onlyGenerated_cons]
    rcases hrun : Query.exec (generatedBy disk config l a) s with ⟨e | _ | first, s'⟩
    · simp
    · rw [hrun] at hlater
      exact ih found hcount hlater
    · rw [hrun] at hlater
      cases found with
      | some other => simp
      | none =>
        refine ih (some first) ?_ hlater
        simp at hcount ⊢
        omega
  | @cons_cons marks attributes a hsub ih =>
    have hlater := fun b hb => (hmarks b (List.mem_cons_of_mem a hb)).later
    obtain ⟨first, hfirst⟩ := hmarks a List.mem_cons_self [] (List.nil_subset _)
    have hnamed : (Query.exec (generatedBy disk config l a) s).1 = .ok (some first) :=
      exec_generatedBy_eq_some_iff.mpr hfirst
    rw [exec_onlyGenerated_cons]
    rcases hrun : Query.exec (generatedBy disk config l a) s with ⟨r, s'⟩
    rw [hrun] at hnamed hlater
    simp only at hnamed
    subst hnamed
    cases found with
    | some other => simp
    | none =>
      refine ih (some first) ?_ hlater
      simp at hcount ⊢
      omega

/-- The only public method of a name, if that can be told. -/
theorem onlyMethod_eq_ok {m : Module} {rid : Nat} {type : Row TypeDefinition} {name : String}
    {found : Option Nat} (htype : m.row TypeDefinition rid = some type)
    (h : onlyMethod m rid name = .ok found) :
    found = (only? (m.publicNamed type name)).map (·.rid) := by
  have hsearch := h
  rw [onlyMethod, Module.needRow, htype, Outcome.ok_bind] at hsearch
  obtain ⟨methods, hmethods, -⟩ := Outcome.bind_eq_ok.mp hsearch
  obtain ⟨hread, -⟩ := Module.publicMethodsNamed_eq_ok hmethods
  rw [onlyMethod_eq htype hread] at h
  exact (Except.ok.inj h).symm

/-- Two rows of a method are among its attributes, in one order or the other, if they and all rows
before them can be read. -/
theorem exists_perm_pair_sublist {m : Module} {method : Nat} {r r' : Row CustomAttribute}
    (hne : r ≠ r') (hr : m.row CustomAttribute r.rid = some r)
    (hr' : m.row CustomAttribute r'.rid = some r')
    (hparent : r.record.parent = ⟨.methodDef, method⟩)
    (hparent' : r'.record.parent = ⟨.methodDef, method⟩)
    (hbefore : ∀ rid, 1 ≤ rid → rid < max r.rid r'.rid → (m.row CustomAttribute rid).isSome) :
    ∃ rows : List (Row CustomAttribute), rows.Perm [r, r'] ∧
      (rows.map (·.record)).Sublist (attributesOf m method) := by
  have hmem : r ∈ m.tables.rowList CustomAttribute :=
    m.tables.mem_rowList hr fun rid h1 h2 => hbefore rid h1 (by omega)
  have hmem' : r' ∈ m.tables.rowList CustomAttribute :=
    m.tables.mem_rowList hr' fun rid h1 h2 => hbefore rid h1 (by omega)
  have hsub : [r, r'].Subperm ((m.tables.rowList CustomAttribute).filter fun r =>
      r.record.parent = ⟨.methodDef, method⟩) := by
    apply List.subperm_of_subset
    · simp [hne]
    · simp [hmem, hmem', hparent, hparent']
  obtain ⟨rows, hperm, hrows⟩ := hsub
  rw [attributesOf_eq]
  exact ⟨rows, hperm, hrows.map _⟩

/-- Where paths that count as one show alike modules, a mark is one whatever was looked at. -/
theorem IsMark.steady {read : String → Except Fault Image} {origin generated : String}
    {s s' : ModuleStore} {opened : OpenModule} {method : Nat} {r : Row CustomAttribute}
    (hopen : Query.exec (Query.module (.constant read) origin) s = (.ok opened, s'))
    (hcoherent : (s'.nearby read config.extensions origin).Coherent)
    (h : IsMark (.constant read) config ⟨origin, opened⟩ s' method r generated) :
    IsSteadyMark (.constant read) config ⟨origin, opened⟩ s' method r := by
  have hfits : s'.Fits read (s'.nearby read config.extensions origin) :=
    s'.fits_nearby config.extensions origin
  have hl := alike_of_opened hopen hopen hfits
  have hsame : ∀ a, Query.Related read read (s'.nearby read config.extensions origin) Eq
      (generatedBy (.constant read) config ⟨origin, opened⟩ a)
      (generatedBy (.constant read) config ⟨origin, opened⟩ a) :=
    fun a => .generatedBy hcoherent (s'.closed_nearby config.extensions origin) hl a
  have hlooks : ∀ looked t, t.Fits read (s'.nearby read config.extensions origin) →
      (afterLooks (.constant read) config ⟨origin, opened⟩ looked t).Fits read
        (s'.nearby read config.extensions origin) := by
    intro looked
    induction looked with
    | nil => exact fun _ ht => ht
    | cons a looked ih => exact fun t ht => ih _ (hsame a t t ht ht).2.1
  obtain ⟨hrow, hparent, hmarks⟩ := h
  refine ⟨hrow, hparent, fun looked _ => ?_⟩
  obtain ⟨hagree, -, -⟩ := hsame r.record _ s' (hlooks looked s' hfits) hfits
  refine ⟨generated, exec_generatedBy_eq_some_iff.mp ?_⟩
  exact (hagree.ok_iff _).mpr (exec_generatedBy_eq_some_iff.mpr hmarks)

end StateMachine

open StateMachine

/-- Ambiguity yields no answer: the only public method of a name, two different rows of which are
marks, has no state machine, if all rows before the later of the two can be read. Rows after it, and
all else in the module and elsewhere, can be damaged. -/
theorem findStateMachine_ne_some {disk : Disk} {config : Config}
    {origin typeName methodName : String} {s s' : ModuleStore} {opened : OpenModule} {rid : Nat}
    {type : Row TypeDefinition} {method : Row MethodDefinition} {r r' : Row CustomAttribute}
    (hopen : Query.exec (Query.module disk origin) s = (.ok opened, s'))
    (hfind : opened.module.findFull typeName = .ok (some rid))
    (htype : opened.module.row TypeDefinition rid = some type)
    (honly : opened.module.publicNamed type methodName = [method]) (hne : r ≠ r')
    (hr : IsSteadyMark disk config ⟨origin, opened⟩ s' method.rid r)
    (hr' : IsSteadyMark disk config ⟨origin, opened⟩ s' method.rid r')
    (hbefore : ∀ rid, 1 ≤ rid → rid < max r.rid r'.rid →
      (opened.module.row CustomAttribute rid).isSome) (target : Target) :
    (Query.exec (findStateMachine disk config origin typeName methodName) s).1 ≠
      .ok (some target) := by
  rw [findStateMachine, Query.exec_bind_of_ok hopen, hfind,
    Query.exec_bind_of_ok (Query.exec_ofExcept _ _)]
  cases hmethod : onlyMethod opened.module rid methodName with
  | error e => simp [hmethod, Query.exec_bind]
  | ok found =>
    obtain rfl : found = some method.rid := by
      rw [onlyMethod_eq_ok htype hmethod, honly]
      rfl
    simp only [hmethod]
    rw [Query.exec_bind_of_ok (Query.exec_ofExcept _ _)]
    obtain ⟨rows, hperm, hsub⟩ :=
      exists_perm_pair_sublist (m := opened.module) hne hr.row hr'.row hr.parent hr'.parent hbefore
    have hmarks : ∀ a ∈ rows.map (·.record), MarksSteadily disk config ⟨origin, opened⟩ s'
        (attributesOf opened.module method.rid) a := by
      intro a ha
      obtain ⟨row, hmem, rfl⟩ := List.mem_map.mp ha
      have hpair := hperm.mem_iff.mp hmem
      simp only [List.mem_cons, List.not_mem_nil, or_false] at hpair
      rcases hpair with rfl | rfl
      · exact hr.marks
      · exact hr'.marks
    have hsearch := exec_onlyGenerated_ne_some hsub none
      (by simp [hperm.length_eq]) hmarks
    simp only
    rw [Query.exec_bind]
    rcases hrun : Query.exec (onlyGenerated disk config ⟨origin, opened⟩ none
      (attributesOf opened.module method.rid)) s' with ⟨e | _ | generated, last⟩
    · simp
    · intro h
      cases h
    · exact absurd (by rw [hrun]) (hsearch generated)

namespace Sample

def attributedCount? (t : TableId) : Option Nat :=
  if t = .customAttribute then some 3 else rowCount? t

/-- The sample with three attribute rows of these bytes. -/
def attributed (rows : ByteArray) : Module :=
  { module with
    tables := {
      tables with
      layout := { layout with rowCounts := TableId.all.map attributedCount? }
      slices := tables.slices.map fun (t, bytes) =>
        (t, if t = .customAttribute then rows else bytes) } }

/-- An attribute of `N.Y` of `base` on the method `Go`. -/
def mark : CustomAttribute := ⟨⟨.methodDef, 1⟩, ⟨.memberRef, 2⟩, 7⟩

/-- A row that says of no table that it belongs there. -/
def tornRow : ByteArray := ⟨#[0x1F, 0, 0, 0, 0, 0]⟩

/-- Two marks in front of a row that cannot be read. -/
def marked : Module := attributed (stored [mark, mark] ++ tornRow)

/-- Two marks on both sides of a row that cannot be read. -/
def torn : Module := attributed (stored [mark] ++ tornRow ++ stored [mark])

/-- The row of a mark at its place among three rows. -/
def markAt (rid : Nat) : Row CustomAttribute := ⟨rid, (rid - 1) * 6, mark⟩

/-- The row of `N.T`. -/
def fixture : Row TypeDefinition := ⟨1, 0, 0, 3, 1, ⟨.typeDef, 0⟩, 1, 1⟩

/-- The row of its method `Go`. -/
def go : Row MethodDefinition := ⟨1, 0, 0, 0, 6, 15, 0, 1⟩

/-- The rows of marks are steady marks of `Go`. -/
theorem isSteadyMark_markAt {rows : ByteArray} {rid : Nat}
    (hrow : (attributed rows).row CustomAttribute rid = some (markAt rid))
    (hnamed : (Query.exec (generatedBy (.constant read) .standard
      ⟨"Tests.dll", ⟨0, attributed rows⟩⟩ mark) (storeOf (attributed rows) module)).1 =
        .ok (some "N.T+Go")) :
    IsSteadyMark (.constant read) .standard ⟨"Tests.dll", ⟨0, attributed rows⟩⟩
      (storeOf (attributed rows) module) go.rid (markAt rid) := by
  have hopen : Query.exec (Query.module (.constant read) "Tests.dll")
      (storeOf (attributed rows) module) =
        (.ok ⟨0, attributed rows⟩, storeOf (attributed rows) module) := rfl
  have hcoherent : ((storeOf (attributed rows) module).nearby read Config.standard.extensions
      "Tests.dll").Coherent := ModuleStore.coherent_nearby (fun _ _ _ => rfl) _ _ _
  exact IsMark.steady hopen hcoherent ⟨hrow, rfl, exec_generatedBy_eq_some_iff.mp hnamed⟩

end Sample

theorem findStateMachine_ne_some_sample :
    (Sample.marked.row CustomAttribute 3).isNone ∧
      IsSteadyMark (.constant Sample.read) .standard ⟨"Tests.dll", ⟨0, Sample.marked⟩⟩
        (Sample.storeOf Sample.marked Sample.module) Sample.go.rid (Sample.markAt 1) ∧
      IsSteadyMark (.constant Sample.read) .standard ⟨"Tests.dll", ⟨0, Sample.marked⟩⟩
        (Sample.storeOf Sample.marked Sample.module) Sample.go.rid (Sample.markAt 2) ∧
      ∀ target, (Query.exec (findStateMachine (.constant Sample.read) .standard "Tests.dll" "N.T"
        "Go") (Sample.storeOf Sample.marked Sample.module)).1 ≠ .ok (some target) := by
  have hopen : Query.exec (Query.module (.constant Sample.read) "Tests.dll")
      (Sample.storeOf Sample.marked Sample.module) =
        (.ok ⟨0, Sample.marked⟩, Sample.storeOf Sample.marked Sample.module) := rfl
  have hmethod : Sample.marked.findFull "N.T" = .ok (some 1) ∧
      Sample.marked.row TypeDefinition 1 = some Sample.fixture ∧
      Sample.marked.publicNamed Sample.fixture "Go" = [Sample.go] := by
    decide +kernel
  obtain ⟨hfind, htype, honly⟩ := hmethod
  have hrows : Sample.marked.row CustomAttribute 1 = some (Sample.markAt 1) ∧
      Sample.marked.row CustomAttribute 2 = some (Sample.markAt 2) ∧
      (Sample.marked.row CustomAttribute 3).isNone := by
    decide +kernel
  obtain ⟨hrow, hrow', hlast⟩ := hrows
  have hnamed : (Query.exec (generatedBy (.constant Sample.read) .standard
      ⟨"Tests.dll", ⟨0, Sample.marked⟩⟩ Sample.mark)
        (Sample.storeOf Sample.marked Sample.module)).1 = .ok (some "N.T+Go") := by
    decide +kernel
  have hr := Sample.isSteadyMark_markAt hrow hnamed
  have hr' := Sample.isSteadyMark_markAt hrow' hnamed
  have hbefore : ∀ rid, 1 ≤ rid → rid < max (Sample.markAt 1).rid (Sample.markAt 2).rid →
      (Sample.marked.row CustomAttribute rid).isSome := by
    intro rid h1 h2
    obtain rfl : rid = 1 := by simp [Sample.markAt] at h2; omega
    rw [hrow]
    rfl
  exact ⟨hlast, hr, hr',
    findStateMachine_ne_some hopen hfind htype honly (by decide) hr hr' hbefore⟩

/-- A row between two marks of a method that cannot be read hides the second mark, and the search
answers what the first names. -/
theorem findStateMachine_torn :
    Query.exec (Query.module (.constant Sample.read) "Tests.dll")
        (Sample.storeOf Sample.torn Sample.module) =
      (.ok ⟨0, Sample.torn⟩, Sample.storeOf Sample.torn Sample.module) ∧
    (Sample.torn.findFull "N.T" = .ok (some 1) ∧
      Sample.torn.row TypeDefinition 1 = some Sample.fixture ∧
      Sample.torn.publicNamed Sample.fixture "Go" = [Sample.go] ∧
      (Sample.torn.row CustomAttribute 2).isNone) ∧
    IsSteadyMark (.constant Sample.read) .standard ⟨"Tests.dll", ⟨0, Sample.torn⟩⟩
      (Sample.storeOf Sample.torn Sample.module) Sample.go.rid (Sample.markAt 1) ∧
    IsSteadyMark (.constant Sample.read) .standard ⟨"Tests.dll", ⟨0, Sample.torn⟩⟩
      (Sample.storeOf Sample.torn Sample.module) Sample.go.rid (Sample.markAt 3) ∧
    (Query.exec (findStateMachine (.constant Sample.read) .standard "Tests.dll" "N.T" "Go")
        (Sample.storeOf Sample.torn Sample.module)).1 =
      .ok (some ⟨"Tests.dll", "N.T+Go", "MoveNext"⟩) := by
  have hrows : Sample.torn.row CustomAttribute 1 = some (Sample.markAt 1) ∧
      Sample.torn.row CustomAttribute 3 = some (Sample.markAt 3) := by
    decide +kernel
  obtain ⟨hrow, hrow'⟩ := hrows
  have hnamed : (Query.exec (generatedBy (.constant Sample.read) .standard
      ⟨"Tests.dll", ⟨0, Sample.torn⟩⟩ Sample.mark)
        (Sample.storeOf Sample.torn Sample.module)).1 = .ok (some "N.T+Go") := by
    decide +kernel
  exact ⟨rfl, by decide +kernel, Sample.isSteadyMark_markAt hrow hnamed,
    Sample.isSteadyMark_markAt hrow' hnamed, by decide +kernel⟩

end MethodAtlas
