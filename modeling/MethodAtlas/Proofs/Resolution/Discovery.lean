import MethodAtlas.Proofs.Module.Members
import MethodAtlas.Proofs.Resolution.Markers
import MethodAtlas.Proofs.Resolution.References

/-!
# The search for a state machine

The search goes along the attributes of a method and stops at the second that names a generated
type. It finds the only mark of the method, so its answer is a matter of the marks themselves: not
of their order, and not of attributes that lie elsewhere. That needs paths that count as one to show
alike modules, as far as they can be asked for; the sample shows what happens where they do not.
-/
namespace MethodAtlas

namespace StateMachine

/-- An attribute, taken alone, is a marker that names a generated type. -/
def Marks (disk : Disk) (config : Config) (l : LocatedModule) (s : ModuleStore)
    (a : CustomAttribute) (generated : String) : Prop :=
  ∃ c, constructorOf l.module a.constructor = .ok (some c) ∧
    (Query.exec (isMarker disk config (config.depthLimit + 1) l c.type) s).1 = .ok true ∧
    generatedType l.module c a.value = .ok (some generated)

theorem exec_generatedBy_eq_some_iff {disk : Disk} {config : Config} {l : LocatedModule}
    {s : ModuleStore} {a : CustomAttribute} {generated : String} :
    (Query.exec (generatedBy disk config l a) s).1 = .ok (some generated) ↔
      Marks disk config l s a generated := by
  rw [generatedBy, Query.exec_bind, Query.exec_ofExcept, Marks]
  cases constructorOf l.module a.constructor with
  | error e => simp
  | ok constructor =>
    cases constructor with
    | none => simp
    | some c =>
      dsimp only
      rw [Query.exec_bind]
      rcases hmarker : Query.exec (isMarker disk config (config.depthLimit + 1) l c.type) s with
        ⟨_ | _ | _, mid⟩ <;> simp [hmarker]

/-- The generated type that an attribute names, taken alone. -/
def namedAlone (disk : Disk) (config : Config) (l : LocatedModule) (s : ModuleStore)
    (a : CustomAttribute) : Option String :=
  (Query.exec (generatedBy disk config l a) s).1.toOption.join

theorem exec_generatedBy_eq_namedAlone {disk : Disk} {config : Config} {l : LocatedModule}
    {s : ModuleStore} {a : CustomAttribute}
    (h : (Query.exec (generatedBy disk config l a) s).1.isOk) :
    (Query.exec (generatedBy disk config l a) s).1 = .ok (namedAlone disk config l s a) := by
  obtain ⟨named, hnamed⟩ := Outcome.exists_of_isOk h
  rw [namedAlone, hnamed]
  rfl

/-- The only element of a list. -/
def only? {α : Type} : List α → Option α
  | [a] => some a
  | _ => none

theorem only?_eq_some_iff {α : Type} {l : List α} {a : α} : only? l = some a ↔ l = [a] := by
  match l with
  | [] | [_] | _ :: _ :: _ => simp [only?]

theorem only?_eq_of_perm {α : Type} {l l' : List α} (h : l.Perm l') : only? l = only? l' := by
  ext a
  rw [only?_eq_some_iff, only?_eq_some_iff]
  constructor
  · rintro rfl
    exact List.perm_singleton.mp h.symm
  · rintro rfl
    exact List.perm_singleton.mp h

/-- A look leaves the search where it was, or with the first type that was found, or ends it. -/
theorem exec_onlyGenerated_cons {disk : Disk} {config : Config} {l : LocatedModule}
    {s : ModuleStore} (found : Option String) (a : CustomAttribute)
    (rest : List CustomAttribute) :
    Query.exec (onlyGenerated disk config l found (a :: rest)) s =
      match Query.exec (generatedBy disk config l a) s with
      | (.error e, s') => (.error e, s')
      | (.ok none, s') => Query.exec (onlyGenerated disk config l found rest) s'
      | (.ok (some generated), s') =>
        if found.isSome then (.ok none, s')
        else Query.exec (onlyGenerated disk config l (some generated) rest) s' := by
  rw [onlyGenerated, Query.exec_bind]
  rcases Query.exec (generatedBy disk config l a) s with ⟨e | _ | generated, s'⟩
  · rfl
  · rfl
  · cases found <;> rfl

/-- The search finds the only type that was found before or is named by an attribute. -/
theorem exec_onlyGenerated {read : String → Except Fault Image} {config : Config}
    {v : View} {l : LocatedModule} {f : CustomAttribute → Option String}
    {attributes : List CustomAttribute} (hv : v.Coherent) (hclosed : v.Closed config.extensions)
    (hl : l.Alike v l)
    (hf : ∀ a ∈ attributes, ∀ s, s.Fits read v →
      (Query.exec (generatedBy (.constant read) config l a) s).1 = .ok (f a))
    (found : Option String) {s : ModuleStore} (hs : s.Fits read v) :
    (Query.exec (onlyGenerated (.constant read) config l found attributes) s).1 =
      .ok (only? (found.toList ++ attributes.filterMap f)) := by
  -- Each attribute leaves another store; that it fits the view is all that the next one needs.
  induction attributes generalizing found s with
  | nil => cases found <;> rfl
  | cons a attributes ih =>
    have ha := hf a List.mem_cons_self s hs
    have hsame : Query.Related read read v Eq _ _ := .generatedBy hv hclosed hl a
    obtain ⟨-, hfits, -⟩ := hsame s s hs hs
    rw [exec_onlyGenerated_cons]
    rcases hrun : Query.exec (generatedBy (.constant read) config l a) s with ⟨r, mid⟩
    rw [hrun] at ha hfits
    simp only at ha
    subst ha
    have hrest := fun found => ih (fun b hb => hf b (List.mem_cons_of_mem a hb)) found hfits
    cases hfa : f a with
    | none =>
      simp only [List.filterMap_cons_none hfa]
      exact hrest found
    | some generated =>
      simp only [List.filterMap_cons_some hfa]
      cases found with
      | none => exact hrest (some generated)
      | some other => rfl

/-- The row of an attribute of a method that, taken alone, is a marker that names a generated
type. -/
def IsMark (disk : Disk) (config : Config) (l : LocatedModule) (s : ModuleStore) (method : Nat)
    (r : Row CustomAttribute) (generated : String) : Prop :=
  l.module.row CustomAttribute r.rid = some r ∧ r.record.parent = ⟨.methodDef, method⟩ ∧
    Marks disk config l s r.record generated

/-- A type is found by its name and has one public method of a name, exactly one row of which is a
mark, and that row names a generated type. -/
def LeadsTo (disk : Disk) (config : Config) (l : LocatedModule) (s : ModuleStore)
    (typeName methodName generated : String) : Prop :=
  ∃ rid type method r, l.module.findFull typeName = .ok (some rid) ∧
    l.module.row TypeDefinition rid = some type ∧
    l.module.publicNamed type methodName = [method] ∧
    IsMark disk config l s method.rid r generated ∧
    ∀ r' generated', IsMark disk config l s method.rid r' generated' → r' = r

/-- The type of a name, if there is one, and the names of its public methods can be read. -/
def NamesReadable (m : Module) (typeName : String) : Prop :=
  ∃ found, m.findFull typeName = .ok found ∧
    ∀ rid ∈ found, ∃ type, m.row TypeDefinition rid = some type ∧ m.publicNamesReadable type

/-- The only public method of a name is the only one of those that have it. -/
theorem onlyMethod_eq {m : Module} {rid : Nat} {type : Row TypeDefinition}
    (htype : m.row TypeDefinition rid = some type) (hnames : m.publicNamesReadable type)
    (name : String) :
    onlyMethod m rid name = .ok ((only? (m.publicNamed type name)).map (·.rid)) := by
  rw [onlyMethod, Module.needRow, htype, Outcome.ok_bind, Module.publicMethodsNamed_eq hnames]
  rcases m.publicNamed type name with _ | ⟨method, _ | ⟨other, methods⟩⟩ <;> rfl

theorem exists_reportedMethod {m : Module} {typeName : String} (h : NamesReadable m typeName)
    (methodName : String) :
    ∃ reported, reportedMethod m typeName methodName = .ok reported ∧
      ∀ method, reported = some method ↔
        ∃ rid type d, m.findFull typeName = .ok (some rid) ∧
          m.row TypeDefinition rid = some type ∧ m.publicNamed type methodName = [d] ∧
          d.rid = method := by
  obtain ⟨found, hfind, hread⟩ := h
  cases found with
  | none =>
    refine ⟨none, ?_, by simp [hfind]⟩
    rw [reportedMethod, hfind]
    rfl
  | some rid =>
    obtain ⟨type, htype, hnames⟩ := hread rid rfl
    refine ⟨(only? (m.publicNamed type methodName)).map (·.rid), ?_, fun method => ?_⟩
    · rw [reportedMethod, hfind, Outcome.ok_bind]
      exact onlyMethod_eq htype hnames methodName
    · simp only [Option.map_eq_some_iff, only?_eq_some_iff]
      constructor
      · rintro ⟨d, hd⟩
        exact ⟨rid, type, d, hfind, htype, hd⟩
      · rintro ⟨rid', type', d, hfind', htype', hd⟩
        rw [hfind] at hfind'
        cases hfind'
        rw [htype] at htype'
        cases htype'
        exact ⟨d, hd⟩

theorem filterMap_eq_singleton_iff {α β : Type} {f : α → Option β} {l : List α} {b : β}
    (hnodup : l.Nodup) :
    l.filterMap f = [b] ↔ ∃ a ∈ l, f a = some b ∧ ∀ a' ∈ l, (f a').isSome → a' = a := by
  induction l with
  | nil => simp
  | cons a l ih =>
    obtain ⟨hmem, hnodup⟩ := List.nodup_cons.mp hnodup
    cases hfa : f a with
    | none =>
      rw [List.filterMap_cons_none hfa, ih hnodup]
      simp [hfa]
    | some b' =>
      rw [List.filterMap_cons_some hfa, List.cons.injEq, List.filterMap_eq_nil_iff]
      constructor
      · rintro ⟨rfl, hnone⟩
        refine ⟨a, List.mem_cons_self, hfa, fun a' ha' hsome => ?_⟩
        rcases List.mem_cons.mp ha' with rfl | ha'
        · rfl
        · rw [hnone a' ha'] at hsome
          cases hsome
      · rintro ⟨a₀, ha₀, hfa₀, honly⟩
        obtain rfl := honly a List.mem_cons_self (by rw [hfa]; rfl)
        refine ⟨Option.some.inj (hfa.symm.trans hfa₀), fun a' ha' => ?_⟩
        by_contra hne
        have hsome := Option.isSome_iff_ne_none.mpr hne
        exact hmem (honly a' (List.mem_cons_of_mem _ ha') hsome ▸ ha')

variable {read : String → Except Fault Image} {config : Config}
  {origin typeName methodName : String} {s s' : ModuleStore} {opened : OpenModule} {method : Nat}

/-- A reported method leads to the only type that its attributes name. -/
theorem exec_findStateMachine_of_some {v : View} {f : CustomAttribute → Option String}
    (hv : v.Coherent) (hclosed : v.Closed config.extensions) (hfits : s'.Fits read v)
    (hl : (⟨origin, opened⟩ : LocatedModule).Alike v ⟨origin, opened⟩)
    (hopen : Query.exec (Query.module (.constant read) origin) s = (.ok opened, s'))
    (hreported : reportedMethod opened.module typeName methodName = .ok (some method))
    (hf : ∀ a ∈ attributesOf opened.module method, ∀ s, s.Fits read v →
      (Query.exec (generatedBy (.constant read) config ⟨origin, opened⟩ a) s).1 = .ok (f a)) :
    (Query.exec (findStateMachine (.constant read) config origin typeName methodName) s).1 =
      .ok ((only? ((attributesOf opened.module method).filterMap f)).map fun generated =>
        ⟨origin, generated, config.stateMachineMethod⟩) := by
  have hsearch := exec_onlyGenerated hv hclosed hl hf none hfits
  rw [findStateMachine, Query.exec_bind_of_ok hopen]
  rw [reportedMethod] at hreported
  obtain ⟨found, hfind, hreported⟩ := Outcome.bind_eq_ok.mp hreported
  cases found with
  | none => cases hreported
  | some rid =>
    rw [hfind, Query.exec_bind_of_ok (Query.exec_ofExcept _ _)]
    simp only at hreported ⊢
    rw [hreported, Query.exec_bind_of_ok (Query.exec_ofExcept _ _)]
    simp only
    rw [Query.exec_bind]
    rcases hrun : Query.exec (onlyGenerated (.constant read) config ⟨origin, opened⟩ none
      (attributesOf opened.module method)) s' with ⟨r, last⟩
    rw [hrun] at hsearch
    simp only at hsearch
    subst hsearch
    rfl

theorem exec_findStateMachine_of_none
    (hopen : Query.exec (Query.module (.constant read) origin) s = (.ok opened, s'))
    (hreported : reportedMethod opened.module typeName methodName = .ok none) :
    (Query.exec (findStateMachine (.constant read) config origin typeName methodName) s).1 =
      .ok none := by
  rw [findStateMachine, Query.exec_bind_of_ok hopen]
  rw [reportedMethod] at hreported
  obtain ⟨found, hfind, hreported⟩ := Outcome.bind_eq_ok.mp hreported
  rw [hfind, Query.exec_bind_of_ok (Query.exec_ofExcept _ _)]
  cases found with
  | none => rfl
  | some rid =>
    simp only at hreported ⊢
    rw [hreported, Query.exec_bind_of_ok (Query.exec_ofExcept _ _)]
    rfl

/-- The attributes of a method are those of the rows in order whose parent it is. -/
theorem attributesOf_eq (m : Module) (method : Nat) :
    attributesOf m method =
      ((m.tables.rowList CustomAttribute).filter fun r =>
        r.record.parent = ⟨.methodDef, method⟩).map (·.record) := by
  rw [attributesOf, List.filter_map]
  congr 1
  apply List.filter_congr
  intro r _
  obtain ⟨rid, offset, ⟨table, row⟩, constructor, value⟩ := r
  simp

/-- Where all attributes can be read, the only type that those of a method name is the one that
the only mark of the method names. -/
theorem only?_filterMap_eq_some_iff {disk : Disk} {l : LocatedModule} {s : ModuleStore}
    {f : CustomAttribute → Option String} {generated : String}
    (hattributes : ∀ rid, 1 ≤ rid → rid ≤ l.module.rowCount .customAttribute →
      (l.module.row CustomAttribute rid).isSome)
    (hf : ∀ a ∈ attributesOf l.module method,
      (Query.exec (generatedBy disk config l a) s).1 = .ok (f a)) :
    only? ((attributesOf l.module method).filterMap f) = some generated ↔
      ∃ r, IsMark disk config l s method r generated ∧
        ∀ r' generated', IsMark disk config l s method r' generated' → r' = r := by
  have hlist : l.module.tables.rowList CustomAttribute =
      l.module.tables.readableRows CustomAttribute :=
    l.module.tables.rowList_eq_readableRows hattributes
  let rows := (l.module.tables.readableRows CustomAttribute).filter fun r =>
    r.record.parent = ⟨.methodDef, method⟩
  have hrows : attributesOf l.module method = rows.map (·.record) := by
    rw [attributesOf_eq, hlist]
  have hmark : ∀ r generated, IsMark disk config l s method r generated ↔
      r ∈ rows ∧ f r.record = some generated := by
    intro r generated
    rw [List.mem_filter, TableStream.mem_readableRows, decide_eq_true_eq, and_assoc, IsMark,
      ← exec_generatedBy_eq_some_iff]
    refine and_congr_right fun hrow => and_congr_right fun hparent => ?_
    have hmem : r ∈ rows := by
      rw [List.mem_filter, TableStream.mem_readableRows, decide_eq_true_eq]
      exact ⟨hrow, hparent⟩
    rw [hf r.record (hrows ▸ List.mem_map_of_mem hmem), Except.ok.injEq]
  have honly : only? ((attributesOf l.module method).filterMap f) = some generated ↔
      rows.filterMap (fun r => f r.record) = [generated] := by
    rw [only?_eq_some_iff, hrows, List.filterMap_map]
    rfl
  rw [honly, filterMap_eq_singleton_iff (l.module.tables.nodup_readableRows.filter _)]
  simp only [hmark]
  constructor
  · rintro ⟨r, hmem, hnamed, huniq⟩
    refine ⟨r, ⟨hmem, hnamed⟩, fun r' generated' hr' => ?_⟩
    exact huniq r' hr'.1 (by rw [hr'.2]; rfl)
  · rintro ⟨r, ⟨hmem, hnamed⟩, huniq⟩
    refine ⟨r, hmem, hnamed, fun r' hmem' hsome => ?_⟩
    obtain ⟨generated', hgenerated⟩ := Option.isSome_iff_exists.mp hsome
    exact huniq r' generated' ⟨hmem', hgenerated⟩

/-- What is opened at an origin is what the store then shows there, up to attributes. -/
theorem alike_of_opened {read' : String → Except Fault Image} {t t' : ModuleStore}
    {opened' : OpenModule} {extensions : List String}
    (hopen : Query.exec (Query.module (.constant read) origin) s = (.ok opened, s'))
    (hopen' : Query.exec (Query.module (.constant read') origin) t = (.ok opened', t'))
    (hfits : t'.Fits read' (s'.nearby read extensions origin)) :
    (⟨origin, opened'⟩ : LocatedModule).Alike (s'.nearby read extensions origin)
      ⟨origin, opened⟩ where
  path := rfl
  asked := .origin
  shown := by
    have hshown : s'.shown read origin = .ok opened.module := by
      rw [ModuleStore.shown, ModuleStore.request_again hopen]
      rfl
    have hshown' : t'.shown read' origin = .ok opened'.module := by
      rw [ModuleStore.shown, ModuleStore.request_again hopen']
      rfl
    have hagree : Outcome.Agree _ (t'.shown read' origin) (s'.shown read origin) :=
      hfits origin .origin
    rw [hshown, hshown'] at hagree
    obtain hsame | _ := hagree
    exact ⟨opened.module, hshown, hsame, .refl opened.module⟩

/-- What a method leads to is told by its marks in one opened module, and it is found wherever
requests show alike modules and the attributes of the method are the same in some order. -/
theorem exists_generated
    (hopen : Query.exec (Query.module (.constant read) origin) s = (.ok opened, s'))
    (hcoherent : (s'.nearby read config.extensions origin).Coherent)
    (hattributes : ∀ rid, 1 ≤ rid → rid ≤ opened.module.rowCount .customAttribute →
      (opened.module.row CustomAttribute rid).isSome)
    (hnames : NamesReadable opened.module typeName)
    (hrun : ∀ method, reportedMethod opened.module typeName methodName = .ok (some method) →
      ∀ a ∈ attributesOf opened.module method,
        (Query.exec (generatedBy (.constant read) config ⟨origin, opened⟩ a) s').1.isOk) :
    ∃ result : Option String,
      (∀ generated, result = some generated ↔
        LeadsTo (.constant read) config ⟨origin, opened⟩ s' typeName methodName generated) ∧
      ∀ read' t t' opened',
        Query.exec (Query.module (.constant read') origin) t = (.ok opened', t') →
        t'.Fits read' (s'.nearby read config.extensions origin) →
        (∀ method, reportedMethod opened.module typeName methodName = .ok (some method) →
          (attributesOf opened'.module method).Perm (attributesOf opened.module method)) →
        (Query.exec (findStateMachine (.constant read') config origin typeName methodName) t).1 =
          .ok (result.map fun generated => ⟨origin, generated, config.stateMachineMethod⟩) := by
  have hclosed : (s'.nearby read config.extensions origin).Closed config.extensions :=
    s'.closed_nearby config.extensions origin
  have hfits : s'.Fits read (s'.nearby read config.extensions origin) :=
    s'.fits_nearby config.extensions origin
  obtain ⟨reported, hreported, hiff⟩ := exists_reportedMethod hnames methodName
  cases reported with
  | none =>
    refine ⟨none, fun generated => ⟨nofun, ?_⟩, ?_⟩
    · rintro ⟨rid, type, d, r, hfind, htype, hd, -⟩
      exact absurd ((hiff d.rid).mpr ⟨rid, type, d, hfind, htype, hd, rfl⟩) nofun
    · intro read' t t' opened' hopen' hfits' _
      have hl := alike_of_opened hopen hopen' hfits'
      exact exec_findStateMachine_of_none hopen' ((hl.module.reportedMethod _ _).trans hreported)
  | some method =>
    let f := namedAlone (.constant read) config ⟨origin, opened⟩ s'
    have hf : ∀ a ∈ attributesOf opened.module method,
        (Query.exec (generatedBy (.constant read) config ⟨origin, opened⟩ a) s').1 = .ok (f a) :=
      fun a ha => exec_generatedBy_eq_namedAlone (hrun method hreported a ha)
    refine ⟨only? ((attributesOf opened.module method).filterMap f), fun generated => ?_, ?_⟩
    · refine (only?_filterMap_eq_some_iff (l := ⟨origin, opened⟩) hattributes hf).trans ?_
      constructor
      · rintro ⟨r, hmark, huniq⟩
        obtain ⟨rid, type, d, hfind, htype, hd, rfl⟩ := (hiff method).mp rfl
        exact ⟨rid, type, d, r, hfind, htype, hd, hmark, huniq⟩
      · rintro ⟨rid, type, d, r, hfind, htype, hd, hmark, huniq⟩
        obtain rfl := Option.some.inj ((hiff d.rid).mpr ⟨rid, type, d, hfind, htype, hd, rfl⟩)
        exact ⟨r, hmark, huniq⟩
    · intro read' t t' opened' hopen' hfits' hperm
      have hl := alike_of_opened hopen hopen' hfits'
      have hperm := hperm method hreported
      have hf' : ∀ a ∈ attributesOf opened'.module method, ∀ u,
          u.Fits read' (s'.nearby read config.extensions origin) →
          (Query.exec (generatedBy (.constant read') config ⟨origin, opened'⟩ a) u).1 =
            .ok (f a) := by
        intro a ha u hu
        have hsame : Query.Related read' read _ Eq _ _ := .generatedBy hcoherent hclosed hl a
        obtain ⟨hagree, -, -⟩ := hsame u s' hu hfits
        exact (hagree.ok_iff _).mpr (hf a (hperm.mem_iff.mp ha))
      rw [exec_findStateMachine_of_some hcoherent hclosed hfits' hl.left hopen'
        ((hl.module.reportedMethod _ _).trans hreported) hf', only?_eq_of_perm (hperm.filterMap f)]

end StateMachine

open StateMachine

/-- The state machine of a method is the type that the only mark of the method names, and there is
none if the method has no mark or several. It is the same for every order of the attributes and
whatever attributes lie elsewhere. Paths that count as one have to show alike modules, as far as
they can be asked for on the way from the origin. -/
theorem findStateMachine_leadsTo {read : String → Except Fault Image} {config : Config}
    {origin typeName methodName : String} {s s' : ModuleStore} {opened : OpenModule}
    (hopen : Query.exec (Query.module (.constant read) origin) s = (.ok opened, s'))
    (hcoherent : (s'.nearby read config.extensions origin).Coherent)
    (hattributes : ∀ rid, 1 ≤ rid → rid ≤ opened.module.rowCount .customAttribute →
      (opened.module.row CustomAttribute rid).isSome)
    (hnames : NamesReadable opened.module typeName)
    (hrun : ∀ method, reportedMethod opened.module typeName methodName = .ok (some method) →
      ∀ a ∈ attributesOf opened.module method,
        (Query.exec (generatedBy (.constant read) config ⟨origin, opened⟩ a) s').1.isOk) :
    (∀ generated,
      (Query.exec (findStateMachine (.constant read) config origin typeName methodName) s).1 =
          .ok (some ⟨origin, generated, config.stateMachineMethod⟩) ↔
        LeadsTo (.constant read) config ⟨origin, opened⟩ s' typeName methodName generated) ∧
    ((∀ generated,
        ¬LeadsTo (.constant read) config ⟨origin, opened⟩ s' typeName methodName generated) →
      (Query.exec (findStateMachine (.constant read) config origin typeName methodName) s).1 =
        .ok none) ∧
    ∀ read' t t' opened',
      Query.exec (Query.module (.constant read') origin) t = (.ok opened', t') →
      t'.Fits read' (s'.nearby read config.extensions origin) →
      (∀ method, reportedMethod opened.module typeName methodName = .ok (some method) →
        (attributesOf opened'.module method).Perm (attributesOf opened.module method)) →
      (Query.exec (findStateMachine (.constant read') config origin typeName methodName) t).1 =
        (Query.exec (findStateMachine (.constant read) config origin typeName methodName) s).1 := by
  obtain ⟨result, hresult, hrun⟩ := exists_generated hopen hcoherent hattributes hnames hrun
  have hself := hrun read s s' opened hopen (s'.fits_nearby config.extensions origin)
    fun _ _ => .refl _
  refine ⟨fun generated => ?_, fun hnone => ?_, ?_⟩
  · rw [hself, ← hresult]
    cases result <;> simp
  · cases result with
    | none => exact hself
    | some generated => exact absurd ((hresult generated).mp rfl) (hnone generated)
  · intro read' t t' opened' hopen' hfits' hperm
    rw [hrun read' t t' opened' hopen' hfits' hperm, hself]

namespace Sample

/-- The sample as the first module that was opened. -/
def origin : LocatedModule := ⟨"Tests.dll", ⟨0, module⟩⟩

theorem isSome_row_attribute (rid : Nat) (h1 : 1 ≤ rid)
    (h2 : rid ≤ module.rowCount .customAttribute) : (module.row CustomAttribute rid).isSome := by
  have hrows : ∀ rid ∈ List.range' 1 2, (module.row CustomAttribute rid).isSome := by
    decide +kernel
  have hcount : module.rowCount .customAttribute = 2 := by decide +kernel
  exact hrows rid (List.mem_range'_1.mpr ⟨h1, by omega⟩)

theorem namesReadable : NamesReadable module "N.T" := by
  have hfind : module.findFull "N.T" = .ok (some 1) := by decide +kernel
  have hrow : (module.row TypeDefinition 1).any module.publicNamesReadable := by decide +kernel
  refine ⟨some 1, hfind, ?_⟩
  rintro rid ⟨⟩
  exact (Option.any_eq_true _ _).mp hrow

theorem reported :
    reportedMethod module "N.T" "Go" = .ok (some 1) ∧ attributesOf module 1 = attributes := by
  decide +kernel

end Sample

theorem findStateMachine_leadsTo_sample :
    (Query.exec (findStateMachine (.constant Sample.read) .standard "Tests.dll" "N.T" "Go")
        Sample.store).1 = .ok (some ⟨"Tests.dll", "N.T+Go", "MoveNext"⟩) ∧
      LeadsTo (.constant Sample.read) .standard Sample.origin Sample.store "N.T" "Go"
        "N.T+Go" := by
  have hopen : Query.exec (Query.module (.constant Sample.read) "Tests.dll") Sample.store =
      (.ok ⟨0, Sample.module⟩, Sample.store) := rfl
  have hrun : ∀ method, reportedMethod Sample.module "N.T" "Go" = .ok (some method) →
      ∀ a ∈ attributesOf Sample.module method,
        (Query.exec (generatedBy (.constant Sample.read) .standard Sample.origin a)
          Sample.store).1.isOk := by
    intro method hmethod
    rw [Sample.reported.1] at hmethod
    cases hmethod
    rw [Sample.reported.2]
    decide +kernel
  have hfound : (Query.exec (findStateMachine (.constant Sample.read) .standard "Tests.dll" "N.T"
      "Go") Sample.store).1 = .ok (some ⟨"Tests.dll", "N.T+Go", "MoveNext"⟩) := by decide +kernel
  have hcoherent : (Sample.store.nearby Sample.read Config.standard.extensions
      "Tests.dll").Coherent := Sample.store.coherent_nearby (fun _ _ _ => rfl) _ _
  obtain ⟨hleads, -, -⟩ := findStateMachine_leadsTo hopen hcoherent
    Sample.isSome_row_attribute Sample.namesReadable hrun
  exact ⟨hfound, (hleads "N.T+Go").mp hfound⟩

example : (Query.exec (findStateMachine (.constant Sample.read) .standard "Tests.dll" "N.Y" "Go")
    Sample.store).1 = .ok none := by
  decide +kernel

namespace Sample

/-- Files that are told apart by case, two of which hold the sample. -/
def readCased : String → Except Fault Image :=
  Image.fromFile ImageHeaders.read? fun path =>
    if path = "Tests.dll" ∨ path = "base.dll" then .ok bytes else .error (.fileUnreadable true)

/-- A store that has opened the sample once. -/
def openedOnce : ModuleStore := ⟨[(.ofPath "Tests.dll", .opened ⟨0, module⟩)], 1⟩

/-- The sample as the second module that was opened. -/
def base : LocatedModule := ⟨"base.dll", ⟨1, module⟩⟩

def openedTwice : ModuleStore where
  entries := (.ofPath "base.dll", .opened ⟨1, module⟩) :: openedOnce.entries
  openings := 2

theorem exec_module_empty :
    Query.exec (Query.module (.constant readCased) "Tests.dll") .empty =
      (.ok ⟨0, module⟩, openedOnce) := by
  have hread : readCased "Tests.dll" = Image.ofBytes ImageHeaders.read? bytes :=
    Image.fromFile_of_ok (if_pos (.inl rfl))
  rw [Query.exec_module, ModuleStore.request_of_ofBytes rfl hread ofBytes_eq]
  rfl

/-- The attribute that names `N.X` is no marker, as the module of its type is missing. -/
theorem exec_generatedBy_first :
    (Query.exec (generatedBy (.constant readCased) .standard origin
      ⟨⟨.methodDef, 1⟩, ⟨.memberRef, 1⟩, 7⟩) openedOnce).1 = .ok none := by
  decide +kernel

theorem exec_locateBeside_base :
    Query.exec (locateBeside (.constant readCased) ["dll", "exe"] origin.path "base") openedOnce =
      (.ok (some base), openedTwice) := by
  have hread : readCased (Path.module "" "base" "dll") =
      Image.ofBytes ImageHeaders.read? bytes := Image.fromFile_of_ok (if_pos (.inr rfl))
  have hrequest : openedOnce.request (.constant readCased) _ = _ :=
    ModuleStore.request_of_ofBytes rfl hread ofBytes_eq
  have hdirectory : Path.directoryOf origin.path = "" := by decide +kernel
  rw [locateBeside, hdirectory, locateIn, Query.exec_bind, Query.exec_attempt, Query.exec_module,
    hrequest]
  rfl

theorem exec_resolveBeside_base :
    Query.exec (resolveBeside (.constant readCased) ["dll", "exe"] origin (.reference 2))
      openedOnce = (.ok (.found (.elsewhere base 2)), openedTwice) := by
  have htarget : origin.module.referenceTarget 2 = .ok (some ("base", ⟨"N", [], "Y"⟩)) := by
    decide +kernel
  have hfind : base.module.findType ⟨"N", [], "Y"⟩ = .ok (some 2) := by decide +kernel
  rw [resolveBeside, exec_resolveType_of_some htarget exec_locateBeside_base, resolveIn, hfind]
  rfl

theorem exec_baseOf_second :
    Query.exec (baseOf (.constant readCased) .standard origin (.reference 2)) openedOnce =
      (.ok (some (base, .reference 6)), openedTwice) := by
  have hrow : base.module.needRow TypeDefinition 2 =
      .ok ⟨2, 14, ⟨0, 7, 1, ⟨.typeRef, 6⟩, 1, 2⟩⟩ := by decide +kernel
  have hresolve : Query.exec (resolveBeside (.constant readCased) Config.standard.extensions origin
      (.reference 2)).attempt openedOnce =
      (.ok (.ok (.found (.elsewhere base 2))), openedTwice) := by
    rw [Query.exec_attempt]
    exact congrArg (fun r => (Except.ok r.1, r.2)) exec_resolveBeside_base
  rw [baseOf, Query.exec_bind_of_ok hresolve]
  simp only [FoundType.place, hrow]
  rfl

/-- The attribute that names `N.Y` is a marker, as the base type of `N.Y` is. -/
theorem exec_generatedBy_second :
    (Query.exec (generatedBy (.constant readCased) .standard origin
      ⟨⟨.methodDef, 1⟩, ⟨.memberRef, 2⟩, 7⟩) openedOnce).1 = .ok (some "N.T+Go") := by
  have hmember : origin.module.needRow MemberReference 2 =
      .ok ⟨2, 6, ⟨⟨.typeRef, 2⟩, 18, 1⟩⟩ := by decide +kernel
  have hconstructor : constructorOf origin.module ⟨.memberRef, 2⟩ =
      .ok (some ⟨.reference 2, 1, none⟩) := by
    rw [constructorOf]
    simp only [hmember]
    rfl
  have hmarker : (Query.exec (isMarker (.constant readCased) .standard
      (Config.standard.depthLimit + 1) origin (.reference 2)) openedOnce).1 = .ok true := by
    have hname : handleName origin.module (.reference 2) = .ok (some "N.Y") := by decide +kernel
    have hplain : markers.contains "N.Y" = false := by decide +kernel
    rw [isMarker, hname, Query.exec_bind_of_ok (Query.exec_ofExcept _ _)]
    simp only [hplain]
    rw [if_neg Bool.false_ne_true, Query.exec_bind_of_ok exec_baseOf_second]
    have hbase : (Query.exec (isMarker (.constant readCased) .standard Config.standard.depthLimit
        base (.reference 6)) openedTwice).1 = .ok true := by decide +kernel
    exact hbase
  have htype : generatedType origin.module ⟨.reference 2, 1, none⟩ 7 = .ok (some "N.T+Go") := by
    decide +kernel
  exact exec_generatedBy_eq_some_iff.mpr ⟨_, hconstructor, hmarker, htype⟩

/-- The generated type that an attribute of the sample names by itself. -/
def nameOf (a : CustomAttribute) : Option String :=
  if a.constructor.row = 2 then some "N.T+Go" else none

theorem exec_generatedBy_attributes : ∀ a ∈ attributesOf module 1,
    (Query.exec (generatedBy (.constant readCased) .standard origin a) openedOnce).1 =
      .ok (nameOf a) := by
  rw [reported.2, attributes]
  simp only [List.forall_mem_cons, List.not_mem_nil, false_implies, implies_true, and_true]
  exact ⟨exec_generatedBy_first, exec_generatedBy_second⟩

theorem leadsTo_cased :
    LeadsTo (.constant readCased) .standard origin openedOnce "N.T" "Go" "N.T+Go" := by
  obtain ⟨found, hfound, hiff⟩ := exists_reportedMethod namesReadable "Go"
  rw [reported.1] at hfound
  obtain ⟨rid, type, method, hfind, htype, hmethod, hrid⟩ :=
    (hiff 1).mp (Except.ok.inj hfound).symm
  have honly : only? ((attributesOf module 1).filterMap nameOf) = some "N.T+Go" := by
    rw [reported.2]
    decide
  obtain ⟨r, hmark, huniq⟩ := (only?_filterMap_eq_some_iff (l := origin) isSome_row_attribute
    exec_generatedBy_attributes).mp honly
  rw [← hrid] at hmark huniq
  exact ⟨rid, type, method, r, hfind, htype, hmethod, hmark, huniq⟩

end Sample

/-- Among files that are told apart by case the only mark of a method can be missed: the attribute
before it leads to `Base.dll`, which is missing, and then `base.dll` counts as missing too. -/
theorem findStateMachine_eq_none_cased :
    Query.exec (Query.module (.constant Sample.readCased) "Tests.dll") .empty =
        (.ok Sample.origin.opened, Sample.openedOnce) ∧
      (∀ rid, 1 ≤ rid → rid ≤ Sample.module.rowCount .customAttribute →
        (Sample.module.row CustomAttribute rid).isSome) ∧
      NamesReadable Sample.module "N.T" ∧
      (∀ method, reportedMethod Sample.module "N.T" "Go" = .ok (some method) →
        ∀ a ∈ attributesOf Sample.module method,
          (Query.exec (generatedBy (.constant Sample.readCased) .standard Sample.origin a)
            Sample.openedOnce).1.isOk) ∧
      LeadsTo (.constant Sample.readCased) .standard Sample.origin Sample.openedOnce "N.T" "Go"
        "N.T+Go" ∧
      (Query.exec (findStateMachine (.constant Sample.readCased) .standard "Tests.dll" "N.T" "Go")
        .empty).1 = .ok none := by
  refine ⟨Sample.exec_module_empty, Sample.isSome_row_attribute, Sample.namesReadable, ?_,
    Sample.leadsTo_cased, ?_⟩
  · intro method hmethod a ha
    rw [Sample.reported.1] at hmethod
    cases hmethod
    rw [Sample.exec_generatedBy_attributes a ha]
    rfl
  · rw [findStateMachine, Query.exec_bind_of_ok Sample.exec_module_empty]
    decide +kernel

end MethodAtlas
