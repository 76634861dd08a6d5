import MethodAtlas.Proofs.Resolution.BaseChain
import MethodAtlas.Proofs.Resolution.References

/-!
# Chains of base types that break

A base type that cannot be resolved ends the walk to the declaring type with what was kept of the
reported type, whatever the reason. A base type that is resolved is looked at, though, and a look
that fails is a fault of the whole walk, in another module as in the reported one:
`findDeclaringType_isOk_iff`.
-/
namespace MethodAtlas

namespace Declaring

/-- The base types that the walk from a reported type looks at. -/
def visited (sought : Sought) (disk : Disk) (config : Config) (reported : LocatedModule × Nat)
    (s : ModuleStore) : List (LocatedModule × Nat) :=
  inspected sought.methodName (bases disk config config.depthLimit reported s)

/-- The base columns lead from a type along others to one whose base type cannot be resolved: it
is missing, its module is missing or cannot be opened, or what names it cannot be read. -/
inductive BreaksAfter (disk : Disk) (config : Config) :
    LocatedModule × Nat → ModuleStore → List (LocatedModule × Nat) → Prop
  | failed {c : LocatedModule × Nat} {s s' : ModuleStore} {row : Row TypeDefinition}
      {why : ResolveFailure} (hrow : c.1.module.row TypeDefinition c.2 = some row)
      (hbase : Query.exec (resolveBeside disk config.extensions c.1 (.ofCoded row.record.base)) s =
        (.ok (.failed why), s')) : BreaksAfter disk config c s []
  | error {c : LocatedModule × Nat} {s s' : ModuleStore} {row : Row TypeDefinition} {e : Fault}
      (hrow : c.1.module.row TypeDefinition c.2 = some row)
      (hbase : Query.exec (resolveBeside disk config.extensions c.1 (.ofCoded row.record.base)) s =
        (.error e, s')) : BreaksAfter disk config c s []
  | found {c : LocatedModule × Nat} {s s' : ModuleStore} {row : Row TypeDefinition}
      {type : FoundType} {passed : List (LocatedModule × Nat)}
      (hrow : c.1.module.row TypeDefinition c.2 = some row)
      (hbase : Query.exec (resolveBeside disk config.extensions c.1 (.ofCoded row.record.base)) s =
        (.ok (.found type), s'))
      (h : BreaksAfter disk config (type.place c.1) s' passed) :
      BreaksAfter disk config c s (type.place c.1 :: passed)

variable {disk : Disk} {config : Config}

theorem BreaksAfter.bases_eq {c : LocatedModule × Nat} {s : ModuleStore}
    {passed : List (LocatedModule × Nat)} (h : BreaksAfter disk config c s passed) {left : Nat}
    (hleft : passed.length ≤ left) : bases disk config left c s = passed := by
  induction h generalizing left with
  | failed hrow hbase => cases left <;> simp [bases, hrow, hbase]
  | error hrow hbase => cases left <;> simp [bases, hrow, hbase]
  | found hrow hbase h ih =>
    cases left with
    | zero => simp at hleft
    | succ left =>
      simp only [bases, hrow, hbase, List.cons.injEq, true_and]
      exact ih (by simpa using hleft)

theorem inspected_eq_self {name : String} {chain : List (LocatedModule × Nat)}
    (h : ∀ c ∈ chain, declares name c = false) : inspected name chain = chain := by
  induction chain with
  | nil => rfl
  | cons c chain ih =>
    rw [List.forall_mem_cons] at h
    rw [inspected, h.1, if_neg Bool.false_ne_true, ih h.2]

/-- What holds of the types at an origin and of those elsewhere holds of all. -/
theorem forall_of_isAt {origin : String} {chain : List (LocatedModule × Nat)}
    {P : LocatedModule × Nat → Prop} (hinside : ∀ c ∈ chain, c.1.isAt origin = true → P c)
    (houtside : ∀ c ∈ chain, c.1.isAt origin = false → P c) : ∀ c ∈ chain, P c := by
  intro c hc
  cases hat : c.1.isAt origin with
  | true => exact hinside c hc hat
  | false => exact houtside c hc hat

end Declaring

open Declaring

/-- A chain of base types that breaks never fails the walk, which then answers what was kept of the
reported type, if no type on the way declares the method. What fails it is a type that it looks at
and cannot read: where those of the origin are intact, the walk has an answer just if those of
other modules are. -/
theorem findDeclaringType_isOk_iff {disk : Disk} {config : Config} (sought : Sought)
    {s s' : ModuleStore} {opened : OpenModule} {found : Option Nat}
    (hopen : Query.exec (Query.module disk sought.origin) s = (.ok opened, s'))
    (hfind : opened.module.findFull sought.typeName = .ok found)
    (hreported : ∀ rid ∈ found, isIntact config sought.methodName
      (keptOf sought (⟨sought.origin, opened⟩, rid)) (⟨sought.origin, opened⟩, rid))
    (horigin : ∀ rid ∈ found, ∀ c ∈ visited sought disk config (⟨sought.origin, opened⟩, rid) s',
      c.1.isAt sought.origin = true →
        isIntact config sought.methodName (keptOf sought (⟨sought.origin, opened⟩, rid)) c) :
    (found = none → (Query.exec (findDeclaringType disk config sought.origin sought.typeName
      sought.methodName) s).1 = .ok none) ∧
    ∀ rid ∈ found,
      ((Query.exec (findDeclaringType disk config sought.origin sought.typeName
          sought.methodName) s).1.isOk ↔
        ∀ c ∈ visited sought disk config (⟨sought.origin, opened⟩, rid) s',
          c.1.isAt sought.origin = false →
            isIntact config sought.methodName (keptOf sought (⟨sought.origin, opened⟩, rid)) c) ∧
      ∀ passed, BreaksAfter disk config (⟨sought.origin, opened⟩, rid) s' passed →
        passed.length ≤ config.depthLimit →
        (∀ c ∈ passed, declares sought.methodName c = false) →
        (∀ c ∈ passed, c.1.isAt sought.origin = false →
          isIntact config sought.methodName (keptOf sought (⟨sought.origin, opened⟩, rid)) c) →
        (Query.exec (findDeclaringType disk config sought.origin sought.typeName
            sought.methodName) s).1 = .ok (keptOf sought (⟨sought.origin, opened⟩, rid)) := by
  constructor
  · rintro rfl
    rw [findDeclaringType, Query.exec_bind_of_ok hopen, hfind]
    rfl
  · intro rid hrid
    obtain rfl := Option.mem_def.mp hrid
    have hreported := hreported rid rfl
    have horigin := horigin rid rfl
    rw [exec_findDeclaringType sought hopen hfind]
    constructor
    · rw [lookAlong_reported sought hreported, isOk_lookAlong]
      exact ⟨fun hall c hc _ => hall c hc, forall_of_isAt horigin⟩
    · intro passed hbreaks hlength hdeclares hpassed
      rw [visited, hbreaks.bases_eq hlength, inspected_eq_self hdeclares] at horigin
      have hintact := forall_of_isAt horigin hpassed
      have hnone : passed.find? (declares sought.methodName) = none := by
        simpa using hdeclares
      rw [lookAlong_reported sought hreported, hbreaks.bases_eq hlength, lookAlong_eq_answerAlong,
        answerAlong, hnone]
      rwa [inspected_eq_self hdeclares]

namespace Sample

/-- The sample, in which `N.Y+Inner` extends `N.Y` of `base`. Its only method has a name at this
place of the string heap, and the methods of `N.Y+Inner` start at this one of the list. -/
def chained (methodList name : Nat) : Module :=
  { module with
    tables := {
      tables with
      slices := tables.slices.map fun (t, bytes) =>
        (t,
          if t = .typeDef then
            stored [⟨0, 3, 1, ⟨.typeDef, 0⟩, 1, 1⟩, ⟨0, 7, 1, ⟨.typeRef, 6⟩, 1, 1⟩,
              (⟨0, 9, 0, ⟨.typeRef, 2⟩, 1, methodList⟩ : TypeDefinition)]
          else if t = .methodDef then
            stored [(⟨0, 0, 6, name, 0, 1⟩ : MethodDefinition)]
          else bytes) } }

/-- The method `Go` is one of `N.Y+Inner`. -/
def heir : Module := chained 1 15

/-- The method is one of `N.Y`, and its name lies outside the heap. -/
def nameless : Module := chained 2 0x7FFF

/-- The heir at the origin. -/
def heirOrigin : LocatedModule := ⟨"Tests.dll", ⟨0, heir⟩⟩

/-- A module beside it. -/
def beside (m : Module) : LocatedModule := ⟨"base.dll", ⟨1, m⟩⟩

/-- No files. -/
def readNone : String → Except Fault Image := fun _ => .error (.fileUnreadable true)

/-- The base type of `N.Y+Inner` is found beside the heir. -/
theorem exec_resolveBeside_heir (m : Module) (hfind : m.findType ⟨"N", [], "Y"⟩ = .ok (some 2)) :
    Query.exec (resolveBeside (.constant readNone) ["dll", "exe"] heirOrigin (.reference 2))
      (storeOf heir m) = (.ok (.found (.elsewhere (beside m) 2)), storeOf heir m) := by
  have htarget : heirOrigin.module.referenceTarget 2 = .ok (some ("base", ⟨"N", [], "Y"⟩)) := by
    decide +kernel
  have hlocate : Query.exec (locateBeside (.constant readNone) ["dll", "exe"] heirOrigin.path
      "base") (storeOf heir m) = (.ok (some (beside m)), storeOf heir m) := by
    have hdirectory : Path.directoryOf heirOrigin.path = "" := by decide +kernel
    have hother : PathKey.ofPath "base.dll" ≠ PathKey.ofPath "Tests.dll" := by decide +kernel
    have hkept : (storeOf heir m).find? "base.dll" = some (.opened ⟨1, m⟩) := by
      rw [ModuleStore.find?, storeOf, List.lookup_cons, beq_false_of_ne hother]
      exact List.lookup_cons_self
    have hrequest : (storeOf heir m).request (.constant readNone) (Path.module "" "base" "dll") =
        (.ok ⟨1, m⟩, storeOf heir m) := by
      rw [ModuleStore.request]
      exact hkept ▸ rfl
    rw [locateBeside, hdirectory, locateIn, Query.exec_bind, Query.exec_attempt, Query.exec_module,
      hrequest]
    rfl
  have htype : (beside m).module.findType ⟨"N", [], "Y"⟩ = .ok (some 2) := hfind
  rw [resolveBeside, exec_resolveType_of_some htarget hlocate, resolveIn, htype]
  rfl

/-- The base type of `N.Y` cannot be resolved. -/
theorem exec_resolveBeside_scopeless :
    Query.exec (resolveBeside (.constant readNone) ["dll", "exe"] (beside heir) (.reference 6))
      (storeOf heir heir) = (.ok (.failed .unsupportedShape), storeOf heir heir) := by
  have htarget : (beside heir).module.referenceTarget 6 = .ok none := by decide +kernel
  rw [resolveBeside, resolveType, htarget]
  rfl

/-- The method of the heir that is looked for. -/
def sought : Sought := ⟨"Tests.dll", "N.Y+Inner", "Go"⟩

theorem breaksAfter_heir :
    BreaksAfter (.constant readNone) .standard (heirOrigin, 3) (storeOf heir heir)
      [(beside heir, 2)] := by
  have hrow : heirOrigin.module.row TypeDefinition 3 =
      some ⟨3, 28, 0, 9, 0, ⟨.typeRef, 2⟩, 1, 1⟩ := by decide +kernel
  have hrow' : (beside heir).module.row TypeDefinition 2 =
      some ⟨2, 14, 0, 7, 1, ⟨.typeRef, 6⟩, 1, 1⟩ := by decide +kernel
  have hfind : heir.findType ⟨"N", [], "Y"⟩ = .ok (some 2) := by decide +kernel
  have hbreaks : BreaksAfter (.constant readNone) .standard (heirOrigin, 3) (storeOf heir heir)
      [(FoundType.elsewhere (beside heir) 2).place heirOrigin] :=
    .found hrow (exec_resolveBeside_heir heir hfind) (.failed hrow' exec_resolveBeside_scopeless)
  exact hbreaks

end Sample

theorem findDeclaringType_isOk_iff_sample :
    BreaksAfter (.constant Sample.readNone) .standard (Sample.heirOrigin, 3)
        (Sample.storeOf Sample.heir Sample.heir) [(Sample.beside Sample.heir, 2)] ∧
      (Query.exec (findDeclaringType (.constant Sample.readNone) .standard "Tests.dll" "N.Y+Inner"
        "Go") (Sample.storeOf Sample.heir Sample.heir)).1 = .ok (some Sample.sought.target) := by
  have hopen : Query.exec (Query.module (.constant Sample.readNone) "Tests.dll")
      (Sample.storeOf Sample.heir Sample.heir) =
        (.ok Sample.heirOrigin.opened, Sample.storeOf Sample.heir Sample.heir) := rfl
  have hfind : Sample.heir.findFull "N.Y+Inner" = .ok (some 3) := by decide +kernel
  have hreported : ∀ rid ∈ some 3, isIntact .standard "Go"
      (keptOf Sample.sought (Sample.heirOrigin, rid)) (Sample.heirOrigin, rid) := by
    decide +kernel
  have horigin : ∀ rid ∈ some 3, ∀ c ∈ visited Sample.sought (.constant Sample.readNone) .standard
      (Sample.heirOrigin, rid) (Sample.storeOf Sample.heir Sample.heir),
      c.1.isAt "Tests.dll" = true →
        isIntact .standard "Go" (keptOf Sample.sought (Sample.heirOrigin, rid)) c := by
    decide +kernel
  have hbase : isIntact .standard "Go" (keptOf Sample.sought (Sample.heirOrigin, 3))
        (Sample.beside Sample.heir, 2) ∧
      declares "Go" (Sample.beside Sample.heir, 2) = false ∧
      keptOf Sample.sought (Sample.heirOrigin, 3) = some Sample.sought.target := by
    decide +kernel
  obtain ⟨hintact, hdeclares, hkept⟩ := hbase
  obtain ⟨-, hresult⟩ := findDeclaringType_isOk_iff Sample.sought hopen hfind hreported horigin
  obtain ⟨-, hbroken⟩ := hresult 3 rfl
  have hanswer := hbroken _ Sample.breaksAfter_heir (by decide)
    (List.forall_mem_singleton.mpr hdeclares) (List.forall_mem_singleton.mpr fun _ => hintact)
  exact ⟨Sample.breaksAfter_heir, hanswer.trans (congrArg Except.ok hkept)⟩

/-- A name that cannot be read in the module of a base type fails the walk, although the reported
type alone could be answered. -/
theorem findDeclaringType_nameless :
    Query.exec (Query.module (.constant Sample.readNone) "Tests.dll")
        (Sample.storeOf Sample.heir Sample.nameless) =
      (.ok Sample.heirOrigin.opened, Sample.storeOf Sample.heir Sample.nameless) ∧
    (Sample.heir.findFull "N.Y+Inner" = .ok (some 3) ∧ isReadable (Sample.heirOrigin, 3) ∧
      keptOf Sample.sought (Sample.heirOrigin, 3) = some Sample.sought.target ∧
      ∀ c ∈ visited Sample.sought (.constant Sample.readNone) .standard (Sample.heirOrigin, 3)
        (Sample.storeOf Sample.heir Sample.nameless), c.1.isAt "Tests.dll" = false) ∧
    (Query.exec (findDeclaringType (.constant Sample.readNone) .standard "Tests.dll" "N.Y+Inner"
      "Go") (Sample.storeOf Sample.heir Sample.nameless)).1 = .error .outOfBounds :=
  ⟨rfl, by decide +kernel, by decide +kernel⟩

end MethodAtlas
