import MethodAtlas.Proofs.Attribute.RoundTrip
import MethodAtlas.Proofs.Resolution.Discovery

/-!
# The argument that names the generated type

An attribute gives its values in the order of its constructor's parameters. Which of them names the
generated type, the constructor's signature and the rows of its parameters tell (`IsTypePlace`), and
all values in front of it have to be read in order to get there. `generatedType_eq` says that the
name is then the one that was stored at that place, without its assembly; without such a place the
values are not looked at.
-/
namespace MethodAtlas

namespace StoredArgument

theorem not_hasType_unsupported (v : StoredArgument) : ¬ v.HasType .unsupported := nofun

/-- The values of types are names. -/
theorem HasType.exists_typeName {v : StoredArgument}
    (h : v.HasType (.scalar .systemType)) : ∃ name, v = .scalar (.typeName name) := by
  generalize ht : ArgumentType.scalar .systemType = t at h
  cases h with
  | scalar s =>
    cases s with
    | typeName name => exact ⟨name, rfl⟩
    | _ => cases ht
  | _ => cases ht

theorem notMem_unsupported {values : List StoredArgument} {types : List ArgumentType}
    (h : List.Forall₂ HasType values types) : .unsupported ∉ types := by
  induction h with
  | nil => exact List.not_mem_nil
  | cons ht _ ih =>
    rw [List.mem_cons, not_or]
    refine ⟨?_, ih⟩
    rintro rfl
    exact not_hasType_unsupported _ ht

end StoredArgument

namespace StateMachine
variable {m : Module} {c : Constructor} {parameters : List (SignatureParameter SignatureType)}

/-- The rows of a constructor's parameters, if it lies in the module. -/
def Constructor.parameterRows (c : Constructor) (m : Module) : List (Row Parameter) :=
  (c.definition.map m.parameters).getD []

/-- A type of a signature is a class by the name of the type whose values name types. -/
def IsSystemType (m : Module) (t : SignatureType) : Prop :=
  ∃ token, t = .classType token ∧ tokenName m token = .ok (some systemType)

/-- How the argument of a parameter is stored. -/
def storedAs (m : Module) (p : SignatureParameter SignatureType) : ArgumentType :=
  .ofSignature (classify m) p.type

/-- Whether a row names the parameter that takes the generated type. Number zero in the sequence is
no parameter. -/
def takesGenerated (m : Module) (row : Row Parameter) : Bool :=
  row.record.sequence ≠ 0 ∧ m.string row.record.name = .ok parameterName

/-- The generated type is named at this place: by the sequence number of the first row of the right
name, or as the only parameter that names a type where there are no rows. -/
def IsTypePlace (m : Module) (c : Constructor)
    (parameters : List (SignatureParameter SignatureType)) (place : Nat) : Prop :=
  (∃ p, parameters[place]? = some p ∧ IsSystemType m p.type) ∧
    ((c.parameterRows m = [] ∧
      ∀ other p, parameters[other]? = some p → IsSystemType m p.type → other = place) ∨
    ∃ row, (c.parameterRows m).find? (takesGenerated m) = some row ∧
      row.record.sequence = place + 1)

theorem ofSignature_eq_systemType_iff {t : SignatureType} :
    ArgumentType.ofSignature (classify m) t = .scalar .systemType ↔ IsSystemType m t := by
  cases t with
  | classType token =>
    simp only [ArgumentType.ofSignature, classify, IsSystemType, SignatureType.classType.injEq,
      exists_eq_left']
    rcases tokenName m token with e | _ | name
    · simp
    · simp
    · by_cases hname : name = systemType <;> simp [hname]
  | primitive t =>
    cases t <;> simp [ArgumentType.ofSignature, ArgumentType.ofPrimitive, IsSystemType]
  | _ => simp [ArgumentType.ofSignature, classify, IsSystemType]

theorem storedAs_eq_systemType_iff {place : Nat} :
    (parameters.map (storedAs m))[place]? = some (.scalar .systemType) ↔
      ∃ p, parameters[place]? = some p ∧ IsSystemType m p.type := by
  rw [List.getElem?_map, Option.map_eq_some_iff]
  simp only [storedAs, ofSignature_eq_systemType_iff]

theorem onlyPlace_eq_some_iff {types : List ArgumentType} {place : Nat} :
    onlyPlace types = some place ↔ types[place]? = some (.scalar .systemType) ∧
      ∀ other, types[other]? = some (.scalar .systemType) → other = place := by
  have honly : onlyPlace types = some place ↔
      ∃ t, types.zipIdx.filter (fun typed => typed.1 = .scalar .systemType) = [(t, place)] := by
    rw [onlyPlace]
    split
    · next t other hfilter =>
      change types.zipIdx.filter (fun typed => typed.1 = .scalar .systemType) = _ at hfilter
      simp [hfilter]
    · next hfilter =>
      constructor
      · intro h
        cases h
      · rintro ⟨t, ht⟩
        exact absurd ht (hfilter t place)
  have hnodup : types.zipIdx.Nodup := by
    apply List.Nodup.of_map Prod.snd
    rw [List.zipIdx_map_snd]
    exact List.nodup_range'
  rw [honly]
  simp only [← List.filterMap_eq_filter, filterMap_eq_singleton_iff hnodup,
    Option.guard_eq_some_iff, Option.isSome_guard, decide_eq_true_eq, Prod.forall,
    List.mem_zipIdx_iff_getElem?]
  constructor
  · rintro ⟨t, _, hmem, ⟨rfl, rfl⟩, hothers⟩
    refine ⟨hmem, fun other hother => ?_⟩
    exact congrArg Prod.snd (hothers _ other hother rfl)
  · rintro ⟨hplace, hothers⟩
    refine ⟨_, (_, place), hplace, ⟨rfl, rfl⟩, ?_⟩
    rintro _ other hother rfl
    rw [hothers other hother]

/-- The search by names finds a place if the first row of the right name is that of a parameter
that names types. -/
theorem exists_namedPlace {rows : List (Row Parameter)} (types : List ArgumentType)
    (hnames : ∀ row ∈ rows, ∃ name, m.string row.record.name = .ok name) :
    ∃ found, namedPlace m types rows = .ok found ∧ ∀ place, found = some place ↔
      types[place]? = some (.scalar .systemType) ∧
        ∃ row, rows.find? (takesGenerated m) = some row ∧ row.record.sequence = place + 1 := by
  induction rows with
  | nil => exact ⟨none, rfl, by simp⟩
  | cons row rows ih =>
    obtain ⟨⟨name, hname⟩, hnames⟩ := List.forall_mem_cons.mp hnames
    rw [namedPlace]
    by_cases htakes : takesGenerated m row = true
    · obtain ⟨hzero, hgenerated⟩ : row.record.sequence ≠ 0 ∧ name = parameterName := by
        simpa [takesGenerated, hname] using htakes
      rw [if_neg hzero, hname, Outcome.ok_bind, if_pos hgenerated, List.find?_cons_of_pos htakes]
      refine ⟨_, rfl, fun place => ?_⟩
      simp only [Option.ite_none_right_eq_some, Option.some.injEq, exists_eq_left']
      constructor
      · rintro ⟨htype, rfl⟩
        exact ⟨htype, by omega⟩
      · rintro ⟨htype, hsequence⟩
        rw [hsequence]
        exact ⟨htype, rfl⟩
    · rw [List.find?_cons_of_neg htakes]
      by_cases hzero : row.record.sequence = 0
      · rw [if_pos hzero]
        exact ih hnames
      · have hother : name ≠ parameterName := by
          simpa [takesGenerated, hname, hzero] using htakes
        rw [if_neg hzero, hname, Outcome.ok_bind, if_neg hother]
        exact ih hnames

/-- The search finds the place that takes the generated type, if there is one. -/
theorem exists_typePlace (parameters : List (SignatureParameter SignatureType))
    (hnames : ∀ row ∈ c.parameterRows m, ∃ name, m.string row.record.name = .ok name) :
    ∃ found, typePlace m c (parameters.map (storedAs m)) = .ok found ∧
      ∀ place, found = some place ↔ IsTypePlace m c parameters place := by
  simp only [IsTypePlace, ← storedAs_eq_systemType_iff]
  cases hrows : c.parameterRows m with
  | nil =>
    have honly : typePlace m c (parameters.map (storedAs m)) =
        .ok (onlyPlace (parameters.map (storedAs m))) := by
      rw [Constructor.parameterRows] at hrows
      rw [typePlace, hrows]
    refine ⟨_, honly, fun place => ?_⟩
    rw [onlyPlace_eq_some_iff]
    simp only [storedAs_eq_systemType_iff]
    simp
  | cons row rows =>
    obtain ⟨found, hfound, hplaces⟩ :=
      exists_namedPlace (parameters.map (storedAs m)) (hrows ▸ hnames)
    have hnamed : typePlace m c (parameters.map (storedAs m)) =
        namedPlace m (parameters.map (storedAs m)) (row :: rows) := by
      rw [Constructor.parameterRows] at hrows
      rw [typePlace, hrows]
    refine ⟨found, hnamed.trans hfound, fun place => ?_⟩
    rw [hplaces]
    simp

theorem argumentTypes_eq {bytes : ByteArray} {signature : MethodSignature}
    (hblob : m.blob c.signature = .ok bytes)
    (hsignature : Signature.method.decode bytes = .ok signature) :
    argumentTypes m c = .ok (signature.parameters.map (storedAs m)) := by
  rw [argumentTypes, hblob, Outcome.ok_bind, hsignature]
  rfl

/-- The last of the values up to a parameter that names types is a name. -/
theorem exists_value_of_forall₂ {values : List StoredArgument} {place : Nat}
    {p : SignatureParameter SignatureType}
    (h : List.Forall₂ StoredArgument.HasType values
      ((parameters.take (place + 1)).map (storedAs m)))
    (hp : parameters[place]? = some p) (htype : IsSystemType m p.type) :
    ∃ name, values[place]? = some (.scalar (.typeName name)) ∧
      values.getLast? = some (.scalar (.typeName name)) := by
  obtain ⟨hlt, hget⟩ := List.getElem?_eq_some_iff.mp hp
  have hlength : values.length = place + 1 := by
    rw [h.length_eq, List.length_map, List.length_take, Nat.min_eq_left hlt]
  have hvalue := h.get (i := place) (by omega) (by simp; omega)
  rw [List.get_eq_getElem, List.get_eq_getElem, List.getElem_map, List.getElem_take, hget,
    storedAs, ofSignature_eq_systemType_iff.mpr htype] at hvalue
  obtain ⟨name, hname⟩ := hvalue.exists_typeName
  have hplace : values[place]? = some (.scalar (.typeName name)) := by
    rw [← hname]
    exact List.getElem?_eq_getElem _
  refine ⟨name, hplace, ?_⟩
  rw [List.getLast?_eq_getElem?, hlength]
  exact hplace

/-- The bytes of an attribute start with values for these parameters of its constructor. -/
structure HoldsValues (m : Module) (parameters : List (SignatureParameter SignatureType))
    (bytes : ByteArray) (values : List StoredArgument) : Prop where
  types : List.Forall₂ StoredArgument.HasType values (parameters.map (storedAs m))
  storable : ∀ v ∈ values, v.Storable
  levels : StoredArgument.levelsOfAll values ≤ Attribute.depthLimit
  stored : ∃ rest, bytes.data.toList = Attribute.encode values ++ rest

/-- The generated type is the one that is stored at the place that takes it, whatever values are in
front of it and whatever follows; a parameter of a type that no argument can have has no values.
Where no place takes it, the outcome is the same for all values, also for those that are not in the
heap. -/
theorem generatedType_eq {bytes : ByteArray} {signature : MethodSignature}
    (hblob : m.blob c.signature = .ok bytes)
    (hsignature : Signature.method.decode bytes = .ok signature)
    (hnames : ∀ row ∈ c.parameterRows m, ∃ name, m.string row.record.name = .ok name) :
    (∀ place, IsTypePlace m c signature.parameters place → ∀ value bytes values,
      m.blob value = .ok bytes →
      HoldsValues m (signature.parameters.take (place + 1)) bytes values →
      ∃ name, values[place]? = some (.scalar (.typeName name)) ∧
        generatedType m c value = .ok (name.map QualifiedName.stripAssembly)) ∧
    ((∀ place, ¬ IsTypePlace m c signature.parameters place) →
      ∀ value, generatedType m c value = .ok none) := by
  obtain ⟨found, hfound, hplaces⟩ := exists_typePlace signature.parameters hnames
  have htypes := argumentTypes_eq hblob hsignature
  constructor
  · intro place hplace value valueBytes values hvalue hholds
    obtain rfl := (hplaces place).mpr hplace
    obtain ⟨⟨p, hp, htype⟩, -⟩ := hplace
    obtain ⟨name, hname, hlast⟩ := exists_value_of_forall₂ hholds.types hp htype
    obtain ⟨rest, hbytes⟩ := hholds.stored
    refine ⟨name, hname, ?_⟩
    have hsupported : ¬ ((signature.parameters.map (storedAs m)).take (place + 1)).contains
        .unsupported = true := by
      rw [← List.map_take, List.contains_iff_mem]
      exact StoredArgument.notMem_unsupported hholds.types
    have hread := Attribute.fixedArguments_eq hholds.types hholds.storable hholds.levels hbytes
    rw [List.map_take] at hread
    rw [generatedType, htypes, Outcome.ok_bind, hfound, Outcome.ok_bind]
    simp only [if_neg hsupported, hvalue, Outcome.ok_bind, hread]
    rw [StoredArgument.eraseAll_eq, List.getLast?_map, hlast]
    cases name <;> rfl
  · intro hnone value
    have hnot : found = none := by
      rw [Option.eq_none_iff_forall_ne_some]
      intro place hplace
      exact hnone place ((hplaces place).mp hplace)
    rw [generatedType, htypes, Outcome.ok_bind, hfound, hnot]
    rfl

/-- The constructor of an attribute of the sample. -/
def sampleConstructor : Constructor := ⟨.reference 1, 1, none⟩

/-- Its signature, with one parameter that is a class. -/
def sampleSignature : MethodSignature where
  hasThis := true
  explicitThis := false
  vararg := false
  genericCount := 0
  parameterCount := 1
  returns := ⟨[], false, .primitive .void⟩
  parameters := [⟨[], false, .classType (.ofParts .typeRef 5)⟩]

theorem generatedType_eq_sample :
    IsTypePlace Sample.module sampleConstructor sampleSignature.parameters 0 ∧
      generatedType Sample.module sampleConstructor 7 = .ok (some "N.T+Go") := by
  have hblobs : Sample.module.blob 1 = .ok ⟨#[0x20, 1, 1, 0x12, 21]⟩ ∧
      Sample.module.blob 7 = .ok ⟨#[1, 0, 6, 78, 46, 84, 43, 71, 111, 0, 0]⟩ := by decide +kernel
  have hsignature : Signature.method.decode ⟨#[0x20, 1, 1, 0x12, 21]⟩ = .ok sampleSignature := rfl
  have hnames : ∀ row ∈ sampleConstructor.parameterRows Sample.module,
      ∃ name, Sample.module.string row.record.name = .ok name := fun _ hrow => nomatch hrow
  have htoken : tokenName Sample.module (.ofParts .typeRef 5) = .ok (some systemType) := by
    decide +kernel
  have hsystem : IsSystemType Sample.module (.classType (.ofParts .typeRef 5)) := ⟨_, rfl, htoken⟩
  have hplace : IsTypePlace Sample.module sampleConstructor sampleSignature.parameters 0 := by
    refine ⟨⟨_, rfl, hsystem⟩, .inl ⟨rfl, fun other p hp _ => ?_⟩⟩
    have hlt := (List.getElem?_eq_some_iff.mp hp).1
    exact Nat.lt_one_iff.mp hlt
  have htype : storedAs Sample.module ⟨[], false, .classType (.ofParts .typeRef 5)⟩ =
      .scalar .systemType := ofSignature_eq_systemType_iff.mpr hsystem
  have hname : Compressed.StorableString (some "N.T+Go") := by
    rintro _ ⟨⟩
    decide
  have htypes : List.Forall₂ StoredArgument.HasType [.scalar (.typeName (some "N.T+Go"))]
      ((sampleSignature.parameters.take 1).map (storedAs Sample.module)) := by
    refine .cons ?_ .nil
    rw [htype]
    exact .scalar _
  have hholds : HoldsValues Sample.module (sampleSignature.parameters.take 1)
      ⟨#[1, 0, 6, 78, 46, 84, 43, 71, 111, 0, 0]⟩ [.scalar (.typeName (some "N.T+Go"))] :=
    ⟨htypes, by simpa using .scalar hname, by decide, [0, 0], by decide⟩
  obtain ⟨name, hvalue, hgenerated⟩ :=
    (generatedType_eq hblobs.1 hsignature hnames).1 0 hplace 7 _ _ hblobs.2 hholds
  cases hvalue
  have hstrip : QualifiedName.stripAssembly "N.T+Go" = "N.T+Go" := by decide +kernel
  refine ⟨hplace, ?_⟩
  rw [hgenerated, Option.map_some, hstrip]

end StateMachine
end MethodAtlas
