import MethodAtlas.Proofs.Bytes.Compressed
import MethodAtlas.Proofs.Signature.Sentinels
import MethodAtlas.Signature.Stored

/-!
# Signatures are read back

What a stored signature stands for is read back from its stored form, whatever follows it, if
nothing that is to be read back stands behind extra parameters. Each decoder reads the form of its
part up to the first sentinel in it, given that the decoder of the levels below reads the types
below (`ReadsSettled.typeBody`); induction on the levels puts these together
(`ReadsSettled.typeWithin`). Without extra parameters there is no sentinel, and all of the form is
read (`Signature.run_method_encode`).
-/
namespace MethodAtlas

theorem TypeForm.code_injective {f g : TypeForm} (h : f.code = g.code) : f = g := by
  have hsome := ofCode?_code f
  rw [h, ofCode?_code] at hsome
  exact (Option.some.inj hsome).symm

namespace Signature

theorem isModifierCode_code (f : TypeForm) : isModifierCode f.code = false := by
  cases f with
  | primitive t => cases t <;> rfl
  | _ => rfl

theorem code_ne_sentinel (f : TypeForm) : f.code ≠ sentinel := by
  cases f with
  | primitive t => cases t <;> decide
  | _ => decide

/-- Bytes that a type starts with. -/
def StartsType (text : List UInt8) : Prop := ∃ form : TypeForm, text.head? = some form.code

/-- The mark of a parameter that is passed by reference. -/
def referenceMark (byReference : Bool) : List UInt8 :=
  if byReference then [TypeForm.byReference.code] else []

/-- Bytes that a type starts with, which can stand behind such a mark or its absence. -/
def StartsMarked (byReference : Bool) (text : List UInt8) : Prop :=
  ∃ form : TypeForm, text.head? = some form.code ∧ (form = .byReference → byReference = true)

theorem StartsMarked.startsType {byReference : Bool} {text : List UInt8}
    (h : StartsMarked byReference text) : StartsType (referenceMark byReference ++ text) := by
  cases byReference with
  | true => exact ⟨.byReference, rfl⟩
  | false =>
    obtain ⟨form, hform, -⟩ := h
    exact ⟨form, hform⟩

/-- The first byte of a type tells its form. -/
theorem head?_encodeType (t : StoredType) : (encodeType t).head? = some t.form.code := by
  cases t <;> rfl

theorem head?_encodeType_append (t : StoredType) (after : List UInt8) :
    (encodeType t ++ after).head? = some t.form.code := by
  rw [List.head?_append, head?_encodeType]
  rfl

/-- What starts like a type can stand behind the modifiers of its parameter. -/
theorem StorableParameter.startsMarked {p : StoredParameter} (hp : StorableParameter p)
    {text : List UInt8} (htext : text.head? = some p.type.form.code) :
    StartsMarked p.byReference text := ⟨p.type.form, htext, hp.marked⟩

/-- Bytes that do not start with a sentinel. -/
def StartsOn (text : List UInt8) : Prop := ∃ code, text.head? = some code ∧ code ≠ sentinel

/-- Neither a modifier nor the mark of a reference nor a type starts with a sentinel. -/
theorem StartsMarked.startsOn {byReference : Bool} {text : List UInt8}
    (htext : StartsMarked byReference text) (ms : List TypeModifier) :
    StartsOn (TypeModifier.encodeAll ms ++ referenceMark byReference ++ text) := by
  rw [List.append_assoc]
  cases ms with
  | nil =>
    obtain ⟨form, hform⟩ := htext.startsType
    exact ⟨form.code, hform, code_ne_sentinel form⟩
  | cons m ms =>
    refine ⟨_, rfl, ?_⟩
    cases m.required <;> decide

/-- No parameter starts with a sentinel. -/
theorem startsOn_encodeParameter {p : StoredParameter} (hp : StorableParameter p)
    (after : List UInt8) : StartsOn (encodeParameter p ++ after) := by
  obtain ⟨ms, byReference, t⟩ := p
  rw [encodeParameter, List.append_assoc]
  exact (hp.startsMarked (head?_encodeType_append t after)).startsOn ms

/-! What is said of lists is said of each of their members. -/

theorem eraseTypes_eq (ts : List StoredType) : eraseTypes ts = ts.map eraseType :=
  Along.eq_map rfl (fun _ _ => rfl) ts

theorem encodeTypes_eq (ts : List StoredType) : encodeTypes ts = ts.flatMap encodeType :=
  Along.eq_flatMap rfl (fun _ _ => rfl) ts

theorem eraseParameters_eq (ps : List StoredParameter) :
    eraseParameters ps = ps.map eraseParameter :=
  Along.eq_map rfl (fun _ _ => rfl) ps

theorem anyVariadicType_eq (ts : List StoredType) : anyVariadicType ts = ts.any isVariadicType :=
  Along.eq_any rfl (fun _ _ => rfl) ts

theorem isVariadicParameter_eq (p : StoredParameter) :
    isVariadicParameter p = isVariadicType p.type := by
  cases p
  rfl

theorem anyVariadicParameter_eq (ps : List StoredParameter) :
    anyVariadicParameter ps = ps.any fun p => isVariadicType p.type :=
  Along.eq_any rfl (fun p _ => by rw [anyVariadicParameter, isVariadicParameter_eq]) ps

theorem levelsOfType_pos (t : StoredType) : 0 < levelsOfType t := by
  cases t <;> simp [levelsOfType]

theorem levelsOfType_le_of_mem {t : StoredType} {ts : List StoredType} (h : t ∈ ts) :
    levelsOfType t ≤ levelsOfTypes ts := Along.le_of_mem (fun _ _ => rfl) h

theorem levelsOfParameter_eq (p : StoredParameter) : levelsOfParameter p = levelsOfType p.type := by
  cases p
  rfl

theorem levelsOfType_le_levels {s : StoredSignature} {p : StoredParameter}
    (h : p ∈ s.returns :: s.parameters) : levelsOfType p.type ≤ levels s := by
  rw [← levelsOfParameter_eq]
  cases s
  rw [levels]
  obtain rfl | h := List.mem_cons.mp h
  · exact Nat.le_max_left _ _
  · exact Nat.le_trans (Along.le_of_mem (fun _ _ => rfl) h) (Nat.le_max_right _ _)

/-! What extra parameters do not stand in, nothing stands behind them in. -/

theorem isVariadicType_of_mem {s : StoredSignature} (hs : isVariadic s = false)
    {p : StoredParameter} (hp : p ∈ s.returns :: s.parameters) : isVariadicType p.type = false := by
  obtain ⟨convention, genericCount, returns, ps, extra⟩ := s
  rw [isVariadic, isVariadicParameter_eq, anyVariadicParameter_eq, Bool.or_eq_false_iff,
    Bool.or_eq_false_iff, List.any_eq_false] at hs
  obtain rfl | hp := List.mem_cons.mp hp
  · exact hs.1
  · exact Bool.of_not_eq_true (hs.2.1 p hp)

theorem StorableType.settledType {excluded : List Nat} {t : StoredType}
    (ht : StorableType excluded t) (hplain : isVariadicType t = false) : SettledType t := by
  induction ht with
  | primitive t => exact .primitive t
  | pointer _ _ ih => exact .pointer (ih hplain)
  | byReference _ ih => exact .byReference (ih hplain)
  | valueType => exact .valueType _
  | classType => exact .classType _
  | typeVariable => exact .typeVariable _
  | array _ _ _ _ _ ih => exact .array (ih hplain) hplain
  | genericInstance _ _ _ _ _ ih =>
    rw [isVariadicType, anyVariadicType_eq, List.any_eq_false] at hplain
    have hplain := fun t ht => Bool.of_not_eq_true (hplain t ht)
    exact .genericInstance (fun t ht => ih t ht (hplain t ht))
      fun t ht => hplain t (List.dropLast_subset _ ht)
  | functionPointer _ _ ih =>
    have hplain := fun p hp => isVariadicType_of_mem hplain (p := p) hp
    exact .functionPointer (fun p hp => ih p hp (hplain p hp))
      fun p hp => hplain p (List.dropLast_subset _ hp)
  | vector _ _ ih => exact .vector (ih hplain)
  | methodVariable => exact .methodVariable _
  | pinned _ ih => exact .pinned (ih hplain)

theorem Storable.settled {excluded : List Nat} {s : StoredSignature} (hs : Storable excluded s)
    (hplain : isVariadic s = false) : Settled s where
  types _ hp := (hs.types _ hp).settledType (isVariadicType_of_mem hplain hp)
  ends _ hp := isVariadicType_of_mem hplain (List.dropLast_subset _ hp)

theorem settled_iff {s : StoredSignature} : Settled s ↔
    StopsLast (fun p => SettledType p.type) (fun p => isVariadicType p.type)
      (s.returns :: s.parameters) := by
  rw [stopsLast_iff]
  exact ⟨fun h => ⟨h.types, h.ends⟩, fun h => ⟨h.1, h.2⟩⟩

end Signature

namespace Decoder
open Signature

namespace ReadsBefore

/-- Modifiers are read up to the first byte that none starts with. -/
theorem collectModifiers {ms : List TypeModifier} (hms : ∀ m ∈ ms, m.token.IsCompressible)
    {left : Nat} (hleft : (TypeModifier.encodeAll ms).length ≤ left) (done : Array Token) :
    ReadsBefore (∀ code ∈ ·.head?, isModifierCode code = false) (collectModifiers left done)
      (TypeModifier.encodeAll ms) (done ++ (ms.map (·.token)).toArray) := by
  induction ms generalizing left done with
  | nil =>
    rw [List.map_nil, Array.append_empty]
    cases left with
    | zero => exact .pure done
    | succ left =>
      intro bytes c after hafter hahead
      have hpeek := peek? after.head? rfl hahead
      rw [Signature.collectModifiers, run_bind, hpeek]
      cases after with
      | nil => rfl
      | cons code after =>
        have hcode : isModifierCode code = false := hafter code rfl
        simp only [List.head?_cons, hcode, Bool.false_eq_true, ↓reduceIte]
        rfl
  | cons m ms ih =>
    obtain ⟨hm, hms⟩ := List.forall_mem_cons.mp hms
    -- A modifier takes a byte at least, so that the bytes left do not run out before the modifiers.
    rw [TypeModifier.encodeAll_cons, List.length_append, TypeModifier.length_encode] at hleft
    obtain ⟨left, rfl⟩ : ∃ n, left = n + 1 := ⟨left - 1, by omega⟩
    have hfits : (TypeModifier.encodeAll ms).length ≤ left := by omega
    have hmore := ih hms hfits (done.push m.token)
    have hdone : done ++ ((m :: ms).map (·.token)).toArray =
        done.push m.token ++ (ms.map (·.token)).toArray := by simp
    have hcode : ∀ required : Bool,
        isModifierCode (if required then requiredModifier else optionalModifier) = true := by
      decide
    rw [hdone, Signature.collectModifiers, TypeModifier.encodeAll_cons]
    refine Reads.peek?_bind _ (fun _ _ => rfl) ?_
    simp only [hcode, ↓reduceIte, TypeModifier.encode]
    exact (Reads.skip [_]).bind ((Reads.token hm).bind hmore)

end ReadsBefore

namespace GoesOn
variable {type : Decoder SignatureType}

/-- The modifiers in front of a type are read. -/
theorem modifiers {β : Type} {ms : List TypeModifier} (hms : ∀ m ∈ ms, m.token.IsCompressible)
    (f : List Token → Decoder β) :
    GoesOn StartsType (Signature.modifiers >>= f) (TypeModifier.encodeAll ms)
      (f (ms.map (·.token))) := by
  have hread : ReadsBefore (∀ code ∈ ·.head?, isModifierCode code = false) Signature.modifiers
      (TypeModifier.encodeAll ms) (ms.map (·.token)) := by
    refine ReadsBefore.left_bind fun left hleft => ?_
    have hall := ReadsBefore.collectModifiers hms hleft #[]
    rw [Array.empty_append] at hall
    exact hall.map (·.toList)
  rintro bytes c after ⟨form, hform⟩ hahead
  refine hread.goesOn f (fun code hcode => ?_) hahead
  obtain rfl := Option.some.inj (hform.symm.trans hcode)
  exact isModifierCode_code form

/-- What stands in front of the type of a parameter is read. -/
theorem parameter {ms : List TypeModifier} (hms : ∀ m ∈ ms, m.token.IsCompressible)
    (byReference : Bool) :
    GoesOn (StartsMarked byReference) (Signature.parameter type)
      (TypeModifier.encodeAll ms ++ referenceMark byReference)
      (do let t ← type; return ⟨ms.map (·.token), byReference, t⟩) := by
  refine (modifiers hms _).trans ?_ fun _ => StartsMarked.startsType
  cases byReference with
  | true =>
    refine ((ReadsBefore.peek TypeForm.byReference.code).goesOn _).trans_nil ?_ fun _ _ => rfl
    exact ((Reads.skip [TypeForm.byReference.code]).mono fun _ _ => trivial).goesOn _
  | false =>
    rintro bytes c after ⟨form, hform, hmarked⟩ hahead
    have hcode : (form.code == TypeForm.byReference.code) = false :=
      beq_false_of_ne fun h => Bool.noConfusion (hmarked (TypeForm.code_injective h))
    have hpeek := ReadsBefore.peek form.code hform hahead
    rw [run_bind, hpeek]
    dsimp only
    rw [hcode]
    rfl

/-- Without a sentinel in front of it a parameter is read. -/
theorem collectParameters (n : Nat) (done : Array (SignatureParameter SignatureType)) :
    GoesOn StartsOn (Signature.collectParameters type (n + 1) done) []
      (do let p ← Signature.parameter type; Signature.collectParameters type n (done.push p)) := by
  rintro bytes c after ⟨code, hcode, hne⟩ hahead
  rw [Signature.collectParameters, run_bind, ReadsBefore.peek code hcode hahead]
  dsimp only
  rw [if_neg hne]

/-- What stands in front of the types of a signature is read. -/
theorem methodWith {convention : UInt8} {genericCount parameterCount : Nat}
    (hgeneric : convention.toNat.testBit 4 = true → genericCount < 0x20000000)
    (hcount : parameterCount < 0x20000000) :
    GoesOn (fun _ => True) (Signature.methodWith type)
      (convention :: ((if convention.toNat.testBit 4 then Compressed.number genericCount else [])
        ++ Compressed.number parameterCount))
      (do
        let returns ← Signature.parameter type
        let parameters ← Signature.collectParameters type parameterCount #[]
        return {
          hasThis := convention.toNat.testBit 5
          explicitThis := convention.toNat.testBit 6
          vararg := convention.toNat % 16 == 5
          genericCount := if convention.toNat.testBit 4 then genericCount else 0
          parameterCount, returns
          parameters := parameters.toList }) := by
  have hread : Reads (Signature.genericCount convention)
      (if convention.toNat.testBit 4 then Compressed.number genericCount else [])
      (if convention.toNat.testBit 4 then genericCount else 0) := by
    rw [Signature.genericCount]
    split
    · next hbit => exact .compressed (hgeneric hbit)
    · exact .pure 0
  refine ((Reads.byte convention).goesOn _).trans ?_ fun _ _ => trivial
  refine (hread.goesOn _).trans ?_ fun _ _ => trivial
  exact (Reads.compressed hcount).goesOn _

/-- What stands in front of the arguments of a generic type is read. -/
theorem genericInstance {base : StoredType} {count : Nat}
    (hform : base.form = .classType ∨ base.form = .valueType) (hcount : count < 0x20000000)
    (hbase : Reads type (encodeType base) (eraseType base)) :
    GoesOn (fun _ => True) (formBody type .genericInstance)
      (encodeType base ++ Compressed.number count)
      (do let arguments ← many type count; return .genericInstance (eraseType base) arguments) := by
  have hcode : ¬(base.form.code ≠ TypeForm.classType.code ∧
      base.form.code ≠ TypeForm.valueType.code) := by
    rcases hform with h | h <;> simp [h]
  have hpeek : GoesOn (·.head? = some base.form.code) (formBody type .genericInstance) [] _ :=
    (ReadsBefore.peek base.form.code).goesOn _
  rw [if_neg hcode] at hpeek
  refine hpeek.trans_nil ?_ fun after _ => ?_
  · exact (hbase.goesOn _).trans ((Reads.compressed hcount).goesOn _) fun _ _ => trivial
  · rw [List.append_assoc]
    exact head?_encodeType_append base _

/-- The first byte of a type decides how its rest is read. -/
theorem typeBody (form : TypeForm) :
    GoesOn (fun _ => True) (typeBody type) [form.code] (formBody type form) := by
  have hbyte : GoesOn (fun _ => True) (Signature.typeBody type) [form.code] _ :=
    (Reads.byte form.code).goesOn _
  rwa [TypeForm.ofCode?_code] at hbyte

end GoesOn

/-- The bounds of an array are passed over. -/
theorem Reads.arrayBounds {sizes lowerBounds : List Nat} (hsizes : StorableNumbers sizes)
    (hlowerBounds : StorableNumbers lowerBounds) :
    Reads arrayBounds (numbers sizes ++ numbers lowerBounds) () := by
  have hpass {ns : List Nat} (hns : StorableNumbers ns) :
      Reads (Decoder.passOver .compressed ns.length) (ns.flatMap Compressed.number) () :=
    passOver ns fun n hn => compressed (hns.each n hn)
  rw [numbers, List.append_assoc]
  exact (compressed hsizes.count).bind ((hpass hsizes).bind
    ((compressed hlowerBounds.count).bind (hpass hlowerBounds)))

/-- At a sentinel no more parameters are collected. -/
theorem ReadsBefore.collectParameters {type : Decoder SignatureType} (n : Nat)
    (done : Array (SignatureParameter SignatureType)) :
    ReadsBefore AtSentinel (collectParameters type n done) [] done := by
  cases n with
  | zero => exact .pure done
  | succ n =>
    refine ((ReadsBefore.peek sentinel).goesOn _).reads_nil ?_ fun after hafter => hafter
    rw [if_pos rfl]
    exact .pure done

/-- A decoder reads a type in which nothing stands behind extra parameters. -/
def ReadsSettled (type : Decoder SignatureType) (t : StoredType) : Prop :=
  SettledType t → ReadsUpTo type (isVariadicType t) (encodeType t) (eraseType t)

namespace ReadsUpTo
variable {type : Decoder SignatureType}

/-- A parameter is read as far as its type is. -/
theorem parameter {p : StoredParameter} (hp : StorableParameter p)
    (htype : ReadsUpTo type (isVariadicType p.type) (encodeType p.type) (eraseType p.type)) :
    ReadsUpTo (parameter type) (isVariadicType p.type) (encodeParameter p) (eraseParameter p) := by
  obtain ⟨ms, byReference, t⟩ := p
  exact (GoesOn.parameter hp.modifiers byReference).readsUpTo (htype.map _) fun text htext =>
    hp.startsMarked (htext _ (head?_encodeType t))

/-- Parameters are collected up to the first sentinel. -/
theorem collectParameters {ps : List StoredParameter} (extra : List StoredParameter)
    (hps : ∀ p ∈ ps, StorableParameter p)
    (htypes : ∀ p ∈ ps, ReadsSettled type p.type)
    (hlast : StopsLast (fun p => SettledType p.type) (fun p => isVariadicType p.type) ps)
    (done : Array (SignatureParameter SignatureType)) :
    ReadsUpTo (collectParameters type (ps.length + extra.length) done)
      (ps.any (fun p => isVariadicType p.type) || !extra.isEmpty)
      (encodeParameters ps ++ encodeExtra extra) (done ++ (eraseParameters ps).toArray) := by
  induction ps generalizing done with
  | nil =>
    rw [eraseParameters, Array.append_empty]
    cases extra with
    | nil => exact .whole (.pure done)
    | cons p extra => exact .stopped rfl (ReadsBefore.collectParameters _ done)
  | cons p ps ih =>
    obtain ⟨hp, hend, hlast⟩ := hlast
    obtain ⟨hstorable, hps⟩ := List.forall_mem_cons.mp hps
    obtain ⟨htype, htypes⟩ := List.forall_mem_cons.mp htypes
    have hdone : done ++ (eraseParameters (p :: ps)).toArray =
        done.push (eraseParameter p) ++ (eraseParameters ps).toArray := by
      simp [eraseParameters]
    rw [hdone, encodeParameters, List.any_cons, Bool.or_assoc, List.append_assoc, List.length_cons,
      Nat.add_right_comm]
    refine (GoesOn.collectParameters _ done).readsUpTo_nil
      ((parameter hstorable (htype hp)).bind (fun hstops => ?_)
        fun _ => ih hps htypes hlast _) fun text htext => ?_
    · rw [hend hstops, eraseParameters, Array.append_empty]
      exact ReadsBefore.collectParameters _ _
    · obtain ⟨code, hcode, hne⟩ := startsOn_encodeParameter hstorable _
      exact ⟨code, htext code hcode, hne⟩

/-- A signature is read up to the first sentinel. -/
theorem methodWith {s : StoredSignature} (hs : StorableHead s) (hsettled : Settled s)
    (htypes : ∀ p ∈ s.returns :: s.parameters, ReadsSettled type p.type) :
    ReadsUpTo (methodWith type) (isVariadic s) (encode s) (erase s) := by
  obtain ⟨convention, genericCount, returns, ps, extra⟩ := s
  obtain ⟨hreturns, hend, hlast⟩ := settled_iff.mp hsettled
  obtain ⟨hstorable, hps⟩ := List.forall_mem_cons.mp hs.parameters
  obtain ⟨htype, htypes⟩ := List.forall_mem_cons.mp htypes
  have hall := collectParameters extra hps htypes hlast #[]
  rw [Array.empty_append] at hall
  have hread := parameter hstorable (htype hreturns)
  dsimp only at hread
  rw [encode, isVariadic, anyVariadicParameter_eq, isVariadicParameter_eq]
  refine (GoesOn.methodWith hs.genericCount hs.parameterCount).readsUpTo
    (hread.bind (fun hstops => ?_) fun _ => ?_) fun _ _ => trivial
  · obtain rfl : ps = [] := hend hstops
    exact (ReadsBefore.collectParameters _ #[]).map _
  · exact hall.map _

/-- A type behind modifiers is read as far as it is, and what is made of it. -/
theorem modified {ms : List TypeModifier} (hms : ∀ m ∈ ms, m.token.IsCompressible)
    {stops : Bool} {t : StoredType} (htype : ReadsUpTo type stops (encodeType t) (eraseType t))
    (g : SignatureType → SignatureType) :
    ReadsUpTo (do let _ ← modifiers; return g (← type)) stops
      (TypeModifier.encodeAll ms ++ encodeType t) (g (eraseType t)) :=
  (GoesOn.modifiers hms _).readsUpTo (htype.map g) fun _ htext =>
    ⟨t.form, htext _ (head?_encodeType t)⟩

/-- A generic instance is read up to the first sentinel in its arguments. -/
theorem genericInstance {base : StoredType} {ts : List StoredType}
    (hform : base.form = .classType ∨ base.form = .valueType) (hcount : ts.length < 0x20000000)
    (hbase : Reads type (encodeType base) (eraseType base))
    (hts : ∀ t ∈ ts, ReadsSettled type t)
    (hlast : StopsLast SettledType isVariadicType ts) :
    ReadsUpTo (formBody type .genericInstance) (anyVariadicType ts)
      (encodeType base ++ Compressed.number ts.length ++ encodeTypes ts)
      (.genericInstance (eraseType base) (eraseTypes ts)) := by
  rw [anyVariadicType_eq, encodeTypes_eq, eraseTypes_eq]
  exact (GoesOn.genericInstance hform hcount hbase).readsUpTo ((many hts hlast).map _)
    fun _ _ => trivial

/-- The first byte of a type decides how far its rest is read. -/
theorem typeBody {form : TypeForm} {more : List UInt8} {stops : Bool} {t : SignatureType}
    (h : ReadsUpTo (formBody type form) stops more t) :
    ReadsUpTo (typeBody type) stops (form.code :: more) t :=
  (GoesOn.typeBody form).readsUpTo h fun _ _ => trivial

end ReadsUpTo

namespace ReadsSettled
variable {type : Decoder SignatureType} {excluded : List Nat} {t : StoredType}

/-- A generic type is read as a whole. -/
theorem reads_base (h : ReadsSettled type t) (hform : t.form = .classType ∨ t.form = .valueType) :
    Reads type (encodeType t) (eraseType t) := by
  cases t with
  | classType token => exact (h (.classType token)).reads
  | valueType token => exact (h (.valueType token)).reads
  | _ => rcases hform with hform | hform <;> cases hform

/-- A type is read up to the first sentinel if the types below it are. -/
theorem typeBody (ht : StorableType excluded t)
    (hbelow : ∀ u, StorableType excluded u → levelsOfType u < levelsOfType t →
      ReadsSettled type u) :
    ReadsSettled (typeBody type) t := by
  intro hsettled
  cases ht with
  | primitive t => exact .typeBody (.whole (.pure _))
  | pointer hms hu =>
    cases hsettled with
    | pointer hsu => exact .typeBody (.modified hms (hbelow _ hu (Nat.lt_succ_self _) hsu) .pointer)
  | byReference hu =>
    cases hsettled with
    | byReference hsu => exact .typeBody ((hbelow _ hu (Nat.lt_succ_self _) hsu).map _)
  | valueType htoken => exact .typeBody (.whole ((Reads.token htoken).map _))
  | classType htoken => exact .typeBody (.whole ((Reads.token htoken).map _))
  | typeVariable hn => exact .typeBody (.whole ((Reads.compressed hn).map _))
  | @array u rank sizes lowerBounds hu hrank _ hsizes hlowerBounds =>
    cases hsettled with
    | array hsu hends =>
      have hread := hbelow u hu (Nat.lt_succ_self _) hsu
      rw [hends] at hread
      have hbounds := Reads.arrayBounds hsizes hlowerBounds
      have hend : isVariadicType (.array u rank sizes lowerBounds) = false := hends
      rw [hend, encodeType]
      exact .typeBody (.whole (hread.reads.bind
        ((Reads.compressed hrank).bind (hbounds.map _))))
  | @genericInstance base ts hform hbase hcount hts =>
    cases hsettled with
    | genericInstance hsts hends =>
      have hlevels : levelsOfType (.genericInstance base ts) =
          max (levelsOfType base) (levelsOfTypes ts) + 1 := rfl
      refine .typeBody (.genericInstance hform hcount
        ((hbelow base hbase (by omega)).reads_base hform) (fun u hu => ?_)
        (stopsLast_iff.mpr ⟨hsts, hends⟩))
      have hle := levelsOfType_le_of_mem hu
      exact hbelow u (hts u hu) (by omega)
  | @functionPointer s hs htypes =>
    cases hsettled with
    | functionPointer hsettled hends =>
      refine .typeBody ((ReadsUpTo.methodWith hs ⟨hsettled, hends⟩ fun p hp => ?_).map _)
      exact hbelow p.type (htypes p hp) (Nat.lt_succ_of_le (levelsOfType_le_levels hp))
  | vector hms hu =>
    cases hsettled with
    | vector hsu => exact .typeBody (.modified hms (hbelow _ hu (Nat.lt_succ_self _) hsu) .vector)
  | methodVariable hn => exact .typeBody (.whole ((Reads.compressed hn).map _))
  | pinned hu =>
    cases hsettled with
    | pinned hsu => exact .typeBody ((hbelow _ hu (Nat.lt_succ_self _) hsu).map _)

/-- A type is read up to the first sentinel with as many levels as it nests. -/
theorem typeWithin (ht : StorableType excluded t) {n : Nat} (hn : levelsOfType t ≤ n) :
    ReadsSettled (typeWithin n) t := by
  induction n generalizing t with
  | zero => exact absurd (levelsOfType_pos t) (by omega)
  | succ n ih =>
    intro hsettled
    exact .nested (typeBody ht (fun u hu hlt => ih hu (by omega)) hsettled)

/-- A signature is read up to the first sentinel with as many levels as its types nest. -/
theorem methodWith {s : StoredSignature} (hs : Storable excluded s) (hsettled : Settled s)
    {n : Nat} (hn : levels s ≤ n) :
    ReadsUpTo (methodWith (Signature.typeWithin n)) (isVariadic s) (encode s) (erase s) :=
  ReadsUpTo.methodWith hs.head hsettled fun p hp =>
    typeWithin (hs.types p hp) (Nat.le_trans (levelsOfType_le_levels hp) hn)

end ReadsSettled
end Decoder

namespace Signature
open Decoder

theorem run_method (bytes : ByteArray) (c : Cursor) :
    method.run bytes c = (methodWith (typeWithin (levelsAt c))).run bytes c := by
  have hcursor : cursor.run bytes c = (.ok c, c) := rfl
  rw [method, run_bind, hcursor]

/-- **What a signature without extra parameters stands for is read back** from its stored form,
whatever follows it; the cursor is left behind the form and outside every type. -/
theorem run_method_encode {s : StoredSignature} (hs : Storable [] s)
    (hplain : isVariadic s = false) (hlevels : levels s < depthLimit) (rest : List UInt8) :
    method.run ⟨(encode s ++ rest).toArray⟩ .start = (.ok (erase s), ⟨(encode s).length, 0⟩) := by
  have hlevelsAt : levels s ≤ levelsAt .start := Nat.le_pred_of_lt hlevels
  have hread := ReadsSettled.methodWith hs (hs.settled hplain) hlevelsAt
  rw [hplain] at hread
  rw [run_method]
  exact hread.reads.run_start trivial

/-- A generic instance of a class for type variables, an array with bounds, a pointer behind a
modifier and a pointer to a function with a parameter by reference. -/
def sample : StoredSignature where
  convention := 0x30
  genericCount := 2
  returns := ⟨[⟨true, .ofParts .typeRef 0x4D⟩], false, .genericInstance
    (.classType (.ofParts .typeRef 0x1234)) [.typeVariable 0, .methodVariable 0x80]⟩
  parameters := [
    ⟨[], true, .byReference (.array (.primitive .i4) 2 [0x4000, 7] [1])⟩,
    ⟨[], false, .pointer [⟨false, .ofParts .typeDef 3⟩] (.primitive .void)⟩,
    ⟨[], false, .functionPointer {
      convention := 0
      genericCount := 0
      returns := ⟨[], false, .vector [] (.valueType (.ofParts .typeSpec 9))⟩
      parameters := [⟨[], true, .pinned (.primitive .string)⟩]
      extra := [] }⟩]
  extra := []

theorem storable_sample : Storable [] sample where
  head := {
    genericCount := fun _ => by decide
    parameterCount := by decide
    parameters := by
      have htoken : (Token.ofParts .typeRef 0x4D).IsCompressible :=
        ⟨.typeRef, by decide, 0x4D, by decide, rfl⟩
      simp only [sample, List.forall_mem_cons, List.not_mem_nil, false_implies, implies_true,
        and_true]
      exact ⟨⟨by simpa using htoken, nofun⟩, ⟨nofun, fun _ => rfl⟩, ⟨nofun, nofun⟩, nofun, nofun⟩ }
  types := by
    have hclass : (Token.ofParts .typeRef 0x1234).IsCompressible :=
      ⟨.typeRef, by decide, 0x1234, by decide, rfl⟩
    have hdefinition : (Token.ofParts .typeDef 3).IsCompressible :=
      ⟨.typeDef, by decide, 3, by decide, rfl⟩
    have hspecification : (Token.ofParts .typeSpec 9).IsCompressible :=
      ⟨.typeSpec, by decide, 9, by decide, rfl⟩
    simp only [sample, List.forall_mem_cons, List.not_mem_nil, false_implies, implies_true,
      and_true]
    refine ⟨?generic, .byReference ?array, .pointer (by simpa using hdefinition) (.primitive _),
      .functionPointer ⟨nofun, by decide, ?parameters⟩ ?types⟩
    case generic =>
      refine .genericInstance (.inl rfl) (.classType hclass) (by decide) ?_
      simpa using ⟨.typeVariable (by decide), .methodVariable (by decide)⟩
    case array =>
      exact .array (.primitive _) (by decide) nofun ⟨by decide, by decide⟩
        ⟨by decide, by decide⟩
    case parameters =>
      simp only [List.forall_mem_cons, List.not_mem_nil, false_implies, implies_true, and_true]
      exact ⟨⟨nofun, nofun⟩, nofun, fun _ => rfl⟩
    case types =>
      simp only [List.forall_mem_cons, List.not_mem_nil, false_implies, implies_true, and_true]
      exact ⟨.vector nofun (.valueType hspecification), .pinned (.primitive _)⟩

theorem run_method_encode_sample : Storable [] sample ∧ isVariadic sample = false ∧
    levels sample < depthLimit ∧
    encode sample = [0x30, 0x02, 0x03, 0x1F, 0x81, 0x35, 0x15, 0x12, 0xC0, 0x00, 0x48, 0xD1, 0x02,
      0x13, 0x00, 0x1E, 0x80, 0x80, 0x10, 0x10, 0x14, 0x08, 0x02, 0x02, 0xC0, 0x00, 0x40, 0x00,
      0x07, 0x01, 0x01, 0x0F, 0x20, 0x0C, 0x01, 0x1B, 0x00, 0x01, 0x1D, 0x11, 0x26, 0x10, 0x45,
      0x0E] ∧
    method.run ⟨(encode sample ++ [0x41]).toArray⟩ .start = (.ok {
      hasThis := true
      explicitThis := false
      vararg := false
      genericCount := 2
      parameterCount := 3
      returns := ⟨[.ofParts .typeRef 0x4D], false, .genericInstance
        (.classType (.ofParts .typeRef 0x1234)) [.typeVariable 0, .methodVariable 0x80]⟩
      parameters := [
        ⟨[], true, .byReference (.array (.primitive .i4) 2)⟩,
        ⟨[], false, .pointer (.primitive .void)⟩,
        ⟨[], false, .functionPointer {
          hasThis := false
          explicitThis := false
          vararg := false
          genericCount := 0
          parameterCount := 1
          returns := ⟨[], false, .vector (.valueType (.ofParts .typeSpec 9))⟩
          parameters := [⟨[], true, .pinned (.primitive .string)⟩] }⟩] }, ⟨44, 0⟩) :=
  ⟨storable_sample, rfl, by decide, by decide,
    run_method_encode storable_sample rfl (by decide) [0x41]⟩

end Signature
end MethodAtlas
