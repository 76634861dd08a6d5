import MethodAtlas.Proofs.Signature.RoundTrip

/-!
# Where extra parameters may stand

A signature is read up to the first sentinel in it, and the extra parameters stay unread. That does
no harm at the end of what is to be read back; anywhere else they are taken for what should follow.
So a signature is read back if extra parameters stand nowhere else (`Signature.Settled`), and only
then, apart from arrays with just as many dimensions as a sentinel looks like
(`Signature.decode_method_settled`).
-/
namespace MethodAtlas

namespace Decoder
open Signature

/-- A decoder misses a type in which something stands behind extra parameters, whatever follows the
type. -/
def MissesUnsettled (type : Decoder SignatureType) (t : StoredType) : Prop :=
  ¬SettledType t → ∀ rest, Misses type (encodeType t ++ rest) (eraseType t)

namespace Misses
variable {type : Decoder SignatureType}

/-! At a sentinel there is nothing that could stand there. -/

/-- At a sentinel there is no type. -/
theorem typeWithin_sentinel (n : Nat) {text : List UInt8} (htext : AtSentinel text)
    (t : SignatureType) : Misses (typeWithin n) text t := by
  obtain ⟨more, rfl⟩ := htext.exists_eq
  cases n with
  | zero => exact .nested (.fail _)
  | succ n => exact .nested (((Reads.byte sentinel).goesOn _).misses (.fail _) trivial)

/-- At a sentinel a number is read that is not the number of dimensions. -/
theorem compressed_sentinel {rank : Nat} (hrank : rank ≠ sentinel.toNat) {text : List UInt8}
    (htext : AtSentinel text) : Misses compressed text rank := by
  obtain ⟨more, rfl⟩ := htext.exists_eq
  have hread : Reads compressed (Compressed.number 0x41) 0x41 := .compressed (by decide)
  have hnumber : Compressed.number 0x41 = [sentinel] := rfl
  rw [hnumber] at hread
  intro bytes c c' hahead hrun
  rw [hread trivial hahead] at hrun
  exact hrank (Except.ok.inj (Prod.mk.inj hrun).1).symm

/-- At a sentinel there are no parameters. -/
theorem collectParameters_sentinel {ps : List StoredParameter} (hps : ps ≠ []) (n : Nat)
    (done : Array (SignatureParameter SignatureType)) {text : List UInt8}
    (htext : AtSentinel text) :
    Misses (collectParameters type n done) text (done ++ (eraseParameters ps).toArray) := by
  intro bytes c c' hahead hrun
  rw [ReadsBefore.collectParameters n done htext hahead] at hrun
  have hsize := congrArg Array.size (Except.ok.inj (Prod.mk.inj hrun).1)
  simp [eraseParameters_eq, hps] at hsize

/-! What is missed of a signature in which extra parameters stand where more has to follow. -/

/-- A parameter is missed where its type is. -/
theorem parameter {p : StoredParameter} (hp : StorableParameter p) {rest : List UInt8}
    (htype : Misses type (encodeType p.type ++ rest) (eraseType p.type)) :
    Misses (parameter type) (encodeParameter p ++ rest) (eraseParameter p) := by
  obtain ⟨ms, byReference, t⟩ := p
  rw [encodeParameter, List.append_assoc]
  exact (GoesOn.parameter hp.modifiers byReference).misses
    (htype.map fun _ _ => congrArg SignatureParameter.type)
    (hp.startsMarked (head?_encodeType_append t rest))

/-- Parameters are missed if one of them is, or if one before the last stops early. -/
theorem collectParameters {ps : List StoredParameter} (n : Nat)
    (hps : ∀ p ∈ ps, StorableParameter p)
    (htypes : ∀ p ∈ ps, ReadsSettled type p.type)
    (hmisses : ∀ p ∈ ps, MissesUnsettled type p.type)
    (hlast : ¬StopsLast (fun p => SettledType p.type) (fun p => isVariadicType p.type) ps)
    (done : Array (SignatureParameter SignatureType)) (rest : List UInt8) :
    Misses (collectParameters type (ps.length + n) done) (encodeParameters ps ++ rest)
      (done ++ (eraseParameters ps).toArray) := by
  induction ps generalizing done with
  | nil => exact absurd trivial hlast
  | cons p ps ih =>
    obtain ⟨hstorable, hps⟩ := List.forall_mem_cons.mp hps
    obtain ⟨htype, htypes⟩ := List.forall_mem_cons.mp htypes
    obtain ⟨hmiss, hmisses⟩ := List.forall_mem_cons.mp hmisses
    rw [encodeParameters, List.append_assoc, List.length_cons, Nat.add_right_comm]
    refine (GoesOn.collectParameters _ done).misses_nil ?_ (startsOn_encodeParameter hstorable _)
    by_cases hp : SettledType p.type
    · have hdone : done ++ (eraseParameters (p :: ps)).toArray =
          done.push (eraseParameter p) ++ (eraseParameters ps).toArray := by
        simp [eraseParameters]
      rw [hdone]
      refine (ReadsUpTo.parameter hstorable (htype hp)).misses_bind
        (fun hstops text htext => ?_) fun hstops => ?_
      · refine collectParameters_sentinel (fun hnil => hlast ?_) _ _ htext
        rw [hnil]
        exact ⟨hp, fun _ => rfl, trivial⟩
      · refine ih hps htypes hmisses (fun hrest => hlast ⟨hp, fun htrue => ?_, hrest⟩) _
        exact Bool.noConfusion (hstops.symm.trans htrue)
    · refine (parameter hstorable (hmiss hp _)).bind fun bytes c c' a hrun => ?_
      rw [eraseParameters] at hrun
      exact eq_of_push_prefix (prefix_of_run_collectParameters hrun)

/-- A signature is missed if extra parameters stand where more has to follow. -/
theorem methodWith {s : StoredSignature} (hs : StorableHead s) (hsettled : ¬Settled s)
    (htypes : ∀ p ∈ s.returns :: s.parameters, ReadsSettled type p.type)
    (hmisses : ∀ p ∈ s.returns :: s.parameters, MissesUnsettled type p.type) (rest : List UInt8) :
    Misses (methodWith type) (encode s ++ rest) (erase s) := by
  obtain ⟨convention, genericCount, returns, ps, extra⟩ := s
  rw [settled_iff] at hsettled
  obtain ⟨hstorable, hps⟩ := List.forall_mem_cons.mp hs.parameters
  obtain ⟨htype, htypes⟩ := List.forall_mem_cons.mp htypes
  obtain ⟨hmiss, hmisses⟩ := List.forall_mem_cons.mp hmisses
  rw [encode, ← List.cons_append, List.append_assoc, List.append_assoc]
  refine (GoesOn.methodWith hs.genericCount hs.parameterCount).misses ?_ trivial
  by_cases hreturns : SettledType returns.type
  · -- What is made of the parameters is missed where they are.
    have hmade {f : Array (SignatureParameter SignatureType) → MethodSignature}
        (hf : ∀ all, (f all).parameters = all.toList) {text : List UInt8}
        (hall : Misses (Signature.collectParameters type (ps.length + extra.length) #[]) text
          (#[] ++ (eraseParameters ps).toArray)) :
        Misses (do
          let all ← Signature.collectParameters type (ps.length + extra.length) #[]
          return f all) text (f (eraseParameters ps).toArray) := by
      rw [Array.empty_append] at hall
      refine hall.map fun all all' h => Array.toList_inj.mp ?_
      rw [← hf, h, hf]
    refine (ReadsUpTo.parameter hstorable (htype hreturns)).misses_bind
      (fun hstops text htext => hmade (fun _ => rfl) ?_) fun hstops => hmade (fun _ => rfl) ?_
    · refine collectParameters_sentinel (fun hnil => hsettled ?_) _ _ htext
      obtain rfl : ps = [] := hnil
      exact ⟨hreturns, fun _ => rfl, trivial⟩
    · rw [List.append_assoc]
      refine collectParameters _ hps htypes hmisses (fun hlast => hsettled ?_) _ _
      exact ⟨hreturns, fun htrue => Bool.noConfusion (hstops.symm.trans htrue), hlast⟩
  · refine (parameter hstorable (hmiss hreturns _)).bind fun bytes c c' a hrun => ?_
    obtain ⟨all, mid, -, hrest⟩ := run_bind_eq_ok hrun
    exact congrArg SignatureOf.returns (Except.ok.inj (Prod.mk.inj hrest).1)

/-- A type behind modifiers is missed where it stands. -/
theorem modified {ms : List TypeModifier} (hms : ∀ m ∈ ms, m.token.IsCompressible)
    {t : StoredType} {rest : List UInt8}
    (htype : Misses type (encodeType t ++ rest) (eraseType t)) {g : SignatureType → SignatureType}
    (hg : Function.Injective g) :
    Misses (do let _ ← modifiers; return g (← type))
      (TypeModifier.encodeAll ms ++ encodeType t ++ rest) (g (eraseType t)) := by
  rw [List.append_assoc]
  exact (GoesOn.modifiers hms _).misses (htype.map hg) ⟨t.form, head?_encodeType_append t rest⟩

/-- An array is missed if its elements are, or if extra parameters stand in front of the number of
its dimensions. -/
theorem array {t : StoredType} {rank : Nat}
    (hrank : isVariadicType t = true → rank ≠ sentinel.toNat) {text : List UInt8}
    (htype : ReadsSettled type t) (hmiss : MissesUnsettled type t)
    (hvariadic : SettledType t → isVariadicType t = true) :
    Misses (formBody type .array) (encodeType t ++ text) (.array (eraseType t) rank) := by
  by_cases ht : SettledType t
  · refine (htype ht).misses_bind (fun _ text htext => ?_) fun hends => ?_
    · refine (compressed_sentinel (hrank (hvariadic ht)) htext).bind fun bytes c c' found hrun => ?_
      obtain ⟨_, mid, -, hrest⟩ := run_bind_eq_ok hrun
      exact (SignatureType.array.inj (Except.ok.inj (Prod.mk.inj hrest).1)).2
    · exact Bool.noConfusion (hends.symm.trans (hvariadic ht))
  · refine (hmiss ht text).bind fun bytes c c' found hrun => ?_
    obtain ⟨_, mid, -, hbounds⟩ := run_bind_eq_ok hrun
    obtain ⟨_, mid', -, hrest⟩ := run_bind_eq_ok hbounds
    exact (SignatureType.array.inj (Except.ok.inj (Prod.mk.inj hrest).1)).1

/-- A generic instance is missed if an argument is, or if extra parameters stand in front of the
next one. -/
theorem genericInstance {base : StoredType} {ts : List StoredType}
    (hform : base.form = .classType ∨ base.form = .valueType) (hcount : ts.length < 0x20000000)
    (hbase : Reads type (encodeType base) (eraseType base))
    (hts : ∀ t ∈ ts, ReadsSettled type t)
    (hmisses : ∀ t ∈ ts, MissesUnsettled type t)
    (hsentinel : ∀ text, AtSentinel text → ∀ t, Misses type text t)
    (hlast : ¬StopsLast SettledType isVariadicType ts) (rest : List UInt8) :
    Misses (formBody type .genericInstance)
      (encodeType base ++ Compressed.number ts.length ++ encodeTypes ts ++ rest)
      (.genericInstance (eraseType base) (eraseTypes ts)) := by
  rw [List.append_assoc, encodeTypes_eq, eraseTypes_eq]
  refine (GoesOn.genericInstance hform hcount hbase).misses ?_ trivial
  exact (many hts hmisses hsentinel hlast rest).map fun _ _ h =>
    (SignatureType.genericInstance.inj h).2

/-- A type is missed where what stands behind its first byte is. -/
theorem typeBody {form : TypeForm} {more : List UInt8} {t : SignatureType}
    (h : Misses (formBody type form) more t) : Misses (typeBody type) (form.code :: more) t :=
  (GoesOn.typeBody form).misses h trivial

end Misses

namespace MissesUnsettled
variable {type : Decoder SignatureType} {t : StoredType}

/-- A type in which extra parameters stand where more has to follow is missed if the types below it
are read if they are settled, and missed otherwise. -/
theorem typeBody (ht : StorableType [sentinel.toNat] t)
    (hsentinel : ∀ text, AtSentinel text → ∀ u, Misses type text u)
    (hread : ∀ u, StorableType [sentinel.toNat] u → levelsOfType u < levelsOfType t →
      ReadsSettled type u)
    (hmiss : ∀ u, StorableType [sentinel.toNat] u → levelsOfType u < levelsOfType t →
      MissesUnsettled type u) :
    MissesUnsettled (typeBody type) t := by
  intro hsettled rest
  -- What is below is missed if it is not settled. Where extra parameters can stand behind it, in
  -- arrays and lists, it can also be settled and yet stop early.
  cases ht with
  | primitive t => exact absurd (.primitive t) hsettled
  | pointer hms hu =>
    have hmissed := hmiss _ hu (Nat.lt_succ_self _) (fun h => hsettled (.pointer h)) rest
    exact .typeBody (.modified hms hmissed fun _ _ => SignatureType.pointer.inj)
  | byReference hu =>
    have hmissed := hmiss _ hu (Nat.lt_succ_self _) (fun h => hsettled (.byReference h)) rest
    exact .typeBody (hmissed.map fun _ _ => SignatureType.byReference.inj)
  | valueType => exact absurd (.valueType _) hsettled
  | classType => exact absurd (.classType _) hsettled
  | typeVariable => exact absurd (.typeVariable _) hsettled
  | array hu _ hexcluded =>
    rw [encodeType, List.cons_append, List.append_assoc]
    refine .typeBody (.array (fun h heq => hexcluded h (List.mem_singleton.mpr heq))
      (hread _ hu (Nat.lt_succ_self _)) (hmiss _ hu (Nat.lt_succ_self _)) fun hsu => ?_)
    exact Bool.of_not_eq_false fun hends => hsettled (.array hsu hends)
  | @genericInstance base ts hform hbase hcount hts =>
    have hlevels : levelsOfType (.genericInstance base ts) =
        max (levelsOfType base) (levelsOfTypes ts) + 1 := rfl
    have hbelow : ∀ u ∈ ts, levelsOfType u < levelsOfType (.genericInstance base ts) :=
      fun u hu => by
        have hle := levelsOfType_le_of_mem hu
        omega
    have hbase := (hread base hbase (by omega)).reads_base hform
    refine .typeBody (.genericInstance hform hcount hbase
      (fun u hu => hread u (hts u hu) (hbelow u hu))
      (fun u hu => hmiss u (hts u hu) (hbelow u hu)) hsentinel ?_ rest)
    rw [stopsLast_iff]
    exact fun h => hsettled (.genericInstance h.1 h.2)
  | @functionPointer s hs htypes =>
    have hbelow : ∀ p ∈ s.returns :: s.parameters,
        levelsOfType p.type < levelsOfType (.functionPointer s) := fun p hp =>
      Nat.lt_succ_of_le (levelsOfType_le_levels hp)
    refine .typeBody ((Misses.methodWith hs ?_ (fun p hp => hread _ (htypes p hp) (hbelow p hp))
      (fun p hp => hmiss _ (htypes p hp) (hbelow p hp)) rest).map fun _ _ =>
        SignatureType.functionPointer.inj)
    exact fun h => hsettled (.functionPointer h.types h.ends)
  | vector hms hu =>
    have hmissed := hmiss _ hu (Nat.lt_succ_self _) (fun h => hsettled (.vector h)) rest
    exact .typeBody (.modified hms hmissed fun _ _ => SignatureType.vector.inj)
  | methodVariable => exact absurd (.methodVariable _) hsettled
  | pinned hu =>
    have hmissed := hmiss _ hu (Nat.lt_succ_self _) (fun h => hsettled (.pinned h)) rest
    exact .typeBody (hmissed.map fun _ _ => SignatureType.pinned.inj)

/-- A type in which extra parameters stand where more has to follow is missed with as many levels
as it nests. -/
theorem typeWithin (ht : StorableType [sentinel.toNat] t) {n : Nat} (hn : levelsOfType t ≤ n) :
    MissesUnsettled (typeWithin n) t := by
  induction n generalizing t with
  | zero => exact absurd (levelsOfType_pos t) (by omega)
  | succ n ih =>
    intro hsettled rest
    refine .nested (typeBody ht (fun _ => Misses.typeWithin_sentinel n) (fun u hu hlt => ?_)
      (fun u hu hlt => ih hu (by omega)) hsettled rest)
    exact ReadsSettled.typeWithin hu (by omega)

end MissesUnsettled
end Decoder

namespace Signature
open Decoder

/-- With as many levels as its types nest, a signature is read back if it is settled, and missed
otherwise. -/
theorem decode_methodWith_settled {s : StoredSignature} (hs : Storable [] s) {n : Nat}
    (hlevels : levels s ≤ n) (rest : List UInt8) :
    (Settled s → (methodWith (typeWithin n)).decode ⟨(encode s ++ rest).toArray⟩ = .ok (erase s)) ∧
    (Storable [sentinel.toNat] s → ¬Settled s →
      (methodWith (typeWithin n)).decode ⟨(encode s ++ rest).toArray⟩ ≠ .ok (erase s)) := by
  constructor
  · intro hsettled
    exact (ReadsSettled.methodWith hs hsettled hlevels).decode_eq rest
  · intro hclear hsettled
    have hle : ∀ p ∈ s.returns :: s.parameters, levelsOfType p.type ≤ n := fun p hp =>
      Nat.le_trans (levelsOfType_le_levels hp) hlevels
    refine (Misses.methodWith hs.head hsettled (fun p hp => ?_) (fun p hp => ?_) rest).decode_ne
    · exact ReadsSettled.typeWithin (hs.types p hp) (hle p hp)
    · exact MissesUnsettled.typeWithin (hclear.types p hp) (hle p hp)

/-- **A signature in which nothing stands behind extra parameters is read back**, whatever follows
it. One in which something does is not, unless a sentinel can be taken for the number of dimensions
of an array. -/
theorem decode_method_settled {s : StoredSignature} (hs : Storable [] s)
    (hlevels : levels s < depthLimit) (rest : List UInt8) :
    (Settled s → method.decode ⟨(encode s ++ rest).toArray⟩ = .ok (erase s)) ∧
    (Storable [sentinel.toNat] s → ¬Settled s →
      method.decode ⟨(encode s ++ rest).toArray⟩ ≠ .ok (erase s)) := by
  have hlevelsAt : levels s ≤ levelsAt .start := Nat.le_pred_of_lt hlevels
  rw [decode, run_method, ← decode]
  exact decode_methodWith_settled hs hlevelsAt rest

/-- A parameter of a type without parts. -/
def primitiveParameter (t : PrimitiveType) : StoredParameter := ⟨[], false, .primitive t⟩

/-- A function that takes a number and one extra number. -/
def variadic : StoredSignature where
  convention := 0x05
  genericCount := 0
  returns := primitiveParameter .void
  parameters := [primitiveParameter .i4]
  extra := [primitiveParameter .i4]

/-- A call with an extra string; its last parameter is a pointer to a pointer to such a function. -/
def sampleCall : StoredSignature where
  convention := 0x05
  genericCount := 0
  returns := primitiveParameter .void
  parameters := [primitiveParameter .i4, ⟨[], false, .pointer [] (.functionPointer variadic)⟩]
  extra := [primitiveParameter .string]

/-- A method that takes a pointer to such a function and a string. -/
def overrun : StoredSignature where
  convention := 0x00
  genericCount := 0
  returns := primitiveParameter .void
  parameters := [⟨[], false, .functionPointer variadic⟩, primitiveParameter .string]
  extra := []

theorem storable_primitiveParameter (t : PrimitiveType) :
    StorableParameter (primitiveParameter t) := ⟨nofun, nofun⟩

theorem storableType_primitiveParameter (excluded : List Nat) (t : PrimitiveType) :
    StorableType excluded (primitiveParameter t).type := .primitive t

theorem storable_variadic (excluded : List Nat) :
    StorableType excluded (.functionPointer variadic) := by
  refine .functionPointer ⟨nofun, by decide, ?_⟩ ?_
  · simp [variadic, storable_primitiveParameter]
  · simp [variadic, storableType_primitiveParameter]

theorem storable_sampleCall (excluded : List Nat) : Storable excluded sampleCall := by
  refine ⟨⟨nofun, by decide, ?_⟩, ?_⟩
  · have hpointer : StorableParameter ⟨[], false, .pointer [] (.functionPointer variadic)⟩ :=
      ⟨nofun, nofun⟩
    simp [sampleCall, storable_primitiveParameter, hpointer]
  · have hpointer : StorableType excluded (.pointer [] (.functionPointer variadic)) :=
      .pointer nofun (storable_variadic excluded)
    simp [sampleCall, storableType_primitiveParameter, hpointer]

theorem settled_sampleCall : Settled sampleCall := by
  have hvariadic : SettledType (.functionPointer variadic) := by
    refine .functionPointer ?_ (by decide)
    simp [variadic, primitiveParameter, SettledType.primitive]
  refine ⟨?_, by decide⟩
  simp [sampleCall, primitiveParameter, SettledType.primitive, SettledType.pointer hvariadic]

theorem storable_overrun (excluded : List Nat) : Storable excluded overrun := by
  refine ⟨⟨nofun, by decide, ?_⟩, ?_⟩
  · have hpointer : StorableParameter ⟨[], false, .functionPointer variadic⟩ := ⟨nofun, nofun⟩
    simp [overrun, storable_primitiveParameter, hpointer]
  · simp [overrun, storableType_primitiveParameter, storable_variadic]

theorem not_settled_overrun : ¬Settled overrun := fun h =>
  Bool.noConfusion (h.ends ⟨[], false, .functionPointer variadic⟩ (.tail _ (.head _)))

/-- Extra parameters at the end of the last parameter do no harm. In front of another parameter they
do. -/
theorem decode_method_settled_sample :
    (Storable [] sampleCall ∧ levels sampleCall < depthLimit ∧ Settled sampleCall ∧
      encode sampleCall =
        [0x05, 0x03, 0x01, 0x08, 0x0F, 0x1B, 0x05, 0x02, 0x01, 0x08, 0x41, 0x08, 0x41, 0x0E] ∧
      method.decode ⟨(encode sampleCall ++ [0x0E]).toArray⟩ = .ok (erase sampleCall)) ∧
    Storable [sentinel.toNat] overrun ∧ levels overrun < depthLimit ∧ ¬Settled overrun ∧
      method.decode ⟨(encode overrun ++ [0x0E]).toArray⟩ ≠ .ok (erase overrun) :=
  ⟨⟨storable_sampleCall _, by decide, settled_sampleCall, by decide,
      (decode_method_settled (storable_sampleCall _) (by decide) [0x0E]).1 settled_sampleCall⟩,
    storable_overrun _, by decide, not_settled_overrun,
    (decode_method_settled (storable_overrun _) (by decide) [0x0E]).2 (storable_overrun _)
      not_settled_overrun⟩

/-- The string behind extra parameters of a function that is pointed to is lost. -/
theorem decode_method_overrun : Storable [sentinel.toNat] overrun ∧ levels overrun < depthLimit ∧
    encode overrun = [0x00, 0x02, 0x01, 0x1B, 0x05, 0x02, 0x01, 0x08, 0x41, 0x08, 0x0E] ∧
    (erase overrun).parameters.length = (erase overrun).parameterCount ∧
    method.decode ⟨(encode overrun).toArray⟩ =
      .ok { erase overrun with parameters := (erase overrun).parameters.dropLast } :=
  ⟨storable_overrun _, by decide, by decide, rfl, rfl⟩

end Signature
end MethodAtlas
