import Mathlib.Data.List.Forall2
import MethodAtlas.Attribute.Stored
import MethodAtlas.Proofs.Bytes.Compressed

/-!
# Attribute arguments are read back

The arguments of an attribute are read back from their stored forms, whatever follows them. A
decoder is told the type of an argument, or reads it from a tag (`Reads.taggedType`); which of them
reads a value is decided by the type that the value has. Each decoder reads the form of its part,
given that the decoder of the levels below reads the values below (`Reads.argumentBody`); induction
on the levels puts these together (`Reads.argumentWithin`).
-/
namespace MethodAtlas

namespace StoredArgument

theorem eraseAll_eq (es : List StoredArgument) : eraseAll es = es.map erase :=
  Along.eq_map rfl (fun _ _ => rfl) es

theorem encodeAll_eq (es : List StoredArgument) : encodeAll es = es.flatMap encode :=
  Along.eq_flatMap rfl (fun _ _ => rfl) es

theorem levels_pos (v : StoredArgument) : 0 < v.levels := by
  cases v <;> simp [levels]

theorem levels_le_of_mem {e : StoredArgument} {es : List StoredArgument} (h : e ∈ es) :
    e.levels ≤ levelsOfAll es := Along.le_of_mem (fun _ _ => rfl) h

end StoredArgument

namespace Decoder.Reads
open Attribute

/-- What a number stands for is read back from it. -/
theorem ofNumber {α : Type} {w n : Nat} {g : Nat → α} {a : α} (hn : n < 1 <<< (8 * w))
    (hg : g n = a) : Reads (do return g (← .number w)) (Bytes.toLE w n) a := by
  rw [← hg]
  exact (toLE hn).map g

theorem scalar {v : Scalar} (hv : v.Storable) : Reads (scalar v.type) v.encode v := by
  cases v with
  | boolean b => exact ofNumber (Nat.lt_of_lt_of_le b.toNat_lt (by decide)) (by cases b <;> rfl)
  | char n => exact ofNumber n.toNat_lt (congrArg Scalar.char UInt16.ofNat_toNat)
  | i1 n => exact ofNumber n.toUInt8.toNat_lt (congrArg Scalar.i1 (Int8.ofNat_bitVecToNat _))
  | u1 n => exact ofNumber n.toNat_lt (congrArg Scalar.u1 UInt8.ofNat_toNat)
  | i2 n => exact ofNumber n.toUInt16.toNat_lt (congrArg Scalar.i2 (Int16.ofNat_bitVecToNat _))
  | u2 n => exact ofNumber n.toNat_lt (congrArg Scalar.u2 UInt16.ofNat_toNat)
  | i4 n => exact ofNumber n.toUInt32.toNat_lt (congrArg Scalar.i4 (Int32.ofNat_bitVecToNat _))
  | u4 n => exact ofNumber n.toNat_lt (congrArg Scalar.u4 UInt32.ofNat_toNat)
  | i8 n => exact ofNumber n.toUInt64.toNat_lt (congrArg Scalar.i8 (Int64.ofNat_bitVecToNat _))
  | u8 n => exact ofNumber n.toNat_lt (congrArg Scalar.u8 UInt64.ofNat_toNat)
  | r4 n => exact ofNumber n.toNat_lt (congrArg Scalar.r4 UInt32.ofNat_toNat)
  | r8 n => exact ofNumber n.toNat_lt (congrArg Scalar.r8 UInt64.ofNat_toNat)
  | string s? => exact (string hv).map Scalar.string
  | typeName s? => exact (string hv).map Scalar.typeName

/-- The type behind a tag is read back if there are bytes left for the tags of its elements. -/
theorem taggedType {tag : ArgumentTag} (htag : tag.Storable) :
    ∃ code more, tag.encode = code :: more ∧
      ∀ left, more.length ≤ left → Reads (taggedType left code) more tag.type := by
  induction tag with
  | scalar t =>
    refine ⟨_, _, rfl, fun left _ => ?_⟩
    rw [Attribute.taggedType.eq_def, TagForm.ofCode?_code]
    exact .pure _
  | enum name =>
    refine ⟨_, _, rfl, fun left _ => ?_⟩
    rw [Attribute.taggedType.eq_def, TagForm.ofCode?_code]
    exact (string htag).map _
  | object =>
    refine ⟨_, _, rfl, fun left _ => ?_⟩
    rw [Attribute.taggedType.eq_def, TagForm.ofCode?_code]
    exact .pure _
  | vector element ih =>
    obtain ⟨code, more, hencode, hread⟩ := ih htag
    refine ⟨_, _, rfl, fun left hleft => ?_⟩
    rw [hencode, List.length_cons] at hleft
    obtain ⟨left, rfl⟩ : ∃ n, left = n + 1 := ⟨left - 1, by omega⟩
    rw [Attribute.taggedType.eq_def, TagForm.ofCode?_code, hencode]
    exact byte_bind ((hread left (by omega)).map _)

/-- An argument is read back if the arguments below it are. -/
theorem argumentBody {inner : ArgumentType → Decoder Argument} {v : StoredArgument}
    {t : ArgumentType} (ht : v.HasType t) (hv : v.Storable)
    (hbelow : ∀ (u : StoredArgument) s, u.HasType s → u.Storable → u.levels < v.levels →
      Reads (inner s) u.encode u.erase) :
    Reads (argumentBody inner t) v.encode v.erase := by
  cases ht with
  | scalar v =>
    cases hv with
    | scalar hv => exact (scalar hv).map _
  | enum n =>
    exact ofNumber n.toUInt32.toNat_lt (congrArg Argument.enum (Int32.ofNat_bitVecToNat _))
  | noVector element =>
    have hmark : Attribute.noVector < 1 <<< (8 * 4) := by decide
    exact (toLE hmark).bind_nil (.pure _)
  | @vector es element hes =>
    obtain ⟨hcount, hstorable⟩ : es.length < Attribute.noVector ∧ ∀ e ∈ es, e.Storable := by
      cases hv with
      | vector hcount hstorable => exact ⟨hcount, hstorable⟩
    have hlength : es.length < 1 <<< (8 * 4) := Nat.lt_trans hcount (by decide)
    rw [StoredArgument.encode, StoredArgument.erase, StoredArgument.encodeAll_eq,
      StoredArgument.eraseAll_eq]
    refine (toLE hlength).bind ?_
    rw [if_neg (Nat.ne_of_lt hcount)]
    refine (many es fun e he => ?_).map _
    exact hbelow e element (hes e he) (hstorable e he)
      (Nat.lt_succ_of_le (StoredArgument.levels_le_of_mem he))
  | @boxed tag v hvtype =>
    obtain ⟨htag, hv⟩ : tag.Storable ∧ v.Storable := by
      cases hv with
      | boxed htag hv => exact ⟨htag, hv⟩
    obtain ⟨code, more, hencode, hread⟩ := taggedType htag
    rw [StoredArgument.encode, StoredArgument.erase, hencode, List.cons_append]
    -- The bytes left are those of the rest of the tag and of the value at least.
    refine byte_bind (ReadsBefore.left_bind fun left hleft => ?_)
    rw [List.length_append] at hleft
    exact (hread left (by omega)).bind (hbelow v tag.type hvtype hv (Nat.lt_succ_self _))

/-- An argument is read back with as many levels as it nests. -/
theorem argumentWithin {v : StoredArgument} {t : ArgumentType} (ht : v.HasType t)
    (hv : v.Storable) {n : Nat} (hn : v.levels ≤ n) :
    Reads (argumentWithin n t) v.encode v.erase := by
  induction n generalizing v t with
  | zero => exact absurd v.levels_pos (by omega)
  | succ n ih => exact .nested (argumentBody ht hv fun u s hs hu hlt => ih hs hu (by omega))

end Decoder.Reads

namespace Attribute
open Decoder

/-- Arguments of given types are read back one after the other, each outside every other one. -/
theorem run_arguments {values : List StoredArgument} {types : List ArgumentType}
    (htypes : List.Forall₂ StoredArgument.HasType values types)
    (hvalues : ∀ v ∈ values, v.Storable)
    (hlevels : StoredArgument.levelsOfAll values ≤ depthLimit) {bytes : ByteArray}
    {position : Nat} {after : List UInt8}
    (hahead : (Cursor.ofPosition position).Ahead bytes (StoredArgument.encodeAll values ++ after)) :
    (arguments types).run bytes (.ofPosition position) = (.ok (StoredArgument.eraseAll values),
      .ofPosition (position + (StoredArgument.encodeAll values).length)) := by
  induction htypes generalizing position with
  | nil => rfl
  | @cons v t values types ht htypes ih =>
    obtain ⟨hv, hvalues⟩ := List.forall_mem_cons.mp hvalues
    rw [StoredArgument.levelsOfAll, Nat.max_le] at hlevels
    rw [StoredArgument.encodeAll, List.append_assoc] at hahead
    have hread : (argument t).run bytes (.ofPosition position) =
        (.ok v.erase, .ofPosition (position + v.encode.length)) :=
      Reads.argumentWithin ht hv hlevels.1 trivial hahead
    have hrest : (Cursor.ofPosition (position + v.encode.length)).Ahead bytes
        (StoredArgument.encodeAll values ++ after) := hahead.advance
    rw [arguments, run_bind, hread]
    dsimp only
    rw [run_bind, ih hvalues hlevels.2 hrest, StoredArgument.encodeAll, List.length_append,
      ← Nat.add_assoc]
    rfl

/-- Fixed arguments are read back from bytes that start with their stored form. -/
theorem fixedArguments_eq {values : List StoredArgument} {types : List ArgumentType}
    (htypes : List.Forall₂ StoredArgument.HasType values types)
    (hvalues : ∀ v ∈ values, v.Storable)
    (hlevels : StoredArgument.levelsOfAll values ≤ depthLimit) {bytes : ByteArray}
    {rest : List UInt8} (hbytes : bytes.data.toList = encode values ++ rest) :
    fixedArguments bytes types = .ok (StoredArgument.eraseAll values) := by
  have hmark : Reads prolog (Bytes.toLE 2 prologMark) () :=
    (Reads.toLE (by decide)).bind_nil (.pure ())
  have hahead : Cursor.start.Ahead bytes
      (Bytes.toLE 2 prologMark ++ (StoredArgument.encodeAll values ++ rest)) := by
    rw [← List.append_assoc]
    exact ⟨[], hbytes, rfl⟩
  have hrest : (Cursor.ofPosition 2).Ahead bytes (StoredArgument.encodeAll values ++ rest) :=
    hahead.advance
  rw [fixedArguments, decode, run_bind, hmark trivial hahead]
  dsimp only
  exact congrArg Prod.fst (run_arguments htypes hvalues hlevels hrest)

/-- **The fixed arguments of an attribute are read back** from their stored form, whatever follows
them: boxed values as what they hold. -/
theorem fixedArguments_encode {values : List StoredArgument} {types : List ArgumentType}
    (htypes : List.Forall₂ StoredArgument.HasType values types)
    (hvalues : ∀ v ∈ values, v.Storable)
    (hlevels : StoredArgument.levelsOfAll values ≤ depthLimit) (rest : List UInt8) :
    fixedArguments ⟨(encode values ++ rest).toArray⟩ types =
      .ok (StoredArgument.eraseAll values) :=
  fixedArguments_eq htypes hvalues hlevels rfl

/-- A number, a boxed enumeration, boxed values in a boxed vector, no vector and the name of a
type. -/
def sample : List StoredArgument := [
  .scalar (.i2 (-2)),
  .boxed (.enum (some "E")) (.enum 7),
  .boxed (.vector .object) (.vector [
    .boxed (.scalar .char) (.scalar (.char 0x263A)),
    .boxed .object (.boxed (.scalar .string) (.scalar (.string none)))]),
  .noVector,
  .scalar (.typeName (some "T"))]

theorem fixedArguments_encode_sample :
    List.Forall₂ StoredArgument.HasType sample
      [.scalar .i2, .object, .object, .vector (.scalar .u1), .scalar .systemType] ∧
    (∀ v ∈ sample, v.Storable) ∧ StoredArgument.levelsOfAll sample ≤ depthLimit ∧
    encode sample = [0x01, 0x00, 0xFE, 0xFF, 0x55, 0x01, 0x45, 0x07, 0x00, 0x00, 0x00, 0x1D, 0x51,
      0x02, 0x00, 0x00, 0x00, 0x03, 0x3A, 0x26, 0x51, 0x0E, 0xFF, 0xFF, 0xFF, 0xFF, 0xFF, 0x01,
      0x54] ∧
    fixedArguments ⟨(encode sample ++ [0x00, 0x00]).toArray⟩
      [.scalar .i2, .object, .object, .vector (.scalar .u1), .scalar .systemType] = .ok [
        .scalar (.i2 (-2)), .enum 7,
        .vector (some [.scalar (.char 0x263A), .scalar (.string none)]),
        .vector none, .scalar (.typeName (some "T"))] := by
  have hchar : StoredArgument.HasType (.scalar (.char 0x263A)) (.scalar .char) := .scalar _
  have hstring : StoredArgument.HasType (.scalar (.string none)) (.scalar .string) := .scalar _
  have htypes : List.Forall₂ StoredArgument.HasType sample
      [.scalar .i2, .object, .object, .vector (.scalar .u1), .scalar .systemType] := by
    refine .cons (.scalar _) (.cons (.boxed (.enum _)) (.cons (.boxed (.vector ?_))
      (.cons (.noVector _) (.cons (.scalar _) .nil))))
    simpa using ⟨.boxed hchar, .boxed (.boxed hstring)⟩
  have hname : Compressed.StorableString (some "E") := by
    rintro _ ⟨⟩
    decide
  have htypeName : Compressed.StorableString (some "T") := by
    rintro _ ⟨⟩
    decide
  have hnone : Scalar.Storable (.string none) := nofun
  have hvalues : ∀ v ∈ sample, v.Storable := by
    simp only [sample, List.forall_mem_cons, List.not_mem_nil, false_implies, implies_true,
      and_true]
    refine ⟨.scalar trivial, .boxed hname (.enum _), .boxed trivial (.vector (by decide) ?_),
      .noVector, .scalar htypeName⟩
    simpa using ⟨.boxed trivial (.scalar trivial),
      .boxed trivial (.boxed trivial (.scalar hnone))⟩
  have hlevels : StoredArgument.levelsOfAll sample ≤ depthLimit := by decide
  exact ⟨htypes, hvalues, hlevels, by decide, fixedArguments_encode htypes hvalues hlevels [0, 0]⟩

end Attribute
end MethodAtlas
