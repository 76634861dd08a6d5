import MethodAtlas.Attribute.Decoder
import MethodAtlas.Proofs.Bytes.Consumption
import MethodAtlas.Proofs.Bytes.Reads
import MethodAtlas.Signature.Decoder

/-!
# Results are no larger than their input

Counts in signatures and attribute values are stored numbers, which can be far larger than the
bytes behind them. Every part of what is read takes a byte of its own, though: a type, a signature,
a modifier, an argument, also one that is boxed, empty or missing. So a result has at most as many
parts as bytes were consumed for it, and a count larger than the number of bytes left is never
reached: `bounded_by_input`.
-/
namespace MethodAtlas

namespace Along

theorem eq_total {α : Type} {cost : α → Nat} {g : List α → Nat} (hnil : g [] = 0)
    (hcons : ∀ a as, g (a :: as) = cost a + g as) (as : List α) : g as = total cost as := by
  induction as with
  | nil => exact hnil
  | cons a as ih => rw [hcons, ih, total]

end Along

namespace Signature

mutual

/-- The types, signatures and modifiers in a type, itself included. -/
def sizeOfType : SignatureType → Nat
  | .primitive _ | .valueType _ | .classType _ | .typeVariable _ | .methodVariable _ => 1
  | .pointer t | .byReference t | .array t _ | .vector t | .pinned t => sizeOfType t + 1
  | .genericInstance base ts => sizeOfType base + sizeOfTypes ts + 1
  | .functionPointer s => size s + 1

/-- The types, signatures and modifiers in some types. -/
def sizeOfTypes : List SignatureType → Nat
  | [] => 0
  | t :: ts => sizeOfType t + sizeOfTypes ts

/-- The types, signatures and modifiers in a parameter. -/
def sizeOfParameter : SignatureParameter SignatureType → Nat
  | ⟨modifiers, _, t⟩ => modifiers.length + sizeOfType t

/-- The types, signatures and modifiers in some parameters. -/
def sizeOfParameters : List (SignatureParameter SignatureType) → Nat
  | [] => 0
  | p :: ps => sizeOfParameter p + sizeOfParameters ps

/-- The types, signatures and modifiers in a signature, itself included. -/
def size : MethodSignature → Nat
  | ⟨_, _, _, _, _, returns, ps⟩ => sizeOfParameter returns + sizeOfParameters ps + 1

end

theorem sizeOfTypes_eq (ts : List SignatureType) : sizeOfTypes ts = total sizeOfType ts :=
  Along.eq_total rfl (fun _ _ => rfl) ts

theorem sizeOfParameters_eq (ps : List (SignatureParameter SignatureType)) :
    sizeOfParameters ps = total sizeOfParameter ps := Along.eq_total rfl (fun _ _ => rfl) ps

theorem sizeOfType_pos (t : SignatureType) : 0 < sizeOfType t := by
  cases t <;> simp [sizeOfType]

theorem sizeOfParameter_pos (p : SignatureParameter SignatureType) : 0 < sizeOfParameter p := by
  cases p
  exact Nat.lt_of_lt_of_le (sizeOfType_pos _) (Nat.le_add_left _ _)

end Signature

namespace Attribute

mutual

/-- The arguments in an argument, itself included. A name for a number holds that number. -/
def size : Argument → Nat
  | .scalar _ => 1
  | .enum _ => 2
  | .vector none => 1
  | .vector (some es) => sizeOfAll es + 1

/-- The arguments in some arguments. -/
def sizeOfAll : List Argument → Nat
  | [] => 0
  | a :: as => size a + sizeOfAll as

end

theorem sizeOfAll_eq (as : List Argument) : sizeOfAll as = total size as :=
  Along.eq_total rfl (fun _ _ => rfl) as

theorem size_pos (a : Argument) : 0 < size a := by
  cases a with
  | vector elements => cases elements <;> simp [size]
  | _ => simp [size]

end Attribute

namespace Decoder.Pays
open Signature

theorem collectModifiers (left : Nat) (done : Array Token) :
    Pays done.size (collectModifiers left done) Array.size := by
  induction left generalizing done with
  | zero => exact .pure (Nat.le_refl _)
  | succ left ih =>
    refine peek?.bind fun code? => ?_
    cases code? with
    | none => exact .pure (Nat.le_refl _)
    | some code =>
      dsimp only
      split
      · refine (skip 1).bind fun _ => token.bind fun t => (ih _).mono ?_ fun _ => Nat.le_refl _
        rw [Array.size_push]
        omega
      · exact .pure (Nat.le_refl _)

theorem modifiers : Pays 0 modifiers List.length :=
  left.bind fun n => (collectModifiers n #[]).map fun all => by simp

theorem arrayBounds : Pays 0 arrayBounds fun _ => 0 := by
  have hnumbers (n : Nat) : Pays 0 (Decoder.passOver .compressed n) fun _ => 0 :=
    compressed.passOver n
  refine compressed.bind fun sizes => (hnumbers sizes).bind fun _ => ?_
  refine compressed.bind fun bounds => ?_
  exact (hnumbers bounds).mono (Nat.zero_le _) fun _ => Nat.le_refl _

section Signature
variable {type : Decoder SignatureType} (htype : Pays 0 type sizeOfType)
include htype

theorem parameter : Pays 0 (parameter type) sizeOfParameter := by
  refine modifiers.bind fun ms => peek.bind fun code => ?_
  dsimp only
  split
  · exact (skip 1).bind fun _ => htype.map fun t => by simp only [sizeOfParameter]; omega
  · exact htype.map fun t => by simp only [sizeOfParameter]; omega

theorem collectParameters (n : Nat) (done : Array (SignatureParameter SignatureType)) :
    Pays (total sizeOfParameter done.toList) (collectParameters type n done)
      fun ps => total sizeOfParameter ps.toList := by
  induction n generalizing done with
  | zero => exact .pure (Nat.le_refl _)
  | succ n ih =>
    refine peek.bind fun code => ?_
    split
    · exact .pure (Nat.le_refl _)
    · refine (parameter htype).bind fun p => ?_
      rw [Nat.add_zero, ← total_push]
      exact ih _

theorem methodWith : Pays 0 (methodWith type) size := by
  have hgeneric (convention : UInt8) : Pays 0 (genericCount convention) fun _ => 0 := by
    rw [genericCount]
    split
    · exact compressed.mono (Nat.le_refl _) fun _ => Nat.zero_le _
    · exact .pure (Nat.le_refl _)
  refine byte.bind fun convention => (hgeneric convention).bind fun _ => compressed.bind fun n =>
    (parameter htype).bind fun returns => ?_
  refine (collectParameters htype n #[]).bind fun ps => .pure ?_
  simp only [size, sizeOfParameters_eq]
  omega

/-- The rest of a type pays for all but the type itself, which the byte of its form pays. -/
theorem formBody (form : TypeForm) : Pays 1 (formBody type form) sizeOfType := by
  have hpart {g : SignatureType → SignatureType} (hg : ∀ t, sizeOfType (g t) = sizeOfType t + 1) :
      Pays 1 (do return g (← type)) sizeOfType :=
    htype.map fun t => by rw [hg]; omega
  cases form with
  | primitive t => exact .pure (Nat.le_refl _)
  | pointer => exact modifiers.bind fun ms => htype.map fun t => by simp only [sizeOfType]; omega
  | byReference => exact hpart fun t => rfl
  | valueType => exact token.map fun _ => by simp [sizeOfType]
  | classType => exact token.map fun _ => by simp [sizeOfType]
  | typeVariable => exact compressed.map fun _ => by simp [sizeOfType]
  | array =>
    exact htype.bind fun t => compressed.bind fun rank => arrayBounds.map fun _ => by
      simp only [sizeOfType]
      omega
  | genericInstance =>
    refine peek.bind fun next => ?_
    split
    · exact .fail _
    · refine htype.bind fun base => compressed.bind fun count => (htype.many count).map fun ts => ?_
      rw [sizeOfType, sizeOfTypes_eq]
      omega
  | functionPointer => exact (methodWith htype).map fun s => by simp only [sizeOfType]; omega
  | vector => exact modifiers.bind fun ms => htype.map fun t => by simp only [sizeOfType]; omega
  | methodVariable => exact compressed.map fun _ => by simp [sizeOfType]
  | pinned => exact hpart fun t => rfl

theorem typeBody : Pays 0 (typeBody type) sizeOfType := by
  refine byte.bind fun code => ?_
  split
  · exact formBody htype _
  · exact .fail _

end Signature

theorem typeWithin (levels : Nat) : Pays 0 (typeWithin levels) sizeOfType := by
  induction levels with
  | zero => exact .nested (.fail _)
  | succ levels ih => exact .nested (typeBody ih)

section Attribute
open Attribute

theorem prolog : Pays 0 prolog fun _ => 2 := by
  refine (number 2).bind fun found => ?_
  split
  · exact .fail _
  · exact .pure (Nat.le_refl _)

theorem taggedType (left : Nat) (tag : UInt8) : Pays 0 (taggedType left tag) fun _ => 0 := by
  induction left generalizing tag with
  | zero =>
    rw [Attribute.taggedType.eq_def]
    split
    · exact .pure (Nat.le_refl _)
    · exact string.map fun _ => Nat.zero_le _
    · exact .pure (Nat.le_refl _)
    · exact .fail _
    · exact .fail _
  | succ left ih =>
    rw [Attribute.taggedType.eq_def]
    split
    · exact .pure (Nat.le_refl _)
    · exact string.map fun _ => Nat.zero_le _
    · exact .pure (Nat.le_refl _)
    · exact byte.bind fun code => (ih code).map fun _ => Nat.zero_le _
    · exact .fail _

theorem scalar (t : ScalarType) : Pays 0 (scalar t) fun _ => 1 := by
  cases t with
  | string => exact string.map fun _ => Nat.le_refl _
  | systemType => exact string.map fun _ => Nat.le_refl _
  | _ => exact (number _).map fun _ => by omega

variable {inner : ArgumentType → Decoder Argument} (hinner : ∀ t, Pays 0 (inner t) Attribute.size)
include hinner

/-- A boxed value pays for itself, and a vector by the number in front of its elements. -/
theorem argumentBody (t : ArgumentType) : Pays 0 (argumentBody inner t) Attribute.size := by
  cases t with
  | scalar t => exact (scalar t).map fun _ => Nat.le_refl _
  | enum => exact (number 4).map fun _ => by simp [Attribute.size]
  | vector element =>
    refine (number 4).bind fun count => ?_
    split
    · exact .pure (by simp [Attribute.size])
    · refine ((hinner element).many count).map fun es => ?_
      rw [Attribute.size, sizeOfAll_eq]
      omega
  | object =>
    refine byte.bind fun tag => left.bind fun left => (taggedType left tag).bind fun type => ?_
    exact (hinner type).mono (Nat.zero_le _) fun _ => Nat.le_refl _
  | unsupported => exact .fail _

omit hinner

theorem argumentWithin (levels : Nat) (t : ArgumentType) :
    Pays 0 (argumentWithin levels t) Attribute.size := by
  induction levels generalizing t with
  | zero => exact .nested (.fail _)
  | succ levels ih => exact .nested (argumentBody ih t)

theorem arguments (ts : List ArgumentType) : Pays 0 (arguments ts) sizeOfAll := by
  induction ts with
  | nil => exact .pure (Nat.le_refl _)
  | cons t ts ih =>
    refine (cursor.bind fun c => argumentWithin (Attribute.levelsAt c) t).bind fun a => ?_
    refine ih.map fun as => ?_
    rw [sizeOfAll]
    omega

end Attribute
end Decoder.Pays

/-- A list of parameters ends as its count says, or before a sentinel. -/
theorem Signature.size_of_run_collectParameters {type : Decoder SignatureType} {n : Nat}
    {done ps : Array (SignatureParameter SignatureType)} {bytes : ByteArray} {c c' : Cursor}
    (h : (collectParameters type n done).run bytes c = (.ok ps, c')) :
    ps.size = done.size + n ∨ Bytes.byte? bytes c'.position = some sentinel := by
  induction n generalizing done c with
  | zero =>
    cases h
    exact .inl rfl
  | succ n ih =>
    obtain ⟨code, mid, hpeek, hrest⟩ := Decoder.run_bind_eq_ok h
    split at hrest
    · next hcode =>
      cases hrest
      simp only [Decoder.run, Decoder.peek] at hpeek
      split at hpeek
      · next b hb =>
        cases hpeek
        exact .inr (hb.trans (congrArg some hcode))
      · cases hpeek
    · obtain ⟨p, last, -, hparameters⟩ := Decoder.run_bind_eq_ok hrest
      refine (ih hparameters).imp_left fun hsize => ?_
      rw [hsize, Array.size_push, Nat.add_assoc, Nat.add_comm 1]

/-- A count of values that is larger than the number of bytes left ends in a fault. -/
def Decoder.CountsWithin {α : Type} (d : Nat → Decoder α) : Prop :=
  ∀ bytes c count, c.position ≤ bytes.size → bytes.size < c.position + count →
    ∃ e c', (d count).run bytes c = (.error e, c')

/-- Results have at most as many parts as bytes were consumed for them, whatever the bytes are. -/
structure BoundedByInput : Prop where
  signature : ∀ bytes s c, Signature.method.run bytes .start = (.ok s, c) →
    Signature.size s ≤ c.position ∧ c.position ≤ bytes.size
  arguments : ∀ bytes types as, Attribute.fixedArguments bytes types = .ok as →
    ∃ c, (do Attribute.prolog; Attribute.arguments types).run bytes .start = (.ok as, c) ∧
      Attribute.sizeOfAll as ≤ c.position ∧ c.position ≤ bytes.size
  /-- The number of arguments of a generic type. -/
  typeCount : ∀ levels, Decoder.CountsWithin (Decoder.many (Signature.typeWithin levels))
  /-- The number of elements of a vector. -/
  elementCount : ∀ levels t, Decoder.CountsWithin (Decoder.many (Attribute.argumentWithin levels t))
  /-- The number of parameters, of which a sentinel can end the list early. -/
  parameterCount : ∀ levels bytes c count, c.position ≤ bytes.size →
    bytes.size < c.position + count → ∀ ps c',
    (Signature.collectParameters (Signature.typeWithin levels) count #[]).run bytes c
      = (.ok ps, c') →
    ps.size < count ∧ Bytes.byte? bytes c'.position = some Signature.sentinel

/-- **Results are never larger than their input**, and no count larger than the number of bytes left
is reached. -/
theorem bounded_by_input : BoundedByInput where
  signature := by
    intro bytes s c hrun
    have hpays : Decoder.Pays 0 Signature.method Signature.size :=
      Decoder.Pays.cursor.bind fun _ => .methodWith (.typeWithin _)
    obtain ⟨-, hwithin, hpaid⟩ := hpays (Nat.zero_le _) hrun
    rw [Cursor.start, Nat.zero_add] at hpaid
    exact ⟨hpaid, hwithin⟩
  arguments := by
    intro bytes types as h
    have hpays : Decoder.Pays 0 (do Attribute.prolog; Attribute.arguments types)
        Attribute.sizeOfAll :=
      Decoder.Pays.prolog.bind fun _ =>
        (Decoder.Pays.arguments types).mono (Nat.zero_le _) fun _ => Nat.le_refl _
    rcases hrun : (do Attribute.prolog; Attribute.arguments types).run bytes .start with ⟨r, c⟩
    obtain rfl : r = .ok as := by rw [← h, Attribute.fixedArguments, Decoder.decode, hrun]
    obtain ⟨-, hwithin, hpaid⟩ := hpays (Nat.zero_le _) hrun
    rw [Cursor.start, Nat.zero_add] at hpaid
    exact ⟨c, hrun, hpaid, hwithin⟩
  typeCount levels bytes c count hc hcount :=
    (Decoder.Pays.typeWithin levels).many_fails Signature.sizeOfType_pos hc hcount
  elementCount levels t bytes c count hc hcount :=
    (Decoder.Pays.argumentWithin levels t).many_fails Attribute.size_pos hc hcount
  parameterCount := by
    intro levels bytes c count hc hcount ps c' hrun
    obtain ⟨-, hwithin, hpaid⟩ : c.position ≤ c'.position ∧ c'.position ≤ bytes.size ∧
        c.position + total Signature.sizeOfParameter ps.toList ≤ c'.position :=
      Decoder.Pays.collectParameters (.typeWithin levels) count #[] hc hrun
    have hlength := length_le_total Signature.sizeOfParameter_pos ps.toList
    rw [Array.length_toList] at hlength
    have hsize : ps.size < count := by omega
    refine ⟨hsize, (Signature.size_of_run_collectParameters hrun).resolve_left fun hall => ?_⟩
    rw [Array.size_empty] at hall
    omega

/-- The stored form of a signature with a modifier and a generic instance. -/
def Signature.storedSample : ByteArray :=
  ⟨#[0x00, 0x01, 0x1F, 0x05, 0x01, 0x15, 0x12, 0x09, 0x01, 0x08]⟩

/-- The stored form of a box without a vector and of a missing string, with two more bytes. -/
def Attribute.storedSample : ByteArray :=
  ⟨#[0x01, 0x00, 0x1D, 0x08, 0xFF, 0xFF, 0xFF, 0xFF, 0xFF, 0x00, 0x00]⟩

theorem bounded_by_input_sample :
    (∃ s, Signature.method.run Signature.storedSample .start = (.ok s, ⟨10, 0⟩) ∧
      Signature.size s = 6 ∧ Signature.size s ≤ 10) ∧
    ∃ as, Attribute.fixedArguments Attribute.storedSample [.object, .scalar .string] = .ok as ∧
      (do Attribute.prolog; Attribute.arguments [.object, .scalar .string]).run
        Attribute.storedSample .start = (.ok as, ⟨9, 0⟩) ∧
      Attribute.sizeOfAll as = 2 ∧ Attribute.sizeOfAll as ≤ 9 := by
  have hsignature : Signature.method.run Signature.storedSample .start = (.ok {
      hasThis := false
      explicitThis := false
      vararg := false
      genericCount := 0
      parameterCount := 1
      returns := ⟨[.ofParts .typeRef 1], false, .primitive .void⟩
      parameters := [⟨[], false, .genericInstance (.classType (.ofParts .typeRef 2))
        [.primitive .i4]⟩] }, ⟨10, 0⟩) := rfl
  have harguments : Attribute.fixedArguments Attribute.storedSample [.object, .scalar .string] =
      .ok [.vector none, .scalar (.string none)] := rfl
  have hrun : (do Attribute.prolog; Attribute.arguments [.object, .scalar .string]).run
      Attribute.storedSample .start = (.ok [.vector none, .scalar (.string none)], ⟨9, 0⟩) := rfl
  obtain ⟨c, hc, hsize, -⟩ := bounded_by_input.arguments _ _ _ harguments
  obtain rfl : c = ⟨9, 0⟩ := congrArg Prod.snd (hc.symm.trans hrun)
  exact ⟨⟨_, hsignature, rfl, (bounded_by_input.signature _ _ _ hsignature).1⟩,
    _, harguments, hrun, rfl, hsize⟩

end MethodAtlas
