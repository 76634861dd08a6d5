/-!
# Byte strings

Bounds-checked access to a byte string, and the end of a text that a zero byte ends. A number of `w`
bytes is stored with its least significant byte first: `toLE` writes one and `ofLE` reads one back;
`ofLE_toLE` and `toLE_ofLE` say that the two are inverse on numbers that fit.
-/
namespace MethodAtlas.Bytes

/-- Byte strings are compared byte by byte. -/
instance (priority := 2000) decidableEqByteArray : DecidableEq ByteArray := fun a b =>
  decidable_of_iff (a.data = b.data) ByteArray.ext_iff.symm

/-- The byte at a position, if there is one. -/
def byte? (bytes : ByteArray) (i : Nat) : Option UInt8 :=
  if h : i < bytes.size then some bytes[i] else none

/-- The position of the first zero byte among the `left` bytes from `i` on. -/
def findZero (bytes : ByteArray) (i : Nat) : (left : Nat) → Option Nat
  | 0 => none
  | left + 1 => if byte? bytes i = some 0 then some i else findZero bytes (i + 1) left

/-- The `w` bytes of `n`, least significant first; what does not fit is dropped. -/
def toLE : Nat → Nat → List UInt8
  | 0, _ => []
  | w + 1, n => UInt8.ofNat n :: toLE w (n / 256)

/-- The number whose bytes these are, least significant first. -/
def ofLE : List UInt8 → Nat
  | [] => 0
  | b :: bs => b.toNat + 256 * ofLE bs

@[simp] theorem length_toLE (w n : Nat) : (toLE w n).length = w := by
  induction w generalizing n with
  | zero => rfl
  | succ w ih => simp [toLE, ih]

/-- One more byte holds 256 times as many numbers. -/
theorem one_shiftLeft_succ (w : Nat) : 1 <<< (8 * (w + 1)) = 256 * (1 <<< (8 * w)) := by
  rw [Nat.one_shiftLeft, Nat.one_shiftLeft, Nat.mul_succ, Nat.pow_add, Nat.mul_comm]

theorem ofLE_toLE (w n : Nat) : ofLE (toLE w n) = n % (1 <<< (8 * w)) := by
  induction w generalizing n with
  | zero => simp [toLE, ofLE, Nat.mod_one]
  | succ w ih => rw [toLE, ofLE, ih, UInt8.toNat_ofNat', one_shiftLeft_succ, Nat.mod_mul]

theorem ofLE_toLE_of_lt {w n : Nat} (h : n < 1 <<< (8 * w)) : ofLE (toLE w n) = n := by
  rw [ofLE_toLE, Nat.mod_eq_of_lt h]

theorem ofLE_lt (bs : List UInt8) : ofLE bs < 1 <<< (8 * bs.length) := by
  induction bs with
  | nil => simp [ofLE]
  | cons b bs ih =>
    have hb : b.toNat < 256 := b.toNat_lt
    rw [ofLE, List.length_cons, one_shiftLeft_succ]
    omega

theorem toLE_ofLE (bs : List UInt8) : toLE bs.length (ofLE bs) = bs := by
  induction bs with
  | nil => rfl
  | cons b bs ih =>
    have hb : b.toNat < 256 := b.toNat_lt
    rw [List.length_cons, toLE, ofLE]
    congr 1
    · apply UInt8.toNat_inj.1
      rw [UInt8.toNat_ofNat', Nat.add_mul_mod_self_left, Nat.mod_eq_of_lt hb]
    · rw [Nat.add_mul_div_left _ _ (by decide), Nat.div_eq_of_lt hb, Nat.zero_add, ih]

end MethodAtlas.Bytes
