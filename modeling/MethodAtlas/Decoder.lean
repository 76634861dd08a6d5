import MethodAtlas.Bytes.Basic
import MethodAtlas.Fault

/-!
# Decoders

A decoder reads a value from a byte string at a cursor. It answers with the value or a fault and,
in both cases, with the cursor it ends at: a failed read keeps what it consumed before it failed.

The laws `run_pure` and `run_bind` open a decoder that is written with `do`.
-/
namespace MethodAtlas

/-- A position in a byte string, with the number of nested values that are being read there. -/
structure Cursor where
  position : Nat
  depth : Nat
deriving DecidableEq, Repr, Inhabited

namespace Cursor

/-- The start of a byte string, outside every nested value. -/
def start : Cursor := ⟨0, 0⟩

/-- A position outside every nested value. -/
def ofPosition (position : Nat) : Cursor := ⟨position, 0⟩

def advance (c : Cursor) (n : Nat) : Cursor := ⟨c.position + n, c.depth⟩

/-- Whether bytes are left. -/
def hasMore (c : Cursor) (bytes : ByteArray) : Bool := c.position < bytes.size

@[simp] theorem position_advance (c : Cursor) (n : Nat) :
    (c.advance n).position = c.position + n := rfl

@[simp] theorem depth_advance (c : Cursor) (n : Nat) : (c.advance n).depth = c.depth := rfl

@[simp] theorem advance_zero (c : Cursor) : c.advance 0 = c := rfl

@[simp] theorem advance_advance (c : Cursor) (m n : Nat) :
    (c.advance m).advance n = c.advance (m + n) := by
  simp [advance, Nat.add_assoc]

end Cursor

/-- Reads an `α` from a byte string at a cursor. -/
def Decoder (α : Type) := ByteArray → Cursor → Except Fault α × Cursor

namespace Decoder
variable {α β : Type}

/-- The outcome at a cursor and where it leaves the cursor. -/
@[inline] def run (d : Decoder α) (bytes : ByteArray) (c : Cursor) : Except Fault α × Cursor :=
  d bytes c

/-- The outcome at the start of the bytes. -/
def decode (d : Decoder α) (bytes : ByteArray) : Except Fault α := (d.run bytes .start).1

/-- The outcome at a position in the bytes. -/
def decodeAt (d : Decoder α) (bytes : ByteArray) (position : Nat) : Except Fault α :=
  (d.run bytes (.ofPosition position)).1

@[inline] protected def pure (a : α) : Decoder α := fun _ c => (.ok a, c)

@[inline] protected def bind (d : Decoder α) (f : α → Decoder β) : Decoder β := fun bytes c =>
  match d bytes c with
  | (.ok a, c') => f a bytes c'
  | (.error e, c') => (.error e, c')

instance : Monad Decoder where
  pure := Decoder.pure
  bind := Decoder.bind

@[ext] theorem ext {d e : Decoder α} (h : ∀ bytes c, d.run bytes c = e.run bytes c) : d = e :=
  funext fun bytes => funext fun c => h bytes c

@[simp] theorem run_pure (a : α) (bytes : ByteArray) (c : Cursor) :
    (pure a : Decoder α).run bytes c = (.ok a, c) := rfl

theorem run_bind (d : Decoder α) (f : α → Decoder β) (bytes : ByteArray) (c : Cursor) :
    (d >>= f).run bytes c =
      match d.run bytes c with
      | (.ok a, c') => (f a).run bytes c'
      | (.error e, c') => (.error e, c') := rfl

instance : LawfulMonad Decoder :=
  LawfulMonad.mk' Decoder
    (fun d => ext fun bytes c => by
      show (d >>= fun a => pure (id a)).run bytes c = _
      rw [run_bind]
      rcases d.run bytes c with ⟨_ | _, _⟩ <;> rfl)
    (fun _ _ => rfl)
    (fun d f g => ext fun bytes c => by
      simp only [run_bind]
      rcases d.run bytes c with ⟨_ | _, _⟩ <;> rfl)

/-- Fails and consumes nothing. -/
@[inline] def fail (e : Fault) : Decoder α := fun _ c => (.error e, c)

@[simp] theorem run_fail (e : Fault) (bytes : ByteArray) (c : Cursor) :
    (fail e : Decoder α).run bytes c = (.error e, c) := rfl

/-- Fails because the bytes break a rule of the format. -/
@[inline] def malformed (cause : Malformation) : Decoder α := fail (.malformed cause)

/-- An outcome that needs no bytes. -/
@[inline] def ofExcept (r : Except Fault α) : Decoder α := fun _ c => (r, c)

/-- The cursor, unchanged. -/
@[inline] def cursor : Decoder Cursor := fun _ c => (.ok c, c)

/-- The number of bytes left. -/
@[inline] def left : Decoder Nat := fun bytes c => (.ok (bytes.size - c.position), c)

/-- The next byte, which stays unread, if there is one. -/
@[inline] def peek? : Decoder (Option UInt8) := fun bytes c =>
  (.ok (Bytes.byte? bytes c.position), c)

/-- Fails where fewer than `n` bytes are left. -/
def need (n : Nat) : Decoder Unit := fun bytes c =>
  if c.position + n ≤ bytes.size then (.ok (), c) else (.error .outOfBounds, c)

/-- At most `n` of the next bytes, which stay unread. -/
def lookahead (n : Nat) : Decoder (List UInt8) := fun bytes c =>
  (.ok ((bytes.extract c.position (min (c.position + n) bytes.size)).data.toList), c)

/-- The next byte, which stays unread. -/
def peek : Decoder UInt8 := fun bytes c =>
  match Bytes.byte? bytes c.position with
  | some b => (.ok b, c)
  | none => (.error .outOfBounds, c)

/-- The next `n` bytes; if there are fewer, nothing is consumed. -/
def take (n : Nat) : Decoder ByteArray := fun bytes c =>
  if c.position + n ≤ bytes.size then
    (.ok (bytes.extract c.position (c.position + n)), c.advance n)
  else (.error .outOfBounds, c)

/-- Passes over `n` bytes; if there are fewer, nothing is consumed. -/
def skip (n : Nat) : Decoder Unit := fun bytes c =>
  if c.position + n ≤ bytes.size then (.ok (), c.advance n) else (.error .outOfBounds, c)

/-- A little-endian number of `width` bytes. -/
def number (width : Nat) : Decoder Nat := do
  let bytes ← take width
  pure (Bytes.ofLE bytes.data.toList)

/-- A byte. -/
def byte : Decoder UInt8 := do
  let b ← peek
  skip 1
  pure b

/-- Reads a value one level deeper. A failure inside stays at the depth it was met at. -/
@[inline] def nested (d : Decoder α) : Decoder α := fun bytes c =>
  match d bytes ⟨c.position, c.depth + 1⟩ with
  | (.ok a, c') => (.ok a, ⟨c'.position, c'.depth - 1⟩)
  | (.error e, c') => (.error e, c')

/-- Reads `n` values one after the other, in front of which `done` were read. -/
def collect (d : Decoder α) : Nat → Array α → Decoder (Array α)
  | 0, done => pure done
  | n + 1, done => do
    let a ← d
    collect d n (done.push a)

/-- Reads `n` values one after the other. -/
def many (d : Decoder α) (n : Nat) : Decoder (List α) := do
  let all ← collect d n #[]
  pure all.toList

/-- Reads `n` values one after the other and keeps none of them. -/
def passOver (d : Decoder α) : Nat → Decoder Unit
  | 0 => pure ()
  | n + 1 => do
    let _ ← d
    passOver d n

end Decoder
end MethodAtlas
