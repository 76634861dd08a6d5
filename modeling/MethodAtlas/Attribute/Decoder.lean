import MethodAtlas.Attribute.Basic
import MethodAtlas.Bytes.Compressed

/-!
# Reading attribute arguments

A decoder for the fixed arguments of ECMA-335 II.23.3. Vectors and tagged values nest;
`argumentWithin` takes the number of levels that are left and fails beyond them. Only values count
as levels, not the tags in front of them.
-/
namespace MethodAtlas.Attribute

/-- The number of levels that arguments can nest. -/
def depthLimit : Nat := 16

/-- The number that the arguments start with. -/
def prologMark : Nat := 1

/-- The element count that stands for no vector. -/
def noVector : Nat := 0xFFFFFFFF

/-- The start of the arguments. -/
def prolog : Decoder Unit := do
  let found ← .number 2
  if found ≠ prologMark then .malformed (.attributeProlog found)

/-- The type behind a tag. A vector's tag is followed by that of its elements, and `left` bytes
hold no more than so many tags. The name of an enumeration is passed over. -/
def taggedType (left : Nat) (tag : UInt8) : Decoder ArgumentType :=
  match TagForm.ofCode? tag with
  | some (.scalar t) => return .scalar t
  | some .enum => do
    let _ ← .string
    return .enum
  | some .object => return .object
  | some .vector =>
    match left with
    | 0 => .fail .outOfBounds
    | left + 1 => do
      let elementTag ← .byte
      return .vector (← taggedType left elementTag)
  | none => .malformed (.attributeTag tag.toNat)

/-- A value of a scalar type. -/
def scalar : ScalarType → Decoder Scalar
  | .boolean => return .boolean ((← .number 1) != 0)
  | .char => return .char (.ofNat (← .number 2))
  | .i1 => return .i1 (.ofNat (← .number 1))
  | .u1 => return .u1 (.ofNat (← .number 1))
  | .i2 => return .i2 (.ofNat (← .number 2))
  | .u2 => return .u2 (.ofNat (← .number 2))
  | .i4 => return .i4 (.ofNat (← .number 4))
  | .u4 => return .u4 (.ofNat (← .number 4))
  | .i8 => return .i8 (.ofNat (← .number 8))
  | .u8 => return .u8 (.ofNat (← .number 8))
  | .r4 => return .r4 (.ofNat (← .number 4))
  | .r8 => return .r8 (.ofNat (← .number 8))
  | .string => return .string (← .string)
  | .systemType => return .typeName (← .string)

/-- An argument whose parts `inner` reads. -/
def argumentBody (inner : ArgumentType → Decoder Argument) : ArgumentType → Decoder Argument
  | .scalar t => return .scalar (← scalar t)
  | .enum => return .enum (.ofNat (← .number 4))
  | .vector element => do
    let count ← .number 4
    if count = noVector then return .vector none
    else return .vector (some (← Decoder.many (inner element) count))
  | .object => do
    let tag ← .byte
    let left ← .left
    let type ← taggedType left tag
    inner type
  | .unsupported => .fail .notSupported

/-- An argument of at most so many levels. -/
def argumentWithin : (levels : Nat) → ArgumentType → Decoder Argument
  | 0, _ => .nested (.fail (.recursionLimit depthLimit))
  | levels + 1, t => .nested (argumentBody (argumentWithin levels) t)

/-- The levels that are left at a cursor. -/
def levelsAt (c : Cursor) : Nat := depthLimit - c.depth

/-- The argument at the cursor. -/
def argument (t : ArgumentType) : Decoder Argument := do
  let c ← .cursor
  argumentWithin (levelsAt c) t

/-- Arguments of the given types one after the other. -/
def arguments : List ArgumentType → Decoder (List Argument)
  | [] => pure []
  | t :: ts => do
    let a ← argument t
    let rest ← arguments ts
    pure (a :: rest)

/-- The fixed arguments that an attribute value starts with. -/
def fixedArguments (bytes : ByteArray) (types : List ArgumentType) :
    Except Fault (List Argument) :=
  Decoder.decode (do prolog; arguments types) bytes

end MethodAtlas.Attribute
