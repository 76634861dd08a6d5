import MethodAtlas.Bytes.Compressed
import MethodAtlas.Signature.Basic

/-!
# Reading signatures

A decoder for the signatures of ECMA-335 II.23.2. Types nest; `typeWithin` takes the number of
levels that are left and fails beyond them, and `typeBody` reads one level with a decoder for the
levels below it.
-/
namespace MethodAtlas.Signature

/-- The depth at which reading a type fails. -/
def depthLimit : Nat := 50

/-- Whether a modifier starts with a byte. -/
def isModifierCode (code : UInt8) : Bool := code == requiredModifier || code == optionalModifier

/-- Modifiers after those in `done`. Each takes a byte, so that `left` bytes hold no more. -/
def collectModifiers : (left : Nat) → Array Token → Decoder (Array Token)
  | 0, done => pure done
  | left + 1, done => do
    match ← .peek? with
    | some code =>
      if isModifierCode code then
        .skip 1
        let token ← .token
        collectModifiers left (done.push token)
      else pure done
    | none => pure done

/-- The modifiers at the cursor. -/
def modifiers : Decoder (List Token) := do
  let left ← .left
  let all ← collectModifiers left #[]
  pure all.toList

variable (type : Decoder SignatureType)

/-- A parameter or the returned value. -/
def parameter : Decoder (SignatureParameter SignatureType) := do
  let modifiers ← modifiers
  let code ← .peek
  let byReference := code == TypeForm.byReference.code
  if byReference then .skip 1
  let type ← type
  pure { modifiers, byReference, type }

/-- At most `n` parameters after those in `done`; a sentinel ends them early. -/
def collectParameters : (n : Nat) → Array (SignatureParameter SignatureType) →
    Decoder (Array (SignatureParameter SignatureType))
  | 0, done => pure done
  | n + 1, done => do
    let code ← .peek
    if code = sentinel then pure done
    else
      let p ← parameter type
      collectParameters n (done.push p)

/-- The number of type parameters, which is there only if the convention says so. -/
def genericCount (convention : UInt8) : Decoder Nat :=
  if convention.toNat.testBit 4 then .compressed else pure 0

/-- The signature of a method. -/
def methodWith : Decoder MethodSignature := do
  let convention ← .byte
  let genericCount ← genericCount convention
  let parameterCount ← .compressed
  let returns ← parameter type
  let parameters ← collectParameters type parameterCount #[]
  pure {
    hasThis := convention.toNat.testBit 5
    explicitThis := convention.toNat.testBit 6
    vararg := convention.toNat % 16 == 5
    genericCount, parameterCount, returns
    parameters := parameters.toList }

/-- The bounds of an array: sizes, then lower bounds, each list behind its length. -/
def arrayBounds : Decoder Unit := do
  let sizes ← .compressed
  Decoder.passOver .compressed sizes
  let lowerBounds ← .compressed
  Decoder.passOver .compressed lowerBounds

/-- The rest of a type of a form, whose parts `type` reads. -/
def formBody : TypeForm → Decoder SignatureType
  | .primitive t => return .primitive t
  | .pointer => do
    let _ ← modifiers
    return .pointer (← type)
  | .byReference => return .byReference (← type)
  | .valueType => return .valueType (← .token)
  | .classType => return .classType (← .token)
  | .typeVariable => return .typeVariable (← .compressed)
  | .array => do
    let element ← type
    let rank ← .compressed
    arrayBounds
    return .array element rank
  | .genericInstance => do
    let next ← .peek
    if next ≠ TypeForm.classType.code ∧ next ≠ TypeForm.valueType.code then
      .malformed (.genericInstance next.toNat)
    else
      let base ← type
      let count ← .compressed
      let arguments ← Decoder.many type count
      return .genericInstance base arguments
  | .functionPointer => return .functionPointer (← methodWith type)
  | .vector => do
    let _ ← modifiers
    return .vector (← type)
  | .methodVariable => return .methodVariable (← .compressed)
  | .pinned => return .pinned (← type)

/-- A type whose parts `type` reads. -/
def typeBody : Decoder SignatureType := do
  let code ← .byte
  match TypeForm.ofCode? code with
  | some form => formBody type form
  | none => .malformed (.elementType code.toNat)

/-- A type of at most so many levels. -/
def typeWithin : (levels : Nat) → Decoder SignatureType
  | 0 => .nested (.fail (.recursionLimit depthLimit))
  | levels + 1 => .nested (typeBody (typeWithin levels))

/-- The levels that are left at a cursor. -/
def levelsAt (c : Cursor) : Nat := depthLimit - 1 - c.depth

/-- The signature of a method at the cursor. -/
def method : Decoder MethodSignature := do
  let c ← .cursor
  methodWith (typeWithin (levelsAt c))

end MethodAtlas.Signature
