import MethodAtlas.Token

/-!
# Signatures

What a method takes and returns, as far as the module tells it: class and value types are named
by tokens, and the bounds of arrays are left out.
-/
namespace MethodAtlas

/-- A parameter, or the returned value, with types written as `τ`. -/
structure SignatureParameter (τ : Type) where
  modifiers : List Token
  byReference : Bool
  type : τ
deriving Repr

/-- The signature of a method with types written as `τ`. -/
structure SignatureOf (τ : Type) where
  hasThis : Bool
  explicitThis : Bool
  vararg : Bool
  genericCount : Nat
  /-- The declared number of parameters, of which those after a sentinel are not listed. -/
  parameterCount : Nat
  returns : SignatureParameter τ
  parameters : List (SignatureParameter τ)
deriving Repr

/-- The types that have no parts. -/
inductive PrimitiveType
  | void | boolean | char | i1 | u1 | i2 | u2 | i4 | u4 | i8 | u8 | r4 | r8 | string
  | typedReference | nativeInt | nativeUInt | object
deriving DecidableEq, Repr

/-- The types of ECMA-335 II.23.2.12. -/
inductive SignatureType
  | primitive (type : PrimitiveType)
  | pointer (target : SignatureType)
  | byReference (target : SignatureType)
  | valueType (token : Token)
  | classType (token : Token)
  | typeVariable (number : Nat)
  | array (element : SignatureType) (rank : Nat)
  | genericInstance (base : SignatureType) (arguments : List SignatureType)
  | functionPointer (signature : SignatureOf SignatureType)
  | vector (element : SignatureType)
  | methodVariable (number : Nat)
  | pinned (target : SignatureType)

/-- The signature of a method. -/
abbrev MethodSignature := SignatureOf SignatureType

namespace PrimitiveType

def all : List PrimitiveType :=
  [void, boolean, char, i1, u1, i2, u2, i4, u4, i8, u8, r4, r8, string, typedReference, nativeInt,
    nativeUInt, object]

end PrimitiveType

/-- The form of a type, which the first byte of its encoding tells. -/
inductive TypeForm
  | primitive (type : PrimitiveType)
  | pointer | byReference | valueType | classType | typeVariable | array | genericInstance
  | functionPointer | vector | methodVariable | pinned
deriving DecidableEq, Repr

namespace TypeForm

/-- The byte that stands for a form. -/
def code : TypeForm → UInt8
  | primitive .void => 0x01
  | primitive .boolean => 0x02
  | primitive .char => 0x03
  | primitive .i1 => 0x04
  | primitive .u1 => 0x05
  | primitive .i2 => 0x06
  | primitive .u2 => 0x07
  | primitive .i4 => 0x08
  | primitive .u4 => 0x09
  | primitive .i8 => 0x0A
  | primitive .u8 => 0x0B
  | primitive .r4 => 0x0C
  | primitive .r8 => 0x0D
  | primitive .string => 0x0E
  | pointer => 0x0F
  | byReference => 0x10
  | valueType => 0x11
  | classType => 0x12
  | typeVariable => 0x13
  | array => 0x14
  | genericInstance => 0x15
  | primitive .typedReference => 0x16
  | primitive .nativeInt => 0x18
  | primitive .nativeUInt => 0x19
  | functionPointer => 0x1B
  | primitive .object => 0x1C
  | vector => 0x1D
  | methodVariable => 0x1E
  | pinned => 0x45

def all : List TypeForm :=
  PrimitiveType.all.map primitive ++
    [pointer, byReference, valueType, classType, typeVariable, array, genericInstance,
      functionPointer, vector, methodVariable, pinned]

/-- The form that a byte stands for. -/
def ofCode? (code : UInt8) : Option TypeForm := all.find? fun f => f.code == code

@[simp] theorem ofCode?_code (f : TypeForm) : ofCode? f.code = some f := by
  cases f with
  | primitive t => cases t <;> rfl
  | _ => rfl

end TypeForm

namespace Signature

/-- The byte in front of a modifier that a reader has to know. -/
def requiredModifier : UInt8 := 0x1F

/-- The byte in front of a modifier that a reader can pass over. -/
def optionalModifier : UInt8 := 0x20

/-- The mark in front of the extra arguments of a call with a variable number of them. -/
def sentinel : UInt8 := 0x41

end Signature
end MethodAtlas
