import MethodAtlas.Signature.Basic

/-!
# Attribute arguments

The values that an attribute's constructor is called with, and the types that tell how each of
them is stored.
-/
namespace MethodAtlas

/-- The types whose values are stored alike everywhere. -/
inductive ScalarType
  | boolean | char | i1 | u1 | i2 | u2 | i4 | u4 | i8 | u8 | r4 | r8 | string
  /-- The name of a type. -/
  | systemType
deriving DecidableEq, Repr

/-- How an argument is stored. -/
inductive ArgumentType
  | scalar (type : ScalarType)
  /-- A number of four bytes that stands for a name. -/
  | enum
  /-- A value behind a tag for its type. -/
  | object
  | vector (element : ArgumentType)
  /-- A type that no argument can have. -/
  | unsupported
deriving DecidableEq, Repr

/-- A value of a scalar type. Floating-point numbers are kept as their bits, characters as UTF-16
units. -/
inductive Scalar
  | boolean (value : Bool)
  | char (unit : UInt16)
  | i1 (value : Int8)
  | u1 (value : UInt8)
  | i2 (value : Int16)
  | u2 (value : UInt16)
  | i4 (value : Int32)
  | u4 (value : UInt32)
  | i8 (value : Int64)
  | u8 (value : UInt64)
  | r4 (bits : UInt32)
  | r8 (bits : UInt64)
  | string (value : Option String)
  | typeName (value : Option String)
deriving DecidableEq, Repr

/-- An argument. -/
inductive Argument
  | scalar (value : Scalar)
  | enum (value : Int32)
  | vector (elements : Option (List Argument))

namespace ArgumentType

/-- How a parameter of a primitive type is stored. -/
def ofPrimitive : PrimitiveType → ArgumentType
  | .boolean => scalar .boolean
  | .char => scalar .char
  | .i1 => scalar .i1
  | .u1 => scalar .u1
  | .i2 => scalar .i2
  | .u2 => scalar .u2
  | .i4 => scalar .i4
  | .u4 => scalar .u4
  | .i8 => scalar .i8
  | .u8 => scalar .u8
  | .r4 => scalar .r4
  | .r8 => scalar .r8
  | .string => scalar .string
  | .object => object
  | .void | .typedReference | .nativeInt | .nativeUInt => unsupported

/-- How a parameter of a type is stored. A class or value type is named by a token only, and
`classify` decides what it is. -/
def ofSignature (classify : SignatureType → ArgumentType) : SignatureType → ArgumentType
  | .primitive t => ofPrimitive t
  | .vector element => vector (ofSignature classify element)
  | .classType token => classify (.classType token)
  | .valueType token => classify (.valueType token)
  | _ => unsupported

end ArgumentType

/-- The form of a boxed value's type, which a tag tells. -/
inductive TagForm
  | scalar (type : ScalarType)
  | enum | object | vector
deriving DecidableEq, Repr

namespace TagForm

/-- The byte that stands for a form. -/
def code : TagForm → UInt8
  | scalar .boolean => 0x02
  | scalar .char => 0x03
  | scalar .i1 => 0x04
  | scalar .u1 => 0x05
  | scalar .i2 => 0x06
  | scalar .u2 => 0x07
  | scalar .i4 => 0x08
  | scalar .u4 => 0x09
  | scalar .i8 => 0x0A
  | scalar .u8 => 0x0B
  | scalar .r4 => 0x0C
  | scalar .r8 => 0x0D
  | scalar .string => 0x0E
  | vector => 0x1D
  | scalar .systemType => 0x50
  | object => 0x51
  | enum => 0x55

def all : List TagForm :=
  [scalar .boolean, scalar .char, scalar .i1, scalar .u1, scalar .i2, scalar .u2, scalar .i4,
    scalar .u4, scalar .i8, scalar .u8, scalar .r4, scalar .r8, scalar .string, vector,
    scalar .systemType, object, enum]

/-- The form that a byte stands for. -/
def ofCode? (code : UInt8) : Option TagForm := all.find? fun f => f.code == code

@[simp] theorem ofCode?_code (f : TagForm) : ofCode? f.code = some f := by
  cases f with
  | scalar t => cases t <;> rfl
  | _ => rfl

end TagForm
end MethodAtlas
