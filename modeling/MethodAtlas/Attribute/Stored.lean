import MethodAtlas.Attribute.Decoder

/-!
# Stored arguments

Attribute arguments as ECMA-335 II.23.3 stores them. A boxed value stands behind a tag for its
type, of which reading keeps nothing. `Attribute.encode` lays arguments out, `StoredArgument.erase`
says what is to be read back, `StoredArgument.HasType` which values a type has, and
`StoredArgument.Storable` which values have a stored form.
-/
namespace MethodAtlas

/-- The type of a boxed value. That of an enumeration is named. -/
inductive ArgumentTag
  | scalar (type : ScalarType)
  | enum (name : Option String)
  | object
  | vector (element : ArgumentTag)
deriving DecidableEq, Repr

/-- An argument as it is stored. -/
inductive StoredArgument
  | scalar (value : Scalar)
  | enum (value : Int32)
  /-- No vector at all. -/
  | noVector
  | vector (elements : List StoredArgument)
  | boxed (tag : ArgumentTag) (value : StoredArgument)

namespace Scalar

/-- The type of a value. -/
def type : Scalar → ScalarType
  | boolean _ => .boolean
  | char _ => .char
  | i1 _ => .i1
  | u1 _ => .u1
  | i2 _ => .i2
  | u2 _ => .u2
  | i4 _ => .i4
  | u4 _ => .u4
  | i8 _ => .i8
  | u8 _ => .u8
  | r4 _ => .r4
  | r8 _ => .r8
  | string _ => .string
  | typeName _ => .systemType

/-- The stored form of a value. -/
def encode : Scalar → List UInt8
  | boolean b => Bytes.toLE 1 b.toNat
  | char n | u2 n => Bytes.toLE 2 n.toNat
  | i1 n => Bytes.toLE 1 n.toUInt8.toNat
  | u1 n => Bytes.toLE 1 n.toNat
  | i2 n => Bytes.toLE 2 n.toUInt16.toNat
  | i4 n => Bytes.toLE 4 n.toUInt32.toNat
  | u4 n | r4 n => Bytes.toLE 4 n.toNat
  | i8 n => Bytes.toLE 8 n.toUInt64.toNat
  | u8 n | r8 n => Bytes.toLE 8 n.toNat
  | string s | typeName s => Compressed.string s

/-- Values with a stored form. -/
def Storable : Scalar → Prop
  | string s | typeName s => Compressed.StorableString s
  | _ => True

end Scalar

namespace ArgumentTag

/-- The type that a tag tells. -/
def type : ArgumentTag → ArgumentType
  | scalar t => .scalar t
  | enum _ => .enum
  | object => .object
  | vector element => .vector element.type

/-- The stored form of a tag. -/
def encode : ArgumentTag → List UInt8
  | scalar t => [TagForm.code (.scalar t)]
  | enum name => TagForm.enum.code :: Compressed.string name
  | object => [TagForm.object.code]
  | vector element => TagForm.vector.code :: element.encode

/-- Tags with a stored form. -/
def Storable : ArgumentTag → Prop
  | enum name => Compressed.StorableString name
  | vector element => element.Storable
  | _ => True

end ArgumentTag

namespace StoredArgument

/-- Which values a type has. -/
inductive HasType : StoredArgument → ArgumentType → Prop
  | scalar (v : Scalar) : HasType (scalar v) (.scalar v.type)
  | enum (n : Int32) : HasType (enum n) .enum
  | noVector (element : ArgumentType) : HasType noVector (.vector element)
  | vector {es : List StoredArgument} {element : ArgumentType} :
    (∀ e ∈ es, HasType e element) → HasType (vector es) (.vector element)
  | boxed {tag : ArgumentTag} {v : StoredArgument} :
    HasType v tag.type → HasType (boxed tag v) .object

/-- Arguments with a stored form. -/
inductive Storable : StoredArgument → Prop
  | scalar {v : Scalar} (hv : v.Storable) : Storable (scalar v)
  | enum (n : Int32) : Storable (enum n)
  | noVector : Storable noVector
  | vector {es : List StoredArgument} (hcount : es.length < Attribute.noVector)
    (hes : ∀ e ∈ es, Storable e) : Storable (vector es)
  | boxed {tag : ArgumentTag} {v : StoredArgument} (htag : tag.Storable) (hv : Storable v) :
    Storable (boxed tag v)

mutual

/-- What is to be read back of an argument. -/
def erase : StoredArgument → Argument
  | scalar v => .scalar v
  | enum n => .enum n
  | noVector => .vector none
  | vector es => .vector (some (eraseAll es))
  | boxed _ v => v.erase

/-- What is to be read back of arguments one after the other. -/
def eraseAll : List StoredArgument → List Argument
  | [] => []
  | e :: es => e.erase :: eraseAll es

end

mutual

/-- The stored form of an argument. -/
def encode : StoredArgument → List UInt8
  | scalar v => v.encode
  | enum n => Bytes.toLE 4 n.toUInt32.toNat
  | noVector => Bytes.toLE 4 Attribute.noVector
  | vector es => Bytes.toLE 4 es.length ++ encodeAll es
  | boxed tag v => tag.encode ++ v.encode

/-- The stored form of arguments one after the other. -/
def encodeAll : List StoredArgument → List UInt8
  | [] => []
  | e :: es => e.encode ++ encodeAll es

end

mutual

/-- The levels that an argument nests. -/
def levels : StoredArgument → Nat
  | scalar _ | enum _ | noVector => 1
  | vector es => levelsOfAll es + 1
  | boxed _ v => v.levels + 1

/-- The most levels that one of some arguments nests. -/
def levelsOfAll : List StoredArgument → Nat
  | [] => 0
  | e :: es => max e.levels (levelsOfAll es)

end

end StoredArgument

/-- The stored form of the fixed arguments of an attribute. -/
def Attribute.encode (arguments : List StoredArgument) : List UInt8 :=
  Bytes.toLE 2 prologMark ++ StoredArgument.encodeAll arguments

end MethodAtlas
