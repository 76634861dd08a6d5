import MethodAtlas.Bytes.Compressed
import MethodAtlas.Signature.Basic

/-!
# Stored signatures

A signature as ECMA-335 II.23.2 stores it, with what reading leaves out: the bounds of arrays, the
modifiers inside pointers and vectors, and the parameters behind a sentinel. A call can pass more
arguments than the method that is called declares. Its signature counts all of them and lists the
extra ones behind a sentinel, and a pointer to a function can have a signature of that kind, so that
it stands in the middle of another one.

`Signature.encode` lays a stored signature out, and `Signature.erase` says what is to be read back
of it: everything up to the sentinel. `Signature.Storable` says which signatures have a stored form,
`Signature.levels` how deep the types that are to be read back nest, and `Signature.Settled` where
extra parameters may stand.
-/
namespace MethodAtlas

/-- A note on a type that a reader has to know or can pass over. -/
structure TypeModifier where
  required : Bool
  token : Token
deriving DecidableEq, Repr

/-- A parameter, or the returned value, as it is stored, with types written as `τ`. -/
structure StoredParameterOf (τ : Type) where
  modifiers : List TypeModifier
  byReference : Bool
  type : τ

/-- The signature of a method as it is stored, with types written as `τ`. -/
structure StoredSignatureOf (τ : Type) where
  /-- The byte that tells how the method is called. -/
  convention : UInt8
  /-- The number of type parameters, which is stored only if the convention says so. -/
  genericCount : Nat
  returns : StoredParameterOf τ
  parameters : List (StoredParameterOf τ)
  /-- The parameters behind the sentinel; without any there is no sentinel. -/
  extra : List (StoredParameterOf τ)

/-- A type as it is stored. -/
inductive StoredType
  | primitive (type : PrimitiveType)
  | pointer (modifiers : List TypeModifier) (target : StoredType)
  | byReference (target : StoredType)
  | valueType (token : Token)
  | classType (token : Token)
  | typeVariable (number : Nat)
  | array (element : StoredType) (rank : Nat) (sizes lowerBounds : List Nat)
  | genericInstance (base : StoredType) (arguments : List StoredType)
  | functionPointer (signature : StoredSignatureOf StoredType)
  | vector (modifiers : List TypeModifier) (element : StoredType)
  | methodVariable (number : Nat)
  | pinned (target : StoredType)

/-- A parameter as it is stored. -/
abbrev StoredParameter := StoredParameterOf StoredType

/-- The signature of a method as it is stored. -/
abbrev StoredSignature := StoredSignatureOf StoredType

namespace TypeModifier

/-- The stored form of a modifier. -/
def encode (m : TypeModifier) : List UInt8 :=
  (if m.required then Signature.requiredModifier else Signature.optionalModifier) ::
    Compressed.token m.token

/-- The stored form of modifiers one after the other. -/
def encodeAll (ms : List TypeModifier) : List UInt8 := ms.flatMap encode

@[simp] theorem encodeAll_cons (m : TypeModifier) (ms : List TypeModifier) :
    encodeAll (m :: ms) = m.encode ++ encodeAll ms := rfl

@[simp] theorem length_encode (m : TypeModifier) :
    m.encode.length = (Compressed.token m.token).length + 1 := rfl

end TypeModifier

namespace Signature

/-- The stored form of numbers behind their count. -/
def numbers (ns : List Nat) : List UInt8 :=
  Compressed.number ns.length ++ ns.flatMap Compressed.number

mutual

/-- What is to be read back of a type. -/
def eraseType : StoredType → SignatureType
  | .primitive t => .primitive t
  | .pointer _ t => .pointer (eraseType t)
  | .byReference t => .byReference (eraseType t)
  | .valueType t => .valueType t
  | .classType t => .classType t
  | .typeVariable n => .typeVariable n
  | .array t rank _ _ => .array (eraseType t) rank
  | .genericInstance base ts => .genericInstance (eraseType base) (eraseTypes ts)
  | .functionPointer s => .functionPointer (erase s)
  | .vector _ t => .vector (eraseType t)
  | .methodVariable n => .methodVariable n
  | .pinned t => .pinned (eraseType t)

/-- What is to be read back of types one after the other. -/
def eraseTypes : List StoredType → List SignatureType
  | [] => []
  | t :: ts => eraseType t :: eraseTypes ts

/-- What is to be read back of a parameter. -/
def eraseParameter : StoredParameter → SignatureParameter SignatureType
  | ⟨modifiers, byReference, t⟩ => ⟨modifiers.map (·.token), byReference, eraseType t⟩

/-- What is to be read back of parameters one after the other. -/
def eraseParameters : List StoredParameter → List (SignatureParameter SignatureType)
  | [] => []
  | p :: ps => eraseParameter p :: eraseParameters ps

/-- What is to be read back of a signature: all but the extra parameters, which are counted. -/
def erase : StoredSignature → MethodSignature
  | ⟨convention, genericCount, returns, ps, extra⟩ => {
    hasThis := convention.toNat.testBit 5
    explicitThis := convention.toNat.testBit 6
    vararg := convention.toNat % 16 == 5
    genericCount := if convention.toNat.testBit 4 then genericCount else 0
    parameterCount := ps.length + extra.length
    returns := eraseParameter returns
    parameters := eraseParameters ps }

end

mutual

/-- The stored form of a type. -/
def encodeType : StoredType → List UInt8
  | .primitive t => [TypeForm.code (.primitive t)]
  | .pointer ms t => TypeForm.pointer.code :: (TypeModifier.encodeAll ms ++ encodeType t)
  | .byReference t => TypeForm.byReference.code :: encodeType t
  | .valueType t => TypeForm.valueType.code :: Compressed.token t
  | .classType t => TypeForm.classType.code :: Compressed.token t
  | .typeVariable n => TypeForm.typeVariable.code :: Compressed.number n
  | .array t rank sizes lowerBounds =>
    TypeForm.array.code ::
      (encodeType t ++ (Compressed.number rank ++ (numbers sizes ++ numbers lowerBounds)))
  | .genericInstance base ts =>
    TypeForm.genericInstance.code ::
      (encodeType base ++ Compressed.number ts.length ++ encodeTypes ts)
  | .functionPointer s => TypeForm.functionPointer.code :: encode s
  | .vector ms t => TypeForm.vector.code :: (TypeModifier.encodeAll ms ++ encodeType t)
  | .methodVariable n => TypeForm.methodVariable.code :: Compressed.number n
  | .pinned t => TypeForm.pinned.code :: encodeType t

/-- The stored form of types one after the other. -/
def encodeTypes : List StoredType → List UInt8
  | [] => []
  | t :: ts => encodeType t ++ encodeTypes ts

/-- The stored form of a parameter. -/
def encodeParameter : StoredParameter → List UInt8
  | ⟨ms, byReference, t⟩ =>
    TypeModifier.encodeAll ms ++ (if byReference then [TypeForm.byReference.code] else [])
      ++ encodeType t

/-- The stored form of parameters one after the other. -/
def encodeParameters : List StoredParameter → List UInt8
  | [] => []
  | p :: ps => encodeParameter p ++ encodeParameters ps

/-- The stored form of extra parameters. -/
def encodeExtra : List StoredParameter → List UInt8
  | [] => []
  | p :: ps => sentinel :: (encodeParameter p ++ encodeParameters ps)

/-- The stored form of a signature. -/
def encode : StoredSignature → List UInt8
  | ⟨convention, genericCount, returns, ps, extra⟩ =>
    convention :: ((if convention.toNat.testBit 4 then Compressed.number genericCount else [])
      ++ Compressed.number (ps.length + extra.length)
      ++ (encodeParameter returns ++ (encodeParameters ps ++ encodeExtra extra)))

end

mutual

/-- The levels that what is to be read back of a type nests. -/
def levelsOfType : StoredType → Nat
  | .primitive _ | .valueType _ | .classType _ | .typeVariable _ | .methodVariable _ => 1
  | .pointer _ t | .byReference t | .array t _ _ _ | .vector _ t | .pinned t => levelsOfType t + 1
  | .genericInstance base ts => max (levelsOfType base) (levelsOfTypes ts) + 1
  | .functionPointer s => levels s + 1

/-- The most levels that one of some types nests. -/
def levelsOfTypes : List StoredType → Nat
  | [] => 0
  | t :: ts => max (levelsOfType t) (levelsOfTypes ts)

/-- The levels that the type of a parameter nests. -/
def levelsOfParameter : StoredParameter → Nat
  | ⟨_, _, t⟩ => levelsOfType t

/-- The most levels that the type of one of some parameters nests. -/
def levelsOfParameters : List StoredParameter → Nat
  | [] => 0
  | p :: ps => max (levelsOfParameter p) (levelsOfParameters ps)

/-- The most levels that a type of a signature nests, up to the sentinel. -/
def levels : StoredSignature → Nat
  | ⟨_, _, returns, ps, _⟩ => max (levelsOfParameter returns) (levelsOfParameters ps)

end

mutual

/-- Whether a function that a type points to takes extra parameters. -/
def isVariadicType : StoredType → Bool
  | .primitive _ | .valueType _ | .classType _ | .typeVariable _ | .methodVariable _ => false
  | .pointer _ t | .byReference t | .array t _ _ _ | .vector _ t | .pinned t => isVariadicType t
  | .genericInstance _ ts => anyVariadicType ts
  | .functionPointer s => isVariadic s

/-- Whether a function that one of some types points to takes extra parameters. -/
def anyVariadicType : List StoredType → Bool
  | [] => false
  | t :: ts => isVariadicType t || anyVariadicType ts

/-- Whether a function that a parameter points to takes extra parameters. -/
def isVariadicParameter : StoredParameter → Bool
  | ⟨_, _, t⟩ => isVariadicType t

/-- Whether a function that one of some parameters points to takes extra parameters. -/
def anyVariadicParameter : List StoredParameter → Bool
  | [] => false
  | p :: ps => isVariadicParameter p || anyVariadicParameter ps

/-- Whether a signature has extra parameters, or a function that it points to takes some. -/
def isVariadic : StoredSignature → Bool
  | ⟨_, _, returns, ps, extra⟩ =>
    isVariadicParameter returns || (anyVariadicParameter ps || !extra.isEmpty)

end

end Signature

/-- The form of a type, which the first byte of its encoding tells. -/
def StoredType.form : StoredType → TypeForm
  | .primitive t => .primitive t
  | .pointer .. => .pointer
  | .byReference _ => .byReference
  | .valueType _ => .valueType
  | .classType _ => .classType
  | .typeVariable _ => .typeVariable
  | .array .. => .array
  | .genericInstance .. => .genericInstance
  | .functionPointer _ => .functionPointer
  | .vector .. => .vector
  | .methodVariable _ => .methodVariable
  | .pinned _ => .pinned

namespace Signature

/-- Numbers that can be stored behind their count. -/
structure StorableNumbers (ns : List Nat) : Prop where
  count : ns.length < 0x20000000
  each : ∀ n ∈ ns, n < 0x20000000

/-- Parameters with a stored form, up to that of their type. A type that is itself a reference
would be taken for the mark of a reference if that mark did not stand in front of it. -/
structure StorableParameter (p : StoredParameter) : Prop where
  modifiers : ∀ m ∈ p.modifiers, m.token.IsCompressible
  marked : p.type.form = .byReference → p.byReference = true

/-- Signatures with a stored form, up to that of their types. Nothing is asked of the extra
parameters. -/
structure StorableHead (s : StoredSignature) : Prop where
  genericCount : s.convention.toNat.testBit 4 = true → s.genericCount < 0x20000000
  parameterCount : s.parameters.length + s.extra.length < 0x20000000
  parameters : ∀ p ∈ s.returns :: s.parameters, StorableParameter p

/-- Types with a stored form, in which an array whose elements point to a function with extra
parameters has none of the excluded numbers of dimensions. -/
inductive StorableType (excluded : List Nat) : StoredType → Prop
  | primitive (t : PrimitiveType) : StorableType excluded (.primitive t)
  | pointer {ms : List TypeModifier} {t : StoredType} (hms : ∀ m ∈ ms, m.token.IsCompressible)
    (ht : StorableType excluded t) : StorableType excluded (.pointer ms t)
  | byReference {t : StoredType} (ht : StorableType excluded t) :
    StorableType excluded (.byReference t)
  | valueType {token : Token} (htoken : token.IsCompressible) :
    StorableType excluded (.valueType token)
  | classType {token : Token} (htoken : token.IsCompressible) :
    StorableType excluded (.classType token)
  | typeVariable {n : Nat} (hn : n < 0x20000000) : StorableType excluded (.typeVariable n)
  | array {t : StoredType} {rank : Nat} {sizes lowerBounds : List Nat}
    (ht : StorableType excluded t) (hrank : rank < 0x20000000)
    (hexcluded : isVariadicType t = true → rank ∉ excluded)
    (hsizes : StorableNumbers sizes) (hlowerBounds : StorableNumbers lowerBounds) :
    StorableType excluded (.array t rank sizes lowerBounds)
  | genericInstance {base : StoredType} {ts : List StoredType}
    (hform : base.form = .classType ∨ base.form = .valueType) (hbase : StorableType excluded base)
    (hcount : ts.length < 0x20000000) (hts : ∀ t ∈ ts, StorableType excluded t) :
    StorableType excluded (.genericInstance base ts)
  | functionPointer {s : StoredSignature} (hs : StorableHead s)
    (htypes : ∀ p ∈ s.returns :: s.parameters, StorableType excluded p.type) :
    StorableType excluded (.functionPointer s)
  | vector {ms : List TypeModifier} {t : StoredType} (hms : ∀ m ∈ ms, m.token.IsCompressible)
    (ht : StorableType excluded t) : StorableType excluded (.vector ms t)
  | methodVariable {n : Nat} (hn : n < 0x20000000) : StorableType excluded (.methodVariable n)
  | pinned {t : StoredType} (ht : StorableType excluded t) : StorableType excluded (.pinned t)

/-- Signatures with a stored form, in which an array whose elements point to a function with extra
parameters has none of the excluded numbers of dimensions. -/
structure Storable (excluded : List Nat) (s : StoredSignature) : Prop where
  head : StorableHead s
  types : ∀ p ∈ s.returns :: s.parameters, StorableType excluded p.type

/-- Types in which nothing that is to be read back stands behind extra parameters. -/
inductive SettledType : StoredType → Prop
  | primitive (t : PrimitiveType) : SettledType (.primitive t)
  | pointer {ms : List TypeModifier} {t : StoredType} (ht : SettledType t) :
    SettledType (.pointer ms t)
  | byReference {t : StoredType} (ht : SettledType t) : SettledType (.byReference t)
  | valueType (token : Token) : SettledType (.valueType token)
  | classType (token : Token) : SettledType (.classType token)
  | typeVariable (n : Nat) : SettledType (.typeVariable n)
  | array {t : StoredType} {rank : Nat} {sizes lowerBounds : List Nat} (ht : SettledType t)
    (hends : isVariadicType t = false) : SettledType (.array t rank sizes lowerBounds)
  | genericInstance {base : StoredType} {ts : List StoredType} (hts : ∀ t ∈ ts, SettledType t)
    (hends : ∀ t ∈ ts.dropLast, isVariadicType t = false) :
    SettledType (.genericInstance base ts)
  | functionPointer {s : StoredSignature}
    (hs : ∀ p ∈ s.returns :: s.parameters, SettledType p.type)
    (hends : ∀ p ∈ (s.returns :: s.parameters).dropLast, isVariadicType p.type = false) :
    SettledType (.functionPointer s)
  | vector {ms : List TypeModifier} {t : StoredType} (ht : SettledType t) :
    SettledType (.vector ms t)
  | methodVariable (n : Nat) : SettledType (.methodVariable n)
  | pinned {t : StoredType} (ht : SettledType t) : SettledType (.pinned t)

/-- Signatures in which nothing that is to be read back stands behind extra parameters of a function
that is pointed to: if there are any, it is the last parameter that points to that function. -/
structure Settled (s : StoredSignature) : Prop where
  types : ∀ p ∈ s.returns :: s.parameters, SettledType p.type
  ends : ∀ p ∈ (s.returns :: s.parameters).dropLast, isVariadicType p.type = false

end Signature
end MethodAtlas
