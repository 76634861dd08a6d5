import MethodAtlas.Resolution.StateMachine
import MethodAtlas.Proofs.Resolution.Alike

/-!
# Attributes that mark a method

Whether an attribute marks its method, and which generated type it names, is found out in step in
alike modules. So it is the same whenever the attribute is looked at: `Query.Related.generatedBy`
compares two looks, at modules that a view shows at one path, from any stores that fit the view.
-/
namespace MethodAtlas

namespace StateMachine

/-- The only public method of a name of the type of a name. -/
def reportedMethod (m : Module) (typeName methodName : String) : Except Fault (Option Nat) := do
  match ← m.findFull typeName with
  | none => pure none
  | some rid => onlyMethod m rid methodName

end StateMachine

open StateMachine

namespace Module.SameButAttributes
variable {m m' : Module} (h : m.SameButAttributes m')
include h

theorem constructorOf (i : CodedIndex) :
    StateMachine.constructorOf m i = StateMachine.constructorOf m' i := by
  rw [StateMachine.constructorOf, StateMachine.constructorOf]
  simp only [h.needRow (α := MethodDefinition) (by decide),
    h.needRow (α := MemberReference) (by decide), h.methodOwner?]

theorem tokenName (t : Token) : StateMachine.tokenName m t = StateMachine.tokenName m' t := by
  rw [StateMachine.tokenName, StateMachine.tokenName, h.referenceFullName, h.typeFullName]

theorem classify (t : SignatureType) : StateMachine.classify m t = StateMachine.classify m' t := by
  cases t <;> simp only [StateMachine.classify, h.tokenName]

theorem argumentTypes (c : Constructor) :
    StateMachine.argumentTypes m c = StateMachine.argumentTypes m' c := by
  have hclassify : StateMachine.classify m = StateMachine.classify m' := funext h.classify
  rw [StateMachine.argumentTypes, StateMachine.argumentTypes, h.blob, hclassify]

theorem namedPlace (types : List ArgumentType) (parameters : List (Row Parameter)) :
    StateMachine.namedPlace m types parameters = StateMachine.namedPlace m' types parameters := by
  induction parameters with
  | nil => rfl
  | cons p rest ih => rw [StateMachine.namedPlace, StateMachine.namedPlace, h.string, ih]

theorem typePlace (c : Constructor) (types : List ArgumentType) :
    StateMachine.typePlace m c types = StateMachine.typePlace m' c types := by
  have hparameters : m.parameters = m'.parameters := funext h.parameters
  rw [StateMachine.typePlace, StateMachine.typePlace, hparameters]
  simp only [h.namedPlace]

theorem generatedType (c : Constructor) (value : Nat) :
    StateMachine.generatedType m c value = StateMachine.generatedType m' c value := by
  rw [StateMachine.generatedType, StateMachine.generatedType, h.argumentTypes]
  simp only [h.typePlace, h.blob]

theorem handleName (handle : TypeHandle) :
    StateMachine.handleName m handle = StateMachine.handleName m' handle := by
  cases handle <;> simp only [StateMachine.handleName, h.typeFullName, h.referenceFullName]

theorem onlyMethod (rid : Nat) (name : String) :
    StateMachine.onlyMethod m rid name = StateMachine.onlyMethod m' rid name := by
  rw [StateMachine.onlyMethod, StateMachine.onlyMethod, h.needRow (by decide)]
  simp only [h.publicMethodsNamed]

theorem reportedMethod (typeName methodName : String) :
    StateMachine.reportedMethod m typeName methodName =
      StateMachine.reportedMethod m' typeName methodName := by
  rw [StateMachine.reportedMethod, StateMachine.reportedMethod, h.findFull]
  simp only [h.onlyMethod]

end Module.SameButAttributes

namespace Query
variable {A : Accord} {disk disk' : Disk} {config : Config} {l l' : LocatedModule}

namespace InStep

theorem baseOf (hclosed : A.Closed config.extensions) (hl : l.Matched A l')
    (handle : TypeHandle) :
    InStep A disk disk' (Option.Rel fun b b' => b.1.Matched A b'.1 ∧ b.2 = b'.2)
      (StateMachine.baseOf disk config l handle) (StateMachine.baseOf disk' config l' handle) := by
  refine (resolveBeside hclosed hl handle).attempt.bind ?_
  intro r r' hr
  cases hr with
  | error _ => exact .pure .none
  | ok hresolution =>
    cases hresolution with
    | nil => exact .pure .none
    | failed why => exact .pure .none
    | @found type type' htype =>
      obtain ⟨hnext, hrid⟩ := htype.place hl
      simp only [hrid, hnext.module.needRow (α := TypeDefinition) (by decide)]
      refine (ofExcept_refl _).bind ?_
      rintro row _ rfl
      exact .pure (.some ⟨hnext, rfl⟩)

/-- Whether a type is a marker is found out in step. -/
theorem isMarker (hclosed : A.Closed config.extensions) (left : Nat) (hl : l.Matched A l')
    (handle : TypeHandle) :
    InStep A disk disk' Eq (StateMachine.isMarker disk config left l handle)
      (StateMachine.isMarker disk' config left l' handle) := by
  induction left generalizing l l' handle with
  | zero => exact .pure rfl
  | succ left ih =>
    rw [StateMachine.isMarker, StateMachine.isMarker, hl.module.handleName]
    refine (ofExcept_refl _).bind ?_
    rintro name _ rfl
    cases name with
    | none => exact .pure rfl
    | some name =>
      dsimp only
      split
      · exact .pure rfl
      · refine (baseOf hclosed hl handle).bind ?_
        intro b b' hb
        cases hb with
        | none => exact .pure rfl
        | @some b b' hb =>
          obtain ⟨next, base⟩ := b
          obtain ⟨next', base'⟩ := b'
          obtain ⟨hnext, rfl⟩ := hb
          exact ih hnext base

/-- What an attribute names is found out in step. -/
theorem generatedBy (hclosed : A.Closed config.extensions) (hl : l.Matched A l')
    (a : CustomAttribute) :
    InStep A disk disk' Eq (StateMachine.generatedBy disk config l a)
      (StateMachine.generatedBy disk' config l' a) := by
  rw [StateMachine.generatedBy, StateMachine.generatedBy, hl.module.constructorOf]
  refine (ofExcept_refl _).bind ?_
  rintro c _ rfl
  cases c with
  | none => exact .pure rfl
  | some c =>
    refine (isMarker hclosed _ hl c.type).bind ?_
    rintro marker _ rfl
    cases marker with
    | false => exact .pure rfl
    | true =>
      simp only [hl.module.generatedType]
      exact ofExcept_refl _

end InStep

/-- What an attribute names does not depend on what was asked before. -/
theorem Related.generatedBy {read read' : String → Except Fault Image} {v : View}
    (hv : v.Coherent) (hclosed : v.Closed config.extensions) (hl : l.Alike v l')
    (a : CustomAttribute) :
    Related read read' v Eq (StateMachine.generatedBy (.constant read) config l a)
      (StateMachine.generatedBy (.constant read') config l' a) :=
  (InStep.generatedBy hclosed.accord hl.matched a).related hv

end Query

end MethodAtlas
