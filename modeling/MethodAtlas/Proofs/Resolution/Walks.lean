import MethodAtlas.Resolution.Declaring
import MethodAtlas.Proofs.Resolution.Markers

/-!
# Whole searches in step

The walk to the declaring type and the search for a generated type are in step with themselves from
any two stores: what they ask for next, and what they answer, is a matter of the answers alone, and
of a failed request they use only whether a file is missing.
-/
namespace MethodAtlas

theorem LocatedModule.Matched.inspect {A : Accord} {l l' : LocatedModule} (h : l.Matched A l')
    (sought : Declaring.Sought) (config : Config) (reported : Bool) (candidate : Option Target)
    (rid : Nat) :
    Declaring.inspect sought config reported candidate l rid =
      Declaring.inspect sought config reported candidate l' rid := by
  rw [Declaring.inspect, Declaring.inspect, h.module.needRow (by decide)]
  simp only [Declaring.recordPassedOver, h.module.publicMethodsNamed, h.module.typeFullName, h.path]

namespace Query.InStep
variable {A : Accord} {disk disk' : Disk} {config : Config} {l l' : LocatedModule}

/-- The type that a handle is resolved to is found in step. -/
theorem declaringBaseOf (hclosed : A.Closed config.extensions) (hl : l.Matched A l')
    (base : TypeHandle) :
    InStep A disk disk' (Option.Rel fun c c' => c.1.Matched A c'.1 ∧ c.2 = c'.2)
      (Declaring.baseOf disk config l base) (Declaring.baseOf disk' config l' base) := by
  refine (resolveBeside hclosed hl base).attempt.bind ?_
  intro r r' hr
  cases hr with
  | error _ => exact .pure .none
  | ok hresolution =>
    cases hresolution with
    | nil => exact .pure .none
    | failed why => exact .pure .none
    | found htype => exact .pure (.some (htype.place hl))

theorem walk (hclosed : A.Closed config.extensions) (sought : Declaring.Sought) (left : Nat)
    (reported : Bool) (candidate : Option Target) (hl : l.Matched A l') (rid : Nat) :
    InStep A disk disk' Eq (Declaring.walk sought disk config left reported candidate l rid)
      (Declaring.walk sought disk' config left reported candidate l' rid) := by
  induction left generalizing reported candidate l l' rid with
  | zero => exact .pure rfl
  | succ left ih =>
    rw [Declaring.walk, Declaring.walk, hl.inspect]
    refine (ofExcept_refl _).bind ?_
    rintro finding _ rfl
    cases finding with
    | answer target => exact .pure rfl
    | goOn base candidate =>
      refine (declaringBaseOf hclosed hl base).bind ?_
      intro c c' hc
      cases hc with
      | none => exact .pure rfl
      | @some c c' hc =>
        obtain ⟨next, rid⟩ := c
        obtain ⟨next', rid'⟩ := c'
        obtain ⟨hnext, rfl⟩ := hc
        exact ih false candidate hnext rid

theorem findDeclaringType (hclosed : A.Closed config.extensions) {origin : String}
    (horigin : A.asked origin) (typeName methodName : String) :
    InStep A disk disk' Eq
      (MethodAtlas.findDeclaringType disk config origin typeName methodName)
      (MethodAtlas.findDeclaringType disk' config origin typeName methodName) := by
  refine (module horigin).bind ?_
  intro opened opened' halike
  rw [(A.same halike).findFull]
  refine (ofExcept_refl _).bind ?_
  rintro found _ rfl
  cases found with
  | none => exact .pure rfl
  | some rid =>
    have hl : (⟨origin, opened⟩ : LocatedModule).Matched A ⟨origin, opened'⟩ :=
      ⟨rfl, horigin, halike⟩
    exact walk hclosed _ _ true none hl rid

theorem onlyGenerated (hclosed : A.Closed config.extensions) (hl : l.Matched A l')
    (found : Option String) (attributes : List CustomAttribute) :
    InStep A disk disk' Eq (StateMachine.onlyGenerated disk config l found attributes)
      (StateMachine.onlyGenerated disk' config l' found attributes) := by
  induction attributes generalizing found with
  | nil => exact .pure rfl
  | cons a rest ih =>
    refine (generatedBy hclosed hl a).bind ?_
    rintro generated _ rfl
    cases generated with
    | none => exact ih found
    | some generated =>
      dsimp only
      split
      · exact .pure rfl
      · exact ih (some generated)

/-- The search for a generated type is in step if the attributes of the origin are the same. -/
theorem findStateMachine (hclosed : A.Closed config.extensions) {origin : String}
    (horigin : A.asked origin)
    (hattributes : ∀ m m', A.alike origin m m' →
      StateMachine.attributesOf m.module = StateMachine.attributesOf m'.module)
    (typeName methodName : String) :
    InStep A disk disk' Eq
      (MethodAtlas.findStateMachine disk config origin typeName methodName)
      (MethodAtlas.findStateMachine disk' config origin typeName methodName) := by
  refine (module horigin).bind ?_
  intro opened opened' halike
  have hl : (⟨origin, opened⟩ : LocatedModule).Matched A ⟨origin, opened'⟩ :=
    ⟨rfl, horigin, halike⟩
  rw [(A.same halike).findFull]
  refine (ofExcept_refl _).bind ?_
  rintro found _ rfl
  cases found with
  | none => exact .pure rfl
  | some rid =>
    simp only [(A.same halike).onlyMethod, hattributes _ _ halike]
    refine (ofExcept_refl _).bind ?_
    rintro method _ rfl
    cases method with
    | none => exact .pure rfl
    | some method =>
      refine (onlyGenerated hclosed hl none _).bind ?_
      rintro generated _ rfl
      exact .pure rfl

end Query.InStep
end MethodAtlas
