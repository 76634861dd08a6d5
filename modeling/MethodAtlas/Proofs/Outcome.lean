import MethodAtlas.Fault

/-!
# Outcomes

A sequence of outcomes has a value only if each of them has. Two outcomes agree if both have values
that belong together, or both are faults that say alike whether a file is missing: that is all of
a fault that a store keeps.
-/
namespace MethodAtlas.Outcome
variable {α β γ δ : Type}

theorem bind_eq_ok {r : Except Fault α} {f : α → Except Fault β} {b : β} :
    (r >>= f) = .ok b ↔ ∃ a, r = .ok a ∧ f a = .ok b := by
  cases r with
  | error e => simp [bind, Except.bind]
  | ok a => simp [bind, Except.bind]

@[simp] theorem ok_bind (a : α) (f : α → Except Fault β) : (.ok a >>= f) = f a := rfl

@[simp] theorem error_bind (e : Fault) (f : α → Except Fault β) :
    ((.error e : Except Fault α) >>= f) = .error e := rfl

theorem exists_of_isOk {r : Except Fault α} (h : r.isOk) : ∃ a, r = .ok a := by
  cases r with
  | error e => cases h
  | ok a => exact ⟨a, rfl⟩

theorem isOk_of_map {r : Except Fault α} {f : α → β} {b : β} (h : r.map f = .ok b) : r.isOk := by
  cases r with
  | error e => cases h
  | ok a => rfl

/-- Values that belong together, or faults that say alike whether a file is missing. -/
inductive Agree (R : α → β → Prop) : Except Fault α → Except Fault β → Prop
  | ok {a : α} {b : β} (h : R a b) : Agree R (.ok a) (.ok b)
  | error {e e' : Fault} (h : e.isNotFound = e'.isNotFound) : Agree R (.error e) (.error e')

namespace Agree

theorem refl {R : α → α → Prop} (h : ∀ a, R a a) (r : Except Fault α) : Agree R r r := by
  cases r with
  | error e => exact .error rfl
  | ok a => exact .ok (h a)

theorem bind {R : α → β → Prop} {S : γ → δ → Prop} {r : Except Fault α} {r' : Except Fault β}
    {f : α → Except Fault γ} {f' : β → Except Fault δ} (h : Agree R r r')
    (hf : ∀ a b, R a b → Agree S (f a) (f' b)) : Agree S (r >>= f) (r' >>= f') := by
  cases h with
  | error h => exact .error h
  | ok h => exact hf _ _ h

theorem trans {R : α → β → Prop} {S : β → γ → Prop} {T : α → γ → Prop} {r : Except Fault α}
    {r' : Except Fault β} {r'' : Except Fault γ} (h : Agree R r r') (h' : Agree S r' r'')
    (hT : ∀ a b c, R a b → S b c → T a c) : Agree T r r'' := by
  cases h with
  | error h =>
    obtain _ | h' := h'
    exact .error (h.trans h')
  | ok h =>
    obtain h' | _ := h'
    exact .ok (hT _ _ _ h h')

theorem mono {R S : α → β → Prop} {r : Except Fault α} {r' : Except Fault β} (h : Agree R r r')
    (hRS : ∀ a b, R a b → S a b) : Agree S r r' := by
  cases h with
  | error h => exact .error h
  | ok h => exact .ok (hRS _ _ h)

theorem map_left_iff {R : γ → β → Prop} {f : α → γ} {r : Except Fault α} {r' : Except Fault β} :
    Agree R (r.map f) r' ↔ Agree (fun a b => R (f a) b) r r' := by
  cases r with
  | error e =>
    constructor <;>
    · rintro ⟨⟩
      exact .error ‹_›
  | ok a =>
    constructor <;>
    · rintro ⟨⟩
      exact .ok ‹_›

/-- Outcomes that agree with one outcome agree through its value. -/
theorem meet {R : α → γ → Prop} {S : β → γ → Prop} {r : Except Fault α} {r' : Except Fault β}
    {shared : Except Fault γ} (h : Agree R r shared) (h' : Agree S r' shared) :
    Agree (fun a b => ∃ c, shared = .ok c ∧ R a c ∧ S b c) r r' := by
  cases h with
  | error h =>
    obtain _ | h' := h'
    exact .error (h.trans h'.symm)
  | ok h =>
    obtain h' | _ := h'
    exact .ok ⟨_, rfl, h, h'⟩

theorem toOption_eq {r r' : Except Fault α} (h : Agree Eq r r') : r.toOption = r'.toOption := by
  cases h with
  | error _ => rfl
  | ok h => rw [h]

/-- A value on one side is the same value on the other, where values agree by being equal. -/
theorem ok_iff {r r' : Except Fault α} (h : Agree Eq r r') (a : α) : r = .ok a ↔ r' = .ok a := by
  cases h with
  | error h => simp
  | ok h => simp [h]

end Agree
end MethodAtlas.Outcome
