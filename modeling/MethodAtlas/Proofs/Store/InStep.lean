import MethodAtlas.Proofs.Module.Attributes
import MethodAtlas.Proofs.Query

/-!
# Queries in step

Two queries are in step if they ask for the same paths, one after the other, as long as they are
answered alike, and then end alike. Queries in step are put together from queries in step. What
two runs of them have in common follows from what one request keeps: `InStep.simulate`.
-/
namespace MethodAtlas

/-- Which paths can be asked for, and which two modules are alike as answers. Alike modules say the
same in all but their attributes. -/
structure Accord where
  asked : String → Prop
  alike : String → OpenModule → OpenModule → Prop
  same : ∀ {path : String} {m m' : OpenModule}, alike path m m' →
    m.module.SameButAttributes m'.module

namespace Accord

/-- All paths can be asked for, and answers are alike if they are the same module, whenever it was
opened. -/
def sameModules : Accord where
  asked _ := True
  alike _ m m' := m.module = m'.module
  same h := h ▸ .refl _

theorem agree_refl (path : String) (r : Except Fault OpenModule) :
    Outcome.Agree (sameModules.alike path) r r :=
  .refl (fun m => (rfl : m.module = m.module)) r

end Accord

namespace Query
variable {A : Accord} {disk disk' : Disk} {α β γ δ : Type}

/-- Two queries ask for the same paths as long as they are answered alike, and answer outcomes that
belong together. -/
inductive InStep (A : Accord) (disk disk' : Disk) (R : α → β → Prop) : Query α → Query β → Prop
  | answer {r : Except Fault α} {r' : Except Fault β} (h : Outcome.Agree R r r') :
      InStep A disk disk' R (ofExcept r) (ofExcept r')
  | ask {path : String} (hpath : A.asked path) {next : Except Fault OpenModule → Query α}
      {next' : Except Fault OpenModule → Query β}
      (h : ∀ r r', Outcome.Agree (A.alike path) r r' → InStep A disk disk' R (next r) (next' r')) :
      InStep A disk disk' R ((module disk path).attempt >>= next)
        ((module disk' path).attempt >>= next')

/-- A query that asks for a path goes on with the outcome of the request. -/
theorem exec_ask (path : String) (next : Except Fault OpenModule → Query α) (s : ModuleStore) :
    exec ((module disk path).attempt >>= next) s =
      exec (next (s.request disk path).1) (s.request disk path).2 := rfl

namespace InStep
variable {R : α → β → Prop} {S : γ → δ → Prop} {q : Query α} {q' : Query β}

theorem ofExcept_refl (r : Except Fault α) :
    InStep A disk disk' Eq (ofExcept r) (ofExcept r) :=
  .answer (.refl (fun _ => rfl) r)

theorem pure {a : α} {b : β} (h : R a b) :
    InStep A disk disk' R (Pure.pure a) (Pure.pure b) :=
  .answer (.ok h)

theorem bind {f : α → Query γ} {f' : β → Query δ} (h : InStep A disk disk' R q q')
    (hf : ∀ a b, R a b → InStep A disk disk' S (f a) (f' b)) :
    InStep A disk disk' S (q >>= f) (q' >>= f') := by
  induction h with
  | answer h =>
    cases h with
    | ok hab => exact hf _ _ hab
    | error hkind => exact .answer (.error hkind)
  | ask hpath _ ih =>
    rw [bind_assoc, bind_assoc]
    exact .ask hpath ih

theorem attempt (h : InStep A disk disk' R q q') :
    InStep A disk disk' (Outcome.Agree R) q.attempt q'.attempt := by
  induction h with
  | answer h => exact .answer (.ok h)
  | ask hpath _ ih => exact .ask hpath ih

theorem module {path : String} (hpath : A.asked path) :
    InStep A disk disk' (A.alike path) (Query.module disk path) (Query.module disk' path) := by
  have hask : ∀ disk : Disk,
      Query.module disk path = (Query.module disk path).attempt >>= Query.ofExcept :=
    fun _ => ext_exec fun _ => rfl
  rw [hask disk, hask disk']
  exact .ask hpath fun _ _ h => .answer h

/-- What two stores have in common after each request, they have in common after queries in step,
which then end alike. -/
theorem simulate {I : ModuleStore → ModuleStore → Prop}
    (hI : ∀ path, A.asked path → ∀ s s', I s s' →
      Outcome.Agree (A.alike path) (s.request disk path).1 (s'.request disk' path).1 ∧
        I (s.request disk path).2 (s'.request disk' path).2)
    (h : InStep A disk disk' R q q') {s s' : ModuleStore} (hs : I s s') :
    Outcome.Agree R (exec q s).1 (exec q' s').1 ∧ I (exec q s).2 (exec q' s').2 := by
  induction h generalizing s s' with
  | answer h => exact ⟨h, hs⟩
  | @ask path hpath next next' _ ih =>
    obtain ⟨hagree, hnext⟩ := hI path hpath s s' hs
    rw [exec_ask, exec_ask]
    exact ih _ _ hagree hnext

end InStep
end Query
end MethodAtlas
