import MethodAtlas.Store
import MethodAtlas.Proofs.Outcome

/-!
# Runs of queries

A query is run on a store, or on any other state, and leaves an outcome and the state after it. The
laws here open a run step by step; a run that has a value had one at each step.
-/
namespace MethodAtlas.Query
variable {σ α β : Type}

/-- The outcome of a run from a state, and the state after it. -/
def exec (q : ExceptT Fault (StateM σ) α) (s : σ) : Except Fault α × σ := q.run.run s

theorem ext_exec {q q' : ExceptT Fault (StateM σ) α} (h : ∀ s, exec q s = exec q' s) : q = q' :=
  funext h

theorem exec_bind (q : ExceptT Fault (StateM σ) α) (f : α → ExceptT Fault (StateM σ) β) (s : σ) :
    exec (q >>= f) s =
      match exec q s with
      | (.ok a, mid) => exec (f a) mid
      | (.error e, mid) => (.error e, mid) := by
  change (match exec q s with
    | (r, mid) => StateT.run (ExceptT.bindCont f r) mid) = _
  rcases exec q s with ⟨_ | _, _⟩ <;> rfl

theorem exec_bind_of_ok {q : ExceptT Fault (StateM σ) α} {f : α → ExceptT Fault (StateM σ) β}
    {s mid : σ} {a : α} (h : exec q s = (.ok a, mid)) : exec (q >>= f) s = exec (f a) mid := by
  rw [exec_bind, h]

/-- A run in two parts has a value if both parts have. -/
theorem exec_bind_eq_ok {q : ExceptT Fault (StateM σ) α} {f : α → ExceptT Fault (StateM σ) β}
    {s s' : σ} {b : β} :
    exec (q >>= f) s = (.ok b, s') ↔
      ∃ a mid, exec q s = (.ok a, mid) ∧ exec (f a) mid = (.ok b, s') := by
  rw [exec_bind]
  rcases exec q s with ⟨e | a, mid⟩
  · simp
  · constructor
    · intro h
      exact ⟨a, mid, rfl, h⟩
    · rintro ⟨a', mid', hq, h⟩
      cases hq
      exact h

@[simp] theorem exec_pure (a : α) (s : σ) :
    exec (pure a : ExceptT Fault (StateM σ) α) s = (.ok a, s) := rfl

@[simp] theorem exec_mk_pure (r : Except Fault α) (s : σ) :
    exec (ExceptT.mk (pure r) : ExceptT Fault (StateM σ) α) s = (r, s) := rfl

@[simp] theorem exec_ofExcept (r : Except Fault α) (s : ModuleStore) :
    exec (ofExcept r) s = (r, s) := rfl

@[simp] theorem exec_attempt (q : Query α) (s : ModuleStore) :
    exec q.attempt s = (.ok (exec q s).1, (exec q s).2) := rfl

@[simp] theorem exec_module (disk : Disk) (path : String) (s : ModuleStore) :
    exec (module disk path) s = ModuleStore.request disk path s := rfl

end MethodAtlas.Query
