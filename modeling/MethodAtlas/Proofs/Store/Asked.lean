import MethodAtlas.Proofs.Store.Requests

/-!
# What a query asks for

The paths that a query asks a store for, in their order, whether the store has to open them or not.
After the query the store holds these besides what it held before: `Asks.contains_exec_iff`. A query
that is in step with itself asks only for paths that can be asked for, from every store that answers
these as the accord says: `InStep.asksOnly`.
-/
namespace MethodAtlas

/-- A request adds its own path to those that a store holds. -/
theorem ModuleStore.contains_request_iff {disk : Disk} {s : ModuleStore} {path other : String} :
    (s.request disk path).2.contains other = true ↔
      s.contains other = true ∨ PathKey.ofPath other = PathKey.ofPath path := by
  by_cases hkey : PathKey.ofPath other = PathKey.ofPath path
  · obtain ⟨entry, hentry, -⟩ := exists_find?_repeated disk s hkey
    simp [contains, hentry, hkey]
  · simp [contains, find?_request_of_ne hkey, hkey]

namespace Query
variable {disk : Disk} {α β : Type} {q : Query α} {f : α → Query β} {s : ModuleStore}
  {paths : List String}

/-- A query asks a store for these paths, one after the other. -/
inductive Asks (disk : Disk) : Query α → ModuleStore → List String → Prop
  | answer (r : Except Fault α) (s : ModuleStore) : Asks disk (ofExcept r) s []
  | ask {path : String} {next : Except Fault OpenModule → Query α} {s : ModuleStore}
      {paths : List String}
      (h : Asks disk (next (s.request disk path).1) (s.request disk path).2 paths) :
      Asks disk ((module disk path).attempt >>= next) s (path :: paths)

namespace Asks

theorem module (path : String) (s : ModuleStore) : Asks disk (module disk path) s [path] := by
  have hask : Query.module disk path = (Query.module disk path).attempt >>= Query.ofExcept :=
    ext_exec fun _ => rfl
  rw [hask]
  exact .ask (.answer _ _)

theorem attempt (h : Asks disk q s paths) : Asks disk q.attempt s paths := by
  induction h with
  | answer r s => exact .answer _ _
  | @ask path next s _ _ ih => exact @ask _ disk path (fun r => (next r).attempt) s _ ih

/-- A query in two parts, the first of which has a value, asks for what both parts ask for. -/
theorem bind {a : α} {mid : ModuleStore} {paths' : List String} (h : Asks disk q s paths)
    (hq : exec q s = (.ok a, mid)) (hf : Asks disk (f a) mid paths') :
    Asks disk (q >>= f) s (paths ++ paths') := by
  induction h with
  | answer r s =>
    cases hq
    exact hf
  | ask _ ih =>
    rw [bind_assoc]
    exact .ask (ih hq)

/-- An outcome asks for nothing, so what goes on with its value asks for all. -/
theorem ofExcept_bind {r : Except Fault α} {a : α} (hr : r = .ok a) (h : Asks disk (f a) s paths) :
    Asks disk (ofExcept r >>= f) s paths :=
  (answer r s).bind (by rw [exec_ofExcept, hr]) h

/-- A query leaves a store that holds what it held before and what it was asked for. -/
theorem contains_exec_iff (h : Asks disk q s paths) {path : String} :
    (exec q s).2.contains path = true ↔
      s.contains path = true ∨ ∃ asked ∈ paths, PathKey.ofPath path = PathKey.ofPath asked := by
  induction h with
  | answer r s => simp
  | ask _ ih =>
    rw [exec_ask, ih, ModuleStore.contains_request_iff, or_assoc]
    simp

end Asks

/-- A query asks a store only for paths of a kind. -/
def AsksOnly (disk : Disk) (kind : String → Prop) (q : Query α) (s : ModuleStore) : Prop :=
  ∃ paths, Asks disk q s paths ∧ ∀ path ∈ paths, kind path

/-- A query in step with itself asks only for what can be asked for, if a store keeps answering such
requests with modules that are alike themselves. -/
theorem InStep.asksOnly {A : Accord} {R : α → α → Prop} {I : ModuleStore → Prop}
    (hI : ∀ path, A.asked path → ∀ s, I s →
      Outcome.Agree (A.alike path) (s.request disk path).1 (s.request disk path).1 ∧
        I (s.request disk path).2)
    {q q' : Query α} (h : InStep A disk disk R q q') (hs : I s) : AsksOnly disk A.asked q s := by
  induction h generalizing s with
  | answer _ => exact ⟨[], .answer _ _, fun _ hmem => nomatch hmem⟩
  | @ask path hpath next next' _ ih =>
    obtain ⟨hagree, hnext⟩ := hI path hpath s hs
    obtain ⟨paths, hasks, hasked⟩ := ih _ _ hagree hnext
    exact ⟨path :: paths, .ask hasks, List.forall_mem_cons.mpr ⟨hpath, hasked⟩⟩

end Query
end MethodAtlas
