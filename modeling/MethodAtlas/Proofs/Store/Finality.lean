import MethodAtlas.Proofs.Store.InStep

/-!
# Outcomes are final

A store never loses or changes what it holds for a path: it is extended by every request. So
whatever files become of, a query that was answered once is answered alike by every store that
holds what the first run left, and opens nothing there: `InStep.again`.
-/
namespace MethodAtlas

/-- An entry for a key that had none hides no other entry. -/
theorem lookup_cons_of_fresh {κ ε : Type} [BEq κ] [LawfulBEq κ] {entries : List (κ × ε)}
    {fresh key : κ} {entry : ε} (hfresh : entries.lookup fresh = none)
    (hkey : entries.lookup key = some entry) (added : ε) :
    ((fresh, added) :: entries).lookup key = some entry := by
  have hne : key ≠ fresh := by
    rintro rfl
    rw [hfresh] at hkey
    cases hkey
  simpa [List.lookup_cons, beq_false_of_ne hne] using hkey

namespace ModuleStore
variable {disk disk' : Disk} {s t u : ModuleStore}

/-- The new store holds what the old one does. -/
def Extends (old new : ModuleStore) : Prop :=
  ∀ key entry, old.entries.lookup key = some entry → new.entries.lookup key = some entry

theorem Extends.refl (s : ModuleStore) : Extends s s := fun _ _ h => h

theorem Extends.trans (h : Extends s t) (h' : Extends t u) : Extends s u :=
  fun key entry hs => h' key entry (h key entry hs)

theorem extends_request (disk : Disk) (path : String) (s : ModuleStore) :
    Extends s (s.request disk path).2 := by
  intro key entry hkept
  rw [request]
  cases hfind : s.find? path with
  | some known => exact hkept
  | none => exact lookup_cons_of_fresh hfind hkept _

/-- A request leaves an entry that answers it again as it was answered. -/
theorem exists_find?_request (disk : Disk) (path : String) (s : ModuleStore) :
    ∃ entry, (s.request disk path).2.find? path = some entry ∧
      Outcome.Agree (Accord.sameModules.alike path) (s.request disk path).1
        (entry.answer path) := by
  rw [request]
  cases hfind : s.find? path with
  | some entry => exact ⟨entry, hfind, Accord.agree_refl path _⟩
  | none =>
    refine ⟨.ofOutcome (load disk path s), by simp [find?], ?_⟩
    simp only
    cases load disk path s with
    | ok opened => exact .ok rfl
    | error e => exact .error rfl

/-- A store that holds what a request left opens nothing for it, and answers as it did. -/
theorem request_of_extends (disk' : Disk) {path : String}
    (h : Extends (s.request disk path).2 t) :
    ∃ r, t.request disk' path = (r, t) ∧
      Outcome.Agree (Accord.sameModules.alike path) (s.request disk path).1 r := by
  obtain ⟨entry, hfind, hagree⟩ := exists_find?_request disk path s
  have hkept : t.find? path = some entry := h _ _ hfind
  exact ⟨entry.answer path, by rw [request, hkept], hagree⟩

end ModuleStore

namespace Query.InStep
variable {disk disk' : Disk} {α β : Type} {R : α → β → Prop} {q : Query α} {q' : Query β}

/-- The store that a query leaves holds all that it held before. -/
theorem extends_exec (h : InStep Accord.sameModules disk disk' R q q') (s : ModuleStore) :
    s.Extends (exec q s).2 := by
  induction h generalizing s with
  | answer _ => exact .refl s
  | @ask path _ next next' _ ih =>
    rw [exec_ask]
    exact (s.extends_request disk path).trans (ih _ _ (Accord.agree_refl path _) _)

/-- A query that is asked again is answered alike and opens nothing. -/
theorem again (h : InStep Accord.sameModules disk disk' R q q') {s t : ModuleStore}
    (ht : (exec q s).2.Extends t) :
    ∃ r, exec q' t = (r, t) ∧ Outcome.Agree R (exec q s).1 r := by
  induction h generalizing s with
  | @answer r r' hagree => exact ⟨r', rfl, hagree⟩
  | @ask path _ next next' hnext ih =>
    rw [exec_ask] at ht ⊢
    -- The rest of the run only adds to what the first request left.
    have hrest := (hnext _ _ (Accord.agree_refl path (s.request disk path).1)).extends_exec
      (s.request disk path).2
    obtain ⟨r, hrequest, hagree⟩ := ModuleStore.request_of_extends disk' (hrest.trans ht)
    obtain ⟨last, hlast, hends⟩ := ih _ r hagree ht
    exact ⟨last, by rw [hrequest, hlast], hends⟩

end Query.InStep
end MethodAtlas
