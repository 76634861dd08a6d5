import MethodAtlas.Module.Members
import MethodAtlas.Proofs.Outcome
import Mathlib.Control.Monad.Basic

/-!
# Public methods by name

The public methods of a type that have a name are picked one by one, and one whose name cannot be
read ends the search. Where all names can be read, they are simply those of the name.
-/
namespace MethodAtlas

namespace Outcome
variable {α : Type}

theorem filterAuxM_eq_ok {p : α → Except Fault Bool} {q : α → Bool} {l : List α}
    (h : ∀ a ∈ l, p a = .ok (q a)) (done : List α) :
    l.filterAuxM p done = .ok ((l.filter q).reverse ++ done) := by
  induction l generalizing done with
  | nil => rfl
  | cons a l ih =>
    rw [List.filterAuxM, h a List.mem_cons_self, ok_bind,
      ih fun b hb => h b (List.mem_cons_of_mem a hb)]
    cases hq : q a <;> simp [hq]

/-- A filter whose every question has an answer has an outcome. -/
theorem filterM_eq_ok {p : α → Except Fault Bool} {q : α → Bool} {l : List α}
    (h : ∀ a ∈ l, p a = .ok (q a)) : l.filterM p = .ok (l.filter q) := by
  rw [List.filterM, filterAuxM_eq_ok h, ok_bind, List.append_nil]
  simp [pure, Except.pure]

/-- A filter that has an outcome had an answer to every question. -/
theorem isOk_of_filterAuxM {p : α → Except Fault Bool} {l done result : List α}
    (h : l.filterAuxM p done = .ok result) : ∀ a ∈ l, (p a).isOk := by
  induction l generalizing done with
  | nil => simp
  | cons a l ih =>
    rw [List.filterAuxM] at h
    obtain ⟨kept, hkept, hrest⟩ := bind_eq_ok.mp h
    rw [List.forall_mem_cons, hkept]
    exact ⟨rfl, ih hrest⟩

theorem isOk_of_filterM {p : α → Except Fault Bool} {l result : List α}
    (h : l.filterM p = .ok result) : ∀ a ∈ l, (p a).isOk := by
  rw [List.filterM] at h
  obtain ⟨filtered, hfiltered, -⟩ := bind_eq_ok.mp h
  exact isOk_of_filterAuxM hfiltered

end Outcome

namespace Module
variable {m : Module} {t : Row TypeDefinition}

theorem needRow_eq_ok {α : Type} [Record α] {m : Module} {rid : Nat} {row : Row α} :
    m.needRow α rid = .ok row ↔ m.row α rid = some row := by
  rw [needRow]
  cases m.row α rid <;> simp

/-- The public methods of a type whose name can be read as this one. -/
def publicNamed (m : Module) (t : Row TypeDefinition) (name : String) :
    List (Row MethodDefinition) :=
  (m.methods t).filter fun d => d.record.isPublic && m.string d.record.name = .ok name

/-- Whether the names of all public methods of a type can be read. -/
def publicNamesReadable (m : Module) (t : Row TypeDefinition) : Bool :=
  (m.methods t).all fun d => !d.record.isPublic || (m.string d.record.name).isOk

theorem publicMethodsNamed_eq (h : m.publicNamesReadable t = true) (name : String) :
    m.publicMethodsNamed t name = .ok (m.publicNamed t name) := by
  have hfilter : ((m.methods t).filter (·.record.isPublic)).filterM (fun d => do
      let found ← m.string d.record.name
      pure (found == name)) = .ok (((m.methods t).filter (·.record.isPublic)).filter fun d =>
        m.string d.record.name = .ok name) := by
    apply Outcome.filterM_eq_ok
    intro d hd
    obtain ⟨hmem, hpublic⟩ := List.mem_filter.mp hd
    have hname := List.all_eq_true.mp h d hmem
    rw [hpublic, Bool.not_true, Bool.false_or] at hname
    obtain ⟨found, hstring⟩ := Outcome.exists_of_isOk hname
    rw [hstring]
    simp [pure, Except.pure, beq_eq_decide]
  rw [publicMethodsNamed, hfilter, List.filter_filter, publicNamed]
  simp only [Bool.and_comm]

/-- The search by name has an outcome only if all names can be read, and then it is the methods of
the name. -/
theorem publicMethodsNamed_eq_ok {name : String} {found : List (Row MethodDefinition)}
    (h : m.publicMethodsNamed t name = .ok found) :
    m.publicNamesReadable t = true ∧ found = m.publicNamed t name := by
  have hread : m.publicNamesReadable t = true := by
    have hsearch := h
    rw [publicMethodsNamed] at hsearch
    rw [publicNamesReadable, List.all_eq_true]
    intro d hd
    cases hpublic : d.record.isPublic with
    | false => rfl
    | true =>
      have hok := Outcome.isOk_of_filterM hsearch d (List.mem_filter.mpr ⟨hd, hpublic⟩)
      obtain ⟨found, hfound⟩ := Outcome.exists_of_isOk hok
      obtain ⟨stated, hstated, -⟩ := Outcome.bind_eq_ok.mp hfound
      rw [hstated]
      rfl
  rw [publicMethodsNamed_eq hread, Except.ok.injEq] at h
  exact ⟨hread, h.symm⟩

end Module
end MethodAtlas
