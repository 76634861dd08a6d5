import MethodAtlas.Text.Basic
import Mathlib.Data.List.Basic
import Mathlib.Data.List.TakeWhile

/-!
# Pieces of a text

Splitting a text at a separator loses nothing: the pieces, which have no separator themselves,
determine the text. So the pieces of a text come first among those of another exactly if the text
comes first there and a separator follows, or if both are the same: `split_isPrefix_iff`.
-/
namespace MethodAtlas.Text
variable {separator : Char} {s front back : List Char}

theorem splitLast?_of_notMem (h : separator ∉ s) : splitLast? separator s = none := by
  have hall : ∀ c ∈ s.reverse, decide (c ≠ separator) = true := by
    intro c hc
    simp only [decide_eq_true_eq]
    rintro rfl
    exact h (List.mem_reverse.mp hc)
  rw [splitLast?, List.dropWhile_eq_nil_iff.mpr hall]

theorem splitLast?_append (h : separator ∉ back) :
    splitLast? separator (front ++ separator :: back) = some (front, back) := by
  have hreverse : (front ++ separator :: back).reverse =
      back.reverse ++ separator :: front.reverse := by
    simp
  have hall : ∀ c ∈ back.reverse, decide (c ≠ separator) = true := by
    intro c hc
    simp only [decide_eq_true_eq]
    rintro rfl
    exact h (List.mem_reverse.mp hc)
  rw [splitLast?, hreverse, List.dropWhile_append_of_pos hall, List.takeWhile_append_of_pos hall,
    List.dropWhile_cons_of_neg (by simp), List.takeWhile_cons_of_neg (by simp)]
  simp

/-- A text has no last separator, or is split there. -/
theorem splitLast?_cases (separator : Char) (s : List Char) :
    (splitLast? separator s = none ∧ separator ∉ s) ∨
      ∃ front back, splitLast? separator s = some (front, back) ∧
        s = front ++ separator :: back ∧ separator ∉ back := by
  by_cases h : separator ∈ s
  · obtain ⟨back, front, hreverse, hback⟩ :=
      List.eq_append_cons_of_mem (List.mem_reverse.mpr h)
    have hback : separator ∉ back.reverse := by rwa [List.mem_reverse]
    have hs : s = front.reverse ++ separator :: back.reverse := by
      rw [← List.reverse_reverse s, hreverse]
      simp
    exact .inr ⟨_, _, hs ▸ splitLast?_append hback, hs, hback⟩
  · exact .inl ⟨splitLast?_of_notMem h, h⟩

/-- The pieces between separators have none. -/
theorem notMem_of_mem_splitOn {piece : List Char} (h : piece ∈ s.splitOn separator) :
    separator ∉ piece := by
  induction s generalizing piece with
  | nil => simp_all
  | cons c s ih =>
    obtain ⟨first, others, hs⟩ := List.exists_cons_of_ne_nil (List.splitOn_ne_nil separator s)
    rw [List.splitOn_cons_eq_if_modifyHead, hs, List.modifyHead_cons] at h
    rw [hs] at ih
    split at h
    · rcases List.mem_cons.mp h with rfl | h
      · exact List.not_mem_nil
      · exact ih h
    · next hc =>
      rcases List.mem_cons.mp h with rfl | h
      · rw [List.mem_cons, not_or]
        exact ⟨fun heq => hc (beq_iff_eq.mpr heq.symm), ih List.mem_cons_self⟩
      · exact ih (List.mem_cons_of_mem _ h)

theorem notMem_of_mem_split {s piece : String} (h : piece ∈ split separator s) :
    separator ∉ piece.toList := by
  obtain ⟨chars, hmem, rfl⟩ := List.mem_map.mp h
  rw [String.toList_ofList]
  exact notMem_of_mem_splitOn hmem

theorem split_of_notMem {s : String} (h : separator ∉ s.toList) : split separator s = [s] := by
  rw [split, List.splitOn_eq_singleton h, List.map_singleton, String.ofList_toList]

/-- The pieces of two texts with a separator between them are those of both. -/
theorem split_append (front back : String) :
    split separator (front ++ String.singleton separator ++ back) =
      split separator front ++ split separator back := by
  have hchars : (front ++ String.singleton separator ++ back).toList =
      front.toList ++ separator :: back.toList := by
    simp
  rw [split, hchars, List.splitOn_append_cons_self, List.map_append]
  rfl

theorem split_ne_nil (s : String) : split separator s ≠ [] := by
  simp [split, List.splitOn_ne_nil]

/-- The pieces determine the text, empty pieces included. -/
theorem split_injective {s t : String} (h : split separator s = split separator t) : s = t := by
  have hjoin : ∀ u : String,
      [separator].intercalate ((split separator u).map String.toList) = u.toList := by
    intro u
    simp [split, Function.comp_def, List.intercalate_splitOn]
  rw [← String.toList_inj, ← hjoin s, h, hjoin t]

/-- Texts without the separator are the pieces of what they are joined to. -/
theorem split_ofList_intercalate {pieces : List String} (hne : pieces ≠ [])
    (h : ∀ piece ∈ pieces, separator ∉ piece.toList) :
    split separator (String.ofList ([separator].intercalate (pieces.map String.toList))) =
      pieces := by
  have hplain : ∀ chars ∈ pieces.map String.toList, separator ∉ chars := by
    intro chars hmem
    obtain ⟨piece, hpiece, rfl⟩ := List.mem_map.mp hmem
    exact h piece hpiece
  rw [split, String.toList_ofList, List.splitOn_intercalate _ hplain (by simpa using hne),
    List.map_map]
  simp

/-- The pieces of a text come first among those of the text itself and of the texts that go on
with a separator behind it. -/
theorem split_isPrefix_iff {s t : String} :
    split separator s <+: split separator t ↔
      t = s ∨ ∃ rest, t = s ++ String.singleton separator ++ rest := by
  constructor
  · rintro ⟨others, hothers⟩
    by_cases hnil : others = []
    · rw [hnil, List.append_nil] at hothers
      exact .inl (split_injective hothers).symm
    · have hplain : ∀ piece ∈ others, separator ∉ piece.toList := by
        intro piece hpiece
        apply notMem_of_mem_split (s := t)
        rw [← hothers]
        exact List.mem_append_right _ hpiece
      obtain ⟨rest, hrest⟩ : ∃ rest, split separator rest = others :=
        ⟨_, split_ofList_intercalate hnil hplain⟩
      have hsame : split separator t =
          split separator (s ++ String.singleton separator ++ rest) := by
        rw [split_append, hrest, hothers]
      exact .inr ⟨rest, split_injective hsame⟩
  · rintro (rfl | ⟨rest, rfl⟩)
    · exact List.prefix_refl _
    · rw [split_append]
      exact List.prefix_append _ _

end MethodAtlas.Text
