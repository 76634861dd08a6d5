import MethodAtlas.Name.TypeName
import MethodAtlas.Proofs.Text.Split

/-!
# Taking a full name apart

A full name is taken apart at the first plus sign and the last dot before it. Where the namespace
and the names hold no plus sign and the outermost name no dot, these are the places at which the
name was joined: `TypeName.ofFull_join`. Dots in the namespace and in nested names do no harm.
Every text is taken apart into such parts, and `TypeName.eq_of_ofFull` puts it together again.
-/
namespace MethodAtlas

namespace TypeName

/-- A namespace and the names of types that a full name tells apart. -/
structure Separable (namespaceName : String) (path : List String) : Prop where
  namespaceName : '+' ∉ namespaceName.toList
  names : ∀ name ∈ path, '+' ∉ name.toList
  outermost : ∀ name ∈ path.head?, '.' ∉ name.toList

/-- The namespace with the dot that follows it, if it is followed by one. -/
def dotted (namespaceName : String) : List Char :=
  if namespaceName.isEmpty then [] else namespaceName.toList ++ ['.']

theorem toList_join (namespaceName : String) (path : List String) :
    (join namespaceName path).toList =
      dotted namespaceName ++ ['+'].intercalate (path.map String.toList) := by
  rw [join, dotted]
  split <;> simp

/-- The first name is followed by nothing or by a plus sign. -/
theorem exists_intercalate_eq (first : String) (others : List String) :
    ∃ rest : List Char, (['+'].intercalate ((first :: others).map String.toList)) =
      first.toList ++ rest ∧ ∀ c ∈ rest.head?, c = '+' := by
  cases others with
  | nil => exact ⟨[], by simp [List.intercalate], by simp⟩
  | cons second others =>
    exact ⟨'+' :: ['+'].intercalate ((second :: others).map String.toList),
      by simp [List.intercalate], by simp⟩

/-- The last dot is the one that ends the namespace. -/
theorem splitLast?_dotted (namespaceName : String) {first : List Char} (h : '.' ∉ first) :
    (Text.splitLast? '.' (dotted namespaceName ++ first)).getD
      ([], dotted namespaceName ++ first) = (namespaceName.toList, first) := by
  rw [dotted]
  split
  · next hempty =>
    rw [String.isEmpty_iff] at hempty
    rw [hempty, List.nil_append, Text.splitLast?_of_notMem h]
    simp
  · rw [List.append_assoc, List.singleton_append, Text.splitLast?_append h]
    rfl

/-- The parts of a name that was joined are those that it was joined from. -/
theorem ofFull_join {namespaceName : String} {path : List String} (hpath : path ≠ [])
    (h : Separable namespaceName path) :
    ofFull (join namespaceName path) = ofPath namespaceName path := by
  obtain ⟨first, others, rfl⟩ := List.exists_cons_of_ne_nil hpath
  obtain ⟨rest, hjoined, hrest⟩ := exists_intercalate_eq first others
  have hplain : ∀ c ∈ dotted namespaceName ++ first.toList, decide (c ≠ '+') = true := by
    intro c hc
    have hfirst : '+' ∉ first.toList := h.names first List.mem_cons_self
    have hspace := h.namespaceName
    simp only [decide_eq_true_eq]
    rintro rfl
    simp only [dotted] at hc
    split at hc <;> simp_all
  have hchars : (join namespaceName (first :: others)).toList =
      (dotted namespaceName ++ first.toList) ++ rest := by
    rw [toList_join, hjoined, List.append_assoc]
  have hstop : rest.takeWhile (· ≠ '+') = [] ∧ rest.dropWhile (· ≠ '+') = rest := by
    cases rest with
    | nil => simp
    | cons c rest =>
      obtain rfl := hrest c rfl
      simp
  have houter : (join namespaceName (first :: others)).toList.takeWhile (· ≠ '+') =
      dotted namespaceName ++ first.toList := by
    rw [hchars, List.takeWhile_append_of_pos hplain, hstop.1, List.append_nil]
  have hinner : (join namespaceName (first :: others)).toList.dropWhile (· ≠ '+') = rest := by
    rw [hchars, List.dropWhile_append_of_pos hplain, hstop.2]
  have hsplit : (first.toList ++ rest).splitOn '+' = (first :: others).map String.toList := by
    rw [← hjoined]
    refine List.splitOn_intercalate '+' ?_ (by simp)
    intro l hl
    obtain ⟨name, hname, rfl⟩ := List.mem_map.mp hl
    exact h.names name hname
  rw [ofFull]
  simp only [houter, hinner, splitLast?_dotted namespaceName (h.outermost first rfl), hsplit,
    List.map_map, Function.comp_def, String.ofList_toList, List.map_id']

theorem path_ofPath {namespaceName : String} {path : List String} (hpath : path ≠ []) :
    (ofPath namespaceName path).path = path := by
  have hlast : path.getLastD "" = path.getLast hpath := by
    rw [List.getLastD_eq_getLast?, List.getLast?_eq_some_getLast hpath, Option.getD_some]
  rw [ofPath, TypeName.path, hlast, List.dropLast_concat_getLast]

/-- The places that a text is taken apart at: the first plus sign, and the last dot before it. -/
theorem exists_ofFull_eq (s : String) :
    ∃ space first rest : List Char,
      ofFull s = ofPath (String.ofList space) (((first ++ rest).splitOn '+').map String.ofList) ∧
      '+' ∉ space ∧ '+' ∉ first ∧ '.' ∉ first ∧ (∀ c ∈ rest.head?, c = '+') ∧
      ((space = [] ∧ s.toList = first ++ rest) ∨ s.toList = space ++ '.' :: (first ++ rest)) := by
  have houter : '+' ∉ s.toList.takeWhile (· ≠ '+') := fun hmem => by
    simpa using List.mem_takeWhile_imp hmem
  have hrest : ∀ c ∈ (s.toList.dropWhile (· ≠ '+')).head?, c = '+' := by
    intro c hc
    have hstop := List.head?_dropWhile_not (fun c => decide (c ≠ '+')) s.toList
    rw [Option.mem_def.mp hc] at hstop
    simpa using hstop
  have hall : s.toList.takeWhile (· ≠ '+') ++ s.toList.dropWhile (· ≠ '+') = s.toList :=
    List.takeWhile_append_dropWhile
  rw [ofFull]
  dsimp only
  rcases Text.splitLast?_cases '.' (s.toList.takeWhile (· ≠ '+')) with
    ⟨hnone, hdot⟩ | ⟨space, first, hsome, hsplit, hdot⟩
  · rw [hnone]
    exact ⟨[], _, _, rfl, List.not_mem_nil, houter, hdot, hrest, .inl ⟨rfl, hall.symm⟩⟩
  · rw [hsome]
    rw [hsplit, List.mem_append, List.mem_cons, not_or, not_or] at houter
    refine ⟨space, first, _, rfl, houter.1, houter.2.2, hdot, hrest, .inr ?_⟩
    rw [← List.cons_append, ← List.append_assoc, ← hsplit, hall]

/-- The parts of every text can be told apart. -/
theorem separable_ofFull (s : String) : Separable (ofFull s).namespaceName (ofFull s).path := by
  obtain ⟨space, first, rest, hparts, hspace, hfirst, hdot, hrest, -⟩ := exists_ofFull_eq s
  rw [hparts, path_ofPath (by simp)]
  refine ⟨by simpa [ofPath] using hspace, ?_, ?_⟩
  · intro name hname
    obtain ⟨piece, hpiece, rfl⟩ := List.mem_map.mp hname
    simpa using Text.notMem_of_mem_splitOn hpiece
  · have hhead : ((first ++ rest).splitOn '+').head? = some first := by
      cases rest with
      | nil => rw [List.append_nil, List.splitOn_eq_singleton hfirst, List.head?_cons]
      | cons c rest =>
        obtain rfl := hrest c rfl
        rw [List.splitOn_append_cons_self_of_not_mem hfirst, List.head?_cons]
    simpa [hhead] using hdot

/-- Every text is the names of its parts, joined, after the namespace and a dot if it has one. -/
theorem eq_of_ofFull (s : String) :
    ((ofFull s).namespaceName = "" ∧ s = "+".intercalate (ofFull s).path) ∨
      s = (ofFull s).namespaceName ++ "." ++ "+".intercalate (ofFull s).path := by
  obtain ⟨space, first, rest, hparts, -, -, -, -, hs⟩ := exists_ofFull_eq s
  have hjoined : ("+".intercalate (ofFull s).path).toList = first ++ rest := by
    rw [hparts, path_ofPath (by simp), String.toList_intercalate]
    simp [Function.comp_def, List.intercalate_splitOn]
  have hspace : (ofFull s).namespaceName = String.ofList space := by rw [hparts, ofPath]
  rcases hs with ⟨rfl, hs⟩ | hs
  · exact .inl ⟨hspace, String.toList_injective (hs.trans hjoined.symm)⟩
  · refine .inr (String.toList_injective ?_)
    rw [hs, String.toList_append, String.toList_append, hjoined, hspace]
    simp

end TypeName
end MethodAtlas
