import MethodAtlas.Proofs.Name.Namespaces
import Mathlib.Data.List.Dedup
import Mathlib.Data.List.Infix
import Mathlib.Data.List.Perm.Lattice

/-!
# The tree that insertions make

An insertion makes just the nodes on its path that are missing. So after any insertions the nodes
correspond to the paths that the inserted namespaces start with, one to one, and a node lists the
types that were inserted under its own namespace: `NamespaceTree.records_insertAll`.
-/
namespace MethodAtlas

/-- A path of segments starts that of each namespace below its own, and of no other. -/
theorem namespaceSegments_isPrefix_iff {ns other : String} :
    namespaceSegments ns <+: namespaceSegments other ↔
      ns = "" ∨ other = ns ∨ ∃ rest, other = ns ++ "." ++ rest := by
  by_cases hns : ns = ""
  · rw [namespaceSegments_eq_nil_iff.mpr hns]
    exact iff_of_true List.nil_prefix (.inl hns)
  · by_cases hother : other = ""
    · rw [namespaceSegments_eq_nil_iff.mpr hother, List.prefix_nil, namespaceSegments_eq_nil_iff,
        hother]
      simp [Ne.symm hns]
    · rw [namespaceSegments_of_ne hns, namespaceSegments_of_ne hother, Text.split_isPrefix_iff,
        or_iff_right hns]
      rfl

namespace NamespaceTree
variable {t : NamespaceTree} {node i : Nat} {front path : List String}

/-- The tree after some insertions, each of a type in a dotted namespace. -/
def insertAll (inserted : List (String × Nat)) : NamespaceTree :=
  inserted.foldl (fun t e => t.insert e.1 e.2) .empty

/-- The paths that inserted namespaces start with, but for the empty one. -/
def prefixes (inserted : List (String × Nat)) : List (List String) :=
  (inserted.flatMap fun e => (namespaceSegments e.1).inits).filter (· ≠ [])

/-- A tree holds just what was inserted. -/
structure Records (inserted : List (String × Nat)) (t : NamespaceTree) : Prop where
  /-- A namespace is there if it is the global one, or if it or one below it was inserted. -/
  isSome_find?_iff : ∀ ns, (t.find? root (namespaceSegments ns)).isSome ↔
    ns = "" ∨ ∃ e ∈ inserted, e.1 = ns ∨ ∃ rest, e.1 = ns ++ "." ++ rest
  /-- Its types are those that were inserted under its name, in this order. -/
  types_eq : ∀ ns node, t.find? root (namespaceSegments ns) = some node →
    t.types node = (inserted.filter (·.1 = ns)).map (·.2)
  /-- It shares its node with no other namespace. -/
  find?_ne : ∀ ns other node, ns ≠ other → t.find? root (namespaceSegments ns) = some node →
    t.find? root (namespaceSegments other) ≠ some node
  /-- The nodes that lie in a node are there and have different names. -/
  children : ∀ node, (∀ c ∈ t.children node, c < t.size) ∧ ((t.children node).map t.name).Nodup
  /-- There is the root and one node for each path. -/
  size_eq : t.size = 1 + (prefixes inserted).dedup.length

/-- The namespace that is entered lies behind the one that it is entered from. -/
theorem find?_enter (h : t.WellFormed) (hfront : t.find? root front = some node) (s : String) :
    (t.enter node s).1.find? root (front ++ [s]) = some (t.enter node s).2 := by
  obtain ⟨hwf, hext, hchild⟩ := enter_spec h (lt_of_find? h hfront) s
  rw [find?_append, ((hext.find?_eq_some_iff h hwf h.root_lt).mp hfront).1]
  simpa [find?] using hchild

/-- Entering a namespace makes no path but the one to it. -/
theorem isSome_find?_enter_iff (h : t.WellFormed) (hfront : t.find? root front = some node)
    (s : String) : ((t.enter node s).1.find? root path).isSome ↔
      (t.find? root path).isSome ∨ path = front ++ [s] := by
  obtain ⟨hwf, hext, -⟩ := enter_spec h (lt_of_find? h hfront) s
  have hnew := find?_enter h hfront s
  have hkept : ∀ {segments : List String} {i : Nat}, t.find? root segments = some i ↔
      (t.enter node s).1.find? root segments = some i ∧ i < t.size :=
    hext.find?_eq_some_iff h hwf h.root_lt
  constructor
  · intro hpath
    obtain ⟨i, hi⟩ := Option.isSome_iff_exists.mp hpath
    by_cases hlt : i < t.size
    · rw [hkept.mpr ⟨hi, hlt⟩]
      exact .inl rfl
    · have hbound := lt_of_find? hwf hi
      right
      -- The node is not an old one, so it is the one that was added.
      cases hc : t.child? node s with
      | some found =>
        rw [enter, hc] at hbound
        exact absurd hbound hlt
      | none =>
        rw [enter, hc] at hbound hnew hi hwf
        rw [size_grow] at hbound
        obtain rfl : i = t.size := by omega
        exact find?_injective hwf hi hnew
  · rintro (hold | rfl)
    · obtain ⟨i, hi⟩ := Option.isSome_iff_exists.mp hold
      rw [(hkept.mp hi).1]
      rfl
    · rw [hnew]
      rfl

/-- Reaching the end of a path makes no paths but those on the way. -/
theorem isSome_find?_reach_iff (h : t.WellFormed) (hfront : t.find? root front = some node)
    (segments : List String) : ((t.reach node segments).1.find? root path).isSome ↔
      (t.find? root path).isSome ∨ ∃ way, way <+: segments ∧ path = front ++ way := by
  induction segments generalizing t node front with
  | nil =>
    have hsome : path = front → (t.find? root path).isSome := by
      rintro rfl
      simp [hfront]
    simpa [reach] using hsome
  | cons s segments ih =>
    obtain ⟨hwf, -, -⟩ := enter_spec h (lt_of_find? h hfront) s
    have hstep : t.reach node (s :: segments) =
        (t.enter node s).1.reach (t.enter node s).2 segments := rfl
    rw [hstep, ih hwf (find?_enter h hfront s), isSome_find?_enter_iff h hfront]
    constructor
    · rintro ((hold | rfl) | ⟨way, hway, rfl⟩)
      · exact .inl hold
      · exact .inr ⟨[s], by simp, rfl⟩
      · exact .inr ⟨s :: way, by simpa using hway, by simp⟩
    · rintro (hold | ⟨way, hway, rfl⟩)
      · exact .inl (.inl hold)
      · rcases List.prefix_cons_iff.mp hway with rfl | ⟨rest, rfl, hrest⟩
        · exact .inl (.inl (by simp [hfront]))
        · exact .inr ⟨rest, hrest, by simp⟩

/-- An insertion makes the paths that its namespace starts with. -/
theorem isSome_find?_insert_iff (h : t.WellFormed) (ns : String) (rid : Nat) :
    ((t.insert ns rid).find? root path).isSome ↔
      (t.find? root path).isSome ∨ path <+: namespaceSegments ns := by
  have hwf := (reach_spec h h.root_lt (namespaceSegments ns)).1
  have hroot : t.find? root [] = some root := rfl
  change (((t.reach root (namespaceSegments ns)).1.declare _ rid).find? root path).isSome ↔ _
  rw [find?_declare hwf, isSome_find?_reach_iff h hroot]
  simp

/-! ### All insertions -/

theorem insertAll_concat (inserted : List (String × Nat)) (e : String × Nat) :
    insertAll (inserted ++ [e]) = (insertAll inserted).insert e.1 e.2 := by
  simp [insertAll]

theorem wellFormed_insertAll (inserted : List (String × Nat)) :
    (insertAll inserted).WellFormed := by
  induction inserted using List.reverseRecOn with
  | nil => exact wellFormed_empty
  | append_singleton inserted e ih =>
    rw [insertAll_concat]
    exact ih.insert e.1 e.2

theorem isSome_find?_insertAll_iff (inserted : List (String × Nat)) :
    ((insertAll inserted).find? root path).isSome ↔
      path = [] ∨ ∃ e ∈ inserted, path <+: namespaceSegments e.1 := by
  induction inserted using List.reverseRecOn with
  | nil =>
    cases path with
    | nil => simp [find?]
    | cons s path => simp [find?, insertAll, child?, children_empty]
  | append_singleton inserted e ih =>
    rw [insertAll_concat, isSome_find?_insert_iff (wellFormed_insertAll inserted), ih]
    simp [or_and_right, exists_or, or_assoc]

theorem typesIn_insertAll (inserted : List (String × Nat)) (ns : String) :
    (insertAll inserted).typesIn ns = (inserted.filter (·.1 = ns)).map (·.2) := by
  induction inserted using List.reverseRecOn with
  | nil => simp [insertAll]
  | append_singleton inserted e ih =>
    rw [insertAll_concat, typesIn_insert (wellFormed_insertAll inserted), ih, List.filter_append,
      List.map_append]
    by_cases h : e.1 = ns <;> simp [h]

/-- Every node is at the end of a path from the root. -/
theorem exists_find? (h : t.WellFormed) (hi : i < t.size) : ∃ path, t.find? root path = some i := by
  induction i using Nat.strongRecOn with
  | ind i ih =>
    by_cases hroot : i = root
    · exact ⟨[], by rw [hroot]; rfl⟩
    · obtain ⟨p, hmem⟩ := h.exists_parent hi hroot
      have hlt := (h.child_lt hmem).1
      obtain ⟨path, hpath⟩ := ih p hlt (hlt.trans hi)
      exact ⟨path ++ [t.name i], (find?_concat_eq_some_iff h).mpr ⟨p, hpath, hmem, rfl⟩⟩

/-- There are as many nodes as paths that lead to one. -/
theorem size_eq_length (h : t.WellFormed) {paths : List (List String)} (hnodup : paths.Nodup)
    (hpaths : ∀ path, path ∈ paths ↔ (t.find? root path).isSome) : t.size = paths.length := by
  have hfound : ∀ path ∈ paths, t.find? root path = some ((t.find? root path).getD root) := by
    intro path hpath
    obtain ⟨i, hi⟩ := Option.isSome_iff_exists.mp ((hpaths path).mp hpath)
    rw [hi]
    rfl
  have hdistinct : (paths.map fun path => (t.find? root path).getD root).Nodup := by
    refine hnodup.map_on fun path hpath other hother hsame => ?_
    exact find?_injective h (hfound path hpath) (hsame ▸ hfound other hother)
  have hnodes : (List.range t.size).Perm
      (paths.map fun path => (t.find? root path).getD root) := by
    refine (List.perm_ext_iff_of_nodup List.nodup_range hdistinct).mpr fun i => ?_
    rw [List.mem_range, List.mem_map]
    constructor
    · intro hi
      obtain ⟨path, hpath⟩ := exists_find? h hi
      exact ⟨path, (hpaths path).mpr (by rw [hpath]; rfl), by rw [hpath]; rfl⟩
    · rintro ⟨path, hpath, rfl⟩
      exact lt_of_find? h (hfound path hpath)
  simpa using hnodes.length_eq

theorem mem_prefixes_iff {inserted : List (String × Nat)} :
    path ∈ prefixes inserted ↔ path ≠ [] ∧ ∃ e ∈ inserted, path <+: namespaceSegments e.1 := by
  simp [prefixes, and_comm]

/-- The tree after any insertions holds just what was inserted. -/
theorem records_insertAll (inserted : List (String × Nat)) :
    Records inserted (insertAll inserted) := by
  have hwf := wellFormed_insertAll inserted
  constructor
  · intro ns
    simp only [isSome_find?_insertAll_iff, namespaceSegments_isPrefix_iff,
      namespaceSegments_eq_nil_iff]
    constructor
    · rintro (hns | ⟨e, he, hns | hbelow⟩)
      · exact .inl hns
      · exact .inl hns
      · exact .inr ⟨e, he, hbelow⟩
    · rintro (hns | ⟨e, he, hbelow⟩)
      · exact .inl hns
      · exact .inr ⟨e, he, .inr hbelow⟩
  · intro ns node hnode
    rw [← typesIn_insertAll, typesIn, hnode]
    rfl
  · intro ns other node hne hns hother
    exact hne (namespaceSegments_injective (find?_injective hwf hns hother))
  · intro node
    exact ⟨fun c hc => (hwf.child_lt hc).2, hwf.nodup_names node⟩
  · have hnodup : ([] :: (prefixes inserted).dedup).Nodup := by
      refine List.nodup_cons.mpr ⟨?_, List.nodup_dedup _⟩
      simp [mem_prefixes_iff]
    rw [size_eq_length hwf hnodup, List.length_cons, Nat.add_comm]
    intro path
    rw [isSome_find?_insertAll_iff, List.mem_cons, List.mem_dedup, mem_prefixes_iff]
    by_cases h : path = [] <;> simp [h]

/-- Namespaces that share segments, an empty one among them, share the nodes of these. -/
example : (insertAll [("A..B", 1), ("A", 2), ("", 3), ("A.", 4), ("A..B", 5)]).nodes =
    #[⟨"", #[1], #[3]⟩, ⟨"A", #[2], #[2]⟩, ⟨"", #[3], #[4]⟩, ⟨"B", #[], #[1, 5]⟩] := by
  decide +kernel

end NamespaceTree
end MethodAtlas
