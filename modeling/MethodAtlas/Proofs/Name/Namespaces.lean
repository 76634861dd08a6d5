import MethodAtlas.Name.Namespace
import MethodAtlas.Proofs.Text.Split
import Mathlib.Data.List.Induction
import Mathlib.Data.List.Nodup

/-!
# What the namespace tree stores

Every insertion keeps the tree well formed: every namespace but the global one lies in exactly one
namespace, which was needed before it, and no two children of a namespace share a name. So a node is
reached by one path of segments only, and `typesIn_insert` says that the types below a dotted name
are exactly those that were inserted under it, in order. No other name leads to them, because a name
is determined by its segments.
-/
namespace MethodAtlas

theorem namespaceSegments_of_ne {s : String} (h : s ≠ "") :
    namespaceSegments s = Text.split '.' s := by
  simp [namespaceSegments, h]

theorem namespaceSegments_eq_nil_iff {s : String} : namespaceSegments s = [] ↔ s = "" := by
  by_cases h : s = ""
  · simp [namespaceSegments, h]
  · simp [namespaceSegments_of_ne, h, Text.split_ne_nil]

/-- The segments determine the dotted name, empty segments included. -/
theorem namespaceSegments_injective {s t : String} (h : namespaceSegments s = namespaceSegments t) :
    s = t := by
  by_cases hs : s = ""
  · rw [hs, eq_comm, ← namespaceSegments_eq_nil_iff, ← h, hs]
    rfl
  · have ht : t ≠ "" := by
      rintro rfl
      exact hs (namespaceSegments_eq_nil_iff.mp h)
    rw [namespaceSegments_of_ne hs, namespaceSegments_of_ne ht] at h
    exact Text.split_injective h

namespace NamespaceTree
variable {t : NamespaceTree} {node i : Nat}

/-- Every node but the root is listed in exactly one node, and behind it. The children of a node
have different names. -/
structure WellFormed (t : NamespaceTree) : Prop where
  root_lt : root < t.size
  child_lt : ∀ {p c : Nat}, c ∈ t.children p → p < c ∧ c < t.size
  exists_parent : ∀ {c : Nat}, c < t.size → c ≠ root → ∃ p, c ∈ t.children p
  parent_unique : ∀ {p q c : Nat}, c ∈ t.children p → c ∈ t.children q → p = q
  nodup_names : ∀ p, ((t.children p).map t.name).Nodup

/-- The types declared in a dotted namespace; none if the tree does not have it. -/
def typesIn (t : NamespaceTree) (namespaceName : String) : List Nat :=
  ((t.find? root (namespaceSegments namespaceName)).map t.types).getD []

theorem types_of_size_le (h : t.size ≤ i) : t.types i = [] := by
  simp [types, Array.getElem?_eq_none h]

theorem children_of_size_le (h : t.size ≤ i) : t.children i = [] := by
  simp [children, Array.getElem?_eq_none h]

/-- The global namespace has no children and no types at first. -/
theorem children_empty (i : Nat) : empty.children i = [] := by
  cases i <;> simp [children, empty]

theorem types_empty (i : Nat) : empty.types i = [] := by
  cases i <;> simp [types, empty]

theorem wellFormed_empty : empty.WellFormed where
  root_lt := Nat.one_pos
  child_lt := by
    intro p c hc
    simp [children_empty] at hc
  exists_parent := by
    intro c hlt hne
    exact absurd (Nat.lt_one_iff.mp hlt) hne
  parent_unique := by
    intro p q c hc _
    simp [children_empty] at hc
  nodup_names := by simp [children_empty]

/-- The tree with no other than the global namespace holds no types. -/
@[simp] theorem typesIn_empty (namespaceName : String) : empty.typesIn namespaceName = [] := by
  cases h : empty.find? root (namespaceSegments namespaceName) <;> simp [typesIn, h, types_empty]

/-- A child is the node that lies in its parent under the segment. -/
theorem child?_eq_some_iff (h : t.WellFormed) {s : String} :
    t.child? node s = some i ↔ i ∈ t.children node ∧ t.name i = s := by
  have hnamed : ∀ c ∈ t.children node, t.nodes[c]?.any (·.name == s) = true ↔ t.name c = s := by
    intro c hc
    have hlt : c < t.nodes.size := (h.child_lt hc).2
    simp [name, Array.getElem?_eq_getElem hlt]
  rw [child?]
  constructor
  · intro hfind
    have hmem := List.mem_of_find?_eq_some hfind
    have hfound := List.find?_some hfind
    exact ⟨hmem, (hnamed i hmem).mp hfound⟩
  · rintro ⟨hmem, hname⟩
    cases hfind : (t.children node).find? fun c => t.nodes[c]?.any (·.name == s) with
    | none => exact absurd ((hnamed i hmem).mpr hname) (List.find?_eq_none.mp hfind i hmem)
    | some j =>
      have hj := List.mem_of_find?_eq_some hfind
      have hfound := List.find?_some hfind
      have hsame : t.name j = t.name i := ((hnamed j hj).mp hfound).trans hname.symm
      rw [List.inj_on_of_nodup_map (h.nodup_names node) hj hmem hsame]

theorem find?_append (t : NamespaceTree) (node : Nat) (front back : List String) :
    t.find? node (front ++ back) = (t.find? node front).bind fun p => t.find? p back := by
  simp [find?, List.foldlM_append, Option.bind_eq_bind]

/-- The last segment leads from the node that the others lead to. -/
theorem find?_concat_eq_some_iff (h : t.WellFormed) {segments : List String} {s : String} :
    t.find? node (segments ++ [s]) = some i ↔
      ∃ p, t.find? node segments = some p ∧ i ∈ t.children p ∧ t.name i = s := by
  simp [find?, List.foldlM_append, Option.bind_eq_some_iff, child?_eq_some_iff h]

/-- Only existing nodes are found from the root. -/
theorem lt_of_find? (h : t.WellFormed) {segments : List String}
    (hi : t.find? root segments = some i) : i < t.size := by
  rcases List.eq_nil_or_concat' segments with rfl | ⟨front, s, rfl⟩
  · cases hi
    exact h.root_lt
  · obtain ⟨p, -, hmem, -⟩ := (find?_concat_eq_some_iff h).mp hi
    exact (h.child_lt hmem).2

/-- The parent of a node at the end of a path is at the end of the path without its last segment;
so no other path leads to the node. -/
theorem find?_injective (h : t.WellFormed) {segments other : List String}
    (hs : t.find? root segments = some i) (ho : t.find? root other = some i) :
    segments = other := by
  have hnil : ∀ {p : Nat}, root ∉ t.children p := fun hmem =>
    Nat.not_lt_zero _ (h.child_lt hmem).1
  -- The induction is on the first path from its end; the node tells the last step of the other.
  induction segments using List.reverseRecOn generalizing other i with
  | nil =>
    rcases List.eq_nil_or_concat' other with rfl | ⟨front, s, rfl⟩
    · rfl
    · cases hs
      obtain ⟨p, -, hmem, -⟩ := (find?_concat_eq_some_iff h).mp ho
      exact absurd hmem hnil
  | append_singleton front s ih =>
    obtain ⟨p, hfront, hmem, hname⟩ := (find?_concat_eq_some_iff h).mp hs
    rcases List.eq_nil_or_concat' other with rfl | ⟨front', s', rfl⟩
    · cases ho
      exact absurd hmem hnil
    · obtain ⟨p', hfront', hmem', hname'⟩ := (find?_concat_eq_some_iff h).mp ho
      obtain rfl := h.parent_unique hmem hmem'
      rw [ih hfront hfront', ← hname, ← hname']

/-- A tree with more namespaces: the old ones are as they were but for new children, and the new
ones hold no types. -/
structure Extends (old new : NamespaceTree) : Prop where
  size_le : old.size ≤ new.size
  name_eq : ∀ {i : Nat}, i < old.size → new.name i = old.name i
  types_eq : ∀ i, new.types i = old.types i
  mem_children_iff : ∀ {p c : Nat}, c < old.size → (c ∈ new.children p ↔ c ∈ old.children p)

namespace Extends
variable {old middle new : NamespaceTree}

theorem refl (t : NamespaceTree) : Extends t t where
  size_le := Nat.le_refl _
  name_eq _ := rfl
  types_eq _ := rfl
  mem_children_iff _ := Iff.rfl

theorem trans (first : Extends old middle) (second : Extends middle new) : Extends old new where
  size_le := first.size_le.trans second.size_le
  name_eq hi := (second.name_eq (hi.trans_le first.size_le)).trans (first.name_eq hi)
  types_eq i := (second.types_eq i).trans (first.types_eq i)
  mem_children_iff hc :=
    (second.mem_children_iff (hc.trans_le first.size_le)).trans (first.mem_children_iff hc)

/-- The paths to old nodes are those that there were. -/
theorem find?_eq_some_iff (h : Extends old new) (hold : old.WellFormed) (hnew : new.WellFormed)
    {segments : List String} {node i : Nat} (hnode : node < old.size) :
    old.find? node segments = some i ↔ new.find? node segments = some i ∧ i < old.size := by
  induction segments using List.reverseRecOn generalizing i with
  | nil =>
    constructor
    · rintro ⟨⟩
      exact ⟨rfl, hnode⟩
    · exact And.left
  | append_singleton front s ih =>
    rw [find?_concat_eq_some_iff hold, find?_concat_eq_some_iff hnew]
    constructor
    · rintro ⟨p, hfront, hmem, hname⟩
      have hlt := (hold.child_lt hmem).2
      exact ⟨⟨p, (ih.mp hfront).1, (h.mem_children_iff hlt).mpr hmem,
        (h.name_eq hlt).trans hname⟩, hlt⟩
    · rintro ⟨⟨p, hfront, hmem, hname⟩, hlt⟩
      have hp := ((hnew.child_lt hmem).1).trans hlt
      exact ⟨p, ih.mpr ⟨hfront, hp⟩, (h.mem_children_iff hlt).mp hmem,
        (h.name_eq hlt).symm.trans hname⟩

/-- New namespaces add no types below any name. -/
theorem typesIn (h : Extends old new) (hold : old.WellFormed) (hnew : new.WellFormed)
    (namespaceName : String) : new.typesIn namespaceName = old.typesIn namespaceName := by
  simp only [NamespaceTree.typesIn]
  cases hi : old.find? root (namespaceSegments namespaceName) with
  | some i =>
    rw [((h.find?_eq_some_iff hold hnew hold.root_lt).mp hi).1, Option.map_some, Option.map_some,
      h.types_eq]
  | none =>
    cases hi' : new.find? root (namespaceSegments namespaceName) with
    | none => rfl
    | some i =>
      have hfresh : old.size ≤ i := by
        by_contra hlt
        rw [(h.find?_eq_some_iff hold hnew hold.root_lt).mpr ⟨hi', Nat.not_le.mp hlt⟩] at hi
        cases hi
      simp [h.types_eq, types_of_size_le hfresh]

end Extends

/-! ### Growing -/

theorem getElem?_grow (t : NamespaceTree) (node : Nat) (s : String) (i : Nat) :
    (t.grow node s).nodes[i]? =
      (if i = t.size then some ⟨s, #[], #[]⟩ else t.nodes[i]?).map fun n =>
        if node = i then { n with children := n.children.push t.size } else n := by
  rw [grow, Array.getElem?_modify, Array.getElem?_push]
  by_cases h : node = i <;> simp [h] <;> rfl

@[simp] theorem size_grow (t : NamespaceTree) (node : Nat) (s : String) :
    (t.grow node s).size = t.size + 1 := by
  simp [grow, size]

theorem name_grow (t : NamespaceTree) (node : Nat) (s : String) (i : Nat) :
    (t.grow node s).name i = if i = t.size then s else t.name i := by
  rw [name, getElem?_grow, Option.map_map]
  have hname : (fun n : NamespaceNode => n.name) ∘ (fun n : NamespaceNode =>
      if node = i then { n with children := n.children.push t.size } else n) = (·.name) := by
    funext n
    simp only [Function.comp_apply]
    split <;> rfl
  rw [hname]
  split <;> rfl

theorem types_grow (t : NamespaceTree) (node : Nat) (s : String) (i : Nat) :
    (t.grow node s).types i = t.types i := by
  rw [types, getElem?_grow, Option.map_map]
  have htypes : (fun n : NamespaceNode => n.types.toList) ∘ (fun n : NamespaceNode =>
      if node = i then { n with children := n.children.push t.size } else n) =
        (·.types.toList) := by
    funext n
    simp only [Function.comp_apply]
    split <;> rfl
  rw [htypes]
  split
  · next h => simp [types_of_size_le h.ge]
  · rfl

theorem children_grow (hnode : node < t.size) (s : String) (i : Nat) :
    (t.grow node s).children i = t.children i ++ if i = node then [t.size] else [] := by
  rw [children, getElem?_grow]
  by_cases hi : i = t.size
  · have hne : ¬node = t.size := by omega
    subst hi
    simp [children_of_size_le, hne, Ne.symm hne]
  · simp only [if_neg hi]
    by_cases h : node = i
    · subst h
      have hget : t.nodes[node]? = some t.nodes[node] := Array.getElem?_eq_getElem hnode
      simp [children, hget]
    · simp [children, h, Ne.symm h]

theorem Extends.grow (hnode : node < t.size) (s : String) : Extends t (t.grow node s) where
  size_le := by simp
  name_eq hi := by rw [name_grow, if_neg (Nat.ne_of_lt hi)]
  types_eq := t.types_grow node s
  mem_children_iff := by
    intro p c hc
    rw [children_grow hnode]
    split <;> simp [Nat.ne_of_lt hc]

theorem WellFormed.grow (h : t.WellFormed) (hnode : node < t.size) {s : String}
    (hfree : t.child? node s = none) : (t.grow node s).WellFormed := by
  have hmem : ∀ {p c : Nat}, c ∈ (t.grow node s).children p ↔
      c ∈ t.children p ∨ p = node ∧ c = t.size := by
    intro p c
    rw [children_grow hnode]
    split <;> simp_all
  constructor
  · rw [size_grow]
    exact Nat.succ_pos _
  · intro p c hc
    rw [size_grow]
    rcases hmem.mp hc with hc | ⟨rfl, rfl⟩
    · have := h.child_lt hc
      omega
    · omega
  · intro c hlt hne
    rw [size_grow] at hlt
    by_cases hc : c = t.size
    · exact ⟨node, hmem.mpr (.inr ⟨rfl, hc⟩)⟩
    · obtain ⟨p, hp⟩ := h.exists_parent (by omega) hne
      exact ⟨p, hmem.mpr (.inl hp)⟩
  · intro p q c hp hq
    rcases hmem.mp hp with hold | ⟨hp, hc⟩ <;> rcases hmem.mp hq with hold' | ⟨hq, hc'⟩
    · exact h.parent_unique hold hold'
    · exact absurd (h.child_lt hold).2 (Nat.not_lt.mpr hc'.ge)
    · exact absurd (h.child_lt hold').2 (Nat.not_lt.mpr hc.ge)
    · rw [hp, hq]
  · intro p
    have hold : (t.children p).map (t.grow node s).name = (t.children p).map t.name := by
      apply List.map_congr_left
      intro c hc
      rw [name_grow, if_neg (Nat.ne_of_lt (h.child_lt hc).2)]
    rw [children_grow hnode, List.map_append, hold]
    split
    · next hp =>
      subst hp
      -- The new name clashes with no other, for then its child would have been found.
      have hnew : s ∉ (t.children p).map t.name := by
        rintro hs
        obtain ⟨c, hc, hname⟩ := List.mem_map.mp hs
        rw [(child?_eq_some_iff h).mpr ⟨hc, hname⟩] at hfree
        cases hfree
      simpa [name_grow] using (h.nodup_names p).concat hnew
    · simpa using h.nodup_names p

/-- Entering a namespace finds it or adds it, and keeps the rest. -/
theorem enter_spec (h : t.WellFormed) (hnode : node < t.size) (s : String) :
    (t.enter node s).1.WellFormed ∧ Extends t (t.enter node s).1 ∧
      (t.enter node s).1.child? node s = some (t.enter node s).2 := by
  rw [enter]
  cases hc : t.child? node s with
  | some i => exact ⟨h, .refl t, hc⟩
  | none =>
    have hgrown := h.grow hnode hc
    refine ⟨hgrown, .grow hnode s, (child?_eq_some_iff hgrown).mpr ?_⟩
    simp [children_grow hnode, name_grow]

/-- Reaching the end of a path keeps the tree well formed and all that it holds. -/
theorem reach_spec (h : t.WellFormed) (hnode : node < t.size) (segments : List String) :
    (t.reach node segments).1.WellFormed ∧ Extends t (t.reach node segments).1 ∧
      (t.reach node segments).1.find? node segments = some (t.reach node segments).2 := by
  induction segments generalizing t node with
  | nil => exact ⟨h, .refl t, rfl⟩
  | cons s segments ih =>
    obtain ⟨hwf, hext, hchild⟩ := enter_spec h hnode s
    have hnext := (hwf.child_lt ((child?_eq_some_iff hwf).mp hchild).1).2
    obtain ⟨hwf', hext', hfind⟩ := ih hwf hnext
    have hfirst : (t.enter node s).1.find? node [s] = some (t.enter node s).2 := by
      simpa [find?] using hchild
    have hstep : (t.reach node (s :: segments)).1.find? node [s] = some (t.enter node s).2 :=
      ((hext'.find?_eq_some_iff hwf hwf' (hnode.trans_le hext.size_le)).mp hfirst).1
    refine ⟨hwf', hext.trans hext', (find?_append _ node [s] segments).trans ?_⟩
    rw [hstep]
    exact hfind

/-! ### Declaring -/

theorem getElem?_declare (t : NamespaceTree) (node rid i : Nat) :
    (t.declare node rid).nodes[i]? =
      (t.nodes[i]?).map fun n => if node = i then { n with types := n.types.push rid } else n := by
  simp only [declare, Array.getElem?_modify]
  by_cases h : node = i <;> simp [h]

@[simp] theorem size_declare (t : NamespaceTree) (node rid : Nat) :
    (t.declare node rid).size = t.size := by
  simp [declare, size]

@[simp] theorem name_declare (t : NamespaceTree) (node rid : Nat) :
    (t.declare node rid).name = t.name := by
  funext i
  rw [name, getElem?_declare, Option.map_map, name]
  congr 2
  funext n
  simp only [Function.comp_apply]
  split <;> rfl

@[simp] theorem children_declare (t : NamespaceTree) (node rid : Nat) :
    (t.declare node rid).children = t.children := by
  funext i
  rw [children, getElem?_declare, Option.map_map, children]
  congr 2
  funext n
  simp only [Function.comp_apply]
  split <;> rfl

theorem types_declare (hnode : node < t.size) (rid i : Nat) :
    (t.declare node rid).types i = t.types i ++ if node = i then [rid] else [] := by
  simp only [types, getElem?_declare]
  by_cases h : node = i
  · subst h
    rw [Array.getElem?_eq_getElem hnode]
    simp
  · simp only [h, if_false, List.append_nil, Option.map_map]
    rfl

theorem WellFormed.declare (h : t.WellFormed) (node rid : Nat) :
    (t.declare node rid).WellFormed where
  root_lt := by simpa using h.root_lt
  child_lt := by
    rw [children_declare, size_declare]
    exact h.child_lt
  exists_parent := by
    rw [children_declare, size_declare]
    exact h.exists_parent
  parent_unique := by
    rw [children_declare]
    exact h.parent_unique
  nodup_names := by simpa using h.nodup_names

/-- Declaring a type changes no path. -/
theorem find?_declare (h : t.WellFormed) (node rid start : Nat) (segments : List String) :
    (t.declare node rid).find? start segments = t.find? start segments := by
  have hchild : (t.declare node rid).child? = t.child? := by
    funext p s
    ext i
    rw [child?_eq_some_iff h, child?_eq_some_iff (h.declare node rid), children_declare,
      name_declare]
  rw [find?, hchild, find?]

/-! ### Inserting -/

theorem WellFormed.insert (h : t.WellFormed) (namespaceName : String) (rid : Nat) :
    (t.insert namespaceName rid).WellFormed :=
  (reach_spec h h.root_lt _).1.declare _ rid

/-- An insertion appends the type to those of its own namespace and to no other. -/
theorem typesIn_insert (h : t.WellFormed) (inserted name : String) (rid : Nat) :
    (t.insert inserted rid).typesIn name =
      t.typesIn name ++ if inserted = name then [rid] else [] := by
  obtain ⟨hwf, hext, hfind⟩ := reach_spec h h.root_lt (namespaceSegments inserted)
  let grown := (t.reach root (namespaceSegments inserted)).1
  let node := (t.reach root (namespaceSegments inserted)).2
  change grown.WellFormed at hwf
  have hnode : node < grown.size := lt_of_find? hwf hfind
  rw [← hext.typesIn h hwf name]
  change (grown.declare node rid).typesIn name = grown.typesIn name ++ _
  simp only [typesIn, find?_declare hwf]
  cases hname : grown.find? root (namespaceSegments name) with
  | none =>
    have hne : inserted ≠ name := by
      rintro rfl
      rw [hfind] at hname
      cases hname
    simp [hne]
  | some i =>
    have hiff : node = i ↔ inserted = name := by
      constructor
      · rintro rfl
        exact namespaceSegments_injective (find?_injective hwf hfind hname)
      · rintro rfl
        rw [hfind] at hname
        exact Option.some.inj hname
    simp [types_declare hnode, hiff]

end NamespaceTree
end MethodAtlas
