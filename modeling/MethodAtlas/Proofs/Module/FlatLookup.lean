import MethodAtlas.Module.Lookup
import MethodAtlas.Proofs.Module.Gathered

/-!
# Finding types in the rows

The same search without the namespace tree and without the two nesting maps: the types of a
namespace are picked from the rows of types, the members of a type from the rows of nested types,
and the first candidate counts that has the name or cannot be read. `findType_eq_findFlat` says
that the search through the gathered structures is this one, and that what it finds is spelled
exactly like the name that is sought.
-/
namespace MethodAtlas.Module
variable (m : Module)

/-- The name that a type has of its own. -/
def simpleName (rid : Nat) : Except Fault String := do
  let row ← m.needRow TypeDefinition rid
  m.string row.record.name

/-- Whether a search for a name ends at this: the name itself, or something that is no name. -/
def settles (name : String) : Except Fault String → Bool
  | .ok found => found = name
  | .error _ => true

/-- The first candidate of a name, unless one before it cannot be read. -/
def firstNamed (name : String) (candidates : List Nat) : Except Fault (Option Nat) :=
  match candidates.find? fun rid => settles name (m.simpleName rid) with
  | none => .ok none
  | some rid => (m.simpleName rid).map fun _ => some rid

/-- The types that no row names as nested and whose namespace is spelled exactly so. -/
def outermostIn (namespaceName : String) : List Nat :=
  ((m.tables.readableRows TypeDefinition).filter fun row =>
    m.isOutermost row.rid && m.string row.record.namespaceName = .ok namespaceName).map (·.rid)

/-- The type at the end of a path of names that starts among some types, by the rows alone. -/
def descend : (candidates : List Nat) → (containing : List String) → (name : String) →
    Except Fault (Option Nat)
  | candidates, [], name => m.firstNamed name candidates
  | candidates, outer :: containing, name =>
    match m.firstNamed outer candidates with
    | .error e => .error e
    | .ok none => .ok none
    | .ok (some rid) => descend (m.listedIn rid) containing name

/-- The type of a name, by the rows alone. -/
def findFlat (n : TypeName) : Except Fault (Option Nat) :=
  m.descend (m.outermostIn n.namespaceName) n.containing n.name

/-- Types that have the names of a path, one after the other: the first is among the candidates,
and each other is listed in the one before it. -/
inductive Spells : (candidates rids : List Nat) → (names : List String) → Prop
  | nil {candidates : List Nat} : Spells candidates [] []
  | cons {candidates rids : List Nat} {rid : Nat} {name : String} {names : List String}
      (mem : rid ∈ candidates) (named : m.simpleName rid = .ok name)
      (rest : Spells (m.listedIn rid) rids names) : Spells candidates (rid :: rids) (name :: names)

variable {m}

theorem findNamed_cons (name : String) (rid : Nat) (rids : List Nat) :
    m.findNamed name (rid :: rids) =
      (m.simpleName rid >>= fun found =>
        if found = name then .ok (some rid) else m.findNamed name rids) := by
  rw [findNamed, simpleName]
  cases m.needRow TypeDefinition rid with
  | error e => rfl
  | ok row => rfl

/-- The search along a list stops at the first candidate that settles it. -/
theorem findNamed_eq_firstNamed (name : String) (candidates : List Nat) :
    m.findNamed name candidates = m.firstNamed name candidates := by
  induction candidates with
  | nil => rfl
  | cons rid rids ih =>
    rw [findNamed_cons, firstNamed, List.find?_cons]
    cases hname : m.simpleName rid with
    | error e => simp [settles, hname, Except.map]
    | ok found =>
      by_cases h : found = name
      · simp [settles, hname, h, Except.map]
      · have hskip : settles name (.ok found) = false := by simp [settles, h]
        rw [Outcome.ok_bind, if_neg h, ih, firstNamed]
        simp only [hskip]

theorem findPath_eq_descend (h : m.Gathered) (candidates : List Nat) (containing : List String)
    (name : String) :
    m.findPath candidates containing name = m.descend candidates containing name := by
  induction containing generalizing candidates with
  | nil => exact findNamed_eq_firstNamed name candidates
  | cons outer containing ih =>
    rw [findPath, descend, findNamed_eq_firstNamed]
    cases m.firstNamed outer candidates with
    | error e => rfl
    | ok found =>
      cases found with
      | none => rfl
      | some rid =>
        change m.findPath (m.nestedTypes rid) containing name =
          m.descend (m.listedIn rid) containing name
        rw [h.nestedTypes_eq, ih]

theorem findPath_nil (containing : List String) (name : String) :
    m.findPath [] containing name = .ok none := by
  cases containing <;> rfl

/-- The search starts among the types of the namespace; a namespace that the tree lacks has
none. -/
theorem findType_eq_findPath (n : TypeName) :
    m.findType n = m.findPath (m.namespaces.typesIn n.namespaceName) n.containing n.name := by
  rw [findType, NamespaceTree.typesIn, TypeName.segments]
  cases m.namespaces.find? NamespaceTree.root (namespaceSegments n.namespaceName) with
  | none => exact (findPath_nil n.containing n.name).symm
  | some node => rfl

theorem mem_of_firstNamed {name : String} {candidates : List Nat} {rid : Nat}
    (h : m.firstNamed name candidates = .ok (some rid)) :
    rid ∈ candidates ∧ m.simpleName rid = .ok name := by
  rw [firstNamed] at h
  split at h
  · cases h
  · next found hfound =>
    have hsettles := List.find?_some hfound
    cases hname : m.simpleName found with
    | error e => simp [hname, Except.map] at h
    | ok name' =>
      simp only [hname, Except.map, Except.ok.injEq, Option.some.injEq] at h
      subst h
      simp only [hname, settles, decide_eq_true_eq] at hsettles
      exact ⟨List.mem_of_find?_eq_some hfound, hsettles ▸ hname⟩

/-- What the search finds is spelled exactly like the path. -/
theorem spells_of_descend {candidates : List Nat} {containing : List String} {name : String}
    {rid : Nat} (h : m.descend candidates containing name = .ok (some rid)) :
    ∃ outer, m.Spells candidates (outer ++ [rid]) (containing ++ [name]) := by
  induction containing generalizing candidates with
  | nil =>
    obtain ⟨hmem, hname⟩ := mem_of_firstNamed h
    exact ⟨[], .cons hmem hname .nil⟩
  | cons first containing ih =>
    rw [descend] at h
    split at h
    · cases h
    · cases h
    · next found hfound =>
      obtain ⟨hmem, hname⟩ := mem_of_firstNamed hfound
      obtain ⟨outer, hspells⟩ := ih h
      exact ⟨found :: outer, .cons hmem hname hspells⟩

/-- A module whose rows of types can all be read lists in each namespace the types of the rows. -/
theorem Gathered.typesIn_eq_outermostIn (h : m.Gathered)
    (hrows : ∀ rid, 1 ≤ rid → rid ≤ m.rowCount .typeDef → (m.row TypeDefinition rid).isSome)
    (namespaceName : String) :
    m.namespaces.typesIn namespaceName = m.outermostIn namespaceName := by
  have hlist : m.tables.rowList TypeDefinition = m.tables.readableRows TypeDefinition :=
    m.tables.rowList_eq_readableRows hrows
  rw [h.typesIn_eq, hlist, outermostIn]

/-- Looking up a type through the namespace tree and the nesting is looking it up in the rows, and
what is found is spelled exactly like the name: its outermost type lies in exactly the namespace,
and the types on the way have exactly the names. -/
theorem findType_eq_findFlat {readHeaders : HeaderReader} {bytes : ByteArray} {m : Module}
    (h : ofBytes readHeaders bytes = .ok m)
    (hrows : ∀ rid, 1 ≤ rid → rid ≤ m.rowCount .typeDef → (m.row TypeDefinition rid).isSome)
    (n : TypeName) :
    m.findType n = m.findFlat n ∧
      ∀ rid, m.findType n = .ok (some rid) →
        ∃ outer, m.Spells (m.outermostIn n.namespaceName) (outer ++ [rid]) n.path := by
  have hg := gathered_of_ofBytes h
  have hflat : m.findType n = m.findFlat n := by
    rw [findType_eq_findPath, findPath_eq_descend hg, hg.typesIn_eq_outermostIn hrows]
    rfl
  refine ⟨hflat, fun rid hrid => ?_⟩
  rw [hflat] at hrid
  exact spells_of_descend hrid

theorem findType_eq_findFlat_sample :
    ofBytes ImageHeaders.read? Sample.bytes = .ok Sample.module ∧
      Sample.module.findFlat ⟨"N", ["Y"], "Inner"⟩ = .ok (some 3) ∧
      ∃ outer,
        Sample.module.Spells (Sample.module.outermostIn "N") (outer ++ [3]) ["Y", "Inner"] := by
  obtain ⟨hflat, hspells⟩ := findType_eq_findFlat Sample.ofBytes_eq
    Sample.isSome_row_typeDefinition ⟨"N", ["Y"], "Inner"⟩
  have hfound : Sample.module.findType ⟨"N", ["Y"], "Inner"⟩ = .ok (some 3) := by decide +kernel
  exact ⟨Sample.ofBytes_eq, hflat ▸ hfound, hspells 3 hfound⟩

end MethodAtlas.Module
