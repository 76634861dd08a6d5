import MethodAtlas.Proofs.Module.Paths
import MethodAtlas.Proofs.Name.FullNames
import Mathlib.Logic.Relation

/-!
# From a type to its name and back

The full name of a type is put together on the way outwards and looked up on the way inwards. The
two ways come by the same types, as long as the parts of the name can be told apart and each type
is the first of its name where it is listed: `findFull_of_typeFullName`. The chain of types can
have any length, and only the outermost type must have no dot in its name. A name that is given in
its parts is looked up as the full name is: `findFull_full`.
-/
namespace MethodAtlas

theorem TypeName.Separable.concat {namespaceName name : String} {path : List String}
    (h : Separable namespaceName path) (hpath : path ≠ []) (hname : '+' ∉ name.toList) :
    Separable namespaceName (path ++ [name]) where
  namespaceName := h.namespaceName
  names := by
    intro other hother
    rcases List.mem_append.mp hother with hother | hother
    · exact h.names other hother
    · rwa [List.mem_singleton.mp hother]
  outermost := by
    rw [List.head?_append_of_ne_nil _ hpath]
    exact h.outermost

namespace Module
variable (m : Module)

/-- Whether a type is another or lies in it, at any depth. -/
def LiesIn (inner outer : Nat) : Prop :=
  Relation.ReflTransGen (fun r r' => m.enclosing? r = some r') inner outer

/-- The types that a type is listed with: all that lie directly in the same type, or the outermost
types of the same namespace. -/
def listedWith (rid : Nat) : List Nat :=
  match m.enclosing? rid with
  | some outer => m.listedIn outer
  | none =>
    match m.statedNamespace rid with
    | .ok ns => m.outermostIn ns
    | .error _ => []

/-- Every type that is listed before this one has a name, which is another one. -/
def ComesFirst (rid : Nat) : Prop :=
  ∀ other ∈ (m.listedWith rid).takeWhile (· ≠ rid),
    ∃ name, m.simpleName other = .ok name ∧ m.simpleName rid ≠ .ok name

/-- The names of the types around a type can be told apart in its full name, and each of the types
is the first of its name where it is listed. -/
structure Retraceable (rid : Nat) : Prop where
  names : ∀ r name, m.LiesIn rid r → m.simpleName r = .ok name → '+' ∉ name.toList
  outermost : ∀ r name, m.LiesIn rid r → m.enclosing? r = none → m.simpleName r = .ok name →
    '.' ∉ name.toList
  namespaceName : ∀ r ns, m.LiesIn rid r → m.enclosing? r = none → m.statedNamespace r = .ok ns →
    '+' ∉ ns.toList
  first : ∀ r, m.LiesIn rid r → m.ComesFirst r

variable {m}

/-- What is retraceable lies in what is. -/
theorem Retraceable.of_enclosing? {rid outer : Nat} (h : m.Retraceable rid)
    (houter : m.enclosing? rid = some outer) : m.Retraceable outer where
  names r name hr := h.names r name (.head houter hr)
  outermost r name hr := h.outermost r name (.head houter hr)
  namespaceName r ns hr := h.namespaceName r ns (.head houter hr)
  first r hr := h.first r (.head houter hr)

/-- The search among some types finds the first of a name. -/
theorem firstNamed_eq_some {candidates : List Nat} {rid : Nat} {name : String}
    (hmem : rid ∈ candidates) (hname : m.simpleName rid = .ok name)
    (hfirst : ∀ other ∈ candidates.takeWhile (· ≠ rid),
      ∃ name, m.simpleName other = .ok name ∧ m.simpleName rid ≠ .ok name) :
    m.firstNamed name candidates = .ok (some rid) := by
  induction candidates with
  | nil => cases hmem
  | cons other candidates ih =>
    rw [← findNamed_eq_firstNamed, findNamed_cons]
    by_cases h : other = rid
    · subst h
      rw [hname, Outcome.ok_bind, if_pos rfl]
    · rw [List.takeWhile_cons_of_pos (by simpa using h), List.forall_mem_cons] at hfirst
      obtain ⟨⟨otherName, hother, hne⟩, hfirst⟩ := hfirst
      have hdiffers : otherName ≠ name := by
        rintro rfl
        exact hne hname
      rw [hother, Outcome.ok_bind, if_neg hdiffers, findNamed_eq_firstNamed]
      exact ih (List.mem_of_ne_of_mem (Ne.symm h) hmem) hfirst

/-- One more name leads on among the types that lie in what was found. -/
theorem descend_concat {candidates : List Nat} {containing : List String} {outer name : String}
    {rid : Nat} (h : m.descend candidates containing outer = .ok (some rid)) :
    m.descend candidates (containing ++ [outer]) name = m.firstNamed name (m.listedIn rid) := by
  induction containing generalizing candidates with
  | nil =>
    rw [List.nil_append, descend]
    rw [descend] at h
    rw [h]
    rfl
  | cons first containing ih =>
    rw [List.cons_append, descend]
    rw [descend] at h
    split at h
    · cases h
    · cases h
    · exact ih h

/-- A nested type is listed in the type that encloses it. -/
theorem Gathered.mem_listedIn (hg : m.Gathered) {rid outer : Nat}
    (h : m.enclosing? rid = some outer) : rid ∈ m.listedIn outer := by
  rw [hg.enclosing?_eq, Option.map_eq_some_iff] at h
  obtain ⟨row, hlast, rfl⟩ := h
  obtain ⟨hmem, hnested⟩ := List.mem_filter.mp (List.mem_of_getLast? hlast)
  exact List.mem_map.mpr ⟨row, List.mem_filter.mpr ⟨hmem, by simp⟩, by simpa using hnested⟩

/-- A type that lies in no other is listed in the namespace that its row states. -/
theorem Gathered.mem_outermostIn (hg : m.Gathered) {rid : Nat} {ns : String}
    (h : m.enclosing? rid = none) (hns : m.statedNamespace rid = .ok ns) :
    rid ∈ m.outermostIn ns := by
  obtain ⟨row, hrow, hstated⟩ := Outcome.bind_eq_ok.mp hns
  have hread : m.tables.row TypeDefinition rid = some row := by
    rw [needRow] at hrow
    split at hrow
    · next hread =>
      cases hrow
      exact hread
    · cases hrow
  obtain ⟨rfl, -⟩ := m.tables.rid_of_row hread
  have houter := (hg.enclosing?_eq_none_iff _).mp h
  exact List.mem_map.mpr
    ⟨row, List.mem_filter.mpr ⟨m.tables.mem_readableRows.mpr hread, by simp [houter, hstated]⟩, rfl⟩

/-- Where a type is listed, the search for its name finds it if it comes first. -/
theorem Gathered.firstNamed_listedWith (hg : m.Gathered) {rid : Nat} {name : String}
    (hname : m.simpleName rid = .ok name) (hfirst : m.ComesFirst rid)
    (hlisted : m.enclosing? rid = none → ∃ ns, m.statedNamespace rid = .ok ns) :
    m.firstNamed name (m.listedWith rid) = .ok (some rid) := by
  refine firstNamed_eq_some ?_ hname hfirst
  rw [listedWith]
  cases henclosing : m.enclosing? rid with
  | some outer => exact hg.mem_listedIn henclosing
  | none =>
    obtain ⟨ns, hns⟩ := hlisted henclosing
    rw [hns]
    exact hg.mem_outermostIn henclosing hns

/-- The names that a walk outwards puts before the inner ones can be told apart, and the search
along them leads back to where the walk started. -/
theorem descend_of_walk (hg : m.Gathered) {cycle : Fault} {left rid : Nat} {ns : String}
    {names inner : List String}
    (h : m.enclosings.walk (m.needRow TypeDefinition) cycle left rid inner = .ok (ns, names))
    (hrid : m.Retraceable rid) :
    ∃ outer name, names = outer ++ name :: inner ∧ TypeName.Separable ns (outer ++ [name]) ∧
      m.descend (m.outermostIn ns) outer name = .ok (some rid) := by
  -- The walk goes outwards, so what it says of the type around this one is what the search needs.
  induction left using Nat.strong_induction_on generalizing rid inner with
  | _ left ih =>
    obtain ⟨e, -, hwalk⟩ | ⟨name, hname, hgoes⟩ :=
      serves_enclosings.walk_cases cycle left rid inner
    · rw [hwalk] at h
      cases h
    · have hplus : '+' ∉ name.toList := hrid.names rid name .refl hname
      obtain ⟨last, henclosing, hns, hwalk⟩ | ⟨-, hwalk⟩ | ⟨outer, left', henclosing, rfl, hwalk⟩ :=
        hgoes
      · rw [hwalk] at h
        cases h
        have hns : m.statedNamespace rid = .ok ns := hns
        have hfound := hg.firstNamed_listedWith hname (hrid.first rid .refl) fun _ => ⟨ns, hns⟩
        rw [listedWith, henclosing, hns] at hfound
        refine ⟨[], name, rfl, ⟨hrid.namespaceName rid ns .refl henclosing hns, ?_, ?_⟩, hfound⟩
        · simpa using hplus
        · simpa using hrid.outermost rid name .refl henclosing hname
      · rw [hwalk] at h
        cases h
      · rw [hwalk] at h
        obtain ⟨before, outerName, hnames, hseparable, hfound⟩ :=
          ih left' (Nat.lt_succ_self left') h (hrid.of_enclosing? henclosing)
        have hnext := hg.firstNamed_listedWith hname (hrid.first rid .refl) (by simp [henclosing])
        simp only [listedWith, henclosing] at hnext
        refine ⟨before ++ [outerName], name, by simp [hnames],
          hseparable.concat (by simp) hplus, ?_⟩
        rw [descend_concat hfound, hnext]

/-- A type is found by its full name, if the names around it can be told apart and each of the
types is the first of its name where it is listed. -/
theorem findFull_of_typeFullName {readHeaders : HeaderReader} {bytes : ByteArray} {m : Module}
    (h : ofBytes readHeaders bytes = .ok m)
    (hrows : ∀ rid, 1 ≤ rid → rid ≤ m.rowCount .typeDef → (m.row TypeDefinition rid).isSome)
    {rid : Nat} {fullName : String} (hname : m.typeFullName rid = .ok fullName)
    (hrid : m.Retraceable rid) : m.findFull fullName = .ok (some rid) := by
  have hg := gathered_of_ofBytes h
  rw [typeFullName, typeFullNameBy, typePathBy, bind_assoc] at hname
  obtain ⟨⟨ns, names⟩, hwalk, hfull⟩ := Outcome.bind_eq_ok.mp hname
  cases hfull
  obtain ⟨outer, name, hnames, hseparable, hfound⟩ := descend_of_walk hg hwalk hrid
  have hparts : TypeName.ofFull (TypePath.full ⟨ns, names⟩) = ⟨ns, outer, name⟩ := by
    rw [TypePath.full, hnames, TypeName.ofFull_join (by simp) hseparable, TypeName.ofPath]
    simp
  rw [findFull, hparts, findType_eq_findPath, findPath_eq_descend hg,
    hg.typesIn_eq_outermostIn hrows]
  exact hfound

theorem findFull_of_typeFullName_sample :
    Sample.module.typeFullName 3 = .ok "N.Y+Inner" ∧ Sample.module.Retraceable 3 ∧
      Sample.module.findFull "N.Y+Inner" = .ok (some 3) := by
  have hname : Sample.module.typeFullName 3 = .ok "N.Y+Inner" := by decide +kernel
  obtain ⟨hinner, houter, hinnerName, houterName, hns⟩ :
      Sample.module.enclosing? 3 = some 2 ∧ Sample.module.enclosing? 2 = none ∧
        Sample.module.simpleName 3 = .ok "Inner" ∧ Sample.module.simpleName 2 = .ok "Y" ∧
        Sample.module.statedNamespace 2 = .ok "N" := by
    decide +kernel
  obtain ⟨hbeforeInner, hbeforeOuter, hotherName⟩ :
      (Sample.module.listedWith 3).takeWhile (· ≠ 3) = [] ∧
        (Sample.module.listedWith 2).takeWhile (· ≠ 2) = [1] ∧
        Sample.module.simpleName 1 = .ok "T" := by
    decide +kernel
  have hchain : ∀ r, Sample.module.LiesIn 3 r → r = 3 ∨ r = 2 := by
    intro r hr
    rcases hr.cases_head with rfl | ⟨r', hnext, hr⟩
    · exact .inl rfl
    · obtain rfl := Option.some.inj (hinner.symm.trans hnext)
      rcases hr.cases_head with rfl | ⟨r', hnext, -⟩
      · exact .inr rfl
      · simp [houter] at hnext
  have hrid : Sample.module.Retraceable 3 := by
    constructor
    · intro r name hr hname
      rcases hchain r hr with rfl | rfl
      · rw [hinnerName] at hname
        cases hname
        decide
      · rw [houterName] at hname
        cases hname
        decide
    · intro r name hr htop hname
      rcases hchain r hr with rfl | rfl
      · simp [hinner] at htop
      · rw [houterName] at hname
        cases hname
        decide
    · intro r ns hr htop hstated
      rcases hchain r hr with rfl | rfl
      · simp [hinner] at htop
      · rw [hns] at hstated
        cases hstated
        decide
    · intro r hr
      rcases hchain r hr with rfl | rfl
      · rw [ComesFirst, hbeforeInner]
        exact List.forall_mem_nil _
      · rw [ComesFirst, hbeforeOuter, List.forall_mem_singleton]
        exact ⟨"T", hotherName, by simp [houterName]⟩
  exact ⟨hname, hrid, findFull_of_typeFullName Sample.ofBytes_eq Sample.isSome_row_typeDefinition
    hname hrid⟩

/-- A full name and its parts find the same, faults included, if the parts can be told apart. The
parts of every text can, and they make up the text. -/
theorem findFull_full (m : Module) :
    (∀ n : TypeName, TypeName.Separable n.namespaceName n.path → m.findFull n.full = m.findType n) ∧
      ∀ s : String, TypeName.Separable (TypeName.ofFull s).namespaceName (TypeName.ofFull s).path ∧
        (((TypeName.ofFull s).namespaceName = "" ∧
            s = "+".intercalate (TypeName.ofFull s).path) ∨
          s = (TypeName.ofFull s).namespaceName ++ "." ++
            "+".intercalate (TypeName.ofFull s).path) := by
  refine ⟨fun n hn => ?_, fun s => ⟨TypeName.separable_ofFull s, TypeName.eq_of_ofFull s⟩⟩
  have hpath : n.path ≠ [] := by simp [TypeName.path]
  have hparts : TypeName.ofPath n.namespaceName n.path = n := by
    simp [TypeName.ofPath, TypeName.path]
  rw [findFull, TypeName.full, TypeName.ofFull_join hpath hn, hparts]

theorem findFull_full_sample :
    TypeName.Separable "N" ["Y", "Inner"] ∧
      Sample.module.findFull "N.Y+Inner" = Sample.module.findType ⟨"N", ["Y"], "Inner"⟩ ∧
      Sample.module.findType ⟨"N", ["Y"], "Inner"⟩ = .ok (some 3) ∧
      "..A+.B+" = (TypeName.ofFull "..A+.B+").namespaceName ++ "." ++
        "+".intercalate (TypeName.ofFull "..A+.B+").path := by
  have hn : TypeName.Separable "N" ["Y", "Inner"] := ⟨by decide, by decide, by decide⟩
  have hfind : Sample.module.findType ⟨"N", ["Y"], "Inner"⟩ = .ok (some 3) := by decide +kernel
  obtain ⟨hfull, htext⟩ := findFull_full Sample.module
  have hspace : (TypeName.ofFull "..A+.B+").namespaceName ≠ "" := by decide +kernel
  refine ⟨hn, hfull ⟨"N", ["Y"], "Inner"⟩ hn, hfind, ?_⟩
  exact (htext "..A+.B+").2.resolve_left fun h => hspace h.1

end Module
end MethodAtlas
