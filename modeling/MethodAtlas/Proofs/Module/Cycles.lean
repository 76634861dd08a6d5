import MethodAtlas.Proofs.Module.Members
import MethodAtlas.Proofs.Module.Paths

/-!
# Cycles among types

The scopes of a reference, or the types around a definition, can lead in a circle. The walks along
them count their steps and give up after as many as the table has rows. That is exact:
`chains_followed_exactly` says that they report a cycle only where the chain never ends, fail
wherever it never ends, and else give what the rows of the chain say, also for a chain that takes
up the whole table. It also counts the rows that they look at.
-/
namespace MethodAtlas

/-- What it is for a walk to follow the chain of a row of a table exactly. A chain that ends has
the outcome that its rows give; `noted` is the walk that notes the rows that it reads. -/
structure FollowedExactly {α : Type} (next : Nat → Option Nat) (rows rid : Nat) (cycle : Fault)
    (Gives : List Nat → α → Prop) (outcome : Except Fault α)
    (noted : ExceptT Fault (StateM (List Nat)) α) : Prop where
  /-- A cycle is reported of this row, and only if its chain never ends. -/
  endless {e : Fault} (h : outcome = .error e) (he : e.reportsCycle = true) :
    e = cycle ∧ Endless next rid
  /-- A chain that never ends has no answer. -/
  fails (h : Endless next rid) : ∃ e, outcome = .error e
  /-- Every other chain ends, and has the answer that its rows give. -/
  answers (h : ¬ Endless next rid) :
    ∃ rids, Ends next rid rids ∧ ∀ a, Gives rids a → outcome = .ok a
  /-- The walk reads at most one row more than the table has. -/
  visits (seen : List Nat) :
    ∃ visited, visited.length ≤ rows + 1 ∧ Query.exec noted seen = (outcome, seen ++ visited)

namespace Climb
variable {R ρ α : Type} {c : Climb R ρ} {read : Nat → Except Fault R} {next : Nat → Option Nat}
  {rows : Nat}

theorem Serves.followedExactly (hs : c.Serves read next rows) (rid : Nat) (cycle : Fault)
    (f : ρ × List String → α) {Gives : List Nat → α → Prop}
    (hgives : ∀ rids a, Gives rids a → ∃ last names, c.Spells read rids last names ∧
      a = f (last, names)) :
    FollowedExactly next rows rid cycle Gives ((c.walk read cycle rows rid []).map f)
      (f <$> c.walk (noting read) cycle rows rid []) where
  endless h he := by
    cases hwalk : c.walk read cycle rows rid [] with
    | error e =>
      rw [hwalk] at h
      cases h
      exact ⟨hs.eq_cycle hwalk he, hs.endless hwalk he⟩
    | ok a =>
      rw [hwalk] at h
      cases h
  fails h := by
    cases hwalk : c.walk read cycle rows rid [] with
    | error e => exact ⟨e, rfl⟩
    | ok a =>
      obtain ⟨rids, -, hends, -⟩ := hs.exists_ends hwalk
      exact absurd h hends.not_endless
  answers h := by
    obtain ⟨rids, hends⟩ := Ends.exists_of_not_endless h
    refine ⟨rids, hends, fun a ha => ?_⟩
    obtain ⟨last, names, hspells, rfl⟩ := hgives rids a ha
    rw [hs.walk_of_spells hends hspells]
    rfl
  visits seen := by
    obtain ⟨visited, hlength, hexec⟩ := c.exec_walk_noting read cycle rows rid [] seen
    refine ⟨visited, hlength, ?_⟩
    rw [map_eq_pure_bind, Query.exec_bind, hexec]
    cases c.walk read cycle rows rid [] <;> rfl

end Climb

namespace Module
variable {m : Module}

/-- The reference that the scope of a reference is, if it is one. -/
def nextScope (m : Module) (rid : Nat) : Option Nat :=
  (m.row TypeReference rid).bind fun row => row.record.outer?

theorem serves_scopes :
    m.scopes.Serves (m.needRow TypeReference) m.nextScope (m.rowCount .typeRef) where
  further h := by
    rw [nextScope, needRow_eq_ok.mp h]
    rfl
  range := range_of_needRow
  read_fault := reportsCycle_of_needRow
  name_fault := reportsCycle_of_string
  last_fault {row e} h := by
    change (m.string row.record.namespaceName >>= _) = _ at h
    cases hns : m.string row.record.namespaceName with
    | error e' =>
      rw [hns] at h
      cases h
      exact reportsCycle_of_string hns
    | ok ns =>
      rw [hns] at h
      cases h

/-- What the rows of the scopes of a reference say: the names, the namespace of the outermost, and
the scope that it has. -/
def ReferenceSpelled (m : Module) (rids : List Nat) : TypePath × CodedIndex → Prop
  | (path, scope) =>
    m.scopes.Spells (m.needRow TypeReference) rids (path.namespaceName, scope) path.names

section Walks
variable {M : Type → Type} [Monad M] [LawfulMonad M] [MonadExcept Fault M]

/-- The path of a reference, and the scope that it ends in, are what its walk answers. -/
theorem referencePathBy_eq (read : Nat → M (Row TypeReference)) (rid : Nat) :
    m.referencePathBy read rid = (fun ((ns, scope), names) => (⟨ns, names⟩, scope)) <$>
      m.scopes.walk read (.malformed (.scopeCycle rid)) (m.rowCount .typeRef) rid [] := by
  rw [map_eq_pure_bind, referencePathBy]

/-- The full name of a definition is put together from what its walk answers. -/
theorem typeFullNameBy_eq (read : Nat → M (Row TypeDefinition)) (rid : Nat) :
    m.typeFullNameBy read rid = (fun (ns, names) => TypePath.full ⟨ns, names⟩) <$>
      m.enclosings.walk read (.malformed (.nestingCycle rid)) (m.rowCount .typeDef) rid [] := by
  rw [map_eq_pure_bind, typeFullNameBy, typePathBy, bind_assoc]
  simp only [pure_bind]

end Walks

/-- A reference whose chain ends has the path and the scope that its rows say, and no other. -/
theorem referencePath_eq_ok_iff {rid : Nat} {answer : TypePath × CodedIndex} :
    m.referencePath rid = .ok answer ↔
      ∃ rids, Ends m.nextScope rid rids ∧ m.ReferenceSpelled rids answer := by
  rw [referencePath, referencePathBy, Outcome.bind_eq_ok]
  constructor
  · rintro ⟨⟨⟨ns, scope⟩, names⟩, hwalk, h⟩
    cases h
    exact serves_scopes.exists_spells hwalk
  · rintro ⟨rids, hends, hspelled⟩
    exact ⟨_, serves_scopes.walk_of_spells hends hspelled, rfl⟩

/-- What the rows of the types around a definition say, as a full name. -/
def DefinitionSpelled (m : Module) (rids : List Nat) (fullName : String) : Prop :=
  ∃ path : TypePath, fullName = path.full ∧
    m.enclosings.Spells (m.needRow TypeDefinition) rids path.namespaceName path.names

/-- The scopes of every reference and the types around every definition are followed exactly. -/
theorem chains_followed_exactly (m : Module) (rid : Nat) :
    FollowedExactly m.nextScope (m.rowCount .typeRef) rid (.malformed (.scopeCycle rid))
      m.ReferenceSpelled (m.referencePath rid)
      (m.referencePathBy (Climb.noting (m.needRow TypeReference)) rid) ∧
    FollowedExactly m.enclosing? (m.rowCount .typeDef) rid (.malformed (.nestingCycle rid))
      m.DefinitionSpelled (m.typeFullName rid)
      (m.typeFullNameBy (Climb.noting (m.needRow TypeDefinition)) rid) := by
  constructor
  · rw [referencePath, referencePathBy_eq, referencePathBy_eq]
    refine serves_scopes.followedExactly rid _ _ ?_
    rintro rids ⟨path, scope⟩ h
    exact ⟨_, _, h, rfl⟩
  · rw [typeFullName, typeFullNameBy_eq, typeFullNameBy_eq]
    refine serves_enclosings.followedExactly rid _ _ ?_
    rintro rids name ⟨path, rfl, h⟩
    exact ⟨_, _, h, rfl⟩

/-- The sample with its types one in another, so that they are all in one chain. -/
def deepSample : Module := { Sample.module with nesting := .ofList [⟨1, 2⟩, ⟨2, 3⟩] }

theorem chains_followed_exactly_sample :
    Ends deepSample.enclosing? 1 [1, 2, 3] ∧ deepSample.rowCount .typeDef = 3 ∧
      deepSample.typeFullName 1 = .ok "Inner+Y+T" := by
  have henclosing : deepSample.enclosing? 1 = some 2 ∧ deepSample.enclosing? 2 = some 3 ∧
      deepSample.enclosing? 3 = none := by decide +kernel
  have hends : Ends deepSample.enclosing? 1 [1, 2, 3] :=
    .step henclosing.1 (.step henclosing.2.1 (.last henclosing.2.2))
  have hnames : deepSample.simpleName 1 = .ok "T" ∧ deepSample.simpleName 2 = .ok "Y" ∧
      deepSample.simpleName 3 = .ok "Inner" ∧ deepSample.statedNamespace 3 = .ok "" := by
    decide +kernel
  have hspelled : deepSample.DefinitionSpelled [1, 2, 3] "Inner+Y+T" :=
    ⟨⟨"", ["Inner", "Y", "T"]⟩, by decide +kernel,
      .cons hnames.1 (.cons hnames.2.1 (.cons hnames.2.2.1 .nil)), 3, rfl, hnames.2.2.2⟩
  obtain ⟨rids, hrids, hanswer⟩ :=
    (chains_followed_exactly deepSample 1).2.answers hends.not_endless
  rw [hrids.unique hends] at hanswer
  exact ⟨hends, by decide +kernel, hanswer _ hspelled⟩

/-- Types that enclose each other have no full name. -/
example : ({ Sample.module with nesting := .ofList [⟨2, 3⟩, ⟨3, 2⟩] } : Module).typeFullName 2 =
    .error (.malformed (.nestingCycle 2)) := by decide +kernel

end Module
end MethodAtlas
