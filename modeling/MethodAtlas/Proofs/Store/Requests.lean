import MethodAtlas.Proofs.Module.Reading
import MethodAtlas.Proofs.Store.Finality
import Mathlib.Data.List.Dedup
import Mathlib.Data.List.Nodup

/-!
# Requests and clearings

A store is asked for paths and cleared, in any order, while files become what they like. It holds
one entry for each key that was asked for since it was last cleared (`Accounts`), and opens a file
for each of them once (`nodup_opened`). The outcome of the first request for a key is repeated to
all later ones: `first_outcome_final`.
-/
namespace MethodAtlas.ModuleStore
variable {disk : Disk} {s t : ModuleStore} {path other : String}

/-- What happens to a store. -/
inductive Step
  | request (path : String)
  | clear
deriving DecidableEq

/-- The store after a step. -/
def advance (disk : Disk) (s : ModuleStore) : Step → ModuleStore
  | .request path => (s.request disk path).2
  | .clear => s.clear

/-- The store after some steps. -/
def advanceAll (disk : Disk) (steps : List Step) (s : ModuleStore) : ModuleStore :=
  steps.foldl (advance disk) s

/-- The keys that were asked for after some steps, besides those before. -/
def askedAfter (keys : List PathKey) : Step → List PathKey
  | .request path => PathKey.ofPath path :: keys
  | .clear => []

/-- The keys that were asked for since the last clearing, the latest first. -/
def asked (steps : List Step) : List PathKey := steps.foldl askedAfter []

/-- The paths whose files are opened in the course of some steps. -/
def opened (disk : Disk) : List Step → ModuleStore → List String
  | [], _ => []
  | .request path :: steps, s =>
    let next := s.advance disk (.request path)
    if next.openings = s.openings then opened disk steps next else path :: opened disk steps next
  | .clear :: steps, s => opened disk steps s.clear

theorem find?_eq_none_iff : s.find? path = none ↔ PathKey.ofPath path ∉ s.entries.map Prod.fst := by
  rw [find?, List.lookup_eq_none_iff, List.mem_map]
  constructor
  · rintro h ⟨entry, hentry, hkey⟩
    simpa [hkey] using h entry hentry
  · intro h entry hentry
    have hne : PathKey.ofPath path ≠ entry.1 := fun hkey => h ⟨entry, hentry, hkey.symm⟩
    simpa using hne

/-- A path that was not asked for is opened. -/
theorem request_of_not_find? (h : s.find? path = none) :
    s.request disk path = (load disk path s,
      ⟨(PathKey.ofPath path, .ofOutcome (load disk path s)) :: s.entries, s.openings + 1⟩) := by
  rw [request, h]

/-- A path that was asked for leaves the store as it is. -/
theorem request_of_find? {entry : StoreEntry} (h : s.find? path = some entry) :
    s.request disk path = (entry.answer path, s) := by
  rw [request, h]

/-- A request leaves what is kept for other keys. -/
theorem find?_request_of_ne (h : PathKey.ofPath other ≠ PathKey.ofPath path) :
    (s.request disk path).2.find? other = s.find? other := by
  cases hfind : s.find? path with
  | some entry => rw [request_of_find? hfind]
  | none =>
    rw [request_of_not_find? hfind, find?, List.lookup_cons, beq_false_of_ne h]
    rfl

/-- A request leaves an entry that repeats its outcome to every path of the same key. -/
theorem exists_find?_repeated (disk : Disk) (s : ModuleStore)
    (h : PathKey.ofPath other = PathKey.ofPath path) :
    ∃ entry, (s.request disk path).2.find? other = some entry ∧
      entry.answer other = match (s.request disk path).1 with
        | .ok m => .ok m
        | .error e => .error (.moduleUnavailable other e.isNotFound) := by
  cases hfind : s.find? path with
  | some entry =>
    rw [request_of_find? hfind, find?, h]
    refine ⟨entry, hfind, ?_⟩
    cases entry <;> rfl
  | none =>
    rw [request_of_not_find? hfind, find?, h, List.lookup_cons_self]
    refine ⟨_, rfl, ?_⟩
    cases load disk path s <;> rfl

/-- A step that clears nothing keeps what the store holds. -/
theorem extends_advance (disk : Disk) {step : Step} (h : step ≠ .clear) (s : ModuleStore) :
    s.Extends (s.advance disk step) := by
  cases step with
  | request path => exact s.extends_request disk path
  | clear => exact absurd rfl h

theorem extends_advanceAll (disk : Disk) {steps : List Step} (h : .clear ∉ steps)
    (s : ModuleStore) : s.Extends (advanceAll disk steps s) := by
  refine List.foldlRecOn (motive := s.Extends) steps (advance disk) (.refl s) ?_
  intro t ht step hstep
  exact ht.trans (t.extends_advance disk (ne_of_mem_of_not_mem hstep h))

/-- The entries of a store are one for each of these keys. -/
structure Accounts (s : ModuleStore) (keys : List PathKey) : Prop where
  nodup : (s.entries.map Prod.fst).Nodup
  mem_iff : ∀ key, key ∈ s.entries.map Prod.fst ↔ key ∈ keys

namespace Accounts
variable {keys : List PathKey}

theorem of_nil (h : s.entries = []) : Accounts s [] := by
  constructor <;> simp [h]

theorem size_eq (h : Accounts s keys) : s.size = keys.dedup.length := by
  have hperm : (s.entries.map Prod.fst).Perm keys.dedup := by
    rw [List.perm_ext_iff_of_nodup h.nodup keys.nodup_dedup]
    intro key
    rw [h.mem_iff, List.mem_dedup]
  rw [size, ← hperm.length_eq, List.length_map]

theorem find?_eq_none_iff (h : Accounts s keys) :
    s.find? path = none ↔ PathKey.ofPath path ∉ keys := by
  rw [ModuleStore.find?_eq_none_iff, h.mem_iff]

theorem contains_iff (h : Accounts s keys) :
    s.contains path = true ↔ PathKey.ofPath path ∈ keys := by
  rw [contains, Option.isSome_iff_ne_none, ne_eq, h.find?_eq_none_iff, not_not]

theorem advance (h : Accounts s keys) (disk : Disk) (step : Step) :
    Accounts (s.advance disk step) (askedAfter keys step) := by
  cases step with
  | clear => exact of_nil rfl
  | request path =>
    cases hfind : s.find? path with
    | some entry =>
      have hkey : PathKey.ofPath path ∈ keys := by
        by_contra hkey
        rw [← h.find?_eq_none_iff, hfind] at hkey
        cases hkey
      rw [ModuleStore.advance, request_of_find? hfind]
      refine ⟨h.nodup, fun key => ?_⟩
      rw [h.mem_iff, askedAfter, List.mem_cons]
      exact ⟨.inr, fun hor => hor.elim (fun heq => heq ▸ hkey) id⟩
    | none =>
      rw [ModuleStore.advance, request_of_not_find? hfind]
      constructor
      · exact h.nodup.cons (ModuleStore.find?_eq_none_iff.mp hfind)
      · intro key
        simp only [List.map_cons, List.mem_cons, askedAfter, h.mem_iff]

theorem advanceAll (h : Accounts s keys) (disk : Disk) (steps : List Step) :
    Accounts (advanceAll disk steps s) (steps.foldl askedAfter keys) := by
  induction steps generalizing s keys with
  | nil => exact h
  | cons step steps ih => exact ih (h.advance disk step)

end Accounts

/-- A run from an empty store accounts for what was asked for since the last clearing. -/
theorem accounts_asked (disk : Disk) (steps : List Step) :
    Accounts (advanceAll disk steps empty) (asked steps) :=
  (Accounts.of_nil rfl).advanceAll disk steps

/-- The openings of a run are counted. -/
theorem openings_advanceAll (disk : Disk) (steps : List Step) (s : ModuleStore) :
    (advanceAll disk steps s).openings = s.openings + (opened disk steps s).length := by
  induction steps generalizing s with
  | nil => rfl
  | cons step steps ih =>
    cases step with
    | clear => exact ih s.clear
    | request path =>
      have hnext := ih (s.advance disk (.request path))
      rw [opened]
      by_cases h : (s.advance disk (.request path)).openings = s.openings
      · rw [if_pos h, ← h]
        exact hnext
      · cases hfind : s.find? path with
        | some entry => rw [advance, request_of_find? hfind] at h; exact absurd rfl h
        | none =>
          rw [if_neg h, List.length_cons]
          have hcount : (s.advance disk (.request path)).openings = s.openings + 1 := by
            rw [advance, request_of_not_find? hfind]
          rw [hcount] at hnext
          change (advanceAll disk steps (s.advance disk (.request path))).openings = _
          omega

/-- Only what a store does not hold is opened before it is cleared. -/
theorem find?_of_mem_opened {steps : List Step} (hsteps : .clear ∉ steps)
    (h : path ∈ opened disk steps s) : s.find? path = none := by
  induction steps generalizing s with
  | nil => cases h
  | cons step steps ih =>
    simp only [List.mem_cons, not_or] at hsteps
    cases step with
    | clear => exact absurd rfl hsteps.1
    | request first =>
      have hlater : path ∈ opened disk steps (s.advance disk (.request first)) →
          s.find? path = none := by
        intro hlater
        have hnone := ih hsteps.2 hlater
        by_contra hkept
        obtain ⟨entry, hentry⟩ := Option.ne_none_iff_exists'.mp hkept
        have hlost : (s.advance disk (.request first)).find? path = some entry :=
          s.extends_request disk first _ _ hentry
        rw [hnone] at hlost
        cases hlost
      rw [opened] at h
      split at h
      · exact hlater h
      · next hopened =>
        obtain rfl | h := List.mem_cons.mp h
        · cases hfind : s.find? path with
          | none => rfl
          | some entry => rw [advance, request_of_find? hfind] at hopened; exact absurd rfl hopened
        · exact hlater h

/-- From one clearing to the next, a file is opened once at most for each key. -/
theorem nodup_opened {steps : List Step} (hsteps : .clear ∉ steps) (s : ModuleStore) :
    ((opened disk steps s).map PathKey.ofPath).Nodup := by
  induction steps generalizing s with
  | nil => exact List.nodup_nil
  | cons step steps ih =>
    simp only [List.mem_cons, not_or] at hsteps
    cases step with
    | clear => exact absurd rfl hsteps.1
    | request path =>
      rw [opened]
      split
      · exact ih hsteps.2 _
      · refine (ih hsteps.2 _).cons ?_
        rw [List.mem_map]
        rintro ⟨later, hlater, hkey⟩
        have hnone := find?_of_mem_opened hsteps.2 hlater
        obtain ⟨entry, hentry, -⟩ := exists_find?_repeated disk s hkey
        rw [advance, hentry] at hnone
        cases hnone

/-- **The first outcome for a key is final.** Whatever files become of, a store that was asked for
paths and cleared at times holds one outcome for each key that was asked for since the last
clearing. The first request for a key is answered by opening its file, every later one, whatever
the files are then, by what came of it: the same module, or that it is unavailable, with the path
as it is asked for now and whether the file was missing at first. Outcomes for other keys stay as
they are. From one clearing to the next, files are opened once at most for each key. -/
theorem first_outcome_final (disk : Disk) (earlier : List Step) :
    let s := advanceAll disk earlier empty
    s.size = (asked earlier).dedup.length ∧
      (∀ path, s.contains path = true ↔ PathKey.ofPath path ∈ asked earlier) ∧
      (∀ path, PathKey.ofPath path ∉ asked earlier →
        (s.request disk path).1 = load disk path s) ∧
      (∀ path later other, .clear ∉ later → PathKey.ofPath other = PathKey.ofPath path →
        let first := s.request disk path
        let t := advanceAll disk later first.2
        ∀ disk', t.request disk' other = (match first.1 with
          | .ok m => .ok m
          | .error e => .error (.moduleUnavailable other e.isNotFound), t)) ∧
      (∀ path other, PathKey.ofPath other ≠ PathKey.ofPath path →
        (s.request disk path).2.find? other = s.find? other) ∧
      (∀ path, s.clear.contains path = false ∧
        (s.clear.request disk path).1 = load disk path s.clear) ∧
      ∀ later, .clear ∉ later →
        (advanceAll disk later s.clear).openings =
            s.openings + (opened disk later s.clear).length ∧
          ((opened disk later s.clear).map PathKey.ofPath).Nodup := by
  intro s
  have hs : Accounts s (asked earlier) := accounts_asked disk earlier
  refine ⟨hs.size_eq, fun path => hs.contains_iff, ?_, ?_, ?_, ?_, ?_⟩
  · intro path hpath
    rw [request_of_not_find? (hs.find?_eq_none_iff.mpr hpath)]
  · intro path later other hlater hkey first t disk'
    obtain ⟨entry, hentry, hanswer⟩ := exists_find?_repeated disk s hkey
    have hkept : t.find? other = some entry := extends_advanceAll disk hlater _ _ _ hentry
    rw [request_of_find? hkept, hanswer]
  · intro path other hkey
    exact find?_request_of_ne hkey
  · intro path
    exact ⟨rfl, by rw [request_of_not_find? rfl]⟩
  · intro later hlater
    exact ⟨openings_advanceAll disk later s.clear, nodup_opened hlater s.clear⟩

namespace Sample

/-- Files of which the first that is opened is missing. -/
def firstMissing : Disk := fun n =>
  Image.fromFile ImageHeaders.read? fun _ =>
    if n = 0 then .error (.fileUnreadable true) else .ok MethodAtlas.Sample.bytes

end Sample

/-- A file that was missing when it was asked for stays missing in every spelling, also after other
files were opened. -/
theorem first_outcome_final_sample :
    let disk := Sample.firstMissing
    let first := empty.request disk "Tests.dll"
    let t := advanceAll disk [.request "base.dll"] first.2
    Step.clear ∉ [Step.request "base.dll"] ∧
      PathKey.ofPath "Tests.dll" ∉ asked [] ∧
      PathKey.ofPath "TESTS.dll" = PathKey.ofPath "Tests.dll" ∧
      PathKey.ofPath "base.dll" ≠ PathKey.ofPath "Tests.dll" ∧
      first.1 = .error (.fileUnreadable true) ∧
      first.2.find? "base.dll" = none ∧
      (advanceAll disk [.request "base.dll"] empty.clear).openings =
        0 + (opened disk [.request "base.dll"] empty.clear).length ∧
      t.request disk "TESTS.dll" = (.error (.moduleUnavailable "TESTS.dll" true), t) := by
  intro disk first t
  have hlater : Step.clear ∉ [Step.request "base.dll"] := by decide
  have hasked : PathKey.ofPath "Tests.dll" ∉ asked [] := List.not_mem_nil
  have hsame : PathKey.ofPath "TESTS.dll" = PathKey.ofPath "Tests.dll" := by decide +kernel
  have hother : PathKey.ofPath "base.dll" ≠ PathKey.ofPath "Tests.dll" := by decide +kernel
  obtain ⟨-, -, hfirst, hagain, hkeeps, -, hopenings⟩ := first_outcome_final disk []
  have hmissing : first.1 = .error (.fileUnreadable true) := hfirst "Tests.dll" hasked
  have hrepeated := hagain "Tests.dll" _ "TESTS.dll" hlater hsame disk
  rw [show ((advanceAll disk [] empty).request disk "Tests.dll").1 = _ from hmissing] at hrepeated
  exact ⟨hlater, hasked, hsame, hother, hmissing, hkeeps "Tests.dll" "base.dll" hother,
    (hopenings _ hlater).1, hrepeated⟩

end MethodAtlas.ModuleStore
