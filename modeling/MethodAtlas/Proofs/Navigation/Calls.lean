import MethodAtlas.Proofs.Navigation.Runs

/-!
# Calls of sessions

A session asks its provider to open symbols, and asks the symbols that it holds. Its calls account
for what it holds: symbols were opened once for each key, whether this failed or not, and only
symbols that are held were asked.
-/
namespace MethodAtlas

/-- The key that a call opens symbols for. -/
def SymbolCall.opens? : SymbolCall → Option PathKey
  | .openSymbols path => some (.ofPath path)
  | .locate .. => none

namespace Session
variable {provider : SymbolProvider} {s s' s'' u : Session}

/-- The calls of a provider and of symbols, the latest first, account for the symbols that a session
holds: each key was opened once, and only symbols that are held were asked. -/
structure Books (provider : SymbolProvider) (symbols : List (PathKey × Option Symbols))
    (calls : List SymbolCall) : Prop where
  keys : symbols.map Prod.fst = calls.filterMap SymbolCall.opens?
  once : (calls.filterMap SymbolCall.opens?).Nodup
  held : ∀ entry ∈ symbols, ∃ n path, entry = (PathKey.ofPath path, provider n path) ∧
    .openSymbols path ∈ calls
  asked : ∀ path typeName methodName, .locate path typeName methodName ∈ calls →
    ∃ key known, (key, some known) ∈ symbols ∧ known.path = path

namespace Books
variable {symbols : List (PathKey × Option Symbols)} {calls : List SymbolCall}

theorem nil (provider : SymbolProvider) : Books provider [] [] := by
  constructor <;> simp

/-- Symbols are opened for a key that none are held for. -/
theorem openSymbols (h : Books provider symbols calls) {path : String}
    (hpath : symbols.lookup (PathKey.ofPath path) = none) (n : Nat) :
    Books provider ((PathKey.ofPath path, provider n path) :: symbols)
      (.openSymbols path :: calls) where
  keys := congrArg (List.cons (PathKey.ofPath path)) h.keys
  once := by
    refine List.Nodup.cons ?_ h.once
    rw [← h.keys, List.mem_map]
    rintro ⟨entry, hentry, hkey⟩
    have hne := List.lookup_eq_none_iff.mp hpath entry hentry
    simp [hkey] at hne
  held entry hentry := by
    obtain rfl | hentry := List.mem_cons.mp hentry
    · exact ⟨n, path, rfl, List.mem_cons_self⟩
    · obtain ⟨n, path, heq, hcall⟩ := h.held entry hentry
      exact ⟨n, path, heq, List.mem_cons_of_mem _ hcall⟩
  asked other typeName methodName hcall := by
    obtain hcall | hcall := List.mem_cons.mp hcall
    · cases hcall
    · obtain ⟨key, known, hheld, hother⟩ := h.asked other typeName methodName hcall
      exact ⟨key, known, List.mem_cons_of_mem _ hheld, hother⟩

/-- Symbols that are held are asked. -/
theorem locate (h : Books provider symbols calls) {key : PathKey} {known : Symbols}
    (hkey : symbols.lookup key = some (some known)) (typeName methodName : String) :
    Books provider symbols (.locate known.path typeName methodName :: calls) where
  keys := h.keys
  once := h.once
  held entry hentry := by
    obtain ⟨n, path, heq, hcall⟩ := h.held entry hentry
    exact ⟨n, path, heq, List.mem_cons_of_mem _ hcall⟩
  asked path typeName' methodName' hcall := by
    obtain hcall | hcall := List.mem_cons.mp hcall
    · cases hcall
      obtain ⟨before, after, rfl, -⟩ := List.lookup_eq_some_iff.mp hkey
      exact ⟨key, known, List.mem_append_right before List.mem_cons_self, rfl⟩
    · exact h.asked path typeName' methodName' hcall

end Books

/-- The calls that looking up a method can come to: opening symbols for its path, and asking those
that a session holds for its path. -/
inductive CallFor (u : Session) (t : Target) : SymbolCall → Prop
  | openSymbols : CallFor u t (.openSymbols t.path)
  | locate {symbols : Symbols}
      (h : u.symbols.lookup (PathKey.ofPath t.path) = some (some symbols)) :
      CallFor u t (.locate symbols.path t.typeName t.methodName)

theorem CallFor.mono {t : Target} {call : SymbolCall} (h : s.CallFor t call) (hu : s.Extends u) :
    u.CallFor t call := by
  cases h with
  | openSymbols => exact .openSymbols
  | locate h => exact .locate (hu.symbols _ _ h)

/-- The calls that were added from one session to another are calls for given methods, and keep the
books right. -/
structure Adds (provider : SymbolProvider) (s s' : Session) (sought : List (Option Target))
    (added : List SymbolCall) : Prop where
  calls : s'.calls = added ++ s.calls
  callFor : ∀ call ∈ added, ∃ t, some t ∈ sought ∧ s'.CallFor t call
  books : ∀ earlier, Books provider s.symbols earlier → Books provider s'.symbols (added ++ earlier)

namespace Adds
variable {sought sought' : List (Option Target)} {added added' : List SymbolCall}

theorem refl (hcalls : s'.calls = s.calls) (hsymbols : s'.symbols = s.symbols) :
    Adds provider s s' sought [] :=
  ⟨hcalls, by simp, fun _ h => hsymbols ▸ h⟩

theorem mono (h : Adds provider s s' sought added) (hsought : sought ⊆ sought') :
    Adds provider s s' sought' added where
  calls := h.calls
  callFor call hcall := by
    obtain ⟨t, ht, hcall⟩ := h.callFor call hcall
    exact ⟨t, hsought ht, hcall⟩
  books := h.books

theorem trans (h : Adds provider s s' sought added) (h' : Adds provider s' s'' sought added')
    (hgrows : s'.Extends s'') : Adds provider s s'' sought (added' ++ added) where
  calls := by rw [h'.calls, h.calls, List.append_assoc]
  callFor call hcall := by
    obtain hcall | hcall := List.mem_append.mp hcall
    · exact h'.callFor call hcall
    · obtain ⟨t, ht, hcall⟩ := h.callFor call hcall
      exact ⟨t, ht, hcall.mono hgrows⟩
  books earlier hbooks := by
    rw [List.append_assoc]
    exact h'.books _ (h.books earlier hbooks)

end Adds

theorem adds_symbolsOf (provider : SymbolProvider) (t : Target) (s : Session) :
    ∃ added, Adds provider s (run (symbolsOf provider t.path) s).2 [some t] added := by
  simp only [run, symbolsOf, StateT.run]
  cases hlookup : s.symbols.lookup (PathKey.ofPath t.path) with
  | some known => exact ⟨[], .refl rfl rfl⟩
  | none =>
    refine ⟨[.openSymbols t.path], rfl, fun call hcall => ?_, fun _ h => h.openSymbols hlookup _⟩
    obtain rfl := List.mem_singleton.mp hcall
    exact ⟨t, List.mem_singleton_self _, .openSymbols⟩

theorem adds_symbolLocation (provider : SymbolProvider) (t : Target) (s : Session) :
    ∃ added, Adds provider s (run (symbolLocation provider t) s).2 [some t] added := by
  obtain ⟨added, hadded⟩ := adds_symbolsOf provider t s
  have hlookup := (run_symbolsOf provider t.path s).1
  rw [symbolLocation, run_bind]
  rcases hrun : run (symbolsOf provider t.path) s with ⟨_ | symbols, s'⟩ <;>
    rw [hrun] at hadded hlookup
  · exact ⟨added, hadded⟩
  · refine ⟨.locate symbols.path t.typeName t.methodName :: added,
      congrArg (List.cons _) hadded.calls, fun call hcall => ?_,
      fun earlier h => (hadded.books earlier h).locate hlookup _ _⟩
    obtain rfl | hcall := List.mem_cons.mp hcall
    · exact ⟨t, List.mem_singleton_self _, .locate hlookup⟩
    · obtain ⟨t', ht, hcall⟩ := hadded.callFor call hcall
      exact ⟨t', ht, hcall.mono ⟨rfl, fun _ _ h => h, .refl _⟩⟩

end Session
end MethodAtlas
