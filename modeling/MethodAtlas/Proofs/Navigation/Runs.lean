import MethodAtlas.Navigation.Session
import MethodAtlas.Proofs.Resolution.Walks
import MethodAtlas.Proofs.Store.Finality

/-!
# Runs of sessions

A store and a session are asked one thing after the other, and what they hold only grows until they
are cleared or closed. A lookup is told by later sessions if its answer can be read off every
session that holds what the lookup left: `Session.Told`. The lookups of a session are told by the
symbols that it holds and by the queries of its modules, asked anew.
-/
namespace MethodAtlas

/-- What a store can be asked for. -/
inductive StoreCall
  | request (path : String)
  | findStateMachine (config : Config) (origin typeName methodName : String)
  | findDeclaringType (config : Config) (origin typeName methodName : String)
  | clear
deriving DecidableEq

/-- What a session can be asked for. -/
inductive SessionCall
  | locate (path typeName methodName : String)
  | close
deriving DecidableEq

namespace Query

theorem inStep_findStateMachine (disk disk' : Disk) (config : Config)
    (origin typeName methodName : String) :
    InStep Accord.sameModules disk disk' Eq
      (findStateMachine disk config origin typeName methodName)
      (findStateMachine disk' config origin typeName methodName) :=
  .findStateMachine (Accord.closed_sameModules _) trivial
    (fun _ _ halike => congrArg StateMachine.attributesOf halike) typeName methodName

theorem inStep_findDeclaringType (disk disk' : Disk) (config : Config)
    (origin typeName methodName : String) :
    InStep Accord.sameModules disk disk' Eq
      (findDeclaringType disk config origin typeName methodName)
      (findDeclaringType disk' config origin typeName methodName) :=
  .findDeclaringType (Accord.closed_sameModules _) trivial typeName methodName

end Query

namespace ModuleStore

/-- The store after a call. -/
def perform (disk : Disk) (s : ModuleStore) : StoreCall → ModuleStore
  | .request path => (s.request disk path).2
  | .findStateMachine config origin typeName methodName =>
    (Query.exec (findStateMachine disk config origin typeName methodName) s).2
  | .findDeclaringType config origin typeName methodName =>
    (Query.exec (findDeclaringType disk config origin typeName methodName) s).2
  | .clear => s.clear

/-- The store after some calls. -/
def after (disk : Disk) (calls : List StoreCall) (s : ModuleStore) : ModuleStore :=
  calls.foldl (perform disk) s

theorem extends_perform (disk : Disk) {call : StoreCall} (h : call ≠ .clear) (s : ModuleStore) :
    s.Extends (s.perform disk call) := by
  cases call with
  | request path => exact s.extends_request disk path
  | findStateMachine config origin typeName methodName =>
    exact (Query.inStep_findStateMachine disk disk config origin typeName methodName).extends_exec s
  | findDeclaringType config origin typeName methodName =>
    exact (Query.inStep_findDeclaringType disk disk config origin typeName
      methodName).extends_exec s
  | clear => exact absurd rfl h

/-- A store that is not cleared keeps what it holds. -/
theorem extends_after (disk : Disk) {calls : List StoreCall} (h : .clear ∉ calls)
    (s : ModuleStore) : s.Extends (after disk calls s) := by
  refine List.foldlRecOn (motive := s.Extends) calls (perform disk) (.refl s) ?_
  intro t ht call hcall
  exact ht.trans (t.extends_perform disk (ne_of_mem_of_not_mem hcall h))

end ModuleStore

namespace Session
variable {α β : Type} {s t u : Session}

/-- The outcome of a computation on a session, and the session after it. -/
def run (x : StateM Session α) (s : Session) : α × Session := StateT.run x s

theorem run_bind (x : StateM Session α) (f : α → StateM Session β) (s : Session) :
    run (x >>= f) s = run (f (run x s).1) (run x s).2 := rfl

/-- The new session holds what the old one does. -/
structure Extends (old new : Session) : Prop where
  config : new.config = old.config
  symbols : ∀ key known, old.symbols.lookup key = some known → new.symbols.lookup key = some known
  modules : old.modules.Extends new.modules

theorem Extends.refl (s : Session) : Extends s s := ⟨rfl, fun _ _ h => h, .refl s.modules⟩

theorem Extends.trans (h : Extends s t) (h' : Extends t u) : Extends s u where
  config := h'.config.trans h.config
  symbols key known hs := h'.symbols key known (h.symbols key known hs)
  modules := h.modules.trans h'.modules

/-- What symbols tell of a method, if they could be opened. A place without a file is none. -/
def placeIn (symbols? : Option Symbols) (t : Target) : Option SourceLocation :=
  symbols?.bind fun symbols =>
    (symbols.locate t.typeName t.methodName).filter fun l => !l.file.isEmpty

/-- What symbols tell does not depend on the path that they were opened for. -/
theorem placeIn_congr {symbols? symbols?' : Option Symbols}
    (h : symbols?.map (·.locate) = symbols?'.map (·.locate)) (t : Target) :
    placeIn symbols? t = placeIn symbols?' t := by
  have hmap : ∀ symbols? : Option Symbols, placeIn symbols? t =
      (symbols?.map (·.locate)).bind fun locate =>
        (locate t.typeName t.methodName).filter fun l => !l.file.isEmpty := by
    intro symbols?
    cases symbols? <;> rfl
  rw [hmap, hmap, h]

/-- The symbols that a session holds for a path, or else those that it would open for it now. -/
def symbolsFor (provider : SymbolProvider) (s : Session) (path : String) : Option Symbols :=
  (s.symbols.lookup (PathKey.ofPath path)).getD (provider s.openings path)

/-- What the symbols for the path of a method tell of it. -/
def told (provider : SymbolProvider) (s : Session) (t : Target) : Option SourceLocation :=
  placeIn (s.symbolsFor provider t.path) t

/-- The method that a query of the session's modules names, if the query is wanted. A failed query
names none. -/
def named (s : Session) (wanted : Config → Bool) (q : Config → Query (Option Target)) :
    Option Target :=
  if wanted s.config then (Query.exec (q s.config) s.modules).1.toOption.join else none

/-- The session after a query, if the query is wanted. -/
def queried (s : Session) (wanted : Config → Bool) (q : Config → Query (Option Target)) : Session :=
  if wanted s.config then { s with modules := (Query.exec (q s.config) s.modules).2 } else s

/-- Whether the symbols of a path were asked for, be it in vain. -/
def Holds (s : Session) (path : String) : Prop :=
  (s.symbols.lookup (PathKey.ofPath path)).isSome

theorem Extends.told_eq (h : s.Extends u) {t : Target} (ht : s.Holds t.path)
    (provider : SymbolProvider) : u.told provider t = s.told provider t := by
  obtain ⟨known, hknown⟩ := Option.isSome_iff_exists.mp ht
  rw [told, told, symbolsFor, symbolsFor, hknown, h.symbols _ _ hknown]
  rfl

/-- Symbols that are asked for are held from then on. -/
theorem run_symbolsOf (provider : SymbolProvider) (path : String) (s : Session) :
    (run (symbolsOf provider path) s).2.symbols.lookup (PathKey.ofPath path) =
        some (run (symbolsOf provider path) s).1 ∧
      s.Extends (run (symbolsOf provider path) s).2 ∧
      (run (symbolsOf provider path) s).2.modules = s.modules := by
  simp only [run, symbolsOf, StateT.run]
  cases hlookup : s.symbols.lookup (PathKey.ofPath path) with
  | some known => exact ⟨hlookup, .refl s, rfl⟩
  | none =>
    refine ⟨List.lookup_cons_self, ⟨rfl, ?_, .refl s.modules⟩, rfl⟩
    intro key known hknown
    exact lookup_cons_of_fresh hlookup hknown _

/-- A method that is looked up is told by the symbols that are held from then on. -/
theorem run_symbolLocation (provider : SymbolProvider) (t : Target) (s : Session) :
    (run (symbolLocation provider t) s).1 = (run (symbolLocation provider t) s).2.told provider t ∧
      (run (symbolLocation provider t) s).2.Holds t.path ∧
      s.Extends (run (symbolLocation provider t) s).2 ∧
      (run (symbolLocation provider t) s).2.modules = s.modules := by
  obtain ⟨hlookup, hextends, hmodules⟩ := run_symbolsOf provider t.path s
  rw [symbolLocation, run_bind]
  rcases hrun : run (symbolsOf provider t.path) s with ⟨_ | symbols, s'⟩
  · simp only [hrun] at hlookup hextends hmodules ⊢
    refine ⟨?_, ?_, hextends, hmodules⟩
    · change none = s'.told provider t
      rw [told, symbolsFor, hlookup]
      rfl
    · exact Option.isSome_iff_exists.mpr ⟨_, hlookup⟩
  · simp only [hrun] at hlookup hextends hmodules ⊢
    refine ⟨?_, ?_, ⟨hextends.config, hextends.symbols, hextends.modules⟩, hmodules⟩
    · change _ = (s'.record _).told provider t
      rw [told, symbolsFor, record, hlookup]
      rfl
    · exact Option.isSome_iff_exists.mpr ⟨_, hlookup⟩

/-- What a lookup answers can be read off every session that holds what it left. -/
structure Told (lookup : StateM Session (Option SourceLocation))
    (tells : Session → Option SourceLocation) : Prop where
  grows : ∀ s : Session, s.Extends (run lookup s).2
  eq_tells : ∀ s u : Session, (run lookup s).2.Extends u → (run lookup s).1 = tells u

namespace Told
variable {lookup : StateM Session (Option SourceLocation)}
  {tells : Session → Option SourceLocation}

/-- A lookup that is told answers again what it answered. -/
theorem again (h : Told lookup tells) (hu : (run lookup s).2.Extends u) :
    (run lookup u).1 = (run lookup s).1 := by
  rw [h.eq_tells u _ (.refl _), h.eq_tells s _ (hu.trans (h.grows u))]

theorem symbolLocation (provider : SymbolProvider) (t : Target) :
    Told (Session.symbolLocation provider t) (·.told provider t) where
  grows s := (run_symbolLocation provider t s).2.2.1
  eq_tells s u hu := by
    obtain ⟨hanswer, hholds, -⟩ := run_symbolLocation provider t s
    rw [hanswer, hu.told_eq hholds]

end Told

/-- A query that is wanted is run, and the method that it names is looked up in the symbols. -/
theorem run_fallback (provider : SymbolProvider) (wanted : Config → Bool)
    (q : Config → Query (Option Target)) (s : Session) :
    run (fallback provider wanted q) s =
      match s.named wanted q with
      | some target => run (symbolLocation provider target) (s.queried wanted q)
      | none => (none, s.queried wanted q) := by
  change run (if wanted s.config then _ else _) s = _
  by_cases hwanted : wanted s.config
  · rw [named, queried, if_pos hwanted, if_pos hwanted, if_pos hwanted, run_bind]
    have hquery : run (query (q s.config)) s = ((Query.exec (q s.config) s.modules).1,
        { s with modules := (Query.exec (q s.config) s.modules).2 }) := rfl
    rw [hquery]
    rcases Query.exec (q s.config) s.modules with ⟨_ | _ | target, modules⟩ <;> rfl
  · rw [named, queried, if_neg hwanted, if_neg hwanted, if_neg hwanted]
    rfl

section
variable {disk : Disk} {wanted : Config → Bool} {q : Config → Query (Option Target)}
  (hq : ∀ config, Query.InStep Accord.sameModules disk disk Eq (q config) (q config))
include hq

theorem extends_queried (s : Session) : s.Extends (s.queried wanted q) := by
  rw [queried]
  split
  · exact ⟨rfl, fun _ _ h => h, (hq s.config).extends_exec s.modules⟩
  · exact .refl s

/-- What a query names it names in every later session. -/
theorem Extends.named_eq (hu : (s.queried wanted q).Extends u) :
    u.named wanted q = s.named wanted q := by
  have hconfig : u.config = s.config := by
    rw [hu.config, queried]
    split <;> rfl
  rw [queried] at hu
  rw [named, named, hconfig]
  by_cases hwanted : wanted s.config
  · rw [if_pos hwanted] at hu
    rw [if_pos hwanted, if_pos hwanted]
    obtain ⟨r, hr, hagree⟩ := (hq s.config).again hu.modules
    rw [hr, hagree.toOption_eq]
  · rw [if_neg hwanted, if_neg hwanted]

theorem Told.fallback (provider : SymbolProvider) :
    Told (Session.fallback provider wanted q) fun u =>
      (u.named wanted q).bind (u.told provider) := by
  constructor
  · intro s
    rw [run_fallback]
    cases s.named wanted q with
    | none => exact extends_queried hq s
    | some target => exact (extends_queried hq s).trans ((symbolLocation provider target).grows _)
  · intro s u hu
    rw [run_fallback] at hu ⊢
    cases hnamed : s.named wanted q with
    | none =>
      rw [hnamed] at hu
      rw [Extends.named_eq hq hu, hnamed]
      rfl
    | some target =>
      rw [hnamed] at hu
      have hlooked := symbolLocation provider target
      rw [Extends.named_eq hq ((hlooked.grows _).trans hu), hnamed, hlooked.eq_tells _ u hu]
      rfl

end

/-- The first of several lookups decides, or the others do. -/
theorem run_firstOf_cons (lookup : StateM Session (Option SourceLocation))
    (rest : List (StateM Session (Option SourceLocation))) (s : Session) :
    run (firstOf (lookup :: rest)) s =
      match run lookup s with
      | (some location, s') => (some location, s')
      | (none, s') => run (firstOf rest) s' := by
  rw [firstOf, run_bind]
  rcases run lookup s with ⟨_ | location, s'⟩ <;> rfl

/-- The first of several lookups that finds a place is the first that is told to. -/
theorem Told.firstOf {lookups : List (StateM Session (Option SourceLocation))}
    {tells : List (Session → Option SourceLocation)} (h : List.Forall₂ Told lookups tells) :
    Told (Session.firstOf lookups) fun u => tells.findSome? fun tell => tell u := by
  induction h with
  | nil => exact ⟨.refl, fun _ _ _ => rfl⟩
  | @cons lookup tell lookups tells hlookup _ ih =>
    constructor
    · intro s
      have hgrows := hlookup.grows s
      rw [run_firstOf_cons]
      rcases hrun : run lookup s with ⟨_ | location, s'⟩ <;> rw [hrun] at hgrows
      · exact hgrows.trans (ih.grows s')
      · exact hgrows
    · intro s u hu
      have htell := hlookup.eq_tells s u
      rw [run_firstOf_cons] at hu ⊢
      rcases hrun : run lookup s with ⟨_ | location, s'⟩ <;> rw [hrun] at hu htell
      · have hrest : (run (Session.firstOf lookups) s').2.Extends u := hu
        rw [List.findSome?_cons, ← htell ((ih.grows s').trans hrest)]
        exact ih.eq_tells s' u hrest
      · rw [List.findSome?_cons, ← htell hu]

/-- The query for the method that holds the code of a reported method. -/
def holder (disk : Disk) (t : Target) (config : Config) : Query (Option Target) :=
  findStateMachine disk config t.path t.typeName t.methodName

/-- The query for the method that declares a reported method. -/
def declarer (disk : Disk) (t : Target) (config : Config) : Query (Option Target) :=
  findDeclaringType disk config t.path t.typeName t.methodName

theorem locate_eq (disk : Disk) (provider : SymbolProvider) (t : Target) :
    locate disk provider t.path t.typeName t.methodName =
      firstOf [symbolLocation provider t, fallback provider (·.stateMachines) (holder disk t),
        fallback provider (·.declaringTypes) (declarer disk t)] := rfl

theorem inStep_holder (disk disk' : Disk) (t : Target) (config : Config) :
    Query.InStep Accord.sameModules disk disk' Eq (holder disk t config) (holder disk' t config) :=
  Query.inStep_findStateMachine disk disk' config t.path t.typeName t.methodName

theorem inStep_declarer (disk disk' : Disk) (t : Target) (config : Config) :
    Query.InStep Accord.sameModules disk disk' Eq (declarer disk t config)
      (declarer disk' t config) :=
  Query.inStep_findDeclaringType disk disk' config t.path t.typeName t.methodName

theorem Told.locate (disk : Disk) (provider : SymbolProvider) (t : Target) :
    Told (Session.locate disk provider t.path t.typeName t.methodName) fun u =>
      [(·.told provider t),
        fun u => (u.named (·.stateMachines) (holder disk t)).bind (u.told provider),
        fun u => (u.named (·.declaringTypes) (declarer disk t)).bind (u.told provider)].findSome?
          fun tell => tell u := by
  rw [locate_eq]
  exact .firstOf (.cons (.symbolLocation provider t)
    (.cons (.fallback (inStep_holder disk disk t) provider)
      (.cons (.fallback (inStep_declarer disk disk t) provider) .nil)))

/-- The session after a call. -/
def perform (disk : Disk) (provider : SymbolProvider) (s : Session) : SessionCall → Session
  | .locate path typeName methodName =>
    (run (locate disk provider path typeName methodName) s).2
  | .close => s.close

/-- The session after some calls. -/
def after (disk : Disk) (provider : SymbolProvider) (calls : List SessionCall) (s : Session) :
    Session :=
  calls.foldl (perform disk provider) s

theorem extends_perform (disk : Disk) (provider : SymbolProvider) {call : SessionCall}
    (h : call ≠ .close) (s : Session) : s.Extends (s.perform disk provider call) := by
  cases call with
  | locate path typeName methodName =>
    exact (Told.locate disk provider ⟨path, typeName, methodName⟩).grows s
  | close => exact absurd rfl h

/-- A session that is not closed keeps what it holds. -/
theorem extends_after (disk : Disk) (provider : SymbolProvider) {calls : List SessionCall}
    (h : .close ∉ calls) (s : Session) : s.Extends (after disk provider calls s) := by
  refine List.foldlRecOn (motive := s.Extends) calls (perform disk provider) (.refl s) ?_
  intro t ht call hcall
  exact ht.trans (t.extends_perform disk provider (ne_of_mem_of_not_mem hcall h))

end Session
end MethodAtlas
