import MethodAtlas.Proofs.Navigation.Calls

/-!
# What sessions answer

A session answers the first place that is told to it: of the reported method, of the method that
holds its code, of the method that declares it. Symbols are opened once at most for a key until the
session is closed, and what a session has answered it answers again.
-/
namespace MethodAtlas.Session
variable {provider : SymbolProvider} {s s' s'' u : Session}

/-- One session comes from another by looking up methods, those that are known of `sought`, until
one is found. -/
structure Looks (provider : SymbolProvider) (s s' : Session) (answer : Option SourceLocation)
    (sought : List (Option Target)) : Prop where
  grows : s.Extends s'
  answer_eq : ∀ u, s'.Extends u → answer = sought.findSome? (·.bind (u.told provider))
  adds : ∃ added, Adds provider s s' sought added

namespace Looks
variable {sought rest : List (Option Target)}

theorem symbolLocation (provider : SymbolProvider) (t : Target) (s : Session) :
    Looks provider s (run (symbolLocation provider t) s).2 (run (symbolLocation provider t) s).1
      [some t] where
  grows := (Told.symbolLocation provider t).grows s
  answer_eq u hu := by
    rw [(Told.symbolLocation provider t).eq_tells s u hu]
    cases htold : u.told provider t <;> simp [htold]
  adds := adds_symbolLocation provider t s

/-- A lookup of a method that a query named begins with the query. -/
theorem fallback {disk : Disk} (wanted : Config → Bool) {q : Config → Query (Option Target)}
    (hq : ∀ config, Query.InStep Accord.sameModules disk disk Eq (q config) (q config))
    (provider : SymbolProvider) (s : Session) :
    Looks provider s (run (fallback provider wanted q) s).2 (run (fallback provider wanted q) s).1
      [s.named wanted q] := by
  have hqueried : s.Extends (s.queried wanted q) := extends_queried hq s
  have hadds : ∀ sought, Adds provider s (s.queried wanted q) sought [] := by
    intro sought
    apply Adds.refl <;>
    · rw [queried]
      split <;> rfl
  rw [run_fallback]
  cases s.named wanted q with
  | none => exact ⟨hqueried, fun _ _ => rfl, [], hadds _⟩
  | some target =>
    have hlooked := symbolLocation provider target (s.queried wanted q)
    obtain ⟨added, hadded⟩ := hlooked.adds
    exact ⟨hqueried.trans hlooked.grows, hlooked.answer_eq, _, (hadds _).trans hadded hlooked.grows⟩

/-- What was found is not sought any further. -/
theorem found {location : SourceLocation} (h : Looks provider s s' (some location) sought)
    (rest : List (Option Target)) : Looks provider s s' (some location) (sought ++ rest) where
  grows := h.grows
  answer_eq u hu := by rw [List.findSome?_append, ← h.answer_eq u hu, Option.some_or]
  adds := by
    obtain ⟨added, hadded⟩ := h.adds
    exact ⟨added, hadded.mono (List.subset_append_left sought rest)⟩

/-- What was not found is sought further. -/
theorem trans {answer : Option SourceLocation} (h : Looks provider s s' none sought)
    (h' : Looks provider s' s'' answer rest) : Looks provider s s'' answer (sought ++ rest) where
  grows := h.grows.trans h'.grows
  answer_eq u hu := by
    rw [List.findSome?_append, ← h.answer_eq u (h'.grows.trans hu), ← h'.answer_eq u hu,
      Option.none_or]
  adds := by
    obtain ⟨added, hadded⟩ := h.adds
    obtain ⟨added', hadded'⟩ := h'.adds
    exact ⟨_, (hadded.mono (List.subset_append_left sought rest)).trans
      (hadded'.mono (List.subset_append_right sought rest)) h'.grows⟩

theorem firstOf_nil (provider : SymbolProvider) (s : Session) :
    Looks provider s (run (firstOf []) s).2 (run (firstOf []) s).1 [] :=
  ⟨.refl s, fun _ _ => rfl, [], .refl rfl rfl⟩

theorem firstOf_cons {lookup : StateM Session (Option SourceLocation)}
    {lookups : List (StateM Session (Option SourceLocation))}
    (h : Looks provider s (run lookup s).2 (run lookup s).1 sought)
    (hrest : (run lookup s).1 = none → Looks provider (run lookup s).2
      (run (firstOf lookups) (run lookup s).2).2 (run (firstOf lookups) (run lookup s).2).1 rest) :
    Looks provider s (run (firstOf (lookup :: lookups)) s).2
      (run (firstOf (lookup :: lookups)) s).1 (sought ++ rest) := by
  rw [run_firstOf_cons]
  rcases hrun : run lookup s with ⟨_ | location, s'⟩ <;> rw [hrun] at h hrest
  · exact h.trans (hrest rfl)
  · exact h.found rest

end Looks

/-- The modules are as the query of a lookup left them. -/
theorem modules_fallback (provider : SymbolProvider) (wanted : Config → Bool)
    (q : Config → Query (Option Target)) (s : Session) :
    (run (fallback provider wanted q) s).2.modules = (s.queried wanted q).modules := by
  rw [run_fallback]
  cases s.named wanted q with
  | none => rfl
  | some target => exact (run_symbolLocation provider target _).2.2.2

/-- The method that a session names as the one that holds the code of a reported method. -/
def generated (disk : Disk) (t : Target) (s : Session) : Option Target :=
  s.named (·.stateMachines) (holder disk t)

/-- The session after the search for the method that holds the code of a reported method. -/
def searched (disk : Disk) (t : Target) (s : Session) : Session :=
  s.queried (·.stateMachines) (holder disk t)

/-- The method that a session names as the one that declares a reported method. -/
def declaring (disk : Disk) (t : Target) (s : Session) : Option Target :=
  s.named (·.declaringTypes) (declarer disk t)

/-- The methods that are sought in turn: the reported one, the one that holds its code, and the one
that declares it. -/
def sought (disk : Disk) (t : Target) (s : Session) : List (Option Target) :=
  [some t, s.generated disk t, (s.searched disk t).declaring disk t]

/-- What a query names, and the modules that it leaves, depend on the modules and on the
configuration alone. -/
theorem named_congr (wanted : Config → Bool) (q : Config → Query (Option Target))
    (hconfig : s'.config = s.config) (hmodules : s'.modules = s.modules) :
    s'.named wanted q = s.named wanted q ∧
      (s'.queried wanted q).config = (s.queried wanted q).config ∧
      (s'.queried wanted q).modules = (s.queried wanted q).modules := by
  rw [named, named, queried, queried, hconfig, hmodules]
  split
  · exact ⟨rfl, rfl, rfl⟩
  · exact ⟨rfl, hconfig, hmodules⟩

theorem sought_congr (disk : Disk) (t : Target) (hconfig : s'.config = s.config)
    (hmodules : s'.modules = s.modules) : s'.sought disk t = s.sought disk t := by
  obtain ⟨hgenerated, hconfig, hmodules⟩ :=
    named_congr (·.stateMachines) (holder disk t) hconfig hmodules
  obtain ⟨hdeclaring, -⟩ := named_congr (·.declaringTypes) (declarer disk t) hconfig hmodules
  rw [sought, generated, declaring, searched, hgenerated, hdeclaring]
  rfl

/-- The lookups that follow that of the reported method. -/
theorem looks_fallbacks (disk : Disk) (provider : SymbolProvider) (t : Target) (s : Session) :
    let lookups := [fallback provider (·.stateMachines) (holder disk t),
      fallback provider (·.declaringTypes) (declarer disk t)]
    Looks provider s (run (firstOf lookups) s).2 (run (firstOf lookups) s).1
      [s.generated disk t, (s.searched disk t).declaring disk t] := by
  have hgenerated := Looks.fallback (·.stateMachines) (inStep_holder disk disk t) provider s
  set s₁ := (run (fallback provider (·.stateMachines) (holder disk t)) s).2 with hs₁
  have hdeclaring := Looks.fallback (·.declaringTypes) (inStep_declarer disk disk t) provider s₁
  have hconfig : s₁.config = (s.searched disk t).config := by
    rw [hgenerated.grows.config, searched, queried]
    split <;> rfl
  have hmodules : s₁.modules = (s.searched disk t).modules := by
    rw [hs₁, modules_fallback, searched]
  rw [(named_congr _ _ hconfig hmodules).1] at hdeclaring
  have hrest := Looks.firstOf_cons hdeclaring fun _ => .firstOf_nil provider _
  have hlooks := Looks.firstOf_cons hgenerated fun _ => hrest
  exact hlooks

theorem looks_locate (disk : Disk) (provider : SymbolProvider) (t : Target) (s : Session) :
    Looks provider s (run (locate disk provider t.path t.typeName t.methodName) s).2
      (run (locate disk provider t.path t.typeName t.methodName) s).1 (s.sought disk t) := by
  obtain ⟨-, -, hgrows, hmodules⟩ := run_symbolLocation provider t s
  have hrest := looks_fallbacks disk provider t (run (symbolLocation provider t) s).2
  have hlooks := Looks.firstOf_cons (.symbolLocation provider t s) fun _ => hrest
  rw [← sought_congr disk t hgrows.config hmodules]
  exact hlooks

/-- The symbols of the reported method are asked first. -/
theorem extends_locate (disk : Disk) (provider : SymbolProvider) (t : Target) (s : Session) :
    (run (symbolLocation provider t) s).2.Extends
      (run (locate disk provider t.path t.typeName t.methodName) s).2 := by
  rw [locate, run_firstOf_cons]
  rcases run (symbolLocation provider t) s with ⟨_ | location, s₁⟩
  · exact (looks_fallbacks disk provider t s₁).grows
  · exact .refl s₁

theorem run_fallback_of_unwanted {wanted : Config → Bool} (h : wanted s.config = false)
    (provider : SymbolProvider) (q : Config → Query (Option Target)) :
    run (fallback provider wanted q) s = (none, s) := by
  rw [run_fallback, named, queried, h]
  rfl

/-- No module is asked for if the symbols tell of the reported method, or if no other method is
sought. -/
theorem modules_locate {disk : Disk} {t : Target}
    (h : (run (symbolLocation provider t) s).1.isSome ∨
      s.config.stateMachines = false ∧ s.config.declaringTypes = false) :
    (run (locate disk provider t.path t.typeName t.methodName) s).2.modules = s.modules := by
  obtain ⟨-, -, hgrows, hmodules⟩ := run_symbolLocation provider t s
  rw [locate, run_firstOf_cons]
  rcases hrun : run (symbolLocation provider t) s with ⟨_ | location, s₁⟩ <;>
    rw [hrun] at h hgrows hmodules
  · obtain h | ⟨hgenerated, hdeclaring⟩ := h
    · cases h
    · rw [← hgrows.config] at hgenerated hdeclaring
      dsimp only
      rw [run_firstOf_cons, run_fallback_of_unwanted hgenerated]
      dsimp only
      rw [run_firstOf_cons, run_fallback_of_unwanted hdeclaring]
      exact hmodules
  · exact hmodules

/-- The books stay right until the session is closed. -/
theorem exists_books_after (disk : Disk) {calls : List SessionCall} (hcalls : .close ∉ calls)
    (s : Session) {earlier : List SymbolCall} (h : Books provider s.symbols earlier) :
    ∃ added, (after disk provider calls s).calls = added ++ s.calls ∧
      Books provider (after disk provider calls s).symbols (added ++ earlier) := by
  refine List.foldlRecOn (motive := fun t => ∃ added, t.calls = added ++ s.calls ∧
    Books provider t.symbols (added ++ earlier)) calls (perform disk provider) ⟨[], rfl, h⟩ ?_
  rintro t ⟨added, hadded, hbooks⟩ call hcall
  cases call with
  | close => exact absurd hcall hcalls
  | locate path typeName methodName =>
    obtain ⟨last, hlast⟩ := (looks_locate disk provider ⟨path, typeName, methodName⟩ t).adds
    refine ⟨last ++ added, ?_, ?_⟩
    · rw [List.append_assoc, ← hadded]
      exact hlast.calls
    · rw [List.append_assoc]
      exact hlast.books _ hbooks

/-- **A session asks in turn.** It answers the first place that symbols tell: those of the reported
method, of the method that holds its code, and of the method that declares it, where a failed query
names no method. Every later session tells the same. Modules are left alone if the first symbols
tell, or if nothing else is wanted. Each lookup asks the symbols that are held for its path. From
one closing to the next, symbols are opened once at most for each key. -/
theorem answers_in_turn (disk : Disk) (provider : SymbolProvider) :
    (∀ (s : Session) (t : Target) (later : List SessionCall), .close ∉ later →
      let s' := (run (locate disk provider t.path t.typeName t.methodName) s).2
      let u := after disk provider later s'
      (run (locate disk provider t.path t.typeName t.methodName) s).1 =
          (s.sought disk t).findSome? (·.bind (u.told provider)) ∧
        ((u.told provider t).isSome ∨
            s.config.stateMachines = false ∧ s.config.declaringTypes = false →
          s'.modules = s.modules) ∧
        ∃ added, s'.calls = added ++ s.calls ∧
          ∀ call ∈ added, ∃ t', some t' ∈ s.sought disk t ∧ u.CallFor t' call) ∧
      ∀ (s : Session) (calls : List SessionCall), .close ∉ calls →
        ∃ added, (after disk provider calls s.close).calls = added ++ s.calls ∧
          Books provider (after disk provider calls s.close).symbols added := by
  constructor
  · intro s t later hlater s' u
    have hlooks := looks_locate disk provider t s
    have hu : s'.Extends u := extends_after disk provider hlater s'
    obtain ⟨added, hadded⟩ := hlooks.adds
    refine ⟨hlooks.answer_eq u hu, fun h => modules_locate (h.imp_left ?_), added, hadded.calls, ?_⟩
    · have hfirst := (extends_locate disk provider t s).trans hu
      rw [(Told.symbolLocation provider t).eq_tells s u hfirst]
      exact id
    · intro call hcall
      obtain ⟨t', ht', hcall⟩ := hadded.callFor call hcall
      exact ⟨t', ht', hcall.mono hu⟩
  · intro s calls hcalls
    obtain ⟨added, hadded, hbooks⟩ := exists_books_after disk hcalls s.close (.nil provider)
    rw [List.append_nil] at hbooks
    exact ⟨added, hadded, hbooks⟩

namespace Sample

/-- Symbols that know of one generated type. -/
def symbols : SymbolProvider := fun _ path =>
  some ⟨path, fun typeName _ => if typeName = "N.T+Go" then some ⟨"T.cs", 7⟩ else none⟩

/-- A session that has opened modules, and no symbols. -/
def session : Session := ⟨.standard, [], MethodAtlas.Sample.store, 0, []⟩

/-- A file that is written after it was looked for. -/
def late : Disk := fun n =>
  Image.fromFile ImageHeaders.read? fun _ =>
    if n = 0 then .error (.fileUnreadable true) else .ok MethodAtlas.Sample.bytes

end Sample

theorem answers_in_turn_sample :
    let t : Target := ⟨"Tests.dll", "N.T+Go", "MoveNext"⟩
    let later : List SessionCall := [.locate "base.dll" "N.Y" "Go"]
    let disk : Disk := .constant MethodAtlas.Sample.read
    let s' := (run (locate disk Sample.symbols t.path t.typeName t.methodName) Sample.session).2
    let u := after disk Sample.symbols later s'
    .close ∉ later ∧ (u.told Sample.symbols t).isSome ∧ s'.modules = Sample.session.modules ∧
      (run (locate disk Sample.symbols t.path t.typeName t.methodName) Sample.session).1 =
        (Sample.session.sought disk t).findSome? (·.bind (u.told Sample.symbols)) ∧
      ∃ added, (after disk Sample.symbols later Sample.session.close).calls =
          added ++ Sample.session.calls ∧
        Books Sample.symbols (after disk Sample.symbols later Sample.session.close).symbols
          added := by
  intro t later disk s' u
  have hlater : .close ∉ later := by decide
  have htold : (u.told Sample.symbols t).isSome := by decide +kernel
  obtain ⟨hrun, hbooks⟩ := answers_in_turn disk Sample.symbols
  obtain ⟨hanswer, hmodules, -⟩ := hrun Sample.session t later hlater
  exact ⟨hlater, htold, hmodules (.inl htold), hanswer, hbooks Sample.session later hlater⟩

/-- **Answers are final.** Whatever files become of, a session that is not closed answers again what
it has answered, and so do the queries of a store that is not cleared: with the same value, or with
faults that say alike whether a file is missing. -/
theorem answers_final (disk : Disk) (provider : SymbolProvider) :
    (∀ (s : Session) (calls : List SessionCall), .close ∉ calls →
      ∀ path typeName methodName,
        let first := run (locate disk provider path typeName methodName) s
        (run (locate disk provider path typeName methodName)
          (after disk provider calls first.2)).1 = first.1) ∧
      ∀ (s : ModuleStore) (calls : List StoreCall), .clear ∉ calls →
        ∀ config origin typeName methodName,
          let declaring := findDeclaringType disk config origin typeName methodName
          let generated := findStateMachine disk config origin typeName methodName
          Outcome.Agree Eq (Query.exec declaring s).1
              (Query.exec declaring
                (ModuleStore.after disk calls (Query.exec declaring s).2)).1 ∧
            Outcome.Agree Eq (Query.exec generated s).1
              (Query.exec generated
                (ModuleStore.after disk calls (Query.exec generated s).2)).1 := by
  constructor
  · intro s calls hcalls path typeName methodName
    exact (Told.locate disk provider ⟨path, typeName, methodName⟩).again
      (extends_after disk provider hcalls _)
  · intro s calls hcalls config origin typeName methodName declaring generated
    have hkept : ∀ t : ModuleStore, t.Extends (ModuleStore.after disk calls t) :=
      ModuleStore.extends_after disk hcalls
    constructor
    · obtain ⟨r, hr, hagree⟩ := (Query.inStep_findDeclaringType disk disk config origin typeName
        methodName).again (hkept (Query.exec declaring s).2)
      rwa [hr]
    · obtain ⟨r, hr, hagree⟩ := (Query.inStep_findStateMachine disk disk config origin typeName
        methodName).again (hkept (Query.exec generated s).2)
      rwa [hr]

/-- The file of a module is written too late for a session that has looked for it. -/
theorem answers_final_sample :
    let calls : List SessionCall := [.locate "base.dll" "N.T" "Go"]
    let lookup := locate Sample.late Sample.symbols "Tests.dll" "N.T" "Go"
    let generated := findStateMachine Sample.late .standard "Tests.dll" "N.T" "Go"
    let s := (Query.exec generated .empty).2
    .close ∉ calls ∧ .clear ∉ [StoreCall.request "base.dll"] ∧
      (run lookup
        (after Sample.late Sample.symbols calls (run lookup (new .standard)).2)).1 = none ∧
      Outcome.Agree Eq (Query.exec generated .empty).1 (Query.exec generated
        (ModuleStore.after Sample.late [.request "base.dll"] s)).1 := by
  intro calls lookup generated s
  have hcalls : .close ∉ calls := by decide
  have hclear : .clear ∉ [StoreCall.request "base.dll"] := by decide
  obtain ⟨hsession, hstore⟩ := answers_final Sample.late Sample.symbols
  have hfirst : (run lookup (new .standard)).1 = none := by decide +kernel
  have hagain := hsession (new .standard) calls hcalls "Tests.dll" "N.T" "Go"
  exact ⟨hcalls, hclear, hagain.trans hfirst,
    (hstore .empty _ hclear .standard "Tests.dll" "N.T" "Go").2⟩

end MethodAtlas.Session
