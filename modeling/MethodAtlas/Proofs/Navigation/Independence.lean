import MethodAtlas.Proofs.Navigation.Answers

/-!
# Answers that do not depend on earlier ones

Where files do not change and paths of one key hold the same file, a store shows for every path what
its file holds, whatever it was asked for before: it is faithful. Where the outcome of opening
symbols is a matter of the key alone, too, a session answers at all times what a new one does.
-/
namespace MethodAtlas

/-- Paths of one key hold the same file, or none that can be read. -/
def SameFiles (read : String → Except Fault Image) : Prop :=
  ∀ p q, PathKey.ofPath p = PathKey.ofPath q → Outcome.Agree Eq (read p) (read q)

namespace ModuleStore
variable {read : String → Except Fault Image} {s s' : ModuleStore}

/-- A store shows what the files hold. -/
def Faithful (read : String → Except Fault Image) (s : ModuleStore) : Prop :=
  ∀ path, Outcome.Agree Eq (s.shown read path) (Module.opened read path)

theorem faithful_of_nil (h : s.entries = []) : s.Faithful read := by
  intro path
  have hfind : s.find? path = none := by rw [find?, h, List.lookup_nil]
  rw [shown_of_not_find? hfind]
  exact .refl (fun _ => rfl) _

theorem Faithful.request (hread : SameFiles read) (hs : s.Faithful read) (path : String) :
    (s.request (.constant read) path).2.Faithful read := by
  intro other
  refine agree_shown_request (v := ⟨fun _ => True, Module.opened read⟩) eq_equivalence ?_
    (fun other _ => hs other) trivial trivial
  intro p q _ _ hkey
  refine (hread p q hkey).bind ?_
  rintro bytes _ rfl
  exact .refl (fun _ => rfl) _

/-- Faithful stores answer a request with the same module. -/
theorem Faithful.agree_request (hs : s.Faithful read) (hs' : s'.Faithful read) (path : String) :
    Outcome.Agree (Accord.sameModules.alike path) (s.request (.constant read) path).1
      (s'.request (.constant read) path).1 := by
  refine ((Outcome.Agree.map_left_iff.mp (hs path)).meet
    (Outcome.Agree.map_left_iff.mp (hs' path))).mono ?_
  rintro opened opened' ⟨m, -, hm, hm'⟩
  exact hm.trans hm'.symm

end ModuleStore

/-- A query answers alike from all faithful stores, and leaves faithful stores. -/
theorem Query.InStep.agree_of_faithful {read : String → Except Fault Image} {α β : Type}
    {R : α → β → Prop} {q : Query α} {q' : Query β} (hread : SameFiles read)
    (h : InStep Accord.sameModules (.constant read) (.constant read) R q q') {s s' : ModuleStore}
    (hs : s.Faithful read) (hs' : s'.Faithful read) :
    Outcome.Agree R (exec q s).1 (exec q' s').1 ∧
      (exec q s).2.Faithful read ∧ (exec q' s').2.Faithful read := by
  refine h.simulate (I := fun s s' => s.Faithful read ∧ s'.Faithful read) ?_ ⟨hs, hs'⟩
  rintro path - s s' ⟨hs, hs'⟩
  exact ⟨hs.agree_request hs' path, hs.request hread path, hs'.request hread path⟩

namespace ModuleStore
variable {read : String → Except Fault Image} {s : ModuleStore}

theorem Faithful.perform (hread : SameFiles read) (hs : s.Faithful read) (call : StoreCall) :
    (s.perform (.constant read) call).Faithful read := by
  cases call with
  | request path => exact hs.request hread path
  | findStateMachine config origin typeName methodName =>
    exact ((Query.inStep_findStateMachine _ _ config origin typeName methodName).agree_of_faithful
      hread hs hs).2.1
  | findDeclaringType config origin typeName methodName =>
    exact ((Query.inStep_findDeclaringType _ _ config origin typeName methodName).agree_of_faithful
      hread hs hs).2.1
  | clear => exact faithful_of_nil rfl

theorem Faithful.after (hread : SameFiles read) (hs : s.Faithful read) (calls : List StoreCall) :
    (ModuleStore.after (.constant read) calls s).Faithful read :=
  List.foldlRecOn (motive := Faithful read) calls _ hs fun _ ht call _ => ht.perform hread call

end ModuleStore

/-- What opening symbols tells is a matter of the key of the path alone. -/
def SymbolProvider.ByKey (provider : SymbolProvider) : Prop :=
  ∀ n n' p q, PathKey.ofPath p = PathKey.ofPath q →
    (provider n p).map (·.locate) = (provider n' q).map (·.locate)

/-- What newly opened symbols tell of a method. -/
def SymbolProvider.told (provider : SymbolProvider) (t : Target) : Option SourceLocation :=
  Session.placeIn (provider 0 t.path) t

namespace Session
variable {read : String → Except Fault Image} {provider : SymbolProvider} {config : Config}
  {s : Session}

/-- All that a session holds was opened, and its modules are as the files hold them. -/
structure Sound (read : String → Except Fault Image) (provider : SymbolProvider)
    (config : Config) (s : Session) : Prop where
  config : s.config = config
  symbols : ∃ calls, Books provider s.symbols calls
  modules : s.modules.Faithful read

theorem sound_of_nil (hconfig : s.config = config) (hsymbols : s.symbols = [])
    (hmodules : s.modules.entries = []) : Sound read provider config s :=
  ⟨hconfig, ⟨[], hsymbols ▸ .nil provider⟩, ModuleStore.faithful_of_nil hmodules⟩

/-- A sound session tells of a method what newly opened symbols do, whether it holds any or not. -/
theorem Sound.told_eq (hprovider : provider.ByKey) (hs : Sound read provider config s)
    (t : Target) : s.told provider t = provider.told t := by
  apply placeIn_congr
  rw [symbolsFor]
  cases hknown : s.symbols.lookup (PathKey.ofPath t.path) with
  | none => exact hprovider _ _ _ _ rfl
  | some known =>
    obtain ⟨before, after, hsymbols, -⟩ := List.lookup_eq_some_iff.mp hknown
    obtain ⟨calls, hbooks⟩ := hs.symbols
    obtain ⟨n, path, hentry, -⟩ := hbooks.held (PathKey.ofPath t.path, known)
      (hsymbols ▸ List.mem_append_right before List.mem_cons_self)
    obtain ⟨hkey, rfl⟩ := Prod.mk.inj hentry
    exact hprovider n 0 path t.path hkey.symm

/-- From every sound session a lookup has the same answer, and leaves a sound session. -/
def Steady (read : String → Except Fault Image) (provider : SymbolProvider) (config : Config)
    (lookup : StateM Session (Option SourceLocation)) (answer : Option SourceLocation) : Prop :=
  ∀ s, Sound read provider config s →
    (run lookup s).1 = answer ∧ Sound read provider config (run lookup s).2

namespace Steady

theorem symbolLocation (hprovider : provider.ByKey) (t : Target) :
    Steady read provider config (symbolLocation provider t) (provider.told t) := by
  intro s hs
  obtain ⟨hanswer, -, hgrows, hmodules⟩ := run_symbolLocation provider t s
  obtain ⟨added, hadded⟩ := adds_symbolLocation provider t s
  obtain ⟨calls, hbooks⟩ := hs.symbols
  have hsound : Sound read provider config (run (Session.symbolLocation provider t) s).2 :=
    ⟨hgrows.config.trans hs.config, ⟨_, hadded.books calls hbooks⟩, hmodules ▸ hs.modules⟩
  exact ⟨hanswer.trans (hsound.told_eq hprovider t), hsound⟩

/-- A query names in every sound session what it names in a new one. -/
theorem fallback (hread : SameFiles read) (hprovider : provider.ByKey) {wanted : Config → Bool}
    {q : Config → Query (Option Target)}
    (hq : ∀ config, Query.InStep Accord.sameModules (.constant read) (.constant read) Eq
      (q config) (q config)) :
    Steady read provider config (fallback provider wanted q)
      (((new config).named wanted q).bind provider.told) := by
  intro s hs
  obtain ⟨hagree, hleft, -⟩ := (hq config).agree_of_faithful hread hs.modules
    (ModuleStore.faithful_of_nil rfl : ModuleStore.empty.Faithful read)
  have hnamed : s.named wanted q = (new config).named wanted q := by
    rw [named, named, hs.config, hagree.toOption_eq]
    rfl
  have hqueried : Sound read provider config (s.queried wanted q) := by
    rw [queried]
    split
    · exact ⟨hs.config, hs.symbols, hs.config ▸ hleft⟩
    · exact hs
  rw [run_fallback, hnamed]
  cases (new config).named wanted q with
  | none => exact ⟨rfl, hqueried⟩
  | some target => exact symbolLocation hprovider target _ hqueried

theorem firstOf {lookups : List (StateM Session (Option SourceLocation))}
    {answers : List (Option SourceLocation)}
    (h : List.Forall₂ (Steady read provider config) lookups answers) :
    Steady read provider config (firstOf lookups) (answers.findSome? id) := by
  induction h with
  | nil => exact fun s hs => ⟨rfl, hs⟩
  | @cons lookup answer lookups answers hlookup _ ih =>
    intro s hs
    obtain ⟨hanswer, hsound⟩ := hlookup s hs
    rw [run_firstOf_cons]
    rcases hrun : run lookup s with ⟨_ | location, s'⟩ <;> rw [hrun] at hanswer hsound <;>
      rw [← hanswer]
    · exact ih s' hsound
    · exact ⟨rfl, hsound⟩

theorem locate (hread : SameFiles read) (hprovider : provider.ByKey) (t : Target) :
    Steady read provider config (locate (.constant read) provider t.path t.typeName t.methodName)
      ([provider.told t,
        ((new config).named (·.stateMachines) (holder (.constant read) t)).bind provider.told,
        ((new config).named (·.declaringTypes) (declarer (.constant read) t)).bind
          provider.told].findSome? id) := by
  rw [locate_eq]
  exact firstOf (.cons (symbolLocation hprovider t)
    (.cons (fallback hread hprovider (inStep_holder _ _ t))
      (.cons (fallback hread hprovider (inStep_declarer _ _ t)) .nil)))

end Steady

theorem Sound.perform (hread : SameFiles read) (hprovider : provider.ByKey)
    (hs : Sound read provider config s) (call : SessionCall) :
    Sound read provider config (s.perform (.constant read) provider call) := by
  cases call with
  | locate path typeName methodName =>
    exact (Steady.locate hread hprovider ⟨path, typeName, methodName⟩ s hs).2
  | close => exact sound_of_nil hs.config rfl rfl

theorem Sound.after (hread : SameFiles read) (hprovider : provider.ByKey)
    (hs : Sound read provider config s) (calls : List SessionCall) :
    Sound read provider config (after (.constant read) provider calls s) :=
  List.foldlRecOn (motive := Sound read provider config) calls _ hs fun _ ht call _ =>
    ht.perform hread hprovider call

/-- **Answers do not depend on earlier ones.** Where files do not change, paths of one key hold the
same file and symbols open alike, a session answers after any calls what a new one does. The queries
of a store answer after any calls what they answer on the empty one: with the same value, or with
faults that say alike whether a file is missing. -/
theorem answers_independent (hread : SameFiles read) (hprovider : provider.ByKey) :
    (∀ (config : Config) (calls : List SessionCall) (path typeName methodName : String),
      let lookup := locate (.constant read) provider path typeName methodName
      (run lookup (after (.constant read) provider calls (new config))).1 =
        (run lookup (new config)).1) ∧
      ∀ (calls : List StoreCall) (config : Config) (origin typeName methodName : String),
        let disk : Disk := .constant read
        let declaring := findDeclaringType disk config origin typeName methodName
        let generated := findStateMachine disk config origin typeName methodName
        Outcome.Agree Eq (Query.exec declaring (ModuleStore.after disk calls .empty)).1
            (Query.exec declaring .empty).1 ∧
          Outcome.Agree Eq (Query.exec generated (ModuleStore.after disk calls .empty)).1
            (Query.exec generated .empty).1 := by
  constructor
  · intro config calls path typeName methodName lookup
    have hnew : Sound read provider config (new config) := sound_of_nil rfl rfl rfl
    have hsteady := fun s (hs : Sound read provider config s) =>
      Steady.locate hread hprovider ⟨path, typeName, methodName⟩ s hs
    exact (hsteady _ (hnew.after hread hprovider calls)).1.trans (hsteady _ hnew).1.symm
  · intro calls config origin typeName methodName disk declaring generated
    have hempty : ModuleStore.empty.Faithful read := ModuleStore.faithful_of_nil rfl
    have hafter := hempty.after hread calls
    constructor
    · exact ((Query.inStep_findDeclaringType disk disk config origin typeName
        methodName).agree_of_faithful hread hafter hempty).1
    · exact ((Query.inStep_findStateMachine disk disk config origin typeName
        methodName).agree_of_faithful hread hafter hempty).1

namespace Sample

/-- The sample under all spellings of one path, and no other file. -/
def anyCase : String → Except Fault Image :=
  Image.fromFile ImageHeaders.read? fun path =>
    if PathKey.ofPath path = PathKey.ofPath "tests.dll" then .ok MethodAtlas.Sample.bytes
    else .error (.fileUnreadable true)

theorem sameFiles_anyCase : SameFiles anyCase := by
  intro p q hkey
  rw [anyCase, Image.fromFile, Image.fromFile, hkey]
  exact .refl (fun _ => rfl) _

theorem byKey_symbols : symbols.ByKey := fun _ _ _ _ _ => rfl

end Sample

theorem answers_independent_sample :
    let disk : Disk := .constant Sample.anyCase
    let lookup := locate disk Sample.symbols "Tests.dll" "N.T" "Go"
    let calls : List SessionCall :=
      [.locate "TESTS.dll" "N.T" "Go", .close, .locate "base.dll" "N.Y" "Go"]
    let generated := findStateMachine disk .standard "Tests.dll" "N.T" "Go"
    let s := ModuleStore.after disk [.request "TESTS.dll", .request "base.dll"] .empty
    SameFiles Sample.anyCase ∧ Sample.symbols.ByKey ∧
      (run lookup (after disk Sample.symbols calls (new .standard))).1 =
        (run lookup (new .standard)).1 ∧
      Outcome.Agree Eq (Query.exec generated s).1 (Query.exec generated .empty).1 := by
  intro disk lookup calls generated s
  obtain ⟨hsession, hstore⟩ :=
    answers_independent Sample.sameFiles_anyCase Sample.byKey_symbols
  exact ⟨Sample.sameFiles_anyCase, Sample.byKey_symbols,
    hsession .standard calls "Tests.dll" "N.T" "Go",
    (hstore _ .standard "Tests.dll" "N.T" "Go").2⟩

end Session
end MethodAtlas
