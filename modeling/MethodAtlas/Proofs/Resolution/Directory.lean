import MethodAtlas.Proofs.Files.Parents
import MethodAtlas.Proofs.Module.Members
import MethodAtlas.Proofs.Resolution.References
import MethodAtlas.Proofs.Resolution.Walks
import MethodAtlas.Proofs.Store.Asked

/-!
# Searches in one directory

A search looks for each module beside the one that refers to it, under the name that stands in the
reference. If these names stand for files, then all modules lie in the directory of the origin,
whatever else they hold: `searches_stay_in_directory`. Nothing but the names matters, and they are
taken as they are: the sample at the end is led to another directory by a name with a slash.
-/
namespace MethodAtlas

/-- A reference leads somewhere only from a row that can be read. -/
theorem Module.exists_row_of_referenceTarget {m : Module} {rid : Nat}
    {target : Option (String × TypeName)} (h : m.referenceTarget rid = .ok target) :
    ∃ row, m.row TypeReference rid = some row := by
  rw [referenceTarget, referencePath, referencePathBy, Climb.walk] at h
  obtain ⟨_, hpath, -⟩ := Outcome.bind_eq_ok.mp h
  obtain ⟨_, hwalk, -⟩ := Outcome.bind_eq_ok.mp hpath
  obtain ⟨row, hrow, -⟩ := Outcome.bind_eq_ok.mp hwalk
  exact ⟨row, needRow_eq_ok.mp hrow⟩

/-- A path of the directory that an origin lies in, or the origin itself. -/
def Path.IsBeside (origin path : String) : Prop :=
  path = origin ∨ parent? path = some (directoryOf origin)

/-- The names of the assemblies that a module refers to stand for files, under each extension. -/
def Module.RefersPlainly (m : Module) (extensions : List String) : Prop :=
  ∀ rid assembly name, m.referenceTarget rid = .ok (some (assembly, name)) →
    ∀ extension ∈ extensions, Path.IsFileName (assembly ++ "." ++ extension)

/-- The modules beside an origin refer plainly, those that a store holds and those that it can still
open. -/
structure PlainDirectory (disk : Disk) (extensions : List String) (origin : String)
    (s : ModuleStore) : Prop where
  kept : ∀ path opened, Path.IsBeside origin path → s.find? path = some (.opened opened) →
    opened.module.RefersPlainly extensions
  read : ∀ n path image m, Path.IsBeside origin path → disk n path = .ok image →
    Module.ofImage image = .ok m → m.RefersPlainly extensions

/-- Only paths beside an origin can be asked for, and they show modules that refer plainly. -/
def Accord.plain (extensions : List String) (origin : String) : Accord where
  asked := Path.IsBeside origin
  alike _ m m' := m = m' ∧ m.module.RefersPlainly extensions
  same h := h.1 ▸ .refl _

theorem Accord.closed_plain (extensions : List String) (origin : String) :
    (plain extensions origin).Closed extensions := by
  rintro path opened _ rid assembly name hpath ⟨rfl, hplain⟩ htarget extension hextension
  have hdirectory : Path.directoryOf path = Path.directoryOf origin := by
    rcases hpath with rfl | hparent
    · rfl
    · rw [Path.directoryOf, hparent, Option.getD_some]
  rw [hdirectory]
  exact .inr (Path.parent?_module (hplain rid assembly name htarget extension hextension))

namespace PlainDirectory
variable {disk : Disk} {extensions : List String} {origin path : String} {s : ModuleStore}

/-- A request beside the origin is answered with a module that refers plainly. -/
theorem of_request (h : PlainDirectory disk extensions origin s) (hpath : Path.IsBeside origin path)
    {opened : OpenModule} (hrequest : (s.request disk path).1 = .ok opened) :
    opened.module.RefersPlainly extensions := by
  cases hfind : s.find? path with
  | some entry =>
    rw [ModuleStore.request_of_find? hfind] at hrequest
    cases entry with
    | opened m =>
      cases hrequest
      exact h.kept path opened hpath hfind
    | failed missing => cases hrequest
  | none =>
    rw [ModuleStore.request_of_not_find? hfind] at hrequest
    obtain ⟨image, himage, hload⟩ := Outcome.bind_eq_ok.mp hrequest
    obtain ⟨m, hm, hopened⟩ := Outcome.bind_eq_ok.mp hload
    cases hopened
    exact h.read _ path image m hpath himage hm

/-- A request beside the origin keeps the directory plain. -/
theorem request (h : PlainDirectory disk extensions origin s) (hpath : Path.IsBeside origin path) :
    PlainDirectory disk extensions origin (s.request disk path).2 where
  kept other opened hother hfind := by
    by_cases hkey : PathKey.ofPath other = PathKey.ofPath path
    · obtain ⟨entry, hentry, hanswer⟩ := ModuleStore.exists_find?_repeated disk s hkey
      obtain rfl := Option.some.inj (hentry.symm.trans hfind)
      refine h.of_request hpath ?_
      cases hrequest : (s.request disk path).1 with
      | ok m =>
        rw [hrequest] at hanswer
        exact hanswer.symm
      | error e =>
        rw [hrequest] at hanswer
        cases hanswer
    · rw [ModuleStore.find?_request_of_ne hkey] at hfind
      exact h.kept other opened hother hfind
  read := h.read

theorem agree_request (h : PlainDirectory disk extensions origin s)
    (hpath : Path.IsBeside origin path) :
    Outcome.Agree ((Accord.plain extensions origin).alike path) (s.request disk path).1
      (s.request disk path).1 := by
  cases hrequest : (s.request disk path).1 with
  | ok opened => exact .ok ⟨rfl, h.of_request hpath hrequest⟩
  | error e => exact .error rfl

/-- What is in step with itself asks only for paths beside the origin. -/
theorem asksOnly (h : PlainDirectory disk extensions origin s) {α : Type} {R : α → α → Prop}
    {q : Query α} (hq : Query.InStep (Accord.plain extensions origin) disk disk R q q) :
    q.AsksOnly disk (Path.IsBeside origin) s :=
  hq.asksOnly (fun _ hpath _ hs => ⟨hs.agree_request hpath, hs.request hpath⟩) h

end PlainDirectory

/-- **Searches stay in the directory of their origin.** From an origin whose directory is plain, the
walk to the declaring type and the search for a generated type ask only for the origin and for paths
in its directory, whatever the modules there hold and whichever of them can be opened. -/
theorem searches_stay_in_directory {disk : Disk} {config : Config} {origin : String}
    {s : ModuleStore} (h : PlainDirectory disk config.extensions origin s)
    (typeName methodName : String) :
    (findDeclaringType disk config origin typeName methodName).AsksOnly disk
      (Path.IsBeside origin) s ∧
    (findStateMachine disk config origin typeName methodName).AsksOnly disk
      (Path.IsBeside origin) s := by
  have hclosed := Accord.closed_plain config.extensions origin
  have hsame : ∀ m m', (Accord.plain config.extensions origin).alike origin m m' →
      StateMachine.attributesOf m.module = StateMachine.attributesOf m'.module := by
    rintro m _ ⟨rfl, -⟩
    rfl
  have horigin : (Accord.plain config.extensions origin).asked origin := .inl rfl
  exact ⟨h.asksOnly (.findDeclaringType hclosed horigin typeName methodName),
    h.asksOnly (.findStateMachine hclosed horigin hsame typeName methodName)⟩

namespace Sample

theorem refersPlainly : module.RefersPlainly Config.standard.extensions := by
  have hnames : ∀ rid ∈ List.range' 1 6, ∀ target ∈ (module.referenceTarget rid).toOption.join,
      ∀ extension ∈ Config.standard.extensions, Path.IsFileName (target.1 ++ "." ++ extension) := by
    decide +kernel
  have hcount : module.tables.rows (Record.table TypeReference) = 6 := by decide +kernel
  intro rid assembly name htarget
  obtain ⟨row, hrow⟩ := Module.exists_row_of_referenceTarget htarget
  obtain ⟨-, h1, h2⟩ := module.tables.rid_of_row hrow
  exact hnames rid (List.mem_range'_1.mpr ⟨h1, by omega⟩) (assembly, name) (by rw [htarget]; rfl)

theorem plainDirectory :
    PlainDirectory (.constant read) Config.standard.extensions "Tests.dll" .empty where
  kept path opened _ hfind := by cases hfind
  read n path image m _ himage hm := by
    have hread : read path = Image.ofBytes ImageHeaders.read? bytes := Image.fromFile_of_ok rfl
    have hbytes : Module.ofBytes ImageHeaders.read? bytes = .ok m :=
      Outcome.bind_eq_ok.mpr ⟨image, hread ▸ himage, hm⟩
    rw [ofBytes_eq] at hbytes
    cases hbytes
    exact refersPlainly

end Sample

theorem searches_stay_in_directory_sample :
    PlainDirectory (.constant Sample.read) Config.standard.extensions "Tests.dll" .empty ∧
      (findDeclaringType (.constant Sample.read) .standard "Tests.dll" "N.Y+Inner" "Go").AsksOnly
        (.constant Sample.read) (Path.IsBeside "Tests.dll") .empty ∧
      (findStateMachine (.constant Sample.read) .standard "Tests.dll" "N.T" "Go").AsksOnly
        (.constant Sample.read) (Path.IsBeside "Tests.dll") .empty :=
  ⟨Sample.plainDirectory,
    (searches_stay_in_directory Sample.plainDirectory "N.Y+Inner" "Go").1,
    (searches_stay_in_directory Sample.plainDirectory "N.T" "Go").2⟩

namespace Sample

/-- The names of the sample, but the second assembly has one that leads to another directory. -/
def strayedStrings : StringHeap where
  bytes := ⟨(StringHeap.encode ["N", "T", "X", "Y", "Inner", "Go", ".ctor", "Base", "../x",
    "System", "Type", "System.Runtime.CompilerServices", "StateMachineAttribute"]).toArray⟩
  startsEmpty := by decide +kernel

/-- What a file with these names is read to. -/
def strayed : Module := moduleWith tables strayedStrings module.nesting module.namespaces

/-- A disk that has this file under each name. -/
def readStrayed : String → Except Fault Image :=
  Image.fromFile ImageHeaders.read? fun _ => .ok (bytesWith tables strayedStrings)

theorem ofBytes_strayed :
    Module.ofBytes ImageHeaders.read? (bytesWith tables strayedStrings) = .ok strayed := by
  obtain ⟨hlength, -, htables⟩ := sizes_and_ofBytes
  have hnames : strayedStrings.bytes.data.toList.length = 100 := by decide +kernel
  have hgathered : strayed.Gathered := ⟨gathered.nesting, by decide +kernel⟩
  exact ofBytes_bytesWith hlength hnames (by decide +kernel) (by decide +kernel) htables hgathered

/-- The module at the origin. -/
def inside : LocatedModule := ⟨"Tests.dll", ⟨0, strayed⟩⟩

/-- The module that the name leads to. -/
def outside : LocatedModule := ⟨"../x.dll", ⟨1, strayed⟩⟩

/-- The store when the origin is open. -/
def storeInside : ModuleStore := ⟨[(.ofPath "Tests.dll", .opened inside.opened)], 1⟩

/-- The store when both are open. -/
def storeOutside : ModuleStore where
  entries := (.ofPath "../x.dll", .opened outside.opened) :: storeInside.entries
  openings := 2

theorem request_inside : ModuleStore.empty.request (.constant readStrayed) "Tests.dll" =
    (.ok inside.opened, storeInside) :=
  ModuleStore.request_of_ofBytes rfl (Image.fromFile_of_ok rfl) ofBytes_strayed

theorem request_outside : storeInside.request (.constant readStrayed) "../x.dll" =
    (.ok outside.opened, storeOutside) :=
  ModuleStore.request_of_ofBytes rfl (Image.fromFile_of_ok rfl) ofBytes_strayed

/-- The base type of `N.Y+Inner` is looked for in another directory, and found there. -/
theorem resolveBeside_inside :
    Query.Asks (.constant readStrayed) (resolveBeside (.constant readStrayed)
        Config.standard.extensions inside (.reference 4)) storeInside ["../x.dll"] ∧
      Query.exec (resolveBeside (.constant readStrayed) Config.standard.extensions inside
        (.reference 4)) storeInside = (.ok (.found (.elsewhere outside 1)), storeOutside) := by
  have htarget : inside.module.referenceTarget 4 = .ok (some ("../x", ⟨"N", [], "T"⟩)) := by
    decide +kernel
  have hfind : outside.module.findType ⟨"N", [], "T"⟩ = .ok (some 1) := by decide +kernel
  have hdirectory : Path.directoryOf inside.path = "" := by decide +kernel
  have hlocate : locateBeside (.constant readStrayed) Config.standard.extensions inside.path
      "../x" = locateIn (.constant readStrayed) "" "../x" ["dll", "exe"] := by
    rw [locateBeside, hdirectory]
    rfl
  have hpath : Path.module "" "../x" "dll" = "../x.dll" := by decide +kernel
  have hasks : Query.Asks (.constant readStrayed) (locateBeside (.constant readStrayed)
      Config.standard.extensions inside.path "../x") storeInside ["../x.dll"] := by
    rw [hlocate, locateIn, hpath]
    refine .ask ?_
    rw [request_outside]
    exact .answer _ _
  have hexec : Query.exec (locateBeside (.constant readStrayed) Config.standard.extensions
      inside.path "../x") storeInside = (.ok (some outside), storeOutside) := by
    rw [hlocate, locateIn, hpath, Query.exec_ask, request_outside]
    rfl
  constructor
  · rw [resolveBeside, resolveType]
    exact .ofExcept_bind htarget (hasks.bind hexec (.answer _ _))
  · rw [resolveBeside, exec_resolveType_of_some htarget hexec, resolveIn, hfind]
    rfl

theorem baseOf_inside :
    Query.Asks (.constant readStrayed) (Declaring.baseOf (.constant readStrayed) .standard inside
        (.reference 4)) storeInside ["../x.dll"] ∧
      Query.exec (Declaring.baseOf (.constant readStrayed) .standard inside (.reference 4))
        storeInside = (.ok (some (outside, 1)), storeOutside) := by
  obtain ⟨hasks, hexec⟩ := resolveBeside_inside
  have hattempt : Query.exec (resolveBeside (.constant readStrayed) Config.standard.extensions
      inside (.reference 4)).attempt storeInside =
        (.ok (.ok (.found (.elsewhere outside 1))), storeOutside) := by
    rw [Query.exec_attempt, hexec]
  constructor
  · rw [Declaring.baseOf]
    exact hasks.attempt.bind hattempt (.answer (.ok (some (outside, 1))) storeOutside)
  · rw [Declaring.baseOf, Query.exec_bind_of_ok hattempt]
    rfl

/-- The walk from `N.Y+Inner` goes on outside, and ends there. -/
theorem walk_inside :
    Query.Asks (.constant readStrayed) (Declaring.walk ⟨"Tests.dll", "N.Y+Inner", "Go"⟩
        (.constant readStrayed) .standard (Config.standard.depthLimit + 1) true none inside 3)
      storeInside ["../x.dll"] := by
  have hfirst : Declaring.inspect ⟨"Tests.dll", "N.Y+Inner", "Go"⟩ .standard true none inside 3 =
      .ok (.goOn (.reference 4) none) := by decide +kernel
  have hsecond : Declaring.inspect ⟨"Tests.dll", "N.Y+Inner", "Go"⟩ .standard false none outside 1 =
      .ok (.answer (some ⟨"../x.dll", "N.T", "Go"⟩)) := by decide +kernel
  obtain ⟨hasks, hexec⟩ := baseOf_inside
  have hlast : Query.Asks (.constant readStrayed) (Declaring.walk ⟨"Tests.dll", "N.Y+Inner", "Go"⟩
      (.constant readStrayed) .standard (63 + 1) false none outside 1) storeOutside [] := by
    rw [Declaring.walk]
    exact .ofExcept_bind hsecond (.answer (.ok (some (⟨"../x.dll", "N.T", "Go"⟩ : Target))) _)
  rw [Declaring.walk]
  exact .ofExcept_bind hfirst (hasks.bind hexec hlast)

end Sample

/-- A name with a slash leads the walk out of the directory, and the store opens a module there. -/
theorem findDeclaringType_strays :
    Module.ofBytes ImageHeaders.read? (Sample.bytesWith Sample.tables Sample.strayedStrings) =
        .ok Sample.strayed ∧
      (∀ extension ∈ Config.standard.extensions, '/' ∉ extension.toList) ∧
      Query.Asks (.constant Sample.readStrayed)
        (findDeclaringType (.constant Sample.readStrayed) .standard "Tests.dll" "N.Y+Inner" "Go")
        .empty ["Tests.dll", "../x.dll"] ∧
      Path.parent? "Tests.dll" = some "" ∧ Path.parent? "../x.dll" = some ".." ∧
      (Query.exec (findDeclaringType (.constant Sample.readStrayed) .standard "Tests.dll"
        "N.Y+Inner" "Go") .empty).2.contains "../x.dll" = true := by
  have hfind : Sample.strayed.findFull "N.Y+Inner" = .ok (some 3) := by decide +kernel
  have hopen : Query.exec (Query.module (.constant Sample.readStrayed) "Tests.dll") .empty =
      (.ok Sample.inside.opened, Sample.storeInside) := Sample.request_inside
  have hasks : Query.Asks (.constant Sample.readStrayed)
      (findDeclaringType (.constant Sample.readStrayed) .standard "Tests.dll" "N.Y+Inner" "Go")
      .empty ["Tests.dll", "../x.dll"] :=
    (Query.Asks.module "Tests.dll" .empty).bind hopen (.ofExcept_bind hfind Sample.walk_inside)
  exact ⟨Sample.ofBytes_strayed, by decide, hasks, by decide +kernel, by decide +kernel,
    hasks.contains_exec_iff.mpr (.inr ⟨"../x.dll", by simp, rfl⟩)⟩

end MethodAtlas
