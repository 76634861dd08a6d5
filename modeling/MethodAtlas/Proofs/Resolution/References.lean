import MethodAtlas.Resolution.Reference
import MethodAtlas.Proofs.Module.Cycles
import MethodAtlas.Proofs.Name.FullNames
import MethodAtlas.Proofs.Query

/-!
# Where references lead

A reference that is resolved in another module leads to a type of the same full name: the names
were read from the scopes of the reference, looked up from the outside, and are read again from
the types around what was found. `resolveType_elsewhere` says so for every locator.
-/
namespace MethodAtlas

namespace TypePath

/-- The parts of the full name put the path together again. -/
theorem path_toTypeName {p : TypePath} (h : p.names ≠ []) : p.toTypeName.path = p.names :=
  TypeName.path_ofPath h

end TypePath

namespace Module
variable {m : Module}

theorem names_ne_nil_of_referencePath {rid : Nat} {path : TypePath} {scope : CodedIndex}
    (h : m.referencePath rid = .ok (path, scope)) : path.names ≠ [] := by
  obtain ⟨rids, hends, hnames, -⟩ := referencePath_eq_ok_iff.mp h
  apply List.ne_nil_of_length_pos
  rw [← List.length_reverse, ← hnames.length_eq]
  exact hends.length_pos

/-- A reference that leads to an assembly names the assembly at the end of its scopes. -/
theorem referenceTarget_eq_some {rid : Nat} {assembly : String} {name : TypeName}
    (h : m.referenceTarget rid = .ok (some (assembly, name))) :
    ∃ path scope row, m.referencePath rid = .ok (path, scope) ∧ scope.table = .assemblyRef ∧
      scope.isNull = false ∧ m.needRow AssemblyReference scope.row = .ok row ∧
      m.string row.record.name = .ok assembly ∧ name = path.toTypeName := by
  rw [referenceTarget] at h
  obtain ⟨⟨path, scope⟩, hpath, h⟩ := Outcome.bind_eq_ok.mp h
  dsimp only at h
  split at h
  · cases h
  · next hscope =>
    obtain ⟨row, hrow, h⟩ := Outcome.bind_eq_ok.mp h
    obtain ⟨found, hname, h⟩ := Outcome.bind_eq_ok.mp h
    cases h
    simp only [ne_eq, not_or, not_not, Bool.not_eq_true] at hscope
    exact ⟨path, scope, row, hpath, hscope.1, hscope.2, hrow, hname, rfl⟩

end Module

/-- A reference that leads to an assembly is looked up in what the locator finds for it. -/
theorem exec_resolveType_of_some {σ : Type}
    {locate : String → ExceptT Fault (StateM σ) (Option LocatedModule)} {m : Module} {rid : Nat}
    {assembly : String} {name : TypeName} {located : Option LocatedModule} {s s' : σ}
    (htarget : m.referenceTarget rid = .ok (some (assembly, name)))
    (hlocate : Query.exec (locate assembly) s = (.ok located, s')) :
    Query.exec (resolveType locate m (.reference rid)) s = (resolveIn name located, s') := by
  rw [resolveType, htarget, Query.exec_bind_of_ok (Query.exec_mk_pure _ _)]
  simp only
  rw [Query.exec_bind_of_ok hlocate, Query.exec_mk_pure]

/-- A type is found elsewhere only in what the locator found. -/
theorem resolveIn_eq_elsewhere {name : TypeName} {located : Option LocatedModule}
    {target : LocatedModule} {found : Nat}
    (h : resolveIn name located = .ok (.found (.elsewhere target found))) :
    located = some target ∧ target.module.findType name = .ok (some found) := by
  cases located with
  | none => cases h
  | some candidate =>
    obtain ⟨rid, hrid, h⟩ := Outcome.bind_eq_ok.mp h
    cases rid <;> cases h
    exact ⟨rfl, hrid⟩

/-- A reference is resolved in another module only to a type of its own full name, in the module
that the locator found for the assembly at the end of its scopes. -/
theorem resolveType_elsewhere {σ : Type}
    {locate : String → ExceptT Fault (StateM σ) (Option LocatedModule)} {m : Module} {rid : Nat}
    {s s' : σ} {target : LocatedModule} {found : Nat} {readHeaders : HeaderReader}
    {bytes : ByteArray}
    (h : Query.exec (resolveType locate m (.reference rid)) s =
      (.ok (.found (.elsewhere target found)), s'))
    (hread : Module.ofBytes readHeaders bytes = .ok target.module)
    (honce : target.module.NestedOnce) :
    ∃ path scope row assembly, m.referencePath rid = .ok (path, scope) ∧
      scope.table = .assemblyRef ∧ scope.isNull = false ∧
      m.needRow AssemblyReference scope.row = .ok row ∧ m.string row.record.name = .ok assembly ∧
      Query.exec (locate assembly) s = (.ok (some target), s') ∧
      target.module.typePath found = .ok path ∧
      m.referenceFullName rid = .ok path.full ∧
      target.module.typeFullName found = .ok path.full := by
  obtain ⟨named, mid, htarget, hrest⟩ := Query.exec_bind_eq_ok.mp h
  rw [Query.exec_mk_pure] at htarget
  cases named with
  | none => simp at hrest
  | some pair =>
    obtain ⟨assembly, name⟩ := pair
    obtain ⟨located, last, hlocate, hresolve⟩ := Query.exec_bind_eq_ok.mp hrest
    rw [Query.exec_mk_pure] at hresolve
    simp only [Prod.mk.injEq] at htarget hresolve
    obtain ⟨htarget, rfl⟩ := htarget
    obtain ⟨hfound, rfl⟩ := hresolve
    obtain ⟨path, scope, row, hpath, htable, hnull, hrow, hname, rfl⟩ :=
      Module.referenceTarget_eq_some htarget
    obtain ⟨rfl, hfind⟩ := resolveIn_eq_elsewhere hfound
    have hnames : path.toTypeName.path = path.names :=
      TypePath.path_toTypeName (Module.names_ne_nil_of_referencePath hpath)
    have htype : target.module.typePath found = .ok path := by
      rw [Module.typePath_of_findType (Module.gathered_of_ofBytes hread) honce hfind, hnames]
      rfl
    refine ⟨path, scope, row, assembly, hpath, htable, hnull, hrow, hname, hlocate, htype, ?_, ?_⟩
    · rw [Module.referenceFullName, hpath]
      rfl
    · exact Module.typeFullName_of_typePath htype

theorem resolveType_elsewhere_sample :
    ∃ target : LocatedModule,
      Module.ofBytes ImageHeaders.read? Sample.bytes = .ok target.module ∧
      target.module.NestedOnce ∧
      Sample.module.referenceFullName 3 = .ok "N.Y+Inner" ∧
      target.module.typeFullName 3 = .ok "N.Y+Inner" := by
  let target : LocatedModule := ⟨"base.dll", ⟨0, Sample.module⟩⟩
  let locate : String → ExceptT Fault (StateM Unit) (Option LocatedModule) :=
    fun _ => pure (some target)
  have honce : target.module.NestedOnce := by
    intro rid h1 h2
    have hrows : ∀ rid ∈ List.range' 1 3,
        (Sample.module.nestedRows.filter (·.nested = rid)).length ≤ 1 := by decide +kernel
    have hcount : target.module.rowCount .typeDef = 3 := by decide +kernel
    exact hrows rid (List.mem_range'_1.mpr ⟨h1, by omega⟩)
  have htarget : Sample.module.referenceTarget 3 = .ok (some ("base", ⟨"N", ["Y"], "Inner"⟩)) := by
    decide +kernel
  have hfind : Sample.module.findType ⟨"N", ["Y"], "Inner"⟩ = .ok (some 3) := by decide +kernel
  have hfound : resolveIn ⟨"N", ["Y"], "Inner"⟩ (some target) =
      .ok (.found (.elsewhere target 3)) := by
    change (Sample.module.findType ⟨"N", ["Y"], "Inner"⟩ >>= _) = _
    rw [hfind]
    rfl
  have hresolve : Query.exec (resolveType locate Sample.module (.reference 3)) () =
      (.ok (.found (.elsewhere target 3)), ()) := by
    rw [exec_resolveType_of_some htarget (Query.exec_pure _ _), hfound]
  obtain ⟨path, -, -, -, -, -, -, -, -, -, -, hreference, htype⟩ :=
    resolveType_elsewhere hresolve Sample.ofBytes_eq honce
  have hname : Sample.module.referenceFullName 3 = .ok "N.Y+Inner" := by decide +kernel
  rw [hname] at hreference
  exact ⟨target, Sample.ofBytes_eq, honce, hname, hreference ▸ htype⟩

end MethodAtlas
