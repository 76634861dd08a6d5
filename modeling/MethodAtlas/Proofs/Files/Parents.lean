import MethodAtlas.Files.Path
import MethodAtlas.Proofs.Name.FullNames
import Mathlib.Data.List.DropRight

/-!
# Files of a directory

The directory that a path lies in is written without blank components at its end. So a file that is
named in it lies in just that directory again, as long as its name is not blank and has no
separators: `Path.parent?_join`.
-/
namespace MethodAtlas

namespace Path
variable {components before : List String} {path directory file : String}

/-- Names that stand for a file in a directory: they are not blank and have no separators. -/
structure IsFileName (name : String) : Prop where
  notBlank : isBlank name = false
  plain : '/' ∉ name.toList

instance (name : String) : Decidable (IsFileName name) :=
  decidable_of_iff (isBlank name = false ∧ '/' ∉ name.toList)
    ⟨fun h => ⟨h.1, h.2⟩, fun h => ⟨h.notBlank, h.plain⟩⟩

theorem isBlank_eq_false_iff {component : String} :
    isBlank component = false ↔ component ≠ "" ∧ component ≠ "." := by
  rw [isBlank, Bool.or_eq_false_iff, beq_eq_false_iff_ne, beq_eq_false_iff_ne]

/-- The empty path has one component, the empty one. -/
theorem isEmpty_eq_false (h : Text.split '/' path ≠ [""]) : path.isEmpty = false := by
  rw [← Bool.not_eq_true, String.isEmpty_iff]
  rintro rfl
  exact h rfl

/-- Components without separators are what their path is split into. -/
theorem split_joinComponents (hne : components ≠ []) (h : ∀ c ∈ components, '/' ∉ c.toList) :
    Text.split '/' (joinComponents components) = components := by
  have hchars : (joinComponents components).toList =
      ['/'].intercalate (components.map String.toList) := by
    simp [joinComponents]
  rw [← String.ofList_toList (s := joinComponents components), hchars,
    Text.split_ofList_intercalate hne h]

/-- What is left when the last component is dropped comes first, and does not end blank. -/
theorem dropLast?_eq_some (h : dropLast? components = some before) :
    before.rdropWhile isBlank = before ∧ before <+: components := by
  rw [dropLast?] at h
  split at h
  · cases h
  · next last kept hkept =>
    obtain rfl : kept.reverse.rdropWhile isBlank = before := by
      rw [List.rdropWhile, List.reverse_reverse]
      exact Option.some.inj h
    refine ⟨List.rdropWhile_idempotent _ _, ?_⟩
    have hkeep : kept.reverse ++ [last] = components.rdropWhile isBlank := by
      rw [List.rdropWhile, hkept, List.reverse_cons]
    exact (List.rdropWhile_prefix _ _).trans
      ((List.prefix_append _ [last]).trans (hkeep ▸ List.rdropWhile_prefix _ _))

theorem dropLast?_concat (components : List String) (h : isBlank file = false) :
    dropLast? (components ++ [file]) = some (components.rdropWhile isBlank) := by
  simp [dropLast?, List.rdropWhile, h]

/-- Components that do not end blank end with a component that is not empty. -/
theorem getLast?_ne_of_rdropWhile (h : before.rdropWhile isBlank = before) :
    before.getLast? ≠ some "" := by
  intro hlast
  obtain ⟨front, rfl⟩ := List.getLast?_eq_some_iff.mp hlast
  rw [List.rdropWhile_concat_pos _ _ _ rfl] at h
  have hlength := (List.rdropWhile_prefix isBlank front).length_le
  rw [h, List.length_append, List.length_singleton] at hlength
  omega

theorem isAbsolute_of_notMem (h : '/' ∉ file.toList) : isAbsolute file = false := by
  rw [isAbsolute, beq_eq_false_iff_ne]
  intro hhead
  exact h (List.mem_of_mem_head? hhead)

/-- The components of a file in a directory are those of the directory and the file, unless the
directory ends with a slash. -/
theorem split_join (hdirectory : (Text.split '/' directory).getLast? ≠ some "")
    (hfile : '/' ∉ file.toList) :
    Text.split '/' (join directory file) = Text.split '/' directory ++ [file] := by
  have hempty : directory.isEmpty = false :=
    isEmpty_eq_false fun hsplit => hdirectory (by rw [hsplit]; rfl)
  have hslash : directory.toList.getLast? ≠ some '/' := by
    intro hlast
    obtain ⟨front, hfront⟩ := List.getLast?_eq_some_iff.mp hlast
    apply hdirectory
    rw [Text.split, hfront, List.splitOn_append_cons_self, List.splitOn_nil, List.map_append,
      List.map_singleton, List.getLast?_concat]
  rw [join, isAbsolute_of_notMem hfile, hempty, beq_false_of_ne hslash,
    ← Text.split_of_notMem hfile]
  exact Text.split_append directory file

/-- The components of a file in a directory that is made of components. -/
theorem split_join_components (hne : components ≠ []) (h : ∀ c ∈ components, '/' ∉ c.toList)
    (hlast : components.getLast? ≠ some "") (hfile : '/' ∉ file.toList) :
    Text.split '/' (join (joinComponents components) file) = components ++ [file] := by
  have hdirectory := split_joinComponents hne h
  rw [split_join (by rwa [hdirectory]) hfile, hdirectory]

/-- The components of a file in a directory that is found from the directory of all files on. -/
theorem split_join_rooted (h : ∀ c ∈ components, '/' ∉ c.toList)
    (hlast : components.getLast? ≠ some "") (hfile : '/' ∉ file.toList) :
    Text.split '/' (join ("/" ++ joinComponents components) file) =
      "" :: (components ++ [file]) := by
  cases components with
  | nil =>
    have hroot : join "/" file = "" ++ String.singleton '/' ++ file := by
      rw [join, isAbsolute_of_notMem hfile]
      rfl
    have hnone : "/" ++ joinComponents [] = "/" := rfl
    rw [hnone, hroot, Text.split_append, Text.split_of_notMem hfile]
    rfl
  | cons first others =>
    have hrooted : "/" ++ joinComponents (first :: others) =
        joinComponents ("" :: first :: others) := by
      simp [joinComponents, String.intercalate_cons_cons]
    have hplain : ∀ c ∈ "" :: first :: others, '/' ∉ c.toList :=
      List.forall_mem_cons.mpr ⟨by simp, h⟩
    rw [hrooted, split_join_components (List.cons_ne_nil _ _) hplain hlast hfile, List.cons_append]

theorem parent?_of_rooted (h : Text.split '/' path = "" :: (before ++ [file]))
    (hfile : isBlank file = false) :
    parent? path = some ("/" ++ joinComponents (before.rdropWhile isBlank)) := by
  have hempty : path.isEmpty = false := isEmpty_eq_false (by simp [h])
  rw [parent?, h]
  simp only [hempty, dropLast?_concat before hfile]
  rfl

theorem parent?_of_dotted (h : Text.split '/' path = "." :: (before ++ [file]))
    (hfile : isBlank file = false) :
    parent? path = some (joinComponents ("." :: before.rdropWhile isBlank)) := by
  rw [parent?, h]
  simp only [dropLast?_concat before hfile]

theorem parent?_of_plain (h : Text.split '/' path = before ++ [file])
    (hfile : isBlank file = false) (hhead : ∀ c ∈ (before ++ [file]).head?, isBlank c = false) :
    parent? path = some (joinComponents (before.rdropWhile isBlank)) := by
  rw [parent?]
  split
  · next rest hrest => simp [← h, hrest, isBlank] at hhead
  · next rest hrest => simp [← h, hrest, isBlank] at hhead
  · rw [h, dropLast?_concat before hfile, Option.map_some]

/-- A file without a directory lies in the empty path. -/
theorem parent?_of_isFileName (hfile : IsFileName file) : parent? file = some "" := by
  have hcomponents : Text.split '/' file = [] ++ [file] := Text.split_of_notMem hfile.plain
  exact parent?_of_plain hcomponents hfile.notBlank (by simpa using hfile.notBlank)

theorem parent?_join_empty (hfile : IsFileName file) : parent? (join "" file) = some "" := by
  have hjoin : join "" file = file := by
    rw [join, isAbsolute_of_notMem hfile.plain]
    exact String.empty_append
  rw [hjoin, parent?_of_isFileName hfile]

/-- **Files of a directory.** What is named in the directory of a path lies in that directory. -/
theorem parent?_join (h : parent? path = some directory) (hfile : IsFileName file) :
    parent? (join directory file) = some directory := by
  have hplain : ∀ c ∈ Text.split '/' path, '/' ∉ c.toList := fun _ => Text.notMem_of_mem_split
  rw [parent?] at h
  split at h
  · next rest hsplit =>
    rw [hsplit] at hplain
    split at h
    · cases h
    · obtain ⟨before, hbefore, rfl⟩ := Option.map_eq_some_iff.mp h
      obtain ⟨htrim, hfront⟩ := dropLast?_eq_some hbefore
      have hcomponents := split_join_rooted
        (fun c hc => hplain c (List.mem_cons_of_mem _ (hfront.subset hc)))
        (getLast?_ne_of_rdropWhile htrim) hfile.plain
      rw [parent?_of_rooted hcomponents hfile.notBlank, htrim]
  · next rest hsplit =>
    rw [hsplit] at hplain
    split at h
    · cases h
      exact parent?_join_empty hfile
    · next before hbefore =>
      cases h
      obtain ⟨htrim, hfront⟩ := dropLast?_eq_some hbefore
      have hlast : ("." :: before).getLast? ≠ some "" := by
        cases before with
        | nil => decide
        | cons first others =>
          rw [List.getLast?_cons_cons]
          exact getLast?_ne_of_rdropWhile htrim
      have hcomponents := split_join_components (List.cons_ne_nil _ _)
        (fun c hc => hplain c (List.cons_subset_cons _ hfront.subset hc)) hlast hfile.plain
      rw [parent?_of_dotted hcomponents hfile.notBlank, htrim]
  · next hroot hdot =>
    obtain ⟨before, hbefore, rfl⟩ := Option.map_eq_some_iff.mp h
    obtain ⟨htrim, hfront⟩ := dropLast?_eq_some hbefore
    cases before with
    | nil => exact parent?_join_empty hfile
    | cons first others =>
      have hcomponents := split_join_components (List.cons_ne_nil _ _)
        (fun c hc => hplain c (hfront.subset hc)) (getLast?_ne_of_rdropWhile htrim) hfile.plain
      obtain ⟨after, hafter⟩ := hfront
      have hhead : ∀ c ∈ (first :: others ++ [file]).head?, isBlank c = false := by
        intro c hc
        obtain rfl : first = c := by simpa using hc
        refine isBlank_eq_false_iff.mpr ⟨?_, ?_⟩
        · rintro rfl
          exact hroot _ hafter.symm
        · rintro rfl
          exact hdot _ hafter.symm
      rw [parent?_of_plain hcomponents hfile.notBlank hhead, htrim]

/-- A module of a plain name lies in the directory that it is looked for in. -/
theorem parent?_module {name extension : String} (hfile : IsFileName (name ++ "." ++ extension)) :
    parent? (module (directoryOf path) name extension) = some (directoryOf path) := by
  rw [module, directoryOf]
  cases h : parent? path with
  | none => exact parent?_join_empty hfile
  | some directory => exact parent?_join h hfile

end Path
end MethodAtlas
