import MethodAtlas.Name.TypeName
import Mathlib.Data.List.DropRight

/-!
# Type names with and without an assembly

Behind some characters of a stored name there are as many open brackets as `QualifiedName.depth`
says, and a comma there is an open one if there are none. What stands before the first open comma
names the type: `QualifiedName.NamesType` says so without the scan, which finds just that
(`QualifiedName.namesType_beforeComma`). So an assembly behind a name is stripped and nothing else
is, blanks at the end apart: `QualifiedName.stripAssembly_exact`.
-/
namespace MethodAtlas

namespace Text
variable {cs trimmed : List Char}

/-- A text without the blanks at the end of another text. -/
structure Trims (cs trimmed : List Char) : Prop where
  blank_behind : ∃ blanks, cs = trimmed ++ blanks ∧ ∀ c ∈ blanks, isBlank c = true
  last_not_blank : ∀ c ∈ trimmed.getLast?, isBlank c = false

theorem Trims.isPrefix (h : Trims cs trimmed) : trimmed <+: cs := by
  obtain ⟨blanks, rfl, -⟩ := h.blank_behind
  exact List.prefix_append ..

theorem trims_rdropWhile (cs : List Char) : Trims cs (cs.rdropWhile isBlank) where
  blank_behind := by
    refine ⟨cs.rtakeWhile isBlank, (List.rdropWhile_append_rtakeWhile ..).symm, ?_⟩
    exact fun c hc => List.mem_rtakeWhile_imp hc
  last_not_blank := by
    intro c hc
    obtain ⟨hne, rfl⟩ := List.mem_getLast?_eq_getLast hc
    exact Bool.not_eq_true _ ▸ List.rdropWhile_last_not isBlank cs hne

/-- A text that does not end in a blank is left alone. -/
theorem rdropWhile_eq_self (h : ∀ c ∈ cs.getLast?, isBlank c = false) :
    cs.rdropWhile isBlank = cs := by
  rw [List.rdropWhile_eq_self_iff]
  intro hne
  rw [h _ (List.getLast?_eq_some_getLast hne)]
  exact Bool.false_ne_true

end Text

namespace QualifiedName
open Text
variable {depth : Nat} {cs front named other : List Char} {c : Char}

/-- The open brackets behind some characters, where so many are open in front of them. -/
def depthBehind (depth : Nat) (cs : List Char) : Nat := cs.foldl depthAfter depth

/-- A comma outside brackets stands right behind `front`. -/
structure OpenComma (depth : Nat) (cs front : List Char) : Prop where
  isPrefix : front ++ [','] <+: cs
  outside : depthBehind depth front = 0

/-- What names the type: all that stands before the first comma outside brackets. -/
structure NamesType (depth : Nat) (cs named : List Char) : Prop where
  isPrefix : named <+: cs
  closed : ∀ front, ¬ OpenComma depth named front
  stops : named = cs ∨ OpenComma depth cs named

theorem OpenComma.mono (h : OpenComma depth named front) (hfront : named <+: cs) :
    OpenComma depth cs front := ⟨h.isPrefix.trans hfront, h.outside⟩

theorem openComma_cons_iff : OpenComma depth (c :: cs) front ↔
    (front = [] ∧ c = ',' ∧ depth = 0) ∨
      ∃ rest, front = c :: rest ∧ OpenComma (depthAfter depth c) cs rest := by
  constructor
  · rintro ⟨hfront, houtside⟩
    cases front with
    | nil => exact .inl ⟨rfl, (List.cons_prefix_cons.mp hfront).1.symm, houtside⟩
    | cons d rest =>
      obtain ⟨rfl, hrest⟩ := List.cons_prefix_cons.mp hfront
      exact .inr ⟨rest, rfl, hrest, houtside⟩
  · rintro (⟨rfl, rfl, rfl⟩ | ⟨rest, rfl, hrest, houtside⟩)
    · exact ⟨List.prefix_append [','] cs, rfl⟩
    · exact ⟨List.cons_prefix_cons.mpr ⟨rfl, hrest⟩, houtside⟩

/-- The scan finds what names the type. -/
theorem namesType_beforeComma (depth : Nat) (cs : List Char) :
    NamesType depth cs (beforeComma depth cs) := by
  induction cs generalizing depth with
  | nil =>
    refine ⟨List.nil_prefix, fun front h => ?_, .inl rfl⟩
    simpa [beforeComma] using h.isPrefix
  | cons c cs ih =>
    rw [beforeComma]
    split
    · next hcomma =>
      obtain ⟨rfl, rfl⟩ := hcomma
      refine ⟨List.nil_prefix, fun front h => ?_, .inr (openComma_cons_iff.mpr (.inl (by simp)))⟩
      simpa using h.isPrefix
    · next hinside =>
      obtain ⟨hfront, hclosed, hstops⟩ := ih (depthAfter depth c)
      refine ⟨List.cons_prefix_cons.mpr ⟨rfl, hfront⟩, fun front h => ?_, ?_⟩
      · obtain ⟨-, hc, hdepth⟩ | ⟨rest, -, hrest⟩ := openComma_cons_iff.mp h
        · exact hinside ⟨hc, hdepth⟩
        · exact hclosed rest hrest
      · exact hstops.imp (congrArg (c :: ·)) fun h => openComma_cons_iff.mpr (.inr ⟨_, rfl, h⟩)

namespace NamesType

/-- No comma outside brackets stands before the end of what names the type. -/
theorem isPrefix_front (h : NamesType depth cs named) (hcomma : OpenComma depth cs front) :
    named <+: front := by
  obtain hlong | hshort := List.prefix_or_prefix_of_prefix hcomma.isPrefix h.isPrefix
  · exact absurd ⟨hlong, hcomma.outside⟩ (h.closed front)
  · obtain heq | hfront := List.prefix_concat_iff.mp hshort
    · exact absurd ⟨heq ▸ List.prefix_rfl, hcomma.outside⟩ (h.closed front)
    · exact hfront

theorem isPrefix_other (h : NamesType depth cs named) (hother : NamesType depth cs other) :
    named <+: other := by
  obtain rfl | hcomma := hother.stops
  · exact h.isPrefix
  · exact h.isPrefix_front hcomma

/-- Only one part of a text names the type. -/
theorem unique (h : NamesType depth cs named) (hother : NamesType depth cs other) :
    named = other :=
  (h.isPrefix_other hother).eq_of_length_le (hother.isPrefix_other h).length_le

theorem beforeComma_eq (h : NamesType depth cs named) : beforeComma depth cs = named :=
  (namesType_beforeComma depth cs).unique h

end NamesType

theorem toList_stripAssembly (name : String) :
    (stripAssembly name).toList = (beforeComma 0 name.toList).rdropWhile isBlank := by
  simp [stripAssembly, List.rdropWhile]

/-- **An assembly behind a name is stripped, and nothing else is.** If no comma of a name stands
outside brackets and all brackets are closed at its end, then the name is stripped as it is with
any assembly behind it, to itself without the blanks at its end. Of every text the part before its
first comma outside brackets is kept without the blanks at its end, so that nothing more is stripped
from what is kept. -/
theorem stripAssembly_exact :
    (∀ name assembly : String, (∀ front, ¬ OpenComma 0 name.toList front) →
      depthBehind 0 name.toList = 0 →
      stripAssembly (name ++ "," ++ assembly) = stripAssembly name ∧
      Trims name.toList (stripAssembly name).toList) ∧
    ∀ text : String,
      (∃ named, NamesType 0 text.toList named ∧ Trims named (stripAssembly text).toList) ∧
      (stripAssembly text).toList <+: text.toList ∧
      (∀ front, OpenComma 0 text.toList front → (stripAssembly text).toList <+: front) ∧
      (∀ c ∈ (stripAssembly text).toList.getLast?, isBlank c = false) ∧
      stripAssembly (stripAssembly text) = stripAssembly text := by
  constructor
  · intro name assembly hclosed hdepth
    have hname : NamesType 0 name.toList name.toList := ⟨List.prefix_rfl, hclosed, .inl rfl⟩
    have hcomma : name.toList ++ [','] <+: (name ++ "," ++ assembly).toList := by simp
    have hqualified : NamesType 0 (name ++ "," ++ assembly).toList name.toList :=
      ⟨(List.prefix_append ..).trans hcomma, hclosed, .inr ⟨hcomma, hdepth⟩⟩
    constructor
    · rw [stripAssembly, hqualified.beforeComma_eq, stripAssembly, hname.beforeComma_eq]
    · rw [toList_stripAssembly, hname.beforeComma_eq]
      exact trims_rdropWhile _
  · intro text
    have hnames := namesType_beforeComma 0 text.toList
    have htrims := trims_rdropWhile (beforeComma 0 text.toList)
    rw [← toList_stripAssembly] at htrims
    have hagain : NamesType 0 (stripAssembly text).toList (stripAssembly text).toList :=
      ⟨List.prefix_rfl, fun front h => hnames.closed front (h.mono htrims.isPrefix), .inl rfl⟩
    refine ⟨⟨_, hnames, htrims⟩, htrims.isPrefix.trans hnames.isPrefix,
      fun front h => htrims.isPrefix.trans (hnames.isPrefix_front h), htrims.last_not_blank, ?_⟩
    rw [← String.toList_inj, toList_stripAssembly (stripAssembly text), hagain.beforeComma_eq,
      rdropWhile_eq_self htrims.last_not_blank]

/-- A generic type with an assembly for its argument, behind a closing bracket that closes none. -/
theorem stripAssembly_exact_sample :
    (∀ front, ¬ OpenComma 0 "]N.G`1[[N.A, First]] ".toList front) ∧
    depthBehind 0 "]N.G`1[[N.A, First]] ".toList = 0 ∧
    stripAssembly ("]N.G`1[[N.A, First]] " ++ "," ++ " Second, Version=1")
      = "]N.G`1[[N.A, First]]" := by
  have hscan : beforeComma 0 "]N.G`1[[N.A, First]] ".toList = "]N.G`1[[N.A, First]] ".toList := by
    decide +kernel
  have hdepth : depthBehind 0 "]N.G`1[[N.A, First]] ".toList = 0 := by decide +kernel
  have hclosed : ∀ front, ¬ OpenComma 0 "]N.G`1[[N.A, First]] ".toList front :=
    hscan ▸ (namesType_beforeComma 0 _).closed
  have hsame := (stripAssembly_exact.1 _ " Second, Version=1" hclosed hdepth).1
  exact ⟨hclosed, hdepth, hsame.trans (by decide +kernel)⟩

end QualifiedName
end MethodAtlas
