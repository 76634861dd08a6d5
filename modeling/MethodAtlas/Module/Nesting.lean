import MethodAtlas.Table.Record
import Std.Data.TreeMap

/-!
# Nested types

Which type lies directly in which, as the table of nested classes tells it row by row.
`enclosing?_ofList_cons` and `members_ofList` say what the two lookups answer: the last row of a
nested type wins, and the members of a type keep the order of their rows.
-/
namespace MethodAtlas

/-- The nesting of types, looked up in both directions. -/
structure Nesting where
  enclosers : Std.TreeMap Nat Nat
  memberLists : Std.TreeMap Nat (List Nat)

namespace Nesting

def empty : Nesting := ⟨∅, ∅⟩

/-- The type that encloses a type. -/
def enclosing? (n : Nesting) (rid : Nat) : Option Nat := n.enclosers[rid]?

/-- The types that lie directly in a type. -/
def members (n : Nesting) (rid : Nat) : List Nat := n.memberLists.getD rid []

/-- The nesting with one more row in front of the others. -/
def addFirst (row : NestedClass) (n : Nesting) : Nesting where
  enclosers := n.enclosers.insertIfNew row.nested row.enclosing
  memberLists := n.memberLists.insert row.enclosing (row.nested :: n.members row.enclosing)

/-- The nesting that the rows tell, from the first to the last. -/
def ofList (rows : List NestedClass) : Nesting := rows.foldr addFirst empty

@[simp] theorem enclosing?_ofList_nil (rid : Nat) : (ofList []).enclosing? rid = none := by
  simp [ofList, empty, enclosing?]

theorem enclosing?_ofList_cons (row : NestedClass) (rows : List NestedClass) (rid : Nat) :
    (ofList (row :: rows)).enclosing? rid =
      ((ofList rows).enclosing? rid).or
        (if row.nested = rid then some row.enclosing else none) := by
  simp only [ofList, List.foldr_cons, addFirst, enclosing?]
  rw [Std.TreeMap.getElem?_insertIfNew]
  by_cases h : row.nested = rid
  · subst h
    by_cases hm : row.nested ∈ (List.foldr addFirst empty rows).enclosers
    · simp [hm]
    · simp [hm]
  · simp [h]

theorem members_ofList (rows : List NestedClass) (rid : Nat) :
    (ofList rows).members rid = (rows.filter (·.enclosing = rid)).map (·.nested) := by
  induction rows with
  | nil => simp [ofList, empty, members]
  | cons row rows ih =>
    have h : (ofList (row :: rows)).members rid =
        if row.enclosing = rid then row.nested :: (ofList rows).members rid
        else (ofList rows).members rid := by
      simp only [ofList, List.foldr_cons, addFirst, members, Std.TreeMap.getD_insert]
      by_cases h : row.enclosing = rid <;> simp [h]
    rw [h, ih, List.filter_cons]
    by_cases hr : row.enclosing = rid <;> simp [hr]

end Nesting
end MethodAtlas
