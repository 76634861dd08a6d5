import MethodAtlas.Table.Id
import MethodAtlas.Text.Basic

/-!
# Tokens

A token names a row of a table in one number below `2 ^ 32`: the table's number in the high
byte and the row in the low 24 bits. Row zero refers to nothing.
-/
namespace MethodAtlas

/-- A reference to a row, packed into one number. -/
structure Token where
  value : Nat
deriving DecidableEq, Repr, Inhabited

namespace Token

/-- The token of a row; only the low 24 bits of the row are kept. -/
def ofParts (table : TableId) (row : Nat) : Token :=
  ⟨table.number * 0x1000000 + row % 0x1000000⟩

/-- The number in the high byte. -/
def tableNumber (t : Token) : Nat := t.value / 0x1000000

/-- The row in the low 24 bits. -/
def row (t : Token) : Nat := t.value % 0x1000000

/-- Whether the token refers to nothing. -/
def isNull (t : Token) : Bool := t.row == 0

/-- The table a token names, if the high byte is the number of one. -/
def table? (t : Token) : Option TableId := TableId.ofNumber? t.tableNumber

/-- Whether the token names a row of the given table. -/
def isOf (t : Token) (table : TableId) : Bool := t.tableNumber == table.number

@[simp] theorem tableNumber_ofParts (table : TableId) (row : Nat) :
    (ofParts table row).tableNumber = table.number := by
  have := Nat.mod_lt row (show 0 < 0x1000000 by decide)
  simp only [ofParts, tableNumber]
  omega

@[simp] theorem row_ofParts (table : TableId) (row : Nat) :
    (ofParts table row).row = row % 0x1000000 := by
  simp only [ofParts, Token.row]
  omega

@[simp] theorem table?_ofParts (table : TableId) (row : Nat) :
    (ofParts table row).table? = some table := by
  simp [table?]

/-- The token as a hexadecimal number. -/
def render (t : Token) : String := "0x" ++ Text.hex 8 t.value

/-- The token together with its two parts. -/
def describe (t : Token) : String :=
  "Token(" ++ t.render ++ ", table: 0x" ++ Text.hex 2 t.tableNumber ++ ", row: "
    ++ toString t.row ++ ")"

end Token
end MethodAtlas
