import SqlSession.Error

/-!
# `SqlSession.Row`: rows of a result

A row is a sequence of named values. Where a name occurs more than
once, it means the first of them.
-/

set_option autoImplicit false

namespace SqlSession

/-- A row of a result: its columns with their values, in order. -/
structure Row where
  fields : List (String × Value)
  deriving Inhabited, Repr

namespace Row

/-- A row from names and values; what the longer of the two has beyond
the other is left out. -/
def ofColumns (columns : List String) (values : List Value) : Row :=
  ⟨columns.zip values⟩

/-- How many columns a row has. -/
def length (row : Row) : Nat := row.fields.length

/-- Whether it has none. -/
def isEmpty (row : Row) : Bool := row.fields.isEmpty

/-- The names of its columns, in order. -/
def columns (row : Row) : List String := row.fields.map (·.1)

/-- The value of a column. -/
def value? (row : Row) (column : String) : Option Value :=
  row.fields.lookup column

/-- Reads a column that must be there. -/
def get (α : Type) [FromValue α] (row : Row) (column : String) : Except Error α :=
  match row.value? column with
  | some v => (fromValue v).mapError (.decode column)
  | none => .error (.decode column .columnNotFound)

/-- Reads a column if it is there. -/
def tryGet (α : Type) [FromValue α] (row : Row) (column : String) :
    Except Error (Option α) :=
  match row.value? column with
  | some v => (some <$> fromValue v).mapError (.decode column)
  | none => .ok none

end Row

/-- What can be read from a row. -/
class FromRow (α : Type) where
  fromRow : Row → Except Error α

export FromRow (fromRow)

instance : FromRow Row := ⟨.ok⟩

end SqlSession
