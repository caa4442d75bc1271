import SqlSession.Event
import SqlSession.Identifier
import SqlSession.Statement.Draft

/-!
# `SqlSession.Statement.Insert`: adding rows

An `INSERT` statement has the columns of its first row. The values of
every later row are put in the order of these columns: a null where the
row lacks one, and what it has beyond them is left out with a warning.
-/

set_option autoImplicit false

namespace SqlSession

/-- A statement that adds rows, and the warnings its rows gave rise to. -/
structure Insert where
  table : String
  columns : List String := []
  rows : List (List Value) := []
  warnings : List Event := []
  deriving Inhabited

namespace Insert

/-- Takes out the element at an index; the last element takes its place. -/
def takeOut {α : Type} (xs : List α) (i : Nat) : List α :=
  match xs.getLast? with
  | some last => (xs.set i last).dropLast
  | none => []

/-- The values of a row in the order of columns, and the fields left
over. -/
def align : List String → List (String × Value) → List Value × List (String × Value)
  | [], row => ([], row)
  | column :: columns, row =>
      match row.findIdx? (fun field => field.1 == column) with
      | some i =>
          let value := (row[i]?.map (·.2)).getD .null
          let (values, rest) := align columns (takeOut row i)
          (value :: values, rest)
      | none =>
          let (values, rest) := align columns row
          (.null :: values, rest)

/-- Another table. -/
def onTable (ins : Insert) (table : String) : Insert := { ins with table }

/-- Adds a row. -/
def addRow (ins : Insert) (row : List (String × Value)) : Insert :=
  if ins.rows.isEmpty then
    { ins with columns := row.map (·.1), rows := [row.map (·.2)] }
  else
    let (values, rest) := align ins.columns row
    let warnings := if rest.isEmpty then [] else [.columnsDropped ins.table (rest.map (·.1))]
    { ins with rows := ins.rows ++ [values], warnings := ins.warnings ++ warnings }

/-- Takes the given rows in place of those so far. -/
def withRows (ins : Insert) (rows : List (List (String × Value))) : Insert :=
  rows.foldl addRow { ins with columns := [], rows := [] }

/-- How many rows are to be inserted. -/
def rowCount (ins : Insert) : Nat := ins.rows.length

/-- One row as a group of placeholders. -/
def rowDraft (ins : Insert) (values : List Value) : Draft :=
  .bound ("(" ++ ",".intercalate (ins.columns.map fun _ => "?") ++ ")") values

/-- The whole statement. -/
def draft (ins : Insert) : Draft :=
  if ins.rows.isEmpty || ins.columns.isEmpty then .failed .emptyInsert
  else
    let columns := ", ".intercalate (ins.columns.map quoteIdentifier)
    .plain ("INSERT INTO " ++ quoteTable ins.table ++ "(" ++ columns ++ ") VALUES") ++
      .joinWith ", " (ins.rows.map ins.rowDraft)

end Insert

end SqlSession
