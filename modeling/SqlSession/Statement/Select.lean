import SqlSession.Condition.Filter
import SqlSession.Statement.Join

/-!
# `SqlSession.Statement.Select`: reading rows

A `SELECT` statement is written in a fixed order of clauses: columns
and table, index, joins, `WHERE`, `GROUP BY`, `HAVING`, `ORDER BY`,
`LIMIT`, `OFFSET` and a tail. Filters given one after another must all
hold. Without columns of its own a statement takes all columns of its
table.
-/

set_option autoImplicit false

namespace SqlSession

/-- Which way to sort. -/
inductive Direction where
  | ascending
  | descending
  deriving DecidableEq, Repr, Inhabited

/-- The word for a direction. -/
def Direction.text : Direction → String
  | .ascending => "ASC"
  | .descending => "DESC"

/-- Reads a direction in any letter case. -/
def Direction.parse? (word : String) : Option Direction :=
  match word.map Char.toLower with
  | "asc" => some .ascending
  | "desc" => some .descending
  | _ => none

/-- A column to sort by. -/
structure Order where
  column : String
  direction : Direction
  deriving DecidableEq, Repr

namespace Order

/-- Reads a column, followed by a direction or by nothing. -/
def parse? (entry : String) : Option Order :=
  match Text.words entry with
  | [column] => some ⟨column, .ascending⟩
  | [column, word] => (Direction.parse? word).map fun direction => ⟨column, direction⟩
  | _ => none

/-- The column, quoted, with its direction written out. -/
def text (o : Order) : String := quoteIdentifier o.column ++ " " ++ o.direction.text

/-- An order entry as a piece of a statement. -/
def draft (entry : String) : Draft :=
  match parse? entry with
  | some o => .plain o.text
  | none => .failed (.invalidOrder entry)

end Order

/-- A trimmed text, or nothing if it is blank. -/
def nonBlank (s : String) : Option String :=
  let s := Text.trim s
  if s.isEmpty then none else some s

/-- A statement that reads rows. -/
structure Select where
  table : String
  quantifier : Option String := none
  forceIndex : Option String := none
  columns : List String := []
  computed : List (String × String) := []
  joins : List Join := []
  conditions : Predicate := {}
  groups : List String := []
  groupConditions : Predicate := {}
  orders : List String := []
  limit : Option Int64 := none
  offset : Option Int64 := none
  tail : Option String := none
  deriving Inhabited

namespace Select

/-- A selection from a table, with nothing chosen yet. -/
def ofTable (table : String) : Select := { table }

/-! ### Choices -/

/-- Another table. What was chosen before stays. -/
def onTable (s : Select) (table : String) : Select := { s with table }

/-- The word behind `SELECT`; a blank one takes it away. -/
def withQuantifier (s : Select) (word : String) : Select :=
  { s with quantifier := nonBlank word }

/-- Rows that are alike are given once. -/
def distinct (s : Select) : Select := s.withQuantifier "DISTINCT"

/-- These columns in place of those chosen before. -/
def withColumns (s : Select) (columns : List String) : Select := { s with columns }

/-- One more column. -/
def addColumn (s : Select) (column : String) : Select :=
  { s with columns := s.columns ++ [column] }

/-- Adds the result of an expression under a name. -/
def addComputed (s : Select) (expression name : String) : Select :=
  { s with computed := s.computed ++ [(expression, name)] }

/-- The index to be used; a blank one takes it away. -/
def withIndex (s : Select) (index : String) : Select :=
  { s with forceIndex := nonBlank index }

/-- One more joined table. -/
def addJoin (s : Select) (j : Join) : Select := { s with joins := s.joins ++ [j] }

/-- Adds a condition on rows. -/
def filter (s : Select) (filter : Filter) (values : List Value := []) : Select :=
  { s with conditions := s.conditions.merge (filter.toPredicate values) }

/-- Adds a condition on groups. -/
def having (s : Select) (filter : Filter) (values : List Value := []) : Select :=
  { s with groupConditions := s.groupConditions.merge (filter.toPredicate values) }

/-- The columns to group by, in place of those chosen before. -/
def groupBy (s : Select) (columns : List String) : Select := { s with groups := columns }

/-- The entries to sort by, in place of those chosen before. They are read
when the statement is built. -/
def orderBy (s : Select) (entries : List String) : Select := { s with orders := entries }

/-- One more entry to sort by. -/
def addOrder (s : Select) (entry : String) : Select :=
  { s with orders := s.orders ++ [entry] }

/-- At most so many rows; a negative count takes the limit away. -/
def withLimit (s : Select) (n : Int64) : Select :=
  { s with limit := if 0 ≤ n.toInt then some n else none }

/-- Leaves out so many rows; a negative count takes the offset away. -/
def withOffset (s : Select) (n : Int64) : Select :=
  { s with offset := if 0 ≤ n.toInt then some n else none }

/-- What stands at the end; a blank one takes it away. -/
def withTail (s : Select) (tail : String) : Select := { s with tail := nonBlank tail }

/-! ### Clauses -/

/-- All columns of the result: the table's, the joins', the computed. -/
def resultColumns (s : Select) : List String :=
  let table := quoteSegment (tableAlias s.table)
  let own :=
    if s.columns.isEmpty && s.computed.isEmpty then [table ++ ".*"]
    else s.columns.map (qualifyColumn table)
  own ++ s.joins.flatMap Join.qualifiedColumns ++
    s.computed.map fun (expression, name) => expression ++ " AS " ++ quoteIdentifier name

/-- The verb, the columns and the table, if there is one. -/
def columnsText (s : Select) : String :=
  let quantifier := match s.quantifier with
    | some word => word ++ " "
    | none => ""
  let table := if s.table.isEmpty then "" else " FROM " ++ quoteTable s.table
  "SELECT " ++ quantifier ++ ", ".intercalate s.resultColumns ++ table

/-- The index hint, which stands behind the table. -/
def forceIndexText (s : Select) : String :=
  match s.forceIndex with
  | some index => "FORCE INDEX (" ++ quoteIdentifier index ++ ")"
  | none => ""

/-- The columns that rows are grouped by. -/
def groupText (s : Select) : String :=
  if s.groups.isEmpty then ""
  else "GROUP BY " ++ ", ".intercalate (s.groups.map quoteIdentifier)

/-- The entries that rows are sorted by. One that cannot be read fails the
statement. -/
def orderDraft (s : Select) : Draft :=
  (Draft.joinWith ", " (s.orders.map Order.draft)).headed "ORDER BY"

/-- A count bound behind a keyword. -/
def countDraft (keyword : String) : Option Int64 → Draft
  | some n => .bound (keyword ++ " ?") [.int n]
  | none => .empty

/-- The whole statement. -/
def draft (s : Select) : Draft :=
  .joinWith " " [
    .plain s.columnsText,
    .plain s.forceIndexText,
    .plain (joinsText s.joins),
    s.conditions.draft.headed "WHERE",
    .plain s.groupText,
    s.groupConditions.draft.headed "HAVING",
    s.orderDraft,
    countDraft "LIMIT" s.limit,
    countDraft "OFFSET" s.offset,
    .plain (s.tail.getD "")]

end Select

end SqlSession
