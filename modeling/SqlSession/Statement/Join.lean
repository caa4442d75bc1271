import SqlSession.Identifier

/-!
# `SqlSession.Statement.Join`: joined tables

The joins of a statement, in the order in which they were added, and
the columns that each of them brings along.
-/

set_option autoImplicit false

namespace SqlSession

/-- The kinds of joins. -/
inductive JoinKind where
  | inner
  | outer
  | left
  | right
  | leftOuter
  | rightOuter
  deriving DecidableEq, Repr, Inhabited

/-- The words in front of `JOIN`. -/
def JoinKind.text : JoinKind → String
  | .inner => "INNER"
  | .outer => "OUTER"
  | .left => "LEFT"
  | .right => "RIGHT"
  | .leftOuter => "LEFT OUTER"
  | .rightOuter => "RIGHT OUTER"

/-- A column with its table's name in front, unless it names one itself. -/
def qualifyColumn (quotedAlias column : String) : String :=
  if column.toList.contains '.' then quoteIdentifier column
  else quotedAlias ++ "." ++ quoteIdentifier column

/-- A joined table: the condition compares columns, and `columns` are
those it adds to the result. -/
structure Join where
  kind : JoinKind
  target : String
  condition : String
  columns : List String
  deriving Repr, Inhabited

namespace Join

/-- A join in which the given columns are equal. -/
def on (kind : JoinKind) (target : String) (parts columns : List String) : Join where
  kind
  target
  condition := "=".intercalate (parts.map fun part => quoteDotted (Text.trim part))
  columns

/-- A join as a piece of a statement. -/
def text (j : Join) : String :=
  j.kind.text ++ " JOIN " ++ quoteTable j.target ++ " ON " ++ j.condition

/-- The columns under the joined table's name. -/
def qualifiedColumns (j : Join) : List String :=
  j.columns.map (qualifyColumn (quoteSegment (tableAlias j.target)))

end Join

/-- The joins of a statement. -/
def joinsText (joins : List Join) : String := " ".intercalate (joins.map Join.text)

end SqlSession
