import SqlSession.Condition.Filter
import SqlSession.Statement.Join

/-!
# `SqlSession.Statement.Update`: changing rows

An `UPDATE` statement assigns values to columns. An assignment whose
left side has placeholders is a text of its own and binds as many
values as it has placeholders; any other binds its value to the column.
-/

set_option autoImplicit false

namespace SqlSession

/-- A column, or a text with placeholders, and what is assigned. -/
structure Assignment where
  target : String
  value : Value
  deriving Inhabited, Repr

namespace Assignment

/-- Whether the left side is a text of its own. -/
def isTemplate (a : Assignment) : Bool := a.target.toList.contains '?'

/-- The assignment as a piece of a statement. -/
def draft (a : Assignment) : Draft :=
  if a.isTemplate then
    let values := a.value.flatten
    let placeholders := placeholderCount a.target
    if placeholders = values.length then .bound (Text.trim a.target) values
    else .failed (.placeholderMismatch a.target placeholders values.length)
  else .bound (quoteIdentifier a.target ++ "=?") [a.value]

end Assignment

/-- A statement that changes rows. -/
structure Update where
  table : String
  joins : List Join := []
  assignments : List Assignment := []
  conditions : Predicate := {}
  deriving Inhabited

namespace Update

/-- Another table. -/
def onTable (u : Update) (table : String) : Update := { u with table }

/-- One more joined table. -/
def addJoin (u : Update) (j : Join) : Update := { u with joins := u.joins ++ [j] }

/-- Adds an assignment. -/
def set (u : Update) (target : String) (value : Value) : Update :=
  { u with assignments := u.assignments ++ [⟨target, value⟩] }

/-- Takes the given assignments in place of those so far. -/
def setAll (u : Update) (assignments : List (String × Value)) : Update :=
  { u with assignments := assignments.map fun (target, value) => ⟨target, value⟩ }

/-- Adds a condition on rows. -/
def filter (u : Update) (filter : Filter) (values : List Value := []) : Update :=
  { u with conditions := u.conditions.merge (filter.toPredicate values) }

/-- The columns to be set. Without any the statement fails. -/
def setDraft (u : Update) : Draft :=
  if u.assignments.isEmpty then .failed .emptySet
  else .plain "SET " ++ .joinWith ", " (u.assignments.map Assignment.draft)

/-- The whole statement. -/
def draft (u : Update) : Draft :=
  .joinWith " " [
    .plain ("UPDATE " ++ quoteTable u.table),
    .plain (joinsText u.joins),
    u.setDraft,
    u.conditions.draft.headed "WHERE"]

end Update

end SqlSession
