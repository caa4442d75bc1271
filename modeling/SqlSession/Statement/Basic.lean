import SqlSession.Statement.Delete
import SqlSession.Statement.Insert
import SqlSession.Statement.Select
import SqlSession.Statement.Update

/-!
# `SqlSession.Statement.Basic`: statements

A statement of any kind, also one that is written already. `build`
gives its text and parameters or the error that keeps it from being
built.
-/

set_option autoImplicit false

namespace SqlSession

/-- A statement. -/
inductive Statement where
  | select (s : Select)
  | insert (s : Insert)
  | update (s : Update)
  | delete (s : Delete)
  | written (q : Query)
  deriving Inhabited

namespace Statement

/-- The text and the parameters of a statement. -/
def build : Statement → Except Error Query
  | .select s => s.draft.query
  | .insert s => s.draft.query
  | .update s => s.draft.query
  | .delete s => s.draft.query
  | .written q => .ok q

/-- What its rows gave an insert to warn of. -/
def warnings : Statement → List Event
  | .insert s => s.warnings
  | _ => []

/-- The text of a statement. -/
def toSql (s : Statement) : Except Error String := (·.sql) <$> s.build

end Statement

end SqlSession
