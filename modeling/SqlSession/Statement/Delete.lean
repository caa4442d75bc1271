import SqlSession.Condition.Filter

/-!
# `SqlSession.Statement.Delete`: removing rows

A `DELETE` statement removes the rows for which all of its filters
hold, and every row if it was given none.
-/

set_option autoImplicit false

namespace SqlSession

/-- A statement that removes rows. -/
structure Delete where
  table : String
  conditions : Predicate := {}
  deriving Inhabited

namespace Delete

/-- Another table. -/
def onTable (d : Delete) (table : String) : Delete := { d with table }

/-- Adds a condition on rows. -/
def filter (d : Delete) (filter : Filter) (values : List Value := []) : Delete :=
  { d with conditions := d.conditions.merge (filter.toPredicate values) }

/-- The whole statement. -/
def draft (d : Delete) : Draft :=
  .joinWith " " [
    .plain ("DELETE FROM " ++ quoteTable d.table),
    d.conditions.draft.headed "WHERE"]

end Delete

end SqlSession
