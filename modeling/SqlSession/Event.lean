import SqlSession.Error
import SqlSession.Text.Quoted

/-!
# `SqlSession.Event`: what is logged

Statements, transactions and inserts report what happened to them as
events. An event has a level, a message and named fields; the fields
are texts.
-/

set_option autoImplicit false

namespace SqlSession

/-- How urgent an event is. -/
inductive Level where
  | debug
  | warn
  | error
  deriving DecidableEq, Repr, Inhabited

def Level.text : Level → String
  | .debug => "DEBUG"
  | .warn => "WARN"
  | .error => "ERROR"

/-- Whether a statement reads rows or changes them. -/
inductive StatementKind where
  | query
  | exec
  deriving DecidableEq, Repr, Inhabited

def StatementKind.text : StatementKind → String
  | .query => "query"
  | .exec => "exec"

/-- Something to log. -/
inductive Event where
  /-- A row of an insert has columns that the first row lacks. -/
  | columnsDropped (table : String) (columns : List String)
  /-- A transaction was asked for while one is open. -/
  | alreadyOpen
  | beginFailed (e : Error)
  /-- Another transaction was opened while this one was begun. -/
  | beginLost
  | surplusRollbackFailed (e : Error)
  | commitFailed (e : Error)
  | rollbackFailed (e : Error)
  /-- A session was reset with a transaction open. -/
  | resetInTransaction
  /-- A statement was run. -/
  | statement (kind : StatementKind) (sql : String) (params : Nat) (inTransaction : Bool)
      (elapsed : Duration) (ok : Bool)
  /-- A statement took longer than the threshold. -/
  | slowStatement (kind : StatementKind) (sql : String) (elapsed threshold : Duration)
  deriving Repr

namespace Event

/-- The level that an event is logged at. -/
def level : Event → Level
  | .columnsDropped .. | .alreadyOpen | .beginLost | .resetInTransaction
  | .slowStatement .. => .warn
  | .beginFailed _ | .surplusRollbackFailed _ | .commitFailed _ | .rollbackFailed _ => .error
  | .statement .. => .debug

/-- The text that an event is logged with. -/
def message : Event → String
  | .columnsDropped .. => "insert row has columns outside the first row; they are ignored"
  | .alreadyOpen => "begin_transaction: a transaction is already open; ignored"
  | .beginFailed _ => "begin_transaction failed"
  | .beginLost =>
      "begin_transaction: lost a concurrent begin; rolling back the extra transaction"
  | .surplusRollbackFailed _ => "rollback of extra transaction failed"
  | .commitFailed _ => "commit_transaction failed"
  | .rollbackFailed _ => "rollback_transaction failed"
  | .resetInTransaction => "session reset with an open transaction; rolling back"
  | .statement .. => "statement"
  | .slowStatement .. => "slow statement"

/-- The fields of an event. -/
def fields : Event → List (String × String)
  | .columnsDropped table columns => [("table", table), ("dropped", Text.quotedList columns)]
  | .alreadyOpen | .beginLost | .resetInTransaction => []
  | .beginFailed e | .surplusRollbackFailed e | .commitFailed e | .rollbackFailed e =>
      [("error", e.message)]
  | .statement kind sql params inTransaction elapsed ok =>
      [("kind", kind.text), ("sql", sql), ("params", toString params),
        ("in_transaction", toString inTransaction), ("elapsed_us", toString elapsed.toMicros),
        ("ok", toString ok)]
  | .slowStatement kind sql elapsed threshold =>
      [("kind", kind.text), ("sql", sql), ("elapsed_ms", toString elapsed.toMillis),
        ("threshold_ms", toString threshold.toMillis)]

end Event

end SqlSession
