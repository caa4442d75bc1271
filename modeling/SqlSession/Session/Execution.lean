import SqlSession.Session.Program
import SqlSession.Statement.Basic

/-!
# `SqlSession.Session.Execution`: running statements

A statement goes to the open transaction, or to the connector if there
is none, as the session stands when the statement is issued. Under a
deadline it must be answered by then, or it fails with the time that
was left to it. What a statement did is logged as the settings ask.
-/

set_option autoImplicit false

namespace SqlSession.Session

variable {π α : Type}

/-! ### Deadlines -/

/-- Statements must be answered by an instant from now on. -/
def setDeadline (deadline : Instant) : Program π Unit :=
  Program.modifySession fun s => { s with deadline := some deadline }

/-- Statements must be answered within a span from now. -/
def setTimeout (span : Duration) : Program π Unit := do
  setDeadline ((← Program.read (·.now)).after span)

/-- Statements may take as long as they need again. -/
def clearDeadline : Program π Unit :=
  Program.modifySession fun s => { s with deadline := none }

/-! ### Statements -/

/-- Logs a statement that was issued in a scope and has its outcome now. -/
def observe (kind : StatementKind) (sql : String) (params : List Value) (issued : Scope π)
    (outcome : Except Error α) : Program π Unit := do
  let elapsed := (← Program.read (·.now)).remaining issued.now
  if issued.session.config.logStatements then
    Program.emit (.statement kind sql params.length issued.session.inTransaction elapsed
      outcome.isOk)
  match issued.session.config.slowThreshold with
  | some threshold =>
      if threshold < elapsed then
        Program.emit (.slowStatement kind sql elapsed threshold)
  | none => pure ()

/-- The outcome of a statement that was issued in a scope. -/
def outcome (issued : Scope π) (answer : Option (Except Error α)) : Except Error α :=
  answer.getD <| .error <| .timeout <|
    (issued.session.deadline.map (·.remaining issued.now)).getD .zero

/-- Runs a statement that reads rows. -/
def query (sql : String) (params : List Value) : Action π (List Row) := ExceptT.mk do
  let issued ← Program.read id
  let answer ← Program.call (.query issued.session.slot sql params issued.session.deadline)
  let result := outcome issued answer
  observe .query sql params issued result
  return result

/-- Runs a statement that changes rows. -/
def exec (sql : String) (params : List Value) : Action π ExecResult := ExceptT.mk do
  let issued ← Program.read id
  let answer ← Program.call (.exec issued.session.slot sql params issued.session.deadline)
  let result := outcome issued answer
  observe .exec sql params issued result
  return result

/-- Builds and runs a statement, and reads each row of its result. -/
def fetch (read : Row → Except Error α) (stmt : Statement) : Action π (List α) := do
  let built ← stmt.build
  let rows ← query built.sql built.params
  rows.mapM fun row => (read row : Except Error α)

/-- Builds and runs a statement that changes rows. -/
def execute (stmt : Statement) : Action π ExecResult := do
  let built ← stmt.build
  exec built.sql built.params

/-! ### The connector alone -/

/-- Asks the connector itself for rows, whatever the session is doing. -/
def connectorQuery (sql : String) (params : List Value) : Action π (List Row) := ExceptT.mk do
  let answer ← Program.call (.query none sql params none)
  return answer.getD (.ok [])

/-- The first row that the connector finds, if there is one. -/
def connectorQueryOpt (sql : String) (params : List Value) : Action π (Option Row) := do
  return (← connectorQuery sql params).head?

/-- The first row that the connector finds. -/
def connectorQueryOne (sql : String) (params : List Value) : Action π Row := do
  match (← connectorQuery sql params).head? with
  | some row => return row
  | none => throw (.notFound "Expected 1 row, got 0")

end SqlSession.Session
