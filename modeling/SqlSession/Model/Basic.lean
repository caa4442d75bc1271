import SqlSession.Session.Transaction

/-!
# `SqlSession.Model.Basic`: models of rows

A model says how rows of a table become data of a type: which table and
columns, how a row is read, which values identify the data, and how
written columns are merged into it. Records of all models share one
type of payloads; a model recognizes its own.
-/

set_option autoImplicit false

namespace SqlSession

/-- How data of a type is kept in a table. `π` is the type of payloads
of all models. -/
structure Model (π μ : Type) where
  table : String
  indexFields : List String
  /-- The columns that are read; all of the table's if there are none. -/
  columns : List String := []
  fromRow : Row → Except Error μ
  /-- The values of the index fields. -/
  indexValues : μ → List Value
  /-- Takes over the columns of a row, one after another. A column that
  cannot be read stops it; those before stay taken over. -/
  mergeRow : Row → EStateM Error μ Unit
  wrap : μ → π
  unwrap? : π → Option μ
  unwrap?_wrap : ∀ m, unwrap? (wrap m) = some m

/-- A record of data of a type, by number. Two records are the same
record if their numbers are equal. -/
structure Record (μ : Type) where
  id : RecordId
  deriving DecidableEq, Repr

/-- Assigns a column to data, if the row has it. -/
def Row.assign {α μ : Type} [FromValue α] (row : Row) (column : String) (set : α → μ → μ) :
    EStateM Error μ Unit :=
  match row.tryGet α column with
  | .ok (some a) => modify (set a)
  | .ok none => pure ()
  | .error e => throw e

/-- The records of a session's cache and the payloads of all records. -/
structure Memory (π : Type) where
  cache : IdentityCache RecordId
  records : Records π

variable {π μ α : Type}

/-- The part of a scope that operations on records work on. -/
def Scope.memory (scope : Scope π) : Memory π := ⟨scope.session.cache, scope.records⟩

/-- The scope with another memory, and all else as it was. -/
def Scope.withMemory (scope : Scope π) (m : Memory π) : Scope π :=
  { scope with session := { scope.session with cache := m.cache }, records := m.records }

/-- Reads and changes cached records in one piece. -/
def Memory.change (act : Memory π → α × Memory π) : Program π α :=
  Program.atomically fun scope =>
    let (value, m) := act scope.memory
    (value, scope.withMemory m)

end SqlSession
