import SqlSession.Model.Interning

/-!
# `SqlSession.Model.Reads`: finding records

Records are found by their index values, in the cache or in the table,
and by conditions, in the table. Whatever is read from the table is
interned, so that a row that is already known gives the record that is
known.
-/

set_option autoImplicit false

namespace SqlSession.Model

variable {π μ : Type}

/-- The index fields with their values, of which there must be as many. -/
def indexFilter (model : Model π μ) (index : List Value) :
    Except Error (List (String × Value)) :=
  let expected := model.indexFields.length
  if index.length = expected then .ok (model.indexFields.zip index)
  else .error <| .validation
    s!"{model.table} expects {expected} index value(s), got {index.length}"

/-- The error for a record that is not there. -/
def notFound (model : Model π μ) : Error := .notFound s!"{model.table} record"

/-- The statement that reads the model's columns. -/
def selection (model : Model π μ) : Select :=
  (Select.ofTable model.table).withColumns model.columns

/-- Runs a statement that reads rows. -/
def rowsOf (stmt : Select) : Action π (List Row) := do
  let built ← stmt.draft.query
  Session.query built.sql built.params

/-- The record for the first of some rows. -/
def internFirst (model : Model π μ) (rows : List Row) : Action π (Record μ) := ExceptT.mk do
  match rows with
  | [] => return .error model.notFound
  | row :: _ => Memory.change (model.internRow row)

/-- The records for all of some rows. -/
def internAll (model : Model π μ) (rows : List Row) : Action π (List (Record μ)) :=
  ExceptT.mk (Memory.change (model.internRows rows))

/-- The cached record of a key. -/
def lookUp (model : Model π μ) (key : String) : Program π (Option (Record μ)) :=
  Memory.change (model.cached? key)

/-! ### By index values -/

/-- The cached record with the given index values. -/
def queryCache (model : Model π μ) (index : List Value) : Action π (Record μ) := do
  let key ← model.key index
  match ← (ExceptT.lift (model.lookUp key) : Action π _) with
  | some record => return record
  | none => throw (.notFound s!"{model.table} not cached")

/-- Reads the record with the given index values from the table. -/
def load (model : Model π μ) (index : List Value) : Action π (Record μ) := do
  let _ ← model.key index
  let fields ← model.indexFilter index
  model.internFirst (← rowsOf (model.selection.filter (.fields fields)))

/-- The record with the given index values, cached or read. -/
def select (model : Model π μ) (index : List Value) : Action π (Record μ) := do
  let key ← model.key index
  match ← (ExceptT.lift (model.lookUp key) : Action π _) with
  | some record => return record
  | none => model.load index

/-- Reads the record with the given index values and locks its row for
the rest of the transaction. -/
def selectForUpdate (model : Model π μ) (index : List Value) : Action π (Record μ) := do
  unless ← (ExceptT.lift (Program.read (·.session.inTransaction)) : Action π Bool) do
    throw (.transaction s!"select for update on {model.table} outside a transaction")
  let fields ← model.indexFilter index
  model.internFirst
    (← rowsOf ((model.selection.filter (.fields fields)).withTail "FOR UPDATE"))

/-! ### By conditions -/

/-- The first record for which a condition holds. -/
def selectOne (model : Model π μ) (filter : Filter) : Action π (Record μ) := do
  model.internFirst (← rowsOf ((model.selection.filter filter).withLimit 1))

/-- The records for which a condition holds. -/
def selectMany (model : Model π μ) (filter : Filter) : Action π (List (Record μ)) := do
  model.internAll (← rowsOf (model.selection.filter filter))

/-- The first record that a written statement finds. -/
def selectOneWithSql (model : Model π μ) (sql : String) (params : List Value) :
    Action π (Record μ) := do
  model.internFirst (← Session.query sql params)

/-- The records that a written statement finds. -/
def selectManyWithSql (model : Model π μ) (sql : String) (params : List Value) :
    Action π (List (Record μ)) := do
  model.internAll (← Session.query sql params)

/-! ### Aggregates -/

/-- The result of a function of a column over the rows for which a
condition holds; zero if it is null. -/
def aggregate (model : Model π μ) (function name column : String) (filter : Filter) :
    Action π Int64 := do
  let expression := function ++ "(" ++ quoteIdentifier column ++ ")"
  let stmt := ((Select.ofTable model.table).addComputed expression name).filter filter
  match ← rowsOf stmt with
  | [] => throw model.notFound
  | row :: _ => return (← row.get (Option Int64) name).getD 0

/-- The number of rows for which a condition holds. -/
def count (model : Model π μ) (column : String) (filter : Filter) : Action π Int64 :=
  model.aggregate "COUNT" "c" column filter

/-- The sum of a column over the rows for which a condition holds. -/
def sum (model : Model π μ) (column : String) (filter : Filter) : Action π Int64 :=
  model.aggregate "SUM" "s" column filter

end SqlSession.Model
