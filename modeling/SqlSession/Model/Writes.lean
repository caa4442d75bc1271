import SqlSession.Model.Reads

/-!
# `SqlSession.Model.Writes`: adding, changing and removing records

What is written to the table is also done to the records: an inserted
row gives a cached record, an update is merged into the record's data
and caches it under the key it has then, and a removed row is
forgotten.
-/

set_option autoImplicit false

namespace SqlSession.Model

variable {π μ : Type}

/-- Gives the first field of a name another value, or adds the field at
the end. -/
def setField (fields : List (String × Value)) (name : String) (value : Value) :
    List (String × Value) :=
  match fields with
  | [] => [(name, value)]
  | (n, v) :: rest =>
      if n = name then (name, value) :: rest else (n, v) :: setField rest name value

/-- The fields of a row to be inserted: the data, with the index values
in place of its own, if any are given. -/
def insertFields (model : Model π μ) (data : List (String × Value)) (index : List Value) :
    Except Error (List (String × Value)) := do
  if index.isEmpty then return data
  let fields ← model.indexFilter index
  return fields.foldl (fun data (name, value) => setField data name value) data

/-- The fields of an inserted row, with the generated id if the only
index field is not among them. -/
def withGeneratedId (model : Model π μ) (fields : List (String × Value))
    (result : ExecResult) : Except Error (List (String × Value)) :=
  match model.indexFields with
  | [field] =>
      if fields.any (fun f => f.1 == field) then .ok fields
      else
        match result.lastInsertId with
        | some id => .ok (fields ++ [(field, .uint id)])
        | none => .error (.other s!"insert into {model.table} returned no id for `{field}`")
  | _ => .ok fields

/-- Adds a row and gives its record, in a transaction. -/
def insert (model : Model π μ) (data : List (String × Value)) (index : List Value) :
    Action π (Record μ) := do
  let fields ← model.insertFields data index
  let stmt : Insert := { table := model.table }
  let built ← (stmt.addRow fields).draft.query
  Session.runInTransaction do
    let result ← Session.exec built.sql built.params
    if result.rowsAffected != 1 then
      throw (.other s!"insert into {model.table} affected {result.rowsAffected.toNat} rows")
    let fields ← model.withGeneratedId fields result
    ExceptT.mk (Memory.change (model.internRow ⟨fields⟩))

/-- Merges written columns into a record's data. What was merged before a
failure stays. -/
def merge (model : Model π μ) (record : Record μ) (data : μ) (written : Row) (m : Memory π) :
    Except Error μ × Memory π :=
  let store (data : μ) : Memory π :=
    { m with records := m.records.write record.id (model.wrap data) }
  match (model.mergeRow written).run data with
  | .ok _ data => (.ok data, store data)
  | .error e data => (.error e, store data)

/-- Merges written columns and caches the record under the key it has
then. -/
def mergeAndSave (model : Model π μ) (record : Record μ) (written : Row) (m : Memory π) :
    Except Error Unit × Memory π :=
  match model.data? m record with
  | none => (.error model.notFound, m)
  | some data =>
      match model.merge record data written m with
      | (.error e, m) => (.error e, m)
      | (.ok data, m) =>
          match model.key (model.indexValues data) with
          | .error e => (.error e, m)
          | .ok key => (.ok (), save key record m)

/-- The index values of a record. -/
def indexOf (model : Model π μ) (record : Record μ) : Action π (List Value) := ExceptT.mk do
  match ← Program.read fun scope => model.data? scope.memory record with
  | some data => return .ok (model.indexValues data)
  | none => return .error model.notFound

/-- Changes the row of a record, and gives the number of rows changed. If
that is one, the columns that were written go into the record. -/
def update (model : Model π μ) (record : Record μ) (set : List (String × Value)) :
    Action π UInt64 := do
  let index ← model.indexOf record
  let fields ← model.indexFilter index
  let stmt : Update := { table := model.table }
  let result ← Session.execute (.update ((stmt.setAll set).filter (.fields fields)))
  if result.rowsAffected = 1 then
    let written : Row := ⟨set.filter fun (name, _) => !name.toList.contains '?'⟩
    ExceptT.mk (Memory.change (model.mergeAndSave record written))
  return result.rowsAffected

/-- Forgets a cached record. -/
def forget (key : String) (m : Memory π) : Unit × Memory π :=
  ((), { m with cache := (m.cache.remove key).2 })

/-- Removes the row of a record. -/
def remove (model : Model π μ) (record : Record μ) : Action π Unit := do
  let index ← model.indexOf record
  let fields ← model.indexFilter index
  let stmt : Delete := { table := model.table }
  let result ← Session.execute (.delete (stmt.filter (.fields fields)))
  if result.rowsAffected = 0 then throw model.notFound
  let key ← model.key index
  ExceptT.mk do
    Memory.change (forget key)
    return .ok ()

end SqlSession.Model
