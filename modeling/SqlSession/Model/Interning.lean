import SqlSession.Model.Basic
import SqlSession.RowKey

/-!
# `SqlSession.Model.Interning`: one record for one row

Data read from a row meets the record that is cached under the row's
key: the record takes over the new data, and everyone who holds it sees
it. Only if there is none, or one of another model, a new record is
made and cached.
-/

set_option autoImplicit false

namespace SqlSession.Model

variable {π μ : Type}

/-- The key of a row with the given index values. -/
def key (model : Model π μ) (index : List Value) : Except Error String :=
  rowKey model.table index

/-- The data of a record. -/
def data? (model : Model π μ) (m : Memory π) (record : Record μ) : Option μ :=
  (m.records.read? record.id).bind model.unwrap?

/-- The cached record of a key, which counts as used; a record of another
model is none. -/
def cached? (model : Model π μ) (key : String) (m : Memory π) : Option (Record μ) × Memory π :=
  let (found, cache) := m.cache.get key
  let m := { m with cache }
  match found with
  | some id => (if (model.data? m ⟨id⟩).isSome then some ⟨id⟩ else none, m)
  | none => (none, m)

/-- Caches a record under a key. -/
def save (key : String) (record : Record μ) (m : Memory π) : Memory π :=
  { m with cache := m.cache.put key record.id }

/-- The record for data under its key. -/
def internAt (model : Model π μ) (key : String) (data : μ) (m : Memory π) :
    Record μ × Memory π :=
  let fresh : Record μ := ⟨m.records.next⟩
  let (id, cache) := (m.cache.getOrInsertWith key (pure fresh.id) : Id _)
  let cached : Memory π := { m with cache }
  if id = fresh.id then
    (fresh, { cached with records := m.records.add (model.wrap data) })
  else if (model.data? cached ⟨id⟩).isSome then
    (⟨id⟩, { cached with records := m.records.write id (model.wrap data) })
  else
    (fresh, save key fresh { cached with records := m.records.add (model.wrap data) })

/-- The record for data, unless the data has no key. -/
def intern (model : Model π μ) (data : μ) (m : Memory π) : Except Error (Record μ) × Memory π :=
  match model.key (model.indexValues data) with
  | .error e => (.error e, m)
  | .ok key =>
      let (record, m) := model.internAt key data m
      (.ok record, m)

/-- The record for a row, unless the row cannot be read. -/
def internRow (model : Model π μ) (row : Row) (m : Memory π) :
    Except Error (Record μ) × Memory π :=
  match model.fromRow row with
  | .error e => (.error e, m)
  | .ok data => model.intern data m

/-- The records for rows, up to the first row that has none. -/
def internRows (model : Model π μ) (rows : List Row) (m : Memory π) :
    Except Error (List (Record μ)) × Memory π :=
  match rows with
  | [] => (.ok [], m)
  | row :: rows =>
      match model.internRow row m with
      | (.error e, m) => (.error e, m)
      | (.ok record, m) =>
          let (records, m) := model.internRows rows m
          (records.map (record :: ·), m)

end SqlSession.Model
