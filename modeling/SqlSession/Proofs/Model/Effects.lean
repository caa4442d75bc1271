import SqlSession.Proofs.Model.Operation

/-!
# `SqlSession.Proofs.Model.Effects`: what happens to records

A model's operations act on records in four ways. They look a key up in
the cache, they intern data that was read or inserted, they merge
written columns into a record, and they forget a removed row.
`Happens` states these as steps from one memory to the next, with the
records that each step gives to the task, each with the key that it was
looked up or interned under (`RowRecord`).

Interning, merging and removing are the effects that a log of the run
shows. Which effects are due follows from what the connector answered:
`Operation.effects`. The memory does not enter, but for the data that a
record had when columns were merged into it. The answers also say for
which rows an operation returns records: `Operation.rowKeys`.

`replay` reads off a log what a row should look like: the data that was
interned for its key last, with all later merges.
-/

set_option autoImplicit false

namespace SqlSession

variable {π μ : Type}

/-- Something that happened to the records of a model. -/
inductive Effect (μ : Type) where
  /-- A row was read or inserted whose data has a key. -/
  | interned (key : String) (data : μ)
  /-- Written columns were merged into a record that had some data. -/
  | merged (record : Record μ) (before : μ) (written : Row)
  /-- The row of a record was removed. -/
  | removed (record : Record μ)

/-- Whether an effect removes a row. -/
def Effect.removes : Effect μ → Bool
  | .removed _ => true
  | _ => false

/-- The keys under which data was interned. -/
def internedKeys (log : List (Effect μ)) : List String :=
  log.filterMap fun
    | .interned key _ => some key
    | _ => none

/-- Nothing was interned by an empty log. -/
@[simp]
theorem internedKeys_nil : internedKeys ([] : List (Effect μ)) = [] := rfl

/-- The keys of two logs are those of both, in order. -/
@[simp]
theorem internedKeys_append (log log' : List (Effect μ)) :
    internedKeys (log ++ log') = internedKeys log ++ internedKeys log' := List.filterMap_append ..

/-- A record with the key of the row that it is there for. -/
structure RowRecord (μ : Type) where
  key? : Option String
  record : Record μ
  deriving DecidableEq, Repr

/-- Records with the keys that stand in their places. Records that are left
over when the keys are used up have none. -/
def forRows : List String → List (Record μ) → List (RowRecord μ)
  | _, [] => []
  | [], record :: records => ⟨none, record⟩ :: forRows [] records
  | key :: keys, record :: records => ⟨some key, record⟩ :: forRows keys records

/-- No records are for no rows, whatever the keys. -/
@[simp]
theorem forRows_nil (keys : List String) : forRows keys ([] : List (Record μ)) = [] := by
  cases keys <;> rfl

/-- A look at the cache gives the record that it finds, for the key that
was asked for. -/
theorem mem_forRows_toList {r : RowRecord μ} {key : String} {found : Option (Record μ)} :
    r ∈ forRows [key] found.toList ↔ ∃ record, found = some record ∧ r = ⟨some key, record⟩ := by
  cases found with
  | none => simp
  | some record => simp [forRows]

/-- What hands out no record hands out nothing that was not found. -/
theorem forRows_subset_of_nil {records : List (Record μ)} (h : records = [])
    (keys : List String) (found : List (RowRecord μ)) : forRows keys records ⊆ found := by
  rw [h, forRows_nil]
  exact List.nil_subset _

namespace Model

variable (model : Model π μ)

/-- The key of data. -/
def keyOf (data : μ) : Except Error String := model.key (model.indexValues data)

/-- The data that is left when written columns are merged, also if one of
them cannot be read. -/
def merged (written : Row) (data : μ) : μ :=
  match (model.mergeRow written).run data with
  | .ok _ data => data
  | .error _ data => data

/-- What an effect makes of the data for a key. -/
def apply (key : String) (data? : Option μ) : Effect μ → Option μ
  | .interned key' data => if key' = key then some data else data?
  | .merged _ before written =>
      -- A merge is one into the row of the key that the record had before it.
      match model.keyOf before with
      | .ok key' => if key' = key then data?.map (model.merged written) else data?
      | .error _ => data?
  | .removed _ => data?

/-- The data for a key by a log: what was interned for it last, with the
merges since then in order. -/
def replay (key : String) (log : List (Effect μ)) : Option μ :=
  log.foldl (model.apply key) none

/-- The last effect is applied to what the log before it says. -/
@[simp]
theorem replay_append (key : String) (log : List (Effect μ)) (effect : Effect μ) :
    model.replay key (log ++ [effect]) = model.apply key (model.replay key log) effect := by
  simp [replay]

/-! ### Effects of operations -/

/-- The effects of interning rows, up to the first row that has no
record. -/
def internings : List Row → List (Effect μ)
  | [] => []
  | row :: rows =>
      match model.fromRow row with
      | .error _ => []
      | .ok data =>
          match model.keyOf data with
          | .error _ => []
          | .ok key => .interned key data :: internings rows

/-- The columns of an update that are merged into its record: those whose
names are no expressions with placeholders. -/
def writtenRow (set : List (String × Value)) : Row :=
  ⟨set.filter fun (name, _) => !name.toList.contains '?'⟩

/-- The row that an insert adds. -/
def insertedRow (data : List (String × Value)) (index : List Value) (result : ExecResult) :
    Except Error Row := do
  let fields ← model.insertFields data index
  return ⟨← model.withGeneratedId fields result⟩

end Model

namespace Operation

/-- The records that an operation is given. -/
def given : Operation μ → List (Record μ)
  | .update record _ | .remove record => [record]
  | _ => []

/-- The effects of an operation that has read rows. -/
def readEffects (model : Model π μ) (rows : List Row) : Operation μ → List (Effect μ)
  | .select _ | .load _ | .selectForUpdate _ | .selectOne _ | .selectOneWithSql .. =>
      model.internings (rows.take 1)
  | .selectMany _ | .selectManyWithSql .. => model.internings rows
  | _ => []

/-- The effects of an operation whose statement has changed rows. -/
def writeEffects (model : Model π μ) (result : ExecResult) (m : Memory π) :
    Operation μ → List (Effect μ)
  | .insert data index =>
      if result.rowsAffected = 1 then
        match model.insertedRow data index result with
        | .ok row => model.internings [row]
        | .error _ => []
      else []
  | .update record set =>
      if result.rowsAffected = 1 then
        match model.data? m record with
        | some before => [.merged record before (Model.writtenRow set)]
        | none => []
      else []
  | .remove record => if result.rowsAffected = 0 then [] else [.removed record]
  | _ => []

/-- The effects of an operation whose call was answered. -/
def effects (model : Model π μ) (op : Operation μ) (m : Memory π) :
    (call : Call) → call.Answer → List (Effect μ)
  | .query .., some (.ok rows) => op.readEffects model rows
  | .exec .., some (.ok result) => op.writeEffects model result m
  -- A statement that failed or was given up, and a call that is none, have no effects.
  | _, _ => []

/-- The keys of the rows that an operation returns records for, from the
keys of the rows that it has read or inserted. If there are none, it can
only return a record out of the cache, and that for the row with the
index that it was asked for. -/
def rowKeys (model : Model π μ) : Operation μ → List String → List String
  | .queryCache index, [] | .select index, [] => (model.key index).toOption.toList
  | _, read => read

/-- What has been read or inserted decides. -/
theorem rowKeys_cons (model : Model π μ) (op : Operation μ) (key : String) (keys : List String) :
    op.rowKeys model (key :: keys) = key :: keys := by
  cases op <;> rfl

end Operation

/-- To intern rows merges nothing. -/
theorem Model.merged_not_mem_internings {model : Model π μ} {record : Record μ} {before : μ}
    {written : Row} (rows : List Row) :
    .merged record before written ∉ model.internings rows := by
  induction rows with
  | nil => exact nofun
  | cons row rest ih =>
      unfold internings
      split
      · exact nofun
      · split
        · exact nofun
        · simpa using ih

/-- Columns are merged only into the record that an operation was given. -/
theorem Operation.given_of_merged {model : Model π μ} {op : Operation μ} {m : Memory π}
    {call : Call} {answer : call.Answer} {record : Record μ} {before : μ} {written : Row}
    (h : .merged record before written ∈ op.effects model m call answer) : record ∈ op.given := by
  unfold effects at h
  split at h
  · -- Reads only intern.
    unfold readEffects at h
    split at h <;> first | exact absurd h (Model.merged_not_mem_internings _) | exact nomatch h
  · unfold writeEffects at h
    split at h
    · split at h
      · split at h
        · exact absurd h (Model.merged_not_mem_internings _)
        · exact nomatch h
      · exact nomatch h
    · split at h
      · split at h
        · cases List.mem_singleton.mp h
          exact List.mem_singleton_self _
        · exact nomatch h
      · exact nomatch h
    · split at h
      · exact nomatch h
      · exact nomatch List.mem_singleton.mp h
    · exact nomatch h
  · exact nomatch h

/-! ### Effects on the memory -/

namespace Model

variable (model : Model π μ)

/-- What an operation does to the memory in one piece: its effects, in
order, and the records that it finds, with the keys that it finds them
under. -/
inductive Happens : Memory π → List (Effect μ) → Memory π → List (RowRecord μ) → Prop
  | nothing {m : Memory π} : Happens m [] m []
  -- To look counts as a use of the entry, and so changes the cache.
  | looked {m : Memory π} (key : String) :
      Happens m [] (model.cached? key m).2 (forRows [key] (model.cached? key m).1.toList)
  | interned {m : Memory π} {key : String} {data : μ} : model.keyOf data = .ok key →
      Happens m [.interned key data] (model.internAt key data m).2
        [⟨some key, (model.internAt key data m).1⟩]
  | merged {m : Memory π} {record : Record μ} {before : μ} (written : Row) :
      model.data? m record = some before →
      Happens m [.merged record before written] (model.mergeAndSave record written m).2 []
  -- The row is gone, but a record whose index values make no key stays where it is.
  | kept {m : Memory π} (record : Record μ) : Happens m [.removed record] m []
  | forgot {m : Memory π} (record : Record μ) (key : String) :
      Happens m [.removed record] (forget key m).2 []
  | append {m m' m'' : Memory π} {es es' : List (Effect μ)} {found found' : List (RowRecord μ)} :
      Happens m es m' found → Happens m' es' m'' found' →
      Happens m (es ++ es') m'' (found ++ found')

variable {model}

/-- A row has no record, and ends the interning of rows, or its data is
interned under its key. -/
theorem internRow_cases (model : Model π μ) (row : Row) (m : Memory π) :
    (∃ e, model.internRow row m = (.error e, m) ∧
      ∀ rows, model.internings (row :: rows) = []) ∨
    (∃ key data, model.keyOf data = .ok key ∧
      model.internRow row m
        = (.ok (model.internAt key data m).1, (model.internAt key data m).2) ∧
      ∀ rows, model.internings (row :: rows) = .interned key data :: model.internings rows) := by
  unfold internRow intern
  cases hdata : model.fromRow row with
  | error e => exact .inl ⟨e, rfl, fun rows => by simp only [internings, hdata]⟩
  | ok data =>
      -- The key is that of the data itself, so interning fails exactly where the data has none.
      cases hkey : model.keyOf data with
      | error e =>
          have hintern : model.key (model.indexValues data) = .error e := hkey
          exact .inl ⟨e, by simp only [hintern], fun rows => by simp only [internings, hdata, hkey]⟩
      | ok key =>
          have hintern : model.key (model.indexValues data) = .ok key := hkey
          exact .inr ⟨key, data, hkey, by simp only [hintern],
            fun rows => by simp only [internings, hdata, hkey]⟩

/-- To intern a row happens to the memory in one piece, and finds a record
for the row. -/
theorem happens_internRow (model : Model π μ) (row : Row) (m : Memory π) :
    ∃ found, model.Happens m (model.internings [row]) (model.internRow row m).2 found ∧
      ∀ record, (model.internRow row m).1 = .ok record →
        ∃ key, internedKeys (model.internings [row]) = [key] ∧ ⟨some key, record⟩ ∈ found := by
  obtain ⟨e, hrow, hnone⟩ | ⟨key, data, hkey, hrow, hsome⟩ := model.internRow_cases row m
  · rw [hrow, hnone]
    exact ⟨[], .nothing, fun record h => nomatch h⟩
  · rw [hrow, hsome]
    refine ⟨_, .interned hkey, ?_⟩
    intro record h
    cases h
    exact ⟨key, rfl, List.mem_singleton_self _⟩

/-- Rows are interned one after another, and each finds a record in its
place. -/
theorem happens_internRows (model : Model π μ) (rows : List Row) (m : Memory π) :
    ∃ found, model.Happens m (model.internings rows) (model.internRows rows m).2 found ∧
      ∀ records, (model.internRows rows m).1 = .ok records →
        forRows (internedKeys (model.internings rows)) records ⊆ found := by
  induction rows generalizing m with
  | nil =>
      refine ⟨[], .nothing, ?_⟩
      intro records h
      cases h
      exact List.Subset.refl _
  | cons row rest ih =>
      unfold internRows
      obtain ⟨e, hrow, hnone⟩ | ⟨key, data, hkey, hrow, hsome⟩ := model.internRow_cases row m
      · -- The rows after one that has no record are not interned.
        rw [hrow, hnone]
        exact ⟨[], .nothing, fun records h => nomatch h⟩
      · rw [hrow, hsome]
        obtain ⟨others, hrest, hrecords⟩ := ih (model.internAt key data m).2
        refine ⟨_, (Happens.interned hkey).append hrest, ?_⟩
        intro records h
        cases hresult : (model.internRows rest (model.internAt key data m).2).1 with
        | error e => simp [hresult, Except.map] at h
        | ok more =>
            simp only [hresult, Except.map, Except.ok.injEq] at h
            subst h
            exact List.cons_subset_cons _ (hrecords more hresult)

end Model

end SqlSession
