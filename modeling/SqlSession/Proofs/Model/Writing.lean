import SqlSession.Proofs.Model.Effects
import SqlSession.Proofs.Session.Alone
import SqlSession.Proofs.Session.Courses

/-!
# `SqlSession.Proofs.Model.Writing`: the course of an update and a removal

An update and a removal write to the row of a record in the same way
(`writeRow`): they read the index values off the record, build a
statement from them, run it, and go on with its result. So both end
before their first call, or are one statement with something after it
that takes no call (`writeRow_of_data`). What comes after it is `refresh`
for an update and `drop` for a removal. `writeRow_alone` says what such a
write comes to for a task on its own.
-/

set_option autoImplicit false

namespace SqlSession

/-- What a statement did that was to change rows and was carried out. -/
def Exchange.result? : Exchange → Option ExecResult
  | ⟨.exec .., some (.ok result)⟩ => some result
  | _ => none

namespace Model

variable {π μ α : Type} (model : Model π μ)

/-- The statement that changes the row with some index values. -/
def updateQuery (set : List (String × Value)) (index : List Value) : Except Error Query := do
  let fields ← model.indexFilter index
  let stmt : Update := { table := model.table }
  (Statement.update ((stmt.setAll set).filter (.fields fields))).build

/-- The statement that removes the row with some index values. -/
def removeQuery (index : List Value) : Except Error Query := do
  let fields ← model.indexFilter index
  let stmt : Delete := { table := model.table }
  (Statement.delete (stmt.filter (.fields fields))).build

/-- What an update does with the result of its statement. -/
def refresh (record : Record μ) (set : List (String × Value)) (result : ExecResult) :
    Action π UInt64 := do
  if result.rowsAffected = 1 then
    ExceptT.mk (Memory.change (model.mergeAndSave record (writtenRow set)))
  return result.rowsAffected

/-- What a removal does with the result of its statement. -/
def drop (index : List Value) (result : ExecResult) : Action π Unit := do
  if result.rowsAffected = 0 then throw model.notFound
  let key ← model.key index
  ExceptT.mk do
    Memory.change (forget key)
    return .ok ()

/-- Writes to the row of a record by a statement that is built from its
index values, and goes on with these and the result. -/
def writeRow (record : Record μ) (build : List Value → Except Error Query)
    (next : List Value → ExecResult → Action π α) : Action π α := do
  let index ← model.indexOf record
  let built ← build index
  let result ← Session.exec built.sql built.params
  next index result

/-- A statement that is built from something is built first and run then. -/
theorem execute_bind {β : Type} (source : Except Error β) (stmt : β → Statement)
    (next : ExecResult → Action π α) :
    (do
      let value ← source
      let result ← Session.execute (stmt value)
      next result) =
    (do
      let built ← (source >>= fun value => (stmt value).build : Except Error Query)
      let result ← Session.exec built.sql built.params
      next result : Action π α) := by
  cases source with
  | error e => rfl
  | ok value =>
      rw [ofExcept_ok_bind]
      unfold Session.execute
      rw [bind_assoc]
      rfl

/-- An update is the course of `writeRow`, with a merge at its end. -/
theorem update_eq (record : Record μ) (set : List (String × Value)) :
    (model.update record set : Action π UInt64) =
      model.writeRow record (model.updateQuery set) fun _ => model.refresh record set := by
  unfold update writeRow
  congr
  funext index
  exact execute_bind (model.indexFilter index) _ _

/-- A removal is the same course, with the record forgotten at its end. -/
theorem remove_eq (record : Record μ) :
    (model.remove record : Action π Unit) =
      model.writeRow record model.removeQuery model.drop := by
  unfold remove writeRow
  congr
  funext index
  exact execute_bind (model.indexFilter index) _ _

/-! ### Courses -/

section Courses

variable {model} {record : Record μ} {build : List Value → Except Error Query}
  {next : List Value → ExecResult → Action π α} {scope : Scope π} {before : μ}

/-- The index values of a record are at hand. -/
theorem indexOf_run :
    (model.indexOf record).run scope =
      .done (match model.data? scope.memory record with
        | some data => .ok (model.indexValues data)
        | none => .error model.notFound) scope := by
  unfold indexOf
  simp only [ExceptT.run_mk, Program.bind_apply, Program.read_apply, Flow.done_andThen]
  cases model.data? scope.memory record <;> rfl

/-- Without data there is no row to write to. -/
theorem writeRow_of_unknown (h : model.data? scope.memory record = none) :
    (model.writeRow record build next).run scope = .done (.error model.notFound) scope := by
  unfold writeRow
  rw [ExceptT.run_bind, Program.bind_apply, indexOf_run, h]
  rfl

/-- A write is one statement, unless it cannot be built. What follows takes
up the result in the scope in which it arrives. -/
theorem writeRow_of_data (h : model.data? scope.memory record = some before) :
    (model.writeRow record build next).run scope =
      match build (model.indexValues before) with
      | .error e => .done (.error e) scope
      | .ok built =>
          .wait scope (.exec scope.session.slot built.sql built.params scope.session.deadline)
            fun answer later =>
              let result := Session.outcome scope answer
              let later := later.logged
                (Session.observed .exec built.sql built.params scope result later.now)
              match result with
              | .error e => .done (.error e) later
              | .ok result => (next (model.indexValues before) result).run later := by
  unfold writeRow
  rw [ExceptT.run_bind, Program.bind_apply, indexOf_run, h]
  cases hbuilt : build (model.indexValues before) with
  | error e =>
      simp only [Flow.done_andThen, hbuilt]
      rfl
  | ok built =>
      simp only [Flow.done_andThen, hbuilt]
      -- The statement waits once, and what follows is put behind its answer.
      show ExceptT.run (Session.exec built.sql built.params >>= _) scope = _
      rw [ExceptT.run_bind, Program.bind_apply, Session.exec_eq, Flow.wait_andThen]
      congr
      funext answer later
      rw [Flow.done_andThen]
      cases Session.outcome scope answer <;> rfl

/-- An update of one row merges what was written into the record. -/
theorem refresh_run (set : List (String × Value)) (result : ExecResult) :
    (model.refresh record set result).run scope =
      if result.rowsAffected = 1 then
        .done ((model.mergeAndSave record (writtenRow set) scope.memory).1.map fun _ => 1)
          (scope.withMemory (model.mergeAndSave record (writtenRow set) scope.memory).2)
      else .done (.ok result.rowsAffected) scope := by
  unfold refresh
  by_cases hone : result.rowsAffected = 1
  · simp only [hone, if_true, Memory.change, bind_pure_comp, ExceptT.run_map, ExceptT.run_mk,
      Program.map_apply, Program.atomically_apply, Flow.done_andThen]
  · simp only [hone, if_false]
    rfl

/-- A removal forgets the key of the row, if there was a row and it has a
key. -/
theorem drop_run (index : List Value) (result : ExecResult) :
    (model.drop index result).run scope =
      if result.rowsAffected = 0 then .done (.error model.notFound) scope
      else match model.key index with
        | .error e => .done (.error e) scope
        | .ok key => .done (.ok ()) (scope.withMemory (forget key scope.memory).2) := by
  unfold drop
  by_cases hnone : result.rowsAffected = 0
  · simp [hnone]
  · cases hkey : model.key index with
    | error e =>
        simp only [hnone, if_false]
        rfl
    | ok key =>
        simp only [hnone, if_false]
        rfl

/-- What a write comes to when its statement was not carried out: an error,
and nothing else. -/
structure Unwritten {σ : Type} (m : Memory π) (run : Solo π (Except Error α) σ) : Prop where
  failed : ∃ e, run.value = .error e
  memory : run.scope.memory = m
  results : ∀ x ∈ run.trace, x.result? = none

/-- A write on its own. Either its statement was not carried out, or what
follows the statement is all that happens to the memory. -/
theorem writeRow_alone {σ : Type} (env : Environment σ) (s : σ) :
    let run := ((model.writeRow record build next).run scope).alone env s
    Unwritten scope.memory run ∨
    ∃ (before : μ) (result : ExecResult) (later : Scope π) (s' : σ),
      model.data? scope.memory record = some before ∧ later.memory = scope.memory ∧
      let last := ((next (model.indexValues before) result).run later).alone env s'
      run.value = last.value ∧ run.scope = last.scope ∧
        ∃ x : Exchange, x.result? = some result ∧ run.trace = x :: last.trace := by
  cases hdata : model.data? scope.memory record with
  | none =>
      rw [writeRow_of_unknown hdata]
      exact .inl ⟨⟨_, rfl⟩, rfl, List.forall_mem_nil _⟩
  | some before =>
      rw [writeRow_of_data hdata]
      cases build (model.indexValues before) with
      | error e => exact .inl ⟨⟨e, rfl⟩, rfl, List.forall_mem_nil _⟩
      | ok built =>
          obtain ⟨⟨⟨answer, t⟩, s'⟩, hreply⟩ : ∃ reply, env.reply s scope.now
            (.exec scope.session.slot built.sql built.params scope.session.deadline) = reply :=
            ⟨_, rfl⟩
          simp only [Flow.alone, hreply]
          -- The answer decides: none in time, an error, or a result.
          rcases answer with _ | ⟨e⟩ | ⟨result⟩
          · exact .inl ⟨⟨_, rfl⟩, rfl, List.forall_mem_singleton.mpr rfl⟩
          · exact .inl ⟨⟨e, rfl⟩, rfl, List.forall_mem_singleton.mpr rfl⟩
          · let later := { scope with now := scope.now.later t }.logged
              (Session.observed .exec built.sql built.params scope (.ok result)
                (scope.now.later t))
            exact .inr ⟨before, result, later, s', rfl, rfl, rfl, rfl, _, rfl, rfl⟩

end Courses

end Model

end SqlSession
