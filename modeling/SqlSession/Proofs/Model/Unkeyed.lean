import SqlSession.Proofs.Model.Updating

/-!
# `SqlSession.Proofs.Model.Unkeyed`: index values that make no key

Some index values make no key: there are none, or one of them is an empty
text or of a kind that identifies no row. The operations that look for
cached records make the key first and fail at once. The other operations
by index values issue their statement without it: `unkeyed_index` says what
each of them does.

For a removal this is too late. Its key is made when the rows are gone, so
the removal fails although it was carried out. As a null is compared by
`IS NULL`, these may be any number of rows (`removal_reported_failed`).
-/

set_option autoImplicit false

namespace SqlSession

variable {π μ α σ : Type}

/-- A course that waits for the answer to a call first of all, before it
changes anything in its scope. -/
def Flow.Asks (flow : Flow π α) (scope : Scope π) (call : Call) : Prop :=
  ∃ resume, flow = .wait scope call resume

namespace Model

variable {model : Model π μ} {index : List Value} {e : Error} {scope : Scope π}
  {record : Record μ} {before : μ} {built : Query}

/-! ### Reads -/

/-- The statement that reads and locks the row with some index values. -/
def lockQuery (model : Model π μ) (index : List Value) : Except Error Query := do
  let fields ← model.indexFilter index
  ((model.selection.filter (.fields fields)).withTail "FOR UPDATE").draft.query

/-- Without a key there is nothing to look up, and nothing else happens. -/
theorem queryCache_of_unkeyed (h : model.key index = .error e) :
    (model.queryCache index).run scope = .done (.error e) scope := by
  unfold queryCache
  rw [h]
  rfl

/-- A selection looks the key up first, and so makes no call. -/
theorem select_of_unkeyed (h : model.key index = .error e) :
    (model.select index).run scope = .done (.error e) scope := by
  unfold select
  rw [h]
  rfl

/-- Loading makes the key first, although it does not look it up. -/
theorem load_of_unkeyed (h : model.key index = .error e) :
    (model.load index).run scope = .done (.error e) scope := by
  unfold load
  rw [h]
  rfl

/-- In a transaction, a read with a lock is its statement and the row that
it finds. -/
theorem selectForUpdate_of_open {handle : Handle} (hslot : scope.session.slot = some handle) :
    (model.selectForUpdate index).run scope = (do
      let built ← model.lockQuery index
      let rows ← Session.query built.sql built.params
      model.internFirst rows : Action π (Record μ)).run scope := by
  have hopen : scope.session.inTransaction = true := by simp [Session.inTransaction, hslot]
  have hread : (model.selectForUpdate index).run scope = (do
      let fields ← model.indexFilter index
      model.internFirst (← rowsOf ((model.selection.filter (.fields fields)).withTail
        "FOR UPDATE")) : Action π (Record μ)).run scope := by
    simp [selectForUpdate, hopen]
  rw [hread]
  unfold lockQuery
  cases model.indexFilter index with
  | error e => rfl
  | ok fields =>
      have hfields : (Except.ok fields : Except Error _) = pure fields := rfl
      rw [ofExcept_ok_bind, hfields, pure_bind]
      exact congrFun (congrArg ExceptT.run (bind_assoc ..)) scope

/-- A read with a lock asks for its row whether this has a key or not. -/
theorem asks_selectForUpdate {handle : Handle} (hslot : scope.session.slot = some handle)
    (hbuilt : model.lockQuery index = .ok built) :
    ((model.selectForUpdate index).run scope).Asks scope
      (.query (some handle) built.sql built.params scope.session.deadline) := by
  rw [selectForUpdate_of_open hslot, hbuilt, ofExcept_ok_bind, ExceptT.run_bind,
    Program.bind_apply, Session.query_eq, Flow.wait_andThen, hslot]
  exact ⟨_, rfl⟩

/-! ### Writes -/

/-- An update or a removal asks for its row whether this has a key or not. -/
theorem asks_writeRow {build : List Value → Except Error Query}
    {next : List Value → ExecResult → Action π α}
    (h : model.data? scope.memory record = some before)
    (hbuilt : build (model.indexValues before) = .ok built) :
    ((model.writeRow record build next).run scope).Asks scope
      (.exec scope.session.slot built.sql built.params scope.session.deadline) := by
  rw [writeRow_of_data h, hbuilt]
  exact ⟨_, rfl⟩

/-- An update on its own that leaves its record without a key. It fails if
one row was changed. -/
theorem update_alone_of_unkeyed {set : List (String × Value)}
    (h : model.data? scope.memory record = some before)
    (hkey : model.keyOf (model.merged (writtenRow set) before) = .error e)
    (env : Environment σ) (s : σ) :
    let run := ((model.update record set).run scope).alone env s
    ∀ x ∈ run.trace, ∀ result, x.result? = some result → result.rowsAffected = 1 →
      ∃ e', run.value = .error e' := by
  intro run x hx result hresult hone
  rcases update_alone model record set env s scope with ⟨-, hother, hvalues⟩ |
    ⟨before', hbefore, -, hvalue, -⟩
  · -- An update that gives a number of rows gives one other than 1 here.
    have hvalue := hvalues x hx result hresult
    rw [hone] at hvalue
    exact absurd hvalue hother
  · cases h.symm.trans hbefore
    rcases mergeAndSave_cases (writtenRow set) h with ⟨e', -, heq⟩ | ⟨key, hkey', -⟩
    · rw [heq] at hvalue
      exact ⟨e', hvalue⟩
    · exact nomatch hkey.symm.trans hkey'

/-- A removal by index values without a key, on its own. It changes
nothing in the memory and fails, also if rows were removed. -/
theorem remove_alone_of_unkeyed (h : model.data? scope.memory record = some before)
    (hkey : model.keyOf before = .error e) (env : Environment σ) (s : σ) :
    let run := ((model.remove record).run scope).alone env s
    run.scope.memory = scope.memory ∧ (∃ e', run.value = .error e') ∧
    ∀ x ∈ run.trace, ∀ result, x.result? = some result →
      run.value = .error (if result.rowsAffected = 0 then model.notFound else e) := by
  rw [remove_eq]
  rcases writeRow_alone env s with hunwritten |
    ⟨before', result, later, s', hbefore, hmemory, hvalue, hscope, x, hx, htrace⟩
  · refine ⟨hunwritten.memory, hunwritten.failed, ?_⟩
    intro x hx result hresult
    rw [hunwritten.results x hx] at hresult
    exact nomatch hresult
  · cases h.symm.trans hbefore
    -- The rows are gone, and only now is the key made.
    have hdrop : (model.drop (model.indexValues before) result).run later =
        .done (.error (if result.rowsAffected = 0 then model.notFound else e)) later := by
      rw [drop_run]
      replace hkey : model.key (model.indexValues before) = .error e := hkey
      rw [hkey]
      split <;> rfl
    rw [hdrop] at hvalue hscope htrace
    dsimp only
    rw [hvalue, hscope, htrace]
    refine ⟨hmemory, ⟨_, rfl⟩, ?_⟩
    intro y hy result' hresult
    rw [List.mem_singleton.mp hy, hx] at hresult
    cases hresult
    rfl

/-! ### All operations by index values -/

/-- What the operations by index values do with index values that make no
key. A look at the cache, a select and a load fail with the error of the
key, and nothing else happens. A read with a lock, an update and a removal
issue their statement, unless it cannot be built. Afterwards an update of
one row fails, unless it gives its record a key, and a removal of any rows
fails with the error of the key. -/
theorem unkeyed_index (h : model.key index = .error e) (scope : Scope π) :
    (model.queryCache index).run scope = .done (.error e) scope ∧
    (model.select index).run scope = .done (.error e) scope ∧
    (model.load index).run scope = .done (.error e) scope ∧
    (∀ handle built, scope.session.slot = some handle → model.lockQuery index = .ok built →
      ((model.selectForUpdate index).run scope).Asks scope
        (.query (some handle) built.sql built.params scope.session.deadline)) ∧
    ∀ record before, model.data? scope.memory record = some before →
      model.indexValues before = index →
      (∀ set built, model.updateQuery set index = .ok built →
        ((model.update record set).run scope).Asks scope
          (.exec scope.session.slot built.sql built.params scope.session.deadline)) ∧
      (∀ built, model.removeQuery index = .ok built →
        ((model.remove record).run scope).Asks scope
          (.exec scope.session.slot built.sql built.params scope.session.deadline)) ∧
      ∀ (σ : Type) (env : Environment σ) (s : σ),
        (∀ set e', model.keyOf (model.merged (writtenRow set) before) = .error e' →
          let run := ((model.update record set).run scope).alone env s
          ∀ x ∈ run.trace, ∀ result, x.result? = some result → result.rowsAffected = 1 →
            ∃ e'', run.value = .error e'') ∧
        let run := ((model.remove record).run scope).alone env s
        run.scope.memory = scope.memory ∧ (∃ e', run.value = .error e') ∧
        ∀ x ∈ run.trace, ∀ result, x.result? = some result → result.rowsAffected ≠ 0 →
          run.value = .error e := by
  refine ⟨queryCache_of_unkeyed h, select_of_unkeyed h, load_of_unkeyed h, ?_, ?_⟩
  · intro handle built hslot hbuilt
    exact asks_selectForUpdate hslot hbuilt
  · rintro record before hbefore rfl
    refine ⟨?_, ?_, ?_⟩
    · intro set built hbuilt
      rw [update_eq]
      exact asks_writeRow hbefore hbuilt
    · intro built hbuilt
      rw [remove_eq]
      exact asks_writeRow hbefore hbuilt
    · intro σ env s
      refine ⟨fun set _ hkey => update_alone_of_unkeyed hbefore hkey env s, ?_⟩
      obtain ⟨hmemory, hfailed, hresults⟩ := remove_alone_of_unkeyed hbefore h env s
      refine ⟨hmemory, hfailed, ?_⟩
      intro x hx result hresult hne
      have hvalue := hresults x hx result hresult
      rw [if_neg hne] at hvalue
      exact hvalue

/-- A statement that can be built, by its text. -/
theorem exists_of_sql (built? : Except Error Query) (sql : String)
    (h : built?.toOption.map (·.sql) = some sql) :
    ∃ built, built? = .ok built ∧ built.sql = sql := by
  cases built? with
  | error e => exact nomatch h
  | ok built => exact ⟨built, rfl, Option.some.inj h⟩

/-- A null is no key of a tag. Inside a transaction, and with a record in
hand whose key was set to null, all tags without a key are locked, or
removed. -/
theorem unkeyed_index_null :
    ∃ (scope : Scope Sample.Payload) (locked removed : Query),
      let e : Error := .cacheKey "unsupported null index value for table `tags`"
      Sample.tag.key [.null] = .error e ∧
      (Sample.tag.select [.null]).run scope = .done (.error e) scope ∧
      locked.sql =
        "SELECT `tags`.`key`, `tags`.`label` FROM `tags` WHERE `key` IS NULL FOR UPDATE" ∧
      ((Sample.tag.selectForUpdate [.null]).run scope).Asks scope
        (.query (some ⟨3⟩) locked.sql locked.params none) ∧
      removed.sql = "DELETE FROM `tags` WHERE `key` IS NULL" ∧
      ((Sample.tag.remove ⟨0⟩).run scope).Asks scope
        (.exec (some ⟨3⟩) removed.sql removed.params none) := by
  let scope : Scope Sample.Payload := ⟨.start, { Session.ofConfig {} with slot := some ⟨3⟩ },
    Records.empty.add (.tag ⟨.null, none⟩), []⟩
  have hkey : Sample.tag.key [.null] =
      .error (.cacheKey "unsupported null index value for table `tags`") := by decide +kernel
  obtain ⟨locked, hlocked, hlock⟩ := exists_of_sql (Sample.tag.lockQuery [.null])
    "SELECT `tags`.`key`, `tags`.`label` FROM `tags` WHERE `key` IS NULL FOR UPDATE"
    (by decide +kernel)
  obtain ⟨removed, hremoved, hremove⟩ := exists_of_sql (Sample.tag.removeQuery [.null])
    "DELETE FROM `tags` WHERE `key` IS NULL" (by decide +kernel)
  -- Both statements can be built, so both are issued.
  obtain ⟨-, hselect, -, hlocks, hwrites⟩ := unkeyed_index hkey scope
  obtain ⟨-, hremoves, -⟩ := hwrites ⟨0⟩ ⟨.null, none⟩ rfl rfl
  exact ⟨scope, locked, removed, hkey, hselect, hlock, hlocks _ _ rfl hlocked, hremove,
    hremoves _ hremoved⟩

/-- A tag is read and its key is set to null. To remove it removes the tags
without a key, and fails because of the key. -/
theorem removal_reported_failed :
    ∃ (start : Scope Sample.Payload) (env : Environment Unit),
      (Sample.tag.data? start.memory ⟨0⟩).map Sample.tag.keyOf =
        some (.error (.cacheKey "unsupported null index value for table `tags`")) ∧
      (Sample.tag.removeQuery [.null]).toOption.map (·.sql) =
        some "DELETE FROM `tags` WHERE `key` IS NULL" ∧
      let run := ((Sample.tag.remove ⟨0⟩).run start).alone env ()
      run.trace.map (·.result?) = [some ⟨1, none⟩] ∧
      run.value = .error (.cacheKey "unsupported null index value for table `tags`") := by
  let env := Environment.willing fun _ => [⟨[("key", .text "k"), ("label", .text "a")]⟩]
  let scope : Scope Sample.Payload := ⟨.start, .ofConfig {}, .empty, []⟩
  let read := (((Sample.tag.load [.text "k"]).run scope).alone env ()).scope
  let start := { read with records := read.records.write 0 (.tag ⟨.null, some "a"⟩) }
  exact ⟨start, env, by decide +kernel⟩

end Model

end SqlSession
