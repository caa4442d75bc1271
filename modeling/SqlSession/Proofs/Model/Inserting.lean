import SqlSession.Proofs.IdentityCache
import SqlSession.Proofs.Model.Effects
import SqlSession.Proofs.Session.Alone
import SqlSession.Proofs.Session.Courses
import SqlSession.Sample.Models

/-!
# `SqlSession.Proofs.Model.Inserting`: what a failed insert leaves behind

An insert changes the memory last of all, when the row is there and has
been read: it interns the record inside the transaction. Whatever fails
up to then leaves the memory as it was (`insertion_alone`), and what
cannot be read is not interned.

One thing can still fail afterwards. If the insert runs in a transaction
of its own, this transaction is committed, and if the commit fails, the
insert fails although its record is cached. `insert_failed` says that
this is the only way in which a failed insert leaves something behind,
and `failed_commit_leaves_record` that it does.
-/

set_option autoImplicit false

namespace SqlSession

variable {π μ α σ : Type}

/-- A call to commit a transaction. -/
def Exchange.Commits (x : Exchange) : Prop := ∃ handle, x.call = .finish handle .commit

namespace Session

/-- A transaction on an idle session, whose body leaves it open, by the
run of the body, which starts once the transaction is in the slot. The
memory is the one that the body leaves. -/
theorem runInTransaction_alone {scope : Scope π} (hidle : scope.session.slot = none)
    {body : Action π α} (env : Environment σ) (s : σ)
    (hbody : ∀ (start : Scope π) (s : σ),
      ((body.run start).alone env s).scope.session.slot = start.session.slot) :
    let run := ((runInTransaction body).run scope).alone env s
    (∃ e, run.trace = [⟨.begin, .error e⟩] ∧ run.value = .error e ∧
      run.scope.memory = scope.memory) ∨
    ∃ (handle : Handle) (now : Instant) (s' : σ) (inner : Solo π (Except Error α) σ)
      (ended : Except Error Unit),
      (body.run ({ scope with now }.withSlot (some handle))).alone env s' = inner ∧
      run.trace = ⟨.begin, .ok handle⟩ ::
        (inner.trace ++ [⟨.finish handle (endingOf inner.value), ended⟩]) ∧
      run.value = resultOf inner.value ended ∧ run.scope.memory = inner.scope.memory := by
  obtain ⟨⟨⟨answer, t⟩, s'⟩, hreply⟩ : ∃ reply, env.reply s scope.now .begin = reply := ⟨_, rfl⟩
  simp only [runInTransaction_of_idle hidle, Flow.alone, hreply]
  cases answer with
  | error e => exact .inl ⟨e, rfl, rfl, rfl⟩
  | ok handle =>
      -- The slot is still empty, so the task owns the transaction.
      let start := { scope with now := scope.now.later t }.withSlot (some handle)
      have hopened : opened (.ok handle) { scope with now := scope.now.later t }
          = .done (.ok .owner) start := by
        simp [opened, hidle, start]
      have hopen := hbody start s'
      simp only [hopened, Flow.done_andThen, entered, Flow.alone_andThen]
      generalize hrun : (body.run start).alone env s' = inner at hopen
      rw [leaveTransaction_of_open hopen]
      obtain ⟨⟨⟨ended, t'⟩, s''⟩, hend⟩ : ∃ reply, env.reply inner.rest
        (inner.scope.withSlot none).now (.finish handle (endingOf inner.value)) = reply := ⟨_, rfl⟩
      simp only [Flow.alone, hend]
      refine .inr ⟨handle, _, s', inner, ended, hrun, rfl, rfl, ?_⟩
      cases ended <;> cases inner.value <;> rfl

end Session

namespace Model

variable (model : Model π μ)

/-! ### Inside the transaction -/

/-- What a result says about the memory: an error that nothing changed,
and a record that it was interned. -/
def Interned (m m' : Memory π) : Except Error (Record μ) → Prop
  | .error _ => m' = m
  | .ok record => ∃ row, model.internRow row m = (.ok record, m')

/-- What is done with an inserted row. -/
def store (fields : List (String × Value)) (result : ExecResult) : Action π (Record μ) := do
  if result.rowsAffected != 1 then
    throw (.other s!"insert into {model.table} affected {result.rowsAffected.toNat} rows")
  let fields ← model.withGeneratedId fields result
  ExceptT.mk (Memory.change (model.internRow ⟨fields⟩))

/-- What an insert does inside its transaction. -/
def insertion (fields : List (String × Value)) (built : Query) : Action π (Record μ) := do
  let result ← Session.exec built.sql built.params
  model.store fields result

/-- An insert is its statement, made outside of the transaction, and the
insertion inside it. -/
theorem insert_eq (data : List (String × Value)) (index : List Value) :
    (model.insert data index : Action π (Record μ)) = (do
      let fields ← model.insertFields data index
      let stmt : Insert := { table := model.table }
      let built ← (stmt.addRow fields).draft.query
      Session.runInTransaction (model.insertion fields built)) := rfl

/-- Interning a row fails and changes nothing, or interns that row. -/
theorem interned_internRow (row : Row) (m : Memory π) :
    model.Interned m (model.internRow row m).2 (model.internRow row m).1 := by
  obtain ⟨e, hrow, -⟩ | ⟨key, data, -, hrow, -⟩ := model.internRow_cases row m
  · rw [hrow]
    rfl
  · rw [hrow]
    exact ⟨row, hrow⟩

/-- To store a row takes no call. It fails and changes nothing, or one row
was inserted, and the row with its id is interned. -/
theorem store_cases (fields : List (String × Value)) (result : ExecResult) (scope : Scope π) :
    (∃ e, (model.store fields result).run scope = .done (.error e) scope) ∨
    ∃ stored, result.rowsAffected = 1 ∧ model.withGeneratedId fields result = .ok stored ∧
      (model.store fields result).run scope
        = .done (model.internRow ⟨stored⟩ scope.memory).1
            (scope.withMemory (model.internRow ⟨stored⟩ scope.memory).2) := by
  by_cases hone : result.rowsAffected = 1
  · cases hstored : model.withGeneratedId fields result with
    | error e =>
        refine .inl ⟨e, ?_⟩
        simp [store, hone, hstored]
        rfl
    | ok stored =>
        refine .inr ⟨stored, hone, rfl, ?_⟩
        simp [store, hone, hstored]
        rfl
  · left
    simp [store, hone]

/-- Inside a transaction an insert waits once, for the answer to its
statement. -/
theorem insertion_eq (fields : List (String × Value)) (built : Query) (scope : Scope π) :
    (model.insertion fields built).run scope
      = .wait scope (.exec scope.session.slot built.sql built.params scope.session.deadline)
          fun answer later =>
            let outcome := Session.outcome scope answer
            let later := later.logged
              (Session.observed .exec built.sql built.params scope outcome later.now)
            match outcome with
            | .error e => .done (.error e) later
            | .ok result => (model.store fields result).run later := by
  simp only [insertion, ExceptT.run_bind, Program.bind_apply, Session.exec_eq, Flow.wait_andThen,
    Flow.done_andThen]
  congr
  funext answer later
  cases Session.outcome scope answer with
  | error e => rfl
  | ok result => rfl

/-- An outcome that is a result was the answer. -/
theorem answer_of_outcome {scope : Scope π} {answer : Option (Except Error ExecResult)}
    {result : ExecResult} (h : Session.outcome scope answer = .ok result) :
    answer = some (.ok result) := by
  cases answer with
  | none => cases h
  | some answer => exact congrArg some h

/-- An insert inside a transaction is one statement. It fails and changes
nothing, or the statement was answered by one inserted row, and the row
with its id is interned. -/
theorem insertion_alone (fields : List (String × Value)) (built : Query) (env : Environment σ)
    (s : σ) (scope : Scope π) :
    let run := ((model.insertion fields built).run scope).alone env s
    run.scope.session.slot = scope.session.slot ∧
      ∃ answer, run.trace =
          [⟨.exec scope.session.slot built.sql built.params scope.session.deadline, answer⟩] ∧
        ((∃ e, run.value = .error e ∧ run.scope.memory = scope.memory) ∨
        ∃ result stored, answer = some (.ok result) ∧ result.rowsAffected = 1 ∧
          model.withGeneratedId fields result = .ok stored ∧
          model.internRow ⟨stored⟩ scope.memory = (run.value, run.scope.memory)) := by
  obtain ⟨⟨⟨answer, t⟩, s'⟩, hreply⟩ : ∃ reply, env.reply s scope.now
    (.exec scope.session.slot built.sql built.params scope.session.deadline) = reply := ⟨_, rfl⟩
  simp only [insertion_eq, Flow.alone, hreply]
  cases houtcome : Session.outcome scope answer with
  | error e => exact ⟨rfl, answer, rfl, .inl ⟨e, rfl, rfl⟩⟩
  | ok result =>
      have hanswer := answer_of_outcome houtcome
      -- The row is stored in the scope in which the answer arrives: later, and with the statement
      -- logged.
      rcases model.store_cases fields result ({ scope with now := scope.now.later t }.logged
          (Session.observed .exec built.sql built.params scope (.ok result) (scope.now.later t)))
        with ⟨e, hstore⟩ | ⟨stored, hone, hstored, hstore⟩
      · simp only [hstore, Flow.alone]
        exact ⟨rfl, answer, rfl, .inl ⟨e, rfl, rfl⟩⟩
      · simp only [hstore, Flow.alone]
        exact ⟨rfl, answer, rfl, .inr ⟨result, stored, hanswer, hone, hstored, rfl⟩⟩

/-- The record of an insert inside a transaction is interned unless it
fails. -/
theorem interned_insertion (fields : List (String × Value)) (built : Query) (env : Environment σ)
    (s : σ) (scope : Scope π) :
    model.Interned scope.memory
      (((model.insertion fields built).run scope).alone env s).scope.memory
      (((model.insertion fields built).run scope).alone env s).value := by
  obtain ⟨-, answer, -, ⟨e, hvalue, hmemory⟩ | ⟨result, stored, -, -, -, hrow⟩⟩ :=
    model.insertion_alone fields built env s scope
  · rw [hvalue]
    exact hmemory
  · have hinterned := model.interned_internRow ⟨stored⟩ scope.memory
    rw [hrow] at hinterned
    exact hinterned

/-! ### The whole insert -/

/-- What cannot be had ends a course at once. -/
theorem ofExcept_bind_cases {β : Type} (result : Except Error β) (next : β → Action π α)
    (scope : Scope π) :
    (∃ e, (liftM result >>= next : Action π α).run scope = .done (.error e) scope) ∨
    ∃ value, result = .ok value ∧
      (liftM result >>= next : Action π α).run scope = (next value).run scope := by
  cases result with
  | error e => exact .inl ⟨e, rfl⟩
  | ok value => exact .inr ⟨value, rfl, rfl⟩

/-- An insert fails before its first call, or is one statement in a
transaction. -/
theorem insert_cases (data : List (String × Value)) (index : List Value) (scope : Scope π) :
    (∃ e, (model.insert data index).run scope = .done (.error e) scope) ∨
    ∃ fields built, model.insertFields data index = .ok fields ∧
      (({ table := model.table } : Insert).addRow fields).draft.query = .ok built ∧
      (model.insert data index).run scope
        = (Session.runInTransaction (model.insertion fields built)).run scope := by
  rw [insert_eq]
  rcases ofExcept_bind_cases (model.insertFields data index) _ scope with
    ⟨e, hfailed⟩ | ⟨fields, hfields, hcourse⟩
  · exact .inl ⟨e, hfailed⟩
  · rw [hcourse]
    rcases ofExcept_bind_cases (({ table := model.table } : Insert).addRow fields).draft.query
      (fun built => Session.runInTransaction (model.insertion fields built)) scope with
      ⟨e, hfailed⟩ | ⟨built, hbuilt, hcourse⟩
    · exact .inl ⟨e, hfailed⟩
    · exact .inr ⟨fields, built, hfields, hbuilt, hcourse⟩

section Failing

variable {model} {env : Environment σ} {s : σ} {scope : Scope π} {fields : List (String × Value)}
  {built : Query} {e : Error}

/-- In an open transaction nothing can fail once the record is interned. -/
theorem insertion_failed_of_open
    (h : (((model.insertion fields built).run scope).alone env s).value = .error e) :
    let run := ((model.insertion fields built).run scope).alone env s
    run.scope.memory = scope.memory ∧ ∀ x ∈ run.trace, ¬ x.Commits := by
  obtain ⟨-, answer, htrace, -⟩ := model.insertion_alone fields built env s scope
  have hinterned := model.interned_insertion fields built env s scope
  rw [h] at hinterned
  refine ⟨hinterned, ?_⟩
  rw [htrace]
  rintro x hx ⟨_, hcall⟩
  rw [List.mem_singleton.mp hx] at hcall
  exact nomatch hcall

/-- In a transaction of its own, only the commit can fail once the record
is interned. -/
theorem insertion_failed_of_idle (hidle : scope.session.slot = none)
    (h : (((Session.runInTransaction (model.insertion fields built)).run scope).alone env s).value
      = .error e) :
    let run := ((Session.runInTransaction (model.insertion fields built)).run scope).alone env s
    (run.scope.memory = scope.memory ∧ ∀ x ∈ run.trace, ¬ x.Commits) ∨
    ((∃ handle, run.trace.getLast? = some ⟨.finish handle .commit, .error e⟩) ∧
      ∃ row record, model.internRow row scope.memory = (.ok record, run.scope.memory)) := by
  dsimp only
  rcases Session.runInTransaction_alone hidle env s
      (fun start s => (model.insertion_alone fields built env s start).1) with
    ⟨e', htrace, -, hmemory⟩ |
    ⟨handle, now, s', inner, ended, hinner, htrace, hvalue, hmemory⟩
  · -- No transaction was begun.
    refine .inl ⟨hmemory, ?_⟩
    rw [htrace]
    rintro x hx ⟨_, hcall⟩
    rw [List.mem_singleton.mp hx] at hcall
    cases hcall
  · obtain ⟨-, answer, hexec, -⟩ := model.insertion_alone fields built env s'
      ({ scope with now }.withSlot (some handle))
    have hinterned := model.interned_insertion fields built env s'
      ({ scope with now }.withSlot (some handle))
    simp only [hinner] at hinterned hexec
    rw [hvalue] at h
    rw [hmemory, htrace, hexec]
    cases hresult : inner.value with
    | error e' =>
        -- What failed inside is rolled back.
        rw [hresult] at hinterned
        refine .inl ⟨hinterned, ?_⟩
        rintro x hx ⟨_, hcall⟩
        simp only [Session.endingOf, List.cons_append, List.nil_append, List.mem_cons,
          List.not_mem_nil, or_false] at hx
        rcases hx with rfl | rfl | rfl <;> cases hcall
    | ok record =>
        rw [hresult] at hinterned h
        obtain ⟨row, hrow⟩ := hinterned
        cases ended with
        | ok => cases h
        | error e' =>
            obtain rfl := Except.error.inj h
            exact .inr ⟨⟨handle, rfl⟩, row, record, hrow⟩

end Failing

/-- A failed insert leaves the memory as it was: the same keys are
cached, with the same records, and all records have the data they had.
The one exception is an insert that fails in its very last call, the
commit of a transaction of its own. Then, and only then, its record has
been interned. -/
theorem insert_failed {data : List (String × Value)} {index : List Value} {env : Environment σ}
    {s : σ} {scope : Scope π} {e : Error}
    (h : (((model.insert data index).run scope).alone env s).value = .error e) :
    let run := ((model.insert data index).run scope).alone env s
    (run.scope.memory = scope.memory ∧ ∀ x ∈ run.trace, ¬ x.Commits) ∨
    (scope.session.slot = none ∧
      (∃ handle, run.trace.getLast? = some ⟨.finish handle .commit, .error e⟩) ∧
      ∃ row record, model.internRow row scope.memory = (.ok record, run.scope.memory)) := by
  dsimp only
  rcases model.insert_cases data index scope with ⟨e', hcourse⟩ | ⟨fields, built, -, -, hcourse⟩
  · rw [hcourse]
    exact .inl ⟨rfl, fun x hx => nomatch hx⟩
  · rw [hcourse] at h ⊢
    cases hslot : scope.session.slot with
    | some handle =>
        rw [Session.runInTransaction_of_open hslot] at h ⊢
        exact .inl (insertion_failed_of_open h)
    | none => exact (insertion_failed_of_idle hslot h).imp_right fun hleft => ⟨rfl, hleft⟩

/-- An insert whose statement is given up at its deadline leaves the
memory as it was. -/
theorem insert_failed_timeout :
    let scope : Scope Sample.Payload :=
      ⟨.start, { Session.ofConfig {} with deadline := some .start }, .empty, []⟩
    let env : Environment Unit := { reply := fun s t call =>
      match call with
      | .begin => ((.ok ⟨3⟩, t), s)
      | .finish .. => ((.ok (), t), s)
      | .query .. => ((none, t), s)
      | .exec .. => ((none, t), s)
      | .sleep _ => (((), t), s) }
    let run := ((Sample.user.insert [("id", .int 7), ("name", .text "eve")] []).run scope).alone
      env ()
    run.value = .error (.timeout .zero) ∧ run.scope.memory = scope.memory := by
  intro scope env run
  have hvalue : run.value = .error (.timeout .zero) := by rfl
  rcases Sample.user.insert_failed hvalue with ⟨hmemory, -⟩ | ⟨-, ⟨handle, hlast⟩, -⟩
  · exact ⟨hvalue, hmemory⟩
  · exact nomatch hlast

/-- An insert on a session with an empty cache, whose commit fails. The
insert fails, and yet its record is cached: the next look at the cache
finds a row that the table does not have. -/
theorem failed_commit_leaves_record :
    ∃ (scope : Scope Sample.Payload) (env : Environment Unit),
      let run := ((Sample.user.insert [("id", .int 7), ("name", .text "eve")] []).run scope).alone
        env ()
      run.value = .error (.driver "gone") ∧ scope.memory.cache.keys = [] ∧
        run.scope.memory.cache.keys = ["users`u7"] ∧
        (Sample.user.cached? "users`u7" run.scope.memory).1 = some ⟨0⟩ ∧
        Sample.user.data? run.scope.memory ⟨0⟩ = some ⟨7, "eve", 0⟩ := by
  let scope : Scope Sample.Payload := ⟨.start, .ofConfig {}, .empty, []⟩
  let env : Environment Unit := { reply := fun s t call =>
    match call with
    | .begin => ((.ok ⟨3⟩, t), s)
    | .finish .. => ((.error (.driver "gone"), t), s)
    | .query .. => ((none, t), s)
    | .exec .. => ((some (.ok ⟨1, none⟩), t), s)
    | .sleep _ => (((), t), s) }
  exact ⟨scope, env, rfl, rfl, by decide +kernel, by decide +kernel, by decide +kernel⟩

end Model

end SqlSession
