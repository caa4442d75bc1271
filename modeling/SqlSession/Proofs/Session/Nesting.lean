import SqlSession.Proofs.Model.Assembly
import SqlSession.Proofs.Session.Alone
import SqlSession.Proofs.Session.Courses
import SqlSession.Sample.Models

/-!
# `SqlSession.Proofs.Session.Nesting`: transactions inside transactions

A transaction that is asked for inside another one is that other one:
nothing is begun, and nothing is ended until the outermost call ends it.
`Nested` are the programs that can stand inside: statements, local
computations and waits, further transactions to any depth and calls to
begin one, put together by their results, so that an error may be
passed on or swallowed anywhere. The operations of a model are such
programs (`Operation.nested`), although an insert asks for a transaction
of its own.

While a transaction is open, all that such a program does is to issue
statements on it (`Nested.within`). With a task that runs alone this
gives all its calls: one begin, statements on the transaction that was
begun, and one ending (`Session.nested_transactions_flatten`).
-/

set_option autoImplicit false

namespace SqlSession

variable {π α β σ : Type}

/-! ### Programs inside a transaction -/

/-- What can stand inside a transaction without ending it. -/
inductive Nested : {α : Type} → Program π α → Prop
  | pure {α : Type} (value : α) : Nested (Pure.pure value)
  | bind {α β : Type} {program : Program π α} {next : α → Program π β} :
      Nested program → (∀ value, Nested (next value)) → Nested (program >>= next)
  | locally {α : Type} {act : Scope π → α × Scope π} :
      (∀ scope, (act scope).2.session.slot = scope.session.slot) →
        Nested (Program.atomically act)
  | sleep (span : Duration) : Nested (Program.call (.sleep span))
  | query (sql : String) (params : List Value) : Nested (Session.query sql params).run
  | exec (sql : String) (params : List Value) : Nested (Session.exec sql params).run
  | begin : Nested Session.beginTransaction.run
  | runInTransaction {α : Type} {body : Action π α} :
      Nested body.run → Nested (Session.runInTransaction body).run

namespace Nested

/-- An error ends a sequence of actions. -/
theorem andThen {action : Action π α} {next : α → Action π β} (h : Nested action.run)
    (hnext : ∀ value, Nested (next value).run) : Nested (action >>= next).run := by
  refine h.bind fun result => ?_
  cases result with
  | ok value => exact hnext value
  | error e => exact .pure _

/-- Ending with a value can stand anywhere. -/
theorem done (value : α) : Nested (Pure.pure value : Action π α).run := .pure _

/-- An error can be caught, and something else done instead. -/
theorem recover {action : Action π α} {handler : Error → Action π α} (h : Nested action.run)
    (hhandler : ∀ e, Nested (handler e).run) : Nested (tryCatch action handler).run := by
  refine h.bind fun result => ?_
  cases result with
  | ok value => exact .pure _
  | error e => exact hhandler e

/-- So can a function of a result. -/
theorem map {action : Action π α} {f : α → β} (h : Nested action.run) :
    Nested (f <$> action).run :=
  h.andThen fun value => done (f value)

/-- A change of the memory takes no call and leaves the slot alone. -/
theorem change (act : Memory π → α × Memory π) : Nested (Memory.change act) :=
  .locally fun _ => rfl

end Nested

/-! ### Operations of a model -/

/-- What operations are made of can stand inside a transaction. -/
theorem Assembled.nested {program : Program π α} (h : Assembled program) : Nested program := by
  induction h with
  | pure value => exact .pure value
  | bind _ _ ih ihnext => exact .bind ih ihnext
  | query sql params => exact .query sql params
  | exec sql params => exact .exec sql params
  | runInTransaction _ ih => exact .runInTransaction ih
  | inTransaction => exact .locally fun _ => rfl
  | data model record => exact .locally fun _ => rfl
  | lookUp model key => exact .change (model.cached? key)
  | internRow model row => exact .change (model.internRow row)
  | internRows model rows => exact .change (model.internRows rows)
  | mergeAndSave model record written => exact .change (model.mergeAndSave record written)
  | forget key => exact .change (Model.forget key)

/-- What can be asked of a model can be asked inside a transaction. -/
theorem Operation.nested {μ : Type} (model : Model π μ) (op : Operation μ) :
    Nested (op.run model).run :=
  (op.assembled model).nested

/-! ### Inside an open transaction -/

/-- A course that keeps to a transaction: as long as it finds that one in
the slot, it leaves it there and issues statements on it alone. -/
def Flow.Within (handle : Handle) : Flow π α → Prop
  | .done _ scope => scope.session.slot = some handle
  | .wait scope call resume =>
      scope.session.slot = some handle ∧ call.On (some handle) ∧
      ∀ (answer : call.Answer) (scope : Scope π), scope.session.slot = some handle →
        (resume answer scope).Within handle

/-- What keeps to a transaction in both its halves keeps to it. -/
theorem Flow.Within.andThen {handle : Handle} {flow : Flow π α}
    {next : α → Scope π → Flow π β} (h : flow.Within handle)
    (hnext : ∀ value (scope : Scope π), scope.session.slot = some handle →
      (next value scope).Within handle) : (flow.andThen next).Within handle := by
  induction flow with
  | done value scope => exact hnext value scope h
  | wait scope call resume ih =>
      obtain ⟨hslot, hon, hresume⟩ := h
      exact ⟨hslot, hon, fun answer scope hslot => ih answer scope (hresume answer scope hslot)⟩

/-- A program that keeps to a transaction that it finds open. -/
def Program.Within (handle : Handle) (program : Program π α) : Prop :=
  ∀ scope : Scope π, scope.session.slot = some handle → (program scope).Within handle

namespace Session

variable {handle : Handle}

/-- One program after another keeps to a transaction if both do. -/
theorem within_bind {program : Program π α} {next : α → Program π β}
    (h : program.Within handle) (hnext : ∀ value, (next value).Within handle) :
    (program >>= next).Within handle :=
  fun scope hslot => (h scope hslot).andThen fun value scope hslot => hnext value scope hslot

/-- A statement that reads goes to what is in the slot. -/
theorem within_query (sql : String) (params : List Value) :
    (query sql params : Action π (List Row)).run.Within handle := by
  intro scope hslot
  rw [query_eq]
  exact ⟨hslot, hslot, fun _ _ hslot => hslot⟩

/-- So does one that writes. -/
theorem within_exec (sql : String) (params : List Value) :
    (exec sql params : Action π ExecResult).run.Within handle := by
  intro scope hslot
  rw [exec_eq]
  exact ⟨hslot, hslot, fun _ _ hslot => hslot⟩

end Session

/-- Whatever stands inside a transaction keeps to it. -/
theorem Nested.within {handle : Handle} {program : Program π α} (h : Nested program) :
    program.Within handle := by
  induction h with
  | pure value => exact fun scope hslot => hslot
  | bind _ _ ih ihnext => exact Session.within_bind ih ihnext
  | locally hact => exact fun scope hslot => (hact scope).trans hslot
  | sleep span => exact fun scope hslot => ⟨hslot, trivial, fun _ _ hslot => hslot⟩
  | query sql params => exact Session.within_query sql params
  | exec sql params => exact Session.within_exec sql params
  | begin =>
      intro scope hslot
      simp only [Session.beginTransaction, ExceptT.run_bind, Program.bind_apply,
        Session.openTransaction_of_open hslot]
      exact hslot
  | runInTransaction _ ih =>
      -- A further transaction takes part in the one that is open.
      intro scope hslot
      rw [Session.runInTransaction_of_open hslot]
      exact ih scope hslot

/-! ### The whole transaction -/

/-- A task that runs alone inside a transaction finds it open to the end,
and all its calls are on its behalf. -/
theorem Flow.Within.alone {handle : Handle} {flow : Flow π α} (h : flow.Within handle)
    (env : Environment σ) (s : σ) :
    (flow.alone env s).scope.session.slot = some handle ∧
      ∀ x ∈ (flow.alone env s).trace, x.call.On (some handle) := by
  induction flow generalizing s with
  | done value scope => exact ⟨h, fun x hx => nomatch hx⟩
  | wait scope call resume ih =>
      obtain ⟨hslot, hon, hresume⟩ := h
      obtain ⟨⟨⟨answer, t⟩, s'⟩, hreply⟩ : ∃ reply, env.reply s scope.now call = reply := ⟨_, rfl⟩
      -- Nobody else is there to change the slot while the call is answered.
      obtain ⟨hend, htrace⟩ := ih answer _ (hresume answer { scope with now := scope.now.later t } hslot) s'
      simp only [Flow.alone, hreply]
      refine ⟨hend, ?_⟩
      intro x hx
      rcases List.mem_cons.mp hx with rfl | hx
      · exact hon
      · exact htrace x hx

namespace Session

/-- A transaction on an idle session is all or nothing, whatever stands
inside and however the calls are answered. What can be asked of a model
can stand inside.

If no transaction can be begun, that is the only call and its error the
result: the body does not run. Otherwise the first call begins the one
transaction there is, the last call ends it, and all calls between are
those of the body, each a statement on this transaction or a wait. It is
committed exactly if the body gave a value. The result is that value if
the commit succeeds, the error of a failed commit, and the body's own
error however the rollback goes. The session is idle afterwards. -/
theorem nested_transactions_flatten :
    (∀ (μ : Type) (model : Model π μ) (op : Operation μ), Nested (op.run model).run) ∧
    ∀ (body : Action π α) (env : Environment σ) (s : σ) (scope : Scope π),
      Nested body.run → scope.session.slot = none →
      let run := ((runInTransaction body).run scope).alone env s
      run.scope.session.slot = none ∧
      ((∃ e, run.trace = [⟨.begin, .error e⟩] ∧ run.value = .error e) ∨
        ∃ (handle : Handle) (t : Instant) (s' : σ) (inner : Solo π (Except Error α) σ)
          (ended : Except Error Unit),
          (body.run ({ scope with now := t }.withSlot (some handle))).alone env s' = inner ∧
          run.trace = ⟨.begin, .ok handle⟩ ::
            (inner.trace ++ [⟨.finish handle (endingOf inner.value), ended⟩]) ∧
          (∀ x ∈ inner.trace, x.call.On (some handle)) ∧
          run.value = resultOf inner.value ended) := by
  refine ⟨fun μ model op => op.nested model, ?_⟩
  intro body env s scope h hidle
  obtain ⟨⟨⟨answer, t⟩, s'⟩, hreply⟩ : ∃ reply, env.reply s scope.now .begin = reply := ⟨_, rfl⟩
  simp only [runInTransaction_of_idle hidle, Flow.alone, hreply]
  cases answer with
  | error e => exact ⟨hidle, .inl ⟨e, rfl, rfl⟩⟩
  | ok handle =>
      -- The slot is still empty, so the task owns the transaction.
      let start := { scope with now := scope.now.later t }.withSlot (some handle)
      have hopened : opened (.ok handle) { scope with now := scope.now.later t }
          = .done (.ok .owner) start := by
        simp [opened, hidle, start]
      have hinner := Flow.Within.alone (h.within start rfl) env s'
      simp only [hopened, Flow.done_andThen, entered, Flow.alone_andThen]
      generalize hrun : (body.run start).alone env s' = inner at hinner
      obtain ⟨hopen, hon⟩ := hinner
      -- Nobody took the transaction out of the slot: the task ends it now.
      rw [leaveTransaction_of_open hopen]
      obtain ⟨⟨⟨ended, t'⟩, s''⟩, hend⟩ : ∃ reply, env.reply inner.rest
        (inner.scope.withSlot none).now (.finish handle (endingOf inner.value)) = reply := ⟨_, rfl⟩
      simp only [Flow.alone, hend]
      refine ⟨?_, .inr ⟨handle, _, s', inner, ended, hrun, rfl, hon, rfl⟩⟩
      cases ended <;> cases inner.value <;> rfl

/-- An insert that times out inside, with its error swallowed, a begin
that is ignored, and a commit that fails. -/
theorem nested_transactions_flatten_swallowed :
    let body : Action Sample.Payload Unit := do
      tryCatch (discard (Sample.user.insert [("id", .int 7), ("name", .text "eve")] []))
        fun _ => pure ()
      beginTransaction
      discard (exec "DELETE FROM t" [])
    let env : Environment Nat := { reply := fun n t call =>
      match call with
      | .begin => ((.ok ⟨3⟩, t), n)
      | .finish .. => ((.error (.driver "gone"), t), n)
      | .query .. => ((none, t), n)
      | .exec .. => ((if n = 0 then none else some (.ok ⟨1, none⟩), t), n + 1)
      | .sleep _ => (((), t), n) }
    let run := ((runInTransaction body).run ⟨.start, .ofConfig {}, .empty, []⟩).alone env 0
    run.trace.length = 4 ∧ run.value = .error (.driver "gone") ∧
      run.scope.session.slot = none ∧
      ∃ (handle : Handle) (inner : List Exchange) (ending : Ending) (ended : Except Error Unit),
        run.trace = ⟨.begin, .ok handle⟩ :: (inner ++ [⟨.finish handle ending, ended⟩]) ∧
        ∀ x ∈ inner, x.call.On (some handle) := by
  intro body env run
  -- The error of the insert is swallowed, and the body goes on.
  have hbody : Nested body.run := by
    refine .andThen (.recover ?_ fun _ => .done ()) fun _ => .andThen .begin fun _ => ?_
    · exact .map ((Operation.insert _ _).nested Sample.user)
    · exact .map (.exec _ _)
  have hlength : run.trace.length = 4 := by decide +kernel
  obtain ⟨hidle, ⟨e, htrace, -⟩ | ⟨handle, t, s', inner, ended, -, htrace, hon, -⟩⟩ :=
    nested_transactions_flatten.2 body env 0 ⟨.start, .ofConfig {}, .empty, []⟩ hbody rfl
  · -- The begin was answered, so there is more than one call.
    exact absurd ((congrArg List.length htrace).symm.trans hlength) (by simp)
  · exact ⟨hlength, rfl, hidle, handle, inner.trace, _, ended, htrace, hon⟩

end Session

end SqlSession
