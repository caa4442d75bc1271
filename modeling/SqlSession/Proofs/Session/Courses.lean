import SqlSession.Session.Transaction

/-!
# `SqlSession.Proofs.Session.Courses`: the courses of a session's operations

What the operations of a session do from a given scope on, written as
flows. A statement waits once, for the connector's answer: where it goes
and how long it may take is decided by the scope in which it is issued,
and on the scope in which its answer arrives it changes the log alone.

To ask for a transaction while one is open takes no call. Otherwise the
call to begin is answered in a scope that may have a transaction by
then, and `opened` is what follows. The owner of a transaction that is
still open ends it by the result of what was done in it (`endingOf`,
`resultOf`).
-/

set_option autoImplicit false

namespace SqlSession

variable {π α β : Type}

/-! ### Courses of small programs -/

/-- A flow that has ended hands its value and its scope on to what
follows. -/
@[simp]
theorem Flow.done_andThen (value : α) (scope : Scope π) (next : α → Scope π → Flow π β) :
    (Flow.done value scope).andThen next = next value scope := rfl

/-- A flow that waits goes on waiting. What follows is put behind its
answer. -/
@[simp]
theorem Flow.wait_andThen (scope : Scope π) (call : Call)
    (resume : call.Answer → Scope π → Flow π α) (next : α → Scope π → Flow π β) :
    (Flow.wait scope call resume).andThen next
      = .wait scope call fun answer later => (resume answer later).andThen next := rfl

namespace Program

/-- A value is the end of a flow, in the scope it was asked in. -/
@[simp]
theorem pure_apply (value : α) (scope : Scope π) :
    (pure value : Program π α) scope = .done value scope := rfl

/-- One program after another is one flow after another. The second starts
in the scope in which the first ended. -/
@[simp]
theorem bind_apply (program : Program π α) (next : α → Program π β) (scope : Scope π) :
    (program >>= next) scope = (program scope).andThen fun value later => next value later := rfl

/-- A function of the result is applied where the flow ends. -/
@[simp]
theorem map_apply (f : α → β) (program : Program π α) (scope : Scope π) :
    (f <$> program) scope = (program scope).andThen fun value later => .done (f value) later := rfl

/-- A change of the scope is made at once, with no wait before or in it. -/
@[simp]
theorem atomically_apply (act : Scope π → α × Scope π) (scope : Scope π) :
    atomically act scope = .done (act scope).1 (act scope).2 := rfl

/-- Reading leaves the scope as it is. -/
@[simp]
theorem read_apply (view : Scope π → α) (scope : Scope π) :
    read view scope = .done (view scope) scope := rfl

/-- A call ends with the answer, in the scope that is found when it
arrives. -/
@[simp]
theorem call_apply (c : Call) (scope : Scope π) :
    (call c : Program π c.Answer) scope = .wait scope c .done := rfl

end Program

/-- What is at hand needs no action. -/
theorem ofExcept_ok_bind (value : α) (next : α → Action π β) :
    (liftM (Except.ok value : Except Error α) >>= next : Action π β) = next value := rfl

namespace Scope

/-- The scope with something else in the session's slot. -/
def withSlot (scope : Scope π) (slot : Option Handle) : Scope π :=
  { scope with session := { scope.session with slot } }

/-- The scope with more events logged. -/
def logged (scope : Scope π) (events : List Event) : Scope π :=
  { scope with events := scope.events ++ events }

end Scope

/-- An event is put behind those that are in the log. -/
@[simp]
theorem Program.emit_apply (event : Event) (scope : Scope π) :
    emit event scope = .done () (scope.logged [event]) := rfl

/-- A statement on what is in the slot, or a wait for something else. -/
def Call.On (slot : Option Handle) : Call → Prop
  | .query target _ _ _ => target = slot
  | .exec target _ _ _ => target = slot
  | .sleep _ => True
  | _ => False

namespace Session

/-! ### Statements -/

/-- What a statement logs that was issued in a scope and has its outcome
now. -/
def observed (kind : StatementKind) (sql : String) (params : List Value) (issued : Scope π)
    (outcome : Except Error α) (now : Instant) : List Event :=
  let elapsed := now.remaining issued.now
  (if issued.session.config.logStatements then
    [.statement kind sql params.length issued.session.inTransaction elapsed outcome.isOk]
  else []) ++
  match issued.session.config.slowThreshold with
  | some threshold =>
      if threshold < elapsed then [.slowStatement kind sql elapsed threshold] else []
  | none => []

/-- Observing a statement takes no call. It adds the events of `observed`,
with the settings as they were when the statement was issued. -/
theorem observe_eq (kind : StatementKind) (sql : String) (params : List Value)
    (issued : Scope π) (outcome : Except Error α) (scope : Scope π) :
    observe kind sql params issued outcome scope
      = .done () (scope.logged (observed kind sql params issued outcome scope.now)) := by
  unfold observe observed
  -- One case for each setting that is on or off.
  cases issued.session.config.logStatements <;> cases issued.session.config.slowThreshold with
  | none => simp [Scope.logged]
  | some threshold =>
      by_cases hslow : threshold < scope.now.remaining issued.now <;> simp [Scope.logged, hslow]

/-- The course of a statement that reads rows. -/
theorem query_eq (sql : String) (params : List Value) (scope : Scope π) :
    (query sql params).run scope
      = .wait scope (.query scope.session.slot sql params scope.session.deadline)
          fun answer later =>
            let result := outcome scope answer
            .done result (later.logged (observed .query sql params scope result later.now)) := by
  simp [query, observe_eq]

/-- The course of a statement that changes rows. -/
theorem exec_eq (sql : String) (params : List Value) (scope : Scope π) :
    (exec sql params).run scope
      = .wait scope (.exec scope.session.slot sql params scope.session.deadline)
          fun answer later =>
            let result := outcome scope answer
            .done result (later.logged (observed .exec sql params scope result later.now)) := by
  simp [exec, observe_eq]

/-! ### Inside a transaction -/

section Open

variable {scope : Scope π} {handle : Handle} (hslot : scope.session.slot = some handle)

include hslot

/-- To ask for a transaction inside one changes nothing but the log. -/
theorem openTransaction_of_open :
    (openTransaction : Action π Stake).run scope
      = .done (.ok .guest) (scope.logged [.alreadyOpen]) := by
  simp [openTransaction, inTransaction, hslot]

/-- To enter a transaction while one is open is to be its guest, and is
not logged. -/
theorem enterTransaction_of_open :
    (enterTransaction : Action π Stake).run scope = .done (.ok .guest) scope := by
  simp [enterTransaction, inTransaction, hslot]

/-- Inside a transaction a further one is its body. -/
theorem runInTransaction_of_open (body : Action π α) :
    (runInTransaction body).run scope = body.run scope := by
  simp [runInTransaction, enterTransaction_of_open hslot]
  exact (body.run scope).andThen_done

end Open

/-! ### Opening and ending a transaction -/

/-- How the opening of a transaction goes on once the connector has
answered. If another transaction is open by then, the new one is rolled
back at once. -/
def opened : Except Error Handle → Scope π → Flow π (Except Error Stake)
  | .error e, later => .done (.error e) (later.logged [.beginFailed e])
  | .ok handle, later =>
      match later.session.slot with
      | none => .done (.ok .owner) (later.withSlot (some handle))
      | some _ =>
          .wait (later.logged [.beginLost]) (.finish handle .rollback) fun answer last =>
            .done (.ok .guest) (match answer with
              | .ok () => last
              | .error e => last.logged [.surplusRollbackFailed e])

/-- With no transaction open, the call to begin goes out first. Everything
else is decided after its answer. -/
theorem openTransaction_of_idle {scope : Scope π} (hidle : scope.session.slot = none) :
    (openTransaction : Action π Stake).run scope = .wait scope .begin opened := by
  simp [openTransaction, inTransaction, hidle]
  funext answer later
  -- The slot is looked at when the answer is there, and may have been filled since.
  cases answer with
  | error e => simp [opened]
  | ok handle =>
      cases hslot : later.session.slot with
      | none => simp [opened, offer, inTransaction, hslot, Scope.withSlot]
      | some other =>
          simp [opened, offer, inTransaction, hslot]
          funext answer last
          cases answer <;> simp

/-- With no transaction open, entering one is opening it. -/
theorem enterTransaction_of_idle {scope : Scope π} (hidle : scope.session.slot = none) :
    (enterTransaction : Action π Stake).run scope = .wait scope .begin opened := by
  rw [← openTransaction_of_idle hidle]
  simp [enterTransaction, inTransaction, hidle]

/-- What a call for a transaction does once it has entered one, or could
not. -/
def entered (body : Action π α) : Except Error Stake → Scope π → Flow π (Except Error α)
  | .error e, scope => .done (.error e) scope
  | .ok stake, scope =>
      (body.run scope).andThen fun result scope => (leaveTransaction stake result).run scope

/-- The whole course of a transaction that starts with none open: begin,
what `opened` decides, and then the body and the end of it. -/
theorem runInTransaction_of_idle {scope : Scope π} (hidle : scope.session.slot = none)
    (body : Action π α) :
    (runInTransaction body).run scope
      = .wait scope .begin fun answer later => (opened answer later).andThen (entered body) := by
  simp [runInTransaction, enterTransaction_of_idle hidle]
  funext answer later
  congr
  funext result scope
  cases result with
  | error e => rfl
  | ok stake => rfl

/-- How a transaction ends whose body came to a result. -/
def endingOf : Except Error α → Ending
  | .ok _ => .commit
  | .error _ => .rollback

/-- What becomes of the result of a transaction's body when the
transaction was ended: an error of the body stays, and a value is lost
if the commit fails. -/
def resultOf : Except Error α → Except Error Unit → Except Error α
  | .error e, _ => .error e
  | .ok _, .error e => .error e
  | .ok value, .ok () => .ok value

/-- A transaction that gives a value has it from its body, and was
committed. -/
theorem of_resultOf_eq_ok {result : Except Error α} {ended : Except Error Unit} {value : α}
    (h : resultOf result ended = .ok value) : result = .ok value ∧ ended = .ok () := by
  cases result with
  | error e => cases h
  | ok value' =>
      cases ended with
      | error e => cases h
      | ok => exact ⟨h, rfl⟩

/-- An owner whose transaction is gone has nothing to end. -/
theorem leaveTransaction_of_idle {scope : Scope π} (hidle : scope.session.slot = none)
    (result : Except Error α) :
    (leaveTransaction .owner result : Action π α).run scope
      = .done result (scope.withSlot none) := by
  cases result with
  | ok value =>
      simp [leaveTransaction, commitTransaction, endTransaction, takeHandle, hidle]
      rfl
  | error e =>
      simp [leaveTransaction, rollbackTransaction, endTransaction, takeHandle, hidle]
      rfl

/-- The owner of a transaction takes it out of the slot and ends it. -/
theorem leaveTransaction_of_open {scope : Scope π} {handle : Handle}
    (hslot : scope.session.slot = some handle) (result : Except Error α) :
    (leaveTransaction .owner result : Action π α).run scope
      = .wait (scope.withSlot none) (.finish handle (endingOf result)) fun answer later =>
          .done (resultOf result answer) (match answer, result with
            | .ok (), _ => later
            | .error e, .ok _ => later.logged [.commitFailed e]
            | .error e, .error _ => later.logged [.rollbackFailed e]) := by
  cases result with
  | ok value =>
      simp [leaveTransaction, commitTransaction, endTransaction, takeHandle, hslot, endingOf]
      refine ⟨rfl, ?_⟩
      funext answer later
      cases answer <;> simp [resultOf]
  | error e =>
      simp [leaveTransaction, rollbackTransaction, endTransaction, takeHandle, hslot, endingOf]
      refine ⟨rfl, ?_⟩
      funext answer later
      cases answer <;> simp [resultOf]

end Session

end SqlSession
