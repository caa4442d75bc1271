import SqlSession.Connector.World
import SqlSession.Proofs.Session.Courses

/-!
# `SqlSession.Proofs.Session.Statements`: one statement on the clock

A statement is known by what was asked for, by the scope in which it was
issued and by the time that the connector takes for it (`Sent`). These
say when it ends (`Sent.due`) and with what (`Sent.reply`).

* `Sent.start_eq_poll`, `Sent.poll_early`, `Sent.poll_done`: a statement
  waits from when it is issued until it can go on, and is then done in
  one step, which logs events and leaves the rest of the scope alone.
* `Sent.ends_of_no_deadline`, `Sent.ends_in_time`,
  `Sent.ends_at_deadline`: the three ways to end.
-/

set_option autoImplicit false

namespace SqlSession

variable {π : Type}

/-! ### Instants -/

namespace Instant

/-- Instants are compared by their nanoseconds. -/
theorem le_def {a b : Instant} : a ≤ b ↔ a.nanos ≤ b.nanos := Iff.rfl

/-- An instant is not after itself. -/
theorem le_refl (a : Instant) : a ≤ a := Nat.le_refl a.nanos

/-- What is not after an earlier one is not after a later one. -/
theorem le_trans {a b c : Instant} (hab : a ≤ b) (hbc : b ≤ c) : a ≤ c := Nat.le_trans hab hbc

/-- Of two instants one is not after the other. -/
theorem le_of_not_le {a b : Instant} (h : ¬ a ≤ b) : b ≤ a := Nat.le_of_not_le h

/-- The later of two instants in their order. -/
theorem later_of_le {a b : Instant} (h : a ≤ b) : a.later b = b :=
  congrArg Instant.mk (Nat.max_eq_right h)

/-- The later of two instants in the other order. -/
theorem later_of_ge {a b : Instant} (h : b ≤ a) : a.later b = a :=
  congrArg Instant.mk (Nat.max_eq_left h)

/-- The later of two instants is not before the first one. -/
theorem le_later (a b : Instant) : a ≤ a.later b := Nat.le_max_left a.nanos b.nanos

/-- Nor is it before the second one. -/
theorem le_later_right (a b : Instant) : b ≤ a.later b := Nat.le_max_right a.nanos b.nanos

/-- The later of two instants comes no later than what both precede. -/
theorem later_le {a b c : Instant} (ha : a ≤ c) (hb : b ≤ c) : a.later b ≤ c :=
  Nat.max_le.mpr ⟨ha, hb⟩

/-- Instants of which neither is after the other are one. -/
theorem le_antisymm {a b : Instant} (hab : a ≤ b) (hba : b ≤ a) : a = b :=
  congrArg Instant.mk (Nat.le_antisymm hab hba)

/-- An instant comes no later than the later of two if it does so for one
of them. -/
theorem le_later_iff {a b c : Instant} : a ≤ b.later c ↔ a ≤ b ∨ a ≤ c := by
  simp only [le_def, later]
  omega

/-- The earlier of two instants is not after the first one. -/
theorem earlier_le (a b : Instant) : a.earlier b ≤ a := Nat.min_le_left a.nanos b.nanos

/-- The earlier of two instants in their order. -/
theorem earlier_of_le {a b : Instant} (h : a ≤ b) : a.earlier b = a :=
  congrArg Instant.mk (Nat.min_eq_left h)

/-- The earlier of two instants in the other order. -/
theorem earlier_of_ge {a b : Instant} (h : b ≤ a) : a.earlier b = b :=
  congrArg Instant.mk (Nat.min_eq_right h)

/-- A span of time leads no earlier. -/
theorem le_after (t : Instant) (d : Duration) : t ≤ t.after d := Nat.le_add_right t.nanos d.nanos

/-- No time leads nowhere. -/
theorem after_zero (t : Instant) : t.after .zero = t := rfl

/-- A span that is not over at once ends later. -/
theorem not_after_le {t : Instant} {d : Duration} (h : d ≠ .zero) : ¬ t.after d ≤ t := by
  intro hle
  have hsum : t.nanos + d.nanos ≤ t.nanos := hle
  have hzero : d.nanos = 0 := by omega
  exact h (congrArg Duration.mk hzero)

end Instant

/-! ### Statements -/

/-- What a statement comes to: rows, or the report of a change. -/
abbrev Reply : Type := Except Error (List Row ⊕ ExecResult)

/-- A statement that a caller runs. -/
inductive Request where
  | query (sql : String) (params : List Value)
  | exec (sql : String) (params : List Value)

namespace Request

/-- The program that runs a statement. -/
def program : Request → Program π Reply
  | .query sql params => Except.map .inl <$> (Session.query sql params).run
  | .exec sql params => Except.map .inr <$> (Session.exec sql params).run

/-- The call that a statement makes in a scope. -/
def call (issued : Scope π) : Request → Call
  | .query sql params => .query issued.session.slot sql params issued.session.deadline
  | .exec sql params => .exec issued.session.slot sql params issued.session.deadline

/-- What the connector logs of a statement. -/
def entry (issued : Scope π) : Request → IssuedStatement
  | .query sql params => ⟨.query, sql, params, issued.session.slot⟩
  | .exec sql params => ⟨.exec, sql, params, issued.session.slot⟩

/-- What the connector itself has to say to a statement. -/
def ownReply (connector : Script) : Request → Reply
  | .query _ _ => ((connector.rowSets.head?.getD (.ok [])).mapError .driver).map .inl
  | .exec _ _ =>
      ((connector.results.head?.getD (.ok Script.defaultResult)).mapError .driver).map .inr

/-- How a statement goes on when its call is settled. -/
def resume (issued : Scope π) : (r : Request) → (r.call issued).Answer → Scope π → Flow π Reply
  | .query sql params, answer, later =>
      let result : Except Error (List Row) := Session.outcome issued answer
      .done (result.map .inl)
        (later.logged (Session.observed .query sql params issued result later.now))
  | .exec sql params, answer, later =>
      let result : Except Error ExecResult := Session.outcome issued answer
      .done (result.map .inr)
        (later.logged (Session.observed .exec sql params issued result later.now))

/-- A statement is issued at once, and then waits. -/
theorem program_eq (r : Request) (scope : Scope π) :
    r.program scope = .wait scope (r.call scope) (r.resume scope) := by
  cases r with
  | query sql params =>
      rw [program, Program.map_apply, Session.query_eq]
      rfl
  | exec sql params =>
      rw [program, Program.map_apply, Session.exec_eq]
      rfl

/-- A statement is issued with the deadline that the session has then. -/
theorem deadline?_call (r : Request) (issued : Scope π) :
    (r.call issued).deadline? = issued.session.deadline := by
  cases r <;> rfl

/-- The connector logs a statement once, when it is issued. -/
theorem log_issue (r : Request) (issued : Scope π) (connector : Script) :
    (connector.issue (r.call issued)).2.log = connector.log ++ [r.entry issued] := by
  cases r <;> rfl

/-- A statement that is answered has the connector's own reply. -/
theorem resume_answer (r : Request) (issued later : Scope π) (connector : Script) :
    ∃ events, r.resume issued (connector.answer (r.call issued)).1 later
      = .done (r.ownReply connector) (later.logged events) := by
  cases r <;> exact ⟨_, rfl⟩

/-- A statement that is given up fails with the time that was left to it
when it was issued. -/
theorem resume_giveUp (r : Request) {issued : Scope π} {deadline : Instant}
    (hdeadline : issued.session.deadline = some deadline) (later : Scope π) (connector : Script) :
    ∃ events, r.resume issued (connector.giveUp (r.call issued)).1 later
      = .done (.error (.timeout (deadline.remaining issued.now))) (later.logged events) := by
  have houtcome (α : Type) : Session.outcome issued (none : Option (Except Error α))
      = .error (.timeout (deadline.remaining issued.now)) := by
    rw [Session.outcome, hdeadline]
    rfl
  -- Reads and writes fail with one error, and differ in what they log.
  cases r with
  | query sql params =>
      simp only [resume, call, Script.giveUp, houtcome]
      exact ⟨_, rfl⟩
  | exec sql params =>
      simp only [resume, call, Script.giveUp, houtcome]
      exact ⟨_, rfl⟩

/-- A call that is settled is not logged again. -/
theorem log_answer (r : Request) (issued : Scope π) (connector : Script) :
    (connector.answer (r.call issued)).2.log = connector.log := by
  cases r <;> rfl

/-- To give a statement up issues nothing. -/
theorem log_giveUp (r : Request) (issued : Scope π) (connector : Script) :
    (connector.giveUp (r.call issued)).2.log = connector.log := by
  cases r <;> rfl

end Request

/-- A statement that was issued in a scope and takes the connector some
time. -/
structure Sent (π : Type) where
  request : Request
  issued : Scope π
  delay : Duration

namespace Sent

/-- When the connector has its answer. -/
def ready (s : Sent π) : Instant := s.issued.now.after s.delay

/-- The connector answers no earlier than it was asked. -/
theorem issued_le_ready (s : Sent π) : s.issued.now ≤ s.ready := Instant.le_after _ _

/-- When a statement can go on, and when it is to be given up. -/
def ticket (s : Sent π) : Ticket := ⟨s.ready, s.issued.session.deadline⟩

/-- The task of a statement while it waits. -/
def waiting (s : Sent π) : Task π Reply :=
  .waiting (s.request.call s.issued) s.ticket (s.request.resume s.issued)

/-- When a statement ends. -/
def due (s : Sent π) : Instant := s.issued.now.later s.ticket.wake

/-- What a statement comes to that goes on at an instant: the connector's
own reply, if it has one by then, and else a timeout. -/
def reply (s : Sent π) (now : Instant) (connector : Script) : Reply :=
  if s.ready ≤ now then s.request.ownReply connector
  else match s.issued.session.deadline with
    | some deadline => .error (.timeout (deadline.remaining s.issued.now))
    | none => s.request.ownReply connector

end Sent

namespace World

/-- A statement as it is issued in a world. -/
def sent (w : World π) (r : Request) : Sent π :=
  ⟨r, w.scope, (w.connector.issue (r.call w.scope)).1⟩

/-- A world whose connector has taken in a statement. -/
def taking (w : World π) (r : Request) : World π :=
  { w with connector := (w.connector.issue (r.call w.scope)).2 }

/-- Issuing a statement makes its ticket, and notes it in the log of the
connector. -/
theorem issue_call (w : World π) (r : Request) :
    World.issue ⟨w.scope, w.connector⟩ (r.call w.scope) = ((w.sent r).ticket, w.taking r) := by
  rw [World.issue, r.deadline?_call]
  rfl

end World

namespace Sent

/-- A task that goes on before it can is left as it is. -/
theorem poll_early (s : Sent π) {w : World π} (h : ¬ s.ticket.wake ≤ w.scope.now) :
    s.waiting.poll w = (w, s.waiting) := by
  rw [waiting, Task.poll, if_neg h]

/-- A call that is settled when it can be comes to the reply of that
instant, and changes nothing but the connector. -/
theorem settle_done (s : Sent π) {w : World π} (h : s.ticket.wake ≤ w.scope.now) :
    ∃ answer connector events, connector.log = w.connector.log ∧
      w.settle (s.request.call s.issued) s.ticket = (answer, { w with connector }) ∧
      s.request.resume s.issued answer w.scope
        = .done (s.reply w.scope.now w.connector) (w.scope.logged events) := by
  unfold World.settle reply
  by_cases hready : s.ready ≤ w.scope.now
  · obtain ⟨events, hresume⟩ := s.request.resume_answer s.issued w.scope w.connector
    refine ⟨(w.connector.answer (s.request.call s.issued)).1, _, events,
      s.request.log_answer s.issued w.connector, ?_, ?_⟩
    · rw [if_pos (show s.ticket.ready ≤ w.scope.now from hready)]
    · rw [if_pos hready, hresume]
  · match hdeadline : s.issued.session.deadline with
    | none =>
        -- Without a deadline the task cannot go on before the answer is ready.
        rw [Ticket.wake, show s.ticket.deadline = none from hdeadline] at h
        exact absurd h hready
    | some deadline =>
        obtain ⟨events, hresume⟩ := s.request.resume_giveUp hdeadline w.scope w.connector
        refine ⟨(w.connector.giveUp (s.request.call s.issued)).1, _, events,
          s.request.log_giveUp s.issued w.connector, ?_, ?_⟩
        · rw [if_neg (show ¬ s.ticket.ready ≤ w.scope.now from hready)]
        · rw [if_neg hready, hresume]

/-- A task that goes on when it can is done. It logs events and changes
nothing else of the scope. -/
theorem poll_done (s : Sent π) {w : World π} (h : s.ticket.wake ≤ w.scope.now) :
    ∃ events connector, connector.log = w.connector.log ∧
      s.waiting.poll w
        = (⟨w.scope.logged events, connector⟩, .done (s.reply w.scope.now w.connector)) := by
  obtain ⟨answer, connector, events, hlog, hsettled, hresume⟩ := s.settle_done h
  refine ⟨events, connector, hlog, ?_⟩
  rw [waiting, Task.poll, if_pos h, hsettled]
  simp only [hresume, Flow.start]

/-- To start a statement is to issue its call and go on with it at once. -/
theorem start_eq_poll (w : World π) (r : Request) :
    (r.program w.scope).start w.connector = (w.sent r).waiting.poll (w.taking r) := by
  rw [r.program_eq, Flow.start, w.issue_call r]
  rfl

/-- To run a statement to its end is to issue its call and go on with it
when it can. -/
theorem run_eq_poll (w : World π) (r : Request) :
    (w.sent r).waiting.poll ((w.taking r).advance (w.sent r).ticket.wake)
      = ((w.run r.program).2, .done (w.run r.program).1) := by
  let arrived := (w.taking r).advance (w.sent r).ticket.wake
  have hwake : (w.sent r).ticket.wake ≤ arrived.scope.now := Instant.le_later_right _ _
  obtain ⟨answer, connector, events, -, hsettled, hresume⟩ := (w.sent r).settle_done hwake
  -- The flow behind the answer is done, and it makes no difference how it is followed.
  have hpoll : (w.sent r).waiting.poll arrived
      = (r.resume w.scope answer arrived.scope).start connector := by
    rw [waiting, Task.poll, if_pos hwake, hsettled]
    rfl
  have hrun : w.run r.program = (r.resume w.scope answer arrived.scope).finish connector := by
    rw [World.run, r.program_eq, Flow.finish, w.issue_call r]
    show (match arrived.settle (r.call w.scope) (w.sent r).ticket with
      | (answer, later) => (r.resume w.scope answer later.scope).finish later.connector) = _
    rw [show arrived.settle (r.call w.scope) (w.sent r).ticket = _ from hsettled]
  rw [hpoll, hrun, show r.resume w.scope answer arrived.scope = _ from hresume]
  rfl

/-! ### When a statement ends, and with what -/

/-- Without a deadline the connector's reply is waited for. -/
theorem ends_of_no_deadline {s : Sent π} (h : s.issued.session.deadline = none)
    (connector : Script) :
    s.due = s.ready ∧ s.reply s.due connector = s.request.ownReply connector := by
  have hwake : s.ticket.wake = s.ready := by
    rw [Ticket.wake, show s.ticket.deadline = none from h]
    rfl
  have hdue : s.due = s.ready := by
    rw [due, hwake, Instant.later_of_le s.issued_le_ready]
  refine ⟨hdue, ?_⟩
  rw [reply, hdue, if_pos (Instant.le_refl _)]

section Deadline

variable {s : Sent π} {deadline : Instant} (hdeadline : s.issued.session.deadline = some deadline)

include hdeadline

/-- With a deadline, a statement is looked at again when it has its answer
or when the deadline is over, whichever comes first. -/
theorem wake_eq : s.ticket.wake = s.ready.earlier deadline := by
  rw [Ticket.wake, show s.ticket.deadline = some deadline from hdeadline]
  rfl

/-- A reply that is there at once, or by the deadline, is in time. -/
theorem ends_in_time (h : s.delay = .zero ∨ s.ready ≤ deadline) (connector : Script) :
    s.due = s.ready ∧ s.reply s.due connector = s.request.ownReply connector := by
  have hdue : s.due = s.ready := by
    rw [due, wake_eq hdeadline]
    rcases h with hzero | hready
    · -- The statement goes on when it is issued, wherever the deadline is.
      have hready : s.ready = s.issued.now := by
        rw [ready, hzero, Instant.after_zero]
      rw [hready]
      exact Instant.later_of_ge (Instant.earlier_le _ _)
    · rw [Instant.earlier_of_le hready, Instant.later_of_le s.issued_le_ready]
  refine ⟨hdue, ?_⟩
  rw [reply, hdue, if_pos (Instant.le_refl _)]

/-- A reply that is not there by the deadline is not waited for. -/
theorem ends_at_deadline (hdelay : s.delay ≠ .zero) (h : ¬ s.ready ≤ deadline)
    (connector : Script) :
    s.due = s.issued.now.later deadline ∧
      s.reply s.due connector = .error (.timeout (deadline.remaining s.issued.now)) := by
  have hdue : s.due = s.issued.now.later deadline := by
    rw [due, wake_eq hdeadline, Instant.earlier_of_ge (Instant.le_of_not_le h)]
  have hlate : ¬ s.ready ≤ s.due := by
    rw [hdue, Instant.le_later_iff, not_or]
    exact ⟨Instant.not_after_le hdelay, h⟩
  -- At that time the connector is not ready, so the statement is given up.
  refine ⟨hdue, ?_⟩
  rw [reply, if_neg hlate, hdeadline]

end Deadline

end Sent

end SqlSession
