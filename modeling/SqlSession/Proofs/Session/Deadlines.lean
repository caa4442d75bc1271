import Mathlib.Data.Nat.Find
import Mathlib.Logic.Relation
import SqlSession.Proofs.Session.Statements

/-!
# `SqlSession.Proofs.Session.Deadlines`: statements under a deadline

Callers run statements on a session and set, change and clear its
deadline while statements are on their way. A `Timeline` is the world of
such a session with all statements so far, in the order in which they
were issued. Its steps are those of tasks on a clock: a statement is
issued, a deadline is set or cleared, a statement goes on, and the clock
moves, though never past an instant at which a statement can go on.
Whatever else happens in between, in other tasks and at the connector,
keeps the clock, the deadline and the statements that were logged
(`Timeline.Step.other`).

* `Timeline.Exact.reach`: on every timeline the statements that are done
  ended when they were due, and none of the others is overdue.
* `Timeline.Exact.exists_done`: the clock leads to the end of every
  statement.

`Timeline.deadlines_bound` spells out what this means with a deadline and
without.
-/

set_option autoImplicit false

namespace SqlSession

variable {π : Type}

/-! ### Timelines -/

/-- A statement with its task. -/
structure Tracked (π : Type) extends Sent π where
  task : Task π Reply
  /-- When the task went on last, and the connector as it was then. -/
  polledAt : Instant
  polled : Script

/-- Goes on with a statement that is not done. -/
def Tracked.poll (s : Tracked π) (w : World π) : World π × Tracked π :=
  match s.task with
  | .done _ => (w, s)
  | .waiting .. =>
      ((s.task.poll w).1,
        { s with task := (s.task.poll w).2, polledAt := w.scope.now, polled := w.connector })

/-- A call about the deadline of a session. -/
inductive DeadlineCall where
  | setDeadline (deadline : Instant)
  | setTimeout (span : Duration)
  | clearDeadline

namespace DeadlineCall

/-- The call as a program. -/
def program : DeadlineCall → Program π Unit
  | .setDeadline deadline => Session.setDeadline deadline
  | .setTimeout span => Session.setTimeout span
  | .clearDeadline => Session.clearDeadline

/-- The deadline that a call leaves, made at an instant. -/
def deadline? (now : Instant) : DeadlineCall → Option Instant
  | .setDeadline deadline => some deadline
  | .setTimeout span => some (now.after span)
  | .clearDeadline => none

/-- What a deadline call does is to set the deadline, by the clock as it
is then. -/
theorem program_eq (c : DeadlineCall) (scope : Scope π) :
    c.program scope
      = .done ()
          { scope with session := { scope.session with deadline := c.deadline? scope.now } } := by
  cases c <;> rfl

end DeadlineCall

/-- A world and the statements that were issued in it, oldest first. -/
structure Timeline (π : Type) where
  world : World π
  statements : List (Tracked π) := []

namespace Timeline

/-- The instant at which a timeline has arrived. -/
def now (m : Timeline π) : Instant := m.world.scope.now

/-- Runs a statement up to where it waits or is done. -/
def issue (m : Timeline π) (r : Request) : Timeline π :=
  let run := (r.program m.world.scope).start m.world.connector
  { world := run.1
    statements := m.statements ++ [{ m.world.sent r with
      task := run.2, polledAt := m.now, polled := (m.world.taking r).connector }] }

/-- Sets or clears the deadline. -/
def callDeadline (m : Timeline π) (c : DeadlineCall) : Timeline π :=
  { m with world := ((c.program m.world.scope).start m.world.connector).1 }

/-- What can happen next. The clock stops where a statement can go on. -/
inductive Step : Timeline π → Timeline π → Prop
  | issue (m : Timeline π) (r : Request) : Step m (m.issue r)
  | callDeadline (m : Timeline π) (c : DeadlineCall) : Step m (m.callDeadline c)
  | poll {m : Timeline π} (before : List (Tracked π)) {s : Tracked π} {after : List (Tracked π)} :
      m.statements = before ++ s :: after →
      Step m { world := (s.poll m.world).1, statements := before ++ (s.poll m.world).2 :: after }
  | tick {m : Timeline π} (t : Instant) :
      (∀ s ∈ m.statements, ∀ wake ∈ s.task.wake?, t ≤ wake) →
      Step m { m with world := m.world.advance t }
  | other {m : Timeline π} (w : World π) :
      w.scope.now = m.now → w.scope.session.deadline = m.world.scope.session.deadline →
      w.connector.log = m.world.connector.log →
      Step m { m with world := w }

/-- The timelines of a world. -/
def Reachable (start : World π) (m : Timeline π) : Prop :=
  Relation.ReflTransGen Step { world := start } m

end Timeline

/-! ### The invariant -/

namespace Tracked

/-- A statement is done and ended when it was due, or waits and is not
overdue. -/
inductive OnTime (s : Tracked π) (now : Instant) : Prop
  | waiting : s.task = s.waiting → s.issued.now ≤ now → now ≤ s.due → OnTime s now
  | done : s.task = .done (s.reply s.due s.polled) → s.polledAt = s.due → OnTime s now

/-- A statement is done by an instant and ended at a given one with a
given reply, or it is not yet due. -/
def Ends (s : Tracked π) (now due : Instant) (reply : Reply) : Prop :=
  match s.task.value? with
  | some value => value = reply ∧ s.polledAt = due
  | none => now ≤ due

variable {s : Tracked π} {now : Instant} {w : World π}

/-- A statement that is done has ended. -/
theorem Ends.of_done {due : Instant} {reply : Reply} (h : s.Ends now due reply)
    (hdone : s.task.value?.isSome) : s.task.value? = some reply ∧ s.polledAt = due := by
  obtain ⟨value, hvalue⟩ := Option.isSome_iff_exists.mp hdone
  rw [Ends, hvalue] at h
  exact ⟨hvalue.trans (congrArg some h.1), h.2⟩

/-- A statement that is on time ends when it is due, with the answer it is
due to get. -/
theorem OnTime.ends (h : s.OnTime now) : s.Ends now s.due (s.reply s.due s.polled) := by
  cases h with
  | waiting htask _ hdue =>
      rw [Ends, htask]
      exact hdue
  | done htask hpolled =>
      rw [Ends, htask]
      exact ⟨rfl, hpolled⟩

/-- A statement that waits is not overdue. -/
theorem OnTime.le_due (h : s.OnTime now) (htask : s.task = s.waiting) : now ≤ s.due := by
  cases h with
  | waiting _ _ hdue => exact hdue
  | done hdone _ => exact absurd (htask.symm.trans hdone) nofun

/-- What is not done waits. -/
theorem OnTime.waiting_of_isNone (h : s.OnTime now) (hnone : s.task.value?.isNone) :
    s.task = s.waiting := by
  cases h with
  | waiting htask _ _ => exact htask
  | done htask _ =>
      rw [htask] at hnone
      exact nomatch hnone

/-- What can go on at some instant is not done. -/
theorem OnTime.waiting_of_wake? (h : s.OnTime now) {wake : Instant}
    (hwake : wake ∈ s.task.wake?) : s.task = s.waiting ∧ wake = s.ticket.wake := by
  cases h with
  | waiting htask _ _ =>
      rw [htask] at hwake
      exact ⟨htask, (Option.some.inj hwake).symm⟩
  | done htask _ =>
      rw [htask] at hwake
      exact nomatch hwake

/-- To poll a statement that is done changes nothing. -/
theorem poll_of_done {reply : Reply} (h : s.task = .done reply) : s.poll w = (w, s) := by
  rw [poll, h]

/-- To poll one that waits is to poll its task, and to note when that was. -/
theorem poll_of_waiting (h : s.task = s.waiting) :
    s.poll w = ((s.waiting.poll w).1,
      { s with task := (s.waiting.poll w).2, polledAt := w.scope.now, polled := w.connector }) := by
  rw [poll, h]
  rfl

/-- To go on with a statement changes nothing but the events of a scope,
and makes no further call. -/
theorem OnTime.poll_world (h : s.OnTime w.scope.now) :
    (s.poll w).1.connector.log = w.connector.log ∧
      ∃ events, (s.poll w).1.scope = w.scope.logged events := by
  have hsame : ∃ events, w.scope = w.scope.logged events :=
    ⟨[], congrArg (fun events => { w.scope with events }) (List.append_nil _).symm⟩
  cases h with
  | waiting htask _ _ =>
      rw [poll_of_waiting htask]
      -- It can go on and logs what it comes to, or it is too early and nothing happens.
      by_cases hwake : s.ticket.wake ≤ w.scope.now
      · obtain ⟨events, connector, hlog, hpoll⟩ := s.poll_done hwake
        rw [hpoll]
        exact ⟨hlog, events, rfl⟩
      · rw [s.poll_early hwake]
        exact ⟨rfl, hsame⟩
  | done htask _ =>
      rw [poll_of_done htask]
      exact ⟨rfl, hsame⟩

/-- What was sent stays what it was. -/
theorem OnTime.poll_sent (h : s.OnTime w.scope.now) : (s.poll w).2.toSent = s.toSent := by
  cases h with
  | waiting htask _ _ => rw [poll_of_waiting htask]
  | done htask _ => rw [poll_of_done htask]

/-- A statement that can go on is done when it does. -/
theorem OnTime.poll_done (h : s.OnTime w.scope.now) (hwake : s.ticket.wake ≤ w.scope.now) :
    (s.poll w).2.task.value?.isSome := by
  cases h with
  | waiting htask _ _ =>
      obtain ⟨events, connector, -, hpoll⟩ := s.toSent.poll_done hwake
      rw [poll_of_waiting htask, hpoll]
      rfl
  | done htask _ =>
      rw [poll_of_done htask, htask]
      rfl

/-- A statement that is polled is on time afterwards. -/
theorem OnTime.poll (h : s.OnTime w.scope.now) : (s.poll w).2.OnTime w.scope.now := by
  cases h with
  | waiting htask hissued hnow =>
      rw [poll_of_waiting htask]
      by_cases hwake : s.ticket.wake ≤ w.scope.now
      · -- The clock has not gone past the instant at which the statement is due.
        have hdue : s.due = w.scope.now :=
          Instant.le_antisymm (Instant.later_le hissued hwake) hnow
        obtain ⟨events, connector, -, hpoll⟩ := s.toSent.poll_done hwake
        rw [hpoll]
        refine .done ?_ hdue.symm
        exact congrArg (fun t => Task.done (s.reply t w.connector)) hdue.symm
      · rw [s.poll_early hwake]
        exact .waiting rfl hissued hnow
  | done htask hpolled =>
      rw [poll_of_done htask]
      exact .done htask hpolled

end Tracked

namespace Timeline

variable {start : World π} {m m' : Timeline π}

/-- Every statement was logged once by the connector, for the transaction
that was open when it was issued, and is on time. -/
structure Exact (start : World π) (m : Timeline π) : Prop where
  log : m.world.connector.log
    = start.connector.log ++ m.statements.map fun s => s.request.entry s.issued
  onTime : ∀ s ∈ m.statements, s.OnTime m.now

/-- A statement whose call was made. -/
def first (m : Timeline π) (r : Request) : Tracked π :=
  { m.world.sent r with
    task := (m.world.sent r).waiting, polledAt := m.now
    polled := (m.world.taking r).connector }

/-- A statement that was just issued is on time. -/
theorem onTime_first (m : Timeline π) (r : Request) : (m.first r).OnTime m.now :=
  .waiting rfl (Instant.le_refl _) (Instant.le_later _ _)

/-- A statement goes on at once when its call was made. -/
theorem issue_eq (m : Timeline π) (r : Request) :
    m.issue r
      = { world := ((m.first r).poll (m.world.taking r)).1
          statements := m.statements ++ [((m.first r).poll (m.world.taking r)).2] } := by
  rw [Tracked.poll_of_waiting rfl, issue, Sent.start_eq_poll m.world r]
  rfl

namespace Exact

/-- A timeline without statements is exact. -/
theorem refl (start : World π) : Exact start { world := start } :=
  ⟨(List.append_nil _).symm, fun _ h => nomatch h⟩

/-- What keeps the log, and does not take the clock past an instant at
which a statement is due, keeps a timeline exact. -/
theorem inWorld (h : m.Exact start) {w : World π}
    (hlog : w.connector.log = m.world.connector.log) (hnow : m.now ≤ w.scope.now)
    (hdue : ∀ s ∈ m.statements, s.task = s.waiting → w.scope.now ≤ s.due) :
    Exact start { m with world := w } := by
  refine ⟨hlog.trans h.log, fun s hs => ?_⟩
  cases h.onTime s hs with
  | waiting htask hissued _ =>
      exact .waiting htask (Instant.le_trans hissued hnow) (hdue s hs htask)
  | done htask hpolled => exact .done htask hpolled

/-- Whatever keeps the clock and the statements in the log keeps a
timeline exact. -/
theorem at_now (h : m.Exact start) {w : World π}
    (hlog : w.connector.log = m.world.connector.log) (hnow : w.scope.now = m.now) :
    Exact start { m with world := w } := by
  refine h.inWorld hlog (hnow ▸ Instant.le_refl _) fun s hs htask => ?_
  rw [hnow]
  exact (h.onTime s hs).le_due htask

/-- To poll one of the statements keeps a timeline exact. -/
theorem poll (h : m.Exact start) {before after : List (Tracked π)} {s : Tracked π}
    (hs : m.statements = before ++ s :: after) :
    Exact start { world := (s.poll m.world).1
                  statements := before ++ (s.poll m.world).2 :: after } := by
  have hmem : s ∈ m.statements := hs ▸ List.mem_append_right _ List.mem_cons_self
  have honTime : s.OnTime m.world.scope.now := h.onTime s hmem
  obtain ⟨hlog, events, hscope⟩ := honTime.poll_world
  have hnow : (s.poll m.world).1.scope.now = m.now := by
    rw [hscope]
    rfl
  -- The others are as they were, and the clock has not moved.
  refine ⟨?_, fun t ht => ?_⟩
  · rw [hlog, h.log, hs, List.map_append, List.map_append, List.map_cons, List.map_cons,
      honTime.poll_sent]
  · rw [now, hnow]
    rcases List.mem_append.mp ht with hbefore | hrest
    · exact h.onTime t (hs ▸ List.mem_append_left _ hbefore)
    · rcases List.mem_cons.mp hrest with rfl | hafter
      · exact honTime.poll
      · exact h.onTime t (hs ▸ List.mem_append_right _ (List.mem_cons_of_mem _ hafter))

/-- To issue a statement keeps a timeline exact. -/
theorem issue (h : m.Exact start) (r : Request) : (m.issue r).Exact start := by
  -- The call was made: the statement is among the others, and goes on.
  have hmade : Exact start
      { world := m.world.taking r, statements := m.statements ++ [m.first r] } := by
    refine ⟨?_, fun s hs => ?_⟩
    · rw [List.map_append, ← List.append_assoc, ← h.log]
      exact r.log_issue m.world.scope m.world.connector
    · rcases List.mem_append.mp hs with hold | hnew
      · exact h.onTime s hold
      · rw [List.mem_singleton.mp hnew]
        exact m.onTime_first r
  rw [m.issue_eq r]
  exact hmade.poll rfl

/-- Every step keeps a timeline exact. -/
theorem step (h : m.Exact start) (hstep : Step m m') : m'.Exact start := by
  cases hstep with
  | issue r => exact h.issue r
  | callDeadline c => exact h.at_now (by rw [c.program_eq]; rfl) (by rw [c.program_eq]; rfl)
  | poll before hs => exact h.poll hs
  | tick t hwake =>
      refine h.inWorld rfl (Instant.le_later _ _) fun s hs htask => ?_
      have ht : t ≤ s.ticket.wake := hwake s hs _ (htask ▸ rfl)
      exact Instant.later_le ((h.onTime s hs).le_due htask)
        (Instant.le_trans ht (Instant.le_later_right _ _))
  | other w hnow _ hlog => exact h.at_now hlog hnow

/-- Any number of steps do. -/
theorem steps (h : m.Exact start) (hsteps : Relation.ReflTransGen Step m m') :
    m'.Exact start := by
  induction hsteps with
  | refl => exact h
  | tail _ hstep ih => exact ih.step hstep

/-- On every timeline of a world the statements are on time. -/
theorem reach (h : Reachable start m) : m.Exact start := (Exact.refl start).steps h

end Exact

/-! ### Every statement ends -/

/-- The number of statements that are not done. -/
def pending (m : Timeline π) : Nat := m.statements.countP fun s => s.task.value?.isNone

/-- Among statements that are not done there is one that can go on first. -/
theorem Exact.exists_first (h : m.Exact start) (hpending : m.pending ≠ 0) :
    ∃ s ∈ m.statements, s.task = s.waiting ∧
      ∀ other ∈ m.statements, ∀ wake ∈ other.task.wake?, s.ticket.wake ≤ wake := by
  classical
  have hsome : ∃ n, ∃ s ∈ m.statements, ∃ wake ∈ s.task.wake?, wake.nanos = n := by
    obtain ⟨s, hs, hnone⟩ := List.countP_pos_iff.mp (Nat.pos_of_ne_zero hpending)
    have htask := (h.onTime s hs).waiting_of_isNone hnone
    exact ⟨_, s, hs, s.ticket.wake, htask ▸ rfl, rfl⟩
  -- The first instant is the one with the least number.
  obtain ⟨s, hs, wake, hwake, hn⟩ := Nat.find_spec hsome
  obtain ⟨htask, rfl⟩ := (h.onTime s hs).waiting_of_wake? hwake
  refine ⟨s, hs, htask, fun other hother later hlater => ?_⟩
  rw [Instant.le_def, hn]
  exact Nat.find_min' hsome ⟨other, hother, later, hlater, rfl⟩

/-- The clock moves on to the next instant at which a statement can go
on, and that statement is done. -/
theorem Exact.advance (h : m.Exact start) (hpending : m.pending ≠ 0) :
    ∃ m', Relation.ReflTransGen Step m m' ∧
      m'.statements.map Tracked.toSent = m.statements.map Tracked.toSent ∧
      m'.pending + 1 = m.pending := by
  obtain ⟨s, hs, htask, hfirst⟩ := h.exists_first hpending
  obtain ⟨before, after, hsplit⟩ := List.append_of_mem hs
  let arrived : Timeline π := { m with world := m.world.advance s.ticket.wake }
  have htick : Step m arrived := .tick s.ticket.wake hfirst
  have hpoll : Step arrived _ := .poll before hsplit
  have honTime : s.OnTime arrived.now := (h.step htick).onTime s hs
  have hdone := honTime.poll_done (Instant.le_later_right _ _)
  -- The clock moves to where the first one can go on, and then that one is polled.
  refine ⟨_, .tail (.single htick) hpoll, ?_, ?_⟩
  · rw [hsplit, List.map_append, List.map_append, List.map_cons, List.map_cons, honTime.poll_sent]
  · have hnone : s.task.value?.isNone = true := by
      rw [htask]
      rfl
    have hnot : (s.poll arrived.world).2.task.value?.isNone = false := by
      rw [← Option.not_isSome, hdone]
      rfl
    rw [pending, pending, hsplit, List.countP_append, List.countP_append, List.countP_cons,
      List.countP_cons, hnone, hnot]
    rfl

/-- From every timeline the clock leads to one in which all its statements
are done. -/
theorem Exact.exists_done (h : m.Exact start) :
    ∃ m', Relation.ReflTransGen Step m m' ∧
      m'.statements.map Tracked.toSent = m.statements.map Tracked.toSent ∧
      ∀ s ∈ m'.statements, s.task.value?.isSome := by
  -- By the number of statements that still wait.
  induction hn : m.pending generalizing m with
  | zero =>
      refine ⟨m, .refl, rfl, fun s hs => ?_⟩
      have hnone := List.countP_eq_zero.mp hn s hs
      rwa [Option.isNone_iff_eq_none, ← ne_eq, Option.ne_none_iff_isSome] at hnone
  | succ n ih =>
      obtain ⟨m', hsteps, hsent, hless⟩ := h.advance (by omega)
      obtain ⟨last, hlast, hsame, hdone⟩ := ih (h.steps hsteps) (by omega)
      exact ⟨last, hsteps.trans hlast, hsame.trans hsent, hdone⟩

/-! ### The bound -/

/-- On every timeline of a world each statement was issued once, to the
transaction that was open when it was issued. If it has a deadline and
takes no time, or is ready by the deadline, it ends when it is ready,
with the connector's own reply; if it has none, it does so in any case.
Otherwise it ends at its deadline, or when it is issued if the deadline
has passed by then, and fails with the time that was left to it. What is
not done is not overdue, and the clock leads to the end of all
statements. To issue a statement and to go on with it leaves all of the
scope but the log as it is; a call about the deadline changes the
deadline alone. -/
theorem deadlines_bound (h : Reachable start m) :
    m.world.connector.log
      = start.connector.log ++ (m.statements.map fun s => s.request.entry s.issued) ∧
    (∀ s ∈ m.statements,
      let t := s.issued.now
      let own := s.request.ownReply s.polled
      match s.issued.session.deadline with
      | none => s.Ends m.now (t.after s.delay) own
      | some deadline =>
          if s.delay = .zero ∨ t.after s.delay ≤ deadline then
            s.Ends m.now (t.after s.delay) own
          else s.Ends m.now (t.later deadline) (.error (.timeout (deadline.remaining t)))) ∧
    (∃ m', Relation.ReflTransGen Step m m' ∧
      m'.statements.map Tracked.toSent = m.statements.map Tracked.toSent ∧
      ∀ s ∈ m'.statements, s.task.value?.isSome) ∧
    (∀ r : Request, ∃ s events,
      (m.issue r).statements = m.statements ++ [s] ∧
      s.toSent = ⟨r, m.world.scope, (m.world.connector.issue (r.call m.world.scope)).1⟩ ∧
      (m.issue r).world.scope = m.world.scope.logged events) ∧
    (∀ s ∈ m.statements, ∃ events,
      (s.poll m.world).2.toSent = s.toSent ∧
      (s.poll m.world).1.scope = m.world.scope.logged events) ∧
    (∀ c : DeadlineCall, (m.callDeadline c).statements = m.statements ∧
      (m.callDeadline c).world.scope
        = { m.world.scope with
            session := { m.world.scope.session with deadline := c.deadline? m.now } }) := by
  have hexact := Exact.reach h
  refine ⟨hexact.log, fun s hs => ?_, hexact.exists_done, fun r => ?_, fun s hs => ?_, fun c => ?_⟩
  · -- Where the statement was due is known from its deadline and its delay.
    have hends := (hexact.onTime s hs).ends
    match hdeadline : s.issued.session.deadline with
    | none =>
        obtain ⟨hdue, hreply⟩ := Sent.ends_of_no_deadline hdeadline s.polled
        rw [hreply, hdue] at hends
        exact hends
    | some deadline =>
        by_cases hin : s.delay = .zero ∨ s.ready ≤ deadline
        · obtain ⟨hdue, hreply⟩ := Sent.ends_in_time hdeadline hin s.polled
          rw [hreply, hdue] at hends
          exact (if_pos hin).mpr hends
        · obtain ⟨hdelay, hlate⟩ := not_or.mp hin
          obtain ⟨hdue, hreply⟩ := Sent.ends_at_deadline hdeadline hdelay hlate s.polled
          rw [hreply, hdue] at hends
          exact (if_neg hin).mpr hends
  · have hfirst : (m.first r).OnTime (m.world.taking r).scope.now := m.onTime_first r
    obtain ⟨-, events, hscope⟩ := hfirst.poll_world
    rw [m.issue_eq r]
    exact ⟨_, events, rfl, hfirst.poll_sent, hscope⟩
  · obtain ⟨-, events, hscope⟩ := (hexact.onTime s hs).poll_world
    exact ⟨events, (hexact.onTime s hs).poll_sent, hscope⟩
  · refine ⟨rfl, ?_⟩
    rw [callDeadline, c.program_eq]
    rfl

/-- Inside a transaction a session is given ten nanoseconds, for a query
that takes exactly these and for a change that takes one more. The
deadline is cleared while both are on their way, and that is too late
for them. -/
theorem deadlines_bound_of_two :
    let start : World Unit := {
      scope := { now := ⟨5⟩, session := { Session.ofConfig {} with slot := some ⟨0⟩ }
                 records := .empty, events := [] }
      connector := { queryDelay := ⟨10⟩, execDelay := ⟨11⟩ } }
    ∃ (m : Timeline Unit) (q e : Tracked Unit), Reachable start m ∧ m.statements = [q, e] ∧
      q.task.value? = some (.ok (.inl [])) ∧ q.polledAt = ⟨15⟩ ∧
      e.task.value? = some (.error (.timeout ⟨10⟩)) ∧ e.polledAt = ⟨15⟩ ∧
      m.world.scope.session.deadline = none ∧
      m.world.connector.log = [⟨.query, "q", [], some ⟨0⟩⟩, ⟨.exec, "e", [], some ⟨0⟩⟩] := by
  intro start
  let sent := (({ world := start } : Timeline Unit).callDeadline (.setTimeout ⟨10⟩)).issue
    (.query "q" []) |>.issue (.exec "e" []) |>.callDeadline .clearDeadline
  have hsent : Reachable start sent :=
    .tail (.tail (.tail (.single (.callDeadline _ _)) (.issue _ _)) (.issue _ _))
      (.callDeadline _ _)
  have hwakes : ∀ s ∈ sent.statements, ∀ wake ∈ s.task.wake?, (⟨15⟩ : Instant) ≤ wake := by
    decide +kernel
  have harrived := hsent.tail (.tick ⟨15⟩ hwakes)
  have hqueried := harrived.tail (.poll [] rfl)
  have hdone := hqueried.tail (.poll [_] rfl)
  -- What the bound asks about the two statements, and that they are done.
  obtain ⟨m, q, e, hm, hboth, hqcall, hqtime, hqdone, hecall, hetime, hedone, hcleared⟩ :
      ∃ (m : Timeline Unit) (q e : Tracked Unit), Reachable start m ∧ m.statements = [q, e] ∧
        (q.request = .query "q" [] ∧ q.polled.rowSets = [] ∧ q.issued.session.slot = some ⟨0⟩) ∧
        (q.issued.now = ⟨5⟩ ∧ q.delay = ⟨10⟩ ∧ q.issued.session.deadline = some ⟨15⟩) ∧
        q.task.value?.isSome ∧
        (e.request = .exec "e" [] ∧ e.issued.session.slot = some ⟨0⟩) ∧
        (e.issued.now = ⟨5⟩ ∧ e.delay = ⟨11⟩ ∧ e.issued.session.deadline = some ⟨15⟩) ∧
        e.task.value?.isSome ∧ m.world.scope.session.deadline = none := by
    refine ⟨_, _, _, hdone, rfl, ⟨rfl, ?_, ?_⟩, ⟨?_, ?_, ?_⟩, ?_, ⟨rfl, ?_⟩, ⟨?_, ?_, ?_⟩, ?_, ?_⟩
    · exact List.isEmpty_iff.mp (by decide +kernel)
    all_goals decide +kernel
  obtain ⟨hlog, hends, -⟩ := deadlines_bound hm
  have hq := hends q (by rw [hboth]; exact List.mem_cons_self)
  have he := hends e (by rw [hboth]; exact List.mem_cons_of_mem _ List.mem_cons_self)
  simp only [hqcall, hqtime] at hq
  simp only [hecall, hetime] at he
  rw [if_pos (by decide)] at hq
  rw [if_neg (by decide)] at he
  rw [hboth] at hlog
  simp only [List.map_cons, List.map_nil, hqcall, hecall, Request.entry] at hlog
  obtain ⟨hqvalue, hqend⟩ := hq.of_done hqdone
  obtain ⟨hevalue, heend⟩ := he.of_done hedone
  refine ⟨m, q, e, hm, hboth, ?_, hqend, hevalue, heend, hcleared, hlog⟩
  rw [hqvalue, Request.ownReply, hqcall.2.1]
  rfl

end Timeline

end SqlSession
