import SqlSession.Connector.Script
import SqlSession.Session.Program

/-!
# `SqlSession.Connector.World`: running tasks on a clock

A world is a scope with a scripted connector. The clock moves only
while every task waits, and then to the next instant at which one of
them can go on. A waiting call is answered once its time has come; one
whose deadline has passed before that is given up. At the deadline
itself the answer still counts.

`World.run` runs one task to its end. `World.race` runs several tasks
on one session at once, in their order wherever they can go on at the
same instant.
-/

set_option autoImplicit false

namespace SqlSession

variable {π α : Type}

/-- When a call is answered, and when it is given up. -/
structure Ticket where
  ready : Instant
  deadline : Option Instant

/-- The first instant at which there is something to do about a call. -/
def Ticket.wake (t : Ticket) : Instant :=
  match t.deadline with
  | some d => t.ready.earlier d
  | none => t.ready

/-- A scope with a connector. -/
structure World (π : Type) where
  scope : Scope π
  connector : Script

/-- A task that is done, or waits for a call. -/
inductive Task (π α : Type) : Type where
  | done (value : α)
  | waiting (call : Call) (ticket : Ticket) (resume : call.Answer → Scope π → Flow π α)

namespace World

/-- The session of a configuration, at the start of the clock. -/
def ofConfig (config : Config) : World π where
  scope := { now := .start, session := .ofConfig config, records := .empty, events := [] }
  connector := {}

/-- Moves the clock on to an instant, never back. -/
def advance (w : World π) (t : Instant) : World π :=
  { w with scope := { w.scope with now := w.scope.now.later t } }

/-- Issues a call. -/
def issue (w : World π) (c : Call) : Ticket × World π :=
  let (delay, connector) := w.connector.issue c
  (⟨w.scope.now.after delay, c.deadline?⟩, { w with connector })

/-- Answers a call whose time has come, and gives it up otherwise. -/
def settle (w : World π) (c : Call) (t : Ticket) : c.Answer × World π :=
  let (answer, connector) :=
    if t.ready ≤ w.scope.now then w.connector.answer c else w.connector.giveUp c
  (answer, { w with connector })

end World

namespace Flow

/-- Follows a course until it is done or a call makes it wait. -/
def start : Flow π α → Script → World π × Task π α
  | .done value scope, connector => (⟨scope, connector⟩, .done value)
  | .wait scope c resume, connector =>
      let (ticket, w) := World.issue ⟨scope, connector⟩ c
      if ticket.wake ≤ w.scope.now then
        let (answer, w) := w.settle c ticket
        (resume answer w.scope).start w.connector
      else (w, .waiting c ticket resume)

/-- Follows a course to its end. -/
def finish : Flow π α → Script → α × World π
  | .done value scope, connector => (value, ⟨scope, connector⟩)
  | .wait scope c resume, connector =>
      let (ticket, w) := World.issue ⟨scope, connector⟩ c
      let (answer, w) := (w.advance ticket.wake).settle c ticket
      (resume answer w.scope).finish w.connector

end Flow

namespace Task

/-- Goes on with a task if its time has come. -/
def poll (w : World π) : Task π α → World π × Task π α
  | .done value => (w, .done value)
  | .waiting c ticket resume =>
      if ticket.wake ≤ w.scope.now then
        let (answer, w) := w.settle c ticket
        (resume answer w.scope).start w.connector
      else (w, .waiting c ticket resume)

/-- The instant at which a task can go on. -/
def wake? : Task π α → Option Instant
  | .done _ => none
  | .waiting _ ticket _ => some ticket.wake

/-- The result of a task that is done. -/
def value? : Task π α → Option α
  | .done value => some value
  | .waiting .. => none

end Task

namespace World

/-- Runs a task to its end. -/
def run (w : World π) (program : Program π α) : α × World π :=
  (program w.scope).finish w.connector

/-- Starts tasks one after another. -/
def startAll (w : World π) : List (Program π α) → World π × List (Task π α)
  | [] => (w, [])
  | program :: programs =>
      let (w, task) := (program w.scope).start w.connector
      let (w, tasks) := w.startAll programs
      (w, task :: tasks)

/-- Goes on with every task whose time has come, in order. -/
def pollAll (w : World π) : List (Task π α) → World π × List (Task π α)
  | [] => (w, [])
  | task :: tasks =>
      let (w, task) := task.poll w
      let (w, tasks) := w.pollAll tasks
      (w, task :: tasks)

/-- The next instant at which one of the tasks can go on. -/
def nextWake? (tasks : List (Task π α)) : Option Instant :=
  (tasks.filterMap Task.wake?).foldl
    (fun next t => some ((next.map t.earlier).getD t)) none

/-- Moves the clock from one instant to the next at which a task can go
on, at most `rounds` times. -/
def loop : (rounds : Nat) → World π → List (Task π α) → World π × List (Task π α)
  | 0, w, tasks => (w, tasks)
  | rounds + 1, w, tasks =>
      match nextWake? tasks with
      | none => (w, tasks)
      | some t =>
          let (w, tasks) := (w.advance t).pollAll tasks
          loop rounds w tasks

/-- Runs tasks at once, of which none waits more than `waits` times. -/
def race (w : World π) (waits : Nat) (programs : List (Program π α)) :
    World π × List (Task π α) :=
  let (w, tasks) := w.startAll programs
  loop (waits * programs.length) w tasks

end World

end SqlSession
