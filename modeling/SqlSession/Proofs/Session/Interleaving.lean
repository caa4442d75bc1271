import SqlSession.Session.Transaction

/-!
# `SqlSession.Proofs.Session.Interleaving`: tasks on one session

Any number of tasks work on one session. A task goes on in one piece
until it waits for a call; whose call is answered next, and how, is
left open, and so is when further tasks start. `Step` is one such piece,
and `Reachable` any sequence of them from an idle session on. A schedule
on a clock with a scripted connector is one way to choose the steps.

The only promise about answers is that a connector opens a new
transaction each time: `Step.answer` asks for a handle that was not
opened before.

A `Machine` keeps its history: the transactions that were opened, the
calls that were issued, each with what was then in the session's slot,
and the results of tasks. All results are of one type; a task that
computes something else ends by turning it into that.
-/

set_option autoImplicit false

namespace SqlSession

variable {π ρ : Type}

/-- The transaction that an answer opens, if it opens one. -/
def Call.gained : (call : Call) → call.Answer → List Handle
  | .begin, .ok handle => [handle]
  | _, _ => []

/-- An entry of a history. -/
inductive Mark (ρ : Type) where
  | began (handle : Handle)
  | issued (task : Nat) (call : Call) (slot : Option Handle)
  | returned (task : Nat) (value : ρ)

/-- A task that waits for the answer to a call. -/
structure Suspended (π ρ : Type) where
  task : Nat
  call : Call
  resume : call.Answer → Scope π → Flow π ρ

/-- A session and the tasks on it. -/
structure Machine (π ρ : Type) where
  scope : Scope π
  suspended : List (Suspended π ρ) := []
  /-- The number of tasks so far. -/
  started : Nat := 0
  /-- What happened so far, newest first. -/
  history : List (Mark ρ) := []

namespace Machine

/-- What is in the session's slot. -/
def slot (m : Machine π ρ) : Option Handle := m.scope.session.slot

/-- A task goes on until it waits for a call or is done. -/
def proceed (m : Machine π ρ) (task : Nat) : Flow π ρ → Machine π ρ
  | .done value scope => { m with scope, history := .returned task value :: m.history }
  | .wait scope call resume =>
      { m with
          scope
          suspended := ⟨task, call, resume⟩ :: m.suspended
          history := .issued task call scope.session.slot :: m.history }

end Machine

/-! ### Readings of a history -/

/-- The transaction whose opening an entry tells of. -/
def Mark.begun? : Mark ρ → Option Handle
  | .began handle => some handle
  | _ => none

/-- The transaction that an entry asks to end, and how. -/
def Mark.ended? : Mark ρ → Option (Handle × Ending)
  | .issued _ (.finish handle ending) _ => some (handle, ending)
  | _ => none

/-- All transactions that were opened. -/
def begun (history : List (Mark ρ)) : List Handle := history.filterMap Mark.begun?

/-- All calls that end a transaction. -/
def ended (history : List (Mark ρ)) : List (Handle × Ending) := history.filterMap Mark.ended?

/-- The transactions that such a call was made for. -/
def finished (history : List (Mark ρ)) : List Handle := (ended history).map Prod.fst

/-- How many calls end a transaction in a given way. -/
def endings (ending : Ending) (history : List (Mark ρ)) : Nat :=
  ((ended history).map Prod.snd).count ending

/-- Transactions that begin are those that were begun, with the newest in
front. -/
theorem begun_map_began (handles : List Handle) (history : List (Mark ρ)) :
    begun (handles.map Mark.began ++ history) = handles ++ begun history := by
  induction handles with
  | nil => rfl
  | cons handle rest ih => exact congrArg (handle :: ·) ih

/-- That transactions begin finishes none. -/
theorem finished_map_began (handles : List Handle) (history : List (Mark ρ)) :
    finished (handles.map Mark.began ++ history) = finished history := by
  induction handles with
  | nil => rfl
  | cons handle rest ih => exact ih

/-- Every ending is a commit or a rollback. -/
theorem length_finished (history : List (Mark ρ)) :
    (finished history).length = endings .commit history + endings .rollback history := by
  unfold finished endings
  induction ended history with
  | nil => rfl
  | cons e rest ih =>
      obtain ⟨handle, ending⟩ := e
      rw [List.map_cons, List.map_cons, List.length_cons, ih]
      cases ending with
      | commit =>
          have hother : Ending.commit ≠ Ending.rollback := by decide
          rw [List.count_cons_self, List.count_cons_of_ne hother]
          omega
      | rollback =>
          have hother : Ending.rollback ≠ Ending.commit := by decide
          rw [List.count_cons_self, List.count_cons_of_ne hother]
          omega

/-! ### Steps -/

/-- One step of tasks that run allowed programs: a task starts, a call is
answered and its task goes on, or the clock does. -/
inductive Step (Allowed : Program π ρ → Prop) : Machine π ρ → Machine π ρ → Prop
  | start {m : Machine π ρ} {program : Program π ρ} : Allowed program →
      Step Allowed m
        ({ m with started := m.started + 1 }.proceed m.started (program m.scope))
  | answer {m : Machine π ρ} {before after : List (Suspended π ρ)} {s : Suspended π ρ}
      (answer : s.call.Answer) : m.suspended = before ++ s :: after →
      (∀ handle ∈ s.call.gained answer, handle ∉ begun m.history) →
      Step Allowed m
        ({ m with
            suspended := before ++ after
            history := (s.call.gained answer).map Mark.began ++ m.history }.proceed
          s.task (s.resume answer m.scope))
  | tick {m : Machine π ρ} (t : Instant) :
      Step Allowed m { m with scope := { m.scope with now := m.scope.now.later t } }

/-- What tasks can come to on a session that starts without a
transaction. -/
inductive Reachable (Allowed : Program π ρ → Prop) : Machine π ρ → Prop
  | idle {scope : Scope π} : scope.session.slot = none → Reachable Allowed { scope }
  | step {m m' : Machine π ρ} : Reachable Allowed m → Step Allowed m m' → Reachable Allowed m'

end SqlSession
