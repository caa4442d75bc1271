import SqlSession.Session.Scope

/-!
# `SqlSession.Session.Program`: tasks that wait

A program runs until it is done or waits for a call. What it does up to
there happens in one piece, on the scope that it finds; when the answer
arrives it goes on with the scope as it is then, which other tasks may
have changed. A `Flow` is one such course: its end, or the first call
with the rest that follows the answer.
-/

set_option autoImplicit false

namespace SqlSession

variable {π α β : Type}

/-- The course of a program from a given scope on. -/
inductive Flow (π α : Type) : Type where
  | done (value : α) (scope : Scope π)
  | wait (scope : Scope π) (call : Call) (resume : call.Answer → Scope π → Flow π α)

/-- Goes on with a program where a course ends. -/
def Flow.andThen (flow : Flow π α) (next : α → Scope π → Flow π β) : Flow π β :=
  match flow with
  | .done value scope => next value scope
  | .wait scope call resume => .wait scope call fun answer scope =>
      (resume answer scope).andThen next

namespace Flow

/-- Going on by ending changes nothing. -/
theorem andThen_done (flow : Flow π α) : flow.andThen .done = flow := by
  induction flow with
  | done value scope => rfl
  | wait scope call resume ih =>
      simp only [andThen]
      congr
      funext answer scope
      exact ih answer scope

/-- How three flows are grouped makes no difference. -/
theorem andThen_assoc {γ : Type} (flow : Flow π α) (next : α → Scope π → Flow π β)
    (last : β → Scope π → Flow π γ) :
    (flow.andThen next).andThen last =
      flow.andThen fun value scope => (next value scope).andThen last := by
  induction flow with
  | done value scope => rfl
  | wait scope call resume ih =>
      simp only [andThen]
      congr
      funext answer scope
      exact ih answer scope

end Flow

/-- A task, as the course it takes from each scope. -/
def Program (π α : Type) : Type := Scope π → Flow π α

namespace Program

instance : Monad (Program π) where
  pure value scope := .done value scope
  bind program next scope := (program scope).andThen next

/-- Where a program is cut into parts makes no difference to its course. -/
instance : LawfulMonad (Program π) := LawfulMonad.mk' _
  (fun program => funext fun scope => (program scope).andThen_done)
  (fun _ _ => rfl)
  (fun program next last => funext fun scope => (program scope).andThen_assoc next last)

/-- Reads and changes the scope in one piece. -/
def atomically (act : Scope π → α × Scope π) : Program π α := fun scope =>
  let (value, scope) := act scope
  .done value scope

/-- Reads something off the scope. -/
def read (view : Scope π → α) : Program π α := atomically fun scope => (view scope, scope)

/-- Changes the session. -/
def modifySession (change : Session → Session) : Program π Unit :=
  atomically fun scope => ((), { scope with session := change scope.session })

/-- Logs an event. -/
def emit (event : Event) : Program π Unit :=
  atomically fun scope => ((), { scope with events := scope.events ++ [event] })

/-- Waits for the answer to a call. -/
def call (c : Call) : Program π c.Answer := fun scope =>
  .wait scope c fun answer scope => .done answer scope

end Program

/-- A task that may fail. -/
abbrev Action (π α : Type) : Type := ExceptT Error (Program π) α

end SqlSession
