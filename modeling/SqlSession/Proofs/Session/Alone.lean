import SqlSession.Connector.World

/-!
# `SqlSession.Proofs.Session.Alone`: a task without company

A task that has the session to itself finds it as it left it whenever a
call is answered; only the clock has moved. What it does then depends on
the answers alone. An `Environment` gives them: any function of a state
of its own, of the time and of the call, so that it may fail, succeed
or let a statement run into its deadline as it likes. `Flow.alone` runs
a course against an environment and keeps a list of all calls with
their answers. A course has an end whatever the answers are, so this is
a function.

`World.run_eq_alone` says that running a task in a world is this, with
the scripted connector as the environment.
-/

set_option autoImplicit false

namespace SqlSession

variable {π α β σ : Type}

/-- A call with its answer. -/
structure Exchange where
  call : Call
  answer : call.Answer

/-- What answers the calls of a task. `reply` is asked at the instant of
the call, and also says when the answer comes. -/
structure Environment (σ : Type) where
  reply : σ → Instant → (call : Call) → (call.Answer × Instant) × σ

/-- An environment that answers everything at once and well: a query by rows
that its values decide on, and any other statement by one row changed. -/
def Environment.willing (rows : List Value → List Row) : Environment Unit where
  reply s now call :=
    match call with
    | .begin => ((.ok ⟨0⟩, now), s)
    | .finish .. => ((.ok (), now), s)
    | .query _ _ params _ => ((some (.ok (rows params)), now), s)
    | .exec .. => ((some (.ok ⟨1, none⟩), now), s)
    | .sleep _ => (((), now), s)

/-- What came of a task that ran alone. -/
structure Solo (π α σ : Type) where
  value : α
  scope : Scope π
  /-- All calls with their answers, in order. -/
  trace : List Exchange
  /-- The environment afterwards. -/
  rest : σ

/-- Follows a course to its end. -/
def Flow.alone (env : Environment σ) : Flow π α → σ → Solo π α σ
  | .done value scope, s => ⟨value, scope, [], s⟩
  | .wait scope call resume, s =>
      let ((answer, t), s) := env.reply s scope.now call
      let run := (resume answer { scope with now := scope.now.later t }).alone env s
      { run with trace := ⟨call, answer⟩ :: run.trace }

/-- What one course leads to, the next goes on from. -/
theorem Flow.alone_andThen (env : Environment σ) (flow : Flow π α)
    (next : α → Scope π → Flow π β) (s : σ) :
    (flow.andThen next).alone env s =
      let first := flow.alone env s
      let last := (next first.value first.scope).alone env first.rest
      { last with trace := first.trace ++ last.trace } := by
  induction flow generalizing s with
  | done value scope => rfl
  | wait scope call resume ih =>
      simp only [Flow.andThen, Flow.alone, ih]
      rfl

namespace World

/-- A connector with scripted answers, as an environment. -/
def scripted : Environment Script where
  reply s now call :=
    let (delay, s) := s.issue call
    let ticket : Ticket := ⟨now.after delay, call.deadline?⟩
    let (answer, s) :=
      if ticket.ready ≤ now.later ticket.wake then s.answer call else s.giveUp call
    ((answer, ticket.wake), s)

/-- To finish a flow with a script is to run it alone, with the script as
its environment. -/
theorem finish_eq_alone (flow : Flow π α) (s : Script) :
    flow.finish s =
      let run := flow.alone scripted s
      (run.value, ⟨run.scope, run.rest⟩) := by
  induction flow generalizing s with
  | done value scope => rfl
  | wait scope call resume ih =>
      simp only [Flow.finish, Flow.alone, ih]
      rfl

/-- A task that runs in a world runs alone, with the world's connector as
its environment. -/
theorem run_eq_alone (w : World π) (program : Program π α) :
    w.run program =
      let run := (program w.scope).alone scripted w.connector
      (run.value, ⟨run.scope, run.rest⟩) :=
  finish_eq_alone (program w.scope) w.connector

end World

end SqlSession
