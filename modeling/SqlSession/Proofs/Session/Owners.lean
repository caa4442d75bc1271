import Mathlib.Data.List.Nodup
import SqlSession.Proofs.Session.Handles
import SqlSession.Proofs.Session.Nesting

/-!
# `SqlSession.Proofs.Session.Owners`: who owns a transaction

Any number of calls for a transaction run on one session, each around
statements of its own (`AtomicCall`). The one whose begin is answered
while the slot is empty owns the transaction that it opened. Every other
one is a guest: it finds a transaction in the slot when it starts, or
when its own begin is answered too late.

An owner is atomic, whatever the others do: `Reachable.owner_atomic`.
Nobody else takes its transaction out of the slot, so that its
statements find it there until it takes it out itself.

A guest is not: `Reachable.guest_not_atomic` is a run in which one
returns a value although its first statement was rolled back and its
second one ran outside of any transaction. Nothing makes the owner wait
for its guests, and nothing tells a guest that the transaction is gone.

`Machine.Owned` is the invariant. Every waiting task has its `Stage`,
which says what it left in the history so far and how it goes on.
-/

set_option autoImplicit false

namespace SqlSession

variable {π α β : Type}

/-- What a call can do in a transaction if it does nothing but to run
statements. -/
inductive Statements : {α : Type} → Program π α → Prop
  | pure {α : Type} (value : α) : Statements (Pure.pure value)
  | bind {α β : Type} {program : Program π α} {next : α → Program π β} :
      Statements program → (∀ value, Statements (next value)) → Statements (program >>= next)
  | sleep (span : Duration) : Statements (Program.call (.sleep span))
  | query (sql : String) (params : List Value) : Statements (Session.query sql params).run
  | exec (sql : String) (params : List Value) : Statements (Session.exec sql params).run

/-- A call for a transaction around statements. -/
def AtomicCall (program : Program π (Except Error α)) : Prop :=
  ∃ body : Action π α, Statements body.run ∧ program = (Session.runInTransaction body).run

/-- Statements ask for no transaction of their own, and so nest in any. -/
theorem Statements.nested {program : Program π α} (h : Statements program) : Nested program := by
  induction h with
  | pure value => exact .pure value
  | bind _ _ ih ihnext => exact ih.bind ihnext
  | sleep span => exact .sleep span
  | query sql params => exact .query sql params
  | exec sql params => exact .exec sql params

/-- All that statements do goes through the session. -/
theorem Statements.onSession {program : Program π α} (h : Statements program) :
    OnSession program := by
  induction h with
  | pure value => exact .pure value
  | bind _ _ ih ihnext => exact ih.bind ihnext
  | sleep span => exact .sleep span
  | query sql params => exact .query sql params
  | exec sql params => exact .exec sql params

/-- A call for a transaction has ended what it began by the time it
returns. -/
theorem AtomicCall.settled {program : Program π (Except Error α)} (h : AtomicCall program) :
    program.Settled := by
  obtain ⟨body, hbody, rfl⟩ := h
  exact Session.settled_runInTransaction hbody.onSession.settled

/-! ### Courses by their part in a transaction -/

/-- A course that takes part in what is there: it leaves the slot as it
finds it, and its statements go to what is in the slot. -/
def Flow.Joins : Option Handle → Flow π α → Prop
  | slot, .done _ scope => scope.session.slot = slot
  | slot, .wait scope call resume =>
      scope.session.slot = slot ∧ call.On slot ∧
      ∀ (answer : call.Answer) (scope : Scope π), (resume answer scope).Joins scope.session.slot

/-- What takes part goes on taking part, wherever its first half leaves
the slot. -/
theorem Flow.Joins.andThen {flow : Flow π α} {next : α → Scope π → Flow π β}
    {slot : Option Handle} (h : flow.Joins slot)
    (hnext : ∀ value (scope : Scope π), (next value scope).Joins scope.session.slot) :
    (flow.andThen next).Joins slot := by
  induction flow generalizing slot with
  | done value scope =>
      have hslot : scope.session.slot = slot := h
      exact hslot ▸ hnext value scope
  | wait scope call resume ih =>
      obtain ⟨hslot, hon, hresume⟩ := h
      exact ⟨hslot, hon, fun answer scope => ih answer scope (hresume answer scope)⟩

/-- Statements take part in whatever is in the slot. -/
theorem Statements.joins {program : Program π α} (h : Statements program) (scope : Scope π) :
    (program scope).Joins scope.session.slot := by
  induction h generalizing scope with
  | pure value => rfl
  | bind _ _ ih ihnext => exact (ih scope).andThen ihnext
  | sleep span => exact ⟨rfl, trivial, fun _ _ => rfl⟩
  | query sql params =>
      rw [Session.query_eq]
      exact ⟨rfl, rfl, fun _ _ => rfl⟩
  | exec sql params =>
      rw [Session.exec_eq]
      exact ⟨rfl, rfl, fun _ _ => rfl⟩

/-- A course that ends with a value only if the transaction was asked to
commit. -/
def Flow.Returns (ending : Ending) : Option Handle → Flow π (Except Error α) → Prop
  | slot, .done result scope =>
      scope.session.slot = slot ∧ ∀ value, result = .ok value → ending = .commit
  | _, .wait .. => False

/-- A course of the task that owns a transaction: it issues statements on
it as long as it finds it in the slot, and ends it. -/
def Flow.Owns (handle : Handle) : Flow π (Except Error α) → Prop
  -- The owner is not done before it has ended its transaction.
  | .done .. => False
  | .wait scope call resume =>
      (scope.session.slot = some handle ∧ call.On (some handle) ∧
        ∀ (answer : call.Answer) (scope : Scope π), scope.session.slot = some handle →
          (resume answer scope).Owns handle) ∨
      (scope.session.slot = none ∧ ∃ ending, call = .finish handle ending ∧
        ∀ (answer : call.Answer) (scope : Scope π),
          (resume answer scope).Returns ending scope.session.slot)

/-- What keeps to a transaction is its owner's course up to the end. -/
theorem Flow.Within.owns {handle : Handle} {flow : Flow π (Except Error α)}
    (h : flow.Within handle) :
    (flow.andThen fun result scope =>
      (Session.leaveTransaction .owner result).run scope).Owns handle := by
  induction flow with
  | done result scope =>
      -- The transaction is still in the slot, so its owner takes it out and ends it.
      rw [Flow.done_andThen, Session.leaveTransaction_of_open h]
      refine .inr ⟨rfl, _, rfl, fun answer later => ⟨?_, fun value hvalue => ?_⟩⟩
      · cases answer <;> cases result <;> rfl
      · cases result with
        | ok _ => rfl
        | error e => exact absurd hvalue (by simp [Session.resultOf])
  | wait scope call resume ih =>
      obtain ⟨hslot, hon, hresume⟩ := h
      exact .inl ⟨hslot, hon, fun answer scope hslot => ih answer scope (hresume answer scope hslot)⟩

/-- A course that has its own transaction rolled back because another one
is open, and takes part in what is there then. -/
def Flow.Yields : Option Handle → Flow π α → Prop
  | _, .done .. => False
  | slot, .wait scope call resume =>
      scope.session.slot = slot ∧ slot ≠ none ∧ (∃ handle, call = .finish handle .rollback) ∧
      ∀ (answer : call.Answer) (scope : Scope π), (resume answer scope).Joins scope.session.slot

/-- How a task goes on whose call to begin was answered, by what the
answer brought and what it finds in the slot. -/
def Flow.Enters : List Handle → Option Handle → Flow π (Except Error α) → Prop
  -- Nothing was begun: the error is the result, and what is in the slot stays there.
  | [], slot, flow => flow.Joins slot
  | handle :: _, none, flow => flow.Owns handle
  | _ :: _, slot, flow => flow.Yields slot

/-- The course of a call for a transaction on an idle session. -/
def Flow.Opens : Flow π (Except Error α) → Prop
  | .done .. => False
  | .wait scope call resume =>
      scope.session.slot = none ∧ call = .begin ∧
      ∀ (answer : call.Answer) (scope : Scope π),
        (resume answer scope).Enters (call.gained answer) scope.session.slot

/-- On an idle session a call for a transaction begins one. -/
theorem Statements.opens {body : Action π α} (h : Statements body.run) {scope : Scope π}
    (hidle : scope.session.slot = none) : ((Session.runInTransaction body).run scope).Opens := by
  rw [Session.runInTransaction_of_idle hidle]
  refine ⟨hidle, rfl, ?_⟩
  intro answer later
  cases answer with
  | error e => exact rfl
  | ok handle =>
      show Flow.Enters [handle] _ _
      cases hslot : later.session.slot with
      | none =>
          -- The first to arrive puts its transaction into the slot.
          simp only [Session.opened, hslot, Flow.done_andThen, Session.entered]
          exact Flow.Within.owns (h.nested.within _ rfl)
      | some other =>
          -- Whoever comes later goes on in the transaction that is there.
          simp only [Session.opened, hslot, Flow.wait_andThen, Flow.done_andThen, Session.entered]
          refine ⟨hslot, Option.some_ne_none other, ⟨handle, rfl⟩, ?_⟩
          intro answer last
          refine Flow.Joins.andThen ?_ fun _ _ => rfl
          cases answer with
          | ok => exact h.joins last
          | error e => exact h.joins (last.logged [.surplusRollbackFailed e])

/-! ### What a task left in the history -/

/-- The task that an entry is about. -/
def Mark.task? {ρ : Type} : Mark ρ → Option Nat
  | .began _ => none
  | .issued task _ _ => some task
  | .returned task _ => some task

/-- What the owner of a transaction leaves in the history before it ends
the transaction. -/
def Mark.OfOwner {ρ : Type} (handle : Handle) : Mark ρ → Prop
  | .issued _ call slot => call = .begin ∨ (slot = some handle ∧ call.On (some handle))
  | _ => False

/-- All entries about a task are as said. -/
def Only {ρ : Type} (P : Mark ρ → Prop) (task : Nat) (history : List (Mark ρ)) : Prop :=
  ∀ mark ∈ history, mark.task? = some task → P mark

/-- An entry that tells of taking a transaction out of the slot to end
it. -/
def Mark.Ends {ρ : Type} (handle : Handle) (ending : Ending) (mark : Mark ρ) : Prop :=
  ∃ task, mark = .issued task (.finish handle ending) none

/-- An entry that tells of no such thing. -/
def Mark.EndsNone {ρ : Type} (mark : Mark ρ) : Prop :=
  ∀ handle ending, ¬ mark.Ends handle ending

/-- An entry about the owner of a transaction that is ended in a given
way. -/
def Mark.OfEnded (handle : Handle) (ending : Ending) : Mark (Except Error α) → Prop
  | .returned _ result => ∀ value, result = .ok value → ending = .commit
  | mark => mark.OfOwner handle ∨ mark.Ends handle ending

/-- A task that ended a transaction out of the slot ended no other one,
ran all of its statements on that one, and returned a value only if it
asked for a commit. -/
def Atomic (task : Nat) (history : List (Mark (Except Error α))) : Prop :=
  ∀ handle ending, .issued task (.finish handle ending) none ∈ history →
    Only (Mark.OfEnded handle ending) task history

section Only

variable {ρ : Type} {P Q : Mark ρ → Prop} {task : Nat} {history : List (Mark ρ)}

/-- What is said of all entries about a task may be weakened. -/
theorem Only.imp (h : Only P task history) (hpq : ∀ mark, P mark → Q mark) :
    Only Q task history := fun mark hmem htask => hpq mark (h mark hmem htask)

/-- One more entry has to be checked only if it is about the task. -/
theorem Only.cons (h : Only P task history) (mark : Mark ρ)
    (hmark : mark.task? = some task → P mark) : Only P task (mark :: history) := by
  intro other hmem htask
  rcases List.mem_cons.mp hmem with rfl | hmem
  · exact hmark htask
  · exact h other hmem htask

/-- That transactions were begun is about no task. -/
theorem Only.map_began (h : Only P task history) (handles : List Handle) :
    Only P task (handles.map Mark.began ++ history) := by
  intro other hmem htask
  rcases List.mem_append.mp hmem with hbegan | hmem
  · obtain ⟨handle, -, rfl⟩ := List.mem_map.mp hbegan
    exact absurd htask nofun
  · exact h other hmem htask

end Only

namespace Mark

variable {ρ : Type} {handle : Handle} {task : Nat} {call : Call} {slot : Option Handle}

/-- Returning a value takes no transaction out of the slot. -/
theorem endsNone_returned (task : Nat) (value : ρ) : (Mark.returned task value).EndsNone := by
  rintro handle ending ⟨_, heq⟩
  exact nomatch heq

/-- Nor does asking for one. -/
theorem endsNone_begin (task : Nat) (slot : Option Handle) :
    (Mark.issued task .begin slot : Mark ρ).EndsNone := by
  rintro handle ending ⟨_, heq⟩
  exact nomatch heq

/-- A statement ends nothing. -/
theorem endsNone_of_on {target : Option Handle} (h : call.On target) :
    (Mark.issued task call slot : Mark ρ).EndsNone := by
  rintro handle ending ⟨_, heq⟩
  obtain ⟨-, rfl, -⟩ := Mark.issued.inj heq
  exact h

/-- What ends a transaction while one is in the slot ends another one than
that. -/
theorem endsNone_of_slot (h : slot ≠ none) : (Mark.issued task call slot : Mark ρ).EndsNone := by
  rintro handle ending ⟨_, heq⟩
  obtain ⟨-, -, hnone⟩ := Mark.issued.inj heq
  exact h hnone

/-- The owner of a transaction that is still open ended none. -/
theorem OfOwner.endsNone {mark : Mark ρ} (h : mark.OfOwner handle) : mark.EndsNone := by
  cases mark with
  | began => exact h.elim
  | returned => exact h.elim
  | issued task call slot =>
      rcases h with rfl | ⟨-, hon⟩
      · exact endsNone_begin task slot
      · exact endsNone_of_on hon

end Mark

section Atomic

variable {task : Nat} {handle : Handle} {ending : Ending} {history : List (Mark (Except Error α))}

/-- A task that ended no transaction is atomic. -/
theorem atomic_of_endsNone (h : Only Mark.EndsNone task history) : Atomic task history := by
  intro handle ending hmem
  exact absurd ⟨task, rfl⟩ (h _ hmem rfl handle ending)

/-- A task is atomic if all it did belongs to the one transaction that it
ended. -/
theorem atomic_of_ofEnded (h : Only (Mark.OfEnded handle ending) task history) :
    Atomic task history := by
  intro other ending' hmem
  -- The entry that is asked about is the one that tells of the ending.
  rcases h _ hmem rfl with howner | ⟨_, hends⟩
  · exact absurd ⟨task, rfl⟩ (howner.endsNone other ending')
  · obtain ⟨-, heq, -⟩ := Mark.issued.inj hends
    obtain ⟨rfl, rfl⟩ := Call.finish.inj heq
    exact h

end Atomic

/-! ### Every task in its part -/

/-- The part of a task that waits, by what it left in the history and by
how it goes on: it waits to begin, it takes part in what is there, it is
the `owner` of the transaction in the slot, or it waits for the ending
of the one it owned. -/
inductive Stage (history : List (Mark (Except Error α))) (owner : Option Nat)
    (slot : Option Handle) (s : Suspended π (Except Error α)) : Prop
  | opens : Only (fun mark => ∃ slot, mark = .issued s.task .begin slot) s.task history →
      (∀ (answer : s.call.Answer) (scope : Scope π),
        (s.resume answer scope).Enters (s.call.gained answer) scope.session.slot) →
      Stage history owner slot s
  | joins : Only Mark.EndsNone s.task history →
      (∀ (answer : s.call.Answer) (scope : Scope π),
        (s.resume answer scope).Joins scope.session.slot) →
      Stage history owner slot s
  | owns (handle : Handle) : owner = some s.task → slot = some handle →
      Only (Mark.OfOwner handle) s.task history →
      (∀ (answer : s.call.Answer) (scope : Scope π), scope.session.slot = some handle →
        (s.resume answer scope).Owns handle) →
      Stage history owner slot s
  | ends (handle : Handle) (ending : Ending) :
      Only (Mark.OfEnded handle ending) s.task history →
      (∀ (answer : s.call.Answer) (scope : Scope π),
        (s.resume answer scope).Returns ending scope.session.slot) →
      Stage history owner slot s

/-- What another task does changes nothing about a part, as long as the
owner keeps the slot. -/
theorem Stage.cons {history : List (Mark (Except Error α))} {mark : Mark (Except Error α)}
    {owner owner' : Option Nat} {slot slot' : Option Handle} {s : Suspended π (Except Error α)}
    (h : Stage history owner slot s) (hmark : mark.task? ≠ some s.task)
    (howner : owner = some s.task → owner' = owner ∧ slot' = slot) :
    Stage (mark :: history) owner' slot' s := by
  cases h with
  | opens honly hresume => exact .opens (honly.cons _ fun h => absurd h hmark) hresume
  | joins honly hresume => exact .joins (honly.cons _ fun h => absurd h hmark) hresume
  | owns handle hown hslot honly hresume =>
      obtain ⟨rfl, rfl⟩ := howner hown
      exact .owns handle hown hslot (honly.cons _ fun h => absurd h hmark) hresume
  | ends handle ending honly hresume =>
      exact .ends handle ending (honly.cons _ fun h => absurd h hmark) hresume

/-- Transactions that the connector began change nobody's part. -/
theorem Stage.map_began {history : List (Mark (Except Error α))} {owner : Option Nat}
    {slot : Option Handle} {s : Suspended π (Except Error α)} (h : Stage history owner slot s)
    (handles : List Handle) :
    Stage (handles.map Mark.began ++ history) owner slot s := by
  cases h with
  | opens honly hresume => exact .opens (honly.map_began handles) hresume
  | joins honly hresume => exact .joins (honly.map_began handles) hresume
  | owns handle hown hslot honly hresume =>
      exact .owns handle hown hslot (honly.map_began handles) hresume
  | ends handle ending honly hresume =>
      exact .ends handle ending (honly.map_began handles) hresume

/-- Every task is known by a number of its own, every task that is done
was atomic if it owned a transaction, and every task that waits has its
part. -/
structure Machine.Owned (owner : Option Nat) (m : Machine π (Except Error α)) : Prop where
  tasks : (m.suspended.map Suspended.task).Nodup
  below : ∀ s ∈ m.suspended, s.task < m.started
  marked : ∀ mark ∈ m.history, ∀ task, mark.task? = some task → task < m.started
  atomic : ∀ task, Atomic task m.history
  stage : ∀ s ∈ m.suspended, Stage m.history owner m.slot s

/-- The same while a task goes on, which then does not wait. -/
structure Machine.Awake (owner : Option Nat) (task : Nat) (m : Machine π (Except Error α)) : Prop
    extends m.Owned owner where
  absent : ∀ s ∈ m.suspended, s.task ≠ task
  known : task < m.started

namespace Machine

variable {owner owner' : Option Nat} {task : Nat} {m : Machine π (Except Error α)}
  {flow : Flow π (Except Error α)}

/-- The task leaves an entry in the history, and a slot that is as before
if it is another task's. -/
theorem Awake.note (h : m.Awake owner task) {mark : Mark (Except Error α)} {scope : Scope π}
    (hmark : mark.task? = some task) (hatomic : Atomic task (mark :: m.history))
    (hslot : ∀ s ∈ m.suspended, owner = some s.task →
      owner' = owner ∧ scope.session.slot = m.slot) :
    Machine.Awake owner' task { m with scope, history := mark :: m.history } where
  tasks := h.tasks
  below := h.below
  marked other hmem t ht := by
    rcases List.mem_cons.mp hmem with rfl | hmem
    · rw [hmark] at ht
      exact Option.some.inj ht ▸ h.known
    · exact h.marked other hmem t ht
  atomic t := by
    by_cases ht : t = task
    · exact ht ▸ hatomic
    · -- An entry about another task is neither an ending nor a result of this one.
      have hother : mark.task? ≠ some t := fun heq => ht (Option.some.inj (heq.symm.trans hmark))
      intro handle ending hmem
      rcases List.mem_cons.mp hmem with rfl | hmem
      · exact absurd rfl hother
      · exact (h.atomic t handle ending hmem).cons _ fun heq => absurd heq hother
  stage s hs := by
    have hother : mark.task? ≠ some s.task := by
      rw [hmark]
      exact fun heq => h.absent s hs (Option.some.inj heq).symm
    exact (h.stage s hs).cons hother (hslot s hs)
  absent := h.absent
  known := h.known

/-- The task waits. -/
theorem Awake.suspend (h : m.Awake owner task) {call : Call}
    {resume : call.Answer → Scope π → Flow π (Except Error α)}
    (hstage : Stage m.history owner m.slot ⟨task, call, resume⟩) :
    Machine.Owned owner { m with suspended := ⟨task, call, resume⟩ :: m.suspended } where
  tasks := by
    refine List.nodup_cons.mpr ⟨fun hmem => ?_, h.tasks⟩
    obtain ⟨s, hs, heq⟩ := List.mem_map.mp hmem
    exact h.absent s hs heq
  below s hs := by
    rcases List.mem_cons.mp hs with rfl | hs
    · exact h.known
    · exact h.below s hs
  marked := h.marked
  atomic := h.atomic
  stage s hs := by
    rcases List.mem_cons.mp hs with rfl | hs
    · exact hstage
    · exact h.stage s hs

/-- A task that takes part leaves everything to the owner. -/
theorem Awake.joins (h : m.Awake owner task) (hflow : flow.Joins m.slot)
    (honly : Only Mark.EndsNone task m.history) :
    (m.proceed task flow).Owned owner := by
  cases flow with
  | done result scope =>
      -- A task that took part owned nothing, so it is atomic without a condition.
      have honly' := honly.cons (.returned task result) fun _ => Mark.endsNone_returned task result
      have hatomic := atomic_of_endsNone honly'
      exact (h.note rfl hatomic fun _ _ _ => ⟨rfl, hflow⟩).toOwned
  | wait scope call resume =>
      obtain ⟨hslot, hon, hresume⟩ := hflow
      have honly' := honly.cons (.issued task call scope.session.slot)
        fun _ => Mark.endsNone_of_on hon
      have hatomic := atomic_of_endsNone honly'
      exact (h.note rfl hatomic fun _ _ _ => ⟨rfl, hslot⟩).suspend (.joins honly' hresume)

/-- So does a task whose own transaction came too late. -/
theorem Awake.yields (h : m.Awake owner task) (hflow : flow.Yields m.slot)
    (honly : Only Mark.EndsNone task m.history) :
    (m.proceed task flow).Owned owner := by
  cases flow with
  | done result scope => exact hflow.elim
  | wait scope call resume =>
      obtain ⟨hslot, hne, -, hresume⟩ := hflow
      -- The transaction that it has rolled back is not the one in the slot.
      have honly' := honly.cons (.issued task call scope.session.slot)
        fun _ => Mark.endsNone_of_slot (hslot ▸ hne)
      have hatomic := atomic_of_endsNone honly'
      exact (h.note rfl hatomic fun _ _ _ => ⟨rfl, hslot⟩).suspend (.joins honly' hresume)

/-- The owner of a transaction goes on in it, or takes it out of the slot
to end it. -/
theorem Awake.owns (h : m.Awake owner task) {handle : Handle} (hflow : flow.Owns handle)
    (honly : Only (Mark.OfOwner handle) task m.history)
    (halone : ∀ s ∈ m.suspended, owner ≠ some s.task) :
    (m.proceed task flow).Owned (some task) := by
  cases flow with
  | done result scope => exact hflow.elim
  | wait scope call resume =>
      rcases hflow with ⟨hslot, hon, hresume⟩ | ⟨hslot, ending, rfl, hresume⟩
      · -- It issues one more statement on its transaction and goes on as the owner.
        have honly' := honly.cons (.issued task call scope.session.slot)
          fun _ => .inr ⟨hslot, hon⟩
        have hatomic := atomic_of_endsNone (honly'.imp fun _ => Mark.OfOwner.endsNone)
        exact (h.note rfl hatomic fun s hs hown => absurd hown (halone s hs)).suspend
          (.owns handle rfl hslot honly' hresume)
      · -- It has taken its transaction out, and all it left so far belongs to that one.
        have honly' := (honly.imp (Q := Mark.OfEnded handle ending) fun mark hmark => by
            cases mark with
            | returned => exact hmark.elim
            | _ => exact .inl hmark).cons
          (.issued task (.finish handle ending) scope.session.slot)
          fun _ => .inr ⟨task, by rw [hslot]⟩
        exact (h.note rfl (atomic_of_ofEnded honly')
          fun s hs hown => absurd hown (halone s hs)).suspend (.ends handle ending honly' hresume)

/-- The task that ended its transaction is done. -/
theorem Awake.returns (h : m.Awake owner task) {handle : Handle} {ending : Ending}
    (hflow : flow.Returns ending m.slot)
    (honly : Only (Mark.OfEnded handle ending) task m.history) :
    (m.proceed task flow).Owned owner := by
  cases flow with
  | done result scope =>
      obtain ⟨hslot, hvalue⟩ := hflow
      have honly' := honly.cons (.returned task result) fun _ => hvalue
      exact (h.note rfl (atomic_of_ofEnded honly') fun _ _ _ => ⟨rfl, hslot⟩).toOwned
  | wait scope call resume => exact hflow.elim

/-- A task that starts on an idle session waits to begin. -/
theorem Awake.opens (h : m.Awake owner task) (hflow : flow.Opens) (hidle : m.slot = none)
    (hnew : ∀ mark ∈ m.history, mark.task? ≠ some task) :
    (m.proceed task flow).Owned owner := by
  cases flow with
  | done result scope => exact hflow.elim
  | wait scope call resume =>
      obtain ⟨hslot, rfl, hresume⟩ := hflow
      have honly : Only (fun mark => ∃ slot, mark = .issued task .begin slot) task
          (.issued task .begin scope.session.slot :: m.history) := by
        intro mark hmem htask
        rcases List.mem_cons.mp hmem with rfl | hmem
        · exact ⟨_, rfl⟩
        · exact absurd htask (hnew mark hmem)
      have hatomic : Atomic task (.issued task .begin scope.session.slot :: m.history) := by
        refine atomic_of_endsNone (honly.imp ?_)
        rintro _ ⟨slot, rfl⟩
        exact Mark.endsNone_begin task slot
      exact (h.note rfl hatomic fun _ _ _ => ⟨rfl, hslot.trans hidle.symm⟩).suspend
        (.opens honly hresume)

/-! ### Steps -/

/-- With nothing in the slot no task is the owner. -/
theorem Owned.of_idle (h : m.Owned owner) (hidle : m.slot = none) (owner' : Option Nat) :
    m.Owned owner' where
  tasks := h.tasks
  below := h.below
  marked := h.marked
  atomic := h.atomic
  stage s hs := by
    cases h.stage s hs with
    | opens honly hresume => exact .opens honly hresume
    | joins honly hresume => exact .joins honly hresume
    | owns handle _ hslot _ _ => exact absurd (hidle.symm.trans hslot) nofun
    | ends handle ending honly hresume => exact .ends handle ending honly hresume

/-- A new task gets a number that nothing is about yet. -/
theorem Owned.start (h : m.Owned owner) :
    Machine.Awake owner m.started { m with started := m.started + 1 } where
  tasks := h.tasks
  below s hs := Nat.lt_succ_of_lt (h.below s hs)
  marked mark hmem task htask := Nat.lt_succ_of_lt (h.marked mark hmem task htask)
  atomic := h.atomic
  stage := h.stage
  absent s hs := Nat.ne_of_lt (h.below s hs)
  known := Nat.lt_succ_self m.started

/-- A task whose call is answered waits no longer. -/
theorem Owned.answer (h : m.Owned owner) {before after : List (Suspended π (Except Error α))}
    {s : Suspended π (Except Error α)} (hsuspended : m.suspended = before ++ s :: after)
    (handles : List Handle) :
    Machine.Awake owner s.task
      { m with
          suspended := before ++ after
          history := handles.map Mark.began ++ m.history } := by
  have hmem : ∀ t ∈ before ++ after, t ∈ m.suspended := by
    intro t ht
    rw [hsuspended]
    exact (List.mem_append.mp ht).elim (List.mem_append_left _) fun h =>
      List.mem_append_right _ (List.mem_cons_of_mem _ h)
  have hs : s ∈ m.suspended := hsuspended ▸ List.mem_append_right _ List.mem_cons_self
  have htasks : (s.task :: (before ++ after).map Suspended.task).Nodup := by
    rw [List.map_append]
    refine List.perm_middle.nodup_iff.mp ?_
    rw [← List.map_cons, ← List.map_append, ← hsuspended]
    exact h.tasks
  -- The others have other numbers, so what they left in the history is as it was.
  obtain ⟨habsent, hnodup⟩ := List.nodup_cons.mp htasks
  exact {
    tasks := hnodup
    below := fun t ht => h.below t (hmem t ht)
    marked := fun mark hmark task htask => by
      rcases List.mem_append.mp hmark with hbegan | hmark
      · obtain ⟨handle, -, rfl⟩ := List.mem_map.mp hbegan
        exact absurd htask nofun
      · exact h.marked mark hmark task htask
    atomic := fun task handle ending hmark => by
      rcases List.mem_append.mp hmark with hbegan | hmark
      · obtain ⟨_, -, heq⟩ := List.mem_map.mp hbegan
        exact absurd heq nofun
      · exact (h.atomic task handle ending hmark).map_began handles
    stage := fun t ht => (h.stage t (hmem t ht)).map_began handles
    absent := fun t ht heq => habsent (List.mem_map.mpr ⟨t, ht, heq⟩)
    known := h.below s hs }

/-- A task whose call to begin is answered is the owner from here on if it
is the first to arrive. -/
theorem Awake.enters (h : m.Awake owner task) {handles : List Handle}
    (hflow : flow.Enters handles m.slot)
    (honly : Only (fun mark => ∃ slot, mark = .issued task .begin slot) task m.history) :
    ∃ owner', (m.proceed task flow).Owned owner' := by
  have hends : Only Mark.EndsNone task m.history := by
    refine honly.imp ?_
    rintro _ ⟨slot, rfl⟩
    exact Mark.endsNone_begin task slot
  cases handles with
  | nil => exact ⟨owner, h.joins hflow hends⟩
  | cons handle rest =>
      cases hslot : m.slot with
      | some other =>
          -- Somebody came first, and the surplus transaction is rolled back.
          have hyields : flow.Yields m.slot := by
            rw [hslot] at hflow ⊢
            exact hflow
          exact ⟨owner, h.yields hyields hends⟩
      | none =>
          rw [hslot] at hflow
          -- With an empty slot nobody else is the owner, so this task can be.
          have hunowned : m.Awake none task :=
            { h.toOwned.of_idle hslot none with absent := h.absent, known := h.known }
          have honly' : Only (Mark.OfOwner handle) task m.history := by
            refine honly.imp ?_
            rintro _ ⟨slot, rfl⟩
            exact .inl rfl
          exact ⟨some task, hunowned.owns hflow honly' fun s _ heq => nomatch heq⟩

/-- Every step of calls for transactions around statements leaves every
task in a part. -/
theorem Owned.step (h : m.Owned owner) {m' : Machine π (Except Error α)}
    (hstep : Step AtomicCall m m') : ∃ owner', m'.Owned owner' := by
  cases hstep with
  | @start program hprogram =>
      obtain ⟨body, hbody, rfl⟩ := hprogram
      have hnew : ∀ mark ∈ m.history, mark.task? ≠ some m.started := fun mark hmark htask =>
        absurd (h.marked mark hmark _ htask) (Nat.lt_irrefl _)
      cases hslot : m.scope.session.slot with
      | none => exact ⟨owner, h.start.opens (hbody.opens hslot) hslot hnew⟩
      | some handle =>
          -- A call inside a transaction is its body.
          rw [Session.runInTransaction_of_open hslot]
          exact ⟨owner, h.start.joins (hbody.joins m.scope)
            fun mark hmark htask => absurd htask (hnew mark hmark)⟩
  | @answer before after s answer hsuspended hfresh =>
      -- The task goes on from the part in which it waited.
      have hawake := h.answer hsuspended (s.call.gained answer)
      have hs : s ∈ m.suspended := hsuspended ▸ List.mem_append_right _ List.mem_cons_self
      cases h.stage s hs with
      | opens honly hresume => exact hawake.enters (hresume answer m.scope) (honly.map_began _)
      | joins honly hresume =>
          exact ⟨owner, hawake.joins (hresume answer m.scope) (honly.map_began _)⟩
      | owns handle hown hslot honly hresume =>
          refine ⟨some s.task, hawake.owns (hresume answer m.scope hslot) (honly.map_began _) ?_⟩
          intro t ht heq
          exact hawake.absent t ht (Option.some.inj (hown.symm.trans heq)).symm
      | ends handle ending honly hresume =>
          exact ⟨owner, hawake.returns (hresume answer m.scope) (honly.map_began _)⟩
  | tick t => exact ⟨owner, ⟨h.tasks, h.below, h.marked, h.atomic, h.stage⟩⟩

/-- Every task has a part in every state, whoever is the owner there. -/
theorem Owned.reachable (h : Reachable AtomicCall m) : ∃ owner, m.Owned owner := by
  induction h with
  | idle hidle =>
      -- Nothing has happened yet, and nobody waits.
      refine ⟨none, List.nodup_nil, ?_, ?_, ?_, ?_⟩
      · exact fun s hs => nomatch hs
      · exact fun mark hmark => nomatch hmark
      · exact fun task handle ending hmark => nomatch hmark
      · exact fun s hs => nomatch hs
  | step _ hstep ih =>
      obtain ⟨owner, h⟩ := ih
      exact h.step hstep

end Machine

/-! ### Who is atomic -/

/-- A call that opened the transaction in the slot is atomic, whatever
other calls do meanwhile: from its begin to its end all of its
statements ran on that transaction, it ended that transaction itself,
and if it returned a value, it asked for a commit and nobody asked for a
rollback. -/
theorem Reachable.owner_atomic {m : Machine π (Except Error α)} (h : Reachable AtomicCall m)
    {task : Nat} {handle : Handle} {ending : Ending}
    (hends : .issued task (.finish handle ending) none ∈ m.history) :
    (∀ call slot, .issued task call slot ∈ m.history →
      call = .begin ∨ (slot = some handle ∧ call.On (some handle)) ∨
        (call = .finish handle ending ∧ slot = none)) ∧
    (∀ value, .returned task (.ok value) ∈ m.history →
      ending = .commit ∧ (handle, .rollback) ∉ ended m.history) := by
  obtain ⟨owner, howned⟩ := Machine.Owned.reachable h
  have honly := howned.atomic task handle ending hends
  refine ⟨?_, ?_⟩
  · intro call slot hissued
    rcases honly _ hissued rfl with (hbegin | hon) | ⟨_, heq⟩
    · exact .inl hbegin
    · exact .inr (.inl hon)
    · obtain ⟨-, hcall, hslot⟩ := Mark.issued.inj heq
      exact .inr (.inr ⟨hcall, hslot⟩)
  · intro value hreturned
    have hcommit : ending = .commit := honly _ hreturned rfl value rfl
    subst hcommit
    refine ⟨rfl, ?_⟩
    intro hrollback
    -- A transaction is asked to end at most once.
    have hcommitted : (handle, .commit) ∈ ended m.history :=
      List.mem_filterMap.mpr ⟨_, hends, rfl⟩
    have honce : (finished m.history).Nodup :=
      (Machine.Balanced.reachable (fun _ => AtomicCall.settled) h).nodup_finished
    exact nomatch List.inj_on_of_nodup_map honce hcommitted hrollback rfl

/-- A transaction around one statement and then another one. -/
def inTwoSteps (first second : String) : Action π ExecResult :=
  Session.runInTransaction do
    let _ ← Session.exec first []
    Session.exec second []

/-- Such a transaction is a call of the kind that the results here are
about. -/
theorem atomicCall_inTwoSteps (first second : String) :
    AtomicCall (inTwoSteps first second : Action π ExecResult).run := by
  have hbody : Statements (do
      let _ ← Session.exec first []
      Session.exec second [] : Action π ExecResult).run := by
    refine .bind (.exec first []) fun result => ?_
    cases result with
    | error e => exact .pure _
    | ok _ => exact .exec second []
  exact ⟨_, hbody, rfl⟩

/-- Two calls begin at once. The one that arrives first commits its two
statements, although the other one takes part in between. -/
theorem Reachable.owner_atomic_race :
    ∃ m : Machine Unit (Except Error ExecResult), Reachable AtomicCall m ∧
      .issued 1 (.finish ⟨0⟩ .commit) none ∈ m.history ∧
      .returned 1 (.ok ⟨1, none⟩) ∈ m.history ∧ (⟨0⟩, .rollback) ∉ ended m.history := by
  let scope : Scope Unit := ⟨.start, .ofConfig {}, .empty, []⟩
  have h0 : Reachable AtomicCall ({ scope } : Machine Unit (Except Error ExecResult)) := .idle rfl
  -- Both calls start while the session is idle, so both ask for a transaction.
  have h1 := h0.step (.start (atomicCall_inTwoSteps "a" "b"))
  have h2 := h1.step (.start (atomicCall_inTwoSteps "c" "d"))
  -- The second call is answered first and owns the slot. The first one comes too late.
  have h3 := h2.step (@Step.answer _ _ _ _ [] [_] ⟨1, .begin, _⟩ (.ok ⟨0⟩) rfl (by decide))
  have h4 := h3.step (@Step.answer _ _ _ _ [_] [] ⟨0, .begin, _⟩ (.ok ⟨1⟩) rfl (by decide))
  have h5 := h4.step
    (@Step.answer _ _ _ _ [_] [] ⟨1, .exec .., _⟩ (some (.ok ⟨1, none⟩)) rfl nofun)
  have h6 := h5.step
    (@Step.answer _ _ _ _ [] [_] ⟨1, .exec .., _⟩ (some (.ok ⟨1, none⟩)) rfl nofun)
  have h7 := h6.step (@Step.answer _ _ _ _ [] [_] ⟨1, .finish .., _⟩ (.ok ()) rfl nofun)
  obtain ⟨m, hm, hhistory⟩ : ∃ m : Machine Unit (Except Error ExecResult), Reachable AtomicCall m ∧
      m.history =
        [.returned 1 (.ok ⟨1, none⟩),
          .issued 1 (.finish ⟨0⟩ .commit) none,
          .issued 1 (.exec (some ⟨0⟩) "d" [] none) (some ⟨0⟩),
          .issued 0 (.finish ⟨1⟩ .rollback) (some ⟨0⟩),
          .began ⟨1⟩,
          .issued 1 (.exec (some ⟨0⟩) "c" [] none) (some ⟨0⟩),
          .began ⟨0⟩,
          .issued 1 .begin none,
          .issued 0 .begin none] := ⟨_, h7, rfl⟩
  have hreturned : .returned 1 (.ok ⟨1, none⟩) ∈ m.history := by
    rw [hhistory]
    exact List.mem_cons_self
  have hends : .issued 1 (.finish ⟨0⟩ .commit) none ∈ m.history := by
    rw [hhistory]
    exact List.mem_cons_of_mem _ List.mem_cons_self
  exact ⟨m, hm, hends, hreturned, ((hm.owner_atomic hends).2 _ hreturned).2⟩

/-- A call that takes part in the transaction of another one is not
atomic. Its first statement runs on that transaction, which is rolled
back when its owner fails; its second statement then runs outside of any
transaction, and the call returns a value. -/
theorem Reachable.guest_not_atomic :
    ∃ m : Machine Unit (Except Error ExecResult), Reachable AtomicCall m ∧
      m.history =
        [.returned 1 (.ok ⟨1, none⟩),
          .issued 1 (.exec none "d" [] none) none,
          .issued 0 (.finish ⟨0⟩ .rollback) none,
          .issued 1 (.exec (some ⟨0⟩) "c" [] none) (some ⟨0⟩),
          .issued 0 (.exec (some ⟨0⟩) "a" [] none) (some ⟨0⟩),
          .began ⟨0⟩,
          .issued 0 .begin none] := by
  let scope : Scope Unit := ⟨.start, .ofConfig {}, .empty, []⟩
  have h0 : Reachable AtomicCall ({ scope } : Machine Unit (Except Error ExecResult)) := .idle rfl
  have h1 := h0.step (.start (atomicCall_inTwoSteps "a" "b"))
  have h2 := h1.step (@Step.answer _ _ _ _ [] [] ⟨0, .begin, _⟩ (.ok ⟨0⟩) rfl (by decide))
  -- The second call starts inside the transaction of the first.
  have h3 := h2.step (.start (atomicCall_inTwoSteps "c" "d"))
  -- The statement of the owner fails, so the owner rolls back under its guest.
  have h4 := h3.step (@Step.answer _ _ _ _ [_] [] ⟨0, .exec .., _⟩
    (some (.error (.driver "constraint"))) rfl nofun)
  have h5 := h4.step
    (@Step.answer _ _ _ _ [_] [] ⟨1, .exec .., _⟩ (some (.ok ⟨1, none⟩)) rfl nofun)
  have h6 := h5.step
    (@Step.answer _ _ _ _ [] [_] ⟨1, .exec .., _⟩ (some (.ok ⟨1, none⟩)) rfl nofun)
  exact ⟨_, h6, rfl⟩

end SqlSession
