import SqlSession.Proofs.Session.Interleaving

/-!
# `SqlSession.Proofs.Session.Handles`: what becomes of transactions

A transaction that was opened is in the session's slot, or in the hands
of a task, or a call to end it was made. A task has one in its hands
only between two calls: it puts it into the slot or has it ended before
it waits again. `Flow.Conserves` states this as a law of conservation
for the course of a task. Each operation of a session has one lemma that
says what it takes over and what it leaves in its caller's hands.

With every task conserving, the number of transactions adds up in every
state (`Machine.Balanced`), and `Reachable.handle_protocol` reads the
protocol of transactions off that.
-/

set_option autoImplicit false

namespace SqlSession

variable {π ρ α β : Type}

/-- The transaction that a call ends, if it ends one. -/
def Call.finishing : Call → List Handle
  | .finish handle _ => [handle]
  | _ => []

/-- An answer hands over one transaction at the most. -/
theorem Call.nodup_gained (call : Call) (answer : call.Answer) : (call.gained answer).Nodup := by
  cases call with
  | begin =>
      cases answer with
      | ok handle => exact List.nodup_cons.mpr ⟨List.not_mem_nil, List.nodup_nil⟩
      | error e => exact List.nodup_nil
  | _ => exact List.nodup_nil

/-- A statement goes to what is in the slot, and to the connector itself
if nothing is. -/
def Call.Targets (slot : Option Handle) : Call → Prop
  | .query target _ _ _ => target = slot
  | .exec target _ _ _ => target = slot
  | _ => True

/-! ### Conservation -/

/-- The transactions `hand`, in the slot or in the task's hands, are in
one of these places again whenever the task waits or is done, or the
call it waits for ends them. `inHand` are those which the result leaves
in the hands of the caller. Another task may have changed the slot
meanwhile, so with each answer the count starts afresh. -/
def Flow.Conserves (inHand : α → List Handle) : List Handle → Flow π α → Prop
  | hand, .done value scope => hand.Perm (scope.session.slot.toList ++ inHand value)
  | hand, .wait scope call resume =>
      hand.Perm (scope.session.slot.toList ++ call.finishing) ∧
      call.Targets scope.session.slot ∧
      ∀ (answer : call.Answer) (scope : Scope π),
        (resume answer scope).Conserves inHand
          (scope.session.slot.toList ++ call.gained answer)
termination_by structural _ flow => flow

/-- What a task has in its hands has no order. -/
theorem Flow.Conserves.perm {inHand : α → List Handle} {hand hand' : List Handle}
    {flow : Flow π α} (hperm : hand.Perm hand') (h : flow.Conserves inHand hand) :
    flow.Conserves inHand hand' := by
  cases flow with
  | done value scope => exact hperm.symm.trans h
  | wait scope call resume => exact ⟨hperm.symm.trans h.1, h.2⟩

/-- What the first course leaves in the slot and in the hands is what the
second one starts with. -/
theorem Flow.Conserves.andThen {mid : α → List Handle} {inHand : β → List Handle}
    {flow : Flow π α} {next : α → Scope π → Flow π β} {hand : List Handle}
    (h : flow.Conserves mid hand)
    (hnext : ∀ value (scope : Scope π),
      (next value scope).Conserves inHand (scope.session.slot.toList ++ mid value)) :
    (flow.andThen next).Conserves inHand hand := by
  induction flow generalizing hand with
  | done value scope => exact (hnext value scope).perm (List.Perm.symm h)
  | wait scope call resume ih =>
      exact ⟨h.1, h.2.1, fun answer scope => ih answer scope (h.2.2 answer scope)⟩

namespace Program

/-- A program that is given the transactions `held` conserves them, with
whatever is in the slot when it starts. -/
def Conserves (held : List Handle) (inHand : α → List Handle) (program : Program π α) : Prop :=
  ∀ scope : Scope π, (program scope).Conserves inHand (scope.session.slot.toList ++ held)

/-- A program that neither is given a transaction nor leaves one in its
caller's hands. -/
abbrev Settled (program : Program π α) : Prop := program.Conserves [] fun _ => []

variable {held : List Handle} {mid inHand : α → List Handle}

/-- A value leaves everything where it is, if it says what is in the
hands. -/
theorem conserves_pure {value : α} (h : held.Perm (inHand value)) :
    (pure value : Program π α).Conserves held inHand :=
  fun scope => h.append_left scope.session.slot.toList

/-- Programs one after the other: what the first one leaves in the hands,
the second one takes over. -/
theorem Conserves.bind {program : Program π α} {next : α → Program π β}
    {inHand : β → List Handle} (h : program.Conserves held mid)
    (hnext : ∀ value, (next value).Conserves (mid value) inHand) :
    (program >>= next).Conserves held inHand :=
  fun scope => (h scope).andThen fun value scope => hnext value scope

/-- Between calls, transactions only go from the slot to the hands and
back. -/
theorem conserves_atomically {act : Scope π → α × Scope π}
    (h : ∀ scope : Scope π, (scope.session.slot.toList ++ held).Perm
      ((act scope).2.session.slot.toList ++ inHand (act scope).1)) :
    (atomically act).Conserves held inHand :=
  fun scope => h scope

/-- What leaves the slot alone changes nothing about transactions. -/
theorem conserves_of_slot_eq {act : Scope π → α × Scope π}
    (h : ∀ scope, (act scope).2.session.slot = scope.session.slot) (held : List Handle) :
    (atomically act).Conserves held fun _ => held :=
  conserves_atomically fun scope => by rw [h scope]

/-- A look moves no transaction. -/
theorem conserves_read (view : Scope π → α) (held : List Handle) :
    (read view).Conserves held fun _ => held :=
  conserves_of_slot_eq (fun _ => rfl) held

/-- To log an event moves no transaction. -/
theorem conserves_emit (event : Event) (held : List Handle) :
    (emit event : Program π Unit).Conserves held fun _ => held :=
  conserves_of_slot_eq (fun _ => rfl) held

/-- A call takes over what it ends, and leaves what it opens. -/
theorem conserves_call (call : Call) (h : ∀ slot, call.Targets slot) :
    (Program.call call : Program π call.Answer).Conserves call.finishing call.gained :=
  fun scope => ⟨.refl _, h scope.session.slot, fun _ _ => .refl _⟩

end Program

/-! ### The operations of a session -/

namespace Session

open Program

/-- A transaction that is offered goes into the slot or is left over. -/
theorem conserves_offer (handle : Handle) :
    (offer handle : Program π Bool).Conserves [handle]
      fun placed => if placed then [] else [handle] := by
  refine conserves_atomically fun scope => ?_
  cases hslot : scope.session.slot with
  | none => simp [inTransaction, hslot]
  | some other =>
      -- The slot is taken, and the task is left with its own transaction.
      simp [inTransaction, hslot]

/-- What was in the slot is in the hands of the task that took it. -/
theorem conserves_takeHandle :
    (takeHandle : Program π (Option Handle)).Conserves [] Option.toList := by
  refine conserves_atomically fun scope => ?_
  rw [List.append_nil]
  exact .refl _

/-- What is taken out of the slot to be ended is ended: the call is made
before the task waits. -/
theorem settled_endTransaction (ending : Ending) :
    (endTransaction ending : Action π Unit).run.Settled := by
  refine conserves_takeHandle.bind fun taken => ?_
  cases taken with
  | none => exact conserves_pure (.refl _)
  | some handle =>
      refine (conserves_call (.finish handle ending) fun _ => trivial).bind fun answer => ?_
      cases answer with
      | error e => exact (conserves_emit _ _).bind fun _ => conserves_pure (.refl _)
      | ok => exact conserves_pure (.refl _)

/-- A transaction that was opened goes into the slot, or is rolled back
because another one is there. -/
theorem settled_openTransaction : (openTransaction : Action π Stake).run.Settled := by
  refine (conserves_read _ []).bind fun open? => ?_
  cases open? with
  | true => exact (conserves_emit _ _).bind fun _ => conserves_pure (.refl _)
  | false =>
      refine (conserves_call .begin fun _ => trivial).bind fun answer => ?_
      cases answer with
      | error e => exact (conserves_emit _ _).bind fun _ => conserves_pure (.refl _)
      | ok handle =>
          refine (conserves_offer handle).bind fun placed => ?_
          cases placed with
          | true => exact conserves_pure (.refl _)
          | false =>
              -- The place was taken meanwhile: the transaction is rolled back at once.
              refine (conserves_emit _ [handle]).bind fun _ => ?_
              refine (conserves_call (.finish handle .rollback) fun _ => trivial).bind
                fun answer => ?_
              cases answer with
              | error e => exact (conserves_emit _ _).bind fun _ => conserves_pure (.refl _)
              | ok => exact (conserves_pure (.refl _)).bind fun _ => conserves_pure (.refl _)

/-- To begin a transaction is to open one and not to care who owns it. -/
theorem settled_beginTransaction : (beginTransaction : Action π Unit).run.Settled := by
  refine settled_openTransaction.bind fun opened => ?_
  cases opened with
  | error e => exact conserves_pure (.refl _)
  | ok stake => exact conserves_pure (.refl _)

/-- To enter a transaction opens one if there is none. -/
theorem settled_enterTransaction : (enterTransaction : Action π Stake).run.Settled := by
  refine (conserves_read _ []).bind fun open? => ?_
  cases open? with
  | true => exact conserves_pure (.refl _)
  | false => exact settled_openTransaction

/-- An owner ends the transaction in the slot, and a guest leaves it
there. -/
theorem settled_leaveTransaction (stake : Stake) (result : Except Error α) :
    (leaveTransaction stake result : Action π α).run.Settled := by
  cases stake with
  | guest => exact conserves_pure (.refl _)
  | owner =>
      cases result with
      | ok value =>
          refine (settled_endTransaction .commit).bind fun committed => ?_
          cases committed with
          | ok => exact conserves_pure (.refl _)
          | error e => exact conserves_pure (.refl _)
      | error e => exact (settled_endTransaction .rollback).bind fun _ => conserves_pure (.refl _)

/-- A transaction around a settled body leaves nothing in anyone's hands. -/
theorem settled_runInTransaction {body : Action π α} (h : body.run.Settled) :
    (runInTransaction body).run.Settled := by
  refine settled_enterTransaction.bind fun entered => ?_
  cases entered with
  | error e => exact conserves_pure (.refl _)
  | ok stake =>
      -- Whatever the body did to the slot, it leaves nothing in the hands of its caller.
      exact h.bind fun result => settled_leaveTransaction stake result

/-- To reset a session ends its open transaction, if it has one. -/
theorem settled_reset : (reset : Program π Unit).Settled := by
  refine (conserves_read _ []).bind fun open? => ?_
  have hclear : (modifySession fun s => { s with cache := s.cache.clear, deadline := none } :
      Program π Unit).Settled := conserves_of_slot_eq (fun _ => rfl) []
  cases open? with
  | false => exact hclear
  | true =>
      refine (conserves_emit _ []).bind fun _ => ?_
      exact (settled_endTransaction .rollback).bind fun _ => hclear

/-- What is logged about a statement moves no transaction. -/
theorem settled_observe (kind : StatementKind) (sql : String) (params : List Value)
    (issued : Scope π) (outcome : Except Error α) :
    (observe kind sql params issued outcome).Settled := by
  refine (conserves_read _ []).bind fun now => ?_
  have hslow : ∀ (slow : Prop) [Decidable slow] (event : Event),
      (if slow then emit event else pure () : Program π Unit).Settled := by
    -- Whether the statement was slow decides only if one more event is logged.
    intro slow _ event
    split
    · exact conserves_emit event []
    · exact conserves_pure (.refl _)
  dsimp only
  split
  · refine (conserves_emit _ []).bind fun _ => ?_
    split
    · exact hslow _ _
    · exact conserves_pure (.refl _)
  · split
    · exact hslow _ _
    · exact conserves_pure (.refl _)

/-- A statement that reads rows goes to the transaction in the slot and
leaves it there. -/
theorem settled_query (sql : String) (params : List Value) :
    (query sql params : Action π (List Row)).run.Settled := by
  -- The slot is read in the same piece in which the statement is issued.
  intro issued
  refine ⟨.refl _, rfl, fun answer scope => ?_⟩
  exact (settled_observe .query sql params issued (outcome issued answer)).bind
    (fun _ => conserves_pure (.refl _)) scope

/-- A statement that changes rows does the same. -/
theorem settled_exec (sql : String) (params : List Value) :
    (exec sql params : Action π ExecResult).run.Settled := by
  intro issued
  refine ⟨.refl _, rfl, fun answer scope => ?_⟩
  exact (settled_observe .exec sql params issued (outcome issued answer)).bind
    (fun _ => conserves_pure (.refl _)) scope

end Session

/-! ### Programs of tasks -/

/-- What a task can run: the operations of the session, one after another
as their results tell, with computations between them and waits for
other things. -/
inductive OnSession : {α : Type} → Program π α → Prop
  | pure {α : Type} (value : α) : OnSession (Pure.pure value)
  | bind {α β : Type} {program : Program π α} {next : α → Program π β} :
      OnSession program → (∀ value, OnSession (next value)) → OnSession (program >>= next)
  | locally {α : Type} {act : Scope π → α × Scope π} :
      (∀ scope, (act scope).2.session.slot = scope.session.slot) →
        OnSession (Program.atomically act)
  | sleep (span : Duration) : OnSession (Program.call (.sleep span))
  | query (sql : String) (params : List Value) : OnSession (Session.query sql params).run
  | exec (sql : String) (params : List Value) : OnSession (Session.exec sql params).run
  | begin : OnSession Session.beginTransaction.run
  | commit : OnSession Session.commitTransaction.run
  | rollback : OnSession Session.rollbackTransaction.run
  | reset : OnSession Session.reset
  | runInTransaction {α : Type} {body : Action π α} :
      OnSession body.run → OnSession (Session.runInTransaction body).run

/-- A task has no transaction in its hands when it starts, and none when
it is done. -/
theorem OnSession.settled {program : Program π α} (h : OnSession program) : program.Settled := by
  -- One lemma for each operation; sequences and transactions around them follow by induction.
  induction h with
  | pure value => exact Program.conserves_pure (.refl _)
  | bind _ _ ih ihnext => exact ih.bind ihnext
  | locally hslot => exact Program.conserves_of_slot_eq hslot []
  | sleep span => exact Program.conserves_call (.sleep span) fun _ => trivial
  | query sql params => exact Session.settled_query sql params
  | exec sql params => exact Session.settled_exec sql params
  | begin => exact Session.settled_beginTransaction
  | commit => exact Session.settled_endTransaction .commit
  | rollback => exact Session.settled_endTransaction .rollback
  | reset => exact Session.settled_reset
  | runInTransaction _ ih => exact Session.settled_runInTransaction ih

/-! ### Every state adds up -/

/-- Every call found a slot whose transaction was opened before and has
not been asked to end, and statements went where the slot said. -/
def Orderly : List (Mark ρ) → Prop
  | [] => True
  | .issued _ call slot :: older =>
      (call.Targets slot ∧ ∀ handle ∈ slot, handle ∈ begun older ∧ handle ∉ finished older) ∧
        Orderly older
  | _ :: older => Orderly older

/-- At any time in an orderly history, a call went to the transaction that
was in the slot, and this one had begun and was not ended. -/
theorem Orderly.issued {newer older : List (Mark ρ)} {task : Nat} {call : Call}
    {slot : Option Handle} (h : Orderly (newer ++ .issued task call slot :: older)) :
    call.Targets slot ∧ ∀ handle ∈ slot, handle ∈ begun older ∧ handle ∉ finished older := by
  induction newer with
  | nil => exact h.1
  | cons mark rest ih =>
      cases mark with
      | issued => exact ih h.2
      | _ => exact ih h

/-- A history stays orderly if transactions begin. -/
theorem orderly_map_began {handles : List Handle} {history : List (Mark ρ)}
    (h : Orderly history) : Orderly (handles.map Mark.began ++ history) := by
  induction handles with
  | nil => exact h
  | cons handle rest ih => exact ih

/-- Every transaction is in the slot or was asked to end, each in one
place only, and every waiting task keeps it that way. -/
structure Machine.Balanced (m : Machine π ρ) : Prop where
  handles : (begun m.history).Perm (m.slot.toList ++ finished m.history)
  nodup : (begun m.history).Nodup
  orderly : Orderly m.history
  suspended : ∀ s ∈ m.suspended, ∀ (answer : s.call.Answer) (scope : Scope π),
    (s.resume answer scope).Conserves (fun _ => [])
      (scope.session.slot.toList ++ s.call.gained answer)

namespace Machine

/-- A call adds to what was ended the transaction that it ends, if it ends
any. -/
theorem finished_issued (task : Nat) (call : Call) (slot : Option Handle)
    (history : List (Mark ρ)) :
    finished (.issued task call slot :: history) = call.finishing ++ finished history := by
  cases call <;> rfl

/-- A task that conserves `hand` goes on until it waits or is done: the
machine is balanced then, if `hand` and what was asked to end made up
all transactions before. -/
theorem balanced_proceed {m : Machine π ρ} {task : Nat} {flow : Flow π ρ} {hand : List Handle}
    (hflow : flow.Conserves (fun _ => []) hand)
    (hhandles : (begun m.history).Perm (hand ++ finished m.history))
    (hnodup : (begun m.history).Nodup) (horderly : Orderly m.history)
    (hsuspended : ∀ s ∈ m.suspended, ∀ (answer : s.call.Answer) (scope : Scope π),
      (s.resume answer scope).Conserves (fun _ => [])
        (scope.session.slot.toList ++ s.call.gained answer)) :
    (m.proceed task flow).Balanced := by
  cases flow with
  | done value scope =>
      have hhand : hand.Perm scope.session.slot.toList := by
        rw [← List.append_nil scope.session.slot.toList]
        exact hflow
      exact ⟨hhandles.trans (hhand.append_right _), hnodup, horderly, hsuspended⟩
  | wait scope call resume =>
      obtain ⟨hhand, htargets, hresume⟩ := hflow
      have hall : (begun m.history).Perm
          (scope.session.slot.toList ++ (call.finishing ++ finished m.history)) := by
        rw [← List.append_assoc]
        exact hhandles.trans (hhand.append_right _)
      refine ⟨?_, hnodup, ⟨⟨htargets, fun handle hslot => ?_⟩, horderly⟩, ?_⟩
      · show (begun m.history).Perm (scope.session.slot.toList ++ finished (_ :: m.history))
        rw [finished_issued]
        exact hall
      · -- What is in the slot was opened, and is nowhere else.
        have hmem : handle ∈ scope.session.slot.toList := Option.mem_toList.mpr hslot
        refine ⟨hall.mem_iff.mpr (List.mem_append_left _ hmem), fun hfinished => ?_⟩
        have hdisjoint := (List.nodup_append.mp (hall.nodup_iff.mp hnodup)).2.2
        exact hdisjoint handle hmem handle (List.mem_append_right _ hfinished) rfl
      · intro s hs
        rcases List.mem_cons.mp hs with rfl | hs
        · exact hresume
        · exact hsuspended s hs

/-- One step keeps the balance. -/
theorem Balanced.step {Allowed : Program π ρ → Prop}
    (hallowed : ∀ program, Allowed program → program.Settled) {m m' : Machine π ρ}
    (h : m.Balanced) (hstep : Step Allowed m m') : m'.Balanced := by
  cases hstep with
  | @start program hprogram =>
      -- A task that starts has nothing in its hands.
      refine balanced_proceed (hallowed program hprogram m.scope) ?_ h.nodup h.orderly h.suspended
      rw [List.append_nil]
      exact h.handles
  | @answer before after s answer hsuspended hfresh =>
      -- What the answer opened is in the hands of the task that goes on.
      have hs : s ∈ m.suspended := hsuspended ▸ List.mem_append_right _ List.mem_cons_self
      refine balanced_proceed (h.suspended s hs answer m.scope) ?_ ?_ ?_ ?_
      · show (begun (_ ++ m.history)).Perm (_ ++ finished (_ ++ m.history))
        rw [begun_map_began, finished_map_began]
        have hgained := h.handles.append_left (s.call.gained answer)
        rw [← List.append_assoc] at hgained
        exact hgained.trans (List.perm_append_comm.append_right _)
      · show (begun (_ ++ m.history)).Nodup
        rw [begun_map_began, List.nodup_append]
        refine ⟨s.call.nodup_gained answer, h.nodup, fun handle hgained other hother heq => ?_⟩
        exact hfresh handle hgained (heq ▸ hother)
      · exact orderly_map_began h.orderly
      · intro t ht
        refine h.suspended t ?_
        rw [hsuspended]
        exact (List.mem_append.mp ht).elim (List.mem_append_left _) fun h =>
          List.mem_append_right _ (List.mem_cons_of_mem _ h)
  | tick t => exact ⟨h.handles, h.nodup, h.orderly, h.suspended⟩

/-- The numbers add up in every state that can be reached, if every
program settles what it takes. -/
theorem Balanced.reachable {Allowed : Program π ρ → Prop}
    (hallowed : ∀ program, Allowed program → program.Settled) {m : Machine π ρ}
    (h : Reachable Allowed m) : m.Balanced := by
  induction h with
  | @idle scope hidle =>
      refine ⟨?_, List.nodup_nil, trivial, fun s hs => nomatch hs⟩
      show List.Perm [] (scope.session.slot.toList ++ [])
      rw [hidle]
      exact .refl _
  | step _ hstep ih => exact ih.step hallowed hstep

/-- A transaction is asked to end at most once. -/
theorem Balanced.nodup_finished {m : Machine π ρ} (h : m.Balanced) : (finished m.history).Nodup :=
  (List.nodup_append.mp (h.handles.nodup_iff.mp h.nodup)).2.1

end Machine

/-- The protocol of transactions, for any number of tasks on one session
and any order in which their calls are answered.

In every state, whether calls are in progress or not: a transaction is
asked to end at most once, and only if it was opened. A statement went to
what was in the slot when it was issued, which was a transaction that
nobody had asked to end yet, and to the connector itself only if the slot
was empty. What is in the slot now was not asked to end either. And no
transaction is lost: those opened are those committed, those rolled back
and the one that is open, if there is one. -/
theorem Reachable.handle_protocol {m : Machine π ρ} (h : Reachable OnSession m) :
    (finished m.history).Nodup ∧
    (∀ handle ∈ finished m.history, handle ∈ begun m.history) ∧
    (∀ (newer older : List (Mark ρ)) (task : Nat) (call : Call) (slot : Option Handle),
      m.history = newer ++ .issued task call slot :: older →
        call.Targets slot ∧
          ∀ handle ∈ slot, handle ∈ begun older ∧ handle ∉ finished older) ∧
    (∀ handle ∈ m.slot, handle ∈ begun m.history ∧ handle ∉ finished m.history) ∧
    (begun m.history).length
      = endings .commit m.history + endings .rollback m.history +
        (if m.scope.session.inTransaction then 1 else 0) := by
  have hbalanced := Machine.Balanced.reachable (fun _ => OnSession.settled) h
  obtain ⟨hslot, hfinished, hdisjoint⟩ :=
    List.nodup_append.mp (hbalanced.handles.nodup_iff.mp hbalanced.nodup)
  refine ⟨hfinished, fun handle hmem => ?_, fun newer older task call slot heq => ?_,
    fun handle hmem => ?_, ?_⟩
  · exact hbalanced.handles.mem_iff.mpr (List.mem_append_right _ hmem)
  · exact Orderly.issued (heq ▸ hbalanced.orderly)
  · have htaken : handle ∈ m.slot.toList := Option.mem_toList.mpr hmem
    exact ⟨hbalanced.handles.mem_iff.mpr (List.mem_append_left _ htaken),
      fun hended => hdisjoint handle htaken handle hended rfl⟩
  · -- Each transaction counts once, by the place where it is.
    rw [hbalanced.handles.length_eq, List.length_append, length_finished, Nat.add_comm]
    congr 1
    unfold Machine.slot Session.inTransaction
    cases m.scope.session.slot <;> rfl

/-- Two tasks open a transaction at once. The one that is opened later is
rolled back. -/
theorem Reachable.handle_protocol_race :
    ∃ m : Machine Unit (Except Error Unit), Reachable OnSession m ∧
      begun m.history = [⟨1⟩, ⟨0⟩] ∧ finished m.history = [⟨1⟩] ∧ m.slot = some ⟨0⟩ ∧
      (begun m.history).length
        = endings .commit m.history + endings .rollback m.history +
          (if m.scope.session.inTransaction then 1 else 0) := by
  let scope : Scope Unit := ⟨.start, .ofConfig {}, .empty, []⟩
  have h0 : Reachable OnSession ({ scope } : Machine Unit (Except Error Unit)) := .idle rfl
  have h1 := h0.step (.start .begin)
  have h2 := h1.step (.start .begin)
  have h3 := h2.step (@Step.answer _ _ _ _ [_] [] ⟨0, .begin, _⟩ (.ok ⟨0⟩) rfl (by decide))
  have h4 := h3.step (@Step.answer _ _ _ _ [] [] ⟨1, .begin, _⟩ (.ok ⟨1⟩) rfl (by decide))
  exact ⟨_, h4, rfl, rfl, rfl, h4.handle_protocol.2.2.2.2⟩

end SqlSession
