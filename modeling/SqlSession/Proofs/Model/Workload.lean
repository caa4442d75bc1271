import SqlSession.Proofs.Model.Serving

/-!
# `SqlSession.Proofs.Model.Workload`: many operations at once

Any number of tasks ask a model for things on one session. A `Workload`
is the scope they share, the operations that wait for an answer, all
records that were handed out so far with the rows they were handed out
for, and the log of all effects.
`Workload.Step` is one piece of one operation: it starts, or its call is
answered and it goes on to the next call or to its end. Which call is
answered next, and how, is open. In between anything can happen that
leaves the memory alone: time passes, other tasks run statements, and
transactions begin and end. A task that asks for one thing after another
is, for this, a task that starts anew each time.

`Upkeep` is what it takes to show that something holds throughout: it
must be kept by whatever can happen to the memory in one piece.
`Upkeep.Upheld.runs` carries it along all runs.
-/

set_option autoImplicit false

namespace SqlSession

variable {π μ : Type}

/-- An operation that waits for the answer to a call. -/
structure Pending (π μ : Type) where
  op : Operation μ
  /-- The keys of the rows that it has read or inserted so far. -/
  read : List String
  call : Call
  resume : call.Answer → Scope π → Flow π (Except Error op.Result)

/-- A session and what a model is asked for on it. -/
structure Workload (π μ : Type) where
  scope : Scope π
  pending : List (Pending π μ) := []
  /-- The records that were handed out so far, each with the key of the row
  that it was handed out for. -/
  returned : List (RowRecord μ) := []
  /-- The effects so far, oldest first. -/
  log : List (Effect μ) := []

namespace Workload

variable {model : Model π μ} {Allowed : List (RowRecord μ) → Operation μ → Prop}
  {w w' : Workload π μ}

/-- The records and the cache, as operations find them. -/
def memory (w : Workload π μ) : Memory π := w.scope.memory

/-- An operation that has read some rows goes on until it waits for a call
or is done. The records that it hands out then are for the rows that it
has read, or for the one that it was asked for if they are out of the
cache. -/
def proceed (w : Workload π μ) (model : Model π μ) (op : Operation μ) (read : List String) :
    Flow π (Except Error op.Result) → Workload π μ
  | .done result scope =>
      { w with
          scope
          returned := forRows (op.rowKeys model read) (handed op.records result) ++ w.returned }
  | .wait scope call resume => { w with scope, pending := ⟨op, read, call, resume⟩ :: w.pending }

/-- One step: an operation starts that is allowed with the records handed
out so far, a call is answered and its operation goes on, or something
happens elsewhere. What an answer makes an operation read is in the log,
and so are the keys that the records which it hands out later are for. -/
inductive Step (model : Model π μ) (Allowed : List (RowRecord μ) → Operation μ → Prop) :
    Workload π μ → Workload π μ → Prop
  | start {w : Workload π μ} {op : Operation μ} : Allowed w.returned op →
      Step model Allowed w (w.proceed model op [] ((op.run model).run w.scope))
  | answer {w : Workload π μ} {before after : List (Pending π μ)} {p : Pending π μ}
      (answer : p.call.Answer) : w.pending = before ++ p :: after →
      Step model Allowed w
        ({ w with
            pending := before ++ after
            log := w.log ++ p.op.effects model w.memory p.call answer }.proceed model p.op
          (p.read ++ internedKeys (p.op.effects model w.memory p.call answer))
          (p.resume answer w.scope))
  | elsewhere {w : Workload π μ} {scope : Scope π} : scope.memory = w.memory →
      Step model Allowed w { w with scope }

/-- Any number of steps. -/
abbrev Runs (model : Model π μ) (Allowed : List (RowRecord μ) → Operation μ → Prop) :
    Workload π μ → Workload π μ → Prop := Relation.ReflTransGen (Step model Allowed)

/-- What is in the log was put there with the answer, before the operation
goes on. -/
@[simp]
theorem log_proceed (w : Workload π μ) (op : Operation μ) (read : List String)
    (flow : Flow π (Except Error op.Result)) : (w.proceed model op read flow).log = w.log := by
  cases flow <;> rfl

/-- The log grows. -/
theorem Step.log_grows (h : Step model Allowed w w') : w.log <+: w'.log := by
  cases h with
  | start => simp
  | answer answer hpending => simp
  | elsewhere => exact List.prefix_refl _

namespace Runs

/-- Over a whole run the log grows. -/
theorem log_grows (h : Runs model Allowed w w') : w.log <+: w'.log := by
  induction h with
  | refl => exact List.prefix_refl _
  | tail _ hstep ih => exact ih.trans hstep.log_grows

/-- Where a run has come to, another one begins. -/
theorem anew (_ : Runs model Allowed w w') : Runs model Allowed w' w' := .refl

/-- A run goes on with another operation. -/
theorem start (h : Runs model Allowed w w') (op : Operation μ) (hop : Allowed w'.returned op) :
    Runs model Allowed w (w'.proceed model op [] ((op.run model).run w'.scope)) :=
  h.tail (.start hop)

/-- A run goes on with the answer to one of the calls. -/
theorem answer (h : Runs model Allowed w w') (before : List (Pending π μ))
    {after : List (Pending π μ)} (p : Pending π μ) (answer : p.call.Answer)
    (hpending : w'.pending = before ++ p :: after) :
    Runs model Allowed w
      ({ w' with
          pending := before ++ after
          log := w'.log ++ p.op.effects model w'.memory p.call answer }.proceed model p.op
        (p.read ++ internedKeys (p.op.effects model w'.memory p.call answer))
        (p.resume answer w'.scope)) :=
  h.tail (.answer answer hpending)

end Runs

end Workload

/-! ### What holds throughout -/

/-- Something that is kept by all that can happen to the memory, as long
as the log is fine. `Stays` says how a memory can be followed by another
one, and `Known` is what then stays true of a record and the row that it
is for, and is true of those that are found. -/
structure Upkeep (model : Model π μ) where
  Holds : Memory π → List (Effect μ) → Prop
  Stays : Memory π → Memory π → Prop
  Known : Memory π → RowRecord μ → Prop
  Fine : List (Effect μ) → Prop
  stays_refl : ∀ m, Stays m m
  stays_trans : ∀ {m m' m''}, Stays m m' → Stays m' m'' → Stays m m''
  known_of_stays : ∀ {m m'}, Stays m m' → ∀ r, Known m r → Known m' r
  fine_of_longer : ∀ {log log' : List (Effect μ)}, log <+: log' → Fine log' → Fine log
  keep : ∀ {m m' : Memory π} {es : List (Effect μ)} {found : List (RowRecord μ)},
    model.Happens m es m' found → ∀ {log : List (Effect μ)}, Holds m log → Fine (log ++ es) →
    (∀ record before written, .merged record before written ∈ es →
      ∃ r : RowRecord μ, r.record = record ∧ Known m r) →
    Holds m' (log ++ es) ∧ Stays m m' ∧ ∀ r ∈ found, Known m' r

namespace Upkeep

variable {model : Model π μ} (u : Upkeep model)
  {Allowed : List (RowRecord μ) → Operation μ → Prop} {w w' : Workload π μ}

/-- The records that an operation is given are known, each for some row. -/
def KnowsGiven (m : Memory π) (op : Operation μ) : Prop :=
  ∀ record ∈ op.given, ∃ r : RowRecord μ, r.record = record ∧ u.Known m r

/-- The operation goes on as it should, and the records that it was given
and has found are known. -/
def Tended (m : Memory π) (p : Pending π μ) : Prop :=
  u.KnowsGiven m p.op ∧
  ∃ hand, (∀ r ∈ hand, u.Known m r) ∧
    ∀ (answer : p.call.Answer) (later : Scope π),
      (p.resume answer later).Serves model p.op (handed p.op.records)
        (p.read ++ internedKeys (p.op.effects model later.memory p.call answer)) hand later.memory
        (p.op.effects model later.memory p.call answer)

variable {u}

/-- Records that are known stay known. -/
theorem KnowsGiven.of_stays {m m' : Memory π} {op : Operation μ} (h : u.KnowsGiven m op)
    (hstays : u.Stays m m') : u.KnowsGiven m' op := by
  intro record hmem
  obtain ⟨r, hr, hknown⟩ := h record hmem
  exact ⟨r, hr, u.known_of_stays hstays r hknown⟩

/-- So an operation that waits is as it should be in every later memory. -/
theorem Tended.of_stays {m m' : Memory π} {p : Pending π μ} (h : u.Tended m p)
    (hstays : u.Stays m m') : u.Tended m' p := by
  obtain ⟨hgiven, hand, hhand, hresume⟩ := h
  exact ⟨hgiven.of_stays hstays, hand,
    fun r hmem => u.known_of_stays hstays r (hhand r hmem), hresume⟩

variable (u) in
/-- Everything is as it should be. -/
structure Upheld (w : Workload π μ) : Prop where
  holds : u.Holds w.memory w.log
  returned : ∀ r ∈ w.returned, u.Known w.memory r
  pending : ∀ p ∈ w.pending, u.Tended w.memory p

/-- Before anything has started there is nothing else to uphold. -/
theorem Upheld.start {scope : Scope π} (h : u.Holds scope.memory []) : u.Upheld { scope } where
  holds := h
  returned _ hr := nomatch hr
  pending _ hp := nomatch hp

/-- An operation goes on with what is due. -/
theorem Upheld.proceed {op : Operation μ} {read : List String} {hand : List (RowRecord μ)}
    {due : List (Effect μ)} {flow : Flow π (Except Error op.Result)} (h : u.Upheld w)
    (hflow : flow.Serves model op (handed op.records) read hand w.memory due)
    (hfine : u.Fine (w.log ++ due)) (hgiven : u.KnowsGiven w.memory op)
    (hhand : ∀ r ∈ hand, u.Known w.memory r)
    (hmerged : ∀ record before written, .merged record before written ∈ due → record ∈ op.given) :
    u.Upheld ({ w with log := w.log ++ due }.proceed model op read flow) ∧
      u.Stays w.memory ({ w with log := w.log ++ due }.proceed model op read flow).memory := by
  -- One piece of an operation changes the memory by what is due, and by nothing else.
  have hkeep : ∀ {m' : Memory π} {found : List (RowRecord μ)},
      model.Happens w.memory due m' found →
      u.Holds m' (w.log ++ due) ∧ u.Stays w.memory m' ∧ ∀ r ∈ found ++ hand, u.Known m' r := by
    intro m' found hdue
    obtain ⟨hholds, hstays, hfound⟩ := u.keep hdue h.holds hfine
      fun record before written hmem => hgiven record (hmerged record before written hmem)
    refine ⟨hholds, hstays, ?_⟩
    intro r hmem
    rcases List.mem_append.mp hmem with hmem | hmem
    · exact hfound r hmem
    · exact u.known_of_stays hstays r (hhand r hmem)
  cases flow with
  | done result scope =>
      obtain ⟨found, hdue, hrecords⟩ := hflow
      obtain ⟨hholds, hstays, hfound⟩ := hkeep hdue
      have hpending : ∀ p ∈ w.pending, u.Tended scope.memory p :=
        fun p hp => (h.pending p hp).of_stays hstays
      refine ⟨⟨hholds, ?_, hpending⟩, hstays⟩
      intro r hr
      rcases List.mem_append.mp hr with hnew | hold
      · exact hfound r (hrecords hnew)
      · exact u.known_of_stays hstays r (h.returned r hold)
  | wait scope call resume =>
      obtain ⟨found, hdue, hresume⟩ := hflow
      obtain ⟨hholds, hstays, hfound⟩ := hkeep hdue
      have hknown := u.known_of_stays hstays
      refine ⟨⟨hholds, fun r hmem => hknown r (h.returned r hmem), ?_⟩, hstays⟩
      intro p hp
      rcases List.mem_cons.mp hp with rfl | hp
      · exact ⟨hgiven.of_stays hstays, found ++ hand, hfound, hresume⟩
      · exact (h.pending p hp).of_stays hstays

/-- One step keeps everything as it should be. -/
theorem Upheld.step (h : u.Upheld w) (hstep : w.Step model Allowed w')
    (hallowed : ∀ op, Allowed w.returned op → u.KnowsGiven w.memory op) (hfine : u.Fine w'.log) :
    u.Upheld w' ∧ u.Stays w.memory w'.memory := by
  cases hstep with
  | @start op hop =>
      -- Nothing is due before the first call is answered.
      have hlog : u.Fine (w.log ++ []) := by simpa using hfine
      have hproceed := h.proceed (model.serves op w.scope) hlog (hallowed op hop) nofun nofun
      simpa using hproceed
  | @answer before after p answer hpending =>
      have hp : p ∈ w.pending := hpending ▸ List.mem_append_right _ List.mem_cons_self
      obtain ⟨hgiven, hand, hhand, hresume⟩ := h.pending p hp
      have hothers : u.Upheld { w with pending := before ++ after } := by
        refine ⟨h.holds, h.returned, ?_⟩
        intro q hq
        refine h.pending q ?_
        rw [hpending]
        rcases List.mem_append.mp hq with hbefore | hafter
        · exact List.mem_append_left _ hbefore
        · exact List.mem_append_right _ (List.mem_cons_of_mem _ hafter)
      rw [Workload.log_proceed] at hfine
      exact hothers.proceed (hresume answer w.scope) hfine hgiven hhand
        fun _ _ _ => Operation.given_of_merged
  | @elsewhere scope hmemory =>
      -- What is upheld speaks of the memory, and that is as before.
      have hsame : Workload.memory { w with scope } = w.memory := hmemory
      refine ⟨⟨?_, ?_, ?_⟩, ?_⟩
      · rw [hsame]
        exact h.holds
      · rw [hsame]
        exact h.returned
      · rw [hsame]
        exact h.pending
      · rw [hsame]
        exact u.stays_refl _

/-- Everything stays as it should be, if the operations that start are
given known records. -/
theorem Upheld.runs (h : u.Upheld w) (hruns : w.Runs model Allowed w')
    (hallowed : ∀ m returned op, (∀ r ∈ returned, u.Known m r) → Allowed returned op →
      u.KnowsGiven m op) (hfine : u.Fine w'.log) :
    u.Upheld w' ∧ u.Stays w.memory w'.memory := by
  induction hruns with
  | refl => exact ⟨h, u.stays_refl _⟩
  | tail _ hstep ih =>
      obtain ⟨hbefore, hstays⟩ := ih (u.fine_of_longer hstep.log_grows hfine)
      obtain ⟨hafter, hstays'⟩ :=
        hbefore.step hstep (fun op => hallowed _ _ op hbefore.returned) hfine
      exact ⟨hafter, u.stays_trans hstays hstays'⟩

end Upkeep

end SqlSession
