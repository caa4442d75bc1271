import Mathlib.Logic.Relation
import SqlSession.Proofs.Session.Alike
import SqlSession.Proofs.Session.Alone
import SqlSession.Proofs.Session.Interleaving
import SqlSession.Sample.Models
import SqlSession.Session.Pool

/-!
# `SqlSession.Proofs.Session.Recycling`: a recycled session is like a new one

A pool hands out sessions that were in use before. `Lending` is a pool
with the sessions that are out, and the tasks that wait on each of them;
`Lending.Step` is a session handed out, a step of a task, a change of the
world around a session, or a session dropped or given back. A session is
given back in whatever state it is, with its tasks abandoned. The step is
the moment at which it arrives in the pool; what others do while its
rollback is under way comes before that.

Tasks run what callers can make of a session, `Routine` programs. All of
them are blind (`Routine.blind`), so every session that is out stays like
itself (`Machine.Regular`), with the settings of the pool. Giving it back
clears all that could be seen of its past: the counter of stamps goes on,
but no blind program can tell (`Lending.Sound`). `Pool.recycled_like_new`
is the result.
-/

set_option autoImplicit false

namespace SqlSession

variable {π ρ α β : Type} {config : Config}

/-! ### What callers do with a session -/

/-- What a caller can see between two calls. -/
structure Glimpse (π : Type) where
  now : Instant
  config : Config
  inTransaction : Bool
  cachedRecords : Nat
  records : Records π

/-- What a caller sees of a scope. The number of cached records is part of
it, the entries and their stamps are not. -/
def Scope.glimpse (scope : Scope π) : Glimpse π where
  now := scope.now
  config := scope.session.config
  inTransaction := scope.session.inTransaction
  cachedRecords := scope.session.cachedRecords
  records := scope.records

/-- What a caller can make of a session: everything that the session and
its models offer, calls that do not go through it, and what is decided by
the results and by what can be seen. -/
inductive Routine : {α : Type} → Program π α → Prop
  | pure {α : Type} (value : α) : Routine (Pure.pure value)
  | bind {α β : Type} {program : Program π α} {next : α → Program π β} :
      Routine program → (∀ value, Routine (next value)) → Routine (program >>= next)
  | look {α : Type} (view : Glimpse π → α) : Routine (Program.read fun scope => view scope.glimpse)
  | write (id : RecordId) (payload : π) :
      Routine (Program.atomically fun scope =>
        ((), { scope with records := scope.records.write id payload }))
  | call (c : Call) : Routine (Program.call c)
  | query (sql : String) (params : List Value) : Routine (Session.query sql params).run
  | exec (sql : String) (params : List Value) : Routine (Session.exec sql params).run
  | fetch {α : Type} (read : Row → Except Error α) (stmt : Statement) :
      Routine (Session.fetch read stmt).run
  | execute (stmt : Statement) : Routine (Session.execute stmt).run
  | setDeadline (deadline : Instant) : Routine (Session.setDeadline deadline)
  | setTimeout (span : Duration) : Routine (Session.setTimeout span)
  | clearDeadline : Routine Session.clearDeadline
  | clearCache : Routine Session.clearCache
  | reset : Routine Session.reset
  | begin : Routine Session.beginTransaction.run
  | commit : Routine Session.commitTransaction.run
  | rollback : Routine Session.rollbackTransaction.run
  | runInTransaction {α : Type} {body : Action π α} :
      Routine body.run → Routine (Session.runInTransaction body).run
  | operation {μ : Type} (model : Model π μ) (op : Operation μ) : Routine (op.run model).run

/-- Callers cannot tell alike scopes apart. -/
theorem Scope.Alike.glimpse {scope scope' : Scope π} (h : scope.Alike config scope') :
    scope.glimpse = scope'.glimpse := by
  unfold Scope.glimpse Session.cachedRecords
  rw [h.now, h.records, h.session.config_left, h.session.config_right, h.session.inTransaction,
    h.session.cache.size_eq]

/-- Nobody can tell alike sessions apart. -/
theorem Routine.blind {program : Program π α} (h : Routine program) : program.Blind := by
  induction h with
  | pure value => exact .pure value
  | bind _ _ ih ihnext => exact .bind ih ihnext
  | look view => exact .read fun _ _ _ hscope => congrArg view hscope.glimpse
  | write id payload =>
      exact .atomically fun _ _ _ hscope => ⟨rfl, hscope.now,
        congrArg (·.write id payload) hscope.records, hscope.events, hscope.session⟩
  | call c => exact .call c
  | query sql params => exact Session.blind_query sql params
  | exec sql params => exact Session.blind_exec sql params
  | fetch read stmt => exact Session.blind_fetch read stmt
  | execute stmt => exact Session.blind_execute stmt
  | setDeadline deadline => exact Session.blind_setDeadline deadline
  | setTimeout span => exact Session.blind_setTimeout span
  | clearDeadline => exact Session.blind_clearDeadline
  | clearCache => exact Session.blind_clearCache
  | reset => exact Session.blind_reset
  | begin =>
      refine .bind Session.blind_openTransaction fun opened => ?_
      cases opened <;> exact .pure _
  | commit => exact Session.blind_endTransaction .commit
  | rollback => exact Session.blind_endTransaction .rollback
  | runInTransaction _ ih => exact Session.blind_runInTransaction ih
  | operation model op => exact (op.assembled model).blind

/-- Alike courses run alike with one environment. -/
theorem Flow.Alike.alone {flow flow' : Flow π α} (h : flow.Alike config flow') {σ : Type}
    (env : Environment σ) (s : σ) :
    (flow.alone env s).value = (flow'.alone env s).value ∧
      (flow.alone env s).trace = (flow'.alone env s).trace ∧
      (flow.alone env s).scope.Alike config (flow'.alone env s).scope := by
  induction h generalizing s with
  | done hscope => exact ⟨rfl, rfl, hscope⟩
  | @wait scope scope' call resume resume' hscope _ ih =>
      -- Both ask for the same at the same instant, so they get one answer.
      obtain ⟨⟨⟨answer, t⟩, s'⟩, hreply⟩ : ∃ reply, env.reply s scope.now call = reply := ⟨_, rfl⟩
      have hlater := hscope.atTime (scope.now.later t)
      obtain ⟨hvalue, htrace, hend⟩ := ih answer _ _ hlater s'
      simp only [Flow.alone, hreply, ← hscope.now]
      exact ⟨hvalue, congrArg _ htrace, hend⟩

/-! ### Sessions that are out -/

/-- A session of a pool's settings, with tasks on it that nothing but
alike scopes matters to. -/
structure Machine.Regular (config : Config) (m : Machine π ρ) : Prop where
  scope : m.scope.Alike config m.scope
  tasks : ∀ t ∈ m.suspended, ∀ answer later later', later.Alike config later' →
    (t.resume answer later).Alike config (t.resume answer later')

namespace Machine.Regular

variable {m m' : Machine π ρ}

/-- A task that goes on ends in the scope it leaves, or waits again in a
way that only alike scopes matter to. -/
theorem proceed (h : m.Regular config) (task : Nat) {flow : Flow π ρ} (hflow : flow.Alike config flow) :
    (m.proceed task flow).Regular config := by
  cases hflow with
  | done hscope => exact ⟨hscope, h.tasks⟩
  | wait hscope hresume => exact ⟨hscope, List.forall_mem_cons.mpr ⟨hresume, h.tasks⟩⟩

/-- Whatever tasks do, the session stays like itself. -/
theorem step (h : m.Regular config) (hstep : Step Routine m m') : m'.Regular config := by
  cases hstep with
  | start hprogram =>
      have hstarted : Regular config { m with started := m.started + 1 } := ⟨h.scope, h.tasks⟩
      exact hstarted.proceed m.started (hprogram.blind config _ _ h.scope)
  | @answer before after s answer hsuspended _ =>
      -- The task that goes on is no longer among those that wait.
      have htasks := h.tasks
      rw [hsuspended, List.forall_mem_append, List.forall_mem_cons] at htasks
      obtain ⟨hbefore, hs, hafter⟩ := htasks
      have hothers : Regular config { m with
          suspended := before ++ after
          history := (s.call.gained answer).map Mark.began ++ m.history } :=
        ⟨h.scope, List.forall_mem_append.mpr ⟨hbefore, hafter⟩⟩
      exact hothers.proceed s.task (hs answer _ _ h.scope)
  | tick t => exact ⟨h.scope.atTime _, h.tasks⟩

end Machine.Regular

/-- What the tasks on other sessions do, and the passing of time. -/
def Machine.inWorld (m : Machine π ρ) (now : Instant) (records : Records π) (events : List Event) :
    Machine π ρ :=
  { m with scope := { m.scope with now, records, events } }

/-- What happens around a session is nothing that it could be unlike
itself in. -/
theorem Machine.Regular.inWorld {m : Machine π ρ} (h : m.Regular config) (now : Instant)
    (records : Records π) (events : List Event) : (m.inWorld now records events).Regular config :=
  ⟨⟨rfl, rfl, rfl, h.scope.session⟩, h.tasks⟩

/-- A pool, and the sessions that were handed out and not given back. -/
structure Lending (π : Type) where
  pool : Pool
  out : List (Machine π Unit) := []

/-- One step of a pool and its sessions. -/
inductive Lending.Step : Lending π → Lending π → Prop
  /-- A session is handed out. -/
  | acquire {l : Lending π} (now : Instant) (records : Records π) (events : List Event) :
      Step l {
        pool := l.pool.acquire.2
        out := { scope := ⟨now, l.pool.acquire.1, records, events⟩ } :: l.out }
  /-- Tasks work on a session that is out. -/
  | work {l : Lending π} {before after : List (Machine π Unit)} {m m' : Machine π Unit} :
      l.out = before ++ m :: after → SqlSession.Step Routine m m' →
      Step l { l with out := before ++ m' :: after }
  /-- Something happens around a session that is out. -/
  | around {l : Lending π} {before after : List (Machine π Unit)} {m : Machine π Unit}
      (now : Instant) (records : Records π) (events : List Event) :
      l.out = before ++ m :: after →
      Step l { l with out := before ++ m.inWorld now records events :: after }
  /-- A session is dropped, and not given back. -/
  | drop {l : Lending π} {before after : List (Machine π Unit)} {m : Machine π Unit} :
      l.out = before ++ m :: after → Step l { l with out := before ++ after }
  /-- A session is given back. What its tasks wait for is given up. -/
  | release {l : Lending π} {before after : List (Machine π Unit)} {m : Machine π Unit} {σ : Type}
      (env : Environment σ) (s : σ) : l.out = before ++ m :: after →
      Step l {
        pool := (((l.pool.release : Program π Pool) m.scope).alone env s).value
        out := before ++ after }

/-- What tasks do on a session that is out, one step after another. -/
theorem Lending.works {p : Pool} {out : List (Machine π Unit)} {m m' : Machine π Unit}
    (h : Relation.ReflTransGen (SqlSession.Step Routine) m m') :
    Relation.ReflTransGen Step ⟨p, m :: out⟩ ⟨p, m' :: out⟩ := by
  induction h with
  | refl => exact .refl
  | @tail m₁ m₂ _ hstep ih => exact ih.tail (@Step.work _ ⟨p, m₁ :: out⟩ [] out m₁ m₂ rfl hstep)

/-! ### Giving a session back -/

/-- The calls that empty a slot: none if it is empty, and otherwise one
rollback, however it goes. -/
def RollsBack (slot : Option Handle) (trace : List Exchange) : Prop :=
  match slot with
  | none => trace = []
  | some handle => ∃ answer, trace = [⟨.finish handle .rollback, answer⟩]

/-- A session with nothing in it that can be seen, but for what is in its
slot. -/
def Session.emptied (s : Session) : Session := { s with cache := s.cache.clear, deadline := none }

/-- Without a transaction a session is given back at once. -/
theorem Pool.release_of_idle (p : Pool) {scope : Scope π} (hidle : scope.session.slot = none) :
    (p.release : Program π Pool) scope =
      .done (p.keep scope.session.emptied) { scope with session := scope.session.emptied } := by
  simp [release, Session.reset, Session.inTransaction, hidle, Program.modifySession,
    Session.emptied]

/-- Rolling back empties the slot before the call goes out. -/
theorem Session.rollbackTransaction_of_open {scope : Scope π} {handle : Handle}
    (hslot : scope.session.slot = some handle) :
    (rollbackTransaction : Action π Unit).run scope
      = .wait (scope.withSlot none) (.finish handle .rollback) fun answer later =>
          .done answer (match answer with
            | .ok () => later
            | .error e => later.logged [.rollbackFailed e]) := by
  simp only [rollbackTransaction, endTransaction, takeHandle, ExceptT.run_mk, Program.bind_apply,
    Program.atomically_apply, hslot, Flow.done_andThen, Program.call_apply, Flow.wait_andThen]
  refine congrArg (Flow.wait _ _) ?_
  funext answer later
  cases answer <;> simp

/-- An open transaction is rolled back before the session is kept. -/
theorem Pool.release_of_open (p : Pool) {scope : Scope π} {handle : Handle}
    (hslot : scope.session.slot = some handle) :
    (p.release : Program π Pool) scope
      = .wait ((scope.logged [.resetInTransaction]).withSlot none) (.finish handle .rollback)
          fun answer later =>
            let ended := match answer with
              | .ok () => later
              | .error e => later.logged [.rollbackFailed e]
            .done (p.keep later.session.emptied) { ended with session := later.session.emptied } := by
  -- That a transaction was open is logged first. The slot is as it was.
  have hopen : (scope.logged [.resetInTransaction]).session.slot = some handle := hslot
  simp only [release, Session.reset, Session.inTransaction, Program.bind_apply, Program.read_apply,
    hslot, Option.isSome_some, Flow.done_andThen, if_true, Program.emit_apply,
    Session.rollbackTransaction_of_open hopen, Flow.wait_andThen]
  refine congrArg (Flow.wait _ _) ?_
  funext answer later
  cases answer <;> rfl

/-- To give a session back rolls its transaction back and clears the rest,
but for the settings and the counter of stamps. -/
theorem Pool.release_alone (p : Pool) (scope : Scope π) {σ : Type} (env : Environment σ) (s : σ) :
    let run := ((p.release : Program π Pool) scope).alone env s
    RollsBack scope.session.slot run.trace ∧
      run.value = p.keep { scope.session.emptied with slot := none } := by
  cases hslot : scope.session.slot with
  | none =>
      rw [p.release_of_idle hslot]
      refine ⟨rfl, ?_⟩
      -- The slot was empty before.
      rw [← hslot]
      rfl
  | some handle =>
      rw [p.release_of_open hslot]
      exact ⟨⟨_, rfl⟩, rfl⟩

/-- What is kept of a session is like a new one. -/
theorem Machine.Regular.emptied {m : Machine π ρ} (h : m.Regular config) :
    ({ m.scope.session.emptied with slot := none } : Session).Alike config (.ofConfig config) := by
  -- The cache of a new session is what is left of it when it is cleared.
  have hcache : m.scope.session.cache.clear.Alike config.cacheCapacity
      (Session.ofConfig config).cache.clear :=
    IdentityCache.alike_clear h.scope.session.cache.capacity_eq rfl
  exact ⟨h.scope.session.config_left, rfl, rfl, rfl, hcache⟩

/-! ### What can be said of a pool at any time -/

/-- The idle sessions of a pool are as many as its settings allow, and
like new ones. Those that are out have its settings. -/
structure Lending.Sound (config : Config) (l : Lending π) : Prop where
  settings : l.pool.config = config
  room : l.pool.idleSessions ≤ config.maxIdleSessions
  idle : ∀ s ∈ l.pool.idle, s.Alike config (.ofConfig config)
  out : ∀ m ∈ l.out, m.Regular config

namespace Lending.Sound

variable {l l' : Lending π}

/-- A session that is handed out is like a new one. -/
theorem acquired (h : l.Sound config) : l.pool.acquire.1.Alike config (.ofConfig config) := by
  unfold Pool.acquire
  cases hidle : l.pool.idle with
  | nil => exact h.settings ▸ Session.alike_ofConfig _
  | cons s rest => exact h.idle s (hidle ▸ List.mem_cons_self)

/-- Handing a session out leaves the pool sound, whether it was idle or is
made new. -/
theorem acquire (h : l.Sound config) (now : Instant) (records : Records π) (events : List Event) :
    Sound config {
      pool := l.pool.acquire.2
      out := { scope := ⟨now, l.pool.acquire.1, records, events⟩ } :: l.out } := by
  have hnew : Machine.Regular config
      ({ scope := ⟨now, l.pool.acquire.1, records, events⟩ } : Machine π Unit) :=
    ⟨⟨rfl, rfl, rfl, h.acquired.refl_left⟩, fun t ht => nomatch ht⟩
  have hout := List.forall_mem_cons.mpr ⟨hnew, h.out⟩
  -- The pool has one session less, or none to give.
  have hroom := h.room
  unfold Pool.idleSessions at hroom
  unfold Pool.acquire at hout ⊢
  cases hidle : l.pool.idle with
  | nil =>
      rw [hidle] at hout
      exact ⟨h.settings, h.room, h.idle, hout⟩
  | cons s rest =>
      rw [hidle] at hout hroom
      have hrest : ∀ s' ∈ rest, s'.Alike config (.ofConfig config) :=
        fun s' hs' => h.idle s' (hidle ▸ List.mem_cons_of_mem s hs')
      exact ⟨h.settings, Nat.le_of_succ_le hroom, hrest, hout⟩

/-- A session that is like a new one may be kept, if there is room. -/
theorem keep (h : l.Sound config) {s : Session} (hs : s.Alike config (.ofConfig config))
    {out : List (Machine π Unit)} (hout : ∀ m ∈ out, m.Regular config) :
    Sound config { pool := l.pool.keep s, out } := by
  unfold Pool.keep
  split
  · rename_i hspace
    refine ⟨h.settings, ?_, List.forall_mem_cons.mpr ⟨hs, h.idle⟩, hout⟩
    exact h.settings ▸ hspace
  · exact ⟨h.settings, h.room, h.idle, hout⟩

section Out

variable {before after kept : List (Machine π Unit)} {m : Machine π Unit}

/-- A session that is out is like itself. -/
theorem regular (h : l.Sound config) (hl : l.out = before ++ m :: after) : m.Regular config :=
  h.out m (hl ▸ List.mem_append_right before List.mem_cons_self)

/-- Another session, or none, stands in the place of one that is out. -/
theorem replaced (h : l.Sound config) (hl : l.out = before ++ m :: after)
    (hkept : ∀ m ∈ kept, m.Regular config) : ∀ m ∈ before ++ (kept ++ after), m.Regular config := by
  have hout := h.out
  rw [hl, List.forall_mem_append, List.forall_mem_cons] at hout
  obtain ⟨hbefore, -, hafter⟩ := hout
  exact List.forall_mem_append.mpr ⟨hbefore, List.forall_mem_append.mpr ⟨hkept, hafter⟩⟩

end Out

/-- Whatever happens next, a sound pool stays sound. -/
theorem step (h : l.Sound config) (hstep : Step l l') : l'.Sound config := by
  cases hstep with
  | acquire now records events => exact h.acquire now records events
  | work hl hwork =>
      exact ⟨h.settings, h.room, h.idle, h.replaced hl (List.forall_mem_singleton.mpr
        ((h.regular hl).step hwork))⟩
  | around now records events hl =>
      exact ⟨h.settings, h.room, h.idle, h.replaced hl (List.forall_mem_singleton.mpr
        ((h.regular hl).inWorld now records events))⟩
  | drop hl =>
      exact ⟨h.settings, h.room, h.idle, h.replaced hl (List.forall_mem_nil _)⟩
  | release env s hl =>
      rw [(l.pool.release_alone _ env s).2]
      -- What arrives in the pool was emptied, so it is like a new session again.
      exact h.keep (h.regular hl).emptied (h.replaced hl (List.forall_mem_nil _))

/-- The pool stays sound, whatever happens to its sessions. -/
theorem reach (hreach : Relation.ReflTransGen Step { pool := .ofConfig config } l) :
    l.Sound config := by
  induction hreach with
  | refl => exact ⟨rfl, Nat.zero_le _, fun _ h => (nomatch h), fun _ h => (nomatch h)⟩
  | tail _ hstep ih => exact ih.step hstep

end Lending.Sound

/-- A recycled session cannot be told from a new one. Whatever was done
with the sessions of a pool, it never keeps more of them than its settings
allow, and a transaction that is left open on one of them is rolled back
exactly once when it is given back, even if that fails. What a caller then
does with a session that is handed out has the result it would have with a
new session, by the same calls, given the same answers: it ends at the
same instant with the same records, the same events, the same transaction
and deadline, and the same keys in the cache for the same records. -/
theorem Pool.recycled_like_new {l : Lending π}
    (h : Relation.ReflTransGen Lending.Step { pool := .ofConfig config } l) :
    l.pool.idleSessions ≤ config.maxIdleSessions ∧
    (∀ m ∈ l.out, ∀ {σ : Type} (env : Environment σ) (s : σ),
      RollsBack m.scope.session.slot
        (((l.pool.release : Program π Pool) m.scope).alone env s).trace) ∧
    ∀ {α σ : Type} {program : Program π α}, Routine program →
      ∀ (scope : Scope π) (env : Environment σ) (s : σ),
        let run := (program { scope with session := l.pool.acquire.1 }).alone env s
        let new := (program { scope with session := .ofConfig config }).alone env s
        run.value = new.value ∧ run.trace = new.trace ∧
        run.scope.now = new.scope.now ∧ run.scope.records = new.scope.records ∧
        run.scope.events = new.scope.events ∧
        run.scope.session.slot = new.scope.session.slot ∧
        run.scope.session.deadline = new.scope.session.deadline ∧
        ∀ key id, run.scope.session.cache.Holds key id ↔ new.scope.session.cache.Holds key id := by
  have hsound := Lending.Sound.reach h
  refine ⟨hsound.room, fun m _ σ env s => (l.pool.release_alone m.scope env s).1, ?_⟩
  intro α σ program hprogram scope env s run new
  -- The course is the same, whatever stands in the session's past.
  have hstart : ({ scope with session := l.pool.acquire.1 } : Scope π).Alike config
      { scope with session := .ofConfig config } := ⟨rfl, rfl, rfl, hsound.acquired⟩
  have hcourse := hprogram.blind config _ _ hstart
  obtain ⟨hvalue, htrace, hend⟩ := hcourse.alone env s
  exact ⟨hvalue, htrace, hend.now, hend.records, hend.events, hend.session.slot,
    hend.session.deadline, fun _ _ => hend.session.cache.holds_iff⟩

/-- A session with room for one record has read two users and opened a
transaction. When it is given back the rollback fails. It is kept with a
counter that stands at two, and to read one more user comes to the same
on it and on a new session. -/
theorem Pool.recycled_like_new_used :
    let config : Config := { cacheCapacity := 1, maxIdleSessions := 1 }
    let row : Int64 → Row := fun id => ⟨[("id", .int id), ("name", .text "ann")]⟩
    let env : Environment Unit := { reply := fun s t call =>
      match call with
      | .begin => ((.ok ⟨3⟩, t), s)
      | .finish .. => ((.error (.driver "gone"), t), s)
      | .query .. => ((some (.ok [row 7]), t), s)
      | .exec .. => ((none, t), s)
      | .sleep _ => (((), t), s) }
    let program : Program Sample.Payload (Except Error (Record Sample.User)) :=
      ((Operation.selectOneWithSql "q" []).run Sample.user).run
    let scope : Scope Sample.Payload := ⟨.start, .ofConfig config, .empty, []⟩
    ∃ (l : Lending Sample.Payload) (m : Machine Sample.Payload Unit),
      Relation.ReflTransGen Lending.Step { pool := .ofConfig config } l ∧ m ∈ l.out ∧
      let back := ((l.pool.release : Program Sample.Payload Pool) m.scope).alone env ()
      RollsBack (some ⟨3⟩) back.trace ∧ back.value.idleSessions = 1 ∧
      let recycled := back.value.acquire.1
      recycled.cache.generation = 2 ∧
      let run := (program { scope with session := recycled }).alone env ()
      let new := (program scope).alone env ()
      run.value = .ok ⟨0⟩ ∧ run.value = new.value ∧ run.trace = new.trace ∧
      run.scope.session.cache.keys = ["users`u7"] ∧
      ∀ key id, run.scope.session.cache.Holds key id ↔ new.scope.session.cache.Holds key id := by
  intro config row env program scope
  let work : Program Sample.Payload Unit := do
    let _ ← ((Operation.selectManyWithSql "q" []).run Sample.user).run
    let _ ← Session.beginTransaction.run
    return ()
  have hwork : Routine work := .bind (.operation _ _) fun _ => .bind .begin fun _ => .pure _
  let idle : Machine Sample.Payload Unit := { scope }
  obtain ⟨m, hworked, hslot, hconfig, hcapacity, hgeneration⟩ : ∃ m : Machine Sample.Payload Unit,
      Relation.ReflTransGen (Step Routine) idle m ∧ m.scope.session.slot = some ⟨3⟩ ∧
        m.scope.session.config = config ∧ m.scope.session.cache.capacity = 1 ∧
        m.scope.session.cache.generation = 2 := by
    have hreading := Relation.ReflTransGen.single (r := Step Routine) (Step.start (m := idle) hwork)
    have hopening := hreading.tail (@Step.answer _ _ _ _ [] [] ⟨0, .query .., _⟩
      (some (.ok [row 1, row 2])) rfl (fun _ h => nomatch h))
    have hopen := hopening.tail (@Step.answer _ _ _ _ [] [] ⟨0, .begin, _⟩ (.ok ⟨3⟩) rfl
      (by decide +kernel))
    exact ⟨_, hopen, by decide +kernel, by decide +kernel, by decide +kernel, by decide +kernel⟩
  -- The session is handed out, worked on and given back.
  have hacquire : Lending.Step { pool := .ofConfig config } ⟨.ofConfig config, [idle]⟩ :=
    .acquire .start .empty []
  have hout := Relation.ReflTransGen.head hacquire (Lending.works hworked)
  have hback := hout.tail (@Lending.Step.release _ _ [] [] _ _ env () rfl)
  have hvalue : (((Pool.ofConfig config).release : Program Sample.Payload Pool) m.scope |>.alone
      env ()).value = ⟨config, [⟨config, none, ⟨1, [], 2⟩, none⟩]⟩ := by
    rw [(Pool.release_alone _ m.scope env ()).2, Session.emptied, IdentityCache.clear, hconfig,
      hcapacity, hgeneration]
    rfl
  obtain ⟨-, hrollsBack, -⟩ := Pool.recycled_like_new hout
  obtain ⟨-, -, hlike⟩ := Pool.recycled_like_new hback
  obtain ⟨hresult, htrace, -, -, -, -, -, hcache⟩ :=
    hlike (.operation Sample.user (.selectOneWithSql "q" [])) scope env ()
  refine ⟨_, m, hout, List.mem_singleton_self m, hslot ▸ hrollsBack m (List.mem_singleton_self m)
    env (), ?_, ?_, ?_, hresult, htrace, ?_, hcache⟩
  all_goals
    rw [hvalue]
    decide +kernel

end SqlSession
