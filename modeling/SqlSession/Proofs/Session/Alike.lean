import SqlSession.Proofs.IdentityCache.Recency
import SqlSession.Proofs.Model.Assembly
import SqlSession.Proofs.Session.Courses

/-!
# `SqlSession.Proofs.Session.Alike`: what nobody can see of a session

Two caches are alike if they hold the same items in the same order of
last use. Their stamps may differ, and so may the order in which their
entries stand. Two sessions are alike if their caches are, and all the
rest is the same.

A program is `Blind` if it takes the same course on alike scopes: the
same calls, the same values, and alike scopes wherever it waits. What
happens on a session while it waits may be anything, as long as it is
alike. The operations of a session and of its models are blind, and so
is what is put together from them.
-/

set_option autoImplicit false

namespace SqlSession

variable {π μ α β : Type} {config : Config}

/-! ### Alike caches -/

namespace IdentityCache

/-- Caches of one capacity that hold the same items in the same order of
last use. -/
def Alike (capacity : Nat) (c c' : IdentityCache α) : Prop :=
  ∃ l : Lru α, l.capacity = capacity ∧ c.Refines l ∧ c'.Refines l

namespace Alike

variable {capacity : Nat} {c c' : IdentityCache α}

/-- Neither of two alike caches is the original. -/
theorem symm (h : c.Alike capacity c') : c'.Alike capacity c := by
  obtain ⟨l, hl, hc, hc'⟩ := h
  exact ⟨l, hl, hc', hc⟩

/-- Alike caches hold the same values under the same keys. -/
theorem holds_iff (h : c.Alike capacity c') {key : String} {value : α} :
    c.Holds key value ↔ c'.Holds key value := by
  obtain ⟨l, -, hc, hc'⟩ := h
  exact hc.ranks.holds_iff.trans hc'.ranks.holds_iff.symm

/-- Alike caches are equally full. -/
theorem size_eq (h : c.Alike capacity c') : c.size = c'.size := by
  obtain ⟨l, -, hc, hc'⟩ := h
  exact hc.ranks.length_eq.trans hc'.ranks.length_eq.symm

/-- A look for a key gives the same on alike caches, and moves the key to
the same place in both. -/
theorem get (h : c.Alike capacity c') (key : String) :
    (c.get key).1 = (c'.get key).1 ∧ (c.get key).2.Alike capacity (c'.get key).2 := by
  obtain ⟨l, hl, hc, hc'⟩ := h
  refine ⟨(hc.get key).1.trans (hc'.get key).1.symm, (l.get key).2, ?_, (hc.get key).2,
    (hc'.get key).2⟩
  exact (l.capacity_ask (.get key) ()).trans hl

/-- To store a value keeps caches alike: whether it is put in the place of
another one, and what goes for it, follows from the common items. -/
theorem put (h : c.Alike capacity c') (key : String) (value : α) :
    (c.put key value).Alike capacity (c'.put key value) := by
  obtain ⟨l, hl, hc, hc'⟩ := h
  exact ⟨l.store key value, hl, hc.put key value, hc'.put key value⟩

/-- To forget a key keeps caches alike. -/
theorem remove (h : c.Alike capacity c') (key : String) :
    (c.remove key).2.Alike capacity (c'.remove key).2 := by
  obtain ⟨l, hl, hc, hc'⟩ := h
  exact ⟨l.erase key, hl, (hc.remove key).2, (hc'.remove key).2⟩

/-- Whether a key is found does not depend on stamps, so alike caches give
the same value and stay alike. -/
theorem getOrInsertWith_pure (h : c.Alike capacity c') (key : String) (value : α) :
    let found := (c.getOrInsertWith key (Pure.pure value) : Id (α × IdentityCache α))
    let found' := (c'.getOrInsertWith key (Pure.pure value) : Id (α × IdentityCache α))
    found.1 = found'.1 ∧ found.2.Alike capacity found'.2 := by
  -- A value at hand is one that is made without any effect.
  let make : Unit → α × Unit := fun s => (value, s)
  have hpure : ∀ c : IdentityCache α,
      (c.getOrInsertWith key (Pure.pure value) : Id (α × IdentityCache α)) =
        ((c.getOrInsertWith key make : StateM Unit (α × IdentityCache α)).run ()).1 := by
    intro c
    rw [IdentityCache.getOrInsertWith_pure, getOrInsertWith]
    split
    · rfl
    · cases c.find? key <;> rfl
  obtain ⟨l, hl, hc, hc'⟩ := h
  obtain ⟨hvalue, -, hrefines⟩ := hc.getOrInsertWith key make ()
  obtain ⟨hvalue', -, hrefines'⟩ := hc'.getOrInsertWith key make ()
  dsimp only
  rw [hpure, hpure]
  refine ⟨hvalue.trans hvalue'.symm, _, ?_, hrefines, hrefines'⟩
  exact (l.capacity_ask (.getOrInsertWith key make) ()).trans hl

end Alike

/-- What a cache was does not matter once it is cleared. -/
theorem alike_clear {c c' : IdentityCache α} {capacity : Nat} (h : c.capacity = capacity)
    (h' : c'.capacity = capacity) : c.clear.Alike capacity c'.clear :=
  ⟨.empty capacity, rfl, refines_clear h, refines_clear h'⟩

/-- Alike caches have the room that they are said to have. -/
theorem Alike.capacity_eq {c c' : IdentityCache α} {capacity : Nat} (h : c.Alike capacity c') :
    c.capacity = capacity := by
  obtain ⟨l, hl, hc, -⟩ := h
  exact hc.capacity.trans hl

/-- Cleared caches are alike, and all the more if they were alike before. -/
theorem Alike.clear {c c' : IdentityCache α} {capacity : Nat} (h : c.Alike capacity c') :
    c.clear.Alike capacity c'.clear :=
  alike_clear h.capacity_eq h.symm.capacity_eq

end IdentityCache

/-! ### Alike sessions and scopes -/

/-- Sessions with the same settings that differ in nothing that can be
seen. -/
structure Session.Alike (config : Config) (s s' : Session) : Prop where
  config_left : s.config = config
  config_right : s'.config = config
  slot : s.slot = s'.slot
  deadline : s.deadline = s'.deadline
  cache : s.cache.Alike config.cacheCapacity s'.cache

/-- Scopes that differ in nothing but alike sessions. -/
structure Scope.Alike (config : Config) (scope scope' : Scope π) : Prop where
  now : scope.now = scope'.now
  records : scope.records = scope'.records
  events : scope.events = scope'.events
  session : scope.session.Alike config scope'.session

/-- Memories that differ in nothing but alike caches. -/
structure Memory.Alike (capacity : Nat) (m m' : Memory π) : Prop where
  records : m.records = m'.records
  cache : m.cache.Alike capacity m'.cache

/-- A new session is alike to itself: its cache holds no items yet. -/
theorem Session.alike_ofConfig (config : Config) :
    (ofConfig config).Alike config (ofConfig config) :=
  ⟨rfl, rfl, rfl, rfl, _, rfl, .empty _, .empty _⟩

namespace Session.Alike

variable {s s' : Session}

/-- Two alike sessions have a common list of items, so each is alike to
itself. A session whose cache has no list of items at all is not. -/
theorem refl_left (h : s.Alike config s') : s.Alike config s := by
  obtain ⟨l, hl, hc, -⟩ := h.cache
  exact ⟨h.config_left, h.config_left, rfl, rfl, l, hl, hc, hc⟩

/-- Whether a transaction is open can be seen, so it is the same. -/
theorem inTransaction (h : s.Alike config s') : s.inTransaction = s'.inTransaction :=
  congrArg Option.isSome h.slot

/-- To set one deadline on both keeps sessions alike. -/
theorem withDeadline (h : s.Alike config s') (deadline : Option Instant) :
    ({ s with deadline } : Session).Alike config { s' with deadline } :=
  ⟨h.config_left, h.config_right, h.slot, rfl, h.cache⟩

/-- To forget all records on both keeps sessions alike. -/
theorem clear (h : s.Alike config s') :
    ({ s with cache := s.cache.clear } : Session).Alike config
      { s' with cache := s'.cache.clear } :=
  ⟨h.config_left, h.config_right, h.slot, h.deadline, h.cache.clear⟩

end Session.Alike

namespace Scope.Alike

variable {scope scope' : Scope π}

/-- What alike scopes have in their memories is alike. -/
theorem memory (h : scope.Alike config scope') :
    scope.memory.Alike config.cacheCapacity scope'.memory :=
  ⟨h.records, h.session.cache⟩

/-- Alike memories in the place of those of alike scopes. -/
theorem withMemory (h : scope.Alike config scope') {m m' : Memory π}
    (hm : m.Alike config.cacheCapacity m') :
    (scope.withMemory m).Alike config (scope'.withMemory m') :=
  ⟨h.now, hm.records, h.events, h.session.config_left, h.session.config_right, h.session.slot,
    h.session.deadline, hm.cache⟩

/-- The same events are logged on both sides. -/
theorem logged (h : scope.Alike config scope') (events : List Event) :
    (scope.logged events).Alike config (scope'.logged events) :=
  ⟨h.now, h.records, congrArg (· ++ events) h.events, h.session⟩

/-- The same transaction, or none, is put into both slots. -/
theorem withSlot (h : scope.Alike config scope') (slot : Option Handle) :
    (scope.withSlot slot).Alike config (scope'.withSlot slot) :=
  ⟨h.now, h.records, h.events, h.session.config_left, h.session.config_right, rfl,
    h.session.deadline, h.session.cache⟩

/-- The clock is set to the same time on both sides. -/
theorem atTime (h : scope.Alike config scope') (now : Instant) :
    ({ scope with now } : Scope π).Alike config { scope' with now } :=
  ⟨rfl, h.records, h.events, h.session⟩

end Scope.Alike

/-! ### The same course -/

/-- Courses with the same calls and values on alike scopes, whatever the
answers are, and whatever alike scopes they arrive in. -/
inductive Flow.Alike (config : Config) : Flow π α → Flow π α → Prop
  | done {value : α} {scope scope' : Scope π} : scope.Alike config scope' →
      Alike config (.done value scope) (.done value scope')
  | wait {scope scope' : Scope π} {call : Call} {resume resume' : call.Answer → Scope π → Flow π α} :
      scope.Alike config scope' →
      (∀ answer later later', later.Alike config later' →
        Alike config (resume answer later) (resume' answer later')) →
      Alike config (.wait scope call resume) (.wait scope' call resume')

/-- Alike courses end with one value in alike scopes, and go on alike if
what follows does. -/
theorem Flow.Alike.andThen {flow flow' : Flow π α} {next next' : α → Scope π → Flow π β}
    (h : flow.Alike config flow')
    (hnext : ∀ value scope scope', scope.Alike config scope' →
      (next value scope).Alike config (next' value scope')) :
    (flow.andThen next).Alike config (flow'.andThen next') := by
  induction h with
  | done hscope => exact hnext _ _ _ hscope
  | wait hscope _ ih => exact .wait hscope ih

/-- A program that takes the same course on alike scopes. -/
def Program.Blind (program : Program π α) : Prop :=
  ∀ (config : Config) (scope scope' : Scope π), scope.Alike config scope' →
    (program scope).Alike config (program scope')

namespace Program.Blind

/-- A value takes no course at all. -/
theorem pure (value : α) : (Pure.pure value : Program π α).Blind :=
  fun _ _ _ h => .done h

/-- Blind programs one after the other: the second one starts in alike
scopes, with one value. -/
theorem bind {program : Program π α} {next : α → Program π β} (h : program.Blind)
    (hnext : ∀ value, (next value).Blind) : (program >>= next).Blind :=
  fun config scope scope' hscope =>
    (h config scope scope' hscope).andThen fun value later later' => hnext value config later later'

/-- An error ends a sequence of actions. -/
theorem andThen {action : Action π α} {next : α → Action π β} (h : action.run.Blind)
    (hnext : ∀ value, (next value).run.Blind) : (action >>= next).run.Blind := by
  refine h.bind fun result => ?_
  cases result with
  | ok value => exact hnext value
  | error e => exact .pure _

/-- A result that is there already is the same everywhere. -/
theorem ofExcept (result : Except Error α) : (liftM result : Action π α).run.Blind := .pure result

/-- The same action for one value after another. -/
theorem mapM {f : α → Action π β} (h : ∀ value, (f value).run.Blind) (values : List α) :
    (values.mapM f).run.Blind := by
  induction values with
  | nil => exact .pure _
  | cons value values ih =>
      rw [List.mapM_cons]
      exact (h value).andThen fun _ => ih.andThen fun _ => .pure _

/-- One piece of work is blind if it gives one value and leaves alike
scopes alike. -/
theorem atomically {act : Scope π → α × Scope π}
    (h : ∀ (config : Config) (scope scope' : Scope π), scope.Alike config scope' →
      (act scope).1 = (act scope').1 ∧ (act scope).2.Alike config (act scope').2) :
    (Program.atomically act).Blind := by
  intro config scope scope' hscope
  obtain ⟨hvalue, hlater⟩ := h config scope scope' hscope
  rw [atomically_apply, atomically_apply, hvalue]
  exact .done hlater

/-- A program may look at what alike scopes have in common. -/
theorem read {view : Scope π → α}
    (h : ∀ (config : Config) (scope scope' : Scope π), scope.Alike config scope' →
      view scope = view scope') : (Program.read view).Blind :=
  atomically fun config scope scope' hscope => ⟨h config scope scope' hscope, hscope⟩

/-- A change to the session is blind if it keeps sessions alike. -/
theorem modifySession {change : Session → Session}
    (h : ∀ (config : Config) (s s' : Session), s.Alike config s' →
      (change s).Alike config (change s')) :
    (Program.modifySession change : Program π Unit).Blind :=
  atomically fun config _ _ hscope =>
    ⟨rfl, hscope.now, hscope.records, hscope.events, h config _ _ hscope.session⟩

/-- An event is logged on both sides. -/
theorem emit (event : Event) : (Program.emit event : Program π Unit).Blind :=
  atomically fun _ _ _ h => ⟨rfl, h.logged [event]⟩

/-- A call waits in alike scopes, and gives the answer that both get. -/
theorem call (c : Call) : (Program.call c : Program π c.Answer).Blind :=
  fun _ _ _ h => .wait h fun _ _ _ => .done

/-- Work on the records whose result depends on no stamps. -/
theorem change {act : Memory π → α × Memory π}
    (h : ∀ (capacity : Nat) (m m' : Memory π), m.Alike capacity m' →
      (act m).1 = (act m').1 ∧ (act m).2.Alike capacity (act m').2) :
    (Memory.change act).Blind :=
  atomically fun _ scope scope' hscope =>
    have hact := h _ scope.memory scope'.memory hscope.memory
    ⟨hact.1, hscope.withMemory hact.2⟩

end Program.Blind

/-! ### Operations of a session -/

namespace Session

open Program.Blind

/-- The slot is the same in alike sessions. -/
theorem blind_inTransaction :
    (Program.read (·.session.inTransaction) : Program π Bool).Blind :=
  read fun _ _ _ h => h.session.inTransaction

section Statements

variable {issued issued' : Scope π}

/-- What a statement comes to depends on nothing that alike scopes differ
in. -/
theorem outcome_eq (h : issued.Alike config issued') (answer : Option (Except Error α)) :
    outcome issued answer = outcome issued' answer := by
  unfold outcome
  rw [h.session.deadline, h.now]

/-- What is logged about a statement depends on the settings, the slot and
the clock. -/
theorem observed_eq (h : issued.Alike config issued') (kind : StatementKind) (sql : String)
    (params : List Value) (result : Except Error α) (now : Instant) :
    observed kind sql params issued result now = observed kind sql params issued' result now := by
  unfold observed
  rw [h.session.config_left, h.session.config_right, h.session.inTransaction, h.now]

/-- What follows the answer to a statement. -/
theorem alike_answered {later later' : Scope π} (h : issued.Alike config issued')
    (hlater : later.Alike config later') (kind : StatementKind) (sql : String)
    (params : List Value) (answer : Option (Except Error α)) :
    let result := outcome issued answer
    let result' := outcome issued' answer
    (Flow.done result (later.logged (observed kind sql params issued result later.now))).Alike config
      (.done result' (later'.logged (observed kind sql params issued' result' later'.now))) := by
  dsimp only
  rw [outcome_eq h, observed_eq h, hlater.now]
  exact .done (hlater.logged _)

/-- A statement that reads rows is issued to one target with one deadline,
and its answer is logged alike. -/
theorem blind_query (sql : String) (params : List Value) :
    (query sql params : Action π (List Row)).run.Blind := by
  intro config scope scope' h
  rw [query_eq, query_eq]
  -- Both go to the same slot, under the same deadline.
  obtain ⟨now, ⟨settings, slot, cache, deadline⟩, records, events⟩ := scope
  obtain ⟨now', ⟨settings', slot', cache', deadline'⟩, records', events'⟩ := scope'
  obtain rfl : slot = slot' := h.session.slot
  obtain rfl : deadline = deadline' := h.session.deadline
  exact .wait h fun answer later later' hlater => alike_answered h hlater .query sql params answer

/-- A statement that changes rows does the same. -/
theorem blind_exec (sql : String) (params : List Value) :
    (exec sql params : Action π ExecResult).run.Blind := by
  intro config scope scope' h
  rw [exec_eq, exec_eq]
  obtain ⟨now, ⟨settings, slot, cache, deadline⟩, records, events⟩ := scope
  obtain ⟨now', ⟨settings', slot', cache', deadline'⟩, records', events'⟩ := scope'
  obtain rfl : slot = slot' := h.session.slot
  obtain rfl : deadline = deadline' := h.session.deadline
  exact .wait h fun answer later later' hlater => alike_answered h hlater .exec sql params answer

end Statements

/-- Rows that are fetched are read one after another, without a look at
the session. -/
theorem blind_fetch (read : Row → Except Error α) (stmt : Statement) :
    (fetch read stmt : Action π (List α)).run.Blind :=
  (ofExcept _).andThen fun built => (blind_query built.sql built.params).andThen
    (mapM fun row => ofExcept (read row))

/-- A statement is built without a look at the session. -/
theorem blind_execute (stmt : Statement) : (execute stmt : Action π ExecResult).run.Blind :=
  (ofExcept _).andThen fun built => blind_exec built.sql built.params

/-- A handle is taken or left by what is in the slot. -/
theorem blind_offer (handle : Handle) : (offer handle : Program π Bool).Blind := by
  refine atomically fun config scope scope' h => ?_
  rw [h.session.inTransaction]
  split
  · exact ⟨rfl, h⟩
  · exact ⟨rfl, h.withSlot (some handle)⟩

/-- The same handle is taken out of both slots. -/
theorem blind_takeHandle : (takeHandle : Program π (Option Handle)).Blind :=
  atomically fun _ _ _ h => ⟨h.session.slot, h.withSlot none⟩

/-- To open a transaction looks at the slot twice, and at nothing else. -/
theorem blind_openTransaction : (openTransaction : Action π Stake).run.Blind := by
  -- One case for each way in which it can go on, decided by what is alike.
  refine bind blind_inTransaction fun open? => ?_
  cases open? with
  | true => exact bind (emit _) fun _ => pure _
  | false =>
      refine bind (call .begin) fun answer => ?_
      cases answer with
      | error e => exact bind (emit _) fun _ => pure _
      | ok handle =>
          refine bind (blind_offer handle) fun taken => ?_
          cases taken with
          | true => exact pure _
          | false =>
              refine bind (emit _) fun _ => bind (call (.finish handle .rollback)) fun answer => ?_
              cases answer with
              | error e => exact bind (emit _) fun _ => pure _
              | ok => exact pure _

/-- To end a transaction takes the handle that both have. -/
theorem blind_endTransaction (ending : Ending) : (endTransaction ending : Action π Unit).run.Blind := by
  refine bind blind_takeHandle fun handle? => ?_
  cases handle? with
  | none => exact pure _
  | some handle =>
      refine bind (call (.finish handle ending)) fun answer => ?_
      cases answer with
      | error e => exact bind (emit _) fun _ => pure _
      | ok => exact pure _

/-- A transaction around a blind body is blind: who owns it follows from
the slot, and how it ends from the result of the body. -/
theorem blind_runInTransaction {body : Action π α} (h : body.run.Blind) :
    (runInTransaction body).run.Blind := by
  have henter : (enterTransaction : Action π Stake).run.Blind := by
    refine bind blind_inTransaction fun open? => ?_
    cases open? with
    | true => exact pure _
    | false => exact blind_openTransaction
  refine bind henter fun entered => ?_
  cases entered with
  | error e => exact pure _
  | ok stake =>
      refine bind h fun result => ?_
      cases stake with
      | guest => exact pure _
      | owner =>
          cases result with
          | ok value =>
              refine bind (blind_endTransaction .commit) fun ended => ?_
              cases ended <;> exact pure _
          | error e => exact bind (blind_endTransaction .rollback) fun _ => pure _

/-- To forget all records keeps scopes alike. -/
theorem blind_clearCache : (clearCache : Program π Unit).Blind :=
  modifySession fun _ _ _ h => h.clear

/-- To set a deadline keeps scopes alike. -/
theorem blind_setDeadline (deadline : Instant) : (setDeadline deadline : Program π Unit).Blind :=
  modifySession fun _ _ _ h => h.withDeadline (some deadline)

/-- A timeout counts from a clock that shows the same on both sides. -/
theorem blind_setTimeout (span : Duration) : (setTimeout span : Program π Unit).Blind :=
  (read fun _ _ _ h => h.now).bind fun now => blind_setDeadline (now.after span)

/-- To drop the deadline keeps scopes alike. -/
theorem blind_clearDeadline : (clearDeadline : Program π Unit).Blind :=
  modifySession fun _ _ _ h => h.withDeadline none

/-- To reset a session rolls the open transaction back and clears the
rest, on both sides. -/
theorem blind_reset : (reset : Program π Unit).Blind := by
  have hclear : (Program.modifySession fun s =>
      { s with cache := s.cache.clear, deadline := none } : Program π Unit).Blind :=
    modifySession fun _ _ _ h => h.clear.withDeadline none
  refine bind blind_inTransaction fun open? => ?_
  cases open? with
  | true => exact bind (emit _) fun _ => bind (blind_endTransaction .rollback) fun _ => hclear
  | false => exact hclear

end Session

/-! ### Operations of a model -/

namespace Memory.Alike

variable {capacity : Nat} {m m' : Memory π}

/-- The data of a record is a payload, and payloads are not in the cache. -/
theorem data? (h : m.Alike capacity m') (model : Model π μ) (record : Record μ) :
    model.data? m record = model.data? m' record := by
  unfold Model.data?
  rw [h.records]

/-- The same payload is written on both sides. -/
theorem write (h : m.Alike capacity m') (id : RecordId) (payload : π) :
    ({ m with records := m.records.write id payload } : Memory π).Alike capacity
      { m' with records := m'.records.write id payload } :=
  ⟨congrArg (·.write id payload) h.records, h.cache⟩

/-- A record is cached under one key on both sides. -/
theorem save (h : m.Alike capacity m') (key : String) (record : Record μ) :
    (Model.save key record m).Alike capacity (Model.save key record m') :=
  ⟨h.records, h.cache.put key record.id⟩

/-- A record is forgotten on both sides. -/
theorem forget (h : m.Alike capacity m') (key : String) :
    (Model.forget key m).2.Alike capacity (Model.forget key m').2 :=
  ⟨h.records, h.cache.remove key⟩

/-- A look at the cache finds one record on both sides, or none on both. -/
theorem cached? (h : m.Alike capacity m') (model : Model π μ) (key : String) :
    (model.cached? key m).1 = (model.cached? key m').1 ∧
      (model.cached? key m).2.Alike capacity (model.cached? key m').2 := by
  obtain ⟨hfound, hcache⟩ := h.cache.get key
  unfold Model.cached?
  generalize m.cache.get key = got at *
  generalize m'.cache.get key = got' at *
  obtain ⟨found, cache⟩ := got
  obtain ⟨found', cache'⟩ := got'
  obtain rfl : found = found' := hfound
  have hm : ({ m with cache } : Memory π).Alike capacity { m' with cache := cache' } :=
    ⟨h.records, hcache⟩
  cases found with
  | none => exact ⟨rfl, hm⟩
  | some id =>
      dsimp only
      rw [hm.data?]
      exact ⟨rfl, hm⟩

/-- Data is interned in one record: the one that both caches have, or a
new one whose number is the same because the payloads are. -/
theorem internAt (h : m.Alike capacity m') (model : Model π μ) (key : String) (data : μ) :
    (model.internAt key data m).1 = (model.internAt key data m').1 ∧
      (model.internAt key data m).2.Alike capacity (model.internAt key data m').2 := by
  obtain ⟨cache, records⟩ := m
  obtain ⟨cache', records'⟩ := m'
  obtain rfl : records = records' := h.records
  obtain ⟨hid, hcache⟩ := h.cache.getOrInsertWith_pure key records.next
  unfold Model.internAt
  dsimp only at hid hcache ⊢
  generalize (cache.getOrInsertWith key (pure records.next) : Id _) = found at *
  generalize (cache'.getOrInsertWith key (pure records.next) : Id _) = found' at *
  obtain ⟨id, cached⟩ := found
  obtain ⟨id', cached'⟩ := found'
  -- One record on both sides, so the same is written to the same place.
  obtain rfl : id = id' := hid
  have hm : ∀ records : Records π, (⟨cached, records⟩ : Memory π).Alike capacity ⟨cached', records⟩ :=
    fun _ => ⟨rfl, hcache⟩
  dsimp only
  rw [(hm records).data?]
  split
  · exact ⟨rfl, hm _⟩
  · split
    · exact ⟨rfl, hm _⟩
    · exact ⟨rfl, (hm _).save key _⟩

/-- A row is read without a look at the memory, and its data is interned. -/
theorem internRow (h : m.Alike capacity m') (model : Model π μ) (row : Row) :
    (model.internRow row m).1 = (model.internRow row m').1 ∧
      (model.internRow row m).2.Alike capacity (model.internRow row m').2 := by
  unfold Model.internRow Model.intern
  cases model.fromRow row with
  | error e => exact ⟨rfl, h⟩
  | ok data =>
      dsimp only
      cases model.key (model.indexValues data) with
      | error e => exact ⟨rfl, h⟩
      | ok key =>
          obtain ⟨hrecord, hm⟩ := h.internAt model key data
          exact ⟨congrArg Except.ok hrecord, hm⟩

/-- Rows are interned one after another, up to the same row that fails. -/
theorem internRows (h : m.Alike capacity m') (model : Model π μ) (rows : List Row) :
    (model.internRows rows m).1 = (model.internRows rows m').1 ∧
      (model.internRows rows m).2.Alike capacity (model.internRows rows m').2 := by
  induction rows generalizing m m' with
  | nil => exact ⟨rfl, h⟩
  | cons row rows ih =>
      obtain ⟨hrow, hm⟩ := h.internRow model row
      unfold Model.internRows
      generalize model.internRow row m = interned at *
      generalize model.internRow row m' = interned' at *
      obtain ⟨result, later⟩ := interned
      obtain ⟨result', later'⟩ := interned'
      obtain rfl : result = result' := hrow
      cases result with
      | error e => exact ⟨rfl, hm⟩
      | ok record =>
          obtain ⟨hrecords, hlast⟩ := ih hm
          exact ⟨congrArg (Except.map (record :: ·)) hrecords, hlast⟩

/-- Written columns are merged into the same data, and the record is
cached under the key that it has on both sides. -/
theorem mergeAndSave (h : m.Alike capacity m') (model : Model π μ) (record : Record μ)
    (written : Row) :
    (model.mergeAndSave record written m).1 = (model.mergeAndSave record written m').1 ∧
      (model.mergeAndSave record written m).2.Alike capacity
        (model.mergeAndSave record written m').2 := by
  unfold Model.mergeAndSave Model.merge
  -- What is merged comes from the records, which are the same.
  rw [h.data? model record]
  cases model.data? m' record with
  | none => exact ⟨rfl, h⟩
  | some data =>
      dsimp only
      cases (model.mergeRow written).run data with
      | error e data => exact ⟨rfl, h.write record.id (model.wrap data)⟩
      | ok _ data =>
          have hm := h.write record.id (model.wrap data)
          dsimp only
          cases model.key (model.indexValues data) with
          | error e => exact ⟨rfl, hm⟩
          -- Both save under the key of the merged data, which is computed from the payload alone.
          | ok key => exact ⟨rfl, hm.save key record⟩

end Memory.Alike

/-- What operations of a model are made of is blind. -/
theorem Assembled.blind {program : Program π α} (h : Assembled program) : program.Blind := by
  induction h with
  | pure value => exact .pure value
  | bind _ _ ih ihnext => exact .bind ih ihnext
  | query sql params => exact Session.blind_query sql params
  | exec sql params => exact Session.blind_exec sql params
  | runInTransaction _ ih => exact Session.blind_runInTransaction ih
  | inTransaction => exact Session.blind_inTransaction
  | data model record => exact .read fun _ _ _ hscope => hscope.memory.data? model record
  | lookUp model key => exact .change fun _ _ _ hm => hm.cached? model key
  | internRow model row => exact .change fun _ _ _ hm => hm.internRow model row
  | internRows model rows => exact .change fun _ _ _ hm => hm.internRows model rows
  | mergeAndSave model record written =>
      exact .change fun _ _ _ hm => hm.mergeAndSave model record written
  | forget key => exact .change fun _ _ _ hm => ⟨rfl, hm.forget key⟩

end SqlSession
