import SqlSession.Proofs.Model.Coherence
import SqlSession.Proofs.Session.Recycling

/-!
# `SqlSession.Proofs.Model.Soundness`: what is always true of a memory

`Memory.Sound` says what every session keeps of its memory, whatever is
asked of it: the cache holds the items of a textbook cache in their order
of last use, and the records in it are records that were made. Entries of
any models may stand in the cache, and under any keys.

`Model.internAt_cases` states everything that interning does to a sound
memory: the data goes into the record of the model that the key has, or
into a new record, and either way the key is the one used last. The other
pieces of work on a memory follow with a lemma each.

A program `Keeps` a property of the memory if it leaves it true wherever
it waits and at its end, provided others leave it true meanwhile. What a
session does without its records keeps every property (`Program.Quiet`),
and all that callers can make of a session keeps soundness
(`Routine.keeps_sound`). `Machine.Sound.of_runs` is the result: a session
that starts with an empty cache has a sound memory at any time. For an
operation on its own this is `Operation.sound_alone`.
-/

set_option autoImplicit false

namespace SqlSession

variable {π ρ μ α β σ : Type}

/-! ### Storing twice -/

namespace Lru

variable {l : Lru α} {key : String} {value value' : α}

/-- To store a value for a key that has one replaces it. -/
theorem items_store_store (h : (l.find? key).isSome) :
    ((l.store key value).store key value').items = (l.store key value').items := by
  obtain ⟨old, hold⟩ := Option.isSome_iff_exists.mp h
  have hitems : (l.store key value).items = (key, value) :: others key l.items :=
    items_store_of_find? hold
  have hfind : (l.store key value).find? key = some value := by
    unfold find?
    rw [hitems]
    simp
  rw [items_store_of_find? hfind, hitems, items_store_of_find? hold]
  simp [others]

end Lru

namespace IdentityCache

variable {c c' : IdentityCache α} {l : Lru α} {key key' : String} {value value' : α}

/-- What is held after a value was stored is the value under its key, or
was held before under another key. -/
theorem Refines.holds_of_store (h : c.Refines l) (h' : c'.Refines (l.store key value))
    (hheld : c'.Holds key' value') :
    (key' = key ∧ value' = value) ∨ (key' ≠ key ∧ c.Holds key' value') := by
  rcases Lru.of_mem_store (h'.ranks.holds_iff.mp hheld) with hsame | ⟨hne, hmem⟩
  · exact .inl hsame
  · exact .inr ⟨hne, h.ranks.holds_iff.mpr hmem⟩

/-- A cache that is a textbook cache has one entry for a key, as the items
of that one have different keys. -/
theorem Refines.nodup_keys (h : c.Refines l) : c.keys.Nodup := h.ranks.nodup_keys l.nodup

/-- What the cache holds is among the items. -/
theorem Refines.find?_isSome (h : c.Refines l) (hheld : c.Holds key value) :
    (l.find? key).isSome := by
  rw [← h.contains, contains_iff]
  exact mem_keys_iff.mpr ⟨value, hheld⟩

/-- A cache that holds anything has room for something. -/
theorem Refines.capacity_ne_zero (h : c.Refines l) (hheld : c.Holds key value) :
    c.capacity ≠ 0 := by
  intro hzero
  have hmem := h.ranks.holds_iff.mp hheld
  rw [l.items_of_capacity (h.capacity.symm.trans hzero)] at hmem
  exact nomatch hmem

/-- An empty cache is the textbook cache without items, wherever its
counter stands. -/
theorem refines_of_empty (h : c.entries = []) : c.Refines (.empty c.capacity) := by
  have hclear : c.clear = c := by
    unfold clear
    rw [← h]
  have hrefines := refines_clear (c := c) rfl
  rwa [hclear] at hrefines

end IdentityCache

/-! ### Sound memories -/

/-- What is always true of the memory of a session. -/
structure Memory.Sound (m : Memory π) : Prop where
  refines : ∃ l : Lru RecordId, m.cache.Refines l
  made : ∀ key id, m.cache.Holds key id → id < m.records.next

namespace Model

variable {model : Model π μ} {m : Memory π} {l : Lru RecordId}

/-- Everything that interning does. The data goes into the record of the
model that is cached under the key, or into a new record if there is
none. The key is the one used last then, and has that record. -/
theorem internAt_cases (h : m.Sound) (hl : m.cache.Refines l) (key : String) (data : μ) :
    (∃ id before cache, m.cache.Holds key id ∧ model.data? m ⟨id⟩ = some before ∧
      cache.Refines (l.store key id) ∧
      model.internAt key data m = (⟨id⟩, ⟨cache, m.records.write id (model.wrap data)⟩)) ∨
    (∃ cache, (∀ id, m.cache.Holds key id → model.data? m ⟨id⟩ = none) ∧
      cache.Refines (l.store key m.records.next) ∧
      model.internAt key data m
        = (⟨m.records.next⟩, ⟨cache, m.records.add (model.wrap data)⟩)) := by
  by_cases hcapacity : m.cache.capacity = 0
  · -- Without room there is no entry, and no entry comes.
    right
    refine ⟨m.cache, ?_, hl.store_of_capacity hcapacity key _, internAt_of_capacity hcapacity⟩
    intro id hheld
    exact absurd hcapacity (hl.capacity_ne_zero hheld)
  · cases hfind : m.cache.find? key with
    | none =>
        right
        have hnew : key ∉ m.cache.keys := IdentityCache.find?_eq_none_iff.mp hfind
        have hunheld : ∀ id, ¬ m.cache.Holds key id :=
          fun id hheld => hnew (IdentityCache.mem_keys_iff.mpr ⟨id, hheld⟩)
        have hnone : l.find? key = none := by
          rw [← Option.not_isSome_iff_eq_none, ← hl.contains, IdentityCache.contains_iff]
          exact hnew
        refine ⟨m.cache.insertNew key m.records.next, ?_, hl.insertNew hnone, ?_⟩
        · intro id hheld
          exact absurd hheld (hunheld id)
        · rw [internAt_of_not_mem hnew, if_neg hcapacity]
    | some e =>
        have hheld : m.cache.Holds key e.value := IdentityCache.holds_of_find? hfind
        obtain ⟨old, hold⟩ := Option.isSome_iff_exists.mp (hl.find?_isSome hheld)
        cases hdata : model.data? m ⟨e.value⟩ with
        | some before =>
            left
            exact ⟨e.value, before, m.cache.renew key e.value, hheld, hdata, hl.renew hold,
              internAt_of_find? hcapacity hfind hdata⟩
        | none =>
            -- The record of another model makes way for the new one.
            right
            have hused : (m.cache.renew key e.value).Refines (l.store key e.value) := hl.renew hold
            have hput := hused.put key m.records.next
            refine ⟨(m.cache.renew key e.value).put key m.records.next, ?_, ?_, ?_⟩
            · intro id hheld'
              rw [hheld'.unique hl.nodup_keys hheld]
              exact hdata
            · refine ⟨hput.capacity, ?_⟩
              rw [← Lru.items_store_store (Option.isSome_iff_exists.mpr ⟨old, hold⟩)]
              exact hput.ranks
            · have hne : e.value ≠ m.records.next := Nat.ne_of_lt (h.made key e.value hheld)
              have hdata' : model.data? ⟨m.cache.renew key e.value, m.records⟩ ⟨e.value⟩ = none :=
                hdata
              simp [internAt, IdentityCache.getOrInsertWith_pure, hcapacity, hfind, hne, hdata',
                save]

end Model

namespace Memory.Sound

variable {m : Memory π} {model : Model π μ}

/-- A sound cache has one entry for a key. -/
theorem nodup_keys (h : m.Sound) : m.cache.keys.Nodup := by
  obtain ⟨l, hl⟩ := h.refines
  exact hl.nodup_keys

/-- A sound cache that holds anything has room for something. -/
theorem capacity_ne_zero (h : m.Sound) {key : String} {id : RecordId}
    (hheld : m.cache.Holds key id) : m.cache.capacity ≠ 0 := by
  obtain ⟨l, hl⟩ := h.refines
  exact hl.capacity_ne_zero hheld

/-- A memory without entries is sound. -/
theorem of_empty (h : m.cache.entries = []) : m.Sound where
  refines := ⟨_, IdentityCache.refines_of_empty h⟩
  made := by
    rintro key id ⟨e, he, -⟩
    rw [h] at he
    exact nomatch he

/-- Fewer entries, and more records, are as sound. -/
theorem mono (h : m.Sound) {cache : IdentityCache RecordId} {records : Records π}
    {l : Lru RecordId} (hcache : cache.Refines l)
    (hholds : ∀ key id, cache.Holds key id → m.cache.Holds key id)
    (hgrows : m.records.next ≤ records.next) : Memory.Sound ⟨cache, records⟩ where
  refines := ⟨l, hcache⟩
  made key id hheld := Nat.lt_of_lt_of_le (h.made key id (hholds key id hheld)) hgrows

/-- The entries may speak of more records, with other payloads. -/
theorem withRecords (h : m.Sound) {records : Records π} (hgrows : m.records.next ≤ records.next) :
    Memory.Sound { m with records } := by
  obtain ⟨l, hl⟩ := h.refines
  exact h.mono hl (fun _ _ => id) hgrows

/-- Another payload for a record touches no entry, and unmakes no record. -/
theorem write (h : m.Sound) (id : RecordId) (payload : π) :
    Memory.Sound { m with records := m.records.write id payload } := by
  refine h.withRecords ?_
  simp [Records.next, Records.write]

/-- A record that was made can be cached. -/
theorem save (h : m.Sound) (key : String) {record : Record μ} (hmade : record.id < m.records.next) :
    (Model.save key record m).Sound := by
  obtain ⟨l, hl⟩ := h.refines
  have hput := hl.put key record.id
  refine ⟨⟨_, hput⟩, ?_⟩
  intro key' id hheld
  rcases hl.holds_of_store hput hheld with ⟨-, rfl⟩ | ⟨-, hheld⟩
  · exact hmade
  · exact h.made key' id hheld

/-- A look at the cache moves its entry to the front, and adds none. -/
theorem cached? (h : m.Sound) (model : Model π μ) (key : String) :
    (model.cached? key m).2.Sound := by
  obtain ⟨l, hl⟩ := h.refines
  rw [Model.memory_cached?]
  exact h.mono (hl.get key).2 (fun _ _ => IdentityCache.holds_of_holds_get) (Nat.le_refl _)

/-- One entry less. -/
theorem forget (h : m.Sound) (key : String) : (Model.forget key m).2.Sound := by
  obtain ⟨l, hl⟩ := h.refines
  exact h.mono (hl.remove key).2 (fun _ _ => IdentityCache.holds_of_remove) (Nat.le_refl _)

/-- Interning keeps a memory sound: a record that was made gets the data,
or a new one is made and only then cached. -/
theorem internAt (h : m.Sound) (model : Model π μ) (key : String) (data : μ) :
    (model.internAt key data m).2.Sound := by
  obtain ⟨l, hl⟩ := h.refines
  obtain ⟨id, before, cache, hheld, -, hcache, heq⟩ | ⟨cache, -, hcache, heq⟩ :=
    Model.internAt_cases h hl key data
  · rw [heq]
    refine Memory.Sound.write (m := ⟨cache, m.records⟩) ⟨⟨_, hcache⟩, ?_⟩ id _
    intro key' id' hheld'
    rcases hl.holds_of_store hcache hheld' with ⟨-, rfl⟩ | ⟨-, hheld'⟩
    · exact h.made key id' hheld
    · exact h.made key' id' hheld'
  · rw [heq]
    refine ⟨⟨_, hcache⟩, ?_⟩
    intro key' id' hheld'
    have hnext : (m.records.add (model.wrap data)).next = m.records.next + 1 := by
      simp [Records.next, Records.add]
    show id' < (m.records.add (model.wrap data)).next
    -- One more record is made, so the records in the old entries are still below the next number.
    rw [hnext]
    rcases hl.holds_of_store hcache hheld' with ⟨-, rfl⟩ | ⟨-, hheld'⟩
    · exact Nat.lt_succ_self _
    · exact Nat.lt_succ_of_lt (h.made key' id' hheld')

/-- Interning leaves the room that there is. -/
theorem capacity_internAt (h : m.Sound) (model : Model π μ) (key : String) (data : μ) :
    (model.internAt key data m).2.cache.capacity = m.cache.capacity := by
  obtain ⟨l, hl⟩ := h.refines
  obtain ⟨id, before, cache, -, -, hcache, heq⟩ | ⟨cache, -, hcache, heq⟩ :=
    Model.internAt_cases h hl key data
  · rw [heq]
    exact hcache.capacity.trans hl.capacity.symm
  · rw [heq]
    exact hcache.capacity.trans hl.capacity.symm

/-- A row is interned, or does nothing. -/
theorem internRow (h : m.Sound) (model : Model π μ) (row : Row) :
    (model.internRow row m).2.Sound := by
  obtain ⟨e, hrow, -⟩ | ⟨key, data, -, hrow, -⟩ := model.internRow_cases row m
  · rw [hrow]
    exact h
  · rw [hrow]
    exact h.internAt model key data

/-- Rows are interned up to the first that fails. -/
theorem internRows (h : m.Sound) (model : Model π μ) (rows : List Row) :
    (model.internRows rows m).2.Sound := by
  induction rows generalizing m with
  | nil => exact h
  | cons row rows ih =>
      unfold Model.internRows
      have hrow := h.internRow model row
      generalize model.internRow row m = interned at hrow
      obtain ⟨result, later⟩ := interned
      -- The rest is interned only if this row has a record.
      cases result with
      | error e => exact hrow
      | ok record => exact ih hrow

/-- Merging changes a payload, and caches a record that has one already. -/
theorem mergeAndSave (h : m.Sound) (model : Model π μ) (record : Record μ) (written : Row) :
    (model.mergeAndSave record written m).2.Sound := by
  cases hdata : model.data? m record with
  | none =>
      unfold Model.mergeAndSave
      rw [hdata]
      exact h
  | some before =>
      have hwrite := h.write record.id (model.wrap (model.merged written before))
      rcases Model.memory_mergeAndSave written hdata with heq | ⟨key, -, heq⟩
      · rw [heq]
        exact hwrite
      · rw [heq]
        refine hwrite.save key ?_
        -- To write a payload makes no record, and loses none.
        have hmade : record.id < m.records.next := Model.id_lt_of_data? hdata
        simpa [Records.next, Records.write] using hmade

end Memory.Sound

/-- A record is known by its number. -/
theorem Record.eq_of_id {record other : Record μ} (h : record.id = other.id) : record = other := by
  cases record
  cases other
  cases h
  rfl

/-- To cache a record under a key that has one puts it in its place. -/
theorem Model.save_of_holds {m : Memory π} (h : m.Sound) {key : String} {id : RecordId}
    (hheld : m.cache.Holds key id) (record : Record μ) :
    Model.save key record m = { m with cache := m.cache.renew key record.id } := by
  unfold Model.save
  rw [IdentityCache.put_of_holds (h.capacity_ne_zero hheld) hheld]

/-- A look at the cache finds a record of the model that is held under the
key. -/
theorem Model.cached?_of_holds {m : Memory π} {model : Model π μ} (h : m.Sound) {key : String}
    {id : RecordId} (hheld : m.cache.Holds key id) (hdata : (model.data? m ⟨id⟩).isSome) :
    (model.cached? key m).1 = some ⟨id⟩ := by
  unfold Model.cached?
  rw [IdentityCache.get_of_holds h.nodup_keys hheld]
  exact if_pos hdata

/-! ### What programs keep -/

section Keeping

variable {I : Memory π → Prop}

/-- A course that finds something true of the memory, and leaves it true
wherever it waits and at its end, as long as it is true whenever a call is
answered. -/
def Flow.Keeps (I : Memory π → Prop) : Flow π α → Prop
  | .done _ scope => I scope.memory
  | .wait scope call resume =>
      I scope.memory ∧ ∀ (answer : call.Answer) (later : Scope π), I later.memory →
        (resume answer later).Keeps I

/-- What a course keeps is still true when the next one starts. -/
theorem Flow.Keeps.andThen {flow : Flow π α} {next : α → Scope π → Flow π β} (h : flow.Keeps I)
    (hnext : ∀ value (scope : Scope π), I scope.memory → (next value scope).Keeps I) :
    (flow.andThen next).Keeps I := by
  induction flow with
  | done value scope => exact hnext value scope h
  | wait scope call resume ih =>
      obtain ⟨hscope, hresume⟩ := h
      exact ⟨hscope, fun answer later hlater => ih answer later (hresume answer later hlater)⟩

/-- A program that leaves something true of the memory. -/
def Program.Keeps (I : Memory π → Prop) (program : Program π α) : Prop :=
  ∀ scope : Scope π, I scope.memory → (program scope).Keeps I

/-- A program that leaves the memory alone. -/
def Program.Quiet (program : Program π α) : Prop := ∀ I : Memory π → Prop, program.Keeps I

namespace Program.Keeps

/-- A value changes nothing. -/
theorem pure (value : α) : (Pure.pure value : Program π α).Keeps I := fun _ h => h

/-- Programs one after the other keep what both keep. -/
theorem bind {program : Program π α} {next : α → Program π β} (h : program.Keeps I)
    (hnext : ∀ value, (next value).Keeps I) : (program >>= next).Keeps I :=
  fun scope hscope => (h scope hscope).andThen hnext

/-- Work on the records in one piece. -/
theorem change {act : Memory π → α × Memory π} (h : ∀ m, I m → I (act m).2) :
    (Memory.change act).Keeps I :=
  fun scope hscope => h scope.memory hscope

end Program.Keeps

namespace Program.Quiet

/-- A value leaves everything alone. -/
theorem pure (value : α) : (Pure.pure value : Program π α).Quiet := fun _ => .pure value

/-- Quiet programs one after the other are quiet. -/
theorem bind {program : Program π α} {next : α → Program π β} (h : program.Quiet)
    (hnext : ∀ value, (next value).Quiet) : (program >>= next).Quiet :=
  fun I => (h I).bind fun value => hnext value I

/-- An error ends a sequence of actions. -/
theorem andThen {action : Action π α} {next : α → Action π β} (h : action.run.Quiet)
    (hnext : ∀ value, (next value).run.Quiet) : (action >>= next).run.Quiet := by
  refine h.bind fun result => ?_
  cases result with
  | ok value => exact hnext value
  | error e => exact .pure _

/-- A result that is there already leaves everything alone. -/
theorem ofExcept (result : Except Error α) : (liftM result : Action π α).run.Quiet := .pure result

/-- The same quiet action for one value after another. -/
theorem mapM {f : α → Action π β} (h : ∀ value, (f value).run.Quiet) (values : List α) :
    (values.mapM f).run.Quiet := by
  induction values with
  | nil => exact .pure _
  | cons value values ih =>
      rw [List.mapM_cons]
      exact (h value).andThen fun _ => ih.andThen fun _ => .pure _

/-- One piece of work is quiet if it leaves the memory as it was. -/
theorem atomically {act : Scope π → α × Scope π} (h : ∀ scope, (act scope).2.memory = scope.memory) :
    (Program.atomically act).Quiet := by
  intro I scope hscope
  show I (act scope).2.memory
  rw [h]
  exact hscope

/-- A look changes nothing. -/
theorem read (view : Scope π → α) : (Program.read view).Quiet := atomically fun _ => rfl

/-- A change to the session is quiet if it is not one to the cache. -/
theorem modifySession {change : Session → Session} (h : ∀ s, (change s).cache = s.cache) :
    (Program.modifySession change : Program π Unit).Quiet := by
  refine atomically fun scope => ?_
  simp only [Scope.memory, h]

/-- The log of events is no part of the memory. -/
theorem emit (event : Event) : (Program.emit event : Program π Unit).Quiet := atomically fun _ => rfl

/-- A call waits. Others may change the memory meanwhile, but what a
program keeps is kept by them too. -/
theorem call (c : Call) : (Program.call c : Program π c.Answer).Quiet :=
  fun _ _ hscope => ⟨hscope, fun _ _ hlater => hlater⟩

end Program.Quiet

namespace Session

open Program.Quiet

/-- A statement that reads rows does nothing to the records: it only logs. -/
theorem quiet_query (sql : String) (params : List Value) :
    (query sql params : Action π (List Row)).run.Quiet := by
  intro I scope hscope
  rw [query_eq]
  exact ⟨hscope, fun _ _ hlater => hlater⟩

/-- Nor does a statement that changes rows. -/
theorem quiet_exec (sql : String) (params : List Value) :
    (exec sql params : Action π ExecResult).run.Quiet := by
  intro I scope hscope
  rw [exec_eq]
  exact ⟨hscope, fun _ _ hlater => hlater⟩

/-- To read fetched rows into data makes no records. -/
theorem quiet_fetch (read : Row → Except Error α) (stmt : Statement) :
    (fetch read stmt : Action π (List α)).run.Quiet :=
  (ofExcept _).andThen fun built => (quiet_query built.sql built.params).andThen
    (mapM fun row => ofExcept (read row))

/-- To build a statement and run it makes no records. -/
theorem quiet_execute (stmt : Statement) : (execute stmt : Action π ExecResult).run.Quiet :=
  (ofExcept _).andThen fun built => quiet_exec built.sql built.params

/-- The deadline is no part of the memory. -/
theorem quiet_setDeadline (deadline : Instant) : (setDeadline deadline : Program π Unit).Quiet :=
  modifySession fun _ => rfl

/-- Nor is it when it is dropped. -/
theorem quiet_clearDeadline : (clearDeadline : Program π Unit).Quiet := modifySession fun _ => rfl

/-- To put a handle into the slot, or not to, leaves the memory alone. -/
theorem quiet_offer (handle : Handle) : (offer handle : Program π Bool).Quiet := by
  refine atomically fun scope => ?_
  dsimp only
  split <;> rfl

/-- To open a transaction leaves the memory alone, in each way in which it
can go on. -/
theorem quiet_openTransaction : (openTransaction : Action π Stake).run.Quiet := by
  refine bind (read _) fun open? => ?_
  cases open? with
  | true => exact bind (emit _) fun _ => pure _
  | false =>
      refine bind (call .begin) fun answer => ?_
      cases answer with
      | error e => exact bind (emit _) fun _ => pure _
      | ok handle =>
          refine bind (quiet_offer handle) fun taken => ?_
          cases taken with
          | true => exact pure _
          | false =>
              -- The slot was taken meanwhile: the new transaction is rolled back.
              refine bind (emit _) fun _ => bind (call (.finish handle .rollback)) fun answer => ?_
              cases answer with
              | error e => exact bind (emit _) fun _ => pure _
              | ok => exact pure _

/-- To end a transaction takes the handle and a call, and touches no
record. -/
theorem quiet_endTransaction (ending : Ending) :
    (endTransaction ending : Action π Unit).run.Quiet := by
  refine bind (atomically fun _ => rfl) fun handle? => ?_
  cases handle? with
  | none => exact pure _
  | some handle =>
      refine bind (call (.finish handle ending)) fun answer => ?_
      cases answer with
      | error e => exact bind (emit _) fun _ => pure _
      | ok => exact pure _

/-- What the body of a transaction results in decides how it ends, not
what is in the memory. -/
theorem quiet_leaveTransaction (stake : Stake) (result : Except Error α) :
    (leaveTransaction stake result : Action π α).run.Quiet := by
  cases stake with
  | guest => exact pure _
  | owner =>
      cases result with
      | ok value =>
          refine bind (quiet_endTransaction .commit) fun ended => ?_
          cases ended <;> exact pure _
      | error e => exact bind (quiet_endTransaction .rollback) fun _ => pure _

/-- A transaction keeps what its body keeps. -/
theorem keeps_runInTransaction {I : Memory π → Prop} {body : Action π α} (h : body.run.Keeps I) :
    (runInTransaction body).run.Keeps I := by
  have henter : (enterTransaction : Action π Stake).run.Quiet := by
    refine bind (read _) fun open? => ?_
    cases open? with
    | true => exact pure _
    | false => exact quiet_openTransaction
  refine (henter I).bind fun entered => ?_
  cases entered with
  | error e => exact .pure _
  | ok stake => exact h.bind fun result => quiet_leaveTransaction stake result I

end Session

/-- What operations of a model are made of keeps a memory sound. -/
theorem Assembled.keeps_sound {program : Program π α} (h : Assembled program) :
    program.Keeps Memory.Sound := by
  induction h with
  | pure value => exact .pure value
  | bind _ _ ih ihnext => exact .bind ih ihnext
  | query sql params => exact Session.quiet_query sql params _
  | exec sql params => exact Session.quiet_exec sql params _
  | runInTransaction _ ih => exact Session.keeps_runInTransaction ih
  | inTransaction => exact Program.Quiet.read _ _
  | data model record => exact Program.Quiet.read _ _
  | lookUp model key => exact .change fun _ hm => hm.cached? model key
  | internRow model row => exact .change fun _ hm => hm.internRow model row
  | internRows model rows => exact .change fun _ hm => hm.internRows model rows
  | mergeAndSave model record written => exact .change fun _ hm => hm.mergeAndSave model record written
  | forget key => exact .change fun _ hm => hm.forget key

/-- A session whose cache is emptied has a sound memory, whatever it was
before. -/
theorem keeps_clear (change : Session → Session) (hempty : ∀ s, (change s).cache.entries = []) :
    (Program.modifySession change : Program π Unit).Keeps Memory.Sound :=
  fun scope _ => .of_empty (hempty scope.session)

/-- All that callers can make of a session keeps its memory sound. -/
theorem Routine.keeps_sound {program : Program π α} (h : Routine program) :
    program.Keeps Memory.Sound := by
  induction h with
  | pure value => exact .pure value
  | bind _ _ ih ihnext => exact .bind ih ihnext
  | look view => exact Program.Quiet.read _ _
  | write id payload => exact fun scope hscope => hscope.write id payload
  | call c => exact Program.Quiet.call c _
  | query sql params => exact Session.quiet_query sql params _
  | exec sql params => exact Session.quiet_exec sql params _
  | fetch read stmt => exact Session.quiet_fetch read stmt _
  | execute stmt => exact Session.quiet_execute stmt _
  | setDeadline deadline => exact Session.quiet_setDeadline deadline _
  | setTimeout span =>
      exact (Program.Quiet.read _ _).bind fun now => Session.quiet_setDeadline (now.after span) _
  | clearDeadline => exact Session.quiet_clearDeadline _
  | clearCache => exact keeps_clear _ fun _ => rfl
  | reset =>
      -- Whether a transaction is rolled back or not, the cache is emptied in the end.
      have hclear : (Program.modifySession fun s =>
          { s with cache := s.cache.clear, deadline := none } : Program π Unit).Keeps Memory.Sound :=
        keeps_clear _ fun _ => rfl
      refine (Program.Quiet.read _ _).bind fun open? => ?_
      cases open? with
      | true =>
          exact (Program.Quiet.emit _ _).bind fun _ =>
            (Session.quiet_endTransaction .rollback _).bind fun _ => hclear
      | false => exact hclear
  | begin =>
      refine (Session.quiet_openTransaction _).bind fun opened => ?_
      cases opened <;> exact .pure _
  | commit => exact Session.quiet_endTransaction .commit _
  | rollback => exact Session.quiet_endTransaction .rollback _
  | runInTransaction _ ih => exact Session.keeps_runInTransaction ih
  | operation model op => exact (op.assembled model).keeps_sound

end Keeping

/-! ### Tasks on their own -/

/-- What a course keeps is true in the end for a task on its own. -/
theorem Flow.Keeps.alone {I : Memory π → Prop} {flow : Flow π α} (h : flow.Keeps I)
    (env : Environment σ) (s : σ) : I (flow.alone env s).scope.memory := by
  induction flow generalizing s with
  | done value scope => exact h
  | wait scope call resume ih =>
      obtain ⟨hscope, hresume⟩ := h
      -- Only the clock has moved when the answer arrives.
      let reply := env.reply s scope.now call
      let later : Scope π := { scope with now := scope.now.later reply.1.2 }
      exact ih reply.1.1 later (hresume reply.1.1 later hscope) reply.2

/-- An operation on its own keeps a memory sound. -/
theorem Operation.sound_alone (model : Model π μ) (op : Operation μ) {scope : Scope π}
    (h : scope.memory.Sound) (env : Environment σ) (s : σ) :
    (((op.run model).run scope).alone env s).scope.memory.Sound :=
  ((op.assembled model).keeps_sound scope h).alone env s

/-! ### Sessions at any time -/

/-- A session with a sound memory, and tasks that keep it so. -/
structure Machine.Sound (m : Machine π ρ) : Prop where
  memory : m.scope.memory.Sound
  tasks : ∀ t ∈ m.suspended, ∀ (answer : t.call.Answer) (later : Scope π), later.memory.Sound →
    (t.resume answer later).Keeps Memory.Sound

namespace Machine.Sound

variable {m m' : Machine π ρ}

/-- A task goes on to its next call or to its end, and the memory is sound
there. -/
theorem proceed (h : m.Sound) (task : Nat) {flow : Flow π ρ} (hflow : flow.Keeps Memory.Sound) :
    (m.proceed task flow).Sound := by
  cases flow with
  | done value scope => exact ⟨hflow, h.tasks⟩
  | wait scope call resume =>
      obtain ⟨hscope, hresume⟩ := hflow
      exact ⟨hscope, List.forall_mem_cons.mpr ⟨hresume, h.tasks⟩⟩

/-- Whatever tasks do, through whatever models, the memory stays sound. -/
theorem step (h : m.Sound) (hstep : Step Routine m m') : m'.Sound := by
  cases hstep with
  | start hprogram =>
      have hstarted : Sound { m with started := m.started + 1 } := ⟨h.memory, h.tasks⟩
      exact hstarted.proceed m.started (hprogram.keeps_sound m.scope h.memory)
  | @answer before after s answer hsuspended _ =>
      have htasks := h.tasks
      rw [hsuspended, List.forall_mem_append, List.forall_mem_cons] at htasks
      obtain ⟨hbefore, hs, hafter⟩ := htasks
      have hothers : Sound { m with
          suspended := before ++ after
          history := (s.call.gained answer).map Mark.began ++ m.history } :=
        ⟨h.memory, List.forall_mem_append.mpr ⟨hbefore, hafter⟩⟩
      exact hothers.proceed s.task (hs answer m.scope h.memory)
  | tick t => exact ⟨h.memory, h.tasks⟩

/-- A session that starts with an empty cache, a new one or one that was
recycled, has a sound memory at any time. -/
theorem of_runs {scope : Scope π} (hempty : scope.memory.cache.entries = [])
    (hruns : Relation.ReflTransGen (Step Routine) { scope } m) : m.Sound := by
  induction hruns with
  | refl => exact ⟨.of_empty hempty, fun t ht => nomatch ht⟩
  -- The entries may be of any models: soundness does not say of which.
  | tail _ hstep ih => exact ih.step hstep

end Machine.Sound

end SqlSession
