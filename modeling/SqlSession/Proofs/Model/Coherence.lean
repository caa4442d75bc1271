import Mathlib.Control.Monad.Basic
import SqlSession.Proofs.IdentityCache
import SqlSession.Proofs.Model.Workload
import SqlSession.Sample.Models

/-!
# `SqlSession.Proofs.Model.Coherence`: entries and the data of their records

A cache is coherent with a model if every entry stands under the key of
the data that its record has now. Records change in place after they
were cached, so this is not a property of the cache alone.

Reading, inserting and removing keep a cache coherent, and so does an
update that leaves the key of its record as it is: `cache_coherent`. It
follows that a look at the cache never finds the record of another row,
and that no record is cached under two keys.

An update that gives its record another key does not:
`stale_entry`. It caches the record under the new key and leaves the
entry under the old one, where the record is found although it is
another row now.
-/

set_option autoImplicit false

namespace SqlSession.Model

variable {π μ : Type} {model : Model π μ} {m : Memory π}

/-! ### The data of records -/

section Data

variable {record : Record μ} {data before : μ} {id : RecordId}

/-- What has data is a record that was made. -/
theorem id_lt_of_data? (h : model.data? m ⟨id⟩ = some data) : id < m.records.next := by
  by_contra hle
  have hnone : m.records.read? id = none := List.getElem?_eq_none (Nat.le_of_not_lt hle)
  simp [data?, hnone] at h

/-- A new record leaves the data of the others alone. -/
theorem data?_add (cache : IdentityCache RecordId) (h : id < m.records.next) :
    model.data? ⟨cache, m.records.add (model.wrap data)⟩ ⟨id⟩ = model.data? m ⟨id⟩ := by
  have hread : (m.records.add (model.wrap data)).read? id = m.records.read? id :=
    List.getElem?_append_left h
  simp only [data?, hread]

/-- A new record has the data that it was made for. -/
theorem data?_add_next (cache : IdentityCache RecordId) :
    model.data? ⟨cache, m.records.add (model.wrap data)⟩ ⟨m.records.next⟩ = some data := by
  have hread : (m.records.add (model.wrap data)).read? m.records.next = some (model.wrap data) := by
    simp [Records.read?, Records.add, Records.next]
  simp only [data?, hread, Option.bind_some, model.unwrap?_wrap]

/-- A record has the data that was written to it last. -/
theorem data?_write_self (cache : IdentityCache RecordId) (h : id < m.records.next) :
    model.data? ⟨cache, m.records.write id (model.wrap data)⟩ ⟨id⟩ = some data := by
  have hread : (m.records.write id (model.wrap data)).read? id = some (model.wrap data) :=
    List.getElem?_set_self h
  simp only [data?, hread, Option.bind_some, model.unwrap?_wrap]

/-- To write a record leaves the data of the others alone. -/
theorem data?_write_ne (cache : IdentityCache RecordId) {other : RecordId} (h : other ≠ id) :
    model.data? ⟨cache, m.records.write id (model.wrap data)⟩ ⟨other⟩ = model.data? m ⟨other⟩ := by
  have hread : (m.records.write id (model.wrap data)).read? other = m.records.read? other :=
    List.getElem?_set_ne h.symm
  simp only [data?, hread]

/-! ### What the operations do to a memory -/

/-- A look at the cache does to the memory what it does to the cache. -/
theorem memory_cached? (key : String) :
    (model.cached? key m).2 = { m with cache := (m.cache.get key).2 } := by
  rcases hget : m.cache.get key with ⟨found, cache⟩
  cases found with
  | none => simp only [cached?, hget]
  | some id => simp only [cached?, hget]

/-- A record that is found is held under the key, and is one of the
model. -/
theorem of_cached? {key : String} (h : (model.cached? key m).1 = some record) :
    m.cache.Holds key record.id ∧ (model.data? m record).isSome := by
  unfold cached? at h
  cases hget : (m.cache.get key).1 with
  | none => simp [hget] at h
  | some id =>
      simp only [hget] at h
      split at h
      · rename_i hdata
        cases h
        exact ⟨IdentityCache.holds_of_get hget, hdata⟩
      · exact nomatch h

/-- Data for a key that has a record of the model goes into that record. -/
theorem internAt_of_find? {key : String} {e : CacheEntry RecordId} (hcapacity : m.cache.capacity ≠ 0)
    (hfind : m.cache.find? key = some e) (hbefore : model.data? m ⟨e.value⟩ = some before) :
    model.internAt key data m =
      (⟨e.value⟩, ⟨m.cache.renew key e.value, m.records.write e.value (model.wrap data)⟩) := by
  have hold : e.value ≠ m.records.next := Nat.ne_of_lt (id_lt_of_data? hbefore)
  have hbefore' : model.data? ⟨m.cache.renew key e.value, m.records⟩ ⟨e.value⟩ = some before := hbefore
  simp [internAt, IdentityCache.getOrInsertWith_pure, hcapacity, hfind, hold, hbefore']

/-- Data for a key that has no record goes into a new one. -/
theorem internAt_of_not_mem {key : String} (hkey : key ∉ m.cache.keys) :
    model.internAt key data m =
      (⟨m.records.next⟩,
        ⟨if m.cache.capacity = 0 then m.cache else m.cache.insertNew key m.records.next,
          m.records.add (model.wrap data)⟩) := by
  have hfind := IdentityCache.find?_eq_none_iff.mpr hkey
  by_cases hcapacity : m.cache.capacity = 0
  · simp [internAt, IdentityCache.getOrInsertWith_pure, hcapacity]
  · simp [internAt, IdentityCache.getOrInsertWith_pure, hcapacity, hfind]

/-- Without room for any entry all data goes into new records. -/
theorem internAt_of_capacity {key : String} (hcapacity : m.cache.capacity = 0) :
    model.internAt key data m =
      (⟨m.records.next⟩, ⟨m.cache, m.records.add (model.wrap data)⟩) := by
  simp [internAt, IdentityCache.getOrInsertWith_pure, hcapacity]

/-- What was merged is in the record. It is cached under the key that it
has now, unless not all columns could be merged or there is no key. -/
theorem mergeAndSave_cases (written : Row) (h : model.data? m record = some before) :
    let after := model.merged written before
    let written? : Memory π := ⟨m.cache, m.records.write record.id (model.wrap after)⟩
    (∃ e, ((model.mergeRow written).run before = .error e after ∨ model.keyOf after = .error e) ∧
      model.mergeAndSave record written m = (.error e, written?)) ∨
    ∃ key, model.keyOf after = .ok key ∧
      model.mergeAndSave record written m = (.ok (), save key record written?) := by
  intro after' written?
  cases hmerge : (model.mergeRow written).run before with
  | error e after =>
      have hafter : model.merged written before = after := by simp only [merged, hmerge]
      simp only [after', written?, hafter]
      exact .inl ⟨e, .inl rfl, by simp only [mergeAndSave, merge, h, hmerge]⟩
  | ok _ after =>
      have hafter : model.merged written before = after := by simp only [merged, hmerge]
      simp only [after', written?, hafter]
      cases hkey : model.key (model.indexValues after) with
      | error e => exact .inl ⟨e, .inr hkey, by simp only [mergeAndSave, merge, h, hmerge, hkey]⟩
      | ok key => exact .inr ⟨key, hkey, by simp only [mergeAndSave, merge, h, hmerge, hkey]⟩

/-- What a merge makes of the memory. -/
theorem memory_mergeAndSave (written : Row) (h : model.data? m record = some before) :
    let written? : Memory π :=
      ⟨m.cache, m.records.write record.id (model.wrap (model.merged written before))⟩
    (model.mergeAndSave record written m).2 = written? ∨
    ∃ key, model.keyOf (model.merged written before) = .ok key ∧
      (model.mergeAndSave record written m).2 = save key record written? := by
  intro written?
  rcases mergeAndSave_cases written h with ⟨e, -, heq⟩ | ⟨key, hkey, heq⟩
  · exact .inl (congrArg Prod.snd heq)
  · exact .inr ⟨key, hkey, congrArg Prod.snd heq⟩

end Data

/-! ### Coherence -/

/-- Every entry stands under the key of the data of its record. -/
def Coherent (model : Model π μ) (m : Memory π) : Prop :=
  ∀ key id, m.cache.Holds key id →
    ∃ data, model.data? m ⟨id⟩ = some data ∧ model.keyOf data = .ok key

/-- A merge leaves the key of its record as it was. -/
def KeepsKey (model : Model π μ) : Effect μ → Prop
  | .merged _ before written => model.keyOf (model.merged written before) = model.keyOf before
  | _ => True

/-- Whether a merge keeps the key of its record can be computed from the
data before it. -/
instance : DecidablePred model.KeepsKey
  | .merged _ before written =>
      inferInstanceAs (Decidable (model.keyOf (model.merged written before) = model.keyOf before))
  | .interned .. | .removed _ => inferInstanceAs (Decidable True)

/-- All merges leave the keys of their records as they were. -/
def KeepsKeys (model : Model π μ) (log : List (Effect μ)) : Prop :=
  ∀ effect ∈ log, model.KeepsKey effect

/-- So whether a log keeps all keys can be computed. -/
instance (log : List (Effect μ)) : Decidable (model.KeepsKeys log) :=
  inferInstanceAs (Decidable (∀ effect ∈ log, model.KeepsKey effect))

/-- Fewer effects keep keys if more do. -/
theorem KeepsKeys.of_subset {log log' : List (Effect μ)} (h : model.KeepsKeys log')
    (hsubset : log ⊆ log') : model.KeepsKeys log :=
  fun effect hmem => h effect (hsubset hmem)

namespace Coherent

/-- Fewer entries for the same data are as coherent. -/
theorem mono {cache : IdentityCache RecordId} (h : model.Coherent m)
    (hholds : ∀ key id, cache.Holds key id → m.cache.Holds key id) :
    model.Coherent { m with cache } :=
  fun key id hheld => h key id (hholds key id hheld)

/-- A record has one key. -/
theorem key_eq {key key' : String} {id : RecordId} (h : model.Coherent m)
    (hheld : m.cache.Holds key id) (hheld' : m.cache.Holds key' id) : key = key' := by
  obtain ⟨data, hdata, hkey⟩ := h key id hheld
  obtain ⟨data', hdata', hkey'⟩ := h key' id hheld'
  cases hdata.symm.trans hdata'
  exact Except.ok.inj (hkey.symm.trans hkey')

/-- A record that is cached gets data with the key that it has. -/
theorem write {before data : μ} (h : model.Coherent m) (record : Record μ)
    (hbefore : model.data? m record = some before) (hkey : model.keyOf data = model.keyOf before) :
    model.Coherent ⟨m.cache, m.records.write record.id (model.wrap data)⟩ := by
  intro key id hheld
  obtain ⟨old, hold, holdkey⟩ := h key id hheld
  by_cases hid : id = record.id
  · subst hid
    cases hold.symm.trans hbefore
    exact ⟨data, data?_write_self _ (id_lt_of_data? hbefore), hkey.trans holdkey⟩
  · exact ⟨old, (data?_write_ne _ hid).trans hold, holdkey⟩

/-- A record that is made gets cached under the key of its data, if at
all. -/
theorem add {key : String} {data : μ} {cache : IdentityCache RecordId} (h : model.Coherent m)
    (hkey : model.keyOf data = .ok key)
    (hholds : ∀ key' id, cache.Holds key' id →
      (key' = key ∧ id = m.records.next) ∨ m.cache.Holds key' id) :
    model.Coherent ⟨cache, m.records.add (model.wrap data)⟩ := by
  intro key' id hheld
  rcases hholds key' id hheld with ⟨rfl, rfl⟩ | hheld
  · exact ⟨data, data?_add_next _, hkey⟩
  · obtain ⟨old, hold, holdkey⟩ := h key' id hheld
    exact ⟨old, (data?_add _ (id_lt_of_data? hold)).trans hold, holdkey⟩

/-- Data is interned under its own key. -/
theorem internAt {key : String} {data : μ} (h : model.Coherent m)
    (hkey : model.keyOf data = .ok key) : model.Coherent (model.internAt key data m).2 := by
  by_cases hcapacity : m.cache.capacity = 0
  · -- A cache without room gets no entry for the new record.
    rw [internAt_of_capacity hcapacity]
    exact h.add hkey fun key' id hheld => .inr hheld
  · cases hfind : m.cache.find? key with
    | some e =>
        obtain ⟨before, hbefore, hkeybefore⟩ := h _ _ (IdentityCache.holds_of_find? hfind)
        rw [internAt_of_find? hcapacity hfind hbefore]
        have hwrite := h.write ⟨e.value⟩ hbefore (hkey.trans hkeybefore.symm)
        refine hwrite.mono fun key' id hheld => ?_
        rcases IdentityCache.holds_of_renew hheld with ⟨rfl, rfl⟩ | hheld
        · exact IdentityCache.holds_of_find? hfind
        · exact hheld
    | none =>
        rw [internAt_of_not_mem (IdentityCache.find?_eq_none_iff.mp hfind), if_neg hcapacity]
        exact h.add hkey fun key' id => IdentityCache.holds_of_insertNew

/-- What happens to a memory keeps it coherent, if merges keep keys. -/
theorem happens {m' : Memory π} {es : List (Effect μ)} {found : List (RowRecord μ)}
    (h : model.Coherent m) (hhappens : model.Happens m es m' found)
    (hkeys : model.KeepsKeys es) : model.Coherent m' := by
  -- The induction is on the pieces; only a merge changes data that is under a key already.
  induction hhappens with
  | nothing => exact h
  | looked key =>
      rw [memory_cached?]
      exact h.mono fun key' id => IdentityCache.holds_of_holds_get
  | interned hkey => exact h.internAt hkey
  | @merged m record before written hbefore =>
      have hkey : model.keyOf (model.merged written before) = model.keyOf before :=
        hkeys _ List.mem_cons_self
      have hwrite := h.write record hbefore hkey
      rcases memory_mergeAndSave written hbefore with heq | ⟨key, hmerged, heq⟩
      · rw [heq]
        exact hwrite
      · rw [heq]
        intro key' id hheld
        -- The entry that is stored stands under the key that the data has now.
        rcases IdentityCache.holds_of_put hheld with ⟨rfl, rfl⟩ | hheld
        · exact ⟨_, data?_write_self _ (id_lt_of_data? hbefore), hmerged⟩
        · exact hwrite key' id hheld
  | kept => exact h
  | forgot record key => exact h.mono fun key' id => IdentityCache.holds_of_remove
  | append _ _ ih ih' =>
      refine ih' (ih h (hkeys.of_subset ?_)) (hkeys.of_subset ?_)
      · exact List.subset_append_left _ _
      · exact List.subset_append_right _ _

/-- A look at a coherent cache finds no record of another row. -/
theorem of_cached? {key : String} {record : Record μ} (h : model.Coherent m)
    (hfound : (model.cached? key m).1 = some record) :
    ∃ data, model.data? m record = some data ∧ model.keyOf data = .ok key :=
  h key record.id (Model.of_cached? hfound).1

end Coherent

/-! ### Records out of the cache -/

/-- To read rows takes a call. -/
theorem rowsOf_ne_done {α : Type} (stmt : Select) (next : List Row → Action π α)
    (scope later : Scope π) (value : α) :
    (rowsOf stmt >>= next : Action π α).run scope ≠ .done (.ok value) later := by
  unfold rowsOf
  generalize stmt.draft.query = built
  cases built with
  | error e => exact nofun
  | ok built => exact nofun

/-- To load a record takes a call, or fails before it. -/
theorem load_ne_done (index : List Value) (scope later : Scope π) (record : Record μ) :
    (model.load index).run scope ≠ .done (.ok record) later := by
  unfold load
  cases model.key index with
  | error e => exact nofun
  | ok key =>
      cases model.indexFilter index with
      | error e => exact nofun
      | ok fields =>
          rw [ofExcept_ok_bind, ofExcept_ok_bind]
          exact rowsOf_ne_done _ _ scope later record

/-- What a look at the cache alone gives. -/
theorem lookUp_eq_done {key : String} (other : Action π (Record μ)) {scope later : Scope π}
    {record : Record μ} (hother : ∀ scope, other.run scope ≠ .done (.ok record) later)
    (h : (do
      match ← (ExceptT.lift (model.lookUp key) : Action π _) with
      | some record => return record
      | none => other : Action π (Record μ)).run scope = .done (.ok record) later) :
    (model.cached? key scope.memory).1 = some record := by
  replace h : ExceptT.run (match (model.cached? key scope.memory).1 with
      | some record => pure record
      | none => other) (scope.withMemory (model.cached? key scope.memory).2)
      = .done (.ok record) later := h
  cases hfound : (model.cached? key scope.memory).1 with
  | none =>
      rw [hfound] at h
      exact absurd h (hother _)
  | some other =>
      rw [hfound] at h
      cases h
      rfl

/-! ### Runs -/

/-- Coherence throughout. -/
def coherence (model : Model π μ) : Upkeep model where
  Holds m _ := model.Coherent m
  Stays _ _ := True
  Known _ _ := True
  Fine log := model.KeepsKeys log
  stays_refl _ := trivial
  stays_trans _ _ := trivial
  known_of_stays _ _ _ := trivial
  fine_of_longer hgrows hkeys := hkeys.of_subset hgrows.subset
  keep hhappens _ hcoherent hkeys _ :=
    ⟨hcoherent.happens hhappens (hkeys.of_subset (List.subset_append_right _ _)), trivial,
      fun _ _ => trivial⟩

/-- A run of reads, inserts, updates and removals, however their pieces
interleave, leaves every entry of the cache under the key of the data
that its record has, if it starts so and no merge changes the key of its
record. So a record that is returned out of the cache is one of the row
that was asked for, and no record stands under two keys. -/
theorem cache_coherent {scope : Scope π} {w : Workload π μ} (hstart : model.Coherent scope.memory)
    (hruns : Workload.Runs model (fun _ _ => True) { scope } w) (hkeys : model.KeepsKeys w.log) :
    (∀ e ∈ w.memory.cache.entries,
      ∃ data, model.data? w.memory ⟨e.value⟩ = some data ∧
        model.key (model.indexValues data) = .ok e.key) ∧
    (∀ index record later,
      (model.select index).run w.scope = .done (.ok record) later ∨
        (model.queryCache index).run w.scope = .done (.ok record) later →
      ∃ data, model.data? w.memory record = some data ∧
        model.key (model.indexValues data) = model.key index) ∧
    (∀ e ∈ w.memory.cache.entries, ∀ e' ∈ w.memory.cache.entries,
      e.value = e'.value → e.key = e'.key) := by
  have hupheld : (coherence model).Upheld { scope } := .start hstart
  have hcoherent : model.Coherent w.memory :=
    (hupheld.runs hruns (fun _ _ _ _ _ record _ => ⟨⟨none, record⟩, rfl, trivial⟩) hkeys).1.holds
  refine ⟨?_, ?_, ?_⟩
  · intro e he
    exact hcoherent e.key e.value ⟨e, he, rfl, rfl⟩
  · intro index record later h
    cases hkey : model.key index with
    | error e =>
        unfold select queryCache at h
        rw [hkey] at h
        rcases h with h | h <;> exact nomatch h
    | ok key =>
        -- Without a call in between, the record can only be from the cache.
        have hfound : (model.cached? key w.scope.memory).1 = some record := by
          unfold select queryCache at h
          rw [hkey] at h
          rcases h with h | h
          · exact lookUp_eq_done _ (fun scope => load_ne_done index scope later record) h
          · refine lookUp_eq_done (throw _) (fun scope => ?_) h
            exact nofun
        exact hcoherent.of_cached? hfound
  · intro e he e' he' hvalue
    exact hcoherent.key_eq ⟨e, he, rfl, rfl⟩ ⟨e', he', rfl, hvalue.symm⟩

/-- Reading an account and changing its address. -/
theorem cache_coherent_email :
    ∃ w : Workload Sample.Payload Sample.Account,
      Sample.account.data? w.memory ⟨0⟩ = some ⟨1, some "b"⟩ ∧
      (∀ e ∈ w.memory.cache.entries, ∃ data,
        Sample.account.data? w.memory ⟨e.value⟩ = some data ∧
          Sample.account.key (Sample.account.indexValues data) = .ok e.key) := by
  let scope : Scope Sample.Payload := ⟨.start, .ofConfig {}, .empty, []⟩
  have hstart : Sample.account.Coherent scope.memory := by
    rintro key id ⟨e, he, -⟩
    exact nomatch he
  have h0 : Workload.Runs Sample.account (fun _ _ => True) { scope } { scope } := .refl
  have h1 := h0.start (.selectOneWithSql "q" []) trivial
  have h2 := h1.answer [] ⟨.selectOneWithSql .., _, .query .., _⟩
    (some (.ok [⟨[("id", .int 1), ("email", .text "a")]⟩])) rfl
  have h3 := h2.start (.update ⟨0⟩ [("email", .text "b")]) trivial
  have h4 := h3.answer [] ⟨.update .., _, .exec .., _⟩ (some (.ok ⟨1, none⟩)) rfl
  exact ⟨_, by decide +kernel, (cache_coherent hstart h4 (by decide +kernel)).1⟩

/-- An update that gives its record the key of another row leaves the
record under the key of the row that it was. A look at the cache for
that row finds it. -/
theorem stale_entry :
    ∃ (scope : Scope Sample.Payload) (w : Workload Sample.Payload Sample.Account),
      scope.memory.cache.entries = [] ∧
      Workload.Runs Sample.account (fun _ _ => True) { scope } w ∧
      (w.memory.cache.find? "users`u1").map (·.value) = some 0 ∧
      (w.memory.cache.find? "users`u2").map (·.value) = some 0 ∧
      Sample.account.data? w.memory ⟨0⟩ = some ⟨2, some "a"⟩ ∧
      Sample.account.keyOf ⟨2, some "a"⟩ = .ok "users`u2" ∧
      (Sample.account.cached? "users`u1" w.memory).1 = some ⟨0⟩ := by
  let scope : Scope Sample.Payload := ⟨.start, .ofConfig {}, .empty, []⟩
  have h0 : Workload.Runs Sample.account (fun _ _ => True) { scope } { scope } := .refl
  have h1 := h0.start (.selectOneWithSql "q" []) trivial
  have h2 := h1.answer [] ⟨.selectOneWithSql .., _, .query .., _⟩
    (some (.ok [⟨[("id", .int 1), ("email", .text "a")]⟩])) rfl
  have h3 := h2.start (.update ⟨0⟩ [("id", .int 2)]) trivial
  have h4 := h3.answer [] ⟨.update .., _, .exec .., _⟩ (some (.ok ⟨1, none⟩)) rfl
  exact ⟨scope, _, rfl, h4, by decide +kernel, by decide +kernel, by decide +kernel,
    by decide +kernel, by decide +kernel⟩

end SqlSession.Model
