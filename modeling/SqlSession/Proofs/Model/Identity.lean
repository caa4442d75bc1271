import SqlSession.Proofs.Model.Coherence

/-!
# `SqlSession.Proofs.Model.Identity`: one row, one record

Whoever asks for a row gets the record that everyone else has for it,
also if several tasks read the row at once, find nothing in the cache
and intern their data in any order. `one_record_per_row` states this for
the runs of a `Workload` whose log `Fits`: nothing is removed, no merge
changes the key of its record, and the cache has room for all rows. Each
record that is handed out is noted there with the key of the row that it
is handed out for, and it is these keys that decide which records are the
same.

`Kept` is the invariant. The cache has one entry for each key of the
log, and the data of its record is what the log says (`replay`). Nothing
is ever evicted then, and so an entry that is there stays there with its
record: this is what ties a record handed out early to one handed out
late. Every way to change the memory has a lemma that says that it keeps
this, `Kept.happens` puts them together for one piece of an operation,
and `Upkeep.Upheld.runs` for whole runs.
-/

set_option autoImplicit false

namespace SqlSession.Model

variable {π μ : Type} {model : Model π μ} {m : Memory π} {log : List (Effect μ)}

/-! ### Reading a log -/

section Replay

variable {key key' : String} {data before : μ} {record : Record μ} {written : Row}

/-- What was interned last is what the log says. -/
theorem replay_interned_self :
    model.replay key (log ++ [.interned key data]) = some data := by
  simp [apply]

/-- Interning another key says nothing about this one. -/
theorem replay_interned_ne (h : key' ≠ key) :
    model.replay key' (log ++ [.interned key data]) = model.replay key' log := by
  simp [apply, h.symm]

/-- A merge into the record of a key goes on from what the log says so
far. -/
theorem replay_merged_self (h : model.keyOf before = .ok key) :
    model.replay key (log ++ [.merged record before written])
      = (model.replay key log).map (model.merged written) := by
  simp [apply, h]

/-- A merge into the record of another key leaves this one alone. -/
theorem replay_merged_ne (h : model.keyOf before = .ok key) (hne : key' ≠ key) :
    model.replay key' (log ++ [.merged record before written]) = model.replay key' log := by
  simp [apply, h, hne.symm]

end Replay

/-- The number of distinct keys that data was interned for. -/
def rowCount (log : List (Effect μ)) : Nat := (internedKeys log).dedup.length

/-- Distinct keys of a log are as many as it says, at most. -/
theorem length_le_rowCount {keys : List String} (hnodup : keys.Nodup)
    (hsubset : keys ⊆ internedKeys log) : keys.length ≤ rowCount log :=
  IdentityCache.length_le_dedup hnodup hsubset

/-- A log with a key has a row. -/
theorem rowCount_pos {key : String} (h : key ∈ internedKeys log) : 0 < rowCount log :=
  length_le_rowCount (List.nodup_singleton key) (List.cons_subset.mpr ⟨h, List.nil_subset _⟩)

/-- A longer log has no fewer rows. -/
theorem rowCount_mono {log log' : List (Effect μ)} (h : log <+: log') :
    rowCount log ≤ rowCount log' := by
  refine length_le_rowCount (List.nodup_dedup _) fun key hkey => ?_
  obtain ⟨rest, rfl⟩ := h
  rw [internedKeys_append]
  exact List.mem_append_left _ (List.mem_dedup.mp hkey)

/-! ### Records that stay -/

/-- The cache has one entry for each key that data was interned for, and
the record of the entry has the data that the log says. -/
structure Kept (model : Model π μ) (capacity : Nat) (m : Memory π) (log : List (Effect μ)) :
    Prop where
  capacity : m.cache.capacity = capacity
  coherent : model.Coherent m
  nodup : m.cache.keys.Nodup
  keys : ∀ key, key ∈ m.cache.keys ↔ key ∈ internedKeys log
  replayed : ∀ key id, m.cache.Holds key id → model.data? m ⟨id⟩ = model.replay key log

namespace Kept

variable {capacity : Nat} {key : String} {id : RecordId}

/-- Room for the rows of a log that has any is some room. -/
theorem capacity_ne_zero (h : model.Kept capacity m log) {log' : List (Effect μ)}
    (hkey : key ∈ internedKeys log') (hroom : rowCount log' ≤ capacity) : m.cache.capacity ≠ 0 := by
  have hcount : 0 < rowCount log' := rowCount_pos hkey
  have hcapacity : m.cache.capacity = capacity := h.capacity
  omega

/-- If there is room for the rows of a log, there is room for a key that
has no entry yet. -/
theorem size_lt_capacity (h : model.Kept capacity m log) {data : μ} (hnew : key ∉ m.cache.keys)
    (hroom : rowCount (log ++ [.interned key data]) ≤ capacity) :
    m.cache.size < m.cache.capacity := by
  have hsubset : key :: m.cache.keys ⊆ internedKeys (log ++ [.interned key data]) := by
    intro key' hmem
    rw [internedKeys_append, List.mem_append]
    rcases List.mem_cons.mp hmem with rfl | hold
    · exact .inr List.mem_cons_self
    · exact .inl ((h.keys key').mp hold)
  -- The keys in the cache and the new one are all keys of the log, and different from each other.
  have hcount := length_le_rowCount (List.nodup_cons.mpr ⟨hnew, h.nodup⟩) hsubset
  rw [List.length_cons, IdentityCache.length_keys] at hcount
  have hcapacity : m.cache.capacity = capacity := h.capacity
  omega

/-- To use an entry changes nothing. -/
theorem renew (h : model.Kept capacity m log) (hheld : m.cache.Holds key id) :
    model.Kept capacity { m with cache := m.cache.renew key id } log where
  capacity := h.capacity
  coherent := h.coherent.mono fun _ _ => (IdentityCache.holds_renew_self h.nodup hheld).mp
  nodup := by
    rw [IdentityCache.keys_renew]
    exact h.nodup
  keys key' := by
    rw [IdentityCache.keys_renew]
    exact h.keys key'
  replayed key' id' hheld' :=
    h.replayed key' id' ((IdentityCache.holds_renew_self h.nodup hheld).mp hheld')

/-- A cached record gets the data that a longer log says. -/
theorem write (h : model.Kept capacity m log) (hheld : m.cache.Holds key id) {data : μ}
    {log' : List (Effect μ)} (hkey : model.keyOf data = .ok key)
    (hkeys : ∀ key', key' ∈ internedKeys log ↔ key' ∈ internedKeys log')
    (hself : model.replay key log' = some data)
    (hothers : ∀ key', key' ≠ key → model.replay key' log' = model.replay key' log) :
    model.Kept capacity ⟨m.cache, m.records.write id (model.wrap data)⟩ log' := by
  obtain ⟨before, hbefore, hkeybefore⟩ := h.coherent key id hheld
  have hcoherent := h.coherent.write ⟨id⟩ hbefore (hkey.trans hkeybefore.symm)
  refine ⟨h.capacity, hcoherent, h.nodup, fun key' => (h.keys key').trans (hkeys key'), ?_⟩
  intro key' id' hheld'
  by_cases hsame : key' = key
  · subst hsame
    have hid : id' = id := hheld'.unique h.nodup hheld
    subst hid
    rw [data?_write_self _ (id_lt_of_data? hbefore), hself]
  · -- Another key has another record.
    have hid : id' ≠ id := by
      intro heq
      subst heq
      exact hsame (h.coherent.key_eq hheld' hheld)
    rw [data?_write_ne _ hid, hothers key' hsame]
    exact h.replayed key' id' hheld'

/-- Data for a new key goes into a new record. -/
theorem insertNew (h : model.Kept capacity m log) (hnew : key ∉ m.cache.keys)
    (hroom : m.cache.size < m.cache.capacity) {data : μ} (hkey : model.keyOf data = .ok key) :
    model.Kept capacity
      ⟨m.cache.insertNew key m.records.next, m.records.add (model.wrap data)⟩
      (log ++ [.interned key data]) := by
  refine ⟨(IdentityCache.capacity_insertNew _ _ _).trans h.capacity,
    h.coherent.add hkey fun _ _ => IdentityCache.holds_of_insertNew,
    IdentityCache.nodup_insertNew h.nodup hnew, ?_, ?_⟩
  · intro key'
    rw [IdentityCache.mem_keys_insertNew hroom, h.keys, internedKeys_append, List.mem_append]
    exact or_comm.trans (or_congr_right List.mem_singleton.symm)
  · intro key' id' hheld
    rcases (IdentityCache.holds_insertNew hroom).mp hheld with ⟨rfl, rfl⟩ | hother
    · rw [data?_add_next, replay_interned_self]
    · -- Nothing is evicted, so the other entries keep their records and their data.
      have hne : key' ≠ key := fun heq => hnew (IdentityCache.mem_keys_iff.mpr ⟨id', heq ▸ hother⟩)
      obtain ⟨old, hold, -⟩ := h.coherent key' id' hother
      rw [data?_add _ (id_lt_of_data? hold), replay_interned_ne hne]
      exact h.replayed key' id' hother

/-- Interning data finds or makes the record of its key, and takes no
record from another key. -/
theorem internAt (h : model.Kept capacity m log) {data : μ} (hkey : model.keyOf data = .ok key)
    (hroom : rowCount (log ++ [.interned key data]) ≤ capacity) :
    model.Kept capacity (model.internAt key data m).2 (log ++ [.interned key data]) ∧
    (∀ key' id', m.cache.Holds key' id' → (model.internAt key data m).2.cache.Holds key' id') ∧
    (model.internAt key data m).2.cache.Holds key (model.internAt key data m).1.id := by
  have hlog : internedKeys (log ++ [.interned key data]) = internedKeys log ++ [key] := by
    simp [internedKeys]
  by_cases hmem : key ∈ m.cache.keys
  · -- The record that is there gets the data.
    obtain ⟨e, hfind⟩ := IdentityCache.find?_isSome hmem
    have hheld : m.cache.Holds key e.value := IdentityCache.holds_of_find? hfind
    obtain ⟨before, hbefore, -⟩ := h.coherent _ _ hheld
    have hinterned : key ∈ internedKeys (log ++ [.interned key data]) := by simp [hlog]
    have hcapacity : m.cache.capacity ≠ 0 := h.capacity_ne_zero hinterned hroom
    rw [internAt_of_find? hcapacity hfind hbefore]
    have hkeys : ∀ key', key' ∈ internedKeys log ↔
        key' ∈ internedKeys (log ++ [.interned key data]) := by
      intro key'
      rw [hlog, List.mem_append, List.mem_singleton]
      constructor
      · exact .inl
      · rintro (hold | rfl)
        · exact hold
        · exact (h.keys key').mp hmem
    have hwrite := h.write hheld hkey hkeys replay_interned_self fun key' => replay_interned_ne
    have hsame : ∀ key' id', (m.cache.renew key e.value).Holds key' id' ↔ m.cache.Holds key' id' :=
      fun _ _ => IdentityCache.holds_renew_self h.nodup hheld
    exact ⟨hwrite.renew hheld, fun key' id' => (hsame key' id').mpr, (hsame _ _).mpr hheld⟩
  · have hsize : m.cache.size < m.cache.capacity := h.size_lt_capacity hmem hroom
    have hcapacity : m.cache.capacity ≠ 0 := by omega
    rw [internAt_of_not_mem hmem, if_neg hcapacity]
    refine ⟨h.insertNew hmem hsize hkey, ?_, ?_⟩
    · intro key' id' hheld
      exact (IdentityCache.holds_insertNew hsize).mpr (.inr hheld)
    · exact (IdentityCache.holds_insertNew hsize).mpr (.inl ⟨rfl, rfl⟩)

/-- Merging into a cached record touches no other record, if the record
keeps its key. -/
theorem mergeAndSave (h : model.Kept capacity m log) {record : Record μ} {before : μ} {written : Row}
    (hheld : m.cache.Holds key record.id) (hbefore : model.data? m record = some before)
    (hcapacity : m.cache.capacity ≠ 0)
    (hkeep : model.keyOf (model.merged written before) = model.keyOf before) :
    model.Kept capacity (model.mergeAndSave record written m).2 (log ++ [.merged record before written]) ∧
    ∀ key' id', m.cache.Holds key' id' →
      (model.mergeAndSave record written m).2.cache.Holds key' id' := by
  have hkey : model.keyOf before = .ok key := by
    obtain ⟨data, hdata, hkey⟩ := h.coherent key record.id hheld
    cases hdata.symm.trans hbefore
    exact hkey
  have hmerged : model.keyOf (model.merged written before) = .ok key := hkeep.trans hkey
  have hself : model.replay key (log ++ [.merged record before written])
      = some (model.merged written before) := by
    rw [replay_merged_self hkey, ← h.replayed key record.id hheld, hbefore]
    rfl
  have hwrite := h.write hheld hmerged (by simp [internedKeys]) hself
    fun key' => replay_merged_ne hkey
  rcases memory_mergeAndSave written hbefore with heq | ⟨key', hkey', heq⟩
  · rw [heq]
    exact ⟨hwrite, fun key' id' => id⟩
  · -- The record is cached under its key already.
    have hsame : key' = key := Except.ok.inj (hkey'.symm.trans hmerged)
    subst hsame
    rw [heq]
    unfold save
    rw [IdentityCache.put_of_holds hcapacity hheld]
    refine ⟨hwrite.renew hheld, ?_⟩
    intro key' id' hheld'
    exact (IdentityCache.holds_renew_self h.nodup hheld).mpr hheld'

/-- A look at the cache changes nothing, and what it finds is cached. -/
theorem lookUp (h : model.Kept capacity m log) (key : String) :
    model.Kept capacity (model.cached? key m).2 log ∧
    (∀ key' id', m.cache.Holds key' id' → (model.cached? key m).2.cache.Holds key' id') ∧
    ∀ record, (model.cached? key m).1 = some record →
      (model.cached? key m).2.cache.Holds key record.id := by
  rw [memory_cached?]
  by_cases hmem : key ∈ m.cache.keys
  · obtain ⟨id, hheld⟩ := IdentityCache.mem_keys_iff.mp hmem
    -- A hit makes the entry the most recent one and changes nothing else.
    have hsame : ∀ key' id', (m.cache.renew key id).Holds key' id' ↔ m.cache.Holds key' id' :=
      fun _ _ => IdentityCache.holds_renew_self h.nodup hheld
    rw [IdentityCache.get_of_holds h.nodup hheld]
    refine ⟨h.renew hheld, fun key' id' => (hsame key' id').mpr, ?_⟩
    intro record hfound
    exact (hsame key record.id).mpr (of_cached? hfound).1
  · rw [IdentityCache.get_of_not_mem hmem]
    refine ⟨h, fun key' id' => id, ?_⟩
    intro record hfound
    exact (of_cached? hfound).1

/-- Nothing is to be kept yet. -/
theorem of_empty (hempty : m.cache.entries = []) : model.Kept m.cache.capacity m [] := by
  have hunheld : ∀ key id, ¬ m.cache.Holds key id := by
    rintro key id ⟨e, he, -⟩
    rw [hempty] at he
    exact nomatch he
  have hkeys : m.cache.keys = [] := by
    unfold IdentityCache.keys
    rw [hempty, List.map_nil]
  refine ⟨rfl, fun key id h => absurd h (hunheld key id), ?_, ?_,
    fun key id h => absurd h (hunheld key id)⟩
  · rw [hkeys]
    exact List.nodup_nil
  · intro key
    rw [hkeys]
    exact Iff.rfl

end Kept

/-- A log of a run in which nothing is removed, updates keep the keys of
their records, and there is room for all rows. -/
structure Fits (model : Model π μ) (capacity : Nat) (log : List (Effect μ)) : Prop where
  unremoved : ∀ effect ∈ log, effect.removes = false
  keys : model.KeepsKeys log
  room : rowCount log ≤ capacity

/-- Whether a log fits into a cache can be computed. -/
instance (capacity : Nat) (log : List (Effect μ)) : Decidable (model.Fits capacity log) :=
  decidable_of_iff ((∀ effect ∈ log, effect.removes = false) ∧ model.KeepsKeys log ∧
      rowCount log ≤ capacity)
    ⟨fun ⟨unremoved, keys, room⟩ => ⟨unremoved, keys, room⟩,
      fun ⟨unremoved, keys, room⟩ => ⟨unremoved, keys, room⟩⟩

/-- A log that fits did so all along. -/
theorem Fits.of_longer {capacity : Nat} {log' : List (Effect μ)} (h : model.Fits capacity log')
    (hgrows : log <+: log') : model.Fits capacity log where
  unremoved effect hmem := h.unremoved effect (hgrows.subset hmem)
  keys := h.keys.of_subset hgrows.subset
  room := Nat.le_trans (rowCount_mono hgrows) h.room

/-- The cache holds a record under the key of the row that it is for. -/
def Cached (m : Memory π) (r : RowRecord μ) : Prop :=
  ∃ key, r.key? = some key ∧ m.cache.Holds key r.record.id

/-- What was handed out stays cached as long as the entries stay. -/
theorem Cached.mono {m' : Memory π} {r : RowRecord μ} (h : Cached m r)
    (hstays : ∀ key id, m.cache.Holds key id → m'.cache.Holds key id) : Cached m' r := by
  obtain ⟨key, hkey, hheld⟩ := h
  exact ⟨key, hkey, hstays key r.record.id hheld⟩

/-- What happens to a memory keeps its records, and caches those that are
found under the keys that they are found for. -/
theorem Kept.happens {capacity : Nat} {m' : Memory π} {es : List (Effect μ)}
    {found : List (RowRecord μ)} (h : model.Kept capacity m log)
    (hhappens : model.Happens m es m' found) (hfits : model.Fits capacity (log ++ es))
    (hmerged : ∀ record before written, .merged record before written ∈ es →
      ∃ r : RowRecord μ, r.record = record ∧ Cached m r) :
    model.Kept capacity m' (log ++ es) ∧
    (∀ key id, m.cache.Holds key id → m'.cache.Holds key id) ∧
    ∀ r ∈ found, Cached m' r := by
  -- The log grows with each piece, so it is general in the induction.
  induction hhappens generalizing log with
  | nothing =>
      rw [List.append_nil]
      exact ⟨h, fun _ _ => id, nofun⟩
  | @looked m key =>
      obtain ⟨hkept, hstays, hfound⟩ := h.lookUp key
      rw [List.append_nil]
      refine ⟨hkept, hstays, ?_⟩
      intro r hr
      obtain ⟨record, hrecord, rfl⟩ := mem_forRows_toList.mp hr
      exact ⟨key, rfl, hfound record hrecord⟩
  | @interned m key data hkey =>
      obtain ⟨hkept, hheld, hfound⟩ := h.internAt hkey hfits.room
      refine ⟨hkept, hheld, ?_⟩
      intro r hr
      cases List.mem_singleton.mp hr
      exact ⟨key, rfl, hfound⟩
  | @merged m record before written hbefore =>
      obtain ⟨r, hr, key, -, hheld⟩ := hmerged record before written List.mem_cons_self
      rw [hr] at hheld
      have hkeep : model.keyOf (model.merged written before) = model.keyOf before :=
        hfits.keys (.merged record before written) (by simp)
      have hinterned : key ∈ internedKeys (log ++ [.merged record before written]) := by
        rw [internedKeys_append]
        exact List.mem_append_left _ ((h.keys key).mp (IdentityCache.mem_keys_iff.mpr ⟨_, hheld⟩))
      have hcapacity : m.cache.capacity ≠ 0 := h.capacity_ne_zero hinterned hfits.room
      obtain ⟨hkept, hstays⟩ := h.mergeAndSave hheld hbefore hcapacity hkeep
      exact ⟨hkept, hstays, nofun⟩
  | kept record =>
      -- Nothing is removed in a run whose log fits.
      exact nomatch hfits.unremoved (.removed record) (by simp)
  | forgot record key =>
      exact nomatch hfits.unremoved (.removed record) (by simp)
  | @append _ m' m'' es es' found found' _ _ ih ih' =>
      rw [← List.append_assoc] at hfits ⊢
      -- What the first part found is still cached after the second one.
      obtain ⟨hkept, hstays, hfound⟩ := ih h (hfits.of_longer (List.prefix_append _ _))
        fun record before written hmem =>
          hmerged record before written (List.mem_append_left _ hmem)
      obtain ⟨hkept', hstays', hfound'⟩ := ih' hkept hfits fun record before written hmem => by
        obtain ⟨r, hr, hcached⟩ := hmerged record before written (List.mem_append_right _ hmem)
        exact ⟨r, hr, hcached.mono hstays⟩
      refine ⟨hkept', fun key id hheld => hstays' key id (hstays key id hheld), ?_⟩
      intro r hmem
      rcases List.mem_append.mp hmem with hmem | hmem
      · exact (hfound r hmem).mono hstays'
      · exact hfound' r hmem

/-! ### Runs -/

/-- The cache keeps the records of all rows throughout. -/
def identity (model : Model π μ) (capacity : Nat) : Upkeep model where
  Holds := model.Kept capacity
  Stays m m' := ∀ key id, m.cache.Holds key id → m'.cache.Holds key id
  Known := Cached
  Fine := model.Fits capacity
  stays_refl _ _ _ hheld := hheld
  stays_trans hstays hstays' key id hheld := hstays' key id (hstays key id hheld)
  known_of_stays hstays _ hcached := hcached.mono hstays
  fine_of_longer hgrows hfits := hfits.of_longer hgrows
  keep hhappens _ hkept := hkept.happens hhappens

/-- A record stands for the row of a key: its data has this key, and is
what the log says about it. -/
def StandsFor (model : Model π μ) (w : Workload π μ) (record : Record μ) (key : String) : Prop :=
  ∃ data, model.data? w.memory record = some data ∧ model.keyOf data = .ok key ∧
    model.replay key w.log = some data

/-- A record that is held under a key stands for it. -/
theorem Kept.standsFor {capacity : Nat} {w : Workload π μ}
    (h : model.Kept capacity w.memory w.log) {key : String} {record : Record μ}
    (hheld : w.memory.cache.Holds key record.id) : model.StandsFor w record key := by
  obtain ⟨data, hdata, hkey⟩ := h.coherent key record.id hheld
  exact ⟨data, hdata, hkey, (h.replayed key record.id hheld).symm.trans hdata⟩

/-- The records that an operation is given were handed out before. -/
def HandedOut (returned : List (RowRecord μ)) (op : Operation μ) : Prop :=
  ∀ record ∈ op.given, ∃ r ∈ returned, r.record = record

/-- One row, one record. On a session whose cache starts empty, any
number of tasks read, insert and update rows through one model. Suppose
that every record that is updated was handed out before, that nothing is
removed, that no update changes the key of its record, and that the
cache has room for all rows of the run. Take a record that was handed
out by some moment `w`, and one that was handed out by a later moment
`w'`. Each was handed out for the row of a key: the key that the cache
was asked for, or that of the row that was read or inserted. It stands
for this row as long as it is there: its data is what was interned for
the key last, with the merges since then in order. And the two are the
same record if and only if they were handed out for the same key. -/
theorem one_record_per_row {scope : Scope π} {w w' : Workload π μ} {r r' : RowRecord μ}
    (hempty : scope.memory.cache.entries = [])
    (hruns : Workload.Runs model HandedOut { scope } w)
    (hlater : Workload.Runs model HandedOut w w')
    (hfits : model.Fits scope.memory.cache.capacity w'.log)
    (hreturned : r ∈ w.returned) (hreturned' : r' ∈ w'.returned) :
    ∃ key key', r.key? = some key ∧ r'.key? = some key' ∧
      model.StandsFor w r.record key ∧ model.StandsFor w' r.record key ∧
      model.StandsFor w' r'.record key' ∧ (r.record = r'.record ↔ key = key') := by
  have hstart := @Upkeep.Upheld.start _ _ _ (identity model scope.memory.cache.capacity) _
    (Kept.of_empty hempty)
  have hallowed : ∀ m (returned : List (RowRecord μ)) op, (∀ r ∈ returned, Cached m r) →
      HandedOut returned op → (identity model scope.memory.cache.capacity).KnowsGiven m op := by
    intro m returned op hknown hop record hgiven
    obtain ⟨r, hr, hrecord⟩ := hop record hgiven
    exact ⟨r, hrecord, hknown r hr⟩
  -- First the run up to the earlier moment, then from there to the later one.
  obtain ⟨hw, -⟩ := hstart.runs hruns hallowed (hfits.of_longer hlater.log_grows)
  obtain ⟨hw', hstays⟩ := hw.runs hlater hallowed hfits
  obtain ⟨key, hkey, hheld⟩ := hw.returned r hreturned
  obtain ⟨key', hkey', hheld'⟩ := hw'.returned r' hreturned'
  -- The earlier record is still held under its key.
  have hlast : w'.memory.cache.Holds key r.record.id := hstays key r.record.id hheld
  refine ⟨key, key', hkey, hkey', hw.holds.standsFor hheld, hw'.holds.standsFor hlast,
    hw'.holds.standsFor hheld', ?_⟩
  constructor
  · intro heq
    rw [heq] at hlast
    exact hw'.holds.coherent.key_eq hlast hheld'
  · intro heq
    subst heq
    have hid : r.record.id = r'.record.id := hlast.unique hw'.holds.nodup hheld'
    exact congrArg Record.mk hid

/-- Two tasks read the same member at once and both meet in one record,
one of them another member with it. Then the role of the first member is
changed, and a look at the cache for its key finds the record again. -/
theorem one_record_per_row_race :
    ∃ (ann bob : String) (w w' : Workload Sample.Payload Sample.Member),
      Sample.member.key [.uint 1, .text "ann"] = .ok ann ∧
      Sample.member.key [.uint 2, .text "bob"] = .ok bob ∧
      w.returned = [⟨some ann, ⟨0⟩⟩, ⟨some bob, ⟨1⟩⟩, ⟨some ann, ⟨0⟩⟩] ∧
      Sample.member.data? w.memory ⟨0⟩ = some ⟨1, "ann", some "guest"⟩ ∧
      w'.returned = ⟨some ann, ⟨0⟩⟩ :: w.returned ∧
      Sample.member.data? w'.memory ⟨0⟩ = some ⟨1, "ann", some "owner"⟩ ∧
      ∃ key key', some bob = some key ∧ some ann = some key' ∧
        Sample.member.StandsFor w ⟨1⟩ key ∧ Sample.member.StandsFor w' ⟨1⟩ key ∧
        Sample.member.StandsFor w' ⟨0⟩ key' ∧
        ((⟨1⟩ : Record Sample.Member) = ⟨0⟩ ↔ key = key') := by
  let scope : Scope Sample.Payload := ⟨.start, .ofConfig {}, .empty, []⟩
  let row (org : UInt64) (login role : String) : Row :=
    ⟨[("org", .uint org), ("login", .text login), ("role", .text role)]⟩
  let ann : RowRecord Sample.Member := ⟨some "org.members AS m`u1`s3:ann", ⟨0⟩⟩
  let bob : RowRecord Sample.Member := ⟨some "org.members AS m`u2`s3:bob", ⟨1⟩⟩
  have h0 : Workload.Runs Sample.member HandedOut { scope } { scope } := .refl
  have h1 := h0.start (.selectManyWithSql "q" []) fun _ hgiven => nomatch hgiven
  have h2 := h1.start (.selectManyWithSql "r" []) fun _ hgiven => nomatch hgiven
  -- Both reads are under way at once, and both bring the row of one member.
  have h3 := h2.answer [_] ⟨.selectManyWithSql .., _, .query .., _⟩
    (some (.ok [row 1 "ann" "member"])) rfl
  have h4 := h3.answer [] ⟨.selectManyWithSql .., _, .query .., _⟩
    (some (.ok [row 1 "ann" "guest", row 2 "bob" "member"])) rfl
  have h5 := h4.anew.start (.update ⟨0⟩ [("role", .text "owner")]) (by
    unfold HandedOut
    decide +kernel)
  have h6 := h5.answer [] ⟨.update .., _, .exec .., _⟩ (some (.ok ⟨1, none⟩)) rfl
  -- The last operation makes no call: it finds the record in the cache.
  have h7 := h6.start (.queryCache [.uint 1, .text "ann"]) fun _ hgiven => nomatch hgiven
  have hrow := one_record_per_row rfl h4 h7 (by decide +kernel)
    (show bob ∈ _ by decide +kernel) (show ann ∈ _ by decide +kernel)
  exact ⟨"org.members AS m`u1`s3:ann", "org.members AS m`u2`s3:bob", _, _, by decide +kernel,
    by decide +kernel, by decide +kernel, by decide +kernel, by decide +kernel,
    by decide +kernel, hrow⟩

end SqlSession.Model
