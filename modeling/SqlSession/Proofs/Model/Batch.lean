import SqlSession.Proofs.Model.Soundness
import SqlSession.Sample.Models

/-!
# `SqlSession.Proofs.Model.Batch`: rows that are interned together

The rows of one result are interned one after another, and each of them
may put an entry out of the cache. `internRows_represents` says that this
does no harm as long as there is room for the keys of the rows, however
full the cache is and whatever is in it: rows of one key have one record,
which is cached in the end and has the data of the last of these rows,
and rows of different keys have different records.

The reason is the order of last use. `Lru.Leads` says that the items of
the keys used so far stand in front of all others. While there is room
for them none of them is the last, so what goes is an item of another key
(`Lru.Leads.store`). `Batch` is the invariant: what is true of the memory
after some of the rows. `Batch.internAt` takes it over one row, and
`Batch.internRows` over all of them. Rows after one that cannot be read,
or whose data has no key, are left out (`internRows_append`).
-/

set_option autoImplicit false

namespace SqlSession

variable {π μ α : Type}

/-! ### Items in front -/

namespace Lru

variable {l : Lru α} {capacity : Nat} {key key' : String} {value value' : α} {keys : List String}

/-- What goes when there are too many items is none of those in front, if
there is room for these. -/
theorem fit_append {recent older : List (String × α)} (h : recent.length ≤ capacity) :
    ∃ kept, fit capacity (recent ++ older) = recent ++ kept := by
  unfold fit
  split
  · rename_i hover
    have hne : older ≠ [] := by
      intro hnil
      rw [hnil, List.append_nil] at hover
      omega
    exact ⟨older.dropLast, List.dropLast_append_of_ne_nil hne⟩
  · exact ⟨older, rfl⟩

/-- The items under other keys, and no others. -/
theorem mem_others {items : List (String × α)} {item : String × α} :
    item ∈ others key items ↔ item ∈ items ∧ item.1 ≠ key := by
  simp [others]

/-- The keys of some items with one more. -/
theorem mem_keys_cons_others {items : List (String × α)} :
    key' ∈ ((key, value) :: others key items).map Prod.fst ↔
      key' = key ∨ key' ∈ items.map Prod.fst := by
  simp only [List.map_cons, List.mem_cons, List.mem_map, mem_others]
  constructor
  · rintro (rfl | ⟨item, ⟨hitem, -⟩, rfl⟩)
    · exact .inl rfl
    · exact .inr ⟨item, hitem, rfl⟩
  · rintro (rfl | ⟨item, hitem, rfl⟩)
    · exact .inl rfl
    · by_cases hkey : item.1 = key
      · exact .inl hkey
      · exact .inr ⟨item, ⟨hitem, hkey⟩, rfl⟩

/-- The new item and those in front stay in front, if there is room for
them. -/
theorem items_store_append {recent older : List (String × α)} (h : l.items = recent ++ older)
    (hroom : ((key, value) :: others key recent).length ≤ l.capacity) :
    ∃ kept, (l.store key value).items = ((key, value) :: others key recent) ++ kept := by
  have hothers : others key l.items = others key recent ++ others key older := by
    rw [h]
    exact List.filter_append ..
  show ∃ kept, fit l.capacity ((key, value) :: others key l.items) = _
  rw [hothers]
  exact fit_append hroom

/-- The items of some keys are there, and stand in front of all others. -/
def Leads (l : Lru α) (keys : List String) : Prop :=
  ∃ recent older, l.items = recent ++ older ∧ ∀ key, key ∈ recent.map Prod.fst ↔ key ∈ keys

/-- Where no key was used yet there is nothing that must stand in front. -/
theorem leads_nil (l : Lru α) : l.Leads [] := ⟨[], l.items, rfl, fun _ => Iff.rfl⟩

/-- To store one more value puts its key in front as well, if there is room
for all of them. The items of the others stay. -/
theorem Leads.store (h : l.Leads keys) (hroom : (keys ++ [key]).dedup.length ≤ l.capacity)
    (value : α) :
    (l.store key value).Leads (keys ++ [key]) ∧
    ∀ key' value', key' ∈ keys → key' ≠ key → (key', value') ∈ l.items →
      (key', value') ∈ (l.store key value).items := by
  obtain ⟨recent, older, hitems, hkeys⟩ := h
  have hnodup : ((recent ++ older).map Prod.fst).Nodup := hitems ▸ l.nodup
  have hfront : ∀ key', key' ∈ ((key, value) :: others key recent).map Prod.fst ↔
      key' ∈ keys ++ [key] := by
    intro key'
    rw [mem_keys_cons_others, hkeys, List.mem_append, List.mem_singleton, or_comm]
  -- The keys in front are different ones among those used so far, and so there is room for them.
  have hlength : ((key, value) :: others key recent).length ≤ l.capacity := by
    have hdistinct : (((key, value) :: others key recent).map Prod.fst).Nodup := by
      refine nodup_cons_others (hnodup.sublist ?_)
      exact (List.sublist_append_left recent older).map Prod.fst
    have hcount := IdentityCache.length_le_dedup hdistinct fun key' hkey' => (hfront key').mp hkey'
    rw [List.length_map] at hcount
    exact Nat.le_trans hcount hroom
  obtain ⟨kept, hstored⟩ := items_store_append hitems hlength
  refine ⟨⟨_, kept, hstored, hfront⟩, ?_⟩
  intro key' value' hkey' hne hitem
  -- The item of a key in front does not stand behind, too.
  have hrecent : (key', value') ∈ recent := by
    rw [hitems, List.mem_append] at hitem
    refine hitem.resolve_right ?_
    intro hbehind
    rw [List.map_append, List.nodup_append] at hnodup
    exact hnodup.2.2 key' ((hkeys key').mpr hkey') key' (List.mem_map_of_mem hbehind) rfl
  rw [hstored]
  exact List.mem_append_left _ (List.mem_cons_of_mem _ (mem_others.mpr ⟨hrecent, hne⟩))

/-- Room for the keys of some rows with one more is some room. -/
theorem capacity_ne_zero (hroom : (keys ++ [key]).dedup.length ≤ l.capacity) : l.capacity ≠ 0 := by
  have hcount := IdentityCache.length_le_dedup (List.nodup_singleton key)
    (List.subset_append_right keys [key])
  rw [List.length_singleton] at hcount
  omega

end Lru

namespace Model

variable {model : Model π μ} {m : Memory π} {l : Lru RecordId} {key : String} {data : μ}

/-! ### One row -/

/-- What a row is read as: the key of its data, and the data. -/
def identified (model : Model π μ) (row : Row) : Except Error (String × μ) :=
  match model.fromRow row with
  | .error e => .error e
  | .ok data => (model.keyOf data).map fun key => (key, data)

/-- A row is interned under its key, unless it cannot be read or has no
key. -/
theorem internRow_eq (row : Row) :
    model.internRow row m =
      match model.identified row with
      | .error e => (.error e, m)
      | .ok (key, data) =>
          (.ok (model.internAt key data m).1, (model.internAt key data m).2) := by
  unfold internRow intern identified keyOf
  cases model.fromRow row with
  | error e => rfl
  | ok data =>
      dsimp only
      cases model.key (model.indexValues data) with
      | error e => rfl
      | ok key => rfl

/-- Interning rows stops at the first that fails, and what was interned
before it stays in the memory. -/
theorem internRows_cons (row : Row) (rows : List Row) :
    model.internRows (row :: rows) m =
      match model.internRow row m with
      | (.error e, m) => (.error e, m)
      | (.ok record, m) =>
          ((model.internRows rows m).1.map (record :: ·), (model.internRows rows m).2) := rfl

/-- No record is cached under two keys. -/
def Unshared (m : Memory π) : Prop :=
  ∀ key key' id, m.cache.Holds key id → m.cache.Holds key' id → key = key'

/-- Where every entry has a record of its own, no record has two keys. -/
theorem unshared_of_nodup (h : (m.cache.entries.map CacheEntry.value).Nodup) : Unshared m := by
  rintro key key' id ⟨e, he, rfl, hvalue⟩ ⟨e', he', rfl, hvalue'⟩
  rw [List.inj_on_of_nodup_map h he he' (hvalue.trans hvalue'.symm)]

/-- What interning does where no record is cached under two keys. The
record of the data is a new one, or the one that its key has already, and
the records of other keys are left alone. -/
theorem internAt_of_unshared (model : Model π μ) (h : m.Sound) (hl : m.cache.Refines l)
    (hunshared : Unshared m) (key : String) (data : μ) :
    ∃ id, (model.internAt key data m).1 = ⟨id⟩ ∧
      (model.internAt key data m).2.cache.Refines (l.store key id) ∧
      model.data? (model.internAt key data m).2 ⟨id⟩ = some data ∧
      (∀ id', m.cache.Holds key id' → (model.data? m ⟨id'⟩).isSome → id' = id) ∧
      ∀ key' id', m.cache.Holds key' id' → key' ≠ key →
        id' ≠ id ∧ model.data? (model.internAt key data m).2 ⟨id'⟩ = model.data? m ⟨id'⟩ := by
  obtain ⟨id, before, cache, hheld, hbefore, hcache, heq⟩ | ⟨cache, hnone, hcache, heq⟩ :=
    internAt_cases h hl key data
  · rw [heq]
    refine ⟨id, rfl, hcache, data?_write_self _ (h.made key id hheld), ?_, ?_⟩
    · intro id' hheld' _
      exact hheld'.unique h.nodup_keys hheld
    · intro key' id' hheld' hne
      -- A record that another key has too would be shared by the two.
      have hother : id' ≠ id := by
        rintro rfl
        exact hne (hunshared key' key id' hheld' hheld)
      exact ⟨hother, data?_write_ne _ hother⟩
  · rw [heq]
    refine ⟨m.records.next, rfl, hcache, data?_add_next _, ?_, ?_⟩
    · intro id' hheld' hsome
      rw [hnone id' hheld'] at hsome
      exact nomatch hsome
    · intro key' id' hheld' _
      have hmade : id' < m.records.next := h.made key' id' hheld'
      exact ⟨Nat.ne_of_lt hmade, data?_add _ hmade⟩

/-- Interning puts no record under a second key. -/
theorem Unshared.internAt (hunshared : Unshared m) (h : m.Sound) (model : Model π μ) (key : String)
    (data : μ) : Unshared (model.internAt key data m).2 := by
  obtain ⟨l, hl⟩ := h.refines
  obtain ⟨id, -, hcache, -, -, hothers⟩ := model.internAt_of_unshared h hl hunshared key data
  intro key₁ key₂ id' hheld₁ hheld₂
  rcases hl.holds_of_store hcache hheld₁ with ⟨rfl, rfl⟩ | ⟨hne₁, hold₁⟩
  · rcases hl.holds_of_store hcache hheld₂ with ⟨rfl, -⟩ | ⟨hne₂, hold₂⟩
    · rfl
    · exact absurd rfl (hothers key₂ id' hold₂ hne₂).1
  · rcases hl.holds_of_store hcache hheld₂ with ⟨rfl, rfl⟩ | ⟨-, hold₂⟩
    · exact absurd rfl (hothers key₁ id' hold₁ hne₁).1
    · exact hunshared key₁ key₂ id' hold₁ hold₂

/-! ### Some of the rows -/

/-- What is true of a memory after rows with some keys and data were
interned, and had some records. -/
structure Batch (model : Model π μ) (m : Memory π) (found : List (String × μ))
    (records : List (Record μ)) : Prop where
  sound : m.Sound
  unshared : Unshared m
  leads : ∃ l : Lru RecordId, m.cache.Refines l ∧ l.Leads (found.map Prod.fst)
  length_eq : records.length = found.length
  held : ∀ record row, (record, row) ∈ records.zip found → m.cache.Holds row.1 record.id
  data : ∀ key id, key ∈ found.map Prod.fst → m.cache.Holds key id →
    model.data? m ⟨id⟩ = found.reverse.lookup key

namespace Batch

variable {found : List (String × μ)} {records : List (Record μ)}

/-- Before the first row there is nothing to hold, whatever is in the
cache. -/
theorem start (model : Model π μ) (hsound : m.Sound) (hunshared : Unshared m) :
    Batch model m [] [] where
  sound := hsound
  unshared := hunshared
  leads := by
    obtain ⟨l, hl⟩ := hsound.refines
    exact ⟨l, hl, l.leads_nil⟩
  length_eq := rfl
  held _ _ hrow := nomatch hrow
  data _ _ hkey := nomatch hkey

/-- A key that was found has data. -/
theorem isSome_lookup (hkey : key ∈ found.map Prod.fst) : (found.reverse.lookup key).isSome := by
  obtain ⟨row, hrow, rfl⟩ := List.mem_map.mp hkey
  rw [Option.isSome_iff_ne_none]
  intro hnone
  simpa using List.lookup_eq_none_iff.mp hnone row (List.mem_reverse.mpr hrow)

/-- One more row. -/
theorem internAt (h : Batch model m found records) (key : String) (data : μ)
    (hroom : ((found ++ [(key, data)]).map Prod.fst).dedup.length ≤ m.cache.capacity) :
    Batch model (model.internAt key data m).2 (found ++ [(key, data)])
      (records ++ [(model.internAt key data m).1]) := by
  obtain ⟨l, hl, hleads⟩ := h.leads
  rw [List.map_append, hl.capacity] at hroom
  obtain ⟨id, hid, hcache, hdata, hsame, hothers⟩ :=
    model.internAt_of_unshared h.sound hl h.unshared key data
  obtain ⟨hleads', hstays⟩ := hleads.store hroom id
  have hself : (model.internAt key data m).2.cache.Holds key id :=
    hcache.ranks.holds_iff.mpr (Lru.mem_store_self (Lru.capacity_ne_zero hroom))
  refine ⟨h.sound.internAt model key data, h.unshared.internAt h.sound model key data,
    ⟨_, hcache, ?_⟩, ?_, ?_, ?_⟩
  · rw [List.map_append]
    exact hleads'
  · simp [h.length_eq]
  · intro record row hrow
    rw [List.zip_append h.length_eq, List.mem_append] at hrow
    rcases hrow with hrow | hrow
    · -- The record of a row before stays where it is, also if the new row has its key.
      have hheld := h.held record row hrow
      have hkey : row.1 ∈ found.map Prod.fst := List.mem_map_of_mem (List.of_mem_zip hrow).2
      by_cases hsamekey : row.1 = key
      · have hsome := isSome_lookup hkey
        rw [← h.data row.1 record.id hkey hheld] at hsome
        rw [hsamekey] at hheld ⊢
        rw [hsame record.id hheld hsome]
        exact hself
      · have hitem := hstays row.1 record.id hkey hsamekey (hl.ranks.holds_iff.mp hheld)
        exact hcache.ranks.holds_iff.mpr hitem
    · simp only [List.zip_cons_cons, List.zip_nil_right, List.mem_singleton, Prod.mk.injEq] at hrow
      obtain ⟨rfl, rfl⟩ := hrow
      rw [hid]
      exact hself
  · intro key' id' hkey hheld
    rw [List.reverse_append, List.reverse_singleton, List.singleton_append, List.lookup_cons]
    rcases hl.holds_of_store hcache hheld with ⟨rfl, rfl⟩ | ⟨hne, hold⟩
    · simpa using hdata
    · have hfound : key' ∈ found.map Prod.fst := by simpa [hne] using hkey
      rw [(hothers key' id' hold hne).2, h.data key' id' hfound hold, beq_false_of_ne hne]

/-- Any number of further rows. -/
theorem internRows (h : Batch model m found records) {rows : List Row} {more : List (String × μ)}
    (hmore : rows.map model.identified = more.map .ok)
    (hroom : ((found ++ more).map Prod.fst).dedup.length ≤ m.cache.capacity) :
    ∃ others m', model.internRows rows m = (.ok others, m') ∧
      Batch model m' (found ++ more) (records ++ others) := by
  -- The rows are taken from the front, so what was found before is general.
  induction rows generalizing m found records more with
  | nil =>
      obtain rfl : more = [] := List.map_eq_nil_iff.mp hmore.symm
      refine ⟨[], m, rfl, ?_⟩
      rw [List.append_nil, List.append_nil]
      exact h
  | cons row rows ih =>
      obtain ⟨⟨key, data⟩, rest, rfl, hrow, hrest⟩ := List.map_eq_cons_iff.mp hmore.symm
      have hfirst : found ++ (key, data) :: rest = (found ++ [(key, data)]) ++ rest :=
        List.append_cons ..
      rw [hfirst] at hroom
      have hroom' : ((found ++ [(key, data)]).map Prod.fst).dedup.length ≤ m.cache.capacity := by
        refine Nat.le_trans (IdentityCache.length_le_dedup (List.nodup_dedup _) ?_) hroom
        intro key' hkey'
        rw [List.map_append]
        exact List.mem_append_left _ (List.mem_dedup.mp hkey')
      rw [← h.sound.capacity_internAt model key data] at hroom
      obtain ⟨others, m', hothers, hbatch⟩ := ih (h.internAt key data hroom') hrest.symm hroom
      refine ⟨(model.internAt key data m).1 :: others, m', ?_, ?_⟩
      · rw [internRows_cons, internRow_eq, ← hrow]
        dsimp only
        rw [hothers]
        rfl
      · rw [hfirst, List.append_cons records]
        exact hbatch

end Batch

/-! ### All rows -/

/-- Some rows are represented by records, in order. Rows of one key have
one record, and rows of different keys have different ones. A look at the
cache finds the record of a row under its key, and the record has the
data of the last of the rows with this key. -/
structure Represents (model : Model π μ) (m : Memory π) (found : List (String × μ))
    (records : List (Record μ)) : Prop where
  length_eq : records.length = found.length
  record_eq_iff : ∀ i j (hi : i < found.length) (hj : j < found.length),
    records[i]? = records[j]? ↔ found[i].1 = found[j].1
  cached : ∀ i (hi : i < found.length), (model.cached? found[i].1 m).1 = records[i]?
  data : ∀ i (hi : i < found.length) record, records[i]? = some record →
    model.data? m record = found.reverse.lookup found[i].1

/-- After all rows the invariant is the statement: each record is found
where its row says, with the data of the last row of its key. -/
theorem Batch.represents {found : List (String × μ)} {records : List (Record μ)}
    (h : Batch model m found records) : model.Represents m found records := by
  have hheld : ∀ i (hi : i < found.length), ∃ record, records[i]? = some record ∧
      m.cache.Holds found[i].1 record.id := by
    intro i hi
    have hi' : i < records.length := h.length_eq ▸ hi
    refine ⟨records[i], List.getElem?_eq_getElem hi', h.held _ _ ?_⟩
    have hzip : i < (records.zip found).length := by
      rw [List.length_zip]
      exact Nat.lt_min.mpr ⟨hi', hi⟩
    exact List.mem_iff_getElem.mpr ⟨i, hzip, List.getElem_zip⟩
  -- Searched from the end, the rows give for a key the data of its last row.
  have hdata : ∀ i (hi : i < found.length) record, m.cache.Holds found[i].1 record.id →
      model.data? m record = found.reverse.lookup found[i].1 := by
    intro i hi record hheld
    exact h.data _ _ (List.mem_map_of_mem (List.getElem_mem hi)) hheld
  refine ⟨h.length_eq, ?_, ?_, ?_⟩
  · intro i j hi hj
    obtain ⟨record, hrecord, hkey⟩ := hheld i hi
    obtain ⟨record', hrecord', hkey'⟩ := hheld j hj
    rw [hrecord, hrecord']
    constructor
    · intro heq
      cases heq
      exact h.unshared _ _ _ hkey hkey'
    · intro heq
      rw [heq] at hkey
      have hid : record.id = record'.id := hkey.unique h.sound.nodup_keys hkey'
      rw [Record.eq_of_id hid]
  · intro i hi
    obtain ⟨record, hrecord, hkey⟩ := hheld i hi
    have hsome : (found.reverse.lookup found[i].1).isSome :=
      Batch.isSome_lookup (List.mem_map_of_mem (List.getElem_mem hi))
    rw [← hdata i hi record hkey] at hsome
    rw [hrecord]
    exact cached?_of_holds h.sound hkey hsome
  · intro i hi record hrecord
    obtain ⟨record', hrecord', hkey⟩ := hheld i hi
    cases hrecord.symm.trans hrecord'
    exact hdata i hi record hkey

/-- Rows after other rows are interned where these have led, and not at all
if one of these failed. -/
theorem internRows_append (rows more : List Row) :
    model.internRows (rows ++ more) m =
      match model.internRows rows m with
      | (.error e, m) => (.error e, m)
      | (.ok records, m) =>
          ((model.internRows more m).1.map (records ++ ·), (model.internRows more m).2) := by
  induction rows generalizing m with
  | nil =>
      show model.internRows more m = ((model.internRows more m).1.map ([] ++ ·), _)
      cases hmore : (model.internRows more m).1 <;> simp [Except.map, ← hmore]
  | cons row rows ih =>
      rw [List.cons_append, internRows_cons, internRows_cons]
      rcases model.internRow row m with ⟨result, later⟩
      cases result with
      | error e => rfl
      | ok record =>
          dsimp only
          rw [ih]
          rcases model.internRows rows later with ⟨results, last⟩
          cases results with
          | error e => rfl
          | ok records =>
              simp only [Except.map]
              cases (model.internRows more last).1 <;> rfl

/-- A batch of rows is interned consistently. Take a memory in which no
record is cached under two keys, and rows that can be read and have keys,
of which no more are different than the cache has room for. The rows are
given records that represent them: there is one record for each key, it is
cached afterwards, and it has the data of the last row with the key. It
does not matter what else was cached before, by this model or by another
one. If a row that cannot be read, or has no key, comes after such rows,
its error is the result, and the rows before it are interned as if they
were all. -/
theorem internRows_represents {rows : List Row} {found : List (String × μ)} (hsound : m.Sound)
    (hunshared : Unshared m) (hfound : rows.map model.identified = found.map .ok)
    (hroom : (found.map Prod.fst).dedup.length ≤ m.cache.capacity) :
    ∃ records m', model.internRows rows m = (.ok records, m') ∧
      model.Represents m' found records ∧
      ∀ row e rest, model.identified row = .error e →
        model.internRows (rows ++ row :: rest) m = (.error e, m') := by
  obtain ⟨records, m', hrows, hbatch⟩ :=
    (Batch.start model hsound hunshared).internRows hfound hroom
  refine ⟨records, m', hrows, hbatch.represents, ?_⟩
  intro row e rest herror
  have hlast : model.internRows (row :: rest) m' = (.error e, m') := by
    rw [internRows_cons, internRow_eq, herror]
  rw [internRows_append, hrows]
  dsimp only
  rw [hlast]
  rfl

/-- A session with room for two records holds two accounts when three
users are interned. The first user puts an account out, the second one
takes the place of the other account, and the third is the first one
again. A fourth row has no name. -/
theorem internRows_represents_crowded :
    ∃ (machine : Machine Sample.Payload Unit) (records : List (Record Sample.User))
      (m' : Memory Sample.Payload),
      let m := machine.scope.memory
      let row : Int64 → String → Row := fun id name => ⟨[("id", .int id), ("name", .text name)]⟩
      let rows := [row 7 "ann", row 1 "bob", row 7 "cy"]
      let found : List (String × Sample.User) :=
        [("users`u7", ⟨7, "ann", 0⟩), ("users`u1", ⟨1, "bob", 0⟩), ("users`u7", ⟨7, "cy", 0⟩)]
      m.Sound ∧ Unshared m ∧ m.cache.keys = ["users`u1", "users`u9"] ∧
      (Sample.user.cached? "users`u1" m).1 = none ∧
      Sample.user.internRows rows m = (.ok records, m') ∧ records = [⟨2⟩, ⟨3⟩, ⟨2⟩] ∧
      Sample.user.Represents m' found records ∧
      Sample.user.data? m' ⟨2⟩ = some ⟨7, "cy", 0⟩ ∧
      Sample.user.internRows (rows ++ [⟨[("id", .int 8)]⟩, row 9 "dan"]) m
        = (.error (.decode "name" .columnNotFound), m') := by
  let scope : Scope Sample.Payload := ⟨.start, .ofConfig { cacheCapacity := 2 }, .empty, []⟩
  let account : Int64 → Row := fun id => ⟨[("id", .int id), ("email", .null)]⟩
  let row : Int64 → String → Row := fun id name => ⟨[("id", .int id), ("name", .text name)]⟩
  have hroutine : Routine (do
      let _ ← ((Operation.selectManyWithSql "q" []).run Sample.account).run
      return () : Program Sample.Payload Unit) := .bind (.operation _ _) fun _ => .pure _
  let idle : Machine Sample.Payload Unit := { scope }
  have hreading := Relation.ReflTransGen.single (r := Step Routine)
    (Step.start (m := idle) hroutine)
  have hread := hreading.tail (@Step.answer _ _ _ _ [] [] ⟨0, .query .., _⟩
    (some (.ok [account 9, account 1])) rfl (fun _ h => nomatch h))
  have hsound := (Machine.Sound.of_runs rfl hread).memory
  obtain ⟨records, m', hrows, hrepresents, hfails⟩ :=
    @internRows_represents _ _ Sample.user _ [row 7 "ann", row 1 "bob", row 7 "cy"]
      [("users`u7", ⟨7, "ann", 0⟩), ("users`u1", ⟨1, "bob", 0⟩), ("users`u7", ⟨7, "cy", 0⟩)]
      hsound (unshared_of_nodup (by decide +kernel)) rfl (by decide +kernel)
  have hresult : records = [⟨2⟩, ⟨3⟩, ⟨2⟩] := by
    have hfirst := congrArg (fun run => run.1.toOption) hrows
    exact Option.some.inj (hfirst.symm.trans (by decide +kernel))
  have hlast : Sample.user.data? m' ⟨2⟩ = some ⟨7, "cy", 0⟩ :=
    hrepresents.data 0 (by decide) ⟨2⟩ (by rw [hresult]; rfl)
  exact ⟨_, records, m', hsound, unshared_of_nodup (by decide +kernel), by decide +kernel,
    by decide +kernel, hrows, hresult, hrepresents, hlast,
    hfails _ _ [row 9 "dan"] rfl⟩

end Model

end SqlSession
