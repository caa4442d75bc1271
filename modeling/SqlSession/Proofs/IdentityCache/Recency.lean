import Mathlib.Data.List.Basic
import SqlSession.Proofs.IdentityCache

/-!
# `SqlSession.Proofs.IdentityCache.Recency`: the order of last use

The textbook cache `Lru` is a list of items with different keys, the one
that was used last in front. To use an item moves it to the front, and
when there is one item too many, the last one goes.

An `IdentityCache` keeps its entries in no particular order, with a
stamp on each. `Ranks` says that its entries, sorted by their stamps
from the newest to the oldest, are the items of a list. The stamps are
pairwise different and the counter has reached all of them, so every new
stamp is the newest, and the smallest stamp is that of the last item.

Each operation has one lemma that says what it does to the ranking.
`Refines.ask` puts them together for any request, and `refines_lru` says
that a cache answers any sequence of requests as the textbook cache
does, in whatever order its entries stand.
-/

set_option autoImplicit false

namespace SqlSession

variable {σ α : Type}

/-! ### Requests -/

/-- Something to ask of a cache. Making a value may depend on a state
outside of the cache, and change it. -/
inductive CacheRequest (σ α : Type) where
  | get (key : String)
  | put (key : String) (value : α)
  | getOrInsertWith (key : String) (make : σ → α × σ)
  | contains (key : String)
  | remove (key : String)
  | clear
  | size

/-- What a request is answered with. -/
abbrev CacheRequest.Answer : CacheRequest σ α → Type
  | .get _ | .remove _ => Option α
  | .put .. | .clear => Unit
  | .getOrInsertWith .. => α
  | .contains _ => Bool
  | .size => Nat

/-- A request with its answer. -/
structure CacheReply (σ α : Type) where
  request : CacheRequest σ α
  answer : request.Answer

namespace CacheReply

/-- The value that is stored under a key by a request. What is handed out
for a key by `getOrInsertWith` is stored by it, or was stored already. -/
def stored? (key : String) : CacheReply σ α → Option α
  | ⟨.put key' value, _⟩ => if key' = key then some value else none
  | ⟨.getOrInsertWith key' _, value⟩ => if key' = key then some value else none
  | _ => none

/-- The value that is stored under a key last, by one reply after another. -/
def lastStored? (key : String) : List (CacheReply σ α) → Option α
  | [] => none
  | r :: later => (lastStored? key later).or (r.stored? key)

end CacheReply

/-! ### The textbook cache -/

/-- Items with different keys, the one that was used last in front. -/
structure Lru (α : Type) where
  capacity : Nat
  items : List (String × α)
  nodup : (items.map Prod.fst).Nodup
  room : items.length ≤ capacity

namespace Lru

/-- Drops the last of some items if there are too many. -/
def fit (capacity : Nat) (items : List (String × α)) : List (String × α) :=
  if capacity < items.length then items.dropLast else items

/-- The items of other keys. -/
def others (key : String) (items : List (String × α)) : List (String × α) :=
  items.filter fun item => item.1 != key

/-- What goes when there are too many items is at the end. -/
theorem fit_sublist (capacity : Nat) (items : List (String × α)) :
    (fit capacity items).Sublist items := by
  unfold fit
  split
  · exact List.dropLast_sublist _
  · exact List.Sublist.refl _

/-- One item too many is one that goes. -/
theorem length_fit_le {capacity : Nat} {items : List (String × α)}
    (h : items.length ≤ capacity + 1) : (fit capacity items).length ≤ capacity := by
  unfold fit
  split
  · rw [List.length_dropLast]
    omega
  · omega

/-- An item in front of those with other keys repeats no key. -/
theorem nodup_cons_others {key : String} {value : α} {items : List (String × α)}
    (h : (items.map Prod.fst).Nodup) : (((key, value) :: others key items).map Prod.fst).Nodup := by
  rw [List.map_cons, List.nodup_cons]
  refine ⟨?_, h.sublist (List.filter_sublist.map _)⟩
  simp [others]

/-- The textbook cache that has answered nothing yet. -/
def empty (capacity : Nat) : Lru α := ⟨capacity, [], List.nodup_nil, Nat.zero_le _⟩

/-- The value of a key. To look this way uses nothing. -/
def find? (l : Lru α) (key : String) : Option α := l.items.lookup key

/-- Puts a value in front, in place of the one that its key has. If that
makes one item too many, the last one goes. -/
def store (l : Lru α) (key : String) (value : α) : Lru α where
  capacity := l.capacity
  items := fit l.capacity ((key, value) :: others key l.items)
  nodup := (nodup_cons_others l.nodup).sublist ((fit_sublist _ _).map _)
  room := length_fit_le (Nat.succ_le_succ (Nat.le_trans (List.length_filter_le _ _) l.room))

/-- Takes the item of a key out. -/
def erase (l : Lru α) (key : String) : Lru α where
  capacity := l.capacity
  items := others key l.items
  nodup := l.nodup.sublist (List.filter_sublist.map _)
  room := Nat.le_trans (List.length_filter_le _ _) l.room

/-- The value of a key, which counts as used by this. -/
def get (l : Lru α) (key : String) : Option α × Lru α :=
  match l.find? key with
  | some value => (some value, l.store key value)
  | none => (none, l)

/-- The value of a key, or else a new one, which is stored. It is made
only if it is needed. -/
def getOrInsertWith (l : Lru α) (key : String) (make : σ → α × σ) (s : σ) : (α × Lru α) × σ :=
  match l.find? key with
  | some value => ((value, l.store key value), s)
  | none => (((make s).1, l.store key (make s).1), (make s).2)

/-- Answers a request. -/
def ask (l : Lru α) : (r : CacheRequest σ α) → σ → (r.Answer × Lru α) × σ
  | .get key, s => (l.get key, s)
  | .put key value, s => (((), l.store key value), s)
  | .getOrInsertWith key make, s => l.getOrInsertWith key make s
  | .contains key, s => (((l.find? key).isSome, l), s)
  | .remove key, s => ((l.find? key, l.erase key), s)
  | .clear, s => (((), empty l.capacity), s)
  | .size, s => ((l.items.length, l), s)

/-- Answers requests, one after another. -/
def askAll : Lru α → List (CacheRequest σ α) → σ → (List (CacheReply σ α) × Lru α) × σ
  | l, [], s => (([], l), s)
  | l, r :: requests, s =>
      let first := l.ask r s
      let rest := first.1.2.askAll requests first.2
      ((⟨r, first.1.1⟩ :: rest.1.1, rest.1.2), rest.2)

end Lru

namespace IdentityCache

/-- Answers a request. -/
def ask (c : IdentityCache α) : (r : CacheRequest σ α) → σ → (r.Answer × IdentityCache α) × σ
  | .get key, s => (c.get key, s)
  | .put key value, s => (((), c.put key value), s)
  | .getOrInsertWith key make, s => (c.getOrInsertWith key make : StateM σ (α × _)).run s
  | .contains key, s => ((c.contains key, c), s)
  | .remove key, s => (c.remove key, s)
  | .clear, s => (((), c.clear), s)
  | .size, s => ((c.size, c), s)

/-- Answers requests, one after another. Before each of them the entries
come to stand in some order, which may depend on how many requests are
left. -/
def askAll (order : Nat → List (CacheEntry α) → List (CacheEntry α)) :
    IdentityCache α → List (CacheRequest σ α) → σ → (List (CacheReply σ α) × IdentityCache α) × σ
  | c, [], s => (([], c), s)
  | c, r :: requests, s =>
      let first := { c with entries := order requests.length c.entries }.ask r s
      let rest := askAll order first.1.2 requests first.2
      ((⟨r, first.1.1⟩ :: rest.1.1, rest.1.2), rest.2)

variable {c : IdentityCache α} {items : List (String × α)} {key : String} {value : α}

/-! ### Ranking the entries -/

/-- The entries, from the newest stamp to the oldest, are the items. -/
structure Ranks (c : IdentityCache α) (items : List (String × α)) : Prop where
  ranked : ∃ es : List (CacheEntry α), es.Perm c.entries ∧
    es.Pairwise (fun newer older => older.stamp < newer.stamp) ∧
    es.map (fun e => (e.key, e.value)) = items
  stamp_le : ∀ e ∈ c.entries, e.stamp ≤ c.generation

namespace Ranks

/-- A new cache has no entries to rank. -/
theorem empty (capacity : Nat) : (ofCapacity capacity : IdentityCache α).Ranks [] where
  ranked := ⟨[], List.Perm.refl _, List.Pairwise.nil, rfl⟩
  stamp_le _ he := nomatch he

/-- The order in which entries stand does not matter. -/
theorem perm {es : List (CacheEntry α)} (h : c.Ranks items) (hperm : es.Perm c.entries) :
    { c with entries := es }.Ranks items := by
  obtain ⟨sorted, hsorted, hstamps, hitems⟩ := h.ranked
  exact ⟨⟨sorted, hsorted.trans hperm.symm, hstamps, hitems⟩,
    fun e he => h.stamp_le e (hperm.mem_iff.mp he)⟩

/-- There are as many entries as items. -/
theorem length_eq (h : c.Ranks items) : c.size = items.length := by
  obtain ⟨es, hperm, -, rfl⟩ := h.ranked
  rw [List.length_map]
  exact hperm.length_eq.symm

/-- Items with different keys are entries with different keys. -/
theorem nodup_keys (h : c.Ranks items) (hnodup : (items.map Prod.fst).Nodup) : c.keys.Nodup := by
  obtain ⟨es, hperm, -, rfl⟩ := h.ranked
  rw [List.map_map] at hnodup
  exact (hperm.map _).nodup_iff.mp hnodup

/-- What is held is what is among the items, wherever the entry stands. -/
theorem holds_iff (h : c.Ranks items) : c.Holds key value ↔ (key, value) ∈ items := by
  obtain ⟨es, hperm, -, rfl⟩ := h.ranked
  unfold Holds
  rw [List.mem_map]
  constructor
  · rintro ⟨e, he, rfl, rfl⟩
    exact ⟨e, hperm.mem_iff.mpr he, rfl⟩
  · rintro ⟨e, he, hitem⟩
    cases hitem
    exact ⟨e, hperm.mem_iff.mp he, rfl, rfl⟩

/-! ### Using and forgetting an entry -/

/-- Among entries with different keys, to renew one is to put it in front
of the others. -/
theorem map_renew_perm (e' : CacheEntry α) {es : List (CacheEntry α)}
    (hnodup : (es.map (·.key)).Nodup) (hmem : key ∈ es.map (·.key)) :
    (es.map fun e => if e.key == key then e' else e).Perm
      (e' :: es.filter fun e => e.key != key) := by
  induction es with
  | nil => exact nomatch hmem
  | cons e es ih =>
      obtain ⟨hnew, hnodup⟩ := List.nodup_cons.mp hnodup
      by_cases hkey : e.key = key
      · -- No other entry has the key.
        have hother : ∀ e ∈ es, e.key ≠ key := by
          intro other hother heq
          have hmem := List.mem_map_of_mem (f := CacheEntry.key) hother
          rw [heq, ← hkey] at hmem
          exact hnew hmem
        have hmap : (es.map fun e => if e.key == key then e' else e) = es := by
          refine (List.map_congr_left fun e he => ?_).trans (List.map_id es)
          simp [hother e he]
        have hfilter : (es.filter fun e => e.key != key) = es := by
          rw [List.filter_eq_self]
          intro e he
          simpa using hother e he
        rw [List.map_cons, List.filter_cons, hmap, hfilter]
        simp [hkey]
      · have hrest := ih hnodup (by simpa [Ne.symm hkey] using hmem)
        rw [List.map_cons, List.filter_cons, if_neg (by simpa using hkey),
          if_pos (by simpa using hkey)]
        exact (hrest.cons e).trans (List.Perm.swap _ _ _)

/-- A renewed entry has the newest stamp. -/
theorem renew (h : c.Ranks items) (hnodup : (items.map Prod.fst).Nodup) (hmem : key ∈ c.keys) :
    (c.renew key value).Ranks ((key, value) :: Lru.others key items) := by
  obtain ⟨es, hperm, hsorted, rfl⟩ := h.ranked
  have hkeys : (es.map (·.key)).Perm c.keys := hperm.map _
  have hle : ∀ e ∈ es, e.stamp ≤ c.generation := fun e he => h.stamp_le e (hperm.mem_iff.mp he)
  -- The renewed entry has the newest stamp, so it comes in front; the others keep their order.
  constructor
  · refine ⟨⟨key, value, c.generation + 1⟩ :: es.filter fun e => e.key != key, ?_, ?_, ?_⟩
    · have hrenew := map_renew_perm ⟨key, value, c.generation + 1⟩
        (hkeys.nodup_iff.mpr (h.nodup_keys hnodup)) (hkeys.mem_iff.mpr hmem)
      exact hrenew.symm.trans (hperm.map _)
    · refine List.pairwise_cons.mpr ⟨?_, hsorted.filter _⟩
      intro e he
      exact Nat.lt_succ_of_le (hle e (List.mem_filter.mp he).1)
    · simp [Lru.others, List.filter_map, Function.comp_def]
  · intro e he
    obtain ⟨old, hold, rfl⟩ := List.mem_map.mp he
    show _ ≤ c.generation + 1
    split
    · exact Nat.le_refl _
    · exact Nat.le_succ_of_le (h.stamp_le old hold)

/-- A forgotten entry leaves the others in their order. -/
theorem forget (h : c.Ranks items) (key : String) :
    { c with entries := c.entries.filter fun e => e.key != key }.Ranks (Lru.others key items) := by
  obtain ⟨es, hperm, hsorted, rfl⟩ := h.ranked
  refine ⟨⟨_, hperm.filter _, hsorted.filter _, ?_⟩, ?_⟩
  · simp [Lru.others, List.filter_map, Function.comp_def]
  · intro e he
    exact h.stamp_le e (List.mem_filter.mp he).1

end Ranks

/-! ### The oldest entry -/

/-- Only no entries have no oldest one. -/
theorem oldest?_eq_none {es : List (CacheEntry α)} (h : oldest? es = none) : es = [] := by
  cases es with
  | nil => rfl
  | cons e es =>
      unfold oldest? at h
      split at h
      · split at h <;> exact nomatch h
      · exact nomatch h

/-- No stamp is smaller than that of the oldest entry. -/
theorem of_oldest? {es : List (CacheEntry α)} {o : CacheEntry α} (h : oldest? es = some o) :
    o ∈ es ∧ ∀ e ∈ es, o.stamp ≤ e.stamp := by
  induction es generalizing o with
  | nil => exact nomatch h
  | cons e es ih =>
      unfold oldest? at h
      cases hrest : oldest? es with
      | none =>
          simp only [hrest, Option.some.injEq] at h
          subst h
          simp [oldest?_eq_none hrest]
      | some o' =>
          obtain ⟨hmem, hle⟩ := ih hrest
          simp only [hrest] at h
          -- Of this entry and the oldest of the rest, the one with the smaller stamp.
          split at h
          · cases h
            refine ⟨List.mem_cons_self, ?_⟩
            intro e' he'
            rcases List.mem_cons.mp he' with rfl | he'
            · exact Nat.le_refl _
            · exact Nat.le_trans ‹_› (hle e' he')
          · cases h
            refine ⟨List.mem_cons_of_mem _ hmem, ?_⟩
            intro e' he'
            rcases List.mem_cons.mp he' with rfl | he'
            · omega
            · exact hle e' he'

/-- An entry with a smaller stamp than all others is the oldest one,
wherever it stands. -/
theorem oldest?_eq_some {es : List (CacheEntry α)} {o : CacheEntry α} (hmem : o ∈ es)
    (hlt : ∀ e ∈ es, e ≠ o → o.stamp < e.stamp) : oldest? es = some o := by
  cases holdest : oldest? es with
  | none => exact nomatch oldest?_eq_none holdest ▸ hmem
  | some o' =>
      obtain ⟨hmem', hle⟩ := of_oldest? holdest
      by_contra hne
      have hlt' := hlt o' hmem' fun heq => hne (congrArg some heq)
      exact absurd (hle o hmem) (Nat.not_le.mpr hlt')

namespace Ranks

/-- The oldest entry is the last item, in whatever order the entries
stand. -/
theorem oldest? {init : List (String × α)} (h : c.Ranks (init ++ [(key, value)])) :
    ∃ stamp, ∀ es : List (CacheEntry α), es.Perm c.entries →
      oldest? es = some ⟨key, value, stamp⟩ := by
  obtain ⟨sorted, hsorted, hstamps, hitems⟩ := h.ranked
  obtain ⟨newer, rest, rfl, -, hrest⟩ := List.map_eq_append_iff.mp hitems
  obtain ⟨last, rfl, hlast⟩ := List.map_eq_singleton_iff.mp hrest
  cases hlast
  refine ⟨last.stamp, ?_⟩
  intro es hperm
  have hmem : ∀ e, e ∈ newer ++ [last] ↔ e ∈ es := fun e => (hsorted.trans hperm.symm).mem_iff
  -- Ranked from the newest stamp on, every other entry comes before the last one.
  refine oldest?_eq_some ((hmem last).mp (by simp)) ?_
  intro e he hne
  rcases List.mem_append.mp ((hmem e).mpr he) with hnewer | hlast
  · exact (List.pairwise_append.mp hstamps).2.2 e hnewer last List.mem_cons_self
  · exact absurd (List.mem_singleton.mp hlast) hne

/-- What goes when there is one entry too many is the last item. -/
theorem evict (h : c.Ranks items) (hnodup : (items.map Prod.fst).Nodup) :
    c.evict.Ranks (Lru.fit c.capacity items) := by
  unfold IdentityCache.evict Lru.fit
  rw [h.length_eq]
  by_cases hover : c.capacity < items.length
  · -- The last item has a key of its own: only its entry goes.
    rw [if_pos hover, if_pos hover]
    rcases List.eq_nil_or_concat' items with rfl | ⟨init, ⟨key, value⟩, rfl⟩
    · exact absurd hover (Nat.not_lt_zero _)
    · obtain ⟨stamp, holdest⟩ := h.oldest?
      rw [List.map_append, List.nodup_append] at hnodup
      have hothers : Lru.others key (init ++ [(key, value)]) = init := by
        unfold Lru.others
        rw [List.filter_append, List.filter_eq_self.mpr]
        · simp
        · intro item hitem
          simpa using hnodup.2.2 item.1 (List.mem_map_of_mem hitem) key (by simp)
      rw [holdest _ (List.Perm.refl _), List.dropLast_concat]
      have hforget := h.forget key
      rw [hothers] at hforget
      exact hforget
  · rw [if_neg hover, if_neg hover]
    exact h

/-- An added entry has the newest stamp. -/
theorem push (h : c.Ranks items) (key : String) (value : α) :
    ({ c with
        generation := c.generation + 1
        entries := ⟨key, value, c.generation + 1⟩ :: c.entries } : IdentityCache α).Ranks
      ((key, value) :: items) := by
  obtain ⟨es, hperm, hsorted, rfl⟩ := h.ranked
  -- No stamp is above the counter, so the next number is the newest stamp.
  constructor
  · refine ⟨⟨key, value, c.generation + 1⟩ :: es, hperm.cons _, ?_, rfl⟩
    refine List.pairwise_cons.mpr ⟨?_, hsorted⟩
    intro e he
    exact Nat.lt_succ_of_le (h.stamp_le e (hperm.mem_iff.mp he))
  · intro e he
    rcases List.mem_cons.mp he with rfl | he
    · exact Nat.le_refl _
    · exact Nat.le_succ_of_le (h.stamp_le e he)

/-- A new entry comes first, and the last item goes if there is no room. -/
theorem insertNew (h : c.Ranks items) (hnodup : (items.map Prod.fst).Nodup)
    (hnew : key ∉ c.keys) (value : α) :
    (c.insertNew key value).Ranks (Lru.fit c.capacity ((key, value) :: items)) := by
  refine (h.push key value).evict ?_
  obtain ⟨es, hperm, -, rfl⟩ := h.ranked
  rw [List.map_cons, List.nodup_cons]
  refine ⟨?_, hnodup⟩
  rw [List.map_map]
  exact fun hmem => hnew ((hperm.map _).mem_iff.mp hmem)

end Ranks

/-! ### Answering as the textbook cache does -/

/-- A cache that holds the items of a textbook cache, in the same order of
last use. -/
structure Refines (c : IdentityCache α) (l : Lru α) : Prop where
  capacity : c.capacity = l.capacity
  ranks : c.Ranks l.items

/-- A cleared cache is like an empty one, wherever its counter stands. -/
theorem refines_clear {capacity : Nat} (h : c.capacity = capacity) :
    c.clear.Refines (.empty capacity) where
  capacity := h
  ranks := {
    ranked := ⟨[], List.Perm.refl _, List.Pairwise.nil, rfl⟩
    stamp_le := fun _ he => nomatch he }

end IdentityCache

namespace Lru

variable {l : Lru α} {key key' : String} {value value' : α}

/-- What is found is an item. -/
theorem mem_of_find? (h : l.find? key = some value) : (key, value) ∈ l.items := by
  obtain ⟨before, after, heq, -⟩ := List.lookup_eq_some_iff.mp h
  rw [heq]
  exact List.mem_append_right _ List.mem_cons_self

/-- A key for which nothing is found has no item. -/
theorem not_mem_of_find? (h : l.find? key = none) : (key, value) ∉ l.items := by
  intro hmem
  simpa using List.lookup_eq_none_iff.mp h _ hmem

/-- Without an item for the key, all items have other keys. -/
theorem others_of_find? (h : l.find? key = none) : others key l.items = l.items := by
  unfold others
  rw [List.filter_eq_self]
  intro item hitem
  have hne := List.lookup_eq_none_iff.mp h item hitem
  simpa [bne_iff_ne, ne_comm] using hne

/-- To store a value for a key that has one drops nothing. -/
theorem items_store_of_find? (h : l.find? key = some value') :
    (l.store key value).items = (key, value) :: others key l.items := by
  have hlt : (others key l.items).length < l.items.length := by
    refine List.length_filter_lt_length_iff_exists.mpr ⟨_, mem_of_find? h, ?_⟩
    simp
  -- The old item of the key goes, so there is room for the new one.
  have hroom := l.room
  show fit _ _ = _
  unfold fit
  rw [if_neg]
  rw [List.length_cons]
  omega

/-- A stored value is there, unless there is no room for any. -/
theorem mem_store_self (h : l.capacity ≠ 0) : (key, value) ∈ (l.store key value).items := by
  show _ ∈ fit _ _
  unfold fit
  -- If one has to go, it is the last one, and with any capacity at all this is not the new one.
  split
  · rename_i hover
    cases hothers : others key l.items with
    | nil =>
        rw [hothers, List.length_singleton] at hover
        omega
    | cons item rest => simp
  · exact List.mem_cons_self

/-- What is there after a value was stored is the value under its key, or
was there before under another key. -/
theorem of_mem_store (h : (key', value') ∈ (l.store key value).items) :
    (key' = key ∧ value' = value) ∨ (key' ≠ key ∧ (key', value') ∈ l.items) := by
  rcases List.mem_cons.mp ((fit_sublist _ _).subset h) with heq | hmem
  · cases heq
    exact .inl ⟨rfl, rfl⟩
  · obtain ⟨hold, hne⟩ := List.mem_filter.mp hmem
    exact .inr ⟨by simpa using hne, hold⟩

/-- Without room there is never an item. -/
theorem items_of_capacity (h : l.capacity = 0) : l.items = [] :=
  List.eq_nil_of_length_eq_zero (Nat.le_zero.mp (h ▸ l.room))

end Lru

namespace IdentityCache

variable {c : IdentityCache α} {l : Lru α} {key : String} {value value' : α}

namespace Refines

/-- A new cache is the textbook cache without items. -/
theorem empty (capacity : Nat) : (ofCapacity capacity : IdentityCache α).Refines (.empty capacity) :=
  ⟨rfl, .empty capacity⟩

/-- What the textbook cache finds is held. -/
theorem holds_of_find? (h : c.Refines l) (hfind : l.find? key = some value) : c.Holds key value :=
  h.ranks.holds_iff.mpr (Lru.mem_of_find? hfind)

/-- A key that is no key of an item is no key of an entry. -/
theorem not_mem_of_find? (h : c.Refines l) (hfind : l.find? key = none) : key ∉ c.keys := by
  intro hmem
  obtain ⟨value, hholds⟩ := mem_keys_iff.mp hmem
  exact Lru.not_mem_of_find? hfind (h.ranks.holds_iff.mp hholds)

/-- Whether there is an entry is whether there is an item. -/
theorem contains (h : c.Refines l) (key : String) : c.contains key = (l.find? key).isSome := by
  rw [Bool.eq_iff_iff, contains_iff]
  cases hfind : l.find? key with
  | none => simpa using h.not_mem_of_find? hfind
  | some value => simpa using mem_keys_iff.mpr ⟨value, h.holds_of_find? hfind⟩

/-- To renew an entry is to store its value again. -/
theorem renew (h : c.Refines l) (hfind : l.find? key = some value') :
    (c.renew key value).Refines (l.store key value) where
  capacity := h.capacity
  ranks := by
    rw [Lru.items_store_of_find? hfind]
    exact h.ranks.renew l.nodup (mem_keys_iff.mpr ⟨_, h.holds_of_find? hfind⟩)

/-- To insert an entry is to store its value. -/
theorem insertNew (h : c.Refines l) (hfind : l.find? key = none) :
    (c.insertNew key value).Refines (l.store key value) where
  capacity := (capacity_insertNew c key value).trans h.capacity
  ranks := by
    have hranks := h.ranks.insertNew l.nodup (h.not_mem_of_find? hfind) value
    rw [h.capacity, ← Lru.others_of_find? hfind] at hranks
    exact hranks

/-- Without room nothing comes of storing a value. -/
theorem store_of_capacity (h : c.Refines l) (hcapacity : c.capacity = 0) (key : String) (value : α) :
    c.Refines (l.store key value) where
  capacity := h.capacity
  ranks := by
    have hnone := h.capacity.symm.trans hcapacity
    rw [(l.store key value).items_of_capacity hnone, ← l.items_of_capacity hnone]
    exact h.ranks

/-- A look for a key finds the same, and brings it to the front. -/
theorem get (h : c.Refines l) (key : String) :
    (c.get key).1 = (l.get key).1 ∧ (c.get key).2.Refines (l.get key).2 := by
  unfold Lru.get
  cases hfind : l.find? key with
  | none =>
      rw [get_of_not_mem (h.not_mem_of_find? hfind)]
      exact ⟨rfl, h⟩
  | some value =>
      rw [get_of_holds (h.ranks.nodup_keys l.nodup) (h.holds_of_find? hfind)]
      exact ⟨rfl, h.renew hfind⟩

/-- To store a value is to put its item in front, whether the key had an
entry or not. -/
theorem put (h : c.Refines l) (key : String) (value : α) :
    (c.put key value).Refines (l.store key value) := by
  unfold IdentityCache.put
  split
  · exact h.store_of_capacity ‹_› key value
  · rw [h.contains]
    cases hfind : l.find? key with
    | none => exact h.insertNew hfind
    | some old => exact h.renew hfind

/-- To forget a key gives what it had, and takes its item out. -/
theorem remove (h : c.Refines l) (key : String) :
    (c.remove key).1 = l.find? key ∧ (c.remove key).2.Refines (l.erase key) := by
  refine ⟨?_, h.capacity, h.ranks.forget key⟩
  show (c.find? key).map (·.value) = l.find? key
  cases hfind : l.find? key with
  | none => simp [find?_eq_none_iff.mpr (h.not_mem_of_find? hfind)]
  | some value =>
      have hholds := h.holds_of_find? hfind
      obtain ⟨e, he⟩ := find?_isSome (mem_keys_iff.mpr ⟨_, hholds⟩)
      have hvalue := (IdentityCache.holds_of_find? he).unique (h.ranks.nodup_keys l.nodup) hholds
      simp [he, hvalue]

/-- Whichever way the value of a key is come by, the same is done outside
of the cache. -/
theorem getOrInsertWith (h : c.Refines l) (key : String) (make : σ → α × σ) (s : σ) :
    let cached := (c.getOrInsertWith key make : StateM σ (α × IdentityCache α)).run s
    let ideal := l.getOrInsertWith key make s
    cached.1.1 = ideal.1.1 ∧ cached.2 = ideal.2 ∧ cached.1.2.Refines ideal.1.2 := by
  unfold IdentityCache.getOrInsertWith Lru.getOrInsertWith
  by_cases hcapacity : c.capacity = 0
  · -- Without room nothing is found, so both make the value.
    have hnone : l.find? key = none := by
      unfold Lru.find?
      rw [l.items_of_capacity (h.capacity.symm.trans hcapacity)]
      rfl
    rw [if_pos hcapacity, hnone]
    exact ⟨rfl, rfl, h.store_of_capacity hcapacity key _⟩
  · rw [if_neg hcapacity]
    cases hfind : l.find? key with
    | none =>
        rw [find?_eq_none_iff.mpr (h.not_mem_of_find? hfind)]
        exact ⟨rfl, rfl, h.insertNew hfind⟩
    | some value =>
        have hholds := h.holds_of_find? hfind
        obtain ⟨e, he⟩ := find?_isSome (mem_keys_iff.mpr ⟨_, hholds⟩)
        cases (IdentityCache.holds_of_find? he).unique (h.ranks.nodup_keys l.nodup) hholds
        rw [he]
        exact ⟨rfl, rfl, h.renew hfind⟩

/-- A cache answers a request as the textbook cache does, and makes the
values that it makes. -/
theorem ask (h : c.Refines l) (r : CacheRequest σ α) (s : σ) :
    (c.ask r s).1.1 = (l.ask r s).1.1 ∧ (c.ask r s).2 = (l.ask r s).2 ∧
      (c.ask r s).1.2.Refines (l.ask r s).1.2 := by
  cases r with
  | get key => exact ⟨(h.get key).1, rfl, (h.get key).2⟩
  | put key value => exact ⟨rfl, rfl, h.put key value⟩
  | getOrInsertWith key make => exact h.getOrInsertWith key make s
  | contains key => exact ⟨h.contains key, rfl, h⟩
  | remove key => exact ⟨(h.remove key).1, rfl, (h.remove key).2⟩
  | clear => exact ⟨rfl, rfl, refines_clear h.capacity⟩
  | size => exact ⟨h.ranks.length_eq, rfl, h⟩

/-- The entries may come to stand in another order at any time. -/
theorem askAll {order : Nat → List (CacheEntry α) → List (CacheEntry α)}
    (horder : ∀ n es, (order n es).Perm es) (requests : List (CacheRequest σ α)) :
    ∀ {c : IdentityCache α} {l : Lru α}, c.Refines l → ∀ s : σ,
      (c.askAll order requests s).1.1 = (l.askAll requests s).1.1 ∧
        (c.askAll order requests s).2 = (l.askAll requests s).2 ∧
        (c.askAll order requests s).1.2.Refines (l.askAll requests s).1.2 := by
  induction requests with
  | nil => exact fun h s => ⟨rfl, rfl, h⟩
  | cons r requests ih =>
      intro c l h s
      have hshuffled : { c with entries := order requests.length c.entries }.Refines l :=
        ⟨h.capacity, h.ranks.perm (horder _ _)⟩
      -- The state goes from one answer to the next, so it has to be the same on both sides.
      obtain ⟨hanswer, hstate, hrefines⟩ := hshuffled.ask r s
      obtain ⟨hreplies, hlast, hrest⟩ := ih hrefines (l.ask r s).2
      simp only [IdentityCache.askAll, Lru.askAll, hanswer, hstate, hreplies, hlast, true_and]
      exact hrest

end Refines

/-- To forget the oldest entry gives no stamp. -/
theorem generation_evict (c : IdentityCache α) : c.evict.generation = c.generation := by
  unfold evict
  split
  · split <;> rfl
  · rfl

/-- A new entry takes one stamp. -/
theorem generation_insertNew (c : IdentityCache α) (key : String) (value : α) :
    (c.insertNew key value).generation = c.generation + 1 := generation_evict _

/-- A request gives out one stamp at most. -/
theorem generation_ask_le (c : IdentityCache α) (r : CacheRequest σ α) (s : σ) :
    (c.ask r s).1.2.generation ≤ c.generation + 1 := by
  cases r with
  | get key =>
      show (c.get key).2.generation ≤ _
      unfold get
      cases c.find? key with
      | none => exact Nat.le_succ _
      | some e => exact Nat.le_refl _
  | put key value =>
      show (c.put key value).generation ≤ _
      unfold put
      split
      · exact Nat.le_succ _
      · split
        · exact Nat.le_refl _
        · -- Only a use gives out a stamp. Evicting gives out none.
          exact Nat.le_of_eq (c.generation_insertNew key value)
  | getOrInsertWith key make =>
      show ((c.getOrInsertWith key make : StateM σ (α × IdentityCache α)).run s).1.2.generation ≤ _
      unfold getOrInsertWith
      split
      · exact Nat.le_succ _
      · cases c.find? key with
        | none => exact Nat.le_of_eq (c.generation_insertNew key _)
        | some e => exact Nat.le_refl _
  | contains key => exact Nat.le_succ _
  | remove key => exact Nat.le_succ _
  | clear => exact Nat.le_succ _
  | size => exact Nat.le_succ _

/-- The counter of stamps counts no further than there are requests. -/
theorem generation_askAll_le (order : Nat → List (CacheEntry α) → List (CacheEntry α))
    (requests : List (CacheRequest σ α)) (c : IdentityCache α) (s : σ) :
    (c.askAll order requests s).1.2.generation ≤ c.generation + requests.length := by
  induction requests generalizing c s with
  | nil => exact Nat.le_refl _
  | cons r requests ih =>
      have hask := { c with entries := order requests.length c.entries }.generation_ask_le r s
      refine Nat.le_trans (ih _ _) ?_
      rw [List.length_cons]
      simp only at hask
      omega

end IdentityCache

/-! ### What is stored -/

namespace Lru

variable {l : Lru α} {key : String} {value : α}

/-- No request changes the room. -/
theorem capacity_ask (l : Lru α) (r : CacheRequest σ α) (s : σ) :
    (l.ask r s).1.2.capacity = l.capacity := by
  cases r with
  | get key =>
      simp only [ask, get]
      split <;> rfl
  | getOrInsertWith key make =>
      simp only [ask, getOrInsertWith]
      split <;> rfl
  | _ => rfl

/-- Nor do any number of requests. -/
theorem capacity_askAll (l : Lru α) (requests : List (CacheRequest σ α)) (s : σ) :
    (l.askAll requests s).1.2.capacity = l.capacity := by
  induction requests generalizing l s with
  | nil => rfl
  | cons r requests ih => exact (ih _ _).trans (l.capacity_ask r s)

/-- What is there after a value was stored is the one that was stored, if
it has its key. -/
theorem stored_or_mem {key' : String} {value' : α} (h : (key, value) ∈ (l.store key' value').items) :
    (if key' = key then some value' else none) = some value ∨
      (if key' = key then some value' else none) = none ∧ (key, value) ∈ l.items := by
  rcases of_mem_store h with ⟨rfl, rfl⟩ | ⟨hne, hmem⟩
  · exact .inl (if_pos rfl)
  · exact .inr ⟨if_neg hne.symm, hmem⟩

/-- A request leaves what it stored, and what was there before. -/
theorem of_mem_ask (r : CacheRequest σ α) (s : σ) (h : (key, value) ∈ (l.ask r s).1.2.items) :
    (⟨r, (l.ask r s).1.1⟩ : CacheReply σ α).stored? key = some value ∨
      (⟨r, (l.ask r s).1.1⟩ : CacheReply σ α).stored? key = none ∧ (key, value) ∈ l.items := by
  cases r with
  | get key' =>
      -- The value of the key is stored again.
      refine .inr ⟨rfl, ?_⟩
      replace h : (key, value) ∈ (l.get key').2.items := h
      unfold get at h
      cases hfind : l.find? key' with
      | none => simpa only [hfind] using h
      | some found =>
          simp only [hfind] at h
          rcases of_mem_store h with ⟨rfl, rfl⟩ | ⟨-, hmem⟩
          · exact mem_of_find? hfind
          · exact hmem
  | put key' value' => exact stored_or_mem h
  | getOrInsertWith key' make =>
      simp only [ask, getOrInsertWith, CacheReply.stored?] at h ⊢
      cases hfind : l.find? key' with
      | none =>
          simp only [hfind] at h ⊢
          exact stored_or_mem h
      | some found =>
          simp only [hfind] at h ⊢
          exact stored_or_mem h
  | contains key' => exact .inr ⟨rfl, h⟩
  | remove key' => exact .inr ⟨rfl, (List.mem_filter.mp h).1⟩
  | clear => exact nomatch h
  | size => exact .inr ⟨rfl, h⟩

/-- What a request stores is there afterwards. -/
theorem mem_ask_of_stored? (r : CacheRequest σ α) (s : σ) (hcapacity : l.capacity ≠ 0)
    (h : (⟨r, (l.ask r s).1.1⟩ : CacheReply σ α).stored? key = some value) :
    (key, value) ∈ (l.ask r s).1.2.items := by
  cases r with
  | put key' value' =>
      simp only [CacheReply.stored?, Option.ite_none_right_eq_some, Option.some.injEq] at h
      obtain ⟨rfl, rfl⟩ := h
      exact mem_store_self hcapacity
  | getOrInsertWith key' make =>
      simp only [ask, getOrInsertWith, CacheReply.stored?] at h ⊢
      -- Whether it was made or found, it is in front now.
      cases hfind : l.find? key' with
      | none =>
          simp only [hfind, Option.ite_none_right_eq_some, Option.some.injEq] at h ⊢
          obtain ⟨rfl, rfl⟩ := h
          exact mem_store_self hcapacity
      | some found =>
          simp only [hfind, Option.ite_none_right_eq_some, Option.some.injEq] at h ⊢
          obtain ⟨rfl, rfl⟩ := h
          exact mem_store_self hcapacity
  | _ => exact nomatch h

/-- What is there after some requests was stored last by them, or was there
before them. -/
theorem of_mem_askAll (requests : List (CacheRequest σ α)) (s : σ)
    (h : (key, value) ∈ (l.askAll requests s).1.2.items) :
    CacheReply.lastStored? key (l.askAll requests s).1.1 = some value ∨
      CacheReply.lastStored? key (l.askAll requests s).1.1 = none ∧ (key, value) ∈ l.items := by
  induction requests generalizing l s with
  | nil => exact .inr ⟨rfl, h⟩
  | cons r requests ih =>
      simp only [askAll, CacheReply.lastStored?]
      -- A later request has stored it, or this one, or none.
      rcases ih (l.ask r s).2 h with hlater | ⟨hnone, hmem⟩
      · exact .inl (by rw [hlater, Option.some_or])
      · rw [hnone, Option.none_or]
        exact of_mem_ask r s hmem

end Lru

namespace IdentityCache

/-- A cache answers any requests as the textbook cache does, in whatever
order its entries stand, and leaves the same behind outside: a value is
made exactly when the textbook cache makes one, that is for a key that
has none.

At the end, and so after any of the requests, the entries from the newest
stamp to the oldest are the items of the textbook cache, which have
different keys and are not more than the capacity. Whatever is found
under a key was stored there last. What the next request stores is there
afterwards, unless the capacity is zero. The entry that goes for a new
one does not depend on the order of the entries. The counter of stamps
has counted no further than there were requests. -/
theorem refines_lru (capacity : Nat) (order : Nat → List (CacheEntry α) → List (CacheEntry α))
    (horder : ∀ n es, (order n es).Perm es) (requests : List (CacheRequest σ α)) (s : σ) :
    let cached := (ofCapacity capacity : IdentityCache α).askAll order requests s
    let ideal := (Lru.empty capacity : Lru α).askAll requests s
    let c := cached.1.2
    cached.1.1 = ideal.1.1 ∧ cached.2 = ideal.2 ∧
    c.Ranks ideal.1.2.items ∧ (ideal.1.2.items.map Prod.fst).Nodup ∧ c.size ≤ capacity ∧
    (∀ key value, c.Holds key value → CacheReply.lastStored? key cached.1.1 = some value) ∧
    (∀ (r : CacheRequest σ α) (s : σ) key value, capacity ≠ 0 →
      (⟨r, (c.ask r s).1.1⟩ : CacheReply σ α).stored? key = some value →
        (c.ask r s).1.2.Holds key value) ∧
    (∀ key value es, es.Perm (⟨key, value, c.generation + 1⟩ :: c.entries) →
      oldest? es = oldest? (⟨key, value, c.generation + 1⟩ :: c.entries)) ∧
    c.generation ≤ requests.length := by
  intro cached ideal c
  obtain ⟨hreplies, hstate, hrefines⟩ :=
    (Refines.empty capacity).askAll horder requests s
  have hcapacity : ideal.1.2.capacity = capacity := Lru.capacity_askAll _ requests s
  refine ⟨hreplies, hstate, hrefines.ranks, ideal.1.2.nodup, ?_, ?_, ?_, ?_, ?_⟩
  · calc c.size = ideal.1.2.items.length := hrefines.ranks.length_eq
      _ ≤ ideal.1.2.capacity := ideal.1.2.room
      _ = capacity := hcapacity
  · intro key value hholds
    rcases Lru.of_mem_askAll requests s (hrefines.ranks.holds_iff.mp hholds) with hlast | ⟨-, hmem⟩
    · exact hreplies ▸ hlast
    · exact nomatch hmem
  · intro r s key value hsome hstored
    obtain ⟨hanswer, -, hnext⟩ := hrefines.ask r s
    rw [hanswer] at hstored
    rw [← hcapacity] at hsome
    exact hnext.ranks.holds_iff.mpr (Lru.mem_ask_of_stored? r s hsome hstored)
  · intro key value es hperm
    -- Among the entries with the new one there is an oldest one.
    have hpushed := hrefines.ranks.push key value
    obtain ⟨init, ⟨key', value'⟩, hlast⟩ :=
      (List.eq_nil_or_concat' ((key, value) :: ideal.1.2.items)).resolve_left (List.cons_ne_nil _ _)
    rw [hlast] at hpushed
    obtain ⟨stamp, holdest⟩ := hpushed.oldest?
    rw [holdest es hperm, holdest _ (List.Perm.refl _)]
  · have hcount := generation_askAll_le order requests (ofCapacity capacity) s
    rw [show (ofCapacity capacity : IdentityCache α).generation = 0 from rfl, Nat.zero_add] at hcount
    exact hcount

/-- The least recently used of two entries goes for a third one, which is
made once, although the entries are turned around before each request. -/
theorem refines_lru_turned :
    let requests : List (CacheRequest Nat Nat) :=
      [.put "a" 1, .put "b" 2, .get "a", .getOrInsertWith "c" fun made => (7, made + 1),
        .getOrInsertWith "a" fun made => (8, made + 1), .contains "b"]
    let cached := (ofCapacity 2 : IdentityCache Nat).askAll (fun _ es => es.reverse) requests 0
    (∀ es : List (CacheEntry Nat), es.reverse.Perm es) ∧
    cached.2 = 1 ∧ cached.1.2.Ranks [("a", 1), ("c", 7)] ∧ cached.1.2.size ≤ 2 := by
  intro requests cached
  obtain ⟨-, hmade, hranks, -, hsize, -⟩ :=
    refines_lru 2 (fun _ es => es.reverse) (fun _ es => es.reverse_perm) requests 0
  exact ⟨fun es => es.reverse_perm, hmade, hranks, hsize⟩

end IdentityCache

end SqlSession
