import Mathlib.Data.List.Dedup
import Mathlib.Data.List.Nodup
import Mathlib.Data.List.Perm.Subperm
import SqlSession.IdentityCache

/-!
# `SqlSession.Proofs.IdentityCache`: what a cache holds

`Holds` says that a cache has an entry for a key with a value, and
`keys` are the keys of all entries. The lemmas state what each operation
does to them. The operations agree on one thing: they hold nothing
afterwards that was not held before, but for the entry they are asked to
store. Entries go only where there is no room for a new one, and to use
an entry changes its stamp alone.

A cache that starts empty has at most one entry for each key. This is
what makes the value of a key unique (`Holds.unique`).
-/

set_option autoImplicit false

namespace SqlSession.IdentityCache

variable {α : Type} {c : IdentityCache α} {key key' : String} {value value' : α}

/-- The keys of all entries. -/
def keys (c : IdentityCache α) : List String := c.entries.map (·.key)

/-- There is an entry for a key with a value. -/
def Holds (c : IdentityCache α) (key : String) (value : α) : Prop :=
  ∃ e ∈ c.entries, e.key = key ∧ e.value = value

/-- A key is one of a cache if something is held under it. -/
theorem mem_keys_iff : key ∈ c.keys ↔ ∃ value, c.Holds key value := by
  unfold keys Holds
  rw [List.mem_map]
  constructor
  · rintro ⟨e, he, hkey⟩
    exact ⟨e.value, e, he, hkey, rfl⟩
  · rintro ⟨_, e, he, hkey, -⟩
    exact ⟨e, he, hkey⟩

/-- There is one key for each entry. -/
theorem length_keys (c : IdentityCache α) : c.keys.length = c.size := List.length_map _

/-- Different keys are no more than the different ones among those that
they are taken from. -/
theorem length_le_dedup {keys keys' : List String} (hnodup : keys.Nodup) (hsubset : keys ⊆ keys') :
    keys.length ≤ keys'.dedup.length := by
  have hdedup : keys ⊆ keys'.dedup := fun key hkey => List.mem_dedup.mpr (hsubset hkey)
  exact (List.subperm_of_subset hnodup hdedup).length_le

/-- With one entry for each key, a key has one value. -/
theorem Holds.unique (hnodup : c.keys.Nodup) (h : c.Holds key value) (h' : c.Holds key value') :
    value = value' := by
  obtain ⟨e, he, hkey, rfl⟩ := h
  obtain ⟨e', he', hkey', rfl⟩ := h'
  have heq : e = e' := List.inj_on_of_nodup_map hnodup he he' (hkey.trans hkey'.symm)
  rw [heq]

/-! ### Looking up -/

/-- What is found is held. -/
theorem holds_of_find? {e : CacheEntry α} (h : c.find? key = some e) : c.Holds key e.value := by
  have hkey := List.find?_some h
  exact ⟨e, List.mem_of_find?_eq_some h, by simpa using hkey, rfl⟩

/-- Nothing is found for what is no key. -/
theorem find?_eq_none_iff : c.find? key = none ↔ key ∉ c.keys := by
  unfold find? keys
  simp [List.find?_eq_none]

/-- An entry that is there is found. -/
theorem find?_isSome (h : key ∈ c.keys) : ∃ e, c.find? key = some e := by
  cases hfind : c.find? key with
  | none => exact absurd h (find?_eq_none_iff.mp hfind)
  | some e => exact ⟨e, rfl⟩

/-- A cache contains its keys. -/
theorem contains_iff : c.contains key = true ↔ key ∈ c.keys := by
  unfold contains
  cases hfind : c.find? key with
  | none => simp [find?_eq_none_iff.mp hfind]
  | some e => simp [mem_keys_iff.mpr ⟨_, holds_of_find? hfind⟩]

/-! ### Using an entry -/

/-- To use an entry changes no key. -/
@[simp]
theorem keys_renew (c : IdentityCache α) (key : String) (value : α) :
    (c.renew key value).keys = c.keys := by
  unfold keys renew
  rw [List.map_map]
  refine List.map_congr_left fun e _ => ?_
  by_cases hkey : e.key = key
  · simp [hkey]
  · simp [hkey]

/-- A renewed key has the value given, and every other key the value it
had. -/
theorem holds_renew : (c.renew key value).Holds key' value' ↔
    (key' = key ∧ value' = value ∧ key ∈ c.keys) ∨ (key' ≠ key ∧ c.Holds key' value') := by
  unfold Holds renew
  simp only [List.mem_map]
  -- Renewing changes the value under one key, and only if that key has an entry.
  constructor
  · rintro ⟨_, ⟨e, he, rfl⟩, hkey, hvalue⟩
    by_cases hsame : e.key = key
    · simp only [hsame, beq_self_eq_true, if_true] at hkey hvalue
      exact .inl ⟨hkey.symm, hvalue.symm, List.mem_map.mpr ⟨e, he, hsame⟩⟩
    · simp only [beq_iff_eq, hsame, if_false] at hkey hvalue
      exact .inr ⟨hkey ▸ hsame, e, he, hkey, hvalue⟩
  · rintro (⟨rfl, rfl, hmem⟩ | ⟨hne, e, he, rfl, rfl⟩)
    · obtain ⟨e, he, hkey⟩ := List.mem_map.mp hmem
      exact ⟨_, ⟨e, he, rfl⟩, by simp [hkey]⟩
    · exact ⟨_, ⟨e, he, rfl⟩, by simp [hne]⟩

/-- To renew an entry with the value it has changes no entry. -/
theorem holds_renew_self (hnodup : c.keys.Nodup) (h : c.Holds key value) :
    (c.renew key value).Holds key' value' ↔ c.Holds key' value' := by
  rw [holds_renew]
  constructor
  · rintro (⟨rfl, rfl, -⟩ | ⟨-, h'⟩)
    · exact h
    · exact h'
  · intro h'
    by_cases hkey : key' = key
    · subst hkey
      exact .inl ⟨rfl, (h.unique hnodup h').symm, mem_keys_iff.mpr ⟨_, h⟩⟩
    · exact .inr ⟨hkey, h'⟩

/-- What is held after an entry was renewed was held before, or is the
entry. -/
theorem holds_of_renew (h : (c.renew key value).Holds key' value') :
    (key' = key ∧ value' = value) ∨ c.Holds key' value' := by
  rcases holds_renew.mp h with ⟨hkey, hvalue, -⟩ | ⟨-, h⟩
  · exact .inl ⟨hkey, hvalue⟩
  · exact .inr h

/-! ### Adding an entry -/

/-- What is left was there before. -/
theorem holds_of_evict (h : c.evict.Holds key value) : c.Holds key value := by
  unfold evict at h
  split at h
  · split at h
    · obtain ⟨e, he, hentry⟩ := h
      exact ⟨e, (List.mem_filter.mp he).1, hentry⟩
    · exact h
  · exact h

/-- The keys that are left stand in their order. -/
theorem keys_evict_sublist (c : IdentityCache α) : c.evict.keys.Sublist c.keys := by
  unfold evict
  split
  · split
    · exact List.filter_sublist.map _
    · exact List.Sublist.refl _
  · exact List.Sublist.refl _

/-- Nothing goes while there is room. -/
theorem evict_of_room (h : c.size ≤ c.capacity) : c.evict = c := by
  unfold evict
  rw [if_neg (Nat.not_lt.mpr h)]

/-- To forget an entry changes no room. -/
theorem capacity_evict (c : IdentityCache α) : c.evict.capacity = c.capacity := by
  unfold evict
  split
  · split <;> rfl
  · rfl

/-- To add an entry changes no room. -/
theorem capacity_insertNew (c : IdentityCache α) (key : String) (value : α) :
    (c.insertNew key value).capacity = c.capacity := capacity_evict _

/-- What is held after an entry was added is the new one, or was held
before. -/
theorem holds_of_insertNew (h : (c.insertNew key value).Holds key' value') :
    (key' = key ∧ value' = value) ∨ c.Holds key' value' := by
  obtain ⟨e, he, rfl, rfl⟩ := holds_of_evict h
  rcases List.mem_cons.mp he with rfl | he
  · exact .inl ⟨rfl, rfl⟩
  · exact .inr ⟨e, he, rfl, rfl⟩

/-- An entry for a new key repeats none. -/
theorem nodup_insertNew (hnodup : c.keys.Nodup) (hnew : key ∉ c.keys) :
    (c.insertNew key value).keys.Nodup :=
  (List.nodup_cons.mpr ⟨hnew, hnodup⟩).sublist (keys_evict_sublist _)

section Room

variable (hroom : c.size < c.capacity)

include hroom

/-- With room left, a new entry is added to those that are there. -/
theorem holds_insertNew : (c.insertNew key value).Holds key' value' ↔
    (key' = key ∧ value' = value) ∨ c.Holds key' value' := by
  refine ⟨holds_of_insertNew, ?_⟩
  intro h
  unfold insertNew
  rw [evict_of_room (by exact hroom)]
  rcases h with ⟨rfl, rfl⟩ | ⟨e, he, hentry⟩
  · exact ⟨_, List.mem_cons_self, rfl, rfl⟩
  · exact ⟨e, List.mem_cons_of_mem _ he, hentry⟩

/-- If there is room, the keys are those that were there and the new one. -/
theorem mem_keys_insertNew :
    key' ∈ (c.insertNew key value).keys ↔ key' = key ∨ key' ∈ c.keys := by
  simp only [mem_keys_iff, holds_insertNew hroom, exists_or, exists_and_left, exists_eq, and_true]

end Room

/-! ### The operations -/

/-- To read an entry is to use it. -/
theorem get_of_holds (hnodup : c.keys.Nodup) (h : c.Holds key value) :
    c.get key = (some value, c.renew key value) := by
  obtain ⟨e, he⟩ := find?_isSome (mem_keys_iff.mpr ⟨_, h⟩)
  have hvalue : e.value = value := (holds_of_find? he).unique hnodup h
  simp only [get, he, hvalue]

/-- A look for what is no key finds nothing and changes nothing. -/
theorem get_of_not_mem (h : key ∉ c.keys) : c.get key = (none, c) := by
  simp only [get, find?_eq_none_iff.mpr h]

/-- What is read is held. -/
theorem holds_of_get (h : (c.get key).1 = some value) : c.Holds key value := by
  unfold get at h
  cases hfind : c.find? key with
  | none => simp [hfind] at h
  | some e =>
      simp only [hfind, Option.some.injEq] at h
      exact h ▸ holds_of_find? hfind

/-- A look adds nothing. -/
theorem holds_of_holds_get (h : (c.get key).2.Holds key' value') : c.Holds key' value' := by
  unfold get at h
  cases hfind : c.find? key with
  | none => simpa only [hfind] using h
  | some e =>
      simp only [hfind] at h
      rcases holds_of_renew h with ⟨rfl, rfl⟩ | h
      · exact holds_of_find? hfind
      · exact h

/-- What is held after a value was stored was held before, or is the value
under its key. -/
theorem holds_of_put (h : (c.put key value).Holds key' value') :
    (key' = key ∧ value' = value) ∨ c.Holds key' value' := by
  unfold put at h
  split at h
  · exact .inr h
  · split at h
    · exact holds_of_renew h
    · exact holds_of_insertNew h

/-- To store what is stored is to use it. -/
theorem put_of_holds (hcapacity : c.capacity ≠ 0) (h : c.Holds key value') :
    c.put key value = c.renew key value := by
  have hmem : key ∈ c.keys := mem_keys_iff.mpr ⟨_, h⟩
  simp [put, hcapacity, contains_iff.mpr hmem]

/-- What is left was there before, when a key is forgotten. -/
theorem holds_of_remove (h : (c.remove key).2.Holds key' value') : c.Holds key' value' := by
  obtain ⟨e, he, hentry⟩ := h
  exact ⟨e, (List.mem_filter.mp he).1, hentry⟩

/-- To ask for the value of a key, with one at hand in case there is
none. -/
theorem getOrInsertWith_pure (c : IdentityCache α) (key : String) (value : α) :
    (c.getOrInsertWith key (pure value) : Id (α × IdentityCache α)) =
      if c.capacity = 0 then (value, c)
      else
        match c.find? key with
        | some e => (e.value, c.renew key e.value)
        | none => (value, c.insertNew key value) := by
  unfold getOrInsertWith
  split
  · rfl
  · cases c.find? key <;> rfl

end SqlSession.IdentityCache
