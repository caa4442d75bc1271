/-!
# `SqlSession.IdentityCache`: the most recently used entries

A map from keys to values that holds a bounded number of entries. Every
use of an entry, reading, replacing or inserting it, stamps it with the
next number of a counter; when there are too many entries, the one with
the smallest stamp goes. A cache of capacity zero holds nothing.

The counter and the stamps are natural numbers and never run over, where
a counter of 64 bits would begin again at zero. So a cache is assumed to
be used fewer than 2 ^ 64 times. One use moves the counter by one at the
most.
-/

set_option autoImplicit false

namespace SqlSession

/-- A cached value, with the stamp of its last use. -/
structure CacheEntry (α : Type) where
  key : String
  value : α
  stamp : Nat
  deriving Repr

/-- A bounded map that forgets what was not used for longest. -/
structure IdentityCache (α : Type) where
  capacity : Nat
  entries : List (CacheEntry α) := []
  /-- The stamp that was given last. -/
  generation : Nat := 0
  deriving Repr

namespace IdentityCache

variable {α : Type}

/-- A cache with room for so many entries, and nothing in it. -/
def ofCapacity (capacity : Nat) : IdentityCache α := { capacity }

/-- The entry under a key. -/
def find? (c : IdentityCache α) (key : String) : Option (CacheEntry α) :=
  c.entries.find? fun e => e.key == key

/-- Whether there is an entry under a key. Asking does not count as a use. -/
def contains (c : IdentityCache α) (key : String) : Bool := (c.find? key).isSome

/-- How many entries there are. -/
def size (c : IdentityCache α) : Nat := c.entries.length

/-- Whether there are none. -/
def isEmpty (c : IdentityCache α) : Bool := c.entries.isEmpty

/-- Gives an entry a value and the next stamp. -/
def renew (c : IdentityCache α) (key : String) (value : α) : IdentityCache α :=
  let generation := c.generation + 1
  { c with
    generation
    entries := c.entries.map fun e => if e.key == key then ⟨key, value, generation⟩ else e }

/-- The entry whose last use is longest ago. -/
def oldest? : List (CacheEntry α) → Option (CacheEntry α)
  | [] => none
  | e :: es =>
      match oldest? es with
      | some o => if e.stamp ≤ o.stamp then some e else some o
      | none => some e

/-- Forgets the oldest entry if there are too many. -/
def evict (c : IdentityCache α) : IdentityCache α :=
  if c.capacity < c.size then
    match oldest? c.entries with
    | some o => { c with entries := c.entries.filter fun e => e.key != o.key }
    | none => c
  else c

/-- Adds an entry for a key that has none. -/
def insertNew (c : IdentityCache α) (key : String) (value : α) : IdentityCache α :=
  let generation := c.generation + 1
  { c with generation, entries := ⟨key, value, generation⟩ :: c.entries }.evict

/-- The value of a key, which counts as used by this. -/
def get (c : IdentityCache α) (key : String) : Option α × IdentityCache α :=
  match c.find? key with
  | some e => (some e.value, c.renew key e.value)
  | none => (none, c)

/-- Stores a value under a key. -/
def put (c : IdentityCache α) (key : String) (value : α) : IdentityCache α :=
  if c.capacity = 0 then c
  else if c.contains key then c.renew key value
  else c.insertNew key value

/-- The value of a key, or else a new one, which is stored. Making it may
have effects, and it is made only if it is needed. -/
def getOrInsertWith {m : Type → Type} [Monad m] (c : IdentityCache α) (key : String)
    (make : m α) : m (α × IdentityCache α) :=
  if c.capacity = 0 then do
    let value ← make
    return (value, c)
  else
    match c.find? key with
    | some e => return (e.value, c.renew key e.value)
    | none => do
        let value ← make
        return (value, c.insertNew key value)

/-- Forgets a key and gives the value it had. -/
def remove (c : IdentityCache α) (key : String) : Option α × IdentityCache α :=
  ((c.find? key).map (·.value),
    { c with entries := c.entries.filter fun e => e.key != key })

/-- Forgets all entries. The counter of stamps goes on. -/
def clear (c : IdentityCache α) : IdentityCache α := { c with entries := [] }

end IdentityCache

end SqlSession
