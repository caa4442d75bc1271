import SqlSession.Config.Basic
import SqlSession.Connector.Call
import SqlSession.Event
import SqlSession.IdentityCache

/-!
# `SqlSession.Session.Scope`: what a task works on

A session holds at most one open transaction, a cache of records, a
deadline and its settings. Tasks on a session also share the clock, the
payloads of all records and the events logged so far; together these
are a `Scope`.

Records are known by number. The cache of a session maps row keys to
records, so that two loads of one row meet in one record, whose payload
every holder of it sees.

A session keeps no list of the tables that were used on it: a `Model`
says which table and columns are its own, and that never changes.
-/

set_option autoImplicit false

namespace SqlSession

/-- The number of a record. -/
abbrev RecordId := Nat

/-- A unit of work on a connector. -/
structure Session where
  config : Config
  /-- The open transaction. -/
  slot : Option Handle := none
  cache : IdentityCache RecordId
  deadline : Option Instant := none

namespace Session

/-- A session that has done nothing yet. -/
def ofConfig (config : Config) : Session where
  config
  cache := .ofCapacity config.cacheCapacity

/-- Whether a transaction is in the slot. -/
def inTransaction (s : Session) : Bool := s.slot.isSome

/-- The number of cached records. -/
def cachedRecords (s : Session) : Nat := s.cache.size

/-- The session as a text to look at. -/
def text (s : Session) : String :=
  "Session \x7b in_transaction: " ++ toString s.inTransaction ++
    ", cached: " ++ toString s.cachedRecords ++
    ", config: " ++ s.config.text ++ ", .. \x7d"

end Session

/-- The payloads of all records, by number. -/
structure Records (π : Type) where
  payloads : List π
  deriving Inhabited

namespace Records

variable {π : Type}

/-- No records have been made. -/
def empty : Records π := ⟨[]⟩

/-- The data of a record. -/
def read? (r : Records π) (id : RecordId) : Option π := r.payloads[id]?

/-- Gives a record another payload. -/
def write (r : Records π) (id : RecordId) (payload : π) : Records π :=
  ⟨r.payloads.set id payload⟩

/-- The number of the record to be made next. -/
def next (r : Records π) : RecordId := r.payloads.length

/-- Makes a record. -/
def add (r : Records π) (payload : π) : Records π := ⟨r.payloads ++ [payload]⟩

end Records

/-- What a task reads and changes between two calls. -/
structure Scope (π : Type) where
  now : Instant
  session : Session
  records : Records π
  /-- The events logged so far, oldest first. -/
  events : List Event

end SqlSession
