import SqlSession.Config.Basic
import SqlSession.Json.Reader

/-!
# `SqlSession.Config.Reader`: settings from JSON

Settings are read from an object whose members name them, or from an
array that holds them in order. What is missing has its default. A
setting given twice, a value of another type and a fifth item are
refused. Members that name no setting are skipped: only their grammar
matters.
-/

set_option autoImplicit false

namespace SqlSession.Config

/-- The settings that a text can give. -/
inductive Setting where
  | cacheCapacity
  | maxIdleSessions
  | logStatements
  | slowThreshold
  deriving DecidableEq, Repr

namespace Setting

/-- The settings in the order in which an array holds them. -/
def all : List Setting := [.cacheCapacity, .maxIdleSessions, .logStatements, .slowThreshold]

def name : Setting → String
  | .cacheCapacity => "cache_capacity"
  | .maxIdleSessions => "max_idle_sessions"
  | .logStatements => "log_statements"
  | .slowThreshold => "slow_statement_threshold_ms"

def ofName? (s : String) : Option Setting := all.find? fun setting => setting.name == s

/-- An unsigned integer of 64 bits. -/
def natural? : Json.Source → Option Nat
  | .number n =>
      let (value, rest) := Json.leading 0 n.whole
      if n.negative ∨ n.fraction.isSome ∨ n.exponent.isSome ∨ ¬ rest.isEmpty then none
      else some value
  | _ => none

/-- Takes over the value of a setting. -/
def read? (setting : Setting) (value : Json.Source) (c : Config) : Option Config :=
  match setting, value with
  | .cacheCapacity, v => (natural? v).map fun n => { c with cacheCapacity := n }
  | .maxIdleSessions, v => (natural? v).map fun n => { c with maxIdleSessions := n }
  | .logStatements, .bool b => some { c with logStatements := b }
  | .logStatements, _ => none
  | .slowThreshold, .null => some { c with slowThreshold := none }
  | .slowThreshold, v => (natural? v).map fun n => { c with slowThreshold := some (.ofMillis n) }

end Setting

/-- Takes over members from left to right; `given` are the settings that
those before gave. -/
def readMembers? (c : Config) (given : List Setting) :
    List (List Json.Piece × Json.Source) → Option Config
  | [] => some c
  | (name, value) :: rest => do
      let name ← Json.readString? name
      match Setting.ofName? name with
      | none => readMembers? c given rest
      | some setting =>
          if given.contains setting then none
          else readMembers? (← setting.read? value c) (setting :: given) rest

/-- Takes over items in the order of the settings. -/
def readItems? (c : Config) : List Setting → List Json.Source → Option Config
  | _, [] => some c
  | [], _ :: _ => none
  | setting :: settings, value :: values => do
      readItems? (← setting.read? value c) settings values

/-- The settings that a JSON text gives. -/
def parse (s : String) : Option Config :=
  match Json.Source.parse s with
  | some (.object members) => readMembers? {} [] members
  | some (.array items) => readItems? {} Setting.all items
  | _ => none

end SqlSession.Config
