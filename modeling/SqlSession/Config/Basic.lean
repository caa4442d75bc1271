import SqlSession.Duration

/-!
# `SqlSession.Config.Basic`: settings of sessions

How many records a session caches, how many idle sessions a pool keeps,
and what is logged of the statements that run.
-/

set_option autoImplicit false

namespace SqlSession

/-- The settings of a session and of its pool. -/
structure Config where
  cacheCapacity : Nat := 50
  maxIdleSessions : Nat := 64
  logStatements : Bool := false
  /-- Statements that take longer are logged as slow. -/
  slowThreshold : Option Duration := none
  deriving DecidableEq, Repr, Inhabited

namespace Config

/-- The settings as a text to look at. -/
def text (c : Config) : String :=
  let threshold := match c.slowThreshold with
    | some d => "Some(" ++ d.text ++ ")"
    | none => "None"
  "SessionConfig \x7b cache_capacity: " ++ toString c.cacheCapacity ++
    ", max_idle_sessions: " ++ toString c.maxIdleSessions ++
    ", log_statements: " ++ toString c.logStatements ++
    ", slow_statement_threshold: " ++ threshold ++ " \x7d"

end Config

end SqlSession
