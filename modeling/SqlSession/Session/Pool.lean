import SqlSession.Session.Transaction

/-!
# `SqlSession.Session.Pool`: recycled sessions

A pool hands out sessions of one configuration. A session that is given
back is reset and kept for the next caller, as long as the pool holds
fewer idle sessions than its settings allow; the session given back
last is handed out first.
-/

set_option autoImplicit false

namespace SqlSession

/-- Idle sessions, the one given back last in front. -/
structure Pool where
  config : Config
  idle : List Session := []

namespace Pool

/-- A pool without idle sessions. -/
def ofConfig (config : Config) : Pool := { config }

/-- How many sessions are idle. -/
def idleSessions (p : Pool) : Nat := p.idle.length

/-- Hands out a session: an idle one, or else a new one. -/
def acquire (p : Pool) : Session × Pool :=
  match p.idle with
  | s :: idle => (s, { p with idle })
  | [] => (.ofConfig p.config, p)

/-- Keeps a session that was reset, if there is room. -/
def keep (p : Pool) (s : Session) : Pool :=
  if p.idle.length < p.config.maxIdleSessions then { p with idle := s :: p.idle } else p

/-- Takes back the session that a program runs on: it is reset first. -/
def release {π : Type} (p : Pool) : Program π Pool := do
  Session.reset
  return p.keep (← Program.read (·.session))

end Pool

end SqlSession
