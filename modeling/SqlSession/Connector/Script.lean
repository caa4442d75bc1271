import SqlSession.Connector.Call
import SqlSession.Event

/-!
# `SqlSession.Connector.Script`: a connector with scripted answers

A connector whose answers, failures and delays are given in advance. A
query takes the next row set and an exec the next result; without one
left a query finds no rows, and an exec changes one row. An answer is
taken when it arrives, so a statement that was given up leaves it for
the next. Statements are logged when they are issued.
-/

set_option autoImplicit false

namespace SqlSession

/-- A statement as it reached the connector. -/
structure IssuedStatement where
  kind : StatementKind
  sql : String
  params : List Value
  target : Option Handle
  deriving Repr, Inhabited

/-- What a connector will answer, and what it was asked. -/
structure Script where
  rowSets : List (Except String (List Row)) := []
  results : List (Except String ExecResult) := []
  queryDelay : Duration := .zero
  execDelay : Duration := .zero
  /-- How long each of the next begins takes; any further one takes no
  time. -/
  beginDelays : List Duration := []
  beginFault : Option String := none
  commitFault : Option String := none
  rollbackFault : Option String := none
  begins : Nat := 0
  commits : Nat := 0
  rollbacks : Nat := 0
  /-- The statements issued so far, oldest first. -/
  log : List IssuedStatement := []
  deriving Inhabited

namespace Script

/-- What an exec reports without a scripted result. -/
def defaultResult : ExecResult := ⟨1, none⟩

/-- The connector's own failure, or success. -/
def outcome {α : Type} (fault : Option String) (value : α) : Except Error α :=
  match fault with
  | some report => .error (.driver report)
  | none => .ok value

/-- Takes in a call: how long its answer takes, and the connector after
that. -/
def issue (s : Script) : Call → Duration × Script
  | .begin => (s.beginDelays.head?.getD .zero, { s with beginDelays := s.beginDelays.tail })
  | .finish .. => (.zero, s)
  | .query target sql params _ =>
      (s.queryDelay, { s with log := s.log ++ [⟨.query, sql, params, target⟩] })
  | .exec target sql params _ =>
      (s.execDelay, { s with log := s.log ++ [⟨.exec, sql, params, target⟩] })
  | .sleep span => (span, s)

/-- Answers a call. A begin counts if it succeeds, an ending in any
case. -/
def answer (s : Script) : (c : Call) → c.Answer × Script
  | .begin =>
      match s.beginFault with
      | some report => (.error (.driver report), s)
      | none => (.ok ⟨s.begins⟩, { s with begins := s.begins + 1 })
  | .finish _ .commit => (outcome s.commitFault (), { s with commits := s.commits + 1 })
  | .finish _ .rollback => (outcome s.rollbackFault (), { s with rollbacks := s.rollbacks + 1 })
  | .query .. =>
      (some ((s.rowSets.head?.getD (.ok [])).mapError .driver),
        { s with rowSets := s.rowSets.tail })
  | .exec .. =>
      (some ((s.results.head?.getD (.ok defaultResult)).mapError .driver),
        { s with results := s.results.tail })
  | .sleep _ => ((), s)

/-- Gives up a call: a statement goes without an answer, and nothing else
is ever given up. -/
def giveUp (s : Script) : (c : Call) → c.Answer × Script
  | .query .. => (none, s)
  | .exec .. => (none, s)
  | c => s.answer c

end Script

end SqlSession
