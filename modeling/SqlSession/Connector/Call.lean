import SqlSession.Row

/-!
# `SqlSession.Connector.Call`: what a connector is asked for

A connector opens transactions and runs statements, on a transaction or
outside of any. Every such call takes time, and meanwhile other tasks
go on. A statement may carry a deadline: if the connector has not
answered by then, the call is given up without an answer.
-/

set_option autoImplicit false

namespace SqlSession

/-- An open transaction of a connector. -/
structure Handle where
  id : Nat
  deriving DecidableEq, Repr, Inhabited

/-- How a transaction ends. -/
inductive Ending where
  | commit
  | rollback
  deriving DecidableEq, Repr, Inhabited

/-- What a statement that changes rows reports. -/
structure ExecResult where
  rowsAffected : UInt64
  lastInsertId : Option UInt64
  deriving DecidableEq, Repr, Inhabited

/-- What a task waits for. Statements go to a transaction, or to the
connector itself if there is none. -/
inductive Call where
  | begin
  | finish (handle : Handle) (ending : Ending)
  | query (target : Option Handle) (sql : String) (params : List Value)
      (deadline : Option Instant)
  | exec (target : Option Handle) (sql : String) (params : List Value)
      (deadline : Option Instant)
  | sleep (span : Duration)
  deriving Repr

/-- The answer to a call. A statement given up at its deadline has none. -/
abbrev Call.Answer : Call → Type
  | .begin => Except Error Handle
  | .finish .. => Except Error Unit
  | .query .. => Option (Except Error (List Row))
  | .exec .. => Option (Except Error ExecResult)
  | .sleep _ => Unit

/-- The instant at which a call is given up. -/
def Call.deadline? : Call → Option Instant
  | .query _ _ _ deadline | .exec _ _ _ deadline => deadline
  | _ => none

end SqlSession
