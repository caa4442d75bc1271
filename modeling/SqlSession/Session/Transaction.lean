import SqlSession.Session.Execution

/-!
# `SqlSession.Session.Transaction`: transactions

A session is idle or inside one transaction. Asking for another one
while one is open changes nothing, and `runInTransaction` inside a
transaction takes part in it: only the call that opened a transaction
ends it, with a commit if its body succeeds and a rollback otherwise.

Opening waits for the connector, and another task may open a
transaction in the meantime. The first to arrive takes the place; a
transaction that arrives later is rolled back at once, and its task
goes on in the one that is open.
-/

set_option autoImplicit false

namespace SqlSession.Session

variable {π α : Type}

/-- The part that a call has in the open transaction: whether it must
end it. -/
inductive Stake where
  | owner
  | guest
  deriving DecidableEq, Repr, Inhabited

/-- Puts a transaction in its place unless there is one already, and
says whether it did. -/
def offer (handle : Handle) : Program π Bool :=
  Program.atomically fun scope =>
    if scope.session.inTransaction then (false, scope)
    else (true, { scope with session := { scope.session with slot := some handle } })

/-- Takes the open transaction out of its place. -/
def takeHandle : Program π (Option Handle) :=
  Program.atomically fun scope =>
    (scope.session.slot, { scope with session := { scope.session with slot := none } })

/-- Opens a transaction unless one is open. -/
def openTransaction : Action π Stake := ExceptT.mk do
  if ← Program.read (·.session.inTransaction) then
    Program.emit .alreadyOpen
    return .ok .guest
  match ← Program.call .begin with
  | .error e =>
      Program.emit (.beginFailed e)
      return .error e
  | .ok handle =>
      if ← offer handle then
        return .ok .owner
      Program.emit .beginLost
      match ← Program.call (.finish handle .rollback) with
      | .error e => Program.emit (.surplusRollbackFailed e)
      | .ok () => pure ()
      return .ok .guest

/-- Opens a transaction. -/
def beginTransaction : Action π Unit := do
  let _ ← openTransaction

/-- Ends the open transaction if there is one. -/
def endTransaction (ending : Ending) : Action π Unit := ExceptT.mk do
  match ← takeHandle with
  | none => return .ok ()
  | some handle =>
      match ← Program.call (.finish handle ending) with
      | .error e =>
          Program.emit (match ending with
            | .commit => .commitFailed e
            | .rollback => .rollbackFailed e)
          return .error e
      | .ok () => return .ok ()

/-- Ends the transaction in the slot with a commit. -/
def commitTransaction : Action π Unit := endTransaction .commit

/-- Ends the transaction in the slot with a rollback. -/
def rollbackTransaction : Action π Unit := endTransaction .rollback

/-- Takes part in the open transaction, or opens one. -/
def enterTransaction : Action π Stake := ExceptT.mk do
  if ← Program.read (·.session.inTransaction) then
    return .ok .guest
  else
    openTransaction.run

/-- Leaves a transaction with the result of what was done in it. A
failed rollback does not change the result. -/
def leaveTransaction (stake : Stake) (result : Except Error α) : Action π α := ExceptT.mk do
  match stake, result with
  | .guest, result => return result
  | .owner, .ok value =>
      match ← commitTransaction.run with
      | .ok () => return .ok value
      | .error e => return .error e
  | .owner, .error e =>
      let _ ← rollbackTransaction.run
      return .error e

/-- Runs a body inside a transaction. -/
def runInTransaction (body : Action π α) : Action π α := ExceptT.mk do
  match ← enterTransaction.run with
  | .error e => return .error e
  | .ok stake =>
      let result ← body.run
      (leaveTransaction stake result).run

/-- Brings a session back to where it started. An open transaction is
rolled back. -/
def reset : Program π Unit := do
  if ← Program.read (·.session.inTransaction) then
    Program.emit .resetInTransaction
    let _ ← rollbackTransaction.run
  Program.modifySession fun s => { s with cache := s.cache.clear, deadline := none }

/-- Forgets all cached records. -/
def clearCache : Program π Unit :=
  Program.modifySession fun s => { s with cache := s.cache.clear }

end SqlSession.Session
