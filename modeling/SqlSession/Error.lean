import SqlSession.Duration
import SqlSession.Value.Decode

/-!
# `SqlSession.Error`: what can go wrong

One type of errors for building statements, running them and reading
their results. `message` is an error's full text. The errors of
building are the first five.
-/

set_option autoImplicit false

namespace SqlSession

/-- An error. -/
inductive Error where
  /-- A condition or assignment binds another number of values than it
  has placeholders. -/
  | placeholderMismatch (spec : String) (placeholders values : Nat)
  /-- An update assigns nothing. -/
  | emptySet
  /-- An order is not a column with an optional direction. -/
  | invalidOrder (entry : String)
  /-- A list operator has no values. -/
  | emptyValueList (operator : String)
  /-- An insert has no rows or no columns. -/
  | emptyInsert
  /-- Index values make no key of a row. -/
  | cacheKey (reason : String)
  /-- A row that must exist does not. -/
  | notFound (what : String)
  /-- A column cannot be read as asked. -/
  | decode (column : String) (fault : DecodeFault)
  /-- An argument is refused. -/
  | validation (reason : String)
  /-- An operation needs an open transaction. -/
  | transaction (reason : String)
  /-- The connector failed. -/
  | driver (report : String)
  /-- A statement was not done in the time left to it. -/
  | timeout (budget : Duration)
  | other (reason : String)
  deriving DecidableEq, Repr

namespace Error

/-- The text of an error. -/
def message : Error → String
  | .placeholderMismatch spec placeholders values =>
      s!"placeholder mismatch in `{spec}`: {placeholders} placeholder(s), {values} value(s)"
  | .emptySet => "update statement has an empty SET clause"
  | .invalidOrder entry => s!"invalid ORDER BY entry: {entry}"
  | .emptyValueList operator => s!"{operator} requires at least one value"
  | .emptyInsert => "insert statement has no rows"
  | .cacheKey reason => s!"cache key error: {reason}"
  | .notFound what => s!"Not found: {what}"
  | .decode column fault => s!"Decode error on column '{column}': {fault.message}"
  | .validation reason => s!"Validation error: {reason}"
  | .transaction reason => s!"Transaction error: {reason}"
  | .driver report => s!"Driver error: {report}"
  | .timeout budget => s!"Query timeout after {budget.text}"
  | .other reason => reason

/-- The name of an error's kind. -/
def kind : Error → String
  | .placeholderMismatch .. => "PlaceholderMismatch"
  | .emptySet => "EmptySet"
  | .invalidOrder _ => "InvalidOrder"
  | .emptyValueList _ => "EmptyValueList"
  | .emptyInsert => "EmptyInsert"
  | .cacheKey _ => "CacheKey"
  | .notFound _ => "NotFound"
  | .decode .. => "Decode"
  | .validation _ => "Validation"
  | .transaction _ => "Transaction"
  | .driver _ => "Driver"
  | .timeout _ => "Timeout"
  | .other _ => "Other"

/-- Whether a statement could not be built. -/
def isBuild : Error → Bool
  | .placeholderMismatch .. | .emptySet | .invalidOrder _ | .emptyValueList _
  | .emptyInsert => true
  | _ => false

def isCacheKey : Error → Bool
  | .cacheKey _ => true
  | _ => false

def isNotFound : Error → Bool
  | .notFound _ => true
  | _ => false

def isTimeout : Error → Bool
  | .timeout _ => true
  | _ => false

def isDriver : Error → Bool
  | .driver _ => true
  | _ => false

/-- The connector's own report, where it is the cause. -/
def source? : Error → Option String
  | .driver report => some report
  | _ => none

/-- A second error of the same text. The connector's failure itself
cannot be repeated, so its report alone is carried over. -/
def copy : Error → Error
  | .driver report => .other report
  | e => e

end Error

end SqlSession
