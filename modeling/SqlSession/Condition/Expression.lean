import SqlSession.Identifier
import SqlSession.Statement.Draft

/-!
# `SqlSession.Condition.Expression`: single conditions

An `Expression` is a text with placeholders and the values bound to
them. One whose values do not fit its placeholders carries the error
with it, and it is reported when the statement is built. Lists among
the values stand for their elements.
-/

set_option autoImplicit false

namespace SqlSession

/-- A condition in a text with placeholders. -/
structure Expression where
  spec : String
  values : List Value
  error : Option Error
  deriving Inhabited, Repr

namespace Expression

/-- A text with as many values as it has placeholders. -/
def template (spec : String) (values : List Value) : Expression :=
  let values := Value.flattenAll values
  let placeholders := placeholderCount spec
  let error :=
    if placeholders = values.length then none
    else some (.placeholderMismatch spec placeholders values.length)
  ⟨spec, values, error⟩

/-- A text that binds nothing. -/
def raw (spec : String) : Expression := ⟨spec, [], none⟩

/-- A condition that cannot be rendered, and why. -/
def failed (spec : String) (e : Error) : Expression := ⟨spec, [], some e⟩

/-- A column compared with a value. -/
def compare (column operator : String) (value : Value) : Expression :=
  template (quoteIdentifier column ++ operator ++ "?") [value]

/-- A keyword, after `NOT` if it is negated. -/
def keyword (negated : Bool) (word : String) : String :=
  if negated then "NOT " ++ word else word

/-- A column compared with a pattern. -/
def like (column : String) (pattern : Value) (negated : Bool) : Expression :=
  template (quoteIdentifier column ++ " " ++ keyword negated "LIKE" ++ " ?") [pattern]

/-- A column among values, of which there must be one. -/
def inList (column : String) (values : List Value) (negated : Bool) : Expression :=
  let values := Value.flattenAll values
  let word := keyword negated "IN"
  let marks := ",".intercalate (values.map fun _ => "?")
  let spec := quoteIdentifier column ++ " " ++ word ++ " (" ++ marks ++ ")"
  if values.isEmpty then failed spec (.emptyValueList word) else template spec values

/-- A column between two values. -/
def between (column : String) (low high : Value) (negated : Bool) : Expression :=
  template (quoteIdentifier column ++ " " ++ keyword negated "BETWEEN" ++ " ? AND ?") [low, high]

/-- A column tested for null. It binds nothing. -/
def nullCheck (column : String) (negated : Bool) : Expression :=
  raw (quoteIdentifier column ++ (if negated then " IS NOT NULL" else " IS NULL"))

/-- A subquery that has rows. Values beyond its placeholders are left
out. -/
def subquery (sub : String) (values : List Value) (negated : Bool) : Expression :=
  let spec := keyword negated "EXISTS" ++ "(" ++ sub ++ ")"
  let values := Value.flattenAll values
  let placeholders := placeholderCount sub
  if values.length < placeholders then
    failed spec (.placeholderMismatch spec placeholders values.length)
  else template spec (values.take placeholders)

/-- Whether there is nothing in the text but blanks. -/
def isEmpty (e : Expression) : Bool := e.error.isNone && (Text.trim e.spec).isEmpty

/-- The condition as a piece of a statement. -/
def draft (e : Expression) : Draft :=
  match e.error with
  | some err => .failed err
  | none => .bound e.spec e.values

end Expression

end SqlSession
