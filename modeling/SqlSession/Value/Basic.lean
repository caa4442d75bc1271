import SqlSession.DateTime
import SqlSession.Json.Basic
import SqlSession.Uuid

/-!
# `SqlSession.Value.Basic`: bound and read values

A `Value` is what a statement binds to a placeholder and what a column
of a row holds. Because a value can be inspected, the condition
compiler can decide by it: a null asks for `IS NULL`, a list for
`IN (…)`. A list stands for its elements wherever it is bound;
`Value.flattenAll` replaces every list, at any depth, by them.
-/

set_option autoImplicit false

namespace SqlSession

/-- A bound parameter or a column's value. -/
inductive Value where
  | null
  | bool (b : Bool)
  | int (i : Int64)
  | uint (u : UInt64)
  | float (d : Double)
  | text (s : String)
  | bytes (data : List UInt8)
  | uuid (u : Uuid)
  | dateTime (t : DateTime)
  | json (doc : Json)
  | list (items : List Value)
  deriving Inhabited, Repr

namespace Value

/-- Whether a value is null. -/
def isNull : Value → Bool
  | .null => true
  | _ => false

/-- Whether a value stands for others. -/
def isList : Value → Bool
  | .list _ => true
  | _ => false

/-- The name of a value's kind, as messages show it. -/
def kind : Value → String
  | .null => "null"
  | .bool _ => "bool"
  | .int _ => "int"
  | .uint _ => "uint"
  | .float _ => "float"
  | .text _ => "text"
  | .bytes _ => "bytes"
  | .uuid _ => "uuid"
  | .dateTime _ => "datetime"
  | .json _ => "json"
  | .list _ => "list"

mutual

/-- The elements a value stands for, from left to right. -/
def flatten : Value → List Value
  | .list items => flattenAll items
  | v => [v]
termination_by structural v => v

/-- The elements that values stand for, from left to right. -/
def flattenAll : List Value → List Value
  | [] => []
  | v :: vs => flatten v ++ flattenAll vs
termination_by structural vs => vs

end

/-- Two runs of values stand for what both stand for. -/
theorem flattenAll_append (vs ws : List Value) :
    flattenAll (vs ++ ws) = flattenAll vs ++ flattenAll ws := by
  induction vs with
  | nil => rfl
  | cons v vs ih => simp [flattenAll, ih]

mutual

/-- Equality of values: numbers compare as numbers, and values of
different kinds differ. -/
def same : Value → Value → Bool
  | .null, .null => true
  | .bool a, .bool b => a == b
  | .int a, .int b => a == b
  | .uint a, .uint b => a == b
  | .float a, .float b => a.same b
  | .text a, .text b => a == b
  | .bytes a, .bytes b => a == b
  | .uuid a, .uuid b => a == b
  | .dateTime a, .dateTime b => a == b
  | .json a, .json b => a.same b
  | .list a, .list b => sameAll a b
  | _, _ => false
termination_by structural a => a

/-- The same of lists of values, one by one. -/
def sameAll : List Value → List Value → Bool
  | [], [] => true
  | a :: as, b :: bs => same a b && sameAll as bs
  | _, _ => false
termination_by structural as => as

end

end Value

end SqlSession
