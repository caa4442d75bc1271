import Std.Data.HashMap
import Std.Data.TreeMap
import SqlSession.Condition.Predicate

/-!
# `SqlSession.Condition.Filter`: compiling conditions

A `Filter` is what a caller gives as a condition: a text, a map of
fields, or a predicate. `compile` makes a predicate of it by these
rules.

| text or key | values | condition |
|---|---|---|
| has a placeholder | as many | the text itself |
| a column | none | the text itself |
| a column | a null | the column is null |
| a column | one other | the column equals it |
| a column | several, or a list | the column is among them |

A `!` in front of a column turns its condition around. The fields of a
map are joined by AND, in order; a predicate becomes one entry.
-/

set_option autoImplicit false

namespace SqlSession

open Text

/-- What a caller gives as a condition. -/
inductive Filter where
  | text (s : String)
  | fields (entries : List (String × Value))
  | tree (p : Predicate)
  deriving Inhabited

namespace Filter

/-- The fields of a map that keeps its keys in order. -/
def ofTreeMap (m : Std.TreeMap String Value) : Filter := .fields m.toList

/-- The fields of a map without an order, in the order of their keys. -/
def ofHashMap (m : Std.HashMap String Value) : Filter :=
  .fields (m.toList.mergeSort fun a b => decide (a.1 ≤ b.1))

/-- A column, and whether a `!` in front of it negates its condition. -/
def splitNegation (s : String) : String × Bool :=
  match trimChars s.toList with
  | '!' :: rest => (String.ofList (trimChars rest), true)
  | cs => (String.ofList cs, false)

/-- The condition of one field. -/
def compileField (key : String) (value : Value) : Expression :=
  if key.toList.contains '?' then .template (trim key) [value]
  else
    let (column, negated) := splitNegation key
    match value with
    | .null => .nullCheck column negated
    | .list items => .inList column items negated
    | scalar => .compare column (if negated then "!=" else "=") scalar

/-- The condition of a text with values. -/
def compileText (s : String) (values : List Value) : Expression :=
  if s.toList.contains '?' then .template (trim s) values
  else
    match values with
    | [] => .raw (trim s)
    | [value] => compileField s value
    | _ =>
        let (column, negated) := splitNegation s
        .inList column values negated

/-- The predicate of a filter. Values belong to a text alone. -/
def compile (values : List Value) : Filter → Predicate
  | .text s => Predicate.empty.addExpression (compileText s values)
  | .fields entries =>
      entries.foldl (fun p (key, value) => p.addExpression (compileField key value)) .empty
  | .tree p => Predicate.empty.addPredicate p

/-- The predicate that a statement takes from a filter: a predicate as
it is, anything else compiled. -/
def toPredicate (values : List Value) : Filter → Predicate
  | .tree p => p
  | filter => filter.compile values

end Filter

/-- A condition that grows by whole filters. -/
structure Clause where
  tree : Predicate := {}
  deriving Inhabited

namespace Clause

/-- A clause that asks for nothing. -/
def empty : Clause := {}

/-- The clause of a filter with values. -/
def ofFilter (filter : Filter) (values : List Value) : Clause := ⟨filter.compile values⟩

/-- Adds the group of a filter. -/
def add (c : Clause) (combinator : Combinator) (filter : Filter) (values : List Value) : Clause :=
  ⟨{ c.tree with next := combinator }.addPredicate (filter.compile values)⟩

/-- Adds a group that must hold too. -/
def and (c : Clause) (filter : Filter) (values : List Value := []) : Clause :=
  c.add .and filter values

/-- Adds a group that may hold instead. -/
def or (c : Clause) (filter : Filter) (values : List Value := []) : Clause :=
  c.add .or filter values

/-- Whether a clause asks for nothing. -/
def isEmpty (c : Clause) : Bool := c.tree.isEmpty

/-- A clause as a condition of a larger one. -/
def toFilter (c : Clause) : Filter := .tree c.tree

end Clause

end SqlSession
