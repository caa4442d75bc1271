import SqlSession.Condition.Expression

/-!
# `SqlSession.Condition.Predicate`: conditions joined by AND and OR

A predicate is a sequence of entries, each joined to what stands before
it by AND or OR, and each either a single condition or a group of
entries. A group of more than one entry is written in parentheses.

A predicate grows by insertions. `and` and `or` choose how the next
insertion is joined; the choice holds for one insertion, kept or not:
an empty text or an empty group is not kept, and the choice falls back
to AND.
-/

set_option autoImplicit false

namespace SqlSession

/-- How an entry is joined to what stands before it. -/
inductive Combinator where
  | and
  | or
  deriving DecidableEq, Repr, Inhabited

/-- The combinator between two conditions. -/
def Combinator.text : Combinator → String
  | .and => " AND "
  | .or => " OR "

/-- A condition: a single one, or a group of entries. -/
inductive Node where
  | leaf (e : Expression)
  | group (entries : List (Combinator × Node))
  deriving Inhabited

/-- A condition and how it is joined to what stands before it. -/
abbrev Entry := Combinator × Node

/-- Entries, and how the next one will be joined. -/
structure Predicate where
  entries : List Entry := []
  next : Combinator := .and
  deriving Inhabited

/-! ### Rendering -/

mutual

/-- A condition as a piece of a statement. -/
def Node.draft : Node → Draft
  | .leaf e => e.draft
  | .group entries =>
      let inner := draftEntries .empty entries
      if 1 < entries.length ∧ !inner.isEmpty then inner.parenthesized else inner
termination_by structural node => node

/-- Entries one after another, behind a draft of those before them. -/
def draftEntries (before : Draft) : List Entry → Draft
  | [] => before
  | (combinator, node) :: rest => draftEntries (before.add combinator.text node.draft) rest
termination_by structural entries => entries

end

mutual

/-- The error of the first bad condition, from left to right. -/
def Node.error? : Node → Option Error
  | .leaf e => e.error
  | .group entries => entriesError? entries
termination_by structural node => node

/-- The error of the first bad condition among entries. -/
def entriesError? : List Entry → Option Error
  | [] => none
  | (_, node) :: rest => node.error?.orElse fun _ => entriesError? rest
termination_by structural entries => entries

end

namespace Predicate

/-- A predicate that asks for nothing. -/
def empty : Predicate := {}

/-- How many entries there are at the top. -/
def length (p : Predicate) : Nat := p.entries.length

/-- Whether there are none. -/
def isEmpty (p : Predicate) : Bool := p.entries.isEmpty

/-- The error of the first bad condition. -/
def error? (p : Predicate) : Option Error := entriesError? p.entries

/-- The predicate as a piece of a statement. -/
def draft (p : Predicate) : Draft := draftEntries .empty p.entries

/-! ### Insertions -/

/-- The next insertion is joined by AND. -/
def and (p : Predicate) : Predicate := { p with next := .and }

/-- The next insertion is joined by OR. -/
def or (p : Predicate) : Predicate := { p with next := .or }

/-- Inserts a node as chosen, and falls back to AND. -/
def push (p : Predicate) (node : Node) : Predicate :=
  { entries := p.entries ++ [(p.next, node)], next := .and }

/-- Inserts a single condition unless it is empty. -/
def addExpression (p : Predicate) (e : Expression) : Predicate :=
  if e.isEmpty then p.and else p.push (.leaf e)

/-- Inserts the entries of another predicate as one group, unless it has
none. -/
def addPredicate (p group : Predicate) : Predicate :=
  if group.isEmpty then p.and else p.push (.group group.entries)

/-- Adds a condition that must hold too: an empty predicate becomes the
added one. -/
def merge (p added : Predicate) : Predicate :=
  if p.isEmpty then added else p.and.addPredicate added

/-! ### Single conditions -/

def equalTo (p : Predicate) (column : String) (value : Value) : Predicate :=
  p.addExpression (.compare column "=" value)

def notEqualTo (p : Predicate) (column : String) (value : Value) : Predicate :=
  p.addExpression (.compare column "!=" value)

def lessThan (p : Predicate) (column : String) (value : Value) : Predicate :=
  p.addExpression (.compare column "<" value)

def lessOrEqual (p : Predicate) (column : String) (value : Value) : Predicate :=
  p.addExpression (.compare column "<=" value)

def greaterThan (p : Predicate) (column : String) (value : Value) : Predicate :=
  p.addExpression (.compare column ">" value)

def greaterOrEqual (p : Predicate) (column : String) (value : Value) : Predicate :=
  p.addExpression (.compare column ">=" value)

def like (p : Predicate) (column : String) (pattern : Value) : Predicate :=
  p.addExpression (.like column pattern false)

def notLike (p : Predicate) (column : String) (pattern : Value) : Predicate :=
  p.addExpression (.like column pattern true)

def between (p : Predicate) (column : String) (low high : Value) : Predicate :=
  p.addExpression (.between column low high false)

def notBetween (p : Predicate) (column : String) (low high : Value) : Predicate :=
  p.addExpression (.between column low high true)

def inList (p : Predicate) (column : String) (values : List Value) : Predicate :=
  p.addExpression (.inList column values false)

def notInList (p : Predicate) (column : String) (values : List Value) : Predicate :=
  p.addExpression (.inList column values true)

def isNull (p : Predicate) (column : String) : Predicate :=
  p.addExpression (.nullCheck column false)

def isNotNull (p : Predicate) (column : String) : Predicate :=
  p.addExpression (.nullCheck column true)

def subquery (p : Predicate) (sub : String) (values : List Value) : Predicate :=
  p.addExpression (.subquery sub values false)

def noSubquery (p : Predicate) (sub : String) (values : List Value) : Predicate :=
  p.addExpression (.subquery sub values true)

def template (p : Predicate) (spec : String) (values : List Value) : Predicate :=
  p.addExpression (.template spec values)

def raw (p : Predicate) (sql : String) : Predicate :=
  p.addExpression (.raw sql)

end Predicate

end SqlSession
