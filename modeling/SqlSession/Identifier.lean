import SqlSession.Text.Blank

/-!
# `SqlSession.Identifier`: names, aliases and backticks

A table or a column is named by a text that may carry an alias
(`users AS u`, `users u`) and may be dotted (`u.id`). `Identifier.parse`
separates the name from the alias, and the `quote` functions write
names between backticks: every segment between dots on its own, a bare
`*` never, and a segment that already stands between backticks as it is.
-/

set_option autoImplicit false

namespace SqlSession

open Text

/-- A name and the alias it is known by; without an alias of its own it
is known by its name. -/
structure Identifier where
  name : String
  knownAs : String
  deriving DecidableEq, Repr

/-- The quote around names. -/
def backtick : Char := '\x60'

namespace Identifier

/-- What stands before and after the first `as` between two spaces, in
any letter case. -/
def cutAs : List Char → Option (List Char × List Char)
  | [] => none
  | c :: cs =>
      if ((c :: cs).take 4).map Char.toLower = [' ', 'a', 's', ' '] then
        some ([], (c :: cs).drop 4)
      else
        (cutAs cs).map fun (before, after) => (c :: before, after)

/-- Name and alias of a trimmed text: cut at `as` if there is one, else
at the first space, else both are the text itself. -/
def parts (cs : List Char) : List Char × List Char :=
  match cutAs cs with
  | some (name, knownAs) => (trimChars name, trimChars knownAs)
  | none =>
      match cutAt ' ' cs with
      | some (name, knownAs) => (trimChars name, trimChars knownAs)
      | none => (cs, cs)

/-- The name and the alias in a text. -/
def parse (s : String) : Identifier :=
  let (name, knownAs) := parts (trimChars s.toList)
  ⟨String.ofList name, String.ofList knownAs⟩

/-- Whether the characters stand between two backticks. -/
def isQuoted (cs : List Char) : Bool :=
  2 ≤ cs.length && cs.head? == some backtick && cs.getLast? == some backtick

/-- One segment of a name between backticks. -/
def segmentChars (cs : List Char) : List Char :=
  let inner := trimChars cs
  if inner = ['*'] ∨ isQuoted inner then inner
  else backtick :: (inner ++ [backtick])

/-- The segments of a dotted name, each between backticks. -/
def dottedChars (cs : List Char) : List Char :=
  ['.'].intercalate ((splitWhere (· == '.') cs).map segmentChars)

end Identifier

/-- One segment of a name between backticks. -/
def quoteSegment (s : String) : String :=
  String.ofList (Identifier.segmentChars s.toList)

/-- The segments of a dotted name, each between backticks. -/
def quoteDotted (s : String) : String :=
  String.ofList (Identifier.dottedChars s.toList)

/-- A name between backticks, followed by `AS` and its alias if it has
one of its own. -/
def Identifier.quoted (id : Identifier) : String :=
  if id.knownAs = id.name then quoteDotted id.name
  else quoteDotted id.name ++ " AS " ++ quoteSegment id.knownAs

/-- A text read as a name with an optional alias, and quoted. -/
def quoteIdentifier (s : String) : String :=
  (Identifier.parse s).quoted

/-- A table reference as it stands after `FROM` or `JOIN`. -/
def quoteTable (table : String) : String := quoteIdentifier table

/-- The name by which the columns of a table are addressed. -/
def tableAlias (table : String) : String := (Identifier.parse table).knownAs

end SqlSession
