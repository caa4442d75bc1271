import SqlSession.Text.Hex
import SqlSession.Text.Printable

/-!
# `SqlSession.Text.Quoted`: texts in double quotes

A text in double quotes for a reader to look at. Quotes and backslashes
have a backslash in front, four controls have their letters, and any
other character that does not show by itself, or would join the one
before it, is written as its code point in hexadecimal.
-/

set_option autoImplicit false

namespace SqlSession.Text

/-- One character between double quotes. -/
def quotedChar (c : Char) : List Char :=
  if c = '\x00' then ['\\', '0']
  else if c = '\t' then ['\\', 't']
  else if c = '\r' then ['\\', 'r']
  else if c = '\n' then ['\\', 'n']
  else if c = '\\' ∨ c = '"' then ['\\', c]
  else if isPrintable c && !isExtending c then [c]
  else ['\\', 'u', '\x7b'] ++ Hex.shortest c.toNat ++ ['\x7d']

/-- A text between double quotes. -/
def quoted (s : String) : String :=
  "\"" ++ String.ofList (s.toList.flatMap quotedChar) ++ "\""

/-- Texts between double quotes, in brackets. -/
def quotedList (texts : List String) : String :=
  "[" ++ ", ".intercalate (texts.map quoted) ++ "]"

end SqlSession.Text
