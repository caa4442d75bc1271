import SqlSession.Text.Hex

/-!
# `SqlSession.Uuid`: universally unique identifiers

An identifier of 128 bits is written as 32 lower-case hexadecimal
digits in groups of 8, 4, 4, 4 and 12 with hyphens between them. It is
read in that form, bare, in braces or after `urn:uuid:`, and as 32
digits without hyphens; letters may have either case, and nothing else
may stand around them.
-/

set_option autoImplicit false

namespace SqlSession

/-- An identifier of 128 bits. -/
structure Uuid where
  bits : BitVec 128
  deriving DecidableEq, Repr, Inhabited

namespace Uuid

/-- The digits in groups of 8, 4, 4, 4 and 12. -/
def groups (digits : List Char) : List (List Char) :=
  [digits.take 8, (digits.drop 8).take 4, (digits.drop 12).take 4,
    (digits.drop 16).take 4, digits.drop 20]

/-- The hyphenated form. -/
def hyphenated (u : Uuid) : String :=
  String.ofList (['-'].intercalate (groups (Text.Hex.fixed 32 u.bits.toNat)))

/-- Reads 32 digits. -/
def ofDigits? (digits : List Char) : Option Uuid :=
  if digits.length = 32 then
    (Text.Hex.number? digits).map fun n => ⟨BitVec.ofNat 128 n⟩
  else none

/-- Reads the hyphenated form. -/
def ofHyphenated? (cs : List Char) : Option Uuid :=
  let digits := cs.filter (· != '-')
  if cs = ['-'].intercalate (groups digits) then ofDigits? digits else none

/-- The mark before a hyphenated form. -/
def leader : List Char := "urn:uuid:".toList

/-- What stands between braces. -/
def unbraced? : List Char → Option (List Char)
  | '\x7b' :: rest => if rest.getLast? = some '\x7d' then some rest.dropLast else none
  | _ => none

/-- What stands after the `leader`, in any letter case. -/
def unled? (cs : List Char) : Option (List Char) :=
  if (cs.take 9).map Char.toLower = leader then some (cs.drop 9) else none

/-- Reads an identifier in any of its forms. -/
def parse (s : String) : Option Uuid :=
  let cs := s.toList
  match ofDigits? cs with
  | some u => some u
  | none => ofHyphenated? (((unbraced? cs).orElse fun _ => unled? cs).getD cs)

end Uuid

end SqlSession
