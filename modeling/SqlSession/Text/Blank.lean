/-!
# `SqlSession.Text.Blank`: blanks, trimming and words

A blank is a character with the Unicode property White_Space. Texts
that name columns, tables and orders are cleaned of blanks at both
ends (`trim`) and cut into words at blanks (`words`). Each operation
is defined on lists of characters, where it can be reasoned about, and
lifted to strings.
-/

set_option autoImplicit false

namespace SqlSession.Text

/-- The 25 characters with the Unicode property White_Space. -/
def isBlank (c : Char) : Bool :=
  let n := c.toNat
  (9 ≤ n && n ≤ 13) || n == 0x20 || n == 0x85 || n == 0xA0 || n == 0x1680 ||
  (0x2000 ≤ n && n ≤ 0x200A) || n == 0x2028 || n == 0x2029 || n == 0x202F ||
  n == 0x205F || n == 0x3000

/-- The characters without the blanks at both ends. -/
def trimChars (cs : List Char) : List Char :=
  ((cs.dropWhile isBlank).reverse.dropWhile isBlank).reverse

/-- The text without the blanks at both ends. -/
def trim (s : String) : String :=
  String.ofList (trimChars s.toList)

/-- The pieces between the characters that satisfy `p`, empty pieces
included: one piece more than there are such characters. -/
def splitWhere (p : Char → Bool) : List Char → List (List Char)
  | [] => [[]]
  | c :: cs =>
      if p c then
        [] :: splitWhere p cs
      else
        match splitWhere p cs with
        | [] => [[c]]
        | piece :: pieces => (c :: piece) :: pieces

/-- The words of a text: its longest runs without a blank, in order. -/
def words (s : String) : List String :=
  ((splitWhere isBlank s.toList).filter (fun w => !w.isEmpty)).map String.ofList

/-- What stands before and after the first occurrence of `c`. -/
def cutAt (c : Char) : List Char → Option (List Char × List Char)
  | [] => none
  | d :: ds =>
      if d = c then
        some ([], ds)
      else
        (cutAt c ds).map fun (before, after) => (d :: before, after)

end SqlSession.Text
