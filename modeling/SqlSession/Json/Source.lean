import SqlSession.Text.Hex

/-!
# `SqlSession.Json.Source`: the grammar of JSON

`Source.parse` reads a text by the grammar of RFC 8259 and nothing
beyond it: no comments, no trailing commas, only space, tab, line feed
and carriage return between tokens. The result is the text's structure
with numbers and strings as they are written; what they mean, and
whether they mean anything, is decided by the reader of the structure.
-/

set_option autoImplicit false

namespace SqlSession.Json

/-- A number as it is written. The lists hold decimal digits; the
fraction and the exponent are absent where their marks are. -/
structure Numeral where
  negative : Bool
  whole : List Nat
  fraction : Option (List Nat)
  exponent : Option (Bool × List Nat)
  deriving DecidableEq, Repr

/-- A piece of a string as it is written: a character, or the code unit
of an escape `\uXXXX`. -/
inductive Piece where
  | char (c : Char)
  | unit (n : Nat)
  deriving DecidableEq, Repr

/-- The structure of a JSON text. -/
inductive Source where
  | null
  | bool (b : Bool)
  | number (n : Numeral)
  | string (pieces : List Piece)
  | array (items : List Source)
  | object (members : List (List Piece × Source))
  deriving Inhabited, Repr

namespace Source

/-- The white space between tokens. -/
def isSpace (c : Char) : Bool := c == ' ' || c == '\t' || c == '\n' || c == '\r'

/-- The text from its first character that is no blank. -/
def skipSpace (cs : List Char) : List Char := cs.dropWhile isSpace

/-- The value of a decimal digit. -/
def digit (c : Char) : Nat := c.toNat - 48

/-- The digits at the front, and what follows them. -/
def digits (cs : List Char) : List Nat × List Char :=
  ((cs.takeWhile Char.isDigit).map digit, cs.dropWhile Char.isDigit)

/-- Digits of which there must be one at least. -/
def digits? (cs : List Char) : Option (List Nat × List Char) :=
  match digits cs with
  | ([], _) => none
  | r => some r

/-- The digits before the point: a zero stands alone. -/
def whole? : List Char → Option (List Nat × List Char)
  | '0' :: rest =>
      match rest with
      | c :: _ => if c.isDigit then none else some ([0], rest)
      | [] => some ([0], [])
  | cs => digits? cs

/-- The digits behind the point, if there is one. -/
def fraction? : List Char → Option (Option (List Nat) × List Char)
  | '.' :: rest => (digits? rest).map fun (ds, rest) => (some ds, rest)
  | cs => some (none, cs)

/-- The digits of an exponent, of which there must be one. -/
def exponentDigits? (negative : Bool) (cs : List Char) :
    Option (Option (Bool × List Nat) × List Char) :=
  (digits? cs).map fun (ds, rest) => (some (negative, ds), rest)

/-- The exponent, with its sign, if there is one. -/
def exponent? : List Char → Option (Option (Bool × List Nat) × List Char)
  | c :: rest =>
      if c = 'e' ∨ c = 'E' then
        match rest with
        | '+' :: rest => exponentDigits? false rest
        | '-' :: rest => exponentDigits? true rest
        | rest => exponentDigits? false rest
      else some (none, c :: rest)
  | [] => some (none, [])

/-- A number, after its sign. -/
def numeral? (negative : Bool) (cs : List Char) : Option (Numeral × List Char) := do
  let (whole, cs) ← whole? cs
  let (fraction, cs) ← fraction? cs
  let (exponent, cs) ← exponent? cs
  return (⟨negative, whole, fraction, exponent⟩, cs)

/-- The character that a one-letter escape stands for. -/
def escaped? : Char → Option Char
  | '"' => some '"'
  | '\\' => some '\\'
  | '/' => some '/'
  | 'b' => some '\x08'
  | 'f' => some '\x0c'
  | 'n' => some '\n'
  | 'r' => some '\r'
  | 't' => some '\t'
  | _ => none

/-- The rest of a string, after its opening quote. -/
def string? : List Char → Option (List Piece × List Char)
  | [] => none
  | '"' :: rest => some ([], rest)
  | '\\' :: 'u' :: a :: b :: c :: d :: rest => do
      let n ← Text.Hex.number? [a, b, c, d]
      let (pieces, rest) ← string? rest
      return (.unit n :: pieces, rest)
  | '\\' :: e :: rest => do
      let c ← escaped? e
      let (pieces, rest) ← string? rest
      return (.char c :: pieces, rest)
  | c :: rest =>
      if c.toNat < 32 ∨ c = '\\' then none else
        (string? rest).map fun (pieces, rest) => (.char c :: pieces, rest)

mutual

/-- A value. The fuel bounds the number of tokens still to be read. -/
def value? : Nat → List Char → Option (Source × List Char)
  | 0, _ => none
  | fuel + 1, cs =>
      match skipSpace cs with
      | 'n' :: 'u' :: 'l' :: 'l' :: rest => some (.null, rest)
      | 't' :: 'r' :: 'u' :: 'e' :: rest => some (.bool true, rest)
      | 'f' :: 'a' :: 'l' :: 's' :: 'e' :: rest => some (.bool false, rest)
      | '"' :: rest => (string? rest).map fun (pieces, rest) => (.string pieces, rest)
      | '[' :: rest =>
          match skipSpace rest with
          | ']' :: rest => some (.array [], rest)
          | rest => (items? fuel rest).map fun (items, rest) => (.array items, rest)
      | '\x7b' :: rest =>
          match skipSpace rest with
          | '\x7d' :: rest => some (.object [], rest)
          | rest => (members? fuel rest).map fun (members, rest) => (.object members, rest)
      | '-' :: rest => (numeral? true rest).map fun (n, rest) => (.number n, rest)
      | rest => (numeral? false rest).map fun (n, rest) => (.number n, rest)
termination_by structural fuel => fuel

/-- The items of an array from one of them on, and the closing bracket. -/
def items? : Nat → List Char → Option (List Source × List Char)
  | 0, _ => none
  | fuel + 1, cs =>
      match value? fuel cs with
      | none => none
      | some (item, rest) =>
          match skipSpace rest with
          | ']' :: rest => some ([item], rest)
          | ',' :: rest => (items? fuel rest).map fun (items, rest) => (item :: items, rest)
          | _ => none
termination_by structural fuel => fuel

/-- The members of an object from one of them on, and the closing brace. -/
def members? : Nat → List Char → Option (List (List Piece × Source) × List Char)
  | 0, _ => none
  | fuel + 1, cs =>
      match skipSpace cs with
      | '"' :: rest =>
          match string? rest with
          | none => none
          | some (name, rest) =>
              match skipSpace rest with
              | ':' :: rest =>
                  match value? fuel rest with
                  | none => none
                  | some (value, rest) =>
                      match skipSpace rest with
                      | '\x7d' :: rest => some ([(name, value)], rest)
                      | ',' :: rest =>
                          (members? fuel rest).map fun (members, rest) =>
                            ((name, value) :: members, rest)
                      | _ => none
              | _ => none
      | _ => none
termination_by structural fuel => fuel

end

/-- The structure of a whole text. Every value but an array's or an
object's items takes a character of its own, so twice the length is
fuel enough. -/
def parse (s : String) : Option Source :=
  let cs := s.toList
  match value? (2 * cs.length + 2) cs with
  | some (source, rest) => if (skipSpace rest).isEmpty then some source else none
  | none => none

end Source

end SqlSession.Json
