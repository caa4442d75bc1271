import SqlSession.Json.Basic
import SqlSession.Json.Source

/-!
# `SqlSession.Json.Reader`: from JSON texts to documents

`Json.parse` reads a text as a document. Beyond the grammar, three
things are refused: an escaped code unit of a surrogate pair without
its partner, a number beyond the finite binary64 numbers, and arrays
and objects nested deeper than `maxDepth`.

A number without point and exponent that fits in 64 bits is that
integer, except that `-0` is the binary64 number. Any other number is
scaled from its leading digits: as many as fit in an unsigned 64-bit
integer, rounded to binary64 once, then multiplied or divided by a
power of ten and rounded again.
-/

set_option autoImplicit false

namespace SqlSession.Json

/-! ### Numbers -/

/-- The largest unsigned integer of 64 bits. -/
def maxUnsigned : Nat := UInt64.size - 1

/-- The largest exponent that is read digit by digit. -/
def maxExponent : Nat := 2147483647

/-- The number that leading digits form as long as it fits in 64 bits,
starting from `n`, and the digits left over. -/
def leading (n : Nat) : List Nat → Nat × List Nat
  | [] => (n, [])
  | d :: ds => if maxUnsigned < n * 10 + d then (n, d :: ds) else leading (n * 10 + d) ds

/-- Divides by the 308th power of ten `n` times, as long as anything is
left to divide. -/
def shrink : (n : Nat) → Double → Double
  | 0, d => d
  | n + 1, d => if d.isZero then d else shrink n (d.div (.powerOfTen 308))

/-- Divides by a power of ten, at most the 308th at a time. -/
def scaleDown (d : Double) (exponent : Nat) : Double :=
  let n := (exponent - 1) / 308
  (shrink n d).div (.powerOfTen (exponent - 308 * n))

/-- `significand · 10 ^ exponent`, unless it is out of range. -/
def scaledNumber? (significand : Nat) (exponent : Int) : Option Double :=
  let d := Double.ofRatio false significand 1
  if exponent < 0 then some (scaleDown d exponent.natAbs)
  else if 308 < exponent then
    if d.isZero then some d else none
  else
    let product := d.mul (.powerOfTen exponent.natAbs)
    if product.isInfinite then none else some product

/-- The value of exponent digits, unless it is beyond `maxExponent`. -/
def exponentValue? (digits : List Nat) : Option Nat :=
  digits.foldlM (fun n d => if maxExponent < n * 10 + d then none else some (n * 10 + d)) 0

/-- The size of a number that is no integer, unless it is out of range. -/
def Numeral.float? (n : Numeral) : Option Double :=
  let (whole, dropped) := leading 0 n.whole
  let (significand, unread) := leading whole (n.fraction.getD [])
  let places : Nat := (n.fraction.getD []).length - unread.length
  let exponent : Int := (dropped.length : Int) - places
  match n.exponent with
  | none => scaledNumber? significand exponent
  | some (negative, digits) =>
      match exponentValue? digits with
      | some e => scaledNumber? significand (if negative then exponent - e else exponent + e)
      | none => if significand = 0 ∨ negative then some .zero else none

/-- The document of a number. -/
def Numeral.read? (n : Numeral) : Option Json :=
  let (whole, dropped) := leading 0 n.whole
  if n.fraction.isNone ∧ n.exponent.isNone ∧ dropped.isEmpty ∧
      ¬ (n.negative ∧ (whole = 0 ∨ -(whole : Int) < Int64.minValue.toInt)) then
    some (.int (if n.negative then -(whole : Int) else whole))
  else
    n.float?.map fun d => .float (if n.negative then d.neg else d)

/-! ### Strings -/

/-- The first half of a surrogate pair. -/
def isHighHalf (n : Nat) : Bool := 0xD800 ≤ n && n ≤ 0xDBFF

/-- The second half of a surrogate pair. -/
def isLowHalf (n : Nat) : Bool := 0xDC00 ≤ n && n ≤ 0xDFFF

/-- The characters of a string, unless half a surrogate pair stands
alone in it. -/
def readPieces? : List Piece → Option (List Char)
  | [] => some []
  | .char c :: rest => (readPieces? rest).map (c :: ·)
  | .unit high :: .unit low :: rest =>
      if isHighHalf high then
        if isLowHalf low then
          (readPieces? rest).map
            (Char.ofNat (0x10000 + (high - 0xD800) * 0x400 + (low - 0xDC00)) :: ·)
        else none
      else if isLowHalf high then none
      else (readPieces? (.unit low :: rest)).map (Char.ofNat high :: ·)
  | .unit n :: rest =>
      if isHighHalf n || isLowHalf n then none
      else (readPieces? rest).map (Char.ofNat n :: ·)

def readString? (pieces : List Piece) : Option String :=
  (readPieces? pieces).map String.ofList

/-! ### Documents -/

/-- The deepest nesting of arrays and objects. -/
def maxDepth : Nat := 127

mutual

/-- The document of a structure that may nest `depth` deep. -/
def Source.read? (depth : Nat) : Source → Option Json
  | .null => some .null
  | .bool b => some (.bool b)
  | .number n => n.read?
  | .string pieces => (readString? pieces).map .string
  | .array items => if depth = 0 then none else (readItems? (depth - 1) items).map .array
  | .object members =>
      if depth = 0 then none else (readMembers? (depth - 1) [] members).map .object
termination_by structural source => source

def readItems? (depth : Nat) : List Source → Option (List Json)
  | [] => some []
  | item :: items => do
      let item ← item.read? depth
      let items ← readItems? depth items
      return item :: items
termination_by structural items => items

/-- Reads members from left to right into those read before. -/
def readMembers? (depth : Nat) (read : List (String × Json)) :
    List (List Piece × Source) → Option (List (String × Json))
  | [] => some read
  | (name, value) :: rest => do
      let name ← readString? name
      let value ← value.read? depth
      readMembers? depth (insertMember name value read) rest
termination_by structural members => members

end

/-- The document of a text. -/
def parse (s : String) : Option Json :=
  (Source.parse s).bind (Source.read? maxDepth)

end SqlSession.Json
