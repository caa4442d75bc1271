/-!
# `SqlSession.Text.Hex`: hexadecimal digits

Reading and writing of numbers and bytes in base sixteen. Digits are
written in lower case and read in either case.
-/

set_option autoImplicit false

namespace SqlSession.Text.Hex

/-- The value of a hexadecimal digit of either case. -/
def digit? (c : Char) : Option Nat :=
  let n := c.toNat
  if 48 ≤ n ∧ n ≤ 57 then some (n - 48)
  else if 97 ≤ n ∧ n ≤ 102 then some (n - 87)
  else if 65 ≤ n ∧ n ≤ 70 then some (n - 55)
  else none

/-- The lower-case digit of a number below sixteen. -/
def digit (n : Nat) : Char :=
  if n < 10 then Char.ofNat (48 + n) else Char.ofNat (87 + n)

/-- The number that a run of digits writes, most significant first;
nothing if a character is no digit. -/
def number? (cs : List Char) : Option Nat :=
  cs.foldlM (fun n c => (digit? c).map fun d => 16 * n + d) 0

/-- The lowest `width` digits of a number, most significant first. -/
def fixed : (width : Nat) → Nat → List Char
  | 0, _ => []
  | width + 1, n => fixed width (n / 16) ++ [digit (n % 16)]

/-- A number without leading zeros. -/
def shortest (n : Nat) : List Char :=
  fixed (Nat.log2 n / 4 + 1) n

/-- Two digits for each byte, in order. -/
def ofBytes (bytes : List UInt8) : String :=
  String.ofList (bytes.flatMap fun b => fixed 2 b.toNat)

/-- The bytes that pairs of digits write. -/
def bytes? : List Char → Option (List UInt8)
  | [] => some []
  | [_] => none
  | a :: b :: rest => do
      let n ← number? [a, b]
      let tail ← bytes? rest
      return UInt8.ofNat n :: tail

end SqlSession.Text.Hex
