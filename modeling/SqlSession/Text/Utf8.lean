/-!
# `SqlSession.Text.Utf8`: reading bytes as UTF-8

`decode` reads a byte sequence as text or says where and how it stops
being one. A sequence is well formed as in table 3-7 of the Unicode
standard: no overlong form, no surrogate, nothing above `U+10FFFF`. The
flaw names the first byte that starts no complete character, and the
length of the longest start of a character found there, unless the
input merely ends too early.
-/

set_option autoImplicit false

namespace SqlSession.Text.Utf8

/-- Why bytes are no text: everything before `validUpTo` is, and there
`length` bytes are out of place, or the input ends inside a character
when `length` is absent. -/
structure Flaw where
  validUpTo : Nat
  length : Option Nat
  deriving DecidableEq, Repr

/-- The wording of a flaw. -/
def Flaw.message (flaw : Flaw) : String :=
  match flaw.length with
  | some n => s!"invalid utf-8 sequence of {n} bytes from index {flaw.validUpTo}"
  | none => s!"incomplete utf-8 byte sequence from index {flaw.validUpTo}"

/-- A byte that continues a character. -/
def isTail (b : UInt8) : Bool := 0x80 ≤ b && b ≤ 0xBF

/-- The second bytes that may follow the first byte of a three-byte
character: no overlong form and no surrogate. -/
def isSecondOfThree (first second : UInt8) : Bool :=
  if first = 0xE0 then 0xA0 ≤ second && second ≤ 0xBF
  else if first = 0xED then 0x80 ≤ second && second ≤ 0x9F
  else isTail second

/-- The second bytes that may follow the first byte of a four-byte
character: no overlong form and nothing above `U+10FFFF`. -/
def isSecondOfFour (first second : UInt8) : Bool :=
  if first = 0xF0 then 0x90 ≤ second && second ≤ 0xBF
  else if first = 0xF4 then 0x80 ≤ second && second ≤ 0x8F
  else isTail second

/-- The six low bits that a continuing byte carries. -/
def tailBits (b : UInt8) : Nat := b.toNat % 64

/-- Reads the bytes from index `i` on. -/
def decodeFrom (i : Nat) : List UInt8 → Except Flaw (List Char)
  | [] => .ok []
  | a :: rest =>
      if a < 0x80 then
        (Char.ofNat a.toNat :: ·) <$> decodeFrom (i + 1) rest
      else if 0xC2 ≤ a && a ≤ 0xDF then
        match rest with
        | [] => .error ⟨i, none⟩
        | b :: rest =>
            if isTail b then
              (Char.ofNat (a.toNat % 32 * 64 + tailBits b) :: ·) <$> decodeFrom (i + 2) rest
            else .error ⟨i, some 1⟩
      else if 0xE0 ≤ a && a ≤ 0xEF then
        match rest with
        | [] => .error ⟨i, none⟩
        | b :: rest =>
            if !isSecondOfThree a b then .error ⟨i, some 1⟩ else
            match rest with
            | [] => .error ⟨i, none⟩
            | c :: rest =>
                if isTail c then
                  (Char.ofNat ((a.toNat % 16 * 64 + tailBits b) * 64 + tailBits c) :: ·)
                    <$> decodeFrom (i + 3) rest
                else .error ⟨i, some 2⟩
      else if 0xF0 ≤ a && a ≤ 0xF4 then
        match rest with
        | [] => .error ⟨i, none⟩
        | b :: rest =>
            if !isSecondOfFour a b then .error ⟨i, some 1⟩ else
            match rest with
            | [] => .error ⟨i, none⟩
            | c :: rest =>
                if !isTail c then .error ⟨i, some 2⟩ else
                match rest with
                | [] => .error ⟨i, none⟩
                | d :: rest =>
                    if isTail d then
                      (Char.ofNat (((a.toNat % 8 * 64 + tailBits b) * 64 + tailBits c) * 64
                        + tailBits d) :: ·) <$> decodeFrom (i + 4) rest
                    else .error ⟨i, some 3⟩
      else .error ⟨i, some 1⟩

/-- The text that the bytes encode. -/
def decode (bytes : List UInt8) : Except Flaw String :=
  String.ofList <$> decodeFrom 0 bytes

/-- The bytes of a text. -/
def encode (s : String) : List UInt8 := s.toUTF8.toList

end SqlSession.Text.Utf8
