/-!
# `SqlSession.DateTime`: dates with times of day

A date and time without a time zone. It is written as
`year-month-day hour:minute:second` with a fraction of no, three, six
or nine digits, the fewest that hold it. Years from 0 to 9999 have four
digits; other years carry a sign and have four digits at least. A leap
second is the second 60 of its minute.
-/

set_option autoImplicit false

namespace SqlSession

/-- A date and a time of day. Nanoseconds from 1 000 000 000 on belong
to a leap second. -/
structure DateTime where
  year : Int
  month : Nat
  day : Nat
  hour : Nat
  minute : Nat
  second : Nat
  nanos : Nat
  deriving DecidableEq, Repr, Inhabited

namespace DateTime

/-- A decimal number with at least `width` digits. -/
def padded (width n : Nat) : String :=
  let digits := toString n
  String.ofList (List.replicate (width - digits.length) '0') ++ digits

/-- A year: unsigned in four digits where that is possible. -/
def yearText (year : Int) : String :=
  if 0 ≤ year ∧ year ≤ 9999 then padded 4 year.natAbs
  else (if year < 0 then "-" else "+") ++ padded 4 year.natAbs

/-- A fraction of a second in the fewest digits of 0, 3, 6 and 9. -/
def fractionText (nanos : Nat) : String :=
  if nanos = 0 then ""
  else if nanos % 1000000 = 0 then "." ++ padded 3 (nanos / 1000000)
  else if nanos % 1000 = 0 then "." ++ padded 6 (nanos / 1000)
  else "." ++ padded 9 nanos

/-- The text of a date and time. -/
def text (t : DateTime) : String :=
  let second := t.second + t.nanos / 1000000000
  yearText t.year ++ "-" ++ padded 2 t.month ++ "-" ++ padded 2 t.day ++ " " ++
    padded 2 t.hour ++ ":" ++ padded 2 t.minute ++ ":" ++ padded 2 second ++
    fractionText (t.nanos % 1000000000)

end DateTime

end SqlSession
