/-!
# `SqlSession.Duration`: spans of time and instants

Time is counted in whole nanoseconds. A span is written in the largest
of the units s, ms, µs and ns that gives it an integer part of at least
one, with the fraction's trailing zeros left out: `1.5s`, `20ms`,
`1.000000001s`, and `0ns` for no time at all.
-/

set_option autoImplicit false

namespace SqlSession

/-- A span of time. -/
structure Duration where
  nanos : Nat
  deriving DecidableEq, Repr, Inhabited

/-- A point on the clock, counted from the clock's start. -/
structure Instant where
  nanos : Nat
  deriving DecidableEq, Repr, Inhabited

namespace Duration

def zero : Duration := ⟨0⟩

/-- So many milliseconds. -/
def ofMillis (ms : Nat) : Duration := ⟨ms * 1000000⟩

/-- Whole seconds and nanoseconds; more than a second's worth of
nanoseconds carries over. -/
def ofSeconds (seconds nanos : Nat) : Duration := ⟨seconds * 1000000000 + nanos⟩

/-- Whole milliseconds, rounded down. -/
def toMillis (d : Duration) : Nat := d.nanos / 1000000

/-- Whole microseconds, rounded down. -/
def toMicros (d : Duration) : Nat := d.nanos / 1000

instance : LT Duration := ⟨fun a b => a.nanos < b.nanos⟩

instance (a b : Duration) : Decidable (a < b) :=
  inferInstanceAs (Decidable (a.nanos < b.nanos))

/-- A decimal number of exactly `width` digits. -/
def padded (width n : Nat) : List Char :=
  let digits := (toString n).toList
  List.replicate (width - digits.length) '0' ++ digits

/-- A count of nanoseconds in a unit of `10 ^ places` of them, without
trailing zeros. -/
def inUnit (nanos places : Nat) (unit : String) : String :=
  let size := Nat.pow 10 places
  let fraction := ((padded places (nanos % size)).reverse.dropWhile (· == '0')).reverse
  let point := if nanos % size = 0 then "" else "." ++ String.ofList fraction
  toString (nanos / size) ++ point ++ unit

/-- The text of a span, in the largest unit that fits in it. -/
def text (d : Duration) : String :=
  if 1000000000 ≤ d.nanos then inUnit d.nanos 9 "s"
  else if 1000000 ≤ d.nanos then inUnit d.nanos 6 "ms"
  else if 1000 ≤ d.nanos then inUnit d.nanos 3 "µs"
  else inUnit d.nanos 0 "ns"

end Duration

namespace Instant

/-- The instant that a clock starts at. -/
def start : Instant := ⟨0⟩

instance : LE Instant := ⟨fun a b => a.nanos ≤ b.nanos⟩

instance (a b : Instant) : Decidable (a ≤ b) :=
  inferInstanceAs (Decidable (a.nanos ≤ b.nanos))

/-- The instant a span after another. -/
def after (t : Instant) (d : Duration) : Instant := ⟨t.nanos + d.nanos⟩

/-- The time left from `now` until `t`, none once `t` has passed. -/
def remaining (t now : Instant) : Duration := ⟨t.nanos - now.nanos⟩

/-- The later of two instants. -/
def later (a b : Instant) : Instant := ⟨max a.nanos b.nanos⟩

/-- The earlier of two instants. -/
def earlier (a b : Instant) : Instant := ⟨min a.nanos b.nanos⟩

/-- Whole milliseconds since the start, rounded down. -/
def toMillis (t : Instant) : Nat := t.nanos / 1000000

end Instant

end SqlSession
