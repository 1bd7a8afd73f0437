/-!
# Instants

An instant is a count of whole seconds since the start of 1970 in UTC and of
nanoseconds within the second. The calendar behind it covers a little more than
262 000 years on either side, and an instant outside it does not exist: the two
bounds are part of the type. A count of nanoseconds from one thousand million
on is a leap second. Any second can have one, since the nanoseconds of an instant
can be replaced wherever it is; only a timestamp has its leap seconds at the ends
of minutes.

An identity keeps its time in milliseconds, and those reach much further. Going
from milliseconds to an instant therefore either fails or stops at the nearest
end; both are here, and they agree wherever the first gives an answer.
-/

namespace IdentityLine

/-- A point in time, counted from the start of 1970 in UTC. -/
structure Instant where
  /-- Whole seconds, rounded down. -/
  seconds : Int
  /-- Nanoseconds since the whole second. -/
  nanos : Nat
  first_le : -8334601228800 ≤ seconds
  le_last : seconds ≤ 8210266876799
  nanos_lt : nanos < 2000000000
deriving DecidableEq

namespace Instant

/-- The instant of a timestamp, if the calendar has it. A timestamp is of a leap second only behind
the last second of a minute. -/
def ofParts? (seconds : Int) (nanos : Nat) : Option Instant :=
  if h : (-8334601228800 ≤ seconds ∧ seconds ≤ 8210266876799)
      ∧ nanos < 2000000000 ∧ (1000000000 ≤ nanos → seconds % 60 = 59) then
    some ⟨seconds, nanos, h.1.1, h.1.2, h.2.1⟩
  else none

/-- The first instant of the calendar. -/
def first : Instant := ⟨-8334601228800, 0, by decide, by decide, by decide⟩

/-- The last instant of the calendar, leap seconds aside. -/
def last : Instant := ⟨8210266876799, 999999999, by decide, by decide, by decide⟩

/-- The instant a number of milliseconds after the start of 1970, if the calendar has it. -/
def ofMillis? (millis : Int64) : Option Instant :=
  let seconds := millis.toInt / 1000
  if h : -8334601228800 ≤ seconds ∧ seconds ≤ 8210266876799 then
    some
      { seconds
        nanos := (millis.toInt % 1000).toNat * 1000000
        first_le := h.1
        le_last := h.2
        nanos_lt := by omega }
  else none

/-- The instant a number of milliseconds after the start of 1970, or the end of the calendar that
lies nearer. -/
def ofMillis (millis : Int64) : Instant :=
  (ofMillis? millis).getD (if millis.toInt < 0 then first else last)

/-- The whole milliseconds up to an instant. A leap second counts on into the next second. -/
def millis (i : Instant) : Int64 :=
  Int64.ofInt (i.seconds * 1000 + (i.nanos / 1000000 : Nat))

/-- Whether an instant comes before a second and its nanosecond. A leap second comes before the
second after it, however many nanoseconds it counts. -/
def isBefore (i : Instant) (second : Int) (nano : Nat) : Bool :=
  decide (i.seconds < second) || (decide (i.seconds = second) && decide (i.nanos < nano))

/-- The order of instants. -/
def precedes (i j : Instant) : Bool :=
  i.isBefore j.seconds j.nanos

end Instant

end IdentityLine
