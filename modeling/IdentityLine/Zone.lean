import IdentityLine.Instant
import IdentityLine.Offset

/-!
# Zones

A zone says how far local time is ahead of UTC at each instant. Its answer is to
the second and less than a day; an identity keeps whole minutes of it, cut off
toward zero, so that zones opposite to each other give opposite offsets.
-/

namespace IdentityLine

/-- How far a local time is ahead of UTC: less than a day, to the second. -/
structure UtcOffset where
  /-- Seconds east of UTC. -/
  seconds : Int
  neg_day_lt : -86400 < seconds
  lt_day : seconds < 86400
deriving DecidableEq

namespace UtcOffset

/-- UTC itself. -/
def utc : UtcOffset := ⟨0, by decide, by decide⟩

/-- The offset of that many seconds, if it is less than a day. -/
def ofSeconds? (seconds : Int) : Option UtcOffset :=
  if h : -86400 < seconds ∧ seconds < 86400 then some ⟨seconds, h.1, h.2⟩ else none

/-- Whole minutes, cut off toward zero. -/
def minutes (o : UtcOffset) : Offset :=
  Int32.ofInt (o.seconds.tdiv 60)

end UtcOffset

/-- A zone gives every instant its offset. -/
structure Zone where
  offsetAt : Instant → UtcOffset

namespace Zone

/-- The zone that has one offset at all times. -/
def constant (o : UtcOffset) : Zone where
  offsetAt := fun _ => o

/-- The zone of UTC. -/
def utc : Zone := constant .utc

/-- The zone that changes its offset once, at a whole millisecond. -/
def switching (millis : Int) (before after : UtcOffset) : Zone where
  offsetAt := fun i =>
    if i.isBefore (millis / 1000) ((millis % 1000).toNat * 1000000) then before else after

/-- The offset to stamp at a number of milliseconds: the zone's at that instant, and none past the
ends of the calendar. -/
def offsetAtMillis (zone : Zone) (millis : Int64) : Offset :=
  match Instant.ofMillis? millis with
  | some i => (zone.offsetAt i).minutes
  | none => 0

end Zone

end IdentityLine
