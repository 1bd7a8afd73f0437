/-!
# Clocks

A clock is asked for the time and may answer differently each time it is asked.
It is therefore the sequence of its answers together with the number of times
it has been asked, and whoever reads it hands on a clock that has been asked
once more. That the time of an identity and its offset come from one reading is
then a statement about `reads`.
-/

namespace IdentityLine

/-- A clock: its successive readings, in milliseconds since the start of 1970, and how many of them
have been taken. -/
structure Clock where
  reading : Nat → Int64
  reads : Nat := 0

namespace Clock

/-- A clock that always shows the same time. -/
def stopped (millis : Int64) : Clock where
  reading := fun _ => millis

/-- Take the next reading. -/
def read : StateM Clock Int64 := fun clock =>
  (clock.reading clock.reads, { clock with reads := clock.reads + 1 })

end Clock

end IdentityLine
