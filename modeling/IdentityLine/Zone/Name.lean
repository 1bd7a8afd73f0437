import IdentityLine.Zone

/-!
# Zones by name

A zone with a constant offset has a name: `GMT` or `UTC`, then a sign and a time
of day. The time may be written as hours alone or as hours and minutes, with or
without a colon, and without a colon the number of digits says which they are.

An identity declares its zone by its offset, and a zone is found for it by
asking for the name that the offset spells. Whoever is asked may know no such
zone, and then UTC stands in.
-/

namespace IdentityLine.Zone

/-- What comes before the first colon of a text, and what follows it. -/
def splitColon : List Char → Option (List Char × List Char)
  | [] => none
  | c :: cs =>
      if c = ':' then some ([], cs) else (splitColon cs).map fun (a, b) => (c :: a, b)

/-- Hours and minutes out of `H`, `HH`, `HMM`, `HHMM`, `H:MM` or `HH:MM`. -/
def hoursMinutes? (cs : List Char) : Option (Nat × Nat) :=
  match splitColon cs with
  | some (hours, minutes) =>
      if hours.length ≤ 2 ∧ minutes.length = 2 then
        return (← Decimal.nat? hours, ← Decimal.nat? minutes)
      else none
  | none =>
      if cs.length ≤ 2 then
        return (← Decimal.nat? cs, 0)
      else if cs.length ≤ 4 then
        return (← Decimal.nat? (cs.take (cs.length - 2)), ← Decimal.nat? (cs.drop (cs.length - 2)))
      else none

/-- What follows the name of the meridian, which is written in one of two ways. -/
def afterMeridian? : List Char → Option (List Char)
  | 'G' :: 'M' :: 'T' :: rest => some rest
  | 'U' :: 'T' :: 'C' :: rest => some rest
  | _ => none

/-- The direction a sign stands for. -/
def direction? (c : Char) : Option Int :=
  if c = '+' then some 1 else if c = '-' then some (-1) else none

/-- The offset of a zone by its name. -/
def named? (id : String) : Option UtcOffset := do
  match ← afterMeridian? id.toList with
  | [] => return .utc
  | c :: cs =>
      let sign ← direction? c
      let (hours, minutes) ← hoursMinutes? cs
      if hours ≤ 23 ∧ minutes ≤ 59 then
        UtcOffset.ofSeconds? (sign * (hours * 60 + minutes) * 60)
      else none

/-- The name that an offset spells. -/
def nameOf (offset : Offset) : String :=
  "GMT" ++ offset.text

/-- The zone that an offset declares, as far as the one who is asked knows it. -/
def declaredBy {m : Type → Type} [Monad m] (ask : String → m (Option UtcOffset))
    (offset : Offset) : m UtcOffset := do
  return (← ask (nameOf offset)).getD .utc

/-- The zone that an offset declares. -/
def declared (offset : Offset) : UtcOffset :=
  Id.run (declaredBy (fun id => pure (named? id)) offset)

end IdentityLine.Zone
