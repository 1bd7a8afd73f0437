import IdentityLine.Text.Decimal

/-!
# Offsets as a canonical line writes them

An offset is a number of minutes east of UTC, and every 32-bit number is one: a
line may carry an offset that no zone on earth has. Its text is a sign, the
hours in at least two digits and the minutes in two, so the text grows with the
hours and never loses any of them.
-/

namespace IdentityLine

/-- Minutes east of UTC; negative to the west. -/
abbrev Offset := Int32

namespace Offset

/-- The sign of an offset. Only a negative one is written with a minus. -/
def sign (offset : Offset) : Char :=
  if offset.toInt < 0 then '-' else '+'

/-- The characters of an offset's text. -/
def chars (offset : Offset) : List Char :=
  let size := offset.toInt.natAbs
  offset.sign :: (Decimal.padded 2 (size / 60) ++ Decimal.padded 2 (size % 60))

/-- An offset's text, `+HHMM` or `-HHMM`. -/
def text (offset : Offset) : String :=
  String.ofList offset.chars

end Offset

end IdentityLine
