/-!
# Decimal numerals

Every number in this library is written in plain decimal: seconds, offsets,
years, milliseconds. Digits are ASCII only, so a digit of another script is not
a digit here. Three readers differ in what they allow around the digits, and
each says so.
-/

namespace IdentityLine.Decimal

/-- The digits of a natural number, with no leading zero. -/
def digits (n : Nat) : List Char :=
  Nat.toDigits 10 n

/-- The digits of a natural number, filled up with zeros on the left to `width`. -/
def padded (width n : Nat) : List Char :=
  List.replicate (width - (digits n).length) '0' ++ digits n

/-- An integer: a minus sign when it is negative, then the digits of its size. -/
def signed (z : Int) : List Char :=
  if z < 0 then '-' :: digits z.natAbs else digits z.natAbs

/-- The number that a text of digits alone denotes; an empty text denotes none. -/
def nat? (cs : List Char) : Option Nat :=
  if !cs.isEmpty && cs.all Char.isDigit then some (Nat.ofDigitChars 10 cs 0) else none

/-- The integer that an optional sign and digits denote: `-0`, `+5` and `007` are accepted. -/
def int? : List Char → Option Int
  | '-' :: cs => (nat? cs).map fun n => -(n : Int)
  | '+' :: cs => (nat? cs).map Int.ofNat
  | cs => (nat? cs).map Int.ofNat

/-- The lower-case hexadecimal digits of a natural number. -/
def hex (n : Nat) : List Char :=
  Nat.toDigits 16 n

/-- The value of a hexadecimal digit, in either case. -/
def hexDigit? (c : Char) : Option Nat :=
  if c.isDigit then some (c.toNat - '0'.toNat)
  else if 'a' ≤ c ∧ c ≤ 'f' then some (c.toNat - 'a'.toNat + 10)
  else if 'A' ≤ c ∧ c ≤ 'F' then some (c.toNat - 'A'.toNat + 10)
  else none

theorem digits_ne_nil (n : Nat) : digits n ≠ [] := Nat.toDigits_ne_nil

theorem isDigit_of_mem_digits {n : Nat} {c : Char} (h : c ∈ digits n) : c.isDigit = true :=
  Nat.isDigit_of_mem_toDigits (by decide) (by decide) h

/-- Reading digits gives back the number they were written from. -/
@[simp]
theorem nat?_digits (n : Nat) : nat? (digits n) = some n := by
  have all : ∀ c ∈ Nat.toDigits 10 n, c.isDigit = true :=
    fun _ h => isDigit_of_mem_digits h
  simpa [nat?, digits, Nat.ofDigitChars_ten_toDigits] using all

end IdentityLine.Decimal
