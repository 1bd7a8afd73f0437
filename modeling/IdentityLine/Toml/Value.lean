/-!
# Values of a TOML document

A document is a table, and a table maps keys to values. While a document is read
it matters how a table came to be, because some tables may still grow and others
may not, so a table carries its origin. Tables keep their entries in the order in
which they were written; who reads a table goes through it in the order of its
keys.
-/

namespace IdentityLine.Toml

/-- A number with a fraction or an exponent, or one of the numbers that are no number. -/
inductive Decimal where
  | infinite
  | notANumber
  /-- `digits` times that power of ten; the sign does not matter for size. -/
  | finite (digits : Nat) (exponent : Int)
deriving DecidableEq

/-- How a table came to be, and so what may still be added to it. -/
inductive Origin where
  /-- Its own header. -/
  | header
  /-- The header of a table inside it; its own header may still come. -/
  | implied
  /-- A dotted key. -/
  | dotted
  /-- Braces; it is complete. -/
  | braces
deriving DecidableEq

/-- A value. An array is of tables when headers in double brackets make it. -/
inductive Value where
  | string (s : String)
  | integer (z : Int)
  /-- A word that sets out like an integer and spells none. -/
  | misspelt
  | float (x : Decimal)
  | boolean (b : Bool)
  | datetime (text : String)
  | array (ofTables : Bool) (elements : List Value)
  | table (origin : Origin) (entries : List (String × Value))

/-- The entries of a table. -/
abbrev Entries := List (String × Value)

/-- The value of a key. -/
def Entries.get? (es : Entries) (key : String) : Option Value :=
  (es.find? fun e => e.1 == key).map (·.2)

/-- The entries in the order of their keys. -/
def Entries.sorted (es : Entries) : Entries :=
  es.mergeSort fun a b => decide (a.1 ≤ b.1)

/-! ## What can be asked for

A number is kept as it is written, and whoever asks for it finds out whether it
is one and whether it is too large: an integer of more than 128 bits, or a float
whose nearest double-precision neighbour is infinite. -/

/-- Whether a number with a fraction or an exponent is too large for a double-precision float. A
number of that many digits is decided by their count unless it is near the limit. -/
def Decimal.isHuge : Decimal → Bool
  | .infinite => false
  | .notANumber => false
  | .finite digits exponent =>
      let places := (Nat.toDigits 10 digits).length + exponent
      let limit := Nat.pow 2 1024 - Nat.pow 2 970
      if digits = 0 ∨ places < 300 then false
      else if 320 < places then true
      else decide (limit * Nat.pow 10 (-exponent).toNat ≤ digits * Nat.pow 10 exponent.toNat)

mutual

/-- Whether every number in a value is one and none is too large. -/
def Value.isSound : Value → Bool
  | .integer z => decide (-(Nat.pow 2 127 : Nat) ≤ z ∧ z < (Nat.pow 2 128 : Nat))
  | .misspelt => false
  | .float x => !x.isHuge
  | .array _ elements => allSound elements
  | .table _ entries => entriesSound entries
  | _ => true

/-- Whether all of the values are sound. -/
def allSound : List Value → Bool
  | [] => true
  | v :: vs => v.isSound && allSound vs

/-- Whether the values of all of the entries are sound. -/
def entriesSound : List (String × Value) → Bool
  | [] => true
  | (_, v) :: es => v.isSound && entriesSound es

end

end IdentityLine.Toml
