import IdentityLine.Text.Decimal
import IdentityLine.Calendar
import IdentityLine.Toml.Value

/-!
# Values of one word

A value without quotes or brackets is one word, and its spelling says what it is:
a truth value, an integer in one of four bases, a number with a fraction or an
exponent, or a date, a time or both. Digits may be parted by single underscores.
A date must exist, and a minute has room for one leap second.

Some words set out like an integer and then spell none, such as one that names its
base and stops there. They are values all the same, and it is only found out when
somebody asks for them.
-/

namespace IdentityLine.Toml

/-! ## Numbers -/

/-- A word without its underscores. Each must have a digit on either side; `before` says whether one
stands before the word. -/
def ungrouped? (isDigit : Char → Bool) (before : Bool) : List Char → Option (List Char)
  | [] => some []
  | '_' :: c :: rest =>
      if before && isDigit c then (ungrouped? isDigit true rest).map (c :: ·) else none
  | ['_'] => none
  | c :: rest => (ungrouped? isDigit (isDigit c) rest).map (c :: ·)

/-- A sign, if there is one, and the word behind it. -/
def signed (cs : List Char) : Option Char × List Char :=
  match cs with
  | '-' :: rest => (some '-', rest)
  | '+' :: rest => (some '+', rest)
  | _ => (none, cs)

/-- The integer that decimal digits denote behind a sign. -/
def integerOf (sign : Option Char) (ds : List Char) : Int :=
  let n : Int := Nat.ofDigitChars 10 ds 0
  if sign = some '-' then -n else n

/-- Whether a character is a hexadecimal digit. -/
def isHexDigit (c : Char) : Bool :=
  (Decimal.hexDigit? c).isSome

/-- The value of digits in a base of at most sixteen. -/
def valueIn (base : Nat) (ds : List Char) : Nat :=
  ds.foldl (fun n d => n * base + (Decimal.hexDigit? d).getD 0) 0

/-- An integer in a base that its first two characters name. It is misspelt without digits. -/
def prefixed? (cs : List Char) : Option Value :=
  let inBase (base : Nat) (ds : List Char) : Option Value := do
    let isDigit (c : Char) : Bool := (Decimal.hexDigit? c).any (· < base)
    let ds ← ungrouped? isDigit false ds
    if !ds.all isDigit then none
    else if ds = [] then some .misspelt
    else some (.integer (valueIn base ds))
  match cs with
  | '0' :: 'x' :: ds => inBase 16 ds
  | '0' :: 'o' :: ds => inBase 8 ds
  | '0' :: 'b' :: ds => inBase 2 ds
  | _ => none

/-- Whether a character shows that a number is no integer. -/
def isFractional (c : Char) : Bool :=
  c == '.' || c == 'e' || c == 'E'

/-- A decimal integer. It starts with zero only when that is all. Once an underscore parts its
digits other characters may follow, and then it is misspelt. -/
def integer? (cs : List Char) : Option Value := do
  let (sign, body) := signed cs
  let rest := body.dropWhile Char.isDigit
  if body = [] ∨ (body.head? = some '0' ∧ body ≠ ['0']) then none
  else if rest.head?.any (· != '_') || rest.any isFractional then none
  else
    let ds ← ungrouped? isHexDigit false body
    return if ds.all Char.isDigit then .integer (integerOf sign ds) else .misspelt

/-- The text before the first character of a kind, and the text behind it. -/
def splitAt? (p : Char → Bool) (cs : List Char) : Option (List Char × List Char) :=
  match cs.dropWhile (fun c => !p c) with
  | [] => none
  | _ :: rest => some (cs.takeWhile (fun c => !p c), rest)

/-- Digits, at least one. -/
def digits? (cs : List Char) : Option (List Char) :=
  if !cs.isEmpty && cs.all Char.isDigit then some cs else none

/-- An exponent behind its letter. -/
def exponent? (cs : List Char) : Option Int :=
  let (sign, ds) := signed cs
  (digits? ds).map (integerOf sign)

/-- A number with a fraction or an exponent, or one of the two words that stand for none. What
stands before the fraction starts with zero only when that is all. -/
def decimal? (cs : List Char) : Option Toml.Decimal := do
  let (_, body) := signed cs
  if body = "inf".toList then return .infinite
  if body = "nan".toList then return .notANumber
  if !body.any isFractional then none
  let text ← ungrouped? Char.isDigit false body
  let (mantissa, exponent) ←
    match splitAt? (fun c => c == 'e' || c == 'E') text with
    | some (mantissa, tail) => (exponent? tail).map fun e => (mantissa, e)
    | none => some (text, 0)
  let (whole, fraction) ←
    match splitAt? (· == '.') mantissa with
    | some (whole, fraction) => (digits? fraction).map fun fraction => (whole, fraction)
    | none => some (mantissa, [])
  let whole ← digits? whole
  if whole.head? = some '0' ∧ whole ≠ ['0'] then none
  return .finite (Nat.ofDigitChars 10 (whole ++ fraction) 0) (exponent - fraction.length)

/-! ## Dates and times -/

/-- Two digits at the front of a text. -/
def twoDigits? : List Char → Option (Nat × List Char)
  | a :: b :: rest =>
      if a.isDigit && b.isDigit then some (Nat.ofDigitChars 10 [a, b] 0, rest) else none
  | _ => none

/-- Two digits up to a bound at the front of a text, behind a given character. -/
def part? (before : Char) (bound : Nat) (cs : List Char) : Option (Nat × List Char) :=
  match cs with
  | c :: rest =>
      if c = before then do
        let (n, rest) ← twoDigits? rest
        if n ≤ bound then some (n, rest) else none
      else none
  | [] => none

/-- Pass over a date. -/
def skipDate? (cs : List Char) : Option (List Char) := do
  let (century, cs) ← twoDigits? cs
  let (year, cs) ← twoDigits? cs
  let (month, cs) ← part? '-' 12 cs
  let (day, cs) ← part? '-' 31 cs
  let lengths := Calendar.monthLengths (Calendar.isLeap (century * 100 + year : Nat))
  if 1 ≤ month ∧ 1 ≤ day ∧ day ≤ lengths.getD (month - 1) 0 then some cs else none

/-- Pass over a time of day; seconds may be missing, and so may their fraction. -/
def skipTime? (cs : List Char) : Option (List Char) := do
  let (hour, cs) ← twoDigits? cs
  if 23 < hour then none
  let (_, cs) ← part? ':' 59 cs
  match cs with
  | ':' :: _ =>
      let (_, cs) ← part? ':' 60 cs
      match cs with
      | '.' :: fraction =>
          if (fraction.takeWhile Char.isDigit).isEmpty then none
          else some (fraction.dropWhile Char.isDigit)
      | _ => some cs
  | _ => some cs

/-- Whether a text is an offset from UTC, or empty. -/
def isOffset : List Char → Bool
  | [] => true
  | [c] => c == 'Z' || c == 'z'
  | c :: cs =>
      (c == '+' || c == '-') &&
        match part? c 23 (c :: cs) with
        | some (_, rest) => (part? ':' 59 rest).any fun (_, rest) => rest.isEmpty
        | none => false

/-- Whether a word is a date, a time, or both with or without an offset. -/
def isDatetime (cs : List Char) : Bool :=
  match skipDate? cs with
  | some [] => true
  | some (c :: rest) =>
      (c == 'T' || c == 't' || c == ' ') && (skipTime? rest).any isOffset
  | none => (skipTime? cs).any List.isEmpty

/-! ## Words -/

/-- Whether a character may stand in a word: all but blanks, line ends, brackets and those that part
the values and keys of a document. -/
def isWordChar (c : Char) : Bool :=
  !" \t\r\n[]\x7b\x7d,=#".toList.contains c

/-- The word at the front of a text, and the text behind it. A date and a time that a space parts
are one word. -/
def word (cs : List Char) : List Char × List Char :=
  let first := cs.takeWhile isWordChar
  match cs.dropWhile isWordChar with
  | ' ' :: rest =>
      match skipDate? first, rest.head? with
      | some [], some c =>
          if c.isDigit then
            (first ++ ' ' :: rest.takeWhile isWordChar, rest.dropWhile isWordChar)
          else (first, ' ' :: rest)
      | _, _ => (first, ' ' :: rest)
  | rest => (first, rest)

/-- The value that a word spells. -/
def wordValue? (cs : List Char) : Option Value :=
  if cs = "true".toList then some (.boolean true)
  else if cs = "false".toList then some (.boolean false)
  else if isDatetime cs then some (.datetime (String.ofList cs))
  else
    prefixed? cs <|> integer? cs <|> (decimal? cs).map .float

end IdentityLine.Toml
