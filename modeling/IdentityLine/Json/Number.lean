import IdentityLine.Json.Fault
import IdentityLine.Text.Decimal

/-!
# Numbers of JSON

The numbers of an identity are integers, and only a number that is written as an
integer is one: a fraction or an exponent makes it something else even when its
value is whole, and so does the sign of a negative zero. What is no integer is
not wanted anywhere, but it is still looked at, because a number too large for a
double-precision float has no size and is an error of the text.

The size is judged as it is computed: the digits that fit 64 bits, rounded to 53
bits, times a power of ten, rounded too. A number that nobody wants is passed
over and has no size to judge.
-/

namespace IdentityLine.Json

/-- What a number is to its reader. -/
inductive Number where
  /-- Written as an integer. -/
  | integer (value : Int)
  /-- Written with a fraction or an exponent, or negative zero. -/
  | other
deriving DecidableEq

/-! ## Size -/

/-- Round to 53 significant bits, a tie to the even neighbour. -/
def roundBits (n : Nat) : Nat :=
  let unit := Nat.pow 2 (n.log2 - 52)
  let q := n / unit
  let r := n % unit
  if unit < 2 * r ∨ (unit = 2 * r ∧ q % 2 = 1) then (q + 1) * unit else q * unit

/-- Whether `significand` times that power of ten is past every double-precision float. -/
def overflows (significand : Nat) (exponent : Int) : Bool :=
  if significand = 0 ∨ exponent ≤ 0 then false
  else if 308 < exponent then true
  else Nat.pow 2 1024 ≤ roundBits (roundBits significand * roundBits (Nat.pow 10 exponent.toNat))

/-- Continue a significand by digits as long as it fits 64 bits, and count the digits left over. -/
def significand (start : Nat) : List Char → Nat × Nat
  | [] => (start, 0)
  | c :: cs =>
      let next := start * 10 + (c.toNat - '0'.toNat)
      if next < UInt64.size then significand next cs else (start, cs.length + 1)

/-- The parts of a number as they are written. -/
structure Spelling where
  negative : Bool
  whole : List Char
  fraction : Option (List Char)
  exponent : Option Int

/-- Whether the number that is written is past every double-precision float. -/
def Spelling.isHuge (n : Spelling) : Bool :=
  let fraction := n.fraction.getD []
  let (start, dropped) := significand 0 n.whole
  let (value, unused) := significand start fraction
  overflows value (dropped - (fraction.length - unused : Nat) + n.exponent.getD 0)

/-- What the number that is written is to its reader. -/
def Spelling.number (n : Spelling) : Number :=
  match n.fraction, n.exponent with
  | none, none =>
      let size := Nat.ofDigitChars 10 n.whole 0
      if n.negative then
        if size = 0 then .other else .integer (-size)
      else .integer size
  | _, _ => .other

/-! ## Reading -/

/-- The digits at the front of a text, of which there must be one. -/
def someDigits (cs : List Char) : Except Fault (List Char × List Char) :=
  match cs.takeWhile Char.isDigit with
  | [] => .error (if cs.isEmpty then .truncated else .malformed)
  | d :: ds => .ok (d :: ds, cs.dropWhile Char.isDigit)

/-- The whole part of a number: a zero that no digit follows, or digits that start with none. -/
def readWhole (cs : List Char) : Except Fault (List Char × List Char) := do
  let (digits, rest) ← someDigits cs
  if digits.head? = some '0' ∧ digits.length ≠ 1 then .error .malformed
  return (digits, rest)

/-- The fraction, if there is one. -/
def readFraction (cs : List Char) : Except Fault (Option (List Char) × List Char) :=
  match cs with
  | '.' :: cs => do
      let (digits, rest) ← someDigits cs
      return (some digits, rest)
  | _ => .ok (none, cs)

/-- The sign of an exponent. -/
def exponentSign : List Char → Int × List Char
  | '-' :: cs => (-1, cs)
  | '+' :: cs => (1, cs)
  | cs => (1, cs)

/-- The exponent, if there is one. -/
def readExponent (cs : List Char) : Except Fault (Option Int × List Char) :=
  match cs with
  | c :: tail =>
      if c = 'e' ∨ c = 'E' then do
        let (sign, tail) := exponentSign tail
        let (digits, rest) ← someDigits tail
        return (some (sign * Nat.ofDigitChars 10 digits 0), rest)
      else .ok (none, cs)
  | [] => .ok (none, cs)

/-- The sign of a number. -/
def numberSign : List Char → Bool × List Char
  | '-' :: cs => (true, cs)
  | cs => (false, cs)

/-- The parts of a number, and the text behind it. -/
def readSpelling (cs : List Char) : Except Fault (Spelling × List Char) := do
  let (negative, cs) := numberSign cs
  let (whole, cs) ← readWhole cs
  let (fraction, cs) ← readFraction cs
  let (exponent, cs) ← readExponent cs
  return ({ negative, whole, fraction, exponent }, cs)

/-- Read a number, and the text behind it. -/
def readNumber (cs : List Char) : Except Fault (Number × List Char) := do
  let (spelling, rest) ← readSpelling cs
  if spelling.isHuge then .error .malformed
  return (spelling.number, rest)

/-- Pass over a number. That it stops early is not told apart from that it goes wrong. -/
def skipNumber (cs : List Char) : Except Fault (List Char) :=
  match readSpelling cs with
  | .ok (_, rest) => .ok rest
  | .error _ => .error .malformed

/-! ## Reading takes something off the text -/

theorem length_someDigits_lt {cs ds rest : List Char} (h : someDigits cs = .ok (ds, rest)) :
    rest.length < cs.length := by
  unfold someDigits at h
  have split : cs.takeWhile Char.isDigit ++ cs.dropWhile Char.isDigit = cs :=
    List.takeWhile_append_dropWhile
  cases digits : cs.takeWhile Char.isDigit with
  | nil => simp [digits] at h
  | cons e es =>
    rw [digits] at split
    simp only [digits, Except.ok.injEq, Prod.mk.injEq] at h
    have := congrArg List.length split
    simp only [List.length_append, List.length_cons, h.2] at this
    omega

theorem length_readWhole_lt {cs ds rest : List Char} (h : readWhole cs = .ok (ds, rest)) :
    rest.length < cs.length := by
  unfold readWhole at h
  cases digits : someDigits cs with
  | error e => simp [digits, bind, Except.bind] at h
  | ok p =>
    simp only [digits, bind, Except.bind] at h
    split at h
    · cases h
    · simp only [pure, Except.pure, Except.ok.injEq, Prod.mk.injEq] at h
      exact length_someDigits_lt (show someDigits cs = .ok (p.1, rest) by rw [digits, ← h.2])

theorem length_readFraction_le {cs rest : List Char} {f : Option (List Char)}
    (h : readFraction cs = .ok (f, rest)) : rest.length ≤ cs.length := by
  unfold readFraction at h
  split at h
  · rename_i tail
    cases digits : someDigits tail with
    | error e => simp [digits, bind, Except.bind] at h
    | ok p =>
      simp only [digits, bind, Except.bind, pure, Except.pure, Except.ok.injEq,
        Prod.mk.injEq] at h
      have := length_someDigits_lt (show someDigits tail = .ok (p.1, rest) by rw [digits, ← h.2])
      simp only [List.length_cons]
      omega
  · simp only [Except.ok.injEq, Prod.mk.injEq] at h
    exact Nat.le_of_eq (congrArg List.length h.2.symm)

theorem length_exponentSign_le (cs : List Char) : (exponentSign cs).2.length ≤ cs.length := by
  unfold exponentSign
  split <;> simp

theorem length_readExponent_le {cs rest : List Char} {e : Option Int}
    (h : readExponent cs = .ok (e, rest)) : rest.length ≤ cs.length := by
  unfold readExponent at h
  split at h
  · rename_i c tail
    split at h
    · have sign := length_exponentSign_le tail
      cases digits : someDigits (exponentSign tail).2 with
      | error e => simp [digits, bind, Except.bind] at h
      | ok p =>
        simp only [digits, bind, Except.bind, pure, Except.pure, Except.ok.injEq,
          Prod.mk.injEq] at h
        have := length_someDigits_lt
          (show someDigits (exponentSign tail).2 = .ok (p.1, rest) by rw [digits, ← h.2])
        simp only [List.length_cons]
        omega
    · simp only [Except.ok.injEq, Prod.mk.injEq] at h
      simp [← h.2]
  · simp only [Except.ok.injEq, Prod.mk.injEq] at h
    simp [← h.2]

theorem length_numberSign_le (cs : List Char) : (numberSign cs).2.length ≤ cs.length := by
  unfold numberSign
  split <;> simp

theorem length_readSpelling_lt {cs rest : List Char} {n : Spelling}
    (h : readSpelling cs = .ok (n, rest)) : rest.length < cs.length := by
  unfold readSpelling at h
  have sign := length_numberSign_le cs
  cases whole : readWhole (numberSign cs).2 with
  | error e => simp [whole, bind, Except.bind] at h
  | ok w =>
    have hw := length_readWhole_lt whole
    cases fraction : readFraction w.2 with
    | error e => simp [whole, fraction, bind, Except.bind] at h
    | ok f =>
      have hf := length_readFraction_le fraction
      cases exponent : readExponent f.2 with
      | error e => simp [whole, fraction, exponent, bind, Except.bind] at h
      | ok e =>
        have he := length_readExponent_le exponent
        simp only [whole, fraction, exponent, bind, Except.bind, pure, Except.pure,
          Except.ok.injEq, Prod.mk.injEq] at h
        rw [← h.2]
        omega

theorem length_readNumber_lt {cs rest : List Char} {n : Number}
    (h : readNumber cs = .ok (n, rest)) : rest.length < cs.length := by
  unfold readNumber at h
  cases spelling : readSpelling cs with
  | error e => simp [spelling, bind, Except.bind] at h
  | ok p =>
    simp only [spelling, bind, Except.bind] at h
    split at h
    · cases h
    · simp only [pure, Except.pure, Except.ok.injEq, Prod.mk.injEq] at h
      rw [← h.2]
      exact length_readSpelling_lt spelling

theorem length_skipNumber_lt {cs rest : List Char} (h : skipNumber cs = .ok rest) :
    rest.length < cs.length := by
  unfold skipNumber at h
  split at h
  · rename_i n r spelling
    simp only [Except.ok.injEq] at h
    rw [← h]
    exact length_readSpelling_lt spelling
  · cases h

end IdentityLine.Json
