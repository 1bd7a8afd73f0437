import IdentityLine.Json.Fault
import IdentityLine.Text.Decimal

/-!
# Strings of JSON

A string is written with as few escapes as JSON allows, and read with all of
them. An escape by number gives a unit of UTF-16, so a character past the first
65 536 takes two of them, a leading and a trailing unit, and neither means
anything alone.

A string that nobody wants is passed over and not decoded: its escapes must be
complete, but what units they give is not looked at.
-/

namespace IdentityLine.Json

/-! ## Writing -/

/-- One character inside a string. -/
def escapeChar (c : Char) : List Char :=
  if c = '"' then ['\\', '"']
  else if c = '\\' then ['\\', '\\']
  else if c = '\x08' then ['\\', 'b']
  else if c = '\x0c' then ['\\', 'f']
  else if c = '\n' then ['\\', 'n']
  else if c = '\r' then ['\\', 'r']
  else if c = '\t' then ['\\', 't']
  else if c.toNat < 0x20 then
    ['\\', 'u', '0', '0', Nat.digitChar (c.toNat / 16), Nat.digitChar (c.toNat % 16)]
  else [c]

/-- A string with its quotes. -/
def writeString (cs : List Char) : List Char :=
  '"' :: (cs.flatMap escapeChar ++ ['"'])

/-! ## Reading -/

/-- The character that an escape of one letter stands for. -/
def shortEscape? (c : Char) : Option Char :=
  match c with
  | '"' => some '"'
  | '\\' => some '\\'
  | '/' => some '/'
  | 'b' => some '\x08'
  | 'f' => some '\x0c'
  | 'n' => some '\n'
  | 'r' => some '\r'
  | 't' => some '\t'
  | _ => none

/-- The unit that four hexadecimal digits give. -/
def unit? (a b c d : Char) : Option Nat := do
  return ((← Decimal.hexDigit? a) * 16 + (← Decimal.hexDigit? b)) * 256
    + ((← Decimal.hexDigit? c) * 16 + (← Decimal.hexDigit? d))

/-- Whether a unit is the first of a pair. -/
def isLeading (unit : Nat) : Bool := 0xD800 ≤ unit && unit ≤ 0xDBFF

/-- Whether a unit is the second of a pair. -/
def isTrailing (unit : Nat) : Bool := 0xDC00 ≤ unit && unit ≤ 0xDFFF

/-- The character that a pair of units gives. -/
def pairChar (leading trailing : Nat) : Char :=
  Char.ofNat ((leading - 0xD800) * 0x400 + (trailing - 0xDC00) + 0x10000)

/-- The fault of an escape by number that has fewer than four characters left: it is cut short when
fewer than four bytes are left, and wrong otherwise. -/
def shortUnit (cs : List Char) : Fault :=
  if (String.ofList cs).utf8ByteSize < 4 then .truncated else .malformed

/-- Put a character in front of what is read behind it. -/
def prepend (c : Char) (r : Except Fault (List Char × List Char)) :
    Except Fault (List Char × List Char) :=
  r.map fun (cs, rest) => (c :: cs, rest)

/-- Read a string behind its opening quote: its characters, and the text behind its closing quote.
While `leading` holds a unit, nothing but the other half of the pair may come. -/
def readString (leading : Option Nat) : List Char → Except Fault (List Char × List Char)
  | [] => .error .truncated
  | ['\\'] => .error .truncated
  | '\\' :: 'u' :: a :: b :: c :: d :: rest =>
      match unit? a b c d, leading with
      | none, _ => .error .malformed
      | some unit, some first =>
          if isTrailing unit then prepend (pairChar first unit) (readString none rest)
          else .error .malformed
      | some unit, none =>
          if isTrailing unit then .error .malformed
          else if isLeading unit then readString (some unit) rest
          else prepend (Char.ofNat unit) (readString none rest)
  | '\\' :: 'u' :: rest => .error (shortUnit rest)
  | '\\' :: c :: rest =>
      match shortEscape? c, leading with
      | some d, none => prepend d (readString none rest)
      | _, _ => .error .malformed
  | c :: rest =>
      if leading.isSome then .error .malformed
      else if c = '"' then .ok ([], rest)
      else if c.toNat < 0x20 then .error .malformed
      else prepend c (readString none rest)

/-- Pass over a string behind its opening quote. -/
def skipString : List Char → Except Fault (List Char)
  | [] => .error .truncated
  | ['\\'] => .error .truncated
  | '\\' :: 'u' :: a :: b :: c :: d :: rest =>
      if (unit? a b c d).isSome then skipString rest else .error .malformed
  | '\\' :: 'u' :: rest => .error (shortUnit rest)
  | '\\' :: c :: rest =>
      if (shortEscape? c).isSome then skipString rest else .error .malformed
  | c :: rest =>
      if c = '"' then .ok rest
      else if c.toNat < 0x20 then .error .malformed
      else skipString rest

/-! ## Reading takes something off the text -/

theorem prepend_eq_ok {c : Char} {r : Except Fault (List Char × List Char)}
    {cs rest : List Char} (h : prepend c r = .ok (cs, rest)) :
    ∃ ds, cs = c :: ds ∧ r = .ok (ds, rest) := by
  cases r with
  | error e => simp [prepend, Except.map] at h
  | ok p =>
    obtain ⟨ds, rest'⟩ := p
    simp only [prepend, Except.map, Except.ok.injEq, Prod.mk.injEq] at h
    exact ⟨ds, h.1.symm, by rw [h.2]⟩

/-- What is shorter than a tail is shorter than the whole. -/
theorem length_lt_of_suffix {α : Type} {rest tail whole : List α} (suffix : tail <:+ whole)
    (h : rest.length < tail.length) : rest.length < whole.length :=
  Nat.lt_of_lt_of_le h suffix.length_le

theorem length_readString_lt {leading : Option Nat} {cs s rest : List Char}
    (h : readString leading cs = .ok (s, rest)) : rest.length < cs.length := by
  fun_induction readString leading cs generalizing s with
  | case1 | case2 | case3 | case5 | case6 | case9 | case11 | case12 | case14 => cases h
  | case4 a b c d tail unit first _ _ ih =>
    obtain ⟨_, _, h⟩ := prepend_eq_ok h
    exact length_lt_of_suffix (List.suffix_append ['\\', 'u', a, b, c, d] tail) (ih h)
  | case7 a b c d tail _ _ _ _ ih =>
    exact length_lt_of_suffix (List.suffix_append ['\\', 'u', a, b, c, d] tail) (ih h)
  | case8 a b c d tail _ _ _ _ ih =>
    obtain ⟨_, _, h⟩ := prepend_eq_ok h
    exact length_lt_of_suffix (List.suffix_append ['\\', 'u', a, b, c, d] tail) (ih h)
  | case10 c tail _ _ _ _ ih =>
    obtain ⟨_, _, h⟩ := prepend_eq_ok h
    exact length_lt_of_suffix (List.suffix_append ['\\', c] tail) (ih h)
  | case13 =>
    cases h
    exact Nat.lt_succ_self _
  | case15 _ c tail _ _ _ _ _ _ _ ih =>
    obtain ⟨_, _, h⟩ := prepend_eq_ok h
    exact length_lt_of_suffix (List.suffix_cons c tail) (ih h)

theorem length_skipString_lt {cs rest : List Char} (h : skipString cs = .ok rest) :
    rest.length < cs.length := by
  fun_induction skipString cs with
  | case1 | case2 | case4 | case5 | case7 | case9 => cases h
  | case3 a b c d tail _ ih =>
    exact length_lt_of_suffix (List.suffix_append ['\\', 'u', a, b, c, d] tail) (ih h)
  | case6 c tail _ _ _ ih => exact length_lt_of_suffix (List.suffix_append ['\\', c] tail) (ih h)
  | case8 =>
    cases h
    exact Nat.lt_succ_self _
  | case10 c tail _ _ _ _ _ _ ih => exact length_lt_of_suffix (List.suffix_cons c tail) (ih h)

end IdentityLine.Json
