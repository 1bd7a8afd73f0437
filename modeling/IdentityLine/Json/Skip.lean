import IdentityLine.Json.Number
import IdentityLine.Json.Text

/-!
# Values that nobody wants

A member with an unknown key may hold any value, nested to any depth. It is
passed over with the brackets that are still open on a stack, so depth costs no
recursion, and it must be well formed as far as that can be seen without
decoding it.

The pass is always in one of four places, and what may come next depends on the
place alone.
-/

namespace IdentityLine.Json

/-- A bracket that is still open. -/
inductive Bracket where
  | array
  | object
deriving DecidableEq

/-- The character that closes a bracket. -/
def Bracket.close : Bracket → Char
  | .array => ']'
  | .object => '}'

/-- Where a pass over a value stands. -/
inductive Place where
  /-- Before a value. -/
  | value
  /-- Just behind an opening bracket, the top of the stack. -/
  | opened
  /-- Behind a value. -/
  | behind
  /-- Before a key. -/
  | key
deriving DecidableEq

/-- How much a place may still pass on to another without taking a character. -/
def Place.rank : Place → Nat
  | .opened => 1
  | _ => 0

/-- The place that an element of a bracket starts with. -/
def Bracket.element : Bracket → Place
  | .array => .value
  | .object => .key

/-- Pass over a value with no brackets in it that begins with `c`. -/
def skipScalar (c : Char) (cs : List Char) : Except Fault (List Char) :=
  if c = '"' then skipString cs
  else if c = 'n' then word ['u', 'l', 'l'] cs
  else if c = 't' then word ['r', 'u', 'e'] cs
  else if c = 'f' then word ['a', 'l', 's', 'e'] cs
  else if c = '-' ∨ c.isDigit then skipNumber (c :: cs)
  else .error .malformed

/-- Pass over a key with its colon, behind its opening quote. -/
def skipKey (cs : List Char) : Except Fault (List Char) :=
  match skipString cs with
  | .error e => .error e
  | .ok rest =>
      match skipSpace rest with
      | ':' :: rest => .ok rest
      | [] => .error .truncated
      | _ => .error .malformed

theorem length_skipScalar_le {c : Char} {cs rest : List Char}
    (h : skipScalar c cs = .ok rest) : rest.length ≤ cs.length := by
  unfold skipScalar at h
  repeat' split at h
  · exact Nat.le_of_lt (length_skipString_lt h)
  · exact length_word_le h
  · exact length_word_le h
  · exact length_word_le h
  · have := length_skipNumber_lt h
    simp only [List.length_cons] at this
    omega
  · cases h

theorem length_skipKey_le {cs rest : List Char} (h : skipKey cs = .ok rest) :
    rest.length ≤ cs.length := by
  unfold skipKey at h
  split at h
  · cases h
  · rename_i r key
    have hk := length_skipString_lt key
    have hs := length_skipSpace_le r
    split at h
    · rename_i r' colon
      simp only [Except.ok.injEq] at h
      rw [colon, List.length_cons] at hs
      rw [← h]
      omega
    · cases h
    · cases h

/-- Pass over the rest of a value. -/
def skipFrom (place : Place) (pending : List Bracket) (cs : List Char) :
    Except Fault (List Char) :=
  match place, pending with
  | .behind, [] => .ok cs
  | .behind, bracket :: outer =>
      match _h : skipSpace cs with
      | [] => .error .truncated
      | c :: rest =>
          if c = ',' then skipFrom bracket.element (bracket :: outer) rest
          else if c = bracket.close then skipFrom .behind outer rest
          else .error .malformed
  | .opened, [] => .error .malformed
  | .opened, bracket :: outer =>
      match _h : skipSpace cs with
      | [] => .error .truncated
      | c :: rest =>
          if c = bracket.close then skipFrom .behind outer rest
          else skipFrom bracket.element (bracket :: outer) (c :: rest)
  | .value, pending =>
      match _h : skipSpace cs with
      | [] => .error .truncated
      | c :: rest =>
          if c = '[' then skipFrom .opened (.array :: pending) rest
          else if c = '{' then skipFrom .opened (.object :: pending) rest
          else
            match _hs : skipScalar c rest with
            | .ok rest' => skipFrom .behind pending rest'
            | .error e => .error e
  | .key, pending =>
      match _h : skipSpace cs with
      | [] => .error .truncated
      | c :: rest =>
          if c = '"' then
            match _hk : skipKey rest with
            | .ok rest' => skipFrom .value pending rest'
            | .error e => .error e
          else .error .malformed
termination_by 2 * cs.length + place.rank
decreasing_by
  all_goals have space := length_lt_of_skipSpace _h
  · cases bracket <;> simp only [Bracket.element, Place.rank] <;> omega
  · simp only [Place.rank]; omega
  · simp only [Place.rank]; omega
  · cases bracket <;> simp only [Bracket.element, Place.rank, List.length_cons] <;> omega
  · simp only [Place.rank]; omega
  · simp only [Place.rank]; omega
  · have := length_skipScalar_le _hs
    simp only [Place.rank]; omega
  · have := length_skipKey_le _hk
    simp only [Place.rank]; omega

/-- Pass over one value. -/
def skipValue (cs : List Char) : Except Fault (List Char) :=
  skipFrom .value [] cs

/-- What is no longer than the text behind a character is no longer than the text before it. -/
theorem length_le_of_skipSpace {cs tail rest : List Char} {c : Char}
    (space : skipSpace cs = c :: tail) (h : rest.length ≤ tail.length) :
    rest.length ≤ cs.length :=
  Nat.le_trans h (Nat.le_of_lt (length_lt_of_skipSpace space))

theorem length_skipFrom_le {place : Place} {stack : List Bracket} {cs rest : List Char}
    (h : skipFrom place stack cs = .ok rest) : rest.length ≤ cs.length := by
  fun_induction skipFrom place stack cs with
  | case1 =>
    cases h
    exact Nat.le_refl _
  | case2 | case5 | case6 | case7 | case10 | case14 | case15 | case17 | case18 => cases h
  | case3 _ _ _ tail space ih => exact length_le_of_skipSpace space (ih h)
  | case4 _ _ _ tail space _ ih => exact length_le_of_skipSpace space (ih h)
  | case8 _ _ _ tail space ih => exact length_le_of_skipSpace space (ih h)
  | case9 _ _ _ c tail space _ ih => exact Nat.le_trans (ih h) (length_lt_of_skipSpace space)
  | case11 _ _ tail space ih => exact length_le_of_skipSpace space (ih h)
  | case12 _ _ tail space _ ih => exact length_le_of_skipSpace space (ih h)
  | case13 _ _ c tail space _ _ behind scalar ih =>
    exact length_le_of_skipSpace space (Nat.le_trans (ih h) (length_skipScalar_le scalar))
  | case16 _ _ tail behind key space ih =>
    exact length_le_of_skipSpace space (Nat.le_trans (ih h) (length_skipKey_le key))

theorem length_skipValue_le {cs rest : List Char} (h : skipValue cs = .ok rest) :
    rest.length ≤ cs.length :=
  length_skipFrom_le h

end IdentityLine.Json
