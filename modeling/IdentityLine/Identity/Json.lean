import IdentityLine.Identity
import IdentityLine.Json.Skip

/-!
# Identities as JSON

An identity is written as one object with its four fields in order and nothing
between them. It is read from any object that has each of the four exactly once,
in any order and among members of any other kind, and from an array of the four
values.

The reading makes one pass and stops at the first thing that is wrong. A key is
checked for being a second one of its kind before its value is looked at, and
that no field is missing is seen last, at the closing brace.
-/

namespace IdentityLine.Identity

open IdentityLine.Json

/-! ## Writing -/

/-- The characters of an identity as JSON. -/
def jsonChars (i : Identity) : List Char :=
  "\x7b\"name\":".toList ++ writeString i.name.toList
    ++ ",\"email_address\":".toList ++ writeString i.email.toList
    ++ ",\"when_millis\":".toList ++ Decimal.signed i.millis.toInt
    ++ ",\"tz_offset\":".toList ++ Decimal.signed i.offset.toInt ++ ['\x7d']

/-- An identity as JSON. -/
def toJson (i : Identity) : String :=
  String.ofList i.jsonChars

/-! ## Reading a value of a known kind -/

/-- The fault of a value of a kind that is not wanted. A text or a number of the wrong kind is
read first, and what is wrong with it comes before that it is not wanted. -/
def unwanted (c : Char) (cs : List Char) : Fault :=
  let after {α : Type} (r : Except Fault α) : Fault :=
    match r with
    | .ok _ => .mistyped
    | .error e => e
  if c = '"' then after (readString none cs)
  else if c = 'n' then after (word ['u', 'l', 'l'] cs)
  else if c = 't' then after (word ['r', 'u', 'e'] cs)
  else if c = 'f' then after (word ['a', 'l', 's', 'e'] cs)
  else if c = '-' ∨ c.isDigit then after (readNumber (c :: cs))
  else if c = '[' ∨ c = '{' then .mistyped
  else .malformed

/-- Read a text. -/
def readText (cs : List Char) : Except Fault (String × List Char) :=
  match skipSpace cs with
  | [] => .error .truncated
  | c :: rest =>
      if c = '"' then (readString none rest).map fun (s, rest) => (String.ofList s, rest)
      else .error (unwanted c rest)

/-- Read an integer between two bounds. -/
def readInteger (lo hi : Int) (cs : List Char) : Except Fault (Int × List Char) :=
  match skipSpace cs with
  | [] => .error .truncated
  | c :: rest =>
      if c = '-' ∨ c.isDigit then
        match readNumber (c :: rest) with
        | .error e => .error e
        | .ok (.other, _) => .error .mistyped
        | .ok (.integer z, rest) => if lo ≤ z ∧ z ≤ hi then .ok (z, rest) else .error .mistyped
      else .error (unwanted c rest)

/-- Read a time in milliseconds. -/
def readMillis (cs : List Char) : Except Fault (Int64 × List Char) :=
  (readInteger Int64.minValue.toInt Int64.maxValue.toInt cs).map fun (z, rest) => (Int64.ofInt z, rest)

/-- Read an offset. -/
def readOffset (cs : List Char) : Except Fault (Offset × List Char) :=
  (readInteger Int32.minValue.toInt Int32.maxValue.toInt cs).map fun (z, rest) => (Int32.ofInt z, rest)

/-! ## Reading an object -/

/-- The fields that have been read so far. -/
structure Partial where
  name : Option String := none
  email : Option String := none
  millis : Option Int64 := none
  offset : Option Offset := none

/-- The identity, once all four fields are there. -/
def Partial.complete (p : Partial) : Except Fault Identity :=
  match p with
  | ⟨some name, some email, some millis, some offset⟩ => .ok { name, email, millis, offset }
  | _ => .error .mistyped

/-- Pass over the colon between a key and its value. -/
def readColon (cs : List Char) : Except Fault (List Char) :=
  match skipSpace cs with
  | ':' :: rest => .ok rest
  | [] => .error .truncated
  | _ => .error .malformed

/-- Read the value of one field and put it into its place, which must still be empty. -/
def readField {α : Type} (held : Option α) (read : List Char → Except Fault (α × List Char))
    (put : α → Partial) (cs : List Char) : Except Fault (Partial × List Char) :=
  if held.isSome then .error .mistyped
  else do
    let (value, rest) ← read (← readColon cs)
    return (put value, rest)

/-- Read the value that follows a key. -/
def readMember (p : Partial) (key : List Char) (cs : List Char) :
    Except Fault (Partial × List Char) :=
  if key = "name".toList then readField p.name readText (fun v => { p with name := v }) cs
  else if key = "email_address".toList then
    readField p.email readText (fun v => { p with email := v }) cs
  else if key = "when_millis".toList then
    readField p.millis readMillis (fun v => { p with millis := v }) cs
  else if key = "tz_offset".toList then
    readField p.offset readOffset (fun v => { p with offset := v }) cs
  else do
    return (p, ← skipValue (← readColon cs))

/-- What comes next in an object. -/
inductive Next where
  /-- A key; the text behind its opening quote. -/
  | key (rest : List Char)
  /-- The closing brace; the text behind it. -/
  | close (rest : List Char)

/-- The text behind what comes next. -/
def Next.rest : Next → List Char
  | .key rest => rest
  | .close rest => rest

/-- What comes next in an object. The first key has no comma before it and every other one has. -/
def nextKey (isFirst : Bool) (cs : List Char) : Except Fault Next :=
  match skipSpace cs with
  | [] => .error .truncated
  | c :: rest =>
      if c = '\x7d' then .ok (.close rest)
      else if c = '"' ∧ isFirst then .ok (.key rest)
      else if c = ',' ∧ !isFirst then
        match skipSpace rest with
        | [] => .error .truncated
        | d :: rest => if d = '"' then .ok (.key rest) else .error .malformed
      else .error .malformed

theorem length_nextKey_lt {isFirst : Bool} {cs : List Char} {next : Next}
    (h : nextKey isFirst cs = .ok next) : next.rest.length < cs.length := by
  unfold nextKey at h
  split at h
  · cases h
  · rename_i space
    have := length_lt_of_skipSpace space
    split at h
    · cases h; exact this
    split at h
    · cases h; exact this
    split at h
    · split at h
      · cases h
      · rename_i space'
        have := length_lt_of_skipSpace space'
        split at h
        · cases h
          simp only [Next.rest]
          omega
        · cases h
    · cases h

theorem length_readColon_lt {cs rest : List Char} (h : readColon cs = .ok rest) :
    rest.length < cs.length := by
  unfold readColon at h
  split at h
  · rename_i space
    cases h
    exact length_lt_of_skipSpace space
  · cases h
  · cases h

theorem length_readText_le {cs rest : List Char} {s : String}
    (h : readText cs = .ok (s, rest)) : rest.length ≤ cs.length := by
  unfold readText at h
  split at h
  · cases h
  · rename_i c tail space
    have := length_lt_of_skipSpace space
    split at h
    · cases read : readString none tail with
      | error e => simp [read, Except.map] at h
      | ok p =>
        have := length_readString_lt read
        simp only [read, Except.map, Except.ok.injEq, Prod.mk.injEq] at h
        rw [← h.2]
        omega
    · cases h

theorem length_readInteger_le {lo hi z : Int} {cs rest : List Char}
    (h : readInteger lo hi cs = .ok (z, rest)) : rest.length ≤ cs.length := by
  unfold readInteger at h
  split at h
  · cases h
  · rename_i c tail space
    have := length_lt_of_skipSpace space
    split at h
    · split at h
      · cases h
      · cases h
      · rename_i read
        have := length_readNumber_lt read
        simp only [List.length_cons] at this
        split at h
        · simp only [Except.ok.injEq, Prod.mk.injEq] at h
          rw [← h.2]
          omega
        · cases h
    · cases h

theorem length_map_readInteger_le {α : Type} {lo hi : Int} {cs rest : List Char} {v : α}
    {f : Int → α}
    (h : ((readInteger lo hi cs).map fun (z, rest) => (f z, rest)) = .ok (v, rest)) :
    rest.length ≤ cs.length := by
  cases read : readInteger lo hi cs with
  | error e => simp [read, Except.map] at h
  | ok p =>
    simp only [read, Except.map, Except.ok.injEq, Prod.mk.injEq] at h
    exact length_readInteger_le (z := p.1) (by rw [read, ← h.2])

theorem length_readField_le {α : Type} {held : Option α}
    {read : List Char → Except Fault (α × List Char)} {put : α → Partial}
    (shrinks : ∀ {cs v rest}, read cs = .ok (v, rest) → rest.length ≤ cs.length)
    {cs rest : List Char} {p : Partial} (h : readField held read put cs = .ok (p, rest)) :
    rest.length ≤ cs.length := by
  unfold readField at h
  split at h
  · cases h
  · cases colon : readColon cs with
    | error e => simp [colon, bind, Except.bind] at h
    | ok tail =>
      have := length_readColon_lt colon
      cases value : read tail with
      | error e => simp [colon, value, bind, Except.bind] at h
      | ok v =>
        have := shrinks value
        simp only [colon, value, bind, Except.bind, pure, Except.pure, Except.ok.injEq,
          Prod.mk.injEq] at h
        rw [← h.2]
        omega

theorem length_readMember_le {p q : Partial} {key cs rest : List Char}
    (h : readMember p key cs = .ok (q, rest)) : rest.length ≤ cs.length := by
  unfold readMember at h
  split at h
  · exact length_readField_le length_readText_le h
  split at h
  · exact length_readField_le length_readText_le h
  split at h
  · exact length_readField_le length_map_readInteger_le h
  split at h
  · exact length_readField_le length_map_readInteger_le h
  cases colon : readColon cs with
  | error e => simp [colon, bind, Except.bind] at h
  | ok tail =>
    have := length_readColon_lt colon
    cases value : skipValue tail with
    | error e => simp [colon, value, bind, Except.bind] at h
    | ok r =>
      have := length_skipValue_le value
      simp only [colon, value, bind, Except.bind, pure, Except.pure, Except.ok.injEq,
        Prod.mk.injEq] at h
      rw [← h.2]
      omega

/-- Read the members of an object up to its closing brace. -/
def readMembers (isFirst : Bool) (p : Partial) (cs : List Char) :
    Except Fault (Partial × List Char) :=
  match _h : nextKey isFirst cs with
  | .error e => .error e
  | .ok (.close rest) => .ok (p, rest)
  | .ok (.key rest) =>
      match _hk : readString none rest with
      | .error e => .error e
      | .ok (key, rest) =>
          match _hm : readMember p key rest with
          | .error e => .error e
          | .ok (p, rest) => readMembers false p rest
termination_by cs.length
decreasing_by
  have := length_nextKey_lt _h
  have := length_readString_lt _hk
  have := length_readMember_le _hm
  simp only [Next.rest] at *
  omega

/-! ## Reading an array -/

/-- The text before the next element of an array; an array that ends here is too short. -/
def nextElement (isFirst : Bool) (cs : List Char) : Except Fault (List Char) :=
  match skipSpace cs with
  | [] => .error .truncated
  | c :: rest =>
      if c = ']' then .error .mistyped
      else if isFirst then .ok (c :: rest)
      else if c = ',' then
        match skipSpace rest with
        | [] => .error .truncated
        | d :: rest => if d = ']' then .error .malformed else .ok (d :: rest)
      else .error .malformed

/-- Read the four elements of an array and its closing bracket. -/
def readElements (cs : List Char) : Except Fault (Identity × List Char) := do
  let (name, cs) ← readText (← nextElement true cs)
  let (email, cs) ← readText (← nextElement false cs)
  let (millis, cs) ← readMillis (← nextElement false cs)
  let (offset, cs) ← readOffset (← nextElement false cs)
  match skipSpace cs with
  | [] => .error .truncated
  | c :: rest =>
      if c = ']' then .ok ({ name, email, millis, offset }, rest) else .error .malformed

/-! ## Reading a text -/

/-- Read an identity, and the text behind it. -/
def readValue (cs : List Char) : Except Fault (Identity × List Char) :=
  match skipSpace cs with
  | [] => .error .truncated
  | c :: rest =>
      if c = '\x7b' then do
        let (p, rest) ← readMembers true {} rest
        return (← p.complete, rest)
      else if c = '[' then readElements rest
      else .error (unwanted c rest)

/-- The identity that a JSON text holds, with nothing but white space behind it. -/
def ofJson (text : String) : Except Fault Identity := do
  let (identity, rest) ← readValue text.toList
  if (skipSpace rest).isEmpty then return identity else .error .malformed

end IdentityLine.Identity
