import IdentityLine.Text.Decimal

/-!
# Blanks, comments and strings of TOML

Reading goes from the left and gives back the text behind what it read, or
nothing when the text is not TOML. A line ends in a line feed, which a carriage
return may precede; a carriage return stands nowhere else. Control characters
other than the tab stand nowhere at all.

There are four kinds of strings. Those in double quotes know escapes and those in
single quotes do not; either may be written in three quotes and then runs over
lines. Such a string drops a line end right behind its opening quotes, and may
have one or two more quotes right before its closing ones.
-/

namespace IdentityLine.Toml

/-- A reader gives what it read and the text behind it. -/
abbrev Reader (α : Type) := List Char → Option (α × List Char)

/-- Whether a character is a blank inside a line. -/
def isBlank (c : Char) : Bool := c == ' ' || c == '\t'

/-- Pass over blanks. -/
def skipBlank (cs : List Char) : List Char := cs.dropWhile isBlank

/-- Whether a character may stand in a comment or a string. -/
def isPlain (c : Char) : Bool := c == '\t' || (0x20 ≤ c.toNat && c.toNat ≠ 0x7F)

/-- Pass over a line end, if there is one. -/
def lineEnd? : List Char → Option (List Char)
  | '\n' :: rest => some rest
  | '\r' :: '\n' :: rest => some rest
  | _ => none

/-- Pass over a comment, if there is one, up to its line end. -/
def skipComment (cs : List Char) : List Char :=
  match cs with
  | '#' :: rest => rest.dropWhile isPlain
  | _ => cs

/-- Pass over blanks and a comment up to the line end, which must come next unless the text ends. -/
def finishLine (cs : List Char) : Option (List Char) :=
  match skipComment (skipBlank cs) with
  | [] => some []
  | rest => lineEnd? rest

/-- Pass over blanks, comments and line ends between the elements of an array or a table in
braces. `fuel` is at least the number of characters. -/
def skipLines (fuel : Nat) (cs : List Char) : List Char :=
  match fuel with
  | 0 => cs
  | fuel + 1 =>
      let rest := skipComment (skipBlank cs)
      match lineEnd? rest with
      | some rest => skipLines fuel rest
      | none => rest

/-! ## Strings -/

/-- The number that hexadecimal digits denote. -/
def hexNumber? (ds : List Char) : Option Nat :=
  ds.foldlM (fun n d => (Decimal.hexDigit? d).map (n * 16 + ·)) 0

/-- The character that hexadecimal digits give, if there is one. -/
def hexChar? (ds : List Char) : Option Char := do
  let n ← hexNumber? ds
  if n.isValidChar then some (Char.ofNat n) else none

/-- How many hexadecimal digits an escape has. -/
def hexCount? (c : Char) : Option Nat :=
  match c with
  | 'x' => some 2
  | 'u' => some 4
  | 'U' => some 8
  | _ => none

/-- The character that an escape of one letter gives. -/
def shortEscape? (c : Char) : Option Char :=
  match c with
  | 'b' => some '\x08'
  | 't' => some '\t'
  | 'n' => some '\n'
  | 'f' => some '\x0c'
  | 'r' => some '\r'
  | 'e' => some '\x1b'
  | '"' => some '"'
  | '\\' => some '\\'
  | _ => none

/-- An escape behind its backslash. -/
def escape : Reader Char
  | [] => none
  | c :: rest =>
      match hexCount? c with
      | some n =>
          if n ≤ rest.length then (hexChar? (rest.take n)).map fun d => (d, rest.drop n) else none
      | none => (shortEscape? c).map fun d => (d, rest)

theorem length_escape_lt {cs rest : List Char} {d : Char} (h : escape cs = some (d, rest)) :
    rest.length < cs.length := by
  unfold escape at h
  split at h
  · cases h
  · split at h
    · split at h
      · obtain ⟨_, _, h⟩ := Option.map_eq_some_iff.mp h
        cases h
        simp only [List.length_drop, List.length_cons]
        omega
      · cases h
    · obtain ⟨_, _, h⟩ := Option.map_eq_some_iff.mp h
      cases h
      simp

/-- A string in double quotes, behind the opening one. -/
def basicString (cs : List Char) : Option (List Char × List Char) :=
  match cs with
  | [] => none
  | c :: rest =>
      if c = '"' then some ([], rest)
      else if c = '\\' then
        match _h : escape rest with
        | some (d, rest') => (basicString rest').map fun (s, r) => (d :: s, r)
        | none => none
      else if isPlain c then (basicString rest).map fun (s, r) => (c :: s, r)
      else none
termination_by cs.length
decreasing_by
  · have := length_escape_lt _h
    simp only [List.length_cons]
    omega
  · simp

/-- A string in single quotes, behind the opening one. -/
def literalString : Reader (List Char)
  | [] => none
  | c :: rest =>
      if c = '\'' then some ([], rest)
      else if isPlain c then (literalString rest).map fun (s, r) => (c :: s, r)
      else none

/-- The closing quotes of a string in three quotes, with the one or two quotes before them that
belong to the string. -/
def closing? (quote : Char) : List Char → Option (List Char × List Char)
  | a :: b :: c :: d :: e :: rest =>
      if a = quote ∧ b = quote ∧ c = quote then
        if d = quote then
          if e = quote then some ([quote, quote], rest) else some ([quote], e :: rest)
        else some ([], d :: e :: rest)
      else none
  | [a, b, c, d] =>
      if a = quote ∧ b = quote ∧ c = quote then
        if d = quote then some ([quote], []) else some ([], [d])
      else none
  | [a, b, c] => if a = quote ∧ b = quote ∧ c = quote then some ([], []) else none
  | _ => none

/-- A line end that a string keeps, with the text behind it. -/
def keptLineEnd? : List Char → Option (List Char × List Char)
  | '\n' :: rest => some (['\n'], rest)
  | '\r' :: '\n' :: rest => some (['\r', '\n'], rest)
  | _ => none

/-- A string in three double quotes, behind the opening ones. `fuel` is at least the number of
characters. -/
def basicBlock (fuel : Nat) (cs : List Char) : Option (List Char × List Char) :=
  match fuel with
  | 0 => none
  | fuel + 1 =>
      match closing? '"' cs with
      | some found => some found
      | none =>
          match keptLineEnd? cs with
          | some (kept, rest) => (basicBlock fuel rest).map fun (s, r) => (kept ++ s, r)
          | none =>
              match cs with
              | [] => none
              | c :: rest =>
                  if c = '\\' then
                    match skipBreaks fuel rest with
                    | some rest => basicBlock fuel rest
                    | none => do
                        let (d, rest) ← escape rest
                        let (s, r) ← basicBlock fuel rest
                        return (d :: s, r)
                  else if isPlain c then (basicBlock fuel rest).map fun (s, r) => (c :: s, r)
                  else none
where
  /-- Blanks up to a line end, and all blanks and line ends behind it. -/
  skipBreaks (fuel : Nat) (cs : List Char) : Option (List Char) :=
    (lineEnd? (skipBlank cs)).map (skipRest fuel)
  /-- Blanks and line ends. -/
  skipRest (fuel : Nat) (cs : List Char) : List Char :=
    match fuel with
    | 0 => cs
    | fuel + 1 =>
        let rest := skipBlank cs
        match lineEnd? rest with
        | some rest => skipRest fuel rest
        | none => rest

/-- A string in three single quotes, behind the opening ones. `fuel` is at least the number of
characters. -/
def literalBlock (fuel : Nat) (cs : List Char) : Option (List Char × List Char) :=
  match fuel with
  | 0 => none
  | fuel + 1 =>
      match closing? '\'' cs with
      | some found => some found
      | none =>
          match keptLineEnd? cs with
          | some (kept, rest) => (literalBlock fuel rest).map fun (s, r) => (kept ++ s, r)
          | none =>
              match cs with
              | [] => none
              | c :: rest =>
                  if isPlain c then (literalBlock fuel rest).map fun (s, r) => (c :: s, r)
                  else none

/-- The text of a block behind a line end that is dropped, if there is one. -/
def blockStart (cs : List Char) : List Char :=
  (lineEnd? cs).getD cs

/-- A string of any kind. -/
def string : Reader String
  | '"' :: '"' :: '"' :: rest => (basicBlock (rest.length + 1) (blockStart rest)).map toText
  | '\'' :: '\'' :: '\'' :: rest => (literalBlock (rest.length + 1) (blockStart rest)).map toText
  | '"' :: rest => (basicString rest).map toText
  | '\'' :: rest => (literalString rest).map toText
  | _ => none
where
  /-- What was read as a text. -/
  toText (p : List Char × List Char) : String × List Char := (String.ofList p.1, p.2)

/-! ## Keys -/

/-- Whether a character may stand in a key without quotes. -/
def isKeyChar (c : Char) : Bool :=
  c.isAlphanum || c == '-' || c == '_'

/-- One part of a key. -/
def simpleKey : Reader String
  | '"' :: rest => (basicString rest).map fun (s, r) => (String.ofList s, r)
  | '\'' :: rest => (literalString rest).map fun (s, r) => (String.ofList s, r)
  | cs =>
      match cs.takeWhile isKeyChar with
      | [] => none
      | k => some (String.ofList k, cs.dropWhile isKeyChar)

/-- The parts of a key behind its first one. `fuel` is at least the number of characters. -/
def moreKeys (fuel : Nat) (cs : List Char) : Option (List String × List Char) :=
  match fuel with
  | 0 => some ([], cs)
  | fuel + 1 =>
      match skipBlank cs with
      | '.' :: rest => do
          let (k, rest) ← simpleKey (skipBlank rest)
          let (ks, rest) ← moreKeys fuel rest
          return (k :: ks, rest)
      | _ => some ([], cs)

/-- How many parts a key may have. -/
def maxParts : Nat := 80

/-- A key: the path to a table, and the name in it. -/
def key (cs : List Char) : Option ((List String × String) × List Char) := do
  let (k, rest) ← simpleKey cs
  let (ks, rest) ← moreKeys rest.length rest
  let all := k :: ks
  if maxParts < all.length then none
  else return ((all.dropLast, all.getLast?.getD k), rest)

end IdentityLine.Toml
