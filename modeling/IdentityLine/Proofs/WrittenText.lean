import Mathlib
import IdentityLine.Proofs.JsonLeaves
import IdentityLine.Toml.Document

/-!
# Every text can stand in a document

A document in which a key has some text as its value exists for every text, since a
string in double quotes can name any character by its number. This module writes each
character so, whether it needs it or not: then there is one form to read, eight digits
behind a backslash and a letter, and no case to be made of quotes, line ends and
control characters.

The reader of strings takes one character of the text at each turn, whatever follows,
which is what the induction over the text needs.
-/

namespace IdentityLine.Toml

/-! ## Characters by their numbers -/

/-- Hexadecimal digits of a number, as many as are asked for, zeros first. -/
def hexDigits : Nat → Nat → List Char
  | 0, _ => []
  | width + 1, n => hexDigits width (n / 16) ++ [(n % 16).digitChar]

@[simp]
theorem length_hexDigits (width n : Nat) : (hexDigits width n).length = width := by
  induction width generalizing n with
  | zero => rfl
  | succ width ih => rw [hexDigits, List.length_append, ih, List.length_singleton]

theorem hexNumber?_hexDigits {width n : Nat} (h : n < 16 ^ width) :
    hexNumber? (hexDigits width n) = some n := by
  induction width generalizing n with
  | zero =>
      obtain rfl : n = 0 := by omega
      rfl
  | succ width ih =>
      have hhigh : n / 16 < 16 ^ width := by
        rw [Nat.pow_succ] at h
        omega
      have hprefix := ih hhigh
      rw [hexNumber?] at hprefix
      rw [hexNumber?, hexDigits, List.foldlM_append, hprefix]
      change ((Decimal.hexDigit? (n % 16).digitChar).map (n / 16 * 16 + ·)).bind some = some n
      rw [Json.hexDigit?_digitChar (Nat.mod_lt n (by decide))]
      exact congrArg some (Nat.div_add_mod' n 16)

theorem hexChar?_hexDigits (c : Char) : hexChar? (hexDigits 8 c.toNat) = some c := by
  have hbound : c.toNat < 16 ^ 8 := UInt32.toNat_lt c.val
  have hvalid : c.toNat.isValidChar := c.valid
  rw [hexChar?, hexNumber?_hexDigits hbound]
  change (if c.toNat.isValidChar then some (Char.ofNat c.toNat) else none) = some c
  rw [if_pos hvalid, Char.ofNat_toNat]

/-- A character by its number. -/
def byNumber (c : Char) : List Char :=
  '\\' :: 'U' :: hexDigits 8 c.toNat

theorem escape_byNumber (c : Char) (rest : List Char) :
    escape ('U' :: (hexDigits 8 c.toNat ++ rest)) = some (c, rest) := by
  have hlength : (hexDigits 8 c.toNat).length = 8 := length_hexDigits 8 c.toNat
  have hcount : hexCount? 'U' = some 8 := rfl
  rw [escape, hcount]
  dsimp only
  rw [if_pos (by rw [List.length_append, hlength]; omega), List.take_left' hlength,
    List.drop_left' hlength, hexChar?_hexDigits]
  rfl

theorem basicString_byNumber (cs rest : List Char) :
    basicString (cs.flatMap byNumber ++ '"' :: rest) = some (cs, rest) := by
  induction cs with
  | nil =>
      rw [List.flatMap_nil, List.nil_append, basicString, if_pos rfl]
  | cons c cs ih =>
      have hescape := escape_byNumber c (cs.flatMap byNumber ++ '"' :: rest)
      have hwritten : (c :: cs).flatMap byNumber ++ '"' :: rest
          = '\\' :: 'U' :: (hexDigits 8 c.toNat ++ (cs.flatMap byNumber ++ '"' :: rest)) := by
        simp only [List.flatMap_cons, byNumber, List.cons_append, List.append_assoc]
      rw [hwritten, basicString, if_neg (by decide), if_pos rfl]
      split
      · next d rest' h =>
          obtain ⟨rfl, rfl⟩ := Prod.mk.inj (Option.some.inj (hescape.symm.trans h))
          rw [ih]
          rfl
      · next h =>
          rw [hescape] at h
          cases h

/-! ## A document with one text -/

/-- A text in double quotes, behind which a third one would open a longer string. -/
def quoted (text : String) : List Char :=
  '"' :: (text.toList.flatMap byNumber ++ ['"'])

theorem string_quoted (text : String) {rest : List Char} (hrest : rest.head? ≠ some '"') :
    string (quoted text ++ rest) = some (text, rest) := by
  have hread := basicString_byNumber text.toList rest
  have hquoted : quoted text ++ rest = '"' :: (text.toList.flatMap byNumber ++ '"' :: rest) := by
    rw [quoted, List.cons_append, List.append_assoc]
    rfl
  -- What stands behind the opening quote is the closing one or a backslash.
  have hthree : ∀ more, text.toList.flatMap byNumber ++ '"' :: rest ≠ '"' :: '"' :: more := by
    intro more
    cases text.toList with
    | nil =>
        intro h
        rw [List.flatMap_nil, List.nil_append, List.cons.injEq] at h
        rw [h.2] at hrest
        exact hrest rfl
    | cons c cs =>
        intro h
        exact absurd (List.cons.inj h).1 (by decide)
  rw [hquoted, string, hread]
  · rw [Option.map_some, string.toText, String.ofList_toList]
  · exact hthree

theorem value_quoted (text : String) {rest : List Char} (hrest : rest.head? ≠ some '"')
    (fuel depth : Nat) :
    value (fuel + 1) depth (quoted text ++ rest) = some (.string text, rest) := by
  have hread := string_quoted text hrest
  rw [quoted, List.cons_append] at hread ⊢
  rw [value]
  · rw [hread]
    rfl

theorem entry_quoted {draft : Draft} {cs rest : List Char} {path : List String}
    {name text : String} {root : Entries}
    (hkey : key cs = some ((path, name), '=' :: (quoted text ++ rest)))
    (hrest : rest.head? ≠ some '"')
    (hroot : insertBelow draft.header path name (.string text) draft.root = some root) :
    entry draft cs = some ({ draft with root }, rest) := by
  have hskip : skipBlank ('=' :: (quoted text ++ rest)) = '=' :: (quoted text ++ rest) := rfl
  have hskip' : skipBlank (quoted text ++ rest) = quoted text ++ rest := rfl
  rw [entry, hkey]
  simp only [Option.bind_eq_bind, Option.bind_some, hskip, expect, if_true, hskip',
    value_quoted text hrest, hroot]
  rfl

theorem key_level (rest : List Char) :
    key ("logging.level".toList ++ '=' :: rest) = some ((["logging"], "level"), '=' :: rest) :=
  rfl

theorem insert_level (v : Value) :
    insertBelow [] ["logging"] "level" v [] = some [("logging", .table .dotted [("level", v)])] :=
  rfl

/-- A document of one line that starts with a letter is its key with its value. -/
theorem parse_line {c : Char} {cs : List Char} {draft : Draft} (hc : c.isAlpha = true)
    (hentry : entry { header := [], root := [] } (c :: cs) = some (draft, ['\n'])) :
    parse (String.ofList (c :: cs)) = some draft.root := by
  have hne : ∀ d : Char, d.isAlpha = false → c ≠ d := by
    rintro d hd rfl
    rw [hc] at hd
    cases hd
  have hblank : isBlank c = false := by
    rw [isBlank, beq_eq_false_iff_ne.mpr (hne ' ' rfl), beq_eq_false_iff_ne.mpr (hne '\t' rfl)]
    rfl
  have hskip : skipBlank (c :: cs) = c :: cs := by
    rw [skipBlank, List.dropWhile_cons, hblank]
    rfl
  have hother : ¬ (c = '#' ∨ c = '\n' ∨ c = '\r') := by
    rintro (h | h | h) <;> exact hne _ rfl h
  rw [parse, String.toList_ofList]
  split
  · next heq => exact absurd (List.cons.inj heq).1 (hne _ rfl)
  · rw [List.length_cons, lines, hskip]
    dsimp only
    rw [if_neg (hne '[' rfl), if_neg hother, hentry]
    rfl

/-- A document that asks for a level by a text. -/
def askingFor (text : String) : String :=
  String.ofList ("logging.level".toList ++ '=' :: (quoted text ++ ['\n']))

theorem parse_askingFor (text : String) :
    parse (askingFor text) = some [("logging", .table .dotted [("level", .string text)])] := by
  have hfirst : "logging.level".toList = 'l' :: "ogging.level".toList := by decide
  have hentry : entry { header := [], root := [] }
      ("logging.level".toList ++ '=' :: (quoted text ++ ['\n'])) = some (_, ['\n']) :=
    entry_quoted (key_level _) (by decide) (insert_level (.string text))
  rw [hfirst, List.cons_append] at hentry
  have hparse := parse_line (by decide) hentry
  rw [← List.cons_append, ← hfirst] at hparse
  exact hparse

end IdentityLine.Toml
