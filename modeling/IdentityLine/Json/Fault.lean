/-!
# What can be wrong with a JSON text

A text is read from the left, and the first thing wrong with it decides. A text
that stops early is kept apart from one that goes wrong, because more of it might
still have been right; a text that is right as JSON but is not the record that
is wanted is kept apart from both.
-/

namespace IdentityLine.Json

/-- The three ways in which a text fails to be the record that is read from it. -/
inductive Fault where
  /-- A character that no JSON text has at this place, or a number without a size. -/
  | malformed
  /-- JSON, but a field is missing, repeated, or not of its kind. -/
  | mistyped
  /-- The text ends too early. -/
  | truncated
deriving DecidableEq, Repr

/-- The white space of JSON: four characters. -/
def isSpace (c : Char) : Bool :=
  c == ' ' || c == '\n' || c == '\t' || c == '\r'

/-- Pass over white space. -/
def skipSpace (cs : List Char) : List Char :=
  cs.dropWhile isSpace

theorem length_dropWhile_le {α : Type} (p : α → Bool) (cs : List α) :
    (cs.dropWhile p).length ≤ cs.length :=
  (List.dropWhile_sublist p).length_le

theorem length_skipSpace_le (cs : List Char) : (skipSpace cs).length ≤ cs.length :=
  length_dropWhile_le isSpace cs

theorem length_lt_of_skipSpace {cs rest : List Char} {c : Char}
    (h : skipSpace cs = c :: rest) : rest.length < cs.length := by
  have := length_skipSpace_le cs
  rw [h, List.length_cons] at this
  omega

/-- Pass over the rest of a word that is spelled out in the text. -/
def word : List Char → List Char → Except Fault (List Char)
  | [], cs => .ok cs
  | _ :: _, [] => .error .truncated
  | e :: es, c :: cs => if c = e then word es cs else .error .malformed

theorem length_word_le {es cs rest : List Char} (h : word es cs = .ok rest) :
    rest.length ≤ cs.length := by
  induction es generalizing cs with
  | nil => simp_all [word]
  | cons e es ih =>
    cases cs with
    | nil => simp [word] at h
    | cons c cs =>
      simp only [word] at h
      split at h
      · have := ih h
        simp only [List.length_cons]
        omega
      · simp at h

end IdentityLine.Json
