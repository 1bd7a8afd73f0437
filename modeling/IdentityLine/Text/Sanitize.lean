import IdentityLine.Text.Trim

/-!
# Cleaning a field of the canonical line

A canonical line is read back by its angle brackets and its end, so a name or an
address that goes into one may hold neither bracket and no line break. Padding
at either end goes first and the brackets and breaks after it: a bracket at an
end therefore shields the blanks behind it, and they stay.
-/

namespace IdentityLine.Text

/-- Padding is the space and everything that comes before it. -/
def isPadding (c : Char) : Bool :=
  decide (c ≤ ' ')

/-- The characters that structure a canonical line, and that no field of it may hold. -/
def isDelimiter (c : Char) : Bool :=
  c == '\n' || c == '<' || c == '>'

/-- Trim the padding, then drop the delimiters from what is left. -/
def clean (cs : List Char) : List Char :=
  (trim isPadding cs).filter fun c => !isDelimiter c

/-- The form in which `s` stands in a canonical line. -/
def sanitize (s : String) : String :=
  String.ofList (clean s.toList)

@[simp]
theorem toList_sanitize (s : String) : (sanitize s).toList = clean s.toList := by
  simp [sanitize]

/-- No delimiter survives. -/
theorem not_isDelimiter_of_mem_clean {c : Char} {cs : List Char} (h : c ∈ clean cs) :
    isDelimiter c = false := by
  have := (List.mem_filter.mp h).2
  simpa using this

end IdentityLine.Text
