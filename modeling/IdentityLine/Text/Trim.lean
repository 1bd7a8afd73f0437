/-!
# Trimming

Text is looked at as a list of characters wherever a rule is about characters,
so that every rule here is a short recursion on data. Three rules trim, and they
trim different characters: a field of a canonical line loses everything up to
the space, a level name or a host name loses Unicode white space. What they
share is this module: characters go from both ends and never from the middle.
-/

namespace IdentityLine.Text

/-- Drop the characters that `pad` holds of from both ends. -/
def trim (pad : Char → Bool) (cs : List Char) : List Char :=
  ((cs.dropWhile pad).reverse.dropWhile pad).reverse

/-- Whether a character is Unicode white space: the `White_Space` property. -/
def isBlank (c : Char) : Bool :=
  let n := c.toNat
  (9 ≤ n && n ≤ 13) || n == 0x20 || n == 0x85 || n == 0xA0 || n == 0x1680
    || (0x2000 ≤ n && n ≤ 0x200A) || n == 0x2028 || n == 0x2029 || n == 0x202F
    || n == 0x205F || n == 0x3000

/-- Drop Unicode white space from both ends. -/
def trimBlank (s : String) : String :=
  String.ofList (trim isBlank s.toList)

/-- Whether a text is empty once Unicode white space is trimmed. -/
def isAllBlank (s : String) : Bool :=
  (trim isBlank s.toList).isEmpty

/-- A text whose ends are not padding is left alone. -/
theorem trim_eq_self {pad : Char → Bool} {cs : List Char}
    (first : ∀ c, cs.head? = some c → pad c = false)
    (last : ∀ c, cs.getLast? = some c → pad c = false) : trim pad cs = cs := by
  have keep : ∀ {ds : List Char}, (∀ c, ds.head? = some c → pad c = false) →
      ds.dropWhile pad = ds := by
    intro ds h
    cases ds with
    | nil => rfl
    | cons d ds => simp [h d (by simp)]
  rw [trim, keep first, keep (by simpa using last), List.reverse_reverse]

end IdentityLine.Text
