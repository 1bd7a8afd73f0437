import IdentityLine.Json.Number
import IdentityLine.Json.Text
import IdentityLine.Proofs.Reading

/-!
# Strings and integers of JSON read back

The writer uses few of the forms that the reader knows: the seven escapes by
letter, an escape by number for what is left of the first 32 characters, and
every other character as it is. Each form is read by one turn of the reader, so
one lemma on a single character, whatever follows it, carries an induction over
the text.

An integer has no closing mark. It is read up to what cannot continue it, which
is why its lemma asks what the text behind it starts with, and why the writer
puts a comma or a bracket there. The reader also judges the size of a number, by
arithmetic that rounds; below 2⁶⁴ it never gets as far as rounding, because no
digit is left over.
-/

namespace IdentityLine.Json

/-! ## White space -/

theorem skipSpace_cons {c : Char} (hc : isSpace c = false) (cs : List Char) :
    skipSpace (c :: cs) = c :: cs := by
  rw [skipSpace, List.dropWhile_cons, hc]
  rfl

theorem isSpace_of_isDigit {c : Char} (h : c.isDigit = true) : isSpace c = false := by
  rw [Bool.eq_false_iff]
  intro hspace
  simp only [isSpace, Bool.or_eq_true, beq_iff_eq] at hspace
  rcases hspace with ((rfl | rfl) | rfl) | rfl
  all_goals exact absurd h (by decide)

/-! ## Strings -/

theorem readString_shortEscape {e c : Char} (h : shortEscape? e = some c) (rest : List Char) :
    readString none ('\\' :: e :: rest) = prepend c (readString none rest) := by
  have hu : e ≠ 'u' := by
    rintro rfl
    cases h
  rw [readString.eq_7 e rest c (fun _ _ _ _ _ he => absurd he hu) hu h]

theorem readString_verbatim {c : Char} (hquote : c ≠ '"') (hback : c ≠ '\\')
    (hprint : ¬ c.toNat < 0x20) (rest : List Char) :
    readString none (c :: rest) = prepend c (readString none rest) := by
  rw [readString]
  · rw [if_neg hquote, if_neg hprint]
    rfl
  all_goals simp only [hback, false_implies, implies_true]

theorem hexDigit?_digitChar {n : Nat} (h : n < 16) : Decimal.hexDigit? n.digitChar = some n := by
  revert n
  decide

/-- A control character by its number. Its unit is no half of a pair. -/
theorem readString_control {c : Char} (hcontrol : c.toNat < 0x20) (rest : List Char) :
    readString none ('\\' :: 'u' :: '0' :: '0' :: Nat.digitChar (c.toNat / 16) ::
      Nat.digitChar (c.toNat % 16) :: rest) = prepend c (readString none rest) := by
  have hunit : unit? '0' '0' (Nat.digitChar (c.toNat / 16)) (Nat.digitChar (c.toNat % 16))
      = some c.toNat := by
    have hsum : (0 * 16 + 0) * 256 + (c.toNat / 16 * 16 + c.toNat % 16) = c.toNat := by omega
    rw [unit?, hexDigit?_digitChar (show c.toNat / 16 < 16 by omega),
      hexDigit?_digitChar (show c.toNat % 16 < 16 by omega)]
    exact congrArg some hsum
  have htrailing : isTrailing c.toNat = false := by
    rw [isTrailing, Bool.and_eq_false_iff]
    exact Or.inl (decide_eq_false (by omega))
  have hleading : isLeading c.toNat = false := by
    rw [isLeading, Bool.and_eq_false_iff]
    exact Or.inl (decide_eq_false (by omega))
  rw [readString.eq_5 _ _ _ _ _ _ hunit, htrailing, hleading, Char.ofNat_toNat]
  rfl

/-- Whatever form a character is written in, the reader gives it back in one turn. -/
theorem readString_escapeChar (c : Char) (rest : List Char) :
    readString none (escapeChar c ++ rest) = prepend c (readString none rest) := by
  rw [escapeChar]
  split
  · next h => rw [h]; exact readString_shortEscape rfl rest
  rename_i hquote
  split
  · next h => rw [h]; exact readString_shortEscape rfl rest
  rename_i hback
  split
  · next h => rw [h]; exact readString_shortEscape rfl rest
  split
  · next h => rw [h]; exact readString_shortEscape rfl rest
  split
  · next h => rw [h]; exact readString_shortEscape rfl rest
  split
  · next h => rw [h]; exact readString_shortEscape rfl rest
  split
  · next h => rw [h]; exact readString_shortEscape rfl rest
  split
  · next hcontrol => exact readString_control hcontrol rest
  · next hprint => exact readString_verbatim hquote hback hprint rest

theorem readString_flatMap (cs rest : List Char) :
    readString none (cs.flatMap escapeChar ++ '"' :: rest) = .ok (cs, rest) := by
  induction cs with
  | nil => rfl
  | cons c cs ih =>
      rw [List.flatMap_cons, List.append_assoc, readString_escapeChar, ih]
      rfl

/-! ## Integers -/

/-- Nothing that could continue a number stands in front. -/
def EndsNumber (rest : List Char) : Prop :=
  ∀ c, rest.head? = some c → c.isDigit = false ∧ c ≠ '.' ∧ c ≠ 'e' ∧ c ≠ 'E'

theorem endsNumber_cons {c : Char} (hc : c.isDigit = false ∧ c ≠ '.' ∧ c ≠ 'e' ∧ c ≠ 'E')
    (rest : List Char) : EndsNumber (c :: rest) := by
  rintro d ⟨⟩
  exact hc

theorem someDigits_append {ds rest : List Char} (hne : ds ≠ [])
    (hd : ∀ c ∈ ds, c.isDigit = true) (hend : ∀ c, rest.head? = some c → c.isDigit = false) :
    someDigits (ds ++ rest) = .ok (ds, rest) := by
  have hstop : rest.takeWhile Char.isDigit = [] ∧ rest.dropWhile Char.isDigit = rest := by
    match rest with
    | [] => exact ⟨rfl, rfl⟩
    | c :: cs =>
        rw [List.takeWhile_cons, List.dropWhile_cons, hend c rfl]
        exact ⟨rfl, rfl⟩
  obtain ⟨d, ds, rfl⟩ := List.exists_cons_of_ne_nil hne
  rw [someDigits, List.takeWhile_append_of_pos hd, List.dropWhile_append_of_pos hd, hstop.1,
    hstop.2, List.append_nil]

/-- No numeral of a number starts with a zero but zero's own. -/
theorem readWhole_digits (n : Nat) {rest : List Char} (hend : EndsNumber rest) :
    readWhole (Decimal.digits n ++ rest) = .ok (Decimal.digits n, rest) := by
  have hzero : ¬ ((Decimal.digits n).head? = some '0' ∧ (Decimal.digits n).length ≠ 1) := by
    rintro ⟨hhead, hlen⟩
    rcases Nat.eq_zero_or_pos n with rfl | hpos
    · exact hlen rfl
    · exact Decimal.head?_digits_ne_zero hpos hhead
  rw [readWhole, someDigits_append (Decimal.digits_ne_nil n)
    (fun _ h => Decimal.isDigit_of_mem_digits h) fun c h => (hend c h).1]
  simp only [bind, Except.bind, if_neg hzero]
  rfl

theorem readFraction_of_endsNumber {rest : List Char} (hend : EndsNumber rest) :
    readFraction rest = .ok (none, rest) := by
  match rest with
  | [] => rfl
  | c :: cs =>
      rw [readFraction]
      rintro tail ⟨⟩
      exact (hend '.' rfl).2.1 rfl

theorem readExponent_of_endsNumber {rest : List Char} (hend : EndsNumber rest) :
    readExponent rest = .ok (none, rest) := by
  match rest with
  | [] => rfl
  | c :: cs =>
      have hc := (hend c rfl).2.2
      rw [readExponent, if_neg (not_or.mpr hc)]

theorem numberSign_signed (z : Int) (rest : List Char) :
    numberSign (Decimal.signed z ++ rest) = (decide (z < 0), Decimal.digits z.natAbs ++ rest) := by
  rw [Decimal.signed]
  split
  · next hneg => rw [decide_eq_true hneg]; rfl
  · next hpos =>
      obtain ⟨d, ds, hds⟩ := List.exists_cons_of_ne_nil (Decimal.digits_ne_nil z.natAbs)
      have hd : d.isDigit = true := Decimal.isDigit_of_mem_digits (hds ▸ List.mem_cons_self)
      rw [decide_eq_false hpos, hds, List.cons_append, numberSign]
      rintro cs ⟨⟩
      exact absurd hd (by decide)

theorem readSpelling_signed (z : Int) {rest : List Char} (hend : EndsNumber rest) :
    readSpelling (Decimal.signed z ++ rest) =
      .ok (⟨decide (z < 0), Decimal.digits z.natAbs, none, none⟩, rest) := by
  simp only [readSpelling, numberSign_signed, readWhole_digits _ hend,
    readFraction_of_endsNumber hend, readExponent_of_endsNumber hend, bind, Except.bind, pure,
    Except.pure]

/-- As long as the number fits 64 bits, the significand is the number and no digit is left over. -/
theorem significand_eq {cs : List Char} {start : Nat}
    (h : Nat.ofDigitChars 10 cs start < UInt64.size) :
    significand start cs = (Nat.ofDigitChars 10 cs start, 0) := by
  induction cs generalizing start with
  | nil => rw [Nat.ofDigitChars_nil]; rfl
  | cons c cs ih =>
      rw [Nat.ofDigitChars_cons, Nat.mul_comm] at h ⊢
      have hle : start * 10 + (c.toNat - '0'.toNat) ≤
          Nat.ofDigitChars 10 cs (start * 10 + (c.toNat - '0'.toNat)) := by
        rw [Nat.ofDigitChars_eq_ofDigitChars_zero]
        exact Nat.le_add_right_of_le (Nat.le_mul_of_pos_left _ (Nat.pow_pos (by decide)))
      rw [significand, if_pos (by omega), ih h]

/-- A number of 64 bits has a size: no exponent and no digit left over, so nothing is multiplied. -/
theorem isHuge_digits {n : Nat} (negative : Bool) (h : n < UInt64.size) :
    Spelling.isHuge ⟨negative, Decimal.digits n, none, none⟩ = false := by
  have hvalue : Nat.ofDigitChars 10 (Decimal.digits n) 0 = n := Nat.ofDigitChars_ten_toDigits
  have hsig : significand 0 (Decimal.digits n) = (n, 0) := by
    rw [significand_eq (by rw [hvalue]; exact h), hvalue]
  rw [Spelling.isHuge, hsig]
  show overflows n 0 = false
  rw [overflows, if_pos (Or.inr (Int.le_refl 0))]

/-- Zero has no sign to be mistaken by. -/
theorem number_signed (z : Int) :
    Spelling.number ⟨decide (z < 0), Decimal.digits z.natAbs, none, none⟩ = .integer z := by
  have hvalue : Nat.ofDigitChars 10 (Decimal.digits z.natAbs) 0 = z.natAbs :=
    Nat.ofDigitChars_ten_toDigits
  simp only [Spelling.number, hvalue]
  by_cases hneg : z < 0
  · rw [decide_eq_true hneg, if_pos rfl, if_neg (by omega)]
    congr 1
    omega
  · rw [decide_eq_false hneg, if_neg Bool.false_ne_true]
    congr 1
    omega

/-- An integer that is written is read back. -/
theorem readNumber_signed {z : Int} (h : z.natAbs < UInt64.size) {rest : List Char}
    (hend : EndsNumber rest) :
    readNumber (Decimal.signed z ++ rest) = .ok (.integer z, rest) := by
  simp only [readNumber, readSpelling_signed z hend, bind, Except.bind, isHuge_digits _ h,
    number_signed]
  rfl

end IdentityLine.Json
