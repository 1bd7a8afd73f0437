import IdentityLine.Offset
import IdentityLine.Zone.Name

/-!
# What is written can be read back

A canonical line, a date and the name of a zone are made of the same few pieces:
a numeral, an offset, and a separator that none of the pieces contains. Each
piece has a reader here and a lemma that the reader undoes the writer, so that
the readers of whole texts need only say where they split.

Filling a numeral up with zeros does not change what it denotes, and so one lemma
on padded numerals serves hours, minutes and years alike. There is no more to it than
that: whatever digits denote a number are its numeral, filled up. An offset is read with
no bound on its hours: the last two digits are the minutes and whatever comes
before them is the hours.
-/

namespace IdentityLine

/-- A reader of two parts has read when both parts are read. -/
theorem bind_eq_ok_iff {ε α β : Type} {x : Except ε α} {f : α → Except ε β} {b : β} :
    x >>= f = .ok b ↔ ∃ a, x = .ok a ∧ f a = .ok b := by
  cases x with
  | error e => exact ⟨nofun, fun ⟨_, h, _⟩ => nomatch h⟩
  | ok a => exact ⟨fun h => ⟨a, rfl, h⟩, fun ⟨_, h, hf⟩ => Except.ok.inj h ▸ hf⟩

theorem map_eq_ok_iff {ε α β : Type} {x : Except ε α} {f : α → β} {b : β} :
    x.map f = .ok b ↔ ∃ a, x = .ok a ∧ f a = b := by
  cases x with
  | error e => exact ⟨nofun, fun ⟨_, h, _⟩ => nomatch h⟩
  | ok a => exact ⟨fun h => ⟨a, rfl, Except.ok.inj h⟩, fun ⟨_, h, hf⟩ => Except.ok.inj h ▸ hf ▸ rfl⟩

namespace Text

/-! ## Splitting at a separator -/

/-- What comes before the first `sep` of a text, and what follows it. -/
def splitAt? (sep : Char) : List Char → Option (List Char × List Char)
  | [] => none
  | c :: cs =>
      if c = sep then some ([], cs)
      else (splitAt? sep cs).map fun (before, after) => (c :: before, after)

/-- What comes before the last `sep` of a text, and what follows it. -/
def splitAtLast? (sep : Char) (cs : List Char) : Option (List Char × List Char) :=
  (splitAt? sep cs.reverse).map fun (after, before) => (before.reverse, after.reverse)

theorem splitAt?_append {sep : Char} {before : List Char} (after : List Char)
    (h : sep ∉ before) : splitAt? sep (before ++ sep :: after) = some (before, after) := by
  induction before with
  | nil => simp only [List.nil_append, splitAt?, if_true]
  | cons c cs ih =>
      rw [List.mem_cons, not_or] at h
      rw [List.cons_append, splitAt?, if_neg (Ne.symm h.1), ih h.2]
      rfl

theorem splitAt?_of_not_mem {sep : Char} {cs : List Char} (h : sep ∉ cs) :
    splitAt? sep cs = none := by
  induction cs with
  | nil => rfl
  | cons c cs ih =>
      rw [List.mem_cons, not_or] at h
      rw [splitAt?, if_neg (Ne.symm h.1), ih h.2]
      rfl

theorem splitAtLast?_append {sep : Char} (before : List Char) {after : List Char}
    (h : sep ∉ after) : splitAtLast? sep (before ++ sep :: after) = some (before, after) := by
  have hr : sep ∉ after.reverse := by rwa [List.mem_reverse]
  have hs : (before ++ sep :: after).reverse = after.reverse ++ sep :: before.reverse := by
    rw [List.reverse_append, List.reverse_cons, List.append_assoc, List.singleton_append]
  rw [splitAtLast?, hs, splitAt?_append _ hr]
  simp only [Option.map_some, List.reverse_reverse]

end Text

namespace Decimal

/-! ## Numerals -/

theorem nat?_eq_some {cs : List Char} (hne : cs ≠ []) (hd : ∀ c ∈ cs, c.isDigit = true) :
    nat? cs = some (Nat.ofDigitChars 10 cs 0) := by
  have hall : cs.all Char.isDigit = true := List.all_eq_true.mpr hd
  have hsome : cs.isEmpty = false := List.isEmpty_eq_false_iff.mpr hne
  rw [nat?, hsome, hall]
  rfl

theorem nat?_eq_some_iff {cs : List Char} {n : Nat} :
    nat? cs = some n ↔
      cs ≠ [] ∧ (∀ c ∈ cs, c.isDigit = true) ∧ Nat.ofDigitChars 10 cs 0 = n := by
  constructor
  · intro h
    unfold nat? at h
    split at h
    · next hcs =>
        obtain ⟨hne, hall⟩ := Bool.and_eq_true_iff.mp hcs
        refine ⟨?_, List.all_eq_true.mp hall, Option.some.inj h⟩
        rintro rfl
        cases hne
    · cases h
  · rintro ⟨hne, hall, rfl⟩
    exact nat?_eq_some hne hall

theorem isDigit_of_mem_padded {width n : Nat} {c : Char} (h : c ∈ padded width n) :
    c.isDigit = true := by
  rw [padded, List.mem_append] at h
  rcases h with h | h
  · rw [List.eq_of_mem_replicate h]
    decide
  · exact isDigit_of_mem_digits h

theorem padded_ne_nil (width n : Nat) : padded width n ≠ [] := by
  rw [padded]
  exact List.append_ne_nil_of_right_ne_nil _ (digits_ne_nil n)

@[simp]
theorem nat?_padded (width n : Nat) : nat? (padded width n) = some n := by
  rw [nat?_eq_some (padded_ne_nil width n) fun _ h => isDigit_of_mem_padded h, padded,
    Nat.ofDigitChars_append, Nat.ofDigitChars_replicate_zero, Nat.mul_zero, digits,
    Nat.ofDigitChars_ten_toDigits]

theorem length_padded (width n : Nat) :
    (padded width n).length = max width (digits n).length := by
  rw [padded, List.length_append, List.length_replicate]
  omega

theorem length_padded_of_lt {width n : Nat} (hw : 0 < width) (h : n < Nat.pow 10 width) :
    (padded width n).length = width := by
  have hd : (digits n).length ≤ width :=
    (Nat.length_toDigits_le_iff (by decide) hw).mpr h
  rw [length_padded]
  omega

theorem lt_length_padded {width n : Nat} (hw : 0 < width) (h : Nat.pow 10 width ≤ n) :
    width < (padded width n).length := by
  have hd : ¬ (digits n).length ≤ width :=
    mt (Nat.length_toDigits_le_iff (by decide) hw).mp (Nat.not_lt.mpr h)
  rw [length_padded]
  omega

theorem head?_digits_ne_zero {n : Nat} (h : 0 < n) : (digits n).head? ≠ some '0' := by
  induction n using Nat.strongRecOn with
  | ind n ih =>
      rw [digits, Nat.toDigits_eq_if (by decide)]
      split
      · next hlt =>
          rw [List.head?_cons, Ne, Option.some.injEq, Nat.digitChar_eq_zero]
          omega
      · next hge =>
          have hhead := ih (n / 10) (by omega) (by omega)
          obtain ⟨c, cs, hcs⟩ := List.exists_cons_of_ne_nil (digits_ne_nil (n / 10))
          rw [hcs] at hhead
          rw [digits] at hcs
          rwa [hcs]

theorem digitChar_of_isDigit {c : Char} (h : c.isDigit = true) :
    c.toNat - '0'.toNat < 10 ∧ Nat.digitChar (c.toNat - '0'.toNat) = c := by
  have hrange : 48 ≤ c.toNat ∧ c.toNat ≤ 57 := by
    simpa [Char.isDigit, Char.le_def, UInt32.le_iff_toNat_le] using h
  have hchar : ∀ k < 10, Nat.digitChar k = Char.ofNat (48 + k) := by decide
  have hzero : '0'.toNat = 48 := rfl
  have hlt : c.toNat - '0'.toNat < 10 := by omega
  refine ⟨hlt, ?_⟩
  rw [hchar _ hlt, hzero, Nat.add_sub_cancel' hrange.1, Char.ofNat_toNat]

/-- A numeral is continued by writing digits behind it. -/
theorem digits_ofDigitChars {ds : List Char} (hds : ∀ c ∈ ds, c.isDigit = true) {start : Nat}
    (hstart : 0 < start) :
    digits (Nat.ofDigitChars 10 ds start) = digits start ++ ds := by
  induction ds generalizing start with
  | nil => rw [Nat.ofDigitChars_nil, List.append_nil]
  | cons c ds ih =>
      obtain ⟨hc, hds⟩ := List.forall_mem_cons.mp hds
      obtain ⟨hlt, hchar⟩ := digitChar_of_isDigit hc
      have hone : digits (10 * start + (c.toNat - '0'.toNat)) =
          digits start ++ [c] := by
        rw [digits, ← Nat.toDigits_append_toDigits (by decide) hstart hlt,
          Nat.toDigits_of_lt_base hlt, hchar]
        rfl
      rw [Nat.ofDigitChars_cons, ih hds (by omega), hone, List.append_assoc, List.singleton_append]

/-- Digits that do not start with a zero are the numeral of the number they denote. -/
theorem eq_digits {cs : List Char} {n : Nat} (h : nat? cs = some n)
    (hzero : cs.head? ≠ some '0') : cs = digits n := by
  obtain ⟨hne, hdigits, rfl⟩ := nat?_eq_some_iff.mp h
  obtain ⟨c, ds, rfl⟩ := List.exists_cons_of_ne_nil hne
  obtain ⟨hc, hds⟩ := List.forall_mem_cons.mp hdigits
  obtain ⟨hlt, hchar⟩ := digitChar_of_isDigit hc
  have hpos : 0 < c.toNat - '0'.toNat := by
    apply Nat.pos_of_ne_zero
    intro hc
    rw [hc] at hchar
    exact hzero (congrArg some hchar.symm)
  rw [Nat.ofDigitChars_cons, Nat.mul_zero, Nat.zero_add, digits_ofDigitChars hds hpos, digits,
    Nat.toDigits_of_lt_base hlt, hchar]
  rfl

theorem padded_eq_digits {width n : Nat} (h : width ≤ (digits n).length) :
    padded width n = digits n := by
  rw [padded, Nat.sub_eq_zero_of_le h, List.replicate_zero, List.nil_append]

theorem padded_succ {width n : Nat} (h : (digits n).length ≤ width) :
    padded (width + 1) n = '0' :: padded width n := by
  rw [padded, padded, Nat.succ_sub h, List.replicate_succ, List.cons_append]

/-- A zero in front is there to fill up, and so it tells how small the number is. -/
theorem head?_padded_eq_zero_iff {width n : Nat} (hw : 0 < width) :
    (padded (width + 1) n).head? = some '0' ↔ n < Nat.pow 10 width := by
  have hlen := Nat.length_toDigits_le_iff (n := n) (show 1 < 10 by decide) hw
  constructor
  · intro hhead
    refine hlen.mp (Nat.le_of_not_lt fun hlong => ?_)
    rw [padded_eq_digits hlong] at hhead
    have hpos : 0 < n := by
      apply Nat.pos_of_ne_zero
      rintro rfl
      exact absurd hlong (Nat.not_lt.mpr hw)
    exact head?_digits_ne_zero hpos hhead
  · intro hlt
    rw [padded_succ (hlen.mpr hlt), List.head?_cons]

/-- Digits are the number they denote, padded to as many as there are. -/
theorem eq_padded_length {cs : List Char} {n : Nat} (h : nat? cs = some n) :
    cs = padded cs.length n := by
  induction cs with
  | nil => exact absurd rfl (nat?_eq_some_iff.mp h).1
  | cons c ds ih =>
      -- A zero in front is one more to fill up with, unless it is all there is; with any other digit
      -- the numeral itself has started.
      by_cases hzero : c = '0'
      · subst hzero
        obtain ⟨-, hdigits, hvalue⟩ := nat?_eq_some_iff.mp h
        rw [Nat.ofDigitChars_cons, Nat.mul_zero, Nat.zero_add, Nat.sub_self] at hvalue
        by_cases hne : ds = []
        · subst hne
          rw [Nat.ofDigitChars_nil] at hvalue
          rw [← hvalue]
          rfl
        · have hrest := ih (nat?_eq_some_iff.mpr
            ⟨hne, (List.forall_mem_cons.mp hdigits).2, hvalue⟩)
          have hlen : (digits n).length ≤ ds.length := by
            have := congrArg List.length hrest
            rw [length_padded] at this
            omega
          rw [List.length_cons, padded_succ hlen, ← hrest]
      · have hds : c :: ds = digits n := by
          apply eq_digits h
          rwa [List.head?_cons, Ne, Option.some.injEq]
        rw [padded_eq_digits (Nat.le_of_eq (congrArg List.length hds)), ← hds]

/-- Digits that have a zero in front only to fill up to a width are padded to that width. -/
theorem eq_padded {width : Nat} {cs : List Char} {n : Nat} (h : nat? cs = some n)
    (hlen : width ≤ cs.length) (hzero : cs.head? = some '0' → cs.length = width) :
    cs = padded width n := by
  by_cases hhead : cs.head? = some '0'
  · rw [← hzero hhead]
    exact eq_padded_length h
  · have hcs := eq_digits h hhead
    rw [hcs] at hlen
    rw [padded_eq_digits hlen]
    exact hcs

theorem not_mem_padded {width n : Nat} {c : Char} (hc : c.isDigit = false) :
    c ∉ padded width n := by
  intro h
  rw [isDigit_of_mem_padded h] at hc
  cases hc

theorem not_mem_digits {n : Nat} {c : Char} (hc : c.isDigit = false) : c ∉ digits n := by
  intro h
  rw [isDigit_of_mem_digits h] at hc
  cases hc

/-- Neither sign is a digit, so digits alone are read as a number that is not negative. -/
theorem int?_of_isDigit {cs : List Char} (hd : ∀ c ∈ cs, c.isDigit = true) :
    int? cs = (nat? cs).map Int.ofNat := by
  match cs with
  | [] => rfl
  | c :: cs =>
      have hc := hd c List.mem_cons_self
      have hminus : c ≠ '-' := by
        rintro rfl
        exact absurd hc (by decide)
      have hplus : c ≠ '+' := by
        rintro rfl
        exact absurd hc (by decide)
      rw [int?.eq_def]
      split
      · next h => exact absurd (List.cons.inj h).1 hminus
      · next h => exact absurd (List.cons.inj h).1 hplus
      · rfl

@[simp]
theorem int?_signed (z : Int) : int? (signed z) = some z := by
  rw [signed]
  split
  · next hneg =>
      have hz : -(z.natAbs : Int) = z := by omega
      rw [int?, nat?_digits]
      exact congrArg some hz
  · next hpos =>
      have hz : (z.natAbs : Int) = z := by omega
      rw [int?_of_isDigit fun _ h => isDigit_of_mem_digits h, nat?_digits]
      exact congrArg some hz

theorem not_mem_signed {z : Int} {c : Char} (hminus : c ≠ '-') (hc : c.isDigit = false) :
    c ∉ signed z := by
  rw [signed]
  split
  · rw [List.mem_cons, not_or]
    exact ⟨hminus, not_mem_digits hc⟩
  · exact not_mem_digits hc

end Decimal

namespace Offset

/-! ## Offsets -/

/-- The minutes east of UTC that a sign, hours in any number of digits and minutes in two digits
denote. -/
def minutesOf? : List Char → Option Int
  | [] => none
  | sign :: cs => do
      let direction ← Zone.direction? sign
      let hours ← Decimal.nat? (cs.take (cs.length - 2))
      let minutes ← Decimal.nat? (cs.drop (cs.length - 2))
      return direction * (hours * 60 + minutes : Nat)

theorem length_minutes (size : Nat) : (Decimal.padded 2 (size % 60)).length = 2 :=
  Decimal.length_padded_of_lt (by decide) (show size % 60 < 100 by omega)

/-- The sign says which way, and the hours and minutes say how far. -/
theorem minutesOf?_chars (offset : Offset) : minutesOf? offset.chars = some offset.toInt := by
  have hlen := length_minutes offset.toInt.natAbs
  have hsize : offset.toInt.natAbs / 60 * 60 + offset.toInt.natAbs % 60 = offset.toInt.natAbs := by
    omega
  have hread : ∀ direction : Int, Zone.direction? offset.sign = some direction →
      direction * (offset.toInt.natAbs : Int) = offset.toInt →
      minutesOf? offset.chars = some offset.toInt := by
    intro direction hsign hvalue
    rw [chars, minutesOf?, hsign, List.length_append, hlen, Nat.add_sub_cancel, List.take_left,
      List.drop_left, Decimal.nat?_padded, Decimal.nat?_padded]
    show some (direction *
      ((offset.toInt.natAbs / 60 * 60 + offset.toInt.natAbs % 60 : Nat) : Int)) = _
    rw [hsize, hvalue]
  by_cases hneg : offset.toInt < 0
  · refine hread (-1) ?_ (by omega)
    rw [sign, if_pos hneg]
    rfl
  · refine hread 1 ?_ (by omega)
    rw [sign, if_neg hneg]
    rfl

theorem not_mem_chars {offset : Offset} {c : Char} (hplus : c ≠ '+') (hminus : c ≠ '-')
    (hc : c.isDigit = false) : c ∉ offset.chars := by
  have hsign : c ≠ offset.sign := by
    rw [sign]
    split
    · exact hminus
    · exact hplus
  rw [chars, List.mem_cons, List.mem_append]
  rintro (h | h | h)
  · exact hsign h
  · exact Decimal.not_mem_padded hc h
  · exact Decimal.not_mem_padded hc h

end Offset

end IdentityLine
