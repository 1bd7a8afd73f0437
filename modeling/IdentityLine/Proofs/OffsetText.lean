import IdentityLine.Proofs.Reading

/-!
# An offset's text denotes the offset

`Denotes` says without a reader and without the writer what a text of an offset is: a
sign, digits of which the last two are minutes, and hours before them that have a zero
in front only to make them two digits. Every offset is denoted by its text and by no
other, and the text denotes nothing but that offset, since whatever denotes a number of
minutes is read as that number.

That no other text does is where the zeros matter. A number does not fix its digits, and
it takes the rule on leading zeros to say that hours are written in one way only;
`Decimal.eq_padded` is that step.

Hours are what makes a text long. Two digits of them reach as far as a hundred hours,
and the eight that 32 bits can need make a text of eleven characters.
-/

namespace IdentityLine.Offset

/-! ## What a text denotes -/

/-- A sign, the digits of `h` hours and those of `m` minutes spell out a number of minutes. -/
structure Spells (sign : Char) (hours minutes : List Char) (h m : Nat) (offset : Int) : Prop where
  minus_iff : sign = '-' ↔ offset < 0
  plus_iff : sign = '+' ↔ 0 ≤ offset
  isDigit : ∀ c ∈ hours ++ minutes, c.isDigit = true
  four_le : 4 ≤ (hours ++ minutes).length
  two_minutes : minutes.length = 2
  hours_read : Decimal.nat? hours = some h
  minutes_read : Decimal.nat? minutes = some m
  minutes_lt : m < 60
  size : 60 * h + m = offset.natAbs
  /-- A zero in front of the hours is there to make them two digits. -/
  zero_iff : hours.head? = some '0' ↔ h < 10
  two_hours : h < 10 → hours.length = 2

/-- A text denotes a number of minutes when it can be taken apart into what spells it out. -/
def Denotes (text : String) (offset : Int) : Prop :=
  ∃ sign hours minutes h m,
    text.toList = sign :: (hours ++ minutes) ∧ Spells sign hours minutes h m offset

variable {sign : Char} {hours minutes : List Char} {h m : Nat}

theorem Spells.minutesOf? {offset : Int} (hs : Spells sign hours minutes h m offset) :
    minutesOf? (sign :: (hours ++ minutes)) = some offset := by
  have hlen : (hours ++ minutes).length - 2 = hours.length := by
    rw [List.length_append, hs.two_minutes, Nat.add_sub_cancel]
  have hsize := hs.size
  rw [Offset.minutesOf?, hlen, List.take_left, List.drop_left, hs.hours_read, hs.minutes_read]
  by_cases hneg : offset < 0
  · rw [hs.minus_iff.mpr hneg]
    show some ((-1) * ((h * 60 + m : Nat) : Int)) = _
    exact congrArg some (by omega)
  · rw [hs.plus_iff.mpr (Int.not_lt.mp hneg)]
    show some (1 * ((h * 60 + m : Nat) : Int)) = _
    exact congrArg some (by omega)

/-- Whatever denotes a number of minutes is read as that number. -/
theorem Denotes.minutesOf? {text : String} {offset : Int} (hd : Denotes text offset) :
    minutesOf? text.toList = some offset := by
  obtain ⟨_, _, _, _, _, htext, hs⟩ := hd
  rw [htext]
  exact hs.minutesOf?

/-- A text denotes one number of minutes at most. -/
theorem Denotes.unique {text : String} {x y : Int} (hx : Denotes text x) (hy : Denotes text y) :
    x = y :=
  Option.some.inj (hx.minutesOf?.symm.trans hy.minutesOf?)

/-! ## The text of an offset -/

section

variable (offset : Offset)

theorem spells_chars :
    Spells offset.sign (Decimal.padded 2 (offset.toInt.natAbs / 60))
      (Decimal.padded 2 (offset.toInt.natAbs % 60))
      (offset.toInt.natAbs / 60) (offset.toInt.natAbs % 60) offset.toInt where
  minus_iff := by
    rw [Offset.sign]
    split
    · next hneg => exact iff_of_true rfl hneg
    · next hpos => exact iff_of_false (by decide) hpos
  plus_iff := by
    rw [Offset.sign]
    split
    · next hneg => exact iff_of_false (by decide) (Int.not_le.mpr hneg)
    · next hpos => exact iff_of_true rfl (Int.not_lt.mp hpos)
  isDigit := by
    intro c hc
    rcases List.mem_append.mp hc with hc | hc
    · exact Decimal.isDigit_of_mem_padded hc
    · exact Decimal.isDigit_of_mem_padded hc
  four_le := by
    rw [List.length_append, Decimal.length_padded, Decimal.length_padded]
    omega
  two_minutes := length_minutes _
  hours_read := Decimal.nat?_padded _ _
  minutes_read := Decimal.nat?_padded _ _
  minutes_lt := Nat.mod_lt _ (by decide)
  size := Nat.div_add_mod _ _
  zero_iff := Decimal.head?_padded_eq_zero_iff (show 0 < 1 by decide)
  two_hours := fun hlt =>
    Decimal.length_padded_of_lt (by decide) (Nat.lt_trans hlt (by decide))

theorem denotes_text : Denotes offset.text offset.toInt :=
  ⟨_, _, _, _, _, by rw [text, String.toList_ofList, chars], spells_chars offset⟩

variable {offset}

/-- What spells an offset out is what is written for it. -/
theorem Spells.eq_chars (hs : Spells sign hours minutes h m offset.toInt) :
    sign :: (hours ++ minutes) = offset.chars := by
  have hsize := hs.size
  have hlt := hs.minutes_lt
  have hh : h = offset.toInt.natAbs / 60 := by omega
  have hm : m = offset.toInt.natAbs % 60 := by omega
  have hsign : sign = offset.sign := by
    rw [Offset.sign]
    split
    · next hneg => exact hs.minus_iff.mpr hneg
    · next hpos => exact hs.plus_iff.mpr (Int.not_lt.mp hpos)
  have hhours : hours = Decimal.padded 2 h := by
    refine Decimal.eq_padded hs.hours_read ?_ fun hzero => hs.two_hours (hs.zero_iff.mp hzero)
    have hfour := hs.four_le
    rw [List.length_append, hs.two_minutes] at hfour
    omega
  have hminutes : minutes = Decimal.padded 2 m := by
    rw [← hs.two_minutes]
    exact Decimal.eq_padded_length hs.minutes_read
  rw [chars, hsign, hhours, hminutes, hh, hm]

theorem denotes_iff_eq_text {t : String} : Denotes t offset.toInt ↔ t = offset.text := by
  constructor
  · rintro ⟨_, _, _, _, _, htext, hs⟩
    rw [text, ← hs.eq_chars, ← htext, String.ofList_toList]
  · rintro rfl
    exact denotes_text offset

/-! ## How long it is -/

variable (offset)

theorem length_text : offset.text.length =
    3 + max 2 (Decimal.digits (offset.toInt.natAbs / 60)).length := by
  rw [text, String.length_ofList, chars, List.length_cons, List.length_append, length_minutes,
    Decimal.length_padded]
  omega

theorem length_text_le_iff {width : Nat} (hw : 2 ≤ width) :
    offset.text.length ≤ 3 + width ↔ offset.toInt.natAbs < 60 * Nat.pow 10 width := by
  have hdigits : (Decimal.digits (offset.toInt.natAbs / 60)).length ≤ width ↔
      offset.toInt.natAbs / 60 < Nat.pow 10 width :=
    Nat.length_toDigits_le_iff (by decide) (by omega)
  rw [Nat.mul_comm, ← Nat.div_lt_iff_lt_mul (by decide), ← hdigits, length_text]
  omega

/-- Eight digits of hours are enough for any offset. -/
theorem length_text_le : offset.text.length ≤ 11 := by
  have hlo := offset.le_toInt
  have hhi := offset.toInt_lt
  refine (length_text_le_iff offset (show 2 ≤ 8 by decide)).mpr ?_
  show offset.toInt.natAbs < 60 * 100000000
  omega

end

/-- The text of an offset denotes that offset and nothing else, and nothing else denotes it. Five
characters do for less than a hundred hours. -/
theorem text_denotes (offset : Offset) :
    Denotes offset.text offset.toInt
    ∧ (offset.text.length = 5 ↔ offset.toInt.natAbs < 6000)
    ∧ (∀ z : Int, Denotes offset.text z ↔ z = offset.toInt)
    ∧ ∀ t : String, Denotes t offset.toInt ↔ t = offset.text := by
  have hdenotes := denotes_text offset
  refine ⟨hdenotes, ?_, fun z => ⟨fun hz => hz.unique hdenotes, ?_⟩, fun _ => denotes_iff_eq_text⟩
  · have hle : offset.text.length ≤ 5 ↔ offset.toInt.natAbs < 6000 :=
      length_text_le_iff offset (Nat.le_refl 2)
    have hlength := length_text offset
    omega
  · rintro rfl
    exact hdenotes

example : Offset.text Int32.minValue = "-3579139408" := by decide

end IdentityLine.Offset
