import IdentityLine.Identity
import IdentityLine.Proofs.Reading

/-!
# An offset's name finds its zone

The writer of offsets has no bound: hours take two digits or as many as they
need. The reader of names has one, and guesses from the length of the digits
which of them are hours. The two meet where the hours have two digits, and there
the guess is right; with more digits the text is longer than any name, so it is
refused and not split somewhere else. Between 24 and 99 hours it is split right
and refused for its hours.

`named?_nameOf` puts all of this into one equation: asking for the name of an
offset is asking for the offset of that many minutes, which exists when it is
less than a day. Both directions of the main statement are read off from it.
-/

namespace IdentityLine

theorem UtcOffset.ofSeconds?_seconds (o : UtcOffset) : ofSeconds? o.seconds = some o := by
  rw [ofSeconds?, dif_pos ⟨o.neg_day_lt, o.lt_day⟩]

theorem UtcOffset.seconds_of_ofSeconds? {seconds : Int} {o : UtcOffset}
    (h : ofSeconds? seconds = some o) : o.seconds = seconds := by
  rw [ofSeconds?] at h
  split at h
  · cases h
    rfl
  · cases h

namespace Zone

open Text

/-! ## The digits of a name -/

theorem splitColon_eq (cs : List Char) : splitColon cs = splitAt? ':' cs := by
  induction cs with
  | nil => rfl
  | cons c cs ih => rw [splitColon, splitAt?, ih]

/-- Hours and minutes without a colon are told apart by their number of digits, so hours of three
digits are refused and not taken for something else. -/
theorem hoursMinutes?_padded {hours minutes : Nat} (hminutes : minutes < 100) :
    hoursMinutes? (Decimal.padded 2 hours ++ Decimal.padded 2 minutes) =
      if hours < 100 then some (hours, minutes) else none := by
  have hcolon : ':' ∉ Decimal.padded 2 hours ++ Decimal.padded 2 minutes := by
    rw [List.mem_append, not_or]
    exact ⟨Decimal.not_mem_padded rfl, Decimal.not_mem_padded rfl⟩
  have hmlen := Decimal.length_padded_of_lt (show 0 < 2 by decide) hminutes
  rw [hoursMinutes?, splitColon_eq, splitAt?_of_not_mem hcolon]
  by_cases hhours : hours < 100
  · have hhlen := Decimal.length_padded_of_lt (show 0 < 2 by decide) hhours
    have hlen : (Decimal.padded 2 hours ++ Decimal.padded 2 minutes).length = 4 := by
      rw [List.length_append, hhlen, hmlen]
    have htake : (Decimal.padded 2 hours ++ Decimal.padded 2 minutes).take (4 - 2)
        = Decimal.padded 2 hours := List.take_left' hhlen
    have hdrop : (Decimal.padded 2 hours ++ Decimal.padded 2 minutes).drop (4 - 2)
        = Decimal.padded 2 minutes := List.drop_left' hhlen
    simp only [hlen, htake, hdrop, Decimal.nat?_padded, if_pos hhours]
    rfl
  · have hhlen := Decimal.lt_length_padded (show 0 < 2 by decide) (Nat.not_lt.mp hhours)
    have hlen : 4 < (Decimal.padded 2 hours ++ Decimal.padded 2 minutes).length := by
      rw [List.length_append, hmlen]
      omega
    simp only [if_neg hhours]
    rw [if_neg (by omega), if_neg (by omega)]

/-! ## The name of an offset -/

theorem toList_nameOf (offset : Offset) :
    (nameOf offset).toList = 'G' :: 'M' :: 'T' :: offset.chars := by
  simp only [nameOf, Offset.text, String.toList_append, String.toList_ofList]
  rfl

theorem direction?_sign (offset : Offset) :
    direction? offset.sign = some (if offset.toInt < 0 then -1 else 1) := by
  rw [Offset.sign]
  split
  · rfl
  · rfl

/-- Asking for the name of an offset is asking for the offset of that many minutes. -/
theorem named?_nameOf (offset : Offset) :
    named? (nameOf offset) = UtcOffset.ofSeconds? (60 * offset.toInt) := by
  have hminutes : offset.toInt.natAbs % 60 < 100 := by omega
  have hvalue : (if offset.toInt < 0 then -1 else 1 : Int)
      * ((offset.toInt.natAbs / 60 : Nat) * 60 + (offset.toInt.natAbs % 60 : Nat)) * 60
      = 60 * offset.toInt := by
    split
    · omega
    · omega
  simp only [named?, toList_nameOf, afterMeridian?, Offset.chars, direction?_sign,
    hoursMinutes?_padded hminutes, Option.bind_eq_bind, Option.bind_some]
  by_cases hday : offset.toInt.natAbs < 1440
  · rw [if_pos (by omega), Option.bind_some]
    show (if offset.toInt.natAbs / 60 ≤ 23 ∧ offset.toInt.natAbs % 60 ≤ 59 then _ else none) = _
    rw [if_pos (by omega), hvalue]
  · rw [UtcOffset.ofSeconds?, dif_neg (by omega)]
    split
    · show (if offset.toInt.natAbs / 60 ≤ 23 ∧ offset.toInt.natAbs % 60 ≤ 59 then _ else none) = _
      rw [if_neg (by omega)]
    · rfl

theorem seconds_declared (offset : Offset) :
    (declared offset).seconds =
      if -1439 ≤ offset.toInt ∧ offset.toInt ≤ 1439 then 60 * offset.toInt else 0 := by
  show ((named? (nameOf offset)).getD .utc).seconds = _
  rw [named?_nameOf, UtcOffset.ofSeconds?]
  split
  · next h => rw [if_pos (by omega)]; rfl
  · next h => rw [if_neg (by omega)]; rfl

/-- Whole minutes of that zone are the offset again, or none. -/
theorem minutes_declared (offset : Offset) :
    (declared offset).minutes =
      if -1439 ≤ offset.toInt ∧ offset.toInt ≤ 1439 then offset else 0 := by
  rw [UtcOffset.minutes, seconds_declared]
  split
  · rw [Int.mul_tdiv_cancel_left _ (by decide), Int32.ofInt_toInt]
  · rfl

/-! ## The zones that have a name -/

/-- Names know whole minutes only. -/
theorem sixty_dvd_of_named? {id : String} {o : UtcOffset} (h : named? id = some o) :
    60 ∣ o.seconds := by
  simp only [named?, Option.bind_eq_bind, Option.bind_eq_some_iff] at h
  obtain ⟨rest, -, h⟩ := h
  cases rest with
  | nil =>
      cases h
      exact Int.dvd_zero 60
  | cons c cs =>
      simp only [Option.bind_eq_some_iff] at h
      obtain ⟨sign, -, ⟨hours, minutes⟩, -, h⟩ := h
      split at h
      · rw [UtcOffset.seconds_of_ofSeconds? h]
        exact Int.dvd_mul_left _ _
      · cases h

theorem declared_minutes {o : UtcOffset} (h : 60 ∣ o.seconds) :
    declared (Int32.ofInt (o.seconds / 60)) = o := by
  have hlo := o.neg_day_lt
  have hhi := o.lt_day
  have hoffset : (Int32.ofInt (o.seconds / 60)).toInt = o.seconds / 60 :=
    Int32.toInt_ofInt_of_le (by omega) (by omega)
  have hseconds : 60 * (o.seconds / 60) = o.seconds := Int.mul_ediv_cancel' h
  show (named? (nameOf (Int32.ofInt (o.seconds / 60)))).getD .utc = o
  rw [named?_nameOf, hoffset, hseconds, UtcOffset.ofSeconds?_seconds]
  rfl

/-! ## Who is asked -/

/-- Someone who knows zones and may remember what happened before, with a list kept beside of what
they were asked. -/
def recording {σ : Type} (ask : String → StateM σ (Option UtcOffset)) (id : String) :
    StateM (σ × List String) (Option UtcOffset) := fun (state, asked) =>
  let (answer, state) := ask id state
  (answer, state, asked ++ [id])

/-- Writing an offset and finding its zone undo each other, as far as a day reaches; past that the
zone is UTC. Whoever is asked for a zone is asked once, for `GMT` and the text of the offset. -/
theorem declared_inverse :
    (∀ offset : Offset, (declared offset).seconds =
      if -1439 ≤ offset.toInt ∧ offset.toInt ≤ 1439 then 60 * offset.toInt else 0)
    ∧ (∀ i : Identity, i.zone.seconds =
      if -1439 ≤ i.offset.toInt ∧ i.offset.toInt ≤ 1439 then 60 * i.offset.toInt else 0)
    ∧ (∀ (id : String) (o : UtcOffset), named? id = some o →
      60 ∣ o.seconds ∧ declared (Int32.ofInt (o.seconds / 60)) = o)
    ∧ ∀ (σ : Type) (ask : String → StateM σ (Option UtcOffset)) (state : σ) (offset : Offset),
      (declaredBy (recording ask) offset).run (state, []) =
        (((ask ("GMT" ++ offset.text)).run state).1.getD .utc,
          ((ask ("GMT" ++ offset.text)).run state).2, ["GMT" ++ offset.text]) := by
  refine ⟨seconds_declared, fun i => seconds_declared i.offset, ?_, fun _ _ _ _ => rfl⟩
  intro id o h
  have hminutes := sixty_dvd_of_named? h
  exact ⟨hminutes, declared_minutes hminutes⟩

/-- The name need not be the one that the offset spells: half past five to the west, with a colon
and one digit for the hours. -/
theorem declared_inverse_west :
    named? "UTC-5:30" = some ⟨-19800, by decide, by decide⟩
    ∧ 60 ∣ (-19800 : Int) ∧ declared (-330) = ⟨-19800, by decide, by decide⟩ := by
  have hname : named? "UTC-5:30" = some ⟨-19800, by decide, by decide⟩ := by decide
  exact ⟨hname, declared_inverse.2.2.1 "UTC-5:30" _ hname⟩

end Zone

end IdentityLine
