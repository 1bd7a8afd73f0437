import Mathlib
import IdentityLine.Level
import IdentityLine.Proofs.CleanedAgain

/-!
# Texts that name a level

A text names a level when it is the level's name, in letters of either case, with any
white space around it. `Spells` says so without trimming or folding anything: which
characters of a text are white space around a name is no question, as no name has any.

White space is Unicode's and the letters are ASCII's. A letter that only looks like
one of a name, or that Unicode takes for another case of one, spells nothing.
-/

namespace IdentityLine

namespace Text

/-! ## Letters in either case -/

/-- The characters are the same, or they are the two cases of one letter of ASCII. -/
inductive SameLetter : Char → Char → Prop
  | refl (c : Char) : SameLetter c c
  | capital {c d : Char} (h : 'A' ≤ c ∧ c ≤ 'Z') (hd : d.toNat = c.toNat + 32) : SameLetter c d
  | small {c d : Char} (h : 'A' ≤ d ∧ d ≤ 'Z') (hc : c.toNat = d.toNat + 32) : SameLetter c d

theorem isCapital_iff {c : Char} : 'A' ≤ c ∧ c ≤ 'Z' ↔ 65 ≤ c.toNat ∧ c.toNat ≤ 90 := Iff.rfl

theorem isUpper_iff {c : Char} : c.isUpper = true ↔ 'A' ≤ c ∧ c ≤ 'Z' := by
  rw [Char.isUpper, decide_eq_true_eq]
  exact Iff.rfl

theorem isLower_iff {c : Char} : c.isLower = true ↔ 97 ≤ c.toNat ∧ c.toNat ≤ 122 := by
  rw [Char.isLower, Bool.and_eq_true, decide_eq_true_eq, decide_eq_true_eq]
  exact Iff.rfl

theorem toNat_toLower (c : Char) :
    c.toLower.toNat = if 'A' ≤ c ∧ c ≤ 'Z' then c.toNat + 32 else c.toNat := by
  by_cases h : c.isUpper = true
  · have hcapital := isUpper_iff.mp h
    have hvalid : (c.toNat + 32).isValidChar := by
      rw [isCapital_iff] at hcapital
      exact .inl (by omega)
    rw [Char.toLower_eq_of_isUpper h, if_pos hcapital, Char.toNat_ofNat, if_pos hvalid]
  · rw [Char.toLower_eq_of_not_isUpper h, if_neg (mt isUpper_iff.mpr h)]

/-- Small letters come of both cases of themselves and of nothing else. -/
theorem toLower_eq_iff {c d : Char} (hd : d.isLower = true) :
    c.toLower = d ↔ SameLetter c d := by
  rw [isLower_iff] at hd
  rw [← Char.toNat_inj, toNat_toLower]
  constructor
  · intro h
    split at h
    · next hcapital => exact .capital hcapital h.symm
    · rw [Char.toNat_inj.mp h]
      exact .refl d
  · intro h
    cases h with
    | refl =>
        rw [if_neg]
        rw [isCapital_iff]
        omega
    | capital hcapital h => rw [if_pos hcapital, h]
    | small hcapital _ =>
        rw [isCapital_iff] at hcapital
        omega

theorem not_isBlank_of_sameLetter {c d : Char} (hd : d.isLower = true) (h : SameLetter c d) :
    isBlank c = false := by
  have hrange : 65 ≤ c.toNat ∧ c.toNat ≤ 122 := by
    rw [isLower_iff] at hd
    cases h with
    | refl => omega
    | capital hcapital _ | small hcapital _ =>
        rw [isCapital_iff] at hcapital
        omega
  simp only [isBlank, Bool.or_eq_false_iff, Bool.and_eq_false_iff, decide_eq_false_iff_not,
    beq_eq_false_iff_ne]
  omega

/-- A text folds to small letters exactly when it is these letters in either case. -/
theorem map_toLower_eq_iff {cs ds : List Char} (hds : ∀ d ∈ ds, d.isLower = true) :
    cs.map Char.toLower = ds ↔ List.Forall₂ SameLetter cs ds := by
  induction cs generalizing ds with
  | nil => simp [eq_comm]
  | cons c cs ih =>
      cases ds with
      | nil => simp
      | cons d ds =>
          rw [List.forall_mem_cons] at hds
          rw [List.map_cons, List.cons.injEq, List.forall₂_cons, toLower_eq_iff hds.1, ih hds.2]

/-- No letter is white space, in either case. -/
theorem not_isBlank_of_forall₂ {cs ds : List Char} (hds : ∀ d ∈ ds, d.isLower = true)
    (h : List.Forall₂ SameLetter cs ds) : ∀ c ∈ cs, isBlank c = false := by
  induction h with
  | nil => exact fun _ hc => absurd hc List.not_mem_nil
  | cons hcd _ ih =>
      rw [List.forall_mem_cons] at hds ⊢
      exact ⟨not_isBlank_of_sameLetter hds.1 hcd, ih hds.2⟩

/-! ## What trimming takes away -/

/-- What trimming takes away is padding, and stood around what it leaves. -/
theorem exists_trim (pad : Char → Bool) (cs : List Char) : ∃ front back,
    cs = front ++ trim pad cs ++ back ∧ (∀ c ∈ front, pad c = true) ∧ ∀ c ∈ back, pad c = true := by
  refine ⟨cs.takeWhile pad, ((cs.dropWhile pad).reverse.takeWhile pad).reverse, ?_, ?_, ?_⟩
  · rw [trim, List.append_assoc, ← List.reverse_append, List.takeWhile_append_dropWhile,
      List.reverse_reverse, List.takeWhile_append_dropWhile]
  · exact fun c hc => List.mem_takeWhile_imp hc
  · exact fun c hc => List.mem_takeWhile_imp (List.mem_reverse.mp hc)

end Text

namespace Level

open Text

/-- The text is the name of the level, in letters of either case, with white space around it. -/
inductive Spells (level : Level) : String → Prop
  | mk {front word back : List Char} (hfront : ∀ c ∈ front, isBlank c = true)
      (hword : List.Forall₂ SameLetter word level.name.toList)
      (hback : ∀ c ∈ back, isBlank c = true) : Spells level (String.ofList (front ++ word ++ back))

theorem isLower_of_mem_name {level : Level} {c : Char} (h : c ∈ level.name.toList) :
    c.isLower = true := by
  have hall : level.name.toList.all Char.isLower = true := by cases level <;> decide
  exact List.all_eq_true.mp hall c h

/-- No two levels have one name. -/
theorem find?_name_eq_some_iff {word : List Char} {level : Level} :
    all.find? (fun level => level.name.toList == word) = some level ↔
      word = level.name.toList := by
  constructor
  · intro h
    have hfound := List.find?_some h
    exact (eq_of_beq hfound).symm
  · rintro rfl
    cases level <;> decide

theorem named?_eq_some_iff_map {s : String} {level : Level} :
    named? s = some level ↔
      (trim isBlank s.toList).map Char.toLower = level.name.toList :=
  find?_name_eq_some_iff

/-- A text names a level exactly when it spells the level's name. -/
theorem named?_iff_spells {s : String} {level : Level} :
    named? s = some level ↔ level.Spells s := by
  rw [named?_eq_some_iff_map, map_toLower_eq_iff fun _ => isLower_of_mem_name]
  constructor
  · intro h
    obtain ⟨front, back, hsplit, hfront, hback⟩ := exists_trim isBlank s.toList
    have hspells := Spells.mk hfront h hback
    rw [← hsplit, String.ofList_toList] at hspells
    exact hspells
  · rintro ⟨hfront, hword, hback⟩
    -- The letters of a name stop the trimming at both ends.
    have hletters := not_isBlank_of_forall₂ (fun _ => isLower_of_mem_name) hword
    rw [String.toList_ofList, trim_append hfront hback, trim_eq_self]
    · exact hword
    · exact fun c hc => hletters c (List.mem_of_head? hc)
    · exact fun c hc => hletters c (List.mem_of_getLast? hc)

/-- A level is named by the name it is shown with, which is written small. -/
theorem named?_name (level : Level) :
    named? level.name = some level ∧ ∀ c ∈ level.name.toList, c.isLower = true := by
  refine ⟨named?_eq_some_iff_map.mpr ?_, fun _ => isLower_of_mem_name⟩
  cases level <;> decide

end Level

end IdentityLine
