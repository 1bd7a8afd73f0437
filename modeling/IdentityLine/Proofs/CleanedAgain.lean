import IdentityLine.Proofs.CheckedFields

/-!
# Cleaning again

Cleaning trims and then drops, and the two do not mix alike. A line break is padding
as well as a delimiter, so it makes no difference when it goes: trimming past line
breaks and dropping them afterwards is dropping them first. A bracket is no padding.
While it stands it keeps the trimming from what is behind it, and once it is dropped
that may be padding at an end.

So cleaning a text that was cleaned before can still change it, by trimming what the
brackets had kept. It can do no more than that, as there are no delimiters left, and
it can do it once: what has been trimmed and loses nothing afterwards stays trimmed.
-/

namespace IdentityLine.Text

/-! ## Trimming -/

section Trimming

variable {pad : Char → Bool}

/-- Padding that is added at the ends is trimmed with the rest. -/
theorem trim_append {front cs back : List Char} (hfront : ∀ c ∈ front, pad c = true)
    (hback : ∀ c ∈ back, pad c = true) : trim pad (front ++ cs ++ back) = trim pad cs := by
  rw [trim, trim, List.append_assoc, List.dropWhile_append_of_pos hfront]
  by_cases hall : ∀ c ∈ cs, pad c = true
  · have hcs : cs.dropWhile pad = [] := dropWhile_eq_nil_iff.mpr hall
    have hboth : (cs ++ back).dropWhile pad = [] := by
      rw [List.dropWhile_append_of_pos hall]
      exact dropWhile_eq_nil_iff.mpr hback
    rw [hcs, hboth]
  · have hsome : ∃ c ∈ cs, pad c = false := by simpa using hall
    have hreverse : ∀ c ∈ back.reverse, pad c = true := by simpa using hback
    rw [dropWhile_append_of_mem hsome, List.reverse_append,
      List.dropWhile_append_of_pos hreverse]

theorem not_pad_of_head?_dropWhile {c : Char} {cs : List Char}
    (h : (cs.dropWhile pad).head? = some c) : pad c = false := by
  have hhead := List.head?_dropWhile_not pad cs
  rw [h] at hhead
  exact hhead

theorem not_pad_of_head?_trim {c : Char} {cs : List Char} (h : (trim pad cs).head? = some c) :
    pad c = false := by
  -- Trimming the far end takes nothing from the front of what is left.
  obtain ⟨behind, hbehind⟩ := List.dropWhile_suffix pad (l := (cs.dropWhile pad).reverse)
  have hfront : cs.dropWhile pad = trim pad cs ++ behind.reverse := by
    rw [← List.reverse_reverse (cs.dropWhile pad), ← hbehind, List.reverse_append, trim]
  have hhead : (cs.dropWhile pad).head? = some c := by
    rw [hfront, List.head?_append, h, Option.some_or]
  exact not_pad_of_head?_dropWhile hhead

theorem not_pad_of_getLast?_trim {c : Char} {cs : List Char}
    (h : (trim pad cs).getLast? = some c) : pad c = false := by
  rw [trim, List.getLast?_reverse] at h
  exact not_pad_of_head?_dropWhile h

theorem trim_trim (pad : Char → Bool) (cs : List Char) : trim pad (trim pad cs) = trim pad cs :=
  trim_eq_self (fun _ h => not_pad_of_head?_trim h) fun _ h => not_pad_of_getLast?_trim h

/-- A text is left alone by trimming when neither end is padding, and only then. -/
theorem trim_eq_self_iff {cs : List Char} :
    trim pad cs = cs ↔ (∀ c, cs.head? = some c → pad c = false)
      ∧ ∀ c, cs.getLast? = some c → pad c = false := by
  constructor
  · intro h
    rw [← h]
    exact ⟨fun _ => not_pad_of_head?_trim, fun _ => not_pad_of_getLast?_trim⟩
  · rintro ⟨hfirst, hlast⟩
    exact trim_eq_self hfirst hlast

theorem dropWhile_filter {keep : Char → Bool} (h : ∀ c, keep c = false → pad c = true)
    (cs : List Char) : (cs.filter keep).dropWhile pad = (cs.dropWhile pad).filter keep := by
  induction cs with
  | nil => rfl
  | cons c cs ih =>
      cases hkeep : keep c with
      | true =>
          rw [List.filter_cons_of_pos hkeep, List.dropWhile_cons, List.dropWhile_cons]
          split
          · exact ih
          · rw [List.filter_cons_of_pos hkeep]
      | false =>
          rw [List.filter_cons_of_neg (by simp [hkeep]), List.dropWhile_cons, if_pos (h c hkeep)]
          exact ih

/-- What is padding itself may be dropped before the trimming as well as after it. -/
theorem trim_filter {keep : Char → Bool} (h : ∀ c, keep c = false → pad c = true)
    (cs : List Char) : trim pad (cs.filter keep) = (trim pad cs).filter keep := by
  rw [trim, trim, dropWhile_filter h, ← List.filter_reverse, dropWhile_filter h,
    ← List.filter_reverse]

theorem filter_dropWhile {keep : Char → Bool} (h : ∀ c, keep c = true → pad c = false)
    (cs : List Char) : (cs.dropWhile pad).filter keep = cs.filter keep := by
  induction cs with
  | nil => rfl
  | cons c cs ih =>
      rw [List.dropWhile_cons]
      split
      · next hpad =>
          have hdrop : ¬ keep c = true := by
            intro hkeep
            rw [h c hkeep] at hpad
            cases hpad
          rw [ih, List.filter_cons_of_neg hdrop]
      · rfl

/-- Trimming takes nothing from what is not padding. -/
theorem filter_trim {keep : Char → Bool} (h : ∀ c, keep c = true → pad c = false)
    (cs : List Char) : (trim pad cs).filter keep = cs.filter keep := by
  rw [trim, List.filter_reverse, filter_dropWhile h, ← List.filter_reverse, List.reverse_reverse,
    filter_dropWhile h]

end Trimming

/-! ## Line breaks -/

/-- The second text is the first with line breaks put in and taken out, anywhere. -/
inductive Rebroken : List Char → List Char → Prop
  | nil : Rebroken [] []
  | kept (c : Char) {cs ds : List Char} (h : Rebroken cs ds) : Rebroken (c :: cs) (c :: ds)
  | putIn {cs ds : List Char} (h : Rebroken cs ds) : Rebroken cs ('\n' :: ds)
  | takenOut {cs ds : List Char} (h : Rebroken cs ds) : Rebroken ('\n' :: cs) ds

/-- Whether a character is no line break. -/
def isUnbroken (c : Char) : Bool :=
  c != '\n'

theorem Rebroken.filter_eq {cs ds : List Char} (h : Rebroken cs ds) :
    ds.filter isUnbroken = cs.filter isUnbroken := by
  induction h with
  | nil => rfl
  | kept c _ ih => rw [List.filter_cons, List.filter_cons, ih]
  | putIn _ ih => exact ih
  | takenOut _ ih => exact ih

theorem isPadding_of_not_isUnbroken {c : Char} (h : isUnbroken c = false) : isPadding c = true := by
  have hbreak : c = '\n' := by simpa [isUnbroken] using h
  rw [hbreak]
  decide

/-- A text without its line breaks is cleaned as it is with them. -/
theorem clean_filter (cs : List Char) : clean (cs.filter isUnbroken) = clean cs := by
  rw [clean, trim_filter fun _ => isPadding_of_not_isUnbroken, List.filter_filter, clean]
  refine List.filter_congr fun c _ => ?_
  cases hbreak : isUnbroken c with
  | true => rw [Bool.and_true]
  | false =>
      have hbreak : c = '\n' := by simpa [isUnbroken] using hbreak
      rw [hbreak]
      decide

theorem Rebroken.clean_eq {cs ds : List Char} (h : Rebroken cs ds) : clean ds = clean cs := by
  rw [← clean_filter ds, h.filter_eq, clean_filter]

/-! ## Cleaning what is clean -/

/-- There is nothing at the ends of a text that could be trimmed: it is empty, or both its first and
its last character are above the space. -/
def HasBareEnds (s : String) : Prop :=
  s = "" ∨ ∃ first last, s.toList.head? = some first ∧ s.toList.getLast? = some last
    ∧ ' ' < first ∧ ' ' < last

theorem isPadding_eq_false_iff_lt {c : Char} : isPadding c = false ↔ ' ' < c := by
  rw [isPadding_eq, Bool.not_eq_false', decide_eq_true_eq]

theorem trim_isPadding_eq_self_iff {s : String} :
    trim isPadding s.toList = s.toList ↔ HasBareEnds s := by
  rw [trim_eq_self_iff, HasBareEnds, ← String.toList_eq_nil_iff]
  cases hchars : s.toList with
  | nil => simp
  | cons c cs =>
      -- A text that is not empty has both a first and a last character.
      obtain ⟨d, hlast⟩ : ∃ d, (c :: cs).getLast? = some d := ⟨_, List.getLast?_cons⟩
      simp [hlast, isPadding_eq_false_iff_lt]

/-- With no delimiters left, cleaning is trimming. -/
theorem clean_clean (cs : List Char) : clean (clean cs) = trim isPadding (clean cs) := by
  rw [clean, List.filter_eq_self]
  intro c hc
  rw [not_isDelimiter_of_mem_clean (mem_of_mem_trim hc)]
  rfl

theorem sanitize_sanitize_iff (s : String) :
    sanitize (sanitize s) = sanitize s ↔ HasBareEnds (sanitize s) := by
  rw [← trim_isPadding_eq_self_iff, ← String.toList_inj, toList_sanitize, toList_sanitize,
    clean_clean]

/-- Where there are no brackets, only line breaks are dropped, and those could have been dropped
before the trimming. -/
theorem hasBareEnds_of_no_bracket {s : String} (h : ∀ c ∈ s.toList, c ≠ '<' ∧ c ≠ '>') :
    HasBareEnds (sanitize s) := by
  have hclean : clean s.toList = trim isPadding (s.toList.filter isUnbroken) := by
    rw [trim_filter fun _ => isPadding_of_not_isUnbroken, clean]
    refine List.filter_congr fun c hc => ?_
    obtain ⟨hopening, hclosing⟩ := h c (mem_of_mem_trim hc)
    rw [isDelimiter, beq_eq_false_iff_ne.mpr hopening, beq_eq_false_iff_ne.mpr hclosing,
      Bool.or_false, Bool.or_false]
    rfl
  rw [← trim_isPadding_eq_self_iff, toList_sanitize, hclean, trim_trim]

theorem hasBareEnds_sanitize_sanitize (s : String) : HasBareEnds (sanitize (sanitize s)) := by
  rw [← trim_isPadding_eq_self_iff, toList_sanitize, toList_sanitize, clean_clean, trim_trim]

/-- Cleaning takes no printable character away and keeps them in their order. -/
theorem filter_isPrintable_clean (cs : List Char) :
    (clean cs).filter isPrintable = cs.filter isPrintable := by
  have hpadding : ∀ c, isPrintable c = true → isPadding c = false := fun c hc =>
    isPadding_eq_false_iff.mpr (Or.inr hc)
  rw [← filter_trim hpadding cs, clean, List.filter_filter]
  refine List.filter_congr fun c _ => ?_
  cases hprintable : isPrintable c with
  | false => rfl
  | true =>
      rw [isDelimiter_eq_false_iff.mpr (Or.inl hprintable)]
      rfl

/-- What cleaning sees of a text, and what it does not. Nothing that is left structures a line, and
every printable character is. Padding at the ends and line breaks anywhere make no difference. What
is clean is cleaned to itself exactly when nothing is left at its ends to be trimmed, as is the case
without brackets; and to clean a third time is never any use. -/
theorem sanitize_sees (s : String) :
    (∀ c ∈ (sanitize s).toList, c ≠ '\n' ∧ c ≠ '<' ∧ c ≠ '>')
    ∧ (sanitize s).toList.filter isPrintable = s.toList.filter isPrintable
    ∧ (∀ front back : String, (∀ c ∈ front.toList, c ≤ ' ') → (∀ c ∈ back.toList, c ≤ ' ') →
        sanitize (front ++ s ++ back) = sanitize s)
    ∧ (∀ t : String, Rebroken s.toList t.toList → sanitize t = sanitize s)
    ∧ (sanitize (sanitize s) = sanitize s ↔ HasBareEnds (sanitize s))
    ∧ ((∀ c ∈ s.toList, c ≠ '<' ∧ c ≠ '>') → HasBareEnds (sanitize s))
    ∧ sanitize (sanitize (sanitize s)) = sanitize (sanitize s) := by
  refine ⟨?_, ?_, ?_, ?_, sanitize_sanitize_iff s, hasBareEnds_of_no_bracket,
    (sanitize_sanitize_iff _).mpr (hasBareEnds_sanitize_sanitize s)⟩
  · intro c hc
    rw [toList_sanitize] at hc
    simpa [isDelimiter, and_assoc] using not_isDelimiter_of_mem_clean hc
  · rw [toList_sanitize, filter_isPrintable_clean]
  · intro front back hfront hback
    have htrim : trim isPadding (front.toList ++ s.toList ++ back.toList)
        = trim isPadding s.toList :=
      trim_append (fun c hc => decide_eq_true (hfront c hc)) fun c hc => decide_eq_true (hback c hc)
    rw [sanitize, String.toList_append, String.toList_append, clean, htrim, ← clean, ← sanitize]
  · intro t h
    rw [sanitize, h.clean_eq, ← sanitize]

/-- A text of two lines, with blanks around it, and broken elsewhere. -/
theorem sanitize_sees_lines :
    sanitize ("\t" ++ "a\nb" ++ " \n") = "ab" ∧ sanitize "\na\n\nb" = "ab" ∧ HasBareEnds "ab" := by
  have hclean : sanitize "a\nb" = "ab" := by decide +kernel
  obtain ⟨-, -, hpadded, hbroken, -, hbare, -⟩ := sanitize_sees "a\nb"
  rw [hclean] at hpadded hbroken hbare
  exact ⟨hpadded "\t" " \n" (by simp) (by simp),
    hbroken "\na\n\nb" (.putIn (.kept 'a' (.putIn (.kept '\n' (.kept 'b' .nil))))),
    hbare (by simp)⟩

/-- What two brackets shield is trimmed when they are gone. -/
example : sanitize "< a >" = " a " ∧ sanitize (sanitize "< a >") = "a" := by
  decide +kernel

end IdentityLine.Text
