import IdentityLine.Proofs.PrintedFields

/-!
# What the check of a field accepts

A text that is set is refused when nothing of it would be printed, and the message
asks for a printable character. The two are not the same. Cleaning trims before it
drops brackets, so what stands between two brackets is out of reach of the trimming,
and when the brackets go it is at the ends of what is left. A text of brackets with a
blank between them has no printable character, and is not refused: it is printed as
the blank.

That is the one difference. A text is accepted when it has a printable character or
such a shielded blank, and a printable character is never lost. So what is accepted
without one is printed as a run of blanks and control characters, and never as
nothing.
-/

namespace IdentityLine

namespace Text

/-! ## The middle of a text -/

section Middle

variable {pad : Char → Bool}

theorem dropWhile_append_of_mem {front back : List Char} (h : ∃ b ∈ front, pad b = false) :
    (front ++ back).dropWhile pad = front.dropWhile pad ++ back := by
  have hne : front.dropWhile pad ≠ [] := by
    intro hnil
    obtain ⟨b, hb, hpad⟩ := h
    rw [dropWhile_eq_nil_iff.mp hnil b hb] at hpad
    cases hpad
  rw [List.dropWhile_append, if_neg (by simpa using hne)]

/-- Padding that is left at the front of a text stands behind something else. -/
theorem exists_before {c : Char} (hc : pad c = true) {cs front after : List Char}
    (h : cs.dropWhile pad = front ++ c :: after) :
    ∃ before, cs = before ++ c :: after ∧ ∃ b ∈ before, pad b = false := by
  have hhead := List.head?_dropWhile_not pad cs
  refine ⟨cs.takeWhile pad ++ front, ?_, ?_⟩
  · rw [List.append_assoc, ← h, List.takeWhile_append_dropWhile]
  · cases front with
    | nil =>
        rw [h, List.nil_append, List.head?_cons] at hhead
        rw [show pad c = false from hhead] at hc
        cases hc
    | cons b front =>
        rw [h, List.cons_append, List.head?_cons] at hhead
        exact ⟨b, by simp, hhead⟩

/-- Trimming leaves of the padding what stands between two characters that are none. -/
theorem mem_trim_iff {c : Char} (hc : pad c = true) {cs : List Char} :
    c ∈ trim pad cs ↔ ∃ before after, cs = before ++ c :: after
      ∧ (∃ b ∈ before, pad b = false) ∧ ∃ a ∈ after, pad a = false := by
  rw [trim, List.mem_reverse]
  constructor
  · intro h
    obtain ⟨front, rest, hrest⟩ := List.append_of_mem h
    obtain ⟨behind, hbehind, a, ha, hpad⟩ := exists_before hc hrest
    have hfront : cs.dropWhile pad = rest.reverse ++ c :: behind.reverse := by
      rw [← List.reverse_reverse (cs.dropWhile pad), hbehind]
      simp
    obtain ⟨before, hcs, hbefore⟩ := exists_before hc hfront
    exact ⟨before, behind.reverse, hcs, hbefore, a, List.mem_reverse.mpr ha, hpad⟩
  · rintro ⟨before, after, rfl, hbefore, a, ha, hpad⟩
    rw [dropWhile_append_of_mem hbefore, List.reverse_append, List.reverse_cons,
      List.append_assoc, dropWhile_append_of_mem ⟨a, List.mem_reverse.mpr ha, hpad⟩]
    simp

end Middle

/-! ## What is left of a text -/

def isBracket (c : Char) : Bool :=
  c == '<' || c == '>'

/-- The characters above the space, but for the two that structure a line. -/
def isPrintable (c : Char) : Bool :=
  decide (' ' < c) && !isBracket c

/-- Padding that cleaning leaves where it cannot trim it. -/
def isQuiet (c : Char) : Bool :=
  isPadding c && c != '\n'

def hasPrintable (s : String) : Bool :=
  s.toList.any isPrintable

/-- There is a blank or a control character between two brackets. -/
def ShieldsQuiet (s : String) : Prop :=
  ∃ before c after, s.toList = before ++ c :: after ∧ isQuiet c = true
    ∧ (∃ b ∈ before, isBracket b = true) ∧ ∃ a ∈ after, isBracket a = true

theorem isPadding_eq (c : Char) : isPadding c = !decide (' ' < c) := by
  rw [isPadding, ← decide_not]
  exact decide_eq_decide.mpr Char.not_lt.symm

theorem isPadding_of_isBracket {c : Char} (h : isBracket c = true) : isPadding c = false := by
  rw [isBracket, Bool.or_eq_true] at h
  rcases h with h | h
  · rw [eq_of_beq h]
    decide
  · rw [eq_of_beq h]
    decide

/-- A character is padding, or a bracket, or printable. -/
theorem isPadding_eq_false_iff {c : Char} :
    isPadding c = false ↔ isBracket c = true ∨ isPrintable c = true := by
  constructor
  · intro h
    rw [isPadding_eq] at h
    rw [isPrintable]
    cases hbracket : isBracket c with
    | true => exact Or.inl rfl
    | false => exact Or.inr (by simpa using h)
  · rintro (h | h)
    · exact isPadding_of_isBracket h
    · rw [isPrintable, Bool.and_eq_true] at h
      rw [isPadding_eq, h.1]
      rfl

/-- What is no delimiter is printable, or stays only where it is not trimmed. -/
theorem isDelimiter_eq_false_iff {c : Char} :
    isDelimiter c = false ↔ isPrintable c = true ∨ isQuiet c = true := by
  have hdelimiter : isDelimiter c = (c == '\n' || isBracket c) := Bool.or_assoc _ _ _
  rw [hdelimiter]
  by_cases hbreak : c = '\n'
  · subst hbreak
    decide
  · cases hpadding : isPadding c with
    | true =>
        have hbracket : isBracket c = false := by
          cases h : isBracket c with
          | true => exact absurd (isPadding_of_isBracket h) (by simp [hpadding])
          | false => rfl
        simp [isQuiet, hpadding, hbracket, hbreak]
    | false =>
        have habove : ' ' < c := by simpa [isPadding_eq] using hpadding
        simp [isQuiet, isPrintable, hpadding, habove, hbreak]

theorem mem_of_mem_trim {pad : Char → Bool} {c : Char} {cs : List Char} (h : c ∈ trim pad cs) :
    c ∈ cs := by
  have hfront := (List.dropWhile_sublist pad).mem (List.mem_reverse.mp h)
  exact (List.dropWhile_sublist pad).mem (List.mem_reverse.mp hfront)

theorem mem_clean_of_isPrintable {c : Char} {cs : List Char} (h : c ∈ cs)
    (hc : isPrintable c = true) : c ∈ clean cs :=
  mem_clean h (isPadding_eq_false_iff.mpr (Or.inr hc)) (isDelimiter_eq_false_iff.mpr (Or.inl hc))

/-- Cleaning keeps every printable character and makes none. -/
theorem hasPrintable_sanitize (s : String) : hasPrintable (sanitize s) = hasPrintable s := by
  rw [Bool.eq_iff_iff, hasPrintable, hasPrintable, List.any_eq_true, List.any_eq_true,
    toList_sanitize]
  constructor
  · rintro ⟨c, hc, hprintable⟩
    exact ⟨c, mem_of_mem_trim (List.mem_filter.mp hc).1, hprintable⟩
  · rintro ⟨c, hc, hprintable⟩
    exact ⟨c, mem_clean_of_isPrintable hc hprintable, hprintable⟩

/-- Something is left of a text that has a printable character or shields a quiet one, and of no
other. -/
theorem sanitize_ne_empty_iff (s : String) :
    sanitize s ≠ "" ↔ hasPrintable s = true ∨ ShieldsQuiet s := by
  have hexists : sanitize s ≠ "" ↔ ∃ c ∈ trim isPadding s.toList, isDelimiter c = false := by
    rw [Ne, ← String.toList_eq_nil_iff, toList_sanitize, clean, List.filter_eq_nil_iff]
    simp
  rw [hexists]
  constructor
  · rintro ⟨c, hc, hdelimiter⟩
    cases hprintable : hasPrintable s with
    | true => exact Or.inl rfl
    | false =>
        have hnone : ∀ b ∈ s.toList, isPrintable b = false := by
          simpa [hasPrintable] using hprintable
        have hquiet : isQuiet c = true := by
          simpa [hnone c (mem_of_mem_trim hc)] using isDelimiter_eq_false_iff.mp hdelimiter
        have hpadding : isPadding c = true := (Bool.and_eq_true_iff.mp hquiet).1
        -- Nothing printable is there to keep it from the ends, so it is the brackets that do.
        have hbracket : ∀ b ∈ s.toList, isPadding b = false → isBracket b = true := by
          intro b hb hpad
          simpa [hnone b hb] using isPadding_eq_false_iff.mp hpad
        obtain ⟨before, after, hsplit, ⟨b, hb, hbpad⟩, a, ha, hapad⟩ :=
          (mem_trim_iff hpadding).mp hc
        refine Or.inr ⟨before, c, after, hsplit, hquiet, ⟨b, hb, ?_⟩, a, ha, ?_⟩
        · exact hbracket b (by simp [hsplit, hb]) hbpad
        · exact hbracket a (by simp [hsplit, ha]) hapad
  · rintro (h | ⟨before, c, after, hsplit, hquiet, ⟨b, hb, hbracket⟩, a, ha, habracket⟩)
    · obtain ⟨c, hc, hprintable⟩ := List.any_eq_true.mp h
      have hkept := mem_clean_of_isPrintable hc hprintable
      exact ⟨c, (List.mem_filter.mp hkept).1, not_isDelimiter_of_mem_clean hkept⟩
    · have hpadding : isPadding c = true := (Bool.and_eq_true_iff.mp hquiet).1
      exact ⟨c, (mem_trim_iff hpadding).mpr ⟨before, after, hsplit,
        ⟨b, hb, isPadding_of_isBracket hbracket⟩, a, ha, isPadding_of_isBracket habracket⟩,
        isDelimiter_eq_false_iff.mpr (Or.inr hquiet)⟩

end Text

/-! ## What is accepted -/

namespace UserSettings

/-- The texts that are set. -/
def texts (u : UserSettings) : List String :=
  u.fields.filterMap (·.2)

theorem validate_eq_ok_iff {u : UserSettings} :
    u.validate = .ok () ↔ ∀ text ∈ u.texts, Text.sanitize text ≠ "" := by
  have hverdict : u.validate = .ok () ↔ Settings.firstOf (Settings.userFaults u) = none := by
    rw [Settings.validate_user_eq]
    cases Settings.firstOf (Settings.userFaults u) with
    | none => simp [Settings.verdict]
    | some fault => simp [Settings.verdict]
  have hfaults : Settings.userFaults u =
      u.fields.map fun field => (.nothingPrintable field.1, showsNothing field.2) := rfl
  rw [hverdict, Settings.firstOf_eq_none_iff, hfaults, List.forall_mem_map, texts]
  simp only [List.mem_filterMap]
  constructor
  · rintro h text ⟨field, hfield, htext⟩
    have hshows := h field hfield
    rw [htext] at hshows
    simpa [showsNothing] using hshows
  · intro h field hfield
    cases hvalue : field.2 with
    | none => rfl
    | some text => simpa [showsNothing] using h text ⟨field, hfield, hvalue⟩

/-- The settings of a user are accepted when each text that is set has a printable character or
shields a quiet one. What is printed of an accepted text is not empty, and has a printable character
exactly when the text has one; if it has none, it is a run of blanks and control characters. -/
theorem accepted_texts (u : UserSettings) :
    (u.validate = .ok () ↔
      ∀ text ∈ u.texts, Text.hasPrintable text = true ∨ Text.ShieldsQuiet text)
    ∧ (u.validate = .ok () → ∀ text ∈ u.texts, Text.sanitize text ≠ ""
      ∧ Text.hasPrintable (Text.sanitize text) = Text.hasPrintable text
      ∧ (Text.hasPrintable text = false →
        ∀ c ∈ (Text.sanitize text).toList, Text.isQuiet c = true)) := by
  refine ⟨validate_eq_ok_iff.trans ?_, fun h text htext =>
    ⟨validate_eq_ok_iff.mp h text htext, Text.hasPrintable_sanitize text, ?_⟩⟩
  · simp only [Text.sanitize_ne_empty_iff]
  · intro hnone c hc
    rw [← Text.hasPrintable_sanitize] at hnone
    have hprintable : Text.isPrintable c = false := by
      simpa using List.any_eq_false.mp hnone c hc
    rw [Text.toList_sanitize] at hc
    simpa [hprintable] using
      Text.isDelimiter_eq_false_iff.mp (Text.not_isDelimiter_of_mem_clean hc)

/-- A name of two brackets and a blank is accepted, and printed as the blank. -/
theorem accepted_texts_brackets :
    let u : UserSettings := { name := some "< >" }
    u.validate = .ok () ∧ u.texts = ["< >"] ∧ Text.hasPrintable "< >" = false
      ∧ ∀ c ∈ (Text.sanitize "< >").toList, Text.isQuiet c = true := by
  intro u
  have hvalid : u.validate = .ok () := rfl
  have htexts : u.texts = ["< >"] := rfl
  have hnone : Text.hasPrintable "< >" = false := by decide +kernel
  obtain ⟨-, -, hquiet⟩ := (accepted_texts u).2 hvalid "< >" (by simp [htexts])
  exact ⟨hvalid, htexts, hnone, hquiet hnone⟩

/-- So the check does not see to it that anything printable is printed. -/
theorem accepted_without_printable :
    let u : UserSettings := { name := some "< >" }
    ¬ (u.validate = .ok () ↔ ∀ text ∈ u.texts, Text.hasPrintable text = true)
      ∧ Text.sanitize "< >" = " " ∧ Text.hasPrintable " " = false := by
  intro u
  have hnone : Text.hasPrintable "< >" = false := by decide +kernel
  refine ⟨fun h => ?_, by decide +kernel, by decide +kernel⟩
  have hprintable := h.mp rfl "< >" List.mem_cons_self
  rw [hnone] at hprintable
  cases hprintable

end UserSettings

end IdentityLine
