import IdentityLine.Proofs.JsonRoundTrip
import IdentityLine.Proofs.JsonValues

/-!
# What a reader makes of a value

A field is read by a reader that wants one kind of value. What it makes of a value depends
on the value alone, not on the white space before it nor on the text behind it, and that
holds of what it refuses too: a value of another kind is refused for its kind, unless it is
a string that spells nothing or a number without a size, which are wrong by themselves.

Values are of three kinds here: strings, numbers, and all the others, which no field wants.
A reader takes up one of the first two kinds and has one answer for everything else.
-/

namespace IdentityLine

open Json

/-! ## Kinds of values -/

namespace Json

/-- A value in which nothing is amiss by itself. A string spells a text, and a number has a size. -/
def IsPlain (v : List Char) : Prop :=
  (∀ body, v = '"' :: (body ++ ['"']) → ∃ cs, SpellsText body cs)
    ∧ ∀ n, WritesNumber v n → n.isHuge = false

/-- The string that spells a text. -/
def IsText (v : List Char) (s : String) : Prop :=
  ∃ body, v = '"' :: (body ++ ['"']) ∧ SpellsText body s.toList

/-- Nothing is amiss in a value of the kind that is wanted. -/
theorem IsText.isPlain {v : List Char} {s : String} (h : IsText v s) : IsPlain v := by
  obtain ⟨body, rfl, hs⟩ := h
  constructor
  · intro body' heq
    rw [← List.append_cancel_right (List.cons.inj heq).2]
    exact ⟨_, hs⟩
  · intro n hn
    obtain ⟨c, tail, heq, hc⟩ := hn.exists_cons
    cases heq
    exact absurd hc (by decide)

/-- A value is a string, a number, or something that every field refuses. -/
theorem Written.kinds {v : List Char} (h : Written .value v) :
    (∃ body, v = '"' :: (body ++ ['"']) ∧ IsBody body)
      ∨ (∃ n, WritesNumber v n)
      ∨ ∃ c tail, v = c :: tail ∧ c ∈ ['n', 't', 'f', '[', '\x7b']
          ∧ ∀ rest, Identity.unwanted c (tail ++ rest) = .mistyped := by
  cases h with
  | word h =>
      simp only [words, List.mem_cons, List.not_mem_nil, or_false] at h
      rcases h with rfl | rfl | rfl
      all_goals exact Or.inr (Or.inr ⟨_, _, rfl, by decide, fun _ => rfl⟩)
  | string h => exact Or.inl ⟨_, rfl, h⟩
  | number h => exact Or.inr (Or.inl ⟨_, h⟩)
  | empty b =>
      refine Or.inr (Or.inr ⟨b.opening, _, rfl, ?_, fun _ => ?_⟩)
      all_goals cases b
      all_goals first | decide | rfl
  | @bracket b =>
      refine Or.inr (Or.inr ⟨b.opening, _, rfl, ?_, fun _ => ?_⟩)
      all_goals cases b
      all_goals first | decide | rfl

/-- How a value starts that no field wants. -/
theorem starts_unwanted : ∀ c ∈ ['n', 't', 'f', '[', '\x7b'],
    isSpace c = false ∧ c ≠ '"' ∧ ¬ (c = '-' ∨ c.isDigit = true) := by
  intro c hc
  simp only [List.mem_cons, List.not_mem_nil, or_false] at hc
  rcases hc with rfl | rfl | rfl | rfl | rfl
  all_goals decide

theorem Written.skipSpace_append {v : List Char} (h : Written .value v) (rest : List Char) :
    skipSpace (v ++ rest) = v ++ rest := by
  rcases h.kinds with ⟨body, rfl, -⟩ | ⟨n, hn⟩ | ⟨c, tail, rfl, hc, -⟩
  · exact skipSpace_cons (by decide) _
  · obtain ⟨c, tail, rfl, hc⟩ := hn.exists_cons
    exact skipSpace_cons (isSpace_of_starts hc) _
  · exact skipSpace_cons (starts_unwanted c hc).1 _

end Json

namespace Identity

theorem unwanted_of_string {body rest : List Char} {fault : Fault}
    (h : readString none (body ++ '"' :: rest) = .error fault) :
    unwanted '"' ((body ++ ['"']) ++ rest) = fault := by
  rw [List.append_assoc, List.singleton_append]
  simp only [unwanted, if_pos, h]

theorem unwanted_of_text {body cs : List Char} (h : SpellsText body cs) (rest : List Char) :
    unwanted '"' ((body ++ ['"']) ++ rest) = .mistyped := by
  rw [List.append_assoc, List.singleton_append]
  simp only [unwanted, if_pos, readString_of_spellsText h]

theorem unwanted_of_number {c : Char} {tail : List Char} {n : Spelling}
    (h : WritesNumber (c :: tail) n) (hc : c = '-' ∨ c.isDigit = true) {rest : List Char}
    (hend : EndsNumber rest) :
    unwanted c (tail ++ rest) = if n.isHuge then .malformed else .mistyped := by
  have hread := readNumber_of_writesNumber h hend
  rw [List.cons_append] at hread
  simp only [unwanted, if_neg (ne_of_starts hc (show '"' ≠ '-' by decide) (by decide)),
    if_neg (ne_of_starts hc (show 'n' ≠ '-' by decide) (by decide)),
    if_neg (ne_of_starts hc (show 't' ≠ '-' by decide) (by decide)),
    if_neg (ne_of_starts hc (show 'f' ≠ '-' by decide) (by decide)), if_pos hc, hread]
  cases n.isHuge
  · rfl
  · rfl

/-! ## Readers -/

/-- What a reader of one kind of value makes of a value, wherever that stands. -/
structure Judges {α : Type} (read : List Char → Except Fault (α × List Char))
    (Is : List Char → α → Prop) (v : List Char) (outcome : Except Fault α) : Prop where
  reads : ∀ ws rest, IsSpaces ws → EndsNumber rest →
    read (ws ++ (v ++ rest)) = outcome.map fun a => (a, rest)
  isOk : ∀ a, outcome = .ok a ↔ Is v a
  isError : IsPlain v → ∀ fault, outcome = .error fault → fault = .mistyped

/-- A reader of one kind of value: it judges every value, and takes nothing but its kind. -/
structure IsReader {α : Type} (read : List Char → Except Fault (α × List Char))
    (Is : List Char → α → Prop) : Prop where
  judges : ∀ v, Written .value v → ∃ outcome, Judges read Is v outcome
  takes : ∀ cs a rest, read cs = .ok (a, rest) →
    ∃ ws v, cs = ws ++ (v ++ rest) ∧ IsSpaces ws ∧ Written .value v ∧ Is v a

theorem IsReader.eq_ok {α : Type} {read : List Char → Except Fault (α × List Char)}
    {Is : List Char → α → Prop} (h : IsReader read Is) {v ws rest : List Char} {a : α}
    (hv : Written .value v) (ha : Is v a) (hws : IsSpaces ws) (hend : EndsNumber rest) :
    read (ws ++ (v ++ rest)) = .ok (a, rest) := by
  obtain ⟨outcome, hjudges⟩ := h.judges v hv
  rw [hjudges.reads ws rest hws hend, (hjudges.isOk a).mpr ha]
  rfl

/-! ### Texts -/

theorem readText_of_head {c : Char} {ws cs : List Char} (hws : IsSpaces ws)
    (hspace : isSpace c = false) (hc : c ≠ '"') :
    readText (ws ++ c :: cs) = .error (unwanted c cs) := by
  rw [readText, skipSpace_spaces hws hspace]
  simp only [if_neg hc]

theorem readText_of_quote {ws cs : List Char} (hws : IsSpaces ws) :
    readText (ws ++ '"' :: cs) =
      (readString none cs).map fun p => (String.ofList p.1, p.2) := by
  rw [readText, skipSpace_spaces hws (by decide)]
  rfl

/-- A value that its first character already rules out. -/
theorem judges_of_unwanted {α : Type} {read : List Char → Except Fault (α × List Char)}
    {Is : List Char → α → Prop} {c : Char} {tail : List Char} {fault : Fault}
    (hread : ∀ ws rest, IsSpaces ws → read (ws ++ c :: (tail ++ rest)) =
      .error (unwanted c (tail ++ rest)))
    (hfault : ∀ rest, EndsNumber rest → unwanted c (tail ++ rest) = fault)
    (hplain : IsPlain (c :: tail) → fault = .mistyped) (hnot : ∀ a, ¬ Is (c :: tail) a) :
    Judges read Is (c :: tail) (.error fault) where
  reads := by
    intro ws rest hws hend
    rw [List.cons_append, hread ws rest hws, hfault rest hend]
    rfl
  isOk := fun a => ⟨nofun, fun h => absurd h (hnot a)⟩
  isError := by
    intro h _ heq
    cases heq
    exact hplain h

theorem judges_text_of_string {body : List Char} (h : IsBody body) :
    ∃ outcome, Judges readText IsText ('"' :: (body ++ ['"'])) outcome := by
  have hsame : ∀ {body' : List Char}, '"' :: (body ++ ['"']) = '"' :: (body' ++ ['"']) →
      body = body' := fun heq => List.append_cancel_right (List.cons.inj heq).2
  have hread : ∀ ws rest, IsSpaces ws → readText (ws ++ ('"' :: (body ++ ['"']) ++ rest)) =
      (readString none (body ++ '"' :: rest)).map fun p => (String.ofList p.1, p.2) := by
    intro ws rest hws
    rw [List.cons_append, readText_of_quote hws, List.append_assoc, List.singleton_append]
  rcases spells_or_malformed h with ⟨cs, hcs⟩ | ⟨hnone, hbad⟩
  · refine ⟨.ok (String.ofList cs), ?_, ?_, fun _ _ => nofun⟩
    · intro ws rest hws _
      rw [hread ws rest hws, readString_of_spellsText hcs]
      rfl
    · intro s
      constructor
      · intro heq
        cases heq
        exact ⟨body, rfl, by rwa [String.toList_ofList]⟩
      · rintro ⟨body', heq, hs⟩
        rw [← hsame heq] at hs
        rw [hcs.unique hs, String.ofList_toList]
  · refine ⟨.error .malformed, ?_, ?_, ?_⟩
    · intro ws rest hws _
      rw [hread ws rest hws, hbad]
      rfl
    · refine fun s => ⟨nofun, ?_⟩
      rintro ⟨body', heq, hs⟩
      rw [← hsame heq] at hs
      exact absurd ⟨_, hs⟩ hnone
    · intro hplain
      exact absurd (hplain.1 body rfl) hnone

theorem isReader_readText : IsReader readText IsText where
  judges := by
    intro v hv
    rcases hv.kinds with ⟨body, rfl, hbody⟩ | ⟨n, hn⟩ | ⟨c, tail, rfl, hc, hunwanted⟩
    · exact judges_text_of_string hbody
    · obtain ⟨c, tail, rfl, hc⟩ := hn.exists_cons
      have hquote : c ≠ '"' := ne_of_starts hc (by decide) (by decide)
      refine ⟨_, judges_of_unwanted
        (fun ws rest hws => readText_of_head hws (isSpace_of_starts hc) hquote)
        (fun rest hend => unwanted_of_number hn hc hend) ?_ ?_⟩
      · intro hplain
        rw [hplain.2 n hn]
        rfl
      · rintro s ⟨body, ⟨⟩, _⟩
        exact hquote rfl
    · obtain ⟨hspace, hquote, _⟩ := starts_unwanted c hc
      refine ⟨_, judges_of_unwanted (fun ws rest hws => readText_of_head hws hspace hquote)
        (fun rest _ => hunwanted rest) (fun _ => rfl) ?_⟩
      rintro s ⟨body, ⟨⟩, _⟩
      exact hquote rfl
  takes := by
    intro cs s rest h
    unfold readText at h
    split at h
    · cases h
    · next c tail space =>
        obtain ⟨ws, hws, rfl⟩ := exists_spaces_of_skipSpace space
        split at h
        · next hc =>
            subst hc
            obtain ⟨⟨s, rest'⟩, hread, hput⟩ := map_eq_ok_iff.mp h
            obtain ⟨body, rfl, hbody⟩ := readString_eq_ok_iff.mp hread
            cases hput
            refine ⟨ws, '"' :: (body ++ ['"']), by simp, hws, .string hbody.isBody, body, rfl, ?_⟩
            rwa [String.toList_ofList]
        · cases h

/-! ### Integers -/

/-- The integer that is written, between two bounds. -/
def IsBetween (lo hi : Int) (v : List Char) (z : Int) : Prop :=
  IsInteger v z ∧ lo ≤ z ∧ z ≤ hi

theorem readInteger_of_head {lo hi : Int} {c : Char} {ws cs : List Char} (hws : IsSpaces ws)
    (hspace : isSpace c = false) (hc : ¬ (c = '-' ∨ c.isDigit = true)) :
    readInteger lo hi (ws ++ c :: cs) = .error (unwanted c cs) := by
  rw [readInteger, skipSpace_spaces hws hspace]
  simp only [if_neg hc]

/-- What an integer field makes of a number. -/
def integerOf (lo hi : Int) (n : Spelling) : Except Fault Int :=
  if n.isHuge then .error .malformed
  else match n.number with
    | .other => .error .mistyped
    | .integer z => if lo ≤ z ∧ z ≤ hi then .ok z else .error .mistyped

theorem integerOf_eq_ok_iff {lo hi : Int} (hsize : ∀ z, lo ≤ z → z ≤ hi → z.natAbs < UInt64.size)
    {v : List Char} {n : Spelling} (h : WritesNumber v n) {z : Int} :
    integerOf lo hi n = .ok z ↔ IsBetween lo hi v z := by
  rw [IsBetween, isInteger_iff, ← number_eq_integer_iff h]
  constructor
  · intro heq
    unfold integerOf at heq
    split at heq
    · cases heq
    split at heq
    · cases heq
    · next hnumber =>
        split at heq
        · next hbounds =>
            cases heq
            exact ⟨hnumber, hbounds⟩
        · cases heq
  · rintro ⟨hnumber, hbounds⟩
    have hv := (number_eq_integer_iff h).mp hnumber
    have hhuge : n.isHuge = false := by
      subst hv
      rw [spelling_of_signed h]
      exact isHuge_digits _ (hsize z hbounds.1 hbounds.2)
    rw [integerOf, hhuge, hnumber]
    exact if_pos hbounds

theorem judges_integer_of_number {lo hi : Int}
    (hsize : ∀ z, lo ≤ z → z ≤ hi → z.natAbs < UInt64.size) {v : List Char} {n : Spelling}
    (h : WritesNumber v n) :
    Judges (readInteger lo hi) (IsBetween lo hi) v (integerOf lo hi n) where
  reads := by
    intro ws rest hws hend
    have hread := readNumber_of_writesNumber h hend
    obtain ⟨c, tail, rfl, hc⟩ := h.exists_cons
    rw [List.cons_append] at hread
    rw [readInteger, skipSpace_append hws, List.cons_append,
      skipSpace_cons (isSpace_of_starts hc)]
    simp only [if_pos hc, hread, integerOf]
    cases n.isHuge with
    | true => rfl
    | false =>
        cases n.number with
        | other => rfl
        | integer z =>
            simp only [Bool.false_eq_true, if_false]
            split
            · rfl
            · rfl
  isOk := fun z => integerOf_eq_ok_iff hsize h
  isError := by
    intro hplain fault heq
    rw [integerOf, hplain.2 n h, if_neg Bool.false_ne_true] at heq
    split at heq
    · cases heq
      rfl
    · split at heq
      · cases heq
      · cases heq
        rfl

theorem isReader_readInteger {lo hi : Int}
    (hsize : ∀ z, lo ≤ z → z ≤ hi → z.natAbs < UInt64.size) :
    IsReader (readInteger lo hi) (IsBetween lo hi) where
  judges := by
    intro v hv
    have hnot : ∀ {c : Char} {tail : List Char}, ¬ (c = '-' ∨ c.isDigit = true) →
        ∀ z, ¬ IsBetween lo hi (c :: tail) z := by
      rintro c tail hc z ⟨heq, _⟩
      obtain ⟨_, _, hsigned, hstart, _⟩ := signed_eq_cons z
      rw [isInteger_iff, hsigned] at heq
      cases heq
      exact hc hstart
    rcases hv.kinds with ⟨body, rfl, hbody⟩ | ⟨n, hn⟩ | ⟨c, tail, rfl, hc, hunwanted⟩
    · have hstart : ¬ ('"' = '-' ∨ '"'.isDigit = true) := by decide
      rcases spells_or_malformed hbody with ⟨cs, hcs⟩ | ⟨hnone, hbad⟩
      · exact ⟨_, judges_of_unwanted
          (fun ws rest hws => readInteger_of_head hws (by decide) hstart)
          (fun rest _ => unwanted_of_text hcs rest) (fun _ => rfl) (hnot hstart)⟩
      · exact ⟨_, judges_of_unwanted
          (fun ws rest hws => readInteger_of_head hws (by decide) hstart)
          (fun rest _ => unwanted_of_string (hbad rest))
          (fun hplain => absurd (hplain.1 body rfl) hnone) (hnot hstart)⟩
    · exact ⟨_, judges_integer_of_number hsize hn⟩
    · obtain ⟨hspace, _, hstart⟩ := starts_unwanted c hc
      exact ⟨_, judges_of_unwanted (fun ws rest hws => readInteger_of_head hws hspace hstart)
        (fun rest _ => hunwanted rest) (fun _ => rfl) (hnot hstart)⟩
  takes := by
    intro cs z rest h
    unfold readInteger at h
    split at h
    · cases h
    · next c tail space =>
        obtain ⟨ws, hws, rfl⟩ := exists_spaces_of_skipSpace space
        split at h
        · split at h
          · cases h
          · cases h
          · next hnumber =>
              obtain ⟨v, n, hsplit, hv, hz⟩ := writesNumber_of_readNumber hnumber
              split at h
              · next hbounds =>
                  cases h
                  have hinteger := isInteger_iff.mpr ((number_eq_integer_iff hv).mp hz.symm)
                  exact ⟨ws, v, by rw [hsplit], hws, .number hv, hinteger, hbounds⟩
              · cases h
        · cases h

/-- A reader of what another reader's kind is turned into. -/
theorem IsReader.map {α β : Type} {read : List Char → Except Fault (α × List Char)}
    {Is : List Char → α → Prop} (h : IsReader read Is) (f : α → β) :
    IsReader (fun cs => (read cs).map fun p => (f p.1, p.2)) fun v b => ∃ a, Is v a ∧ f a = b where
  judges := by
    intro v hv
    obtain ⟨outcome, hjudges⟩ := h.judges v hv
    refine ⟨outcome.map f, ?_, ?_, ?_⟩
    · intro ws rest hws hend
      rw [hjudges.reads ws rest hws hend]
      cases outcome with
      | error fault => rfl
      | ok a => rfl
    · intro b
      rw [map_eq_ok_iff]
      exact exists_congr fun a => and_congr_left fun _ => hjudges.isOk a
    · intro hplain fault heq
      cases outcome with
      | error fault' =>
          cases heq
          exact hjudges.isError hplain fault rfl
      | ok a => cases heq
  takes := by
    intro cs b rest hread
    obtain ⟨⟨a, rest'⟩, hvalue, hput⟩ := map_eq_ok_iff.mp hread
    cases hput
    obtain ⟨ws, v, hsplit, hws, hv, ha⟩ := h.takes cs a _ hvalue
    exact ⟨ws, v, hsplit, hws, hv, a, ha, rfl⟩

def IsMillis (v : List Char) (millis : Int64) : Prop :=
  IsInteger v millis.toInt

def IsOffset (v : List Char) (offset : Offset) : Prop :=
  IsInteger v offset.toInt

theorem IsReader.congr {α : Type} {read : List Char → Except Fault (α × List Char)}
    {Is Is' : List Char → α → Prop} (h : IsReader read Is) (heq : ∀ v a, Is v a ↔ Is' v a) :
    IsReader read Is' := by
  have hsame : Is = Is' := funext fun v => funext fun a => propext (heq v a)
  exact hsame ▸ h

theorem isReader_readMillis : IsReader readMillis IsMillis := by
  have hlo : Int64.minValue.toInt = -2 ^ 63 := rfl
  have hhi : Int64.maxValue.toInt = 2 ^ 63 - 1 := rfl
  have hsize : ∀ z, Int64.minValue.toInt ≤ z → z ≤ Int64.maxValue.toInt →
      z.natAbs < UInt64.size := by
    intro z hmin hmax
    rw [UInt64.size]
    omega
  refine ((isReader_readInteger hsize).map Int64.ofInt).congr ?_
  intro v millis
  constructor
  · rintro ⟨z, ⟨hz, hmin, hmax⟩, rfl⟩
    rwa [IsMillis, Int64.toInt_ofInt_of_le (by omega) (by omega)]
  · intro h
    exact ⟨millis.toInt, ⟨h, millis.minValue_le_toInt, millis.toInt_le⟩, millis.ofInt_toInt⟩

theorem isReader_readOffset : IsReader readOffset IsOffset := by
  have hlo : Int32.minValue.toInt = -2 ^ 31 := rfl
  have hhi : Int32.maxValue.toInt = 2 ^ 31 - 1 := rfl
  have hsize : ∀ z, Int32.minValue.toInt ≤ z → z ≤ Int32.maxValue.toInt →
      z.natAbs < UInt64.size := by
    intro z hmin hmax
    rw [UInt64.size]
    omega
  refine ((isReader_readInteger hsize).map Int32.ofInt).congr ?_
  intro v offset
  constructor
  · rintro ⟨z, ⟨hz, hmin, hmax⟩, rfl⟩
    rwa [IsOffset, Int32.toInt_ofInt_of_le (by omega) (by omega)]
  · intro h
    exact ⟨offset.toInt, ⟨h, offset.minValue_le_toInt, offset.toInt_le⟩, offset.ofInt_toInt⟩

end Identity

end IdentityLine
