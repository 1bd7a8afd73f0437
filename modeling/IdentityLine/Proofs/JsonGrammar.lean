import IdentityLine.Json.Skip
import IdentityLine.Proofs.JsonLeaves
import Mathlib.Data.List.TakeWhile

/-!
# Strings and numbers of JSON, without a reader

Which characters spell a string, and which write a number. The reader is held against that
in both directions: it reads what is written, and what it reads was written.

A string that is decoded is spelled by `SpellsText`, which tells its characters. One that
is passed over need only be an `IsBody`, where an escape may be half of a pair; to decode
such a string is an error, and the same one whatever stands behind it.

Nothing closes a number, so what is behind it has a say in where it ends. An integer is a
number with neither fraction nor exponent, and since no whole part starts with a zero but
zero's own, its numeral is the one way to write it.
-/

namespace IdentityLine.Json

/-! ## White space -/

/-- White space and nothing else. -/
def IsSpaces (cs : List Char) : Prop :=
  ∀ c ∈ cs, isSpace c = true

theorem isSpaces_nil : IsSpaces [] := nofun

theorem IsSpaces.append {cs ds : List Char} (h : IsSpaces cs) (h' : IsSpaces ds) :
    IsSpaces (cs ++ ds) := by
  intro c hc
  rcases List.mem_append.mp hc with hc | hc
  · exact h c hc
  · exact h' c hc

theorem skipSpace_append {ws : List Char} (h : IsSpaces ws) (cs : List Char) :
    skipSpace (ws ++ cs) = skipSpace cs :=
  List.dropWhile_append_of_pos h

theorem skipSpace_spaces {ws : List Char} (hws : IsSpaces ws) {c : Char} (hc : isSpace c = false)
    (cs : List Char) : skipSpace (ws ++ c :: cs) = c :: cs := by
  rw [skipSpace_append hws, skipSpace_cons hc]

theorem exists_spaces (cs : List Char) : ∃ ws, IsSpaces ws ∧ cs = ws ++ skipSpace cs := by
  refine ⟨cs.takeWhile isSpace, fun c hc => List.mem_takeWhile_imp hc, ?_⟩
  exact List.takeWhile_append_dropWhile.symm

theorem isSpace_of_skipSpace {cs tail : List Char} {c : Char} (h : skipSpace cs = c :: tail) :
    isSpace c = false := by
  have hhead := List.head?_dropWhile_not isSpace cs
  rwa [show cs.dropWhile isSpace = c :: tail from h] at hhead

theorem exists_spaces_of_skipSpace {cs tail : List Char} {c : Char}
    (h : skipSpace cs = c :: tail) : ∃ ws, IsSpaces ws ∧ cs = ws ++ c :: tail := by
  obtain ⟨ws, hws, hcs⟩ := exists_spaces cs
  exact ⟨ws, hws, h ▸ hcs⟩

/-- White space keeps a number from being continued as well as the end of the text does. -/
theorem EndsNumber.spaces {ws rest : List Char} (hws : IsSpaces ws) (h : EndsNumber rest) :
    EndsNumber (ws ++ rest) := by
  intro c hc
  cases ws with
  | nil => exact h c hc
  | cons d ws =>
      cases hc
      have hspace := hws c List.mem_cons_self
      simp only [isSpace, Bool.or_eq_true, beq_iff_eq] at hspace
      rcases hspace with ((rfl | rfl) | rfl) | rfl
      all_goals decide

theorem endsNumber_nil : EndsNumber [] := by
  intro c h
  cases h

/-! ## Strings -/

/-- What stands between the quotes of a string, and the characters that it spells. -/
inductive SpellsText : List Char → List Char → Prop
  | nil : SpellsText [] []
  | verbatim {c : Char} {body cs : List Char} (hquote : c ≠ '"') (hback : c ≠ '\\')
      (hprint : ¬ c.toNat < 0x20) (h : SpellsText body cs) : SpellsText (c :: body) (c :: cs)
  | letter {e c : Char} {body cs : List Char} (he : shortEscape? e = some c)
      (h : SpellsText body cs) : SpellsText ('\\' :: e :: body) (c :: cs)
  | unit {a b c d : Char} {unit : Nat} {body cs : List Char} (hunit : unit? a b c d = some unit)
      (hleading : isLeading unit = false) (htrailing : isTrailing unit = false)
      (h : SpellsText body cs) :
      SpellsText ('\\' :: 'u' :: a :: b :: c :: d :: body) (Char.ofNat unit :: cs)
  | pair {a b c d a' b' c' d' : Char} {leading trailing : Nat} {body cs : List Char}
      (hfirst : unit? a b c d = some leading) (hsecond : unit? a' b' c' d' = some trailing)
      (hleading : isLeading leading = true) (htrailing : isTrailing trailing = true)
      (h : SpellsText body cs) :
      SpellsText ('\\' :: 'u' :: a :: b :: c :: d :: '\\' :: 'u' :: a' :: b' :: c' :: d' :: body)
        (pairChar leading trailing :: cs)

/-- What stands between the quotes of a string that nobody wants. -/
inductive IsBody : List Char → Prop
  | nil : IsBody []
  | verbatim {c : Char} {body : List Char} (hquote : c ≠ '"') (hback : c ≠ '\\')
      (hprint : ¬ c.toNat < 0x20) (h : IsBody body) : IsBody (c :: body)
  | letter {e c : Char} {body : List Char} (he : shortEscape? e = some c) (h : IsBody body) :
      IsBody ('\\' :: e :: body)
  | unit {a b c d : Char} {unit : Nat} {body : List Char} (hunit : unit? a b c d = some unit)
      (h : IsBody body) : IsBody ('\\' :: 'u' :: a :: b :: c :: d :: body)

theorem SpellsText.isBody {body cs : List Char} (h : SpellsText body cs) : IsBody body := by
  induction h with
  | nil => exact .nil
  | verbatim hquote hback hprint _ ih => exact .verbatim hquote hback hprint ih
  | letter he _ ih => exact .letter he ih
  | unit hunit _ _ _ ih => exact .unit hunit ih
  | pair hfirst hsecond _ _ _ ih => exact .unit hfirst (.unit hsecond ih)

theorem isTrailing_of_isLeading {unit : Nat} (h : isLeading unit = true) :
    isTrailing unit = false := by
  simp only [isLeading, isTrailing, Bool.and_eq_true, Bool.and_eq_false_iff, decide_eq_true_eq,
    decide_eq_false_iff_not] at h ⊢
  omega

theorem readString_of_spellsText {body cs : List Char} (h : SpellsText body cs)
    (rest : List Char) : readString none (body ++ '"' :: rest) = .ok (cs, rest) := by
  induction h with
  | nil => rfl
  | verbatim hquote hback hprint _ ih =>
      rw [List.cons_append, readString_verbatim hquote hback hprint, ih]
      rfl
  | letter he _ ih =>
      rw [List.cons_append, List.cons_append, readString_shortEscape he, ih]
      rfl
  | unit hunit hleading htrailing _ ih =>
      show readString none (_ :: _ :: _ :: _ :: _ :: _ :: (_ ++ _)) = _
      rw [readString.eq_5 _ _ _ _ _ _ hunit, hleading, htrailing, ih]
      rfl
  | pair hfirst hsecond hleading htrailing _ ih =>
      have hnot : isTrailing _ = false := isTrailing_of_isLeading hleading
      show readString none (_ :: _ :: _ :: _ :: _ :: _ ::
        (_ :: _ :: _ :: _ :: _ :: _ :: (_ ++ _))) = _
      rw [readString.eq_5 _ _ _ _ _ _ hfirst, hleading, hnot]
      show readString (some _) _ = _
      rw [readString.eq_4 _ _ _ _ _ _ _ hsecond, if_pos htrailing, ih]
      rfl

/-- A backslash is read with the character behind it, or has none behind it. -/
theorem ne_backslash {c : Char} {tail : List Char} (hend : c = '\\' → tail = [] → False)
    (hshort : ∀ d rest, c = '\\' → tail = d :: rest → False) : c ≠ '\\' := by
  intro hc
  cases tail with
  | nil => exact hend hc rfl
  | cons d rest => exact hshort d rest hc rfl

/-- A text that was read is spelled by what was read off. Behind the first half of a pair the other
half has to come before anything is spelled. -/
theorem spellsText_of_readString {leading : Option Nat} {cs s rest : List Char}
    (h : readString leading cs = .ok (s, rest)) :
    (leading = none → ∃ body, cs = body ++ '"' :: rest ∧ SpellsText body s)
      ∧ ∀ first a b c d, leading = some first → unit? a b c d = some first →
          isLeading first = true → ∃ body, cs = body ++ '"' :: rest
            ∧ SpellsText ('\\' :: 'u' :: a :: b :: c :: d :: body) s := by
  fun_induction readString leading cs generalizing s with
  | case1 | case2 | case3 | case5 | case6 | case9 | case11 | case12 | case14 => cases h
  | case4 a b c d tail second first hsecond htrailing ih =>
      obtain ⟨s, rfl, hread⟩ := prepend_eq_ok h
      obtain ⟨body, rfl, hbody⟩ := (ih hread).1 rfl
      refine ⟨fun h => absurd h (Option.some_ne_none first), ?_⟩
      rintro _ a' b' c' d' ⟨⟩ hfirst hleading
      exact ⟨'\\' :: 'u' :: a :: b :: c :: d :: body, rfl,
        .pair hfirst hsecond hleading htrailing hbody⟩
  -- The first half of a pair spells nothing yet, and the hypothesis is about what follows it.
  | case7 a b c d tail first hfirst htrailing hleading ih =>
      refine ⟨fun _ => ?_, fun _ _ _ _ _ h => absurd h.symm (Option.some_ne_none _)⟩
      obtain ⟨body, rfl, hbody⟩ := (ih h).2 first a b c d rfl hfirst hleading
      exact ⟨'\\' :: 'u' :: a :: b :: c :: d :: body, rfl, hbody⟩
  | case8 a b c d tail unit hunit htrailing hleading ih =>
      obtain ⟨s, rfl, hread⟩ := prepend_eq_ok h
      obtain ⟨body, rfl, hbody⟩ := (ih hread).1 rfl
      refine ⟨fun _ => ⟨'\\' :: 'u' :: a :: b :: c :: d :: body, rfl, ?_⟩,
        fun _ _ _ _ _ h => absurd h.symm (Option.some_ne_none _)⟩
      exact .unit hunit (Bool.eq_false_iff.mpr hleading) (Bool.eq_false_iff.mpr htrailing) hbody
  | case10 e tail c hu _ he ih =>
      obtain ⟨s, rfl, hread⟩ := prepend_eq_ok h
      obtain ⟨body, rfl, hbody⟩ := (ih hread).1 rfl
      exact ⟨fun _ => ⟨'\\' :: e :: body, rfl, .letter he hbody⟩,
        fun _ _ _ _ _ h => absurd h.symm (Option.some_ne_none _)⟩
  | case13 _ _ hleading =>
      cases h
      refine ⟨fun _ => ⟨[], rfl, .nil⟩, ?_⟩
      rintro first a b c d rfl
      exact absurd rfl hleading
  | case15 leading c tail hend _ _ hshort hleading hquote hprint ih =>
      obtain ⟨s, rfl, hread⟩ := prepend_eq_ok h
      obtain ⟨body, rfl, hbody⟩ := (ih hread).1 rfl
      have hback := ne_backslash hend hshort
      refine ⟨fun _ => ⟨c :: body, rfl, .verbatim hquote hback hprint hbody⟩, ?_⟩
      rintro first _ _ _ _ rfl
      exact absurd rfl hleading

theorem readString_eq_ok_iff {cs s rest : List Char} :
    readString none cs = .ok (s, rest) ↔ ∃ body, cs = body ++ '"' :: rest ∧ SpellsText body s := by
  constructor
  · exact fun h => (spellsText_of_readString h).1 rfl
  · rintro ⟨body, rfl, h⟩
    exact readString_of_spellsText h rest

/-- What a reading of a string comes to does not depend on the text behind it. -/
def IsTold (read : List Char → Except Fault (List Char × List Char)) : Prop :=
  (∀ rest, read rest = .error .malformed) ∨ ∃ s, ∀ rest, read rest = .ok (s, rest)

theorem IsTold.prepend {read : List Char → Except Fault (List Char × List Char)} (c : Char)
    (h : IsTold read) : IsTold fun rest => Json.prepend c (read rest) := by
  rcases h with h | ⟨s, h⟩
  · exact Or.inl fun rest => congrArg (Json.prepend c) (h rest)
  · exact Or.inr ⟨c :: s, fun rest => congrArg (Json.prepend c) (h rest)⟩

theorem isTold_of_isBody {body : List Char} (h : IsBody body) (leading : Option Nat) :
    IsTold fun rest => readString leading (body ++ '"' :: rest) := by
  -- An escape may leave half of a pair open, so the induction is over every unit that can be held.
  induction h generalizing leading with
  | nil =>
      cases leading with
      | none => exact Or.inr ⟨[], fun _ => rfl⟩
      | some first => exact Or.inl fun _ => rfl
  | @verbatim c body hquote hback hprint _ ih =>
      have hread : ∀ rest, readString leading (c :: (body ++ '"' :: rest)) =
          if leading.isSome then .error .malformed
          else Json.prepend c (readString none (body ++ '"' :: rest)) := by
        intro rest
        rw [readString, if_neg hquote, if_neg hprint]
        all_goals simp only [hback, false_implies, implies_true]
      simp only [List.cons_append, hread]
      cases leading with
      | none => exact (ih none).prepend c
      | some first => exact Or.inl fun _ => rfl
  | @letter e c body he _ ih =>
      have hu : e ≠ 'u' := by
        rintro rfl
        cases he
      cases leading with
      | none =>
          simp only [List.cons_append, readString_shortEscape he]
          exact (ih none).prepend c
      | some first =>
          refine Or.inl fun rest => ?_
          exact readString.eq_8 e _ _ (fun _ _ _ _ _ h => absurd h hu) hu
            fun _ _ h => absurd h (Option.some_ne_none first)
  | @unit a b c d unit body hunit _ ih =>
      simp only [List.cons_append]
      cases leading with
      | none =>
          simp only [readString.eq_5 _ _ _ _ _ _ hunit]
          split
          · exact Or.inl fun _ => rfl
          split
          · exact ih (some unit)
          · exact (ih none).prepend _
      | some first =>
          simp only [readString.eq_4 _ _ _ _ _ _ _ hunit]
          split
          · exact (ih none).prepend _
          · exact Or.inl fun _ => rfl

theorem SpellsText.unique {body cs cs' : List Char} (h : SpellsText body cs)
    (h' : SpellsText body cs') : cs = cs' := by
  have hread := readString_of_spellsText h []
  rw [readString_of_spellsText h' []] at hread
  cases hread
  rfl

/-- A string that spells nothing is wrong wherever it stands. -/
theorem spells_or_malformed {body : List Char} (h : IsBody body) :
    (∃ cs, SpellsText body cs)
      ∨ (¬ ∃ cs, SpellsText body cs)
        ∧ ∀ rest, readString none (body ++ '"' :: rest) = .error .malformed := by
  rcases isTold_of_isBody h none with hbad | ⟨s, hread⟩
  · refine Or.inr ⟨?_, hbad⟩
    rintro ⟨cs, hcs⟩
    cases (readString_of_spellsText hcs []).symm.trans (hbad [])
  · obtain ⟨body', hsplit, hbody⟩ := readString_eq_ok_iff.mp (hread [])
    rw [List.append_cancel_right hsplit]
    exact Or.inl ⟨s, hbody⟩

theorem skipString_of_isBody {body : List Char} (h : IsBody body) (rest : List Char) :
    skipString (body ++ '"' :: rest) = .ok rest := by
  induction h with
  | nil => rfl
  | @verbatim c body hquote hback hprint _ ih =>
      rw [List.cons_append, skipString]
      · rw [if_neg hquote, if_neg hprint, ih]
      all_goals simp only [hback, false_implies, implies_true]
  | @letter e c body he _ ih =>
      have hu : e ≠ 'u' := by
        rintro rfl
        cases he
      show skipString ('\\' :: e :: (body ++ _)) = _
      rw [skipString.eq_5 e _ (fun _ _ _ _ _ h => absurd h hu) hu, he]
      exact ih
  | @unit a b c d unit body hunit _ ih =>
      show skipString (_ :: _ :: _ :: _ :: _ :: _ :: (_ ++ _)) = _
      rw [skipString, hunit]
      exact ih

theorem isBody_of_skipString {cs rest : List Char} (h : skipString cs = .ok rest) :
    ∃ body, cs = body ++ '"' :: rest ∧ IsBody body := by
  fun_induction skipString cs with
  | case1 | case2 | case4 | case5 | case7 | case9 => cases h
  | case3 a b c d tail hunit ih =>
      obtain ⟨unit, hunit⟩ := Option.isSome_iff_exists.mp hunit
      obtain ⟨body, rfl, hbody⟩ := ih h
      exact ⟨_, rfl, .unit hunit hbody⟩
  | case6 e tail _ _ he ih =>
      obtain ⟨c, he⟩ := Option.isSome_iff_exists.mp he
      obtain ⟨body, rfl, hbody⟩ := ih h
      exact ⟨_, rfl, .letter he hbody⟩
  | case8 =>
      cases h
      exact ⟨[], rfl, .nil⟩
  | case10 c tail hend _ _ hshort hquote hprint ih =>
      obtain ⟨body, rfl, hbody⟩ := ih h
      have hback := ne_backslash hend hshort
      exact ⟨c :: body, rfl, .verbatim hquote hback hprint hbody⟩

/-! ## Numbers -/

/-- Digits, and one of them at least. -/
def SomeDigits (ds : List Char) : Prop :=
  ds ≠ [] ∧ ∀ c ∈ ds, c.isDigit = true

/-- The whole part of a number: a zero alone, or digits that do not start with one. -/
def IsWhole (ds : List Char) : Prop :=
  ds = ['0'] ∨ SomeDigits ds ∧ ds.head? ≠ some '0'

/-- The fraction of a number, which may be left out. -/
inductive WritesFraction : List Char → Option (List Char) → Prop
  | absent : WritesFraction [] none
  | present {ds : List Char} (h : SomeDigits ds) : WritesFraction ('.' :: ds) (some ds)

/-- The sign of an exponent, which may be left out. -/
inductive WritesSign : List Char → Int → Prop
  | absent : WritesSign [] 1
  | plus : WritesSign ['+'] 1
  | minus : WritesSign ['-'] (-1)

/-- The exponent of a number, which may be left out. -/
inductive WritesExponent : List Char → Option Int → Prop
  | absent : WritesExponent [] none
  | present {e : Char} {sign ds : List Char} {s : Int} (he : e = 'e' ∨ e = 'E')
      (hs : WritesSign sign s) (h : SomeDigits ds) :
      WritesExponent (e :: (sign ++ ds)) (some (s * Nat.ofDigitChars 10 ds 0))

/-- A number, and its parts. -/
inductive WritesNumber : List Char → Spelling → Prop
  | mk (negative : Bool) {whole fraction exponent : List Char} {f : Option (List Char)}
      {e : Option Int} (hw : IsWhole whole) (hf : WritesFraction fraction f)
      (he : WritesExponent exponent e) :
      WritesNumber ((if negative then ['-'] else []) ++ (whole ++ (fraction ++ exponent)))
        ⟨negative, whole, f, e⟩

theorem SomeDigits.exists_cons {ds : List Char} (h : SomeDigits ds) :
    ∃ d ds', ds = d :: ds' ∧ d.isDigit = true := by
  obtain ⟨d, ds', rfl⟩ := List.exists_cons_of_ne_nil h.1
  exact ⟨d, ds', rfl, h.2 d List.mem_cons_self⟩

theorem IsWhole.someDigits {ds : List Char} (h : IsWhole ds) : SomeDigits ds := by
  rcases h with rfl | h
  · exact ⟨List.cons_ne_nil _ _, List.forall_mem_singleton.mpr rfl⟩
  · exact h.1

theorem WritesFraction.not_isDigit {cs rest : List Char} {f : Option (List Char)}
    (h : WritesFraction cs f) (hrest : ∀ c, rest.head? = some c → c.isDigit = false) (c : Char)
    (hc : (cs ++ rest).head? = some c) : c.isDigit = false := by
  cases h with
  | absent => exact hrest c hc
  | present h =>
      cases hc
      decide

theorem WritesExponent.not_isDigit {cs rest : List Char} {e : Option Int}
    (h : WritesExponent cs e) (hrest : EndsNumber rest) (c : Char)
    (hc : (cs ++ rest).head? = some c) : c.isDigit = false ∧ c ≠ '.' := by
  cases h with
  | absent => exact ⟨(hrest c hc).1, (hrest c hc).2.1⟩
  | present he _ _ =>
      cases hc
      rcases he with rfl | rfl
      all_goals decide

/-- A number starts with its sign or a digit, and no mark and no other value does. -/
theorem WritesNumber.exists_cons {v : List Char} {n : Spelling} (h : WritesNumber v n) :
    ∃ c tail, v = c :: tail ∧ (c = '-' ∨ c.isDigit = true) := by
  cases h with
  | mk negative hw hf he =>
      cases negative with
      | true => exact ⟨'-', _, rfl, Or.inl rfl⟩
      | false =>
          obtain ⟨d, ds, rfl, hd⟩ := hw.someDigits.exists_cons
          exact ⟨d, _, rfl, Or.inr hd⟩

theorem ne_of_starts {c d : Char} (h : c = '-' ∨ c.isDigit = true) (hminus : d ≠ '-')
    (hdigit : d.isDigit = false) : c ≠ d := by
  rintro rfl
  rcases h with h | h
  · exact hminus h
  · rw [h] at hdigit
    cases hdigit

theorem isSpace_of_starts {c : Char} (h : c = '-' ∨ c.isDigit = true) : isSpace c = false := by
  rcases h with rfl | h
  · decide
  · exact isSpace_of_isDigit h

/-! ### What is written is read -/

theorem readWhole_append {ds rest : List Char} (h : IsWhole ds)
    (hend : ∀ c, rest.head? = some c → c.isDigit = false) :
    readWhole (ds ++ rest) = .ok (ds, rest) := by
  have hzero : ¬ (ds.head? = some '0' ∧ ds.length ≠ 1) := by
    rcases h with rfl | h
    · decide
    · exact fun hzero => h.2 hzero.1
  obtain ⟨hne, hd⟩ := h.someDigits
  rw [readWhole, someDigits_append hne hd hend]
  simp only [bind, Except.bind, if_neg hzero]
  rfl

theorem readFraction_append {cs rest : List Char} {f : Option (List Char)}
    (h : WritesFraction cs f)
    (hend : ∀ c, rest.head? = some c → c.isDigit = false ∧ c ≠ '.') :
    readFraction (cs ++ rest) = .ok (f, rest) := by
  cases h with
  | absent =>
      rw [List.nil_append]
      unfold readFraction
      split
      · exact absurd rfl (hend '.' rfl).2
      · rfl
  | present h =>
      rw [List.cons_append, readFraction,
        someDigits_append h.1 h.2 fun c hc => (hend c hc).1]
      rfl

theorem exponentSign_append {sign ds : List Char} {s : Int} (h : WritesSign sign s)
    (hds : SomeDigits ds) (rest : List Char) :
    exponentSign (sign ++ (ds ++ rest)) = (s, ds ++ rest) := by
  cases h with
  | absent =>
      obtain ⟨d, ds, rfl, hd⟩ := hds.exists_cons
      unfold exponentSign
      split
      · next h =>
          cases h
          cases hd
      · next h =>
          cases h
          cases hd
      · rfl
  | plus => rfl
  | minus => rfl

theorem readExponent_append {cs rest : List Char} {e : Option Int} (h : WritesExponent cs e)
    (hend : EndsNumber rest) : readExponent (cs ++ rest) = .ok (e, rest) := by
  cases h with
  | absent => exact readExponent_of_endsNumber hend
  | present he hs h =>
      rw [List.cons_append, List.append_assoc, readExponent, if_pos he,
        exponentSign_append hs h]
      simp only [someDigits_append h.1 h.2 fun c hc => (hend c hc).1]
      rfl

theorem numberSign_append {whole : List Char} (negative : Bool) (h : IsWhole whole)
    (rest : List Char) :
    numberSign ((if negative then ['-'] else []) ++ (whole ++ rest)) =
      (negative, whole ++ rest) := by
  cases negative with
  | true => rfl
  | false =>
      obtain ⟨d, ds, rfl, hd⟩ := h.someDigits.exists_cons
      show numberSign (d :: (ds ++ rest)) = _
      unfold numberSign
      split
      · next h =>
          cases h
          cases hd
      · rfl

theorem readSpelling_of_writesNumber {v : List Char} {n : Spelling} (h : WritesNumber v n)
    {rest : List Char} (hend : EndsNumber rest) : readSpelling (v ++ rest) = .ok (n, rest) := by
  cases h with
  | mk negative hw hf he =>
      have hexponent := he.not_isDigit hend
      have hfraction := hf.not_isDigit fun c hc => (hexponent c hc).1
      simp only [List.append_assoc, readSpelling, numberSign_append negative hw,
        readWhole_append hw hfraction, readFraction_append hf hexponent,
        readExponent_append he hend, bind, Except.bind]
      rfl

/-! ### What is read is written -/

theorem someDigits_eq_ok {cs ds rest : List Char} (h : someDigits cs = .ok (ds, rest)) :
    cs = ds ++ rest ∧ SomeDigits ds := by
  unfold someDigits at h
  split at h
  · cases h
  · next d ds' hds =>
      cases h
      have hall : ∀ c ∈ d :: ds', c.isDigit = true := by
        rw [← hds]
        exact fun c hc => List.mem_takeWhile_imp hc
      rw [← hds, List.takeWhile_append_dropWhile, hds]
      exact ⟨rfl, List.cons_ne_nil d ds', hall⟩

theorem readWhole_eq_ok {cs ds rest : List Char} (h : readWhole cs = .ok (ds, rest)) :
    cs = ds ++ rest ∧ IsWhole ds := by
  obtain ⟨⟨ds', rest'⟩, hdigits, hput⟩ := bind_eq_ok_iff.mp h
  obtain ⟨rfl, hds⟩ := someDigits_eq_ok hdigits
  dsimp only at hput
  split at hput
  · cases hput
  · next hzero =>
      cases hput
      refine ⟨rfl, ?_⟩
      by_cases hhead : ds.head? = some '0'
      · obtain ⟨tail, rfl⟩ := List.head?_eq_some_iff.mp hhead
        have htail : tail = [] := by simpa using hzero
        exact Or.inl (by rw [htail])
      · exact Or.inr ⟨hds, hhead⟩

theorem readFraction_eq_ok {cs rest : List Char} {f : Option (List Char)}
    (h : readFraction cs = .ok (f, rest)) : ∃ part, cs = part ++ rest ∧ WritesFraction part f := by
  unfold readFraction at h
  split at h
  · obtain ⟨⟨ds, rest'⟩, hdigits, hput⟩ := bind_eq_ok_iff.mp h
    obtain ⟨rfl, hds⟩ := someDigits_eq_ok hdigits
    cases hput
    exact ⟨'.' :: ds, rfl, .present hds⟩
  · cases h
    exact ⟨[], rfl, .absent⟩

theorem exponentSign_eq (cs : List Char) :
    ∃ sign, cs = sign ++ (exponentSign cs).2 ∧ WritesSign sign (exponentSign cs).1 := by
  unfold exponentSign
  split
  · exact ⟨['-'], rfl, .minus⟩
  · exact ⟨['+'], rfl, .plus⟩
  · exact ⟨[], rfl, .absent⟩

theorem readExponent_eq_ok {cs rest : List Char} {e : Option Int}
    (h : readExponent cs = .ok (e, rest)) : ∃ part, cs = part ++ rest ∧ WritesExponent part e := by
  unfold readExponent at h
  split at h
  · next c tail =>
      split at h
      · next hc =>
          obtain ⟨sign, hsign, hwrites⟩ := exponentSign_eq tail
          generalize exponentSign tail = p at h hsign hwrites
          obtain ⟨⟨ds, rest'⟩, hdigits, hput⟩ := bind_eq_ok_iff.mp h
          obtain ⟨hsplit, hds⟩ := someDigits_eq_ok hdigits
          cases hput
          refine ⟨c :: (sign ++ ds), ?_, .present hc hwrites hds⟩
          rw [List.cons_append, List.append_assoc, ← hsplit, ← hsign]
      · cases h
        exact ⟨[], rfl, .absent⟩
  · cases h
    exact ⟨[], rfl, .absent⟩

theorem numberSign_eq (cs : List Char) :
    cs = (if (numberSign cs).1 then ['-'] else []) ++ (numberSign cs).2 := by
  unfold numberSign
  split
  · rfl
  · rfl

theorem readSpelling_eq_ok {cs rest : List Char} {n : Spelling}
    (h : readSpelling cs = .ok (n, rest)) : ∃ v, cs = v ++ rest ∧ WritesNumber v n := by
  obtain ⟨⟨whole, cs₁⟩, hwhole, h⟩ := bind_eq_ok_iff.mp h
  obtain ⟨⟨f, cs₂⟩, hfraction, h⟩ := bind_eq_ok_iff.mp h
  obtain ⟨⟨e, cs₃⟩, hexponent, h⟩ := bind_eq_ok_iff.mp h
  cases h
  obtain ⟨hsplit, hw⟩ := readWhole_eq_ok hwhole
  obtain ⟨fraction, rfl, hf⟩ := readFraction_eq_ok hfraction
  obtain ⟨exponent, rfl, he⟩ := readExponent_eq_ok hexponent
  refine ⟨_, ?_, .mk (numberSign cs).1 hw hf he⟩
  rw [List.append_assoc, List.append_assoc, List.append_assoc, ← hsplit]
  exact numberSign_eq cs

/-- A number that is wanted is judged for its size, and one that is passed over is not. -/
theorem readNumber_of_writesNumber {v : List Char} {n : Spelling} (h : WritesNumber v n)
    {rest : List Char} (hend : EndsNumber rest) :
    readNumber (v ++ rest) = if n.isHuge then .error .malformed else .ok (n.number, rest) := by
  simp only [readNumber, readSpelling_of_writesNumber h hend, bind, Except.bind]
  rfl

theorem skipNumber_of_writesNumber {v : List Char} {n : Spelling} (h : WritesNumber v n)
    {rest : List Char} (hend : EndsNumber rest) : skipNumber (v ++ rest) = .ok rest := by
  rw [skipNumber, readSpelling_of_writesNumber h hend]

theorem writesNumber_of_readNumber {cs rest : List Char} {x : Number}
    (h : readNumber cs = .ok (x, rest)) :
    ∃ v n, cs = v ++ rest ∧ WritesNumber v n ∧ x = n.number := by
  obtain ⟨⟨n, rest'⟩, hspelling, hput⟩ := bind_eq_ok_iff.mp h
  obtain ⟨v, rfl, hv⟩ := readSpelling_eq_ok hspelling
  dsimp only at hput
  split at hput
  · cases hput
  · cases hput
    exact ⟨v, n, rfl, hv, rfl⟩

theorem writesNumber_of_skipNumber {cs rest : List Char} (h : skipNumber cs = .ok rest) :
    ∃ v n, cs = v ++ rest ∧ WritesNumber v n := by
  unfold skipNumber at h
  split at h
  · next n rest' hspelling =>
      cases h
      obtain ⟨v, hsplit, hv⟩ := readSpelling_eq_ok hspelling
      exact ⟨v, n, hsplit, hv⟩
  · cases h

/-! ### Integers -/

theorem IsWhole.eq_digits {ds : List Char} (h : IsWhole ds) :
    ds = Decimal.digits (Nat.ofDigitChars 10 ds 0) := by
  rcases h with rfl | ⟨hds, hzero⟩
  · rfl
  · exact Decimal.eq_digits (Decimal.nat?_eq_some hds.1 hds.2) hzero

theorem IsWhole.eq_signed {whole : List Char} (h : IsWhole whole) {negative : Bool} {z : Int}
    (hnumber : Spelling.number ⟨negative, whole, none, none⟩ = .integer z) :
    (if negative then ['-'] else []) ++ whole = Decimal.signed z := by
  have hwhole := h.eq_digits
  dsimp only [Spelling.number] at hnumber
  generalize Nat.ofDigitChars 10 whole 0 = size at hwhole hnumber
  rw [hwhole, Decimal.signed]
  cases negative with
  | true =>
      rw [if_pos rfl] at hnumber
      split at hnumber
      · cases hnumber
      · cases hnumber
        have hneg : -(size : Int) < 0 := by omega
        rw [if_pos rfl, if_pos hneg, Int.natAbs_neg, Int.natAbs_natCast]
        rfl
  | false =>
      rw [if_neg Bool.false_ne_true] at hnumber
      cases hnumber
      have hpos : ¬ (size : Int) < 0 := by omega
      rw [if_neg Bool.false_ne_true, if_neg hpos, Int.natAbs_natCast]
      rfl

theorem spelling_of_signed {z : Int} {n : Spelling} (h : WritesNumber (Decimal.signed z) n) :
    n = ⟨decide (z < 0), Decimal.digits z.natAbs, none, none⟩ := by
  have hread := readSpelling_of_writesNumber h endsNumber_nil
  rw [readSpelling_signed z endsNumber_nil] at hread
  cases hread
  rfl

theorem number_eq_integer_iff {v : List Char} {n : Spelling} (h : WritesNumber v n) {z : Int} :
    n.number = .integer z ↔ v = Decimal.signed z := by
  constructor
  · intro hnumber
    cases h with
    | mk negative hw hf he =>
        cases hf with
        | present _ => cases hnumber
        | absent =>
            cases he with
            | present _ _ _ => cases hnumber
            | absent =>
                rw [List.append_nil, List.append_nil]
                exact hw.eq_signed hnumber
  · rintro rfl
    rw [spelling_of_signed h, number_signed]

/-- An integer: a number with neither fraction nor exponent that is not a negative zero. -/
def IsInteger (v : List Char) (z : Int) : Prop :=
  ∃ negative whole, WritesNumber v ⟨negative, whole, none, none⟩ ∧ v ≠ ['-', '0']
    ∧ z = if negative then -(Nat.ofDigitChars 10 whole 0 : Int) else Nat.ofDigitChars 10 whole 0

theorem isWhole_digits (n : Nat) : IsWhole (Decimal.digits n) := by
  rcases Nat.eq_zero_or_pos n with rfl | hpos
  · exact Or.inl rfl
  · exact Or.inr ⟨⟨Decimal.digits_ne_nil n, fun _ hc => Decimal.isDigit_of_mem_digits hc⟩,
      Decimal.head?_digits_ne_zero hpos⟩

theorem writesNumber_signed (z : Int) :
    WritesNumber (Decimal.signed z) ⟨decide (z < 0), Decimal.digits z.natAbs, none, none⟩ := by
  have hwrites := WritesNumber.mk (decide (z < 0)) (isWhole_digits z.natAbs) .absent .absent
  rw [Decimal.signed]
  split
  · next hneg => simpa [hneg] using hwrites
  · next hpos => simpa [hpos] using hwrites

theorem number_of_isInteger {v whole : List Char} {negative : Bool}
    (h : WritesNumber v ⟨negative, whole, none, none⟩) (hzero : v ≠ ['-', '0']) :
    Spelling.number ⟨negative, whole, none, none⟩ = .integer
      (if negative then -(Nat.ofDigitChars 10 whole 0 : Int) else Nat.ofDigitChars 10 whole 0) := by
  cases negative with
  | false => rfl
  | true =>
      have hsize : Nat.ofDigitChars 10 whole 0 ≠ 0 := by
        intro hsize
        obtain ⟨_, hw, hf, he⟩ := h
        cases hf
        cases he
        rw [hw.eq_digits, hsize] at hzero
        exact hzero rfl
      simp only [Spelling.number, if_pos, if_neg hsize]

/-- The numeral of an integer is the one way to write it. -/
theorem isInteger_iff {v : List Char} {z : Int} : IsInteger v z ↔ v = Decimal.signed z := by
  constructor
  · rintro ⟨negative, whole, h, hzero, rfl⟩
    exact (number_eq_integer_iff h).mp (number_of_isInteger h hzero)
  · rintro rfl
    have hvalue : Nat.ofDigitChars 10 (Decimal.digits z.natAbs) 0 = z.natAbs :=
      Nat.ofDigitChars_ten_toDigits
    refine ⟨_, _, writesNumber_signed z, ?_, ?_⟩
    · intro hzero
      have hnat : Decimal.int? (Decimal.signed z) = some 0 := by
        rw [hzero]
        rfl
      rw [Decimal.int?_signed] at hnat
      cases hnat
      exact absurd hzero (by decide)
    · rw [hvalue]
      by_cases hneg : z < 0
      · rw [decide_eq_true hneg, if_pos rfl]
        omega
      · rw [decide_eq_false hneg, if_neg Bool.false_ne_true]
        omega

end IdentityLine.Json
