import IdentityLine.Proofs.NamedZone

/-!
# The names that zones have

A name is read by its length: after the sign come hours alone, or hours and minutes
with or without a colon, and without one the number of digits says where the hours
end. `Names` says the same without a reader, as a grammar whose rules are the layouts
themselves, and `named?_eq_some_iff` is the agreement of the two.

The grammar bounds every numeral by two digits before anything is computed. That is
why two checks of a more careful reader can never be what refuses a name: numerals of
two digits are 32-bit numbers, and hours and minutes within a day's make an offset
within a day. `diagnose` is that reader. It measures texts in bytes, splits them at
bytes, and says at which check a name fails; it finds the same zones, and it never
names either of the two.

Bytes make no difference because a digit takes one of them. A text with any other
character in it may be measured and split differently, but it is refused either way.
-/

namespace IdentityLine

namespace Decimal

/-! ## Numerals of one and two digits -/

/-- The digit that denotes a number below ten. -/
def digit (n : Fin 10) : Char :=
  Char.ofNat ('0'.toNat + n)

theorem isDigit_digit (n : Fin 10) : (digit n).isDigit = true := by
  revert n
  decide

theorem toNat_digit (n : Fin 10) : (digit n).toNat = 48 + n := by
  revert n
  decide

theorem digit_ne_colon (n : Fin 10) : digit n ≠ ':' := by
  revert n
  decide

theorem exists_digit {c : Char} (h : c.isDigit = true) : ∃ n, c = digit n := by
  obtain ⟨hlo, hhi⟩ := Char.isDigit_iff_toNat.mp h
  have hlo : 48 ≤ c.toNat := hlo
  have hhi : c.toNat ≤ 57 := hhi
  refine ⟨⟨c.toNat - 48, by omega⟩, ?_⟩
  have hcode : '0'.toNat + (c.toNat - 48) = c.toNat := Nat.add_sub_cancel' hlo
  rw [digit, hcode, Char.ofNat_toNat]

theorem nat?_digit (a : Fin 10) : nat? [digit a] = some a.val := by
  simp [nat?_eq_some_iff, isDigit_digit, Nat.ofDigitChars, toNat_digit]

theorem nat?_two_digits (a b : Fin 10) : nat? [digit a, digit b] = some (10 * a + b : Nat) := by
  simp [nat?_eq_some_iff, isDigit_digit, Nat.ofDigitChars, toNat_digit]

theorem nat?_of_length_two {cs : List Char} {n : Nat} (hlen : cs.length = 2)
    (h : nat? cs = some n) : ∃ a b : Fin 10, cs = [digit a, digit b] ∧ n = 10 * a + b := by
  match cs, hlen with
  | [c, d], _ =>
      have hdigits := (nat?_eq_some_iff.mp h).2.1
      obtain ⟨a, rfl⟩ := exists_digit (hdigits c (by simp))
      obtain ⟨b, rfl⟩ := exists_digit (hdigits d (by simp))
      rw [nat?_two_digits, Option.some.injEq] at h
      exact ⟨a, b, rfl, h.symm⟩

theorem nat?_of_length_le_two {cs : List Char} {n : Nat} (hlen : cs.length ≤ 2)
    (h : nat? cs = some n) :
    (∃ a : Fin 10, cs = [digit a] ∧ n = a)
      ∨ ∃ a b : Fin 10, cs = [digit a, digit b] ∧ n = 10 * a + b := by
  obtain ⟨hne, hdigits, -⟩ := nat?_eq_some_iff.mp h
  match cs with
  | [] => exact absurd rfl hne
  | [c] =>
      obtain ⟨a, rfl⟩ := exists_digit (hdigits c (by simp))
      rw [nat?_digit, Option.some.injEq] at h
      exact .inl ⟨a, rfl, h.symm⟩
  | [c, d] => exact .inr (nat?_of_length_two rfl h)

/-- A numeral of at most two digits is below a hundred. -/
theorem nat?_lt_hundred {cs : List Char} {n : Nat} (hlen : cs.length ≤ 2)
    (h : nat? cs = some n) : n < 100 := by
  rcases nat?_of_length_le_two hlen h with ⟨a, -, rfl⟩ | ⟨a, b, -, rfl⟩
  · omega
  · omega

end Decimal

namespace Text

theorem splitAt?_eq_some_iff {sep : Char} {cs before after : List Char} :
    splitAt? sep cs = some (before, after) ↔ cs = before ++ sep :: after ∧ sep ∉ before := by
  constructor
  · intro h
    induction cs generalizing before with
    | nil => cases h
    | cons c cs ih =>
        rw [splitAt?] at h
        split at h
        · next hc =>
            cases h
            exact ⟨by rw [hc, List.nil_append], List.not_mem_nil⟩
        · next hc =>
            obtain ⟨⟨front, back⟩, hsplit, heq⟩ := Option.map_eq_some_iff.mp h
            cases heq
            obtain ⟨rfl, hfront⟩ := ih hsplit
            exact ⟨rfl, fun hmem => (List.mem_cons.mp hmem).elim (fun h => hc h.symm) hfront⟩
  · rintro ⟨rfl, hbefore⟩
    exact splitAt?_append after hbefore

end Text

theorem UtcOffset.eq_of_seconds {o p : UtcOffset} (h : o.seconds = p.seconds) : o = p := by
  cases o
  cases p
  cases h
  rfl

namespace Zone

open Decimal Text

/-! ## The grammar -/

/-- The texts of hours and minutes, layout by layout. -/
inductive TimeText : List Char → Nat → Nat → Prop
  | h (a : Fin 10) : TimeText [digit a] a 0
  | hh (a b : Fin 10) : TimeText [digit a, digit b] (10 * a + b) 0
  | hmm (a m n : Fin 10) : TimeText [digit a, digit m, digit n] a (10 * m + n)
  | hhmm (a b m n : Fin 10) :
      TimeText [digit a, digit b, digit m, digit n] (10 * a + b) (10 * m + n)
  | hColonMm (a m n : Fin 10) : TimeText [digit a, ':', digit m, digit n] a (10 * m + n)
  | hhColonMm (a b m n : Fin 10) :
      TimeText [digit a, digit b, ':', digit m, digit n] (10 * a + b) (10 * m + n)

/-- The names of zones, with the seconds that they are ahead of UTC. -/
inductive Names : List Char → Int → Prop
  | meridian {id : String} (hid : id = "GMT" ∨ id = "UTC") : Names id.toList 0
  | ahead {id : String} (hid : id = "GMT" ∨ id = "UTC") {text : List Char} {hours minutes : Nat}
      (htext : TimeText text hours minutes) (hhours : hours ≤ 23) (hminutes : minutes ≤ 59) :
      Names (id.toList ++ '+' :: text) ((hours * 60 + minutes) * 60)
  | behind {id : String} (hid : id = "GMT" ∨ id = "UTC") {text : List Char} {hours minutes : Nat}
      (htext : TimeText text hours minutes) (hhours : hours ≤ 23) (hminutes : minutes ≤ 59) :
      Names (id.toList ++ '-' :: text) (-((hours * 60 + minutes) * 60))

theorem TimeText.of_hours {hours : List Char} {h : Nat} (hlen : hours.length ≤ 2)
    (hhours : nat? hours = some h) : TimeText hours h 0 := by
  rcases nat?_of_length_le_two hlen hhours with ⟨a, rfl, rfl⟩ | ⟨a, b, rfl, rfl⟩
  · exact .h a
  · exact .hh a b

theorem TimeText.of_parted {hours minutes : List Char} {h m : Nat} (hlen : hours.length ≤ 2)
    (mlen : minutes.length = 2) (hhours : nat? hours = some h) (hminutes : nat? minutes = some m) :
    TimeText (hours ++ ':' :: minutes) h m := by
  obtain ⟨m, n, rfl, rfl⟩ := nat?_of_length_two mlen hminutes
  rcases nat?_of_length_le_two hlen hhours with ⟨a, rfl, rfl⟩ | ⟨a, b, rfl, rfl⟩
  · exact .hColonMm a m n
  · exact .hhColonMm a b m n

theorem TimeText.of_joined {hours minutes : List Char} {h m : Nat} (hlen : hours.length ≤ 2)
    (mlen : minutes.length = 2) (hhours : nat? hours = some h) (hminutes : nat? minutes = some m) :
    TimeText (hours ++ minutes) h m := by
  obtain ⟨m, n, rfl, rfl⟩ := nat?_of_length_two mlen hminutes
  rcases nat?_of_length_le_two hlen hhours with ⟨a, rfl, rfl⟩ | ⟨a, b, rfl, rfl⟩
  · exact .hmm a m n
  · exact .hhmm a b m n

theorem timeText_of_hoursMinutes? {cs : List Char} {h m : Nat}
    (hread : hoursMinutes? cs = some (h, m)) : TimeText cs h m := by
  rw [hoursMinutes?, splitColon_eq] at hread
  split at hread
  · next hours minutes hsplit =>
      obtain ⟨rfl, -⟩ := splitAt?_eq_some_iff.mp hsplit
      split at hread
      · next hlen =>
          simp only [Option.bind_eq_bind, Option.bind_eq_some_iff] at hread
          obtain ⟨h', hhours, m', hminutes, heq⟩ := hread
          cases heq
          exact .of_parted hlen.1 hlen.2 hhours hminutes
      · cases hread
  · split at hread
    · next hlen =>
        simp only [Option.bind_eq_bind, Option.bind_eq_some_iff] at hread
        obtain ⟨h', hhours, heq⟩ := hread
        cases heq
        exact .of_hours hlen hhours
    · next hlong =>
        split at hread
        · next hlen =>
            simp only [Option.bind_eq_bind, Option.bind_eq_some_iff] at hread
            obtain ⟨h', hhours, m', hminutes, heq⟩ := hread
            cases heq
            rw [← List.take_append_drop (cs.length - 2) cs]
            refine .of_joined ?_ ?_ hhours hminutes
            · rw [List.length_take]
              omega
            · rw [List.length_drop]
              omega
        · cases hread

theorem TimeText.hoursMinutes? {cs : List Char} {h m : Nat} (htext : TimeText cs h m) :
    hoursMinutes? cs = some (h, m) := by
  cases htext
  all_goals
    simp [Zone.hoursMinutes?, splitColon, digit_ne_colon, nat?_digit, nat?_two_digits]

theorem hoursMinutes?_eq_some_iff {cs : List Char} {h m : Nat} :
    hoursMinutes? cs = some (h, m) ↔ TimeText cs h m :=
  ⟨timeText_of_hoursMinutes?, TimeText.hoursMinutes?⟩

/-! ## The reader follows the grammar -/

theorem afterMeridian?_append {id : String} (hid : id = "GMT" ∨ id = "UTC") (rest : List Char) :
    afterMeridian? (id.toList ++ rest) = some rest := by
  rcases hid with rfl | rfl
  · rfl
  · rfl

theorem exists_meridian {cs rest : List Char} (h : afterMeridian? cs = some rest) :
    ∃ id, (id = "GMT" ∨ id = "UTC") ∧ cs = id.toList ++ rest := by
  unfold afterMeridian? at h
  split at h
  · cases h
    exact ⟨"GMT", .inl rfl, rfl⟩
  · cases h
    exact ⟨"UTC", .inr rfl, rfl⟩
  · cases h

theorem direction?_eq_some_iff {c : Char} {sign : Int} :
    direction? c = some sign ↔ c = '+' ∧ sign = 1 ∨ c = '-' ∧ sign = -1 := by
  unfold direction?
  split
  · next hc => simp [hc, eq_comm]
  · next hplus =>
      split
      · next hc => simp [hc, eq_comm]
      · next hminus => simp [hplus, hminus]

/-- A time of day makes an offset in either direction. -/
theorem exists_ofSeconds? {hours minutes : Nat} {c : Char} {sign : Int}
    (hsign : direction? c = some sign) (hhours : hours ≤ 23) (hminutes : minutes ≤ 59) :
    ∃ o, UtcOffset.ofSeconds? (sign * (hours * 60 + minutes) * 60) = some o := by
  have hrange : -86400 < sign * (hours * 60 + minutes) * 60
      ∧ sign * (hours * 60 + minutes) * 60 < 86400 := by
    rcases direction?_eq_some_iff.mp hsign with ⟨-, rfl⟩ | ⟨-, rfl⟩
    · omega
    · omega
  rw [UtcOffset.ofSeconds?, dif_pos hrange]
  exact ⟨_, rfl⟩

theorem names_of_named? {id : String} {o : UtcOffset} (h : named? id = some o) :
    Names id.toList o.seconds := by
  simp only [named?, Option.bind_eq_bind, Option.bind_eq_some_iff] at h
  obtain ⟨rest, hrest, h⟩ := h
  obtain ⟨meridian, hmeridian, hid⟩ := exists_meridian hrest
  rw [hid]
  cases rest with
  | nil =>
      cases h
      rw [List.append_nil]
      exact .meridian hmeridian
  | cons c cs =>
      simp only [Option.bind_eq_some_iff] at h
      obtain ⟨sign, hsign, ⟨hours, minutes⟩, htime, h⟩ := h
      have htext := hoursMinutes?_eq_some_iff.mp htime
      split at h
      · next hday =>
          rw [UtcOffset.seconds_of_ofSeconds? h]
          rcases direction?_eq_some_iff.mp hsign with ⟨rfl, rfl⟩ | ⟨rfl, rfl⟩
          · rw [Int.one_mul]
            exact .ahead hmeridian htext hday.1 hday.2
          · rw [Int.neg_mul, Int.one_mul, Int.neg_mul]
            exact .behind hmeridian htext hday.1 hday.2
      · cases h

theorem exists_named?_signed {id meridian : String} {c : Char} {text : List Char}
    {hours minutes : Nat} {sign : Int} (hid : id.toList = meridian.toList ++ c :: text)
    (hmeridian : meridian = "GMT" ∨ meridian = "UTC") (hsign : direction? c = some sign)
    (htext : TimeText text hours minutes) (hhours : hours ≤ 23) (hminutes : minutes ≤ 59) :
    ∃ o, named? id = some o ∧ o.seconds = sign * (hours * 60 + minutes) * 60 := by
  obtain ⟨o, ho⟩ := exists_ofSeconds? hsign hhours hminutes
  refine ⟨o, ?_, UtcOffset.seconds_of_ofSeconds? ho⟩
  simp only [named?, hid, afterMeridian?_append hmeridian, hsign, htext.hoursMinutes?,
    Option.bind_eq_bind, Option.bind_some]
  rw [if_pos ⟨hhours, hminutes⟩, ho]

/-- Every name of the grammar is the name of a zone. -/
theorem Names.exists_named? {cs : List Char} {seconds : Int} (h : Names cs seconds) {id : String}
    (hid : id.toList = cs) : ∃ o, named? id = some o ∧ o.seconds = seconds := by
  cases h with
  | meridian hmeridian =>
      have hrest := afterMeridian?_append hmeridian []
      rw [List.append_nil, ← hid] at hrest
      exact ⟨.utc, by rw [named?, hrest]; rfl, rfl⟩
  | ahead hmeridian htext hhours hminutes =>
      obtain ⟨o, ho, hseconds⟩ := exists_named?_signed hid hmeridian rfl htext hhours hminutes
      exact ⟨o, ho, by rw [hseconds, Int.one_mul]⟩
  | behind hmeridian htext hhours hminutes =>
      obtain ⟨o, ho, hseconds⟩ := exists_named?_signed hid hmeridian rfl htext hhours hminutes
      exact ⟨o, ho, by rw [hseconds, Int.neg_mul, Int.one_mul, Int.neg_mul]⟩

theorem named?_eq_some_iff {id : String} {o : UtcOffset} :
    named? id = some o ↔ Names id.toList o.seconds := by
  refine ⟨names_of_named?, fun h => ?_⟩
  obtain ⟨p, hp, hseconds⟩ := h.exists_named? rfl
  rw [hp, UtcOffset.eq_of_seconds hseconds]

/-! ## A careful reader -/

/-- What a name can fail at. -/
inductive NameFault where
  /-- It does not begin with the meridian. -/
  | meridian
  | sign
  /-- The text behind the sign has a length that no layout has, or cannot be split. -/
  | layout
  | digits
  /-- A numeral that is no 32-bit number. -/
  | numeral
  /-- Hours or minutes that no day has. -/
  | time
  /-- An offset that is refused although a day has its hours and minutes. -/
  | offset
deriving DecidableEq

/-- The length of a text in bytes. -/
def width : List Char → Nat
  | [] => 0
  | c :: cs => c.utf8Size + width cs

/-- A text in two, split after a number of bytes, unless that is within a character. -/
def splitBytes? : Nat → List Char → Option (List Char × List Char)
  | 0, cs => some ([], cs)
  | _ + 1, [] => none
  | n + 1, c :: cs =>
      if c.utf8Size ≤ n + 1 then
        (splitBytes? (n + 1 - c.utf8Size) cs).map fun (before, after) => (c :: before, after)
      else none

def diagnoseNumeral (cs : List Char) : Except NameFault Nat :=
  match nat? cs with
  | some n => if (n : Int) ≤ Int32.maxValue.toInt then .ok n else .error .numeral
  | none => .error .digits

def diagnosePair (hours minutes : List Char) : Except NameFault (Nat × Nat) := do
  return (← diagnoseNumeral hours, ← diagnoseNumeral minutes)

def diagnoseTime (cs : List Char) : Except NameFault (Nat × Nat) :=
  match splitColon cs with
  | some (hours, minutes) =>
      if width hours ≤ 2 ∧ width minutes = 2 then diagnosePair hours minutes else .error .layout
  | none =>
      if width cs = 1 ∨ width cs = 2 then do return (← diagnoseNumeral cs, 0)
      else if width cs = 3 ∨ width cs = 4 then
        match splitBytes? (width cs - 2) cs with
        | some (hours, minutes) => diagnosePair hours minutes
        | none => .error .layout
      else .error .layout

/-- The offset of a zone by its name, or what the name fails at. -/
def diagnose (id : String) : Except NameFault UtcOffset :=
  match afterMeridian? id.toList with
  | none => .error .meridian
  | some [] => .ok .utc
  | some (c :: cs) =>
      match direction? c with
      | none => .error .sign
      | some sign => do
          let (hours, minutes) ← diagnoseTime cs
          if hours ≤ 23 ∧ minutes ≤ 59 then
            match UtcOffset.ofSeconds? (sign * (hours * 60 + minutes) * 60) with
            | some o => .ok o
            | none => .error .offset
          else .error .time

/-! ## Bytes and characters -/

theorem length_le_width (cs : List Char) : cs.length ≤ width cs := by
  induction cs with
  | nil => exact Nat.le_refl 0
  | cons c cs ih =>
      have hc := c.utf8Size_pos
      simp only [width, List.length_cons] at ih ⊢
      omega

theorem utf8Size_of_isDigit {c : Char} (h : c.isDigit = true) : c.utf8Size = 1 := by
  obtain ⟨a, rfl⟩ := exists_digit h
  revert a
  decide

theorem width_of_isDigit {cs : List Char} (h : ∀ c ∈ cs, c.isDigit = true) :
    width cs = cs.length := by
  induction cs with
  | nil => rfl
  | cons c cs ih =>
      obtain ⟨hc, hcs⟩ := List.forall_mem_cons.mp h
      have ih := ih hcs
      simp only [width, List.length_cons, utf8Size_of_isDigit hc] at ih ⊢
      omega

theorem splitBytes?_spec {n : Nat} {cs before after : List Char}
    (h : splitBytes? n cs = some (before, after)) : cs = before ++ after ∧ width before = n := by
  fun_induction splitBytes? n cs generalizing before with
  | case1 cs =>
      cases h
      exact ⟨rfl, rfl⟩
  | case2 => cases h
  | case3 n c cs hsize ih =>
      obtain ⟨⟨front, back⟩, hsplit, heq⟩ := Option.map_eq_some_iff.mp h
      cases heq
      obtain ⟨rfl, hwidth⟩ := ih hsplit
      refine ⟨rfl, ?_⟩
      simp only [width] at hwidth ⊢
      omega
  | case4 => cases h

theorem width_append (cs ds : List Char) : width (cs ++ ds) = width cs + width ds := by
  induction cs with
  | nil => simp [width]
  | cons c cs ih =>
      rw [List.cons_append, width, width, ih, Nat.add_assoc]

/-! ## The careful reader finds the same zones -/

/-- What is read of a text: what the grammar says, or one of the two faults of its form. -/
inductive Diagnosed (cs : List Char) : Except NameFault (Nat × Nat) → Prop
  | time {h m : Nat} (htext : TimeText cs h m) : Diagnosed cs (.ok (h, m))
  | layout : Diagnosed cs (.error .layout)
  | digits : Diagnosed cs (.error .digits)

/-- A numeral of two digits at most is a 32-bit number. -/
theorem diagnoseNumeral_of_nat? {cs : List Char} {n : Nat} (hlen : cs.length ≤ 2)
    (h : nat? cs = some n) : diagnoseNumeral cs = .ok n := by
  have hn := nat?_lt_hundred hlen h
  have hmax : (n : Int) ≤ Int32.maxValue.toInt := by
    show (n : Int) ≤ 2147483647
    omega
  rw [diagnoseNumeral, h]
  exact if_pos hmax

theorem diagnoseNumeral_of_short {cs : List Char} (hlen : cs.length ≤ 2) :
    (∃ n, nat? cs = some n ∧ diagnoseNumeral cs = .ok n) ∨ diagnoseNumeral cs = .error .digits := by
  cases hread : nat? cs with
  | none => exact .inr (by rw [diagnoseNumeral, hread])
  | some n => exact .inl ⟨n, rfl, diagnoseNumeral_of_nat? hlen hread⟩

theorem diagnosed_pair {cs hours minutes : List Char} (hlen : hours.length ≤ 2)
    (mlen : minutes.length ≤ 2)
    (h : ∀ h m, nat? hours = some h → nat? minutes = some m → TimeText cs h m) :
    Diagnosed cs (diagnosePair hours minutes) := by
  rw [diagnosePair]
  rcases diagnoseNumeral_of_short hlen with ⟨n, hn, hread⟩ | hread
  · rcases diagnoseNumeral_of_short mlen with ⟨m, hm, hread'⟩ | hread'
    · rw [hread, hread']
      exact .time (h n m hn hm)
    · rw [hread, hread']
      exact .digits
  · rw [hread]
    exact .digits

theorem diagnosed (cs : List Char) : Diagnosed cs (diagnoseTime cs) := by
  -- What is measured in bytes is no longer in characters, so every numeral is short; and minutes of
  -- two bytes that are digits are two digits.
  have hminutes : ∀ {minutes : List Char} {m : Nat}, width minutes = 2 → nat? minutes = some m →
      minutes.length = 2 := by
    intro minutes m hwidth hread
    rw [← width_of_isDigit (nat?_eq_some_iff.mp hread).2.1, hwidth]
  rw [diagnoseTime, splitColon_eq]
  split
  · next hours minutes hsplit =>
      obtain ⟨rfl, -⟩ := splitAt?_eq_some_iff.mp hsplit
      split
      · next hwidth =>
          have hlen := length_le_width hours
          have mlen := length_le_width minutes
          exact diagnosed_pair (by omega) (by omega) fun h m hh hm =>
            .of_parted (by omega) (hminutes hwidth.2 hm) hh hm
      · exact .layout
  · have hlen := length_le_width cs
    split
    · have hshort : cs.length ≤ 2 := by omega
      rcases diagnoseNumeral_of_short hshort with ⟨n, hn, hread⟩ | hread
      · rw [hread]
        exact .time (.of_hours (by omega) hn)
      · rw [hread]
        exact .digits
    · split
      · next hlong =>
        split
        · next hours minutes hsplit =>
            obtain ⟨rfl, hwidth⟩ := splitBytes?_spec hsplit
            rw [width_append] at hlong hwidth
            have hlen := length_le_width hours
            have mlen := length_le_width minutes
            exact diagnosed_pair (by omega) (by omega) fun h m hh hm =>
              .of_joined (by omega) (hminutes (by omega) hm) hh hm
        · exact .layout
      · exact .layout

theorem TimeText.diagnoseTime {cs : List Char} {h m : Nat} (htext : TimeText cs h m) :
    diagnoseTime cs = .ok (h, m) := by
  have hsize : ∀ a, (digit a).utf8Size = 1 := fun a => utf8Size_of_isDigit (isDigit_digit a)
  have hone : ∀ a, diagnoseNumeral [digit a] = .ok a.val := fun a =>
    diagnoseNumeral_of_nat? (Nat.le_succ 1) (nat?_digit a)
  have htwo : ∀ a b, diagnoseNumeral [digit a, digit b] = .ok (10 * a + b : Nat) := fun a b =>
    diagnoseNumeral_of_nat? (Nat.le_refl 2) (nat?_two_digits a b)
  cases htext
  all_goals
    simp [Zone.diagnoseTime, splitColon, digit_ne_colon, width, hsize, splitBytes?, diagnosePair,
      hone, htwo, bind, Except.bind, pure, Except.pure]

theorem toOption_diagnoseTime (cs : List Char) : (diagnoseTime cs).toOption = hoursMinutes? cs := by
  have hread := diagnosed cs
  cases htime : hoursMinutes? cs with
  | some time => rw [(timeText_of_hoursMinutes? htime).diagnoseTime, Except.toOption]
  | none =>
      generalize diagnoseTime cs = read at hread
      cases hread with
      | time htext => cases htime.symm.trans htext.hoursMinutes?
      | layout => rfl
      | digits => rfl

/-- The careful reader agrees with the other, and two of its checks find nothing. -/
theorem diagnose_spec (id : String) :
    (diagnose id).toOption = named? id
      ∧ diagnose id ≠ .error .numeral ∧ diagnose id ≠ .error .offset := by
  rw [diagnose, named?]
  rcases afterMeridian? id.toList with _ | _ | ⟨c, cs⟩
  · exact ⟨rfl, by simp, by simp⟩
  · exact ⟨rfl, by simp, by simp⟩
  · cases hsign : direction? c with
    | none => simp [hsign, Except.toOption]
    | some sign =>
        simp only [hsign, Option.bind_eq_bind, Option.bind_some, ← toOption_diagnoseTime]
        have hread := diagnosed cs
        generalize diagnoseTime cs = read at hread ⊢
        cases hread with
        | layout => simp [bind, Except.bind, Except.toOption]
        | digits => simp [bind, Except.bind, Except.toOption]
        | @time h m htext =>
            by_cases hday : h ≤ 23 ∧ m ≤ 59
            · obtain ⟨o, ho⟩ := exists_ofSeconds? hsign hday.1 hday.2
              simp [bind, Except.bind, hday, ho, Except.toOption]
            · simp [bind, Except.bind, hday, Except.toOption]

/-- The names of zones are those of the grammar, each with the offset that it spells, and every other
text is refused. A reader that measures in bytes finds the same zones, and none is refused because a
numeral were no 32-bit number or because its offset were none. -/
theorem named_by_grammar (id : String) :
    (∀ o, named? id = some o ↔ Names id.toList o.seconds)
    ∧ (named? id = none ↔ ¬ ∃ seconds, Names id.toList seconds)
    ∧ (diagnose id).toOption = named? id
    ∧ diagnose id ≠ .error .numeral ∧ diagnose id ≠ .error .offset := by
  refine ⟨fun o => named?_eq_some_iff, ?_, diagnose_spec id⟩
  rw [Option.eq_none_iff_forall_ne_some]
  constructor
  · rintro hnone ⟨seconds, hnames⟩
    obtain ⟨o, ho, -⟩ := hnames.exists_named? rfl
    exact hnone o ho
  · intro hnames o ho
    exact hnames ⟨o.seconds, names_of_named? ho⟩

end Zone

end IdentityLine
