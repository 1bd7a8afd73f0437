import Mathlib.Data.List.TakeWhile
import IdentityLine.Proofs.CleanedAgain
import IdentityLine.Proofs.PrintedFields

/-!
# The address of last resort as it is printed

Who is not configured signs as the user of the system, at the address of that user at
this host, and both fields of the line are cleaned from the same text. It stands alone
in one of them and in front of an at sign in the other. In front it is cleaned alike,
but behind it the at sign keeps the trimming away: padding that the text ends in is
dropped from the name and stays in the address. Line breaks are dropped from both.

So the address is the name, what is left of that padding, and the at sign with the
host behind it.
-/

namespace IdentityLine

namespace Text

/-! ## Padding in front of an at sign -/

section Padding

variable {pad : Char → Bool}

theorem dropWhile_append_cons {c : Char} (hc : pad c = false) (front back : List Char) :
    (front ++ c :: back).dropWhile pad = front.dropWhile pad ++ c :: back := by
  by_cases h : ∃ b ∈ front, pad b = false
  · exact dropWhile_append_of_mem h
  · have hall : ∀ b ∈ front, pad b = true := by simpa using h
    rw [List.dropWhile_append_of_pos hall, dropWhile_eq_nil_iff.mpr hall, List.dropWhile_cons,
      if_neg (by simp [hc]), List.nil_append]

/-- A character that is no padding parts what is trimmed in front from what is trimmed behind. -/
theorem trim_append_cons {c : Char} (hc : pad c = false) (front back : List Char) :
    trim pad (front ++ c :: back) = front.dropWhile pad ++ trim pad (c :: back) := by
  have hback : (c :: back).dropWhile pad = c :: back := by
    rw [List.dropWhile_cons, if_neg (by simp [hc])]
  rw [trim, trim, dropWhile_append_cons hc, hback, List.reverse_append, List.reverse_cons,
    List.append_assoc, List.singleton_append, dropWhile_append_cons hc, dropWhile_append_cons hc]
  simp

theorem exists_trim_cons {c : Char} (hc : pad c = false) (back : List Char) :
    ∃ behind, trim pad (c :: back) = c :: behind := by
  refine ⟨(back.reverse.dropWhile pad).reverse, ?_⟩
  rw [trim, List.dropWhile_cons, if_neg (by simp [hc]), List.reverse_cons,
    dropWhile_append_cons hc, List.reverse_append]
  rfl

/-- The padding behind the last character that is none. -/
def trailing (pad : Char → Bool) (cs : List Char) : List Char :=
  ((cs.dropWhile pad).reverse.takeWhile pad).reverse

theorem trim_append_trailing (cs : List Char) :
    trim pad cs ++ trailing pad cs = cs.dropWhile pad := by
  rw [trim, trailing, ← List.reverse_append, List.takeWhile_append_dropWhile, List.reverse_reverse]

theorem trailing_of_pos {cs : List Char} (h : ∀ c ∈ cs, pad c = true) : trailing pad cs = [] := by
  rw [trailing, dropWhile_eq_nil_iff.mpr h]
  rfl

theorem trailing_append_cons {c : Char} (hc : pad c = false) (before : List Char)
    {after : List Char} (h : ∀ d ∈ after, pad d = true) :
    trailing pad (before ++ c :: after) = after := by
  have hreverse : ∀ d ∈ after.reverse, pad d = true := by simpa using h
  rw [trailing, dropWhile_append_cons hc, List.reverse_append, List.reverse_cons,
    List.append_assoc, List.takeWhile_append_of_pos hreverse, List.singleton_append,
    List.takeWhile_cons, if_neg (by simp [hc]), List.append_nil, List.reverse_reverse]

theorem pad_of_mem_trailing {cs : List Char} {c : Char} (h : c ∈ trailing pad cs) :
    pad c = true :=
  List.mem_takeWhile_imp (List.mem_reverse.mp h)

end Padding

/-- The last character above the space, and behind it this. -/
def EndsBefore (s : String) (after : List Char) : Prop :=
  ∃ before c, s.toList = before ++ c :: after ∧ ' ' < c ∧ ∀ d ∈ after, d ≤ ' '

theorem trailing_of_endsBefore {s : String} {after : List Char} (h : EndsBefore s after) :
    trailing isPadding s.toList = after := by
  obtain ⟨before, c, hsplit, hc, hafter⟩ := h
  rw [hsplit]
  exact trailing_append_cons (isPadding_eq_false_iff_lt.mpr hc) before fun d hd =>
    decide_eq_true (hafter d hd)

theorem endsBefore_trailing {s : String} (h : ∃ c ∈ s.toList, ' ' < c) :
    EndsBefore s (trailing isPadding s.toList) := by
  have hne : trim isPadding s.toList ≠ [] := by
    intro hnil
    obtain ⟨c, hc, habove⟩ := h
    have hpadding := trim_eq_nil_iff.mp hnil c hc
    rw [isPadding_eq_false_iff_lt.mpr habove] at hpadding
    cases hpadding
  obtain ⟨front, last, hlast⟩ : ∃ front last, trim isPadding s.toList = front ++ [last] :=
    ⟨_, _, (List.dropLast_concat_getLast hne).symm⟩
  have hsplit := @trim_append_trailing isPadding s.toList
  refine ⟨s.toList.takeWhile isPadding ++ front, last, ?_, ?_, ?_⟩
  · rw [hlast, List.append_assoc, List.singleton_append] at hsplit
    rw [List.append_assoc, hsplit, List.takeWhile_append_dropWhile]
  · apply isPadding_eq_false_iff_lt.mp
    exact not_pad_of_getLast?_trim (hlast ▸ List.getLast?_concat)
  · exact fun d hd => of_decide_eq_true (pad_of_mem_trailing hd)

/-- What is left between a name and the at sign behind it. -/
def between (s : String) : String :=
  String.ofList ((trailing isPadding s.toList).filter (· ≠ '\n'))

theorem between_of_endsBefore {s : String} {after : List Char} (h : EndsBefore s after) :
    (between s).toList = after.filter (· ≠ '\n') := by
  rw [between, String.toList_ofList, trailing_of_endsBefore h]

theorem between_of_padding {s : String} (h : ∀ c ∈ s.toList, c ≤ ' ') : between s = "" := by
  have hnone : trailing isPadding s.toList = [] :=
    trailing_of_pos fun c hc => decide_eq_true (h c hc)
  rw [between, hnone]
  rfl

theorem between_eq_empty_iff {s : String} :
    between s = "" ↔ ∀ after, EndsBefore s after → ∀ c ∈ after, c = '\n' := by
  have hall : ∀ after : List Char,
      after.filter (· ≠ '\n') = [] ↔ ∀ c ∈ after, c = '\n' := by
    intro after
    simp [List.filter_eq_nil_iff]
  constructor
  · intro h after hends
    rw [← hall, ← between_of_endsBefore hends, h]
    rfl
  · intro h
    by_cases habove : ∃ c ∈ s.toList, ' ' < c
    · have hends := endsBefore_trailing habove
      rw [← String.toList_eq_nil_iff, between_of_endsBefore hends, hall]
      exact h _ hends
    · apply between_of_padding
      intro c hc
      exact Char.not_lt.mp fun hlt => habove ⟨c, hc, hlt⟩

/-- In front of an at sign a text is cleaned as it is alone, but for the padding that it ends in. -/
theorem sanitize_append_at (user host : String) :
    sanitize (user ++ "@" ++ host) = sanitize user ++ between user ++ sanitize ("@" ++ host) := by
  have hat : "@".toList = ['@'] := rfl
  have hbetween : (trailing isPadding user.toList).filter (fun c => !isDelimiter c)
      = (between user).toList := by
    rw [between, String.toList_ofList]
    refine List.filter_congr fun c hc => ?_
    -- No padding is a bracket, so the only delimiter there can be is a line break.
    have hbracket : isBracket c = false := by
      cases h : isBracket c with
      | true =>
          have hpadding := isPadding_of_isBracket h
          rw [pad_of_mem_trailing hc] at hpadding
          cases hpadding
      | false => rfl
    rw [isBracket, Bool.or_eq_false_iff] at hbracket
    simp [isDelimiter, hbracket, beq_eq_decide]
  rw [← String.toList_inj]
  simp only [String.toList_append, toList_sanitize, hat, List.append_assoc, List.singleton_append]
  rw [clean, trim_append_cons (by decide), ← trim_append_trailing, List.filter_append,
    List.filter_append, hbetween, List.append_assoc]
  rfl

theorem exists_sanitize_at (host : String) : ∃ behind, sanitize ("@" ++ host) = "@" ++ behind := by
  obtain ⟨behind, hbehind⟩ := @exists_trim_cons isPadding '@' rfl host.toList
  refine ⟨String.ofList (behind.filter fun c => !isDelimiter c), ?_⟩
  have hat : ∀ s : String, ("@" ++ s).toList = '@' :: s.toList := by
    intro s
    rw [String.toList_append]
    rfl
  rw [← String.toList_inj, toList_sanitize, hat, hat, clean, hbehind, String.toList_ofList]
  exact List.filter_cons_of_pos rfl

/-- The at sign comes right behind the name when there is nothing between them, as nothing between
them is one. -/
theorem exists_at_iff (name user host : String) :
    (∃ behind, name ++ between user ++ sanitize ("@" ++ host) = name ++ "@" ++ behind) ↔
      between user = "" := by
  obtain ⟨rest, hrest⟩ := exists_sanitize_at host
  constructor
  · rintro ⟨behind, hbehind⟩
    rw [← String.toList_inj] at hbehind
    simp only [String.toList_append, List.append_assoc, List.append_cancel_left_eq] at hbehind
    cases hkept : (between user).toList with
    | nil => exact String.toList_eq_nil_iff.mp hkept
    | cons c cs =>
        rw [hkept] at hbehind
        obtain rfl : c = '@' := (List.cons.inj hbehind).1
        have hmem : '@' ∈ (between user).toList := by
          rw [hkept]
          exact List.mem_cons_self
        rw [between, String.toList_ofList] at hmem
        have hpadding := pad_of_mem_trailing (List.mem_filter.mp hmem).1
        cases hpadding
  · intro h
    exact ⟨rest, by rw [h, hrest, String.append_empty, String.append_assoc]⟩

end Text

/-- Who is not configured is printed with an address that follows from the name. It is the name that
is printed, then of what follows the last character above the space everything but line breaks, then
an at sign and the host. So it starts with the name and an at sign exactly when nothing but line
breaks follows that character. -/
theorem system_email_follows_name {s : Settings} (h : s.user = {}) {env : Environment}
    {user : String} (huser : env.user? = some user) (host : HostReply) (zone : Zone)
    (clock : Clock) (time : TimeChoice) :
    ∃ line fields kept,
      Command.printed (s.user.signer env host) zone clock (.committer time false) = .ok line
      ∧ LineFields.ofLine? line = some fields
      ∧ fields.name = Text.sanitize user
      ∧ fields.email = fields.name ++ kept ++ Text.sanitize ("@" ++ host.name)
      ∧ (∀ after, Text.EndsBefore user after → kept.toList = after.filter (· ≠ '\n'))
      ∧ ((∀ c ∈ user.toList, c ≤ ' ') → kept = "")
      ∧ ((∃ behind, fields.email = fields.name ++ "@" ++ behind) ↔
        ∀ after, Text.EndsBefore user after → ∀ c ∈ after, c = '\n') := by
  have hname : (s.user.signer env host).name = some user := by
    rw [h]
    exact huser
  have hemail : (s.user.signer env host).email = some (user ++ "@" ++ host.name) := by
    rw [h]
    show env.user?.map (fun user => user ++ "@" ++ host.name) = _
    rw [huser]
    rfl
  have hprinted := (Command.run_printSigner (s.user.signer env host) zone clock time
    fun i => Command.render i false).1
  rw [Identity.ofOptions, hname, hemail] at hprinted
  refine ⟨_, _, Text.between user, hprinted, Identity.ofLine?_line _, rfl,
    Text.sanitize_append_at user host.name, fun after => Text.between_of_endsBefore,
    Text.between_of_padding, ?_⟩
  rw [← Text.between_eq_empty_iff, ← Text.exists_at_iff (Text.sanitize user) user host.name]
  dsimp only
  rw [Text.sanitize_append_at]

/-- A line break behind the user's name makes no difference to the address. -/
theorem system_email_follows_name_line :
    let s : Settings := {}
    let env := Environment.empty.set "USER" (some "bo\n".toUTF8.toList)
    let host := HostReply.ofName 0 "box".toUTF8.toList
    s.user = {} ∧ env.user? = some "bo\n"
      ∧ ∃ line fields behind,
        Command.printed (s.user.signer env host) .utc (.stopped 0) (.committer {} false) = .ok line
        ∧ LineFields.ofLine? line = some fields ∧ fields.email = fields.name ++ "@" ++ behind := by
  intro s env host
  have huser : env.user? = some "bo\n" := by decide +kernel
  obtain ⟨line, fields, kept, hline, hfields, -, -, -, -, hfollows⟩ :=
    system_email_follows_name (s := s) rfl huser host .utc (.stopped 0) {}
  have hbreaks : ∀ after, Text.EndsBefore "bo\n" after → ∀ c ∈ after, c = '\n' := by
    apply Text.between_eq_empty_iff.mp
    decide +kernel
  obtain ⟨behind, hbehind⟩ := hfollows.mpr hbreaks
  exact ⟨rfl, huser, line, fields, behind, hline, hfields, hbehind⟩

/-- A blank behind the user's name stays in the address, and parts it from the at sign. -/
theorem system_email_parted :
    let s : Settings := {}
    let env := Environment.empty.set "USER" (some "bo ".toUTF8.toList)
    let host := HostReply.ofName 0 "box".toUTF8.toList
    s.user = {} ∧ env.user? = some "bo "
      ∧ Command.printed (s.user.signer env host) .utc (.stopped 0) (.committer {} false)
        = .ok "bo <bo @box> 0 +0000"
      ∧ (LineFields.ofLine? "bo <bo @box> 0 +0000").map LineFields.name = some "bo"
      ∧ ∀ behind, "bo @box" ≠ "bo" ++ "@" ++ behind := by
  intro s env host
  refine ⟨rfl, by decide +kernel, Settings.eq_ok_of_toOption (by decide +kernel),
    by decide +kernel, ?_⟩
  intro behind hbehind
  rw [← String.toList_inj, String.toList_append, String.toList_append] at hbehind
  have hthird : "bo @box".toList[2]? = ("bo".toList ++ "@".toList)[2]? := by
    rw [hbehind, List.getElem?_append_left (by decide)]
  revert hthird
  decide

end IdentityLine
