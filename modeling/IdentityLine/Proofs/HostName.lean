import IdentityLine.Proofs.LevelNames
import IdentityLine.Proofs.TextBytes

/-!
# A host always has a name

The system leaves a buffer behind and a code that says what to make of it, and both
can be anything: a name with no zero byte behind it, a character cut short by the end
of the buffer, bytes that were never a text. A name is made of all of them.

What has something in it is the decoding. `Replaced` says what a text with
replacements is without a decoder: bytes are cut into characters and into parts that
no character begins with, each as long as it can be while it could still have become
a character. The decoder never looks further ahead than the byte behind such a part,
so other bytes can be put behind that one, and that is how a longer part is refuted.
-/

namespace IdentityLine

namespace Utf8

/-! ## Invalid parts -/

/-- With the right bytes behind them, these are a character. -/
def Begins (part : List UInt8) : Prop :=
  ∃ c, part <+: String.utf8EncodeChar c

/-- No character stands in front of the bytes, and this is how far they go on like one: one byte
if no character begins with it. -/
structure IsInvalidPart (part rest : List UInt8) : Prop where
  nonempty : part ≠ []
  no_char : ∀ c, ¬ String.utf8EncodeChar c <+: part ++ rest
  begins : part.length = 1 ∨ Begins part
  maximal : ∀ longer, longer <+: part ++ rest → Begins longer → longer.length ≤ part.length

/-- The characters are those that the bytes encode, with U+FFFD for every maximal invalid part. -/
inductive Replaced : List UInt8 → List Char → Prop
  | nil : Replaced [] []
  | char (c : Char) {rest : List UInt8} {cs : List Char} (h : Replaced rest cs) :
      Replaced (String.utf8EncodeChar c ++ rest) (c :: cs)
  | invalid {part rest : List UInt8} {cs : List Char} (hpart : IsInvalidPart part rest)
      (h : Replaced rest cs) : Replaced (part ++ rest) ('\uFFFD' :: cs)

/-- Where a first byte and those behind it stop being like a character, before the next byte or at
the end. -/
inductive Broken (b : UInt8) (next : Option UInt8) : List UInt8 → Prop
  | first (hone : ¬ b < 0x80) (htwo : ¬ (0xC2 ≤ b && b ≤ 0xDF) = true)
      (hthree : ¬ (0xE0 ≤ b && b ≤ 0xEF) = true) (hfour : ¬ (0xF0 ≤ b && b ≤ 0xF4) = true) :
      Broken b next []
  | pair (hb : (0xC2 ≤ b && b ≤ 0xDF) = true) (h : next.any isTail = false) : Broken b next []
  | second (hb : (0xE0 ≤ b && b ≤ 0xF4) = true) (h : next.any (isSecond b) = false) :
      Broken b next []
  | third {b2 : UInt8} (hb : (0xE0 ≤ b && b ≤ 0xF4) = true) (h2 : isSecond b b2 = true)
      (h : next.any isTail = false) : Broken b next [b2]
  | fourth {b2 b3 : UInt8} (hb : (0xF0 ≤ b && b ≤ 0xF4) = true) (h2 : isSecond b b2 = true)
      (h3 : isTail b3 = true) (h : next.any isTail = false) : Broken b next [b2, b3]

theorem inRange_wider {lo hi lo' hi' b : UInt8} (h : (lo ≤ b && b ≤ hi) = true) (hlo : lo' ≤ lo)
    (hhi : hi ≤ hi') : (lo' ≤ b && b ≤ hi') = true := by
  have hb := inRange_iff.mp h
  rw [UInt8.le_iff_toNat_le] at hlo hhi
  rw [inRange_iff]
  omega

theorem inRange_parted {b : UInt8} (h : (0xE0 ≤ b && b ≤ 0xF4) = true) :
    (0xE0 ≤ b && b ≤ 0xEF) = true ∨ (0xF0 ≤ b && b ≤ 0xF4) = true := by
  rw [inRange_iff] at h
  rw [inRange_iff, inRange_iff]
  simp only [UInt8.reduceToNat] at h ⊢
  omega

theorem broken_of_piece {b : UInt8} {bs rest : List UInt8} (h : piece b bs = .invalid rest) :
    ∃ tail, bs = tail ++ rest ∧ Broken b rest.head? tail := by
  have hthree : (0xE0 ≤ b && b ≤ 0xEF) = true → (0xE0 ≤ b && b ≤ 0xF4) = true := fun hb =>
    inRange_wider hb (by decide) (by decide)
  have hfour : (0xF0 ≤ b && b ≤ 0xF4) = true → (0xE0 ≤ b && b ≤ 0xF4) = true := fun hb =>
    inRange_wider hb (by decide) (by decide)
  unfold piece at h
  repeat' split at h
  all_goals cases h
  · next hb _ _ _ hnext => exact ⟨[], rfl, .pair hb (by simpa using hnext)⟩
  · next hb _ => exact ⟨[], rfl, .pair hb rfl⟩
  · next hb _ b2 h2 _ _ _ hnext => exact ⟨[b2], rfl, .third (hthree hb) h2 (by simpa using hnext)⟩
  · next hb _ b2 h2 _ => exact ⟨[b2], rfl, .third (hthree hb) h2 rfl⟩
  · next hb _ _ _ hnext => exact ⟨[], rfl, .second (hthree hb) (by simpa using hnext)⟩
  · next hb _ => exact ⟨[], rfl, .second (hthree hb) rfl⟩
  · next hb _ b2 h2 _ b3 h3 _ _ _ hnext =>
      exact ⟨[b2, b3], rfl, .fourth hb h2 h3 (by simpa using hnext)⟩
  · next hb _ b2 h2 _ b3 h3 _ => exact ⟨[b2, b3], rfl, .fourth hb h2 h3 rfl⟩
  · next hb _ b2 h2 _ _ _ hnext => exact ⟨[b2], rfl, .third (hfour hb) h2 (by simpa using hnext)⟩
  · next hb _ b2 h2 _ => exact ⟨[b2], rfl, .third (hfour hb) h2 rfl⟩
  · next hb _ _ _ hnext => exact ⟨[], rfl, .second (hfour hb) (by simpa using hnext)⟩
  · next hb _ => exact ⟨[], rfl, .second (hfour hb) rfl⟩
  · next hone htwo hthree hfour => exact ⟨[], rfl, .first hone htwo hthree hfour⟩

theorem piece_of_broken {b : UInt8} {tail rest : List UInt8} (h : Broken b rest.head? tail) :
    piece b (tail ++ rest) = .invalid rest := by
  unfold piece
  cases h with
  | first hone htwo hthree hfour =>
      rw [if_neg hone, if_neg htwo, if_neg hthree, if_neg hfour, List.nil_append]
  | pair hb h =>
      rw [if_neg (not_lt_of_inRange hb (by decide)), if_pos hb]
      cases rest with
      | nil => rfl
      | cons x xs => exact if_neg (by simpa using h)
  | second hb h =>
      rw [if_neg (not_lt_of_inRange hb (by decide)),
        if_neg (not_inRange_of_inRange hb (by decide))]
      rcases inRange_parted hb with hthree | hfour
      · rw [if_pos hthree]
        cases rest with
        | nil => rfl
        | cons x xs => exact if_neg (by simpa using h)
      · rw [if_neg (not_inRange_of_inRange hfour (by decide)), if_pos hfour]
        cases rest with
        | nil => rfl
        | cons x xs => exact if_neg (by simpa using h)
  | third hb h2 h =>
      rw [if_neg (not_lt_of_inRange hb (by decide)),
        if_neg (not_inRange_of_inRange hb (by decide))]
      rcases inRange_parted hb with hthree | hfour
      · rw [if_pos hthree]
        refine (if_pos h2).trans ?_
        cases rest with
        | nil => rfl
        | cons x xs => exact if_neg (by simpa using h)
      · rw [if_neg (not_inRange_of_inRange hfour (by decide)), if_pos hfour]
        refine (if_pos h2).trans ?_
        cases rest with
        | nil => rfl
        | cons x xs => exact if_neg (by simpa using h)
  | fourth hb h2 h3 h =>
      rw [if_neg (not_lt_of_inRange hb (by decide)),
        if_neg (not_inRange_of_inRange hb (by decide)),
        if_neg (not_inRange_of_inRange hb (by decide)), if_pos hb]
      refine (if_pos h2).trans ((if_pos h3).trans ?_)
      cases rest with
      | nil => rfl
      | cons x xs => exact if_neg (by simpa using h)

theorem begins_of_broken {b : UInt8} {next : Option UInt8} {tail : List UInt8}
    (h : Broken b next tail) : tail = [] ∨ Begins (b :: tail) := by
  -- The first tail byte there is completes what was begun.
  have htail : isTail 0x80 = true := by decide
  cases h with
  | first => exact Or.inl rfl
  | pair => exact Or.inl rfl
  | second => exact Or.inl rfl
  | third hb h2 =>
      right
      rcases inRange_parted hb with hthree | hfour
      · exact ⟨_, _, eq_utf8EncodeChar_of_spells (.three hthree h2 htail)⟩
      · exact ⟨_, _, eq_utf8EncodeChar_of_spells (.four hfour h2 htail htail)⟩
  | fourth hb h2 h3 =>
      right
      exact ⟨_, _, eq_utf8EncodeChar_of_spells (.four hb h2 h3 htail)⟩

/-- Where the bytes begin with a character, that is what is taken. -/
theorem piece_of_prefix {b : UInt8} {bs : List UInt8} {c : Char}
    (h : String.utf8EncodeChar c <+: b :: bs) : ∃ rest, piece b bs = .scalar c rest := by
  obtain ⟨rest, hrest⟩ := h
  have hspells := spells_utf8EncodeChar c
  cases hseq : String.utf8EncodeChar c with
  | nil =>
      rw [hseq] at hspells
      cases hspells
  | cons d ds =>
      rw [hseq] at hspells hrest
      obtain ⟨rfl, rfl⟩ := List.cons.inj hrest
      exact ⟨rest, piece_of_spells hspells⟩

theorem isInvalidPart_of_piece {b : UInt8} {bs rest : List UInt8}
    (h : piece b bs = .invalid rest) :
    ∃ tail, bs = tail ++ rest ∧ IsInvalidPart (b :: tail) rest := by
  obtain ⟨tail, rfl, hbroken⟩ := broken_of_piece h
  refine ⟨tail, rfl, List.cons_ne_nil b tail, ?_, ?_, ?_⟩
  · intro c hc
    obtain ⟨rest', hscalar⟩ := piece_of_prefix hc
    cases h.symm.trans hscalar
  · rcases begins_of_broken hbroken with rfl | hbegins
    · exact Or.inl rfl
    · exact Or.inr hbegins
  · intro longer hlonger ⟨c, suffix, hc⟩
    apply Nat.le_of_not_lt
    intro hlt
    -- The longer part holds the byte that breaks the shorter one, and its character is broken too.
    obtain ⟨behind, rfl⟩ : b :: tail <+: longer :=
      List.prefix_of_prefix_length_le (List.prefix_append _ _) hlonger (Nat.le_of_lt hlt)
    rw [List.prefix_append_right_inj] at hlonger
    cases behind with
    | nil => simp at hlt
    | cons x xs =>
        obtain ⟨more, rfl⟩ := hlonger
        have hpiece : piece b (tail ++ x :: (xs ++ suffix)) = .invalid (x :: (xs ++ suffix)) :=
          piece_of_broken hbroken
        have hwhole : String.utf8EncodeChar c <+: b :: (tail ++ x :: (xs ++ suffix)) := by
          rw [← hc]
          simp
        obtain ⟨rest', hscalar⟩ := piece_of_prefix hwhole
        cases hpiece.symm.trans hscalar

/-- There is only one invalid part that bytes can begin with. -/
theorem IsInvalidPart.unique {part rest part' rest' : List UInt8} (h : IsInvalidPart part rest)
    (h' : IsInvalidPart part' rest') (hsame : part ++ rest = part' ++ rest') :
    part = part' ∧ rest = rest' := by
  have hle : ∀ {p r q s : List UInt8}, IsInvalidPart p r → IsInvalidPart q s →
      p ++ r = q ++ s → p.length ≤ q.length := by
    intro p r q s hp hq heq
    rcases hp.begins with hone | hbegins
    · rw [hone]
      exact List.length_pos_iff.mpr hq.nonempty
    · exact hq.maximal p ⟨r, heq⟩ hbegins
  exact List.append_inj hsame (Nat.le_antisymm (hle h h' hsame) (hle h' h hsame.symm))

/-! ## Decoding with replacements -/

theorem replaced_decodeLossy (bytes : List UInt8) :
    Replaced bytes (decodeLossy bytes).toList := by
  rw [decodeLossy, String.toList_ofList]
  fun_induction pieces bytes with
  | case1 => exact .nil
  | case2 b bs c rest h ih =>
      obtain ⟨seq, hspells, hseq⟩ := spells_of_piece h
      rw [hseq, eq_utf8EncodeChar_of_spells hspells]
      exact .char c ih
  | case3 b bs rest h ih =>
      obtain ⟨tail, rfl, hpart⟩ := isInvalidPart_of_piece h
      exact .invalid hpart ih

theorem piece_of_isInvalidPart {b : UInt8} {tail rest : List UInt8}
    (h : IsInvalidPart (b :: tail) rest) : piece b (tail ++ rest) = .invalid rest := by
  cases hpiece : piece b (tail ++ rest) with
  | scalar c rest' =>
      obtain ⟨seq, hspells, hseq⟩ := spells_of_piece hpiece
      rw [eq_utf8EncodeChar_of_spells hspells] at hseq
      exact absurd ⟨rest', hseq.symm⟩ (h.no_char c)
  | invalid rest' =>
      obtain ⟨tail', htail, hpart⟩ := isInvalidPart_of_piece hpiece
      rw [(h.unique hpart (congrArg (b :: ·) htail)).2]

theorem Replaced.eq_decodeLossy {bytes : List UInt8} {cs : List Char} (h : Replaced bytes cs) :
    (decodeLossy bytes).toList = cs := by
  rw [decodeLossy, String.toList_ofList]
  induction h with
  | nil => rw [pieces, List.map_nil]
  | char c _ ih => rw [pieces_append, List.map_cons, ih, Option.getD_some]
  | @invalid part rest cs hpart _ ih =>
      cases part with
      | nil => exact absurd rfl hpart.nonempty
      | cons b tail =>
          rw [List.cons_append, pieces_cons, piece_of_isInvalidPart hpart]
          simp only [List.map_cons, ih, Option.getD_none]

/-- A text with replacements is made of its bytes in one way. -/
theorem replaced_iff {bytes : List UInt8} {cs : List Char} :
    Replaced bytes cs ↔ cs = (decodeLossy bytes).toList := by
  constructor
  · exact fun h => h.eq_decodeLossy.symm
  · intro h
    rw [h]
    exact replaced_decodeLossy bytes

/-- Characters in front of what is decoded stay what they are. -/
theorem Replaced.append_text {rest : List UInt8} {ds : List Char} (cs : List Char)
    (h : Replaced rest ds) : Replaced (cs.flatMap String.utf8EncodeChar ++ rest) (cs ++ ds) := by
  induction cs with
  | nil => exact h
  | cons c cs ih =>
      rw [List.flatMap_cons, List.append_assoc]
      exact .char c ih

/-- No character is a zero that was not there. -/
theorem Replaced.no_zero {bytes : List UInt8} {cs : List Char} (h : Replaced bytes cs)
    (hbytes : 0 ∉ bytes) : '\x00' ∉ cs := by
  induction h with
  | nil => exact List.not_mem_nil
  | char c _ ih =>
      rw [List.mem_append, not_or] at hbytes
      rw [List.mem_cons, not_or]
      refine ⟨?_, ih hbytes.2⟩
      intro hc
      rw [← hc] at hbytes
      exact hbytes.1 (by decide)
  | invalid _ _ ih =>
      rw [List.mem_append, not_or] at hbytes
      rw [List.mem_cons, not_or]
      exact ⟨by decide, ih hbytes.2⟩

end Utf8

namespace HostReply

/-! ## The name -/

/-- The bytes of the name that was put into the buffer: all of it, or what comes before a zero. -/
def Holds (reply : HostReply) (bytes : List UInt8) : Prop :=
  0 ∉ bytes ∧ (reply.buffer = bytes ∨ ∃ behind, reply.buffer = bytes ++ 0 :: behind)

theorem holds_iff {reply : HostReply} {bytes : List UInt8} :
    reply.Holds bytes ↔ bytes = reply.buffer.takeWhile (· ≠ 0) := by
  have hkept : ∀ {bs : List UInt8}, 0 ∉ bs → ∀ b ∈ bs, decide (b ≠ 0) = true := by
    intro bs hbs b hb
    rw [decide_eq_true_eq]
    rintro rfl
    exact hbs hb
  constructor
  · rintro ⟨hzero, hbuffer | ⟨behind, hbuffer⟩⟩
    · rw [hbuffer, List.takeWhile_eq_self_iff.mpr (hkept hzero)]
    · rw [hbuffer, List.takeWhile_append_of_pos (hkept hzero)]
      simp
  · intro h
    have hzero : 0 ∉ bytes := by
      intro hmem
      rw [h] at hmem
      have hne := List.mem_takeWhile_imp hmem
      simp at hne
    refine ⟨hzero, ?_⟩
    have hsplit : bytes ++ reply.buffer.dropWhile (· ≠ 0) = reply.buffer := by
      rw [h, List.takeWhile_append_dropWhile]
    cases hbehind : reply.buffer.dropWhile (· ≠ 0) with
    | nil =>
        left
        rw [← hsplit, hbehind, List.append_nil]
    | cons b behind =>
        right
        have hb : b = 0 := by
          have hhead := List.head?_dropWhile_not (fun b : UInt8 => decide (b ≠ 0)) reply.buffer
          rw [hbehind] at hhead
          simpa using hhead
        exact ⟨behind, by rw [← hsplit, hbehind, hb]⟩

/-- What the buffer says once white space is trimmed. -/
def said (reply : HostReply) : List Char :=
  Text.trim Text.isBlank (Utf8.decodeLossy (reply.buffer.takeWhile (· ≠ 0))).toList

theorem name_of_silent {reply : HostReply} (h : reply.code ≠ 0 ∨ reply.said = []) :
    reply.name = "localhost" := by
  rw [name]
  split
  · rfl
  · next hcode =>
      have hsaid : reply.said = [] := h.resolve_left hcode
      rw [Text.trimBlank, ← said, hsaid]
      rfl

theorem name_of_said {reply : HostReply} (hcode : reply.code = 0) (h : reply.said ≠ []) :
    reply.name.toList = reply.said := by
  have hname : String.ofList reply.said ≠ "" := by
    intro hempty
    exact h (String.ofList_eq_empty_iff.mp hempty)
  rw [name, if_neg (not_not_intro hcode), Text.trimBlank, ← said, if_neg hname,
    String.toList_ofList]

/-- The name of a host can be used: there is something in it, no zero, and no white space at an
end. -/
structure IsUsable (name : String) : Prop where
  nonempty : name ≠ ""
  no_zero : '\x00' ∉ name.toList
  first : ∀ c, name.toList.head? = some c → Text.isBlank c = false
  last : ∀ c, name.toList.getLast? = some c → Text.isBlank c = false

theorem isUsable_localhost : IsUsable "localhost" := by
  refine ⟨by decide, by decide, ?_, ?_⟩
  · intro c hc
    obtain rfl : 'l' = c := Option.some.inj hc
    decide
  · intro c hc
    obtain rfl : 't' = c := Option.some.inj hc
    decide

theorem isUsable_said {reply : HostReply} {name : String} (hname : name.toList = reply.said)
    (h : reply.said ≠ []) : IsUsable name := by
  have hzero : '\x00' ∉ (Utf8.decodeLossy (reply.buffer.takeWhile (· ≠ 0))).toList :=
    (Utf8.replaced_decodeLossy _).no_zero (holds_iff.mpr rfl).1
  refine ⟨?_, ?_, ?_, ?_⟩
  · intro hempty
    rw [hempty] at hname
    exact h hname.symm
  · intro hmem
    rw [hname] at hmem
    exact hzero (Text.mem_of_mem_trim hmem)
  · intro c hc
    rw [hname] at hc
    exact Text.not_pad_of_head?_trim hc
  · intro c hc
    rw [hname] at hc
    exact Text.not_pad_of_getLast?_trim hc

theorem isUsable_name (reply : HostReply) : IsUsable reply.name := by
  by_cases h : reply.code ≠ 0 ∨ reply.said = []
  · rw [name_of_silent h]
    exact isUsable_localhost
  · obtain ⟨hcode, hsaid⟩ := not_or.mp h
    exact isUsable_said (name_of_said (not_not.mp hcode) hsaid) hsaid

/-- A host is always named. The name is not empty, holds no zero and has no white space at its
ends. It is the local host's if the system did not know one or all that was left in the buffer is
white space. Otherwise it is what was left, up to the first zero and without the white space around
it, with U+FFFD for every maximal part that is not text. What comes behind the zero makes no
difference. -/
theorem always_named (reply : HostReply) :
    IsUsable reply.name
    ∧ ∃ bytes text, (∀ other, reply.Holds other ↔ other = bytes)
      ∧ (∀ cs, Utf8.Replaced bytes cs ↔ cs = text)
      ∧ (reply.code ≠ 0 ∨ (∀ c ∈ text, Text.isBlank c = true) → reply.name = "localhost")
      ∧ (reply.code = 0 → (∃ c ∈ text, Text.isBlank c = false) →
          ∃ front back, text = front ++ reply.name.toList ++ back
            ∧ (∀ c ∈ front, Text.isBlank c = true) ∧ ∀ c ∈ back, Text.isBlank c = true)
      ∧ ∀ other : HostReply, other.code = reply.code → other.Holds bytes →
          other.name = reply.name := by
  refine ⟨isUsable_name reply, reply.buffer.takeWhile (· ≠ 0), _, fun other => holds_iff,
    fun cs => Utf8.replaced_iff, ?_, ?_, ?_⟩
  · intro h
    exact name_of_silent (h.imp id trim_eq_nil_iff.mpr)
  · intro hcode hseen
    have hsaid : reply.said ≠ [] := by
      intro hnil
      obtain ⟨c, hc, hblank⟩ := hseen
      rw [trim_eq_nil_iff.mp hnil c hc] at hblank
      cases hblank
    rw [name_of_said hcode hsaid]
    exact Text.exists_trim Text.isBlank _
  · intro other hcode hholds
    rw [name, name, hcode, ← holds_iff.mp hholds]

/-- A name that fills the buffer, with a blank in front and its last character cut short. -/
theorem always_named_cut :
    let reply := HostReply.ofName 0 (32 :: List.replicate 253 97 ++ String.utf8EncodeChar '€')
    let text := ' ' :: List.replicate 253 'a' ++ ['\uFFFD']
    reply.code = 0 ∧ reply.buffer.length = 256 ∧ reply.Holds reply.buffer
      ∧ Utf8.Replaced reply.buffer text ∧ (∃ c ∈ text, Text.isBlank c = false)
      ∧ ∃ front back, text = front ++ reply.name.toList ++ back
        ∧ (∀ c ∈ front, Text.isBlank c = true) ∧ ∀ c ∈ back, Text.isBlank c = true := by
  intro reply text
  have hlength : reply.buffer.length = 256 := by decide +kernel
  have hholds : reply.Holds reply.buffer := ⟨by decide +kernel, Or.inl rfl⟩
  have htext : Utf8.Replaced reply.buffer text := by
    obtain ⟨tail, htail, hpart⟩ := @Utf8.isInvalidPart_of_piece 0xE2 [0x82] [] rfl
    have hcut := Utf8.Replaced.invalid hpart .nil
    rw [List.cons_append, ← htail] at hcut
    have hbuffer : reply.buffer =
        (' ' :: List.replicate 253 'a').flatMap String.utf8EncodeChar ++ [0xE2, 0x82] := by
      decide +kernel
    rw [hbuffer]
    exact hcut.append_text _
  have hseen : ∃ c ∈ text, Text.isBlank c = false :=
    ⟨'\uFFFD', List.mem_append_right _ List.mem_cons_self, by decide⟩
  obtain ⟨-, bytes, text', hbytes, htext', -, hname, -⟩ := always_named reply
  rw [← (hbytes reply.buffer).mp hholds] at htext'
  rw [← (htext' text).mp htext] at hname
  exact ⟨rfl, hlength, hholds, htext, hseen, hname rfl hseen⟩

end HostReply

end IdentityLine
