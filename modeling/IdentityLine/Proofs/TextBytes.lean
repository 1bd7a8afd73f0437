import IdentityLine.Environment

/-!
# The bytes of a text

What the system hands over are bytes, and they count as a text exactly when they are
the bytes of one. The reader of bytes takes one character after another off the
front and never looks back, so all there is to show is what it takes: a sequence of
one to four bytes that spells a character, and every character is spelt by one
sequence only.
-/

namespace IdentityLine

namespace Utf8

/-! ## One character -/

/-- The sequences of bytes that spell characters. -/
inductive Spells : List UInt8 → Char → Prop
  | one {b : UInt8} (hb : b < 0x80) : Spells [b] (Char.ofNat b.toNat)
  | two {b b2 : UInt8} (hb : (0xC2 ≤ b && b ≤ 0xDF) = true) (h2 : isTail b2 = true) :
      Spells [b, b2] (Char.ofNat (b.toNat % 32 * 64 + payload b2))
  | three {b b2 b3 : UInt8} (hb : (0xE0 ≤ b && b ≤ 0xEF) = true) (h2 : isSecond b b2 = true)
      (h3 : isTail b3 = true) :
      Spells [b, b2, b3] (Char.ofNat ((b.toNat % 16 * 64 + payload b2) * 64 + payload b3))
  | four {b b2 b3 b4 : UInt8} (hb : (0xF0 ≤ b && b ≤ 0xF4) = true) (h2 : isSecond b b2 = true)
      (h3 : isTail b3 = true) (h4 : isTail b4 = true) :
      Spells [b, b2, b3, b4]
        (Char.ofNat (((b.toNat % 8 * 64 + payload b2) * 64 + payload b3) * 64 + payload b4))

theorem toNat_ofNat {n : Nat} (h : n.isValidChar) : (Char.ofNat n).val.toNat = n := by
  rw [Char.ofNat, dif_pos h]
  rfl

theorem spells_of_piece {b : UInt8} {bs rest : List UInt8} {c : Char}
    (h : piece b bs = .scalar c rest) : ∃ seq, Spells seq c ∧ b :: bs = seq ++ rest := by
  unfold piece at h
  repeat' split at h
  all_goals cases h
  · exact ⟨_, .one ‹_›, rfl⟩
  · exact ⟨_, .two ‹_› ‹_›, rfl⟩
  · exact ⟨_, .three ‹_› ‹_› ‹_›, rfl⟩
  · exact ⟨_, .four ‹_› ‹_› ‹_› ‹_›, rfl⟩

theorem inRange_iff {lo hi b : UInt8} :
    (lo ≤ b && b ≤ hi) = true ↔ lo.toNat ≤ b.toNat ∧ b.toNat ≤ hi.toNat := by
  rw [Bool.and_eq_true, decide_eq_true_eq, decide_eq_true_eq, UInt8.le_iff_toNat_le,
    UInt8.le_iff_toNat_le]

theorem isTail_iff {b : UInt8} : isTail b = true ↔ 128 ≤ b.toNat ∧ b.toNat ≤ 191 :=
  inRange_iff

theorem isSecond_iff {b b2 : UInt8} : isSecond b b2 = true ↔
    (128 ≤ b2.toNat ∧ b2.toNat ≤ 191) ∧ (b.toNat = 0xE0 → 0xA0 ≤ b2.toNat)
      ∧ (b.toNat = 0xED → b2.toNat ≤ 0x9F) ∧ (b.toNat = 0xF0 → 0x90 ≤ b2.toNat)
      ∧ (b.toNat = 0xF4 → b2.toNat ≤ 0x8F) := by
  have hfirst : ∀ n : UInt8, b = n ↔ b.toNat = n.toNat := fun n => UInt8.toNat_inj.symm
  unfold isSecond isTail
  simp only [hfirst, UInt8.reduceToNat]
  repeat' split
  all_goals rw [inRange_iff]
  all_goals simp only [UInt8.reduceToNat]
  all_goals omega

/-! ## Spelling is encoding -/

theorem utf8EncodeChar_ofNat {n : Nat} (h : n.isValidChar) :
    String.utf8EncodeChar (Char.ofNat n) =
      if n ≤ 127 then [UInt8.ofNat n]
      else if n ≤ 2047 then [UInt8.ofNat (n / 64 % 32 + 192), UInt8.ofNat (n % 64 + 128)]
      else if n ≤ 65535 then
        [UInt8.ofNat (n / 4096 % 16 + 224), UInt8.ofNat (n / 64 % 64 + 128),
          UInt8.ofNat (n % 64 + 128)]
      else
        [UInt8.ofNat (n / 262144 % 8 + 240), UInt8.ofNat (n / 4096 % 64 + 128),
          UInt8.ofNat (n / 64 % 64 + 128), UInt8.ofNat (n % 64 + 128)] := by
  rw [String.utf8EncodeChar, toNat_ofNat h]

theorem eq_ofNat {b : UInt8} {n : Nat} (h : b.toNat = n) : b = UInt8.ofNat n := by
  rw [← h, UInt8.ofNat_toNat]

theorem eq_utf8EncodeChar_of_spells {seq : List UInt8} {c : Char} (h : Spells seq c) :
    seq = String.utf8EncodeChar c := by
  cases h with
  | @one b hb =>
      have hb : b.toNat < 128 := UInt8.lt_iff_toNat_lt.mp hb
      rw [utf8EncodeChar_ofNat (Or.inl (by omega)), if_pos (by omega), UInt8.ofNat_toNat]
  | @two b b2 hb h2 =>
      have hb : 194 ≤ b.toNat ∧ b.toNat ≤ 223 := inRange_iff.mp hb
      rw [isTail_iff] at h2
      unfold payload
      rw [utf8EncodeChar_ofNat (Or.inl (by omega)), if_neg (by omega), if_pos (by omega),
        ← eq_ofNat (b := b) (by omega), ← eq_ofNat (b := b2) (by omega)]
  | @three b b2 b3 hb h2 h3 =>
      have hb : 224 ≤ b.toNat ∧ b.toNat ≤ 239 := inRange_iff.mp hb
      rw [isSecond_iff] at h2
      rw [isTail_iff] at h3
      unfold payload
      rw [utf8EncodeChar_ofNat (by unfold Nat.isValidChar; omega), if_neg (by omega),
        if_neg (by omega), if_pos (by omega), ← eq_ofNat (b := b) (by omega),
        ← eq_ofNat (b := b2) (by omega), ← eq_ofNat (b := b3) (by omega)]
  | @four b b2 b3 b4 hb h2 h3 h4 =>
      have hb : 240 ≤ b.toNat ∧ b.toNat ≤ 244 := inRange_iff.mp hb
      rw [isSecond_iff] at h2
      rw [isTail_iff] at h3 h4
      unfold payload
      rw [utf8EncodeChar_ofNat (Or.inr (by omega)), if_neg (by omega), if_neg (by omega),
        if_neg (by omega), ← eq_ofNat (b := b) (by omega), ← eq_ofNat (b := b2) (by omega),
        ← eq_ofNat (b := b3) (by omega), ← eq_ofNat (b := b4) (by omega)]

theorem exists_byte {n : Nat} (h : n < 256) : ∃ b : UInt8, b.toNat = n :=
  ⟨UInt8.ofNat n, by rw [UInt8.toNat_ofNat', Nat.mod_eq_of_lt h]⟩

theorem spells_utf8EncodeChar (c : Char) : Spells (String.utf8EncodeChar c) c := by
  -- Every byte gets a name of its own, so that what is left is about numbers below 256.
  obtain ⟨n, hn⟩ : ∃ n, c.toNat = n := ⟨_, rfl⟩
  have hvalid : n.isValidChar := hn ▸ c.valid
  obtain rfl : Char.ofNat n = c := hn ▸ Char.ofNat_toNat c
  rw [utf8EncodeChar_ofNat hvalid]
  unfold Nat.isValidChar at hvalid
  split
  · next h =>
      obtain ⟨b, rfl⟩ := exists_byte (n := n) (by omega)
      rw [UInt8.ofNat_toNat]
      exact .one (UInt8.lt_iff_toNat_lt.mpr (Nat.lt_succ_of_le h))
  · split
    · next h =>
        obtain ⟨b, hb⟩ := exists_byte (n := n / 64 % 32 + 192) (by omega)
        obtain ⟨b2, hb2⟩ := exists_byte (n := n % 64 + 128) (by omega)
        have hrange : 194 ≤ b.toNat ∧ b.toNat ≤ 223 := by omega
        have h2 : isTail b2 = true := isTail_iff.mpr (by omega)
        have hcode : b.toNat % 32 * 64 + payload b2 = n := by
          unfold payload
          omega
        have hspells := Spells.two (inRange_iff.mpr hrange) h2
        rwa [hcode, eq_ofNat hb, eq_ofNat hb2] at hspells
    · split
      · next h =>
          obtain ⟨b, hb⟩ := exists_byte (n := n / 4096 % 16 + 224) (by omega)
          obtain ⟨b2, hb2⟩ := exists_byte (n := n / 64 % 64 + 128) (by omega)
          obtain ⟨b3, hb3⟩ := exists_byte (n := n % 64 + 128) (by omega)
          have hrange : 224 ≤ b.toNat ∧ b.toNat ≤ 239 := by omega
          have h2 : isSecond b b2 = true := isSecond_iff.mpr (by omega)
          have h3 : isTail b3 = true := isTail_iff.mpr (by omega)
          have hcode : (b.toNat % 16 * 64 + payload b2) * 64 + payload b3 = n := by
            unfold payload
            omega
          have hspells := Spells.three (inRange_iff.mpr hrange) h2 h3
          rwa [hcode, eq_ofNat hb, eq_ofNat hb2, eq_ofNat hb3] at hspells
      · next h =>
          obtain ⟨b, hb⟩ := exists_byte (n := n / 262144 % 8 + 240) (by omega)
          obtain ⟨b2, hb2⟩ := exists_byte (n := n / 4096 % 64 + 128) (by omega)
          obtain ⟨b3, hb3⟩ := exists_byte (n := n / 64 % 64 + 128) (by omega)
          obtain ⟨b4, hb4⟩ := exists_byte (n := n % 64 + 128) (by omega)
          have hrange : 240 ≤ b.toNat ∧ b.toNat ≤ 244 := by omega
          have h2 : isSecond b b2 = true := isSecond_iff.mpr (by omega)
          have h3 : isTail b3 = true := isTail_iff.mpr (by omega)
          have h4 : isTail b4 = true := isTail_iff.mpr (by omega)
          have hcode :
              ((b.toNat % 8 * 64 + payload b2) * 64 + payload b3) * 64 + payload b4 = n := by
            unfold payload
            omega
          have hspells := Spells.four (inRange_iff.mpr hrange) h2 h3 h4
          rwa [hcode, eq_ofNat hb, eq_ofNat hb2, eq_ofNat hb3, eq_ofNat hb4] at hspells

/-! ## Taking a character -/

theorem not_lt_of_inRange {lo hi b n : UInt8} (h : (lo ≤ b && b ≤ hi) = true) (hlo : n ≤ lo) :
    ¬ b < n := by
  have hb := inRange_iff.mp h
  rw [UInt8.le_iff_toNat_le] at hlo
  rw [UInt8.lt_iff_toNat_lt]
  omega

theorem not_inRange_of_inRange {lo hi lo' hi' b : UInt8} (h : (lo' ≤ b && b ≤ hi') = true)
    (hapart : hi < lo') : ¬ (lo ≤ b && b ≤ hi) = true := by
  intro hb
  have h := inRange_iff.mp h
  have hb := inRange_iff.mp hb
  rw [UInt8.lt_iff_toNat_lt] at hapart
  omega

/-- What spells a character is taken off the front, whatever comes behind it. -/
theorem piece_of_spells {b : UInt8} {bs rest : List UInt8} {c : Char} (h : Spells (b :: bs) c) :
    piece b (bs ++ rest) = .scalar c rest := by
  unfold piece
  cases h with
  | one hb => exact if_pos hb
  | two hb h2 =>
      rw [if_neg (not_lt_of_inRange hb (by decide)), if_pos hb]
      exact if_pos h2
  | three hb h2 h3 =>
      rw [if_neg (not_lt_of_inRange hb (by decide)),
        if_neg (not_inRange_of_inRange hb (by decide)), if_pos hb]
      exact (if_pos h2).trans (if_pos h3)
  | four hb h2 h3 h4 =>
      rw [if_neg (not_lt_of_inRange hb (by decide)),
        if_neg (not_inRange_of_inRange hb (by decide)),
        if_neg (not_inRange_of_inRange hb (by decide)), if_pos hb]
      exact (if_pos h2).trans ((if_pos h3).trans (if_pos h4))

/-! ## A whole text -/

theorem pieces_cons (b : UInt8) (bs : List UInt8) :
    pieces (b :: bs) = match piece b bs with
      | .scalar c rest => some c :: pieces rest
      | .invalid rest => none :: pieces rest := by
  rw [pieces]
  split
  · next h => rw [h]
  · next h => rw [h]

theorem pieces_append (c : Char) (rest : List UInt8) :
    pieces (String.utf8EncodeChar c ++ rest) = some c :: pieces rest := by
  have hspells := spells_utf8EncodeChar c
  cases hseq : String.utf8EncodeChar c with
  | nil =>
      rw [hseq] at hspells
      cases hspells
  | cons b bs =>
      rw [hseq] at hspells
      rw [List.cons_append, pieces_cons, piece_of_spells hspells]

theorem pieces_flatMap (cs : List Char) :
    pieces (cs.flatMap String.utf8EncodeChar) = cs.map some := by
  induction cs with
  | nil => rw [List.flatMap_nil, pieces, List.map_nil]
  | cons c cs ih => rw [List.flatMap_cons, pieces_append, ih, List.map_cons]

theorem eq_flatMap_of_pieces {cs : List Char} {bytes : List UInt8}
    (h : pieces bytes = cs.map some) : bytes = cs.flatMap String.utf8EncodeChar := by
  induction cs generalizing bytes with
  | nil =>
      cases bytes with
      | nil => rfl
      | cons b bs =>
          rw [pieces_cons] at h
          split at h
          all_goals cases h
  | cons c cs ih =>
      cases bytes with
      | nil =>
          rw [pieces] at h
          cases h
      | cons b bs =>
          rw [pieces_cons, List.map_cons] at h
          split at h
          · next hpiece =>
              obtain ⟨hc, hrest⟩ := List.cons.inj h
              obtain rfl := Option.some.inj hc
              obtain ⟨seq, hspells, hseq⟩ := spells_of_piece hpiece
              rw [hseq, eq_utf8EncodeChar_of_spells hspells, ih hrest, List.flatMap_cons]
          · cases h

theorem mapM_id_eq_some_iff {α : Type} {xs : List (Option α)} {ys : List α} :
    xs.mapM id = some ys ↔ xs = ys.map some := by
  induction xs generalizing ys with
  | nil =>
      cases ys with
      | nil => exact ⟨fun _ => rfl, fun _ => rfl⟩
      | cons y ys => exact ⟨nofun, nofun⟩
  | cons x xs ih =>
      rw [List.mapM_cons]
      constructor
      · intro h
        obtain ⟨y, hy, h⟩ := Option.bind_eq_some_iff.mp h
        obtain ⟨zs, hzs, h⟩ := Option.bind_eq_some_iff.mp h
        cases h
        rw [ih.mp hzs, List.map_cons]
        exact congrArg (fun z => z :: zs.map some) hy
      · intro h
        cases ys with
        | nil => cases h
        | cons y ys =>
            obtain ⟨rfl, hxs⟩ := List.cons.inj h
            exact Option.bind_eq_some_iff.mpr
              ⟨y, rfl, Option.bind_eq_some_iff.mpr ⟨ys, ih.mpr hxs, rfl⟩⟩

theorem toList_loop (bytes : ByteArray) (place : Nat) (taken : List UInt8) :
    ByteArray.toList.loop bytes place taken = taken.reverse ++ bytes.data.toList.drop place := by
  fun_induction ByteArray.toList.loop bytes place taken with
  | case1 place taken h ih =>
      have hplace : place < bytes.data.toList.length := h
      have hget : bytes.get! place = bytes.data.toList[place] := getElem!_pos bytes.data place h
      rw [ih, List.drop_eq_getElem_cons hplace, hget, List.reverse_cons, List.append_assoc,
        List.singleton_append]
  | case2 place taken h =>
      have hplace : bytes.data.toList.length ≤ place := Nat.not_lt.mp h
      rw [List.drop_eq_nil_of_le hplace, List.append_nil]

theorem toList_toUTF8 (s : String) :
    s.toUTF8.toList = s.toList.flatMap String.utf8EncodeChar := by
  have hs : s.toUTF8 = s.toList.utf8Encode := by
    rw [String.toUTF8_eq_toByteArray, ← String.toByteArray_ofList, String.ofList_toList]
  rw [hs, ByteArray.toList, toList_loop, List.reverse_nil, List.nil_append, List.drop_zero,
    List.utf8Encode, List.data_toByteArray]

/-- Bytes are read as a text exactly when they are its bytes. -/
theorem decode?_eq_some_iff {bytes : List UInt8} {s : String} :
    decode? bytes = some s ↔ bytes = s.toUTF8.toList := by
  rw [toList_toUTF8, decode?, Option.map_eq_some_iff]
  constructor
  · rintro ⟨cs, hcs, rfl⟩
    rw [String.toList_ofList]
    exact eq_flatMap_of_pieces (mapM_id_eq_some_iff.mp hcs)
  · rintro rfl
    exact ⟨s.toList, mapM_id_eq_some_iff.mpr (pieces_flatMap s.toList), String.ofList_toList⟩

/-- Texts have different bytes. -/
theorem toList_toUTF8_inj {s t : String} : s.toUTF8.toList = t.toUTF8.toList ↔ s = t := by
  constructor
  · intro h
    exact Option.some.inj ((decode?_eq_some_iff.mpr rfl).symm.trans (decode?_eq_some_iff.mpr h))
  · rintro rfl
    rfl

end Utf8

/-- A variable is set to a text exactly when its bytes are those of the text. -/
theorem Environment.get?_eq_some_iff {env : Environment} {name text : String} :
    env.get? name = some text ↔ env.bytes name = some text.toUTF8.toList := by
  rw [Environment.get?, Option.bind_eq_some_iff]
  constructor
  · rintro ⟨bytes, hbytes, hdecode⟩
    rw [hbytes, Utf8.decode?_eq_some_iff.mp hdecode]
  · intro hbytes
    exact ⟨_, hbytes, Utf8.decode?_eq_some_iff.mpr rfl⟩

end IdentityLine
