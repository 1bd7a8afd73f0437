import IdentityLine.Identity.Json
import IdentityLine.Proofs.JsonLeaves

/-!
# An identity survives JSON

What the writer puts down, the reader takes back whole: the two texts character
for character, the milliseconds and the offset over their whole ranges. No
condition is left, because the writer's integers come from machine integers and
therefore lie within the bounds that the reader checks.

The object is read member by member. One lemma says what a turn of the reader
does at a member whose key it knows, and four turns and a closing brace make the
object. The writer puts no white space anywhere, so nothing is skipped on the
way.
-/

namespace IdentityLine.Identity

open IdentityLine.Json

/-! ## Values -/

theorem readText_writeString (cs rest : List Char) :
    readText (writeString cs ++ rest) = .ok (String.ofList cs, rest) := by
  rw [writeString, List.cons_append, List.append_assoc, List.singleton_append, readText,
    skipSpace_cons (by decide)]
  simp only [if_pos, readString_flatMap]
  rfl

/-- An integer starts with a minus sign or a digit, and neither is white space. -/
theorem signed_eq_cons (z : Int) :
    ∃ c cs, Decimal.signed z = c :: cs ∧ (c = '-' ∨ c.isDigit = true) ∧ isSpace c = false := by
  obtain ⟨d, ds, hds⟩ := List.exists_cons_of_ne_nil (Decimal.digits_ne_nil z.natAbs)
  have hd : d.isDigit = true := Decimal.isDigit_of_mem_digits (hds ▸ List.mem_cons_self)
  rw [Decimal.signed]
  split
  · exact ⟨'-', _, rfl, Or.inl rfl, by decide⟩
  · exact ⟨d, ds, hds, Or.inr hd, isSpace_of_isDigit hd⟩

theorem readInteger_signed {lo hi z : Int} (hlo : lo ≤ z) (hhi : z ≤ hi)
    (hsize : z.natAbs < UInt64.size) {rest : List Char} (hend : EndsNumber rest) :
    readInteger lo hi (Decimal.signed z ++ rest) = .ok (z, rest) := by
  have hnumber := readNumber_signed hsize hend
  obtain ⟨c, cs, hcs, hstart, hspace⟩ := signed_eq_cons z
  rw [hcs, List.cons_append] at hnumber ⊢
  rw [readInteger, skipSpace_cons hspace]
  simp only [if_pos hstart, hnumber, if_pos (And.intro hlo hhi)]

theorem readMillis_signed (millis : Int64) {rest : List Char} (hend : EndsNumber rest) :
    readMillis (Decimal.signed millis.toInt ++ rest) = .ok (millis, rest) := by
  have hlo := millis.le_toInt
  have hhi := millis.toInt_lt
  have hsize : millis.toInt.natAbs < UInt64.size := by
    rw [UInt64.size]
    omega
  rw [readMillis, readInteger_signed millis.minValue_le_toInt millis.toInt_le hsize hend]
  exact congrArg (fun m => Except.ok (m, rest)) millis.ofInt_toInt

theorem readOffset_signed (offset : Offset) {rest : List Char} (hend : EndsNumber rest) :
    readOffset (Decimal.signed offset.toInt ++ rest) = .ok (offset, rest) := by
  have hlo := offset.le_toInt
  have hhi := offset.toInt_lt
  have hsize : offset.toInt.natAbs < UInt64.size := by
    rw [UInt64.size]
    omega
  rw [readOffset, readInteger_signed offset.minValue_le_toInt offset.toInt_le hsize hend]
  exact congrArg (fun o => Except.ok (o, rest)) offset.ofInt_toInt

/-! ## Members -/

theorem readField_of_read {α : Type} {read : List Char → Except Fault (α × List Char)}
    (put : α → Partial) {v : α} {cs rest : List Char} (h : read cs = .ok (v, rest)) :
    readField none read put (':' :: cs) = .ok (put v, rest) := by
  have hcolon : readColon (':' :: cs) = .ok cs := rfl
  simp only [readField, Option.isSome_none, if_neg Bool.false_ne_true, hcolon, bind, Except.bind, h]
  rfl

/-- One turn of the reader: a key, and what stands behind it. -/
theorem readMembers_of_nextKey {isFirst : Bool} (p : Partial) {key cs tail after : List Char}
    (hnext : nextKey isFirst cs = .ok (.key tail))
    (hkey : readString none tail = .ok (key, after)) :
    readMembers isFirst p cs =
      (readMember p key after).bind fun r => readMembers false r.1 r.2 := by
  rw [readMembers.eq_def isFirst]
  split
  · next h => rw [hnext] at h; cases h
  · next h => rw [hnext] at h; cases h
  · next h =>
      rw [hnext] at h
      cases h
      split
      · next h => rw [hkey] at h; cases h
      · next h =>
          rw [hkey] at h
          cases h
          split
          · next h => rw [h]; rfl
          · next h => rw [h]; rfl

theorem readMembers_of_key {isFirst : Bool} {p q : Partial} {key cs tail after rest : List Char}
    (hnext : nextKey isFirst cs = .ok (.key tail))
    (hkey : readString none tail = .ok (key, after))
    (hmember : readMember p key after = .ok (q, rest)) :
    readMembers isFirst p cs = readMembers false q rest := by
  rw [readMembers_of_nextKey p hnext hkey, hmember]
  rfl

/-- The last turn of the reader: the closing brace. -/
theorem readMembers_of_close {isFirst : Bool} (p : Partial) {cs rest : List Char}
    (hnext : nextKey isFirst cs = .ok (.close rest)) :
    readMembers isFirst p cs = .ok (p, rest) := by
  rw [readMembers]
  split
  · next h => rw [hnext] at h; cases h
  · next h => rw [hnext] at h; cases h; rfl
  · next h => rw [hnext] at h; cases h

theorem readString_key {key : List Char} (hplain : key.flatMap escapeChar = key)
    (rest : List Char) : readString none (key ++ '"' :: rest) = .ok (key, rest) := by
  have hread := readString_flatMap key rest
  rwa [hplain] at hread

theorem readMember_name {p : Partial} (hnone : p.name = none) (cs rest : List Char) :
    readMember p "name".toList (':' :: (writeString cs ++ rest)) =
      .ok ({ p with name := String.ofList cs }, rest) := by
  rw [readMember, if_pos rfl, hnone]
  exact readField_of_read _ (readText_writeString cs rest)

theorem readMember_email {p : Partial} (hnone : p.email = none) (cs rest : List Char) :
    readMember p "email_address".toList (':' :: (writeString cs ++ rest)) =
      .ok ({ p with email := String.ofList cs }, rest) := by
  rw [readMember, if_neg (by decide), if_pos rfl, hnone]
  exact readField_of_read _ (readText_writeString cs rest)

theorem readMember_millis {p : Partial} (hnone : p.millis = none) (millis : Int64)
    {rest : List Char} (hend : EndsNumber rest) :
    readMember p "when_millis".toList (':' :: (Decimal.signed millis.toInt ++ rest)) =
      .ok ({ p with millis }, rest) := by
  rw [readMember, if_neg (by decide), if_neg (by decide), if_pos rfl, hnone]
  exact readField_of_read _ (readMillis_signed millis hend)

theorem readMember_offset {p : Partial} (hnone : p.offset = none) (offset : Offset)
    {rest : List Char} (hend : EndsNumber rest) :
    readMember p "tz_offset".toList (':' :: (Decimal.signed offset.toInt ++ rest)) =
      .ok ({ p with offset }, rest) := by
  rw [readMember, if_neg (by decide), if_neg (by decide), if_neg (by decide), if_pos rfl, hnone]
  exact readField_of_read _ (readOffset_signed offset hend)

/-! ## The whole object -/

/-- What the writer puts behind the opening quote of a member's key. -/
def memberChars (key value rest : List Char) : List Char :=
  key ++ '"' :: ':' :: (value ++ rest)

/-- The characters of an identity, member within member. -/
theorem jsonChars_eq (i : Identity) :
    i.jsonChars = '\x7b' :: '"' :: memberChars "name".toList (writeString i.name.toList)
      (',' :: '"' :: memberChars "email_address".toList (writeString i.email.toList)
      (',' :: '"' :: memberChars "when_millis".toList (Decimal.signed i.millis.toInt)
      (',' :: '"' :: memberChars "tz_offset".toList (Decimal.signed i.offset.toInt)
      ['\x7d']))) := by
  have hname : "\x7b\"name\":".toList = '\x7b' :: '"' :: ("name".toList ++ ['"', ':']) := rfl
  have hemail : ",\"email_address\":".toList =
      ',' :: '"' :: ("email_address".toList ++ ['"', ':']) := rfl
  have hmillis : ",\"when_millis\":".toList =
      ',' :: '"' :: ("when_millis".toList ++ ['"', ':']) := rfl
  have hoffset : ",\"tz_offset\":".toList =
      ',' :: '"' :: ("tz_offset".toList ++ ['"', ':']) := rfl
  unfold jsonChars
  rw [hname, hemail, hmillis, hoffset]
  simp only [memberChars, List.append_assoc, List.cons_append, List.nil_append]

theorem readMembers_jsonChars (i : Identity) {cs : List Char}
    (hcs : i.jsonChars = '\x7b' :: cs) :
    readMembers true {} cs = .ok (⟨i.name, i.email, i.millis, i.offset⟩, []) := by
  rw [jsonChars_eq] at hcs
  obtain ⟨-, rfl⟩ := List.cons.inj hcs
  rw [readMembers_of_key rfl (readString_key (by decide) _) (readMember_name rfl _ _),
    readMembers_of_key rfl (readString_key (by decide) _) (readMember_email rfl _ _),
    readMembers_of_key rfl (readString_key (by decide) _)
      (readMember_millis rfl _ (endsNumber_cons (by decide) _)),
    readMembers_of_key rfl (readString_key (by decide) _)
      (readMember_offset rfl _ (endsNumber_cons (by decide) _)),
    readMembers_of_close _ rfl, String.ofList_toList, String.ofList_toList]

theorem ofJson_toJson (i : Identity) : ofJson i.toJson = .ok i := by
  have hmembers := readMembers_jsonChars i (jsonChars_eq i)
  rw [ofJson, toJson, String.toList_ofList, jsonChars_eq, readValue, skipSpace_cons (by decide)]
  simp only [if_pos, hmembers, bind, Except.bind]
  rfl

/-- An identity survives JSON, and so does everything that is made of it; and no two identities are
written the same. -/
theorem json_roundtrip (i j : Identity) :
    (∃ k, ofJson i.toJson = .ok k
      ∧ k.name = i.name ∧ k.email = i.email ∧ k.millis = i.millis ∧ k.offset = i.offset
      ∧ k.line = i.line ∧ k.describe = i.describe ∧ k.hashFeed = i.hashFeed
      ∧ k.toJson = i.toJson)
    ∧ (i.toJson = j.toJson ↔
        i.name = j.name ∧ i.email = j.email ∧ i.millis = j.millis ∧ i.offset = j.offset) := by
  refine ⟨⟨i, ofJson_toJson i, rfl, rfl, rfl, rfl, rfl, rfl, rfl, rfl⟩, ?_⟩
  rw [← Identity.mk.injEq]
  constructor
  · intro h
    have hread := ofJson_toJson i
    rw [h, ofJson_toJson j] at hread
    exact (Except.ok.inj hread).symm
  · intro h
    exact congrArg toJson h

end IdentityLine.Identity
