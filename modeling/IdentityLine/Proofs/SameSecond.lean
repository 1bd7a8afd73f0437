import IdentityLine.Identity
import IdentityLine.Proofs.CanonicalLine
import IdentityLine.Proofs.TextBytes

/-!
# Identities of one second

An identity cuts its milliseconds down to seconds to be compared, to be hashed and
to be written as a line. All three cut toward zero, so they agree on which second a
time belongs to. Cutting toward zero folds both sides of the start of 1970 into
second zero, the one span that is nearly twice as long as the others.

What is fed to a hash table ends in a byte that stands before the seconds and in
the seconds themselves, nine bytes whatever their value, so the address is all
that comes before them and cannot borrow a byte. The eight bytes of the seconds
are read back in two's complement, which has room for every quotient of a 64-bit
number.
-/

namespace IdentityLine.Identity

/-! ## The bytes of a number -/

/-- The natural number that bytes denote, the lowest first. -/
def ofLowBytes : List UInt8 → Nat
  | [] => 0
  | b :: bs => b.toNat + 256 * ofLowBytes bs

theorem length_lowBytes (count : Nat) (n : Int) : (lowBytes count n).length = count := by
  induction count generalizing n with
  | zero => rfl
  | succ count ih => rw [lowBytes, List.length_cons, ih]

/-- The low bytes of a number denote what is left of it modulo their range. -/
theorem ofLowBytes_lowBytes (count : Nat) (n : Int) :
    (ofLowBytes (lowBytes count n) : Int) = n % (Nat.pow 256 count) := by
  induction count generalizing n with
  | zero => simp [lowBytes, ofLowBytes]
  | succ count ih =>
      have hbyte : ((UInt8.ofNat (n % 256).toNat).toNat : Int) = n % 256 := by
        rw [UInt8.toNat_ofNat']
        omega
      have hsplit : n % ((256 * Nat.pow 256 count : Nat) : Int)
          = n % 256 + 256 * (n / 256 % (Nat.pow 256 count)) := by
        have h256 : ((256 : Nat) : Int) = 256 := rfl
        rw [Int.natCast_mul, h256, Int.emod_def n, ← Int.ediv_ediv_of_nonneg (by decide),
          Int.emod_def (n / 256), Int.mul_assoc]
        omega
      have hpow : Nat.pow 256 (count + 1) = 256 * Nat.pow 256 count := Nat.mul_comm _ _
      rw [lowBytes, ofLowBytes, Int.natCast_add, Int.natCast_mul, ih, hbyte, hpow, hsplit]
      rfl

/-! ## The seconds of a time -/

theorem tdiv_thousand (m : Int) :
    m.tdiv 1000 = if 0 ≤ m then m / 1000 else -(-m / 1000) := by
  split
  · next h => exact Int.tdiv_eq_ediv_of_nonneg h
  · next h => rw [← Int.neg_neg m, Int.neg_tdiv, Int.tdiv_eq_ediv_of_nonneg (by omega), Int.neg_neg]

/-- Eight bytes are enough for the seconds of any time. -/
theorem bmod_ofLowBytes_seconds (i : Identity) :
    (ofLowBytes (lowBytes 8 i.seconds) : Int).bmod UInt64.size = i.seconds := by
  have hlo := i.millis.le_toInt
  have hhi := i.millis.toInt_lt
  have hsize : UInt64.size = 18446744073709551616 := rfl
  have hrange : Nat.pow 256 8 = UInt64.size := by decide
  rw [ofLowBytes_lowBytes, hrange, Int.emod_bmod, seconds, tdiv_thousand]
  apply Int.bmod_eq_of_le_mul_two
  · split
    all_goals omega
  · split
    all_goals omega

/-! ## What is compared, hashed and written -/

theorem same_iff {a b : Identity} :
    a.same b = true ↔ a.name = b.name ∧ a.email = b.email ∧ a.seconds = b.seconds := by
  simp only [same, Bool.and_eq_true, beq_iff_eq, and_assoc]

/-- Whatever comes before the seconds is the address, so a feed says what it was made from. -/
theorem hashFeed_inj {a b : Identity} :
    a.hashFeed = b.hashFeed ↔ a.email = b.email ∧ a.seconds = b.seconds := by
  constructor
  · intro h
    have hlen : (0xFF :: lowBytes 8 a.seconds).length = (0xFF :: lowBytes 8 b.seconds).length := by
      rw [List.length_cons, List.length_cons, length_lowBytes, length_lowBytes]
    obtain ⟨hemail, hbytes⟩ := List.append_inj' h hlen
    refine ⟨Utf8.toList_toUTF8_inj.mp hemail, ?_⟩
    rw [← bmod_ofLowBytes_seconds a, (List.cons.inj hbytes).2, bmod_ofLowBytes_seconds b]
  · rintro ⟨hemail, hseconds⟩
    rw [hashFeed, hashFeed, hemail, hseconds]

theorem line_inj_of_same {a b : Identity} (h : a.same b = true) :
    a.line = b.line ↔ a.offset = b.offset := by
  obtain ⟨hname, hemail, hseconds⟩ := same_iff.mp h
  constructor
  · intro hline
    have hread := ofLine?_line a
    rw [hline, ofLine?_line b, Option.some.injEq, LineFields.mk.injEq] at hread
    exact Int32.toInt_inj.mp hread.2.2.2.symm
  · intro hoffset
    rw [line, line, hname, hemail, hseconds, hoffset]

/-! ## The time axis -/

/-- The milliseconds of a second, from the first to the last. -/
inductive SecondSpan : Int → Int → Int → Prop
  | zero : SecondSpan 0 (-999) 999
  | after {k : Int} (h : 0 < k) : SecondSpan k (1000 * k) (1000 * k + 999)
  | before {k : Int} (h : 0 < k) : SecondSpan (-k) (-1000 * k - 999) (-1000 * k)

theorem exists_secondSpan (second : Int) : ∃ first last, SecondSpan second first last := by
  rcases Int.lt_trichotomy second 0 with hneg | rfl | hpos
  · rw [← Int.neg_neg second]
    exact ⟨_, _, .before (Int.neg_pos_of_neg hneg)⟩
  · exact ⟨_, _, .zero⟩
  · exact ⟨_, _, .after hpos⟩

theorem SecondSpan.mem_iff {second first last : Int} (h : SecondSpan second first last) (m : Int) :
    first ≤ m ∧ m ≤ last ↔ m.tdiv 1000 = second := by
  rw [tdiv_thousand]
  cases h with
  | zero => split <;> omega
  | after h => split <;> omega
  | before h => split <;> omega

theorem seconds_eq_iff {a b : Identity} :
    a.seconds = b.seconds ↔ ∃ second first last, SecondSpan second first last
      ∧ (first ≤ a.millis.toInt ∧ a.millis.toInt ≤ last)
      ∧ (first ≤ b.millis.toInt ∧ b.millis.toInt ≤ last) := by
  constructor
  · intro h
    obtain ⟨first, last, hspan⟩ := exists_secondSpan b.seconds
    exact ⟨b.seconds, first, last, hspan, (hspan.mem_iff _).mpr h, (hspan.mem_iff _).mpr rfl⟩
  · rintro ⟨second, first, last, hspan, ha, hb⟩
    exact ((hspan.mem_iff _).mp ha).trans ((hspan.mem_iff _).mp hb).symm

/-- Comparing, hashing and writing agree on the second. Sameness is an equivalence; it is agreement
in the name and in what is hashed, which is the address and the second; the seconds part the time
axis into spans; and of identities that are the same, those are written the same that agree in the
offset. -/
theorem same_second (a b c : Identity) :
    (a.same a = true ∧ a.same b = b.same a
      ∧ (a.same b = true → b.same c = true → a.same c = true))
    ∧ (a.same b = true ↔ a.name = b.name ∧ a.hashFeed = b.hashFeed)
    ∧ (∃ bytes, a.hashFeed = a.email.toUTF8.toList ++ 0xFF :: bytes ∧ bytes.length = 8
      ∧ (ofLowBytes bytes : Int).bmod UInt64.size = a.millis.toInt.tdiv 1000)
    ∧ (a.hashFeed = b.hashFeed ↔
        a.email = b.email ∧ a.millis.toInt.tdiv 1000 = b.millis.toInt.tdiv 1000)
    ∧ (∀ second first last, SecondSpan second first last →
        (first ≤ a.millis.toInt ∧ a.millis.toInt ≤ last ↔ a.millis.toInt.tdiv 1000 = second))
    ∧ (a.same b = true ↔ a.name = b.name ∧ a.email = b.email
        ∧ ∃ second first last, SecondSpan second first last
          ∧ (first ≤ a.millis.toInt ∧ a.millis.toInt ≤ last)
          ∧ (first ≤ b.millis.toInt ∧ b.millis.toInt ≤ last))
    ∧ (a.same b = true → (a.line = b.line ↔ a.offset = b.offset)) := by
  refine ⟨⟨?_, ?_, ?_⟩, ?_, ⟨lowBytes 8 a.seconds, rfl, length_lowBytes _ _, ?_⟩, hashFeed_inj,
    fun _ _ _ h => h.mem_iff _, ?_, line_inj_of_same⟩
  · exact same_iff.mpr ⟨rfl, rfl, rfl⟩
  · rw [Bool.eq_iff_iff, same_iff, same_iff]
    exact ⟨fun ⟨hn, he, hs⟩ => ⟨hn.symm, he.symm, hs.symm⟩,
      fun ⟨hn, he, hs⟩ => ⟨hn.symm, he.symm, hs.symm⟩⟩
  · intro hab hbc
    obtain ⟨hname, hemail, hseconds⟩ := same_iff.mp hab
    obtain ⟨hname', hemail', hseconds'⟩ := same_iff.mp hbc
    exact same_iff.mpr ⟨hname.trans hname', hemail.trans hemail', hseconds.trans hseconds'⟩
  · rw [same_iff, hashFeed_inj]
  · exact bmod_ofLowBytes_seconds a
  · rw [same_iff, seconds_eq_iff]

/-- Either side of the start of 1970, almost two seconds apart. -/
theorem same_second_zero :
    SecondSpan 0 (-999) 999
    ∧ same ⟨"A", "a@b", -999, 0⟩ ⟨"A", "a@b", 999, 330⟩ = true
    ∧ same ⟨"A", "a@b", 999, 330⟩ ⟨"A", "a@b", 0, -60⟩ = true
    ∧ same ⟨"A", "a@b", -999, 0⟩ ⟨"A", "a@b", 0, -60⟩ = true
    ∧ (line ⟨"A", "a@b", -999, 0⟩ = line ⟨"A", "a@b", 999, 330⟩ ↔ (0 : Offset) = 330) := by
  have hall := same_second ⟨"A", "a@b", -999, 0⟩ ⟨"A", "a@b", 999, 330⟩ ⟨"A", "a@b", 0, -60⟩
  have hab : same ⟨"A", "a@b", -999, 0⟩ ⟨"A", "a@b", 999, 330⟩ = true := by decide
  have hbc : same ⟨"A", "a@b", 999, 330⟩ ⟨"A", "a@b", 0, -60⟩ = true := by decide
  exact ⟨.zero, hab, hbc, hall.1.2.2 hab hbc, hall.2.2.2.2.2.2 hab⟩

end IdentityLine.Identity
