import IdentityLine.Proofs.CanonicalLine
import IdentityLine.Proofs.SameSecond
import IdentityLine.Proofs.StampedInstant

/-!
# The instant of an identity

An identity's milliseconds reach further than the calendar. Where the calendar has
them, the instant is exactly that many milliseconds after the start of 1970; past
either end it is that end. So the instant follows the milliseconds all the way: it
never goes back, and inside the calendar it never stands still either.

The seconds of the canonical line are not always those of the instant. The line cuts
milliseconds off toward zero and the instant rounds them down, which differs for what
lies a part of a second before a whole one, before 1970.
-/

namespace IdentityLine

namespace Instant

/-! ## What becomes of milliseconds -/

/-- The calendar has an instant this many milliseconds after the start of 1970. -/
def InCalendar (millis : Int) : Prop :=
  -8334601228800000 ≤ millis ∧ millis ≤ 8210266876799999
deriving Decidable

/-- The instant that milliseconds come to, on the way through the calendar. -/
inductive Reaches (millis : Int) : Instant → Prop
  | before (h : millis < -8334601228800000) : Reaches millis first
  | within {w : Instant} (h : InCalendar millis) (seconds : w.seconds = millis / 1000)
      (nanos : w.nanos = (millis % 1000).toNat * 1000000) : Reaches millis w
  | after (h : 8210266876799999 < millis) : Reaches millis last

theorem reaches_ofMillis (millis : Int64) : Reaches millis.toInt (ofMillis millis) := by
  rw [ofMillis]
  cases hw : ofMillis? millis with
  | none =>
      rw [Option.getD_none]
      rcases ofMillis?_eq_none_iff.mp hw with hbefore | hafter
      · rw [if_pos (by omega)]
        exact .before hbefore
      · rw [if_neg (by omega)]
        exact .after hafter
  | some w =>
      rw [Option.getD_some]
      have hin : ¬ (millis.toInt < -8334601228800000 ∨ 8210266876799999 < millis.toInt) := by
        rw [← ofMillis?_eq_none_iff, hw]
        exact nofun
      rw [ofMillis?] at hw
      split at hw
      · obtain rfl := Option.some.inj hw
        exact .within ⟨by omega, by omega⟩ rfl rfl
      · cases hw

section Reaches

variable {millis : Int} {w : Instant} (reaches : Reaches millis w)

include reaches

theorem Reaches.parts (h : InCalendar millis) :
    w.seconds = millis / 1000 ∧ w.nanos = (millis % 1000).toNat * 1000000 := by
  obtain ⟨hfirst, hlast⟩ := h
  cases reaches with
  | before h | after h => omega
  | within _ hseconds hnanos => exact ⟨hseconds, hnanos⟩

theorem Reaches.eq_first (h : millis < -8334601228800000) : w = first := by
  cases reaches with
  | before _ => rfl
  | within hin _ _ => exact absurd hin.1 (by omega)
  | after hafter => omega

theorem Reaches.eq_last (h : 8210266876799999 < millis) : w = last := by
  cases reaches with
  | before hbefore => omega
  | within hin _ _ => exact absurd hin.2 (by omega)
  | after _ => rfl

theorem Reaches.nanos_lt : w.nanos < 1000000000 := by
  cases reaches with
  | before h | after h => decide
  | within h seconds nanos => omega

end Reaches

/-! ## The order of instants -/

section Order

variable {v w : Instant}

theorem eq_of_parts (hseconds : v.seconds = w.seconds) (hnanos : v.nanos = w.nanos) : v = w := by
  cases v
  cases w
  rw [mk.injEq]
  exact ⟨hseconds, hnanos⟩

theorem precedes_iff : v.precedes w = true ↔
    v.seconds < w.seconds ∨ v.seconds = w.seconds ∧ v.nanos < w.nanos := by
  simp only [precedes, isBefore, Bool.or_eq_true, Bool.and_eq_true, decide_eq_true_eq]

theorem eq_or_precedes_iff : v = w ∨ v.precedes w = true ↔
    v.seconds < w.seconds ∨ v.seconds = w.seconds ∧ v.nanos ≤ w.nanos := by
  rw [precedes_iff]
  constructor
  · rintro (rfl | h)
    · exact .inr ⟨rfl, Nat.le_refl _⟩
    · omega
  · intro h
    by_cases hsame : v.seconds = w.seconds ∧ v.nanos = w.nanos
    · exact .inl (eq_of_parts hsame.1 hsame.2)
    · omega

/-- No instant comes before the first. -/
theorem eq_or_first_precedes (w : Instant) : first = w ∨ first.precedes w = true := by
  have hfirst := w.first_le
  rw [eq_or_precedes_iff]
  simp only [first]
  omega

/-- Only a leap second could come after the last. -/
theorem eq_or_precedes_last (h : w.nanos < 1000000000) : w = last ∨ w.precedes last = true := by
  have hlast := w.le_last
  rw [eq_or_precedes_iff]
  simp only [last]
  omega

/-- Inside the calendar later milliseconds are a later instant. -/
theorem Reaches.precedes {m n : Int} (hv : Reaches m v) (hw : Reaches n w) (hm : InCalendar m)
    (hn : InCalendar n) (h : m < n) : v.precedes w = true := by
  obtain ⟨hseconds, hnanos⟩ := hv.parts hm
  obtain ⟨hseconds', hnanos'⟩ := hw.parts hn
  rw [precedes_iff]
  omega

/-- Later milliseconds are never an earlier instant. -/
theorem Reaches.eq_or_precedes {m n : Int} (hv : Reaches m v) (hw : Reaches n w) (h : m ≤ n) :
    v = w ∨ v.precedes w = true := by
  -- Past either end of the calendar, what is left to compare is that end.
  by_cases hbefore : m < -8334601228800000
  · rw [hv.eq_first hbefore]
    exact eq_or_first_precedes w
  · by_cases hafter : 8210266876799999 < n
    · rw [hw.eq_last hafter]
      exact eq_or_precedes_last hv.nanos_lt
    · rcases Int.lt_or_eq_of_le h with hlt | rfl
      · exact .inr (hv.precedes hw ⟨by omega, by omega⟩ ⟨by omega, by omega⟩ hlt)
      · obtain ⟨hseconds, hnanos⟩ := hv.parts ⟨by omega, by omega⟩
        obtain ⟨hseconds', hnanos'⟩ := hw.parts ⟨by omega, by omega⟩
        exact .inl (eq_of_parts (hseconds.trans hseconds'.symm) (hnanos.trans hnanos'.symm))

end Order

end Instant

namespace Identity

/-- Cutting off toward zero and rounding down part company at the parts of seconds before zero. -/
theorem floor_eq (m : Int) :
    m / 1000 = if 0 ≤ m ∨ 1000 ∣ m then m.tdiv 1000 else m.tdiv 1000 - 1 := by
  rw [tdiv_thousand]
  split
  · split
    · rfl
    · omega
  · rw [if_neg (by omega)]
    omega

/-- The instant of an identity is exactly its milliseconds where the calendar has them, and the end
that lies nearer where it does not. It keeps the order of the milliseconds, and tells apart all that
the calendar has. Its whole second is the one that the canonical line says, but for a part of a
second before 1970, where it is the second before. -/
theorem instant_saturates (i j : Identity) :
    (Instant.InCalendar i.millis.toInt →
      i.instant.seconds * 1000000000 + i.instant.nanos = i.millis.toInt * 1000000
        ∧ i.instant.nanos < 1000000000)
    ∧ (i.millis.toInt < -8334601228800000 → i.instant = .first)
    ∧ (8210266876799999 < i.millis.toInt → i.instant = .last)
    ∧ (i.millis ≤ j.millis → i.instant = j.instant ∨ i.instant.precedes j.instant = true)
    ∧ (Instant.InCalendar i.millis.toInt → Instant.InCalendar j.millis.toInt →
        i.millis < j.millis → i.instant.precedes j.instant = true)
    ∧ (Instant.InCalendar i.millis.toInt →
        ∃ fields, LineFields.ofLine? i.line = some fields
          ∧ i.instant.seconds = if 0 ≤ i.millis.toInt ∨ 1000 ∣ i.millis.toInt then fields.seconds
            else fields.seconds - 1) := by
  have hi : Instant.Reaches i.millis.toInt i.instant := Instant.reaches_ofMillis i.millis
  have hj : Instant.Reaches j.millis.toInt j.instant := Instant.reaches_ofMillis j.millis
  refine ⟨fun h => ?_, hi.eq_first, hi.eq_last, fun h => ?_, fun h h' hlt => ?_, fun h => ?_⟩
  · obtain ⟨hseconds, hnanos⟩ := hi.parts h
    omega
  · exact hi.eq_or_precedes hj (Int64.le_iff_toInt_le.mp h)
  · exact hi.precedes hj h h' (Int64.lt_iff_toInt_lt.mp hlt)
  · exact ⟨_, ofLine?_line i, (hi.parts h).1.trans (floor_eq _)⟩

/-- Two parts of a second before 1970, and a time past the end of the calendar. -/
theorem instant_saturates_around_zero :
    let early : Identity := ⟨"Ann", "a@b", -1500, 0⟩
    let late : Identity := ⟨"Ann", "a@b", -500, 0⟩
    let never : Identity := ⟨"Ann", "a@b", 9223372036854775807, 0⟩
    early.instant.precedes late.instant = true
      ∧ (∃ fields, LineFields.ofLine? early.line = some fields
        ∧ early.instant.seconds = fields.seconds - 1)
      ∧ never.instant = .last
      ∧ (late.instant = never.instant ∨ late.instant.precedes never.instant = true) := by
  intro early late never
  have hearly : Instant.InCalendar early.millis.toInt := by decide
  have hlate : Instant.InCalendar late.millis.toInt := by decide
  obtain ⟨-, -, -, -, hprecedes, hfields⟩ := instant_saturates early late
  obtain ⟨-, -, -, hnever, -, -⟩ := instant_saturates late never
  obtain ⟨-, -, hlast, -, -, -⟩ := instant_saturates never never
  obtain ⟨fields, hread, hseconds⟩ := hfields hearly
  exact ⟨hprecedes hearly hlate (by decide), ⟨fields, hread, hseconds.trans (if_neg (by decide))⟩,
    hlast (by decide), hnever (by decide)⟩

end Identity

end IdentityLine
