import IdentityLine.Identity

/-!
# Stamping an instant

There are three ways to stamp an identity with a time and with the offset that a
zone has then. One is handed the instant itself and asks the zone about it. The
other two read a clock, which counts milliseconds, and ask the zone about the
instant of these. All of them keep the time in milliseconds, so the question is
whether the zone is asked about the same moment.

For a zone that changes at a whole millisecond it is enough to compare moments in
milliseconds, and both ways come down to one comparison with the change. They
differ in what they compare. A leap second counts on into the next second when it
is written in milliseconds, but its instant still lies before that second; so the
instant is compared as if it stopped at the last millisecond of its own second.
Outside a leap second the two numbers are one. Inside it they are up to a second
apart, and a change that falls between them is seen by one way and not by the
other.
-/

namespace IdentityLine

namespace Instant

theorem toInt_millis (w : Instant) :
    w.millis.toInt = w.seconds * 1000 + (w.nanos / 1000000 : Nat) := by
  have hfirst := w.first_le
  have hlast := w.le_last
  have hnanos := w.nanos_lt
  rw [millis]
  exact Int64.toInt_ofInt_of_le (by omega) (by omega)

/-- The milliseconds of an instant in the order of instants: a leap second stays at the last
millisecond of its own second. -/
def heldMillis (w : Instant) : Int :=
  w.seconds * 1000 + (min 999 (w.nanos / 1000000) : Nat)

theorem heldMillis_eq {w : Instant} (h : w.nanos < 1000000000) : w.heldMillis = w.millis.toInt := by
  rw [toInt_millis, heldMillis]
  omega

/-- Inside a leap second a whole millisecond lies behind the instant and not behind its milliseconds
exactly from the start of the next second on. -/
theorem heldMillis_lt_iff {w : Instant} (h : 1000000000 ≤ w.nanos) (millis : Int) :
    w.heldMillis < millis ↔ (w.seconds + 1) * 1000 ≤ millis := by
  rw [heldMillis]
  omega

theorem isBefore_millis (w : Instant) (millis : Int) :
    w.isBefore (millis / 1000) ((millis % 1000).toNat * 1000000) = decide (w.heldMillis < millis) := by
  have hiff : (w.seconds < millis / 1000 ∨ w.seconds = millis / 1000
      ∧ w.nanos < (millis % 1000).toNat * 1000000) ↔ w.heldMillis < millis := by
    rw [heldMillis]
    omega
  rw [isBefore, ← Bool.decide_and, ← Bool.decide_or]
  exact decide_eq_decide.mpr hiff

/-- The instant of a number of milliseconds comes back to that number. -/
theorem heldMillis_ofMillis? {millis : Int64} {w : Instant} (h : ofMillis? millis = some w) :
    w.heldMillis = millis.toInt := by
  rw [ofMillis?] at h
  split at h
  · obtain rfl := Option.some.inj h
    simp only [heldMillis]
    omega
  · cases h

theorem ofMillis?_eq_none_iff {millis : Int64} :
    ofMillis? millis = none ↔
      millis.toInt < -8334601228800000 ∨ 8210266876799999 < millis.toInt := by
  rw [ofMillis?]
  split
  · next h =>
      simp only [reduceCtorEq, false_iff]
      omega
  · next h =>
      simp only [true_iff]
      omega

end Instant

namespace Zone

/-- A zone that never changes is one that changes to the offset it had. -/
theorem constant_eq_switching (o : UtcOffset) (millis : Int) : constant o = switching millis o o := by
  simp [constant, switching]

theorem offsetAt_switching (millis : Int) (before after : UtcOffset) (w : Instant) :
    (switching millis before after).offsetAt w =
      if w.heldMillis < millis then before else after := by
  simp [switching, Instant.isBefore_millis]

/-- Milliseconds that the calendar has are compared with the change as they are. -/
theorem offsetAtMillis_switching (millis : Int) (before after : UtcOffset) (m : Int64) :
    (switching millis before after).offsetAtMillis m =
      if m.toInt < -8334601228800000 ∨ 8210266876799999 < m.toInt then 0
      else if m.toInt < millis then before.minutes else after.minutes := by
  rw [offsetAtMillis]
  cases hw : Instant.ofMillis? m with
  | none => rw [if_pos (Instant.ofMillis?_eq_none_iff.mp hw)]
  | some w =>
      have hin : ¬ (m.toInt < -8334601228800000 ∨ 8210266876799999 < m.toInt) := by
        rw [← Instant.ofMillis?_eq_none_iff, hw]
        exact nofun
      rw [if_neg hin]
      dsimp only
      rw [offsetAt_switching, Instant.heldMillis_ofMillis? hw]
      split
      · rfl
      · rfl

end Zone

namespace Identity

/-- Where the zone is asked decides about the offset alone: an identity that is stamped by a clock
which shows the milliseconds of an instant is the one stamped at the instant but for that. -/
theorem renewed_eq (i : Identity) (w : Instant) (zone : Zone) :
    ((i.renewed zone).run (.stopped (i.inZoneAt w zone).millis)).1 =
      { i.inZoneAt w zone with offset := zone.offsetAtMillis w.millis } := rfl

/-- A zone that never changes, or once at a whole millisecond, stamps an instant in one way, whether
it is handed the instant or the clock's milliseconds, unless the instant is in a leap second. There
the two offsets differ exactly when the change alters the minutes and comes after the leap second's
own second but not after its milliseconds; and where these are past the end of the calendar, the
clock's way finds no offset. -/
theorem stamps_agree_outside_leap_seconds (i : Identity) (w : Instant) {zone : Zone} {change : Int}
    {before after : UtcOffset}
    (hzone : zone = .switching change before after ∨ zone = .constant before ∧ after = before) :
    let placed := i.inZoneAt w zone
    let renewed := ((i.renewed zone).run (.stopped placed.millis)).1
    let fresh := ((now i.name i.email zone).run (.stopped placed.millis)).1
    placed.millis.toInt = w.seconds * 1000 + (w.nanos / 1000000 : Nat)
    ∧ fresh = renewed
    ∧ renewed = { placed with offset := zone.offsetAtMillis placed.millis }
    ∧ (w.nanos < 1000000000 → placed = renewed)
    ∧ (1000000000 ≤ w.nanos → placed.millis.toInt ≤ 8210266876799999 →
        (placed.offset ≠ renewed.offset ↔
          before.minutes ≠ after.minutes
            ∧ (w.seconds + 1) * 1000 ≤ change ∧ change ≤ placed.millis.toInt))
    ∧ (8210266876799999 < placed.millis.toInt → renewed.offset = 0) := by
  intro placed renewed fresh
  have hswitching : zone = .switching change before after := by
    rcases hzone with h | ⟨h, hsame⟩
    · exact h
    · rw [h, hsame, Zone.constant_eq_switching before change]
  have hmillis : placed.millis.toInt = w.seconds * 1000 + (w.nanos / 1000000 : Nat) :=
    w.toInt_millis
  have hfirst := w.first_le
  have hlast := w.le_last
  have hplaced : placed.offset =
      if w.heldMillis < change then before.minutes else after.minutes := by
    change (zone.offsetAt w).minutes = _
    rw [hswitching, Zone.offsetAt_switching]
    split
    · rfl
    · rfl
  have hrenewed : renewed.offset =
      if placed.millis.toInt < -8334601228800000 ∨ 8210266876799999 < placed.millis.toInt then 0
      else if placed.millis.toInt < change then before.minutes else after.minutes := by
    change zone.offsetAtMillis placed.millis = _
    rw [hswitching, Zone.offsetAtMillis_switching]
  have hshape : renewed = { placed with offset := zone.offsetAtMillis placed.millis } :=
    i.renewed_eq w zone
  refine ⟨hmillis, rfl, hshape, ?_, ?_, ?_⟩
  · intro hnanos
    have hheld : w.heldMillis = placed.millis.toInt := w.heldMillis_eq hnanos
    have hoffset : zone.offsetAtMillis placed.millis = placed.offset := by
      rw [hplaced, hheld]
      refine hrenewed.trans (if_neg ?_)
      omega
    rw [hshape, hoffset]
  · intro hleap hrange
    have hin : ¬ (placed.millis.toInt < -8334601228800000
        ∨ 8210266876799999 < placed.millis.toInt) := by
      omega
    rw [if_neg hin] at hrenewed
    rw [hplaced, hrenewed]
    simp only [w.heldMillis_lt_iff hleap]
    -- A change up to the leap second's own second is behind both, one past the milliseconds behind
    -- neither; only between the two do the ways see different sides of it.
    by_cases hpast : placed.millis.toInt < change
    · rw [if_pos (by omega), if_pos hpast]
      exact ⟨fun hne => absurd rfl hne, fun hall => absurd hpast (by omega)⟩
    · rw [if_neg hpast]
      split
      · next hbetween => exact ⟨fun hne => ⟨hne, hbetween, by omega⟩, fun hall => hall.1⟩
      · next hbehind => exact ⟨fun hne => absurd rfl hne, fun hall => absurd hall.2.1 hbehind⟩
  · intro hpast
    rw [hrenewed, if_pos (Or.inr hpast)]

/-- Half a second into the leap second at the end of 2016, in a zone that goes an hour ahead with the
new year, the instant is in the old year and the clock's milliseconds are in the new one. -/
theorem stamps_agree_outside_leap_seconds_new_year :
    let zone := Zone.switching 1483228800000 .utc ⟨3600, by decide, by decide⟩
    let w : Instant := ⟨1483228799, 1500000000, by decide, by decide, by decide⟩
    let placed := (Identity.mk "Ann" "a@b" 0 0).inZoneAt w zone
    let renewed := ((placed.renewed zone).run (.stopped placed.millis)).1
    placed.millis = 1483228800500 ∧ placed.offset ≠ renewed.offset := by
  intro zone w placed renewed
  have hzone : zone = .switching 1483228800000 .utc ⟨3600, by decide, by decide⟩
      ∨ zone = .constant .utc ∧ ⟨3600, by decide, by decide⟩ = UtcOffset.utc := .inl rfl
  obtain ⟨-, -, -, -, hleap, -⟩ :=
    stamps_agree_outside_leap_seconds (Identity.mk "Ann" "a@b" 0 0) w hzone
  exact ⟨by decide, (hleap (by decide) (by decide)).mpr ⟨by decide, by decide, by decide⟩⟩

end Identity

end IdentityLine
