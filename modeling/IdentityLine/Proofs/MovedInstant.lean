import IdentityLine.Proofs.InstantOrder

/-!
# Moving to an instant and looking at it again

An identity that is moved to an instant keeps the whole milliseconds up to it. Two
ways lead through an instant and back, and neither is lossless.

From an identity's own time to its instant and back, what is lost is what lies beyond
the calendar: the time becomes that of the nearer end, and going around once more
changes nothing.

From an instant to an identity and back, what is lost is the part of a millisecond,
always toward the past. A leap second is lost as well. Its milliseconds count on into
the next second, and that is where it is found again; after the last second of the
calendar there is no next one, and it is found at the very end.
-/

namespace IdentityLine

namespace Instant

/-! ## From milliseconds to an instant and back -/

/-- The milliseconds nearest to these that the calendar has. -/
def inCalendar (millis : Int) : Int :=
  max (-8334601228800000) (min millis 8210266876799999)

theorem Reaches.toInt_millis {millis : Int} {w : Instant} (h : Reaches millis w) :
    w.millis.toInt = inCalendar millis := by
  rw [Instant.toInt_millis, inCalendar]
  cases h with
  | before h =>
      simp only [first]
      omega
  | within h hseconds hnanos =>
      obtain ⟨hfirst, hlast⟩ := h
      omega
  | after h =>
      simp only [last]
      omega

/-! ## From an instant to milliseconds and back -/

/-- Nanoseconds, cut down to whole milliseconds. -/
def wholeMillis (nanos : Nat) : Nat :=
  nanos / 1000000 * 1000000

theorem ofParts?_eq_some {w : Instant} (h : w.nanos < 1000000000) {seconds : Int} {nanos : Nat}
    (hseconds : w.seconds = seconds) (hnanos : w.nanos = nanos) :
    ofParts? seconds nanos = some w := by
  subst hseconds hnanos
  rw [ofParts?, dif_pos ⟨⟨w.first_le, w.le_last⟩, w.nanos_lt,
    fun hleap => absurd h (Nat.not_lt.mpr hleap)⟩]

theorem ofParts?_eq_none {seconds : Int} (h : 8210266876799 < seconds) (nanos : Nat) :
    ofParts? seconds nanos = none := by
  rw [ofParts?, dif_neg (by omega)]

section Back

variable {v w : Instant} (reaches : Reaches w.millis.toInt v)

include reaches

/-- The milliseconds of an instant lead back to it, but for the part of a millisecond. -/
theorem Reaches.ofParts? (h : w.nanos < 1000000000) :
    Instant.ofParts? w.seconds (wholeMillis w.nanos) = some v := by
  have hfirst := w.first_le
  have hlast := w.le_last
  have hmillis := w.toInt_millis
  obtain ⟨hseconds, hnanos⟩ := reaches.parts ⟨by omega, by omega⟩
  have hwhole : wholeMillis w.nanos = w.nanos / 1000000 * 1000000 := rfl
  exact ofParts?_eq_some reaches.nanos_lt (by omega) (by omega)

/-- The milliseconds of a leap second lead into the second after it. -/
theorem Reaches.getD_ofParts? (h : 1000000000 ≤ w.nanos) :
    (Instant.ofParts? (w.seconds + 1) (wholeMillis (w.nanos - 1000000000))).getD last = v := by
  have hfirst := w.first_le
  have hlast := w.le_last
  have hnanos := w.nanos_lt
  have hmillis := w.toInt_millis
  -- Behind the last second of the calendar there is none to count on into.
  by_cases hend : w.seconds = 8210266876799
  · rw [ofParts?_eq_none (by omega), Option.getD_none]
    exact (reaches.eq_last (by omega)).symm
  · obtain ⟨hseconds, hfraction⟩ := reaches.parts ⟨by omega, by omega⟩
    have hnext : Instant.ofParts? (w.seconds + 1) (wholeMillis (w.nanos - 1000000000)) = some v := by
      have hwhole : wholeMillis (w.nanos - 1000000000)
          = (w.nanos - 1000000000) / 1000000 * 1000000 := rfl
      exact ofParts?_eq_some reaches.nanos_lt (by omega) (by omega)
    rw [hnext, Option.getD_some]

end Back

end Instant

namespace Identity

/-- An identity that is moved to its own instant is brought into the calendar and is otherwise as it
was, and moving it again changes nothing. One that is moved to an instant is found there again, cut
down to whole milliseconds; moved into a leap second, it is found as far into the next second, or at
the end of the calendar if there is none. -/
theorem moved_and_found (x : Identity) :
    (x.movedTo x.instant).name = x.name ∧ (x.movedTo x.instant).email = x.email
    ∧ (x.movedTo x.instant).offset = x.offset
    ∧ (x.movedTo x.instant).millis.toInt
        = max (-8334601228800000) (min x.millis.toInt 8210266876799999)
    ∧ (Instant.InCalendar x.millis.toInt → x.movedTo x.instant = x)
    ∧ (x.movedTo x.instant).movedTo (x.movedTo x.instant).instant = x.movedTo x.instant
    ∧ ∀ w : Instant,
      (w.nanos < 1000000000 →
        Instant.ofParts? w.seconds (Instant.wholeMillis w.nanos) = some (x.movedTo w).instant)
      ∧ (1000000000 ≤ w.nanos →
        (Instant.ofParts? (w.seconds + 1) (Instant.wholeMillis (w.nanos - 1000000000))).getD .last
          = (x.movedTo w).instant) := by
  have hmillis : ∀ y : Identity, (y.movedTo y.instant).millis.toInt
      = Instant.inCalendar y.millis.toInt :=
    fun y => (Instant.reaches_ofMillis y.millis).toInt_millis
  have hkept : ∀ y : Identity, Instant.InCalendar y.millis.toInt → y.movedTo y.instant = y := by
    intro y ⟨hfirst, hlast⟩
    have hsame : (y.movedTo y.instant).millis = y.millis := by
      rw [← Int64.toInt_inj, hmillis, Instant.inCalendar]
      omega
    rw [movedTo, stamped]
    exact congrArg (fun millis => { y with millis }) hsame
  refine ⟨rfl, rfl, rfl, hmillis x, hkept x, hkept _ ?_, fun w => ⟨?_, ?_⟩⟩
  · rw [Instant.InCalendar, hmillis, Instant.inCalendar]
    omega
  · exact (Instant.reaches_ofMillis w.millis).ofParts?
  · exact (Instant.reaches_ofMillis w.millis).getD_ofParts?

/-- A time before the calendar; an instant before 1970, with a part of a millisecond; and a leap
second, at the end of a minute, in the middle of one, and at the end of the calendar. -/
theorem moved_and_found_leap :
    let x : Identity := ⟨"Ann", "a@b", -9223372036854775808, 60⟩
    let early : Instant := ⟨-1, 999999999, by decide, by decide, by decide⟩
    let leap : Instant := ⟨1483228799, 1500000001, by decide, by decide, by decide⟩
    let amid : Instant := ⟨30, 1500000001, by decide, by decide, by decide⟩
    let final : Instant := ⟨8210266876799, 1000000000, by decide, by decide, by decide⟩
    (x.movedTo x.instant).millis.toInt = -8334601228800000
      ∧ Instant.ofParts? (-1) 999000000 = some (x.movedTo early).instant
      ∧ Instant.ofParts? 1483228800 500000000 = some (x.movedTo leap).instant
      ∧ Instant.ofParts? 31 500000000 = some (x.movedTo amid).instant
      ∧ (x.movedTo final).instant = .last
      ∧ (x.movedTo early).movedTo (x.movedTo early).instant = x.movedTo early := by
  intro x early leap amid final
  obtain ⟨-, -, -, hmillis, -, -, hfound⟩ := moved_and_found x
  obtain ⟨-, -, -, -, hkept, -, -⟩ := moved_and_found (x.movedTo early)
  have hwhole : Instant.wholeMillis 999999999 = 999000000 := by decide
  have hfraction : Instant.wholeMillis (1500000001 - 1000000000) = 500000000 := by decide
  have hearly := (hfound early).1 (by decide)
  have hleap : (Instant.ofParts? 1483228800 (Instant.wholeMillis (1500000001 - 1000000000))).getD
      .last = (x.movedTo leap).instant := (hfound leap).2 (by decide)
  have hamid : (Instant.ofParts? 31 (Instant.wholeMillis (1500000001 - 1000000000))).getD
      .last = (x.movedTo amid).instant := (hfound amid).2 (by decide)
  rw [hfraction] at hleap hamid
  exact ⟨hmillis, hwhole ▸ hearly, congrArg some hleap, congrArg some hamid,
    ((hfound final).2 (by decide)).symm, hkept (by decide)⟩

end Identity

end IdentityLine
