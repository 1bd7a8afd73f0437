import IdentityLine.Proofs.DateText
import IdentityLine.Proofs.StampedInstant

/-!
# The offset of a zone is a zone

An identity keeps whole minutes of the offset that a zone has, and whoever shows it
later asks for the zone that these minutes declare. The two only fit because the
minutes are few: an offset of less than a day has at most 1439 of them, and so far a
name reaches. So a stamped identity is never shown in UTC for want of a zone, and the
text of its offset is the same on both of its lines.

Minutes are cut off toward zero. That is what `CutTo` says of them, and it is also why
zones opposite to each other give opposite offsets, which they would not if the minutes
were rounded down.
-/

namespace IdentityLine

open Text

/-! ## Minutes of an offset -/

namespace UtcOffset

/-- An offset in minutes is what is left of one in seconds: in the same direction if there is any, no
longer, and by less than a minute shorter. -/
structure CutTo (o : UtcOffset) (offset : Offset) : Prop where
  ahead : 0 < 60 * offset.toInt → 0 < o.seconds
  behind : 60 * offset.toInt < 0 → o.seconds < 0
  shorter : (60 * offset.toInt).natAbs ≤ o.seconds.natAbs
  close : (o.seconds - 60 * offset.toInt).natAbs < 60

theorem toInt_minutes (o : UtcOffset) :
    o.minutes.toInt = o.seconds / 60 + if 0 ≤ o.seconds ∨ 60 ∣ o.seconds then 0 else 1 := by
  have hlo := o.neg_day_lt
  have hhi := o.lt_day
  have hcut : o.seconds.tdiv 60 =
      o.seconds / 60 + if 0 ≤ o.seconds ∨ 60 ∣ o.seconds then 0 else 1 := Int.tdiv_eq_ediv
  have hrange : -1440 < o.seconds.tdiv 60 ∧ o.seconds.tdiv 60 < 1440 := by
    rw [hcut]
    split
    · omega
    · omega
  rw [← hcut]
  exact Int32.toInt_ofInt_of_le (by omega) (by omega)

theorem cutTo_minutes (o : UtcOffset) : o.CutTo o.minutes := by
  have hcut := o.toInt_minutes
  split at hcut
  · constructor
    all_goals omega
  · constructor
    all_goals omega

theorem toInt_minutes_bounds (o : UtcOffset) :
    -1439 ≤ o.minutes.toInt ∧ o.minutes.toInt ≤ 1439 := by
  have hlo := o.neg_day_lt
  have hhi := o.lt_day
  have hshorter := o.cutTo_minutes.shorter
  omega

theorem toInt_minutes_of_opposite {o p : UtcOffset} (h : p.seconds = -o.seconds) :
    p.minutes.toInt = -o.minutes.toInt := by
  have ho := o.toInt_minutes
  have hp := p.toInt_minutes
  rw [h] at hp
  split at ho
  · split at hp
    · omega
    · omega
  · split at hp
    · omega
    · omega

end UtcOffset

/-- The instant of a number of milliseconds is that number of milliseconds after the start of 1970. -/
theorem Instant.millis_ofMillis? {millis : Int64} {w : Instant} (h : ofMillis? millis = some w) :
    w.millis = millis := by
  rw [ofMillis?] at h
  split at h
  · obtain rfl := Option.some.inj h
    rw [← Int64.toInt_inj, toInt_millis]
    simp only
    omega
  · cases h

theorem Identity.ofOptions_eq_ok_iff {signer : Signer} {millis : Int64} {offset : Offset}
    {i : Identity} : ofOptions signer millis offset = .ok i ↔
      signer = ⟨some i.name, some i.email⟩ ∧ i.millis = millis ∧ i.offset = offset := by
  rcases signer with ⟨_ | name, _ | email⟩
  all_goals rcases i with ⟨name', email', millis', offset'⟩
  all_goals simp [ofOptions, eq_comm, and_assoc]

/-! ## Stamping -/

/-- A way to stamp an identity in a zone. -/
inductive Stamping where
  | now (name email : String) (clock : Clock)
  | ofSigner (signer : Signer) (clock : Clock)
  | renewed (i : Identity) (clock : Clock)
  | inZoneAt (i : Identity) (instant : Instant)

namespace Stamping

/-- The identity that is stamped in a zone, unless a part of the signer is missing. -/
def perform (zone : Zone) : Stamping → Except Missing Identity
  | .now name email clock => .ok ((Identity.now name email zone).run clock).1
  | .ofSigner signer clock => ((Identity.ofSigner signer zone).run clock).1
  | .renewed i clock => .ok ((i.renewed zone).run clock).1
  | .inZoneAt i instant => .ok (i.inZoneAt instant zone)

/-- The instant that is stamped, if the calendar has the time that a clock shows. -/
def instant? : Stamping → Option Instant
  | .now _ _ clock | .ofSigner _ clock | .renewed _ clock =>
      Instant.ofMillis? (clock.reading clock.reads)
  | .inZoneAt _ instant => some instant

/-- Who is stamped. -/
def signer : Stamping → Signer
  | .now name email _ => ⟨some name, some email⟩
  | .ofSigner signer _ => signer
  | .renewed i _ | .inZoneAt i _ => ⟨some i.name, some i.email⟩

/-- The milliseconds that are stamped. -/
def millis : Stamping → Int64
  | .now _ _ clock | .ofSigner _ clock | .renewed _ clock => clock.reading clock.reads
  | .inZoneAt _ instant => instant.millis

/-- The offset that is stamped: whole minutes of the zone's, and none past the ends of the
calendar. -/
def offset (zone : Zone) (s : Stamping) : Offset :=
  match s.instant? with
  | some w => (zone.offsetAt w).minutes
  | none => 0

variable (s : Stamping) (zone : Zone)

/-- Whichever way an identity is stamped, it is made of the same three things. -/
theorem perform_eq : s.perform zone = Identity.ofOptions s.signer s.millis (s.offset zone) := by
  cases s with
  | _ => rfl

theorem instant?_spec :
    match s.instant? with
    | some w => w.millis = s.millis
    | none => s.millis.toInt < -8334601228800000 ∨ 8210266876799999 < s.millis.toInt := by
  have hclock : ∀ m : Int64, match Instant.ofMillis? m with
      | some w => w.millis = m
      | none => m.toInt < -8334601228800000 ∨ 8210266876799999 < m.toInt := by
    intro m
    cases hw : Instant.ofMillis? m with
    | some w => exact Instant.millis_ofMillis? hw
    | none => exact Instant.ofMillis?_eq_none_iff.mp hw
  cases s with
  | inZoneAt i instant => rfl
  | _ => exact hclock _

theorem offset_bounds : -1439 ≤ (s.offset zone).toInt ∧ (s.offset zone).toInt ≤ 1439 := by
  rw [offset]
  split
  · next w _ => exact (zone.offsetAt w).toInt_minutes_bounds
  · decide

theorem toInt_offset_of_opposite {opposite : Zone}
    (h : ∀ w, (opposite.offsetAt w).seconds = -(zone.offsetAt w).seconds) :
    (s.offset opposite).toInt = -(s.offset zone).toInt := by
  rw [offset, offset]
  split
  · next w _ => exact UtcOffset.toInt_minutes_of_opposite (h w)
  · rfl

end Stamping

/-! ## What is shown of it -/

/-- What follows the last space of a text. -/
def lastField (text : String) : Option String :=
  (splitAtLast? ' ' text.toList).map fun split => String.ofList split.2

theorem lastField_append (before : String) {field : String} (h : ' ' ∉ field.toList) :
    lastField (before ++ " " ++ field) = some field := by
  have hchars : (before ++ " " ++ field).toList = before.toList ++ ' ' :: field.toList := by
    simp
  rw [lastField, hchars, splitAtLast?_append _ h, Option.map_some, String.ofList_toList]

namespace Identity

theorem lastField_line (i : Identity) : lastField i.line = some i.offset.text := by
  have hoffset : ' ' ∉ i.offset.text.toList := by
    rw [Offset.text, String.toList_ofList]
    exact Offset.not_mem_chars (by decide) (by decide) rfl
  exact lastField_append _ hoffset

/-- The text for people ends with the offset of the zone that it is shown in. -/
theorem lastField_describe (i : Identity) :
    lastField i.describe = some (i.zone.minutes.text ++ "]") := by
  have hoffset : ' ' ∉ (i.zone.minutes.text ++ "]").toList := by
    rw [Offset.text, String.toList_append, String.toList_ofList, List.mem_append, not_or]
    exact ⟨Offset.not_mem_chars (by decide) (by decide) rfl, by decide⟩
  obtain ⟨date, hdate⟩ : ∃ date, i.dateText = date ++ " " ++ i.zone.minutes.text := ⟨_, rfl⟩
  have hend : i.describe = ("PersonIdent[" ++ i.name ++ ", " ++ i.email ++ ", " ++ date) ++ " "
      ++ (i.zone.minutes.text ++ "]") := by
    unfold describe
    rw [hdate]
    simp only [String.append_assoc]
  rw [hend]
  exact lastField_append _ hoffset

/-- An identity that is stamped in a zone keeps an offset that is itself a zone, whatever the zone and
the time: the zone's own, cut to whole minutes toward zero, or none where the calendar does not have
the time that a clock shows. The opposite zone gives the opposite offset. Both lines of the identity
end with the same text for it. -/
theorem stamped_offset_is_a_zone (s : Stamping) (zone : Zone) {i : Identity}
    (h : s.perform zone = .ok i) :
    (-1439 ≤ i.offset.toInt ∧ i.offset.toInt ≤ 1439)
    ∧ i.zone.seconds = 60 * i.offset.toInt
    ∧ (match s.instant? with
      | some w => w.millis = i.millis ∧ (zone.offsetAt w).CutTo i.offset
      | none => (i.millis.toInt < -8334601228800000 ∨ 8210266876799999 < i.millis.toInt)
        ∧ i.offset = 0)
    ∧ (∀ opposite : Zone, (∀ w, (opposite.offsetAt w).seconds = -(zone.offsetAt w).seconds) →
        ∃ j, s.perform opposite = .ok j ∧ j.offset.toInt = -i.offset.toInt)
    ∧ lastField i.line = some i.offset.text
    ∧ lastField i.describe = some (i.offset.text ++ "]") := by
  have hmade := h
  rw [s.perform_eq, ofOptions_eq_ok_iff] at hmade
  obtain ⟨hsigner, hmillis, hoffset⟩ := hmade
  have hbounds : -1439 ≤ i.offset.toInt ∧ i.offset.toInt ≤ 1439 := hoffset ▸ s.offset_bounds zone
  have hzone : i.zone.minutes = i.offset := by
    rw [Identity.zone, Zone.minutes_declared, if_pos hbounds]
  refine ⟨hbounds, ?_, ?_, ?_, lastField_line i, ?_⟩
  · rw [Identity.zone, Zone.seconds_declared, if_pos hbounds]
  · have hinstant := s.instant?_spec
    rw [hmillis, hoffset, Stamping.offset]
    cases hw : s.instant? with
    | some w =>
        rw [hw] at hinstant
        exact ⟨hinstant, (zone.offsetAt w).cutTo_minutes⟩
    | none =>
        rw [hw] at hinstant
        exact ⟨hinstant, rfl⟩
  · intro opposite hopposite
    refine ⟨⟨i.name, i.email, s.millis, s.offset opposite⟩, ?_, ?_⟩
    · rw [s.perform_eq, ofOptions_eq_ok_iff]
      exact ⟨hsigner, rfl, rfl⟩
    · rw [hoffset]
      exact s.toInt_offset_of_opposite zone hopposite
  · rw [lastField_describe, hzone]

/-- Amsterdam was 19 minutes and 32 seconds ahead until 1937; in the opposite zone half a minute is cut
off as well. -/
theorem stamped_offset_is_a_zone_amsterdam :
    let zone := Zone.constant ⟨1172, by decide, by decide⟩
    let opposite := Zone.constant ⟨-1172, by decide, by decide⟩
    let s := Stamping.ofSigner ⟨some "Ann", some "a@b"⟩ (.stopped (-1100000000000))
    let i : Identity := ⟨"Ann", "a@b", -1100000000000, 19⟩
    s.perform zone = .ok i ∧ i.zone.seconds = 1140
      ∧ lastField i.describe = some "+0019]"
      ∧ ∃ j, s.perform opposite = .ok j ∧ j.offset = -19 := by
  intro zone opposite s i
  have hmade : s.perform zone = .ok i := rfl
  obtain ⟨-, hzone, -, hopposite, -, htext⟩ := stamped_offset_is_a_zone s zone hmade
  obtain ⟨j, hj, hoffset⟩ := hopposite opposite fun _ => rfl
  have hwritten : i.offset.text ++ "]" = "+0019]" := by decide +kernel
  exact ⟨hmade, hzone, htext.trans (congrArg some hwritten), j, hj, Int32.toInt_inj.mp hoffset⟩

end Identity

end IdentityLine
