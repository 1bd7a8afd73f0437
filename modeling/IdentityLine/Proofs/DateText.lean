import IdentityLine.Identity
import IdentityLine.Proofs.CanonicalLine
import IdentityLine.Proofs.DayNumber
import IdentityLine.Proofs.NamedZone

/-!
# The text for people tells the true instant

A date text is split at its spaces and its time of day at its colons; what is
between them is read as names and numerals. The names of the months and of the
days are listed here once more, in the order in which people say them, so that
the reader does not ask the writer what it meant.

The reader says what time the text shows. The rest is arithmetic: a local time is
a day and a time of day, the day is the date's, and local time less the offset is
the instant that was shown. The offset of the text and the offset of the line are
written from different values. They agree as long as the zone of the offset is
found, and where it is not, the text is UTC throughout.
-/

namespace IdentityLine

open Text Calendar

/-! ## Reading a date text -/

/-- What a date text shows. -/
structure DateText where
  weekday : String
  date : Date
  hour : Nat
  minute : Nat
  second : Nat
  /-- The offset as it is written. -/
  zone : String
deriving DecidableEq

namespace DateText

/-- The names of the months, from the first. -/
def monthNames : List String :=
  ["Jan", "Feb", "Mar", "Apr", "May", "Jun", "Jul", "Aug", "Sep", "Oct", "Nov", "Dec"]

/-- The names of the days, from the one that the first day of 1970 was. -/
def weekdayNames : List String :=
  ["Thu", "Fri", "Sat", "Sun", "Mon", "Tue", "Wed"]

/-- Read a date text: six pieces with spaces between them, and the fourth in three pieces with
colons between them. -/
def ofText? (text : String) : Option DateText := do
  let (weekday, cs) ← splitAt? ' ' text.toList
  let (month, cs) ← splitAt? ' ' cs
  let (day, cs) ← splitAt? ' ' cs
  let (time, cs) ← splitAt? ' ' cs
  let (year, zone) ← splitAt? ' ' cs
  let (hour, cs) ← splitAt? ':' time
  let (minute, second) ← splitAt? ':' cs
  let place ← monthNames.idxOf? (String.ofList month)
  return {
    weekday := String.ofList weekday
    date := { year := ← Decimal.int? year, month := place + 1, day := ← Decimal.nat? day }
    hour := ← Decimal.nat? hour
    minute := ← Decimal.nat? minute
    second := ← Decimal.nat? second
    zone := String.ofList zone }

/-- Whether what is shown is a date of the calendar and a time of day, under the name that the day
of that date has. -/
def Valid (d : DateText) : Prop :=
  d.date.Exists ∧ d.hour < 24 ∧ d.minute < 60 ∧ d.second < 60
    ∧ weekdayNames[(dayNumber d.date % 7).toNat]? = some d.weekday

/-- The local time that is shown, in seconds since the start of 1970. -/
def localSeconds (d : DateText) : Int :=
  dayNumber d.date * 86400 + d.hour * 3600 + d.minute * 60 + d.second

/-! ## The pieces -/

theorem int?_yearText (year : Int) : Decimal.int? (yearText year).toList = some year := by
  rw [yearText, String.toList_ofList]
  split
  · next hneg =>
      have hvalue : -(year.natAbs : Int) = year := by omega
      rw [Decimal.int?, Decimal.nat?_padded]
      exact congrArg some hvalue
  · next hpos =>
      have hvalue : (year.natAbs : Int) = year := by omega
      split
      · rw [Decimal.int?, Decimal.nat?_padded]
        exact congrArg some hvalue
      · rw [Decimal.int?_of_isDigit fun _ h => Decimal.isDigit_of_mem_padded h,
          Decimal.nat?_padded]
        exact congrArg some hvalue

theorem space_not_mem_yearText (year : Int) : ' ' ∉ (yearText year).toList := by
  have hdigits : ' ' ∉ Decimal.padded 4 year.natAbs := Decimal.not_mem_padded rfl
  rw [yearText, String.toList_ofList]
  split
  · rw [List.mem_cons, not_or]
    exact ⟨by decide, hdigits⟩
  · split
    · rw [List.mem_cons, not_or]
      exact ⟨by decide, hdigits⟩
    · exact hdigits

theorem idxOf?_monthName {month : Nat} (hone : 1 ≤ month) (hle : month ≤ 12) :
    monthNames.idxOf? (monthName month) = some (month - 1) := by
  have hall : ∀ m < 13, 1 ≤ m → monthNames.idxOf? (monthName m) = some (m - 1) := by decide
  exact hall month (by omega) hone

theorem space_not_mem_monthName (month : Nat) : ' ' ∉ (monthName month).toList := by
  unfold monthName
  split
  all_goals decide

theorem getElem?_weekdayName (n : Int) :
    weekdayNames[(n % 7).toNat]? = some (weekdayName n) := by
  have hlt : (n % 7).toNat < 7 := by omega
  rw [weekdayName]
  generalize (n % 7).toNat = place at hlt
  revert place
  decide

theorem space_not_mem_weekdayName (n : Int) : ' ' ∉ (weekdayName n).toList := by
  unfold weekdayName
  split
  all_goals decide

theorem month_le {d : Date} (h : d.Exists) : d.month ≤ 12 := by
  obtain ⟨-, -, length, hlen, -⟩ := h
  have hlt := (List.getElem?_eq_some_iff.mp hlen).1
  have htwelve : (monthLengths (isLeap d.year)).length = 12 := rfl
  omega

/-! ## The whole text -/

/-- The characters of a date text, with its structure in plain sight. -/
theorem toList_timestamp {seconds : Int} {date : Date} (hdate : dateOf (seconds / 86400) = date)
    (zone : String) :
    (timestamp seconds zone).toList =
      (weekdayName (seconds / 86400)).toList ++ ' ' ::
      ((monthName date.month).toList ++ ' ' ::
      (Decimal.digits date.day ++ ' ' ::
      ((Decimal.padded 2 ((seconds % 86400).toNat / 3600) ++ ':' ::
        (Decimal.padded 2 ((seconds % 86400).toNat / 60 % 60) ++ ':' ::
        Decimal.padded 2 ((seconds % 86400).toNat % 60))) ++ ' ' ::
      ((yearText date.year).toList ++ ' ' :: zone.toList)))) := by
  have hspace : " ".toList = [' '] := rfl
  have hcolon : ":".toList = [':'] := rfl
  simp only [timestamp, hdate, timeOfDay, twoDigits, String.toList_append, String.toList_ofList,
    hspace, hcolon, List.append_assoc, List.cons_append, List.nil_append]

theorem ofText?_timestamp {seconds : Int} {date : Date} (hdate : dateOf (seconds / 86400) = date)
    (hexists : date.Exists) (zone : String) :
    ofText? (timestamp seconds zone) = some {
      weekday := weekdayName (seconds / 86400)
      date
      hour := (seconds % 86400).toNat / 3600
      minute := (seconds % 86400).toNat / 60 % 60
      second := (seconds % 86400).toNat % 60
      zone } := by
  have htime : ∀ a b c : Nat, ' ' ∉ Decimal.padded 2 a ++ ':' ::
      (Decimal.padded 2 b ++ ':' :: Decimal.padded 2 c) := by
    intro a b c
    simp only [List.mem_append, List.mem_cons, not_or]
    exact ⟨Decimal.not_mem_padded rfl, by decide, Decimal.not_mem_padded rfl, by decide,
      Decimal.not_mem_padded rfl⟩
  have hmonth : monthNames.idxOf? (String.ofList (monthName date.month).toList)
      = some (date.month - 1) := by
    rw [String.ofList_toList]
    exact idxOf?_monthName hexists.1 (month_le hexists)
  rw [ofText?, toList_timestamp hdate]
  refine Option.bind_eq_some_iff.mpr ⟨_, splitAt?_append _ (space_not_mem_weekdayName _), ?_⟩
  refine Option.bind_eq_some_iff.mpr ⟨_, splitAt?_append _ (space_not_mem_monthName _), ?_⟩
  refine Option.bind_eq_some_iff.mpr ⟨_, splitAt?_append _ (Decimal.not_mem_digits rfl), ?_⟩
  refine Option.bind_eq_some_iff.mpr ⟨_, splitAt?_append _ (htime _ _ _), ?_⟩
  refine Option.bind_eq_some_iff.mpr ⟨_, splitAt?_append _ (space_not_mem_yearText _), ?_⟩
  refine Option.bind_eq_some_iff.mpr ⟨_, splitAt?_append _ (Decimal.not_mem_padded rfl), ?_⟩
  refine Option.bind_eq_some_iff.mpr ⟨_, splitAt?_append _ (Decimal.not_mem_padded rfl), ?_⟩
  refine Option.bind_eq_some_iff.mpr ⟨_, hmonth, ?_⟩
  refine Option.bind_eq_some_iff.mpr ⟨_, int?_yearText _, ?_⟩
  refine Option.bind_eq_some_iff.mpr ⟨_, Decimal.nat?_digits _, ?_⟩
  refine Option.bind_eq_some_iff.mpr ⟨_, Decimal.nat?_padded _ _, ?_⟩
  refine Option.bind_eq_some_iff.mpr ⟨_, Decimal.nat?_padded _ _, ?_⟩
  refine Option.bind_eq_some_iff.mpr ⟨_, Decimal.nat?_padded _ _, ?_⟩
  rw [Nat.sub_add_cancel hexists.1, String.ofList_toList, String.ofList_toList]
  rfl

/-- Whatever local time is written, the text shows that time and no other. -/
theorem timestamp_spec (seconds : Int) (zone : String) :
    ∃ d, ofText? (timestamp seconds zone) = some d ∧ d.Valid ∧ d.localSeconds = seconds
      ∧ d.zone = zone := by
  obtain ⟨hexists, hnumber⟩ := dateOf_spec (seconds / 86400)
  generalize hdate : dateOf (seconds / 86400) = date at hexists hnumber
  refine ⟨_, ofText?_timestamp hdate hexists zone, ⟨hexists, ?_, ?_, ?_, ?_⟩, ?_, rfl⟩
  · show (seconds % 86400).toNat / 3600 < 24
    omega
  · show (seconds % 86400).toNat / 60 % 60 < 60
    omega
  · show (seconds % 86400).toNat % 60 < 60
    omega
  · show weekdayNames[(dayNumber date % 7).toNat]? = _
    rw [hnumber]
    exact getElem?_weekdayName _
  · simp only [localSeconds, hnumber]
    omega

end DateText

/-! ## The instant of an identity -/

/-- Milliseconds are cut down to whole seconds, and those stop at the ends of the calendar. -/
theorem Instant.seconds_ofMillis (millis : Int64) :
    (ofMillis millis).seconds = max (-8334601228800) (min (millis.toInt / 1000) 8210266876799) := by
  rw [ofMillis, ofMillis?]
  split
  · next h =>
      show millis.toInt / 1000 = _
      omega
  · next h =>
      rw [Option.getD_none]
      split
      · show (-8334601228800 : Int) = _
        omega
      · show (8210266876799 : Int) = _
        omega

namespace Identity

theorem splitAtLast?_line (i : Identity) :
    (splitAtLast? ' ' i.line.toList).map Prod.snd = some i.offset.text.toList := by
  have hoffset : ' ' ∉ i.offset.chars := Offset.not_mem_chars (by decide) (by decide) rfl
  have hline : i.line.toList = (clean i.name.toList ++ [' '] ++ '<' :: (clean i.email.toList ++
      '>' :: ' ' :: Decimal.signed i.seconds)) ++ ' ' :: i.offset.chars := by
    simp only [toList_line, List.append_assoc, List.cons_append]
  rw [hline, splitAtLast?_append _ hoffset, Offset.text, String.toList_ofList]
  rfl

theorem minutes_zone (i : Identity) : 60 * i.zone.minutes.toInt = i.zone.seconds := by
  rw [zone, Zone.minutes_declared, Zone.seconds_declared]
  split
  · rfl
  · rfl

/-- The text for people tells the true instant: it can be read, what it shows is a date of the
calendar under its weekday's name, and local time less the offset beside it is the instant, also
where the calendar ends and the local time goes past it. The offset is that of the line, unless the
line's is no zone of a day; then it is UTC. -/
theorem describe_instant (i : Identity) :
    i.describe = "PersonIdent[" ++ i.name ++ ", " ++ i.email ++ ", " ++ i.dateText ++ "]"
    ∧ ∃ d minutes, DateText.ofText? i.dateText = some d ∧ d.Valid
      ∧ Offset.minutesOf? d.zone.toList = some minutes
      ∧ d.localSeconds - 60 * minutes = i.instant.seconds
      ∧ i.instant.seconds = max (-8334601228800) (min (i.millis.toInt / 1000) 8210266876799)
      ∧ if -1439 ≤ i.offset.toInt ∧ i.offset.toInt ≤ 1439 then
          (splitAtLast? ' ' i.line.toList).map Prod.snd = some d.zone.toList
        else d.zone = "+0000" := by
  obtain ⟨d, hread, hvalid, hlocal, hzone⟩ :=
    DateText.timestamp_spec (i.instant.seconds + i.zone.seconds) i.zone.minutes.text
  refine ⟨rfl, d, i.zone.minutes.toInt, hread, hvalid, ?_, ?_, ?_, ?_⟩
  · rw [hzone, Offset.text, String.toList_ofList]
    exact Offset.minutesOf?_chars _
  · rw [hlocal, minutes_zone]
    exact Int.add_sub_cancel _ _
  · exact Instant.seconds_ofMillis i.millis
  · rw [hzone, zone, Zone.minutes_declared]
    split
    · exact splitAtLast?_line i
    · rfl

end Identity

end IdentityLine
