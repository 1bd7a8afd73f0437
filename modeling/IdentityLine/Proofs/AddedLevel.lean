import IdentityLine.Proofs.GivenOptions
import IdentityLine.Proofs.TakingEntries

/-!
# A level that is added to a call

A call that asks for no level of logging can be given one, by a flag between any two
arguments where an option can stand. This module says what becomes of it: the call
asks for that level and is otherwise the same, and with a flag that names no level it
is no call.

Both readings go through the same arguments, so there is a step to compare for each.
Two things are in the way. The flag settles what came before it, which would else have
been settled later; but in arguments that make a call it would have been settled all
the same, and `SettlesFirst` says that nothing comes of doing it early. And from the
flag on there is a level. Nothing that is read looks at it but another flag, and that
there was no other shows in the end: a level that is once there stays, so `Unasked` is
carried back from the call to every step before it.
-/

namespace IdentityLine

/-- A call, asking for a level. -/
def Invocation.leveled (level : Level) (call : Invocation) : Invocation :=
  { call with logLevel := some level }

namespace Arguments

/-! ## Readings without a level -/

namespace Progress

/-- How far arguments have been read, with this level. -/
def leveled (level : Level) (p : Progress) : Progress :=
  { p with given := p.given.withLevel (some level) }

/-- There is no level so far, and none is about to come. -/
structure Unasked (p : Progress) : Prop where
  given : p.given.logLevel = none
  pending : ∀ value, p.pending ≠ some (.logLevel, value)

end Progress

/-- An item that leaves no level behind is not the level, and found none. -/
theorem of_put_eq_ok {g g' : Given} {item : Item} {value : String}
    (h : g.put item value = .ok g') (hnone : g'.logLevel = none) :
    item ≠ .logLevel ∧ g.logLevel = none := by
  have hitem : item ≠ .logLevel := by
    rintro rfl
    dsimp only [Given.put] at h
    unfold store at h
    split at h
    · cases h
    · split at h
      · cases h
        cases hnone
      · cases h
  -- Putting another item keeps whatever level there is.
  have hkeep := put_withLevel hitem g.logLevel g value
  rw [h] at hkeep
  have hsame : g' = g'.withLevel g.logLevel := Except.ok.inj (h.symm.trans hkeep)
  exact ⟨hitem, (congrArg Given.logLevel hsame).symm.trans hnone⟩

theorem put_leveled {g g' : Given} {item : Item} {value : String}
    (h : g.put item value = .ok g') (hitem : item ≠ .logLevel) (level : Level) :
    (g.withLevel (some level)).put item value = .ok (g'.withLevel (some level)) := by
  rw [put_withLevel hitem, h]
  rfl

/-- What an option does that is read. It settles what came before it, and then its value is put or
still to come. -/
inductive TakesOption (topic : Topic) (p : Progress) (word : String) :
    Option String → Progress → Prop
  | value {item : Item} {value : String} {q : Progress} {g : Given}
      (found : (options topic).find? (fun item => item.word == some word) = some item)
      (takes : item.takesValue = true) (settled : p.settle = .ok q)
      (put : q.given.put item value = .ok g) :
      TakesOption topic p word (some value) { q with given := g }
  | waits {item : Item} {q : Progress}
      (found : (options topic).find? (fun item => item.word == some word) = some item)
      (takes : item.takesValue = true) (settled : p.settle = .ok q) :
      TakesOption topic p word none { q with pending := some (item, none) }
  | alone {item : Item} {q : Progress} {g : Given}
      (found : (options topic).find? (fun item => item.word == some word) = some item)
      (takes : item.takesValue = false) (settled : p.settle = .ok q)
      (put : q.given.put item "" = .ok g) :
      TakesOption topic p word none { q with given := g }

section Steps

variable {topic : Topic} {p p₁ : Progress} {level : Level}

theorem readOption_eq_ok_iff {word : String} {attached : Option String} :
    readOption topic p word attached = .ok p₁ ↔ TakesOption topic p word attached p₁ := by
  constructor
  · intro h
    unfold readOption at h
    split at h
    · next item found =>
        split at h
        · next takes =>
            obtain ⟨q, settled, h⟩ := bind_eq_ok_iff.mp h
            cases attached with
            | some value =>
                obtain ⟨g, put, h⟩ := bind_eq_ok_iff.mp h
                cases h
                exact .value found takes settled put
            | none =>
                cases h
                exact .waits found takes settled
        · next takes =>
            cases attached with
            | some value => cases h
            | none =>
                obtain ⟨q, settled, h⟩ := bind_eq_ok_iff.mp h
                obtain ⟨g, put, h⟩ := bind_eq_ok_iff.mp h
                cases h
                exact .alone found (Bool.eq_false_iff.mpr takes) settled put
    · -- Asking for help or the version ends the reading, and so does what is no option.
      split at h
      · split at h
        · cases h
        · obtain ⟨_, _, h⟩ := bind_eq_ok_iff.mp h
          cases h
      · cases h
  · intro h
    cases h with
    | value found takes settled put =>
        rw [readOption, found]
        dsimp only
        rw [if_pos takes]
        exact bind_eq_ok_iff.mpr ⟨_, settled, bind_eq_ok_iff.mpr ⟨_, put, rfl⟩⟩
    | waits found takes settled =>
        rw [readOption, found]
        dsimp only
        rw [if_pos takes]
        exact bind_eq_ok_iff.mpr ⟨_, settled, rfl⟩
    | alone found takes settled put =>
        rw [readOption, found]
        dsimp only
        rw [if_neg (Bool.eq_false_iff.mp takes)]
        exact bind_eq_ok_iff.mpr ⟨_, settled, bind_eq_ok_iff.mpr ⟨_, put, rfl⟩⟩

theorem settle_leveled (h : p.settle = .ok p₁) (hnone : p₁.given.logLevel = none) (level : Level) :
    p.Unasked ∧ (p.leveled level).settle = .ok (p₁.leveled level) := by
  unfold Progress.settle at h
  split at h
  · next hpending =>
      obtain rfl := Except.ok.inj h
      refine ⟨⟨hnone, by simp [hpending]⟩, ?_⟩
      dsimp only [Progress.settle, Progress.leveled]
      rw [hpending]
  · cases h
  · next item value hpending =>
      obtain ⟨g, hput, h⟩ := bind_eq_ok_iff.mp h
      obtain rfl := Except.ok.inj h
      obtain ⟨hitem, hgiven⟩ := of_put_eq_ok hput hnone
      refine ⟨⟨hgiven, by simp [hpending, hitem]⟩, ?_⟩
      dsimp only [Progress.settle, Progress.leveled]
      rw [hpending]
      dsimp only
      rw [put_leveled hput hitem level]
      rfl

/-- What comes before an item that is put has no level either. -/
theorem put_settled_leveled {item : Item} {value : String} {g : Given}
    (settled : p.settle = .ok p₁) (put : p₁.given.put item value = .ok g)
    (hnone : g.logLevel = none) (level : Level) :
    p.Unasked ∧ (p.leveled level).settle = .ok (p₁.leveled level)
      ∧ (p₁.leveled level).given.put item value = .ok (g.withLevel (some level)) := by
  obtain ⟨hitem, hgiven⟩ := of_put_eq_ok put hnone
  obtain ⟨hunasked, hsettled⟩ := settle_leveled settled hgiven level
  exact ⟨hunasked, hsettled, put_leveled put hitem level⟩

/-- A step of reading comes from a reading that has no level either, and goes the same way with
one. -/
def Carries (step : Progress → Except Usage Progress) : Prop :=
  ∀ level p p₁, step p = .ok p₁ → p₁.Unasked →
    p.Unasked ∧ step (p.leveled level) = .ok (p₁.leveled level)

theorem carries_readOption (topic : Topic) (word : String) (attached : Option String) :
    Carries fun p => readOption topic p word attached := by
  intro level p p₁ h hnone
  cases readOption_eq_ok_iff.mp h with
  | value found takes settled put =>
      obtain ⟨hunasked, settled, put⟩ := put_settled_leveled settled put hnone.given level
      have htake := TakesOption.value found takes settled put
      exact ⟨hunasked, readOption_eq_ok_iff.mpr htake⟩
  | waits found takes settled =>
      obtain ⟨hunasked, settled⟩ := settle_leveled settled hnone.given level
      exact ⟨hunasked, readOption_eq_ok_iff.mpr (.waits found takes settled)⟩
  | alone found takes settled put =>
      obtain ⟨hunasked, settled, put⟩ := put_settled_leveled settled put hnone.given level
      have htake := TakesOption.alone found takes settled put
      exact ⟨hunasked, readOption_eq_ok_iff.mpr htake⟩

theorem carries_takePlace (topic : Topic) (value : String) :
    Carries fun p => takePlace topic p value := by
  intro level p p₁ h hnone
  dsimp only at h ⊢
  have hplaced : (p.leveled level).placed = p.placed := rfl
  unfold takePlace at h ⊢
  rw [hplaced]
  split at h
  · next item hitem hfree =>
      obtain ⟨q, hsettle, h⟩ := bind_eq_ok_iff.mp h
      obtain rfl := Except.ok.inj h
      obtain ⟨hunasked, hsettled⟩ := settle_leveled hsettle hnone.given level
      exact ⟨hunasked, bind_eq_ok_iff.mpr ⟨_, hsettled, rfl⟩⟩
  · split at h
    · cases h
    · cases h

theorem carries_takeValue (topic : Topic) (value : String) :
    Carries fun p => takeValue topic p value := by
  intro level p p₁ h hnone
  dsimp only at h ⊢
  have hawaiting : (p.leveled level).awaiting = p.awaiting := rfl
  unfold takeValue at h ⊢
  rw [hawaiting]
  split at h
  · next item hitem =>
      obtain rfl := Except.ok.inj h
      refine ⟨⟨hnone.given, fun v hpending => ?_⟩, rfl⟩
      -- What waits for a value here has it in the end, so it is not the level.
      obtain rfl : item = .logLevel := by
        rw [Progress.awaiting, hpending] at hitem
        cases v with
        | none => exact (Option.some.inj hitem).symm
        | some v => cases hitem
      exact hnone.pending (some value) rfl
  · exact carries_takePlace topic value level p p₁ h hnone

theorem not_readLetter_eq_ok (topic : Topic) (p p₁ : Progress) (letter : Char) :
    readLetter topic p letter ≠ .ok p₁ := by
  intro h
  unfold readLetter at h
  split at h
  · obtain ⟨_, _, h⟩ := bind_eq_ok_iff.mp h
    cases h
  · cases h

theorem readArgument_of_ended (h : p.valuesOnly = true) (arg : String) :
    readArgument topic p arg = takePlace topic p arg := by
  rw [readArgument, if_pos h]

theorem carries_readArgument (topic : Topic) (arg : String) :
    Carries fun p => readArgument topic p arg := by
  intro level p p₁ h hnone
  dsimp only at h ⊢
  cases hopen : p.valuesOnly with
  | true =>
      have hopen' : (p.leveled level).valuesOnly = true := hopen
      rw [readArgument_of_ended hopen] at h
      rw [readArgument_of_ended hopen']
      exact carries_takePlace topic arg level p p₁ h hnone
  | false =>
      have hopen' : (p.leveled level).valuesOnly = false := hopen
      cases readsAs topic arg with
      | dashes _ hread =>
          rw [hread p hopen] at h
          rw [hread _ hopen']
          obtain rfl := Except.ok.inj h
          exact ⟨⟨hnone.given, hnone.pending⟩, rfl⟩
      | option word attached _ _ _ hread =>
          rw [hread p hopen] at h
          rw [hread _ hopen']
          exact carries_readOption topic word attached level p p₁ h hnone
      | letter letter numeral _ _ hread =>
          rw [hread p hopen] at h
          rw [hread _ hopen']
          have hwants : wantsNegative topic (p.leveled level) = wantsNegative topic p := rfl
          rw [hwants]
          split at h
          · next htaken =>
              rw [if_pos htaken]
              exact carries_takeValue topic arg level p p₁ h hnone
          · exact absurd h (not_readLetter_eq_ok topic p p₁ letter)
      | value _ _ hread =>
          rw [hread p hopen] at h
          rw [hread _ hopen']
          exact carries_takeValue topic arg level p p₁ h hnone

end Steps

/-! ## Settling early -/

section Settling

variable {α : Type} {topic : Topic} {p q : Progress} {arg : String}

theorem settle_of_settled (h : p.settle = .ok q) : q.settle = .ok q := by
  rw [Progress.settle, (settle_eq_ok h).2.1]

theorem awaiting_of_settled (h : p.settle = .ok q) : q.awaiting = none := by
  rw [Progress.awaiting, (settle_eq_ok h).2.1]

/-- An argument that does not end the options settles what came before it. -/
theorem refuses_readArgument (h : Refuses p.settle) (hawaiting : p.awaiting = none)
    (harg : p.valuesOnly = false → arg ≠ "--") : Refuses (readArgument topic p arg) := by
  have hvalue : Refuses (takeValue topic p arg) := by
    rw [takeValue, hawaiting]
    exact refuses_takePlace h arg
  cases hopen : p.valuesOnly with
  | true =>
      rw [readArgument_of_ended hopen]
      exact refuses_takePlace h arg
  | false =>
      cases readsAs topic arg with
      | dashes hdashes _ => exact absurd hdashes (harg hopen)
      | option word attached _ _ _ hread =>
          rw [hread p hopen]
          exact refuses_readOption h word attached
      | letter letter numeral _ _ hread =>
          rw [hread p hopen]
          split
          · exact hvalue
          · exact refuses_readLetter h letter
      | value _ _ hread =>
          rw [hread p hopen]
          exact hvalue

/-- It is then read as if that had been settled before. -/
theorem readArgument_of_settled (h : p.settle = .ok q) (harg : p.valuesOnly = false → arg ≠ "--") :
    readArgument topic q arg = readArgument topic p arg := by
  obtain ⟨hawaiting, -, hended, hplaced⟩ := settle_eq_ok h
  have hsettle : q.settle = p.settle := (settle_of_settled h).trans h.symm
  have hwaits : q.awaiting = none := awaiting_of_settled h
  have hplace : takePlace topic q arg = takePlace topic p arg := by
    rw [takePlace, takePlace, hplaced, hended, hsettle]
  have hvalue : takeValue topic q arg = takeValue topic p arg := by
    rw [takeValue, takeValue, hwaits, hawaiting, hplace]
  cases hopen : p.valuesOnly with
  | true => rw [readArgument_of_ended (hended.trans hopen), readArgument_of_ended hopen, hplace]
  | false =>
      cases readsAs topic arg with
      | dashes hdashes _ => exact absurd hdashes (harg hopen)
      | option word attached _ _ _ hread =>
          rw [hread q (hended.trans hopen), hread p hopen, readOption, readOption, hsettle]
      | letter letter numeral _ _ hread =>
          rw [hread q (hended.trans hopen), hread p hopen, wantsNegative, wantsNegative, hwaits,
            hawaiting, hplaced, hvalue, readLetter, readLetter, hsettle]
      | value _ _ hread => rw [hread q (hended.trans hopen), hread p hopen, hvalue]

/-- What comes of a reading that waits for no value comes of it as well once it has settled. -/
def SettlesFirst (rest : Progress → Except Usage α) : Prop :=
  ∀ {p a}, p.awaiting = none → rest p = .ok a → ∃ q, p.settle = .ok q ∧ rest q = .ok a

theorem SettlesFirst.readArgument {rest : Progress → Except Usage α} (hrest : SettlesFirst rest)
    (topic : Topic) (arg : String) :
    SettlesFirst fun p => Arguments.readArgument topic p arg >>= rest := by
  intro p a hawaiting h
  by_cases hdashes : p.valuesOnly = false ∧ arg = "--"
  · -- The end of the options settles nothing itself, and leaves it to what comes behind it.
    obtain ⟨hopen, rfl⟩ := hdashes
    have hended : ∀ r : Progress, r.valuesOnly = false →
        Arguments.readArgument topic r "--" = .ok { r with valuesOnly := true } := fun r hr => by
      rw [Arguments.readArgument, hr]
      rfl
    dsimp only at h ⊢
    rw [hended p hopen] at h
    obtain ⟨q₁, hsettle₁, hq₁⟩ := hrest (p := { p with valuesOnly := true }) hawaiting h
    rw [settle_valuesOnly p true] at hsettle₁
    cases hsettle : p.settle with
    | error u =>
        rw [hsettle] at hsettle₁
        cases hsettle₁
    | ok q =>
        rw [hsettle] at hsettle₁
        obtain rfl := Except.ok.inj hsettle₁
        refine ⟨q, rfl, ?_⟩
        rw [hended q ((settle_eq_ok hsettle).2.2.1.trans hopen)]
        exact hq₁
  · have harg : p.valuesOnly = false → arg ≠ "--" := fun hopen heq => hdashes ⟨hopen, heq⟩
    cases hsettle : p.settle with
    | error u =>
        have hrefuses : Refuses (Arguments.readArgument topic p arg) :=
          refuses_readArgument ⟨u, hsettle, exitCode_of_settle hsettle⟩ hawaiting harg
        obtain ⟨u', hu', -⟩ := hrefuses.bind rest
        dsimp only at h
        rw [hu'] at h
        cases h
    | ok q =>
        refine ⟨q, rfl, ?_⟩
        dsimp only at h ⊢
        rw [readArgument_of_settled hsettle harg]
        exact h

theorem settlesFirst_readAll (topic : Topic) (args : List String) :
    SettlesFirst fun p => readAll topic p args := by
  induction args with
  | nil =>
      intro p a _ h
      exact ⟨a, h, settle_of_settled h⟩
  | cons arg args ih => exact ih.readArgument topic arg

end Settling

/-! ## All arguments, with a level from the start -/

section All

variable {topic : Topic} {p : Progress} {arg : String}

theorem readAll_leveled {args : List String} {e : Progress} (h : readAll topic p args = .ok e)
    (hnone : e.given.logLevel = none) (level : Level) :
    p.Unasked ∧ readAll topic (p.leveled level) args = .ok (e.leveled level) := by
  induction args generalizing p with
  | nil => exact settle_leveled h hnone level
  | cons arg args ih =>
      obtain ⟨p₁, hread, hrest⟩ := bind_eq_ok_iff.mp h
      obtain ⟨hunasked₁, hrest⟩ := ih hrest
      obtain ⟨hunasked, hread⟩ := carries_readArgument topic arg level p p₁ hread hunasked₁
      exact ⟨hunasked, bind_eq_ok_iff.mpr ⟨_, hread, hrest⟩⟩

/-- Where a command is called, its own arguments are read and then what came before it is settled. -/
theorem readProgram_eq_ok_iff {args : List String} {call : Invocation}
    (hcalls : calls? p arg = some topic) :
    readProgram p (arg :: args) = .ok call ↔ topic ≠ .help ∧ ∃ inner outer,
      readAll topic {} args = .ok inner ∧ complete topic inner.given = .ok call.command
        ∧ p.settle = .ok outer
        ∧ (inner.given.logLevel <|> outer.given.logLevel) = call.logLevel := by
  rw [readProgram_of_some hcalls]
  split
  · next hhelp => exact ⟨nofun, fun ⟨hne, _⟩ => absurd hhelp hne⟩
  · next hne =>
      simp only [bind_eq_ok_iff]
      constructor
      · rintro ⟨inner, hinner, command, hcommand, outer, houter, h⟩
        obtain rfl := Except.ok.inj h
        exact ⟨hne, inner, outer, hinner, hcommand, houter, rfl⟩
      · rintro ⟨-, inner, outer, hinner, hcommand, houter, hlevel⟩
        refine ⟨inner, hinner, call.command, hcommand, outer, houter, ?_⟩
        rw [hlevel]
        rfl

theorem settlesFirst_readProgram (args : List String) :
    SettlesFirst fun p => readProgram p args := by
  induction args with
  | nil =>
      intro p a _ h
      obtain ⟨u, hu, -⟩ := refuses_readProgram_nil p
      cases hu.symm.trans h
  | cons arg args ih =>
      intro p call hawaiting h
      dsimp only at h ⊢
      have hsame : ∀ q, p.settle = .ok q → calls? q arg = calls? p arg := fun q hq => by
        rw [calls?, calls?, (settle_eq_ok hq).2.2.1, awaiting_of_settled hq, hawaiting]
      cases hcalls : calls? p arg with
      | none =>
          rw [readProgram_of_none hcalls] at h
          obtain ⟨q, hsettle, hq⟩ := ih.readArgument .program arg hawaiting h
          exact ⟨q, hsettle, (readProgram_of_none ((hsame q hsettle).trans hcalls) args).trans hq⟩
      | some topic =>
          obtain ⟨hne, inner, outer, hinner, hcommand, houter, hlevel⟩ :=
            (readProgram_eq_ok_iff hcalls).mp h
          exact ⟨outer, houter, (readProgram_eq_ok_iff ((hsame outer houter).trans hcalls)).mpr
            ⟨hne, inner, outer, hinner, hcommand, settle_of_settled houter, hlevel⟩⟩

theorem orElse_eq_none_iff {β : Type} {a b : Option β} :
    (a <|> b) = none ↔ a = none ∧ b = none := by
  cases a <;> simp

theorem readProgram_leveled {args : List String} {call : Invocation}
    (h : readProgram p args = .ok call) (hnone : call.logLevel = none) (level : Level) :
    p.Unasked ∧ readProgram (p.leveled level) args = .ok (call.leveled level) := by
  induction args generalizing p with
  | nil =>
      obtain ⟨u, hu, -⟩ := refuses_readProgram_nil p
      cases hu.symm.trans h
  | cons arg args ih =>
      have hsame : calls? (p.leveled level) arg = calls? p arg := rfl
      cases hcalls : calls? p arg with
      | none =>
          rw [readProgram_of_none hcalls] at h
          rw [readProgram_of_none (hsame.trans hcalls)]
          obtain ⟨p₁, hread, hrest⟩ := bind_eq_ok_iff.mp h
          obtain ⟨hunasked₁, hrest⟩ := ih hrest
          obtain ⟨hunasked, hread⟩ :=
            carries_readArgument .program arg level p p₁ hread hunasked₁
          exact ⟨hunasked, bind_eq_ok_iff.mpr ⟨_, hread, hrest⟩⟩
      | some topic =>
          obtain ⟨hne, inner, outer, hinner, hcommand, houter, hlevel⟩ :=
            (readProgram_eq_ok_iff hcalls).mp h
          obtain ⟨hinnerNone, houterNone⟩ := orElse_eq_none_iff.mp (hlevel.trans hnone)
          obtain ⟨hunasked, houter⟩ := settle_leveled houter houterNone level
          refine ⟨hunasked, (readProgram_eq_ok_iff (hsame.trans hcalls)).mpr
            ⟨hne, inner, _, hinner, hcommand, houter, ?_⟩⟩
          rw [hinnerNone]
          rfl

end All

/-! ## Adding the flag -/

section Adding

variable {α : Type} {topic : Topic} {p : Progress} {text : String}

theorem put_level {g : Given} (hnone : g.logLevel = none) (text : String) :
    g.put .logLevel text =
      match Level.named? text with
      | some level => .ok (g.withLevel (some level))
      | none => .error .badValue := by
  dsimp only [Given.put]
  rw [store, hnone]
  cases Level.named? text with
  | none => rfl
  | some level => rfl

/-- A flag settles what came before it and takes its level. -/
theorem readArgument_added (htopic : topic ≠ .help) (hopen : p.valuesOnly = false)
    (text : String) :
    readArgument topic p ("--log-level=" ++ text) =
      p.settle >>= fun q => q.given.put .logLevel text >>= fun g => .ok { q with given := g } := by
  have hread : readArgument topic p ("--log-level=" ++ text) =
      readOption topic p "log-level" (some text) :=
    @readArgument_attached topic p hopen "log-level" (by decide) text
  rw [hread, readOption_level, if_neg htopic]

/-- Whatever is read behind a flag is read with its level. -/
theorem readArgument_added_bind {rest : Progress → Except Usage α} {put : Level → α → α} {a : α}
    (hfirst : SettlesFirst rest)
    (hleveled : ∀ q level, rest q = .ok a →
      q.Unasked ∧ rest (q.leveled level) = .ok (put level a))
    (htopic : topic ≠ .help) (hopen : p.valuesOnly = false) (hawaiting : p.awaiting = none)
    (h : rest p = .ok a) (text : String) :
    readArgument topic p ("--log-level=" ++ text) >>= rest =
      match Level.named? text with
      | some level => .ok (put level a)
      | none => .error .badValue := by
  obtain ⟨q, hsettle, hrest⟩ := hfirst hawaiting h
  have hnone : q.given.logLevel = none := (hleveled q .off hrest).1.given
  rw [readArgument_added htopic hopen, hsettle]
  change q.given.put .logLevel text >>= (fun g => .ok { q with given := g }) >>= rest = _
  rw [put_level hnone]
  cases Level.named? text with
  | none => rfl
  | some level => exact (hleveled q level hrest).2

/-- An argument that is an option alone, whose value is still to come. -/
def AwaitsValue (arg : String) : Prop :=
  ∃ item word, Item.word item = some word ∧ item.takesValue = true ∧ arg = "--" ++ word

/-- An option can stand behind these arguments: the options have not ended, and the last of the
arguments does not wait for its value. -/
structure OpenBehind (front : List String) : Prop where
  options : "--" ∉ front
  last : ∀ arg, front.getLast? = some arg → ¬ AwaitsValue arg

theorem OpenBehind.tail {arg : String} {front : List String} (h : OpenBehind (arg :: front)) :
    OpenBehind front where
  options hmem := h.options (List.mem_cons_of_mem _ hmem)
  last last hlast := by
    refine h.last last ?_
    rw [List.getLast?_cons, hlast]
    rfl

theorem readOption_keeps {p₁ : Progress} {word : String} {attached : Option String}
    (h : readOption topic p word attached = .ok p₁) :
    p₁.valuesOnly = p.valuesOnly ∧ (p₁.awaiting = none ∨ attached = none
      ∧ ∃ item, Item.word item = some word ∧ item.takesValue = true) := by
  cases readOption_eq_ok_iff.mp h with
  | value _ _ settled _ | alone _ _ settled _ =>
      have hwaits := awaiting_of_settled settled
      exact ⟨(settle_eq_ok settled).2.2.1, .inl hwaits⟩
  | waits found takes settled =>
      have hword := List.find?_some found
      exact ⟨(settle_eq_ok settled).2.2.1, .inr ⟨rfl, _, eq_of_beq hword, takes⟩⟩

theorem takePlace_keeps {p₁ : Progress} {value : String} (h : takePlace topic p value = .ok p₁) :
    p₁.valuesOnly = p.valuesOnly ∧ p₁.awaiting = none := by
  unfold takePlace at h
  split at h
  · obtain ⟨q, hsettle, h⟩ := bind_eq_ok_iff.mp h
    obtain rfl := Except.ok.inj h
    exact ⟨(settle_eq_ok hsettle).2.2.1, rfl⟩
  · split at h
    · cases h
    · cases h

theorem takeValue_keeps {p₁ : Progress} {value : String} (h : takeValue topic p value = .ok p₁) :
    p₁.valuesOnly = p.valuesOnly ∧ p₁.awaiting = none := by
  unfold takeValue at h
  split at h
  · obtain rfl := Except.ok.inj h
    exact ⟨rfl, rfl⟩
  · exact takePlace_keeps h

/-- As long as the options have not ended, an argument leaves the reading open for one. -/
theorem readArgument_keeps {p₁ : Progress} {arg : String} (h : readArgument topic p arg = .ok p₁)
    (hopen : p.valuesOnly = false) (harg : arg ≠ "--") :
    p₁.valuesOnly = false ∧ (¬ AwaitsValue arg → p₁.awaiting = none) := by
  have hvalue : takeValue topic p arg = .ok p₁ →
      p₁.valuesOnly = false ∧ (¬ AwaitsValue arg → p₁.awaiting = none) := fun h =>
    ⟨(takeValue_keeps h).1.trans hopen, fun _ => (takeValue_keeps h).2⟩
  cases readsAs topic arg with
  | dashes hdashes _ => exact absurd hdashes harg
  | option word attached _ _ hbare hread =>
      rw [hread p hopen] at h
      obtain ⟨hended, hawaiting⟩ := readOption_keeps h
      refine ⟨hended.trans hopen, fun hnot => ?_⟩
      rcases hawaiting with hnone | ⟨hattached, item, hword, htakes⟩
      · exact hnone
      · exact absurd ⟨item, word, hword, htakes, hbare hattached⟩ hnot
  | letter letter numeral _ _ hread =>
      rw [hread p hopen] at h
      split at h
      · exact hvalue h
      · exact absurd h (not_readLetter_eq_ok topic p p₁ letter)
  | value _ _ hread =>
      rw [hread p hopen] at h
      exact hvalue h

/-- A reading at which an option can stand once some arguments have been read. -/
structure OpenAt (p : Progress) (front : List String) : Prop where
  behind : OpenBehind front
  valuesOnly : p.valuesOnly = false
  awaiting : front = [] → p.awaiting = none

theorem OpenAt.read {arg : String} {front : List String} (h : OpenAt p (arg :: front))
    {p₁ : Progress} (hread : readArgument topic p arg = .ok p₁) : OpenAt p₁ front := by
  have harg : arg ≠ "--" := fun heq => h.behind.options (heq ▸ List.mem_cons_self)
  obtain ⟨hopen, hawaiting⟩ := readArgument_keeps hread h.valuesOnly harg
  refine ⟨h.behind.tail, hopen, ?_⟩
  rintro rfl
  exact hawaiting (h.behind.last arg rfl)

theorem openAt_start {front : List String} (h : OpenBehind front) : OpenAt {} front :=
  ⟨h, rfl, fun _ => rfl⟩

theorem readAll_added (htopic : topic ≠ .help) {front back : List String} (hplace : OpenAt p front)
    {e : Progress} (h : readAll topic p (front ++ back) = .ok e) (hnone : e.given.logLevel = none)
    (text : String) :
    readAll topic p (front ++ ("--log-level=" ++ text) :: back) =
      match Level.named? text with
      | some level => .ok (e.leveled level)
      | none => .error .badValue := by
  induction front generalizing p with
  | nil =>
      exact readArgument_added_bind (settlesFirst_readAll topic back)
        (fun q level hq => readAll_leveled hq hnone level) htopic hplace.valuesOnly
        (hplace.awaiting rfl) h text
  | cons arg front ih =>
      obtain ⟨p₁, hread, hrest⟩ := bind_eq_ok_iff.mp h
      rw [List.cons_append, readAll_cons, hread]
      exact ih (hplace.read hread) hrest

theorem readProgram_added {front back : List String} (hplace : OpenAt p front) {call : Invocation}
    (h : readProgram p (front ++ back) = .ok call) (hnone : call.logLevel = none) (text : String) :
    readProgram p (front ++ ("--log-level=" ++ text) :: back) =
      match Level.named? text with
      | some level => .ok (call.leveled level)
      | none => .error .badValue := by
  induction front generalizing p with
  | nil =>
      have hflag : calls? p ("--log-level=" ++ text) = none :=
        calls?_of_dashes (.inl (by simp [levelFlag?, splitEquals]))
      rw [List.nil_append, readProgram_of_none hflag]
      exact readArgument_added_bind (settlesFirst_readProgram back)
        (fun q level hq => readProgram_leveled hq hnone level) (by decide) hplace.valuesOnly
        (hplace.awaiting rfl) h text
  | cons arg front ih =>
      rw [List.cons_append] at h ⊢
      cases hcalls : calls? p arg with
      | none =>
          rw [readProgram_of_none hcalls] at h ⊢
          obtain ⟨p₁, hread, hrest⟩ := bind_eq_ok_iff.mp h
          rw [hread]
          exact ih (hplace.read hread) hrest
      | some topic =>
          obtain ⟨hne, inner, outer, hinner, hcommand, houter, hlevel⟩ :=
            (readProgram_eq_ok_iff hcalls).mp h
          obtain ⟨hinnerNone, houterNone⟩ := orElse_eq_none_iff.mp (hlevel.trans hnone)
          have hadded := readAll_added hne (openAt_start hplace.behind.tail) hinner hinnerNone text
          rw [readProgram_of_some hcalls, if_neg hne, hadded]
          cases Level.named? text with
          | none => rfl
          | some level =>
              have hsame : complete topic (inner.leveled level).given = .ok call.command := by
                rw [← hcommand]
                cases topic <;> rfl
              change (complete topic (inner.leveled level).given >>= fun command =>
                p.settle >>= fun outer => .ok (⟨command, some level⟩ : Invocation)) = _
              rw [hsame, houter]
              rfl

/-- A level can be added to a call that asks for none, wherever an option can stand. The call is the
same with that level; and a text that names no level spoils it. -/
theorem parse_added {front back : List String} (hplace : OpenBehind front) {call : Invocation}
    (h : parse (front ++ back) = .ok call) (hnone : call.logLevel = none) (text : String) :
    parse (front ++ ("--log-level=" ++ text) :: back) =
      match Level.named? text with
      | some level => .ok (call.leveled level)
      | none => .error .badValue :=
  readProgram_added (openAt_start hplace) h hnone text

end Adding

end Arguments

end IdentityLine
