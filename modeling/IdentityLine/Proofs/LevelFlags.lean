import IdentityLine.Arguments

/-!
# Flags for the level of logging

The level of logging may be given anywhere among the options of the program and of
its commands. `withoutLevel` leaves out of the arguments what gives it, and the main
statement is that this changes nothing else: arguments that are understood are
understood without their flags as the same command, and those that ask for a help
text ask for it still.

The statement goes one way only. A flag can be given twice, or name no level, or
lack its value, and what is wrong then is gone with the flag. So a reading without
the flags only has to follow the one with them as long as that one does not end in
an error, and `Follows` says so in a form that passes from step to step.

The two readings are not at the same point all the way. An option's value is looked
at when the next option comes, and a flag is such an option, so the reading that
meets no flag may still have before it what the other has already settled. `Alike`
therefore compares what the two come to once they settle, and not what they hold.
-/

namespace IdentityLine

/-- A call without the level it asks for. -/
def Invocation.unleveled (call : Invocation) : Invocation :=
  { call with logLevel := none }

namespace Arguments

/-! ## Arguments without the flags -/

/-- Whether an argument is the option for the level, and then the value that is attached to it. -/
def levelFlag? (arg : String) : Option (Option String) :=
  match arg.toList with
  | '-' :: '-' :: cs =>
      if String.ofList (splitEquals cs).1 = "log-level" then
        some ((splitEquals cs).2.map String.ofList)
      else none
  | _ => none

/-- The arguments without the options for the level and their values. Behind two dashes alone there
are no options. -/
def withoutLevel : List String → List String
  | [] => []
  | arg :: args =>
      if arg = "--" then arg :: args
      else
        match levelFlag? arg, args with
        | none, args => arg :: withoutLevel args
        | some (some _), args => withoutLevel args
        | some none, [] => []
        | some none, _ :: args => withoutLevel args

example : withoutLevel ["--log-level", "info", "show", "--log-level=off", "--tz", "0"]
    = ["show", "--tz", "0"] := by
  decide +kernel

/-! ## One reading following another -/

/-- A reading ends in an error, and not because a text was asked for. -/
def Refuses {α : Type} (r : Except Usage α) : Prop :=
  ∃ u, r = .error u ∧ u.exitCode ≠ 0

/-- Unless the first reading ends in an error, the second ends like it: it asks for the same text, or
its result is in a relation with that of the first. -/
def Follows {α β : Type} (rel : α → β → Prop) (r : Except Usage α) (r' : Except Usage β) : Prop :=
  match r with
  | .error u => u.exitCode = 0 → r' = .error u
  | .ok a => ∃ b, r' = .ok b ∧ rel a b

section Follows

variable {α β γ δ : Type} {rel : α → β → Prop} {rel' : γ → δ → Prop}

theorem Refuses.follows {r : Except Usage α} (h : Refuses r) (r' : Except Usage β) :
    Follows rel r r' := by
  obtain ⟨u, rfl, hcode⟩ := h
  exact fun hzero => absurd hzero hcode

theorem Refuses.bind {r : Except Usage α} (h : Refuses r) (f : α → Except Usage γ) :
    Refuses (r >>= f) := by
  obtain ⟨u, rfl, hcode⟩ := h
  exact ⟨u, rfl, hcode⟩

theorem follows_error (u : Usage) : Follows rel (.error u) (.error u) :=
  fun _ => rfl

theorem follows_refl {rel : α → α → Prop} {r : Except Usage α} (h : ∀ a, rel a a) :
    Follows rel r r := by
  cases r with
  | error u => exact follows_error u
  | ok a => exact ⟨a, rfl, h a⟩

theorem follows_ok {a : α} {b : β} (h : rel a b) : Follows rel (.ok a) (.ok b) :=
  ⟨b, rfl, h⟩

theorem Follows.bind {r : Except Usage α} {r' : Except Usage β} {f : α → Except Usage γ}
    {g : β → Except Usage δ} (h : Follows rel r r')
    (step : ∀ a b, rel a b → Follows rel' (f a) (g b)) : Follows rel' (r >>= f) (r' >>= g) := by
  cases r with
  | error u =>
      intro hzero
      rw [h hzero]
      rfl
  | ok a =>
      obtain ⟨b, rfl, hab⟩ := h
      exact step a b hab

theorem Follows.map {r : Except Usage α} {r' : Except Usage β} {f : α → γ} {g : β → δ}
    (h : Follows rel r r') (step : ∀ a b, rel a b → rel' (f a) (g b)) :
    Follows rel' (r.map f) (r'.map g) := by
  cases r with
  | error u =>
      intro hzero
      rw [h hzero]
      rfl
  | ok a =>
      obtain ⟨b, rfl, hab⟩ := h
      exact follows_ok (step a b hab)

theorem follows_map {r : Except Usage α} (f : α → β) :
    Follows (fun a b => b = f a) r (r.map f) := by
  cases r with
  | error u => exact follows_error u
  | ok a => exact follows_ok rfl

end Follows

/-! ## Values that are put in their places -/

/-- What has been given, without the level. -/
def Given.unleveled (g : Given) : Given :=
  { g with logLevel := none }

/-- How far arguments have been read, without the level. -/
def Progress.unleveled (p : Progress) : Progress :=
  { p with given := p.given.unleveled }

theorem map_store {α : Type} (held : Option α) (read : String → Option α) (put : α → Given)
    (f : Given → Given) (value : String) :
    (store held read put value).map f = store held read (fun v => f (put v)) value := by
  unfold store
  split
  · rfl
  · split
    · rfl
    · rfl

theorem exitCode_of_store {α : Type} {held : Option α} {read : String → Option α} {put : α → Given}
    {value : String} {u : Usage} (h : store held read put value = .error u) : u.exitCode ≠ 0 := by
  unfold store at h
  split at h
  · cases h
    decide
  · split at h
    · cases h
    · cases h
      decide

/-- What has been given, with this level or with none. -/
def Given.withLevel (level : Option Level) (g : Given) : Given :=
  { g with logLevel := level }

/-- An item that is not the level is put in its place whatever level there is. -/
theorem put_withLevel {item : Item} (hitem : item ≠ .logLevel) (level : Option Level) (g : Given)
    (value : String) :
    (g.withLevel level).put item value = (g.put item value).map (Given.withLevel level) := by
  cases item with
  | logLevel => exact absurd rfl hitem
  | json =>
      dsimp only [Given.put, Given.withLevel]
      cases g.json with
      | true => rfl
      | false => rfl
  | _ =>
      dsimp only [Given.put]
      rw [map_store]
      rfl

theorem put_unleveled {item : Item} (hitem : item ≠ .logLevel) (g : Given) (value : String) :
    g.unleveled.put item value = (g.put item value).map Given.unleveled :=
  put_withLevel hitem none g value

theorem unleveled_of_put {g g' : Given} {value : String} (h : g.put .logLevel value = .ok g') :
    g'.unleveled = g.unleveled := by
  dsimp only [Given.put] at h
  unfold store at h
  split at h
  · cases h
  · split at h
    · cases h
      rfl
    · cases h

theorem exitCode_of_put {g : Given} {item : Item} {value : String} {u : Usage}
    (h : g.put item value = .error u) : u.exitCode ≠ 0 := by
  cases item with
  | json =>
      dsimp only [Given.put] at h
      split at h
      · cases h
        decide
      · cases h
  | _ =>
      dsimp only [Given.put] at h
      exact exitCode_of_store h

/-! ## Settling -/

/-- What settles waits for nothing, and settling keeps all but what came last. -/
theorem settle_eq_ok {p p' : Progress} (h : p.settle = .ok p') :
    p.awaiting = none ∧ p'.pending = none ∧ p'.valuesOnly = p.valuesOnly
      ∧ p'.placed = p.placed := by
  unfold Progress.settle at h
  unfold Progress.awaiting
  split at h
  · next hpending =>
      cases h
      rw [hpending]
      exact ⟨rfl, rfl, rfl, rfl⟩
  · cases h
  · next item value hpending =>
      rw [hpending]
      cases hput : p.given.put item value with
      | error u =>
          rw [hput] at h
          cases h
      | ok g =>
          rw [hput] at h
          cases h
          exact ⟨rfl, rfl, rfl, rfl⟩

theorem exitCode_of_settle {p : Progress} {u : Usage} (h : p.settle = .error u) :
    u.exitCode ≠ 0 := by
  unfold Progress.settle at h
  split at h
  · cases h
  · cases h
    decide
  · next item value _ =>
      cases hput : p.given.put item value with
      | error u' =>
          rw [hput] at h
          cases h
          exact exitCode_of_put hput
      | ok g =>
          rw [hput] at h
          cases h

theorem refuses_settle {p : Progress} (h : p.awaiting.isSome = true) : Refuses p.settle := by
  cases hsettle : p.settle with
  | error u => exact ⟨u, rfl, exitCode_of_settle hsettle⟩
  | ok p' =>
      rw [(settle_eq_ok hsettle).1] at h
      cases h

theorem settle_valuesOnly (p : Progress) (valuesOnly : Bool) :
    ({ p with valuesOnly } : Progress).settle =
      p.settle.map fun p' => { p' with valuesOnly } := by
  unfold Progress.settle
  dsimp only
  split
  · rfl
  · rfl
  · next item value _ =>
      cases p.given.put item value with
      | error u => rfl
      | ok g => rfl

/-! ## Readings that are alike -/

/-- Two readings have settled, and the second holds what the first does but for the level. -/
structure Settled (valuesOnly : Bool) (p q : Progress) : Prop where
  valuesOnly : p.valuesOnly = valuesOnly
  pending : p.pending = none
  eq : q = p.unleveled

/-- Two readings come to the same once they settle, but for the level, and whatever they wait for is
not a level. The options have ended in both or in neither. -/
structure Alike (valuesOnly : Bool) (p q : Progress) : Prop where
  left : p.valuesOnly = valuesOnly
  right : q.valuesOnly = valuesOnly
  placed : q.placed = p.placed
  awaiting : q.awaiting = p.awaiting
  given : ∀ item, p.awaiting = some item → item ≠ .logLevel ∧ q.given = p.given.unleveled
  settle : Follows (Settled valuesOnly) p.settle q.settle

/-- A reading that does not have a level before it is like itself without the level. -/
theorem alike_unleveled {p : Progress} (h : ∀ value, p.pending ≠ some (.logLevel, value)) :
    Alike p.valuesOnly p p.unleveled where
  left := rfl
  right := rfl
  placed := rfl
  awaiting := rfl
  given := by
    intro item hawaiting
    unfold Progress.awaiting at hawaiting
    split at hawaiting
    · next hpending =>
        cases hawaiting
        exact ⟨fun heq => h none (heq ▸ hpending), rfl⟩
    · cases hawaiting
  settle := by
    dsimp only [Progress.settle, Progress.unleveled]
    split
    · next hpending => exact follows_ok ⟨rfl, hpending, rfl⟩
    · exact follows_error _
    · next item value hpending =>
        have hitem : item ≠ .logLevel := fun heq => h (some value) (heq ▸ hpending)
        rw [put_unleveled hitem]
        exact (follows_map Given.unleveled).bind fun g _ heq =>
          follows_ok ⟨rfl, rfl, heq ▸ rfl⟩

theorem Settled.alike {valuesOnly : Bool} {p q : Progress} (h : Settled valuesOnly p q) :
    Alike valuesOnly p q := by
  obtain ⟨rfl, hpending, rfl⟩ := h
  refine alike_unleveled fun value heq => ?_
  rw [hpending] at heq
  cases heq

/-! ## How an argument is read -/

theorem toList_eq_dashes_iff {arg : String} : arg.toList = ['-', '-'] ↔ arg = "--" := by
  rw [← String.toList_inj]
  rfl

/-- The ways in which an argument is read as long as the options have not ended. Which one it is
depends on the argument alone. -/
inductive ReadsAs (topic : Topic) (arg : String) : Prop where
  | dashes (harg : arg = "--")
      (h : ∀ p : Progress, p.valuesOnly = false →
        readArgument topic p arg = .ok { p with valuesOnly := true })
  | option (word : String) (attached : Option String) (harg : arg ≠ "--")
      (hflag : levelFlag? arg = if word = "log-level" then some attached else none)
      (hbare : attached = none → arg = "--" ++ word)
      (h : ∀ p : Progress, p.valuesOnly = false →
        readArgument topic p arg = readOption topic p word attached)
  | letter (letter : Char) (numeral : Bool) (harg : arg ≠ "--") (hflag : levelFlag? arg = none)
      (h : ∀ p : Progress, p.valuesOnly = false →
        readArgument topic p arg =
          if wantsNegative topic p && numeral then takeValue topic p arg
          else readLetter topic p letter)
  | value (harg : arg ≠ "--") (hflag : levelFlag? arg = none)
      (h : ∀ p : Progress, p.valuesOnly = false →
        readArgument topic p arg = takeValue topic p arg)

/-- An option without a value is its word alone. -/
theorem splitEquals_eq_none {cs : List Char} (h : (splitEquals cs).2 = none) :
    (splitEquals cs).1 = cs := by
  induction cs with
  | nil => rfl
  | cons c cs ih =>
      rw [splitEquals] at h ⊢
      split at h
      · cases h
      · next hc =>
          rw [if_neg hc]
          exact congrArg (c :: ·) (ih h)

theorem readsAs (topic : Topic) (arg : String) : ReadsAs topic arg := by
  have hdashes : arg ≠ "--" ↔ arg.toList ≠ ['-', '-'] := not_congr toList_eq_dashes_iff.symm
  by_cases hdash : ∃ c cs, arg.toList = '-' :: c :: cs
  · obtain ⟨c, cs, hchars⟩ := hdash
    by_cases hc : c = '-'
    · subst hc
      cases cs with
      | nil =>
          refine .dashes (toList_eq_dashes_iff.mp hchars) fun p hp => ?_
          simp [readArgument, hp, hchars]
      | cons d ds =>
          refine .option (String.ofList (splitEquals (d :: ds)).1)
            ((splitEquals (d :: ds)).2.map String.ofList) ?_ ?_ (fun hbare => ?_) fun p hp => ?_
          · simp [hdashes, hchars]
          · simp [levelFlag?, hchars]
          · rw [splitEquals_eq_none (Option.map_eq_none_iff.mp hbare), ← String.toList_inj, hchars]
            simp
          · simp [readArgument, hp, hchars]
    · refine .letter c (isNumeral true false false (c :: cs)) ?_ ?_ fun p hp => ?_
      · simp [hdashes, hchars, hc]
      · simp [levelFlag?, hchars, hc]
      · simp [readArgument, hp, hchars, hc]
  · have hnone : ∀ c cs, arg.toList ≠ '-' :: c :: cs := fun c cs h => hdash ⟨c, cs, h⟩
    refine .value ?_ ?_ fun p hp => ?_
    · exact hdashes.mpr (hnone _ _)
    · simp [levelFlag?, hnone]
    · simp [readArgument, hp, hnone]

/-! ## Arguments that are no flags -/

section Steps

variable {valuesOnly : Bool} {p q : Progress} {topic : Topic}

theorem positional_ne {item : Item} (h : positional? topic = some item) : item ≠ .logLevel := by
  cases topic <;> cases h <;> decide

theorem Alike.of_takePlace (h : Alike valuesOnly p q) (value : String) :
    Follows (Alike valuesOnly) (takePlace topic p value) (takePlace topic q value) := by
  unfold takePlace
  rw [h.placed, h.left, h.right]
  split
  · next item hitem _ =>
      refine h.settle.bind fun p' q' settled => follows_ok ?_
      obtain ⟨rfl, -, rfl⟩ := settled
      refine alike_unleveled (p := { p' with
        pending := some (item, some value), placed := true }) fun v heq => ?_
      cases heq
      exact positional_ne hitem rfl
  · split
    · exact follows_error _
    · exact follows_error _

theorem Alike.of_takeValue (h : Alike valuesOnly p q) (value : String) :
    Follows (Alike valuesOnly) (takeValue topic p value) (takeValue topic q value) := by
  unfold takeValue
  rw [h.awaiting]
  split
  · next item hawaiting =>
      obtain ⟨hitem, hgiven⟩ := h.given item hawaiting
      obtain rfl := h.left
      have heq : ({ q with pending := some (item, some value) } : Progress) =
          ({ p with pending := some (item, some value) } : Progress).unleveled := by
        rw [Progress.unleveled, Progress.mk.injEq]
        exact ⟨hgiven, rfl, h.right, h.placed⟩
      rw [heq]
      refine follows_ok (alike_unleveled (p := { p with
        pending := some (item, some value) }) fun v hv => ?_)
      cases hv
      exact hitem rfl
  · exact h.of_takePlace value

theorem Alike.of_readOption (h : Alike valuesOnly p q) {word : String} (hword : word ≠ "log-level")
    (attached : Option String) :
    Follows (Alike valuesOnly) (readOption topic p word attached)
      (readOption topic q word attached) := by
  unfold readOption
  split
  · next item hfind =>
      have hitem : item ≠ .logLevel := by
        rintro rfl
        have hsome := List.find?_some hfind
        exact hword (Option.some.inj (eq_of_beq hsome)).symm
      -- The option's own value is put in its place once both readings have settled.
      have hput : ∀ value, Follows (Alike valuesOnly)
          (do let p ← p.settle; return { p with given := ← p.given.put item value })
          (do let q ← q.settle; return { q with given := ← q.given.put item value }) := by
        intro value
        refine h.settle.bind fun p' q' settled => ?_
        obtain ⟨rfl, hpending, rfl⟩ := settled
        have hgiven : Follows (fun g g' => g' = g.unleveled) (p'.given.put item value)
            (p'.given.unleveled.put item value) := by
          rw [put_unleveled hitem]
          exact follows_map _
        refine hgiven.bind fun g g' heq => ?_
        obtain rfl := heq
        exact follows_ok (Settled.alike ⟨rfl, hpending, rfl⟩)
      split
      · cases attached with
        | some value => exact hput value
        | none =>
            refine h.settle.bind fun p' q' settled => follows_ok ?_
            obtain ⟨rfl, -, rfl⟩ := settled
            refine alike_unleveled (p := { p' with pending := some (item, none) }) fun v hv => ?_
            cases hv
            exact hitem rfl
      · cases attached with
        | some value => exact follows_error _
        | none => exact hput ""
  · split
    · split
      · exact follows_error _
      · exact h.settle.bind fun _ _ _ => follows_error _
    · exact follows_error _

theorem Alike.of_readLetter (h : Alike valuesOnly p q) (letter : Char) :
    Follows (Alike valuesOnly) (readLetter topic p letter) (readLetter topic q letter) := by
  unfold readLetter
  split
  · exact h.settle.bind fun _ _ _ => follows_error _
  · exact follows_error _

theorem Alike.wantsNegative_eq (h : Alike valuesOnly p q) :
    wantsNegative topic q = wantsNegative topic p := by
  unfold wantsNegative
  rw [h.awaiting, h.placed]

theorem Alike.ended (h : Alike valuesOnly p q) :
    Alike true { p with valuesOnly := true } { q with valuesOnly := true } where
  left := rfl
  right := rfl
  placed := h.placed
  awaiting := h.awaiting
  given := h.given
  settle := by
    rw [settle_valuesOnly p, settle_valuesOnly q]
    exact h.settle.map fun p' q' settled => ⟨rfl, settled.pending, settled.eq ▸ rfl⟩

theorem Alike.of_readArgument (h : Alike valuesOnly p q) {arg : String}
    (harg : valuesOnly = false → levelFlag? arg = none) :
    Follows (Alike (valuesOnly || arg == "--")) (readArgument topic p arg)
      (readArgument topic q arg) := by
  cases valuesOnly with
  | true =>
      unfold readArgument
      rw [if_pos h.left, if_pos h.right]
      exact h.of_takePlace arg
  | false =>
      rw [Bool.false_or]
      cases readsAs topic arg with
      | dashes hdashes hread =>
          rw [hread p h.left, hread q h.right, hdashes]
          exact follows_ok h.ended
      | option word attached hdashes hflag _ hread =>
          rw [hread p h.left, hread q h.right, beq_eq_false_iff_ne.mpr hdashes]
          refine h.of_readOption (fun hword => ?_) attached
          rw [harg rfl, if_pos hword] at hflag
          cases hflag
      | letter letter numeral hdashes hflag hread =>
          rw [hread p h.left, hread q h.right, beq_eq_false_iff_ne.mpr hdashes, h.wantsNegative_eq]
          split
          · exact h.of_takeValue arg
          · exact h.of_readLetter letter
      | value hdashes hflag hread =>
          rw [hread p h.left, hread q h.right, beq_eq_false_iff_ne.mpr hdashes]
          exact h.of_takeValue arg

theorem Alike.of_kept (h : Alike false p q) {arg : String} (hdashes : ¬ arg = "--")
    (hflag : levelFlag? arg = none) :
    Follows (Alike false) (readArgument topic p arg) (readArgument topic q arg) := by
  have hstep : Follows (Alike (false || arg == "--")) (readArgument topic p arg)
      (readArgument topic q arg) := h.of_readArgument fun _ => hflag
  rwa [beq_eq_false_iff_ne.mpr hdashes] at hstep

/-! ## Flags -/

/-- The option for the level is read like any other that takes a value, by every topic but the one
that is no command of its own. -/
theorem readOption_level (topic : Topic) (p : Progress) (attached : Option String) :
    readOption topic p "log-level" attached =
      if topic = .help then .error .unknownArgument
      else p.settle >>= fun p' =>
        match attached with
        | some value => p'.given.put .logLevel value >>= fun g => .ok { p' with given := g }
        | none => .ok { p' with pending := some (.logLevel, none) } := by
  cases topic with
  | help => rfl
  | _ => cases attached <;> rfl

theorem readArgument_flag {arg : String} {attached : Option String} (hp : p.valuesOnly = false)
    (hlevel : levelFlag? arg = some attached) :
    readArgument topic p arg = readOption topic p "log-level" attached := by
  cases readsAs topic arg with
  | dashes hdashes _ =>
      rw [hdashes] at hlevel
      cases hlevel
  | option word attached' _ hflag _ hread =>
      rw [hlevel] at hflag
      split at hflag
      · next hword =>
          cases hflag
          rw [hread p hp, hword]
      · cases hflag
  | letter _ _ _ hflag _ => cases hlevel.symm.trans hflag
  | value _ hflag _ => cases hlevel.symm.trans hflag

theorem refuses_error {α : Type} {u : Usage} (h : u.exitCode ≠ 0) :
    Refuses (.error u : Except Usage α) :=
  ⟨u, rfl, h⟩

theorem refuses_readOption (h : Refuses p.settle) (word : String)
    (attached : Option String) : Refuses (readOption topic p word attached) := by
  unfold readOption
  split
  · split
    · exact h.bind _
    · cases attached with
      | some value => exact refuses_error (by decide)
      | none => exact h.bind _
  · split
    · split
      · exact refuses_error (by decide)
      · exact h.bind _
    · exact refuses_error (by decide)

theorem refuses_readLetter (h : Refuses p.settle) (letter : Char) :
    Refuses (readLetter topic p letter) := by
  unfold readLetter
  split
  · exact h.bind _
  · exact refuses_error (by decide)

theorem refuses_takePlace (h : Refuses p.settle) (value : String) :
    Refuses (takePlace topic p value) := by
  unfold takePlace
  split
  · exact h.bind _
  · split
    · exact refuses_error (by decide)
    · exact refuses_error (by decide)

/-- A reading whose options have ended while a value was still to come, which now cannot come. -/
structure Stuck (p : Progress) : Prop where
  valuesOnly : p.valuesOnly = true
  awaiting : p.awaiting.isSome = true

theorem Stuck.refuses_readAll (h : Stuck p) (args : List String) : Refuses (readAll topic p args) := by
  cases args with
  | nil => exact refuses_settle h.awaiting
  | cons arg args =>
      refine Refuses.bind ?_ _
      rw [readArgument, if_pos h.valuesOnly]
      exact refuses_takePlace (refuses_settle h.awaiting) arg

/-- A reading that has settled and then taken a level is like the one that has not met it. -/
theorem Alike.past (h : Alike valuesOnly p q) {p' p₁ : Progress} (hsettle : p.settle = .ok p')
    (hwaits : p₁.awaiting = none) (hended : p₁.valuesOnly = p'.valuesOnly)
    (hplaced : p₁.placed = p'.placed)
    (hgiven : ∀ p₂, p₁.settle = .ok p₂ → p₂.given.unleveled = p'.given.unleveled) :
    Alike valuesOnly p₁ q := by
  obtain ⟨hawaiting, hpending, hended', hplaced'⟩ := settle_eq_ok hsettle
  have hleft : p₁.valuesOnly = valuesOnly := (hended.trans hended').trans h.left
  have hfollows := h.settle
  rw [hsettle] at hfollows
  obtain ⟨q', hq, settled⟩ := hfollows
  constructor
  · exact hleft
  · exact h.right
  · rw [h.placed, hplaced, hplaced']
  · rw [h.awaiting, hawaiting, hwaits]
  · intro item hitem
    rw [hwaits] at hitem
    cases hitem
  · cases hsettle₁ : p₁.settle with
    | error u => exact fun hzero => absurd hzero (exitCode_of_settle hsettle₁)
    | ok p₂ =>
        obtain ⟨-, hpending₂, hended₂, hplaced₂⟩ := settle_eq_ok hsettle₁
        refine ⟨q', hq, hended₂.trans hleft, hpending₂, ?_⟩
        rw [settled.eq, Progress.unleveled, Progress.unleveled, Progress.mk.injEq]
        exact ⟨(hgiven p₂ hsettle₁).symm, hpending.trans hpending₂.symm,
          (hended₂.trans hended).symm, (hplaced₂.trans hplaced).symm⟩

theorem Alike.attached (h : Alike valuesOnly p q) (value : String) :
    Follows (Alike valuesOnly) (readOption topic p "log-level" (some value)) (.ok q) := by
  rw [readOption_level]
  split
  · exact (refuses_error (by decide)).follows _
  · cases hsettle : p.settle with
    | error u => exact (refuses_error (exitCode_of_settle hsettle)).follows _
    | ok p' =>
        change Follows _ (p'.given.put .logLevel value >>= fun g => .ok { p' with given := g }) _
        have hpending : p'.pending = none := (settle_eq_ok hsettle).2.1
        cases hput : p'.given.put .logLevel value with
        | error u => exact (refuses_error (exitCode_of_put hput)).follows _
        | ok g =>
            refine follows_ok (h.past hsettle ?_ rfl rfl fun p₂ hp₂ => ?_)
            · rw [Progress.awaiting, hpending]
            · simp only [Progress.settle, hpending] at hp₂
              cases hp₂
              exact unleveled_of_put hput

/-- A reading waits for a level. Whatever comes next gets it stuck or makes it like the other, if it
is read at all. -/
structure Expecting (topic : Topic) (p q : Progress) : Prop where
  awaiting : p.awaiting.isSome = true
  value : ∀ value, Follows (fun p₁ q₁ => Stuck p₁ ∨ Alike false p₁ q₁)
    (readArgument topic p value) (.ok q)

theorem Alike.detached (h : Alike false p q) :
    Follows (Expecting topic) (readOption topic p "log-level" none) (.ok q) := by
  rw [readOption_level]
  split
  · exact (refuses_error (by decide)).follows _
  · cases hsettle : p.settle with
    | error u => exact (refuses_error (exitCode_of_settle hsettle)).follows _
    | ok p' =>
        obtain ⟨-, -, hended, -⟩ := settle_eq_ok hsettle
        have hopen : p'.valuesOnly = false := hended.trans h.left
        let p₁ : Progress := { p' with pending := some (.logLevel, none) }
        refine follows_ok (a := p₁) ⟨rfl, fun value => ?_⟩
        have htaken : Follows (fun p₂ q₂ => Stuck p₂ ∨ Alike false p₂ q₂)
            (takeValue topic p₁ value) (.ok q) := by
          refine follows_ok (.inr (h.past hsettle rfl rfl rfl fun p₂ hp₂ => ?_))
          simp only [Progress.settle] at hp₂
          cases hput : p'.given.put .logLevel value with
          | error u =>
              rw [hput] at hp₂
              cases hp₂
          | ok g =>
              rw [hput] at hp₂
              cases hp₂
              exact unleveled_of_put hput
        -- Only a value and the end of the options can come while a level is still to come.
        cases readsAs topic value with
        | dashes _ hread =>
            rw [hread p₁ hopen]
            exact follows_ok (.inl ⟨rfl, rfl⟩)
        | option word attached _ _ _ hread =>
            rw [hread p₁ hopen]
            exact (refuses_readOption (refuses_settle rfl) word attached).follows _
        | letter letter _ _ _ hread =>
            rw [hread p₁ hopen]
            split
            · exact htaken
            · exact (refuses_readLetter (refuses_settle rfl) letter).follows _
        | value _ _ hread =>
            rw [hread p₁ hopen]
            exact htaken

end Steps

/-! ## All arguments -/

section All

variable {p q : Progress} {topic : Topic}

/-- What two readings were given in the end is the same but for the level. -/
def SameGiven (p q : Progress) : Prop :=
  q.given = p.given.unleveled

theorem Alike.of_settle {valuesOnly : Bool} (h : Alike valuesOnly p q) :
    Follows SameGiven p.settle q.settle := by
  cases hp : p.settle with
  | error u => exact (refuses_error (exitCode_of_settle hp)).follows _
  | ok p' =>
      have hfollows := h.settle
      rw [hp] at hfollows
      obtain ⟨q', hq, settled⟩ := hfollows
      exact ⟨q', hq, congrArg Progress.given settled.eq⟩

/-- Behind the end of the options the two readings meet the same arguments. -/
theorem Alike.of_readAll_ended (h : Alike true p q) (args : List String) :
    Follows SameGiven (readAll topic p args) (readAll topic q args) := by
  induction args generalizing p q with
  | nil => exact h.of_settle
  | cons arg args ih =>
      exact (h.of_readArgument nofun).bind fun p' q' halike => ih halike

theorem readAll_cons (topic : Topic) (p : Progress) (arg : String) (args : List String) :
    readAll topic p (arg :: args) =
      readArgument topic p arg >>= fun p₁ => readAll topic p₁ args := rfl

theorem Alike.of_readAll (h : Alike false p q) (args : List String) :
    Follows SameGiven (readAll topic p args) (readAll topic q (withoutLevel args)) := by
  fun_induction withoutLevel args generalizing p q with
  | case1 => exact h.of_settle
  | case2 args =>
      -- Behind the dashes a flag would be a value, and nothing is left out.
      exact (h.of_readArgument fun _ => rfl).bind fun p' q' halike => halike.of_readAll_ended args
  | case3 arg hdashes args hflag ih =>
      exact (h.of_kept hdashes hflag).bind fun p' q' halike => ih halike
  | case4 arg hdashes value args hflag ih =>
      rw [readAll_cons, readArgument_flag h.left hflag]
      exact (h.attached value).bind fun p' q' halike => ih halike
  | case5 arg hdashes hflag =>
      rw [readAll_cons, readArgument_flag h.left hflag]
      exact h.detached.bind (g := fun q' => readAll topic q' []) fun p' q' expecting =>
        (refuses_settle expecting.awaiting).follows _
  | case6 arg hdashes value args hflag ih =>
      rw [readAll_cons, readArgument_flag h.left hflag]
      -- The one reading takes two steps here and the other none.
      refine h.detached.bind (g := fun q' => readAll topic q' (withoutLevel args))
        fun p₁ q₁ expecting => ?_
      refine (expecting.value value).bind (g := fun q' => readAll topic q' (withoutLevel args))
        fun p₂ q₂ hread => ?_
      rcases hread with hstuck | halike
      · exact (hstuck.refuses_readAll args).follows _
      · exact ih halike

/-! ## The program -/

theorem complete_unleveled (topic : Topic) (g : Given) :
    complete topic g.unleveled = complete topic g := by
  cases topic <;> rfl

theorem levelFlag?_of_command {arg : String} (h : Topic.command? arg = some topic) :
    levelFlag? arg = none ∧ arg ≠ "--" := by
  rw [Topic.command?] at h
  have hword := List.find?_some h
  obtain rfl : topic.word = arg := eq_of_beq hword
  cases topic <;> decide +kernel

/-- Whether help is asked for does not depend on flags, which `help` does not take. -/
theorem follows_askHelp {α β : Type} {rel : α → β → Prop} (args : List String) :
    Follows rel (.error (askHelp args)) (.error (askHelp (withoutLevel args))) := by
  intro hzero
  match args with
  | [] => rfl
  | [arg] =>
      cases hcommand : Topic.command? arg with
      | none =>
          simp [askHelp, hcommand, Usage.exitCode] at hzero
      | some topic =>
          obtain ⟨hflag, hdashes⟩ := levelFlag?_of_command hcommand
          simp [withoutLevel, hflag, hdashes]
  | arg :: second :: rest =>
      simp [askHelp, Usage.exitCode] at hzero

/-- The command that an argument calls at this point, if it calls one. -/
def calls? (p : Progress) (arg : String) : Option Topic :=
  if p.valuesOnly || p.awaiting.isSome then none else Topic.command? arg

theorem readProgram_of_none {arg : String} (h : calls? p arg = none) (args : List String) :
    readProgram p (arg :: args) =
      readArgument .program p arg >>= fun p₁ => readProgram p₁ args := by
  rw [calls?] at h
  rw [readProgram, h]

theorem readProgram_of_some {arg : String} (h : calls? p arg = some topic) (args : List String) :
    readProgram p (arg :: args) =
      if topic = .help then .error (askHelp args)
      else do
        let inner ← readAll topic {} args
        let command ← complete topic inner.given
        let outer ← p.settle
        return { command, logLevel := inner.given.logLevel <|> outer.given.logLevel } := by
  rw [calls?] at h
  rw [readProgram, h]
  cases topic <;> rfl

theorem refuses_readProgram_nil (p : Progress) : Refuses (readProgram p []) := by
  rw [readProgram]
  cases hsettle : p.settle with
  | error u => exact refuses_error (exitCode_of_settle hsettle)
  | ok p' =>
      change Refuses (if p'.given = {} then .error .nothing else .error .missingCommand)
      split
      · exact refuses_error (by decide)
      · exact refuses_error (by decide)

/-- Once the options have ended, no command can come. -/
theorem refuses_readProgram_ended (h : p.valuesOnly = true) (args : List String) :
    Refuses (readProgram p args) := by
  cases args with
  | nil => exact refuses_readProgram_nil p
  | cons arg args =>
      rw [readProgram_of_none (by rw [calls?, h]; rfl), readArgument, if_pos h, takePlace]
      dsimp only [positional?]
      refine Refuses.bind ?_ _
      split
      · exact refuses_error (by decide)
      · exact refuses_error (by decide)

theorem calls?_of_awaiting (h : p.awaiting.isSome = true) (arg : String) :
    calls? p arg = none := by
  rw [calls?, h, Bool.or_true, if_pos rfl]

theorem calls?_of_dashes {arg : String} (h : levelFlag? arg ≠ none ∨ arg = "--") :
    calls? p arg = none := by
  cases hcommand : Topic.command? arg with
  | none => rw [calls?, hcommand, ite_self]
  | some topic =>
      obtain ⟨hflag, hdashes⟩ := levelFlag?_of_command hcommand
      rcases h with h | h
      · exact absurd hflag h
      · exact absurd h hdashes

theorem Alike.calls?_eq {valuesOnly : Bool} (h : Alike valuesOnly p q) (arg : String) :
    calls? q arg = calls? p arg := by
  rw [calls?, calls?, h.left, h.right, h.awaiting]

theorem alike_start : Alike false {} {} :=
  alike_unleveled (p := {}) nofun

theorem Alike.of_readProgram (h : Alike false p q) (args : List String) :
    Follows (fun call call' => call' = call.unleveled) (readProgram p args)
      (readProgram q (withoutLevel args)) := by
  fun_induction withoutLevel args generalizing p q with
  | case1 => exact (refuses_readProgram_nil p).follows _
  | case2 args =>
      rw [readProgram_of_none (calls?_of_dashes (.inr rfl)),
        readProgram_of_none (calls?_of_dashes (.inr rfl))]
      exact (h.of_readArgument fun _ => rfl).bind fun p' q' halike =>
        (refuses_readProgram_ended halike.left args).follows _
  | case3 arg hdashes args hflag ih =>
      cases hcalls : calls? p arg with
      | none =>
          rw [readProgram_of_none hcalls, readProgram_of_none ((h.calls?_eq arg).trans hcalls)]
          exact (h.of_kept hdashes hflag).bind fun p' q' halike => ih halike
      | some topic =>
          rw [readProgram_of_some hcalls, readProgram_of_some ((h.calls?_eq arg).trans hcalls)]
          split
          · exact follows_askHelp args
          · refine (alike_start.of_readAll args).bind fun inner inner' hinner => ?_
            rw [hinner, complete_unleveled]
            refine (follows_refl fun _ => rfl).bind fun command _ hcommand => ?_
            obtain rfl := hcommand
            refine h.of_settle.bind fun outer outer' houter => ?_
            rw [houter]
            exact follows_ok rfl
  | case4 arg hdashes value args hflag ih =>
      rw [readProgram_of_none (calls?_of_dashes (.inl (by simp [hflag]))),
        readArgument_flag h.left hflag]
      exact (h.attached value).bind fun p' q' halike => ih halike
  | case5 arg hdashes hflag =>
      rw [readProgram_of_none (calls?_of_dashes (.inl (by simp [hflag]))),
        readArgument_flag h.left hflag]
      exact h.detached.bind (g := fun q' => readProgram q' []) fun p' q' expecting =>
        (refuses_readProgram_nil p').follows _
  | case6 arg hdashes value args hflag ih =>
      rw [readProgram_of_none (calls?_of_dashes (.inl (by simp [hflag]))),
        readArgument_flag h.left hflag]
      refine h.detached.bind (g := fun q' => readProgram q' (withoutLevel args))
        fun p₁ q₁ expecting => ?_
      rw [readProgram_of_none (calls?_of_awaiting expecting.awaiting value)]
      refine (expecting.value value).bind (g := fun q' => readProgram q' (withoutLevel args))
        fun p₂ q₂ hread => ?_
      rcases hread with hstuck | halike
      · exact (refuses_readProgram_ended hstuck.valuesOnly args).follows _
      · exact ih halike

/-- Arguments that make sense call the same command without their flags for the level, and a text that
they ask for is asked for still. -/
theorem follows_parse (args : List String) :
    Follows (fun call call' => call' = call.unleveled) (parse args)
      (parse (withoutLevel args)) :=
  alike_start.of_readProgram args

theorem parse_withoutLevel {args : List String} (h : ¬ Refuses (parse args)) :
    parse (withoutLevel args) = (parse args).map Invocation.unleveled := by
  have hfollows := follows_parse args
  cases hparse : parse args with
  | error u =>
      rw [hparse] at h hfollows
      exact hfollows (Decidable.not_not.mp fun hcode => h (refuses_error hcode))
  | ok call =>
      rw [hparse] at hfollows
      obtain ⟨_, hok, rfl⟩ := hfollows
      exact hok

end All

end Arguments

end IdentityLine
