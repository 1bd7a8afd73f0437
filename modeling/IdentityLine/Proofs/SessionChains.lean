import IdentityLine.Proofs.JsonRoundTrip
import IdentityLine.Session

/-!
# Identities come down a chain of copies

What a session has made is a pool in which later identities may be copied from
earlier ones, so an identity has a chain of steps behind it: the step that made it,
the step that made what that one copied, and so on to a step that copied nothing.
This module says that the chain is all there is to an identity. Its name and its
address stand at the end of the chain as they were given there; its time and its
offset are those of the last step in the chain that stamped any.

`marks` says of each step what it puts on an identity by itself. A copy is then the
identity it was taken from with the marks of the step on it, which is the only fact
about copying that the induction along a session needs. Writing an identity out and
reading it back is a copy without marks, because the two undo each other.

A step that stamps the clock's time reads the clock once. Both of its marks, the
time and the offset, come from that one reading.
-/

namespace IdentityLine

/-- What is missing of a signer. The name is looked at first. -/
inductive Signer.Lacks : Signer → Missing → Prop
  | name {email : Option String} : Lacks ⟨none, email⟩ .name
  | email {name : String} : Lacks ⟨some name, none⟩ .email

theorem Signer.lacks_iff {signer : Signer} {what : Missing} {millis : Int64} {offset : Offset} :
    Identity.ofOptions signer millis offset = .error what ↔ signer.Lacks what := by
  obtain ⟨name, email⟩ := signer
  constructor
  · intro h
    cases name with
    | none =>
        cases h
        exact .name
    | some name =>
        cases email with
        | none =>
            cases h
            exact .email
        | some email => cases h
  · intro h
    cases h with
    | name => rfl
    | email => rfl

namespace Session

/-- A step with the clock that it may read. -/
abbrev Turn := Step × Clock

/-! ## What a step does by itself -/

/-- The place that a step copies from, if it copies. -/
def Step.source? : Step → Option Nat
  | .stamped place _ _ | .renewed place _ | .inZoneAt place _ _ | .movedTo place _
  | .throughJson place => some place
  | _ => none

/-- The zone in which a step stamps the clock's time, if it does. -/
def Step.zoneNow? : Step → Option Zone
  | .now _ _ zone | .ofSigner _ zone | .renewed _ zone => some zone
  | _ => none

/-- What a step puts on the identity that it makes. -/
structure Marks where
  name : Option String := none
  email : Option String := none
  millis : Option Int64 := none
  offset : Option Offset := none

/-- The marks that show the whole of an identity. -/
def Marks.ofIdentity (i : Identity) : Marks where
  name := some i.name
  email := some i.email
  millis := some i.millis
  offset := some i.offset

/-- The marks of the time that a clock shows next. -/
def Marks.ofClock (clock : Clock) (zone : Zone) : Marks where
  millis := some (clock.reading clock.reads)
  offset := some (zone.offsetAtMillis (clock.reading clock.reads))

/-- What a step puts on the identity that it makes by itself; the rest is copied. -/
def marks : Turn → Marks
  | (.build name email millis offset, _) => .ofIdentity { name, email, millis, offset }
  | (.buildFrom signer millis offset, _) =>
      { name := signer.name, email := signer.email, millis := some millis, offset := some offset }
  | (.now name email zone, clock) =>
      { Marks.ofClock clock zone with name := some name, email := some email }
  | (.ofSigner signer zone, clock) =>
      { Marks.ofClock clock zone with name := signer.name, email := signer.email }
  | (.stamped _ millis offset, _) => { millis := some millis, offset := some offset }
  | (.renewed _ zone, clock) => .ofClock clock zone
  | (.inZoneAt _ instant zone, _) =>
      { millis := some instant.millis, offset := some (zone.offsetAt instant).minutes }
  | (.movedTo _ instant, _) => { millis := some instant.millis }
  | (.ofJson text, _) => ((Identity.ofJson text).toOption.map Marks.ofIdentity).getD {}
  | (.throughJson _, _) => {}

/-- How often a step reads its clock, when so many identities have been made. -/
def Step.readings (made : Nat) : Step → Nat
  | .now _ _ _ | .ofSigner _ _ => 1
  | .renewed place _ => if place < made then 1 else 0
  | _ => 0

/-- Why a step makes nothing, when so many identities have been made. -/
inductive Step.Fails (made : Nat) : Step → Failure → Prop
  | buildFrom {signer : Signer} {millis : Int64} {offset : Offset} {what : Missing}
      (h : signer.Lacks what) : Fails made (.buildFrom signer millis offset) (.missing what)
  | ofSigner {signer : Signer} {zone : Zone} {what : Missing} (h : signer.Lacks what) :
      Fails made (.ofSigner signer zone) (.missing what)
  | noneAt {step : Step} {place : Nat} (h : step.source? = some place) (hmade : made ≤ place) :
      Fails made step (.noneAt place)
  | json {text : String} {fault : Json.Fault} (h : Identity.ofJson text = .error fault) :
      Fails made (.ofJson text) (.json fault)

section Performing

variable (pool : List Identity) (step : Step) (clock : Clock)

/-- What a step makes of the pool. -/
def answer : Except Failure Identity :=
  ((step.perform pool).run clock).1

theorem answer_root (h : step.source? = none) {i : Identity} (hi : answer pool step clock = .ok i) :
    marks (step, clock) = .ofIdentity i := by
  cases step with
  | build name email millis offset =>
      cases hi
      rfl
  | now name email zone =>
      cases hi
      rfl
  | buildFrom signer millis offset =>
      obtain ⟨_ | name, _ | email⟩ := signer
      all_goals cases hi
      rfl
  | ofSigner signer zone =>
      obtain ⟨_ | name, _ | email⟩ := signer
      all_goals cases hi
      rfl
  | ofJson text =>
      change (Identity.ofJson text).mapError Failure.json = .ok i at hi
      cases hread : Identity.ofJson text with
      | error fault =>
          rw [hread] at hi
          cases hi
      | ok j =>
          rw [hread] at hi
          cases hi
          simp [marks, hread, Except.toOption]
  | _ => cases h

/-- A copy is what it was taken from with the marks of the step on it. -/
theorem answer_copy {place : Nat} (h : step.source? = some place) {i : Identity}
    (hi : pool[place]? = some i) :
    answer pool step clock =
      .ok { i with
        millis := (marks (step, clock)).millis.getD i.millis
        offset := (marks (step, clock)).offset.getD i.offset } := by
  unfold answer
  cases step with
  | stamped _ millis offset | inZoneAt _ instant zone | movedTo _ instant =>
      cases h
      simp only [Step.perform, Step.perform.madeFrom, hi]
      rfl
  | renewed _ zone =>
      cases h
      simp only [Step.perform, hi]
      rfl
  | throughJson _ =>
      cases h
      simp only [Step.perform, Step.perform.madeFrom, hi, Identity.ofJson_toJson]
      rfl
  | _ => cases h

theorem answer_of_none {place : Nat} (h : step.source? = some place) (hi : pool[place]? = none) :
    answer pool step clock = .error (.noneAt place) := by
  unfold answer
  cases step with
  | stamped _ millis offset | inZoneAt _ instant zone | movedTo _ instant | throughJson _ =>
      cases h
      simp only [Step.perform, Step.perform.madeFrom, hi]
      rfl
  | renewed _ zone =>
      cases h
      simp only [Step.perform, hi]
      rfl
  | _ => cases h

theorem mapError_eq_error_iff {ε ε' α : Type} {x : Except ε α} {f : ε → ε'} {e : ε'} :
    x.mapError f = .error e ↔ ∃ cause, x = .error cause ∧ f cause = e := by
  cases x with
  | error cause =>
      constructor
      · intro h
        cases h
        exact ⟨cause, rfl, rfl⟩
      · rintro ⟨_, hcause, rfl⟩
        cases hcause
        rfl
  | ok a => exact ⟨nofun, fun ⟨_, h, _⟩ => nomatch h⟩

theorem answer_eq_error_iff {e : Failure} :
    answer pool step clock = .error e ↔ step.Fails pool.length e := by
  constructor
  · intro he
    cases hsource : step.source? with
    | some place =>
        cases hi : pool[place]? with
        | none =>
            rw [answer_of_none pool step clock hsource hi] at he
            cases he
            exact .noneAt hsource (List.getElem?_eq_none_iff.mp hi)
        | some i =>
            rw [answer_copy pool step clock hsource hi] at he
            cases he
    | none =>
        cases step with
        | build name email millis offset => cases he
        | now name email zone => cases he
        | buildFrom signer millis offset =>
            obtain ⟨what, hmade, rfl⟩ := mapError_eq_error_iff.mp he
            exact .buildFrom (Signer.lacks_iff.mp hmade)
        | ofSigner signer zone =>
            obtain ⟨what, hmade, rfl⟩ := mapError_eq_error_iff.mp he
            exact .ofSigner (Signer.lacks_iff.mp hmade)
        | ofJson text =>
            obtain ⟨fault, hread, rfl⟩ := mapError_eq_error_iff.mp he
            exact .json hread
        | _ => cases hsource
  · intro he
    cases he with
    | buildFrom h => exact mapError_eq_error_iff.mpr ⟨_, Signer.lacks_iff.mpr h, rfl⟩
    | ofSigner h => exact mapError_eq_error_iff.mpr ⟨_, Signer.lacks_iff.mpr h, rfl⟩
    | json h => exact mapError_eq_error_iff.mpr ⟨_, h, rfl⟩
    | noneAt h hmade =>
        exact answer_of_none pool step clock h (List.getElem?_eq_none_iff.mpr hmade)

theorem reads_perform :
    ((step.perform pool).run clock).2.reads = clock.reads + step.readings pool.length := by
  cases step with
  | renewed place zone =>
      simp only [Step.perform, Step.readings]
      by_cases hplace : place < pool.length
      · rw [if_pos hplace, List.getElem?_eq_getElem hplace]
        rfl
      · rw [if_neg hplace, List.getElem?_eq_none (by omega)]
        rfl
  | _ => rfl

theorem marked_of_answer {i : Identity} (h : answer pool step clock = .ok i) :
    (∀ millis, (marks (step, clock)).millis = some millis → i.millis = millis)
      ∧ ∀ offset, (marks (step, clock)).offset = some offset → i.offset = offset := by
  cases hsource : step.source? with
  | none =>
      rw [answer_root pool step clock hsource h]
      exact ⟨fun millis hm => Option.some.inj hm, fun offset ho => Option.some.inj ho⟩
  | some place =>
      cases hj : pool[place]? with
      | none =>
          rw [answer_of_none pool step clock hsource hj] at h
          cases h
      | some j =>
          rw [answer_copy pool step clock hsource hj] at h
          cases h
          constructor
          · intro millis hm
            simp [hm]
          · intro offset ho
            simp [ho]

/-- A step that stamps the clock's time stamps what the clock shows next, and the offset that its
zone has at that time. -/
theorem answer_of_zoneNow? {zone : Zone} (h : step.zoneNow? = some zone) {i : Identity}
    (hi : answer pool step clock = .ok i) :
    i.millis = clock.reading clock.reads ∧ i.offset = zone.offsetAtMillis i.millis := by
  obtain ⟨hmillis, hoffset⟩ := marked_of_answer pool step clock hi
  have hclock : (marks (step, clock)).millis = some (clock.reading clock.reads)
      ∧ (marks (step, clock)).offset = some (zone.offsetAtMillis (clock.reading clock.reads)) := by
    cases step with
    | now | ofSigner | renewed =>
        cases h
        exact ⟨rfl, rfl⟩
    | _ => cases h
  rw [hmillis _ hclock.1, hoffset _ hclock.2]
  exact ⟨rfl, rfl⟩

end Performing

/-! ## Chains -/

/-- How the identity at a place came to be: the turns from the one that made it back to one that
copied nothing. `history` has the turn that made each identity of the pool. -/
inductive Chain (history : List Turn) : Nat → List Turn → Prop
  | root {place : Nat} {turn : Turn} (made : history[place]? = some turn)
      (source : turn.1.source? = none) : Chain history place [turn]
  | copy {place source : Nat} {turn : Turn} {chain : List Turn}
      (made : history[place]? = some turn) (copied : turn.1.source? = some source)
      (earlier : source < place) (from_ : Chain history source chain) :
      Chain history place (turn :: chain)

/-- An identity is what a chain says: it has the name and the address of the turn that the chain
ends in, and the time and the offset that were stamped last. -/
structure Told (chain : List Turn) (i : Identity) : Prop where
  name : chain.getLast?.bind (fun turn => (marks turn).name) = some i.name
  email : chain.getLast?.bind (fun turn => (marks turn).email) = some i.email
  millis : chain.findSome? (fun turn => (marks turn).millis) = some i.millis
  offset : chain.findSome? (fun turn => (marks turn).offset) = some i.offset

theorem getElem?_append_of_some {α : Type} {l : List α} {place : Nat} {x : α}
    (h : l[place]? = some x) (more : List α) : (l ++ more)[place]? = some x := by
  obtain ⟨hlt, -⟩ := List.getElem?_eq_some_iff.mp h
  rw [List.getElem?_append_left hlt, h]

theorem Chain.append {history : List Turn} {place : Nat} {chain : List Turn}
    (h : Chain history place chain) (more : List Turn) : Chain (history ++ more) place chain := by
  induction h with
  | root made source => exact .root (getElem?_append_of_some made more) source
  | copy made copied earlier _ ih =>
      exact .copy (getElem?_append_of_some made more) copied earlier ih

theorem Chain.ne_nil {history : List Turn} {place : Nat} {chain : List Turn}
    (h : Chain history place chain) : chain ≠ [] := by
  cases h with
  | root made source => exact List.cons_ne_nil _ _
  | copy made copied earlier chain => exact List.cons_ne_nil _ _

/-- Every identity of a pool is what a chain through the history says. -/
structure Traced (history : List Turn) (pool : List Identity) : Prop where
  length : history.length = pool.length
  told : ∀ place i, pool[place]? = some i → ∃ chain, Chain history place chain ∧ Told chain i

theorem traced_nil : Traced [] [] where
  length := rfl
  told := by
    intro place i h
    cases h

/-- A copy is what the chain says that has the step in front of the chain of what was copied. -/
theorem Told.cons {turn : Turn} {chain : List Turn} (hchain : chain ≠ []) {i : Identity}
    (h : Told chain i) :
    Told (turn :: chain) { i with
      millis := (marks turn).millis.getD i.millis
      offset := (marks turn).offset.getD i.offset } where
  name := by
    rw [List.getLast?_cons_of_ne_nil hchain]
    exact h.name
  email := by
    rw [List.getLast?_cons_of_ne_nil hchain]
    exact h.email
  millis := by
    rw [List.findSome?_cons]
    cases (marks turn).millis with
    | none => exact h.millis
    | some millis => rfl
  offset := by
    rw [List.findSome?_cons]
    cases (marks turn).offset with
    | none => exact h.offset
    | some offset => rfl

/-- What a turn makes is traced when the pool that it finds is. -/
theorem Traced.answer {history : List Turn} {pool : List Identity} (h : Traced history pool)
    (turn : Turn) {i : Identity} (hi : answer pool turn.1 turn.2 = .ok i) :
    Traced (history ++ [turn]) (pool ++ [i]) where
  length := by
    rw [List.length_append, List.length_append, h.length]
    rfl
  told := by
    intro place j hj
    -- The identity stands in the pool that was found, or it is the one that was made.
    rcases Nat.lt_or_ge place pool.length with hold | hnew
    · rw [List.getElem?_append_left hold] at hj
      obtain ⟨chain, hchain, htold⟩ := h.told place j hj
      exact ⟨chain, hchain.append [turn], htold⟩
    · obtain ⟨hlt, -⟩ := List.getElem?_eq_some_iff.mp hj
      rw [List.length_append, List.length_singleton] at hlt
      obtain rfl : place = pool.length := by omega
      rw [List.getElem?_concat_length] at hj
      obtain rfl := Option.some.inj hj
      have hmade : (history ++ [turn])[pool.length]? = some turn := by
        rw [← h.length, List.getElem?_concat_length]
      cases hsource : turn.1.source? with
      | none =>
          have hmarks := answer_root pool turn.1 turn.2 hsource hi
          have htold : Told [turn] i := by
            constructor
            all_goals simp [hmarks, Marks.ofIdentity]
          exact ⟨[turn], .root hmade hsource, htold⟩
      | some source =>
          cases hfrom : pool[source]? with
          | none =>
              rw [answer_of_none pool turn.1 turn.2 hsource hfrom] at hi
              cases hi
          | some from_ =>
              obtain ⟨hearlier, -⟩ := List.getElem?_eq_some_iff.mp hfrom
              obtain ⟨chain, hchain, htold⟩ := h.told source from_ hfrom
              rw [answer_copy pool turn.1 turn.2 hsource hfrom] at hi
              obtain rfl := Except.ok.inj hi
              exact ⟨turn :: chain, .copy hmade hsource hearlier (hchain.append [turn]),
                htold.cons hchain.ne_nil⟩

/-! ## Runs -/

/-- The pool with what a turn has answered. A failure adds nothing. -/
def grown (pool : List Identity) (answer : Except Failure Identity) : List Identity :=
  pool ++ answer.toOption.toList

/-- The turns that made an identity, in their order. -/
def makers (turns : List Turn) (answers : List (Except Failure Identity × Nat)) : List Turn :=
  ((turns.zip answers).filter fun made => made.2.1.isOk).map (·.1)

theorem advance_bind (pool : List Identity) (step : Step) (clock : Clock) :
    advance pool step clock =
      (match ((step.perform pool).run clock).1 with
        | .ok i => pure (pool ++ [i], .ok i)
        | .error e => pure (pool, .error e) : StateM Clock _).run
          ((step.perform pool).run clock).2 := rfl

theorem advance_eq (pool : List Identity) (step : Step) (clock : Clock) :
    advance pool step clock =
      ((grown pool (answer pool step clock), answer pool step clock),
        ((step.perform pool).run clock).2) := by
  rw [advance_bind, answer]
  cases ((step.perform pool).run clock).1 with
  | error e =>
      rw [grown, Except.toOption, Option.toList_none, List.append_nil]
      rfl
  | ok i => rfl

theorem run_cons (pool : List Identity) (turn : Turn) (turns : List Turn) :
    run pool (turn :: turns) =
      let later := run (grown pool (answer pool turn.1 turn.2)) turns
      (later.1, (answer pool turn.1 turn.2, turn.1.readings pool.length) :: later.2) := by
  obtain ⟨step, clock⟩ := turn
  rw [run, advance_eq]
  dsimp only
  rw [reads_perform, Nat.add_sub_cancel_left]

theorem run_at (pool : List Identity) {turns : List Turn} {k : Nat} {turn : Turn}
    (h : turns[k]? = some turn) :
    let before := (run pool (turns.take k)).1
    (run pool turns).2[k]? =
        some (answer before turn.1 turn.2, turn.1.readings before.length)
      ∧ (run pool (turns.take (k + 1))).1 = grown before (answer before turn.1 turn.2) := by
  induction turns generalizing pool k with
  | nil => cases h
  | cons first rest ih =>
      cases k with
      | zero =>
          obtain rfl := Option.some.inj h
          rw [List.take_succ_cons, List.take_zero, run_cons, run_cons]
          exact ⟨rfl, rfl⟩
      | succ k =>
          have hrest := ih (grown pool (answer pool first.1 first.2)) h
          rw [List.take_succ_cons, List.take_succ_cons, run_cons, run_cons, run_cons]
          exact hrest

theorem prefix_run (pool : List Identity) (turns : List Turn) : pool <+: (run pool turns).1 := by
  induction turns generalizing pool with
  | nil => exact List.prefix_refl pool
  | cons turn turns ih =>
      rw [run_cons]
      exact (List.prefix_append pool _).trans (ih _)

theorem prefix_run_take (pool : List Identity) (turns : List Turn) (k : Nat) :
    (run pool (turns.take k)).1 <+: (run pool turns).1 := by
  induction turns generalizing pool k with
  | nil =>
      cases k with
      | zero => exact List.prefix_refl _
      | succ k => exact List.prefix_refl _
  | cons turn turns ih =>
      cases k with
      | zero => exact prefix_run pool (turn :: turns)
      | succ k =>
          rw [List.take_succ_cons, run_cons, run_cons]
          exact ih _ k

theorem length_answers (pool : List Identity) (turns : List Turn) :
    (run pool turns).2.length = turns.length := by
  induction turns generalizing pool with
  | nil => rfl
  | cons turn turns ih =>
      rw [run_cons, List.length_cons, List.length_cons, ih]

theorem makers_cons (turn : Turn) (turns : List Turn) (made : Except Failure Identity × Nat)
    (answers : List (Except Failure Identity × Nat)) :
    makers (turn :: turns) (made :: answers) =
      (if made.1.isOk then [turn] else []) ++ makers turns answers := by
  rw [makers, List.zip_cons_cons, List.filter_cons]
  split
  · rfl
  · rfl

theorem Traced.run {history : List Turn} {pool : List Identity} (h : Traced history pool)
    (turns : List Turn) :
    Traced (history ++ makers turns (run pool turns).2) (run pool turns).1 := by
  induction turns generalizing history pool with
  | nil =>
      have hnil : makers [] (Session.run pool []).2 = [] := rfl
      rw [hnil, List.append_nil]
      exact h
  | cons turn turns ih =>
      rw [run_cons, makers_cons]
      cases hmade : Session.answer pool turn.1 turn.2 with
      | error e =>
          have hgrown : grown pool (.error e) = pool := List.append_nil pool
          rw [hgrown]
          exact ih h
      | ok i =>
          have hgrown : grown pool (.ok i) = pool ++ [i] := rfl
          rw [hgrown]
          have htraced := ih (h.answer turn hmade)
          rw [List.append_assoc] at htraced
          exact htraced

/-- Every identity of a session is what the chain of steps behind it says: it has the name and the
address that were given at the root of the chain, as they were given, and the time and the offset that
were stamped last, so that a copy which keeps the offset takes the time alone. What has been made
stays as it is, and a step that fails adds nothing; it fails only for the sake of a signer without
a name or an address, or of a place at which nothing stands, or of a text that holds no identity.
Steps that stamp the clock's time read the clock once, also when they fail for the signer's sake, and
stamp what it shows together with the offset that the zone has at that time; no other step reads it. -/
theorem sessions_keep_identities (turns : List Turn) :
    let made := (run [] turns).1
    let answers := (run [] turns).2
    answers.length = turns.length
    ∧ (∀ k, (run [] (turns.take k)).1 <+: made)
    ∧ (∀ place i, made[place]? = some i →
        ∃ chain, Chain (makers turns answers) place chain ∧ Told chain i)
    ∧ ∀ k step clock, turns[k]? = some (step, clock) →
        let before := (run [] (turns.take k)).1
        ∃ answer, answers[k]? = some (answer, step.readings before.length)
          ∧ (run [] (turns.take (k + 1))).1 = before ++ answer.toOption.toList
          ∧ (∀ e, answer = .error e ↔ step.Fails before.length e)
          ∧ ∀ zone i, step.zoneNow? = some zone → answer = .ok i →
              i.millis = clock.reading clock.reads ∧ i.offset = zone.offsetAtMillis i.millis := by
  intro made answers
  refine ⟨length_answers [] turns, prefix_run_take [] turns, (traced_nil.run turns).told, ?_⟩
  intro k step clock hturn before
  obtain ⟨hanswer, hgrown⟩ := run_at [] hturn
  exact ⟨answer before step clock, hanswer, hgrown,
    fun e => answer_eq_error_iff before step clock,
    fun zone i hzone hi => answer_of_zoneNow? before step clock hzone hi⟩

/-- A signer without a name makes nothing and costs a reading. What is made next is stamped by a
clock and then moved, to a leap second in the middle of a minute, and the move keeps the offset of
the place it copies from, not the clock's. -/
theorem sessions_keep_identities_moved :
    let clock : Clock := { reading := fun n => Int64.ofNat (1000 * n), reads := 7 }
    let turns : List Turn :=
      [(.ofSigner ⟨none, some "a@b"⟩ .utc, clock), (.build " Ann " "a@b" 5 60, clock),
        (.renewed 0 .utc, clock),
        (.movedTo 0 ⟨8, 1000000000, by decide, by decide, by decide⟩, clock)]
    let made := (run [] turns).1
    let answers := (run [] turns).2
    let moved : Identity := { name := " Ann ", email := "a@b", millis := 9000, offset := 60 }
    made[1]? = some { moved with millis := 7000, offset := 0 } ∧ made[2]? = some moved
      ∧ (∃ chain, Chain (makers turns answers) 2 chain ∧ Told chain moved)
      ∧ ∃ answer, answers[0]? = some (answer, 1) ∧ answer = .error (.missing .name) := by
  intro clock turns made answers moved
  obtain ⟨-, -, htold, hturn⟩ := sessions_keep_identities turns
  obtain ⟨answer, hanswer, -, hfails, -⟩ := hturn 0 _ _ rfl
  have hmoved : made[2]? = some moved := rfl
  exact ⟨by decide, hmoved, htold 2 moved hmoved, answer, hanswer, (hfails _).mpr (.ofSigner .name)⟩

end Session

end IdentityLine
