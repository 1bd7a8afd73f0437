import IdentityLine.Command
import IdentityLine.Proofs.JsonRoundTrip

/-!
# Who signs is one identity however it is printed

Two commands print who signs, and a third prints an identity that is given whole.
The first two come to theirs by way of a clock, a second clock that has stopped, a
zone, and perhaps a second stamping; the third just takes what it is given. They
meet in one equation. Whatever is chosen and whatever is left to the clock and the
zone, resolving who signs gives what building an identity from the signer, the
chosen time and the chosen offset gives, and it takes at most one reading.

Everything said of the commands follows from that equation, because what they
print is a function of what they resolve. The log is left out of it: the record of
who signs is written before the second stamping and shows the zone's offset even
where another one is printed.
-/

namespace IdentityLine

namespace TimeChoice

/-- The time that is chosen, or else the one that a clock shows next. -/
def millisBy (time : TimeChoice) (clock : Clock) : Int64 :=
  time.millis.getD (clock.reading clock.reads)

/-- The offset that is chosen, or else the one that a zone has at a time. -/
def offsetBy (time : TimeChoice) (zone : Zone) (millis : Int64) : Offset :=
  time.offset.getD (zone.offsetAtMillis millis)

/-- How many readings it takes to have a time. -/
def readings (time : TimeChoice) : Nat :=
  if time.millis.isSome then 0 else 1

end TimeChoice

namespace Command

variable (signer : Signer) (zone : Zone) (clock : Clock) (time : TimeChoice)

/-! ## Resolving -/

/-- What is resolved is what the signer, the chosen time and the chosen offset make, and the clock
is read for the time or not at all. -/
theorem run_resolve :
    ((resolve signer zone time).run clock).1.2 =
        Identity.ofOptions signer (time.millisBy clock) (time.offsetBy zone (time.millisBy clock))
      ∧ ((resolve signer zone time).run clock).2 =
        { clock with reads := clock.reads + time.readings } := by
  -- An identity made by the stopped clock has that clock's time, so whether it is stamped again
  -- decides about its offset alone, and nothing is stamped where the name or the address is missing.
  rcases time with ⟨_ | millis, _ | offset⟩
  all_goals rcases signer with ⟨_ | name, _ | email⟩
  all_goals exact ⟨rfl, rfl⟩

/-! ## Printing -/

/-- What a command prints. -/
def printed (c : Command) : Except Missing String :=
  ((execute signer zone c).run clock).1.2

/-- The clock that a command leaves behind. -/
def clockAfter (c : Command) : Clock :=
  ((execute signer zone c).run clock).2

/-- What is printed of who signs, in the three ways there are. -/
structure Printouts where
  line : Except Missing String
  json : Except Missing String
  text : Except Missing String

/-- What the commands print of who signs. -/
def printouts : Printouts where
  line := printed signer zone clock (.committer time false)
  json := printed signer zone clock (.committer time true)
  text := printed signer zone clock (.display time)

/-- An identity in the three ways, or what is missing of it. -/
def Printouts.ofMade (made : Except Missing Identity) : Printouts where
  line := made.map Identity.line
  json := made.map Identity.toJson
  text := made.map Identity.describe

theorem run_printSigner (print : Identity → String) :
    ((printSigner signer zone time print).run clock).1.2 =
        (Identity.ofOptions signer (time.millisBy clock)
          (time.offsetBy zone (time.millisBy clock))).map print
      ∧ ((printSigner signer zone time print).run clock).2 =
        { clock with reads := clock.reads + time.readings } := by
  obtain ⟨hmade, hclock⟩ := run_resolve signer zone clock time
  exact ⟨congrArg (Except.map print) hmade, hclock⟩

theorem printouts_eq :
    printouts signer zone clock time = .ofMade (Identity.ofOptions signer (time.millisBy clock)
      (time.offsetBy zone (time.millisBy clock))) := by
  have hline := (run_printSigner signer zone clock time fun i => render i false).1
  have hjson := (run_printSigner signer zone clock time fun i => render i true).1
  have htext := (run_printSigner signer zone clock time Identity.describe).1
  rw [Printouts.ofMade, Printouts.mk.injEq]
  exact ⟨hline, hjson, htext⟩

/-- The commands that print who signs describe one identity, and it is the one that the command for
given identities prints when it is given the signer's name and address, the chosen time and the chosen
offset. Without a name or an address they fail whatever is chosen. They read the clock once when no
time is given and never when one is; a given time makes the clock irrelevant and a given offset the
zone. -/
theorem commands_describe_one_identity (user : UserSettings) (env : Environment)
    (host : HostReply) (zone : Zone) (clock : Clock) (time : TimeChoice) :
    let signer := user.signer env host
    let millis := time.millis.getD (clock.reading clock.reads)
    let offset := time.offset.getD (zone.offsetAtMillis millis)
    (match signer.name, signer.email with
      | some name, some email =>
          let i : Identity := { name, email, millis, offset }
          printouts signer zone clock time = {
              line := printed signer zone clock (.format i false)
              json := printed signer zone clock (.format i true)
              text := .ok i.describe }
          ∧ printed signer zone clock (.format i false) = .ok i.line
          ∧ ∃ text k, (printouts signer zone clock time).json = .ok text
            ∧ Identity.ofJson text = .ok k
            ∧ (printouts signer zone clock time).line = .ok k.line
      | some _, none =>
          printouts signer zone clock time = ⟨.error .email, .error .email, .error .email⟩
      | none, _ =>
          printouts signer zone clock time = ⟨.error .name, .error .name, .error .name⟩)
    ∧ (∀ json, clockAfter signer zone clock (.committer time json) =
        { clock with reads := clock.reads + if time.millis.isSome then 0 else 1 })
    ∧ clockAfter signer zone clock (.display time) =
        { clock with reads := clock.reads + if time.millis.isSome then 0 else 1 }
    ∧ (∀ given chosen clock', printouts signer zone clock ⟨some given, chosen⟩ =
        printouts signer zone clock' ⟨some given, chosen⟩)
    ∧ (∀ chosen given zone', printouts signer zone clock ⟨chosen, some given⟩ =
        printouts signer zone' clock ⟨chosen, some given⟩) := by
  intro signer millis offset
  have hprint := printouts_eq signer zone clock time
  refine ⟨?_, fun json => (run_printSigner signer zone clock time _).2,
    (run_printSigner signer zone clock time _).2, ?_, ?_⟩
  · match hname : signer.name, hemail : signer.email with
    | some name, some email =>
        have hmade : Identity.ofOptions signer millis offset =
            .ok { name, email, millis, offset } := by
          rw [Identity.ofOptions, hname, hemail]
        have hboth : printouts signer zone clock time =
            .ofMade (.ok { name, email, millis, offset }) := hprint.trans (congrArg _ hmade)
        refine ⟨hboth, rfl, _, _, congrArg Printouts.json hboth, Identity.ofJson_toJson _,
          congrArg Printouts.line hboth⟩
    | some name, none =>
        have hmade : Identity.ofOptions signer millis offset = .error .email := by
          rw [Identity.ofOptions, hname, hemail]
        exact hprint.trans (congrArg _ hmade)
    | none, _ =>
        have hmade : Identity.ofOptions signer millis offset = .error .name := by
          rw [Identity.ofOptions, hname]
        exact hprint.trans (congrArg _ hmade)
  · intro given chosen clock'
    rw [printouts_eq, printouts_eq]
    rfl
  · intro chosen given zone'
    rw [printouts_eq, printouts_eq]
    rfl

end Command

end IdentityLine
