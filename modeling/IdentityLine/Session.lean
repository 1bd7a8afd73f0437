import IdentityLine.Identity.Json

/-!
# Sessions

A session builds identities one after another, and later ones may be made from
earlier ones: stamped anew, moved to an instant, or written out and read back.
What has been made is never changed. Whatever makes an identity either adds one
to the end of the pool or fails and adds none.

Each step comes with the clock it may read, so how often it read the clock can be
told from the clock it leaves behind.
-/

namespace IdentityLine.Session

/-- A step that makes an identity. The numbers are places in the pool. -/
inductive Step where
  | build (name email : String) (millis : Int64) (offset : Offset)
  | buildFrom (signer : Signer) (millis : Int64) (offset : Offset)
  | now (name email : String) (zone : Zone)
  | ofSigner (signer : Signer) (zone : Zone)
  | stamped (place : Nat) (millis : Int64) (offset : Offset)
  | renewed (place : Nat) (zone : Zone)
  | inZoneAt (place : Nat) (instant : Instant) (zone : Zone)
  | movedTo (place : Nat) (instant : Instant)
  | ofJson (text : String)
  | throughJson (place : Nat)

/-- Why a step made nothing. -/
inductive Failure where
  | missing (what : Missing)
  | json (fault : Json.Fault)
  /-- Nothing stands at that place of the pool. -/
  | noneAt (place : Nat)
deriving DecidableEq

/-- What a step makes, given the pool so far. -/
def Step.perform (pool : List Identity) : Step → StateM Clock (Except Failure Identity)
  | .build name email millis offset => pure (.ok { name, email, millis, offset })
  | .buildFrom signer millis offset =>
      pure ((Identity.ofOptions signer millis offset).mapError .missing)
  | .now name email zone => do return .ok (← Identity.now name email zone)
  | .ofSigner signer zone => do return (← Identity.ofSigner signer zone).mapError .missing
  | .stamped place millis offset => pure (madeFrom place fun i => .ok (i.stamped millis offset))
  | .renewed place zone =>
      match pool[place]? with
      | some i => do return .ok (← i.renewed zone)
      | none => pure (.error (.noneAt place))
  | .inZoneAt place instant zone => pure (madeFrom place fun i => .ok (i.inZoneAt instant zone))
  | .movedTo place instant => pure (madeFrom place fun i => .ok (i.movedTo instant))
  | .ofJson text => pure ((Identity.ofJson text).mapError .json)
  | .throughJson place => pure (madeFrom place fun i => (Identity.ofJson i.toJson).mapError .json)
where
  /-- Make an identity from the one at a place. -/
  madeFrom (place : Nat) (make : Identity → Except Failure Identity) : Except Failure Identity :=
    match pool[place]? with
    | some i => make i
    | none => .error (.noneAt place)

/-- Perform a step and keep what it makes. -/
def advance (pool : List Identity) (step : Step) :
    StateM Clock (List Identity × Except Failure Identity) := do
  match ← step.perform pool with
  | .ok i => return (pool ++ [i], .ok i)
  | .error e => return (pool, .error e)

/-- Perform steps one after another, each with a clock of its own, from a pool. The answers are what
each step made, with the number of times it read its clock. -/
def run (pool : List Identity) :
    List (Step × Clock) → List Identity × List (Except Failure Identity × Nat)
  | [] => (pool, [])
  | (step, clock) :: rest =>
      let ((pool, answer), after) := advance pool step clock
      let (pool, answers) := run pool rest
      (pool, (answer, after.reads - clock.reads) :: answers)

end IdentityLine.Session
