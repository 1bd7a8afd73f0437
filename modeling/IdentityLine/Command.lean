import IdentityLine.Identity.Json
import IdentityLine.Settings

/-!
# Commands

Each command prints one text. Two of them print who signs by the settings, at a
time and in an offset that may be given and otherwise come from the clock and the
zone; one prints an identity from values that are all given; and two print a
piece of a canonical line.
-/

namespace IdentityLine

/-- When something is stamped: what is not given comes from the clock and the zone. -/
structure TimeChoice where
  millis : Option Int64 := none
  offset : Option Offset := none
deriving DecidableEq

/-- A command with its arguments. -/
inductive Command where
  /-- Who signs, as a canonical line or as JSON. -/
  | committer (time : TimeChoice) (json : Bool)
  /-- The given identity, as a canonical line or as JSON. -/
  | format (i : Identity) (json : Bool)
  /-- Who signs, for people. -/
  | display (time : TimeChoice)
  | sanitize (text : String)
  | timezone (offset : Offset)
deriving DecidableEq

/-- What a command logs, and what it prints unless a part of the identity is missing. -/
abbrev CommandResult := List LogRecord × Except Missing String

namespace Command

/-- An identity as a canonical line or as JSON. -/
def render (i : Identity) (json : Bool) : String :=
  if json then i.toJson else i.line

/-- Who signs, at the time that is chosen. The clock is read when no time is given. The identity is
made by a clock that stopped at that time, so the offset of the zone is found even when another one is
given; only then is the identity stamped with that one. -/
def resolve (signer : Signer) (zone : Zone) (time : TimeChoice) :
    StateM Clock (List LogRecord × Except Missing Identity) := do
  let millis ←
    match time.millis with
    | some millis => pure millis
    | none => Clock.read
  let (made, _) := (Identity.ofSigner signer zone).run (.stopped millis)
  match made with
  | .error e => return ([], .error e)
  | .ok i =>
      let records := [{ level := .debug, message := "Resolved committer " ++ i.inspect }]
      match time.offset with
      | some offset => return (records, .ok (i.stamped millis offset))
      | none => return (records, .ok i)

/-- Who signs, at the time that is chosen, and printed. -/
def printSigner (signer : Signer) (zone : Zone) (time : TimeChoice) (print : Identity → String) :
    StateM Clock CommandResult := do
  let (records, made) ← resolve signer zone time
  return (records, made.map print)

/-- Carry out a command. -/
def execute (signer : Signer) (zone : Zone) : Command → StateM Clock CommandResult
  | .committer time json => printSigner signer zone time fun i => render i json
  | .format i json => pure ([], .ok (render i json))
  | .display time => printSigner signer zone time Identity.describe
  | .sanitize text => pure ([], .ok (Text.sanitize text))
  | .timezone offset => pure ([], .ok offset.text)

end Command

end IdentityLine
