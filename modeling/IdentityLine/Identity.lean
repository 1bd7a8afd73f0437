import IdentityLine.Calendar
import IdentityLine.Clock
import IdentityLine.Text.Quoted
import IdentityLine.Text.Sanitize
import IdentityLine.Zone.Name

/-!
# Identities

An identity says who did something and when: a name, an address, a time in
milliseconds, and the offset of the zone it was done in. All four are kept as
they are given, padding included. What is written of them differs by purpose.
The canonical line cleans the texts and cuts the time to whole seconds toward
zero; the text for people keeps the texts and gives the local time.

Two identities count as the same when they agree in name, address and the second
of the canonical line. The offset has no part in that, and neither has it in the
bytes that a hash table is fed, which leave out the name as well.
-/

namespace IdentityLine

/-- Who did something, and when. -/
structure Identity where
  name : String
  email : String
  /-- Milliseconds since the start of 1970 in UTC. -/
  millis : Int64
  /-- Minutes east of UTC. -/
  offset : Offset
deriving DecidableEq

/-- What is missing where an identity cannot be built. -/
inductive Missing where
  | name
  | email
deriving DecidableEq

/-- The message about what is missing. -/
def Missing.message : Missing → String
  | .name => "name of person ident must not be absent"
  | .email => "email address of person ident must not be absent"

/-- A name and an address that may not be known. -/
structure Signer where
  name : Option String
  email : Option String
deriving DecidableEq

namespace Identity

/-! ## Building -/

/-- An identity from values that may be missing. The name is looked at first. -/
def ofOptions (signer : Signer) (millis : Int64) (offset : Offset) : Except Missing Identity :=
  match signer.name, signer.email with
  | none, _ => .error .name
  | some _, none => .error .email
  | some name, some email => .ok { name, email, millis, offset }

/-- An identity stamped with the clock's time, in the offset that the zone has then. -/
def now (name email : String) (zone : Zone) : StateM Clock Identity := do
  let millis ← Clock.read
  return { name, email, millis, offset := zone.offsetAtMillis millis }

/-- The identity of a signer, stamped with the clock's time. The clock is read even when the signer
is not known. -/
def ofSigner (signer : Signer) (zone : Zone) : StateM Clock (Except Missing Identity) := do
  let millis ← Clock.read
  return ofOptions signer millis (zone.offsetAtMillis millis)

/-- The same person at another time and offset. -/
def stamped (i : Identity) (millis : Int64) (offset : Offset) : Identity :=
  { i with millis, offset }

/-- The same person at an instant, in the offset that the zone has then. -/
def inZoneAt (i : Identity) (instant : Instant) (zone : Zone) : Identity :=
  i.stamped instant.millis (zone.offsetAt instant).minutes

/-- The same person at an instant, in the same offset. -/
def movedTo (i : Identity) (instant : Instant) : Identity :=
  i.stamped instant.millis i.offset

/-- The same person at the clock's time, in the offset that the zone has then. -/
def renewed (i : Identity) (zone : Zone) : StateM Clock Identity := do
  let millis ← Clock.read
  return i.stamped millis (zone.offsetAtMillis millis)

/-! ## Looking at one -/

/-- The time as an instant; past the ends of the calendar it is the nearer end. -/
def instant (i : Identity) : Instant :=
  Instant.ofMillis i.millis

/-- The zone that the offset declares; UTC when there is no such zone. -/
def zone (i : Identity) : UtcOffset :=
  Zone.declared i.offset

/-- The time in whole seconds, cut off toward zero. -/
def seconds (i : Identity) : Int :=
  i.millis.toInt.tdiv 1000

/-- Whether two identities count as the same. -/
def same (a b : Identity) : Bool :=
  a.name == b.name && a.email == b.email && a.seconds == b.seconds

/-- The lowest bytes of a number in two's complement, the lowest first. -/
def lowBytes : Nat → Int → List UInt8
  | 0, _ => []
  | count + 1, n => UInt8.ofNat (n % 256).toNat :: lowBytes count (n / 256)

/-- What a hash table is fed: the address, a byte that no text contains, and the seconds. -/
def hashFeed (i : Identity) : List UInt8 :=
  i.email.toUTF8.toList ++ 0xFF :: lowBytes 8 i.seconds

/-! ## Writing -/

/-- The canonical line, as it stands in the header of a commit. -/
def line (i : Identity) : String :=
  Text.sanitize i.name ++ " <" ++ Text.sanitize i.email ++ "> "
    ++ String.ofList (Decimal.signed i.seconds) ++ " " ++ i.offset.text

/-- The local time for people, with its offset. -/
def dateText (i : Identity) : String :=
  Calendar.timestamp (i.instant.seconds + i.zone.seconds) i.zone.minutes.text

/-- The text for people. -/
def describe (i : Identity) : String :=
  "PersonIdent[" ++ i.name ++ ", " ++ i.email ++ ", " ++ i.dateText ++ "]"

/-- The text for log records, which shows every field and every character of it. -/
def inspect (i : Identity) : String :=
  "PersonIdent \x7b name: " ++ Text.quoted i.name ++ ", email_address: " ++ Text.quoted i.email
    ++ ", when_millis: " ++ String.ofList (Decimal.signed i.millis.toInt)
    ++ ", tz_offset: " ++ String.ofList (Decimal.signed i.offset.toInt) ++ " \x7d"

end Identity

end IdentityLine
