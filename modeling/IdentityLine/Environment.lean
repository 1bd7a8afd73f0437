import IdentityLine.Identity
import IdentityLine.Text.Utf8

/-!
# What the system says about its user

The environment gives variables as bytes, and a variable that is not text counts
as one that is not set. The host's name comes as bytes in a buffer that ends at
the first zero byte if there is one, with a code that says whether it came at
all. Together they make an identity of last resort: the user that is logged in,
at this host.
-/

namespace IdentityLine

/-- The variables of the environment, as bytes. -/
structure Environment where
  bytes : String → Option (List UInt8)

namespace Environment

/-- A variable's text, if it is set to one. -/
def get? (env : Environment) (name : String) : Option String :=
  (env.bytes name).bind Utf8.decode?

/-- The environment with one variable set or unset. -/
def set (env : Environment) (name : String) (value : Option (List UInt8)) : Environment where
  bytes := fun n => if n = name then value else env.bytes n

/-- Setting or unsetting a variable changes no other. -/
theorem get?_set_of_ne {env : Environment} {name other : String} {value : Option (List UInt8)}
    (h : other ≠ name) : (env.set name value).get? other = env.get? other := by
  dsimp only [get?, set]
  rw [if_neg h]

/-- The environment without variables. -/
def empty : Environment where
  bytes := fun _ => none

/-- The environment that a block of memory holds: entries that each end in a zero byte, with the
name before the first equals sign. The first of two entries with one name counts. -/
def ofBlock (block : List UInt8) : Environment :=
  let entries := (block.splitBy fun _ b => b ≠ 0).map fun entry => entry.filter (· ≠ 0)
  { bytes := fun name =>
      let key := name.toUTF8.toList ++ [61]
      (entries.find? key.isPrefixOf).map fun entry => entry.drop key.length }

/-- The user that is logged in: the first of two variables whose text is not blank. -/
def user? (env : Environment) : Option String :=
  (["USER", "USERNAME"].filterMap env.get?).find? fun name => !Text.isAllBlank name

end Environment

/-- How the system answers to the question for its name: a code, and a buffer. -/
structure HostReply where
  code : Int
  buffer : List UInt8

namespace HostReply

/-- The answer that puts a name into a buffer of 256 bytes. A longer name is cut there, and then no
zero byte ends it. -/
def ofName (code : Int) (name : List UInt8) : HostReply where
  code := code
  buffer := (name ++ List.replicate 256 0).take 256

/-- The host's name. A system that does not know it, or knows a blank one, is the local host. -/
def name (reply : HostReply) : String :=
  if reply.code ≠ 0 then "localhost"
  else
    let name := Text.trimBlank (Utf8.decodeLossy (reply.buffer.takeWhile (· ≠ 0)))
    if name = "" then "localhost" else name

end HostReply

/-- Who signs when nobody is configured: the user that is logged in, at this host. -/
def systemSigner (env : Environment) (host : HostReply) : Signer where
  name := env.user?
  email := env.user?.map fun user => user ++ "@" ++ host.name

end IdentityLine
