import IdentityLine.Settings
import IdentityLine.Toml.Document

/-!
# The settings file

The settings file is a TOML document with two tables, each of which may be
missing, and so may every entry of theirs. Entries with other names are passed
over. A table may also be written as an array of its entries' values, in the
order in which they are declared; values that are missing at the end default and
further ones are passed over. And where a table is wanted a date or a time will do,
which has none of its entries.

A document is read in the order of its keys, and the first value that is wrong
decides why the file is rejected. Only a level that does not exist is told apart
from everything else.
-/

namespace IdentityLine.Settings

open IdentityLine.Toml

/-- Why a settings file is rejected. -/
inductive Rejection where
  /-- It is no document, or a value in it is of the wrong kind or too large. -/
  | shape
  /-- It names a level that does not exist. -/
  | level (text : String)
deriving DecidableEq

/-- Words for why a file is rejected. -/
def Rejection.message : Rejection → String
  | .shape => "no settings can be read from the document"
  | .level text => (SettingsError.unknownLevel text).message

/-- A text. -/
def readText : Value → Except Rejection String
  | .string s => .ok s
  | _ => .error .shape

/-- A truth value. -/
def readFlag : Value → Except Rejection Bool
  | .boolean b => .ok b
  | _ => .error .shape

/-- A level. -/
def readLevel (v : Value) : Except Rejection Level := do
  let s ← readText v
  match Level.named? s with
  | some l => return l
  | none => .error (.level s)

/-- Pass over a value under a name that is not known. -/
def ignore {α : Type} (held : α) (v : Value) : Except Rejection α :=
  if v.isSound then .ok held else .error .shape

/-- Take an entry of the table about the user. -/
def takeUser (u : UserSettings) (e : String × Value) : Except Rejection UserSettings :=
  match e.1 with
  | "name" => do return { u with name := some (← readText e.2) }
  | "email" => do return { u with email := some (← readText e.2) }
  | _ => ignore u e.2

/-- Take an entry of the table about logging. -/
def takeLogging (l : LogSettings) (e : String × Value) : Except Rejection LogSettings :=
  match e.1 with
  | "level" => do return { l with level := ← readLevel e.2 }
  | "colored" => do return { l with colored := ← readFlag e.2 }
  | "file" => do return { l with file := some (← readText e.2) }
  | _ => ignore l e.2

/-- Name the elements of an array by the entries of a table; further elements are dropped. -/
def named (names : List String) (vs : List Value) : Entries :=
  names.zip vs

/-- What is set about the user. -/
def readUser : Value → Except Rejection UserSettings
  | .table _ es => (Entries.sorted es).foldlM takeUser {}
  | .array _ vs => (named ["name", "email"] vs).foldlM takeUser {}
  | .datetime _ => .ok {}
  | _ => .error .shape

/-- What is set about logging. -/
def readLogging : Value → Except Rejection LogSettings
  | .table _ es => (Entries.sorted es).foldlM takeLogging {}
  | .array _ vs => (named ["level", "colored", "file"] vs).foldlM takeLogging {}
  | .datetime _ => .ok {}
  | _ => .error .shape

/-- Take an entry of the document. -/
def takeEntry (s : Settings) (e : String × Value) : Except Rejection Settings :=
  match e.1 with
  | "user" => do return { s with user := ← readUser e.2 }
  | "logging" => do return { s with logging := ← readLogging e.2 }
  | _ => ignore s e.2

/-- The settings that a document holds. -/
def ofDocument (es : Entries) : Except Rejection Settings :=
  (Entries.sorted es).foldlM takeEntry {}

/-- The settings that the text of a file holds. -/
def ofText (s : String) : Except Rejection Settings :=
  match Toml.parse s with
  | some es => ofDocument es
  | none => .error .shape

end IdentityLine.Settings
