import IdentityLine.Text.Trim

/-!
# Levels of logging

There are five levels of records, and a filter is one of them or off: it lets a
record through that is no more talkative than itself. Whatever names a level,
the settings file, the environment or the command line, is read by one rule:
white space around the name does not matter, and neither does ASCII case.
-/

namespace IdentityLine

/-- A filter on log records, from the quietest to the most talkative. -/
inductive Level where
  | off
  | error
  | warn
  | info
  | debug
  | trace
deriving DecidableEq, Repr

namespace Level

/-- All levels in order. -/
def all : List Level := [.off, .error, .warn, .info, .debug, .trace]

/-- The place of a level in the order. -/
def rank : Level → Nat
  | .off => 0
  | .error => 1
  | .warn => 2
  | .info => 3
  | .debug => 4
  | .trace => 5

/-- A level's name. -/
def name : Level → String
  | .off => "off"
  | .error => "error"
  | .warn => "warn"
  | .info => "info"
  | .debug => "debug"
  | .trace => "trace"

/-- A level's name as a record shows it. -/
def capitals : Level → String
  | .off => "OFF"
  | .error => "ERROR"
  | .warn => "WARN"
  | .info => "INFO"
  | .debug => "DEBUG"
  | .trace => "TRACE"

/-- A level's name as the first record of a log shows it. -/
def titled : Level → String
  | .off => "Off"
  | .error => "Error"
  | .warn => "Warn"
  | .info => "Info"
  | .debug => "Debug"
  | .trace => "Trace"

/-- Whether a filter lets a record of a level through. -/
def admits (filter level : Level) : Bool :=
  level.rank ≤ filter.rank

/-- The level that a text names. -/
def named? (s : String) : Option Level :=
  let word := (Text.trim Text.isBlank s.toList).map Char.toLower
  all.find? fun level => level.name.toList == word

end Level

end IdentityLine
