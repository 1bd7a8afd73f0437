import IdentityLine.Level

/-!
# Log records

A step that logs returns its records next to its result, so what is logged is
part of what it means, and where the records go is decided by whoever collects
them. A record is written on a line with the moment and the place it comes from;
on a screen the level may be coloured.
-/

namespace IdentityLine

/-- One log record. -/
structure LogRecord where
  level : Level
  message : String
deriving DecidableEq

/-- What a message says about its origin: the moment it was written, and the place in the program
that it names. -/
structure Origin where
  moment : String
  place : String

namespace Origin

/-- A message with its place. -/
def locate (origin : Origin) (message : String) : String :=
  message ++ " [" ++ origin.place ++ "]"

end Origin

namespace LogRecord

/-- The colour of a level on a screen. -/
def colour : Level → String
  | .off => "0"
  | .error => "31"
  | .warn => "33"
  | .info => "32"
  | .debug => "34"
  | .trace => "35"

/-- The level's name, in its colour if that is wanted. -/
def levelText (colored : Bool) (level : Level) : String :=
  if colored then "\x1b[" ++ colour level ++ "m" ++ level.capitals ++ "\x1b[0m"
  else level.capitals

/-- The line of a record. -/
def line (origin : Origin) (colored : Bool) (r : LogRecord) : String :=
  "[" ++ origin.moment ++ " - " ++ levelText colored r.level ++ "] "
    ++ origin.locate r.message ++ "\n"

/-- The lines of the records that a filter lets through. -/
def lines (origin : Origin) (colored : Bool) (filter : Level) (records : List LogRecord) :
    String :=
  String.join ((records.filter fun r => filter.admits r.level).map (line origin colored))

end LogRecord

end IdentityLine
