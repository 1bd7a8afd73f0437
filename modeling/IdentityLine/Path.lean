/-!
# Paths

A path is a text, and what is shown of it is that text; nothing is normalised.
What it means is the sequence of its components: slashes in a row count as one,
a dot stands for nothing except at the very start, and a path that starts with a
slash starts at the root.
-/

namespace IdentityLine.Path

/-- One component of a path. -/
inductive Component where
  | root
  | current
  | parent
  | name (text : List Char)
deriving DecidableEq

/-- The pieces of a text between its slashes. -/
def pieces : List Char → List (List Char)
  | [] => [[]]
  | c :: cs =>
      if c = '/' then [] :: pieces cs
      else
        match pieces cs with
        | [] => [[c]]
        | p :: ps => (c :: p) :: ps

/-- Whether a path starts at the root. -/
def isAbsolute (path : String) : Bool :=
  path.toList.head? == some '/'

/-- The component that a piece behind a slash stands for, if it stands for any. -/
def componentOf? (piece : List Char) : Option Component :=
  if piece = [] ∨ piece = ['.'] then none
  else if piece = ['.', '.'] then some .parent
  else some (.name piece)

/-- The components of a path. -/
def components (path : String) : List Component :=
  if isAbsolute path then .root :: (pieces path.toList).filterMap componentOf?
  else
    match pieces path.toList with
    | ['.'] :: rest => .current :: rest.filterMap componentOf?
    | all => all.filterMap componentOf?

/-- A path below another. A path that starts at the root is below none, and stays. -/
def join (base path : String) : String :=
  if isAbsolute path then path
  else if base = "" ∨ base.toList.getLast? = some '/' then base ++ path
  else base ++ "/" ++ path

/-- Put pieces together with slashes between them. -/
def ofPieces (ps : List (List Char)) : String :=
  String.ofList (['/'].intercalate ps)

/-- Drop the pieces at the end that stand for nothing; the first piece stays. -/
def dropIdle (ps : List (List Char)) : List (List Char) :=
  match ps with
  | [] => []
  | first :: rest =>
      first :: (rest.reverse.dropWhile fun p => (componentOf? p).isNone).reverse

/-- The path without its last component; the root and the empty path have none to lose. -/
def parent? (path : String) : Option String :=
  if isAbsolute path then
    match dropIdle (pieces path.toList) with
    | [] => none
    | [_] => none
    | kept =>
        match dropIdle kept.dropLast with
        | [_] => some "/"
        | rest => some (ofPieces rest)
  else if path = "" then none
  else some (ofPieces (dropIdle (dropIdle (pieces path.toList)).dropLast))

/-- The path and those above it, the nearest first, without the empty path and the root. `fuel` is
at least the number of characters. -/
def upwards (fuel : Nat) (path : String) : List String :=
  match fuel, parent? path with
  | fuel + 1, some above => path :: upwards fuel above
  | _, _ => []

/-- The path and those above it, the nearest first, without the empty path and the root. -/
def lineage (path : String) : List String :=
  upwards path.length path

end IdentityLine.Path
