import IdentityLine.Path

/-!
# Files

The files of a system form a tree. A place in it is known by its name and the
names of the directories around it, and a path is followed to a place name by
name: every name on the way must be a directory's, and a failure says what stood
in the way. Dots always lead to a directory, so only the last step of a path can
be a name that nothing bears yet. Two dots lead back, so a trail is kept of what
was passed. Main statement: the trail to a place holds what stands there, so a
step along it finds what the tree has where the step leads.

Paths that do not start at the root start in the working directory. That one may
be gone: then no name in it leads anywhere and none can be made, but two dots
still lead out of it.

Only what this program and those who prepare its files do is here: ask for a
file, read it, make the directories on the way to it, write it anew, and open it
to append to it.
-/

namespace IdentityLine

/-- What stands at a place: a directory with what its names lead to, or a file. -/
inductive Node where
  | directory (entries : List (List Char × Node))
  | file (bytes : List UInt8)

/-- The names that lead from the root to a place, from the inside out: the place's own, that of the
directory it is in, and so on. -/
abbrev Location := List (List Char)

namespace Node

/-- A directory without entries. -/
def emptyDirectory : Node := .directory []

/-- Whether this is a directory. -/
def isDirectory : Node → Bool
  | .directory _ => true
  | .file _ => false

/-- What a name in a directory leads to. -/
def child? : Node → List Char → Option Node
  | .directory entries, name => (entries.find? fun e => e.1 == name).map (·.2)
  | .file _, _ => none

/-- A directory with another entry under a name, or without one. A file has no entries and stays. -/
def withChild (name : List Char) (child : Option Node) : Node → Node
  | .directory entries =>
      let others := entries.filter fun e => e.1 != name
      .directory (child.elim others fun node => (name, node) :: others)
  | .file bytes => .file bytes

/-- What names lead to, one after the other. -/
def at? (node : Node) : List (List Char) → Option Node
  | [] => some node
  | name :: rest => (node.child? name).bind fun child => child.at? rest

/-- The node with something put where names lead, and directories on the way as far as nothing
stands. -/
def put (node : Node) (new : Node) : List (List Char) → Node
  | [] => new
  | name :: rest =>
      node.withChild name (some (((node.child? name).getD emptyDirectory).put new rest))

/-- The node without what names lead to and what is below that. -/
def remove (node : Node) : List (List Char) → Node
  | [] => emptyDirectory
  | [name] => node.withChild name none
  | name :: rest =>
      match node.child? name with
      | some child => node.withChild name (some (child.remove rest))
      | none => node

theorem child?_withChild (entries : List (List Char × Node)) (name m : List Char)
    (child : Option Node) :
    ((directory entries).withChild name child).child? m =
      if m = name then child else (directory entries).child? m := by
  have others : (entries.filter fun e => e.1 != name).find? (fun e => e.1 == m) =
      if m = name then none else entries.find? fun e => e.1 == m := by
    rw [List.find?_filter]
    split
    · subst m
      simp
    · rename_i h
      congr 1
      funext e
      by_cases hm : e.1 = m
      · simp [hm, h]
      · simp [hm]
  by_cases h : m = name
  · subst h
    cases child <;> simp_all [withChild, child?]
  · cases child with
    | none => simp_all [withChild, child?]
    | some node =>
        have hne : ¬ name = m := fun e => h e.symm
        simp_all [withChild, child?]

/-- Names that lead on from where others have led. -/
theorem at?_append (node : Node) (l m : List (List Char)) :
    node.at? (l ++ m) = (node.at? l).bind (·.at? m) := by
  induction l generalizing node with
  | nil => rfl
  | cons name rest ih =>
      cases h : node.child? name with
      | none => simp [at?, h]
      | some child => simpa [at?, h] using ih child

end Node

/-- Why the system refuses. -/
inductive FileError where
  | notFound
  | alreadyThere
  | notDirectory
  | isDirectory
  /-- A name or a path has too many bytes. -/
  | tooLong
  /-- A zero byte, which no path can hold. -/
  | zeroByte
deriving DecidableEq

/-- The system's words for its refusal. -/
def FileError.message : FileError → String
  | .notFound => "No such file or directory (os error 2)"
  | .alreadyThere => "File exists (os error 17)"
  | .notDirectory => "Not a directory (os error 20)"
  | .isDirectory => "Is a directory (os error 21)"
  | .tooLong => "File name too long (os error 36)"
  | .zeroByte => "file name contained an unexpected NUL byte"

/-- A tree of files, and the place that paths start from unless they start at the root. -/
structure Files where
  root : Node
  working : Location

namespace Files

/-- What stands at a place. -/
def node (fs : Files) (l : Location) : Option Node :=
  fs.root.at? l.reverse

/-- What stands at a place is what its name leads to in the directory it is in. -/
theorem node_cons (fs : Files) (name : List Char) (l : Location) :
    fs.node (name :: l) = (fs.node l).bind (·.child? name) := by
  rw [node, List.reverse_cons, Node.at?_append]
  cases h : fs.root.at? l.reverse with
  | none => simp [node, h]
  | some here => simp [node, h, Node.at?]

/-- Whether a directory stands at a place. -/
def isDirectoryAt (fs : Files) (l : Location) : Bool :=
  (fs.node l).any Node.isDirectory

/-- The tree with something put at a place. -/
def put (fs : Files) (l : Location) (node : Node) : Files :=
  { fs with root := fs.root.put node l.reverse }

/-- The tree without a place and what is below it. -/
def remove (fs : Files) (l : Location) : Files :=
  { fs with root := fs.root.remove l.reverse }

/-! ## Following a path -/

/-- The pieces of a path that say where to go. -/
def steps (path : String) : List (List Char) :=
  (Path.pieces path.toList).filter fun p => !p.isEmpty

/-- A tree with a working directory and nothing else. -/
def startingIn (path : String) : Files where
  root := Node.emptyDirectory.put .emptyDirectory (steps path)
  working := (steps path).reverse

/-- The tree with a working directory that is gone. It was below the one before, under a name that
no path spells. -/
def strayed (fs : Files) : Files :=
  { fs with working := [] :: fs.working }

/-- The path of the working directory, unless it is gone. -/
def workingPath? (fs : Files) : Option String :=
  if fs.isDirectoryAt fs.working then some ("/" ++ Path.ofPieces fs.working.reverse) else none

/-- How many bytes a name may have. -/
def maxNameBytes : Nat := 255

/-- How many bytes a path may have. -/
def maxPathBytes : Nat := 4095

/-- The place that a path starts from. -/
def start (fs : Files) (path : String) : Except FileError Location :=
  if path.toList.contains '\x00' then .error .zeroByte
  else if path = "" then .error .notFound
  else if maxPathBytes < path.utf8ByteSize then .error .tooLong
  else if Path.isAbsolute path then .ok []
  else .ok fs.working

/-- Whether a step goes by dots. -/
def isDots (step : List Char) : Bool :=
  step == ['.'] || step == ['.', '.']

/-- Go one step from a directory. Dots lead to a directory, a name to whatever bears it. -/
def follow (l : Location) (step : List Char) : Location :=
  if step = ['.'] then l
  else if step = ['.', '.'] then l.tail
  else step :: l

/-- What stands where a trail has led: its first node, and the root before there is one. -/
def here (fs : Files) (trail : List (Option Node)) : Option Node :=
  trail.headD (some fs.root)

/-- A trail that goes on to what a name leads to. -/
def descend (fs : Files) (trail : List (Option Node)) (name : List Char) : List (Option Node) :=
  (fs.here trail).bind (·.child? name) :: trail

/-- A trail that goes one step on. -/
def followTrail (fs : Files) (trail : List (Option Node)) (step : List Char) : List (Option Node) :=
  if step = ['.'] then trail
  else if step = ['.', '.'] then trail.tail
  else fs.descend trail step

/-- The trail that leads to a place: what stands there, and what stands at the places around it but
for the root. -/
def trailTo (fs : Files) : Location → List (Option Node)
  | [] => []
  | name :: l => fs.descend (fs.trailTo l) name

/-- What one step finds where a trail has led. A directory that is gone is empty. -/
def lookFrom (fs : Files) (trail : List (Option Node)) (step : List Char) :
    Except FileError Node :=
  let there := fs.here (fs.followTrail trail step)
  if isDots step then .ok (there.getD .emptyDirectory)
  else if !(fs.here trail).any Node.isDirectory then .error .notFound
  else if maxNameBytes < (String.ofList step).utf8ByteSize then .error .tooLong
  else there.elim (.error .notFound) .ok

/-- What one step finds from a place. -/
def lookBeside (fs : Files) (l : Location) (step : List Char) : Except FileError Node :=
  fs.lookFrom (fs.trailTo l) step

/-- Go through directories, from a place to which a trail leads. -/
def enterFrom (fs : Files) (l : Location) (trail : List (Option Node)) :
    List (List Char) → Except FileError Location
  | [] => .ok l
  | step :: rest =>
      match fs.lookFrom trail step with
      | .ok (.directory _) => enterFrom fs (follow l step) (fs.followTrail trail step) rest
      | .ok (.file _) => .error .notDirectory
      | .error e => .error e

/-- Go through directories. -/
def enter (fs : Files) (l : Location) (steps : List (List Char)) : Except FileError Location :=
  fs.enterFrom l (fs.trailTo l) steps

theorem here_trailTo (fs : Files) (l : Location) : fs.here (fs.trailTo l) = fs.node l := by
  induction l with
  | nil => rfl
  | cons name l ih => simp [node_cons, ← ih, trailTo, descend, here]

theorem followTrail_trailTo (fs : Files) (l : Location) (step : List Char) :
    fs.followTrail (fs.trailTo l) step = fs.trailTo (follow l step) := by
  unfold followTrail follow
  split
  · rfl
  · split
    · cases l <;> rfl
    · rfl

/-- What one step finds depends on what stands at the place and where the step leads. -/
theorem lookBeside_eq (fs : Files) (l : Location) (step : List Char) :
    fs.lookBeside l step =
      if isDots step then .ok ((fs.node (follow l step)).getD .emptyDirectory)
      else if !fs.isDirectoryAt l then .error .notFound
      else if maxNameBytes < (String.ofList step).utf8ByteSize then .error .tooLong
      else (fs.node (follow l step)).elim (.error .notFound) .ok := by
  unfold isDirectoryAt lookBeside lookFrom
  simp only [followTrail_trailTo, here_trailTo]

/-- Directories are gone through one after the other. -/
theorem enter_cons (fs : Files) (l : Location) (step : List Char) (rest : List (List Char)) :
    fs.enter l (step :: rest) =
      match fs.lookBeside l step with
      | .ok (.directory _) => fs.enter (follow l step) rest
      | .ok (.file _) => .error .notDirectory
      | .error e => .error e := by
  rw [enter, enterFrom, followTrail_trailTo]
  rfl

/-- The directory that a path leads to but for its last step, and that step. The root is a step by
dots from itself. -/
def approach (fs : Files) (path : String) : Except FileError (Location × List Char) := do
  let l ← fs.start path
  let l ← fs.enter l (steps path).dropLast
  return (l, (steps path).getLast?.getD ['.'])

/-- The place that a path leads to. -/
def locate (fs : Files) (path : String) : Except FileError Location := do
  let (l, step) ← fs.approach path
  return follow l step

/-- Whether a path ends in a slash, and so can only be a directory's. -/
def endsInSlash (path : String) : Bool :=
  path.toList.getLast? == some '/'

/-! ## Asking and reading -/

/-- What a path leads to. -/
def look (fs : Files) (path : String) : Except FileError Node := do
  let (l, step) ← fs.approach path
  let node ← fs.lookBeside l step
  if endsInSlash path && !node.isDirectory then .error .notDirectory else .ok node

/-- Whether a path leads to anything. -/
def contains (fs : Files) (path : String) : Bool :=
  (fs.look path).isOk

/-- The bytes of the file that a path leads to. -/
def read (fs : Files) (path : String) : Except FileError (List UInt8) := do
  match ← fs.look path with
  | .directory _ => .error .isDirectory
  | .file bytes => .ok bytes

/-! ## Changing -/

/-- Make a directory in one that is there. -/
def makeDirectory (fs : Files) (path : String) : Except FileError Files := do
  let (l, step) ← fs.approach path
  match fs.lookBeside l step with
  | .ok _ => .error .alreadyThere
  | .error .notFound =>
      if fs.isDirectoryAt l then .ok (fs.put (step :: l) .emptyDirectory) else .error .notFound
  | .error e => .error e

/-- Make a directory unless it is there already. -/
def ensureDirectory (fs : Files) (path : String) : Files × Except FileError Unit :=
  match fs.makeDirectory path with
  | .ok fs => (fs, .ok ())
  | .error .alreadyThere =>
      match fs.look path with
      | .ok (.directory _) => (fs, .ok ())
      | _ => (fs, .error .alreadyThere)
  | .error e => (fs, .error e)

/-- Make the first of some directories, each of which lies in the next. Those after it are only
looked at when something on the way to it is missing. -/
def ensureLineage (fs : Files) : List String → Files × Except FileError Unit
  | [] => (fs, .ok ())
  | path :: above =>
      match fs.ensureDirectory path with
      | (fs, .error .notFound) =>
          match ensureLineage fs above with
          | (fs, .ok ()) => fs.ensureDirectory path
          | (fs, .error e) => (fs, .error e)
      | (fs, done) => (fs, done)

/-- Make a directory and those on the way to it, as far as they are missing. The empty path and the
root name directories that are always there. -/
def makeDirectories (fs : Files) (path : String) : Files × Except FileError Unit :=
  fs.ensureLineage (Path.lineage path)

/-- Open a file for appending: its place, and the tree in which it exists. No file is opened by a
path that ends in a slash. -/
def openAppend (fs : Files) (path : String) : Except FileError (Files × Location) := do
  let (l, step) ← fs.approach path
  if isDots step || endsInSlash path then .error .isDirectory
  else
    match fs.lookBeside l step with
    | .ok (.directory _) => .error .isDirectory
    | .ok (.file _) => .ok (fs, step :: l)
    | .error .notFound =>
        if fs.isDirectoryAt l then .ok (fs.put (step :: l) (.file []), step :: l)
        else .error .notFound
    | .error e => .error e

/-- Write a file anew, making the directories on the way to it. -/
def write (fs : Files) (path : String) (bytes : List UInt8) : Files × Except FileError Unit :=
  match (Path.parent? path).elim (fs, .ok ()) fs.makeDirectories with
  | (fs, .error e) => (fs, .error e)
  | (fs, .ok ()) =>
      match fs.openAppend path with
      | .error e => (fs, .error e)
      | .ok (fs, l) => (fs.put l (.file bytes), .ok ())

/-- Append to the file at a place. -/
def append (fs : Files) (l : Location) (bytes : List UInt8) : Files :=
  match fs.node l with
  | some (.file old) => fs.put l (.file (old ++ bytes))
  | _ => fs

end Files

end IdentityLine
