import IdentityLine.Calendar
import IdentityLine.Run
import Std.Time.Zoned

/-!
# The machine

A run is a function of the world it finds. This module asks the machine for that
world and hands back what a run has changed; it decides nothing. Of the files
only those are looked at that a run can ask for: what stands on the way to the
settings file and on the way to the log file.
-/

namespace IdentityLine.Machine

/-! ## Time -/

/-- The time, in milliseconds since the start of 1970. -/
def now : IO Int64 := do
  return Int64.ofInt (← Std.Time.Timestamp.now).toMillisecondsSinceUnixEpoch.val

/-- The local zone; UTC where the machine has no rules for it. -/
def zone : IO Zone := do
  match ← Std.Time.Database.defaultGetLocalZoneRules.toBaseIO with
  | .ok rules =>
      return { offsetAt := fun i =>
        let moment := Std.Time.Timestamp.ofSecondsSinceUnixEpoch ⟨i.seconds⟩
        (UtcOffset.ofSeconds? (rules.timezoneAt moment).offset.second.val).getD .utc }
  | .error _ => return .utc

/-! ## Names -/

/-- The variables of the environment. -/
def environment : IO Environment := do
  return .ofBlock (← IO.FS.readBinFile "/proc/self/environ").toList

/-- The host's name. -/
def host : IO HostReply := do
  match ← (IO.FS.readBinFile "/proc/sys/kernel/hostname").toBaseIO with
  | .ok line => return .ofName 0 (line.toList.takeWhile (· ≠ 10))
  | .error _ => return .ofName 1 []

/-! ## Files -/

/-- The files as far as they are known at first: the working directory, unless it is gone. -/
def bareFiles : IO Files := do
  match ← IO.currentDir.toBaseIO with
  | .ok dir => return .startingIn dir.toString
  | .error _ => return (Files.startingIn "/").strayed

/-- The path from the root to a place. -/
def pathTo (l : Location) : String :=
  "/" ++ Path.ofPieces l.reverse

/-- What stands at a place. Of a file the bytes are read only if they are wanted. -/
def nodeAt (l : Location) (wantsBytes : Bool) : IO (Option Node) := do
  match ← (IO.FS.realPath (pathTo l)).toBaseIO with
  | .error _ => return none
  | .ok path =>
      if ← path.isDir then return some .emptyDirectory
      else if wantsBytes then return some (.file (← IO.FS.readBinFile path).toList)
      else return some (.file [])

/-- Look at what stands along a way. What is already known is not looked at again. -/
def lookAlong (fs : Files) (wantsBytes : Bool) : Location → List (List Char) → IO Files
  | _, [] => return fs
  | l, step :: rest => do
      let l := Files.follow l step
      if (fs.node l).isSome then lookAlong fs wantsBytes l rest
      else
        match ← nodeAt l (wantsBytes && rest.isEmpty) with
        | some node => lookAlong (fs.put l node) wantsBytes l rest
        | none => lookAlong fs wantsBytes l rest

/-- Look at what stands on the way that a path goes. -/
def survey (fs : Files) (wantsBytes : Bool) (path : String) : IO Files :=
  match fs.start path with
  | .ok l => lookAlong fs wantsBytes l (Files.steps path)
  | .error _ => return fs

/-- Make at a place what has come to stand there: a directory, or the end of a file. -/
def saveAt (before after : Files) (l : Location) : IO Unit := do
  match before.node l, after.node l with
  | none, some (.directory _) => IO.FS.createDir (pathTo l)
  | old, some (.file bytes) =>
      let known := match old with
        | some (.file bytes) => bytes.length
        | _ => 0
      let handle ← IO.FS.Handle.mk (pathTo l) .append
      handle.write (ByteArray.mk (bytes.drop known).toArray)
  | _, _ => return

/-- Make what has come to stand along a way. -/
def saveAlong (before after : Files) : Location → List (List Char) → IO Unit
  | _, [] => return
  | l, step :: rest => do
      let l := Files.follow l step
      saveAt before after l
      saveAlong before after l rest

/-- Make what has come to stand on the way that a path goes. -/
def save (before after : Files) (path : String) : IO Unit :=
  match before.start path with
  | .ok l => saveAlong before after l (Files.steps path)
  | .error _ => return

/-! ## A run -/

/-- The world without its files. -/
def bareWorld : IO World := do
  let millis ← now
  return {
    env := ← environment
    host := ← host
    files := ← bareFiles
    zone := ← zone
    clock := .stopped millis
    origin := { moment := Calendar.moment millis.toInt, place := "ident" }
    explain := Settings.Rejection.message }

/-- The world that a run finds, with the path of its log file. -/
def world : IO (World × Option String) := do
  let w ← bareWorld
  match Settings.directory w.env w.files.workingPath? with
  | .error _ => return (w, none)
  | .ok dir =>
      let w := { w with files := ← survey w.files true (Settings.filePath dir) }
      match Run.settle w none with
      | .ok (_, some path) => return ({ w with files := ← survey w.files false path }, some path)
      | _ => return (w, none)

/-- Run the program on its arguments. -/
def run (args : List String) : IO Outcome := do
  if (Arguments.parse args).isOk then
    let (w, path) ← world
    let outcome := IdentityLine.run w args
    path.forM (save w.files outcome.files)
    return outcome
  else return IdentityLine.run (← bareWorld) args

end IdentityLine.Machine
