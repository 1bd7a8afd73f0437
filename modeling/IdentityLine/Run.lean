import IdentityLine.Arguments
import IdentityLine.Settings.Load

/-!
# A run of the program

A run goes through stages, and the first that fails decides how it ends: the
arguments are read, the settings are loaded and checked, the log is opened, and
the command is carried out. Nothing is printed for people to read on but the
command's text, and that only when every stage has succeeded; everything else
goes where errors go, or into the log.

The arguments come first, so a call that makes no sense ends before the settings
are even looked at; and files change only once the settings have passed their
checks.
-/

namespace IdentityLine

/-- What a run finds: the system it runs on, and how it words what the system does not decide. -/
structure World where
  env : Environment
  host : HostReply
  files : Files
  zone : Zone
  clock : Clock
  origin : Origin
  /-- The words for what is wrong with a settings file. -/
  explain : Settings.Rejection → String

/-- How a run ends, and the files it leaves. -/
structure Outcome where
  exitCode : Nat
  stdout : String
  stderr : String
  files : Files

/-- Why a log could not be opened. -/
inductive LogError where
  | directory (path : String) (why : FileError)
  | file (path : String) (why : FileError)
deriving DecidableEq

/-- The message of an error. -/
def LogError.message : LogError → String
  | .directory path why => "Failed to create log directory " ++ path ++ ": " ++ why.message
  | .file path why => "Failed to open log file " ++ path ++ ": " ++ why.message

/-- Why a run failed once its arguments made sense. -/
inductive RunError where
  | load (e : LoadError)
  | log (e : LogError)
  | identity (e : Missing)
deriving DecidableEq

/-- The line that tells an error. -/
def RunError.line (w : World) (e : RunError) : String :=
  let text := match e with
    | .load e => "Config error: " ++ e.describe w.origin w.explain
    | .log e => "Logger error: " ++ w.origin.locate e.message
    | .identity e => "Identity error: " ++ w.origin.locate ("Invalid argument: " ++ e.message)
  "Error: " ++ text ++ "\n"

/-- Where the lines of a log go. -/
inductive Sink where
  | screen
  | file (path : String) (place : Location)

namespace Run

/-- The settings of a run, checked, with the path of the log file. -/
def settle (w : World) (logLevel : Option Level) :
    Except LoadError (Settings × Option String) := do
  let loaded ← (Settings.load w.files w.env).2
  let settings := match logLevel with
    | some level => loaded.withLevel level
    | none => loaded
  settings.validate.mapError .settings
  let path ← (settings.logFilePath w.env w.files.workingPath?).mapError .settings
  return (settings, path)

/-- Open the log, making the directories on the way to its file. The directories stay even when the
file cannot be opened. -/
def openLog (files : Files) : Option String → Files × Except LogError Sink
  | none => (files, .ok .screen)
  | some path =>
      let directory := Path.parent? path
      match directory.elim (files, .ok ()) files.makeDirectories with
      | (files, .error e) => (files, .error (.directory (directory.getD "") e))
      | (files, .ok ()) =>
          match files.openAppend path with
          | .error e => (files, .error (.file path e))
          | .ok (files, place) => (files, .ok (.file path place))

/-- The first record of a log. -/
def opening (level : Level) (sink : Sink) : LogRecord where
  level := .info
  message := "Logger initialized: level=" ++ level.titled ++ ", " ++
    match sink with
    | .screen => "stderr"
    | .file path _ => "file=" ++ path

/-- Write records to a log: the files with them, and what the screen shows. -/
def writeLog (w : World) (files : Files) (logging : LogSettings) (sink : Sink)
    (records : List LogRecord) : Files × String :=
  match sink with
  | .screen => (files, LogRecord.lines w.origin logging.colored logging.level records)
  | .file _ place =>
      let text := LogRecord.lines w.origin false logging.level records
      (files.append place text.toUTF8.toList, "")

/-- How a run ends that failed. -/
def failed (w : World) (files : Files) (screen : String) (e : RunError) : Outcome where
  exitCode := 1
  stdout := ""
  stderr := screen ++ e.line w
  files := files

/-- Carry out a command whose arguments made sense. -/
def carryOut (w : World) (call : Invocation) : Outcome :=
  match settle w call.logLevel with
  | .error e => failed w w.files "" (.load e)
  | .ok (settings, path) =>
      match openLog w.files path with
      | (files, .error e) => failed w files "" (.log e)
      | (files, .ok sink) =>
          let signer := settings.user.signer w.env w.host
          let ((records, printed), _) := (call.command.execute signer w.zone).run w.clock
          let (files, screen) := writeLog w files settings.logging sink
            (opening settings.logging.level sink :: settings.summary w.env w.host ++ records)
          match printed with
          | .error e => failed w files screen (.identity e)
          | .ok text => { exitCode := 0, stdout := text ++ "\n", stderr := screen, files }

/-- How a run ends whose arguments call no command. Texts that were asked for are printed; what is
wrong with arguments is told where errors go. -/
def answerUsage (w : World) (u : Usage) : Outcome :=
  let text := u.text?.getD ("error: " ++ u.complaint ++ "\n")
  { exitCode := u.exitCode
    stdout := if u.exitCode = 0 then text else ""
    stderr := if u.exitCode = 0 then "" else text
    files := w.files }

end Run

/-- Run the program on its arguments. -/
def run (w : World) (args : List String) : Outcome :=
  match Arguments.parse args with
  | .error u => Run.answerUsage w u
  | .ok call => Run.carryOut w call

end IdentityLine
