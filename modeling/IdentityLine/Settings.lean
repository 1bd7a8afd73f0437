import IdentityLine.Environment
import IdentityLine.Level
import IdentityLine.Log
import IdentityLine.Path

/-!
# Settings

The settings say who signs and how to log. A value that is set is taken as it is,
even when it is empty; the checks come later and all at once, so that settings
can be loaded, looked at and corrected before anything depends on them.

The checks ask of every name and address that is set that a canonical line would
show something of it, and of the log file that it has a name and stays in the
directory of the settings.
-/

namespace IdentityLine

/-- Who signs. The two overrides come from the environment alone. -/
structure UserSettings where
  name : Option String := none
  email : Option String := none
  committerName : Option String := none
  committerEmail : Option String := none
deriving DecidableEq

/-- How to log. -/
structure LogSettings where
  level : Level := .warn
  /-- Whether levels are coloured on a screen. -/
  colored : Bool := true
  /-- The log file, below the directory of the settings; logs go to the screen without one. -/
  file : Option String := none
deriving DecidableEq

/-- The settings. -/
structure Settings where
  user : UserSettings := {}
  logging : LogSettings := {}
deriving DecidableEq

/-- What can be wrong with a setting. -/
inductive SettingsError where
  /-- The working directory is gone, and nothing else says where the settings are. -/
  | noWorkingDirectory
  /-- A field that is set and of which a canonical line would show nothing. -/
  | nothingPrintable (field : String)
  | unknownLevel (text : String)
  | blankLogFile
  /-- A log file that could lie outside the directory of the settings. -/
  | logFileOutside
deriving DecidableEq

namespace SettingsError

/-- The part of the settings that an error is about. -/
def category : SettingsError → String
  | .noWorkingDirectory => "Config"
  | .nothingPrintable _ => "User"
  | .unknownLevel _ | .blankLogFile | .logFileOutside => "Logging"

/-- The message of an error. -/
def message : SettingsError → String
  | .noWorkingDirectory => "Cannot determine current working directory"
  | .nothingPrintable field => field ++ " must contain at least one printable character"
  | .unknownLevel text => "unknown log level '" ++ text ++ "'"
  | .blankLogFile => "logging.file must not be empty"
  | .logFileOutside => "logging.file must be relative and cannot contain '..'"

/-- The text of an error, with its place. -/
def describe (origin : Origin) (e : SettingsError) : String :=
  origin.locate (e.category ++ " error: " ++ e.message)

end SettingsError

namespace UserSettings

/-- The texts that are checked, each with the name that an error gives it, in the order in which
they are checked. -/
def fields (u : UserSettings) : List (String × Option String) :=
  [("user.name", u.name), ("user.email", u.email), ("committer name", u.committerName),
    ("committer email", u.committerEmail)]

/-- Check that a canonical line would show something of every text that is set. -/
def validate (u : UserSettings) : Except SettingsError Unit :=
  u.fields.forM fun (field, value) =>
    match value with
    | some text =>
        if Text.sanitize text = "" then .error (.nothingPrintable field) else .ok ()
    | none => .ok ()

/-- Who signs: the overrides first, then what is set, then the user of the system. -/
def signer (u : UserSettings) (env : Environment) (host : HostReply) : Signer where
  name := u.committerName <|> u.name <|> (systemSigner env host).name
  email := u.committerEmail <|> u.email <|> (systemSigner env host).email

end UserSettings

namespace LogSettings

/-- Whether two dots in a row stand anywhere in a text. -/
def hasTwoDots : List Char → Bool
  | '.' :: '.' :: _ => true
  | _ :: cs => hasTwoDots cs
  | [] => false

/-- Check that the log file has a name and stays in the directory of the settings. -/
def validate (l : LogSettings) : Except SettingsError Unit :=
  match l.file with
  | none => .ok ()
  | some file =>
      if Text.isAllBlank file then .error .blankLogFile
      else if Path.isAbsolute file || hasTwoDots file.toList then .error .logFileOutside
      else .ok ()

end LogSettings

namespace Settings

/-- Check all settings; those of the user come first. -/
def validate (s : Settings) : Except SettingsError Unit := do
  s.user.validate
  s.logging.validate

/-- The settings with another level of logging. -/
def withLevel (s : Settings) (level : Level) : Settings :=
  { s with logging := { s.logging with level } }

/-- The directory of the settings: the one that the environment names, or else one below the working
directory. -/
def directory (env : Environment) (working : Option String) : Except SettingsError String :=
  match env.get? "IDENT_CONFIG_DIR", working with
  | some dir, _ => .ok dir
  | none, some working => .ok (Path.join working ".ident")
  | none, none => .error .noWorkingDirectory

/-- The path of the log file, if logs go to one. -/
def logFilePath (s : Settings) (env : Environment) (working : Option String) :
    Except SettingsError (Option String) :=
  match s.logging.file with
  | none => .ok none
  | some file => do return some (Path.join (← directory env working) file)

/-- The records that sum up the settings. -/
def summary (s : Settings) (env : Environment) (host : HostReply) : List LogRecord :=
  let unset (value : Option String) : String := value.getD "(unset)"
  let who (label : String) (signer : Signer) : LogRecord :=
    { level := .info
      message := "  " ++ label ++ ": " ++ unset signer.name ++ " <" ++ unset signer.email ++ ">" }
  let l := s.logging
  [{ level := .info, message := "Configuration loaded:" },
    who "user" { name := s.user.name, email := s.user.email },
    who "committer" (s.user.signer env host),
    { level := .info
      message := "  logging: " ++ l.level.name ++ " (colored: " ++ toString l.colored
        ++ ", file: " ++ l.file.getD "stderr" ++ ")" }]

end Settings

end IdentityLine
