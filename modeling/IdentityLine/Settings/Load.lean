import IdentityLine.Files
import IdentityLine.Settings.File

/-!
# Loading settings

Settings come in three layers. Under everything lie the defaults; over them what
the settings file says, if there is one; and on top the variables of the
environment, each of which decides one setting and no other. A variable that
names no level changes nothing, while every text decides whether to colour.

Loading fails only for the sake of the file.
-/

namespace IdentityLine

/-- Why settings could not be loaded from their file. -/
inductive LoadError where
  | settings (e : SettingsError)
  /-- The system refuses to read the file. -/
  | unreadable (path : String) (why : FileError)
  /-- The file is not text. -/
  | notText (path : String)
  | rejected (path : String) (why : Settings.Rejection)
deriving DecidableEq

namespace LoadError

/-- The text of an error. What is wrong with a document is told by `explain`. -/
def describe (origin : Origin) (explain : Settings.Rejection → String) : LoadError → String
  | .settings e => e.describe origin
  | .unreadable path why => "IO error reading " ++ path ++ ": " ++ why.message
  | .notText path => "IO error reading " ++ path ++ ": stream did not contain valid UTF-8"
  | .rejected path why => "TOML parse error in " ++ path ++ ": " ++ explain why

end LoadError

namespace Settings

/-- The settings under the variables of the environment. -/
def override (s : Settings) (env : Environment) : Settings where
  user :=
    { name := env.get? "IDENT_USER_NAME" <|> s.user.name
      email := env.get? "IDENT_USER_EMAIL" <|> s.user.email
      committerName := env.get? "GIT_COMMITTER_NAME" <|> s.user.committerName
      committerEmail := env.get? "GIT_COMMITTER_EMAIL" <|> s.user.committerEmail }
  logging :=
    { level := ((env.get? "IDENT_LOG_LEVEL").bind Level.named?).getD s.logging.level
      colored :=
        match env.get? "IDENT_LOG_COLORED" with
        | some text => text == "true" || text == "1"
        | none => s.logging.colored
      file := env.get? "IDENT_LOG_FILE" <|> s.logging.file }

/-- The path of the settings file in a directory. -/
def filePath (directory : String) : String :=
  Path.join directory "config.toml"

/-- Read the settings file at a path. -/
def readFile (files : Files) (path : String) : Except LoadError Settings :=
  match files.read path with
  | .error e => .error (.unreadable path e)
  | .ok bytes =>
      match Utf8.decode? bytes with
      | none => .error (.notText path)
      | some s => (ofText s).mapError (.rejected path)

/-- Load the settings from a directory, with the records that are logged on the way. -/
def loadFrom (files : Files) (env : Environment) (directory : String) :
    List LogRecord × Except LoadError Settings :=
  let path := filePath directory
  if files.contains path then
    ([{ level := .debug, message := "Reading config from " ++ path }],
      (readFile files path).map fun s => s.override env)
  else
    ([{ level := .debug, message := "No config at " ++ path ++ ", using defaults" }],
      .ok (override {} env))

/-- Load the settings from their directory. -/
def load (files : Files) (env : Environment) : List LogRecord × Except LoadError Settings :=
  match directory env files.workingPath? with
  | .error e => ([], .error (.settings e))
  | .ok dir => loadFrom files env dir

end Settings

end IdentityLine
