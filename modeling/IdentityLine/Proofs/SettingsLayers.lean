import IdentityLine.Proofs.SettingsDocument
import IdentityLine.Run

/-!
# Settings in layers

Whatever settings are loaded, each of them comes from its own variable of the
environment, or else from its own place in the settings file, or else is a default.
The file's part is what its document says, so neither the order of what stands in
the file nor what stands under names that settings do not have comes into it; a file
that is not there counts as one without entries.

The argument is short once the document is known: loading succeeds exactly when the
file holds a document that says some settings, and then the variables are laid over
these. Each variable is looked at for one setting alone, which `Setting` gives a
name, so a change to the environment that leaves a setting's variable alone leaves
the setting alone.
-/

namespace IdentityLine

open Toml

namespace Settings

/-! ## The document that is loaded -/

/-- The document of the file at a path, unless the file cannot be read or is no document. -/
def readDocument? (files : Files) (path : String) : Option Entries :=
  match files.read path with
  | .error _ => none
  | .ok bytes => (Utf8.decode? bytes).bind Toml.parse

/-- The document of the settings file in a directory. Where no file is there it is the one without
entries. -/
def document? (files : Files) (dir : String) : Option Entries :=
  if files.contains (filePath dir) then readDocument? files (filePath dir) else some []

theorem ofText_eq_ok_iff {text : String} {s : Settings} :
    ofText text = .ok s ↔ ∃ doc, Toml.parse text = some doc ∧ DocumentSaid doc s := by
  rw [ofText]
  split
  · next doc hparse =>
      rw [ofDocument_eq_ok_iff (distinct_parse hparse), hparse]
      simp only [Option.some.injEq, exists_eq_left']
  · next hparse =>
      rw [hparse]
      simp

theorem readFile_eq_ok_iff {files : Files} {path : String} {s : Settings} :
    readFile files path = .ok s ↔
      ∃ doc, readDocument? files path = some doc ∧ DocumentSaid doc s := by
  unfold readFile readDocument?
  cases files.read path with
  | error e => simp
  | ok bytes =>
      dsimp only
      cases Utf8.decode? bytes with
      | none => simp
      | some text =>
          dsimp only
          rw [Option.bind_some, ← ofText_eq_ok_iff]
          cases ofText text with
          | error e => exact ⟨nofun, nofun⟩
          | ok t =>
              exact ⟨fun h => congrArg _ (Except.ok.inj h), fun h => congrArg _ (Except.ok.inj h)⟩

/-- A document without entries says what the defaults are. -/
theorem documentSaid_nil : DocumentSaid [] {} := by
  rw [← ofDocument_eq_ok_iff Entries.distinct_nil, ofDocument, Entries.sorted, List.mergeSort_nil]
  rfl

/-- Settings are loaded exactly when the document says some, and then the variables of the
environment are laid over these. -/
theorem loadFrom_eq_ok_iff {files : Files} {env : Environment} {dir : String} {s : Settings} :
    (loadFrom files env dir).2 = .ok s ↔
      ∃ doc filed, document? files dir = some doc ∧ DocumentSaid doc filed
        ∧ s = filed.override env := by
  rw [loadFrom, document?]
  split
  · dsimp only
    cases hread : readFile files (filePath dir) with
    | error e =>
        refine ⟨nofun, fun ⟨doc, filed, hdoc, said, _⟩ => ?_⟩
        rw [readFile_eq_ok_iff.mpr ⟨doc, hdoc, said⟩] at hread
        cases hread
    | ok filed =>
        obtain ⟨doc, hdoc, said⟩ := readFile_eq_ok_iff.mp hread
        rw [hdoc]
        constructor
        · intro h
          exact ⟨doc, filed, rfl, said, (Except.ok.inj h).symm⟩
        · rintro ⟨_, filed', ⟨⟩, said', rfl⟩
          rw [said.unique said']
          rfl
  · constructor
    · intro h
      exact ⟨[], {}, rfl, documentSaid_nil, (Except.ok.inj h).symm⟩
    · rintro ⟨_, filed, ⟨⟩, said, rfl⟩
      rw [said.unique documentSaid_nil]

/-! ## A setting and its variable -/

/-- The settings that a variable of the environment decides. -/
inductive Setting where
  | userName
  | userEmail
  | committerName
  | committerEmail
  | level
  | colored
  | logFile
deriving DecidableEq

namespace Setting

/-- The name of the variable that decides a setting. -/
def variableName : Setting → String
  | userName => "IDENT_USER_NAME"
  | userEmail => "IDENT_USER_EMAIL"
  | committerName => "GIT_COMMITTER_NAME"
  | committerEmail => "GIT_COMMITTER_EMAIL"
  | level => "IDENT_LOG_LEVEL"
  | colored => "IDENT_LOG_COLORED"
  | logFile => "IDENT_LOG_FILE"

/-- What a setting can be. -/
def Carrier : Setting → Type
  | userName | userEmail | committerName | committerEmail | logFile => Option String
  | level => Level
  | colored => Bool

end Setting

/-- What a setting is. -/
def value (s : Settings) : (k : Setting) → k.Carrier
  | .userName => s.user.name
  | .userEmail => s.user.email
  | .committerName => s.user.committerName
  | .committerEmail => s.user.committerEmail
  | .level => s.logging.level
  | .colored => s.logging.colored
  | .logFile => s.logging.file

theorem orElse_eq_or {α : Type} (a b : Option α) : (a <|> b) = a.or b :=
  Option.orElse_eq_or

/-- What the variables make of a setting depends on its own variable alone. -/
theorem value_override_congr {s : Settings} {env env' : Environment} {k : Setting}
    (h : env'.get? k.variableName = env.get? k.variableName) :
    (s.override env').value k = (s.override env).value k := by
  cases k with
  | userName => exact congrArg (fun v => v <|> s.user.name) h
  | userEmail => exact congrArg (fun v => v <|> s.user.email) h
  | committerName => exact congrArg (fun v => v <|> s.user.committerName) h
  | committerEmail => exact congrArg (fun v => v <|> s.user.committerEmail) h
  | level => exact congrArg (fun v => (v.bind Level.named?).getD s.logging.level) h
  | colored =>
      -- The flag is the one setting that a match on its variable decides.
      dsimp only [Setting.variableName] at h
      dsimp only [value, override]
      rw [h]
  | logFile => exact congrArg (fun v => v <|> s.logging.file) h

/-- The level that the command line asks for takes the place of the one that is loaded; nothing
else changes, and neither does whether the settings pass their checks. -/
theorem settle_some (w : World) (level : Level) :
    Run.settle w (some level) =
      (Run.settle w none).map fun (s, path) =>
        ({ s with logging := { s.logging with level } }, path) := by
  unfold Run.settle
  cases (load w.files w.env).2 with
  | error e => rfl
  | ok loaded =>
      -- No check looks at the level, and neither does the path of the log file.
      have hvalidate : (loaded.withLevel level).validate = loaded.validate := rfl
      have hpath : (loaded.withLevel level).logFilePath w.env w.files.workingPath?
          = loaded.logFilePath w.env w.files.workingPath? := rfl
      dsimp only [bind, Except.bind]
      rw [hvalidate, hpath]
      cases loaded.validate with
      | error e => rfl
      | ok _ =>
          cases loaded.logFilePath w.env w.files.workingPath? with
          | error e => rfl
          | ok path => rfl

/-- Without a level on the command line a run settles on the settings that are loaded, if they pass
their checks and the log file has a path. -/
theorem settle_none_eq_ok_iff {w : World} {s : Settings} (h : (load w.files w.env).2 = .ok s)
    {t : Settings} {path : Option String} :
    Run.settle w none = .ok (t, path) ↔
      t = s ∧ s.validate = .ok () ∧ s.logFilePath w.env w.files.workingPath? = .ok path := by
  rw [Run.settle, h]
  dsimp only [bind, Except.bind]
  cases s.validate with
  | error e => exact ⟨nofun, fun ⟨_, hvalid, _⟩ => nomatch hvalid⟩
  | ok _ =>
      cases s.logFilePath w.env w.files.workingPath? with
      | error e => exact ⟨nofun, fun ⟨_, _, hpath⟩ => nomatch hpath⟩
      | ok path' =>
          constructor
          · intro hsettle
            cases hsettle
            exact ⟨rfl, rfl, rfl⟩
          · rintro ⟨rfl, -, hpath⟩
            cases hpath
            rfl

/-! ## Layers -/

/-- Settings that are loaded come from three layers. Over the settings that the document of the file
says lie the variables of the environment, each over one setting; the overrides of the committer
have no place in the file. So a variable that is set, changed or unset moves no setting but its own,
and another file that says the same of the settings, in whatever order and with whatever else in it,
leads to the same ones. A run settles on the settings that are loaded, or fails where their checks
do; a level on the command line replaces the level that is loaded and nothing else. -/
theorem settings_in_layers {files : Files} {env : Environment} {dir : String} {s : Settings}
    (h : (loadFrom files env dir).2 = .ok s) :
    ∃ doc filed, document? files dir = some doc ∧ DocumentSaid doc filed
      ∧ s.user.name = (env.get? "IDENT_USER_NAME").or filed.user.name
      ∧ s.user.email = (env.get? "IDENT_USER_EMAIL").or filed.user.email
      ∧ s.user.committerName = env.get? "GIT_COMMITTER_NAME"
      ∧ s.user.committerEmail = env.get? "GIT_COMMITTER_EMAIL"
      ∧ s.logging.level
          = ((env.get? "IDENT_LOG_LEVEL").bind Level.named?).getD filed.logging.level
      ∧ s.logging.colored
          = ((env.get? "IDENT_LOG_COLORED").map fun text =>
              decide (text = "true" ∨ text = "1")).getD filed.logging.colored
      ∧ s.logging.file = (env.get? "IDENT_LOG_FILE").or filed.logging.file
      ∧ (∀ (k : Setting) (name : String) (value : Option (List UInt8)), name ≠ k.variableName →
          ∃ s', (loadFrom files (env.set name value) dir).2 = .ok s' ∧ s'.value k = s.value k)
      ∧ (∀ (files' : Files) (dir' : String) (doc' : Entries), document? files' dir' = some doc' →
          DocumentAgain doc doc' → (loadFrom files' env dir').2 = .ok s)
      ∧ (∀ (w : World) (level : Level),
          Run.settle w (some level) = (Run.settle w none).map fun (t, path) =>
            ({ t with logging := { t.logging with level } }, path))
      ∧ ∀ w : World, (load w.files w.env).2 = .ok s → ∀ (t : Settings) (path : Option String),
          Run.settle w none = .ok (t, path) ↔
            t = s ∧ s.validate = .ok () ∧ s.logFilePath w.env w.files.workingPath? = .ok path := by
  obtain ⟨doc, filed, hdoc, said, rfl⟩ := loadFrom_eq_ok_iff.mp h
  obtain ⟨es, -, user⟩ := said.user
  refine ⟨doc, filed, hdoc, said, orElse_eq_or .., orElse_eq_or .., ?_, ?_, rfl, ?_,
    orElse_eq_or .., ?_, ?_, settle_some, fun _ hload _ _ => settle_none_eq_ok_iff hload⟩
  · dsimp only [override]
    rw [user.committerName, orElse_eq_or, Option.or_none]
  · dsimp only [override]
    rw [user.committerEmail, orElse_eq_or, Option.or_none]
  · dsimp only [override]
    cases env.get? "IDENT_LOG_COLORED" with
    | none => rfl
    | some text =>
        dsimp only [Option.map_some, Option.getD_some]
        rw [Bool.decide_or, Bool.beq_eq_decide_eq, Bool.beq_eq_decide_eq]
  · intro k name value hname
    exact ⟨filed.override (env.set name value),
      loadFrom_eq_ok_iff.mpr ⟨doc, filed, hdoc, said, rfl⟩,
      value_override_congr (Environment.get?_set_of_ne hname.symm)⟩
  · intro files' dir' doc' hdoc' again
    exact loadFrom_eq_ok_iff.mpr ⟨doc', filed, hdoc', said.again again, rfl⟩

theorem eq_ok_of_toOption {ε α : Type} {x : Except ε α} {a : α} (h : x.toOption = some a) :
    x = .ok a := by
  cases x with
  | error e => cases h
  | ok b => exact congrArg _ (Option.some.inj h)

/-- Files with a settings file that holds a text, in a directory below the root. -/
def filesHolding (text : String) : Files :=
  (Files.startingIn "/w").put ["config.toml".toList, "w".toList] (.file text.toUTF8.toList)

/-- A variable that names no level leaves the file's, and every text but two turns colours off,
until the variable is unset. -/
theorem settings_in_layers_loud :
    let files := filesHolding "[logging]\nlevel = \"info\"\n"
    let env := (Environment.empty.set "IDENT_LOG_LEVEL" (some "loud".toUTF8.toList)).set
      "IDENT_LOG_COLORED" (some "yes".toUTF8.toList)
    (loadFrom files env "/w").2 = .ok { logging := { level := .info, colored := false } }
      ∧ ∃ s, (loadFrom files (env.set "IDENT_LOG_COLORED" none) "/w").2 = .ok s
        ∧ s.value .level = Level.info := by
  intro files env
  have hload : (loadFrom files env "/w").2
      = .ok { logging := { level := .info, colored := false } } :=
    eq_ok_of_toOption (by decide +kernel)
  obtain ⟨_, _, _, _, _, _, _, _, _, _, _, hframe, _⟩ := settings_in_layers hload
  exact ⟨hload, hframe .level "IDENT_LOG_COLORED" none (by decide)⟩

end Settings

end IdentityLine
