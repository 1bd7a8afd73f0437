import IdentityLine.Proofs.SettingsLayers
import IdentityLine.Proofs.SignerCommands

/-!
# The first failing stage decides

A run goes through its stages one after another, and the one that fails first says
how it ends. This module follows a run from its arguments to its command and says
at each stage what the run is if it fails there.

The checks of the settings are the stage with an order of its own. They are written
out as a list of faults, each with the question whether the settings have it, and
checking settings is looking for the first fault that they have. Behind the checks
nothing can go wrong with the path of the log file, because settings that were
loaded have a directory.

Files come last: up to the checks a run leaves them as they were, whatever it finds.
-/

namespace IdentityLine

/-! ## Checking settings -/

/-- Whether a text is set of which a canonical line would show nothing. -/
def showsNothing (value : Option String) : Bool :=
  value.any fun text => Text.sanitize text == ""

namespace Settings

/-- What can be wrong with the user's settings, in the order in which it is looked for, and whether
it is. -/
def userFaults (u : UserSettings) : List (SettingsError × Bool) :=
  [(.nothingPrintable "user.name", showsNothing u.name),
    (.nothingPrintable "user.email", showsNothing u.email),
    (.nothingPrintable "committer name", showsNothing u.committerName),
    (.nothingPrintable "committer email", showsNothing u.committerEmail)]

/-- What can be wrong with the settings of the log. -/
def logFaults (l : LogSettings) : List (SettingsError × Bool) :=
  [(.blankLogFile, l.file.any Text.isAllBlank),
    (.logFileOutside, l.file.any fun file =>
      Path.isAbsolute file || LogSettings.hasTwoDots file.toList)]

/-- The first fault that there is. -/
def firstOf (faults : List (SettingsError × Bool)) : Option SettingsError :=
  (faults.find? (·.2)).map (·.1)

/-- The first thing that is wrong with settings. -/
def firstFault? (s : Settings) : Option SettingsError :=
  firstOf (userFaults s.user ++ logFaults s.logging)

/-- What checking comes to when this is the first fault. -/
def verdict : Option SettingsError → Except SettingsError Unit
  | some fault => .error fault
  | none => .ok ()

theorem firstOf_cons (fault : SettingsError) (present : Bool)
    (faults : List (SettingsError × Bool)) :
    firstOf ((fault, present) :: faults) = if present then some fault else firstOf faults := by
  rw [firstOf, List.find?_cons]
  cases present with
  | true => rfl
  | false => rfl

theorem firstOf_eq_none_iff {faults : List (SettingsError × Bool)} :
    firstOf faults = none ↔ ∀ f ∈ faults, f.2 = false := by
  simp [firstOf]

theorem verdict_append (faults more : List (SettingsError × Bool)) :
    verdict (firstOf (faults ++ more)) =
      verdict (firstOf faults) >>= fun _ => verdict (firstOf more) := by
  induction faults with
  | nil => rfl
  | cons fault faults ih =>
      obtain ⟨fault, present⟩ := fault
      rw [List.cons_append, firstOf_cons, firstOf_cons]
      cases present with
      | true => rfl
      | false => exact ih

theorem validate_field_eq (field : String) (value : Option String)
    (faults : List (SettingsError × Bool)) :
    ((match value with
      | some text =>
          if Text.sanitize text = "" then Except.error (SettingsError.nothingPrintable field)
          else .ok ()
      | none => .ok ()) >>= fun _ => verdict (firstOf faults)) =
    verdict (firstOf ((.nothingPrintable field, showsNothing value) :: faults)) := by
  rw [firstOf_cons]
  cases value with
  | none => rfl
  | some text =>
      by_cases hnothing : Text.sanitize text = ""
      · simp [showsNothing, hnothing, verdict, bind, Except.bind]
      · simp [showsNothing, hnothing, bind, Except.bind]

theorem validate_user_eq (u : UserSettings) : u.validate = verdict (firstOf (userFaults u)) := by
  -- Each field comes to the same, and a fault in one ends the check before the next.
  simp only [userFaults, ← validate_field_eq]
  rfl

theorem validate_log_eq (l : LogSettings) : l.validate = verdict (firstOf (logFaults l)) := by
  rw [LogSettings.validate, logFaults, firstOf_cons, firstOf_cons]
  cases l.file with
  | none => rfl
  | some file =>
      dsimp only [Option.any_some]
      split
      · rfl
      · split
        · rfl
        · rfl

/-- Checking settings is looking for the first thing that is wrong with them. -/
theorem validate_eq (s : Settings) : s.validate = verdict s.firstFault? := by
  rw [firstFault?, verdict_append, ← validate_user_eq, ← validate_log_eq]
  rfl

theorem validate_eq_ok_iff {s : Settings} : s.validate = .ok () ↔ s.firstFault? = none := by
  rw [validate_eq]
  cases s.firstFault? with
  | none => simp [verdict]
  | some fault => simp [verdict]

/-- Settings that pass the checks pass those of the log. -/
theorem validate_logging {s : Settings} (h : s.firstFault? = none) :
    s.logging.validate = .ok () := by
  have hlog : firstOf (logFaults s.logging) = none :=
    firstOf_eq_none_iff.mpr fun f hf =>
      firstOf_eq_none_iff.mp h f (List.mem_append_right _ hf)
  rw [validate_log_eq, hlog]
  rfl

/-- Of every text about the user that is set, settings that pass the checks show something. -/
theorem sanitize_ne_of_validate {s : Settings} (h : s.validate = .ok ()) {text : String}
    (htext : some text ∈ [s.user.name, s.user.email, s.user.committerName,
      s.user.committerEmail]) : Text.sanitize text ≠ "" := by
  have hnone : ∀ f ∈ userFaults s.user, f.2 = false := by
    intro f hf
    exact firstOf_eq_none_iff.mp (validate_eq_ok_iff.mp h) f (List.mem_append_left _ hf)
  have hshows : showsNothing (some text) = false := by
    simp only [userFaults, List.forall_mem_cons] at hnone
    simp only [List.mem_cons, List.not_mem_nil, or_false] at htext
    rcases htext with htext | htext | htext | htext
    · exact htext ▸ hnone.1
    · exact htext ▸ hnone.2.1
    · exact htext ▸ hnone.2.2.1
    · exact htext ▸ hnone.2.2.2.1
  simpa [showsNothing] using hshows

/-! ## Settings that were loaded -/

/-- Settings that were loaded come from a directory. -/
theorem directory_of_load {files : Files} {env : Environment} {s : Settings}
    (h : (load files env).2 = .ok s) :
    ∃ dir, directory env files.workingPath? = .ok dir ∧ (loadFrom files env dir).2 = .ok s := by
  rw [load] at h
  split at h
  · cases h
  · next dir hdir => exact ⟨dir, hdir, h⟩

theorem logFilePath_eq {s : Settings} {env : Environment} {working : Option String} {dir : String}
    (h : directory env working = .ok dir) :
    s.logFilePath env working = .ok (s.logging.file.map (Path.join dir)) := by
  rw [logFilePath]
  cases s.logging.file with
  | none => rfl
  | some file =>
      rw [h]
      rfl

/-- The settings with the level that the command line asks for. -/
def leveled (s : Settings) : Option Level → Settings
  | some level => s.withLevel level
  | none => s

/-- No check looks at the level, and neither does the path of the log file. -/
theorem leveled_spec (s : Settings) (level : Option Level) :
    (s.leveled level).validate = s.validate
      ∧ (s.leveled level).user = s.user
      ∧ ∀ env working, (s.leveled level).logFilePath env working = s.logFilePath env working := by
  cases level with
  | none => exact ⟨rfl, rfl, fun _ _ => rfl⟩
  | some level => exact ⟨rfl, rfl, fun _ _ => rfl⟩

end Settings

/-- Settling is loading and then checking; the path of the log file is there once both are done. -/
theorem Run.settle_eq (w : World) (level : Option Level) :
    settle w level =
      match (Settings.load w.files w.env).2 with
      | .error e => .error e
      | .ok loaded =>
          match loaded.firstFault? with
          | some fault => .error (.settings fault)
          | none => ((loaded.logFilePath w.env w.files.workingPath?).mapError .settings).map
              fun path => (loaded.leveled level, path) := by
  rw [settle]
  cases hload : (Settings.load w.files w.env).2 with
  | error e => rfl
  | ok loaded =>
      obtain ⟨hvalidate, -, hpath⟩ := loaded.leveled_spec level
      dsimp only
      change ((loaded.leveled level).validate.mapError LoadError.settings >>= fun _ =>
        ((loaded.leveled level).logFilePath w.env w.files.workingPath?).mapError .settings
          >>= fun path => .ok (loaded.leveled level, path)) = _
      rw [hvalidate, hpath, Settings.validate_eq]
      cases loaded.firstFault? with
      | some fault => rfl
      | none =>
          cases loaded.logFilePath w.env w.files.workingPath? with
          | error e => rfl
          | ok path => rfl

/-- What a run is settled with. -/
theorem Run.settle_eq_ok_iff {w : World} {level : Option Level} {s : Settings}
    {path : Option String} :
    settle w level = .ok (s, path) ↔
      ∃ loaded dir, (Settings.load w.files w.env).2 = .ok loaded ∧ loaded.firstFault? = none
        ∧ Settings.directory w.env w.files.workingPath? = .ok dir
        ∧ s = loaded.leveled level ∧ path = loaded.logging.file.map (Path.join dir) := by
  rw [settle_eq]
  cases hload : (Settings.load w.files w.env).2 with
  | error e => simp
  | ok loaded =>
      obtain ⟨dir, hdir, -⟩ := Settings.directory_of_load hload
      dsimp only
      rw [Settings.logFilePath_eq hdir, hdir]
      cases hfault : loaded.firstFault? with
      | some fault => simp [hfault]
      | none =>
          change (Except.ok (loaded.leveled level, loaded.logging.file.map (Path.join dir)) :
            Except LoadError (Settings × Option String)) = .ok (s, path) ↔ _
          simp only [Except.ok.injEq, Prod.mk.injEq]
          constructor
          · rintro ⟨rfl, rfl⟩
            exact ⟨loaded, dir, rfl, hfault, rfl, rfl, rfl⟩
          · rintro ⟨_, _, rfl, -, rfl, rfl, rfl⟩
            exact ⟨rfl, rfl⟩

/-! ## How a run ends -/

/-- A run ends with an error: nothing is printed, and the error is told behind what the screen
already shows. -/
structure Outcome.Fails (o : Outcome) (w : World) (shown : String) (e : RunError) : Prop where
  exitCode : o.exitCode = 1
  stdout : o.stdout = ""
  stderr : o.stderr = shown ++ e.line w

/-- A text of whole lines. -/
def AreLines (text : String) : Prop :=
  text = "" ∨ ∃ front, text = front ++ "\n"

theorem areLines_join {texts : List String} (h : ∀ text ∈ texts, ∃ front, text = front ++ "\n") :
    AreLines (String.join texts) := by
  rcases List.eq_nil_or_concat texts with rfl | ⟨before, last, rfl⟩
  · exact Or.inl rfl
  · obtain ⟨front, rfl⟩ := h last (by simp)
    refine Or.inr ⟨String.join before ++ front, ?_⟩
    rw [List.concat_eq_append, String.join_append, String.append_assoc]
    rfl

/-- The records of a log are shown on lines. -/
theorem LogRecord.areLines_lines (origin : Origin) (colored : Bool) (filter : Level)
    (records : List LogRecord) : AreLines (lines origin colored filter records) := by
  refine areLines_join fun text htext => ?_
  obtain ⟨r, -, rfl⟩ := List.mem_map.mp htext
  exact ⟨_, rfl⟩

/-- What writing to a log does to files: to a screen nothing, and to a log file the lines are
appended. -/
def Sink.Wrote (before : Files) : Sink → Files → Prop
  | .screen, after => after = before
  | .file _ place, after => ∃ bytes, after = before.append place bytes

namespace Run

theorem writeLog_spec (w : World) (files : Files) (logging : LogSettings) (sink : Sink)
    (records : List LogRecord) :
    sink.Wrote files (writeLog w files logging sink records).1
      ∧ AreLines (writeLog w files logging sink records).2 := by
  cases sink with
  | screen => exact ⟨rfl, LogRecord.areLines_lines _ _ _ _⟩
  | file path place => exact ⟨⟨_, rfl⟩, Or.inl rfl⟩

theorem fails_failed (w : World) (files : Files) (shown : String) (e : RunError) :
    (failed w files shown e).Fails w shown e := ⟨rfl, rfl, rfl⟩

section Stages

variable {w : World} {call : Invocation}

theorem carryOut_of_load {e : LoadError} (h : (Settings.load w.files w.env).2 = .error e) :
    carryOut w call = failed w w.files "" (.load e) := by
  rw [carryOut, settle_eq, h]

theorem carryOut_of_fault {loaded : Settings} {fault : SettingsError}
    (h : (Settings.load w.files w.env).2 = .ok loaded) (hfault : loaded.firstFault? = some fault) :
    carryOut w call = failed w w.files "" (.load (.settings fault)) := by
  rw [carryOut, settle_eq, h]
  simp only [hfault]

variable {s : Settings} {path : Option String} (hsettle : settle w call.logLevel = .ok (s, path))

include hsettle

theorem carryOut_of_log {e : LogError} (h : (openLog w.files path).2 = .error e) :
    carryOut w call = failed w (openLog w.files path).1 "" (.log e) := by
  rw [carryOut, hsettle]
  dsimp only
  split
  · next hopen =>
      rw [hopen] at h ⊢
      cases h
      rfl
  · next hopen =>
      rw [hopen] at h
      cases h

/-- Once the log is open, the command alone decides. -/
theorem carryOut_of_open {sink : Sink} (h : (openLog w.files path).2 = .ok sink) :
    ∃ files shown, sink.Wrote (openLog w.files path).1 files ∧ AreLines shown
      ∧ carryOut w call =
        match Command.printed (s.user.signer w.env w.host) w.zone w.clock call.command with
        | .error e => failed w files shown (.identity e)
        | .ok text => { exitCode := 0, stdout := text ++ "\n", stderr := shown, files } := by
  rw [carryOut, hsettle]
  dsimp only
  split
  · next hopen =>
      rw [hopen] at h
      cases h
  · next hopen =>
      rw [hopen] at h ⊢
      cases h
      obtain ⟨hwrote, hlines⟩ := writeLog_spec w _ s.logging sink _
      exact ⟨_, _, hwrote, hlines, rfl⟩

end Stages

/-- The files that a run leaves are those it found, or those that opening a log leaves, or these
with something written to the log. -/
theorem files_run (w : World) (args : List String) :
    (run w args).files = w.files
      ∨ ∃ level s path, settle w level = .ok (s, path)
        ∧ ((run w args).files = (openLog w.files path).1
          ∨ ∃ sink, (openLog w.files path).2 = .ok sink
            ∧ sink.Wrote (openLog w.files path).1 (run w args).files) := by
  rw [run]
  split
  · exact Or.inl rfl
  · next call _ =>
      cases hsettle : settle w call.logLevel with
      | error e =>
          left
          rw [carryOut, hsettle]
          rfl
      | ok settled =>
          obtain ⟨s, path⟩ := settled
          refine Or.inr ⟨call.logLevel, s, path, hsettle, ?_⟩
          cases hopen : (openLog w.files path).2 with
          | error e =>
              left
              rw [carryOut_of_log hsettle hopen]
              rfl
          | ok sink =>
              obtain ⟨files, shown, hwrote, -, hcarry⟩ := carryOut_of_open hsettle hopen
              refine Or.inr ⟨sink, rfl, ?_⟩
              rw [hcarry]
              split
              · exact hwrote
              · exact hwrote

end Run

/-! ## The stages in their order -/

/-- Arguments that call no command are told apart by their code, and only texts that were asked for
are printed. -/
theorem Run.answerUsage_spec (w : World) (u : Usage) :
    ((answerUsage w u).exitCode = 0 ∧ ∃ topic, u = .help topic ∨ u = .version topic)
      ∨ ((answerUsage w u).exitCode = 2 ∧ (answerUsage w u).stdout = ""
        ∧ ∀ topic, u ≠ .help topic ∧ u ≠ .version topic) := by
  cases u with
  | help topic => exact Or.inl ⟨rfl, topic, Or.inl rfl⟩
  | version topic => exact Or.inl ⟨rfl, topic, Or.inr rfl⟩
  | _ => exact Or.inr ⟨rfl, rfl, fun topic => ⟨nofun, nofun⟩⟩

end IdentityLine
