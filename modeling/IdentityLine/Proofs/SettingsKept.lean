import IdentityLine.Proofs.LogPlace

/-!
# A run and the file of its settings

Settings are loaded from a file in a directory, and the log file of a run lies in the
same directory. A run may therefore change the very file that it was settled by, and
the check of the log file does not keep it from doing so: a log file under the name
of the settings file passes, its lines are appended there, and the next run finds no
document. What keeps the settings is that the names of the log file's text do not
begin with that name.

One more thing is needed, of the directory. Its path may turn back, and then whether
the file is found depends on a directory beside its place. When none stands there,
making the directories on the way to the log file makes it, and settings that the
first run did not find are found by the second. So wherever the path turns back, a
directory has to stand already.

With both, the file is found by what stands at one place and by lengths of names, and
a run changes nothing at that place.
-/

namespace IdentityLine

/-- What reading gives where something stands. -/
def Standing.read : Standing → Except FileError (List UInt8)
  | .directory => .error .isDirectory
  | .file bytes => .ok bytes

namespace Files

/-! ## What a path finds -/

/-- What a path finds. -/
def found (fs : Files) (path : String) : Option Standing :=
  (fs.look path).toOption.map Node.standing

theorem contains_eq (fs : Files) (path : String) : fs.contains path = (fs.found path).isSome := by
  rw [contains, found]
  cases fs.look path with
  | error e => rfl
  | ok node => rfl

/-- What is read is what is found. -/
theorem read_of_found {fs : Files} {path : String} {there : Standing}
    (h : fs.found path = some there) : fs.read path = there.read := by
  rw [found] at h
  rw [read]
  cases hlook : fs.look path with
  | error e =>
      rw [hlook] at h
      cases h
  | ok node =>
      rw [hlook] at h
      cases h
      cases node with
      | directory entries => rfl
      | file bytes => rfl

/-- A path that ends in a name leads to what is at its place, if it can be walked. -/
theorem look_eq_ok_iff {fs : Files} {path : String} {name : List Char} {node : Node}
    (hlast : (steps path).getLast? = some name) (hname : isDots name = false)
    (hslash : endsInSlash path = false) :
    fs.look path = .ok node ↔
      Named path ∧ fs.Walks (fs.origin path) (steps path).dropLast ∧ Fits name
        ∧ fs.node (fs.placeOf path) = some node := by
  have hgetD : (steps path).getLast?.getD ['.'] = name := by rw [hlast, Option.getD_some]
  rw [look, bind_eq_ok_iff, fs.placeOf_eq hlast hname]
  constructor
  · rintro ⟨⟨l, step⟩, happroach, h⟩
    obtain ⟨hnamed, hwalks, rfl, rfl⟩ := approach_eq_ok_iff.mp happroach
    obtain ⟨there, hlook, h⟩ := bind_eq_ok_iff.mp h
    rw [hgetD] at hlook
    rw [hslash] at h
    cases h
    exact ⟨hnamed, hwalks, (lookBeside_eq_ok_iff hname).mp hlook⟩
  · rintro ⟨hnamed, hwalks, hthere⟩
    refine ⟨_, approach_eq_ok_iff.mpr ⟨hnamed, hwalks, rfl, hgetD.symm⟩, ?_⟩
    refine bind_eq_ok_iff.mpr ⟨node, (lookBeside_eq_ok_iff hname).mpr hthere, ?_⟩
    rw [hslash]
    rfl

/-- Such a path finds what stands at its place. -/
theorem found_eq_some_iff {fs : Files} {path : String} {name : List Char} {there : Standing}
    (hlast : (steps path).getLast? = some name) (hname : isDots name = false)
    (hslash : endsInSlash path = false) :
    fs.found path = some there ↔
      Named path ∧ fs.Walks (fs.origin path) (steps path).dropLast ∧ Fits name
        ∧ fs.standing (fs.placeOf path) = some there := by
  rw [found, standing]
  constructor
  · intro h
    cases hlook : fs.look path with
    | error e =>
        rw [hlook] at h
        cases h
    | ok node =>
        obtain ⟨hnamed, hwalks, hfits, hnode⟩ := (look_eq_ok_iff hlast hname hslash).mp hlook
        rw [hlook] at h
        exact ⟨hnamed, hwalks, hfits, by rw [hnode]; exact h⟩
  · rintro ⟨hnamed, hwalks, hfits, hstanding⟩
    obtain ⟨node, hnode, hthere⟩ := Option.map_eq_some_iff.mp hstanding
    rw [(look_eq_ok_iff hlast hname hslash).mpr ⟨hnamed, hwalks, hfits, hnode⟩]
    exact congrArg some hthere

/-! ## A path that turns back at directories -/

/-- Wherever a path turns back, a directory stands. -/
def TurnsAtDirectories (fs : Files) (path : String) : Prop :=
  ∀ way, way ++ [['.', '.']] <+: steps path →
    fs.standing (reach (fs.origin path) way) = some .directory

variable {fs : Files} {dir : String}

/-- When something stands below a directory, everything on the way there is a directory: it is above
the place, or the way turns back at it. -/
theorem directory_of_way (hturns : fs.TurnsAtDirectories dir) {name : List Char}
    (hstands : fs.standing (name :: fs.placeOf dir) ≠ none) {way : List (List Char)}
    (hway : way <+: steps dir) : fs.standing (reach (fs.origin dir) way) = some .directory := by
  by_cases hin : reach (fs.origin dir) way <:+ fs.placeOf dir
  · refine standing_of_suffix (hin.trans (List.suffix_cons _ _)) ?_ hstands
    intro heq
    have hlength := hin.length_le
    rw [heq, List.length_cons] at hlength
    omega
  · obtain ⟨turn, hturn, heq⟩ := exists_turn hway List.suffix_rfl hin
    rw [← heq]
    exact hturns turn hturn

/-- Every name of a path is short enough. -/
def AllFit (path : String) : Prop :=
  ∀ step ∈ steps path, isDots step = false → Fits step

theorem walks_of_stands (hturns : fs.TurnsAtDirectories dir) (hfit : AllFit dir)
    {name : List Char} (hstands : fs.standing (name :: fs.placeOf dir) ≠ none) :
    fs.Walks (fs.origin dir) (steps dir) := by
  intro way step hway
  have hdirectory := directory_of_way hturns hstands hway
  rw [reach_append] at hdirectory
  cases hname : isDots step with
  | false =>
      rw [passable_iff_of_name hname, ← follow_of_name hname]
      exact ⟨hfit step (hway.subset (by simp)) hname, hdirectory⟩
  | true =>
      rw [passable_iff_of_isDots hname]
      intro bytes hfile
      rw [show follow (reach (fs.origin dir) way) step = reach (reach (fs.origin dir) way) [step]
        from rfl, hdirectory] at hfile
      cases hfile

theorem allFit_of_walks (hwalks : fs.Walks (fs.origin dir) (steps dir)) : AllFit dir := by
  intro step hstep hname
  obtain ⟨way, rest, hsteps⟩ := List.append_of_mem hstep
  have hpassable := hwalks way step ⟨rest, by rw [hsteps]; simp⟩
  exact ((passable_iff_of_name hname).mp hpassable).1

end Files

/-! ## The settings file -/

namespace Settings

open Files

/-- The name of the settings file. -/
def fileName : List Char := "config.toml".toList

theorem isDots_fileName : isDots fileName = false := by decide

theorem fits_fileName : Fits fileName := by
  unfold Fits
  decide

theorem steps_filePath (dir : String) : steps (filePath dir) = steps dir ++ [fileName] :=
  steps_join dir (by decide)

theorem placeOf_filePath (fs : Files) (dir : String) :
    fs.placeOf (filePath dir) = fileName :: fs.placeOf dir := by
  rw [placeOf, steps_filePath, reach_append, filePath, fs.origin_join dir (by decide)]
  exact follow_of_name isDots_fileName _

theorem endsInSlash_filePath (dir : String) : endsInSlash (filePath dir) = false := by
  have hlast : ∀ base : String, (base ++ "config.toml").toList.getLast? = some 'l' := by
    intro base
    rw [String.toList_append, List.getLast?_append]
    rfl
  rw [endsInSlash, filePath, Path.join, if_neg (by decide)]
  split
  · rw [hlast]
    rfl
  · rw [hlast]
    rfl

/-- The settings file is found by what stands at its place. -/
theorem found_filePath {fs : Files} {dir : String} (hturns : fs.TurnsAtDirectories dir)
    {there : Standing} :
    fs.found (filePath dir) = some there ↔
      Named (filePath dir) ∧ AllFit dir
        ∧ fs.standing (fileName :: fs.placeOf dir) = some there := by
  have hlast : (steps (filePath dir)).getLast? = some fileName := by
    rw [steps_filePath, List.getLast?_concat]
  have horigin : fs.origin (filePath dir) = fs.origin dir := fs.origin_join dir (by decide)
  rw [found_eq_some_iff hlast isDots_fileName (endsInSlash_filePath dir), placeOf_filePath, horigin,
    steps_filePath, List.dropLast_concat]
  constructor
  · rintro ⟨hnamed, hwalks, -, hstands⟩
    exact ⟨hnamed, allFit_of_walks hwalks, hstands⟩
  · rintro ⟨hnamed, hfit, hstands⟩
    have hwalks := walks_of_stands hturns hfit (by rw [hstands]; simp)
    exact ⟨hnamed, hwalks, fits_fileName, hstands⟩

/-- What is loaded from a directory depends on what its settings file is found to be. -/
theorem loadFrom_congr {before after : Files} {dir : String} (env : Environment)
    (h : after.found (filePath dir) = before.found (filePath dir)) :
    loadFrom after env dir = loadFrom before env dir := by
  rw [loadFrom, loadFrom, contains_eq, contains_eq, h]
  cases hfound : before.found (filePath dir) with
  | none => rfl
  | some there =>
      rw [hfound] at h
      dsimp only [Option.isSome]
      rw [readFile, readFile, read_of_found h, read_of_found hfound]

/-! ## What a run changes -/

variable {before after : Files} {dir file path : String}

/-- A way that turns back within some steps and more, of which the last lead nowhere back, turns
back within the first. -/
theorem turn_of_append {way steps more : List (List Char)} {back : List Char}
    (h : way ++ [back] <+: steps ++ more) (hmore : back ∉ more) : way ++ [back] <+: steps := by
  rcases List.prefix_or_prefix_of_prefix h (List.prefix_append steps more) with hin | ⟨rest, hrest⟩
  · exact hin
  · rw [← hrest, List.prefix_append_right_inj] at h
    cases hlast : rest.getLast? with
    | none =>
        rw [List.getLast?_eq_none_iff.mp hlast, List.append_nil] at hrest
        exact ⟨[], by rw [List.append_nil, hrest]⟩
    | some last =>
        have hback := congrArg List.getLast? hrest
        rw [List.getLast?_append, hlast, List.getLast?_concat, Option.some_or,
          Option.some.injEq] at hback
        subst hback
        exact absurd (h.subset (List.mem_of_getLast? hlast)) hmore

/-- At the place of the settings file nothing changes, unless the names of the log file's text begin
with its name. -/
theorem standing_kept (hchanged : ChangedAlong (Path.join dir file) before after)
    (hdown : LeadsDown file) (hturns : before.TurnsAtDirectories dir)
    (hother : (names (steps file)).head? ≠ some fileName) :
    after.standing (fileName :: before.placeOf dir) =
      before.standing (fileName :: before.placeOf dir) := by
  have hout : ¬ fileName :: before.placeOf dir <:+ before.placeOf (Path.join dir file) := by
    rw [hdown.placeOf_join]
    rintro ⟨above, habove⟩
    rw [List.append_cons, List.append_cancel_right_eq] at habove
    have hnames := congrArg List.reverse habove
    rw [List.reverse_reverse, List.reverse_append] at hnames
    rw [← hnames] at hother
    exact hother rfl
  rcases hchanged.standing (fileName :: before.placeOf dir) with
    hsame | ⟨hnone, -, way, hway, hplace⟩ | ⟨-, -, -, hplace⟩
  · exact hsame
  · -- A directory can only have been made there if the way to the log file turns back at it.
    obtain ⟨turn, hturn, hreach⟩ := exists_turn hway (hplace ▸ List.suffix_rfl) hout
    rw [steps_join dir hdown.relative] at hturn
    have hstands := hturns turn (turn_of_append hturn hdown.noTurn_steps)
    rw [← origin_join before dir hdown.relative, hreach, hnone] at hstands
    cases hstands
  · rw [hplace] at hout
    exact absurd List.suffix_rfl hout

theorem turnsAtDirectories_kept (hchanged : ChangedAlong path before after)
    (hturns : before.TurnsAtDirectories dir) : after.TurnsAtDirectories dir := by
  intro way hway
  rw [hchanged.origin]
  exact hchanged.directory (hturns way hway)

theorem directory_kept {env : Environment} (hchanged : ChangedAlong path before after)
    (h : directory env before.workingPath? = .ok dir) :
    directory env after.workingPath? = .ok dir := by
  by_cases hworking : before.isDirectoryAt before.working = true
  · have hstays : after.isDirectoryAt after.working = true := by
      rw [hchanged.working]
      exact isDirectoryAt_iff.mpr (hchanged.directory (isDirectoryAt_iff.mp hworking))
    rw [workingPath?, if_pos hworking] at h
    rw [workingPath?, if_pos hstays, hchanged.working]
    exact h
  · rw [workingPath?, if_neg hworking] at h
    cases hset : env.get? "IDENT_CONFIG_DIR" with
    | some named =>
        simp only [directory, hset] at h ⊢
        exact h
    | none =>
        simp only [directory, hset] at h
        cases h

end Settings

open Files Settings

/-- A run keeps the settings that it was settled by: their file is found to be what it was, and the
next run loads the same. That holds of every run whose log file has another name to begin with than
the settings file, as long as the path of the directory turns back at directories only. -/
theorem settings_kept {w : World} {dir : String}
    (hdir : directory w.env w.files.workingPath? = .ok dir)
    (hturns : w.files.TurnsAtDirectories dir)
    (hother : ∀ s file, (load w.files w.env).2 = .ok s → s.logging.file = some file →
      (names (steps file)).head? ≠ some fileName) (args : List String) :
    (run w args).files.found (filePath dir) = w.files.found (filePath dir)
      ∧ load (run w args).files w.env = load w.files w.env := by
  rcases Run.changed_run w args with hsame | ⟨level, s, path, hsettle, hchanged⟩
  · rw [hsame]
    exact ⟨rfl, rfl⟩
  · obtain ⟨loaded, _, hload, hfault, hdir', -, hpath⟩ := Run.settle_eq_ok_iff.mp hsettle
    obtain rfl := Except.ok.inj (hdir.symm.trans hdir')
    obtain ⟨file, hfile, rfl⟩ := Option.map_eq_some_iff.mp hpath.symm
    have hdown := LogSettings.leadsDown hfile (validate_logging hfault)
    have hfound : (run w args).files.found (filePath dir) = w.files.found (filePath dir) := by
      refine Option.ext fun there => ?_
      rw [found_filePath hturns, found_filePath (turnsAtDirectories_kept hchanged hturns),
        hchanged.placeOf, standing_kept hchanged hdown hturns (hother loaded file hload hfile)]
    refine ⟨hfound, ?_⟩
    rw [load, load, directory_kept hchanged hdir, hdir]
    exact loadFrom_congr w.env hfound

/-- A world whose settings lie in a directory below the root and hold a text, and whose log is not
silent. -/
def World.holding (text : String) : World where
  env := (Environment.empty.set "IDENT_CONFIG_DIR" (some "/w".toUTF8.toList)).set
    "IDENT_LOG_LEVEL" (some "info".toUTF8.toList)
  host := .ofName 1 []
  files := filesHolding text
  zone := .utc
  clock := .stopped 0
  origin := { moment := "now", place := "here" }
  explain := fun _ => ""

/-- A log file under a name of its own is written, and the settings stay. -/
theorem settings_kept_beside :
    let w := World.holding "[logging]\nfile = \"run.log\"\n"
    let after := (run w ["timezone", "5"]).files
    w.files.found "/w/run.log" = none ∧ after.found "/w/run.log" ≠ none
      ∧ after.found "/w/config.toml" = w.files.found "/w/config.toml"
      ∧ load after w.env = load w.files w.env := by
  intro w after
  have hload : (load w.files w.env).2
      = .ok { logging := { level := .info, file := some "run.log" } } :=
    eq_ok_of_toOption (by decide +kernel)
  have hdir : directory w.env w.files.workingPath? = .ok "/w" :=
    eq_ok_of_toOption (by decide +kernel)
  have hturns : w.files.TurnsAtDirectories "/w" := by
    intro way hway
    exact absurd (hway.subset (List.mem_append_right _ List.mem_cons_self)) (by decide)
  have hother : ∀ s file, (load w.files w.env).2 = .ok s → s.logging.file = some file →
      (names (steps file)).head? ≠ some fileName := by
    intro s file hs hfile
    rw [hload] at hs
    cases hs
    cases hfile
    decide
  exact ⟨by decide +kernel, by decide +kernel, settings_kept hdir hturns hother ["timezone", "5"]⟩

/-- Three runs that succeed. The first has a log file under the name of the settings file, which
passes the check, and its lines go into the settings file. The second has one below that name; a
directory is made where the settings file was looked for and not found, and the next run cannot load
it. In the third the path of the directory turns back where nothing stands; the run that does not
find the settings makes the directory there, and the next run finds them. -/
theorem settings_lost_to_log :
    let w := World.holding "[logging]\nfile = \"config.toml\"\n"
    let bare : World := { w with
      files := startingIn "/w"
      env := w.env.set "IDENT_LOG_FILE" (some "config.toml/run.log".toUTF8.toList) }
    let astray : World := { w with
      env := (w.env.set "IDENT_CONFIG_DIR" (some "/a/../w".toUTF8.toList)).set "IDENT_LOG_FILE"
        (some "run.log".toUTF8.toList) }
    ((run w ["timezone", "5"]).exitCode = 0
      ∧ (run w ["timezone", "5"]).files.found "/w/config.toml" ≠ w.files.found "/w/config.toml")
    ∧ ((run bare ["timezone", "5"]).exitCode = 0
      ∧ bare.files.found "/w/config.toml" = none
      ∧ (run bare ["timezone", "5"]).files.found "/w/config.toml" = some .directory
      ∧ ∀ s, (load (run bare ["timezone", "5"]).files bare.env).2 ≠ .ok s)
    ∧ (run astray ["timezone", "5"]).exitCode = 0
      ∧ astray.files.found "/a/../w/config.toml" = none
      ∧ (run astray ["timezone", "5"]).files.found "/a/../w/config.toml" ≠ none := by
  intro w bare astray
  have hfails : (load (run bare ["timezone", "5"]).files bare.env).2.toOption = none := by
    decide +kernel
  refine ⟨⟨by decide +kernel, by decide +kernel⟩, ⟨by decide +kernel, by decide +kernel,
    by decide +kernel, ?_⟩, by decide +kernel, by decide +kernel, by decide +kernel⟩
  intro s hs
  rw [hs] at hfails
  cases hfails

end IdentityLine
