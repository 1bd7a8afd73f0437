import IdentityLine.Proofs.OpenedLog
import IdentityLine.Proofs.SignerSources

/-!
# The log file lies in the directory of the settings

The check of the log file looks at its text: for a character that is not blank, for a
slash at the start, and for two dots in a row. Where the file lies is a matter of
components and of steps, which the text is cut into behind a directory that can be
any path, an empty one and one that starts at the root included. The check is enough
because joining keeps the components of the directory in front and because a
component or a step that leads back is made of two dots that stand in the text.

From there on the steps of the text lead down. The place that is opened is the
directory's with names in front, and a run leaves no file changed anywhere else.
-/

namespace IdentityLine

namespace LogSettings

theorem hasTwoDots_iff {cs : List Char} : hasTwoDots cs = true ↔ ['.', '.'] <:+: cs := by
  fun_induction hasTwoDots cs with
  | case1 cs => simp [List.infix_cons_iff]
  | case2 c cs hstart ih =>
      rw [ih, List.infix_cons_iff]
      constructor
      · exact Or.inr
      · rintro (⟨rest, hrest⟩ | hbelow)
        · cases hrest
          exact absurd rfl (hstart _ rfl)
        · exact hbelow
  | case3 => simp

/-- The check asks for a character that is not blank, for a start that is not the root's, and that
no two dots stand in a row. -/
theorem validate_eq_ok_iff {l : LogSettings} {file : String} (hfile : l.file = some file) :
    l.validate = .ok () ↔
      (∃ c ∈ file.toList, Text.isBlank c = false) ∧ file.toList.head? ≠ some '/'
        ∧ ¬ ['.', '.'] <:+: file.toList := by
  have hblank : Text.isAllBlank file = true ↔ ¬ ∃ c ∈ file.toList, Text.isBlank c = false := by
    rw [isAllBlank_eq, showsSomething]
    simp
  rw [validate, hfile]
  dsimp only
  rw [← hasTwoDots_iff, Ne, ← Path.isAbsolute_eq_true_iff]
  split
  · next h => simp [hblank.mp h]
  · next h =>
      rw [hblank, Classical.not_not] at h
      cases habsolute : Path.isAbsolute file with
      | true => simp
      | false => cases hdots : hasTwoDots file.toList with
        | true => simp
        | false => simp [h]

end LogSettings

/-! ## Places below the directory -/

/-- What is joined to a path starts where the path does. -/
theorem Files.origin_join (fs : Files) (dir : String) {file : String}
    (h : Path.isAbsolute file = false) : fs.origin (Path.join dir file) = fs.origin dir := by
  rw [origin, origin, Path.isAbsolute_join dir h]

/-- A text that joining puts below a directory: it names something, and it neither starts at the
root nor turns back. -/
structure LeadsDown (file : String) : Prop where
  nonempty : file ≠ ""
  relative : Path.isAbsolute file = false
  noTurn : ['.', '.'] ∉ Path.pieces file.toList

theorem LogSettings.leadsDown {l : LogSettings} {file : String} (hfile : l.file = some file)
    (h : l.validate = .ok ()) : LeadsDown file := by
  obtain ⟨⟨c, hc, -⟩, hstart, hdots⟩ := (validate_eq_ok_iff hfile).mp h
  refine ⟨?_, ?_, fun hpiece => hdots (Path.infix_of_mem_pieces hpiece)⟩
  · rintro rfl
    cases hc
  · rwa [Ne, ← Path.isAbsolute_eq_true_iff, Bool.not_eq_true] at hstart

namespace LeadsDown

variable {file : String} (h : LeadsDown file)

include h

theorem noTurn_steps : ['.', '.'] ∉ Files.steps file := by
  intro hmem
  exact h.noTurn (List.mem_filter.mp hmem).1

theorem steps_ne_nil : Files.steps file ≠ [] := by
  obtain ⟨c, cs, hcs⟩ := List.exists_cons_of_ne_nil (mt String.toList_eq_nil_iff.mp h.nonempty)
  have hc : c ≠ '/' := by
    intro hslash
    have hrelative := h.relative
    rw [Path.isAbsolute, hcs, hslash] at hrelative
    cases hrelative
  obtain ⟨p, ps, -, hpieces⟩ := Path.pieces_cons hc cs
  rw [Files.steps, hcs, hpieces]
  simp

/-- The place of what is joined to a directory has the directory's behind its names. -/
theorem placeOf_join (fs : Files) (dir : String) :
    fs.placeOf (Path.join dir file) =
      (Files.names (Files.steps file)).reverse ++ fs.placeOf dir := by
  rw [Files.placeOf, Files.steps_join dir h.relative, Files.reach_append,
    fs.origin_join dir h.relative, Files.reach_eq h.noTurn_steps]
  rfl

/-- Where the joined path ends in a name, that name is one of the text's own. -/
theorem names_ne_nil {dir : String} (hends : Files.EndsInName (Path.join dir file)) :
    Files.names (Files.steps file) ≠ [] := by
  obtain ⟨name, hget, hname⟩ := hends
  rw [Files.steps_join dir h.relative, List.getLast?_append] at hget
  cases hlast : (Files.steps file).getLast? with
  | none => exact absurd (List.getLast?_eq_none_iff.mp hlast) h.steps_ne_nil
  | some last =>
      rw [hlast, Option.some_or, Option.some.injEq] at hget
      subst hget
      exact List.ne_nil_of_mem (List.mem_filter.mpr ⟨List.mem_of_getLast? hlast, by simp [hname]⟩)

/-- So the place that is opened lies below the directory's. -/
theorem placeOf_below (fs : Files) {dir : String}
    (hends : Files.EndsInName (Path.join dir file)) :
    ∃ below, below ≠ [] ∧ fs.placeOf (Path.join dir file) = below ++ fs.placeOf dir :=
  ⟨_, mt List.reverse_eq_nil_iff.mp (h.names_ne_nil hends), h.placeOf_join fs dir⟩

end LeadsDown

/-- A run writes to no file that is not below the directory of its settings. -/
theorem Run.written_below {w : World} {args : List String} {m : Location} {bytes : List UInt8}
    (h : (run w args).files.standing m = some (.file bytes)) :
    w.files.standing m = some (.file bytes)
      ∨ ∃ dir below, Settings.directory w.env w.files.workingPath? = .ok dir
        ∧ below ≠ [] ∧ m = below ++ w.files.placeOf dir := by
  rcases changed_run w args with hsame | ⟨level, s, path, hsettle, hchanged⟩
  · rw [hsame] at h
    exact Or.inl h
  · obtain ⟨loaded, dir, -, hfault, hdir, -, hpath⟩ := settle_eq_ok_iff.mp hsettle
    obtain ⟨file, hfile, rfl⟩ := Option.map_eq_some_iff.mp hpath.symm
    have hdown := LogSettings.leadsDown hfile (Settings.validate_logging hfault)
    rcases hchanged.standing m with hsame | ⟨-, hmade, -⟩ | ⟨-, -, hends, rfl⟩
    · rw [hsame] at h
      exact Or.inl h
    · rw [hmade] at h
      cases h
    · obtain ⟨below, hne, hplace⟩ := hdown.placeOf_below w.files hends
      exact Or.inr ⟨dir, below, hdir, hne, hplace⟩

/-- The log file lies in the directory of the settings. The check passes exactly the texts that show
something, do not start with a slash and have no two dots in a row, and of those the path that is
opened has the components of the directory, whatever it is, with components behind them that lead
neither to the root nor back. So the place that is opened lies below the directory's in every tree,
and a run writes to no file anywhere else. -/
theorem log_file_stays_below {s : Settings} {file : String} (hfile : s.logging.file = some file) :
    (s.logging.validate = .ok () ↔
      (∃ c ∈ file.toList, Text.isBlank c = false) ∧ file.toList.head? ≠ some '/'
        ∧ ¬ ['.', '.'] <:+: file.toList)
    ∧ (s.logging.validate = .ok () → ∀ env working dir, Settings.directory env working = .ok dir →
      ∃ path behind, s.logFilePath env working = .ok (some path)
        ∧ Path.components path = Path.components dir ++ behind
        ∧ Path.Component.root ∉ behind ∧ Path.Component.parent ∉ behind
        ∧ ∀ files sink, (Run.openLog files (some path)).2 = .ok sink →
          ∃ below, below ≠ [] ∧ sink = .file path (below ++ files.placeOf dir))
    ∧ ∀ w args m bytes, (run w args).files.standing m = some (.file bytes) →
        w.files.standing m = some (.file bytes)
        ∨ ∃ dir below, Settings.directory w.env w.files.workingPath? = .ok dir
          ∧ below ≠ [] ∧ m = below ++ w.files.placeOf dir := by
  refine ⟨LogSettings.validate_eq_ok_iff hfile, ?_, fun w args m bytes => Run.written_below⟩
  intro hvalidate env working dir hdir
  have hdown := LogSettings.leadsDown hfile hvalidate
  obtain ⟨behind, hcomponents, hroot, hparent⟩ :=
    Path.components_join dir hdown.relative hdown.noTurn
  refine ⟨Path.join dir file, behind, ?_, hcomponents, hroot, hparent, ?_⟩
  · rw [s.logFilePath_eq hdir, hfile]
    rfl
  · intro files sink hopen
    obtain ⟨-, hopened⟩ := Run.openLog_spec files (Path.join dir file)
    obtain ⟨hends, rfl⟩ := hopened sink hopen
    obtain ⟨below, hne, hplace⟩ := hdown.placeOf_below files hends
    exact ⟨below, hne, by rw [hplace]⟩

/-- Below an empty directory a dot at the start of the text stays a component. -/
theorem log_file_stays_below_nothing :
    let s : Settings := { logging := { file := some "./logs/run.log" } }
    let env := Environment.empty.set "IDENT_CONFIG_DIR" (some [])
    s.logging.validate = .ok () ∧ s.logFilePath env none = .ok (some "./logs/run.log")
      ∧ ∃ behind, Path.components "./logs/run.log" = Path.components "" ++ behind
        ∧ Path.Component.root ∉ behind ∧ Path.Component.parent ∉ behind := by
  intro s env
  obtain ⟨hcheck, hpath, -⟩ := log_file_stays_below (rfl : s.logging.file = some "./logs/run.log")
  have hdots : ¬ ['.', '.'] <:+: "./logs/run.log".toList := by
    rw [← LogSettings.hasTwoDots_iff]
    decide
  have hvalidate := hcheck.mpr ⟨⟨'l', by decide, by decide⟩, by decide, hdots⟩
  have hdir : Settings.directory env none = .ok "" := Settings.eq_ok_of_toOption (by decide +kernel)
  obtain ⟨path, behind, hlog, hcomponents, hroot, hparent, -⟩ := hpath hvalidate env none "" hdir
  have hsame : s.logFilePath env none = .ok (some "./logs/run.log") :=
    Settings.eq_ok_of_toOption (by decide +kernel)
  obtain rfl : path = "./logs/run.log" := by
    rw [hlog] at hsame
    injection hsame with hsame
    exact Option.some.inj hsame
  exact ⟨hvalidate, hlog, behind, hcomponents, hroot, hparent⟩

end IdentityLine
