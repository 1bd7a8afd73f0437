import IdentityLine.Proofs.LogPlace

/-!
# Where the path of the log file starts

A path that starts at the root means one file wherever the program stands. Any other
is followed from the working directory, and two dots only ever take away from the
inner end of that: a working directory that is deep enough keeps its outermost name,
so for every such path there are two of them from which it leads apart.

The path of the log file starts where the directory of the settings does, as the
check keeps its own text from starting anywhere. The working directory always starts
at the root, and the directory that the environment names is taken as it is.
-/

namespace IdentityLine

namespace Files

/-- From far enough below, steps drop a number of names and put others in their place. -/
theorem reach_eq_drop (steps : List (List Char)) :
    ∃ count front, ∀ l : Location, count ≤ l.length → reach l steps = front ++ l.drop count := by
  induction steps with
  | nil => exact ⟨0, [], fun l _ => rfl⟩
  | cons step steps ih =>
      obtain ⟨count, front, hreach⟩ := ih
      by_cases hdot : step = ['.']
      · refine ⟨count, front, fun l hl => ?_⟩
        rw [reach, List.foldl_cons, follow, if_pos hdot]
        exact hreach l hl
      · by_cases hturn : step = ['.', '.']
        · refine ⟨count + 1, front, fun l hl => ?_⟩
          rw [reach, List.foldl_cons, follow, if_neg hdot, if_pos hturn]
          have htail : count ≤ l.tail.length := by
            rw [List.length_tail]
            omega
          have h := hreach l.tail htail
          rw [← List.drop_one, List.drop_drop, Nat.add_comm] at h
          rwa [List.drop_one] at h
        · cases count with
          | zero =>
              refine ⟨0, front ++ [step], fun l _ => ?_⟩
              rw [reach, List.foldl_cons, follow, if_neg hdot, if_neg hturn]
              have h := hreach (step :: l) (Nat.zero_le _)
              rw [List.append_assoc, List.singleton_append]
              exact h
          | succ count =>
              refine ⟨count, front, fun l hl => ?_⟩
              rw [reach, List.foldl_cons, follow, if_neg hdot, if_neg hturn]
              exact hreach (step :: l) (Nat.succ_le_succ hl)

/-- A path means one place from every working directory exactly when it starts at the root. -/
theorem isAbsolute_iff_placeOf {path : String} :
    Path.isAbsolute path = true ↔ ∀ fs fs' : Files, fs.placeOf path = fs'.placeOf path := by
  constructor
  · intro h fs fs'
    rw [placeOf, placeOf, origin, origin, if_pos h, if_pos h]
  · intro h
    apply Classical.byContradiction
    intro hrelative
    obtain ⟨count, front, hreach⟩ := reach_eq_drop (steps path)
    -- Two working directories that differ in their outermost name only.
    have hplace : ∀ name : List Char,
        (Files.mk .emptyDirectory (List.replicate count [] ++ [name])).placeOf path
          = front ++ [name] := by
      intro name
      rw [placeOf, origin, if_neg hrelative, hreach _ (by simp)]
      simp
    have hsame := h (.mk .emptyDirectory (List.replicate count [] ++ [['a']]))
      (.mk .emptyDirectory (List.replicate count [] ++ [['b']]))
    rw [hplace, hplace] at hsame
    simp at hsame

theorem isAbsolute_workingPath {fs : Files} {working : String}
    (h : fs.workingPath? = some working) : Path.isAbsolute working = true := by
  rw [workingPath?] at h
  split at h
  · cases h
    rw [Path.isAbsolute, String.toList_append]
    rfl
  · cases h

end Files

namespace Settings

theorem isAbsolute_directory {env : Environment} {fs : Files} {dir : String}
    (h : directory env fs.workingPath? = .ok dir) :
    Path.isAbsolute dir = true ↔
      ∀ named, env.get? "IDENT_CONFIG_DIR" = some named → Path.isAbsolute named = true := by
  unfold directory at h
  split at h
  · next named working hnamed =>
      cases h
      rw [hnamed]
      simp
  · next working hnamed hworking =>
      cases h
      rw [hnamed, Path.isAbsolute_join working (by decide), Files.isAbsolute_workingPath hworking]
      simp
  · cases h

theorem of_logFilePath {s : Settings} {env : Environment} {working : Option String}
    {path : String} (h : s.logFilePath env working = .ok (some path)) :
    ∃ dir file, directory env working = .ok dir ∧ s.logging.file = some file
      ∧ path = Path.join dir file := by
  cases hdir : directory env working with
  | error e =>
      rw [logFilePath, hdir] at h
      cases hfile : s.logging.file with
      | none =>
          rw [hfile] at h
          cases h
      | some file =>
          rw [hfile] at h
          cases h
  | ok dir =>
      rw [logFilePath_eq hdir, Except.ok.injEq, Option.map_eq_some_iff] at h
      obtain ⟨file, hfile, hpath⟩ := h
      exact ⟨dir, file, rfl, hfile, hpath.symm⟩

/-- The path of a log file whose name passes the checks starts at the root exactly when the
environment names no directory for the settings or one that starts there, and just then it means
the same file whatever becomes of the working directory. -/
theorem log_path_starts_at_root {s : Settings} (h : s.validate = .ok ()) {env : Environment}
    {fs : Files} {path : String} (hpath : s.logFilePath env fs.workingPath? = .ok (some path)) :
    (Path.isAbsolute path = true ↔
      ∀ named, env.get? "IDENT_CONFIG_DIR" = some named → Path.isAbsolute named = true)
    ∧ (Path.isAbsolute path = true ↔
      ∀ fs₁ fs₂ : Files, fs₁.placeOf path = fs₂.placeOf path) := by
  obtain ⟨dir, file, hdir, hfile, rfl⟩ := of_logFilePath hpath
  have hdown := LogSettings.leadsDown hfile (validate_logging (validate_eq_ok_iff.mp h))
  refine ⟨?_, Files.isAbsolute_iff_placeOf⟩
  rw [Path.isAbsolute_join dir hdown.relative]
  exact isAbsolute_directory hdir

/-- A directory that is named by no text is not named, and the path starts at the root. -/
theorem log_path_starts_at_root_unnamed :
    let s : Settings := { logging := { file := some "a.log" } }
    let env := Environment.empty.set "IDENT_CONFIG_DIR" (some [0xFF])
    s.validate = .ok ()
      ∧ s.logFilePath env (Files.startingIn "/w").workingPath? = .ok (some "/w/.ident/a.log")
      ∧ env.get? "IDENT_CONFIG_DIR" = none
      ∧ ∀ fs₁ fs₂ : Files, fs₁.placeOf "/w/.ident/a.log" = fs₂.placeOf "/w/.ident/a.log" := by
  intro s env
  have hvalid : s.validate = .ok () := rfl
  have hpath : s.logFilePath env (Files.startingIn "/w").workingPath?
      = .ok (some "/w/.ident/a.log") := eq_ok_of_toOption (by decide +kernel)
  have hunnamed : env.get? "IDENT_CONFIG_DIR" = none := by decide +kernel
  obtain ⟨hroot, hplace⟩ := log_path_starts_at_root hvalid hpath
  refine ⟨hvalid, hpath, hunnamed, hplace.mp (hroot.mpr ?_)⟩
  intro named hnamed
  rw [hunnamed] at hnamed
  cases hnamed

/-- The directory that is named can start anywhere, and then the path moves with the working
directory. -/
theorem log_path_moves :
    let s : Settings := { logging := { file := some "a.log" } }
    let env := Environment.empty.set "IDENT_CONFIG_DIR" (some "cfg".toUTF8.toList)
    s.validate = .ok ()
      ∧ s.logFilePath env (Files.startingIn "/w").workingPath? = .ok (some "cfg/a.log")
      ∧ Path.isAbsolute "cfg/a.log" = false
      ∧ (Files.startingIn "/w").placeOf "cfg/a.log" ≠
        (Files.startingIn "/v").placeOf "cfg/a.log" := by
  intro s env
  exact ⟨rfl, eq_ok_of_toOption (by decide +kernel), by decide, by decide +kernel⟩

end Settings

end IdentityLine
