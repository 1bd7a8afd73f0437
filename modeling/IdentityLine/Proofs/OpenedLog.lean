import IdentityLine.Proofs.JoinedPath
import IdentityLine.Proofs.RunStages
import IdentityLine.Proofs.Standing

/-!
# What opening a log changes

A log file is opened by its path, once the directories on the way to it have been
made. Whatever comes of that, and whatever is written to the log afterwards, the
tree changes in two kinds of places only: a directory is made where nothing stood,
on the way along the path, and at the place that the path leads to a file gets more
bytes, which may be a new file. Both kinds are written into one relation between the
trees before and after, and the relation is closed under doing one thing after
another, so each operation needs one lemma and a run needs none of its own.

A directory is made by a path above the log file's. The steps of such a path begin
those of the log file's, from the same start, which is all that is used of it.
-/

namespace IdentityLine

namespace Files

/-! ## Approaching a place -/

/-- A text that the system takes for a path. -/
def Named (path : String) : Prop :=
  path.toList.contains '\x00' = false ∧ path ≠ "" ∧ path.utf8ByteSize ≤ maxPathBytes

theorem start_eq_ok_iff {fs : Files} {path : String} {l : Location} :
    fs.start path = .ok l ↔ Named path ∧ l = fs.origin path := by
  rw [start, Named, origin]
  by_cases hzero : path.toList.contains '\x00' = true
  · simp only [hzero]
    simp
  · rw [if_neg hzero]
    by_cases hempty : path = ""
    · simp [hempty]
    · rw [if_neg hempty]
      by_cases hlong : maxPathBytes < path.utf8ByteSize
      · rw [if_pos hlong]
        simp only [reduceCtorEq, false_iff]
        omega
      · rw [if_neg hlong]
        have hnamed : path.toList.contains '\x00' = false ∧ path ≠ ""
            ∧ path.utf8ByteSize ≤ maxPathBytes :=
          ⟨Bool.eq_false_iff.mpr hzero, hempty, by omega⟩
        rw [and_iff_right hnamed]
        split
        · rw [Except.ok.injEq, eq_comm]
        · rw [Except.ok.injEq, eq_comm]

theorem approach_eq_ok_iff {fs : Files} {path : String} {l : Location} {step : List Char} :
    fs.approach path = .ok (l, step) ↔
      Named path ∧ fs.Walks (fs.origin path) (steps path).dropLast
        ∧ l = reach (fs.origin path) (steps path).dropLast
        ∧ step = (steps path).getLast?.getD ['.'] := by
  rw [approach]
  constructor
  · intro h
    obtain ⟨first, hstart, h⟩ := bind_eq_ok_iff.mp h
    obtain ⟨m, henter, h⟩ := bind_eq_ok_iff.mp h
    obtain ⟨hnamed, rfl⟩ := start_eq_ok_iff.mp hstart
    obtain ⟨hwalks, rfl⟩ := enter_eq_ok_iff.mp henter
    cases h
    exact ⟨hnamed, hwalks, rfl, rfl⟩
  · rintro ⟨hnamed, hwalks, rfl, rfl⟩
    refine bind_eq_ok_iff.mpr ⟨_, start_eq_ok_iff.mpr ⟨hnamed, rfl⟩, ?_⟩
    exact bind_eq_ok_iff.mpr ⟨_, enter_eq_ok_iff.mpr ⟨hwalks, rfl⟩, rfl⟩

/-- A path whose last step is a name. -/
def EndsInName (path : String) : Prop :=
  ∃ name, (steps path).getLast? = some name ∧ isDots name = false

theorem getLast?_steps {path : String} {step : List Char}
    (hstep : step = (steps path).getLast?.getD ['.']) (hname : isDots step = false) :
    (steps path).getLast? = some step := by
  cases hlast : (steps path).getLast? with
  | none =>
      rw [hlast] at hstep
      subst hstep
      cases hname
  | some last => rw [hstep, hlast, Option.getD_some]

/-- The place that a path leads to is beside the one that it approaches it by. -/
theorem placeOf_eq (fs : Files) {path : String} {name : List Char}
    (hlast : (steps path).getLast? = some name) (hname : isDots name = false) :
    fs.placeOf path = name :: reach (fs.origin path) (steps path).dropLast := by
  obtain ⟨before, hbefore⟩ := List.getLast?_eq_some_iff.mp hlast
  rw [placeOf, hbefore, List.dropLast_concat, reach_append]
  exact follow_of_name hname _

/-! ## Changes along a path -/

/-- A place on the way along a path. -/
def OnTheWay (fs : Files) (path : String) (m : Location) : Prop :=
  ∃ way, way <+: steps path ∧ m = reach (fs.origin path) way

/-- How a tree may differ from the one before when a log file was opened by a path and written
to. -/
structure ChangedAlong (path : String) (before after : Files) : Prop where
  working : after.working = before.working
  standing : ∀ m, after.standing m = before.standing m
    ∨ (before.standing m = none ∧ after.standing m = some .directory ∧ before.OnTheWay path m)
    ∨ (before.standing m ≠ some .directory ∧ (∃ bytes, after.standing m = some (.file bytes))
      ∧ EndsInName path ∧ m = before.placeOf path)

namespace ChangedAlong

variable {path : String} {fs before after later : Files}

theorem refl (path : String) (fs : Files) : ChangedAlong path fs fs :=
  ⟨rfl, fun _ => Or.inl rfl⟩

theorem origin (h : ChangedAlong path before after) (p : String) :
    after.origin p = before.origin p := by
  rw [Files.origin, Files.origin, h.working]

theorem placeOf (h : ChangedAlong path before after) (p : String) :
    after.placeOf p = before.placeOf p := by
  rw [Files.placeOf, Files.placeOf, h.origin]

theorem trans (h : ChangedAlong path before after) (hl : ChangedAlong path after later) :
    ChangedAlong path before later := by
  refine ⟨hl.working.trans h.working, fun m => ?_⟩
  rcases hl.standing m with hsame | ⟨hnone, hmade, way, hway⟩ | ⟨hfree, hfile, hlast, hplace⟩
  · rw [hsame]
    exact h.standing m
  · rw [h.origin] at hway
    rcases h.standing m with hm | ⟨-, hm, -⟩ | ⟨-, ⟨bytes, hm⟩, -⟩
    · exact Or.inr (Or.inl ⟨hm ▸ hnone, hmade, way, hway⟩)
    · rw [hm] at hnone
      cases hnone
    · rw [hm] at hnone
      cases hnone
  · rw [h.placeOf] at hplace
    rcases h.standing m with hm | ⟨-, hm, -⟩ | ⟨hm, -, -⟩
    · exact Or.inr (Or.inr ⟨hm ▸ hfree, hfile, hlast, hplace⟩)
    · exact absurd hm hfree
    · exact Or.inr (Or.inr ⟨hm, hfile, hlast, hplace⟩)

/-- Directories stay. -/
theorem directory (h : ChangedAlong path before after) {m : Location}
    (hm : before.standing m = some .directory) : after.standing m = some .directory := by
  rcases h.standing m with hsame | ⟨hnone, -, -⟩ | ⟨hfree, -, -⟩
  · rw [hsame, hm]
  · rw [hm] at hnone
    cases hnone
  · exact absurd hm hfree

end ChangedAlong

variable {fs after : Files} {path p : String}

/-- Putting a new directory on the way, or a file at the end. -/
theorem changed_of_put {new : Node} (hnew : new.IsBare) {name : List Char} {l : Location}
    (hl : fs.standing l = some .directory) (hfree : fs.standing (name :: l) ≠ some .directory)
    (h : (fs.standing (name :: l) = none ∧ new.standing = .directory
        ∧ fs.OnTheWay path (name :: l))
      ∨ ((∃ bytes, new.standing = .file bytes) ∧ EndsInName path ∧ name :: l = fs.placeOf path)) :
    ChangedAlong path fs (fs.put (name :: l) new) := by
  refine ⟨rfl, fun m => ?_⟩
  rw [standing_put hnew hl hfree]
  by_cases hm : m = name :: l
  · subst hm
    rw [if_pos rfl]
    rcases h with ⟨hnone, hmade, hway⟩ | ⟨⟨bytes, hfile⟩, hends⟩
    · exact Or.inr (Or.inl ⟨hnone, congrArg some hmade, hway⟩)
    · exact Or.inr (Or.inr ⟨hfree, ⟨bytes, congrArg some hfile⟩, hends⟩)
  · rw [if_neg hm]
    exact Or.inl rfl

/-! ## Making directories -/

/-- The steps of a path begin those of another, from the same start. -/
def Begins (p path : String) : Prop :=
  steps p <+: steps path ∧ Path.isAbsolute p = Path.isAbsolute path

theorem changed_of_makeDirectory (hp : Begins p path) (h : fs.makeDirectory p = .ok after) :
    ChangedAlong path fs after := by
  rw [makeDirectory] at h
  obtain ⟨⟨l, step⟩, happroach, h⟩ := bind_eq_ok_iff.mp h
  obtain ⟨-, -, rfl, hstep⟩ := approach_eq_ok_iff.mp happroach
  dsimp only at h
  split at h
  · cases h
  · next hlook =>
      split at h
      · next hl =>
          cases h
          obtain ⟨hname, hnone⟩ := standing_of_notFound hlook hl
          refine changed_of_put Node.isBare_emptyDirectory (isDirectoryAt_iff.mp hl)
            (by rw [hnone]; simp) (Or.inl ⟨hnone, rfl, steps p, hp.1, ?_⟩)
          rw [← fs.placeOf_eq (getLast?_steps hstep hname) hname, placeOf, origin, hp.2]
          rfl
      · cases h
  · cases h

theorem changed_of_ensureDirectory (fs : Files) (hp : Begins p path) :
    ChangedAlong path fs (fs.ensureDirectory p).1 := by
  rw [ensureDirectory]
  split
  · next hmade => exact changed_of_makeDirectory hp hmade
  · split
    · exact ChangedAlong.refl path fs
    · exact ChangedAlong.refl path fs
  · exact ChangedAlong.refl path fs

theorem changed_of_ensureLineage (fs : Files) {paths : List String}
    (h : ∀ p ∈ paths, Begins p path) :
    ChangedAlong path fs (fs.ensureLineage paths).1 := by
  induction paths generalizing fs with
  | nil => exact ChangedAlong.refl path fs
  | cons p above ih =>
      have hp := h p List.mem_cons_self
      have hfirst := changed_of_ensureDirectory fs hp
      have habove := fun fs => ih fs fun q hq => h q (List.mem_cons_of_mem p hq)
      rw [ensureLineage]
      split
      · next hensure =>
          rw [hensure] at hfirst
          have hrest := hfirst.trans (habove _)
          split
          · next hlineage =>
              rw [hlineage] at hrest
              exact hrest.trans (changed_of_ensureDirectory _ hp)
          · next hlineage =>
              rw [hlineage] at hrest
              exact hrest
      · next hensure =>
          rw [hensure] at hfirst
          exact hfirst

theorem changed_of_makeDirectories (fs : Files) (hp : Begins p path) :
    ChangedAlong path fs (fs.makeDirectories p).1 := by
  refine changed_of_ensureLineage fs fun q hq => ?_
  obtain ⟨hsteps, habsolute⟩ := Path.of_mem_upwards hq
  exact ⟨hsteps.trans hp.1, habsolute.trans hp.2⟩

/-! ## Opening and writing the file -/

/-- A file is opened at the place that its path leads to. -/
theorem of_openAppend {place : Location} (h : fs.openAppend path = .ok (after, place)) :
    ChangedAlong path fs after ∧ EndsInName path ∧ place = fs.placeOf path := by
  rw [openAppend] at h
  obtain ⟨⟨l, step⟩, happroach, h⟩ := bind_eq_ok_iff.mp h
  obtain ⟨-, -, rfl, hstep⟩ := approach_eq_ok_iff.mp happroach
  dsimp only at h
  split at h
  · cases h
  · next hplain =>
      rw [Bool.or_eq_true, not_or, Bool.not_eq_true] at hplain
      have hname := hplain.1
      have hlast := getLast?_steps hstep hname
      have hplace := fs.placeOf_eq hlast hname
      have hends : EndsInName path := ⟨step, hlast, hname⟩
      -- The tree is the same where a file stood, and has a new one where nothing did.
      split at h
      · cases h
      · cases h
        exact ⟨ChangedAlong.refl path _, hends, hplace.symm⟩
      · next hlook =>
          split at h
          · next hl =>
              cases h
              obtain ⟨-, hnone⟩ := standing_of_notFound hlook hl
              have hchanged := changed_of_put (Node.isBare_file []) (isDirectoryAt_iff.mp hl)
                (by rw [hnone]; simp) (Or.inr ⟨⟨[], rfl⟩, hends, hplace.symm⟩)
              exact ⟨hchanged, hends, hplace.symm⟩
          · cases h
      · cases h

theorem changed_of_append (hlast : EndsInName path) (bytes : List UInt8) :
    ChangedAlong path fs (fs.append (fs.placeOf path) bytes) := by
  rw [append]
  split
  · next old hnode =>
      have ⟨name, hget, hname⟩ := hlast
      have hplace := fs.placeOf_eq hget hname
      have hfile : fs.standing (fs.placeOf path) = some (.file old) := by
        rw [standing, hnode]
        rfl
      rw [hplace] at hfile ⊢
      exact changed_of_put (Node.isBare_file _) (standing_around (by rw [hfile]; simp))
        (by rw [hfile]; simp) (Or.inr ⟨⟨_, rfl⟩, hlast, hplace.symm⟩)
  · exact ChangedAlong.refl path fs

end Files

namespace Run

open Files

theorem openLog_spec (files : Files) (path : String) :
    ChangedAlong path files (openLog files (some path)).1
      ∧ ∀ sink, (openLog files (some path)).2 = .ok sink →
        EndsInName path ∧ sink = .file path (files.placeOf path) := by
  have hmake : ChangedAlong path files
      ((Path.parent? path).elim (files, .ok ()) files.makeDirectories).1 := by
    cases habove : Path.parent? path with
    | none => exact ChangedAlong.refl path files
    | some above => exact changed_of_makeDirectories files (Path.of_parent? habove)
  rw [openLog]
  split
  · next hmade =>
      rw [hmade] at hmake
      exact ⟨hmake, nofun⟩
  · next hmade =>
      rw [hmade] at hmake
      split
      · exact ⟨hmake, nofun⟩
      · next hopen =>
          obtain ⟨hchanged, hlast, rfl⟩ := of_openAppend hopen
          refine ⟨hmake.trans hchanged, fun sink hsink => ⟨hlast, ?_⟩⟩
          cases hsink
          rw [hmake.placeOf]

/-- The files that a run leaves are those it found, but for changes along the path of the log. -/
theorem changed_run (w : World) (args : List String) :
    (run w args).files = w.files
      ∨ ∃ level s path, settle w level = .ok (s, some path)
        ∧ ChangedAlong path w.files (run w args).files := by
  rcases files_run w args with hsame | ⟨level, s, path, hsettle, hfiles⟩
  · exact Or.inl hsame
  · cases path with
    | none =>
        left
        rcases hfiles with hfiles | ⟨sink, hsink, hfiles⟩
        · rw [hfiles, openLog]
        · rw [openLog] at hsink hfiles
          cases hsink
          exact hfiles
    | some path =>
        obtain ⟨hchanged, hopened⟩ := openLog_spec w.files path
        refine Or.inr ⟨level, s, path, hsettle, ?_⟩
        rcases hfiles with hfiles | ⟨sink, hsink, hfiles⟩
        · rw [hfiles]
          exact hchanged
        · obtain ⟨hlast, rfl⟩ := hopened sink hsink
          obtain ⟨bytes, hfiles⟩ := hfiles
          rw [hfiles, ← hchanged.placeOf]
          exact hchanged.trans (changed_of_append hlast bytes)

end Run

end IdentityLine
