import IdentityLine.Files

/-!
# What stands where

A tree is asked one thing at a time: what stands at a place, a directory or a file
with its bytes. What is in a directory is another question, about other places. So
a tree is seen here as a function from places, and putting something at a place
changes that function there and nowhere else, as long as the place is in a
directory and no directory stands at it.

Paths are followed by steps, and where the steps lead depends on their text alone.
What a tree decides is whether they can be walked: each must find a directory where
the ones before it have led. A path therefore leads to the same in two trees in
which the same places on its way are directories.
-/

namespace IdentityLine

/-- What stands at a place, without what is in it. -/
inductive Standing where
  | directory
  | file (bytes : List UInt8)
deriving DecidableEq

namespace Node

/-- What a node is, without what is in it. -/
def standing : Node → Standing
  | .directory _ => .directory
  | .file bytes => .file bytes

theorem standing_eq_directory_iff {node : Node} :
    node.standing = .directory ↔ node.isDirectory = true := by
  cases node <;> simp [standing, isDirectory]

/-- Nothing is found below a node that is no directory with entries. -/
def IsBare (node : Node) : Prop :=
  ∀ name, node.child? name = none

theorem isBare_emptyDirectory : emptyDirectory.IsBare := fun _ => rfl

theorem isBare_file (bytes : List UInt8) : (file bytes).IsBare := fun _ => rfl

theorem at?_cons_of_isBare {node : Node} (h : node.IsBare) (name : List Char)
    (rest : List (List Char)) : node.at? (name :: rest) = none := by
  rw [at?, h name]
  rfl

theorem at?_cons (node : Node) (name : List Char) (rest : List (List Char)) :
    node.at? (name :: rest) = (node.child? name).bind fun child => child.at? rest := rfl

/-- What is seen at a place of a directory after one of its names has come to lead elsewhere. -/
theorem at?_withChild (entries : List (List Char × Node)) (name step : List Char) (child : Node)
    (rest : List (List Char)) :
    ((directory entries).withChild name (some child)).at? (step :: rest) =
      if step = name then child.at? rest else (directory entries).at? (step :: rest) := by
  rw [at?_cons, child?_withChild]
  split
  · rfl
  · rfl

/-- Putting something bare into a directory, where nothing or a file stands, changes what stands
there and nowhere else. -/
theorem standing_at?_put {new : Node} (hnew : new.IsBare) (name : List Char)
    (way : List (List Char)) : ∀ {node : Node} (m : List (List Char)),
    (node.at? way).map standing = some .directory →
    (node.at? (way ++ [name])).map standing ≠ some .directory →
    ((node.put new (way ++ [name])).at? m).map standing =
      if m = way ++ [name] then some new.standing else (node.at? m).map standing := by
  induction way with
  | nil =>
      intro node m hdirectory hfree
      cases node with
      | file bytes => cases hdirectory
      | directory entries =>
          rw [List.nil_append, put, put]
          cases m with
          | nil => rfl
          | cons step rest =>
              rw [at?_withChild]
              by_cases hstep : step = name
              · subst hstep
                rw [if_pos rfl]
                cases rest with
                | nil => simp [at?]
                | cons next rest =>
                    rw [at?_cons_of_isBare hnew, if_neg (by simp)]
                    rw [List.nil_append, at?_cons] at hfree
                    rw [at?_cons]
                    -- What stood under the name was no directory, so nothing was below it.
                    cases hchild : (directory entries).child? step with
                    | none => rfl
                    | some child =>
                        cases child with
                        | file _ => rfl
                        | directory _ => exact absurd (by rw [hchild]; rfl) hfree
              · rw [if_neg hstep, if_neg (by simp [hstep])]
  | cons first way ih =>
      intro node m hdirectory hfree
      cases node with
      | file bytes => cases hdirectory
      | directory entries =>
          rw [List.cons_append, put]
          rw [at?_cons] at hdirectory
          rw [List.cons_append, at?_cons] at hfree
          cases hchild : (directory entries).child? first with
          | none =>
              rw [hchild] at hdirectory
              cases hdirectory
          | some child =>
              rw [hchild] at hdirectory hfree
              rw [Option.getD_some]
              cases m with
              | nil => rfl
              | cons step rest =>
                  rw [at?_withChild]
                  by_cases hstep : step = first
                  · subst hstep
                    rw [if_pos rfl, ih rest hdirectory hfree, at?_cons, hchild]
                    simp
                  · rw [if_neg hstep, if_neg (by simp [hstep])]

end Node

namespace Files

/-- What stands at a place, without what is in it. -/
def standing (fs : Files) (l : Location) : Option Standing :=
  (fs.node l).map Node.standing

theorem isDirectoryAt_iff {fs : Files} {l : Location} :
    fs.isDirectoryAt l = true ↔ fs.standing l = some .directory := by
  rw [isDirectoryAt, standing]
  cases fs.node l with
  | none => simp
  | some node => simp [Node.standing_eq_directory_iff]

/-- What stands anywhere stands in a directory. -/
theorem standing_around {fs : Files} {name : List Char} {l : Location}
    (h : fs.standing (name :: l) ≠ none) : fs.standing l = some .directory := by
  rw [standing, node_cons] at h
  rw [standing]
  match hnode : fs.node l with
  | none => simp [hnode] at h
  | some (.file _) => simp [hnode, Node.child?] at h
  | some (.directory _) => rfl

theorem standing_of_suffix {fs : Files} {l m : Location} (hl : l <:+ m) (hne : l ≠ m)
    (h : fs.standing m ≠ none) : fs.standing l = some .directory := by
  induction m with
  | nil => exact absurd (List.suffix_nil.mp hl) hne
  | cons name m ih =>
      have hm := standing_around h
      rcases List.suffix_cons_iff.mp hl with heq | hl
      · exact absurd heq hne
      · by_cases heq : l = m
        · rw [heq, hm]
        · exact ih hl heq (by rw [hm]; simp)

/-- Putting something bare into a directory, where nothing or a file stands, changes what stands
there and nowhere else. -/
theorem standing_put {fs : Files} {new : Node} (hnew : new.IsBare) {name : List Char}
    {l : Location} (hl : fs.standing l = some .directory)
    (hfree : fs.standing (name :: l) ≠ some .directory) (m : Location) :
    (fs.put (name :: l) new).standing m =
      if m = name :: l then some new.standing else fs.standing m := by
  rw [standing, node] at hl
  rw [standing, node, List.reverse_cons] at hfree
  have hput := Node.standing_at?_put hnew name l.reverse m.reverse hl hfree
  rw [standing, node, put, List.reverse_cons, hput, ← List.reverse_cons]
  simp only [List.reverse_inj]
  rfl

/-! ## Where steps lead -/

/-- Where steps lead from a place, whatever stands on the way. -/
def reach (l : Location) (steps : List (List Char)) : Location :=
  steps.foldl follow l

theorem reach_append (l : Location) (steps more : List (List Char)) :
    reach l (steps ++ more) = reach (reach l steps) more :=
  List.foldl_append

/-- Where a path starts from. -/
def origin (fs : Files) (path : String) : Location :=
  if Path.isAbsolute path then [] else fs.working

/-- Where a path leads, whatever stands on the way. -/
def placeOf (fs : Files) (path : String) : Location :=
  reach (fs.origin path) (steps path)

theorem follow_of_name {step : List Char} (h : isDots step = false) (l : Location) :
    follow l step = step :: l := by
  simp only [isDots, Bool.or_eq_false_iff, beq_eq_false_iff_ne] at h
  rw [follow, if_neg h.1, if_neg h.2]

/-! ## What steps find -/

/-- A name is short enough to stand anywhere. -/
def Fits (name : List Char) : Prop :=
  (String.ofList name).utf8ByteSize ≤ maxNameBytes

theorem lookBeside_of_isDots (fs : Files) (l : Location) {step : List Char}
    (h : isDots step = true) :
    fs.lookBeside l step = .ok ((fs.node (follow l step)).getD .emptyDirectory) := by
  rw [lookBeside_eq, if_pos h]

/-- A name finds what stands at its place, if it is short enough to stand there. -/
theorem lookBeside_eq_ok_iff {fs : Files} {l : Location} {step : List Char}
    (h : isDots step = false) {node : Node} :
    fs.lookBeside l step = .ok node ↔ Fits step ∧ fs.node (step :: l) = some node := by
  rw [lookBeside_eq, if_neg (by simp [h]), follow_of_name h, Fits]
  constructor
  · intro hlook
    split at hlook
    · cases hlook
    · split at hlook
      · cases hlook
      · next hfits =>
          refine ⟨by omega, ?_⟩
          cases hnode : fs.node (step :: l) with
          | none =>
              rw [hnode] at hlook
              cases hlook
          | some found =>
              rw [hnode] at hlook
              cases hlook
              rfl
  · rintro ⟨hfits, hnode⟩
    have hl : fs.isDirectoryAt l = true :=
      isDirectoryAt_iff.mpr (standing_around (by rw [standing, hnode]; simp))
    rw [if_neg (by simp [hl]), if_neg (by omega), hnode]
    rfl

/-- A name in a directory finds nothing where nothing stands. -/
theorem standing_of_notFound {fs : Files} {l : Location} {step : List Char}
    (h : fs.lookBeside l step = .error .notFound) (hl : fs.isDirectoryAt l = true) :
    isDots step = false ∧ fs.standing (step :: l) = none := by
  rw [lookBeside_eq] at h
  split at h
  · cases h
  · next hdots =>
      have hname := Bool.eq_false_iff.mpr hdots
      refine ⟨hname, ?_⟩
      rw [if_neg (by simp [hl]), follow_of_name hname] at h
      split at h
      · cases h
      · rw [standing]
        cases hnode : fs.node (step :: l) with
        | none => rfl
        | some node =>
            rw [hnode] at h
            cases h

/-- A step leads into a directory. -/
def Passable (fs : Files) (l : Location) (step : List Char) : Prop :=
  ∃ entries, fs.lookBeside l step = .ok (.directory entries)

theorem passable_iff_of_name {fs : Files} {l : Location} {step : List Char}
    (h : isDots step = false) :
    fs.Passable l step ↔ Fits step ∧ fs.standing (step :: l) = some .directory := by
  simp only [Passable, lookBeside_eq_ok_iff h, exists_and_left, standing]
  cases fs.node (step :: l) with
  | none => simp
  | some node => cases node <;> simp [Node.standing]

/-- Dots always lead on, unless to a file. -/
theorem passable_iff_of_isDots {fs : Files} {l : Location} {step : List Char}
    (h : isDots step = true) :
    fs.Passable l step ↔ ∀ bytes, fs.standing (follow l step) ≠ some (.file bytes) := by
  rw [Passable, lookBeside_of_isDots fs l h, standing]
  cases fs.node (follow l step) with
  | none => simp [Node.emptyDirectory]
  | some node => cases node <;> simp [Node.standing]

/-- Steps lead through directories. -/
def Walks (fs : Files) (l : Location) (steps : List (List Char)) : Prop :=
  ∀ way step, way ++ [step] <+: steps → fs.Passable (reach l way) step

theorem walks_nil (fs : Files) (l : Location) : fs.Walks l [] := by
  intro way step h
  simp at h

theorem walks_cons {fs : Files} {l : Location} {step : List Char} {steps : List (List Char)} :
    fs.Walks l (step :: steps) ↔ fs.Passable l step ∧ fs.Walks (follow l step) steps := by
  constructor
  · intro h
    refine ⟨h [] step (by simp), fun way next hway => ?_⟩
    exact h (step :: way) next (by simpa using hway)
  · rintro ⟨hstep, hrest⟩ way next hway
    cases way with
    | nil =>
        obtain rfl : next = step := by simpa using hway
        exact hstep
    | cons first way =>
        rw [List.cons_append, List.cons_prefix_cons] at hway
        obtain ⟨rfl, hway⟩ := hway
        exact hrest way next hway

theorem enter_eq_ok_iff {fs : Files} {l m : Location} {steps : List (List Char)} :
    fs.enter l steps = .ok m ↔ fs.Walks l steps ∧ m = reach l steps := by
  induction steps generalizing l with
  | nil =>
      simp only [walks_nil, true_and]
      exact ⟨fun h => by cases h; rfl, fun h => by rw [h]; rfl⟩
  | cons step steps ih =>
      rw [enter_cons, walks_cons, Passable]
      cases hlook : fs.lookBeside l step with
      | error e => simp
      | ok node =>
          cases node with
          | file bytes => simp
          | directory entries =>
              rw [show reach l (step :: steps) = reach (follow l step) steps from rfl]
              simpa using ih

/-! ## Turning back -/

/-- Steps that lead away from a place turn back at it. -/
theorem exists_turn {l c : Location} {way steps : List (List Char)} (hway : way <+: steps)
    (hin : c <:+ reach l way) (hout : ¬ c <:+ reach l steps) :
    ∃ turn, turn ++ [['.', '.']] <+: steps ∧ reach l turn = c := by
  obtain ⟨rest, rfl⟩ := hway
  induction rest generalizing way with
  | nil =>
      rw [List.append_nil] at hout
      exact absurd hin hout
  | cons step rest ih =>
      rw [List.append_cons] at hout ⊢
      by_cases hstep : c <:+ reach l (way ++ [step])
      · exact ih hstep hout
      · rw [reach_append] at hstep
        have hfollow : ¬ c <:+ follow (reach l way) step := hstep
        rw [follow] at hfollow
        split at hfollow
        · exact absurd hin hfollow
        · split at hfollow
          · next hback =>
              refine ⟨way, ?_, ?_⟩
              · rw [← hback]
                exact List.prefix_append _ _
              · cases hreach : reach l way with
                | nil =>
                    rw [hreach] at hin hfollow
                    exact absurd hin hfollow
                | cons name m =>
                    rw [hreach] at hin hfollow
                    rcases List.suffix_cons_iff.mp hin with heq | hin
                    · exact heq.symm
                    · exact absurd hin hfollow
          · exact absurd (hin.trans (List.suffix_cons _ _)) hfollow

/-- The names among steps. -/
def names (steps : List (List Char)) : List (List Char) :=
  steps.filter fun step => !isDots step

/-- Steps that never turn back lead down along their names. -/
theorem reach_eq {steps : List (List Char)} (h : ['.', '.'] ∉ steps) (l : Location) :
    reach l steps = (names steps).reverse ++ l := by
  induction steps generalizing l with
  | nil => rfl
  | cons step steps ih =>
      rw [List.mem_cons, not_or] at h
      rw [reach, List.foldl_cons, ← reach, ih h.2, follow, names, names, List.filter_cons]
      by_cases hdot : step = ['.']
      · simp [hdot, isDots]
      · simp [hdot, Ne.symm h.1, isDots]

end Files

end IdentityLine
