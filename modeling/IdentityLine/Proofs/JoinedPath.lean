import IdentityLine.Files

/-!
# A path below another

A path is joined to a base as text, and read as components. The two meet in the
pieces between slashes: joining puts the pieces of the path behind those of the
base, but for an empty piece where the base ends in a slash, and an empty piece
stands for nothing. So the components of the base come first, and what comes
behind them is what the path itself stands for. Two dots in a component are two
dots in a row in the text, which is why looking for them in the text is enough.

The steps that lead along a path come from the same pieces. Taking the parent of
a path drops pieces from its end, so the steps of every path above another are the
first of its own.
-/

namespace IdentityLine

namespace Path

/-! ## Pieces -/

theorem pieces_ne_nil (cs : List Char) : pieces cs ≠ [] := by
  cases cs with
  | nil => simp [pieces]
  | cons c cs =>
      rw [pieces]
      split
      · simp
      · split <;> simp

theorem pieces_slash (cs : List Char) : pieces ('/' :: cs) = [] :: pieces cs := by
  rw [pieces, if_pos rfl]

/-- A character that is no slash goes to the front of the first piece. -/
theorem pieces_cons {c : Char} (hc : c ≠ '/') (cs : List Char) :
    ∃ p ps, pieces cs = p :: ps ∧ pieces (c :: cs) = (c :: p) :: ps := by
  obtain ⟨p, ps, hcs⟩ := List.exists_cons_of_ne_nil (pieces_ne_nil cs)
  refine ⟨p, ps, hcs, ?_⟩
  rw [pieces, if_neg hc, hcs]

theorem pieces_append_slash (before after : List Char) :
    pieces (before ++ '/' :: after) = pieces before ++ pieces after := by
  induction before with
  | nil => rw [List.nil_append, pieces_slash]; rfl
  | cons c before ih =>
      rw [List.cons_append]
      by_cases hc : c = '/'
      · subst hc
        rw [pieces_slash, pieces_slash, ih, List.cons_append]
      · obtain ⟨p, ps, hpieces, hcons⟩ := pieces_cons hc before
        rw [pieces, if_neg hc, ih, hcons, hpieces, List.cons_append, List.cons_append]

theorem slash_not_mem_of_mem_pieces {cs p : List Char} (h : p ∈ pieces cs) : '/' ∉ p := by
  induction cs generalizing p with
  | nil =>
      rw [pieces, List.mem_singleton] at h
      simp [h]
  | cons c cs ih =>
      by_cases hc : c = '/'
      · subst hc
        rw [pieces_slash, List.mem_cons] at h
        rcases h with rfl | h
        · exact List.not_mem_nil
        · exact ih h
      · obtain ⟨q, qs, hpieces, hcons⟩ := pieces_cons hc cs
        rw [hcons, List.mem_cons] at h
        rcases h with rfl | h
        · rw [List.mem_cons, not_or]
          exact ⟨Ne.symm hc, ih (by simp [hpieces])⟩
        · exact ih (by simp [hpieces, h])

theorem pieces_of_not_mem {p : List Char} (h : '/' ∉ p) : pieces p = [p] := by
  induction p with
  | nil => rfl
  | cons c p ih =>
      rw [List.mem_cons, not_or] at h
      rw [pieces, if_neg (Ne.symm h.1), ih h.2]

/-- Pieces that are put together are found again. -/
theorem pieces_ofPieces {ps : List (List Char)} (hne : ps ≠ []) (h : ∀ p ∈ ps, '/' ∉ p) :
    pieces (ofPieces ps).toList = ps := by
  rw [ofPieces, String.toList_ofList]
  induction ps with
  | nil => exact absurd rfl hne
  | cons p ps ih =>
      have hp := h p List.mem_cons_self
      cases ps with
      | nil =>
          rw [List.intercalate_singleton]
          exact pieces_of_not_mem hp
      | cons q ps =>
          rw [List.intercalate_cons_cons, List.append_assoc, List.singleton_append,
            pieces_append_slash, pieces_of_not_mem hp,
            ih (by simp) fun r hr => h r (List.mem_cons_of_mem _ hr), List.singleton_append]

/-- Whatever is a piece of a text stands somewhere in it, and the first piece at its start. -/
theorem infix_of_pieces {cs : List Char} : ∀ {p ps}, pieces cs = p :: ps →
    p <+: cs ∧ ∀ q ∈ ps, q <:+: cs := by
  induction cs with
  | nil =>
      intro p ps h
      rw [pieces, List.cons.injEq] at h
      rw [← h.1, ← h.2]
      simp
  | cons c cs ih =>
      intro p ps h
      obtain ⟨q, qs, hpieces⟩ := List.exists_cons_of_ne_nil (pieces_ne_nil cs)
      obtain ⟨hfirst, hothers⟩ := ih hpieces
      by_cases hc : c = '/'
      · subst hc
        rw [pieces_slash, hpieces, List.cons.injEq] at h
        rw [← h.1, ← h.2]
        refine ⟨List.nil_prefix, fun r hr => List.infix_cons ?_⟩
        rcases List.mem_cons.mp hr with rfl | hr
        · exact hfirst.isInfix
        · exact hothers r hr
      · rw [pieces, if_neg hc, hpieces, List.cons.injEq] at h
        rw [← h.1, ← h.2]
        exact ⟨List.prefix_cons_inj c |>.mpr hfirst, fun r hr => List.infix_cons (hothers r hr)⟩

theorem infix_of_mem_pieces {cs p : List Char} (h : p ∈ pieces cs) : p <:+: cs := by
  obtain ⟨q, qs, hpieces⟩ := List.exists_cons_of_ne_nil (pieces_ne_nil cs)
  obtain ⟨hfirst, hothers⟩ := infix_of_pieces hpieces
  rw [hpieces, List.mem_cons] at h
  rcases h with rfl | h
  · exact hfirst.isInfix
  · exact hothers p h

/-! ## Joining -/

theorem isAbsolute_eq_true_iff {path : String} :
    isAbsolute path = true ↔ path.toList.head? = some '/' := by
  rw [isAbsolute, beq_iff_eq]

/-- Joining puts the pieces of the path behind those of the base, without an empty piece at its
end. -/
theorem pieces_join (base : String) {path : String} (h : isAbsolute path = false) :
    ∃ kept, pieces (join base path).toList = kept ++ pieces path.toList
      ∧ (pieces base.toList = kept ∨ pieces base.toList = kept ++ [[]])
      ∧ (base ≠ "" → kept ≠ []) := by
  rw [join, h]
  by_cases hempty : base = ""
  · refine ⟨[], ?_, ?_, fun hne => absurd hempty hne⟩
    · simp [hempty]
    · simp [hempty, pieces]
  · by_cases hslash : base.toList.getLast? = some '/'
    · obtain ⟨front, hfront⟩ := List.getLast?_eq_some_iff.mp hslash
      refine ⟨pieces front, ?_, Or.inr ?_, fun _ => pieces_ne_nil _⟩
      · rw [if_neg (by simp), if_pos (Or.inr hslash), String.toList_append, hfront,
          List.append_assoc, List.singleton_append, pieces_append_slash]
      · rw [hfront, pieces_append_slash]
        rfl
    · refine ⟨pieces base.toList, ?_, Or.inl rfl, fun _ => pieces_ne_nil _⟩
      rw [if_neg (by simp), if_neg (by simp [hempty, hslash]), String.toList_append,
        String.toList_append, List.append_assoc]
      exact pieces_append_slash base.toList path.toList

theorem isAbsolute_join (base : String) {path : String} (h : isAbsolute path = false) :
    isAbsolute (join base path) = isAbsolute base := by
  rw [join, h, if_neg (by simp)]
  by_cases hempty : base = ""
  · rw [if_pos (Or.inl hempty), hempty, String.empty_append, h]
    rfl
  · obtain ⟨c, cs, hcs⟩ := List.exists_cons_of_ne_nil (mt String.toList_eq_nil_iff.mp hempty)
    split
    · rw [isAbsolute, isAbsolute, String.toList_append, hcs]
      rfl
    · rw [isAbsolute, isAbsolute, String.toList_append, String.toList_append, hcs]
      rfl

theorem componentOf?_ne_root (p : List Char) : componentOf? p ≠ some .root := by
  rw [componentOf?]
  split
  · simp
  · split <;> simp

theorem componentOf?_eq_parent_iff {p : List Char} :
    componentOf? p = some .parent ↔ p = ['.', '.'] := by
  rw [componentOf?]
  split
  · next h => rcases h with rfl | rfl <;> simp
  · split
    · next h => simp [h]
    · next h => simp [h]

/-- What pieces stand for leads neither to the root nor back, unless one of them is two dots. -/
theorem inside_of_pieces {ps : List (List Char)} (h : ['.', '.'] ∉ ps) :
    Component.root ∉ ps.filterMap componentOf? ∧ Component.parent ∉ ps.filterMap componentOf? := by
  simp only [List.mem_filterMap, not_exists, not_and]
  refine ⟨fun p _ => componentOf?_ne_root p, fun p hp hparent => ?_⟩
  rw [componentOf?_eq_parent_iff] at hparent
  exact h (hparent ▸ hp)

/-- What the start of a path adds to the components that its pieces stand for. -/
def lead (path : String) : List Component :=
  if isAbsolute path then [.root]
  else if (pieces path.toList).head? = some ['.'] then [.current]
  else []

theorem components_eq (path : String) :
    components path = lead path ++ (pieces path.toList).filterMap componentOf? := by
  rw [components, lead]
  split
  · rfl
  · split
    · next rest hrest =>
        rw [hrest]
        rfl
    · next hother =>
        rw [if_neg]
        · rfl
        · intro hdot
          obtain ⟨p, ps, hpieces⟩ := List.exists_cons_of_ne_nil (pieces_ne_nil path.toList)
          rw [hpieces, List.head?_cons, Option.some.injEq] at hdot
          exact hother ps (hdot ▸ hpieces)

theorem lead_of_relative {path : String} (h : isAbsolute path = false) :
    Component.root ∉ lead path ∧ Component.parent ∉ lead path := by
  rw [lead, if_neg (by simp [h])]
  split
  · simp
  · simp

/-- The components of a path that is joined to a base are those of the base, and behind them some
that lead neither to the root nor back. -/
theorem components_join (base : String) {path : String} (h : isAbsolute path = false)
    (hdots : ['.', '.'] ∉ pieces path.toList) :
    ∃ below, components (join base path) = components base ++ below
      ∧ Component.root ∉ below ∧ Component.parent ∉ below := by
  obtain ⟨hroot, hparent⟩ := inside_of_pieces hdots
  by_cases hempty : base = ""
  · -- Behind an empty base a dot at the start of the path stays a component.
    obtain ⟨hleadRoot, hleadParent⟩ := lead_of_relative h
    refine ⟨components path, ?_, ?_, ?_⟩
    · rw [hempty, join, h, if_neg (by simp), if_pos (Or.inl rfl), String.empty_append]
      rfl
    · rw [components_eq, List.mem_append, not_or]
      exact ⟨hleadRoot, hroot⟩
    · rw [components_eq, List.mem_append, not_or]
      exact ⟨hleadParent, hparent⟩
  · refine ⟨(pieces path.toList).filterMap componentOf?, ?_, hroot, hparent⟩
    obtain ⟨kept, hjoin, hkept, hne⟩ := pieces_join base h
    have hhead : ∀ ps, (kept ++ ps).head? = kept.head? := by
      obtain ⟨first, others, hcons⟩ := List.exists_cons_of_ne_nil (hne hempty)
      intro ps
      rw [hcons, List.cons_append, List.head?_cons, List.head?_cons]
    have hlead : lead (join base path) = lead base := by
      rw [lead, lead, isAbsolute_join base h, hjoin, hhead]
      rcases hkept with hkept | hkept
      · rw [hkept]
      · rw [hkept, hhead]
    have hbase : (pieces base.toList).filterMap componentOf? = kept.filterMap componentOf? := by
      rcases hkept with hkept | hkept
      · rw [hkept]
      · rw [hkept, List.filterMap_append]
        simp [componentOf?]
    rw [components_eq, components_eq, hlead, hjoin, hbase, List.filterMap_append,
      List.append_assoc]

end Path

namespace Files

/-! ## Steps -/

theorem steps_join (base : String) {path : String} (h : Path.isAbsolute path = false) :
    steps (Path.join base path) = steps base ++ steps path := by
  obtain ⟨kept, hjoin, hkept, -⟩ := Path.pieces_join base h
  rw [steps, steps, steps, hjoin, List.filter_append]
  rcases hkept with hkept | hkept
  · rw [hkept]
  · rw [hkept, List.filter_append]
    simp

theorem steps_ofPieces {ps : List (List Char)} (h : ∀ p ∈ ps, '/' ∉ p) :
    steps (Path.ofPieces ps) = ps.filter fun p => !p.isEmpty := by
  cases ps with
  | nil => rfl
  | cons p ps => rw [steps, Path.pieces_ofPieces (by simp) h]

end Files

namespace Path

/-! ## Paths above another -/

theorem dropIdle_initial (ps : List (List Char)) : dropIdle ps <+: ps := by
  cases ps with
  | nil => exact List.nil_prefix
  | cons p ps =>
      rw [dropIdle, List.prefix_cons_inj, ← List.reverse_suffix, List.reverse_reverse]
      exact List.dropWhile_suffix _

theorem dropIdle_cons (p : List Char) (ps : List (List Char)) :
    ∃ rest, dropIdle (p :: ps) = p :: rest := ⟨_, rfl⟩

/-- Dropping pieces from the end of a path keeps the first of its steps. -/
theorem steps_of_prefix {path : String} {ps : List (List Char)} (h : ps <+: pieces path.toList) :
    Files.steps (ofPieces ps) <+: Files.steps path := by
  rw [Files.steps_ofPieces fun p hp => slash_not_mem_of_mem_pieces (h.subset hp)]
  exact h.filter _

theorem isAbsolute_ofPieces_nil (p : List Char) (ps : List (List Char)) :
    isAbsolute (ofPieces ([] :: p :: ps)) = true := by
  rw [isAbsolute, ofPieces, String.toList_ofList, List.intercalate_cons_cons]
  rfl

theorem isAbsolute_ofPieces_cons {c : Char} (hc : c ≠ '/') (p : List Char)
    (ps : List (List Char)) : isAbsolute (ofPieces ((c :: p) :: ps)) = false := by
  rw [isAbsolute, ofPieces, String.toList_ofList]
  cases ps with
  | nil => simpa using hc
  | cons q ps => simpa [List.intercalate_cons_cons] using hc

/-- A path above another is reached by the first of its steps, from the same start. -/
theorem of_parent? {path above : String} (h : parent? path = some above) :
    Files.steps above <+: Files.steps path ∧ isAbsolute above = isAbsolute path := by
  have hdrop : dropIdle (dropIdle (pieces path.toList)).dropLast <+: pieces path.toList :=
    ((dropIdle_initial _).trans (List.dropLast_prefix _)).trans (dropIdle_initial _)
  have hsteps := steps_of_prefix hdrop
  rw [parent?] at h
  by_cases habsolute : isAbsolute path = true
  · rw [if_pos habsolute] at h
    obtain ⟨cs, hcs⟩ := List.head?_eq_some_iff.mp (isAbsolute_eq_true_iff.mp habsolute)
    obtain ⟨ps, hidle⟩ := dropIdle_cons [] (pieces cs)
    rw [hcs, pieces_slash, hidle] at h hsteps
    rw [habsolute]
    cases ps with
    | nil => cases h
    | cons q qs =>
        obtain ⟨rs, hrest⟩ := dropIdle_cons [] (q :: qs).dropLast
        dsimp only at h
        rw [List.dropLast_cons_cons, hrest] at h hsteps
        cases rs with
        | nil =>
            cases h
            exact ⟨List.nil_prefix, rfl⟩
        | cons r rs =>
            cases h
            exact ⟨hsteps, isAbsolute_ofPieces_nil r rs⟩
  · rw [if_neg habsolute] at h
    split at h
    · cases h
    · next hempty =>
        cases h
        refine ⟨hsteps, ?_⟩
        rw [Bool.eq_false_iff.mpr habsolute]
        obtain ⟨c, cs, hcs⟩ := List.exists_cons_of_ne_nil (mt String.toList_eq_nil_iff.mp hempty)
        have hc : c ≠ '/' := by
          rintro rfl
          exact habsolute (isAbsolute_eq_true_iff.mpr (by rw [hcs, List.head?_cons]))
        obtain ⟨p, ps, -, hcons⟩ := pieces_cons hc cs
        rw [hcs, hcons] at hdrop ⊢
        -- What is left either begins with the same character or is the empty path.
        rcases List.prefix_cons_iff.mp hdrop with hnil | ⟨rest, hrest, -⟩
        · rw [hnil]
          rfl
        · rw [hrest]
          exact isAbsolute_ofPieces_cons hc p rest

theorem of_mem_upwards {fuel : Nat} {path p : String} (h : p ∈ upwards fuel path) :
    Files.steps p <+: Files.steps path ∧ isAbsolute p = isAbsolute path := by
  induction fuel generalizing path with
  | zero =>
      simp only [upwards.eq_def] at h
      cases h
  | succ fuel ih =>
      cases habove : parent? path with
      | none =>
          simp only [upwards.eq_def, habove] at h
          cases h
      | some above =>
          rw [upwards.eq_def, habove] at h
          rcases List.mem_cons.mp h with rfl | h
          · exact ⟨List.prefix_rfl, rfl⟩
          · obtain ⟨hsteps, habsolute⟩ := of_parent? habove
            obtain ⟨hfirst, hsame⟩ := ih h
            exact ⟨hfirst.trans hsteps, hsame.trans habsolute⟩

end Path

end IdentityLine
