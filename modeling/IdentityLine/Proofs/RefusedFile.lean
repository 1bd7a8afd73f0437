import Mathlib
import IdentityLine.Proofs.SettingsLayers
import IdentityLine.Proofs.TextBytes

/-!
# Loading fails for the sake of the file alone

Settings that cannot be loaded have a file to blame. It may be a directory, or its
bytes may be those of no text, or the text may hold no document, or a value in the
document may be one that cannot be taken. The variables of the environment come in
only after all of that, so none of them can keep settings from being loaded, save
them, or change what is told.

Which value is blamed is decided by the order of reading: the first that is refused.
Whether a value is refused depends on the value and its key and not on what has been
read before it, which is what makes "the first" a matter of the document alone. Of
the values under names that settings do not have, only numbers are refused, and only
those that are too large or none at all; in a document without such numbers it is
always a value under one of the known names.
-/

namespace IdentityLine

open Toml

namespace Settings

/-! ## The first that is refused -/

/-- The first of some entries that is refused says why. -/
def FirstRefused (refuses : String → Value → Rejection → Prop) (es : Entries) (why : Rejection) :
    Prop :=
  ∃ before e after, es = before ++ e :: after ∧ (∀ x ∈ before, ∀ w, ¬ refuses x.1 x.2 w)
    ∧ refuses e.1 e.2 why

section Folding

variable {σ : Type} {take : σ → String × Value → Except Rejection σ}
  {refuses : String → Value → Rejection → Prop}

theorem firstRefused_cons {e : String × Value} {es : Entries} {why : Rejection} :
    FirstRefused refuses (e :: es) why ↔
      refuses e.1 e.2 why ∨ (∀ w, ¬ refuses e.1 e.2 w) ∧ FirstRefused refuses es why := by
  constructor
  · rintro ⟨before, x, after, heq, hbefore, hx⟩
    cases before with
    | nil =>
        obtain ⟨rfl, -⟩ := List.cons.inj heq
        exact .inl hx
    | cons y before =>
        obtain ⟨rfl, hrest⟩ := List.cons.inj heq
        obtain ⟨hy, hbefore⟩ := List.forall_mem_cons.mp hbefore
        exact .inr ⟨hy, before, x, after, hrest, hbefore, hx⟩
  · rintro (he | ⟨he, before, x, after, rfl, hbefore, hx⟩)
    · exact ⟨[], e, es, rfl, fun x hx => absurd hx List.not_mem_nil, he⟩
    · exact ⟨e :: before, x, after, rfl, List.forall_mem_cons.mpr ⟨he, hbefore⟩, hx⟩

/-- Taking entries one by one stops at the first that is refused, if a step refuses them whatever is
held. -/
theorem foldlM_eq_error_iff
    (step : ∀ s e why, take s e = .error why ↔ refuses e.1 e.2 why) {es : Entries} {s : σ}
    {why : Rejection} : es.foldlM take s = .error why ↔ FirstRefused refuses es why := by
  induction es generalizing s with
  | nil =>
      constructor
      · intro h
        cases h
      · rintro ⟨before, e, after, heq, -⟩
        simp at heq
  | cons e es ih =>
      rw [List.foldlM_cons, firstRefused_cons]
      cases htake : take s e with
      | error w =>
          have hrefuses : ∀ w', refuses e.1 e.2 w' ↔ w' = w := by
            intro w'
            rw [← step s e w', htake, Except.error.injEq, eq_comm]
          rw [hrefuses]
          constructor
          · intro h
            cases h
            exact .inl rfl
          · rintro (rfl | ⟨hnone, -⟩)
            · rfl
            · exact absurd ((hrefuses w).mpr rfl) (hnone w)
      | ok s₁ =>
          have hnone : ∀ w, ¬ refuses e.1 e.2 w := by
            intro w hw
            rw [← step s e w, htake] at hw
            cases hw
          have hrest : es.foldlM take s₁ = .error why ↔ FirstRefused refuses es why := ih
          constructor
          · intro h
            exact .inr ⟨hnone, hrest.mp h⟩
          · rintro (hw | ⟨-, hfirst⟩)
            · exact absurd hw (hnone why)
            · exact hrest.mpr hfirst

end Folding

/-! ## What is refused -/

/-- Why an entry of the table about the user is refused. -/
inductive RefusesUser (key : String) (v : Value) : Rejection → Prop
  | text (hkey : key ∈ userNames) (h : ∀ s, v ≠ .string s) : RefusesUser key v .shape
  | other (hkey : key ∉ userNames) (h : v.isSound = false) : RefusesUser key v .shape

/-- Why an entry of the table about logging is refused. -/
inductive RefusesLogging (key : String) (v : Value) : Rejection → Prop
  | level (hkey : key = "level") (h : ∀ s, v ≠ .string s) : RefusesLogging key v .shape
  | unknown {s : String} (hkey : key = "level") (text : v = .string s)
      (h : Level.named? s = none) : RefusesLogging key v (.level s)
  | colored (hkey : key = "colored") (h : ∀ b, v ≠ .boolean b) : RefusesLogging key v .shape
  | file (hkey : key = "file") (h : ∀ s, v ≠ .string s) : RefusesLogging key v .shape
  | other (hkey : key ∉ loggingNames) (h : v.isSound = false) : RefusesLogging key v .shape

/-- The entries that stand under the name of a table, in the order in which they are read: those of
a table by their keys, those of an array as they come. -/
def inReadingOrder (names : List String) : Value → Option Entries
  | .table _ es => some (Entries.sorted es)
  | .array _ vs => some (named names vs)
  | .datetime _ => some []
  | _ => none

/-- Why what stands under the name of a table is refused. -/
inductive RefusesTable (refuses : String → Value → Rejection → Prop) (names : List String)
    (v : Value) : Rejection → Prop
  | shape (h : inReadingOrder names v = none) : RefusesTable refuses names v .shape
  | entry {es : Entries} {why : Rejection} (h : inReadingOrder names v = some es)
      (first : FirstRefused refuses es why) : RefusesTable refuses names v why

/-- Why an entry of the document is refused. -/
inductive RefusesEntry (key : String) (v : Value) : Rejection → Prop
  | user {why : Rejection} (hkey : key = "user")
      (h : RefusesTable RefusesUser userNames v why) : RefusesEntry key v why
  | logging {why : Rejection} (hkey : key = "logging")
      (h : RefusesTable RefusesLogging loggingNames v why) : RefusesEntry key v why
  | other (hkey : key ∉ tableNames) (h : v.isSound = false) : RefusesEntry key v .shape

theorem readText_eq_error_iff {v : Value} {why : Rejection} :
    readText v = .error why ↔ why = .shape ∧ ∀ s, v ≠ .string s := by
  cases v with
  | string s => simp [readText]
  | _ => simp [readText, eq_comm]

theorem readFlag_eq_error_iff {v : Value} {why : Rejection} :
    readFlag v = .error why ↔ why = .shape ∧ ∀ b, v ≠ .boolean b := by
  cases v with
  | boolean b => simp [readFlag]
  | _ => simp [readFlag, eq_comm]

theorem ignore_eq_error_iff {α : Type} {held : α} {v : Value} {why : Rejection} :
    ignore held v = .error why ↔ why = .shape ∧ v.isSound = false := by
  rw [ignore]
  cases v.isSound with
  | true => simp
  | false => simp [eq_comm]

/-- Reading a value and keeping it fails as reading it does. -/
theorem bind_pure_eq_error_iff {ε α β : Type} {x : Except ε α} {f : α → β} {e : ε} :
    (x >>= fun a => pure (f a)) = .error e ↔ x = .error e := by
  cases x with
  | error e' => simp [bind, Except.bind]
  | ok a => exact ⟨nofun, nofun⟩

theorem readLevel_string (s : String) :
    readLevel (.string s) =
      match Level.named? s with
      | some level => .ok level
      | none => .error (.level s) := rfl

theorem readLevel_eq_error_iff {v : Value} {why : Rejection} :
    readLevel v = .error why ↔
      (why = .shape ∧ ∀ s, v ≠ .string s) ∨ ∃ s, v = .string s ∧ Level.named? s = none
        ∧ why = .level s := by
  cases v with
  | string s =>
      rw [readLevel_string]
      simp only [Value.string.injEq, ne_eq, exists_eq_left']
      cases Level.named? s with
      | none => simp [eq_comm]
      | some level => simp
  | _ => simp [readLevel, readText, bind, Except.bind, eq_comm]

theorem takeUser_eq_error_iff (u : UserSettings) (e : String × Value) (why : Rejection) :
    takeUser u e = .error why ↔ RefusesUser e.1 e.2 why := by
  obtain ⟨key, v⟩ := e
  have htext : ∀ key ∈ userNames, readText v = .error why ↔ RefusesUser key v why := by
    intro key hkey
    rw [readText_eq_error_iff]
    constructor
    · rintro ⟨rfl, h⟩
      exact .text hkey h
    · intro h
      cases h with
      | text _ h => exact ⟨rfl, h⟩
      | other hother h => exact absurd hkey hother
  unfold takeUser
  dsimp only
  split
  · exact bind_pure_eq_error_iff.trans (htext "name" (by decide))
  · exact bind_pure_eq_error_iff.trans (htext "email" (by decide))
  · next hname hemail =>
      have hother := not_mem_userNames.mpr ⟨hname, hemail⟩
      rw [ignore_eq_error_iff]
      constructor
      · rintro ⟨rfl, h⟩
        exact .other hother h
      · intro h
        cases h with
        | text hkey h => exact absurd hkey hother
        | other _ h => exact ⟨rfl, h⟩

theorem takeLogging_eq_error_iff (l : LogSettings) (e : String × Value) (why : Rejection) :
    takeLogging l e = .error why ↔ RefusesLogging e.1 e.2 why := by
  obtain ⟨key, v⟩ := e
  unfold takeLogging
  dsimp only
  split
  · rw [bind_pure_eq_error_iff, readLevel_eq_error_iff]
    constructor
    · rintro (⟨rfl, h⟩ | ⟨s, rfl, h, rfl⟩)
      · exact .level rfl h
      · exact .unknown rfl rfl h
    · intro h
      cases h with
      | level hkey h => exact .inl ⟨rfl, h⟩
      | unknown hkey text h => exact .inr ⟨_, text, h, rfl⟩
      | colored hkey h | file hkey h => exact absurd hkey (by decide)
      | other hkey h => exact absurd (by decide) hkey
  · rw [bind_pure_eq_error_iff, readFlag_eq_error_iff]
    constructor
    · rintro ⟨rfl, h⟩
      exact .colored rfl h
    · intro h
      cases h with
      | colored hkey h => exact ⟨rfl, h⟩
      | level hkey h | unknown hkey text h | file hkey h => exact absurd hkey (by decide)
      | other hkey h => exact absurd (by decide) hkey
  · rw [bind_pure_eq_error_iff, readText_eq_error_iff]
    constructor
    · rintro ⟨rfl, h⟩
      exact .file rfl h
    · intro h
      cases h with
      | file hkey h => exact ⟨rfl, h⟩
      | level hkey h | unknown hkey text h | colored hkey h => exact absurd hkey (by decide)
      | other hkey h => exact absurd (by decide) hkey
  · next hlevel hcolored hfile =>
      rw [ignore_eq_error_iff]
      constructor
      · rintro ⟨rfl, h⟩
        exact .other (not_mem_loggingNames.mpr ⟨hlevel, hcolored, hfile⟩) h
      · intro h
        cases h with
        | level hkey h | unknown hkey text h => exact absurd hkey hlevel
        | colored hkey h => exact absurd hkey hcolored
        | file hkey h => exact absurd hkey hfile
        | other hkey h => exact ⟨rfl, h⟩

theorem readWith_eq {σ : Type} (take : σ → String × Value → Except Rejection σ) (held : σ)
    (names : List String) (v : Value) :
    readWith take held names v =
      match inReadingOrder names v with
      | some es => es.foldlM take held
      | none => .error .shape := by
  cases v with
  | _ => rfl

/-- Reading what stands under the name of a table fails for the first entry that is refused. -/
theorem readWith_eq_error_iff {σ : Type} {take : σ → String × Value → Except Rejection σ} {held : σ}
    {names : List String} {refuses : String → Value → Rejection → Prop}
    (step : ∀ s e why, take s e = .error why ↔ refuses e.1 e.2 why) {v : Value} {why : Rejection} :
    readWith take held names v = .error why ↔ RefusesTable refuses names v why := by
  rw [readWith_eq]
  cases horder : inReadingOrder names v with
  | none =>
      constructor
      · intro h
        cases h
        exact .shape horder
      · intro h
        cases h with
        | shape h => rfl
        | entry h first =>
            rw [horder] at h
            cases h
  | some es =>
      dsimp only
      rw [foldlM_eq_error_iff step]
      constructor
      · exact .entry horder
      · intro h
        cases h with
        | shape h =>
            rw [horder] at h
            cases h
        | entry h first =>
            rw [horder] at h
            cases h
            exact first

theorem takeEntry_eq_error_iff (s : Settings) (e : String × Value) (why : Rejection) :
    takeEntry s e = .error why ↔ RefusesEntry e.1 e.2 why := by
  obtain ⟨key, v⟩ := e
  unfold takeEntry
  dsimp only
  split
  · rw [bind_pure_eq_error_iff, readUser_eq, readWith_eq_error_iff takeUser_eq_error_iff]
    constructor
    · exact .user rfl
    · intro h
      cases h with
      | user hkey h => exact h
      | logging hkey h => exact absurd hkey (by decide)
      | other hkey h => exact absurd (by decide) hkey
  · rw [bind_pure_eq_error_iff, readLogging_eq, readWith_eq_error_iff takeLogging_eq_error_iff]
    constructor
    · exact .logging rfl
    · intro h
      cases h with
      | logging hkey h => exact h
      | user hkey h => exact absurd hkey (by decide)
      | other hkey h => exact absurd (by decide) hkey
  · next huser hlogging =>
      rw [ignore_eq_error_iff]
      constructor
      · rintro ⟨rfl, h⟩
        exact .other (not_mem_tableNames.mpr ⟨huser, hlogging⟩) h
      · intro h
        cases h with
        | user hkey h => exact absurd hkey huser
        | logging hkey h => exact absurd hkey hlogging
        | other hkey h => exact ⟨rfl, h⟩

/-- A document is rejected for the first of its entries that is refused. -/
theorem ofDocument_eq_error_iff {doc : Entries} {why : Rejection} :
    ofDocument doc = .error why ↔ FirstRefused RefusesEntry (Entries.sorted doc) why :=
  foldlM_eq_error_iff takeEntry_eq_error_iff

/-! ## Documents in which every number can be read -/

/-- Under a name that settings have stands something that is not wanted there. -/
inductive Misfit (doc : Entries) : Prop
  | user (h : entriesOf userNames (doc.get? "user") = none)
  | logging (h : entriesOf loggingNames (doc.get? "logging") = none)
  | text {es : Entries} {key : String} {v : Value}
      (h : entriesOf userNames (doc.get? "user") = some es) (hkey : key ∈ userNames)
      (hv : es.get? key = some v) (wrong : ∀ s, v ≠ .string s)
  | level {es : Entries} {v : Value} (h : entriesOf loggingNames (doc.get? "logging") = some es)
      (hv : es.get? "level" = some v) (wrong : ∀ s level, v = .string s → Level.named? s ≠ some level)
  | colored {es : Entries} {v : Value} (h : entriesOf loggingNames (doc.get? "logging") = some es)
      (hv : es.get? "colored" = some v) (wrong : ∀ b, v ≠ .boolean b)
  | file {es : Entries} {v : Value} (h : entriesOf loggingNames (doc.get? "logging") = some es)
      (hv : es.get? "file" = some v) (wrong : ∀ s, v ≠ .string s)

/-- A level that does not exist is not wanted. -/
theorem misfit_of_unknown {doc es : Entries} {text : String}
    (hes : entriesOf loggingNames (doc.get? "logging") = some es)
    (hlevel : es.get? "level" = some (.string text)) (hunknown : Level.named? text = none) :
    Misfit doc := by
  refine .level hes hlevel fun s level hs hnamed => ?_
  rw [← Value.string.inj hs, hunknown] at hnamed
  cases hnamed

/-- A document with a misfit says no settings. -/
theorem DocumentSaid.not_misfit {doc : Entries} {s : Settings} (said : DocumentSaid doc s) :
    ¬ Misfit doc := by
  obtain ⟨es, hes, user⟩ := said.user
  obtain ⟨fs, hfs, logging⟩ := said.logging
  have htext : ∀ {set : Option String} {v : Value}, some v = set.map Value.string →
      ∃ s, v = .string s := by
    intro set v h
    obtain ⟨s, -, hs⟩ := Option.map_eq_some_iff.mp h.symm
    exact ⟨s, hs.symm⟩
  intro misfit
  cases misfit with
  | user h =>
      rw [hes] at h
      cases h
  | logging h =>
      rw [hfs] at h
      cases h
  | text h hkey hv wrong =>
      obtain rfl := Option.some.inj (hes.symm.trans h)
      simp only [userNames, List.mem_cons, List.not_mem_nil, or_false] at hkey
      rcases hkey with rfl | rfl
      · obtain ⟨s, hs⟩ := htext (hv.symm.trans user.name)
        exact wrong s hs
      · obtain ⟨s, hs⟩ := htext (hv.symm.trans user.email)
        exact wrong s hs
  | level h hv wrong =>
      obtain rfl := Option.some.inj (hfs.symm.trans h)
      have hlevel := logging.level
      rw [hv] at hlevel
      obtain ⟨s, hs, hnamed⟩ := hlevel
      exact wrong s _ hs hnamed
  | colored h hv wrong =>
      obtain rfl := Option.some.inj (hfs.symm.trans h)
      have hcolored := logging.colored
      rw [hv] at hcolored
      exact wrong _ hcolored
  | file h hv wrong =>
      obtain rfl := Option.some.inj (hfs.symm.trans h)
      obtain ⟨s, hs⟩ := htext (hv.symm.trans logging.file)
      exact wrong s hs

theorem isSound_of_mem {vs : List Value} (h : allSound vs = true) {v : Value} (hv : v ∈ vs) :
    v.isSound = true := by
  induction vs with
  | nil => cases hv
  | cons w vs ih =>
      rw [allSound, Bool.and_eq_true] at h
      rcases List.mem_cons.mp hv with rfl | hv
      · exact h.1
      · exact ih h.2 hv

theorem isSound_of_mem_entries {es : Entries} (h : entriesSound es = true) {e : String × Value}
    (he : e ∈ es) : e.2.isSound = true := by
  induction es with
  | nil => cases he
  | cons x es ih =>
      obtain ⟨key, v⟩ := x
      rw [entriesSound, Bool.and_eq_true] at h
      rcases List.mem_cons.mp he with rfl | he
      · exact h.1
      · exact ih h.2 he

theorem mem_of_firstRefused {refuses : String → Value → Rejection → Prop} {es : Entries}
    {why : Rejection} (h : FirstRefused refuses es why) : ∃ e ∈ es, refuses e.1 e.2 why := by
  obtain ⟨before, e, after, rfl, -, he⟩ := h
  exact ⟨e, by simp, he⟩

/-- What is read under the name of a table are the entries that stand there. -/
theorem perm_of_order {names : List String} {v : Value} {es : Entries}
    (h : inReadingOrder names v = some es) :
    ∃ es', entriesOf names (some v) = some es' ∧ es.Perm es' := by
  cases v with
  | table _ fs =>
      obtain rfl := Option.some.inj h
      exact ⟨fs, rfl, Entries.perm_sorted fs⟩
  | array _ vs =>
      obtain rfl := Option.some.inj h
      exact ⟨_, rfl, List.Perm.refl _⟩
  | datetime _ =>
      obtain rfl := Option.some.inj h
      exact ⟨_, rfl, List.Perm.refl _⟩
  | _ => cases h

theorem nodup_entriesOf {names : List String} (hnames : names.Nodup) {v : Value}
    (hv : v.Distinct) {es : Entries} (h : entriesOf names (some v) = some es) :
    (es.map Prod.fst).Nodup := by
  cases v with
  | table _ fs =>
      obtain rfl := Option.some.inj h
      exact (Value.distinct_table.mp hv).keys
  | array _ vs =>
      obtain rfl := Option.some.inj h
      exact nodup_named names hnames vs
  | datetime _ =>
      obtain rfl := Option.some.inj h
      exact List.nodup_nil
  | _ => cases h

theorem isSound_of_mem_entriesOf {names : List String} {v : Value} (hsound : v.isSound = true)
    {es : Entries} (h : entriesOf names (some v) = some es) {e : String × Value} (he : e ∈ es) :
    e.2.isSound = true := by
  cases v with
  | table _ fs =>
      obtain rfl := Option.some.inj h
      exact isSound_of_mem_entries hsound he
  | array _ vs =>
      obtain rfl := Option.some.inj h
      exact isSound_of_mem hsound (List.of_mem_zip he).2
  | datetime _ =>
      obtain rfl := Option.some.inj h
      cases he
  | _ => cases h

theorem entriesOf_of_order {names : List String} (hnames : names.Nodup) {v : Value}
    (hv : v.Distinct) (hsound : v.isSound = true) {es : Entries}
    (h : inReadingOrder names v = some es) :
    ∃ es', entriesOf names (some v) = some es'
      ∧ ∀ e ∈ es, es'.get? e.1 = some e.2 ∧ e.2.isSound = true := by
  obtain ⟨es', hes', hperm⟩ := perm_of_order h
  refine ⟨es', hes', fun e he => ?_⟩
  have hmem : e ∈ es' := hperm.mem_iff.mp he
  exact ⟨(Entries.get?_eq_some_iff (nodup_entriesOf hnames hv hes')).mpr hmem,
    isSound_of_mem_entriesOf hsound hes' hmem⟩

theorem entriesOf_of_no_order {names : List String} {v : Value}
    (h : inReadingOrder names v = none) : entriesOf names (some v) = none := by
  cases v with
  | table | array | datetime => cases h
  | _ => rfl

/-- Where every number can be read, only a misfit is refused. -/
theorem misfit_of_refused {doc : Entries} (hdoc : doc.Distinct) (hsound : entriesSound doc = true)
    {why : Rejection} (h : FirstRefused RefusesEntry (Entries.sorted doc) why) : Misfit doc := by
  obtain ⟨⟨key, v⟩, he, hrefuses⟩ := mem_of_firstRefused h
  have hmem : (key, v) ∈ doc := (Entries.perm_sorted doc).mem_iff.mp he
  have hget : doc.get? key = some v := (Entries.get?_eq_some_iff hdoc.keys).mpr hmem
  have hdistinct : v.Distinct := hdoc.values _ hmem
  have hnumbers : v.isSound = true := isSound_of_mem_entries hsound hmem
  cases hrefuses with
  | other hkey hunsound =>
      rw [hnumbers] at hunsound
      cases hunsound
  | user hkey h =>
      obtain rfl : key = "user" := hkey
      cases h with
      | shape horder => exact .user (hget ▸ entriesOf_of_no_order horder)
      | entry horder first =>
          obtain ⟨es, hes, hread⟩ := entriesOf_of_order (by decide) hdistinct hnumbers horder
          rw [← hget] at hes
          obtain ⟨e, he, hrefuses⟩ := mem_of_firstRefused first
          obtain ⟨hvalue, hnumber⟩ := hread e he
          cases hrefuses with
          | text hname wrong => exact .text hes hname hvalue wrong
          | other hname hunsound =>
              rw [hnumber] at hunsound
              cases hunsound
  | logging hkey h =>
      obtain rfl : key = "logging" := hkey
      cases h with
      | shape horder => exact .logging (hget ▸ entriesOf_of_no_order horder)
      | entry horder first =>
          obtain ⟨es, hes, hread⟩ := entriesOf_of_order (by decide) hdistinct hnumbers horder
          rw [← hget] at hes
          obtain ⟨e, he, hrefuses⟩ := mem_of_firstRefused first
          obtain ⟨hvalue, hnumber⟩ := hread e he
          cases hrefuses with
          | level hname wrong =>
              exact .level hes (hname ▸ hvalue) fun s _ hs => absurd hs (wrong s)
          | unknown hname htext hunknown =>
              rw [hname, htext] at hvalue
              exact misfit_of_unknown hes hvalue hunknown
          | colored hname wrong => exact .colored hes (hname ▸ hvalue) wrong
          | file hname wrong => exact .file hes (hname ▸ hvalue) wrong
          | other hname hunsound =>
              rw [hnumber] at hunsound
              cases hunsound

theorem exists_rejection_iff {doc : Entries} (hdoc : doc.Distinct)
    (hsound : entriesSound doc = true) : (∃ why, ofDocument doc = .error why) ↔ Misfit doc := by
  constructor
  · rintro ⟨why, h⟩
    exact misfit_of_refused hdoc hsound (ofDocument_eq_error_iff.mp h)
  · intro misfit
    cases hread : ofDocument doc with
    | error why => exact ⟨why, rfl⟩
    | ok s => exact absurd misfit ((ofDocument_eq_ok_iff hdoc).mp hread).not_misfit

/-! ## The file -/

/-- What is wrong with the settings file at a path, and how it is told. -/
inductive FileFault (files : Files) (path : String) : LoadError → Prop
  | directory {entries : List (List Char × Node)} (h : files.look path = .ok (.directory entries)) :
      FileFault files path (.unreadable path .isDirectory)
  | notText {bytes : List UInt8} (h : files.look path = .ok (.file bytes))
      (htext : ∀ text : String, bytes ≠ text.toUTF8.toList) : FileFault files path (.notText path)
  | notDocument {text : String} (h : files.look path = .ok (.file text.toUTF8.toList))
      (hparse : Toml.parse text = none) : FileFault files path (.rejected path .shape)
  | refused {text : String} {doc : Entries} {why : Rejection}
      (h : files.look path = .ok (.file text.toUTF8.toList)) (hparse : Toml.parse text = some doc)
      (first : FirstRefused RefusesEntry (Entries.sorted doc) why) :
      FileFault files path (.rejected path why)

theorem ofText_eq_error_iff {text : String} {why : Rejection} :
    ofText text = .error why ↔ (Toml.parse text = none ∧ why = .shape)
      ∨ ∃ doc, Toml.parse text = some doc ∧ FirstRefused RefusesEntry (Entries.sorted doc) why := by
  rw [ofText]
  cases Toml.parse text with
  | none => simp [eq_comm]
  | some doc => simp [ofDocument_eq_error_iff]

theorem fileFault_of_directory {files : Files} {path : String} {entries : List (List Char × Node)}
    (hlook : files.look path = .ok (.directory entries)) {e : LoadError} :
    FileFault files path e ↔ e = .unreadable path .isDirectory := by
  constructor
  · intro h
    cases h with
    | directory h => rfl
    | notText h | notDocument h | refused h =>
        rw [hlook] at h
        cases h
  · rintro rfl
    exact .directory hlook

theorem fileFault_of_file {files : Files} {path : String} {bytes : List UInt8}
    (hlook : files.look path = .ok (.file bytes)) {e : LoadError} :
    FileFault files path e ↔
      ((∀ text : String, bytes ≠ text.toUTF8.toList) ∧ e = .notText path)
        ∨ ∃ (text : String) (why : Rejection), bytes = text.toUTF8.toList
          ∧ ofText text = .error why ∧ e = .rejected path why := by
  have hbytes : ∀ {bs : List UInt8}, files.look path = .ok (.file bs) → bytes = bs := by
    intro bs h
    rw [hlook] at h
    cases h
    rfl
  constructor
  · intro h
    cases h with
    | directory h =>
        rw [hlook] at h
        cases h
    | notText h htext => exact .inl ⟨hbytes h ▸ htext, rfl⟩
    | notDocument h hparse =>
        exact .inr ⟨_, _, hbytes h, ofText_eq_error_iff.mpr (.inl ⟨hparse, rfl⟩), rfl⟩
    | refused h hparse first =>
        exact .inr ⟨_, _, hbytes h, ofText_eq_error_iff.mpr (.inr ⟨_, hparse, first⟩), rfl⟩
  · rintro (⟨htext, rfl⟩ | ⟨text, why, rfl, htext, rfl⟩)
    · exact .notText hlook htext
    · rcases ofText_eq_error_iff.mp htext with ⟨hparse, rfl⟩ | ⟨doc, hparse, first⟩
      · exact .notDocument hlook hparse
      · exact .refused hlook hparse first

theorem read_eq_ok_iff {files : Files} {path : String} {bytes : List UInt8} :
    files.read path = .ok bytes ↔ files.look path = .ok (.file bytes) := by
  rw [Files.read]
  cases files.look path with
  | error e => simp [bind, Except.bind]
  | ok node =>
      cases node with
      | directory entries => simp [bind, Except.bind]
      | file old => simp [bind, Except.bind]

theorem readFile_eq_error_iff {files : Files} {path : String} {node : Node}
    (hlook : files.look path = .ok node) {e : LoadError} :
    readFile files path = .error e ↔ FileFault files path e := by
  cases node with
  | directory entries =>
      have hread : files.read path = .error .isDirectory := by
        rw [Files.read, hlook]
        rfl
      rw [fileFault_of_directory hlook, readFile, hread]
      simp [eq_comm]
  | file bytes =>
      rw [fileFault_of_file hlook, readFile, read_eq_ok_iff.mpr hlook]
      dsimp only
      cases hdecode : Utf8.decode? bytes with
      | none =>
          have htext : ∀ text : String, bytes ≠ text.toUTF8.toList := by
            intro text heq
            rw [Utf8.decode?_eq_some_iff.mpr heq] at hdecode
            cases hdecode
          constructor
          · intro h
            cases h
            exact .inl ⟨htext, rfl⟩
          · rintro (⟨-, rfl⟩ | ⟨text, why, heq, -⟩)
            · rfl
            · exact absurd heq (htext text)
      | some text =>
          obtain rfl := Utf8.decode?_eq_some_iff.mp hdecode
          dsimp only
          constructor
          · intro h
            cases hread : ofText text with
            | error why =>
                rw [hread] at h
                cases h
                exact .inr ⟨text, why, rfl, hread, rfl⟩
            | ok s =>
                rw [hread] at h
                cases h
          · rintro (⟨htext, -⟩ | ⟨text', why, heq, hread, rfl⟩)
            · exact absurd rfl (htext text)
            · rw [Utf8.toList_toUTF8_inj.mp heq, hread]
              rfl

theorem loadFrom_eq_error_iff {files : Files} {env : Environment} {dir : String} {e : LoadError} :
    (loadFrom files env dir).2 = .error e ↔ FileFault files (filePath dir) e := by
  rw [loadFrom]
  cases hlook : files.look (filePath dir) with
  | error why =>
      have hcontains : files.contains (filePath dir) = false := by
        rw [Files.contains, hlook]
        rfl
      rw [if_neg (by rw [hcontains]; exact Bool.false_ne_true)]
      constructor
      · intro h
        cases h
      · intro h
        cases h with
        | directory h | notText h | notDocument h | refused h =>
            rw [hlook] at h
            cases h
  | ok node =>
      have hcontains : files.contains (filePath dir) = true := by
        rw [Files.contains, hlook]
        rfl
      rw [if_pos hcontains, ← readFile_eq_error_iff hlook]
      dsimp only
      cases readFile files (filePath dir) with
      | error e' => simp [Except.map]
      | ok s => simp [Except.map]

/-- Settings that cannot be loaded have their file to blame: it is a directory, or not text, or the
text is no document, or the first value in the order of reading that cannot be taken is told. The
environment has no part in it. A document in which every number can be read is rejected exactly when
something that is not wanted stands under one of the known names, so nothing under another name is
ever the reason; and a level that does not exist is one, whatever level the environment asks for. -/
theorem loading_fails_for_the_file (files : Files) (dir : String) :
    (∀ env e, (loadFrom files env dir).2 = .error e ↔ FileFault files (filePath dir) e)
    ∧ (∀ env env' e, (loadFrom files env dir).2 = .error e ↔ (loadFrom files env' dir).2 = .error e)
    ∧ (∀ text doc, Toml.parse text = some doc → entriesSound doc = true →
        ((∃ why, ofText text = .error why) ↔ Misfit doc))
    ∧ ∀ env text doc es level,
        files.look (filePath dir) = .ok (.file text.toUTF8.toList) → Toml.parse text = some doc →
        entriesOf loggingNames (doc.get? "logging") = some es →
        es.get? "level" = some (.string level) → Level.named? level = none →
        ∃ why, (loadFrom files env dir).2 = .error (.rejected (filePath dir) why) := by
  refine ⟨fun env e => loadFrom_eq_error_iff, ?_, ?_, ?_⟩
  · intro env env' e
    rw [loadFrom_eq_error_iff, loadFrom_eq_error_iff]
  · intro text doc hparse hsound
    rw [ofText, hparse]
    exact exists_rejection_iff (distinct_parse hparse) hsound
  · intro env text doc es level hlook hparse hes hlevel hunknown
    have misfit : Misfit doc := misfit_of_unknown hes hlevel hunknown
    cases hread : ofDocument doc with
    | ok s => exact absurd misfit ((ofDocument_eq_ok_iff (distinct_parse hparse)).mp hread).not_misfit
    | error why =>
        exact ⟨why, loadFrom_eq_error_iff.mpr
          (.refused hlook hparse (ofDocument_eq_error_iff.mp hread))⟩

/-- A level that does not exist is told although the environment asks for one that does. -/
theorem loading_fails_for_the_file_loud :
    let text := "logging=['loud']"
    let doc : Entries := [("logging", .array false [.string "loud"])]
    let env := Environment.empty.set "IDENT_LOG_LEVEL" (some "info".toUTF8.toList)
    Toml.parse text = some doc ∧ entriesSound doc = true ∧ (∃ why, ofText text = .error why)
      ∧ (loadFrom (filesHolding text) env "/w").2 =
          .error (.rejected (filePath "/w") (.level "loud")) := by
  intro text doc env
  obtain ⟨hload, -, hmisfit, -⟩ := loading_fails_for_the_file (filesHolding text) "/w"
  have hlook : (filesHolding text).look (filePath "/w") = .ok (.file text.toUTF8.toList) :=
    read_eq_ok_iff.mp (eq_ok_of_toOption (by decide +kernel))
  have hparse : Toml.parse text = some doc := by cbv
  have hsound : entriesSound doc = true := by decide
  have hunknown : Level.named? "loud" = none := by decide +kernel
  have hfirst : FirstRefused RefusesEntry (Entries.sorted doc) (.level "loud") := by
    have hlevel : FirstRefused RefusesLogging [("level", .string "loud")] (.level "loud") :=
      firstRefused_cons.mpr (.inl (.unknown rfl rfl hunknown))
    rw [Entries.sorted, List.mergeSort_singleton]
    exact firstRefused_cons.mpr (.inl (.logging rfl (.entry rfl hlevel)))
  have hes : entriesOf loggingNames (doc.get? "logging") = some [("level", .string "loud")] := rfl
  exact ⟨hparse, hsound, (hmisfit text doc hparse hsound).mpr (misfit_of_unknown hes rfl hunknown),
    (hload env _).mpr (.refused hlook hparse hfirst)⟩

end Settings

end IdentityLine
