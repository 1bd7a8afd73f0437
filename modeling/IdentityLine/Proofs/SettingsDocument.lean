import IdentityLine.Proofs.TakingEntries

/-!
# What a document says about settings

What settings a document holds is decided by what stands under each name that
settings have. `DocumentSaid` says so without an order, for the document and for the
two tables in it, however they are written; what stands under other names only has
to be readable. The main statement is that a document is read as some settings
exactly when it says them.

The way there is the same at both depths: what entries say is one thing, what is
read off them is what they say, and entries that say something can all be taken.
-/

namespace IdentityLine

open Toml

namespace Settings

/-! ## What the entries of a table say -/

/-- What entries say about the user. -/
structure UserSaid (es : Entries) (u : UserSettings) : Prop where
  name : es.get? "name" = u.name.map Value.string
  email : es.get? "email" = u.email.map Value.string
  committerName : u.committerName = none
  committerEmail : u.committerEmail = none
  /-- What stands under other names could be read. -/
  others : ∀ e ∈ es, e.1 ∉ userNames → e.2.isSound = true

/-- What entries say about logging. -/
structure LoggingSaid (es : Entries) (l : LogSettings) : Prop where
  level : match es.get? "level" with
    | none => l.level = .warn
    | some v => ∃ s, v = .string s ∧ Level.named? s = some l.level
  colored : match es.get? "colored" with
    | none => l.colored = true
    | some v => v = .boolean l.colored
  file : es.get? "file" = l.file.map Value.string
  /-- What stands under other names could be read. -/
  others : ∀ e ∈ es, e.1 ∉ loggingNames → e.2.isSound = true

theorem map_string_inj {a b : Option String} :
    a.map Value.string = b.map Value.string ↔ a = b :=
  Option.map_inj_right fun _ _ h => Value.string.inj h

/-- Entries say one thing about the user. -/
theorem UserSaid.unique {es : Entries} {u u' : UserSettings} (h : UserSaid es u)
    (h' : UserSaid es u') : u = u' := by
  have hname := map_string_inj.mp (h.name.symm.trans h'.name)
  have hemail := map_string_inj.mp (h.email.symm.trans h'.email)
  have hcommitterName := h.committerName.trans h'.committerName.symm
  have hcommitterEmail := h.committerEmail.trans h'.committerEmail.symm
  cases u
  cases u'
  rw [UserSettings.mk.injEq]
  exact ⟨hname, hemail, hcommitterName, hcommitterEmail⟩

/-- Entries say one thing about logging. -/
theorem LoggingSaid.unique {es : Entries} {l l' : LogSettings} (h : LoggingSaid es l)
    (h' : LoggingSaid es l') : l = l' := by
  have hlevel : l.level = l'.level := by
    have hl := h.level
    have hl' := h'.level
    split at hl
    · next hkey =>
        rw [hkey] at hl'
        exact hl.trans hl'.symm
    · next hkey =>
        rw [hkey] at hl'
        obtain ⟨s, rfl, hs⟩ := hl
        obtain ⟨s', heq, hs'⟩ := hl'
        cases heq
        exact Option.some.inj (hs.symm.trans hs')
  have hcolored : l.colored = l'.colored := by
    have hl := h.colored
    have hl' := h'.colored
    split at hl
    · next hkey =>
        rw [hkey] at hl'
        exact hl.trans hl'.symm
    · next hkey =>
        rw [hkey] at hl'
        exact Value.boolean.inj (hl.symm.trans hl')
  have hfile := map_string_inj.mp (h.file.symm.trans h'.file)
  cases l
  cases l'
  rw [LogSettings.mk.injEq]
  exact ⟨hlevel, hcolored, hfile⟩

theorem userSaid_of_foldlM {es : Entries} (hes : (es.map Prod.fst).Nodup) {u : UserSettings}
    (h : es.foldlM takeUser {} = .ok u) : UserSaid es u where
  name := foldlM_text (fun _ _ _ hkey htake => (takeUser_eq_ok_iff.mp htake).frame.1 hkey)
    (fun _ _ _ hkey htake => (takeUser_eq_ok_iff.mp htake).sets.1 hkey) hes rfl h
  email := foldlM_text (fun _ _ _ hkey htake => (takeUser_eq_ok_iff.mp htake).frame.2.1 hkey)
    (fun _ _ _ hkey htake => (takeUser_eq_ok_iff.mp htake).sets.2.1 hkey) hes rfl h
  committerName := foldlM_keeps
    (fun _ _ _ _ htake => (takeUser_eq_ok_iff.mp htake).frame.2.2.1) h
  committerEmail := foldlM_keeps
    (fun _ _ _ _ htake => (takeUser_eq_ok_iff.mp htake).frame.2.2.2) h
  others e he hkey := by
    obtain ⟨u, u', htake⟩ := (exists_foldlM_iff anywhere_takeUser).mp ⟨_, h⟩ e he
    exact (takeUser_eq_ok_iff.mp htake).sets.2.2 hkey

theorem loggingSaid_of_foldlM {es : Entries} (hes : (es.map Prod.fst).Nodup) {l : LogSettings}
    (h : es.foldlM takeLogging {} = .ok l) : LoggingSaid es l where
  level := by
    have frame : ∀ l l' e, e.1 ≠ "level" → takeLogging l e = .ok l' → l'.level = l.level :=
      fun _ _ _ hkey htake => (takeLogging_eq_ok_iff.mp htake).frame.1 hkey
    cases hkey : es.get? "level" with
    | none => exact foldlM_of_none frame hkey h
    | some v =>
        obtain ⟨l₁, l₂, htake, heq⟩ := foldlM_of_some frame hes hkey h
        rw [heq]
        exact (takeLogging_eq_ok_iff.mp htake).sets.1 rfl
  colored := by
    have frame : ∀ l l' e, e.1 ≠ "colored" → takeLogging l e = .ok l' → l'.colored = l.colored :=
      fun _ _ _ hkey htake => (takeLogging_eq_ok_iff.mp htake).frame.2.1 hkey
    cases hkey : es.get? "colored" with
    | none => exact foldlM_of_none frame hkey h
    | some v =>
        obtain ⟨l₁, l₂, htake, heq⟩ := foldlM_of_some frame hes hkey h
        rw [heq]
        exact (takeLogging_eq_ok_iff.mp htake).sets.2.1 rfl
  file := foldlM_text (fun _ _ _ hkey htake => (takeLogging_eq_ok_iff.mp htake).frame.2.2 hkey)
    (fun _ _ _ hkey htake => (takeLogging_eq_ok_iff.mp htake).sets.2.2.1 hkey) hes rfl h
  others e he hkey := by
    obtain ⟨l, l', htake⟩ := (exists_foldlM_iff anywhere_takeLogging).mp ⟨_, h⟩ e he
    exact (takeLogging_eq_ok_iff.mp htake).sets.2.2.2 hkey

theorem foldlM_takeUser_eq_ok_iff {es : Entries} (hes : (es.map Prod.fst).Nodup)
    {u : UserSettings} : es.foldlM takeUser {} = .ok u ↔ UserSaid es u := by
  refine foldlM_eq_ok_iff anywhere_takeUser (userSaid_of_foldlM hes) UserSaid.unique ?_
  intro u said ⟨key, v⟩ he
  have hget := (Entries.get?_eq_some_iff hes).mpr he
  by_cases hname : key = "name"
  · subst hname
    obtain ⟨s, -, rfl⟩ := Option.map_eq_some_iff.mp (said.name.symm.trans hget)
    exact ⟨{}, _, takeUser_eq_ok_iff.mpr (.name s)⟩
  · by_cases hemail : key = "email"
    · subst hemail
      obtain ⟨s, -, rfl⟩ := Option.map_eq_some_iff.mp (said.email.symm.trans hget)
      exact ⟨{}, _, takeUser_eq_ok_iff.mpr (.email s)⟩
    · have hother := not_mem_userNames.mpr ⟨hname, hemail⟩
      exact ⟨{}, {}, takeUser_eq_ok_iff.mpr (.other hother (said.others _ he hother))⟩

theorem foldlM_takeLogging_eq_ok_iff {es : Entries} (hes : (es.map Prod.fst).Nodup)
    {l : LogSettings} : es.foldlM takeLogging {} = .ok l ↔ LoggingSaid es l := by
  refine foldlM_eq_ok_iff anywhere_takeLogging (loggingSaid_of_foldlM hes) LoggingSaid.unique ?_
  intro l said ⟨key, v⟩ he
  have hget := (Entries.get?_eq_some_iff hes).mpr he
  by_cases hlevel : key = "level"
  · subst hlevel
    have hsaid := said.level
    rw [hget] at hsaid
    obtain ⟨s, rfl, hs⟩ := hsaid
    exact ⟨{}, _, takeLogging_eq_ok_iff.mpr (.level hs)⟩
  · by_cases hcolored : key = "colored"
    · subst hcolored
      have hsaid := said.colored
      rw [hget] at hsaid
      cases hsaid
      exact ⟨{}, _, takeLogging_eq_ok_iff.mpr (.colored l.colored)⟩
    · by_cases hfile : key = "file"
      · subst hfile
        obtain ⟨s, -, rfl⟩ := Option.map_eq_some_iff.mp (said.file.symm.trans hget)
        exact ⟨{}, _, takeLogging_eq_ok_iff.mpr (.file s)⟩
      · have hother := not_mem_loggingNames.mpr ⟨hlevel, hcolored, hfile⟩
        exact ⟨{}, {}, takeLogging_eq_ok_iff.mpr (.other hother (said.others _ he hother))⟩

/-! ## What a document says -/

/-- The named entries of what stands under the name of a table. Nothing there counts as a table
without entries, and so does a date or a time; an array's elements are named in order. -/
def entriesOf (names : List String) : Option Value → Option Entries
  | none => some []
  | some (.table _ es) => some es
  | some (.array _ vs) => some (named names vs)
  | some (.datetime _) => some []
  | some _ => none

/-- What a document says about settings. -/
structure DocumentSaid (doc : Entries) (s : Settings) : Prop where
  user : ∃ es, entriesOf userNames (doc.get? "user") = some es ∧ UserSaid es s.user
  logging : ∃ es, entriesOf loggingNames (doc.get? "logging") = some es ∧ LoggingSaid es s.logging
  /-- What stands under other names could be read. -/
  others : ∀ e ∈ doc, e.1 ∉ tableNames → e.2.isSound = true

/-- The second entries say of some names what the first ones say, and what they say beyond that can
be read. Order does not come into it, and neither does what the first ones say beyond the names. -/
structure SaysAgain (names : List String) (es es' : Entries) : Prop where
  named : ∀ key ∈ names, es'.get? key = es.get? key
  others : ∀ e ∈ es', e.1 ∉ names → e.2.isSound = true

theorem UserSaid.again {es es' : Entries} {u : UserSettings} (h : UserSaid es u)
    (again : SaysAgain userNames es es') : UserSaid es' u where
  name := (again.named _ (by decide)).trans h.name
  email := (again.named _ (by decide)).trans h.email
  committerName := h.committerName
  committerEmail := h.committerEmail
  others := again.others

theorem LoggingSaid.again {es es' : Entries} {l : LogSettings} (h : LoggingSaid es l)
    (again : SaysAgain loggingNames es es') : LoggingSaid es' l where
  level := by
    rw [again.named "level" (by decide)]
    exact h.level
  colored := by
    rw [again.named "colored" (by decide)]
    exact h.colored
  file := (again.named _ (by decide)).trans h.file
  others := again.others

/-- Putting entries into another order says the same again. -/
theorem SaysAgain.of_perm {names : List String} {es es' : Entries}
    (hes : (es.map Prod.fst).Nodup) (hperm : es'.Perm es)
    (others : ∀ e ∈ es, e.1 ∉ names → e.2.isSound = true) : SaysAgain names es es' where
  named key _ := Entries.get?_perm hes hperm key
  others e he := others e (hperm.mem_iff.mp he)

/-- The second document says of every setting what the first one says, and what it says beyond that
can be read. -/
structure DocumentAgain (doc doc' : Entries) : Prop where
  user : ∃ es es', entriesOf userNames (doc.get? "user") = some es
    ∧ entriesOf userNames (doc'.get? "user") = some es' ∧ SaysAgain userNames es es'
  logging : ∃ es es', entriesOf loggingNames (doc.get? "logging") = some es
    ∧ entriesOf loggingNames (doc'.get? "logging") = some es' ∧ SaysAgain loggingNames es es'
  others : ∀ e ∈ doc', e.1 ∉ tableNames → e.2.isSound = true

theorem DocumentSaid.again {doc doc' : Entries} {s : Settings} (h : DocumentSaid doc s)
    (again : DocumentAgain doc doc') : DocumentSaid doc' s where
  user := by
    obtain ⟨es, hes, said⟩ := h.user
    obtain ⟨_, es', hes₁, hes', hagain⟩ := again.user
    obtain rfl := Option.some.inj (hes.symm.trans hes₁)
    exact ⟨es', hes', said.again hagain⟩
  logging := by
    obtain ⟨es, hes, said⟩ := h.logging
    obtain ⟨_, es', hes₁, hes', hagain⟩ := again.logging
    obtain rfl := Option.some.inj (hes.symm.trans hes₁)
    exact ⟨es', hes', said.again hagain⟩
  others := again.others

/-- A document whose tables are put into another order says the same again. -/
theorem DocumentSaid.of_perm {doc doc' : Entries} {s : Settings} (h : DocumentSaid doc s)
    (hdoc : (doc.map Prod.fst).Nodup) (hperm : doc'.Perm doc) : DocumentSaid doc' s := by
  have hget := Entries.get?_perm hdoc hperm
  obtain ⟨es, hes, user⟩ := h.user
  obtain ⟨fs, hfs, logging⟩ := h.logging
  refine h.again ⟨⟨es, es, hes, ?_, fun _ _ => rfl, user.others⟩,
    ⟨fs, fs, hfs, ?_, fun _ _ => rfl, logging.others⟩,
    fun e he => h.others e (hperm.mem_iff.mp he)⟩
  · rw [hget, hes]
  · rw [hget, hfs]

theorem nodup_named (names : List String) (hnames : names.Nodup) (vs : List Value) :
    ((named names vs).map Prod.fst).Nodup := by
  have hsub : ∀ (names : List String) (vs : List Value),
      ((named names vs).map Prod.fst).Sublist names := by
    intro names
    induction names with
    | nil => exact fun _ => List.nil_sublist _
    | cons name names ih =>
        intro vs
        cases vs with
        | nil => exact List.nil_sublist _
        | cons v vs => exact (ih vs).cons_cons name
  exact (hsub names vs).nodup hnames

theorem UserSaid.of_perm {es es' : Entries} {u : UserSettings} (h : UserSaid es u)
    (hes : (es.map Prod.fst).Nodup) (hperm : es'.Perm es) : UserSaid es' u :=
  h.again (.of_perm hes hperm h.others)

theorem LoggingSaid.of_perm {es es' : Entries} {l : LogSettings} (h : LoggingSaid es l)
    (hes : (es.map Prod.fst).Nodup) (hperm : es'.Perm es) : LoggingSaid es' l :=
  h.again (.of_perm hes hperm h.others)

/-! ## Reading a table, however it is written -/

section Reading

variable {σ : Type} {take : σ → String × Value → Except Rejection σ} {held : σ}
  {names : List String} {Said : Entries → σ → Prop}

/-- Read what stands under the name of a table. Both readers of tables do this. -/
def readWith (take : σ → String × Value → Except Rejection σ) (held : σ) (names : List String) :
    Value → Except Rejection σ
  | .table _ es => (Entries.sorted es).foldlM take held
  | .array _ vs => (named names vs).foldlM take held
  | .datetime _ => .ok held
  | _ => .error .shape

theorem readUser_eq (v : Value) : readUser v = readWith takeUser {} userNames v := by
  cases v <;> rfl

theorem readLogging_eq (v : Value) : readLogging v = readWith takeLogging {} loggingNames v := by
  cases v <;> rfl

/-- A table is read as what its entries say; nothing under its name is a table without entries. -/
theorem readWith_eq_ok_iff
    (fold : ∀ {es : Entries}, (es.map Prod.fst).Nodup →
      ∀ {s}, es.foldlM take held = .ok s ↔ Said es s)
    (perm : ∀ {es es' : Entries} {s}, Said es s → (es.map Prod.fst).Nodup → es'.Perm es →
      Said es' s)
    (hnames : names.Nodup) {v : Option Value} (hv : ∀ w, v = some w → w.Distinct) {s : σ} :
    v.elim (s = held) (fun w => readWith take held names w = .ok s) ↔
      ∃ es, entriesOf names v = some es ∧ Said es s := by
  have hentries : ∀ {p : Prop} (es : Entries), entriesOf names v = some es →
      (p ↔ Said es s) → (p ↔ ∃ es, entriesOf names v = some es ∧ Said es s) := by
    intro p es hes hiff
    rw [hiff, hes]
    simp only [Option.some.injEq, exists_eq_left']
  have hnil : ([] : Entries).foldlM take held = .ok s ↔ Said [] s := fold Entries.distinct_nil.keys
  match v with
  | none => exact hentries [] rfl ⟨fun h => hnil.mp (congrArg _ h.symm),
      fun said => (Except.ok.inj (hnil.mpr said)).symm⟩
  | some (.table _ es) =>
      have hes := (Value.distinct_table.mp (hv _ rfl)).keys
      -- Entries are taken in the order of their keys, which says of them what any order does.
      have hsorted := Entries.nodup_sorted hes
      have hperm := Entries.perm_sorted es
      exact hentries es rfl ((fold hsorted).trans
        ⟨fun said => perm said hsorted hperm.symm, fun said => perm said hes hperm⟩)
  | some (.array _ vs) => exact hentries _ rfl (fold (nodup_named names hnames vs))
  | some (.datetime _) => exact hentries [] rfl hnil
  | some (.string _) | some (.integer _) | some .misspelt | some (.float _) | some (.boolean _) =>
      exact ⟨nofun, nofun⟩

end Reading

theorem readUser_eq_ok_iff {v : Option Value} (hv : ∀ w, v = some w → w.Distinct)
    {u : UserSettings} :
    v.elim (u = {}) (fun w => readUser w = .ok u) ↔
      ∃ es, entriesOf userNames v = some es ∧ UserSaid es u := by
  simp only [readUser_eq]
  exact readWith_eq_ok_iff foldlM_takeUser_eq_ok_iff UserSaid.of_perm (by decide) hv

theorem readLogging_eq_ok_iff {v : Option Value} (hv : ∀ w, v = some w → w.Distinct)
    {l : LogSettings} :
    v.elim (l = {}) (fun w => readLogging w = .ok l) ↔
      ∃ es, entriesOf loggingNames v = some es ∧ LoggingSaid es l := by
  simp only [readLogging_eq]
  exact readWith_eq_ok_iff foldlM_takeLogging_eq_ok_iff LoggingSaid.of_perm (by decide) hv

/-! ## Reading a document -/

theorem documentSaid_of_foldlM {es : Entries} (hes : es.Distinct) {s : Settings}
    (h : es.foldlM takeEntry {} = .ok s) : DocumentSaid es s where
  user := by
    have frame : ∀ s s' e, e.1 ≠ "user" → takeEntry s e = .ok s' → s'.user = s.user :=
      fun _ _ _ hkey htake => (takeEntry_eq_ok_iff.mp htake).frame.1 hkey
    refine (readUser_eq_ok_iff (Entries.distinct_get? hes "user")).mp ?_
    cases hkey : es.get? "user" with
    | none => exact foldlM_of_none frame hkey h
    | some v =>
        obtain ⟨s₁, s₂, htake, heq⟩ := foldlM_of_some frame hes.keys hkey h
        rw [heq]
        exact (takeEntry_eq_ok_iff.mp htake).sets.1 rfl
  logging := by
    have frame : ∀ s s' e, e.1 ≠ "logging" → takeEntry s e = .ok s' → s'.logging = s.logging :=
      fun _ _ _ hkey htake => (takeEntry_eq_ok_iff.mp htake).frame.2 hkey
    refine (readLogging_eq_ok_iff (Entries.distinct_get? hes "logging")).mp ?_
    cases hkey : es.get? "logging" with
    | none => exact foldlM_of_none frame hkey h
    | some v =>
        obtain ⟨s₁, s₂, htake, heq⟩ := foldlM_of_some frame hes.keys hkey h
        rw [heq]
        exact (takeEntry_eq_ok_iff.mp htake).sets.2.1 rfl
  others e he hkey := by
    obtain ⟨s, s', htake⟩ := (exists_foldlM_iff anywhere_takeEntry).mp ⟨_, h⟩ e he
    exact (takeEntry_eq_ok_iff.mp htake).sets.2.2 hkey

/-- A document says one thing about settings. -/
theorem DocumentSaid.unique {doc : Entries} {s s' : Settings} (h : DocumentSaid doc s)
    (h' : DocumentSaid doc s') : s = s' := by
  obtain ⟨es, hes, huser⟩ := h.user
  obtain ⟨es', hes', huser'⟩ := h'.user
  obtain ⟨fs, hfs, hlogging⟩ := h.logging
  obtain ⟨fs', hfs', hlogging'⟩ := h'.logging
  obtain rfl := Option.some.inj (hes.symm.trans hes')
  obtain rfl := Option.some.inj (hfs.symm.trans hfs')
  cases s
  cases s'
  rw [Settings.mk.injEq]
  exact ⟨huser.unique huser', hlogging.unique hlogging'⟩

theorem foldlM_takeEntry_eq_ok_iff {es : Entries} (hes : es.Distinct) {s : Settings} :
    es.foldlM takeEntry {} = .ok s ↔ DocumentSaid es s := by
  refine foldlM_eq_ok_iff anywhere_takeEntry (documentSaid_of_foldlM hes) DocumentSaid.unique ?_
  intro s said ⟨key, v⟩ he
  have hget := (Entries.get?_eq_some_iff hes.keys).mpr he
  by_cases huser : key = "user"
  · subst huser
    have hread := (readUser_eq_ok_iff (Entries.distinct_get? hes "user")).mpr said.user
    rw [hget] at hread
    exact ⟨{}, _, takeEntry_eq_ok_iff.mpr (.user hread)⟩
  · by_cases hlogging : key = "logging"
    · subst hlogging
      have hread := (readLogging_eq_ok_iff (Entries.distinct_get? hes "logging")).mpr said.logging
      rw [hget] at hread
      exact ⟨{}, _, takeEntry_eq_ok_iff.mpr (.logging hread)⟩
    · have hother := not_mem_tableNames.mpr ⟨huser, hlogging⟩
      exact ⟨{}, {}, takeEntry_eq_ok_iff.mpr (.other hother (said.others _ he hother))⟩

/-- A document is read as some settings exactly when it says them, whatever order its entries and
those of its tables have. -/
theorem ofDocument_eq_ok_iff {doc : Entries} (hdoc : doc.Distinct) {s : Settings} :
    ofDocument doc = .ok s ↔ DocumentSaid doc s := by
  have hperm := Entries.perm_sorted doc
  rw [ofDocument, foldlM_takeEntry_eq_ok_iff (hdoc.of_perm hperm)]
  exact ⟨fun said => said.of_perm (Entries.nodup_sorted hdoc.keys) hperm.symm,
    fun said => said.of_perm hdoc.keys hperm⟩

end Settings

end IdentityLine
