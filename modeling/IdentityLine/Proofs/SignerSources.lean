import IdentityLine.Proofs.SettingsLayers
import IdentityLine.Proofs.TextBytes

/-!
# Where a signer comes from

A signer's name and address are found at the end of two chains, and no link of one
serves the other. Loading the settings puts the variables of the environment before
the file; asking for the signer puts the overrides of the committer before both and
the user of the system behind them, and that user is the first of two variables that
shows more than white space. This module writes both chains out from their first
link to their last.

Whatever is set counts, an empty text as much as any other: only the variables of
the system's user are looked into. What is found is passed on as it is, so an
identity can be made exactly when both chains have something in them.
-/

namespace IdentityLine

/-! ## The user of the system -/

theorem dropWhile_eq_nil_iff {pad : Char → Bool} {cs : List Char} :
    cs.dropWhile pad = [] ↔ ∀ c ∈ cs, pad c = true := by
  induction cs with
  | nil => simp
  | cons c cs ih =>
      rw [List.dropWhile_cons, List.forall_mem_cons]
      split
      · next hc => rw [ih, and_iff_right hc]
      · next hc => exact ⟨nofun, fun hall => absurd hall.1 hc⟩

theorem trim_eq_nil_iff {pad : Char → Bool} {cs : List Char} :
    Text.trim pad cs = [] ↔ ∀ c ∈ cs, pad c = true := by
  rw [Text.trim, List.reverse_eq_nil_iff, dropWhile_eq_nil_iff]
  cases hrest : cs.dropWhile pad with
  | nil =>
      rw [dropWhile_eq_nil_iff] at hrest
      exact ⟨fun _ => hrest, fun _ _ hc => absurd hc List.not_mem_nil⟩
  | cons d ds =>
      -- What is left begins with no padding, so it is not all padding from behind either.
      have hd : pad d = false := by
        have hhead := List.head?_dropWhile_not pad cs
        rwa [hrest] at hhead
      constructor
      · intro hall
        rw [hall d (List.mem_reverse.mpr List.mem_cons_self)] at hd
        cases hd
      · intro hall
        rw [dropWhile_eq_nil_iff.mpr hall] at hrest
        cases hrest

/-- Whether a text has a character that is not white space. -/
def showsSomething (text : String) : Bool :=
  text.toList.any fun c => !Text.isBlank c

theorem isAllBlank_eq (text : String) : Text.isAllBlank text = !showsSomething text := by
  rw [Bool.eq_iff_iff, Text.isAllBlank, List.isEmpty_iff, trim_eq_nil_iff, showsSomething,
    Bool.not_eq_true', List.any_eq_false]
  simp

/-! ## The first value that is present -/

/-- The first value that is present. -/
def firstPresent (values : List (Option String)) : Option String :=
  values.findSome? id

theorem firstPresent_cons (value : Option String) (values : List (Option String)) :
    firstPresent (value :: values) = value.or (firstPresent values) := by
  cases value with
  | none => rfl
  | some text => rfl

theorem firstPresent_nil : firstPresent [] = none := rfl

/-- Looking for a value among those that are present is looking for the first that is present once
the others are left out. -/
theorem find?_filterMap (get : String → Option String) (p : String → Bool) (names : List String) :
    (names.filterMap get).find? p = firstPresent (names.map fun name => (get name).filter p) := by
  induction names with
  | nil => rfl
  | cons name names ih =>
      rw [List.map_cons, firstPresent_cons, ← ih]
      cases hvalue : get name with
      | none => rw [List.filterMap_cons_none hvalue, Option.filter_none, Option.none_or]
      | some value =>
          rw [List.filterMap_cons_some hvalue, Option.filter_some]
          by_cases hp : p value = true
          · rw [List.find?_cons_of_pos hp, if_pos hp, Option.some_or]
          · rw [List.find?_cons_of_neg hp, if_neg hp, Option.none_or]

theorem user?_eq (env : Environment) :
    env.user? = firstPresent [(env.get? "USER").filter showsSomething,
      (env.get? "USERNAME").filter showsSomething] := by
  have hshows : (fun name => !Text.isAllBlank name) = showsSomething := by
    funext name
    rw [isAllBlank_eq, Bool.not_not]
  rw [Environment.user?, hshows, find?_filterMap]
  rfl

/-! ## The chains -/

section Chains

variable (filed : Settings) (env : Environment) (host : HostReply)

theorem name_signer
    (hcommitter : filed.user.committerName = none) :
    ((filed.override env).user.signer env host).name =
      firstPresent [env.get? "GIT_COMMITTER_NAME", env.get? "IDENT_USER_NAME", filed.user.name,
        (env.get? "USER").filter showsSomething, (env.get? "USERNAME").filter showsSomething] := by
  dsimp only [UserSettings.signer, Settings.override, systemSigner]
  rw [hcommitter, user?_eq]
  simp only [Settings.orElse_eq_or, firstPresent_cons, Option.or_none, Option.or_assoc]

theorem email_signer
    (hcommitter : filed.user.committerEmail = none) :
    ((filed.override env).user.signer env host).email =
      firstPresent [env.get? "GIT_COMMITTER_EMAIL", env.get? "IDENT_USER_EMAIL", filed.user.email,
        (firstPresent [(env.get? "USER").filter showsSomething,
          (env.get? "USERNAME").filter showsSomething]).map fun user =>
            user ++ "@" ++ host.name] := by
  dsimp only [UserSettings.signer, Settings.override, systemSigner]
  rw [hcommitter, user?_eq]
  simp only [Settings.orElse_eq_or, firstPresent_cons, firstPresent_nil, Option.or_none,
    Option.or_assoc]

end Chains

/-! ## Making an identity -/

theorem ofOptions_eq_name_iff {signer : Signer} {millis : Int64} {offset : Offset} :
    Identity.ofOptions signer millis offset = .error .name ↔ signer.name = none := by
  unfold Identity.ofOptions
  split
  · next hname => exact ⟨fun _ => hname, fun _ => rfl⟩
  · next hname _ => exact ⟨nofun, fun hnone => absurd (hname.symm.trans hnone) nofun⟩
  · next hname _ => exact ⟨nofun, fun hnone => absurd (hname.symm.trans hnone) nofun⟩

theorem ofOptions_eq_error_iff {signer : Signer} {millis : Int64} {offset : Offset} :
    (∃ e, Identity.ofOptions signer millis offset = .error e) ↔
      signer.name = none ∨ signer.email = none := by
  unfold Identity.ofOptions
  split
  · next hname => exact ⟨fun _ => Or.inl hname, fun _ => ⟨_, rfl⟩⟩
  · next hemail => exact ⟨fun _ => Or.inr hemail, fun _ => ⟨_, rfl⟩⟩
  · next hname hemail =>
      rw [hname, hemail]
      constructor
      · rintro ⟨e, he⟩
        cases he
      · rintro (hnone | hnone)
        all_goals cases hnone

theorem of_ofOptions_eq_ok {signer : Signer} {millis : Int64} {offset : Offset} {i : Identity}
    (h : Identity.ofOptions signer millis offset = .ok i) :
    signer.name = some i.name ∧ signer.email = some i.email := by
  unfold Identity.ofOptions at h
  split at h
  · cases h
  · cases h
  · next hname hemail =>
      cases h
      exact ⟨hname, hemail⟩

/-- The signer of settings that are loaded has the name and the address that come first in two
chains of sources: the overrides, the settings of the environment, those of the file, and the user
of the system. A variable counts when its bytes are those of a text, even of an empty one, and the
text is passed on as it is. From the signer an identity is made with that name and that address,
unless one of them is missing; if both are, it is the name that is told. -/
theorem signer_sources {files : Files} {env : Environment} {dir : String} {s : Settings}
    (host : HostReply) (h : (Settings.loadFrom files env dir).2 = .ok s) :
    (∀ name text, env.get? name = some text ↔ env.bytes name = some text.toUTF8.toList)
    ∧ (∃ doc filed, Settings.document? files dir = some doc ∧ Settings.DocumentSaid doc filed
      ∧ (s.user.signer env host).name = firstPresent [env.get? "GIT_COMMITTER_NAME",
          env.get? "IDENT_USER_NAME", filed.user.name,
          (env.get? "USER").filter showsSomething, (env.get? "USERNAME").filter showsSomething]
      ∧ (s.user.signer env host).email = firstPresent [env.get? "GIT_COMMITTER_EMAIL",
          env.get? "IDENT_USER_EMAIL", filed.user.email,
          (firstPresent [(env.get? "USER").filter showsSomething,
            (env.get? "USERNAME").filter showsSomething]).map fun user => user ++ "@" ++ host.name])
    ∧ ∀ (zone : Zone) (clock : Clock),
      let signer := s.user.signer env host
      let made := ((Identity.ofSigner signer zone).run clock).1
      ((∃ e, made = .error e) ↔ signer.name = none ∨ signer.email = none)
      ∧ (made = .error .name ↔ signer.name = none)
      ∧ ∀ i, made = .ok i → signer.name = some i.name ∧ signer.email = some i.email := by
  obtain ⟨doc, filed, hdoc, said, rfl⟩ := Settings.loadFrom_eq_ok_iff.mp h
  obtain ⟨es, -, user⟩ := said.user
  refine ⟨fun name text => Environment.get?_eq_some_iff, ⟨doc, filed, hdoc, said,
    name_signer filed env host user.committerName,
    email_signer filed env host user.committerEmail⟩, ?_⟩
  intro zone clock
  exact ⟨ofOptions_eq_error_iff, ofOptions_eq_name_iff, fun i => of_ofOptions_eq_ok⟩

/-- An override that is set and empty comes before the name in the file, and the user of the system
is not taken from a variable that holds a blank. -/
theorem signer_sources_empty_override :
    let files := Settings.filesHolding "[user]\nname = \"Ann\"\n"
    let env := ((Environment.empty.set "GIT_COMMITTER_NAME" (some [])).set "USER" (some [32])).set
      "USERNAME" (some "bo".toUTF8.toList)
    let user : UserSettings := { name := some "Ann", committerName := some "" }
    let signer := user.signer env (.ofName 0 "box".toUTF8.toList)
    (Settings.loadFrom files env "/w").2 = .ok { user }
      ∧ signer = { name := some "", email := some "bo@box" }
      ∧ ∃ i, ((Identity.ofSigner signer .utc).run (.stopped 0)).1 = .ok i
        ∧ signer.name = some i.name ∧ signer.email = some i.email := by
  intro files env user signer
  have hload : (Settings.loadFrom files env "/w").2 = .ok { user } :=
    Settings.eq_ok_of_toOption (by decide +kernel)
  have hsigner : signer = { name := some "", email := some "bo@box" } := by decide +kernel
  obtain ⟨-, -, hmade⟩ := signer_sources (.ofName 0 "box".toUTF8.toList) hload
  obtain ⟨hfails, -, hmakes⟩ := hmade .utc (.stopped 0)
  cases hrun : ((Identity.ofSigner signer .utc).run (.stopped 0)).1 with
  | error e =>
      have hmissing : signer.name = none ∨ signer.email = none := hfails.mp ⟨e, hrun⟩
      rw [hsigner] at hmissing
      rcases hmissing with hmissing | hmissing
      all_goals cases hmissing
  | ok i => exact ⟨hload, hsigner, i, rfl, hmakes i hrun⟩

end IdentityLine
