import IdentityLine.Proofs.DistinctKeys
import IdentityLine.Proofs.Reading
import IdentityLine.Settings.File

/-!
# Entries are taken one by one

Settings are read from a document entry by entry, in the order of the keys, each
entry changing what is held so far. This module frees what comes out of that order.

Two facts about taking entries carry this. A part of what is held that one key
alone changes ends up as the entry under that key leaves it, for a document is a map
and there is no second one. And whether an entry can be taken does not depend on
what is held, so the order in which entries come cannot keep one of them out. Each
reader then only has to say, once, what its step does: which entries it takes, what
they change, and what they leave alone.
-/

namespace IdentityLine

open Toml

namespace Settings

/-! ## Taking entries one after another -/

section Taking

variable {σ β ε : Type} {take : σ → String × Value → Except ε σ} {get : σ → β} {key : String}

theorem foldlM_cons_eq_ok_iff {s s' : σ} {e : String × Value} {es : Entries} :
    (e :: es).foldlM take s = .ok s' ↔
      ∃ s₁, take s e = .ok s₁ ∧ es.foldlM take s₁ = .ok s' := by
  rw [List.foldlM_cons, bind_eq_ok_iff]

/-- What no entry changes is as it was. -/
theorem foldlM_keeps {es : Entries} (keep : ∀ e ∈ es, ∀ s s', take s e = .ok s' → get s' = get s)
    {s s' : σ} (h : es.foldlM take s = .ok s') : get s' = get s := by
  induction es generalizing s with
  | nil =>
      cases h
      rfl
  | cons e es ih =>
      obtain ⟨s₁, htake, hrest⟩ := foldlM_cons_eq_ok_iff.mp h
      obtain ⟨hkeep, hkeeps⟩ := List.forall_mem_cons.mp keep
      exact (ih hkeeps hrest).trans (hkeep s s₁ htake)

section Frame

variable (frame : ∀ s s' e, e.1 ≠ key → take s e = .ok s' → get s' = get s)
include frame

theorem foldlM_of_not_mem {es : Entries} {s s' : σ} (hkey : key ∉ es.map Prod.fst)
    (h : es.foldlM take s = .ok s') : get s' = get s := by
  refine foldlM_keeps (fun e he s s' htake => frame s s' e ?_ htake) h
  rintro rfl
  exact hkey (List.mem_map_of_mem he)

/-- What one entry alone changes is as that one leaves it. -/
theorem foldlM_of_mem {es : Entries} (hes : (es.map Prod.fst).Nodup) {v : Value}
    (hmem : (key, v) ∈ es) {s s' : σ} (h : es.foldlM take s = .ok s') :
    ∃ s₁ s₂, take s₁ (key, v) = .ok s₂ ∧ get s' = get s₂ := by
  induction es generalizing s with
  | nil => cases hmem
  | cons e es ih =>
      obtain ⟨s₁, htake, hrest⟩ := foldlM_cons_eq_ok_iff.mp h
      obtain ⟨hk, hnodup⟩ := List.nodup_cons.mp hes
      rcases List.mem_cons.mp hmem with rfl | hmem
      · exact ⟨s, s₁, htake, foldlM_of_not_mem frame hk hrest⟩
      · exact ih hnodup hmem hrest

theorem foldlM_of_none {es : Entries} (hkey : es.get? key = none) {s s' : σ}
    (h : es.foldlM take s = .ok s') : get s' = get s :=
  foldlM_of_not_mem frame (Entries.get?_eq_none_iff.mp hkey) h

theorem foldlM_of_some {es : Entries} (hes : (es.map Prod.fst).Nodup) {v : Value}
    (hkey : es.get? key = some v) {s s' : σ} (h : es.foldlM take s = .ok s') :
    ∃ s₁ s₂, take s₁ (key, v) = .ok s₂ ∧ get s' = get s₂ :=
  foldlM_of_mem frame hes ((Entries.get?_eq_some_iff hes).mp hkey) h

end Frame

/-- A text that one key alone sets is the one that stands under it. -/
theorem foldlM_text {get : σ → Option String}
    (frame : ∀ s s' e, e.1 ≠ key → take s e = .ok s' → get s' = get s)
    (sets : ∀ s s' e, e.1 = key → take s e = .ok s' → some e.2 = (get s').map Value.string)
    {es : Entries} (hes : (es.map Prod.fst).Nodup) {s s' : σ} (hnone : get s = none)
    (h : es.foldlM take s = .ok s') : es.get? key = (get s').map Value.string := by
  cases hkey : es.get? key with
  | none => rw [foldlM_of_none frame hkey h, hnone, Option.map_none]
  | some v =>
      obtain ⟨s₁, s₂, htake, heq⟩ := foldlM_of_some frame hes hkey h
      rw [heq, ← sets s₁ s₂ _ rfl htake]

/-- All entries are taken when each can be, and whether it can does not depend on what is held. -/
theorem exists_foldlM_iff (anywhere : ∀ s t e s', take s e = .ok s' → ∃ t', take t e = .ok t')
    {es : Entries} {s : σ} :
    (∃ s', es.foldlM take s = .ok s') ↔ ∀ e ∈ es, ∃ t t', take t e = .ok t' := by
  induction es generalizing s with
  | nil => exact ⟨fun _ _ h => absurd h List.not_mem_nil, fun _ => ⟨s, rfl⟩⟩
  | cons e es ih =>
      rw [List.forall_mem_cons]
      constructor
      · rintro ⟨s', h⟩
        obtain ⟨s₁, htake, hrest⟩ := foldlM_cons_eq_ok_iff.mp h
        exact ⟨⟨s, s₁, htake⟩, ih.mp ⟨s', hrest⟩⟩
      · rintro ⟨⟨t, t', htake⟩, hrest⟩
        obtain ⟨s₁, htake⟩ := anywhere t s e t' htake
        obtain ⟨s', hrest⟩ := ih.mpr hrest
        exact ⟨s', foldlM_cons_eq_ok_iff.mpr ⟨s₁, htake, hrest⟩⟩

/-- What comes of taking entries is what they say, when they say one thing, say what comes of taking
them, and say nothing that could not be taken. -/
theorem foldlM_eq_ok_iff (anywhere : ∀ s t e s', take s e = .ok s' → ∃ t', take t e = .ok t')
    {Said : σ → Prop} {es : Entries} {s : σ}
    (comes : ∀ {s'}, es.foldlM take s = .ok s' → Said s')
    (unique : ∀ {s' t'}, Said s' → Said t' → s' = t')
    (taken : ∀ {s'}, Said s' → ∀ e ∈ es, ∃ t t', take t e = .ok t') {s' : σ} :
    es.foldlM take s = .ok s' ↔ Said s' := by
  constructor
  · exact comes
  · intro said
    obtain ⟨t', hfold⟩ := (exists_foldlM_iff anywhere (s := s)).mpr (taken said)
    rw [hfold, unique (comes hfold) said]

end Taking

/-! ## What a step takes -/

/-- The names of the settings of a user, in the order in which they are declared. -/
def userNames : List String := ["name", "email"]

/-- The names of the settings of a log, in the order in which they are declared. -/
def loggingNames : List String := ["level", "colored", "file"]

/-- The names of the tables of a settings file. -/
def tableNames : List String := ["user", "logging"]

theorem not_mem_userNames {key : String} : key ∉ userNames ↔ key ≠ "name" ∧ key ≠ "email" := by
  simp [userNames]

theorem not_mem_loggingNames {key : String} :
    key ∉ loggingNames ↔ key ≠ "level" ∧ key ≠ "colored" ∧ key ≠ "file" := by
  simp [loggingNames]

theorem not_mem_tableNames {key : String} :
    key ∉ tableNames ↔ key ≠ "user" ∧ key ≠ "logging" := by
  simp [tableNames]

/-- What taking an entry of the table about the user does. -/
inductive TakesUser (u : UserSettings) : String × Value → UserSettings → Prop
  | name (s : String) : TakesUser u ("name", .string s) { u with name := some s }
  | email (s : String) : TakesUser u ("email", .string s) { u with email := some s }
  | other {e : String × Value} (key : e.1 ∉ userNames) (sound : e.2.isSound = true) :
      TakesUser u e u

/-- What taking an entry of the table about logging does. -/
inductive TakesLogging (l : LogSettings) : String × Value → LogSettings → Prop
  | level {s : String} {level : Level} (h : Level.named? s = some level) :
      TakesLogging l ("level", .string s) { l with level }
  | colored (b : Bool) : TakesLogging l ("colored", .boolean b) { l with colored := b }
  | file (s : String) : TakesLogging l ("file", .string s) { l with file := some s }
  | other {e : String × Value} (key : e.1 ∉ loggingNames) (sound : e.2.isSound = true) :
      TakesLogging l e l

/-- What taking an entry of the document does. -/
inductive TakesEntry (s : Settings) : String × Value → Settings → Prop
  | user {v : Value} {u : UserSettings} (h : readUser v = .ok u) :
      TakesEntry s ("user", v) { s with user := u }
  | logging {v : Value} {l : LogSettings} (h : readLogging v = .ok l) :
      TakesEntry s ("logging", v) { s with logging := l }
  | other {e : String × Value} (key : e.1 ∉ tableNames) (sound : e.2.isSound = true) :
      TakesEntry s e s

theorem readText_eq_ok_iff {v : Value} {s : String} : readText v = .ok s ↔ v = .string s := by
  cases v with
  | string t => simp [readText]
  | _ => simp [readText]

theorem readFlag_eq_ok_iff {v : Value} {b : Bool} : readFlag v = .ok b ↔ v = .boolean b := by
  cases v with
  | boolean c => simp [readFlag]
  | _ => simp [readFlag]

theorem readLevel_eq_ok_iff {v : Value} {level : Level} :
    readLevel v = .ok level ↔ ∃ s, v = .string s ∧ Level.named? s = some level := by
  rw [readLevel, bind_eq_ok_iff]
  refine exists_congr fun s => and_congr readText_eq_ok_iff ?_
  cases Level.named? s with
  | none => exact ⟨nofun, nofun⟩
  | some l =>
      exact ⟨fun h => congrArg some (Except.ok.inj h), fun h => congrArg _ (Option.some.inj h)⟩

theorem ignore_eq_ok_iff {α : Type} {held held' : α} {v : Value} :
    ignore held v = .ok held' ↔ v.isSound = true ∧ held = held' := by
  rw [ignore]
  split
  · next h => exact ⟨fun heq => ⟨h, Except.ok.inj heq⟩, fun heq => congrArg _ heq.2⟩
  · next h => exact ⟨nofun, fun heq => absurd heq.1 h⟩

theorem takeUser_eq_ok_iff {u u' : UserSettings} {e : String × Value} :
    takeUser u e = .ok u' ↔ TakesUser u e u' := by
  constructor
  · obtain ⟨key, v⟩ := e
    intro h
    unfold takeUser at h
    dsimp only at h
    split at h
    · obtain ⟨s, hs, h⟩ := bind_eq_ok_iff.mp h
      cases readText_eq_ok_iff.mp hs
      cases h
      exact .name s
    · obtain ⟨s, hs, h⟩ := bind_eq_ok_iff.mp h
      cases readText_eq_ok_iff.mp hs
      cases h
      exact .email s
    · next hname hemail =>
        obtain ⟨hsound, rfl⟩ := ignore_eq_ok_iff.mp h
        exact .other (not_mem_userNames.mpr ⟨hname, hemail⟩) hsound
  · intro h
    cases h with
    | name s => rfl
    | email s => rfl
    | other key sound =>
        obtain ⟨hname, hemail⟩ := not_mem_userNames.mp key
        unfold takeUser
        split
        · contradiction
        · contradiction
        · exact ignore_eq_ok_iff.mpr ⟨sound, rfl⟩

theorem takeLogging_eq_ok_iff {l l' : LogSettings} {e : String × Value} :
    takeLogging l e = .ok l' ↔ TakesLogging l e l' := by
  constructor
  · obtain ⟨key, v⟩ := e
    intro h
    unfold takeLogging at h
    dsimp only at h
    split at h
    · obtain ⟨level, hlevel, hput⟩ := bind_eq_ok_iff.mp h
      obtain ⟨s, rfl, hnamed⟩ := readLevel_eq_ok_iff.mp hlevel
      obtain rfl := Except.ok.inj hput
      exact .level hnamed
    · obtain ⟨b, hb, h⟩ := bind_eq_ok_iff.mp h
      cases readFlag_eq_ok_iff.mp hb
      cases h
      exact .colored b
    · obtain ⟨s, hs, h⟩ := bind_eq_ok_iff.mp h
      cases readText_eq_ok_iff.mp hs
      cases h
      exact .file s
    · next hlevel hcolored hfile =>
        obtain ⟨hsound, rfl⟩ := ignore_eq_ok_iff.mp h
        exact .other (not_mem_loggingNames.mpr ⟨hlevel, hcolored, hfile⟩) hsound
  · intro h
    cases h with
    | level h => exact bind_eq_ok_iff.mpr ⟨_, readLevel_eq_ok_iff.mpr ⟨_, rfl, h⟩, rfl⟩
    | colored b => rfl
    | file s => rfl
    | other key sound =>
        obtain ⟨hlevel, hcolored, hfile⟩ := not_mem_loggingNames.mp key
        unfold takeLogging
        split
        · contradiction
        · contradiction
        · contradiction
        · exact ignore_eq_ok_iff.mpr ⟨sound, rfl⟩

theorem takeEntry_eq_ok_iff {s s' : Settings} {e : String × Value} :
    takeEntry s e = .ok s' ↔ TakesEntry s e s' := by
  constructor
  · obtain ⟨key, v⟩ := e
    intro h
    unfold takeEntry at h
    dsimp only at h
    split at h
    · obtain ⟨u, hu, h⟩ := bind_eq_ok_iff.mp h
      cases h
      exact .user hu
    · obtain ⟨l, hl, h⟩ := bind_eq_ok_iff.mp h
      cases h
      exact .logging hl
    · next huser hlogging =>
        obtain ⟨hsound, rfl⟩ := ignore_eq_ok_iff.mp h
        exact .other (not_mem_tableNames.mpr ⟨huser, hlogging⟩) hsound
  · intro h
    cases h with
    | user h => exact bind_eq_ok_iff.mpr ⟨_, h, rfl⟩
    | logging h => exact bind_eq_ok_iff.mpr ⟨_, h, rfl⟩
    | other key sound =>
        obtain ⟨huser, hlogging⟩ := not_mem_tableNames.mp key
        unfold takeEntry
        split
        · contradiction
        · contradiction
        · exact ignore_eq_ok_iff.mpr ⟨sound, rfl⟩

/-- An entry changes no other setting than its own. -/
theorem TakesUser.frame {u u' : UserSettings} {e : String × Value} (h : TakesUser u e u') :
    (e.1 ≠ "name" → u'.name = u.name) ∧ (e.1 ≠ "email" → u'.email = u.email)
      ∧ u'.committerName = u.committerName ∧ u'.committerEmail = u.committerEmail := by
  cases h with
  | name s => exact ⟨fun hkey => absurd rfl hkey, fun _ => rfl, rfl, rfl⟩
  | email s => exact ⟨fun _ => rfl, fun hkey => absurd rfl hkey, rfl, rfl⟩
  | other key sound => exact ⟨fun _ => rfl, fun _ => rfl, rfl, rfl⟩

theorem TakesLogging.frame {l l' : LogSettings} {e : String × Value} (h : TakesLogging l e l') :
    (e.1 ≠ "level" → l'.level = l.level) ∧ (e.1 ≠ "colored" → l'.colored = l.colored)
      ∧ (e.1 ≠ "file" → l'.file = l.file) := by
  cases h with
  | level h => exact ⟨fun hkey => absurd rfl hkey, fun _ => rfl, fun _ => rfl⟩
  | colored b => exact ⟨fun _ => rfl, fun hkey => absurd rfl hkey, fun _ => rfl⟩
  | file s => exact ⟨fun _ => rfl, fun _ => rfl, fun hkey => absurd rfl hkey⟩
  | other key sound => exact ⟨fun _ => rfl, fun _ => rfl, fun _ => rfl⟩

theorem TakesEntry.frame {s s' : Settings} {e : String × Value} (h : TakesEntry s e s') :
    (e.1 ≠ "user" → s'.user = s.user) ∧ (e.1 ≠ "logging" → s'.logging = s.logging) := by
  cases h with
  | user h => exact ⟨fun hkey => absurd rfl hkey, fun _ => rfl⟩
  | logging h => exact ⟨fun _ => rfl, fun hkey => absurd rfl hkey⟩
  | other key sound => exact ⟨fun _ => rfl, fun _ => rfl⟩

/-- An entry sets its own setting to what it holds, and can be read where it has none. -/
theorem TakesUser.sets {u u' : UserSettings} {e : String × Value} (h : TakesUser u e u') :
    (e.1 = "name" → some e.2 = u'.name.map Value.string)
      ∧ (e.1 = "email" → some e.2 = u'.email.map Value.string)
      ∧ (e.1 ∉ userNames → e.2.isSound = true) := by
  cases h with
  | name s => exact ⟨fun _ => rfl, by simp, fun _ => rfl⟩
  | email s => exact ⟨by simp, fun _ => rfl, fun _ => rfl⟩
  | other key sound =>
      obtain ⟨hname, hemail⟩ := not_mem_userNames.mp key
      exact ⟨fun h => absurd h hname, fun h => absurd h hemail, fun _ => sound⟩

theorem TakesLogging.sets {l l' : LogSettings} {e : String × Value} (h : TakesLogging l e l') :
    (e.1 = "level" → ∃ s, e.2 = .string s ∧ Level.named? s = some l'.level)
      ∧ (e.1 = "colored" → e.2 = .boolean l'.colored)
      ∧ (e.1 = "file" → some e.2 = l'.file.map Value.string)
      ∧ (e.1 ∉ loggingNames → e.2.isSound = true) := by
  cases h with
  | level h => exact ⟨fun _ => ⟨_, rfl, h⟩, by simp, by simp, fun _ => rfl⟩
  | colored b => exact ⟨by simp, fun _ => rfl, by simp, fun _ => rfl⟩
  | file s => exact ⟨by simp, by simp, fun _ => rfl, fun _ => rfl⟩
  | other key sound =>
      obtain ⟨hlevel, hcolored, hfile⟩ := not_mem_loggingNames.mp key
      exact ⟨fun h => absurd h hlevel, fun h => absurd h hcolored, fun h => absurd h hfile,
        fun _ => sound⟩

theorem TakesEntry.sets {s s' : Settings} {e : String × Value} (h : TakesEntry s e s') :
    (e.1 = "user" → readUser e.2 = .ok s'.user)
      ∧ (e.1 = "logging" → readLogging e.2 = .ok s'.logging)
      ∧ (e.1 ∉ tableNames → e.2.isSound = true) := by
  cases h with
  | user h => exact ⟨fun _ => h, by simp, by simp [tableNames]⟩
  | logging h => exact ⟨by simp, fun _ => h, by simp [tableNames]⟩
  | other key sound =>
      obtain ⟨huser, hlogging⟩ := not_mem_tableNames.mp key
      exact ⟨fun h => absurd h huser, fun h => absurd h hlogging, fun _ => sound⟩

/-- Whether an entry can be taken does not depend on what is held. -/
theorem anywhere_takeUser (u w : UserSettings) (e : String × Value) (u' : UserSettings)
    (htake : takeUser u e = .ok u') : ∃ w', takeUser w e = .ok w' := by
  cases takeUser_eq_ok_iff.mp htake with
  | name s => exact ⟨_, rfl⟩
  | email s => exact ⟨_, rfl⟩
  | other key sound => exact ⟨w, takeUser_eq_ok_iff.mpr (.other key sound)⟩

theorem anywhere_takeLogging (l m : LogSettings) (e : String × Value) (l' : LogSettings)
    (htake : takeLogging l e = .ok l') : ∃ m', takeLogging m e = .ok m' := by
  cases takeLogging_eq_ok_iff.mp htake with
  | level h => exact ⟨_, takeLogging_eq_ok_iff.mpr (.level h)⟩
  | colored b => exact ⟨_, rfl⟩
  | file s => exact ⟨_, rfl⟩
  | other key sound => exact ⟨m, takeLogging_eq_ok_iff.mpr (.other key sound)⟩

theorem anywhere_takeEntry (s t : Settings) (e : String × Value) (s' : Settings)
    (htake : takeEntry s e = .ok s') : ∃ t', takeEntry t e = .ok t' := by
  cases takeEntry_eq_ok_iff.mp htake with
  | user h => exact ⟨_, takeEntry_eq_ok_iff.mpr (.user h)⟩
  | logging h => exact ⟨_, takeEntry_eq_ok_iff.mpr (.logging h)⟩
  | other key sound => exact ⟨t, takeEntry_eq_ok_iff.mpr (.other key sound)⟩

end Settings

end IdentityLine
