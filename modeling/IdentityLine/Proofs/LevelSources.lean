import IdentityLine.Proofs.AddedLevel
import IdentityLine.Proofs.LevelNames
import IdentityLine.Proofs.RefusedFile
import IdentityLine.Proofs.RunStages
import IdentityLine.Proofs.WrittenText

/-!
# One rule for levels, wherever they are named

A level can be named in the settings file, by a variable of the environment and on
the command line. All three take the same texts for the same levels, and differ only
in what becomes of the others: the file is rejected and the text told as it was
written, the variable counts for nothing, and the call makes no sense.

What the file says besides the level has to be granted, as a file may be rejected
for more than one reason. `AsksLevel` grants it, and then the text is the only thing
in the document that can be refused: every other entry can be taken, and whether an
entry can be taken does not depend on what is held. So nothing has to be known about
the order in which the document is read.
-/

namespace IdentityLine

open Toml

namespace Settings

/-! ## A document that asks for a level -/

/-- The entries that have nothing to do with the level. -/
def besideLevel (es : Entries) : Entries :=
  es.filter fun e => e.1 ≠ "level"

/-- A document says the settings and besides that asks for a level by a text. The level that the
settings have is the one that a document without any would lead to. -/
structure AsksLevel (doc : Entries) (text : String) (s : Settings) : Prop where
  user : ∃ es, entriesOf userNames (doc.get? "user") = some es ∧ UserSaid es s.user
  logging : ∃ es, entriesOf loggingNames (doc.get? "logging") = some es
    ∧ es.get? "level" = some (.string text) ∧ LoggingSaid (besideLevel es) s.logging
  /-- What stands under other names could be read. -/
  others : ∀ e ∈ doc, e.1 ∉ tableNames → e.2.isSound = true

theorem mem_besideLevel {es : Entries} {e : String × Value} :
    e ∈ besideLevel es ↔ e ∈ es ∧ e.1 ≠ "level" := by
  rw [besideLevel, List.mem_filter, decide_eq_true_eq]

theorem get?_besideLevel {es : Entries} {key : String} (h : key ≠ "level") :
    (besideLevel es).get? key = es.get? key := by
  induction es with
  | nil => rfl
  | cons e es ih =>
      rw [besideLevel, List.filter_cons]
      split
      · rw [Entries.get?_cons, Entries.get?_cons]
        split
        · rfl
        · exact ih
      · next hlevel =>
          have hother : e.1 ≠ key := by
            rintro rfl
            exact hlevel (decide_eq_true h)
          rw [Entries.get?_cons, if_neg hother]
          exact ih

/-- A level that exists is what the entries say of it; what they say beside it stays. -/
theorem LoggingSaid.withLevel {es : Entries} {text : String} {level : Level} {l : LogSettings}
    (said : LoggingSaid (besideLevel es) l) (hlevel : es.get? "level" = some (.string text))
    (hnamed : Level.named? text = some level) : LoggingSaid es { l with level } where
  level := by
    rw [hlevel]
    exact ⟨text, rfl, hnamed⟩
  colored := by
    rw [← get?_besideLevel (by decide)]
    exact said.colored
  file := by
    rw [← get?_besideLevel (by decide)]
    exact said.file
  others e he hkey :=
    said.others e (mem_besideLevel.mpr ⟨he, (not_mem_loggingNames.mp hkey).1⟩) hkey

theorem AsksLevel.said {doc : Entries} {text : String} {s : Settings} {level : Level}
    (asks : AsksLevel doc text s) (hnamed : Level.named? text = some level) :
    DocumentSaid doc (s.withLevel level) where
  user := asks.user
  logging := by
    obtain ⟨es, hes, hlevel, said⟩ := asks.logging
    exact ⟨es, hes, said.withLevel hlevel hnamed⟩
  others := asks.others

/-! ## Nothing but the level can be refused -/

/-- An entry that can be taken is not refused. -/
theorem not_refuses_of_taken {σ : Type} {take : σ → String × Value → Except Rejection σ}
    {refuses : String → Value → Rejection → Prop}
    (step : ∀ s e why, take s e = .error why ↔ refuses e.1 e.2 why) {s s' : σ}
    {e : String × Value} (htake : take s e = .ok s') (why : Rejection) : ¬ refuses e.1 e.2 why := by
  intro hrefuses
  rw [(step s e why).mpr hrefuses] at htake
  cases htake

/-- Of entries that say something of logging beside the level, only the level can be refused. -/
theorem refuses_level_of_said {es : Entries} (hes : (es.map Prod.fst).Nodup) {text : String}
    (hlevel : es.get? "level" = some (.string text)) {l : LogSettings}
    (said : LoggingSaid (besideLevel es) l) {e : String × Value} (he : e ∈ es) {why : Rejection}
    (hrefuses : RefusesLogging e.1 e.2 why) : why = .level text := by
  by_cases hkey : e.1 = "level"
  · have hvalue : e.2 = .string text := by
      have hget : es.get? e.1 = some e.2 := (Entries.get?_eq_some_iff hes).mpr he
      rw [hkey, hlevel] at hget
      exact (Option.some.inj hget).symm
    cases hrefuses with
    | level _ hwrong => exact absurd hvalue (hwrong text)
    | unknown _ hother _ =>
        rw [hvalue, Value.string.injEq] at hother
        rw [hother]
    | colored hother _ | file hother _ =>
        rw [hkey] at hother
        exact absurd hother (by decide)
    | other hother _ => exact absurd (hkey ▸ by decide) hother
  · -- Everything else is taken when the entries are read without the level.
    have hbeside : ((besideLevel es).map Prod.fst).Nodup :=
      (List.filter_sublist.map Prod.fst).nodup hes
    have hread := (foldlM_takeLogging_eq_ok_iff hbeside).mpr said
    obtain ⟨_, _, htake⟩ := (exists_foldlM_iff anywhere_takeLogging).mp ⟨_, hread⟩ e
      (mem_besideLevel.mpr ⟨he, hkey⟩)
    exact absurd hrefuses (not_refuses_of_taken takeLogging_eq_error_iff htake why)

/-- In a document that asks for a level, nothing but the level can be refused. -/
theorem AsksLevel.refused {doc : Entries} (hdoc : doc.Distinct) {text : String} {s : Settings}
    (asks : AsksLevel doc text s) {why : Rejection}
    (h : FirstRefused RefusesEntry (Entries.sorted doc) why) : why = .level text := by
  obtain ⟨⟨key, v⟩, he, hrefuses⟩ := mem_of_firstRefused h
  have hmem : (key, v) ∈ doc := (Entries.perm_sorted doc).mem_iff.mp he
  have hget : doc.get? key = some v := (Entries.get?_eq_some_iff hdoc.keys).mpr hmem
  cases hrefuses with
  | other hkey hunsound =>
      rw [asks.others _ hmem hkey] at hunsound
      cases hunsound
  | user hkey hrefuses =>
      obtain rfl : key = "user" := hkey
      have hread := (readUser_eq_ok_iff (Entries.distinct_get? hdoc "user")).mpr asks.user
      rw [hget] at hread
      have htake : takeEntry {} ("user", v) = .ok { user := s.user } :=
        takeEntry_eq_ok_iff.mpr (.user hread)
      exact absurd (.user rfl hrefuses) (not_refuses_of_taken takeEntry_eq_error_iff htake why)
  | logging hkey hrefuses =>
      obtain rfl : key = "logging" := hkey
      obtain ⟨es, hes, hlevel, said⟩ := asks.logging
      rw [hget] at hes
      cases hrefuses with
      | shape horder =>
          rw [entriesOf_of_no_order horder] at hes
          cases hes
      | entry horder first =>
          obtain ⟨e, he, hrefuses⟩ := mem_of_firstRefused first
          obtain ⟨es', hes', hperm⟩ := perm_of_order horder
          obtain rfl := Option.some.inj (hes.symm.trans hes')
          have hnodup := nodup_entriesOf (by decide) (hdoc.values _ hmem) hes
          exact refuses_level_of_said hnodup hlevel said (hperm.mem_iff.mp he) hrefuses

/-- A document that asks for a level is read as the settings with that level, if there is one. -/
theorem AsksLevel.ofDocument_eq {doc : Entries} (hdoc : doc.Distinct) {text : String}
    {s : Settings} (asks : AsksLevel doc text s) :
    ofDocument doc =
      match Level.named? text with
      | some level => .ok (s.withLevel level)
      | none => .error (.level text) := by
  cases hnamed : Level.named? text with
  | some level => exact (ofDocument_eq_ok_iff hdoc).mpr (asks.said hnamed)
  | none =>
      cases hread : ofDocument doc with
      | error why => exact congrArg _ (asks.refused hdoc (ofDocument_eq_error_iff.mp hread))
      | ok s' =>
          obtain ⟨es, hes, hlevel, -⟩ := asks.logging
          exact absurd (misfit_of_unknown hes hlevel hnamed)
            ((ofDocument_eq_ok_iff hdoc).mp hread).not_misfit

/-! ## The three sources -/

/-- A document with something in it is that of a file. -/
theorem exists_of_document? {files : Files} {dir : String} {doc : Entries}
    (h : document? files dir = some doc) (hdoc : doc ≠ []) :
    ∃ text : String, files.look (filePath dir) = .ok (.file text.toUTF8.toList)
      ∧ Toml.parse text = some doc := by
  rw [document?] at h
  split at h
  · rw [readDocument?] at h
    cases hread : files.read (filePath dir) with
    | error e =>
        rw [hread] at h
        cases h
    | ok bytes =>
        rw [hread] at h
        obtain ⟨text, hdecode, hparse⟩ := Option.bind_eq_some_iff.mp h
        rw [Utf8.decode?_eq_some_iff] at hdecode
        rw [read_eq_ok_iff, hdecode] at hread
        exact ⟨text, hread, hparse⟩
  · exact absurd (Option.some.inj h).symm hdoc

theorem AsksLevel.loadFrom_eq {doc : Entries} {text : String} {s : Settings}
    (asks : AsksLevel doc text s) {files : Files} {dir : String}
    (h : document? files dir = some doc) (env : Environment) :
    (loadFrom files env dir).2 =
      match Level.named? text with
      | some level => .ok ((s.withLevel level).override env)
      | none => .error (.rejected (filePath dir) (.level text)) := by
  have hne : doc ≠ [] := by
    rintro rfl
    obtain ⟨es, hes, hlevel, -⟩ := asks.logging
    cases hes
    cases hlevel
  obtain ⟨source, hlook, hparse⟩ := exists_of_document? h hne
  have hread := asks.ofDocument_eq (distinct_parse hparse)
  cases hnamed : Level.named? text with
  | some level => exact loadFrom_eq_ok_iff.mpr ⟨doc, _, h, asks.said hnamed, rfl⟩
  | none =>
      rw [hnamed] at hread
      exact loadFrom_eq_error_iff.mpr (.refused hlook hparse (ofDocument_eq_error_iff.mp hread))

/-- The variable of the level lays its level over the others, if it names one. -/
theorem override_set_level (s : Settings) (env : Environment) (text : String) :
    s.override (env.set "IDENT_LOG_LEVEL" (some text.toUTF8.toList)) =
      (s.override (env.set "IDENT_LOG_LEVEL" none)).leveled (Level.named? text) := by
  have hset : (env.set "IDENT_LOG_LEVEL" (some text.toUTF8.toList)).get? "IDENT_LOG_LEVEL"
      = some text := Utf8.decode?_eq_some_iff.mpr rfl
  have hunset : (env.set "IDENT_LOG_LEVEL" none).get? "IDENT_LOG_LEVEL" = none := rfl
  simp (disch := decide) only [override, Environment.get?_set_of_ne, hset, hunset]
  cases hnamed : Level.named? text with
  | none =>
      rw [Option.bind_some, hnamed]
      rfl
  | some level =>
      rw [Option.bind_some, hnamed]
      rfl

theorem loadFrom_set_level (files : Files) (env : Environment) (dir text : String) :
    (loadFrom files (env.set "IDENT_LOG_LEVEL" (some text.toUTF8.toList)) dir).2 =
      (loadFrom files (env.set "IDENT_LOG_LEVEL" none) dir).2.map
        fun s => s.leveled (Level.named? text) := by
  rw [loadFrom, loadFrom]
  split
  · dsimp only
    cases readFile files (filePath dir) with
    | error e => rfl
    | ok s => exact congrArg _ (override_set_level s env text)
  · exact congrArg _ (override_set_level {} env text)

/-- For every text there is a document that asks for a level by it. -/
theorem asksLevel_askingFor (text : String) :
    AsksLevel [("logging", .table .dotted [("level", .string text)])] text {} where
  user := ⟨[], rfl, rfl, rfl, rfl, rfl, fun e he => absurd he List.not_mem_nil⟩
  logging := ⟨[("level", .string text)], rfl, rfl, rfl, rfl, rfl,
    fun e he => absurd he List.not_mem_nil⟩
  others e he hkey := by
    have hlogging : e.1 = "logging" := congrArg Prod.fst (List.mem_singleton.mp he)
    rw [hlogging] at hkey
    exact absurd hkey (by decide)

end Settings

open Settings Arguments

/-- One rule says which texts name which level: those that spell its name, in letters of either case
and with white space around them. The settings file, the environment and the command line all go by
it. Of a text that names none, a file that has it for a level is rejected with the text as it is
written; the variable leaves the level that is there without it, and everything else; and the flag
spoils the call. For every text there is a file that has it. -/
theorem levels_named_alike (text : String) :
    (∀ level : Level, Level.named? text = some level ↔ level.Spells text)
    ∧ (∀ level : Level, Level.named? level.name = some level
        ∧ ∀ c ∈ level.name.toList, c.isLower = true)
    ∧ (∀ {files : Files} {dir : String} {doc : Entries} {s : Settings},
        document? files dir = some doc → AsksLevel doc text s →
        ∀ env, (loadFrom files env dir).2 =
          match Level.named? text with
          | some level => .ok ((s.withLevel level).override env)
          | none => .error (.rejected (filePath dir) (.level text)))
    ∧ (Rejection.level text).message = "unknown log level '" ++ text ++ "'"
    ∧ (∃ doc, Toml.parse (askingFor text) = some doc ∧ AsksLevel doc text {})
    ∧ (∀ (files : Files) (env : Environment) (dir : String),
        (loadFrom files (env.set "IDENT_LOG_LEVEL" (some text.toUTF8.toList)) dir).2 =
          (loadFrom files (env.set "IDENT_LOG_LEVEL" none) dir).2.map
            fun s => s.leveled (Level.named? text))
    ∧ (∀ {front back : List String} {call : Invocation}, OpenBehind front →
        parse (front ++ back) = .ok call → call.logLevel = none →
        parse (front ++ ("--log-level=" ++ text) :: back) =
          match Level.named? text with
          | some level => .ok (call.leveled level)
          | none => .error .badValue)
    ∧ Usage.badValue.exitCode = 2 :=
  ⟨fun _ => Level.named?_iff_spells, Level.named?_name, fun hdoc asks => asks.loadFrom_eq hdoc, rfl,
    ⟨_, parse_askingFor text, asksLevel_askingFor text⟩,
    fun files env dir => loadFrom_set_level files env dir text,
    fun hplace hcall hnone => parse_added hplace hcall hnone text, rfl⟩

/-- A dotless letter, which has the same capital as the one in the name, spells nothing. -/
theorem levels_named_alike_dotless :
    let good := "\u3000InFo\n"
    let bad := "\u0131nfo"
    Level.info.Spells good
      ∧ (loadFrom (filesHolding (askingFor good)) .empty "/w").2
        = .ok { logging := { level := .info } }
      ∧ (loadFrom (filesHolding (askingFor bad)) .empty "/w").2
        = .error (.rejected (filePath "/w") (.level bad))
      ∧ parse ["--log-level=" ++ good, "sanitize", "x"] = .ok ⟨.sanitize "x", some .info⟩
      ∧ parse ["sanitize", "x", "--log-level=" ++ bad] = .error .badValue := by
  intro good bad
  have hdoc : ∀ text : String, document? (filesHolding (askingFor text)) "/w"
      = some [("logging", .table .dotted [("level", .string text)])] := by
    intro text
    have hlook : (filesHolding (askingFor text)).look (filePath "/w")
        = .ok (.file (askingFor text).toUTF8.toList) := rfl
    have hcontains : (filesHolding (askingFor text)).contains (filePath "/w") = true := by
      rw [Files.contains, hlook]
      rfl
    rw [document?, if_pos hcontains, readDocument?, read_eq_ok_iff.mpr hlook]
    dsimp only
    rw [Utf8.decode?_eq_some_iff.mpr rfl, Option.bind_some, parse_askingFor]
  have hgood : Level.named? good = some .info := by decide +kernel
  have hbad : Level.named? bad = none := by decide +kernel
  obtain ⟨hspells, -, hfile, -, -, -, hflag, -⟩ := levels_named_alike good
  obtain ⟨-, -, hfile', -, -, -, hflag', -⟩ := levels_named_alike bad
  rw [hgood] at hspells hfile hflag
  rw [hbad] at hfile' hflag'
  have hcall : Arguments.parse ["sanitize", "x"] = .ok ⟨.sanitize "x", none⟩ :=
    eq_ok_of_toOption (by decide +kernel)
  have hfront : OpenBehind [] := by
    refine ⟨List.not_mem_nil, ?_⟩
    rintro _ ⟨⟩
  have hbehind : OpenBehind ["sanitize", "x"] := by
    refine ⟨by decide, ?_⟩
    rintro _ ⟨⟩ ⟨item, word, -, -, h⟩
    have hfirst : 'x' :: [] = '-' :: '-' :: word.toList :=
      (congrArg String.toList h).trans String.toList_append
    exact absurd (List.cons.inj hfirst).1 (by decide)
  exact ⟨(hspells .info).mp rfl, hfile (hdoc good) (asksLevel_askingFor good) .empty,
    hfile' (hdoc bad) (asksLevel_askingFor bad) .empty, hflag hfront hcall rfl,
    hflag' hbehind hcall rfl⟩

end IdentityLine
