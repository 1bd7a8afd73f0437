import IdentityLine.Proofs.LevelFlags
import IdentityLine.Proofs.Reading
import IdentityLine.Proofs.SignerCommands
import Mathlib.Data.List.Forall2

/-!
# What is given is what is printed

Whoever calls the command for given identities writes four values and perhaps two
options more, in any order. This module says that the values arrive as they were
written, whatever they are: behind an equals sign a name may look like an option, hold
another equals sign or be empty, and a number may be negative.

The order does not come into it because of how the invariant is put. It does not say
what has been read, one after another, but what the arguments that have been read have
*said*: `Given.Says` is a relation between what is held and the choices that can be
made, and reading a choice adds that choice to those that are said and no other. That
each is said once is all it takes. The level may be said before the command as well,
where the same reading holds it apart, and the two are brought together in the end.
-/

namespace IdentityLine.Arguments

/-! ## What options say -/

/-- What an option of the command for given identities says. -/
inductive Choice where
  | logLevel (level : Level)
  | name (text : String)
  | email (text : String)
  | millis (millis : Int64)
  | offset (offset : Offset)
  | json
deriving DecidableEq

namespace Choice

/-- What a choice is about. -/
def item : Choice → Item
  | .logLevel _ => .logLevel
  | .name _ => .name
  | .email _ => .email
  | .millis _ => .millis
  | .offset _ => .offset
  | .json => .json

/-- The arguments that say a choice. A number may be written in every way in which it is read. -/
inductive Written : Choice → String → Prop where
  | logLevel {level : Level} {word : String} (h : Level.named? word = some level) :
      Written (.logLevel level) ("--log-level=" ++ word)
  | name (text : String) : Written (.name text) ("--name=" ++ text)
  | email (text : String) : Written (.email text) ("--email=" ++ text)
  | millis {millis : Int64} {digits : String}
      (h : Decimal.int? digits.toList = some millis.toInt) :
      Written (.millis millis) ("--when=" ++ digits)
  | offset {offset : Offset} {digits : String}
      (h : Decimal.int? digits.toList = some offset.toInt) :
      Written (.offset offset) ("--tz=" ++ digits)
  | json : Written .json "--json"

/-- How a choice is plainly written: with the name of a level, and with the digits of a number,
behind a minus if it is negative. -/
def plain : Choice → String
  | .logLevel level => "--log-level=" ++ level.name
  | .name text => "--name=" ++ text
  | .email text => "--email=" ++ text
  | .millis number => "--when=" ++ String.ofList (Decimal.signed number.toInt)
  | .offset number => "--tz=" ++ String.ofList (Decimal.signed number.toInt)
  | .json => "--json"

theorem written_plain (c : Choice) : c.Written c.plain := by
  cases c with
  | logLevel level => exact .logLevel (by cases level <;> decide +kernel)
  | name text => exact .name text
  | email text => exact .email text
  | millis number => exact .millis (by rw [String.toList_ofList, Decimal.int?_signed])
  | offset number => exact .offset (by rw [String.toList_ofList, Decimal.int?_signed])
  | json => exact .json

end Choice

/-- What has been given says a choice. -/
def Given.Says (g : Given) : Choice → Prop
  | .logLevel level => g.logLevel = some level
  | .name text => g.name = some text
  | .email text => g.email = some text
  | .millis millis => g.millis = some millis
  | .offset offset => g.offset = some offset
  | .json => g.json = true

/-- What has been given, with a choice more. -/
def Given.plus (g : Given) : Choice → Given
  | .logLevel level => { g with logLevel := some level }
  | .name text => { g with name := some text }
  | .email text => { g with email := some text }
  | .millis number => { g with millis := some number }
  | .offset number => { g with offset := some number }
  | .json => { g with json := true }

/-- Nothing that is said so far is about an item. -/
def Given.Lacks (g : Given) (item : Item) : Prop :=
  ∀ d, g.Says d → d.item ≠ item

/-! ## Putting a value in its place -/

theorem readMillis?_of_int? {millis : Int64} {digits : String}
    (h : Decimal.int? digits.toList = some millis.toInt) : readMillis? digits = some millis := by
  rw [readMillis?, h]
  exact (if_pos ⟨millis.minValue_le_toInt, millis.toInt_le⟩).trans
    (congrArg some (Int64.ofInt_toInt millis))

theorem readOffset?_of_int? {offset : Offset} {digits : String}
    (h : Decimal.int? digits.toList = some offset.toInt) : readOffset? digits = some offset := by
  rw [readOffset?, h]
  exact (if_pos ⟨offset.minValue_le_toInt, offset.toInt_le⟩).trans
    (congrArg some (Int32.ofInt_toInt offset))

theorem store_eq_ok {α : Type} {held : Option α} {read : String → Option α} {put : α → Given}
    {value : String} {v : α} (hheld : ∀ w, held ≠ some w) (hread : read value = some v) :
    store held read put value = .ok (put v) := by
  rw [store, Option.eq_none_iff_forall_ne_some.mpr hheld, hread]
  rfl

/-- A value denotes a choice. A flag has no value, and the empty text stands for it. -/
def Choice.Denoted : Choice → String → Prop
  | .logLevel level, value => Level.named? value = some level
  | .name text, value => value = text
  | .email text, value => value = text
  | .millis number, value => readMillis? value = some number
  | .offset number, value => readOffset? value = some number
  | .json, value => value = ""

/-- A choice about something of which nothing was said is said with what was said before. -/
theorem says_plus {g : Given} {c : Choice} (hlacks : g.Lacks c.item) (d : Choice) :
    (g.plus c).Says d ↔ g.Says d ∨ d = c := by
  -- What is about the same thing was not said before, and what is about another is left alone.
  by_cases hitem : d.item = c.item
  · rw [or_iff_right fun h => hlacks d h hitem]
    cases c <;> cases d <;> cases hitem <;> simp [Given.plus, Given.Says]
    all_goals exact eq_comm
  · have hne : d ≠ c := fun h => hitem (congrArg Choice.item h)
    rw [or_iff_left hne]
    cases c <;> cases d <;> first | exact Iff.rfl | exact absurd rfl hitem

theorem put_eq {g : Given} {c : Choice} {value : String} (hvalue : c.Denoted value)
    (hlacks : g.Lacks c.item) : g.put c.item value = .ok (g.plus c) := by
  cases c with
  | logLevel level => exact store_eq_ok (fun w h => hlacks (.logLevel w) h rfl) hvalue
  | name text =>
      have hstore : store g.name some (fun v => g.plus (.name v)) value =
          .ok (g.plus (.name text)) :=
        store_eq_ok (fun w h => hlacks (.name w) h rfl) (congrArg some hvalue)
      exact hstore
  | email text =>
      have hstore : store g.email some (fun v => g.plus (.email v)) value =
          .ok (g.plus (.email text)) :=
        store_eq_ok (fun w h => hlacks (.email w) h rfl) (congrArg some hvalue)
      exact hstore
  | millis number => exact store_eq_ok (fun w h => hlacks (.millis w) h rfl) hvalue
  | offset number => exact store_eq_ok (fun w h => hlacks (.offset w) h rfl) hvalue
  | json => exact if_neg fun h => hlacks .json h rfl

/-! ## Reading an option -/

theorem splitEquals_append {word : List Char} (h : '=' ∉ word) (value : List Char) :
    splitEquals (word ++ '=' :: value) = (word, some value) := by
  induction word with
  | nil => simp [splitEquals]
  | cons c cs ih =>
      rw [List.mem_cons, not_or] at h
      rw [List.cons_append, splitEquals, if_neg (Ne.symm h.1), ih h.2]

/-- No two options share a word, so an option of a command is found by its own. -/
theorem find?_word {topic : Topic} {item : Item} (h : item ∈ options topic) {word : String}
    (hword : item.word = some word) :
    (options topic).find? (fun i => i.word == some word) = some item := by
  cases item <;> cases hword <;> cases topic <;> revert h <;> decide +kernel

section Reading

variable {topic : Topic} {p : Progress} (hopen : p.valuesOnly = false)

include hopen

theorem readArgument_dashes {arg : String} {cs : List Char} (harg : arg.toList = '-' :: '-' :: cs)
    (hne : cs ≠ []) :
    readArgument topic p arg =
      readOption topic p (String.ofList (splitEquals cs).1)
        ((splitEquals cs).2.map String.ofList) := by
  cases cs with
  | nil => exact absurd rfl hne
  | cons c cs => simp [readArgument, hopen, harg]

theorem readArgument_attached {word : String} (hequals : '=' ∉ word.toList) (value : String) :
    readArgument topic p ("--" ++ word ++ "=" ++ value) =
      readOption topic p word (some value) := by
  have hchars : ("--" ++ word ++ "=" ++ value).toList =
      '-' :: '-' :: (word.toList ++ '=' :: value.toList) := by
    simp
  rw [readArgument_dashes hopen hchars (by simp), splitEquals_append hequals]
  simp

/-- A choice that is written is read as it was meant: its value is put in the place of its item. -/
theorem readArgument_written {c : Choice} {arg : String} (hwritten : c.Written arg)
    (hoption : c.item ∈ options topic) (hsettled : p.pending = none) :
    ∃ value, c.Denoted value ∧ readArgument topic p arg =
      p.given.put c.item value >>= fun g => .ok { p with given := g } := by
  have hsettle : p.settle = .ok p := by rw [Progress.settle, hsettled]
  have hattached : ∀ word : String, '=' ∉ word.toList → c.item.word = some word →
      c.item.takesValue = true → ∀ value, readArgument topic p ("--" ++ word ++ "=" ++ value) =
        p.given.put c.item value >>= fun g => .ok { p with given := g } := by
    intro word hequals hword htakes value
    rw [readArgument_attached hopen hequals, readOption, find?_word hoption hword]
    dsimp only
    rw [if_pos htakes, hsettle]
    rfl
  cases hwritten with
  | logLevel h => exact ⟨_, h, hattached "log-level" (by decide) rfl rfl _⟩
  | name text => exact ⟨_, rfl, hattached "name" (by decide) rfl rfl _⟩
  | email text => exact ⟨_, rfl, hattached "email" (by decide) rfl rfl _⟩
  | millis h => exact ⟨_, readMillis?_of_int? h, hattached "when" (by decide) rfl rfl _⟩
  | offset h => exact ⟨_, readOffset?_of_int? h, hattached "tz" (by decide) rfl rfl _⟩
  | json =>
      refine ⟨"", rfl, ?_⟩
      have hchars : "--json".toList = '-' :: '-' :: ['j', 's', 'o', 'n'] := rfl
      have hbare : readArgument topic p "--json" = readOption topic p "json" none :=
        readArgument_dashes hopen hchars (by simp)
      rw [hbare, readOption, find?_word hoption rfl]
      dsimp only
      rw [if_neg (by decide), hsettle]
      rfl

end Reading

/-! ## Reading all of them -/

/-- Choices that are written one after another, each about something else, are said in the end, and
nothing else has changed. -/
theorem foldlM_written (topic : Topic) {choices : List Choice} {args : List String}
    (h : List.Forall₂ Choice.Written choices args) {p : Progress} (hopen : p.valuesOnly = false)
    (hsettled : p.pending = none) (hoptions : ∀ c ∈ choices, c.item ∈ options topic)
    (honce : (choices.map Choice.item).Nodup) (hlacks : ∀ c ∈ choices, p.given.Lacks c.item) :
    ∃ g, args.foldlM (readArgument topic) p = .ok { p with given := g }
      ∧ ∀ d, g.Says d ↔ p.given.Says d ∨ d ∈ choices := by
  induction h generalizing p with
  | nil => exact ⟨p.given, rfl, by simp⟩
  | @cons c arg choices args hwritten _ ih =>
      rw [List.forall_mem_cons] at hoptions hlacks
      obtain ⟨hother, honce⟩ := List.nodup_cons.mp honce
      obtain ⟨value, hvalue, hread⟩ := readArgument_written hopen hwritten hoptions.1 hsettled
      rw [put_eq hvalue hlacks.1] at hread
      -- The rest still finds its places empty, as none of it is about what was said just now.
      have hrest : ∀ d ∈ choices, (p.given.plus c).Lacks d.item := by
        intro d hd e hsaid
        rcases (says_plus hlacks.1 e).mp hsaid with hsaid | rfl
        · exact hlacks.2 d hd e hsaid
        · exact fun heq => hother (heq ▸ List.mem_map_of_mem hd)
      obtain ⟨g, hrun, hsaid⟩ :=
        ih (p := { p with given := p.given.plus c }) hopen hsettled hoptions.2 honce hrest
      refine ⟨g, ?_, fun d => ?_⟩
      · rw [List.foldlM_cons, hread]
        exact hrun
      · rw [hsaid, says_plus hlacks.1, List.mem_cons, or_assoc]

theorem readAll_eq (topic : Topic) (p : Progress) (args : List String) :
    readAll topic p args = args.foldlM (readArgument topic) p >>= Progress.settle := by
  induction args generalizing p with
  | nil => rfl
  | cons arg args ih =>
      rw [readAll_cons, List.foldlM_cons, bind_assoc]
      exact bind_congr ih

/-- A level that comes before the command is read by the program, as no command has its name. -/
theorem readProgram_written {before : List Choice} {front : List String}
    (h : List.Forall₂ Choice.Written before front) (hlevel : ∀ c ∈ before, c.item = .logLevel)
    (p : Progress) (rest : List String) :
    readProgram p (front ++ rest) =
      front.foldlM (readArgument .program) p >>= fun p' => readProgram p' rest := by
  induction h generalizing p with
  | nil => rfl
  | @cons c arg before front hwritten _ ih =>
      rw [List.forall_mem_cons] at hlevel
      have hcalls : calls? p arg = none := by
        cases hwritten with
        | logLevel h => exact calls?_of_dashes (.inl (by simp [levelFlag?, splitEquals]))
        | _ => cases hlevel.1
      rw [List.cons_append, readProgram_of_none hcalls, List.foldlM_cons, bind_assoc]
      exact bind_congr (ih hlevel.2)

/-! ## The command for given identities -/

/-- Arguments that call for a given identity: options before the command and behind it, as these
choices are written. Only the level may come before the command, and nothing is chosen twice. -/
structure FormatCall (before after : List Choice) (args : List String) : Prop where
  written : ∃ front back, args = front ++ "format" :: back
    ∧ List.Forall₂ Choice.Written before front ∧ List.Forall₂ Choice.Written after back
  level : ∀ c ∈ before, c.item = .logLevel
  once : ((before ++ after).map Choice.item).Nodup

theorem mem_options_format (c : Choice) : c.item ∈ options .format := by
  cases c <;> simp [Choice.item, options]

/-- The command is called with what the options behind it say, and the level is taken from there or
from before. -/
theorem FormatCall.parse_eq {before after : List Choice} {args : List String}
    (h : FormatCall before after args) :
    ∃ inner outer : Given, (∀ d, inner.Says d ↔ d ∈ after) ∧ (∀ d, outer.Says d ↔ d ∈ before)
      ∧ parse args = (complete .format inner).map fun command =>
        { command, logLevel := inner.logLevel <|> outer.logLevel } := by
  obtain ⟨front, back, rfl, hfront, hback⟩ := h.written
  obtain ⟨hbefore, hafter, -⟩ := List.nodup_append.mp (List.map_append ▸ h.once)
  have hnone : ∀ d, ¬ ({} : Given).Says d := by
    intro d hsaid
    cases d <;> cases hsaid
  obtain ⟨outer, houter, hout⟩ := foldlM_written .program hfront (p := {}) rfl rfl
    (fun c hc => by simp [h.level c hc, options]) hbefore (fun _ _ d hd => absurd hd (hnone d))
  obtain ⟨inner, hinner, hin⟩ := foldlM_written .format hback (p := {}) rfl rfl
    (fun c _ => mem_options_format c) hafter (fun _ _ d hd => absurd hd (hnone d))
  refine ⟨inner, outer, fun d => (hin d).trans (or_iff_right (hnone d)),
    fun d => (hout d).trans (or_iff_right (hnone d)), ?_⟩
  -- The level that came before does not keep the command from being one.
  have hname : Topic.command? "format" = some .format := by decide +kernel
  have hcalls : calls? { given := outer } "format" = some .format := hname
  rw [parse, readProgram_written hfront h.level, houter]
  change readProgram { given := outer } ("format" :: back) = _
  rw [readProgram_of_some hcalls, if_neg (by decide), readAll_eq, hinner]
  change (complete .format inner >>= fun command =>
    .ok (⟨command, inner.logLevel <|> outer.logLevel⟩ : Invocation)) = _
  cases complete .format inner with
  | error u => rfl
  | ok command => rfl

/-- The level is the one that is chosen, on whichever side of the command. -/
theorem FormatCall.level_iff {before after : List Choice} {args : List String}
    (h : FormatCall before after args) {inner outer : Given} (hin : ∀ d, inner.Says d ↔ d ∈ after)
    (hout : ∀ d, outer.Says d ↔ d ∈ before) (level : Level) :
    (inner.logLevel <|> outer.logLevel) = some level ↔ .logLevel level ∈ before ++ after := by
  have hafter : ∀ l, inner.logLevel = some l ↔ .logLevel l ∈ after := fun l => hin (.logLevel l)
  have hbefore : ∀ l, outer.logLevel = some l ↔ .logLevel l ∈ before := fun l => hout (.logLevel l)
  rw [List.mem_append, ← hafter, ← hbefore]
  cases hinner : inner.logLevel with
  | none => simp
  | some l =>
      -- With a level behind the command there is none before it.
      have hnot : outer.logLevel ≠ some level := by
        intro houter
        have hdisjoint := (List.nodup_append.mp (List.map_append ▸ h.once)).2.2
        exact hdisjoint _ (List.mem_map_of_mem ((hbefore level).mp houter)) _
          (List.mem_map_of_mem ((hafter l).mp hinner)) rfl
      simp [hnot]

/-- The command is complete when all four values are given, and only then. -/
theorem complete_format {g : Given} {i : Identity} (hname : g.name = some i.name)
    (hemail : g.email = some i.email) (hmillis : g.millis = some i.millis)
    (hoffset : g.offset = some i.offset) : complete .format g = .ok (.format i g.json) := by
  rw [complete, hname, hemail, hmillis, hoffset]

theorem complete_format_missing {g : Given} {item : Item}
    (h : item ∈ [.name, .email, .millis, .offset]) (hlacks : g.Lacks item) :
    complete .format g = .error .missingArgument := by
  simp only [List.mem_cons, List.not_mem_nil, or_false] at h
  unfold complete
  dsimp only
  split
  · next hname hemail hmillis hoffset =>
      rcases h with rfl | rfl | rfl | rfl
      · exact absurd rfl (hlacks (.name _) hname)
      · exact absurd rfl (hlacks (.email _) hemail)
      · exact absurd rfl (hlacks (.millis _) hmillis)
      · exact absurd rfl (hlacks (.offset _) hoffset)
  · rfl

/-! ## Values that are given by their place -/

theorem isNumeral_of_isDigit {cs : List Char} (h : ∀ c ∈ cs, c.isDigit = true)
    (isFirst hasPoint hasExponent : Bool) : isNumeral isFirst hasPoint hasExponent cs = true := by
  induction cs generalizing isFirst with
  | nil => rfl
  | cons c cs ih =>
      rw [List.forall_mem_cons] at h
      rw [isNumeral, if_pos h.1]
      exact ih h.2 false

/-- A numeral is a value where a number is wanted, with a minus as well as without. -/
theorem readArgument_numeral {topic : Topic} {p : Progress} {text : String} {z : Int}
    (hopen : p.valuesOnly = false) (hwants : wantsNegative topic p = true)
    (h : Decimal.int? text.toList = some z) :
    readArgument topic p text = takeValue topic p text := by
  cases hchars : text.toList with
  | nil => simp [readArgument, hopen, hchars]
  | cons c cs =>
      by_cases hminus : c = '-'
      · subst hminus
        obtain ⟨n, hn⟩ : ∃ n, Decimal.nat? cs = some n := by
          rw [hchars, Decimal.int?] at h
          cases hn : Decimal.nat? cs with
          | none =>
              rw [hn] at h
              cases h
          | some n => exact ⟨n, rfl⟩
        obtain ⟨hne, hdigits, -⟩ := Decimal.nat?_eq_some_iff.mp hn
        cases cs with
        | nil => exact absurd rfl hne
        | cons d ds =>
            have hd : d ≠ '-' := by
              rintro rfl
              exact absurd (hdigits '-' List.mem_cons_self) (by decide)
            have hnumeral : isNumeral true false false (d :: ds) = true :=
              isNumeral_of_isDigit hdigits true false false
            simp [readArgument, hopen, hchars, hd, hwants, hnumeral]
      · simp [readArgument, hopen, hchars, hminus]

theorem parse_timezone {offset : Offset} {text : String}
    (h : Decimal.int? text.toList = some offset.toInt) :
    parse ["timezone", text] = .ok { command := .timezone offset, logLevel := none } := by
  have hread : readArgument .timezone {} text =
      .ok { pending := some (.minutes, some text), placed := true } :=
    readArgument_numeral rfl rfl h
  have hput : ({} : Given).put .minutes text = .ok { minutes := some offset } :=
    store_eq_ok nofun (readOffset?_of_int? h)
  have hall : readAll .timezone {} [text] =
      .ok { given := { minutes := some offset }, placed := true } := by
    rw [readAll_cons, hread]
    change (({} : Given).put .minutes text >>= fun g => .ok (⟨g, none, false, true⟩ : Progress)) = _
    rw [hput]
    rfl
  have hname : Topic.command? "timezone" = some .timezone := by decide +kernel
  have hcalls : calls? {} "timezone" = some .timezone := hname
  rw [parse, readProgram_of_some hcalls, if_neg (by decide), hall]
  rfl

theorem parse_sanitize (text : String) :
    parse ["sanitize", "--", text] = .ok { command := .sanitize text, logLevel := none } := by
  rfl

/-- Whatever the values are, they are printed as they were given. The options of the command for
given identities may come in any order, the level before the command as well as behind it, and what
is printed is the line of the identity with these values, or its JSON; without one of the four values
the arguments are refused. The command for offsets prints the offset that a numeral denotes, and the
command for texts, behind two dashes, cleans any text. -/
theorem prints_what_is_given (signer : Signer) (zone : Zone) (clock : Clock) :
    (∀ c : Choice, c.Written c.plain)
    ∧ (∀ before after args, FormatCall before after args →
      (∀ i : Identity, .name i.name ∈ after → .email i.email ∈ after → .millis i.millis ∈ after →
        .offset i.offset ∈ after → ∃ call, parse args = .ok call
          ∧ (∀ level, call.logLevel = some level ↔ .logLevel level ∈ before ++ after)
          ∧ Command.printed signer zone clock call.command =
            .ok (if .json ∈ after then i.toJson else i.line))
      ∧ ∀ item ∈ [Item.name, .email, .millis, .offset], item ∉ after.map Choice.item →
        parse args = .error .missingArgument)
    ∧ (∀ (offset : Offset) (text : String), Decimal.int? text.toList = some offset.toInt →
      ∃ call, parse ["timezone", text] = .ok call
        ∧ Command.printed signer zone clock call.command = .ok offset.text)
    ∧ ∀ text, ∃ call, parse ["sanitize", "--", text] = .ok call
      ∧ Command.printed signer zone clock call.command = .ok (Text.sanitize text) := by
  refine ⟨Choice.written_plain, ?_, fun offset text h => ⟨_, parse_timezone h, rfl⟩,
    fun text => ⟨_, parse_sanitize text, rfl⟩⟩
  intro before after args h
  obtain ⟨inner, outer, hin, hout, hparse⟩ := h.parse_eq
  constructor
  · intro i hname hemail hmillis hoffset
    rw [complete_format ((hin _).mpr hname) ((hin _).mpr hemail) ((hin _).mpr hmillis)
      ((hin _).mpr hoffset)] at hparse
    refine ⟨_, hparse, h.level_iff hin hout, ?_⟩
    have hjson : inner.json = true ↔ .json ∈ after := hin .json
    change Except.ok (if inner.json = true then i.toJson else i.line) = _
    simp only [hjson]
  · intro item hitem hmissing
    have hlacks : inner.Lacks item := by
      intro d hsaid heq
      exact hmissing (heq ▸ List.mem_map_of_mem ((hin d).mp hsaid))
    rw [hparse, complete_format_missing hitem hlacks]
    rfl

/-- A name that looks like an option, no address, and negative numbers. -/
theorem prints_what_is_given_dashes :
    let before : List Choice := [.logLevel .info]
    let after : List Choice := [.offset (-90), .name "--name=x", .millis (-1500), .email ""]
    let args := ["--log-level=info", "format", "--tz=-90", "--name=--name=x", "--when=-1500",
      "--email="]
    FormatCall before after args
      ∧ ∃ call, parse args = .ok call ∧ call.logLevel = some .info
        ∧ Command.printed ⟨none, none⟩ .utc (.stopped 0) call.command =
          .ok "--name=x <> -1 -0130" := by
  intro before after args
  have hcall : FormatCall before after args := by
    refine ⟨⟨before.map Choice.plain, after.map Choice.plain, by decide +kernel, ?_, ?_⟩,
      by simp [before, Choice.item], by decide +kernel⟩
    · exact List.forall₂_map_right_iff.mpr (List.forall₂_same.mpr fun c _ => c.written_plain)
    · exact List.forall₂_map_right_iff.mpr (List.forall₂_same.mpr fun c _ => c.written_plain)
  obtain ⟨-, hformat, -⟩ := prints_what_is_given ⟨none, none⟩ .utc (.stopped 0)
  obtain ⟨call, hparse, hlevel, hprinted⟩ := (hformat before after args hcall).1
    ⟨"--name=x", "", -1500, -90⟩ (by simp [after]) (by simp [after]) (by simp [after])
    (by simp [after])
  refine ⟨hcall, call, hparse, (hlevel .info).mpr (by simp [before]), hprinted.trans ?_⟩
  exact congrArg Except.ok (by decide +kernel)

end IdentityLine.Arguments
