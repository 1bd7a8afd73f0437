import IdentityLine.Arguments.Help
import IdentityLine.Command

/-!
# Arguments

The arguments name a command and give it its values, and the level of logging may
be given on either side of the command. They are read one after another:

* an option is written with two dashes, its value behind an equals sign or as the
  next argument;
* two dashes alone end the options, and everything behind them is a value;
* a value that looks like an option is none, except that a number may be negative
  where a number is wanted.

The value of an option that came as an argument of its own is only looked at when
the next option or value comes, so that an argument that makes no sense at all is
reported first. The same holds of everything before the command: it is looked at
after the command's own arguments.
-/

namespace IdentityLine

/-- What arguments can be besides a command. -/
inductive Usage where
  | unknownArgument
  /-- An option without its value. -/
  | missingValue
  /-- A value that does not denote what the option is about. -/
  | badValue
  /-- An option that is given twice. -/
  | repeated
  /-- A value for an option that takes none. -/
  | unneededValue
  | missingArgument
  | unknownCommand
  | missingCommand
  /-- Nothing at all; the program's help answers. -/
  | nothing
  | help (topic : Arguments.Topic)
  | version (topic : Arguments.Topic)
deriving DecidableEq, Repr

namespace Usage

/-- The code the program exits with. Asking for help or a version is no failure. -/
def exitCode : Usage → Nat
  | .help _ | .version _ => 0
  | _ => 2

/-- The text that answers, if the answer is one that was asked for or a help text. -/
def text? : Usage → Option String
  | .help t => some t.helpText
  | .version t => some t.version
  | .nothing => some Arguments.Topic.program.helpText
  | _ => none

/-- What is wrong with the arguments, in a few words. -/
def complaint : Usage → String
  | .unknownArgument => "an argument is not known"
  | .missingValue => "an option lacks its value"
  | .badValue => "a value does not fit its option"
  | .repeated => "an option is given twice"
  | .unneededValue => "an option takes no value"
  | .missingArgument => "a required argument is missing"
  | .unknownCommand => "there is no such command"
  | .missingCommand | .nothing => "a command is missing"
  | .help _ | .version _ => "nothing is wrong"

end Usage

/-- A command as it is called, with the level of logging that replaces the one of the settings. -/
structure Invocation where
  command : Command
  logLevel : Option Level
deriving DecidableEq

namespace Arguments

/-! ## What may be given -/

/-- What an argument can be about. -/
inductive Item where
  | logLevel
  | name
  | email
  | millis
  | offset
  | json
  /-- The text to clean. -/
  | text
  /-- The offset to write. -/
  | minutes
deriving DecidableEq, Repr

namespace Item

/-- The word of an option, behind its two dashes. What has none is given by its place. -/
def word : Item → Option String
  | .logLevel => some "log-level"
  | .name => some "name"
  | .email => some "email"
  | .millis => some "when"
  | .offset => some "tz"
  | .json => some "json"
  | .text | .minutes => none

/-- Whether an option takes a value. -/
def takesValue (i : Item) : Bool := i != .json

/-- Whether the value may be a negative number. -/
def takesNegative : Item → Bool
  | .millis | .offset | .minutes => true
  | _ => false

end Item

/-- The options of a command. -/
def options : Topic → List Item
  | .program => [.logLevel]
  | .committer => [.millis, .offset, .json, .logLevel]
  | .format => [.name, .email, .millis, .offset, .json, .logLevel]
  | .display => [.millis, .offset, .logLevel]
  | .sanitize | .timezone => [.logLevel]
  | .help => []

/-- The value that a command takes by its place. -/
def positional? : Topic → Option Item
  | .sanitize => some .text
  | .timezone => some .minutes
  | _ => none

/-- What has been given. -/
structure Given where
  logLevel : Option Level := none
  name : Option String := none
  email : Option String := none
  millis : Option Int64 := none
  offset : Option Offset := none
  json : Bool := false
  text : Option String := none
  minutes : Option Offset := none
deriving DecidableEq

/-- A number of milliseconds. -/
def readMillis? (s : String) : Option Int64 := do
  let z ← Decimal.int? s.toList
  if Int64.minValue.toInt ≤ z ∧ z ≤ Int64.maxValue.toInt then some (Int64.ofInt z) else none

/-- An offset in minutes. -/
def readOffset? (s : String) : Option Offset := do
  let z ← Decimal.int? s.toList
  if Int32.minValue.toInt ≤ z ∧ z ≤ Int32.maxValue.toInt then some (Int32.ofInt z) else none

/-- Put a value in its place, which must still be empty. -/
def store {α : Type} (held : Option α) (read : String → Option α) (put : α → Given)
    (value : String) : Except Usage Given :=
  if held.isSome then .error .repeated
  else
    match read value with
    | some v => .ok (put v)
    | none => .error .badValue

/-- What has been given, with one item more. -/
def Given.put (g : Given) (item : Item) (value : String) : Except Usage Given :=
  match item with
  | .logLevel => store g.logLevel Level.named? (fun v => { g with logLevel := some v }) value
  | .name => store g.name some (fun v => { g with name := some v }) value
  | .email => store g.email some (fun v => { g with email := some v }) value
  | .millis => store g.millis readMillis? (fun v => { g with millis := some v }) value
  | .offset => store g.offset readOffset? (fun v => { g with offset := some v }) value
  | .json => if g.json then .error .repeated else .ok { g with json := true }
  | .text => store g.text some (fun v => { g with text := some v }) value
  | .minutes => store g.minutes readOffset? (fun v => { g with minutes := some v }) value

/-! ## Reading arguments -/

/-- How far the arguments of a command have been read. -/
structure Progress where
  given : Given := {}
  /-- What came last and has not been looked at yet; it has no value while that is still to come. -/
  pending : Option (Item × Option String) := none
  /-- Whether two dashes alone have ended the options. -/
  valuesOnly : Bool := false
  /-- Whether the value that is given by its place has come. -/
  placed : Bool := false
deriving DecidableEq

namespace Progress

/-- Look at what came last. -/
def settle (p : Progress) : Except Usage Progress :=
  match p.pending with
  | none => .ok p
  | some (_, none) => .error .missingValue
  | some (item, some value) => do
      return { p with given := ← p.given.put item value, pending := none }

/-- The option whose value is still to come. -/
def awaiting (p : Progress) : Option Item :=
  match p.pending with
  | some (item, none) => some item
  | _ => none

end Progress

/-- Whether a text is written like a number without a sign: digits, at most one point among them
and at most one exponent behind them. -/
def isNumeral (isFirst hasPoint hasExponent : Bool) : List Char → Bool
  | [] => true
  | c :: cs =>
      if c.isDigit then isNumeral false hasPoint hasExponent cs
      else if c = '.' ∧ !isFirst ∧ !hasPoint ∧ !hasExponent then isNumeral false true false cs
      else if (c = 'e' ∨ c = 'E') ∧ !isFirst ∧ !hasExponent then
        !cs.isEmpty && isNumeral false hasPoint true cs
      else false

/-- The word of an option, and its value if one is attached. -/
def splitEquals : List Char → List Char × Option (List Char)
  | [] => ([], none)
  | c :: cs =>
      if c = '=' then ([], some cs)
      else ((c :: (splitEquals cs).1), (splitEquals cs).2)

/-- Read an option by its word. -/
def readOption (topic : Topic) (p : Progress) (word : String) (attached : Option String) :
    Except Usage Progress :=
  match (options topic).find? fun item => item.word == some word with
  | some item =>
      if item.takesValue then do
        let p ← p.settle
        match attached with
        | some value => return { p with given := ← p.given.put item value }
        | none => return { p with pending := some (item, none) }
      else
        match attached with
        | some _ => .error .unneededValue
        | none => do
            let p ← p.settle
            return { p with given := ← p.given.put item "" }
  | none =>
      if word = "help" ∨ word = "version" then
        if attached.isSome then .error .unneededValue
        else do
          let _ ← p.settle
          .error (if word = "help" then .help topic else .version topic)
      else .error .unknownArgument

/-- Read an option by its letter, the first behind a single dash. -/
def readLetter (topic : Topic) (p : Progress) (letter : Char) : Except Usage Progress :=
  if letter = 'h' ∨ letter = 'V' then do
    let _ ← p.settle
    .error (if letter = 'h' then .help topic else .version topic)
  else .error .unknownArgument

/-- Take a value by its place. -/
def takePlace (topic : Topic) (p : Progress) (value : String) : Except Usage Progress :=
  match positional? topic, p.placed with
  | some item, false => do
      let p ← p.settle
      return { p with pending := some (item, some value), placed := true }
  | _, _ =>
      if topic = .program ∧ !(p.valuesOnly && (Topic.command? value).isSome) then
        .error .unknownCommand
      else .error .unknownArgument

/-- Take a value, for the option that still waits for one or else by its place. -/
def takeValue (topic : Topic) (p : Progress) (value : String) : Except Usage Progress :=
  match p.awaiting with
  | some item => .ok { p with pending := some (item, some value) }
  | none => takePlace topic p value

/-- Whether a negative number is a value here: where an option waits for one that may be negative,
and where the next place is a number's. -/
def wantsNegative (topic : Topic) (p : Progress) : Bool :=
  p.awaiting.any Item.takesNegative
    || (!p.placed && (positional? topic).any Item.takesNegative)

/-- Read one argument that is not the name of a command. -/
def readArgument (topic : Topic) (p : Progress) (arg : String) : Except Usage Progress :=
  if p.valuesOnly then takePlace topic p arg
  else
    match arg.toList with
    | ['-', '-'] => .ok { p with valuesOnly := true }
    | '-' :: '-' :: cs =>
        let (word, attached) := splitEquals cs
        readOption topic p (String.ofList word) (attached.map String.ofList)
    | '-' :: letter :: cs =>
        if wantsNegative topic p && isNumeral true false false (letter :: cs) then
          takeValue topic p arg
        else readLetter topic p letter
    | _ => takeValue topic p arg

/-- Read the arguments of a command, all of them. -/
def readAll (topic : Topic) (p : Progress) : List String → Except Usage Progress
  | [] => p.settle
  | arg :: args => do readAll topic (← readArgument topic p arg) args

/-- The command, once everything it needs is given. -/
def complete (topic : Topic) (g : Given) : Except Usage Command :=
  let time : TimeChoice := { millis := g.millis, offset := g.offset }
  match topic with
  | .program => .error .missingCommand
  | .committer => .ok (.committer time g.json)
  | .format =>
      match g.name, g.email, g.millis, g.offset with
      | some name, some email, some millis, some offset =>
          .ok (.format { name, email, millis, offset } g.json)
      | _, _, _, _ => .error .missingArgument
  | .display => .ok (.display time)
  | .sanitize =>
      match g.text with
      | some text => .ok (.sanitize text)
      | none => .error .missingArgument
  | .timezone =>
      match g.minutes with
      | some offset => .ok (.timezone offset)
      | none => .error .missingArgument
  | .help => .error .unknownCommand

/-- Answer the command that asks for help on another, by the arguments behind it. -/
def askHelp : List String → Usage
  | [] => .help .program
  | arg :: rest =>
      match Topic.command? arg, rest with
      | some topic, [] => .help topic
      | _, _ => .unknownCommand

/-- Read the arguments of the program. `p` is how far those before the command have been read. -/
def readProgram (p : Progress) : List String → Except Usage Invocation
  | [] => do
      let p ← p.settle
      if p.given = {} then .error .nothing else .error .missingCommand
  | arg :: args =>
      match if p.valuesOnly || p.awaiting.isSome then none else Topic.command? arg with
      | some .help => .error (askHelp args)
      | some topic => do
          let inner ← readAll topic {} args
          let command ← complete topic inner.given
          let outer ← p.settle
          return { command, logLevel := inner.given.logLevel <|> outer.given.logLevel }
      | none => do readProgram (← readArgument .program p arg) args

/-- The command that arguments call. -/
def parse (args : List String) : Except Usage Invocation :=
  readProgram {} args

end Arguments

end IdentityLine
