/-!
# Help

What the program prints when it is asked for help: one text for the program and
one for each of its commands. A command's version names the command as well.
-/

namespace IdentityLine.Arguments

/-- What help can be asked for. -/
inductive Topic where
  /-- The program itself. -/
  | program
  | committer
  | format
  | display
  | sanitize
  | timezone
  | help
deriving DecidableEq, Repr

namespace Topic

/-- The word that names a command on the command line. -/
def word : Topic → String
  | .program => "ident"
  | .committer => "committer"
  | .format => "format"
  | .display => "show"
  | .sanitize => "sanitize"
  | .timezone => "timezone"
  | .help => "help"

/-- The commands. -/
def commands : List Topic := [.committer, .format, .display, .sanitize, .timezone, .help]

/-- The command that a word names. -/
def command? (w : String) : Option Topic := commands.find? fun t => t.word == w

/-- The version text. -/
def version : Topic → String
  | .program => "ident 0.1.0\n"
  | t => "ident-" ++ t.word ++ " 0.1.0\n"

/-- The lines of a help text. -/
def helpLines : Topic → List String
  | .program =>
      ["Build and format author/committer identity lines",
        "",
        "Usage: ident [OPTIONS] <COMMAND>",
        "",
        "Commands:",
        "  committer  Print the configured committer as a canonical identity line",
        "  format     Print an identity built from explicit values as a canonical line",
        "  show       Print the configured committer in human-readable form",
        "  sanitize   Strip padding, newlines and angle brackets from text",
        "  timezone   Format an offset in minutes as +HHMM / -HHMM",
        "  help       Print this message or the help of the given subcommand(s)",
        "",
        "Options:",
        "      --log-level <LOG_LEVEL>  Override logging.level from config (off, error, warn, info, debug, trace)",
        "  -h, --help                   Print help",
        "  -V, --version                Print version"]
  | .committer =>
      ["Print the configured committer as a canonical identity line",
        "",
        "Usage: ident committer [OPTIONS]",
        "",
        "Options:",
        "      --when <WHEN>            Milliseconds since the Unix epoch (default: now)",
        "      --tz <TZ>                Offset in minutes east of UTC (default: local zone at that instant)",
        "      --json                   Print the identity as JSON instead",
        "      --log-level <LOG_LEVEL>  Override logging.level from config (off, error, warn, info, debug, trace)",
        "  -h, --help                   Print help",
        "  -V, --version                Print version"]
  | .format =>
      ["Print an identity built from explicit values as a canonical line",
        "",
        "Usage: ident format [OPTIONS] --name <NAME> --email <EMAIL> --when <WHEN> --tz <TZ>",
        "",
        "Options:",
        "      --name <NAME>            Display name",
        "      --email <EMAIL>          Email address",
        "      --when <WHEN>            Milliseconds since the Unix epoch",
        "      --tz <TZ>                Offset in minutes east of UTC",
        "      --json                   Print the identity as JSON instead",
        "      --log-level <LOG_LEVEL>  Override logging.level from config (off, error, warn, info, debug, trace)",
        "  -h, --help                   Print help",
        "  -V, --version                Print version"]
  | .display =>
      ["Print the configured committer in human-readable form",
        "",
        "Usage: ident show [OPTIONS]",
        "",
        "Options:",
        "      --when <WHEN>            Milliseconds since the Unix epoch (default: now)",
        "      --tz <TZ>                Offset in minutes east of UTC (default: local zone at that instant)",
        "      --log-level <LOG_LEVEL>  Override logging.level from config (off, error, warn, info, debug, trace)",
        "  -h, --help                   Print help",
        "  -V, --version                Print version"]
  | .sanitize =>
      ["Strip padding, newlines and angle brackets from text",
        "",
        "Usage: ident sanitize [OPTIONS] <TEXT>",
        "",
        "Arguments:",
        "  <TEXT>  Text to clean",
        "",
        "Options:",
        "      --log-level <LOG_LEVEL>  Override logging.level from config (off, error, warn, info, debug, trace)",
        "  -h, --help                   Print help",
        "  -V, --version                Print version"]
  | .timezone =>
      ["Format an offset in minutes as +HHMM / -HHMM",
        "",
        "Usage: ident timezone [OPTIONS] <MINUTES>",
        "",
        "Arguments:",
        "  <MINUTES>  Offset in minutes east of UTC",
        "",
        "Options:",
        "      --log-level <LOG_LEVEL>  Override logging.level from config (off, error, warn, info, debug, trace)",
        "  -h, --help                   Print help",
        "  -V, --version                Print version"]
  | .help =>
      ["Print this message or the help of the given subcommand(s)",
        "",
        "Usage: ident help [COMMAND]...",
        "",
        "Arguments:",
        "  [COMMAND]...  Print help for the subcommand(s)"]

/-- The help text. -/
def helpText (t : Topic) : String :=
  String.join (t.helpLines.map fun l => l ++ "\n")

end Topic

end IdentityLine.Arguments
