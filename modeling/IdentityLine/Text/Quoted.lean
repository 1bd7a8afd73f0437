import IdentityLine.Text.Decimal
import IdentityLine.Text.Unseen

/-!
# Text in quotes, as a log record shows it

A record that quotes an identity must stay on one line and must show what is
there, so a quote, a backslash, a line break and every character that would not
be seen are written as escapes. An escape by number has no fixed width: the
braces around it say where it ends.
-/

namespace IdentityLine.Text

/-- One character inside quotes. -/
def quoteChar (c : Char) : List Char :=
  if c = '"' then ['\\', '"']
  else if c = '\\' then ['\\', '\\']
  else if c = '\t' then ['\\', 't']
  else if c = '\n' then ['\\', 'n']
  else if c = '\r' then ['\\', 'r']
  else if c.toNat = 0 then ['\\', '0']
  else if isSeen c then [c]
  else '\\' :: 'u' :: '\x7b' :: (Decimal.hex c.toNat ++ ['\x7d'])

/-- A text in quotes. -/
def quoted (s : String) : String :=
  String.ofList ('"' :: (s.toList.flatMap quoteChar ++ ['"']))

end IdentityLine.Text
