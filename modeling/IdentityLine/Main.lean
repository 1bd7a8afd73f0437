import IdentityLine.Machine

/-!
# The command line

Runs the program on the machine it finds itself on, prints what the run says and
exits with its code.
-/

open IdentityLine

def main (args : List String) : IO UInt32 := do
  let outcome ← Machine.run args
  IO.eprint outcome.stderr
  IO.print outcome.stdout
  return outcome.exitCode.toUInt32
