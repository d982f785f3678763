import Reconciliation.CommandLine.Session

/-!
# The program

Reads the files that the command line names, and prints what the command brings.  It opens no
connections, so a store behind an address is out of its reach.
-/

namespace Reconciliation.CommandLine

/-- The text of a file, or the reason why there is none. -/
def readFile (path : String) : IO FileContent := do
  try
    return .ok (← IO.FS.readFile path)
  catch
    | .noFileOrDirectory .. => return .error "No such file or directory (os error 2)"
    | error => return .error (toString error)

/-- Carries out an invocation, and prints what it brings. -/
def perform (invocation : Invocation) : IO UInt32 := do
  let home ← IO.getEnv "HOME"
  let files ← (invocation.paths home).mapM fun path => return (path, ← readFile path)
  let around : Surroundings Unit := {
    files := fun path => (files.lookup path).getD (.error "not read")
    home
    stamp := .standard ""
    carrier := .unreachable "io: no connection" }
  let (ending, ()) := invocation.run around ()
  IO.print ending.output
  IO.eprint ending.errors
  return ending.code.toUInt32

end Reconciliation.CommandLine

open Reconciliation.CommandLine in
/-- Runs the program. -/
def main (words : List String) : IO UInt32 := do
  match Invocation.parse words with
  | .ok invocation => perform invocation
  | .error usage =>
    IO.eprintln usage.name
    return usage.code.toUInt32
