import Spillway.Cli.Run

/-!
# The program

The machine that the process runs on, and the entry point.
-/

namespace Spillway

/-- Whether an action of the machine succeeds. -/
def succeeds (act : IO Unit) : IO Bool := do
  try
    act
    return true
  catch _ => return false

/-- What a database file holds. -/
def findingIn (text : String) : Finding :=
  match Tables.ofImage? text with
  | some tables => .tables tables
  | none => .junk

instance : Machine IO where
  workingFolders := return Path.upward (Path.steps (← IO.currentDir).toString)
  held name := IO.getEnv name
  readText path := do
    try return some (← IO.FS.readFile path) catch _ => return none
  makeFolder path :=
    if path = "" then return true else succeeds (IO.FS.createDirAll path)
  openLog path := succeeds (IO.FS.withFile path .append fun _ => return ())
  openDatabase path := do
    if path = "" then return .tables []
    try return findingIn (← IO.FS.readFile path)
    catch
      | .noFileOrDirectory .. => return .tables []
      | _ => return .nothing
  keep path tables := if path = "" then return () else IO.FS.writeFile path (Tables.image tables)

end Spillway

/-- Run the program on its arguments. -/
def main (args : List String) : IO UInt32 := do
  let outcome ← (Spillway.Cli.run args : IO Spillway.Cli.Outcome)
  IO.print outcome.out
  IO.eprint outcome.err
  return UInt32.ofNat outcome.code
