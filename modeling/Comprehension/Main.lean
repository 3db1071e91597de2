import Comprehension.CommandLine.Run

/-!
The command line program: it gathers what a run sees and prints what it leaves behind.
-/
namespace Comprehension.CommandLine

/-- Reads a file that exists and is text. -/
def readText? (path : String) : IO (Option File) := do
  try return some (.text (← IO.FS.readFile path)) catch _ => return none

/-- The directory of the user's configuration files. -/
def configDirectory? : IO (Option String) := do
  let ofHome := (← IO.getEnv "HOME").map (· ++ "/.config")
  match ← IO.getEnv "XDG_CONFIG_HOME" with
  | some directory => return if directory.startsWith "/" then some directory else ofHome
  | none => return ofHome

/-- The files that a run may read. -/
def surroundings (args : List String) : IO Surroundings := do
  let schema? ← IO.getEnv "QUILL_SCHEMA"
  let config? ← match ← configDirectory? with
    | some directory => readText? (directory ++ "/quill/config.toml")
    | none => pure none
  let paths := ((Request.ofArguments schema? args).map Request.paths).getD []
  let files ← paths.mapM fun path => do return (path, ← readText? path)
  return { schema?, config?, file := fun path => (files.lookup path).join }

end Comprehension.CommandLine

open Comprehension.CommandLine in
def main (args : List String) : IO UInt32 := do
  let outcome := run (← surroundings args) args
  IO.print outcome.output
  IO.eprint outcome.errors
  return UInt32.ofNat outcome.status
