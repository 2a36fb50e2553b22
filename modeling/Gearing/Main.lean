import Gearing.Command.Program

/-!
The command line of the program. Logic is in `Gearing.Command`; here the surroundings are read and the
answer is printed.
-/
namespace Gearing.Command

def readText? (path : String) : IO (Option String) := do
  try
    return some (← IO.FS.readFile path)
  catch _ => return none

/-- Reads the files that an invocation asks for, ahead of it. -/
def readFiles (paths : List String) : IO Files := do
  let texts ← paths.mapM fun p => return (p, ← readText? p)
  return fun path => (texts.lookup path).join

def usage : String :=
  "usage: [--engine-config FILE] plan SYMBOL TARGET [--principal AMOUNT] [--helper ADDRESS]\n" ++
  "       [--engine-config FILE] simulate SYMBOL PRINCIPAL TARGET [--native]"

def surroundings (args : List String) : IO Environment := do
  let env : Environment := {
    profile := ← IO.getEnv "LOOPER_PROFILE"
    market := ← IO.getEnv "MARKET"
    configDirectory := ← IO.getEnv "CONFIG_DIR"
    files := fun _ => none }
  let settings := ((invocation? args).bind (·.engineConfig)).toList
  return { env with files := ← readFiles (marketPath env :: settings) }

end Gearing.Command

open Gearing.Command in
def main (args : List String) : IO UInt32 := do
  match run (← surroundings args) args with
  | .printed document =>
    IO.println document.pretty
    return 0
  | .failed cause =>
    IO.eprintln ("Error: " ++ cause.message)
    return 1
  | .misused =>
    IO.eprintln usage
    return 2
  | .trapped trap =>
    IO.eprintln trap.message
    return 101
