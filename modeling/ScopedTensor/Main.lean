import ScopedTensor.CommandLine.Execution
import ScopedTensor.Element.Interchange

/-! The program. Engines in files are not loaded: a library path always fails to open. -/

namespace ScopedTensor.CommandLine

def Request.configText (r : Request) : IO (Option String) := do
  match r with
  | .run o _ =>
    match o.config with
    | some path => try return some (← IO.FS.readFile path) catch _ => return none
    | none => return none
  | _ => return none

def variableNames : List String :=
  ["NDBIND_LIBRARY", "NDBIND_LIBRARY_PATH", "NDBIND_DEFAULT_DEVICE", "NDBIND_RANDOM_SEED"]

end ScopedTensor.CommandLine

open ScopedTensor CommandLine Interchange

def main (words : List String) : IO UInt32 := do
  let request := Request.ofWords words
  let text ← request.configText
  let found ← variableNames.mapM fun name => return (name, ← IO.getEnv name)
  let surroundings : Surroundings :=
    { fileText := fun _ => text
      environment := fun name => (found.lookup name).join
      load := fun _ => .error "cannot be loaded by this program" }
  let outcome := respond surroundings request
  IO.print outcome.printed
  match outcome.error with
  | some e => IO.eprintln ("error: " ++ e.message)
  | none => if outcome.exit = 2 then IO.eprintln "error: unusable arguments; try '--help'"
  return outcome.exit.toUInt32
