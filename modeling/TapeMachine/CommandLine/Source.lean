import TapeMachine.CommandLine.Console
import TapeMachine.Sample

/-! # The source that a command works on -/

namespace TapeMachine.CommandLine

/-- A source comes from words of code, a file or a sample, and only from one of them. -/
def checkSource (usage : String → List String) (code : List String) (file sample : Option String) :
    Job Unit := do
  let named := file.isSome || sample.isSome
  if !named && code.isEmpty then
    printUsage usage
    throw 2
  if named && !code.isEmpty then
    complain "cannot use positional code together with --file or --sample"
    printUsage usage
    throw 2

def resolveSource (code : List String) (file sample : Option String) : Job String := do
  match sample, file with
  | some name, _ =>
    match Sample.find? name with
    | some s => return s.code
    | none => fail 2 s!"unknown sample '{name}' (available: {Sample.names})"
  | none, some path =>
    match ← readTextFile path with
    | .ok text => return text
    | .error e => fail 1 s!"failed to read code file as UTF-8: {e.message}"
  | none, none => return String.join code

def readInputFile (path : String) : Job (List UInt8) := do
  match (← read).contents path with
  | .ok bytes => return bytes
  | .error e => fail 1 s!"failed to read input: {e.message}"

end TapeMachine.CommandLine
