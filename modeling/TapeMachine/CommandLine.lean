import TapeMachine.CommandLine.Debug
import TapeMachine.CommandLine.Run
import TapeMachine.CommandLine.Watch

/-!
# The command line

The whole program as a function of what surrounds it.
-/

namespace TapeMachine.CommandLine

structure Answer where
  exit : Nat
  console : Console

def Request.job : Request → Job Nat
  | .help => do
    printUsage Usage.top
    return 0
  | .run a => runProgram a
  | .debug a => runDebugger a
  | .watch a => runViewer a

/-- Does what is asked for. What was done before an early stop stays done. -/
def Request.answer (request : Request) (around : Surroundings) : Answer :=
  match (request.job.run around).run {} with
  | .ok exit console => ⟨exit, console⟩
  | .error exit console => ⟨exit, console⟩

/-- The answer to a command line, or none when its arguments make no sense. -/
def answer? (around : Surroundings) : Option Answer :=
  (Request.read around.arguments).map (·.answer around)

/-! ## What a request needs -/

/-- The variables that are looked at. -/
def variableNames : List String :=
  ["BFVM_CONFIG", "XDG_CONFIG_HOME", "HOME", "BFVM_LOG", "BFVM_DEBUG_MODE"] ++
    Settings.environmentKeys.map Prod.fst

/-- The files that a request may read. -/
def Request.paths (request : Request) (lookup : String → Option String) : List String :=
  request.files ++ (settingsPath? lookup).toList

/-- Whether a request takes standard input. -/
def Request.wantsStdin (request : Request) (around : Surroundings) : Bool :=
  match request with
  | .run a =>
    !a.help && a.input.isNone && a.inputFile.isNone && !around.stdinIsTerminal &&
      match ((resolveSource a.code a.file a.sample).run around).run {} with
      | .ok source _ => ',' ∈ source.toList
      | .error _ _ => false
  | .debug a => a.mode? around = some .bare
  | .help | .watch _ => false

end TapeMachine.CommandLine
