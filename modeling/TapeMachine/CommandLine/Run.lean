import TapeMachine.CommandLine.Arguments
import TapeMachine.CommandLine.Source
import TapeMachine.CommandLine.Usage
import TapeMachine.Session
import TapeMachine.Tape.Grid

/-!
# The command `run`

Runs a program once: what it writes goes to standard output with a line feed behind it, everything
else to standard error.
-/

namespace TapeMachine.CommandLine

/-- Input for `,`: a text, a file, or standard input when the program reads and nobody would have
to type. -/
def runInput (a : RunArguments) (program : Program) : Job (List UInt8) := do
  match a.input, a.inputFile with
  | some text, _ => return Text.utf8 text
  | none, some path => readInputFile path
  | none, none =>
    let around ← read
    return if Instruction.read ∈ program.ops && !around.stdinIsTerminal then around.stdin else []

/-- After how many ticks, or steps taken one by one, an interrupt has come: in a traced run each
puts one line on standard error. -/
def interrupts : Job (Nat → Bool) := do
  let note := if Level.debug.reaches (← threshold) then 1 else 0
  let before := (← get).errorLines.length + note
  let after := (← read).interruptAfter
  return fun count => after.any (· ≤ before + count)

/-- Only a speed that is asked for paces the run. -/
def RunArguments.speed (a : RunArguments) : Speed :=
  match a.speedMs with
  | some ms => .ofMillis ms a.instant
  | none => .instant

/-- Prints what a run reported; each look at the tape ends a tick, and the pause after it
follows. -/
def printEvents (trace : Bool) : List Event → List Delay → Job Unit
  | [], _ => pure ()
  | .output byte :: rest, pauses => do
    print [byte]
    printEvents trace rest pauses
  | .step e :: rest, pauses => do
    if trace then printError (Report.trace e)
    printEvents trace rest pauses
  | .tape _ :: rest, d :: pauses => do
    record (.pause d)
    printEvents trace rest pauses
  | _ :: rest, pauses => printEvents trace rest pauses

def printReply {α : Type} (trace : Bool) (reply : Reply α) : Job Unit := do
  printNotes reply.before
  printEvents trace reply.events reply.pauses
  printNotes reply.after

/-- Runs a session that is ready, as the arguments say. -/
def execute (a : RunArguments) (s : Session) : Job (Reply Outcome) := do
  match a.speed with
  | .delay d =>
    return s.runPaced { speedAfter := fun _ => .delay d, cancelsIn := ← interrupts }
  | .instant =>
    if a.trace then return s.stepToEnd (← interrupts)
    else
      let reply := s.runInstant
      return { reply with result := reply.result.map .ended }

/-- Reports how the run ended, as an exit code. -/
def printOutcome (s : Session) : Outcome → Job Nat
  | .ended .halted => pure 0
  | .ended status => do
    printNote ⟨.info, s!"run ended with status {status.text}"⟩
    return 1
  | .cancelled => do
    printError s!"Execution cancelled after {s.machine?.elim 0 Machine.steps} steps"
    return 130

/-- A write that failed is an error, except that nobody was there to read. -/
def checkSink : Job Unit := do
  match (← read).sink with
  | .full =>
    let failure := (Sink.failure? .full).getD ""
    printNote ⟨.error, s!"failed to write program output: {failure}"⟩
    throw 1
  | .working | .closed => pure ()

def runProgram (a : RunArguments) : Job Nat := do
  if a.help then
    printUsage Usage.run
    return 0
  checkSource Usage.run a.code a.file a.sample
  let source ← resolveSource a.code a.file a.sample
  let settings ← loadSettings
  let settings := { settings with
    maxSteps := a.maxSteps.elim settings.maxSteps (max · 1)
    eof := a.eof.getD settings.eof }
  let session := (Session.new settings.tapeSize settings.config).setSource source
  match session.check with
  | .error e =>
    (Report.loadError (some programName) source e).forM printLine
    return 1
  | .ok program =>
    let input ← runInput a program
    let reply ← execute a (session.setInput input.toArray)
    printReply a.trace reply
    print [0x0A]
    match reply.result with
    | .error e =>
      printLine (.header s!"{programName}: {e.message}")
      return 1
    | .ok outcome =>
      if a.dumpTape then
        (reply.session.tape.touchedRows .hex).forM printError
      (diagnosticsOf reply.events).forM (printError ·.message)
      let exit ← printOutcome reply.session outcome
      checkSink
      return exit

end TapeMachine.CommandLine
