import TapeMachine.CommandLine.Arguments
import TapeMachine.CommandLine.Source
import TapeMachine.CommandLine.Usage
import TapeMachine.Debugger

/-!
# The command `debug`

The debugger, fed with a script from standard input or line by line from a terminal.
-/

namespace TapeMachine.CommandLine

inductive Mode where
  | bare
  | editor
deriving DecidableEq, Repr

def chooseEditor (stdinIsTerminal : Bool) (advice : String) : Except String Mode :=
  if stdinIsTerminal then .ok .editor
  else .error s!"cannot start editor: stdin is not a TTY (use {advice})"

/-- The options decide, then the variable, then whether standard input is a terminal. -/
def chooseMode (a : DebugArguments) (setting : Option String) (stdinIsTerminal : Bool) :
    Except String Mode :=
  if a.bare then .ok .bare
  else if a.editor then chooseEditor stdinIsTerminal "--bare or BFVM_DEBUG_MODE=bare"
  else
    match setting with
    | none => .ok (if stdinIsTerminal then .editor else .bare)
    | some value =>
      match Text.lowered (Text.trimmed value) with
      | "bare" => .ok .bare
      | "editor" => chooseEditor stdinIsTerminal "BFVM_DEBUG_MODE=bare"
      | _ => .error s!"invalid BFVM_DEBUG_MODE value: {value}, must be 'bare' or 'editor'"

/-- The mode that the debugger starts in, if it starts. -/
def DebugArguments.mode? (a : DebugArguments) (around : Surroundings) : Option Mode :=
  if a.help then none
  else (chooseMode a (around.lookup "BFVM_DEBUG_MODE") around.stdinIsTerminal).toOption

/-! ## Saying things -/

def failDebugger {α : Type} (reason : String) : Job α :=
  fail 1 s!"debugger error: {reason}"

/-- Bytes that wait at most for the end of their line. -/
def lineRoom : Nat := 1024

/-- Bytes that wait after a write while `held` of them waited before it, or none if the write makes
them go out: it ends a line, or there is no room for it. -/
def wait? (held : Nat) (bytes : List UInt8) : Option Nat :=
  let fits := if held = 0 then bytes.length < lineRoom else held + bytes.length ≤ lineRoom
  if 0x0A ∈ bytes || !fits then none else some (held + bytes.length)

/-- Stops because the output is broken. A script whose output is closed ends in peace, unless some
of it still waits to go out. -/
def failOutput {α : Type} (mode : Mode) (held : Nat) (failure : String) : Job α := do
  if mode = .bare && held = 0 && (← read).sink = .closed then
    printNote ⟨.warn, "output closed early"⟩
    throw 0
  else failDebugger failure

/-- One write, after which so many bytes wait. Output waits until a line is complete, so that is
when a broken output shows. -/
def write (mode : Mode) (held : Nat) (bytes : List UInt8) : Job Nat := do
  print bytes
  match (← read).sink.failure? with
  | none => return 0
  | some failure =>
    match wait? held bytes with
    | some held => return held
    | none => failOutput mode held failure

def say (mode : Mode) (held : Nat) (saying : Saying) : Job Nat :=
  match saying with
  | .side line => do
    printLine line
    return held
  | .note n => do
    printNote n
    return held
  | s => s.writes.foldlM (write mode) held

def sayAll (mode : Mode) (said : List Saying) : Job Unit := do
  let _ ← said.foldlM (say mode) 0

/-! ## The two modes -/

def runBare (d : Debugger) : Job Nat := do
  match Text.Utf8.text? (← read).stdin with
  | none => failDebugger FileError.notText.message
  | some script =>
    sayAll .bare (d.runScript script).said
    return 0

/-- The prompt's status and the line as it is shown; text of several lines is left out. -/
def paintPrompt (d : Debugger) (text : String) : Job Unit :=
  modify fun c =>
    let shown := if '\n' ∈ text.toList then none else some (d.promptStatus, paintLine text)
    { c with painted := c.painted.push shown }

def runTyped (d : Debugger) : List Typed → Job Nat
  | [] => pure 0
  | .leave :: _ => do
    paintPrompt d ""
    sayAll .editor [.output [0x0A]]
    return 0
  | .line text :: rest => do
    paintPrompt d text
    let turn := d.handle text
    sayAll .editor turn.said
    if turn.leaves then return 0 else runTyped turn.debugger rest

def banner : String :=
  "Brainfuck stepping debugger. Type :help for commands, Ctrl+C to exit"

def runEditor (d : Debugger) : Job Nat := do
  let around ← read
  if around.stderrIsTerminal then printError banner
  runTyped d around.typed

/-- The debugger with the input and the source that the arguments give it. -/
def prepareDebugger (mode : Mode) (a : DebugArguments) : Job Debugger := do
  let settings ← loadSettings
  let d := Debugger.new settings
  let d := a.input.elim d fun text => d.setInput (Text.unescape text.toList)
  if a.file.isNone && a.sample.isNone then return d
  let turn := d.load (← resolveSource [] a.file a.sample)
  sayAll mode turn.said
  return turn.debugger

def runDebugger (a : DebugArguments) : Job Nat := do
  if a.help then
    printUsage Usage.debug
    return 0
  let around ← read
  match chooseMode a (around.lookup "BFVM_DEBUG_MODE") around.stdinIsTerminal with
  | .error message => fail 1 message
  | .ok mode =>
    let d ← prepareDebugger mode a
    match mode with
    | .bare => runBare d
    | .editor => runEditor d

end TapeMachine.CommandLine
