import TapeMachine.CommandLine

/-!
# The program

Gathers what surrounds the command line, lets it answer, and does what it says. On a terminal the
debugger and the viewer are fed line by line.
-/

namespace TapeMachine.CommandLine

/-! ## Surroundings -/

def FileError.ofError : IO.Error → FileError
  | .noFileOrDirectory .. => .missing
  | .inappropriateType _ code _ => if code = 21 then .isDirectory else .notDirectory
  | .invalidArgument .. => .nameTooLong
  | _ => .missing

def readPathBytes (path : String) : IO (Except FileError (List UInt8)) := do
  try
    return .ok (← IO.FS.readBinFile path).toList
  catch e => return .error (.ofError e)

partial def readToEnd (stream : IO.FS.Stream) (sofar : ByteArray) : IO ByteArray := do
  let chunk ← stream.read 65536
  if chunk.isEmpty then return sofar else readToEnd stream (sofar ++ chunk)

def gather (arguments : List String) (request : Request) : IO Surroundings := do
  let values ← variableNames.mapM fun name => return (name, ← IO.getEnv name)
  let lookup (name : String) : Option String := (values.lookup name).join
  let files ← (request.paths lookup).mapM fun path => return (path, ← readPathBytes path)
  let stdin ← IO.getStdin
  let around : Surroundings :=
    { arguments := arguments
      lookup := lookup
      contents := fun path => (files.lookup path).getD (.error .missing)
      stdinIsTerminal := ← stdin.isTty
      stdoutIsTerminal := ← (← IO.getStdout).isTty
      stderrIsTerminal := ← (← IO.getStderr).isTty }
  if request.wantsStdin around then
    return { around with stdin := (← readToEnd stdin .empty).toList }
  return around

/-! ## Deeds -/

def Deed.perform : Deed → IO Unit
  | .output bytes => do
    let stdout ← IO.getStdout
    stdout.write ⟨bytes.toArray⟩
    stdout.flush
  | .error line => IO.eprintln line
  | .pause d => IO.sleep (UInt32.ofNat d.millis)

/-- Runs a job and does what it says; the result is its value or its exit code. -/
def perform {α : Type} (around : Surroundings) (job : Job α) : IO (Except Nat α) := do
  match (job.run around).run {} with
  | .ok value console =>
    console.deeds.forM Deed.perform
    return .ok value
  | .error exit console =>
    console.deeds.forM Deed.perform
    return .error exit

/-! ## Terminals -/

partial def debugLoop (around : Surroundings) (d : Debugger) : IO Nat := do
  IO.eprint s!"{programName} {d.promptStatus}> "
  let line ← (← IO.getStdin).getLine
  if line.isEmpty then
    IO.println ""
    return 0
  let turn := d.handle line
  match ← perform around (sayAll .editor turn.said) with
  | .error exit => return exit
  | .ok _ => if turn.leaves then return 0 else debugLoop around turn.debugger

partial def watchLoop (around : Surroundings) (v : Viewer) : IO Nat := do
  for row in v.draw around.width around.height do
    IO.println (Row.text row)
  let v := { v with page := Viewer.pageOf around.height }
  let line ← (← IO.getStdin).getLine
  if line.isEmpty then return 0
  let mut v := v
  for c in line.toList.filter (· ≠ '\n') do
    let pressed := v.press ⟨.char c, false⟩ (← IO.monoNanosNow)
    let _ ← perform around (printNotes pressed.notes)
    if pressed.quits then return 0
    v := pressed.viewer
  let ticked := v.onTime (← IO.monoNanosNow)
  let _ ← perform around (printNotes ticked.notes)
  watchLoop around ticked.viewer

def runOnTerminal (around : Surroundings) : Request → Option (IO (Except Nat Nat))
  | .debug a =>
    if a.mode? around = some .editor then
      some do
        match ← perform around (prepareDebugger .editor a) with
        | .error exit => return .error exit
        | .ok d =>
          IO.eprintln banner
          return .ok (← debugLoop around d)
    else none
  | .watch a =>
    if !a.help && around.stdoutIsTerminal then
      some do
        let check := checkSource Usage.watch a.code a.file a.sample
        match ← perform around (do check; prepareViewer a) with
        | .error exit => return .error exit
        | .ok v => return .ok (← watchLoop around v)
    else none
  | .help | .run _ => none

end TapeMachine.CommandLine

open TapeMachine.CommandLine in
def main (arguments : List String) : IO UInt32 := do
  match Request.read arguments with
  | none =>
    IO.eprintln s!"{programName}: these arguments make no sense; try {programName} --help"
    return 2
  | some request =>
    let around ← gather arguments request
    let done := (runOnTerminal around request).getD (perform around request.job)
    match ← done with
    | .ok exit | .error exit => return UInt32.ofNat exit
