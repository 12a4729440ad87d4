import TapeMachine.CommandLine.Arguments
import TapeMachine.CommandLine.Source
import TapeMachine.CommandLine.Usage
import TapeMachine.Text.Escape
import TapeMachine.Viewer.Draw

/-!
# The command `watch`

The viewer on a terminal. Each round draws, takes one key, and lets a tick pass that is due.
-/

namespace TapeMachine.CommandLine

def watchInput (a : WatchArguments) : Job (List UInt8) :=
  match a.input, a.inputFile with
  | some text, _ => pure (Text.unescape text.toList)
  | none, some path => readInputFile path
  | none, none => pure []

def WatchArguments.title (a : WatchArguments) : String :=
  match a.file, a.sample with
  | some path, _ => path
  | none, some name => s!"sample {name}"
  | none, none => "<command line>"

/-- Draws the viewer and lets it know how much memory it shows. -/
def drawFrame (v : Viewer) : Job Viewer := do
  let around ← read
  modify fun c => { c with frame := some (v.draw around.width around.height) }
  return { v with page := Viewer.pageOf around.height }

/-- Rounds of the viewer at one moment, until a key closes it. -/
def watchKeys (now : Time) (v : Viewer) : List Press → Job Nat
  | [] => do
    let _ ← drawFrame v
    return 0
  | press :: rest => do
    let v ← drawFrame v
    let pressed := v.press press now
    printNotes pressed.notes
    if pressed.quits then return 0
    let ticked := pressed.viewer.onTime now
    printNotes ticked.notes
    watchKeys now ticked.viewer rest

def prepareViewer (a : WatchArguments) : Job Viewer := do
  let source ← resolveSource a.code a.file a.sample
  let settings ← loadSettings
  let settings := { settings with
    speedMs := a.speedMs.getD settings.speedMs
    instant := a.instant || settings.instant
    maxSteps := a.maxSteps.elim settings.maxSteps (max · 1) }
  let input ← watchInput a
  return Viewer.new settings source input.toArray a.title

def runViewer (a : WatchArguments) : Job Nat := do
  if a.help then
    printUsage Usage.watch
    return 0
  checkSource Usage.watch a.code a.file a.sample
  let around ← read
  if !around.stdoutIsTerminal then
    fail 1 s!"watch needs a terminal on stdout (use \"{programName} run --trace\" instead)"
  let v ← prepareViewer a
  watchKeys 0 v around.presses

end TapeMachine.CommandLine
