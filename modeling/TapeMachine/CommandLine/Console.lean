import TapeMachine.Palette
import TapeMachine.Report
import TapeMachine.Screen
import TapeMachine.Settings
import TapeMachine.Text.Utf8
import TapeMachine.Viewer

/-!
# What surrounds a command, and what it leaves behind

A command is a function of its surroundings: arguments, environment, files, the standard streams,
and what is typed on a terminal. It leaves text on the streams and an exit code, and may stop early
with one.
-/

namespace TapeMachine.CommandLine

def programName : String := "bfvm"

inductive FileError where
  | missing
  | isDirectory
  | notDirectory
  | nameTooLong
  | notText
deriving DecidableEq, Repr

def FileError.message : FileError → String
  | missing => "No such file or directory (os error 2)"
  | isDirectory => "Is a directory (os error 21)"
  | notDirectory => "Not a directory (os error 20)"
  | nameTooLong => "File name too long (os error 36)"
  | notText => "stream did not contain valid UTF-8"

/-- Where standard output goes, if it goes anywhere. -/
inductive Sink where
  | working
  | full
  | closed
deriving DecidableEq, Repr, Inhabited

/-- Why a write fails. -/
def Sink.failure? : Sink → Option String
  | working => none
  | full => some "No space left on device (os error 28)"
  | closed => some "Broken pipe (os error 32)"

/-- What a reader does at the prompt. -/
inductive Typed where
  | line (text : String)
  | leave
deriving DecidableEq, Repr

structure Surroundings where
  arguments : List String
  lookup : String → Option String
  contents : String → Except FileError (List UInt8)
  stdin : List UInt8 := []
  stdinIsTerminal : Bool := false
  stdoutIsTerminal : Bool := false
  stderrIsTerminal : Bool := false
  sink : Sink := .working
  width : Nat := 120
  height : Nat := 16
  /-- Lines on standard error after which an interrupt comes. -/
  interruptAfter : Option Nat := none
  presses : List Press := []
  typed : List Typed := []

/-- One thing that a command does to the world: bytes on standard output, a line on standard error,
or a pause. -/
inductive Deed where
  | output (bytes : List UInt8)
  | error (line : String)
  | pause (d : Delay)
deriving DecidableEq, Repr

/-- What has been done so far, and shown on a terminal: the last frame of the viewer, and each
prompt with the line typed at it, unless that had several lines. -/
structure Console where
  deeds : Array Deed := #[]
  frame : Option Screen := none
  painted : Array (Option (String × String)) := #[]

namespace Console

def stdout (c : Console) : List UInt8 :=
  c.deeds.toList.flatMap fun
    | .output bytes => bytes
    | _ => []

def errorLines (c : Console) : List String :=
  c.deeds.toList.filterMap fun
    | .error line => some line
    | _ => none

def stderr (c : Console) : String :=
  Text.unlines c.errorLines

end Console

/-- What a command does: it knows its surroundings, writes to the console, and may stop with an
exit code. -/
abbrev Job := ReaderT Surroundings (EStateM Nat Console)

/-! ## Standard error -/

def headerPaint : Paint := { ink := .red, bold := true }

def levelPaint? : Level → Option Paint
  | .debug => some { ink := .darkGray }
  | .info => none
  | .warn => some { ink := .yellow, bold := true }
  | .error => some { ink := .red, bold := true }

def renderLine (colored : Bool) : Line → String
  | .plain text => text
  | .header text => if colored then headerPaint.apply text else text

def renderNote (colored : Bool) (n : Note) : String :=
  let tag := match levelPaint? n.level with
    | some paint => if colored then paint.apply n.level.tag else n.level.tag
    | none => n.level.tag
  s!"{programName} {tag} {n.text}"

def record (deed : Deed) : Job Unit :=
  modify fun c => { c with deeds := c.deeds.push deed }

def printError (line : String) : Job Unit :=
  record (.error line)

def printLine (line : Line) : Job Unit := do
  printError (renderLine (← read).stderrIsTerminal line)

def threshold : Job Level := do
  return Level.threshold ((← read).lookup "BFVM_LOG")

def printNote (n : Note) : Job Unit := do
  if n.level.reaches (← threshold) then
    printError (renderNote (← read).stderrIsTerminal n)

def printNotes (notes : List Note) : Job Unit :=
  notes.forM printNote

def complain (message : String) : Job Unit :=
  printError s!"{programName}: {message}"

/-- Complains and stops. -/
def fail {α : Type} (exit : Nat) (message : String) : Job α := do
  complain message
  throw exit

def printUsage (usage : String → List String) : Job Unit := do
  (usage programName).forM printError
  printError ""

/-! ## Standard output -/

def print (bytes : List UInt8) : Job Unit :=
  record (.output bytes)

/-! ## Files and settings -/

def readTextFile (path : String) : Job (Except FileError String) := do
  return match (← read).contents path with
    | .error e => .error e
    | .ok bytes => ((Text.Utf8.text? bytes).elim (.error .notText) .ok)

/-- The path of a file in a directory. An empty name of a directory is the one at hand. -/
def joinPath (directory name : String) : String :=
  match directory.toList.getLast? with
  | none | some '/' => directory ++ name
  | some _ => s!"{directory}/{name}"

/-- The file that `BFVM_CONFIG` names, or one in the user's directory for such files. -/
def settingsPath? (lookup : String → Option String) : Option String :=
  match lookup "BFVM_CONFIG" with
  | some path => some path
  | none =>
    let home := (lookup "HOME").map (joinPath · ".config")
    let directory := (lookup "XDG_CONFIG_HOME").or home
    directory.map (joinPath · "bfvm.toml")

/-- Stops with exit code 2 under a header. -/
def failSettings {α : Type} (message : String) : Job α := do
  printLine (.header s!"{programName}: {message}")
  throw 2

def applySettings (s : Settings) (assignments : List Settings.Assignment) : Job Settings := do
  let (notes, result) := s.assignAll assignments
  printNotes notes
  match result with
  | .ok s => return s
  | .error e => failSettings e.message

/-- The settings of a file; one that is missing says nothing. -/
def applySettingsFile (s : Settings) (path : String) : Job Settings := do
  match ← readTextFile path with
  | .error .missing => return s
  | .error e => failSettings s!"failed to read config file {path}: {e.message}"
  | .ok content =>
    printNote ⟨.debug, s!"loading config from {path}"⟩
    applySettings s (Settings.file content path)

/-- Defaults, then the file, then the environment. -/
def loadSettings : Job Settings := do
  let lookup := (← read).lookup
  let s ← match settingsPath? lookup with
    | some path => applySettingsFile {} path
    | none => pure {}
  applySettings s (Settings.environment lookup)

end TapeMachine.CommandLine
