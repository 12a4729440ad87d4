import TapeMachine.CommandLine.Options
import TapeMachine.Machine
import TapeMachine.Text.Number

/-!
# The commands and their arguments

What a command line asks for, or that it asks for nothing that makes sense.
-/

namespace TapeMachine.CommandLine

structure RunArguments where
  file : Option String
  sample : Option String
  code : List String
  input : Option String
  inputFile : Option String
  maxSteps : Option Nat
  eof : Option EofPolicy
  speedMs : Option Nat
  instant : Bool
  trace : Bool
  dumpTape : Bool
  help : Bool
deriving DecidableEq, Repr

structure DebugArguments where
  file : Option String := none
  sample : Option String := none
  input : Option String := none
  bare : Bool := false
  editor : Bool := false
  help : Bool := false
deriving DecidableEq, Repr

structure WatchArguments where
  file : Option String
  sample : Option String
  code : List String
  input : Option String
  inputFile : Option String
  speedMs : Option Nat
  instant : Bool
  maxSteps : Option Nat
  help : Bool
deriving DecidableEq, Repr

/-! ## Options in common -/

def fileSwitch : Switch := ⟨"file", some 'f', true⟩
def sampleSwitch : Switch := ⟨"sample", some 's', true⟩
def inputSwitch : Switch := ⟨"input", some 'i', true⟩
def inputFileSwitch : Switch := ⟨"input-file", none, true⟩
def maxStepsSwitch : Switch := ⟨"max-steps", none, true⟩
def speedSwitch : Switch := ⟨"speed", none, true⟩
def instantSwitch : Switch := ⟨"instant", none, false⟩
def helpSwitch : Switch := ⟨"help", some 'h', false⟩

/-- A path has at least one character. -/
def readPath (value : String) : Option String :=
  if value.isEmpty then none else some value

/-- Words that follow a grammar, with no option twice and no two of a pair that exclude each
other. -/
def readGiven (g : Grammar) (exclusive : List (String × String)) (words : List String) :
    Option Given :=
  (g.scan words).filter fun given =>
    given.isDistinct && exclusive.all fun (a, b) => given.excludes a b

/-! ## The commands -/

def runGrammar : Grammar where
  switches := [fileSwitch, sampleSwitch, inputSwitch, inputFileSwitch, maxStepsSwitch,
    ⟨"eof", none, true⟩, speedSwitch, instantSwitch, ⟨"trace", some 't', false⟩,
    ⟨"dump-tape", none, false⟩, helpSwitch]
  takesCode := true

def RunArguments.read (words : List String) : Option RunArguments := do
  let given ← readGiven runGrammar [("file", "sample"), ("input", "input-file")] words
  return {
    file := ← given.read? "file" readPath
    sample := given.value? "sample"
    code := given.code
    input := given.value? "input"
    inputFile := ← given.read? "input-file" readPath
    maxSteps := ← given.read? "max-steps" Text.readWord
    eof := ← given.read? "eof" EofPolicy.ofName?
    speedMs := ← given.read? "speed" Text.readWord
    instant := given.has "instant"
    trace := given.has "trace"
    dumpTape := given.has "dump-tape"
    help := given.has "help" }

def debugGrammar : Grammar where
  switches := [fileSwitch, sampleSwitch, inputSwitch, ⟨"bare", none, false⟩,
    ⟨"editor", none, false⟩, helpSwitch]

def DebugArguments.read (words : List String) : Option DebugArguments := do
  let given ← readGiven debugGrammar [("file", "sample"), ("bare", "editor")] words
  return {
    file := ← given.read? "file" readPath
    sample := given.value? "sample"
    input := given.value? "input"
    bare := given.has "bare"
    editor := given.has "editor"
    help := given.has "help" }

def watchGrammar : Grammar where
  switches := [fileSwitch, sampleSwitch, inputSwitch, inputFileSwitch, speedSwitch, instantSwitch,
    maxStepsSwitch, helpSwitch]
  takesCode := true

def WatchArguments.read (words : List String) : Option WatchArguments := do
  let given ← readGiven watchGrammar [("file", "sample"), ("input", "input-file")] words
  return {
    file := ← given.read? "file" readPath
    sample := given.value? "sample"
    code := given.code
    input := given.value? "input"
    inputFile := ← given.read? "input-file" readPath
    speedMs := ← given.read? "speed" Text.readWord
    instant := given.has "instant"
    maxSteps := ← given.read? "max-steps" Text.readWord
    help := given.has "help" }

inductive Request where
  | help
  | run (a : RunArguments)
  | debug (a : DebugArguments)
  | watch (a : WatchArguments)
deriving DecidableEq, Repr

/-- The command that a word names, read with the words behind it. -/
def Request.command? (name : String) (words : List String) : Option (Option Request) :=
  match name with
  | "run" => some ((RunArguments.read words).map .run)
  | "debug" => some ((DebugArguments.read words).map .debug)
  | "watch" => some ((WatchArguments.read words).map .watch)
  | _ => none

def topGrammar : Grammar where
  switches := [helpSwitch]

/-- Options before a command, then the command. Without one the debugger is meant. Help that is
asked for before the command wins over a command that can be read. -/
def Request.readAfter (help : Bool) : List String → Option Request
  | [] => some (if help then .help else .debug {})
  | word :: rest =>
    match Request.command? word rest with
    | some command => if help then command.map fun _ => .help else command
    | none =>
      match topGrammar.readWord word with
      | .options [_] none => if help then none else Request.readAfter true rest
      | .divider => if rest.isEmpty then some (if help then .help else .debug {}) else none
      | _ => none

def Request.read (words : List String) : Option Request :=
  Request.readAfter false words

/-- The files that a request names. -/
def Request.files : Request → List String
  | .help => []
  | .run a => a.file.toList ++ a.inputFile.toList
  | .debug a => a.file.toList
  | .watch a => a.file.toList ++ a.inputFile.toList

end TapeMachine.CommandLine
