import TapeMachine.Machine
import TapeMachine.Sample
import TapeMachine.Tape.Grid
import TapeMachine.Text.Escape

/-!
# Debugger commands

A command line is read into a command before anything happens, so that one that is not understood
changes nothing.
-/

namespace TapeMachine

/-- Why a command is refused. -/
inductive Refusal where
  | stepCount (text : String)
  | eofPolicy (text : String)
  | format (text : String)
  | row (text : String) (rows : Nat)
  | sample (text : String)
  | unknown (name : String)
deriving DecidableEq, Repr

def Refusal.message : Refusal → String
  | stepCount text => s!"invalid step count '{text}'"
  | eofPolicy text => s!"invalid eof policy '{text}': expected zero, minus-one or unchanged"
  | format text => s!"invalid format '{text}': expected hex or dec"
  | row text rows => s!"invalid row '{text}': the tape has {rows} rows"
  | sample text => s!"unknown sample '{text}' (available: {Sample.names})"
  | unknown name => s!"unknown command ':{name}' (try :help)"

inductive Command where
  | exit
  | help
  | step (count : Nat)
  | run
  | resume
  | reset
  | input (bytes : List UInt8)
  | eof (policy : EofPolicy)
  | maxSteps (n : Nat)
  /-- Rows of the tape, from the row in the text on, or from the pointer's when it is empty. -/
  | tape (row : String)
  | format (format : Option CellFormat)
  | state
  | source
  | samples
  | sample (s : Sample)
  | refused (r : Refusal)
deriving DecidableEq, Repr

namespace Command

def ofStepCount (text : String) : Command :=
  if text.isEmpty then .step 1
  else
    match Text.readWord text with
    | some (n + 1) => .step (n + 1)
    | _ => .refused (.stepCount text)

def ofMaxSteps (text : String) : Command :=
  match Text.readWord text with
  | some n => .maxSteps (max n 1)
  | none => .refused (.stepCount text)

def ofEof (text : String) : Command :=
  match EofPolicy.ofNameAnyCase? text with
  | some policy => .eof policy
  | none => .refused (.eofPolicy text)

def ofFormat : String → Command
  | "" => .format none
  | "hex" => .format (some .hex)
  | "dec" => .format (some .dec)
  | text => .refused (.format text)

def ofSample (text : String) : Command :=
  if text.isEmpty then .samples
  else
    match Sample.find? text with
    | some s => .sample s
    | none => .refused (.sample text)

def ofParts (name argument : String) : Command :=
  match name with
  | "exit" | "quit" | "q" => .exit
  | "help" | "h" => .help
  | "step" | "s" => ofStepCount argument
  | "run" | "r" => .run
  | "continue" | "c" => .resume
  | "reset" => .reset
  | "input" => .input (Text.unescape argument.toList)
  | "eof" => ofEof argument
  | "max-steps" => ofMaxSteps argument
  | "tape" | "t" => .tape argument
  | "format" => ofFormat argument
  | "state" => .state
  | "source" => .source
  | "sample" => ofSample argument
  | other => .refused (.unknown other)

/-- The name after the colons, and the rest of the line without blanks around it. -/
def parts (line : String) : String × String :=
  match Text.cutAtBlank (line.toList.dropWhile (· = ':')) with
  | (name, none) => (String.ofList name, "")
  | (name, some rest) => (String.ofList name, String.ofList (Text.trim rest))

end Command

end TapeMachine
