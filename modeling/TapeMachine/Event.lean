import TapeMachine.Program
import TapeMachine.Tape

/-!
# What a run reports

A run tells the outside world what happens as a list of events: bytes written, diagnostics, steps
to highlight, the tape as it is shown, and the end of the run.
-/

namespace TapeMachine

/-- Where a run stands. -/
inductive Status where
  | ready
  | running
  | halted
  | stepLimit
  | failed
deriving DecidableEq, Repr, Inhabited

namespace Status

def isTerminal : Status → Bool
  | ready | running => false
  | halted | stepLimit | failed => true

def text : Status → String
  | ready => "ready"
  | running => "running"
  | halted => "halted"
  | stepLimit => "stopped (step limit)"
  | failed => "stopped (error)"

/-- The status as a single word, for the log. -/
def tag : Status → String
  | ready => "Ready"
  | running => "Running"
  | halted => "HaltedNormal"
  | stepLimit => "HaltedStepLimit"
  | failed => "HaltedError"

def all : List Status := [ready, running, halted, stepLimit, failed]

end Status

inductive Diagnostic where
  | stepLimitExceeded (limit : Nat)
deriving DecidableEq, Repr

def Diagnostic.message : Diagnostic → String
  | stepLimitExceeded limit =>
    s!"Execution stopped: step limit exceeded ({limit}). Possible infinite loop."

/-- One executed step. The pointer and its cell are those after the step. -/
structure StepEvent where
  step : Nat
  index : Nat
  op : Instruction
  run : Nat
  source : Span
  pointer : Nat
  cell : UInt8
deriving DecidableEq, Repr

inductive Event where
  | output (byte : UInt8)
  | diagnostic (d : Diagnostic)
  | step (e : StepEvent)
  | tape (t : Tape)
  | halted (s : Status)
deriving DecidableEq

/-! ## Parts of a report -/

def outputOf (events : List Event) : List UInt8 :=
  events.filterMap fun
    | .output byte => some byte
    | _ => none

def diagnosticsOf (events : List Event) : List Diagnostic :=
  events.filterMap fun
    | .diagnostic d => some d
    | _ => none

def stepsOf (events : List Event) : List StepEvent :=
  events.filterMap fun
    | .step e => some e
    | _ => none

def tapesOf (events : List Event) : List Tape :=
  events.filterMap fun
    | .tape t => some t
    | _ => none

def haltsOf (events : List Event) : List Status :=
  events.filterMap fun
    | .halted s => some s
    | _ => none

@[simp]
theorem outputOf_append (before after : List Event) :
    outputOf (before ++ after) = outputOf before ++ outputOf after :=
  List.filterMap_append

@[simp]
theorem diagnosticsOf_append (before after : List Event) :
    diagnosticsOf (before ++ after) = diagnosticsOf before ++ diagnosticsOf after :=
  List.filterMap_append

@[simp]
theorem stepsOf_append (before after : List Event) :
    stepsOf (before ++ after) = stepsOf before ++ stepsOf after :=
  List.filterMap_append

@[simp]
theorem tapesOf_append (before after : List Event) :
    tapesOf (before ++ after) = tapesOf before ++ tapesOf after :=
  List.filterMap_append

@[simp]
theorem haltsOf_append (before after : List Event) :
    haltsOf (before ++ after) = haltsOf before ++ haltsOf after :=
  List.filterMap_append

end TapeMachine
