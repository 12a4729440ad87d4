import TapeMachine.Event
import TapeMachine.Text.Blank

/-!
# The machine

A program, a tape and an input, executed one step at a time under a step budget. A step is one
instruction, or a whole run of equal `+` or `-` when runs are taken together.
-/

namespace TapeMachine

/-- What `,` stores when the input has run out. -/
inductive EofPolicy where
  | zero
  | minusOne
  | unchanged
deriving DecidableEq, Repr, Inhabited

namespace EofPolicy

/-- The byte stored, unless the cell is left alone. -/
def fill : EofPolicy → Option UInt8
  | zero => some 0
  | minusOne => some 255
  | unchanged => none

def text : EofPolicy → String
  | zero => "zero"
  | minusOne => "minus-one"
  | unchanged => "unchanged"

/-- The policy that a text names exactly. -/
def ofName? : String → Option EofPolicy
  | "zero" => some zero
  | "minus-one" | "minusOne" => some minusOne
  | "unchanged" => some unchanged
  | _ => none

/-- The policy that a text names up to case. -/
def ofNameAnyCase? (text : String) : Option EofPolicy :=
  match Text.lowered text with
  | "zero" => some zero
  | "minus-one" | "minusone" => some minusOne
  | "unchanged" => some unchanged
  | _ => none

/-- The policy that a setting asks for. What is not known to name one means to leave the cell
alone. -/
def ofSetting (text : String) : EofPolicy :=
  match Text.lowered (Text.trimmed text) with
  | "zero" | "0" => zero
  | "minusone" | "minus-one" | "minus_one" | "-1" | "255" => minusOne
  | _ => unchanged

end EofPolicy

structure Config where
  maxSteps : Nat := 1000000
  eof : EofPolicy := .zero
  coalesce : Bool := true
deriving DecidableEq, Repr, Inhabited

structure Machine where
  program : Program
  config : Config
  input : Array UInt8
  tape : Tape
  pc : Nat := 0
  steps : Nat := 0
  cursor : Nat := 0
  status : Status := .ready

namespace Machine

/-- A new run on a tape that is cleared first. The budget is at least one step. -/
def fresh (program : Program) (tape : Tape) (input : Array UInt8) (config : Config) : Machine where
  program := program
  config := { config with maxSteps := max config.maxSteps 1 }
  input := input
  tape := tape.cleared

/-- Steps left in the budget. -/
def remaining (m : Machine) : Nat :=
  m.config.maxSteps - m.steps

/-- How many instructions the step at the current instruction covers. -/
def reach (m : Machine) (op : Instruction) : Nat :=
  match op with
  | .increment | .decrement => if m.config.coalesce then m.program.runLength m.pc else 1
  | _ => 1

/-- The byte that `,` stores, if it stores one. -/
def fetch (m : Machine) : Option UInt8 :=
  m.input[m.cursor]?.or m.config.eof.fill

/-- The cursor after a byte was asked for: behind that byte, or where it is if there was none. -/
def nextCursor (m : Machine) : Nat :=
  if m.cursor < m.input.size then m.cursor + 1 else m.cursor

/-- The instruction after the bracket that the current one is paired with. -/
def jumpTarget (m : Machine) : Nat :=
  (m.program.partner? m.pc).getD m.pc + 1

/-- The effect of `run` instructions `op` at the program counter. -/
def execute (m : Machine) (op : Instruction) (run : Nat) : Machine :=
  match op with
  | .right => { m with tape := m.tape.moveRight, pc := m.pc + 1 }
  | .left => { m with tape := m.tape.moveLeft, pc := m.pc + 1 }
  | .increment => { m with tape := m.tape.add run, pc := m.pc + run }
  | .decrement => { m with tape := m.tape.sub run, pc := m.pc + run }
  | .write => { m with pc := m.pc + 1 }
  | .read =>
    { m with
      tape := match m.fetch with
        | some byte => m.tape.set byte
        | none => m.tape
      cursor := m.nextCursor
      pc := m.pc + 1 }
  | .loopOpen => { m with pc := if m.tape.get = 0 then m.jumpTarget else m.pc + 1 }
  | .loopClose => { m with pc := if m.tape.get = 0 then m.pc + 1 else m.jumpTarget }

def stepEvent (m : Machine) (index : Nat) (op : Instruction) (run : Nat) : StepEvent where
  step := m.steps
  index := index
  op := op
  run := run
  source := m.program.span index run
  pointer := m.tape.pointer
  cell := m.tape.get

def halt (m : Machine) (status : Status) : Machine × List Event :=
  ({ m with status := status }, [.halted status])

/-- Ends the run when the program counter has left the program. -/
def settle (m : Machine) : Machine × List Event :=
  if m.program.size ≤ m.pc then m.halt .halted else ({ m with status := .running }, [])

/-- The step at instruction `op`: its output, its highlight if one is wanted, and the end of the
run if it was the last. -/
def perform (m : Machine) (op : Instruction) (highlight : Bool) : Machine × List Event :=
  let index := m.pc
  let run := m.reach op
  let output := if op = .write then [.output m.tape.get] else []
  let m := m.execute op run
  let m := { m with steps := m.steps + 1 }
  let shown := if highlight then [.step (m.stepEvent index op run)] else []
  let (m, ended) := m.settle
  (m, output ++ shown ++ ended)

/-- One step. The budget and the end of the program are looked at first, and a run that has ended
stays as it is. -/
def step (m : Machine) (highlight : Bool) : Machine × List Event :=
  if m.status.isTerminal then (m, [])
  else if m.config.maxSteps ≤ m.steps then
    let (m', ended) := m.halt .stepLimit
    (m', .diagnostic (.stepLimitExceeded m.config.maxSteps) :: ended)
  else
    match m.program.op? m.pc with
    | none => m.halt .halted
    | some op => m.perform op highlight

/-- At most `n` steps without highlights, up to the end of the run. The events go behind those of
`log`. -/
def runFor (n : Nat) (m : Machine) (log : Array Event) : Machine × Array Event :=
  match n with
  | 0 => (m, log)
  | n + 1 =>
    if m.status.isTerminal then (m, log)
    else
      let (m, events) := m.step false
      m.runFor n (log ++ events)
termination_by structural n

/-- Steps without highlights up to the end of the run: one more call than the budget has steps is
enough. -/
def runToEnd (m : Machine) (log : Array Event) : Machine × Array Event :=
  m.runFor (m.remaining + 1) log

/-! ## Steps and the budget -/

@[simp]
theorem execute_config (m : Machine) (op : Instruction) (run : Nat) :
    (m.execute op run).config = m.config := by
  cases op <;> simp [execute]

@[simp]
theorem execute_steps (m : Machine) (op : Instruction) (run : Nat) :
    (m.execute op run).steps = m.steps := by
  cases op <;> simp [execute]

theorem perform_config (m : Machine) (op : Instruction) (highlight : Bool) :
    (m.perform op highlight).1.config = m.config := by
  unfold perform settle halt; simp only; split <;> simp

theorem perform_steps (m : Machine) (op : Instruction) (highlight : Bool) :
    (m.perform op highlight).1.steps = m.steps + 1 := by
  unfold perform settle halt; simp only; split <;> simp

theorem step_config (m : Machine) (highlight : Bool) :
    (m.step highlight).1.config = m.config := by
  unfold step
  split
  · rfl
  · split
    · rfl
    · split
      · rfl
      · exact perform_config ..

theorem steps_le_step (m : Machine) (highlight : Bool) :
    m.steps ≤ (m.step highlight).1.steps := by
  unfold step
  split
  · simp
  · split
    · simp [halt]
    · split
      · simp [halt]
      · rw [perform_steps]; omega

/-- A step after which the run goes on has used up one step of the budget. -/
theorem remaining_step_lt {m : Machine} {highlight : Bool}
    (h : (m.step highlight).1.status.isTerminal = false) :
    (m.step highlight).1.remaining < m.remaining := by
  unfold remaining
  rw [step_config]
  unfold step at h ⊢
  split at h
  · simp_all
  · split at h
    · simp [halt, Status.isTerminal] at h
    · split at h
      · simp [halt, Status.isTerminal] at h
      · simp only [*, if_false, Bool.false_eq_true]
        rw [perform_steps]
        omega

theorem runFor_config (n : Nat) (m : Machine) (log : Array Event) :
    (m.runFor n log).1.config = m.config := by
  induction n generalizing m log with
  | zero => rfl
  | succ n ih =>
    rw [runFor]
    split
    · rfl
    · simp only [ih, step_config]

theorem steps_le_runFor (n : Nat) (m : Machine) (log : Array Event) :
    m.steps ≤ (m.runFor n log).1.steps := by
  induction n generalizing m log with
  | zero => exact Nat.le_refl _
  | succ n ih =>
    rw [runFor]
    split
    · exact Nat.le_refl _
    · exact Nat.le_trans (steps_le_step m false) (ih ..)

end Machine

end TapeMachine
