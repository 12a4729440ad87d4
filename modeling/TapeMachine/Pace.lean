import TapeMachine.Machine

/-!
# Pacing

A run goes flat out, or in ticks with a pause after each. A tick takes a batch of steps, highlights
the first and shows the tape. A request to cancel is looked at between ticks only.
-/

namespace TapeMachine

/-- A length of time. -/
structure Delay where
  nanos : Nat
deriving DecidableEq, Repr, Inhabited

namespace Delay

def ofMillis (ms : Nat) : Delay := ⟨ms * 1000000⟩

/-- Whole milliseconds. -/
def millis (d : Delay) : Nat := d.nanos / 1000000

/-- Steps in one tick. Up to 100 ms the batch is 100 ms over the delay, to the nearest number and
never below one. -/
def stepsPerTick (d : Delay) : Nat :=
  if d.millis ≤ 100 then
    let ms := max d.millis 1
    max ((100 + ms / 2) / ms) 1
  else 1

end Delay

inductive Speed where
  | instant
  | delay (d : Delay)
deriving DecidableEq, Repr, Inhabited

namespace Speed

/-- No delay at all is as fast as asking for no pacing. -/
def ofMillis (ms : Nat) (instant : Bool) : Speed :=
  if instant || ms == 0 then .instant else .delay (.ofMillis ms)

def isInstant : Speed → Bool
  | .instant => true
  | .delay _ => false

end Speed

inductive Tick where
  | goesOn (pause : Delay)
  | finished (status : Status)
deriving DecidableEq, Repr

inductive Outcome where
  | ended (status : Status)
  | cancelled
deriving DecidableEq, Repr

/-- The outcome as it stands in the log. -/
def Outcome.tag : Outcome → String
  | ended status => s!"Halted({status.tag})"
  | cancelled => "Cancelled"

namespace Machine

/-- To the end of the run, then one look at the tape. -/
def runInstant (m : Machine) (log : Array Event) : Machine × Array Event :=
  let (m, log) := m.runToEnd log
  (m, log.push (.tape m.tape))

/-- One tick. A tick without pacing finishes the run. -/
def tick (m : Machine) (speed : Speed) (log : Array Event) : Machine × Array Event × Tick :=
  match speed with
  | .instant =>
    let (m, log) := m.runInstant log
    (m, log, .finished m.status)
  | .delay d =>
    let (m, first) := m.step true
    let (m, log) := m.runFor (d.stepsPerTick - 1) (log ++ first)
    (m, log.push (.tape m.tape), if m.status.isTerminal then .finished m.status else .goesOn d)

theorem status_runFor_of_terminal {n : Nat} {m : Machine} {log : Array Event}
    (h : m.status.isTerminal = true) : m.runFor n log = (m, log) := by
  cases n <;> simp [runFor, h]

/-- A tick after which the run goes on has used up some of the budget. -/
theorem remaining_tick_lt {m m' : Machine} {speed : Speed} {log log' : Array Event} {d : Delay}
    (h : m.tick speed log = (m', log', .goesOn d)) : m'.remaining < m.remaining := by
  unfold tick at h
  split at h
  · simp at h
  · rename_i delay
    simp only [Prod.mk.injEq] at h
    obtain ⟨rfl, -, ended⟩ := h
    have alive : (m.step true).1.status.isTerminal = false := by
      cases eq : (m.step true).1.status.isTerminal with
      | false => rfl
      | true => rw [status_runFor_of_terminal eq] at ended; simp [eq] at ended
    have first := remaining_step_lt alive
    have config := runFor_config (delay.stepsPerTick - 1) (m.step true).1 (log ++ (m.step true).2)
    have steps := steps_le_runFor (delay.stepsPerTick - 1) (m.step true).1 (log ++ (m.step true).2)
    unfold remaining at first ⊢
    rw [config]
    omega

end Machine

/-! ## Paced runs -/

/-- Whoever paces a run: the speed it asks for after a number of pauses, and the pauses in which it
asks to cancel. -/
structure Pacer where
  speedAfter : Nat → Speed
  cancelsIn : Nat → Bool := fun _ => false

structure PacedRun where
  machine : Machine
  log : Array Event
  pauses : Array Delay
  outcome : Outcome
  cancel : Bool

/-- Ticks until the run has ended or a request to cancel is seen; `cancel` is such a request that
is already there. -/
def Machine.runPaced (m : Machine) (pacer : Pacer) (cancel : Bool) (log : Array Event)
    (pauses : Array Delay) : PacedRun :=
  if cancel then ⟨m, log, pauses, .cancelled, true⟩
  else
    match h : m.tick (pacer.speedAfter pauses.size) log with
    | (m', log, .finished status) => ⟨m', log, pauses, .ended status, false⟩
    | (m', log, .goesOn d) =>
      m'.runPaced pacer (pacer.cancelsIn (pauses.size + 1)) log (pauses.push d)
termination_by m.remaining
decreasing_by exact Machine.remaining_tick_lt h

structure SteppedRun where
  machine : Machine
  log : Array Event
  outcome : Outcome
  cancel : Bool

/-- Steps that are all highlighted, with a look at the tape after each, until the run has ended or
a request to cancel is seen; `cancelsAfter` says after which steps one comes, and one that comes
after the last is not seen any more. -/
def Machine.runStepwise (m : Machine) (cancelsAfter : Nat → Bool) (cancel : Bool)
    (log : Array Event) : SteppedRun :=
  if cancel then ⟨m, log, .cancelled, true⟩
  else
    let next := m.step true
    let log := (log ++ next.2).push (.tape next.1.tape)
    if _ : next.1.status.isTerminal = true then
      ⟨next.1, log, .ended next.1.status, cancelsAfter next.1.steps⟩
    else next.1.runStepwise cancelsAfter (cancelsAfter next.1.steps) log
termination_by m.remaining
decreasing_by exact Machine.remaining_step_lt (Bool.eq_false_iff.mpr (by assumption))

end TapeMachine
