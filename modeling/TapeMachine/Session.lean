import TapeMachine.Log
import TapeMachine.Pace

/-!
# Sessions

A session owns one source text, the input and settings for its next run, and at most one live run.
Every request to start or advance a run is refused while a paced run is going, and a source that
does not load leaves the session as it was.
-/

namespace TapeMachine

inductive RunError where
  | load (e : LoadError)
  | busy
deriving DecidableEq, Repr

def RunError.message : RunError → String
  | load e => e.message
  | busy => "a run is already in progress"

/-- A tape that waits for its next run, or a machine with its tape. -/
inductive Bench where
  | idle (tape : Tape)
  | live (machine : Machine)

structure Session where
  source : String
  input : Array UInt8
  config : Config
  bench : Bench
  running : Bool
  /-- A request to cancel that no paced run has answered yet. -/
  cancel : Bool

/-- What came of a request: the session after it, its result, what the run reported and the pauses
it made, and the notes before and after that. -/
structure Reply (α : Type) where
  session : Session
  result : Except RunError α
  before : List Note := []
  events : List Event := []
  pauses : List Delay := []
  after : List Note := []

namespace Session

def new (tapeSize : Nat) (config : Config) : Session where
  source := ""
  input := #[]
  config := config
  bench := .idle (.blank tapeSize)
  running := false
  cancel := false

def machine? (s : Session) : Option Machine :=
  match s.bench with
  | .idle _ => none
  | .live m => some m

def status? (s : Session) : Option Status :=
  s.machine?.map Machine.status

def tape (s : Session) : Tape :=
  match s.bench with
  | .idle t => t
  | .live m => m.tape

/-- Whether the live run has steps left. -/
def canResume (s : Session) : Bool :=
  match s.bench with
  | .idle _ => false
  | .live m => !m.status.isTerminal

/-- Loads the source and leaves the session alone. -/
def check (s : Session) : Except LoadError Program :=
  Program.load s.source

/-! ## Settings for the next run -/

def setInput (s : Session) (input : Array UInt8) : Session :=
  { s with input := input }

def setConfig (s : Session) (config : Config) : Session :=
  { s with config := config }

/-- Drops the live run; its tape stays. -/
def abandon (s : Session) : Session :=
  { s with running := false, bench := .idle s.tape }

def abandonNotes (s : Session) : List Note :=
  if s.running then [⟨.debug, "abandoning active run"⟩] else []

/-- A new source drops the live run. The tape stays as it is until the next run starts. -/
def setSource (s : Session) (source : String) : Session :=
  { s with source := source }.abandon

/-- Drops the live run and clears the tape. -/
def reset (s : Session) : Session :=
  { s.abandon with bench := .idle s.tape.cleared }

def requestCancel (s : Session) : Session :=
  { s with cancel := true }

def withdrawCancel (s : Session) : Session :=
  { s with cancel := false }

/-- Pauses a paced run. -/
def pause (s : Session) : Session :=
  { s with running := false }

/-! ## Starting -/

def startNote (s : Session) (program : Program) : Note where
  level := .debug
  text := s!"starting run: {program.size} instructions, {s.input.size} input bytes, " ++
    s!"max_steps={s.config.maxSteps}, eof={s.config.eof.text}"

/-- Puts a machine for a new run of the source on the bench, with the tape at hand. -/
def prepare (s : Session) : Except LoadError (Session × List Note) :=
  (Program.load s.source).map fun program =>
    ({ s with bench := .live (.fresh program s.tape s.input s.config) }, [s.startNote program])

/-- The session when a request is about to go on: as it is when the live run has steps left and is
to be kept, else with a new run. -/
def ready (s : Session) (keep : Bool) : Except RunError (Session × List Note) :=
  if s.running then .error .busy
  else if keep && s.canResume then .ok (s, [])
  else s.prepare.mapError .load

/-- The machine that a request goes on with. A session that is ready without one would count as
busy. -/
def obtain (s : Session) (keep : Bool) : Except RunError (Machine × List Note) :=
  match s.ready keep with
  | .error e => .error e
  | .ok (s, notes) =>
    match s.machine? with
    | none => .error .busy
    | some m => .ok (m, notes)

def refuse (s : Session) {α : Type} (e : RunError) : Reply α where
  session := s
  result := .error e

/-! ## Runs in one go -/

def finishInstant (s : Session) (keep : Bool) (what : String) : Reply Status :=
  match s.obtain keep with
  | .error e => s.refuse e
  | .ok (m, notes) =>
    let (m, log) := m.runInstant #[]
    { session := { s with bench := .live m }
      result := .ok m.status
      before := notes
      events := log.toList
      after := [⟨.info, s!"{what}: {m.status.text} after {m.steps} steps"⟩] }

/-- A new run to its end. -/
def runInstant (s : Session) : Reply Status :=
  s.finishInstant false "run finished"

/-- The live run to its end, or a new one when there is none to resume. -/
def resumeInstant (s : Session) : Reply Status :=
  s.finishInstant true "run resumed and finished"

/-- One step of the live run, or of a new one when there is none to resume. -/
def step (s : Session) : Reply Status :=
  match s.obtain true with
  | .error e => s.refuse e
  | .ok (m, notes) =>
    let (m, events) := m.step true
    { session := { s with bench := .live m }
      result := .ok m.status
      before := notes
      events := events ++ [.tape m.tape] }

/-- The request to cancel that a run leaves behind, of one that was there in its end: it is
withdrawn when it has stopped the run. -/
def leftBy (cancel : Bool) : Outcome → Bool
  | .cancelled => false
  | .ended _ => cancel

/-- Steps of the live run, or of a new one, to its end. A request to cancel is looked at before
each, and withdrawn when it has stopped the run. -/
def stepToEnd (s : Session) (cancelsAfter : Nat → Bool) : Reply Outcome :=
  if s.cancel then { session := s.withdrawCancel, result := .ok .cancelled }
  else
    match s.obtain true with
    | .error e => s.refuse e
    | .ok (m, notes) =>
      let run := m.runStepwise cancelsAfter false #[]
      { session := { s with bench := .live run.machine, cancel := leftBy run.cancel run.outcome }
        result := .ok run.outcome
        before := notes
        events := run.log.toList }

/-! ## Paced runs -/

def beginPaced (s : Session) (keep : Bool) : Reply Unit :=
  match s.obtain keep with
  | .error e => s.refuse e
  | .ok (m, notes) =>
    { session := { s with bench := .live m, running := true }
      result := .ok ()
      before := notes }

/-- Starts a new paced run. -/
def startPaced (s : Session) : Reply Unit :=
  s.beginPaced false

/-- Goes on with a paused run, or starts a new one when there is none to resume. -/
def resumePaced (s : Session) : Reply Unit :=
  s.beginPaced true

/-- One tick of a paced run; none when no paced run is going, or when a request to cancel has just
stopped it. -/
def tick (s : Session) (speed : Speed) : Reply (Option Tick) :=
  if s.running then
    if s.cancel then
      { session := { s with running := false, cancel := false }
        result := .ok none
        before := [⟨.debug, "paced run cancelled"⟩] }
    else
      match s.bench with
      | .idle _ => { session := s, result := .ok none }
      | .live m =>
        let (m, log, tick) := m.tick speed #[]
        match tick with
        | .goesOn _ =>
          { session := { s with bench := .live m }
            result := .ok (some tick)
            events := log.toList }
        | .finished status =>
          { session := { s with bench := .live m, running := false }
            result := .ok (some tick)
            events := log.toList
            after := [⟨.info, s!"paced run finished: {status.text} after {m.steps} steps"⟩] }
  else { session := s, result := .ok none }

/-- A new paced run, up to its end or to a request to cancel, which it withdraws. A `late` request
is one that comes in the last tick, when nothing looks for one any more. -/
def runPaced (s : Session) (pacer : Pacer) (late : Bool := false) : Reply Outcome :=
  match s.obtain false with
  | .error e => s.refuse e
  | .ok (m, notes) =>
    let run := m.runPaced pacer s.cancel #[] #[]
    { session := { s with bench := .live run.machine, cancel := leftBy late run.outcome }
      result := .ok run.outcome
      before := notes
      events := run.log.toList
      pauses := run.pauses.toList
      after := [⟨.info, s!"paced run ended: {run.outcome.tag} after {run.machine.steps} steps"⟩] }

end Session

end TapeMachine
