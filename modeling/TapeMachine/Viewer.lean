import TapeMachine.Session
import TapeMachine.Settings
import TapeMachine.Tape.Grid

/-!
# The viewer

A session watched on a screen: keys start, pause and step the run and choose what is shown, and
ticks come when they are due.
-/

namespace TapeMachine

/-- What the run has shown so far. -/
structure Display where
  output : Array UInt8 := #[]
  highlight : Option Span := none
  lastStep : Option StepEvent := none
  message : Option String := none

namespace Display

def see (d : Display) : Event → Display
  | .output byte => { d with output := d.output.push byte }
  | .diagnostic diagnostic => { d with message := some diagnostic.message }
  | .step e => { d with highlight := some e.source, lastStep := some e }
  | .tape _ => d
  | .halted status =>
    if status = .halted then { d with highlight := none, message := some "program finished" }
    else d

def seeAll (d : Display) (events : List Event) : Display :=
  events.foldl see d

def say (d : Display) (message : String) : Display :=
  { d with message := some message }

end Display

/-- Nanoseconds since some moment. -/
abbrev Time := Nat

inductive Key where
  | char (c : Char)
  | escape
  | enter
  | tab
  | backspace
  | delete
  | up
  | down
  | left
  | right
  | pageUp
  | pageDown
  | home
  | ending
  | function (n : Nat)
deriving DecidableEq, Repr

structure Press where
  key : Key
  control : Bool := false
deriving DecidableEq, Repr

structure Viewer where
  session : Session
  display : Display
  title : String
  /-- Where the delay stands on the ladder. -/
  rung : Nat
  instant : Bool
  nextTick : Option Time := none
  format : CellFormat := .hex
  /-- The first memory row to show; none follows the pointer. -/
  scroll : Option Nat := none
  /-- Memory rows that the screen had room for when it was last drawn. -/
  page : Nat := 16
  help : Bool := false

/-- What came of a key or of the time: the viewer after it, whether it is to be closed, and the
notes. -/
structure Response where
  viewer : Viewer
  quits : Bool := false
  notes : List Note := []

namespace Viewer

/-! ## Speed -/

/-- The delays to choose from, in milliseconds. -/
def ladder : List Nat := [1, 5, 10, 25, 50, 100, 200, 500, 1000]

def distance (a b : Nat) : Nat :=
  (a - b) + (b - a)

/-- The place of the delay that is nearest to `ms`, the shortest of two. -/
def nearestRung (ms : Nat) : Nat :=
  let best := ladder.zipIdx.foldl (fun (best : Nat × Nat) (delay, rung) =>
    if distance delay ms < best.1 then (distance delay ms, rung) else best) (distance 1 ms, 0)
  best.2

def delayMs (v : Viewer) : Nat :=
  (ladder[v.rung]?).getD 50

def speed (v : Viewer) : Speed :=
  .ofMillis v.delayMs v.instant

def faster (v : Viewer) : Viewer :=
  { v with rung := v.rung - 1 }

def slower (v : Viewer) : Viewer :=
  { v with rung := min (v.rung + 1) (ladder.length - 1) }

def new (settings : Settings) (source : String) (input : Array UInt8) (title : String) :
    Viewer :=
  let session := ((Session.new settings.tapeSize settings.config).setSource source).setInput input
  { session := session
    display := { message := match session.check with
      | .ok _ => none
      | .error e => some e.message }
    title := title
    rung := nearestRung settings.speedMs
    instant := settings.instant || settings.speedMs == 0 }

/-! ## Running -/

/-- Pauses the run, goes on with it, or starts one. -/
def toggleRun (v : Viewer) (now : Time) : Response :=
  if v.session.running then
    { viewer :=
        { v with session := v.session.pause, nextTick := none, display := v.display.say "paused" } }
  else
    let isNew := !v.session.canResume
    let reply := v.session.resumePaced
    match reply.result with
    | .ok _ =>
      let display := if isNew then {} else v.display
      { viewer :=
          { v with
            session := reply.session
            display := { display with message := none }
            nextTick := some now }
        notes := reply.before ++ [⟨.debug, s!"watch: run started (fresh={isNew})"⟩] }
    | .error e =>
      { viewer := { v with session := reply.session, display := v.display.say e.message } }

/-- One step, unless a paced run is going. -/
def stepOnce (v : Viewer) : Response :=
  if v.session.running then
    { viewer := { v with display := v.display.say "pause the run before stepping" } }
  else
    let display := if v.session.canResume then v.display else {}
    let reply := v.session.step
    let display := display.seeAll reply.events
    { viewer :=
        { v with
          session := reply.session
          display := match reply.result with
            | .ok _ => display
            | .error e => display.say e.message }
      notes := reply.before }

/-- Drops the run, clears the tape and what was shown, and follows the pointer again. -/
def reset (v : Viewer) : Response where
  viewer :=
    { v with session := v.session.reset, display := {}, nextTick := none, scroll := none }
  notes := v.session.abandonNotes

/-- A tick, if one is due. -/
def onTime (v : Viewer) (now : Time) : Response :=
  if v.nextTick.all (now < ·) then { viewer := v }
  else
    let reply := v.session.tick v.speed
    let after :=
      { v with session := reply.session, display := v.display.seeAll reply.events }
    match reply.result with
    | .ok (some (.goesOn delay)) =>
      { viewer := { after with nextTick := some (now + delay.nanos) }
        notes := reply.before ++ reply.after }
    | .ok (some (.finished status)) =>
      { viewer := { after with nextTick := none }
        notes := reply.before ++ reply.after ++
          [⟨.info, s!"watch: run finished with status {status.text}"⟩] }
    | _ => { viewer := { after with nextTick := none }, notes := reply.before ++ reply.after }

/-! ## Memory -/

def currentRow (v : Viewer) : Nat :=
  v.scroll.getD v.session.tape.pointerRow

def scrollTo (v : Viewer) (row : Nat) : Viewer :=
  { v with scroll := some (min row (v.session.tape.rowCount - 1)) }

def scrollUp (v : Viewer) (rows : Nat) : Viewer :=
  v.scrollTo (v.currentRow - rows)

def scrollDown (v : Viewer) (rows : Nat) : Viewer :=
  v.scrollTo (v.currentRow + rows)

/-! ## Keys -/

inductive Action where
  | quit
  | toggleRun
  | step
  | reset
  | faster
  | slower
  | toggleInstant
  | toggleFormat
  | up
  | down
  | pageUp
  | pageDown
  | follow
  | help
  | nothing
deriving DecidableEq, Repr

def Action.ofKey : Key → Action
  | .char 'q' | .escape => quit
  | .char ' ' | .char 'r' | .function 5 => toggleRun
  | .char 's' | .char 'n' | .function 10 => step
  | .char 'x' | .backspace => reset
  | .char '+' | .char '=' => faster
  | .char '-' | .char '_' => slower
  | .char 'i' => toggleInstant
  | .char 'f' => toggleFormat
  | .up => up
  | .down => down
  | .pageUp => pageUp
  | .pageDown => pageDown
  | .home => follow
  | .char '?' | .function 1 => help
  | _ => nothing

def perform (v : Viewer) (now : Time) : Action → Response
  | .quit => { viewer := v, quits := true }
  | .toggleRun => v.toggleRun now
  | .step => v.stepOnce
  | .reset => v.reset
  | .faster => { viewer := v.faster }
  | .slower => { viewer := v.slower }
  | .toggleInstant => { viewer := { v with instant := !v.instant } }
  | .toggleFormat => { viewer := { v with format := v.format.toggle } }
  | .up => { viewer := v.scrollUp 1 }
  | .down => { viewer := v.scrollDown 1 }
  | .pageUp => { viewer := v.scrollUp v.page }
  | .pageDown => { viewer := v.scrollDown v.page }
  | .follow => { viewer := { v with scroll := none } }
  | .help => { viewer := { v with help := true } }
  | .nothing => { viewer := v }

/-- A key press. Control and C always closes the viewer, and any other key closes the help. -/
def press (v : Viewer) (p : Press) (now : Time) : Response :=
  if p.control && p.key == .char 'c' then { viewer := v, quits := true }
  else if v.help then { viewer := { v with help := false } }
  else v.perform now (.ofKey p.key)

end Viewer

end TapeMachine
