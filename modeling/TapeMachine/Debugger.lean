import TapeMachine.Debugger.Command
import TapeMachine.Debugger.Script
import TapeMachine.Report
import TapeMachine.Session
import TapeMachine.Settings

/-!
# The debugger

A session driven by commands. What a command is asked for goes to the output; confirmations,
diagnostics and errors go to the side.
-/

namespace TapeMachine

/-- One thing that the debugger says: bytes or a line on the output, a line on the side, or a
note. -/
inductive Saying where
  | output (bytes : List UInt8)
  | line (text : String)
  | side (line : Line)
  | note (n : Note)
deriving DecidableEq, Repr

namespace Saying

def aside (text : String) : Saying :=
  .side (.plain text)

/-- What goes to the output, write by write. A line's end is written after its text. -/
def writes : Saying → List (List UInt8)
  | output bytes => [bytes]
  | line text => [Text.utf8 text, [0x0A]]
  | side _ | note _ => []

/-- What goes to the output. -/
def bytes (s : Saying) : List UInt8 :=
  s.writes.flatten

end Saying

structure Debugger where
  session : Session
  format : CellFormat

/-- What came of a submission. -/
structure Turn where
  debugger : Debugger
  said : List Saying := []
  leaves : Bool := false

namespace Debugger

def helpLines : List String :=
  ["Commands (line starts with \":\")",
    "  :step [N]        Execute N steps (default 1), printing each one",
    "  :run             Run from the start to the end",
    "  :continue        Finish the current run without restarting it",
    "  :reset           Drop the run and clear the tape",
    "  :input TEXT      Input for the next run (\\n, \\t, \\xNN escapes)",
    "  :eof POLICY      zero | minus-one | unchanged",
    "  :max-steps N     Step budget for the next run",
    "  :tape [ROW]      Show tape rows, starting at ROW or the pointer's row",
    "  :format [hex|dec]  Cell display format (toggles without an argument)",
    "  :state           Status, counters and the next instruction",
    "  :source          Print the loaded source",
    "  :sample [NAME]   Load a sample, or list them",
    "  :help            Show this help",
    "  :exit            Leave the debugger",
    "Any other input replaces the program source."]

/-- The help, without the end of its last line. -/
def helpText : String :=
  "\n".intercalate helpLines

def new (settings : Settings) : Debugger where
  session := .new settings.tapeSize settings.config
  format := .hex

def setInput (d : Debugger) (input : List UInt8) : Debugger :=
  { d with session := d.session.setInput input.toArray }

/-- Where the run stands, for the prompt. -/
def promptStatus (d : Debugger) : String :=
  match d.session.machine? with
  | none => Status.ready.text
  | some m => s!"{m.status.text}, step {m.steps}"

/-! ## Code -/

/-- Replaces the source and says whether it loads. -/
def load (d : Debugger) (code : String) : Turn :=
  let session := d.session.setSource code
  let said := match session.check with
    | .ok program => [.aside s!"loaded {program.size} instructions"]
    | .error e => (Report.loadError none code e).map .side
  { debugger := { d with session := session }, said := said }

/-! ## Steps and runs -/

def sayError (d : Debugger) : RunError → List Saying
  | .load e => (Report.loadError none d.session.source e).map .side
  | .busy => [.aside RunError.busy.message]

def sayDiagnostics (events : List Event) : List Saying :=
  (diagnosticsOf events).map (.aside ·.message)

/-- What a run wrote, with a line feed behind it, and how it ended if not at its end. -/
def sayRun (status : Status) (events : List Event) : List Saying :=
  [.output (outputOf events), .output [0x0A]] ++ sayDiagnostics events ++
    if status = .halted then [] else [.line s!"status: {status.text}"]

def finishRun (d : Debugger) (reply : Reply Status) : Turn :=
  let after := { d with session := reply.session }
  let said := match reply.result with
    | .ok status => sayRun status reply.events
    | .error e => after.sayError e
  { debugger := after
    said := reply.before.map .note ++ reply.after.map .note ++ said }

/-- Some steps of a session: the session after them, what they reported, the notes on the way and
the last result. -/
structure Steps where
  session : Session
  events : Array Event := #[]
  notes : Array Note := #[]
  last : Option (Except RunError Status) := none

def isShown : Event → Bool
  | .tape _ => false
  | _ => true

/-- At most `n` more steps, up to the end of the run or to an error. -/
def Steps.more (n : Nat) (s : Steps) : Steps :=
  match n with
  | 0 => s
  | n + 1 =>
    let reply := s.session.step
    let next : Steps :=
      { session := reply.session
        events := s.events ++ reply.events.filter isShown
        notes := s.notes ++ reply.before ++ reply.after
        last := some reply.result }
    match reply.result with
    | .ok status => if status.isTerminal then next else next.more n
    | .error _ => next
termination_by structural n

def saySteps (events : List Event) : List Saying :=
  (stepsOf events).map (.line <| Report.trace ·)

def sayOutput (output : List UInt8) : List Saying :=
  if output.isEmpty then []
  else [.line s!"output: {String.ofList (Text.escapeOnOneLine output)}"]

def sayEnd : Option (Except RunError Status) → List Saying
  | some (.ok status) => if status.isTerminal then [.line s!"status: {status.text}"] else []
  | _ => []

def step (d : Debugger) (count : Nat) : Turn :=
  let steps := Steps.more count { session := d.session }
  let after := { d with session := steps.session }
  let events := steps.events.toList
  let failed := match steps.last with
    | some (.error e) => after.sayError e
    | _ => []
  { debugger := after
    said := steps.notes.toList.map .note ++ failed ++ saySteps events ++
      sayOutput (outputOf events) ++ sayDiagnostics events ++ sayEnd steps.last }

/-! ## Queries -/

/-- Rows shown by one command. -/
def tapeRows : Nat := 4

def sayRows (d : Debugger) (start : Nat) : List Saying :=
  let tape := d.session.tape
  (List.range' start (min tapeRows (tape.rowCount - start))).map fun row =>
    .line (tape.gridRow row d.format)

def sayTape (d : Debugger) (row : String) : List Saying :=
  let tape := d.session.tape
  if row.isEmpty then d.sayRows tape.pointerRow
  else
    match (Text.readWord row).filter (· < tape.rowCount) with
    | some start => d.sayRows start
    | none => [.aside (Refusal.row row tape.rowCount).message]

def sayRunState (m : Machine) : List Saying :=
  let next := match m.program.code[m.pc]? with
    | some placed => s!"next: '{placed.op.text}' at offset {placed.offset}"
    | none => "(end of program)"
  [.line s!"status: {m.status.text}  steps: {m.steps}/{m.config.maxSteps}",
    .line s!"ip: {m.pc} of {m.program.size}  {next}",
    .line s!"input: {m.cursor} of {m.input.size} bytes used"]

def sayState (d : Debugger) : List Saying :=
  let config := d.session.config
  let tape := d.session.tape
  let run := match d.session.machine? with
    | none => [.line s!"status: {Status.ready.text}  steps: 0/{config.maxSteps}"]
    | some m => sayRunState m
  run ++
    [.line (s!"ptr: 0x{Text.hex 4 tape.pointer} = {d.format.bareCell tape.get} " ++
        s!"({Text.decimal tape.get.toNat})"),
      .line s!"eof: {config.eof.text}  coalesce: {config.coalesce}"]

def saySource (source : String) : List Saying :=
  if source.isEmpty then [.output (Text.utf8 "(no source)\n")]
  else if source.toList.getLast? = some '\n' then [.output (Text.utf8 source)]
  else [.line source]

def saySamples : List Saying :=
  Sample.all.map fun s => .line s!"{Text.leftText 8 s.name} {s.description}"

/-! ## Commands -/

def setConfig (d : Debugger) (config : Config) (said : String) : Turn where
  debugger := { d with session := d.session.setConfig config }
  said := [.aside said]

def setFormat (d : Debugger) (format : CellFormat) : Turn where
  debugger := { d with format := format }
  said := [.aside s!"cells shown in {format.label}"]

def obey (d : Debugger) : Command → Turn
  | .exit => { debugger := d, leaves := true }
  | .help => { debugger := d, said := [.line helpText] }
  | .step count => d.step count
  | .run => d.finishRun d.session.runInstant
  | .resume => d.finishRun d.session.resumeInstant
  | .reset =>
    { debugger := { d with session := d.session.reset }, said := [.aside "tape cleared"] }
  | .input bytes =>
    { debugger := d.setInput bytes
      said := [.aside s!"input set ({bytes.length} bytes, used from the next run)"] }
  | .eof policy =>
    d.setConfig { d.session.config with eof := policy }
      s!"eof policy: {policy.text} (from the next run)"
  | .maxSteps n =>
    d.setConfig { d.session.config with maxSteps := n } s!"max steps: {n} (from the next run)"
  | .tape row => { debugger := d, said := d.sayTape row }
  | .format format => d.setFormat (format.getD d.format.toggle)
  | .state => { debugger := d, said := d.sayState }
  | .source => { debugger := d, said := saySource d.session.source }
  | .samples => { debugger := d, said := saySamples }
  | .sample s => d.load s.code
  | .refused r => { debugger := d, said := [.aside r.message] }

def command (d : Debugger) (line : String) : Turn :=
  let (name, argument) := Command.parts line
  let turn := d.obey (Command.ofParts name argument)
  { turn with said := .note ⟨.debug, s!"debugger command :{name} {argument}"⟩ :: turn.said }

/-- One submission from a reader: a command, code, or nothing when it is blank. -/
def handle (d : Debugger) (submission : String) : Turn :=
  let trimmed := Text.trim submission.toList
  if trimmed.isEmpty then { debugger := d }
  else if trimmed.head? = some ':' then d.command (String.ofList trimmed)
  else d.load submission

/-! ## Scripts -/

def submit (d : Debugger) : Submission → Turn
  | .code text => d.load text
  | .command line => d.command line

/-- Submissions in order, up to one that leaves. -/
def submitAll (d : Debugger) : List Submission → Turn
  | [] => { debugger := d }
  | s :: rest =>
    let turn := d.submit s
    if turn.leaves then turn
    else
      let later := turn.debugger.submitAll rest
      { later with said := turn.said ++ later.said }

def hasCommand (submissions : List Submission) : Bool :=
  submissions.any fun
    | .command _ => true
    | .code _ => false

/-- A whole script. One without a command runs its code once. -/
def runScript (d : Debugger) (text : String) : Turn :=
  let submissions := Script.split text
  let turn := d.submitAll submissions
  if hasCommand submissions || Text.allBlank turn.debugger.session.source.toList then turn
  else
    let last := turn.debugger.command ":run"
    { last with said := turn.said ++ last.said }

end Debugger

end TapeMachine
