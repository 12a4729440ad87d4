import TapeMachine.Report
import TapeMachine.Screen.Highlight
import TapeMachine.Screen.Wrap
import TapeMachine.Text.Escape
import TapeMachine.Viewer

/-!
# Drawing the viewer

The source and the output on the left, memory on the right, a status line below, and the help over
all of it when it is asked for.
-/

namespace TapeMachine.Viewer

/-! ## Source -/

def sourcePane (v : Viewer) (height : Nat) : Screen.Pane where
  title := s!"Source - {v.title}"
  titleStyle := { fg := .cyan }
  lines := Highlight.linesToShow v.session.source.toList v.display.highlight (height - 2)

/-! ## Output -/

def outputPane (v : Viewer) (width : Nat) : Screen.Pane where
  title := "Output"
  titleStyle := { fg := .gray }
  lines :=
    let rows := if v.display.output.isEmpty then ["<no output yet>".toList]
      else wrap (width - 2) (Text.escape v.display.output.toList)
    rows.map (Row.ofChars · {})

/-! ## Memory -/

/-- The first memory row shown: the one asked for, or one that has the pointer's row in the middle,
but none that would leave room below the last row. -/
def firstRow (v : Viewer) (visible : Nat) : Nat :=
  let tape := v.session.tape
  min (v.scroll.getD (tape.pointerRow - visible / 2)) (tape.rowCount - max visible 1)

/-- The memory rows shown. -/
def shownRows (v : Viewer) (visible : Nat) : List Nat :=
  let first := v.firstRow visible
  List.range' first (min visible (v.session.tape.rowCount - first))

def cellStyle (pointer : Nat) : UInt8 × Nat → Style
  | (value, index) =>
    if index = pointer then Highlight.active
    else if value ≠ 0 then { fg := Palette.text.onScreen }
    else { fg := Palette.surface.onScreen }

def memoryRow (v : Viewer) (row : Nat) : Row :=
  let tape := v.session.tape
  Row.ofString (Text.hex 4 (Tape.rowStart row) ++ " ") { fg := Palette.dim.onScreen } ++
    (tape.rowCells row).flatMap fun cell =>
      ⟨[' '], {}⟩ :: Row.ofString (v.format.cell cell.1) (cellStyle tape.pointer cell)

def memoryPane (v : Viewer) (height : Nat) : Screen.Pane where
  title := s!"Memory ({v.format.label})"
  titleStyle := { fg := .gray }
  borderStyle := { fg := .gray }
  lines := (v.shownRows (height - 2)).map v.memoryRow

/-! ## Status -/

def speedText : Speed → String
  | .instant => "instant"
  | .delay d => s!"{d.millis} ms"

def status (v : Viewer) : Status :=
  v.session.status?.getD .ready

def statusText (v : Viewer) : String :=
  let tape := v.session.tape
  let state := if v.session.running then Status.running.text else v.status.text
  let steps := v.session.machine?.elim 0 Machine.steps
  let last := v.display.lastStep.elim "" fun e =>
    s!"| last {Report.counted e.op e.run} at {e.source.start} "
  let message := v.display.message.elim "" fun m => s!"| {m} "
  s!" {state} | step {steps} | ptr {Text.hex 4 tape.pointer} = {v.format.bareCell tape.get} " ++
    s!"| speed {speedText v.speed} {last}{message}| ? help"

def statusStyle : Status → Style
  | .stepLimit | .failed => { fg := Palette.red.onScreen }
  | _ => { fg := Palette.subtext.onScreen }

def statusRow (v : Viewer) (width : Nat) : Row :=
  Row.fit width (Row.ofString v.statusText (statusStyle v.status))

/-! ## Help -/

def helpLines : List String :=
  ["Space/r/F5: Run or pause",
    "s/n/F10: Step once",
    "x/Backspace: Reset tape and output",
    "+/-: Faster or slower  i: Toggle instant",
    "f: Toggle hex/decimal cells",
    "Up/Down, PageUp/PageDown: Scroll memory  Home: Follow pointer",
    "?/F1: Toggle this help",
    "q/Esc/Ctrl+C: Quit"]

def helpPane : Screen.Pane where
  title := "Help"
  lines := helpLines.map fun line => Row.ofString (" " ++ line) {}

/-- The help covers three quarters of the width and two thirds of the height, in the middle. -/
def drawHelp (width height : Nat) (screen : Screen) : Screen :=
  let w := width - width / 4
  let h := height - height / 3
  screen.overlay ((width - w) / 2) ((height - h) / 2) (helpPane.draw w h)

/-! ## The whole screen -/

/-- Columns of the memory pane: an address, sixteen cells and the border. -/
def memoryWidth : Nat := 6 + Tape.rowWidth * 5 + 2

/-- Rows of the output pane. -/
def outputHeight : Nat := 8

def draw (v : Viewer) (width height : Nat) : Screen :=
  let leftWidth := width - memoryWidth
  let sourceHeight := height - 1 - outputHeight
  let left := (v.sourcePane sourceHeight).draw leftWidth sourceHeight ++
    (v.outputPane leftWidth).draw leftWidth outputHeight
  let right := (v.memoryPane (height - 1)).draw memoryWidth (height - 1)
  let screen := Screen.beside left right ++ [v.statusRow width]
  (if v.help then drawHelp width height screen else screen).map Row.shown

/-- Memory rows that a screen has room for. -/
def pageOf (height : Nat) : Nat :=
  max (height - 3) 1

end TapeMachine.Viewer
