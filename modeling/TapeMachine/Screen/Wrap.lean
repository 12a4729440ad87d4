import TapeMachine.Text.Blank

/-!
# Word wrap

Text is broken into rows of a width at blanks, and inside a word only when the word is wider than a
row. Blanks at a break are used up by the row that ends there.
-/

namespace TapeMachine

/-- The rows done, and what is read but not placed: the row under way, the blanks behind it and
the word behind those. -/
structure Wrapping where
  rows : Array (List Char) := #[]
  line : Array Char := #[]
  blanks : Array Char := #[]
  word : Array Char := #[]
  afterWord : Bool := false

namespace Wrapping

/-- Puts the blanks and the word on the row under way. -/
def place (w : Wrapping) : Wrapping :=
  { w with line := w.line ++ w.blanks ++ w.word, blanks := #[], word := #[] }

def append (w : Wrapping) (c : Char) : Wrapping :=
  if Text.isBlank c then { w with blanks := w.blanks.push c, afterWord := false }
  else { w with word := w.word.push c, afterWord := true }

/-- Ends the row under way, which uses up the blanks that would still fit on it. -/
def endRow (width : Nat) (w : Wrapping) : Wrapping :=
  { w with
    rows := w.rows.push w.line.toList
    line := #[]
    blanks := w.blanks.extract (width - w.line.size) }

/-- A word is placed when a blank ends it, or when it alone fills a row. -/
def isPlaceable (width : Nat) (w : Wrapping) (c : Char) : Bool :=
  (w.afterWord && Text.isBlank c) ||
    (w.line.isEmpty && width < w.word.size + w.blanks.size + 1)

def isFull (width : Nat) (w : Wrapping) : Bool :=
  width ≤ w.line.size || width ≤ w.line.size + w.blanks.size + w.word.size

def feed (width : Nat) (w : Wrapping) (c : Char) : Wrapping :=
  let w := if w.isPlaceable width c then w.place else w
  if w.isFull width then
    let w := w.endRow width
    if Text.isBlank c && w.blanks.isEmpty then w else w.append c
  else w.append c

/-- The rows with what is left placed on a last one. A line has at least one row. -/
def finish (w : Wrapping) : List (List Char) :=
  let rows := if w.line.isEmpty && w.word.isEmpty && !w.blanks.isEmpty then w.rows.push []
    else w.rows
  let last := w.place.line
  let rows := if last.isEmpty then rows else rows.push last.toList
  if rows.isEmpty then [[]] else rows.toList

/-- The rows of one line. -/
def ofLine (width : Nat) (line : List Char) : List (List Char) :=
  (line.foldl (feed width) {}).finish

end Wrapping

/-- The rows of a text. -/
def wrap (width : Nat) (text : List Char) : List (List Char) :=
  (Text.lines text).flatMap (Wrapping.ofLine width)

end TapeMachine
