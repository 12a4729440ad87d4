import TapeMachine.Palette
import TapeMachine.Text.Cluster
import TapeMachine.Text.Width

/-!
# Screens

A screen is a list of rows, a row a list of cells. Panes are drawn as blocks of rows and put beside
and below one another.
-/

namespace TapeMachine

structure Style where
  fg : Color := .reset
  bg : Color := .reset
  bold : Bool := false
deriving DecidableEq, Repr, Inhabited

/-- The symbol of a cell is one character, or several that are drawn as one. -/
structure Cell where
  symbol : List Char
  style : Style := {}
deriving DecidableEq, Repr, Inhabited

abbrev Row := List Cell

namespace Row

def blank (width : Nat) : Row :=
  List.replicate width ⟨[' '], {}⟩

def ofChars (cs : List Char) (style : Style) : Row :=
  cs.map (⟨[·], style⟩)

def ofString (s : String) (style : Style) : Row :=
  ofChars s.toList style

/-- The columns that some cells fill when there are `room` of them. A wide symbol takes the column
after its own as well, and the row is cut at the first symbol that does not fit. -/
def place (room : Nat) : Row → Row
  | [] => []
  | cell :: rest =>
    match Text.width cell.symbol with
    | 0 => place room rest
    | more + 1 =>
      if more < room then cell :: blank more ++ place (room - more - 1) rest else []

/-- The row cut or filled up to a width. -/
def fit (width : Nat) (row : Row) : Row :=
  let placed := place width row
  placed ++ blank (width - placed.length)

theorem length_place_le (room : Nat) (row : Row) : (place room row).length ≤ room := by
  induction row generalizing room with
  | nil => exact Nat.zero_le _
  | cons cell rest ih =>
    rw [place]
    split
    · exact ih room
    · rename_i more _
      split
      · have := ih (room - more - 1)
        simp only [List.cons_append, List.length_cons, List.length_append, blank,
          List.length_replicate]
        omega
      · exact Nat.zero_le _

@[simp]
theorem length_fit (width : Nat) (row : Row) : (fit width row).length = width := by
  have := length_place_le width row
  simp only [fit, blank, List.length_append, List.length_replicate]
  omega

/-- Puts a cluster without a column of its own into the last cell of a row, given backwards. -/
def attach (style : Style) (cluster : List Char) : Row → Row
  | [] => []
  | cell :: row => ⟨cell.symbol ++ cluster, style⟩ :: row

/-- The columns that a text fills cluster by cluster when there are `room` of them, behind the cells
of `drawn`, given backwards. The text is cut at the first cluster that does not fit. -/
def drawClusters (style : Style) (room : Nat) (drawn : Row) : List (List Char) → Row
  | [] => drawn.reverse
  | cluster :: rest =>
    match Text.width cluster with
    | 0 => drawClusters style room (attach style cluster drawn) rest
    | more + 1 =>
      if more < room then
        drawClusters style (room - more - 1) (blank more ++ ⟨cluster, style⟩ :: drawn) rest
      else drawn.reverse

theorem length_drawClusters_le (style : Style) (room : Nat) (drawn : Row)
    (clusters : List (List Char)) :
    (drawClusters style room drawn clusters).length ≤ drawn.length + room := by
  induction clusters generalizing room drawn with
  | nil => simp [drawClusters]
  | cons cluster rest ih =>
    rw [drawClusters]
    split
    · have := ih room (attach style cluster drawn)
      cases drawn <;> simpa [attach] using this
    · rename_i more _
      split
      · have filled :
            (blank more ++ ⟨cluster, style⟩ :: drawn).length = more + drawn.length + 1 := by
          simp [blank, Nat.add_assoc]
        have := ih (room - more - 1) (blank more ++ ⟨cluster, style⟩ :: drawn)
        omega
      · simp

/-- A title in a row of `room` columns. It has as many columns as its text, counted in 16 bits, and
line feeds are left out. -/
def title (style : Style) (room : Nat) (text : List Char) : Row :=
  drawClusters style (min (Text.width text % 0x10000) room) []
    ((Text.clusters text).filter (· ≠ ['\n']))

theorem length_title_le (style : Style) (room : Nat) (text : List Char) :
    (title style room text).length ≤ room := by
  have := length_drawClusters_le style (min (Text.width text % 0x10000) room) []
    ((Text.clusters text).filter (· ≠ ['\n']))
  simp only [List.length_nil, Nat.zero_add] at this
  exact Nat.le_trans this (Nat.min_le_right _ _)

/-- The symbols, without blanks at the end. -/
def text (row : Row) : String :=
  String.ofList ((row.flatMap Cell.symbol).reverse.dropWhile (· = ' ')).reverse

/-- What a terminal shows of a row: the column behind a wide symbol is left as it is, blank. -/
def shownFrom (covered : Bool) : Row → Row
  | [] => []
  | cell :: rest =>
    (if covered then ⟨[' '], {}⟩ else cell) :: shownFrom (1 < Text.width cell.symbol) rest

def shown (row : Row) : Row :=
  row.shownFrom false

theorem length_shownFrom (covered : Bool) (row : Row) :
    (shownFrom covered row).length = row.length := by
  induction row generalizing covered with
  | nil => rfl
  | cons cell rest ih => simp [shownFrom, ih]

@[simp]
theorem length_shown (row : Row) : row.shown.length = row.length :=
  length_shownFrom false row

/-- The row with some cells replaced from column `x` on. -/
def overlay (row : Row) (x : Nat) (cells : Row) : Row :=
  row.take x ++ cells ++ row.drop (x + cells.length)

end Row

abbrev Screen := List Row

namespace Screen

/-- Lines cut or filled up to a number of rows, each to a width. -/
def fit (width height : Nat) (lines : List Row) : Screen :=
  (lines.take height ++ List.replicate (height - lines.length) []).map (Row.fit width)

def beside (left right : Screen) : Screen :=
  List.zipWith (· ++ ·) left right

/-- A border with a title, and lines inside it. -/
structure Pane where
  title : String
  titleStyle : Style := {}
  borderStyle : Style := {}
  lines : List Row

/-- The title starts one column in and is cut at the corner. -/
def Pane.draw (p : Pane) (width height : Nat) : Screen :=
  let inner := width - 2
  let edge (c : Char) : Cell := ⟨[c], p.borderStyle⟩
  let title := Row.title p.titleStyle inner p.title.toList
  let top := edge '┌' :: title ++ List.replicate (inner - title.length) (edge '─') ++ [edge '┐']
  let bottom := edge '└' :: List.replicate inner (edge '─') ++ [edge '┘']
  let middle := (fit inner (height - 2) p.lines).map fun row => edge '│' :: row ++ [edge '│']
  top :: middle ++ [bottom]

/-- The screen with a block of rows laid over it at column `x` and row `y`. -/
def overlay (screen : Screen) (x y : Nat) (block : Screen) : Screen :=
  screen.take y ++
    List.zipWith (fun row cells => Row.overlay row x cells) (screen.drop y) block ++
    screen.drop (y + block.length)

end Screen

end TapeMachine
