import TapeMachine.Instruction
import TapeMachine.Text.Blank
import TapeMachine.Text.Number

/-!
# Colours

The palette, as escape codes for text that scrolls by and as colours of screen cells.
-/

namespace TapeMachine

/-- A text colour: one that the terminal names, one of its 256, or an exact one. -/
inductive Ink where
  | red
  | yellow
  | darkGray
  | fixed (n : UInt8)
  | rgb (r g b : UInt8)
deriving DecidableEq, Repr

/-- The colour of a screen cell. -/
inductive Color where
  | reset
  | black
  | cyan
  | gray
  | indexed (n : UInt8)
  | rgb (r g b : UInt8)
deriving DecidableEq, Repr, Inhabited

/-- Only exact colours and those of the 256 are used on the screen. -/
def Ink.onScreen : Ink → Color
  | fixed n => .indexed n
  | rgb r g b => .rgb r g b
  | red | yellow | darkGray => .reset

namespace Palette

def text : Ink := .rgb 205 214 244
def subtext : Ink := .rgb 166 173 200
def surface : Ink := .rgb 69 71 90
def dim : Ink := .rgb 108 112 134
def red : Ink := .rgb 243 139 168
def green : Ink := .rgb 166 227 161
def yellow : Ink := .rgb 249 226 175
def blue : Ink := .rgb 137 180 250
def mauve : Ink := .rgb 203 166 247
def peach : Ink := .rgb 250 179 135
def teal : Ink := .rgb 148 226 213
def sky : Ink := .rgb 137 220 235

/-- A colour for each instruction; both brackets share one, and comments are dim. -/
def ofChar : Char → Ink
  | '>' => sky
  | '<' => teal
  | '+' => green
  | '-' => red
  | '.' => yellow
  | ',' => peach
  | '[' | ']' => mauve
  | _ => dim

end Palette

/-! ## Escape codes -/

def Ink.code : Ink → String
  | red => "31"
  | yellow => "33"
  | darkGray => "90"
  | fixed n => s!"38;5;{n.toNat}"
  | rgb r g b => s!"38;2;{r.toNat};{g.toNat};{b.toNat}"

/-- How a piece of text is painted. -/
structure Paint where
  ink : Ink
  bold : Bool := false
deriving DecidableEq, Repr

def Paint.apply (p : Paint) (text : String) : String :=
  let weight := if p.bold then "1;" else ""
  s!"\x1b[{weight}{p.ink.code}m{text}\x1b[0m"

/-! ## A line that is being typed -/

def charPaint (c : Char) : Paint where
  ink := Palette.ofChar c
  bold := (Instruction.ofChar? c).isSome

def commandPaint : Paint where
  ink := Palette.blue
  bold := true

/-- A command has one colour. In code, neighbours that look alike are painted together. -/
def paintLine (line : String) : String :=
  if (Text.trimStart line.toList).head? = some ':' then commandPaint.apply line
  else
    let runs := line.toList.splitBy fun a b => charPaint a == charPaint b
    String.join (runs.map fun run =>
      match run with
      | [] => ""
      | c :: _ => (charPaint c).apply (String.ofList run))

end TapeMachine
