import TapeMachine.Text.Blank

/-!
# Scripts

A script is a text of code and commands. A line is a command when its first character that is not
blank is a colon; the lines of code between two commands belong together.
-/

namespace TapeMachine

inductive Submission where
  | code (text : String)
  | command (line : String)
deriving DecidableEq, Repr

namespace Script

def isCommand (line : List Char) : Bool :=
  (Text.trimStart line).head? == some ':'

/-- A block of code, unless it is blank. -/
def block (code : List Char) : List Submission :=
  if Text.allBlank code then [] else [.code (String.ofList code)]

/-- The submissions of some lines that come after the lines of code in `code`. -/
def splitAfter (code : List Char) : List (List Char) → List Submission
  | [] => block code
  | line :: rest =>
    if isCommand line then
      block code ++ .command (String.ofList (Text.trim line)) :: splitAfter [] rest
    else splitAfter (code ++ line ++ ['\n']) rest

def split (text : String) : List Submission :=
  splitAfter [] (Text.lines text.toList)

end Script

end TapeMachine
