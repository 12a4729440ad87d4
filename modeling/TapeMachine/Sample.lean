import TapeMachine.Text.Blank

/-! # Sample programs -/

namespace TapeMachine

structure Sample where
  name : String
  description : String
  code : String
deriving DecidableEq, Repr

namespace Sample

def hello : Sample where
  name := "hello"
  description := "prints Hello World!"
  code := Text.unlines
    ["++++++++++              set cell 0 to 10",
      "[                       loop ten times",
      "    >+++++++            cell 1 gets 70",
      "    >++++++++++         cell 2 gets 100",
      "    >+++                cell 3 gets 30",
      "    >+                  cell 4 gets 10",
      "    <<<<-               count down",
      "]",
      ">++.                    H",
      ">+.                     e",
      "+++++++..               l l",
      "+++.                    o",
      ">++.                    space",
      "<<+++++++++++++++.      W",
      ">.                      o",
      "+++.                    r",
      "------.                 l",
      "--------.               d",
      ">+.                     !",
      ">.                      newline"]

def echo : Sample where
  name := "echo"
  description := "copies input to output until input ends"
  code := Text.unlines
    [",                       read a byte",
      "[                       until input ends",
      "    .                   echo it",
      "    ,                   read the next one",
      "]"]

def counter : Sample where
  name := "counter"
  description := "counts to 65 in a loop and prints A"
  code := Text.unlines
    ["++++++++++              set cell 0 to 10",
      "[                       loop ten times",
      "    >++++++             add 6 to cell 1",
      "    <-                  count down",
      "]",
      ">+++++.                 cell 1 is 65 so print A"]

def all : List Sample := [hello, echo, counter]

/-- The sample with a name, up to case and blanks around it. -/
def find? (name : String) : Option Sample :=
  all.find? fun s => Text.sameLetters s.name (Text.trimmed name)

def names : String :=
  ", ".intercalate (all.map Sample.name)

end Sample

end TapeMachine
