import TapeMachine.Text.Blank

/-!
# Options on a command line

A word is an option when it starts with a dash and has more to it. Options may be given by name or
by letter, letters may be written together, and a value may stand in the same word or be the next
one. Words that are not options are code, and from the first of them on everything is.
-/

namespace TapeMachine.CommandLine

/-- An option: its name, its letter if it has one, and whether it takes a value. -/
structure Switch where
  name : String
  letter : Option Char := none
  valued : Bool := false
deriving DecidableEq, Repr

structure Grammar where
  switches : List Switch
  takesCode : Bool := false
deriving DecidableEq, Repr

/-- The options given, each with its value, in order, and the words of code. -/
structure Given where
  options : List (String × String) := []
  code : List String := []
deriving DecidableEq, Repr

/-- What one word is: options, the last of which may still want its value; code; the divider
before code; or none of these. -/
inductive Word where
  | options (given : List (String × String)) (wants : Option String)
  | code
  | divider
  | unknown
deriving DecidableEq, Repr

namespace Grammar

def byName? (g : Grammar) (name : String) : Option Switch :=
  g.switches.find? (·.name == name)

def byLetter? (g : Grammar) (letter : Char) : Option Switch :=
  g.switches.find? (·.letter == some letter)

/-- A word after two dashes: a name, with the value behind `=` if there is one. -/
def readName (g : Grammar) (body : List Char) : Word :=
  let name := String.ofList (body.takeWhile (· ≠ '='))
  match g.byName? name, body.dropWhile (· ≠ '=') with
  | none, _ => .unknown
  | some switch, [] => if switch.valued then .options [] (some name) else .options [(name, "")] none
  | some switch, _ :: value =>
    if switch.valued then .options [(name, String.ofList value)] none else .unknown

/-- The value written behind a letter, where one `=` between them is dropped. -/
def attached : List Char → String
  | '=' :: value => String.ofList value
  | value => String.ofList value

/-- Letters after one dash. One that takes a value takes the rest of the word. -/
def readLetters (g : Grammar) : List Char → Word
  | [] => .options [] none
  | letter :: rest =>
    match g.byLetter? letter with
    | none => .unknown
    | some switch =>
      if switch.valued then
        if rest.isEmpty then .options [] (some switch.name)
        else .options [(switch.name, attached rest)] none
      else
        match readLetters g rest with
        | .options given wants => .options ((switch.name, "") :: given) wants
        | other => other

def readWord (g : Grammar) (word : String) : Word :=
  match word.toList with
  | ['-', '-'] => .divider
  | '-' :: '-' :: body => g.readName body
  | '-' :: letter :: rest => g.readLetters (letter :: rest)
  | _ => .code

/-- A value in a word of its own may not look like an option; a dash alone does not. -/
def looksLikeValue (word : String) : Bool :=
  match word.toList with
  | '-' :: _ :: _ => false
  | _ => true

/-- Reads all words, or fails. -/
def scan (g : Grammar) : List String → Option Given
  | [] => some {}
  | word :: rest =>
    match g.readWord word with
    | .unknown => none
    | .code => if g.takesCode then some { code := word :: rest } else none
    | .divider =>
      if g.takesCode then some { code := rest } else if rest.isEmpty then some {} else none
    | .options given none =>
      (g.scan rest).map fun later => { later with options := given ++ later.options }
    | .options given (some name) =>
      match rest with
      | [] => none
      | value :: rest =>
        if looksLikeValue value then
          (g.scan rest).map fun later =>
            { later with options := given ++ (name, value) :: later.options }
        else none

end Grammar

namespace Given

def has (g : Given) (name : String) : Bool :=
  g.options.any (·.1 == name)

def value? (g : Given) (name : String) : Option String :=
  (g.options.find? (·.1 == name)).map Prod.snd

/-- The value of an option, read. It fails when the value cannot be read, and is `none` when the
option was not given. -/
def read? {α : Type} (g : Given) (name : String) (read : String → Option α) :
    Option (Option α) :=
  match g.value? name with
  | none => some none
  | some value => (read value).map some

/-- No option may be given twice. -/
def isDistinct (g : Given) : Bool :=
  (g.options.map Prod.fst).Nodup

def excludes (g : Given) (a b : String) : Bool :=
  !(g.has a && g.has b)

end Given

end TapeMachine.CommandLine
