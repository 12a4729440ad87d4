/-!
# Blank characters, trimming and lines

Text is handled as a list of characters. A character is blank when Unicode gives it the property
White_Space.
-/

namespace TapeMachine.Text

/-- The ranges of the Unicode property White_Space, ends included. -/
def blankRanges : List (Nat × Nat) :=
  [(0x09, 0x0D), (0x20, 0x20), (0x85, 0x85), (0xA0, 0xA0), (0x1680, 0x1680), (0x2000, 0x200A),
    (0x2028, 0x2029), (0x202F, 0x202F), (0x205F, 0x205F), (0x3000, 0x3000)]

def isBlank (c : Char) : Bool :=
  blankRanges.any fun (low, high) => low ≤ c.toNat && c.toNat ≤ high

def trimStart (cs : List Char) : List Char :=
  cs.dropWhile isBlank

def trimEnd (cs : List Char) : List Char :=
  (cs.reverse.dropWhile isBlank).reverse

def trim (cs : List Char) : List Char :=
  trimEnd (trimStart cs)

def allBlank (cs : List Char) : Bool :=
  cs.all isBlank

/-- The text up to the first blank, and what follows that blank. -/
def cutAtBlank (cs : List Char) : List Char × Option (List Char) :=
  match cs.dropWhile (!isBlank ·) with
  | [] => (cs, none)
  | _ :: rest => (cs.takeWhile (!isBlank ·), some rest)

/-! ## Lines -/

/-- Drops the carriage return that ends a line, given the line backwards. -/
def dropReturn : List Char → List Char
  | '\r' :: rest => rest
  | line => line

/-- The lines of a text whose first line already holds the characters of `line`, backwards. -/
def linesAfter (line : List Char) : List Char → List (List Char)
  | [] => if line.isEmpty then [] else [line.reverse]
  | '\n' :: rest => (dropReturn line).reverse :: linesAfter [] rest
  | c :: rest => linesAfter (c :: line) rest

/-- A line ends at `\n`, which takes one `\r` before it along. Text after the last `\n` is a line
when there is any. -/
def lines (cs : List Char) : List (List Char) :=
  linesAfter [] cs

/-! ## Strings -/

/-- Each line with a line feed behind it. -/
def unlines (lines : List String) : String :=
  String.join (lines.map (· ++ "\n"))

def trimmed (s : String) : String :=
  String.ofList (trim s.toList)

def lowered (s : String) : String :=
  String.ofList (s.toList.map Char.toLower)

/-- Equality up to the case of ASCII letters. -/
def sameLetters (a b : String) : Bool :=
  lowered a == lowered b

end TapeMachine.Text
