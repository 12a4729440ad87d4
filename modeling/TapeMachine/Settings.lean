import TapeMachine.Log
import TapeMachine.Pace

/-!
# Settings

Everything a run can be configured with. Settings are laid over one another: the defaults, a file,
the environment, each field taking the last value given.
-/

namespace TapeMachine

structure Settings where
  maxSteps : Nat := 1000000
  eof : EofPolicy := .zero
  speedMs : Nat := 50
  instant : Bool := false
  tapeSize : Nat := Tape.defaultCapacity
  coalesce : Bool := true
deriving DecidableEq, Repr, Inhabited

namespace Settings

def config (s : Settings) : Config where
  maxSteps := max s.maxSteps 1
  eof := s.eof
  coalesce := s.coalesce

def speed (s : Settings) : Speed :=
  .ofMillis s.speedMs s.instant

/-! ## One value -/

inductive Key where
  | maxSteps
  | eof
  | speedMs
  | instant
  | tapeSize
  | coalesce
deriving DecidableEq, Repr

def Key.all : List Key := [.maxSteps, .eof, .speedMs, .instant, .tapeSize, .coalesce]

def Key.name : Key → String
  | maxSteps => "max_steps"
  | eof => "eof"
  | speedMs => "speed_ms"
  | instant => "instant"
  | tapeSize => "tape_size"
  | coalesce => "coalesce"

def Key.ofName? (name : String) : Option Key :=
  Key.all.find? (·.name == name)

/-- Why a value is refused. -/
inductive Fault where
  | notPositive
  | notDelay
  | notTruth
  | notCount
  | noCell
deriving DecidableEq, Repr

def Fault.reason : Fault → String
  | notPositive => "expected a positive integer"
  | notDelay => "expected a delay in milliseconds"
  | notTruth => "expected true or false"
  | notCount => "expected a cell count"
  | noCell => "tape needs at least one cell"

def truth (value : String) : Except Fault Bool :=
  match Text.lowered (Text.trimmed value) with
  | "true" | "1" | "yes" | "on" => .ok true
  | "false" | "0" | "no" | "off" => .ok false
  | _ => .error .notTruth

def word (value : String) (fault : Fault) : Except Fault Nat :=
  match Text.readWord (Text.trimmed value) with
  | some n => .ok n
  | none => .error fault

def cellCount (value : String) : Except Fault Nat :=
  match word value .notCount with
  | .ok 0 => .error .noCell
  | other => other

/-- The settings with one value read and put in. A budget of no steps counts as one. -/
def set (s : Settings) (value : String) : Key → Except Fault Settings
  | .maxSteps => (word value .notPositive).map fun n => { s with maxSteps := max n 1 }
  | .eof => .ok { s with eof := .ofSetting value }
  | .speedMs => (word value .notDelay).map fun n => { s with speedMs := n }
  | .instant => (truth value).map fun b => { s with instant := b }
  | .tapeSize => (cellCount value).map fun n => { s with tapeSize := n }
  | .coalesce => (truth value).map fun b => { s with coalesce := b }

/-! ## A list of values -/

structure Assignment where
  name : String
  value : String
  /-- The file or variable that the value comes from. -/
  origin : String
deriving DecidableEq, Repr

structure Invalid where
  assignment : Assignment
  fault : Fault
deriving DecidableEq, Repr

def Invalid.message (e : Invalid) : String :=
  s!"invalid value '{e.assignment.value}' for {e.assignment.name} in {e.assignment.origin}: " ++
    e.fault.reason

/-- A policy that is not known is taken as `unchanged`, which is worth a warning. -/
def Assignment.warning (a : Assignment) : List Note :=
  match Key.ofName? a.name with
  | none => [⟨.warn, s!"{a.origin}: ignoring unknown setting '{a.name}'"⟩]
  | some .eof =>
    if EofPolicy.ofSetting a.value = .unchanged ∧
        !Text.sameLetters (Text.trimmed a.value) "unchanged" then
      [⟨.warn, s!"{a.origin}: unknown eof policy '{a.value}', leaving cells unchanged on EOF"⟩]
    else []
  | some _ => []

/-- Unknown names change nothing. -/
def assign (s : Settings) (a : Assignment) : Except Invalid Settings :=
  match Key.ofName? a.name with
  | none => .ok s
  | some key => (s.set a.value key).mapError (⟨a, ·⟩)

/-- Values put in one after another, up to the first that is refused, with the warnings on the
way. -/
def assignAll (s : Settings) : List Assignment → List Note × Except Invalid Settings
  | [] => ([], .ok s)
  | a :: rest =>
    match s.assign a with
    | .error e => ([], .error e)
    | .ok next =>
      let (notes, result) := next.assignAll rest
      (a.warning ++ notes, result)

/-! ## The environment -/

/-- The variables that are looked at, in order. -/
def environmentKeys : List (String × Key) :=
  [("BFVM_MAX_STEPS", .maxSteps), ("BFVM_EOF", .eof), ("BFVM_SPEED_MS", .speedMs),
    ("BFVM_TAPE_SIZE", .tapeSize), ("BFVM_INSTANT", .instant)]

def environment (lookup : String → Option String) : List Assignment :=
  environmentKeys.filterMap fun (var, key) => (lookup var).map fun value => ⟨key.name, value, var⟩

/-! ## The file -/

/-- A bare value ends where a comment starts. -/
def uncomment (raw : List Char) : List Char :=
  if '#' ∈ raw then Text.trim (raw.takeWhile (· ≠ '#')) else raw

/-- A value between quotes, or a bare one. -/
def unquote (raw : List Char) : List Char :=
  match Text.trim raw with
  | '"' :: rest => if '"' ∈ rest then rest.takeWhile (· ≠ '"') else uncomment ('"' :: rest)
  | bare => uncomment bare

/-- What one line of a file says. -/
inductive Entry where
  | nothing
  | table (name : List Char)
  | value (key value : List Char)
deriving DecidableEq, Repr

def Entry.ofLine (line : List Char) : Entry :=
  let line := Text.trim line
  if line.isEmpty || line.head? == some '#' then .nothing
  else if line.head? == some '[' && line.getLast? == some ']' then
    .table (Text.trim line.tail.dropLast)
  else if '=' ∈ line then
    .value (Text.trim (line.takeWhile (· ≠ '='))) (unquote (line.dropWhile (· ≠ '=')).tail)
  else .nothing

/-- The values in the tables `[vm]`; `inside` says whether the first line is in one. -/
def tableValues (inside : Bool) : List Entry → List (List Char × List Char)
  | [] => []
  | .nothing :: rest => tableValues inside rest
  | .table name :: rest => tableValues (name == ['v', 'm']) rest
  | .value key value :: rest =>
    if inside then (key, value) :: tableValues inside rest else tableValues inside rest

/-- Puts in a value; a key keeps its place and takes the new value. -/
def put (key value : List Char) :
    List (List Char × List Char) → List (List Char × List Char)
  | [] => [(key, value)]
  | (k, v) :: rest => if k = key then (k, value) :: rest else (k, v) :: put key value rest

/-- The last value of each key in the tables `[vm]`. -/
def fileValues (content : String) : List (List Char × List Char) :=
  let entries := (Text.lines content.toList).map Entry.ofLine
  (tableValues false entries).foldl (fun values (key, value) => put key value values) []

def file (content origin : String) : List Assignment :=
  (fileValues content).map fun (key, value) => ⟨String.ofList key, String.ofList value, origin⟩

end Settings

end TapeMachine
