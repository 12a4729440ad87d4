import TapeMachine.Text.Blank
import TapeMachine.Text.Number

/-!
# The log

Operational messages, apart from what a program writes and from what a command is asked for. Each
has a level, and only levels from a threshold on are shown.
-/

namespace TapeMachine

inductive Level where
  | debug
  | info
  | warn
  | error
deriving DecidableEq, Repr, Inhabited

namespace Level

def rank : Level → Nat
  | debug => 0
  | info => 1
  | warn => 2
  | error => 3

def name : Level → String
  | debug => "DEBUG"
  | info => "INFO"
  | warn => "WARN"
  | error => "ERROR"

def parse? (text : String) : Option Level :=
  match Text.lowered (Text.trimmed text) with
  | "debug" | "trace" => some debug
  | "info" => some info
  | "warn" | "warning" => some warn
  | "error" => some error
  | _ => none

/-- The name in brackets, as wide for every level. -/
def tag (l : Level) : String :=
  s!"[{Text.leftText 5 l.name}]"

/-- Whether a message at level `l` is shown from `threshold` on. -/
def reaches (l threshold : Level) : Bool :=
  threshold.rank ≤ l.rank

/-- The threshold that a setting asks for; warnings and errors are shown when it asks for none. -/
def threshold (setting : Option String) : Level :=
  (setting.bind parse?).getD warn

end Level

structure Note where
  level : Level
  text : String
deriving DecidableEq, Repr

end TapeMachine
