/-!
# Numbers as text

Reading unsigned words, and writing numbers with a least width.
-/

namespace TapeMachine.Text

/-- The number of values of a 64-bit word. -/
def wordSize : Nat := 0x10000000000000000

/-! ## Reading -/

def digitValue (c : Char) : Option Nat :=
  if '0' ≤ c ∧ c ≤ '9' then some (c.toNat - '0'.toNat)
  else if 'a' ≤ c ∧ c ≤ 'f' then some (c.toNat - 'a'.toNat + 10)
  else if 'A' ≤ c ∧ c ≤ 'F' then some (c.toNat - 'A'.toNat + 10)
  else none

def digitIn (radix : Nat) (c : Char) : Option Nat :=
  (digitValue c).filter (· < radix)

/-- The value of digits that follow digits worth `value`. -/
def readDigits (radix value : Nat) : List Char → Option Nat
  | [] => some value
  | c :: rest => (digitIn radix c).bind fun d => readDigits radix (value * radix + d) rest

/-- One digit or more, after one optional `+`, with a value below `bound`. -/
def readUnsigned (radix bound : Nat) (cs : List Char) : Option Nat :=
  let digits := match cs with
    | '+' :: rest => rest
    | _ => cs
  if digits.isEmpty then none else (readDigits radix 0 digits).filter (· < bound)

/-- A decimal number that fits a 64-bit word. -/
def readWord (s : String) : Option Nat :=
  readUnsigned 10 wordSize s.toList

/-- A hexadecimal number that fits a byte. -/
def readHexByte (cs : List Char) : Option UInt8 :=
  (readUnsigned 16 256 cs).map UInt8.ofNat

/-! ## Writing -/

def padLeft (width : Nat) (fill : Char) (cs : List Char) : List Char :=
  List.replicate (width - cs.length) fill ++ cs

def padRight (width : Nat) (fill : Char) (cs : List Char) : List Char :=
  cs ++ List.replicate (width - cs.length) fill

def decimalDigits (n : Nat) : List Char :=
  Nat.toDigits 10 n

/-- Upper-case hexadecimal digits. -/
def hexDigits (n : Nat) : List Char :=
  (Nat.toDigits 16 n).map Char.toUpper

def decimal (n : Nat) : String :=
  String.ofList (decimalDigits n)

/-- Hexadecimal with at least `width` digits. -/
def hex (width n : Nat) : String :=
  String.ofList (padLeft width '0' (hexDigits n))

/-- Decimal, flush right in `width` columns. -/
def rightDecimal (width n : Nat) : String :=
  String.ofList (padLeft width ' ' (decimalDigits n))

/-- Decimal, flush left in `width` columns. -/
def leftDecimal (width n : Nat) : String :=
  String.ofList (padRight width ' ' (decimalDigits n))

/-- Text flush left in `width` columns. -/
def leftText (width : Nat) (s : String) : String :=
  String.ofList (padRight width ' ' s.toList)

end TapeMachine.Text
