import TapeMachine.Text.Number
import TapeMachine.Text.Utf8

/-!
# Escapes

Bytes are shown as printable text with escapes, and typed text with escapes is read as bytes.
-/

namespace TapeMachine.Text

/-! ## Showing bytes -/

/-- Printable ASCII, line feed and tab stand for themselves; any other byte is `\x` and two
digits. -/
def escapeByte (b : UInt8) : List Char :=
  if 0x20 ≤ b ∧ b ≤ 0x7E ∨ b = 0x0A ∨ b = 0x09 then [Char.ofNat b.toNat]
  else '\\' :: 'x' :: padLeft 2 '0' (hexDigits b.toNat)

def escape (bytes : List UInt8) : List Char :=
  bytes.flatMap escapeByte

/-- Line feed and tab are spelled out, so that the text stays on one line. -/
def spellControl : Char → List Char
  | '\n' => ['\\', 'n']
  | '\t' => ['\\', 't']
  | c => [c]

def escapeOnOneLine (bytes : List UInt8) : List Char :=
  (escape bytes).flatMap spellControl

/-! ## Reading bytes -/

/-- The byte that a letter after a backslash stands for. -/
def simpleEscape : Char → Option UInt8
  | 'n' => some 0x0A
  | 't' => some 0x09
  | 'r' => some 0x0D
  | '0' => some 0
  | '\\' => some 0x5C
  | _ => none

def utf8Chars (cs : List Char) : List UInt8 :=
  cs.flatMap String.utf8EncodeChar

/-- What `\x` and two more characters stand for: a byte when they are a number, else themselves. -/
def hexEscape (high low : Char) : List UInt8 :=
  match readHexByte [high, low] with
  | some b => [b]
  | none => utf8Chars ['\\', 'x', high, low]

/-- An escape that is not known, or that the text ends in the middle of, stands for its own
characters. -/
def unescape : List Char → List UInt8
  | [] => []
  | '\\' :: 'x' :: high :: low :: rest => hexEscape high low ++ unescape rest
  | ['\\', 'x', c] => utf8Chars ['\\', 'x', c]
  | '\\' :: c :: rest =>
    match simpleEscape c with
    | some b => b :: unescape rest
    | none => utf8Chars ['\\', c] ++ unescape rest
  | c :: rest => utf8Chars [c] ++ unescape rest

end TapeMachine.Text
