/-!
# UTF-8

Bytes are read one at a time. The bytes of a character that cannot be completed count together as
one piece of broken text, so that decoding always ends and loses its place at most once per piece.
-/

namespace TapeMachine.Text

def utf8 (s : String) : List UInt8 :=
  s.toList.flatMap String.utf8EncodeChar

namespace Utf8

/-- A character that has begun: its bits so far, how many bytes are missing, and the range of the
next one. -/
structure Begun where
  bits : Nat
  missing : Nat
  low : UInt8
  high : UInt8

inductive Start where
  | whole (c : Char)
  | begun (b : Begun)
  | broken

/-- The second byte's range keeps out overlong forms, surrogates and values past U+10FFFF. -/
def start (b : UInt8) : Start :=
  if b < 0x80 then .whole (Char.ofNat b.toNat)
  else if b < 0xC2 then .broken
  else if b < 0xE0 then .begun ⟨b.toNat % 32, 1, 0x80, 0xBF⟩
  else if b < 0xF0 then
    .begun ⟨b.toNat % 16, 2, if b = 0xE0 then 0xA0 else 0x80, if b = 0xED then 0x9F else 0xBF⟩
  else if b < 0xF5 then
    .begun ⟨b.toNat % 8, 3, if b = 0xF0 then 0x90 else 0x80, if b = 0xF4 then 0x8F else 0xBF⟩
  else .broken

/-- What has been decoded, with `none` for a broken piece, and the character under way. -/
structure Reader where
  decoded : Array (Option Char) := #[]
  begun : Option Begun := none

def Reader.begin (r : Reader) (b : UInt8) : Reader :=
  match start b with
  | .whole c => ⟨r.decoded.push (some c), none⟩
  | .begun next => ⟨r.decoded, some next⟩
  | .broken => ⟨r.decoded.push none, none⟩

def Reader.feed (r : Reader) (b : UInt8) : Reader :=
  match r.begun with
  | none => r.begin b
  | some ⟨bits, missing, low, high⟩ =>
    if low ≤ b ∧ b ≤ high then
      let bits := bits * 64 + b.toNat % 64
      if missing ≤ 1 then ⟨r.decoded.push (some (Char.ofNat bits)), none⟩
      else ⟨r.decoded, some ⟨bits, missing - 1, 0x80, 0xBF⟩⟩
    else Reader.begin ⟨r.decoded.push none, none⟩ b

def Reader.finish (r : Reader) : List (Option Char) :=
  match r.begun with
  | none => r.decoded.toList
  | some _ => (r.decoded.push none).toList

def decode (bytes : List UInt8) : List (Option Char) :=
  (bytes.foldl Reader.feed {}).finish

/-- The text with each broken piece shown as U+FFFD. -/
def lossy (bytes : List UInt8) : String :=
  String.ofList ((decode bytes).map (·.getD '\uFFFD'))

/-- The text, unless some piece is broken. -/
def text? (bytes : List UInt8) : Option String :=
  let pieces := decode bytes
  if pieces.all Option.isSome then some (String.ofList (pieces.filterMap id)) else none

end Utf8

end TapeMachine.Text
