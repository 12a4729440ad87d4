import TapeMachine.Proofs.Blanks
import TapeMachine.Proofs.Commands
import TapeMachine.Proofs.Numerals

/-!
# Escapes read back

Typed text is a row of tokens: a character for itself, a backslash with a letter, or a byte in two
digits. It is read token by token. Bytes that are shown become tokens as well, so reading what is
shown gives the bytes again, as long as there is no backslash among them, which is shown bare.
-/

namespace TapeMachine

namespace Text

/-! ## Tokens -/

/-- A hexadecimal digit in one of its two cases. -/
structure HexDigit where
  value : Fin 16
  upper : Bool
deriving DecidableEq, Repr

namespace HexDigit

def char (d : HexDigit) : Char :=
  if d.upper then d.value.val.digitChar.toUpper else d.value.val.digitChar

instance {P : HexDigit → Prop} [DecidablePred P] : Decidable (∀ d, P d) :=
  decidable_of_iff (∀ value upper, P ⟨value, upper⟩) ⟨fun h d => h d.value d.upper, fun h _ _ => h _⟩

instance {P : HexDigit → Prop} [DecidablePred P] : Decidable (∃ d, P d) :=
  decidable_of_iff (∃ value upper, P ⟨value, upper⟩)
    ⟨fun ⟨value, upper, h⟩ => ⟨⟨value, upper⟩, h⟩, fun ⟨d, h⟩ => ⟨d.value, d.upper, h⟩⟩

theorem digitIn_char : ∀ d : HexDigit, digitIn 16 d.char = some d.value.val := by decide

theorem isBlank_char : ∀ d : HexDigit, isBlank d.char = false := by decide

theorem spellControl_char : ∀ d : HexDigit, spellControl d.char = [d.char] := by decide

end HexDigit

inductive Token where
  | plain (c : Char) (hc : c ≠ '\\')
  | lineFeed
  | tab
  | carriageReturn
  | zero
  | backslash
  | byte (high low : HexDigit)
deriving DecidableEq, Repr

namespace Token

def text : Token → List Char
  | plain c _ => [c]
  | lineFeed => ['\\', 'n']
  | tab => ['\\', 't']
  | carriageReturn => ['\\', 'r']
  | zero => ['\\', '0']
  | backslash => ['\\', '\\']
  | byte high low => ['\\', 'x', high.char, low.char]

/-- The bytes that a token stands for. -/
def meaning : Token → List UInt8
  | plain c _ => String.utf8EncodeChar c
  | lineFeed => [0x0A]
  | tab => [0x09]
  | carriageReturn => [0x0D]
  | zero => [0]
  | backslash => [0x5C]
  | byte high low => [UInt8.ofNat (16 * high.value.val + low.value.val)]

/-- Two digits for any byte. -/
def ofByte (b : UInt8) : Token :=
  .byte ⟨⟨b.toNat / 16, Nat.div_lt_of_lt_mul b.toNat_lt⟩, true⟩
    ⟨⟨b.toNat % 16, Nat.mod_lt _ (by decide)⟩, true⟩

theorem meaning_ofByte (b : UInt8) : (ofByte b).meaning = [b] := by
  simp [ofByte, meaning, Nat.div_add_mod]

theorem text_ofByte (b : UInt8) :
    (ofByte b).text = '\\' :: 'x' :: padLeft 2 '0' (hexDigits b.toNat) := by
  rw [padLeft_hexDigits b.toNat_lt]
  rfl

end Token

/-! ## Reading tokens -/

theorem unescape_cons {c : Char} (hc : c ≠ '\\') (rest : List Char) :
    unescape (c :: rest) = String.utf8EncodeChar c ++ unescape rest := by
  rw [unescape]
  · simp [utf8Chars]
  all_goals simp [hc]

theorem unescape_token (t : Token) (rest : List Char) :
    unescape (t.text ++ rest) = t.meaning ++ unescape rest := by
  cases t with
  | plain c hc => exact unescape_cons hc rest
  | byte high low =>
    have hread := readHexByte_pair high.digitIn_char low.digitIn_char
    simp [Token.text, Token.meaning, unescape, hexEscape, hread, Nat.mul_comm]
  | lineFeed | tab | carriageReturn | zero | backslash =>
    simp [Token.text, Token.meaning, unescape, simpleEscape]

theorem unescape_tokens (tokens : List Token) :
    unescape (tokens.flatMap Token.text) = tokens.flatMap Token.meaning := by
  induction tokens with
  | nil => simp [unescape]
  | cons t rest ih => rw [List.flatMap_cons, List.flatMap_cons, unescape_token, ih]

theorem unescape_flatMap {shown : UInt8 → List Char} {bytes : List UInt8}
    (h : ∀ b ∈ bytes, ∃ t : Token, t.text = shown b ∧ t.meaning = [b]) :
    unescape (bytes.flatMap shown) = bytes := by
  induction bytes with
  | nil => simp [unescape]
  | cons b rest ih =>
    obtain ⟨t, htext, hmeaning⟩ := h b List.mem_cons_self
    have hrest := ih fun b hb => h b (List.mem_cons_of_mem _ hb)
    rw [List.flatMap_cons, ← htext, unescape_token, hmeaning, hrest, List.singleton_append]

/-! ## Bytes as tokens -/

theorem toNat_ofNat_ascii {n : Nat} (hn : n < 0x80) : (Char.ofNat n).toNat = n := by
  have hvalid : n.isValidChar := Or.inl (by omega)
  rw [Char.ofNat, dif_pos hvalid]
  rfl

theorem utf8EncodeChar_ascii {b : UInt8} (hb : b.toNat < 0x80) :
    String.utf8EncodeChar (Char.ofNat b.toNat) = [b] := by
  have hvalue : (Char.ofNat b.toNat).val.toNat = b.toNat := toNat_ofNat_ascii hb
  unfold String.utf8EncodeChar
  simp only [hvalue]
  rw [if_pos (Nat.le_of_lt_succ hb), UInt8.ofNat_toNat]

theorem exists_token_escapeByte {b : UInt8} (hb : b ≠ 0x5C) :
    ∃ t : Token, t.text = escapeByte b ∧ t.meaning = [b] := by
  unfold escapeByte
  split
  · -- What is shown as it is lies in ASCII, where a character has one byte.
    rename_i hprintable
    have hlt : b.toNat < 0x80 := by
      rcases hprintable with ⟨-, hle⟩ | rfl | rfl
      · exact Nat.lt_of_le_of_lt (UInt8.le_iff_toNat_le.mp hle) (by decide)
      · decide
      · decide
    have hne : Char.ofNat b.toNat ≠ '\\' := fun heq =>
      hb (UInt8.toNat_inj.mp ((toNat_ofNat_ascii hlt).symm.trans (congrArg Char.toNat heq)))
    exact ⟨.plain _ hne, rfl, utf8EncodeChar_ascii hlt⟩
  · exact ⟨.ofByte b, Token.text_ofByte b, Token.meaning_ofByte b⟩

theorem spellControl_of_ne {c : Char} (hfeed : c ≠ '\n') (htab : c ≠ '\t') :
    spellControl c = [c] := by
  unfold spellControl
  split <;> simp_all

theorem exists_token_spelled (t : Token) :
    ∃ spelled : Token, spelled.text = t.text.flatMap spellControl ∧ spelled.meaning = t.meaning := by
  cases t with
  | plain c hc =>
    by_cases hfeed : c = '\n'
    · subst hfeed
      exact ⟨.lineFeed, rfl, rfl⟩
    by_cases htab : c = '\t'
    · subst htab
      exact ⟨.tab, rfl, rfl⟩
    refine ⟨.plain c hc, ?_, rfl⟩
    simp [Token.text, spellControl_of_ne hfeed htab]
  | byte high low =>
    refine ⟨.byte high low, ?_, rfl⟩
    have hslash : spellControl '\\' = ['\\'] := rfl
    have hx : spellControl 'x' = ['x'] := rfl
    simp [Token.text, HexDigit.spellControl_char, hslash, hx]
  | lineFeed | tab | carriageReturn | zero | backslash => exact ⟨_, rfl, rfl⟩

theorem unescape_escape {bytes : List UInt8} (h : 0x5C ∉ bytes) :
    unescape (escape bytes) = bytes :=
  unescape_flatMap fun _ hb => exists_token_escapeByte fun heq => h (heq ▸ hb)

theorem unescape_escapeOnOneLine {bytes : List UInt8} (h : 0x5C ∉ bytes) :
    unescape (escapeOnOneLine bytes) = bytes := by
  unfold escapeOnOneLine escape
  rw [List.flatMap_assoc]
  apply unescape_flatMap
  intro b hb
  obtain ⟨t, htext, hmeaning⟩ := exists_token_escapeByte (b := b) fun heq => h (heq ▸ hb)
  obtain ⟨spelled, hspelled, hsame⟩ := exists_token_spelled t
  exact ⟨spelled, htext ▸ hspelled, hsame.trans hmeaning⟩

/-! ## Bytes that are typed -/

/-- Text for any bytes, each in two digits. -/
def spell (bytes : List UInt8) : List Char :=
  bytes.flatMap fun b => (Token.ofByte b).text

theorem unescape_spell (bytes : List UInt8) : unescape (spell bytes) = bytes :=
  unescape_flatMap fun b _ => ⟨.ofByte b, rfl, Token.meaning_ofByte b⟩

theorem trim_spell (bytes : List UInt8) : trim (spell bytes) = spell bytes := by
  apply trim_of_not_blank
  intro c hc
  obtain ⟨b, -, hc⟩ := List.mem_flatMap.mp hc
  simp only [Token.ofByte, Token.text, List.mem_cons, List.not_mem_nil, or_false] at hc
  rcases hc with rfl | rfl | rfl | rfl
  · decide
  · decide
  · exact HexDigit.isBlank_char _
  · exact HexDigit.isBlank_char _

end Text

namespace Debugger

theorem parts_input (argument : List Char) :
    Command.parts (String.ofList (":input ".toList ++ argument)) =
      ("input", String.ofList (Text.trim argument)) := by
  unfold Command.parts
  rw [String.toList_ofList (l := ":input ".toList ++ argument)]
  rfl

theorem isCommand_input {argument : List Char} (h : Text.trim argument = argument) :
    IsCommand (":input " ++ String.ofList argument) "input" (String.ofList argument) := by
  by_cases hempty : argument = []
  · -- The blank behind the name goes as well, and no argument is an empty one.
    subst hempty
    exact ⟨by decide, by decide⟩
  have hend : Text.trimEnd argument = argument := by
    rw [← h]
    exact Text.trimEnd_trimEnd _
  have hline : Text.trim (":input " ++ String.ofList argument).toList =
      ":input ".toList ++ argument := by
    have hkept := Text.trimEnd_append (hend ▸ hempty) ":input ".toList
    rw [hend] at hkept
    rw [String.toList_append, String.toList_ofList (l := argument)]
    exact hkept
  unfold IsCommand
  rw [hline, parts_input, h]
  exact ⟨rfl, rfl⟩

theorem handle_input (d : Debugger) (bytes : List UInt8) :
    (d.handle (":input " ++ String.ofList (Text.spell bytes))).debugger = d.setInput bytes := by
  have hcommand : Command.ofParts "input" (String.ofList (Text.spell bytes)) =
      .input (Text.unescape (String.ofList (Text.spell bytes)).toList) := rfl
  rw [(handle_of_command (isCommand_input (Text.trim_spell bytes)) d).1, hcommand]
  simp [obey, Text.unescape_spell]

theorem eq_of_sayOutput {a b : List UInt8} (ha : 0x5C ∉ a) (hb : 0x5C ∉ b)
    (h : sayOutput a = sayOutput b) : a = b := by
  cases a with
  | nil =>
    cases b with
    | nil => rfl
    | cons => cases h
  | cons =>
    cases b with
    | nil => cases h
    | cons =>
      rw [← Text.unescape_escapeOnOneLine ha, ← Text.unescape_escapeOnOneLine hb]
      congr 1
      apply String.ofList_injective
      simpa [sayOutput, ToString.toString] using h

end Debugger

/-- Text is read token by token, each for its own bytes. So output without a backslash reads back
from the way it is shown, over several lines or, behind steps of the debugger, on one; it is never
shown like other such output; and there is text to type for any input whatever. -/
theorem escapes_read_back :
    (∀ tokens : List Text.Token,
      Text.unescape (tokens.flatMap Text.Token.text) = tokens.flatMap Text.Token.meaning) ∧
    (∀ bytes : List UInt8, 0x5C ∉ bytes →
      Text.unescape (Text.escape bytes) = bytes ∧
      Text.unescape (Text.escapeOnOneLine bytes) = bytes) ∧
    (∀ (d : Debugger) (bytes : List UInt8), ∃ argument : String,
      (d.handle (":input " ++ argument)).debugger = d.setInput bytes) ∧
    (∀ a b : List UInt8, 0x5C ∉ a → 0x5C ∉ b →
      (Text.escape a = Text.escape b → a = b) ∧
      (Debugger.sayOutput a = Debugger.sayOutput b → a = b)) := by
  refine ⟨Text.unescape_tokens, ?_, ?_, ?_⟩
  · intro bytes h
    exact ⟨Text.unescape_escape h, Text.unescape_escapeOnOneLine h⟩
  · intro d bytes
    exact ⟨_, d.handle_input bytes⟩
  · intro a b ha hb
    refine ⟨fun h => ?_, Debugger.eq_of_sayOutput ha hb⟩
    rw [← Text.unescape_escape ha, h, Text.unescape_escape hb]

theorem escapes_read_back_bell :
    Text.escapeOnOneLine [0x07, 0x41, 0xFF, 0x0A] = "\\x07A\\xFF\\n".toList ∧
      Text.unescape "\\x07A\\xFF\\n".toList = [0x07, 0x41, 0xFF, 0x0A] := by
  have hshown : Text.escapeOnOneLine [0x07, 0x41, 0xFF, 0x0A] = "\\x07A\\xFF\\n".toList := by
    decide +kernel
  obtain ⟨-, hread, -⟩ := escapes_read_back
  refine ⟨hshown, ?_⟩
  rw [← hshown]
  exact (hread _ (by decide)).2

end TapeMachine
