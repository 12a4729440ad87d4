import TapeMachine.Proofs.Escapes

/-!
# Text without escapes

Where no escape is spelled out there is nothing to decode: a backslash that starts none, or that the
text ends behind, stands for itself as any other character does. One thing is read all the same. The
digits behind `\x` are read as a number, and a number may have a sign, so a sign and one digit are
taken for a byte.
-/

namespace TapeMachine

namespace Text

/-! ## Texts and their pieces -/

/-- The tokens that a backslash starts. -/
def Token.IsEscape : Token → Prop
  | plain _ _ => False
  | _ => True

/-- No part of the text is an escape. -/
def NoEscape (text : List Char) : Prop :=
  ∀ t : Token, t.IsEscape → ¬t.text <:+: text

/-- What a text without escapes is read as. -/
inductive Piece where
  | itself (c : Char)
  /-- A sign and a digit in the place of two digits. -/
  | signed (digit : HexDigit)
deriving DecidableEq, Repr

namespace Piece

def text : Piece → List Char
  | itself c => [c]
  | signed digit => ['\\', 'x', '+', digit.char]

def meaning : Piece → List UInt8
  | itself c => String.utf8EncodeChar c
  | signed digit => [UInt8.ofNat digit.value.val]

theorem text_itself (cs : List Char) : (cs.map itself).flatMap text = cs := by
  induction cs with
  | nil => rfl
  | cons c rest ih => simpa [text] using ih

theorem meaning_itself (cs : List Char) : (cs.map itself).flatMap meaning = utf8Chars cs := by
  induction cs with
  | nil => rfl
  | cons c rest ih => simpa [utf8Chars, meaning] using ih

end Piece

/-- These bytes are read from the text piece by piece. -/
def ReadInPieces (text : List Char) (bytes : List UInt8) : Prop :=
  ∃ pieces : List Piece, pieces.flatMap Piece.text = text ∧ pieces.flatMap Piece.meaning = bytes

theorem readInPieces_self (cs : List Char) : ReadInPieces cs (utf8Chars cs) :=
  ⟨cs.map .itself, Piece.text_itself cs, Piece.meaning_itself cs⟩

theorem readInPieces_signed (digit : HexDigit) :
    ReadInPieces ['\\', 'x', '+', digit.char] [UInt8.ofNat digit.value.val] :=
  ⟨[.signed digit], rfl, rfl⟩

theorem ReadInPieces.append {text more : List Char} {bytes rest : List UInt8}
    (h : ReadInPieces text bytes) (hmore : ReadInPieces more rest) :
    ReadInPieces (text ++ more) (bytes ++ rest) := by
  obtain ⟨front, rfl, rfl⟩ := h
  obtain ⟨back, rfl, rfl⟩ := hmore
  exact ⟨front ++ back, List.flatMap_append, List.flatMap_append⟩

theorem ReadInPieces.eq_utf8Chars {text : List Char} {bytes : List UInt8}
    (h : ReadInPieces text bytes) (hsigned : ∀ digit, ¬(Piece.signed digit).text <:+: text) :
    bytes = utf8Chars text := by
  obtain ⟨pieces, rfl, rfl⟩ := h
  induction pieces with
  | nil => rfl
  | cons piece rest ih =>
    rw [List.flatMap_cons] at hsigned
    have hrest := ih fun digit hin => hsigned digit (hin.trans (List.suffix_append _ _).isInfix)
    cases piece with
    | itself c =>
      rw [List.flatMap_cons, List.flatMap_cons, hrest]
      simp [utf8Chars, Piece.text, Piece.meaning]
    | signed digit => exact absurd (List.prefix_append _ _).isInfix (hsigned digit)

/-! ## What is read as digits -/

theorem exists_hexDigit_between {first last c : Char} (h : first ≤ c ∧ c ≤ last) (low : Nat)
    (hspelled : ∀ i ≤ last.toNat - first.toNat,
      ∃ digit : HexDigit, digit.char = Char.ofNat (i + first.toNat) ∧ digit.value.val = i + low) :
    ∃ digit : HexDigit, digit.char = c ∧ digit.value.val = c.toNat - first.toNat + low := by
  have hfirst : first.toNat ≤ c.toNat := h.1
  have hlast : c.toNat ≤ last.toNat := h.2
  obtain ⟨digit, hchar, hvalue⟩ := hspelled (c.toNat - first.toNat) (by omega)
  rw [Nat.sub_add_cancel hfirst, Char.ofNat_toNat] at hchar
  exact ⟨digit, hchar, hvalue⟩

theorem exists_hexDigit {c : Char} {v : Nat} (h : digitIn 16 c = some v) :
    ∃ digit : HexDigit, digit.char = c ∧ digit.value.val = v := by
  have hvalue := (Option.filter_eq_some_iff.mp h).1
  unfold digitValue at hvalue
  split at hvalue
  · cases hvalue
    exact exists_hexDigit_between ‹_› 0 (by decide)
  · split at hvalue
    · cases hvalue
      exact exists_hexDigit_between ‹_› 10 (by decide)
    · split at hvalue
      · cases hvalue
        exact exists_hexDigit_between ‹_› 10 (by decide)
      · cases hvalue

theorem readHexByte_cases {high low : Char} {b : UInt8} (h : readHexByte [high, low] = some b) :
    (∃ first second : HexDigit, first.char = high ∧ second.char = low) ∨
      ∃ digit : HexDigit, high = '+' ∧ digit.char = low ∧ b = UInt8.ofNat digit.value.val := by
  unfold readHexByte readUnsigned at h
  obtain ⟨n, hn, rfl⟩ := Option.map_eq_some_iff.mp h
  simp only at hn
  split at hn
  · rename_i rest hsign
    cases hsign
    simp only [List.isEmpty_cons, Bool.false_eq_true, if_false, readDigits,
      Option.filter_eq_some_iff, Option.bind_eq_some_iff] at hn
    obtain ⟨⟨v, hv, hsum⟩, -⟩ := hn
    obtain ⟨digit, hchar, hvalue⟩ := exists_hexDigit hv
    refine Or.inr ⟨digit, rfl, hchar, ?_⟩
    simp at hsum
    rw [hvalue, hsum]
  · simp only [List.isEmpty_cons, Bool.false_eq_true, if_false, readDigits,
      Option.filter_eq_some_iff, Option.bind_eq_some_iff] at hn
    obtain ⟨⟨v, hv, w, hw, -⟩, -⟩ := hn
    obtain ⟨first, hfirst, -⟩ := exists_hexDigit hv
    obtain ⟨second, hsecond, -⟩ := exists_hexDigit hw
    exact Or.inl ⟨first, second, hfirst, hsecond⟩

theorem exists_token_of_simpleEscape {c : Char} {b : UInt8} (h : simpleEscape c = some b) :
    ∃ t : Token, t.IsEscape ∧ t.text = ['\\', c] := by
  unfold simpleEscape at h
  split at h
  · exact ⟨.lineFeed, trivial, rfl⟩
  · exact ⟨.tab, trivial, rfl⟩
  · exact ⟨.carriageReturn, trivial, rfl⟩
  · exact ⟨.zero, trivial, rfl⟩
  · exact ⟨.backslash, trivial, rfl⟩
  · cases h

/-! ## Reading -/

theorem NoEscape.suffix {text rest : List Char} (h : NoEscape text) (hrest : rest <:+ text) :
    NoEscape rest :=
  fun t ht hin => h t ht (hin.trans hrest.isInfix)

theorem NoEscape.not_front {t : Token} (ht : t.IsEscape) (rest : List Char) :
    ¬NoEscape (t.text ++ rest) :=
  fun h => h t ht (List.prefix_append t.text rest).isInfix

/-- Two characters behind `\x` that are not two digits are read as themselves, or as a digit with a
sign. -/
theorem readInPieces_hexEscape {high low : Char} {rest : List Char}
    (h : NoEscape ('\\' :: 'x' :: high :: low :: rest)) :
    ReadInPieces ['\\', 'x', high, low] (hexEscape high low) := by
  unfold hexEscape
  split
  · rename_i b hread
    rcases readHexByte_cases hread with ⟨first, second, rfl, rfl⟩ | ⟨digit, rfl, rfl, rfl⟩
    · exact absurd h (NoEscape.not_front (t := .byte first second) trivial rest)
    · exact readInPieces_signed digit
  · exact readInPieces_self _

theorem readInPieces_unescape {text : List Char} (h : NoEscape text) :
    ReadInPieces text (unescape text) := by
  fun_induction unescape text with
  | case1 => exact readInPieces_self []
  | case2 high low rest ih =>
    have hrest : rest <:+ '\\' :: 'x' :: high :: low :: rest := List.suffix_append [_, _, _, _] rest
    exact (readInPieces_hexEscape h).append (ih (h.suffix hrest))
  | case3 c => exact readInPieces_self _
  | case4 c rest _ _ b hsimple ih =>
    obtain ⟨t, ht, htext⟩ := exists_token_of_simpleEscape hsimple
    have hnot := NoEscape.not_front ht rest
    rw [htext] at hnot
    exact absurd h hnot
  | case5 c rest _ _ hsimple ih =>
    have hrest : rest <:+ '\\' :: c :: rest := List.suffix_append [_, _] rest
    exact (readInPieces_self ['\\', c]).append (ih (h.suffix hrest))
  | case6 c rest _ _ _ ih =>
    exact (readInPieces_self [c]).append (ih (h.suffix (List.suffix_cons c rest)))

end Text

/-- A text without an escape in it is read character by character, each for its own bytes, up to the
places where a sign and a digit stand for a byte. Without these it is read as the bytes it is made
of: nothing is lost, doubled or taken for something else. -/
theorem verbatim_without_escapes {text : List Char} (h : Text.NoEscape text) :
    Text.ReadInPieces text (Text.unescape text) ∧
    ((∀ digit, ¬(Text.Piece.signed digit).text <:+: text) →
      Text.unescape text = Text.utf8Chars text) :=
  ⟨Text.readInPieces_unescape h, (Text.readInPieces_unescape h).eq_utf8Chars⟩

theorem verbatim_without_escapes_cut_off :
    Text.NoEscape "\\q\\xé4\\x4".toList ∧
      Text.unescape "\\q\\xé4\\x4".toList = Text.utf8Chars "\\q\\xé4\\x4".toList := by
  have hdigit : ∀ digit : Text.HexDigit, digit.char ≠ 'é' := by decide
  have h : Text.NoEscape "\\q\\xé4\\x4".toList := by
    intro t ht
    cases t with
    | plain => cases ht
    | _ => simp [Text.Token.text, List.infix_cons_iff, hdigit]
  refine ⟨h, (verbatim_without_escapes h).2 ?_⟩
  intro digit
  simp [Text.Piece.text, List.infix_cons_iff]

/-- A sign and a digit are no escape, and still they are read as one. -/
theorem sign_read_as_digit :
    Text.NoEscape "\\x+5".toList ∧ Text.unescape "\\x+5".toList = [0x05] ∧
      Text.utf8Chars "\\x+5".toList = [0x5C, 0x78, 0x2B, 0x35] := by
  have hdigit : ∀ digit : Text.HexDigit, digit.char ≠ '+' := by decide
  refine ⟨?_, by decide +kernel, by decide +kernel⟩
  intro t ht
  cases t with
  | plain => cases ht
  | _ => simp [Text.Token.text, List.infix_cons_iff, hdigit]

end TapeMachine
