import TapeMachine.Text.Number

/-!
# Numbers read back

The digits that are written for a number read back as that number, with zeros or blanks before them
as well.
-/

namespace TapeMachine.Text

/-! ## Digits -/

section Digits

variable {radix value n : Nat} {c : Char} {cs : List Char}

theorem digitIn_lt {d : Nat} (h : digitIn radix c = some d) : d < radix :=
  of_decide_eq_true (Option.filter_eq_some_iff.mp h).2

theorem readDigits_append (radix value : Nat) (front back : List Char) :
    readDigits radix value (front ++ back) =
      (readDigits radix value front).bind fun v => readDigits radix v back := by
  induction front generalizing value with
  | nil => rfl
  | cons c rest ih =>
    simp only [List.cons_append, readDigits]
    cases digitIn radix c with
    | none => rfl
    | some d => exact ih _

theorem digitIn_of_mem (h : readDigits radix value cs = some n) (hc : c ∈ cs) :
    ∃ d, digitIn radix c = some d := by
  induction cs generalizing value with
  | nil => cases hc
  | cons first rest ih =>
    obtain ⟨d, hfirst, hrest⟩ := Option.bind_eq_some_iff.mp h
    rcases List.mem_cons.mp hc with rfl | hc
    · exact ⟨d, hfirst⟩
    · exact ih hrest hc

theorem ne_of_mem_digits (h : readDigits radix value cs = some n) (hc : c ∈ cs) {other : Char}
    (hother : digitValue other = none) : c ≠ other := by
  rintro rfl
  obtain ⟨d, hd⟩ := digitIn_of_mem h hc
  simp [digitIn, hother] at hd

theorem readDigits_toDigits (hradix : 1 < radix) (spell : Char → Char)
    (hspell : ∀ d < radix, digitIn radix (spell d.digitChar) = some d) (n : Nat) :
    readDigits radix 0 ((Nat.toDigits radix n).map spell) = some n := by
  induction n using Nat.strongRecOn with
  | ind n ih =>
    rw [Nat.toDigits_eq_if hradix]
    split
    · rename_i hlt
      simp [readDigits, hspell n hlt]
    · rename_i hge
      have hless : n / radix < n := Nat.div_lt_self (by omega) hradix
      have hlast := hspell (n % radix) (Nat.mod_lt n (by omega))
      rw [List.map_append, readDigits_append, ih _ hless]
      simp [readDigits, hlast, Nat.div_add_mod']

theorem digitIn_digitChar_toUpper {d : Nat} (hd : d < 16) :
    digitIn 16 d.digitChar.toUpper = some d :=
  (by decide : ∀ d < 16, digitIn 16 (Nat.digitChar d).toUpper = some d) d hd

theorem readDigits_hexDigits (n : Nat) : readDigits 16 0 (hexDigits n) = some n :=
  readDigits_toDigits (by decide) Char.toUpper (fun _ hd => digitIn_digitChar_toUpper hd) n

theorem readDigits_decimalDigits (n : Nat) : readDigits 10 0 (decimalDigits n) = some n := by
  have h : readDigits 10 0 ((decimalDigits n).map id) = some n :=
    readDigits_toDigits (by decide) id (by decide) n
  rwa [List.map_id] at h

theorem readUnsigned_of_digits {bound : Nat} (hne : cs ≠ []) (h : readDigits radix 0 cs = some n)
    (hn : n < bound) : readUnsigned radix bound cs = some n := by
  have hplus : ∀ rest, cs ≠ '+' :: rest := by
    rintro rest rfl
    exact ne_of_mem_digits h List.mem_cons_self (by decide) rfl
  unfold readUnsigned
  split
  · rename_i rest
    exact absurd rfl (hplus rest)
  · simp [hne, h, hn]

theorem readHexByte_pair {high low : Char} {a b : Nat} (ha : digitIn 16 high = some a)
    (hb : digitIn 16 low = some b) : readHexByte [high, low] = some (UInt8.ofNat (a * 16 + b)) := by
  have hlt := digitIn_lt ha
  have hlt' := digitIn_lt hb
  have hdigits : readDigits 16 0 [high, low] = some (a * 16 + b) := by simp [readDigits, ha, hb]
  unfold readHexByte
  rw [readUnsigned_of_digits (by simp) hdigits (by omega)]
  rfl

end Digits

/-! ## Widths -/

section Widths

variable {width n : Nat} {cs : List Char}

theorem length_padLeft (width : Nat) (fill : Char) (cs : List Char) :
    (padLeft width fill cs).length = max width cs.length := by
  unfold padLeft
  rw [List.length_append, List.length_replicate]
  omega

theorem readDigits_padLeft {radix : Nat} (hradix : 0 < radix) (width : Nat) (cs : List Char) :
    readDigits radix 0 (padLeft width '0' cs) = readDigits radix 0 cs := by
  have hzero : digitIn radix '0' = some 0 := by
    have hvalue : digitValue '0' = some 0 := by decide
    simp [digitIn, hvalue, hradix]
  unfold padLeft
  induction width - cs.length with
  | zero => rfl
  | succ k ih => simp [List.replicate_succ, readDigits, hzero, ih]

theorem readDigits_hex (width n : Nat) : readDigits 16 0 (hex width n).toList = some n := by
  rw [hex, String.toList_ofList, readDigits_padLeft (by decide), readDigits_hexDigits]

theorem dropWhile_padLeft {fill : Char} (hcs : fill ∉ cs) (width : Nat) :
    (padLeft width fill cs).dropWhile (· = fill) = cs := by
  have hfill : (List.replicate (width - cs.length) fill).dropWhile (· = fill) = [] := by
    simp
  unfold padLeft
  rw [List.dropWhile_append, hfill, List.isEmpty_nil, if_pos rfl]
  cases cs with
  | nil => rfl
  | cons c rest =>
    rw [List.dropWhile_cons_of_neg]
    simpa [eq_comm] using List.ne_of_not_mem_cons hcs

theorem padLeft_hexDigits (hn : n < 256) :
    padLeft 2 '0' (hexDigits n) = [(n / 16).digitChar.toUpper, (n % 16).digitChar.toUpper] := by
  unfold hexDigits
  rw [Nat.toDigits_eq_if (by decide)]
  split
  · rename_i hlt
    rw [Nat.div_eq_of_lt hlt, Nat.mod_eq_of_lt hlt]
    rfl
  · rw [Nat.toDigits_of_lt_base (Nat.div_lt_of_lt_mul hn)]
    rfl

theorem length_decimalDigits_le (hn : n < 256) : (decimalDigits n).length ≤ 3 :=
  (Nat.length_toDigits_le_iff (by decide) (by decide)).mpr (by omega)

theorem decimalDigits_ne_nil (n : Nat) : decimalDigits n ≠ [] := by
  rw [decimalDigits, ne_eq, ← List.length_eq_zero_iff]
  exact Nat.ne_of_gt Nat.length_toDigits_pos

end Widths

end TapeMachine.Text
