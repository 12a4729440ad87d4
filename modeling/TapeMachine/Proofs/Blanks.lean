import Mathlib.Data.List.DropRight
import TapeMachine.Text.Blank

/-!
# Trimming

Blanks come off both ends of a text and nothing else does, so a text that has been trimmed starts
with its first character that is not blank, and trimming it again changes nothing.
-/

namespace TapeMachine.Text

theorem trimStart_eq_nil_iff {cs : List Char} : trimStart cs = [] ↔ allBlank cs = true := by
  unfold trimStart allBlank
  rw [List.dropWhile_eq_nil_iff, List.all_eq_true]

theorem isBlank_of_trimStart {cs rest : List Char} {c : Char} (h : trimStart cs = c :: rest) :
    isBlank c = false := by
  have hhead := List.head?_dropWhile_not isBlank cs
  unfold trimStart at h
  rw [h] at hhead
  exact hhead

theorem trimEnd_cons {c : Char} (h : isBlank c = false) (cs : List Char) :
    trimEnd (c :: cs) = c :: trimEnd cs := by
  unfold trimEnd
  rw [List.reverse_cons, List.dropWhile_append]
  split
  · rename_i hblank
    simp [List.isEmpty_iff.mp hblank, h]
  · simp

theorem trimEnd_append {cs : List Char} (h : trimEnd cs ≠ []) (front : List Char) :
    trimEnd (front ++ cs) = front ++ trimEnd cs := by
  have hne : (cs.reverse.dropWhile isBlank).isEmpty = false := by
    simpa [trimEnd] using h
  unfold trimEnd
  rw [List.reverse_append, List.dropWhile_append, hne]
  simp

theorem trimEnd_trimEnd (cs : List Char) : trimEnd (trimEnd cs) = trimEnd cs := by
  unfold trimEnd
  rw [List.reverse_reverse, List.dropWhile_idempotent]

theorem trim_of_trimStart {cs rest : List Char} {c : Char} (h : trimStart cs = c :: rest) :
    trim cs = c :: trimEnd rest := by
  unfold trim
  rw [h, trimEnd_cons (isBlank_of_trimStart h)]

theorem head?_trim (cs : List Char) : (trim cs).head? = (trimStart cs).head? := by
  cases h : trimStart cs with
  | nil =>
    unfold trim
    rw [h]
    rfl
  | cons c rest => rw [trim_of_trimStart h]; rfl

theorem trim_eq_nil_iff {cs : List Char} : trim cs = [] ↔ allBlank cs = true := by
  rw [← trimStart_eq_nil_iff, ← List.head?_eq_none_iff, head?_trim, List.head?_eq_none_iff]

@[simp]
theorem trim_trim (cs : List Char) : trim (trim cs) = trim cs := by
  cases h : trimStart cs with
  | nil =>
    have hnil : trim cs = [] := trim_eq_nil_iff.mpr (trimStart_eq_nil_iff.mp h)
    rw [hnil]
    rfl
  | cons c rest =>
    have hblank := isBlank_of_trimStart h
    have hstart : trimStart (c :: trimEnd rest) = c :: trimEnd rest :=
      List.dropWhile_cons_of_neg (by simp [hblank])
    rw [trim_of_trimStart h, trim_of_trimStart hstart, trimEnd_trimEnd]

theorem trim_trimStart (cs : List Char) : trim (trimStart cs) = trim cs := by
  unfold trim trimStart
  rw [List.dropWhile_idempotent]

theorem trim_append_cons {c : Char} (h : isBlank c = false) (left right : List Char) :
    trim (left ++ c :: right) = trimStart left ++ c :: trimEnd right := by
  have hstart : trimStart (left ++ c :: right) = trimStart left ++ c :: right := by
    unfold trimStart
    rw [List.dropWhile_append]
    split
    · rename_i hempty
      simp [List.isEmpty_iff.mp hempty, h]
    · rfl
  have hend := trimEnd_cons h right
  unfold trim
  rw [hstart, trimEnd_append (by simp [hend]), hend]

theorem mem_trim {cs : List Char} {c : Char} (h : isBlank c = false) (hc : c ∈ cs) :
    c ∈ trim cs := by
  obtain ⟨left, right, rfl⟩ := List.append_of_mem hc
  simp [trim_append_cons h]

theorem mem_of_mem_trim {cs : List Char} {c : Char} (h : c ∈ trim cs) : c ∈ cs := by
  unfold trim trimEnd trimStart at h
  rw [List.mem_reverse] at h
  have hstart := List.mem_reverse.mp ((List.dropWhile_suffix isBlank).mem h)
  exact (List.dropWhile_suffix isBlank).mem hstart

theorem trim_of_not_blank {cs : List Char} (h : ∀ c ∈ cs, isBlank c = false) : trim cs = cs := by
  have hkeep (l : List Char) (hl : ∀ c ∈ l, isBlank c = false) : l.dropWhile isBlank = l := by
    cases l with
    | nil => rfl
    | cons c rest => exact List.dropWhile_cons_of_neg (by simp [hl c])
  unfold trim trimEnd trimStart
  rw [hkeep cs h, hkeep cs.reverse (by simpa using h), List.reverse_reverse]

theorem trimEnd_append_blank {more : List Char} (h : allBlank more = true) (cs : List Char) :
    trimEnd (cs ++ more) = trimEnd cs := by
  have hgone : more.reverse.dropWhile isBlank = [] := by
    rw [List.dropWhile_eq_nil_iff]
    simpa [allBlank] using h
  unfold trimEnd
  rw [List.reverse_append, List.dropWhile_append, hgone]
  rfl

theorem trim_append_blank {more : List Char} (h : allBlank more = true) (cs : List Char) :
    trim (cs ++ more) = trim cs := by
  have hgone : more.dropWhile isBlank = [] := trimStart_eq_nil_iff.mpr h
  unfold trim trimStart
  rw [List.dropWhile_append]
  split
  · rename_i hempty
    rw [hgone, List.isEmpty_iff.mp hempty]
  · exact trimEnd_append_blank h _

theorem trim_trimEnd (cs : List Char) : trim (trimEnd cs) = trim cs := by
  have hcs : trimEnd cs ++ (cs.reverse.takeWhile isBlank).reverse = cs := by
    unfold trimEnd
    rw [← List.reverse_append, List.takeWhile_append_dropWhile, List.reverse_reverse]
  have hblank : allBlank (cs.reverse.takeWhile isBlank).reverse = true := by
    simp [allBlank]
  conv_rhs => rw [← hcs, trim_append_blank hblank]

theorem head?_trimStart_append (cs more : List Char) :
    (trimStart (cs ++ more)).head? = (trimStart cs).head?.or (trimStart more).head? := by
  unfold trimStart
  rw [List.dropWhile_append]
  cases h : cs.dropWhile isBlank with
  | nil => simp
  | cons c rest => simp

theorem getLast?_trimEnd (cs : List Char) :
    (trimEnd cs).getLast? = (trimStart cs.reverse).head? := by
  unfold trimEnd trimStart
  rw [List.getLast?_reverse]

theorem getLast?_trimEnd_append (cs more : List Char) :
    (trimEnd (cs ++ more)).getLast? = (trimEnd more).getLast?.or (trimEnd cs).getLast? := by
  simp only [getLast?_trimEnd, List.reverse_append, head?_trimStart_append]

theorem getLast?_trim (cs : List Char) : (trim cs).getLast? = (trimEnd cs).getLast? := by
  have hblank : allBlank (cs.takeWhile isBlank).reverse = true := by simp [allBlank]
  have hcs : cs.takeWhile isBlank ++ trimStart cs = cs := List.takeWhile_append_dropWhile
  conv_rhs =>
    rw [← hcs, getLast?_trimEnd_append, getLast?_trimEnd (cs.takeWhile isBlank),
      trimStart_eq_nil_iff.mpr hblank]
  simp [trim]

end TapeMachine.Text
