import TapeMachine.Proofs.Blanks

/-!
# Lines

How the lines of a text come from its parts: a line with its line feed in front of a text is the
first of its lines, and a text that ends with a line feed shares no line with what is behind it.
-/

namespace TapeMachine.Text

/-- A line without the carriage return at its end. -/
def withoutReturn (line : List Char) : List Char :=
  (dropReturn line.reverse).reverse

theorem dropReturn_of_not_mem {line : List Char} (h : '\r' ∉ line) : dropReturn line = line := by
  unfold dropReturn
  split
  · simp at h
  · rfl

theorem withoutReturn_of_not_mem {line : List Char} (h : '\r' ∉ line) :
    withoutReturn line = line := by
  unfold withoutReturn
  rw [dropReturn_of_not_mem (by simpa using h), List.reverse_reverse]

theorem withoutReturn_cases (line : List Char) :
    withoutReturn line = line ∨ line = withoutReturn line ++ ['\r'] := by
  unfold withoutReturn dropReturn
  split
  · rename_i rest hrest
    right
    rw [← List.reverse_reverse line, hrest]
    simp
  · exact Or.inl (List.reverse_reverse line)

theorem mem_of_mem_withoutReturn {line : List Char} {c : Char} (h : c ∈ withoutReturn line) :
    c ∈ line := by
  rcases withoutReturn_cases line with heq | heq
  · rwa [heq] at h
  · rw [heq]
    exact List.mem_append_left _ h

theorem trim_withoutReturn (line : List Char) : trim (withoutReturn line) = trim line := by
  rcases withoutReturn_cases line with heq | heq
  · rw [heq]
  · conv_rhs => rw [heq, trim_append_blank (by decide)]

/-! ## A line and a text -/

section Append

variable {line rest : List Char}

theorem linesAfter_append (h : '\n' ∉ line) (started rest : List Char) :
    linesAfter started (line ++ rest) = linesAfter (line.reverse ++ started) rest := by
  induction line generalizing started with
  | nil => rfl
  | cons c line ih =>
    have hc : c ≠ '\n' := fun heq => h (heq ▸ List.mem_cons_self)
    have hline : '\n' ∉ line := fun hmem => h (List.mem_cons_of_mem _ hmem)
    rw [List.cons_append, linesAfter, ih hline]
    · simp
    · exact hc

theorem lines_feed (h : '\n' ∉ line) (rest : List Char) :
    lines (line ++ '\n' :: rest) = withoutReturn line :: lines rest := by
  unfold lines
  rw [linesAfter_append h, List.append_nil, linesAfter]
  rfl

theorem lines_unended (h : '\n' ∉ line) (hline : line ≠ []) : lines line = [line] := by
  have hlines := linesAfter_append h [] []
  simp only [List.append_nil] at hlines
  unfold lines
  rw [hlines, linesAfter]
  simp [hline]

theorem linesAfter_ended (started front rest : List Char) :
    linesAfter started (front ++ '\n' :: rest) =
      linesAfter started (front ++ ['\n']) ++ lines rest := by
  induction front generalizing started with
  | nil => simp [linesAfter, lines]
  | cons c front ih =>
    by_cases hc : c = '\n'
    · subst hc
      simp [linesAfter, ih]
    · rw [List.cons_append, List.cons_append, linesAfter, linesAfter, ih]
      · exact hc
      · exact hc

end Append

/-- No line goes over the end of the text. -/
def Ended (text : List Char) : Prop :=
  text = [] ∨ text.getLast? = some '\n'

theorem lines_append {front : List Char} (h : Ended front) (rest : List Char) :
    lines (front ++ rest) = lines front ++ lines rest := by
  rcases h with rfl | h
  · rfl
  · obtain ⟨body, rfl⟩ := List.getLast?_eq_some_iff.mp h
    rw [List.append_assoc]
    exact linesAfter_ended [] body rest

/-- A line ends where this starts: at the end of the text, or at a line feed with or without a
carriage return. -/
def EndsLine (after : List Char) : Prop :=
  after = [] ∨ ∃ rest, after = '\n' :: rest ∨ after = '\r' :: '\n' :: rest

theorem exists_lines_after {after : List Char} (h : EndsLine after) :
    ∃ rest, ∀ line, '\n' ∉ line → line ≠ [] →
      ∃ shown, lines (line ++ after) = shown :: rest ∧ trim shown = trim line := by
  rcases h with rfl | ⟨rest, rfl | rfl⟩
  · refine ⟨[], fun line hfeed hline => ⟨line, ?_, rfl⟩⟩
    rw [List.append_nil, lines_unended hfeed hline]
  · exact ⟨lines rest, fun line hfeed _ => ⟨_, lines_feed hfeed rest, trim_withoutReturn line⟩⟩
  · refine ⟨lines rest, fun line hfeed _ => ⟨withoutReturn (line ++ ['\r']), ?_, ?_⟩⟩
    · rw [← lines_feed (by simpa using hfeed), List.append_assoc]
      rfl
    · rw [trim_withoutReturn, trim_append_blank (by decide)]

theorem lines_written {ls : List (List Char)} (hfeed : ∀ line ∈ ls, '\n' ∉ line)
    (hreturn : ∀ line ∈ ls, '\r' ∉ line) (rest : List Char) :
    lines (ls.flatMap (· ++ ['\n']) ++ rest) = ls ++ lines rest := by
  induction ls with
  | nil => rfl
  | cons line ls ih =>
    have hrest := ih (fun l hl => hfeed l (List.mem_cons_of_mem _ hl))
      (fun l hl => hreturn l (List.mem_cons_of_mem _ hl))
    have hline := lines_feed (hfeed line List.mem_cons_self) (ls.flatMap (· ++ ['\n']) ++ rest)
    rw [withoutReturn_of_not_mem (hreturn line List.mem_cons_self), hrest] at hline
    simpa using hline

/-! ## What lines are made of -/

theorem mem_linesAfter {started text line : List Char} (hstarted : '\n' ∉ started)
    (h : line ∈ linesAfter started text) :
    '\n' ∉ line ∧ ∀ c ∈ line, c ∈ started ∨ c ∈ text := by
  fun_induction linesAfter started text with
  | case1 => cases h
  | case2 started hne =>
    rw [List.mem_singleton.mp h]
    simpa using hstarted
  | case3 started rest ih =>
    rcases List.mem_cons.mp h with heq | h
    · have hin : ∀ c ∈ line, c ∈ started := by
        intro c hc
        rw [heq, ← List.reverse_reverse started] at hc
        simpa using mem_of_mem_withoutReturn hc
      exact ⟨fun hfeed => hstarted (hin _ hfeed), fun c hc => Or.inl (hin c hc)⟩
    · obtain ⟨hfeed, hin⟩ := ih (by simp) h
      refine ⟨hfeed, fun c hc => Or.inr (List.mem_cons_of_mem _ ?_)⟩
      simpa using hin c hc
  | case4 started c rest hc ih =>
    have hmore : '\n' ∉ c :: started := by
      simpa [hstarted] using Ne.symm hc
    obtain ⟨hfeed, hin⟩ := ih hmore h
    refine ⟨hfeed, fun d hd => ?_⟩
    have := hin d hd
    simp only [List.mem_cons] at this ⊢
    tauto

theorem mem_lines {text line : List Char} (h : line ∈ lines text) :
    '\n' ∉ line ∧ ∀ c ∈ line, c ∈ text := by
  obtain ⟨hfeed, hin⟩ := mem_linesAfter (by simp) h
  exact ⟨hfeed, fun c hc => by simpa using hin c hc⟩

end TapeMachine.Text
