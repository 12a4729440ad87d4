import Mathlib.Data.List.Chain
import TapeMachine.Proofs.Lines
import TapeMachine.Proofs.Scripts

/-!
# Where a script is cut

A script falls into parts, stretches of command lines and stretches of lines of code in turn. Each
command line is handed over by itself and each stretch of code as a whole, unless there is nothing
in it but blanks. What is handed over can be written down as a script again, which is then cut the
same way.
-/

namespace TapeMachine

namespace Submission

def isCode : Submission → Bool
  | code _ => true
  | command _ => false

/-- A submission as it stands in a script. -/
def written : Submission → String
  | code text => text
  | command line => line ++ "\n"

end Submission

namespace Script

/-- A script for some submissions. -/
def render (submissions : List Submission) : String :=
  String.join (submissions.map Submission.written)

/-! ## Parts -/

/-- Neighbouring lines of one kind. -/
structure Part where
  commands : Bool
  lines : List (List Char)

/-- Lines with their line feeds. -/
def written (lines : List (List Char)) : List Char :=
  lines.flatMap (· ++ ['\n'])

namespace Part

/-- There are lines, and all of them are of the kind that the part is of. -/
def Pure (p : Part) : Prop :=
  p.lines ≠ [] ∧ ∀ line ∈ p.lines, isCommand line = p.commands

/-- What a part is handed over as. -/
def submissions (p : Part) : List Submission :=
  if p.commands then p.lines.map fun line => .command (String.ofList (Text.trim line))
  else if p.lines.all Text.allBlank then [] else [.code (String.ofList (written p.lines))]

end Part

/-- The parts make up the lines, and each ends where lines of the other kind start. -/
structure CutInto (lines : List (List Char)) (parts : List Part) : Prop where
  lines_eq : parts.flatMap Part.lines = lines
  pure : ∀ p ∈ parts, p.Pure
  alternate : parts.IsChain fun p next => p.commands ≠ next.commands

theorem exists_parts (lines : List (List Char)) : ∃ parts, CutInto lines parts := by
  induction lines with
  | nil => exact ⟨[], rfl, by simp, List.isChain_nil⟩
  | cons line rest ih =>
    obtain ⟨parts, rfl, hpure, halternate⟩ := ih
    have hline : (⟨isCommand line, [line]⟩ : Part).Pure := by simp [Part.Pure]
    cases parts with
    | nil => exact ⟨[⟨isCommand line, [line]⟩], rfl, by simpa using hline, List.isChain_singleton _⟩
    | cons p parts =>
      rw [List.forall_mem_cons] at hpure
      by_cases hkind : isCommand line = p.commands
      · -- The line joins the first part.
        refine ⟨⟨p.commands, line :: p.lines⟩ :: parts, rfl, ?_, ?_⟩
        · rw [List.forall_mem_cons]
          refine ⟨⟨by simp, ?_⟩, hpure.2⟩
          simpa [hkind] using hpure.1.2
        · rw [List.isChain_cons] at halternate ⊢
          exact halternate
      · refine ⟨⟨isCommand line, [line]⟩ :: p :: parts, rfl, ?_, ?_⟩
        · rw [List.forall_mem_cons, List.forall_mem_cons]
          exact ⟨hline, hpure⟩
        · exact List.isChain_cons_cons.mpr ⟨hkind, halternate⟩

/-! ## From parts to submissions -/

theorem block_nil : block [] = [] := rfl

theorem block_written (lines : List (List Char)) :
    block (written lines) = (⟨false, lines⟩ : Part).submissions := by
  have hblank : Text.allBlank (written lines) = lines.all Text.allBlank := by
    have hfeed : Text.isBlank '\n' = true := by decide
    unfold written Text.allBlank
    simp [List.all_flatMap, hfeed]
  unfold block Part.submissions
  simp [hblank]

section SplitAfter

variable {lines rest : List (List Char)}

theorem splitAfter_commands (h : ∀ line ∈ lines, isCommand line = true) :
    splitAfter [] (lines ++ rest) = (⟨true, lines⟩ : Part).submissions ++ splitAfter [] rest := by
  induction lines with
  | nil => rfl
  | cons line lines ih =>
    rw [List.forall_mem_cons] at h
    simpa [splitAfter, h.1, block_nil, Part.submissions] using ih h.2

theorem splitAfter_code (h : ∀ line ∈ lines, isCommand line = false) (code : List Char) :
    splitAfter code (lines ++ rest) = splitAfter (code ++ written lines) rest := by
  induction lines generalizing code with
  | nil => simp [written]
  | cons line lines ih =>
    rw [List.forall_mem_cons] at h
    simp [splitAfter, h.1, ih h.2, written]

theorem splitAfter_block (h : ∀ line, rest.head? = some line → isCommand line = true)
    (code : List Char) : splitAfter code rest = block code ++ splitAfter [] rest := by
  cases rest with
  | nil => simp [splitAfter, block_nil]
  | cons line rest => simp [splitAfter, h line rfl, block_nil]

end SplitAfter

theorem splitAfter_parts {parts : List Part} (hpure : ∀ p ∈ parts, p.Pure)
    (happart : parts.IsChain fun p next => p.commands = false → next.commands = true) :
    splitAfter [] (parts.flatMap Part.lines) = parts.flatMap Part.submissions := by
  induction parts with
  | nil => rfl
  | cons p parts ih =>
    rw [List.forall_mem_cons] at hpure
    rw [List.isChain_cons] at happart
    have hrest := ih hpure.2 happart.2
    obtain ⟨commands, lines⟩ := p
    rw [List.flatMap_cons, List.flatMap_cons]
    cases commands with
    | true => rw [splitAfter_commands hpure.1.2, hrest]
    | false =>
      -- Behind a part of code comes a command or nothing, so the code is handed over there.
      have hnext : ∀ line, (parts.flatMap Part.lines).head? = some line →
          isCommand line = true := by
        cases parts with
        | nil => simp
        | cons q parts =>
          obtain ⟨hlines, hkind⟩ := hpure.2 q List.mem_cons_self
          obtain ⟨first, more, hq⟩ := List.exists_cons_of_ne_nil hlines
          rw [happart.1 q rfl rfl] at hkind
          simpa [hq] using hkind first (hq ▸ List.mem_cons_self)
      rw [splitAfter_code hpure.1.2, splitAfter_block hnext, hrest, List.nil_append, block_written]

/-! ## What is never handed over -/

theorem isChain_splitAfter (code : List Char) (lines : List (List Char)) :
    (splitAfter code lines).IsChain fun s next => s.isCode = true → next.isCode = false := by
  induction lines generalizing code with
  | nil =>
    unfold splitAfter block
    split <;> simp
  | cons line rest ih =>
    unfold splitAfter
    split
    · have hcommand := List.isChain_cons.mpr
        ⟨fun next _ (h : Submission.isCode (.command (String.ofList (Text.trim line))) = true) =>
          absurd h (by simp [Submission.isCode]), ih []⟩
      unfold block
      split
      · exact hcommand
      · exact List.isChain_cons_cons.mpr ⟨fun _ => rfl, hcommand⟩
    · exact ih _

/-! ## Writing a script again -/

theorem isCommand_trim {line : List Char} (h : isCommand line = true) :
    isCommand (Text.trim line) = true := by
  rw [isCommand_iff, ← Text.head?_trim, Text.trim_trim, Text.head?_trim]
  exact isCommand_iff.mp h

/-- The part that a submission is when it is written down. -/
def Part.ofSubmission (s : Submission) : Part :=
  ⟨!s.isCode, Text.lines s.written.toList⟩

/-- A submission that is written down is handed over as it was. -/
def ReadsBack (s : Submission) : Prop :=
  Text.Ended s.written.toList ∧ (Part.ofSubmission s).Pure ∧ (Part.ofSubmission s).submissions = [s]

theorem ended_written (lines : List (List Char)) : Text.Ended (written lines) := by
  rcases List.eq_nil_or_concat lines with rfl | ⟨front, last, rfl⟩
  · exact Or.inl rfl
  · right
    simp [written]

theorem lines_command {line : List Char} (hfeed : '\n' ∉ line) (hreturn : '\r' ∉ line) :
    Text.lines (Submission.command (String.ofList line)).written.toList = [line] := by
  have hline := Text.lines_feed hfeed []
  rw [Text.withoutReturn_of_not_mem hreturn] at hline
  simpa [Submission.written, Text.lines, Text.linesAfter] using hline

theorem lines_code {lines : List (List Char)} (hfeed : ∀ line ∈ lines, '\n' ∉ line)
    (hreturn : ∀ line ∈ lines, '\r' ∉ line) :
    Text.lines (Submission.code (String.ofList (written lines))).written.toList = lines := by
  have hlines := Text.lines_written hfeed hreturn []
  simpa [Submission.written, written, Text.lines, Text.linesAfter] using hlines

theorem readsBack_of_mem {p : Part} (hpure : p.Pure) (hfeed : ∀ line ∈ p.lines, '\n' ∉ line)
    (hreturn : ∀ line ∈ p.lines, '\r' ∉ line) {s : Submission} (h : s ∈ p.submissions) :
    ReadsBack s := by
  obtain ⟨commands, lines⟩ := p
  unfold ReadsBack Part.ofSubmission
  cases commands with
  | true =>
    -- A command is one line, and is still one without the blanks around it.
    simp only [Part.submissions, if_true, List.mem_map] at h
    obtain ⟨line, hline, rfl⟩ := h
    have hlines := lines_command (fun hmem => hfeed line hline (Text.mem_of_mem_trim hmem))
      (fun hmem => hreturn line hline (Text.mem_of_mem_trim hmem))
    have hcommand := isCommand_trim (hpure.2 line hline)
    rw [hlines]
    refine ⟨Or.inr ?_, ?_, ?_⟩
    · simp [Submission.written]
    · simp [Part.Pure, Submission.isCode, hcommand]
    · simp [Part.submissions, Submission.isCode]
  | false =>
    simp only [Part.submissions, Bool.false_eq_true, if_false] at h
    split at h
    · cases h
    · -- The lines of a piece of code come back as they are.
      rename_i hblank
      rw [List.mem_singleton] at h
      subst h
      rw [lines_code hfeed hreturn]
      refine ⟨?_, hpure, ?_⟩
      · simpa [Submission.written] using ended_written lines
      · simp only [Part.submissions, Submission.isCode, Bool.not_true, Bool.false_eq_true, if_false,
          if_neg hblank]

theorem lines_render {submissions : List Submission} (h : ∀ s ∈ submissions, ReadsBack s) :
    Text.lines (render submissions).toList =
      (submissions.map Part.ofSubmission).flatMap Part.lines := by
  induction submissions with
  | nil => rfl
  | cons s rest ih =>
    rw [List.forall_mem_cons] at h
    have hjoin : (render (s :: rest)).toList = s.written.toList ++ (render rest).toList := by
      simp [render]
    rw [hjoin, Text.lines_append h.1.1, ih h.2]
    rfl

theorem split_render {submissions : List Submission} (h : ∀ s ∈ submissions, ReadsBack s)
    (happart : submissions.IsChain fun s next => s.isCode = true → next.isCode = false) :
    split (render submissions) = submissions := by
  unfold split
  rw [lines_render h, splitAfter_parts]
  · calc (submissions.map Part.ofSubmission).flatMap Part.submissions
      _ = submissions.flatMap fun s => (Part.ofSubmission s).submissions := List.flatMap_map ..
      _ = submissions.flatMap fun s => [s] := List.flatMap_congr fun s hs => (h s hs).2.2
      _ = submissions := List.flatMap_singleton' submissions
  · rintro p hp
    obtain ⟨s, hs, rfl⟩ := List.mem_map.mp hp
    exact (h s hs).2.1
  · rw [List.isChain_map]
    simpa [Part.ofSubmission] using happart

end Script

/-- A script is cut exactly at its commands. Its lines fall into stretches of commands and of code
in turn. Each command line is handed over without the blanks around it, and each stretch of code
with all its lines, unless it is blank. So no code that is handed over is blank, and no two pieces
of it are neighbours. Without carriage returns, what has been handed over and is written down again
is cut the same way. -/
theorem script_cut_at_commands (text : String) :
    (∃ parts, Script.CutInto (Text.lines text.toList) parts ∧
      Script.split text = parts.flatMap Script.Part.submissions) ∧
    (∀ code, .code code ∈ Script.split text → Text.allBlank code.toList = false) ∧
    ((Script.split text).IsChain fun s next => s.isCode = true → next.isCode = false) ∧
    ('\r' ∉ text.toList →
      Script.split (Script.render (Script.split text)) = Script.split text) := by
  obtain ⟨parts, hcut⟩ := Script.exists_parts (Text.lines text.toList)
  have hsplit : Script.split text = parts.flatMap Script.Part.submissions := by
    unfold Script.split
    rw [← hcut.lines_eq]
    apply Script.splitAfter_parts hcut.pure
    apply hcut.alternate.imp
    intro p next hne hp
    simpa [hp] using hne.symm
  have happart : (Script.split text).IsChain fun s next => s.isCode = true → next.isCode = false :=
    Script.isChain_splitAfter [] (Text.lines text.toList)
  refine ⟨⟨parts, hcut, hsplit⟩, ?_, happart, ?_⟩
  · intro code hcode
    exact (Script.code_mem_splitAfter Script.startsAsCode_nil hcode).2
  · intro hreturn
    apply Script.split_render _ happart
    intro s hs
    rw [hsplit, List.mem_flatMap] at hs
    obtain ⟨p, hp, hs⟩ := hs
    have hline (line : List Char) (h : line ∈ p.lines) : line ∈ Text.lines text.toList := by
      rw [← hcut.lines_eq]
      exact List.mem_flatMap.mpr ⟨p, hp, h⟩
    apply Script.readsBack_of_mem (hcut.pure p hp) _ _ hs
    · exact fun line h => (Text.mem_lines (hline line h)).1
    · exact fun line h hmem => hreturn ((Text.mem_lines (hline line h)).2 _ hmem)

theorem script_cut_at_commands_blank_lines :
    '\r' ∉ "+\n\n>+\n:step 2\n\n  :state \n.".toList ∧
    Script.split "+\n\n>+\n:step 2\n\n  :state \n." =
      [.code "+\n\n>+\n", .command ":step 2", .command ":state", .code ".\n"] ∧
    Script.split "+\n\n>+\n:step 2\n:state\n.\n" =
      [.code "+\n\n>+\n", .command ":step 2", .command ":state", .code ".\n"] := by
  have hreturn : '\r' ∉ "+\n\n>+\n:step 2\n\n  :state \n.".toList := by decide
  have hsplit : Script.split "+\n\n>+\n:step 2\n\n  :state \n." =
      [.code "+\n\n>+\n", .command ":step 2", .command ":state", .code ".\n"] := by
    decide +kernel
  have hagain := (script_cut_at_commands "+\n\n>+\n:step 2\n\n  :state \n.").2.2.2 hreturn
  rw [hsplit] at hagain
  exact ⟨hreturn, hsplit, hagain⟩

end TapeMachine
