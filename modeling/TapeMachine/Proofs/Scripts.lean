import TapeMachine.Proofs.Blanks
import TapeMachine.Proofs.Commands

/-!
# Scripts and submissions

A script is cut into submissions by looking at its lines one by one, while a reader that takes
submissions looks at each as a whole. The two agree: what the cut takes for code the reader takes
for code, and what it takes for a command the reader takes for the same command.
-/

namespace TapeMachine

/-! ## What a block of code starts with -/

namespace Script

theorem isCommand_iff {line : List Char} :
    isCommand line = true ↔ (Text.trimStart line).head? = some ':' := by
  unfold isCommand
  exact beq_iff_eq

/-- The first character that is not blank is no colon. -/
def StartsAsCode (code : List Char) : Prop :=
  (Text.trimStart code).head? ≠ some ':'

theorem startsAsCode_nil : StartsAsCode [] := by
  simp [StartsAsCode, Text.trimStart]

theorem StartsAsCode.addLine {code line : List Char} (hcode : StartsAsCode code)
    (hline : isCommand line = false) : StartsAsCode (code ++ line ++ ['\n']) := by
  have hstart : (Text.trimStart line).head? ≠ some ':' := by
    intro h
    rw [isCommand_iff.mpr h] at hline
    cases hline
  have hfeed : (Text.trimStart ['\n']).head? = none := by decide
  unfold StartsAsCode at hcode ⊢
  rw [Text.head?_trimStart_append, Text.head?_trimStart_append, hfeed, Option.or_none]
  cases hfirst : (Text.trimStart code).head? with
  | none => exact hstart
  | some c => rwa [hfirst] at hcode

theorem code_mem_block {code : List Char} {text : String} (h : .code text ∈ block code) :
    text.toList = code ∧ Text.allBlank code = false := by
  unfold block at h
  split at h
  · cases h
  · rename_i hblank
    rw [List.mem_singleton, Submission.code.injEq] at h
    rw [h]
    exact ⟨String.toList_ofList, Bool.eq_false_iff.mpr hblank⟩

theorem command_not_mem_block {code : List Char} {line : String} : .command line ∉ block code := by
  unfold block
  split <;> simp

theorem code_mem_splitAfter {lines : List (List Char)} {code : List Char} {text : String}
    (hcode : StartsAsCode code) (h : .code text ∈ splitAfter code lines) :
    StartsAsCode text.toList ∧ Text.allBlank text.toList = false := by
  induction lines generalizing code with
  | nil =>
    obtain ⟨rfl, hblank⟩ := code_mem_block h
    exact ⟨hcode, hblank⟩
  | cons line rest ih =>
    unfold splitAfter at h
    split at h
    · simp only [List.mem_append, List.mem_cons, reduceCtorEq, false_or] at h
      rcases h with h | h
      · obtain ⟨rfl, hblank⟩ := code_mem_block h
        exact ⟨hcode, hblank⟩
      · exact ih startsAsCode_nil h
    · rename_i hline
      exact ih (hcode.addLine (Bool.eq_false_iff.mpr hline)) h

theorem command_mem_splitAfter {lines : List (List Char)} {code : List Char} {line : String}
    (h : .command line ∈ splitAfter code lines) :
    ∃ raw ∈ lines, isCommand raw = true ∧ line.toList = Text.trim raw := by
  induction lines generalizing code with
  | nil => exact absurd h command_not_mem_block
  | cons raw rest ih =>
    unfold splitAfter at h
    split at h
    · rename_i hraw
      simp only [List.mem_append, List.mem_cons, Submission.command.injEq] at h
      rcases h with h | rfl | h
      · exact absurd h command_not_mem_block
      · exact ⟨raw, by simp, hraw, String.toList_ofList⟩
      · obtain ⟨other, hother, hcommand⟩ := ih h
        exact ⟨other, by simp [hother], hcommand⟩
    · obtain ⟨other, hother, hcommand⟩ := ih h
      exact ⟨other, by simp [hother], hcommand⟩

end Script

/-- A submission as a reader gets it. -/
def Submission.text : Submission → String
  | code text => text
  | command line => line

namespace Debugger

theorem hasCommand_block (code : List Char) : hasCommand (Script.block code) = false := by
  unfold Script.block
  split <;> rfl

theorem hasCommand_splitAfter (code : List Char) (lines : List (List Char)) :
    hasCommand (Script.splitAfter code lines) = lines.any Script.isCommand := by
  induction lines generalizing code with
  | nil => exact hasCommand_block code
  | cons line rest ih =>
    unfold Script.splitAfter
    cases hline : Script.isCommand line with
    | true => simp [hasCommand, hline]
    | false => simp [hline, ih]

/-! ## One submission -/

theorem isCode_of_startsAsCode {text : String} (hstart : Script.StartsAsCode text.toList)
    (hblank : Text.allBlank text.toList = false) : IsCode text := by
  cases hhead : (Text.trim text.toList).head? with
  | none =>
    rw [List.head?_eq_none_iff, Text.trim_eq_nil_iff, hblank] at hhead
    cases hhead
  | some c =>
    refine ⟨c, hhead, ?_⟩
    rintro rfl
    rw [Text.head?_trim] at hhead
    exact hstart hhead

theorem isCode_of_mem_split {text code : String} (h : .code code ∈ Script.split text) :
    IsCode code := by
  obtain ⟨hstart, hblank⟩ := Script.code_mem_splitAfter Script.startsAsCode_nil h
  exact isCode_of_startsAsCode hstart hblank

theorem handle_command {line : String} {raw : List Char} (hraw : Script.isCommand raw = true)
    (hline : line.toList = Text.trim raw) (d : Debugger) : d.handle line = d.command line := by
  have htrim : Text.trim line.toList = line.toList := by rw [hline, Text.trim_trim]
  have hhead : (Text.trim line.toList).head? = some ':' := by
    rw [htrim, hline, Text.head?_trim]
    exact Script.isCommand_iff.mp hraw
  rw [handle_of_colon hhead, htrim, String.ofList_toList]

theorem submit_eq_handle {text : String} {s : Submission} (h : s ∈ Script.split text)
    (d : Debugger) : d.submit s = d.handle s.text := by
  cases s with
  | code text => exact (handle_of_code (isCode_of_mem_split h) d).symm
  | command line =>
    obtain ⟨raw, -, hraw, hline⟩ := Script.command_mem_splitAfter h
    exact (handle_command hraw hline d).symm

/-! ## One after another -/

/-- Submissions handed over one by one, up to one that leaves. -/
def handleAll (d : Debugger) : List String → Turn
  | [] => { debugger := d }
  | text :: rest =>
    let turn := d.handle text
    if turn.leaves then turn
    else
      let later := turn.debugger.handleAll rest
      { later with said := turn.said ++ later.said }

theorem submitAll_eq_handleAll {submissions : List Submission}
    (h : ∀ s ∈ submissions, ∀ d : Debugger, d.submit s = d.handle s.text) (d : Debugger) :
    d.submitAll submissions = d.handleAll (submissions.map Submission.text) := by
  induction submissions generalizing d with
  | nil => rfl
  | cons s rest ih =>
    have hrest := ih fun s hs => h s (List.mem_cons_of_mem _ hs)
    unfold submitAll
    rw [List.map_cons, handleAll, h s List.mem_cons_self]
    simp only [hrest]

end Debugger

/-- A script does what its submissions do when they are handed over one by one, up to the first that
leaves. Only a script without a command line does more, if there is code then: it runs it. Each
block of code that a script is cut into is taken for code by the reader. -/
theorem runScript_eq_handleAll (d : Debugger) (text : String) :
    let fed := d.handleAll ((Script.split text).map Submission.text)
    let runs := (∀ line ∈ Text.lines text.toList, Script.isCommand line = false) ∧
      Text.allBlank fed.debugger.session.source.toList = false
    (¬runs → d.runScript text = fed) ∧
    (runs →
      let last := fed.debugger.handle ":run"
      d.runScript text = { last with said := fed.said ++ last.said }) ∧
    ∀ code, .code code ∈ Script.split text →
      (∃ c, (Text.trim code.toList).head? = some c ∧ c ≠ ':') ∧
      ∀ reader : Debugger, reader.handle code = reader.load code := by
  intro fed runs
  have hfed : d.submitAll (Script.split text) = fed :=
    Debugger.submitAll_eq_handleAll (fun s hs => Debugger.submit_eq_handle hs) d
  have hruns : runs ↔ ¬(Debugger.hasCommand (Script.split text) ||
      Text.allBlank fed.debugger.session.source.toList) = true := by
    rw [show Script.split text = Script.splitAfter [] (Text.lines text.toList) from rfl,
      Debugger.hasCommand_splitAfter]
    simp [runs]
  have hrun : fed.debugger.handle ":run" = fed.debugger.command ":run" := by
    have hcommand : Script.isCommand [':', 'r', 'u', 'n'] = true := by decide
    exact Debugger.handle_command hcommand (by decide) _
  refine ⟨?_, ?_, ?_⟩
  · -- There was a command, or there is no code to run.
    intro hnot
    unfold Debugger.runScript
    rw [hruns, not_not] at hnot
    simp only [hfed]
    rw [if_pos hnot]
  · intro h
    unfold Debugger.runScript
    simp only [hfed]
    rw [if_neg (hruns.mp h), hrun]
  · intro code hcode
    have hread := Debugger.isCode_of_mem_split hcode
    exact ⟨hread, Debugger.handle_of_code hread⟩

-- Code alone is run; next to a command it is only loaded.
example :
    let d := Debugger.new { tapeSize := 1 }
    (d.runScript "\n+.").said.flatMap Saying.bytes = [1, 0x0A] ∧
      (d.runScript "\n+.\n\t:format dec").said.flatMap Saying.bytes = [] := by
  decide +kernel

end TapeMachine
