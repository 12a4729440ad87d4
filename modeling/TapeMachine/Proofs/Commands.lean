import TapeMachine.Debugger

/-!
# Submissions and commands

A submission is blank, code, or a command line with a name and an argument. What a command that has
an effect has been read from is said once, for every name and every argument.
-/

namespace TapeMachine

/-! ## Names and arguments -/

theorem Sample.ne_empty_of_find? {name : String} {s : Sample} (h : Sample.find? name = some s) :
    name ≠ "" := by
  rintro rfl
  have hnone : Sample.find? "" = none := by decide +kernel
  rw [hnone] at h
  cases h

namespace Command

/-- Names of requests to step or to run. -/
def runNames : List String := ["step", "s", "run", "r", "continue", "c"]

/-- Names of commands that change something when their argument is one that they take. -/
def effectNames : List String := runNames ++ ["reset", "input", "eof", "max-steps", "format"]

/-- Names of commands that only show something, or leave. -/
def queryNames : List String := ["exit", "quit", "q", "help", "h", "tape", "t", "state", "source"]

def names : List String := queryNames ++ effectNames ++ ["sample"]

/-- Without a name for a sample, all samples are listed. -/
def Query (name argument : String) : Prop :=
  name ∈ queryNames ∨ (name = "sample" ∧ argument = "")

/-- The argument is none that the command takes. -/
def Invalid (name argument : String) : Prop :=
  (name ∈ ["step", "s"] ∧ argument ≠ "" ∧ ∀ n, Text.readWord argument ≠ some (n + 1)) ∨
    (name = "eof" ∧ EofPolicy.ofNameAnyCase? argument = none) ∨
    (name = "max-steps" ∧ Text.readWord argument = none) ∨
    (name = "format" ∧ argument ∉ ["", "hex", "dec"]) ∨
    (name = "sample" ∧ argument ≠ "" ∧ Sample.find? argument = none)

/-- Queries, unknown commands and commands with an argument that they do not take. -/
def Inert (name argument : String) : Prop :=
  Query name argument ∨ name ∉ names ∨ Invalid name argument

theorem invalid_of_inert {name argument : String} (hname : name ∈ effectNames)
    (h : Inert name argument) : Invalid name argument := by
  have hquery : name ∉ "sample" :: queryNames :=
    (by decide : ∀ name ∈ effectNames, name ∉ "sample" :: queryNames) name hname
  rw [List.mem_cons, not_or] at hquery
  rcases h with (h | ⟨h, -⟩) | h | h
  · exact absurd h hquery.2
  · exact absurd h hquery.1
  · exact absurd (by simp [names, hname]) h
  · exact h

end Command

/-! ## Submissions -/

namespace Debugger

/-- The submission is a command line with this name and this argument. -/
def IsCommand (text name argument : String) : Prop :=
  (Text.trim text.toList).head? = some ':' ∧
    Command.parts (String.ofList (Text.trim text.toList)) = (name, argument)

def IsCode (text : String) : Prop :=
  ∃ c, (Text.trim text.toList).head? = some c ∧ c ≠ ':'

/-- The submission puts `code` in the place of the source. -/
inductive Loads (text : String) : String → Prop
  | code (hcode : IsCode text) : Loads text text
  | sample {name : String} {s : Sample} (hline : IsCommand text "sample" name)
    (hfind : Sample.find? name = some s) : Loads text s.code

theorem IsCommand.unique {text name name' argument argument' : String}
    (h : IsCommand text name argument) (h' : IsCommand text name' argument') :
    name = name' ∧ argument = argument' := by
  have heq := h.2.symm.trans h'.2
  exact ⟨congrArg Prod.fst heq, congrArg Prod.snd heq⟩

theorem IsCode.not_command {text name argument : String} (h : IsCode text) :
    ¬IsCommand text name argument := by
  obtain ⟨c, hhead, hc⟩ := h
  rintro ⟨hcolon, -⟩
  rw [hhead, Option.some.injEq] at hcolon
  exact hc hcolon

theorem not_isEmpty_of_head? {cs : List Char} {c : Char} (h : cs.head? = some c) :
    ¬cs.isEmpty = true := by
  rw [List.isEmpty_iff]
  rintro rfl
  cases h

theorem handle_of_blank {text : String} (h : Text.trim text.toList = []) (d : Debugger) :
    d.handle text = { debugger := d } := by
  unfold handle
  simp only [h]
  rfl

theorem handle_of_code {text : String} (h : IsCode text) (d : Debugger) :
    d.handle text = d.load text := by
  obtain ⟨c, hhead, hc⟩ := h
  unfold handle
  rw [if_neg (not_isEmpty_of_head? hhead), if_neg]
  rw [hhead, Option.some.injEq]
  exact hc

theorem handle_of_colon {text : String} (h : (Text.trim text.toList).head? = some ':')
    (d : Debugger) : d.handle text = d.command (String.ofList (Text.trim text.toList)) := by
  unfold handle
  rw [if_neg (not_isEmpty_of_head? h), if_pos h]

theorem handle_of_command {text name argument : String} (h : IsCommand text name argument)
    (d : Debugger) :
    (d.handle text).debugger = (d.obey (Command.ofParts name argument)).debugger ∧
      ∃ note, (d.handle text).said =
        .note note :: (d.obey (Command.ofParts name argument)).said := by
  rw [handle_of_colon h.1]
  unfold command
  rw [h.2]
  exact ⟨rfl, _, rfl⟩

theorem blank_or_code_or_command (text : String) :
    Text.trim text.toList = [] ∨ IsCode text ∨ ∃ name argument, IsCommand text name argument := by
  cases hhead : (Text.trim text.toList).head? with
  | none => exact .inl (List.head?_eq_none_iff.mp hhead)
  | some c =>
    by_cases hc : c = ':'
    · subst hc
      exact .inr (.inr ⟨_, _, hhead, (Prod.eta _).symm⟩)
    · exact .inr (.inl ⟨c, hhead, hc⟩)

end Debugger

/-! ## What a command is read from -/

namespace Command

/-- What stands in the line of a command that has an effect. -/
def ReadFrom (name argument : String) : Command → Prop
  | .step _ | .run | .resume => name ∈ runNames ∧ ¬Invalid name argument
  | .reset => name = "reset"
  | .input bytes => name = "input" ∧ bytes = Text.unescape argument.toList
  | .eof policy => name = "eof" ∧ EofPolicy.ofNameAnyCase? argument = some policy
  | .maxSteps n => name = "max-steps" ∧ ∃ word, Text.readWord argument = some word ∧ n = max word 1
  | .format _ => name = "format" ∧ argument ∈ ["", "hex", "dec"]
  | .sample s => name = "sample" ∧ Sample.find? argument = some s
  | _ => True

theorem readFrom_ofStepCount {name : String} (hname : name ∈ ["step", "s"]) (argument : String) :
    ReadFrom name argument (ofStepCount argument) := by
  have hrun : name ∈ runNames := (by decide : ∀ name ∈ ["step", "s"], name ∈ runNames) name hname
  have hvalid (h : argument ≠ "" → ∃ n, Text.readWord argument = some (n + 1)) :
      ¬Invalid name argument := by
    simp only [List.mem_cons, List.not_mem_nil, or_false] at hname
    rcases hname with rfl | rfl <;> simpa [Invalid] using h
  unfold ofStepCount
  split
  · rename_i hempty
    exact ⟨hrun, hvalid fun hgiven => absurd (by simpa using hempty) hgiven⟩
  · split
    · rename_i n hword
      exact ⟨hrun, hvalid fun _ => ⟨n, hword⟩⟩
    · trivial

theorem readFrom_ofMaxSteps (argument : String) :
    ReadFrom "max-steps" argument (ofMaxSteps argument) := by
  unfold ofMaxSteps
  split
  · rename_i n hword
    exact ⟨rfl, n, hword, rfl⟩
  · trivial

theorem readFrom_ofEof (argument : String) : ReadFrom "eof" argument (ofEof argument) := by
  unfold ofEof
  split
  · rename_i policy hpolicy
    exact ⟨rfl, hpolicy⟩
  · trivial

theorem readFrom_ofFormat (argument : String) : ReadFrom "format" argument (ofFormat argument) := by
  unfold ofFormat
  split <;> simp [ReadFrom]

theorem readFrom_ofSample (argument : String) : ReadFrom "sample" argument (ofSample argument) := by
  unfold ofSample
  split
  · trivial
  · split
    · rename_i s hfind
      exact ⟨rfl, hfind⟩
    · trivial

theorem readFrom_ofParts (name argument : String) :
    ReadFrom name argument (ofParts name argument) := by
  unfold ofParts
  split
  case h_6 | h_7 => exact readFrom_ofStepCount (by simp) argument
  case h_8 | h_9 | h_10 | h_11 => simp [ReadFrom, runNames, Invalid]
  case h_12 => rfl
  case h_13 => exact ⟨rfl, rfl⟩
  case h_14 => exact readFrom_ofEof argument
  case h_15 => exact readFrom_ofMaxSteps argument
  case h_18 => exact readFrom_ofFormat argument
  case h_21 => exact readFrom_ofSample argument
  all_goals trivial

end Command

end TapeMachine
