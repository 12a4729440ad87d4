import TapeMachine.Proofs.Layering
import TapeMachine.Proofs.Lines

/-!
# Comments behind the lines of a settings file

A comment behind a bare value is cut off, so it never changes what a file does. A table line is
taken for one only if it ends with its bracket, so behind a comment it is none: the table that was
open stays open.
-/

namespace TapeMachine

namespace Settings

/-! ## Lines with comments -/

/-- A line `key = value` with a value that is not quoted. -/
def GivesBare (line : List Char) : Prop :=
  (Text.trim line).head? ≠ some '#' ∧ (Text.trim line).head? ≠ some '[' ∧
    ∃ left right, line = left ++ '=' :: right ∧ '=' ∉ left ∧ (Text.trim right).head? ≠ some '"'

/-- A line with a comment behind it. -/
def commented (line comment : List Char) : List Char :=
  line ++ ' ' :: '#' :: ' ' :: comment

theorem head?_commented {line : List Char} {c : Char} (h : (Text.trim line).head? = some c)
    (comment : List Char) : (Text.trim (commented line comment)).head? = some c := by
  rw [Text.head?_trim] at h ⊢
  rw [commented, Text.head?_trimStart_append, h]
  rfl

theorem takeWhile_ne_self {c : Char} {cs : List Char} (h : c ∉ cs) :
    cs.takeWhile (· ≠ c) = cs := by
  rw [List.takeWhile_eq_self_iff]
  simpa using fun x hx => ne_of_mem_of_not_mem hx h

theorem unquote_of_bare {raw : List Char} (h : (Text.trim raw).head? ≠ some '"') :
    unquote raw = Text.trim (raw.takeWhile (· ≠ '#')) := by
  have hbare : unquote raw = uncomment (Text.trim raw) := by
    unfold unquote
    split
    · rename_i heq
      simp [heq] at h
    · rfl
  rw [hbare]
  unfold uncomment
  by_cases hmem : '#' ∈ raw
  · obtain ⟨left, right, rfl, hleft⟩ := List.eq_append_cons_of_mem hmem
    have hstart : '#' ∉ Text.trimStart left :=
      fun hin => hleft ((List.dropWhile_suffix Text.isBlank).mem hin)
    rw [if_pos (Text.mem_trim (by decide) hmem), Text.trim_append_cons (by decide),
      takeWhile_ne_append hleft, takeWhile_ne_append hstart, Text.trim_trimStart]
  · rw [if_neg fun hin => hmem (Text.mem_of_mem_trim hin), takeWhile_ne_self hmem]

theorem ofLine_bare {left right : List Char} (hleft : '=' ∉ left)
    (hcomment : (Text.trim (left ++ '=' :: right)).head? ≠ some '#')
    (htable : (Text.trim (left ++ '=' :: right)).head? ≠ some '[')
    (hbare : (Text.trim right).head? ≠ some '"') :
    Entry.ofLine (left ++ '=' :: right) =
      .value (Text.trim left) (Text.trim (right.takeWhile (· ≠ '#'))) := by
  apply ofLine_of_givesValue
  refine ⟨hcomment, ?_, Text.trimStart left, Text.trimEnd right, ?_, ?_, ?_, ?_⟩
  · rintro name ⟨inner, htrim, -⟩
    simp [htrim] at htable
  · exact Text.trim_append_cons (by decide) left right
  · exact fun hin => hleft ((List.dropWhile_suffix Text.isBlank).mem hin)
  · exact (Text.trim_trimStart left).symm
  · have hend := Text.trim_trimEnd right
    rw [← unquote_of_bare hbare]
    unfold unquote
    rw [hend]

theorem trim_takeWhile_commented (right comment : List Char) :
    Text.trim ((commented right comment).takeWhile (· ≠ '#')) =
      Text.trim (right.takeWhile (· ≠ '#')) := by
  unfold commented
  by_cases hmem : '#' ∈ right
  · obtain ⟨front, rest, rfl, hfront⟩ := List.eq_append_cons_of_mem hmem
    rw [List.append_assoc, List.cons_append, takeWhile_ne_append hfront, takeWhile_ne_append hfront]
  · have hblank : '#' ∉ right ++ [' '] := by simpa using hmem
    have hsplit : right ++ ' ' :: '#' :: ' ' :: comment =
        (right ++ [' ']) ++ '#' :: ' ' :: comment := by simp
    rw [hsplit, takeWhile_ne_append hblank, takeWhile_ne_self hmem,
      Text.trim_append_blank (by decide)]

theorem head?_commented_ne_quote {right : List Char} (h : (Text.trim right).head? ≠ some '"')
    (comment : List Char) : (Text.trim (commented right comment)).head? ≠ some '"' := by
  have hhash : (Text.trimStart (' ' :: '#' :: ' ' :: comment)).head? = some '#' := rfl
  rw [Text.head?_trim] at h ⊢
  rw [commented, Text.head?_trimStart_append, hhash]
  cases hright : (Text.trimStart right).head? with
  | none => simp
  | some c => simpa [hright] using h

theorem ofLine_commented {line : List Char} (h : GivesBare line) (comment : List Char) :
    Entry.ofLine (commented line comment) = Entry.ofLine line := by
  obtain ⟨hcomment, htable, left, right, rfl, hleft, hbare⟩ := h
  have hfull : Text.trim (left ++ '=' :: right) ≠ [] := by
    simp [Text.trim_append_cons (c := '=') (by decide)]
  -- The first character decides what kind of line this is, and it is the same with the comment.
  obtain ⟨first, hfirst⟩ := Option.ne_none_iff_exists'.mp (mt List.head?_eq_none_iff.mp hfull)
  have hkept := head?_commented hfirst comment
  have hsplit : commented (left ++ '=' :: right) comment =
      left ++ '=' :: commented right comment := by simp [commented]
  rw [hsplit] at hkept ⊢
  rw [ofLine_bare hleft hcomment htable hbare, ofLine_bare hleft (by rwa [hkept, ← hfirst])
    (by rwa [hkept, ← hfirst]) (head?_commented_ne_quote hbare comment), trim_takeWhile_commented]

/-! ## Table lines with comments -/

theorem exists_opensTable_iff {line : List Char} :
    (∃ name, OpensTable line name) ↔
      (Text.trim line).head? = some '[' ∧ (Text.trim line).getLast? = some ']' := by
  constructor
  · rintro ⟨name, inner, htrim, -⟩
    simp [htrim, List.getLast?_cons]
  · rintro ⟨hhead, hlast⟩
    obtain ⟨front, htrim⟩ := List.getLast?_eq_some_iff.mp hlast
    cases front with
    | nil => simp [htrim] at hhead
    | cons c inner =>
      have hc : c = '[' := by simpa [htrim] using hhead
      exact ⟨_, inner, by simp [htrim, hc], rfl⟩

theorem ne_vm_of_commented {line comment name : List Char}
    (h : OpensTable (commented line comment) name) : name ≠ vm := by
  obtain ⟨inner, htrim, rfl⟩ := h
  have hmem : '#' ∈ Text.trim (commented line comment) :=
    Text.mem_trim (by decide) (by simp [commented])
  have hinner : '#' ∈ inner := by simpa [htrim] using hmem
  intro hname
  have hvm := Text.mem_trim (by decide) hinner
  rw [hname] at hvm
  exact absurd hvm (by decide)

section Header

variable {line name : List Char} (h : OpensTable line name) (comment : List Char)

include h

theorem OpensTable.head?_commented :
    (Text.trim (commented line comment)).head? = some '[' := by
  obtain ⟨inner, htrim, -⟩ := h
  exact Settings.head?_commented (by simp [htrim]) comment

theorem OpensTable.not_givesValue_commented (key : Key) (value : List Char) :
    ¬GivesValue (commented line comment) key.name.toList value := by
  rintro ⟨-, -, left, right, htrim, hleft, hkey, -⟩
  have hhead := h.head?_commented comment
  rw [htrim] at hhead
  cases left with
  | nil => simp at hhead
  | cons c left =>
    have hc : c = '[' := by simpa using hhead
    have hname : key.name.toList.head? = some '[' := by
      rw [hkey, hc, Text.head?_trim]
      rfl
    cases key <;> exact absurd hname (by decide)

theorem OpensTable.openAfter_commented (lines : List (List Char)) :
    OpenAfter (lines ++ [commented line comment]) ↔
      OpenAfter lines ∧ (Text.trimEnd comment).getLast? ≠ some ']' := by
  have hends : (∃ other, OpensTable (commented line comment) other) ↔
      (Text.trimEnd comment).getLast? = some ']' := by
    have hline : commented line comment = (line ++ [' ', '#', ' ']) ++ comment := by
      simp [commented]
    have hhash : (Text.trimEnd (line ++ [' ', '#', ' '])).getLast? = some '#' := by
      rw [Text.getLast?_trimEnd_append]
      rfl
    rw [exists_opensTable_iff, h.head?_commented comment, Text.getLast?_trim, hline,
      Text.getLast?_trimEnd_append, hhash]
    cases (Text.trimEnd comment).getLast? <;> simp
  by_cases hclosed : (Text.trimEnd comment).getLast? = some ']'
  · obtain ⟨other, hother⟩ := hends.mpr hclosed
    rw [openAfter_concat_table hother]
    simp [hclosed, ne_vm_of_commented hother]
  · rw [openAfter_concat_other (not_exists.mp (mt hends.mp hclosed))]
    simp [hclosed]

end Header

/-! ## What a file does -/

/-- Two files do the same to any settings, whatever the order in which their values are put in: they
are both refused, or both leave the same settings. -/
def SameEffect (content other : String) : Prop :=
  ∀ (origin : String) (values others : List Assignment),
    values.Perm (file content origin) → others.Perm (file other origin) →
    ∀ s t : Settings, (s.assignAll values).2 = .ok t ↔ (s.assignAll others).2 = .ok t

theorem sameEffect_of_gives {content other : String}
    (h : ∀ origin key text,
      Gives (file content origin) key text ↔ Gives (file other origin) key text) :
    SameEffect content other := by
  intro origin values others hvalues hothers s t
  have hnodup := ((hvalues.map Assignment.name).nodup_iff).mpr (nodup_file content origin)
  have hnodup' := ((hothers.map Assignment.name).nodup_iff).mpr (nodup_file other origin)
  rw [assignAll_eq_ok_iff hnodup, assignAll_eq_ok_iff hnodup']
  unfold Holds
  simp only [gives_perm hvalues, gives_perm hothers, h]

theorem sameEffect_of_entries {content other : String}
    (h : (Text.lines content.toList).map Entry.ofLine =
      (Text.lines other.toList).map Entry.ofLine) : SameEffect content other := by
  apply sameEffect_of_gives
  intro origin key text
  have hfile : file content origin = file other origin := by
    unfold file fileValues
    rw [h]
  rw [hfile]

/-- A table line may give way to a line that gives no known key a value and leaves the same open. -/
theorem sameEffect_of_header {content other : String} {before rest : List (List Char)}
    {header line name : List Char} (hcontent : Text.lines content.toList = before ++ header :: rest)
    (hother : Text.lines other.toList = before ++ line :: rest) (hheader : OpensTable header name)
    (hvalue : ∀ (key : Key) value, ¬GivesValue line key.name.toList value)
    (hopen : name = vm ↔ OpenAfter (before ++ [line])) : SameEffect content other := by
  apply sameEffect_of_gives
  intro origin key text
  have hnone (lines : List (List Char)) (value : List Char) :
      ¬(GivesValue header key.name.toList value ∧ OpenAfter lines) :=
    fun h => not_givesValue_of_opensTable hheader h.1
  have hlast (value : List Char) : LastGiven (before ++ [header]) key.name.toList value ↔
      LastGiven (before ++ [line]) key.name.toList value := by
    rw [lastGiven_concat_of_not (hnone before), lastGiven_concat_of_not]
    exact fun value h => hvalue key value h.1
  have hsame : OpenAfter (before ++ [header]) ↔ OpenAfter (before ++ [line]) :=
    (openAfter_concat_table hheader).trans hopen
  rw [gives_file, gives_file, hcontent, hother]
  simpa using lastGiven_append_congr hlast hsame rest

/-! ## A line in its file -/

theorem ofLine_congr {line other : List Char} (h : Text.trim line = Text.trim other) :
    Entry.ofLine line = Entry.ofLine other := by
  unfold Entry.ofLine
  rw [h]

theorem openAfter_concat_congr {line other : List Char} (h : Text.trim line = Text.trim other)
    (lines : List (List Char)) : OpenAfter (lines ++ [line]) ↔ OpenAfter (lines ++ [other]) := by
  rw [← leaves_iff_openAfter, ← leaves_iff_openAfter, List.map_append, List.map_append]
  simp [ofLine_congr h]

theorem exists_lines_commented {before line after comment : String}
    (hbefore : Text.Ended before.toList) (hline : '\n' ∉ line.toList) (hfull : line.toList ≠ [])
    (hafter : Text.EndsLine after.toList) (hcomment : '\n' ∉ comment.toList) :
    ∃ shown shown' rest,
      Text.lines (before ++ line ++ after).toList = Text.lines before.toList ++ shown :: rest ∧
      Text.lines (before ++ line ++ " # " ++ comment ++ after).toList =
        Text.lines before.toList ++ shown' :: rest ∧
      Text.trim shown = Text.trim line.toList ∧
      Text.trim shown' = Text.trim (commented line.toList comment.toList) := by
  obtain ⟨rest, hrest⟩ := Text.exists_lines_after hafter
  have hfeed : '\n' ∉ commented line.toList comment.toList := by
    simp [commented, hline, hcomment]
  have hfull' : commented line.toList comment.toList ≠ [] := by simp [commented]
  obtain ⟨shown, hlines, htrim⟩ := hrest _ hline hfull
  obtain ⟨shown', hlines', htrim'⟩ := hrest _ hfeed hfull'
  refine ⟨shown, shown', rest, ?_, ?_, htrim, htrim'⟩
  · rw [← hlines, ← Text.lines_append hbefore]
    simp
  · rw [← hlines', ← Text.lines_append hbefore]
    simp [commented]

end Settings

open Settings in
/-- A comment behind a bare value changes nothing, wherever in a file the line is. Behind a table
line it hides that line: the table that was open before stays open, or, if the comment ends with a
bracket, another one is opened. So it changes nothing if `[vm]` is then open just as it is behind
the line alone. -/
theorem comment_behind_line {before line after comment : String}
    (hbefore : Text.Ended before.toList) (hline : '\n' ∉ line.toList)
    (hafter : Text.EndsLine after.toList) (hcomment : '\n' ∉ comment.toList) :
    (GivesBare line.toList →
      SameEffect (before ++ line ++ after) (before ++ line ++ " # " ++ comment ++ after)) ∧
    (∀ name, OpensTable line.toList name →
      (name = vm ↔ OpenAfter (Text.lines before.toList) ∧
        (Text.trimEnd comment.toList).getLast? ≠ some ']') →
      SameEffect (before ++ line ++ after) (before ++ line ++ " # " ++ comment ++ after)) := by
  constructor
  · -- The line is read as the same entry, with the comment and without.
    intro hbare
    have hfull : line.toList ≠ [] := by
      obtain ⟨-, -, left, right, heq, -⟩ := hbare
      simp [heq]
    obtain ⟨shown, shown', rest, hlines, hlines', htrim, htrim'⟩ :=
      exists_lines_commented hbefore hline hfull hafter hcomment
    apply sameEffect_of_entries
    rw [hlines, hlines', List.map_append, List.map_append, List.map_cons, List.map_cons,
      ofLine_congr htrim, ofLine_congr htrim', ofLine_commented hbare]
  · -- The table line is not seen any more; what is open behind it decides.
    intro name htable hopen
    have hfull : line.toList ≠ [] := by
      rintro hnil
      obtain ⟨inner, heq, -⟩ := htable
      simp [hnil, Text.trim, Text.trimStart, Text.trimEnd] at heq
    obtain ⟨shown, shown', rest, hlines, hlines', htrim, htrim'⟩ :=
      exists_lines_commented hbefore hline hfull hafter hcomment
    have hshown : OpensTable shown name := by
      unfold OpensTable
      rwa [htrim]
    apply sameEffect_of_header hlines hlines' hshown
    · intro key value hvalue
      rw [← ofLine_eq_value_iff, ofLine_congr htrim', ofLine_eq_value_iff] at hvalue
      exact htable.not_givesValue_commented _ key value hvalue
    · rw [openAfter_concat_congr htrim', htable.openAfter_commented]
      exact hopen

open Settings in
theorem comment_behind_line_misleading :
    GivesBare "max_steps = 7".toList ∧ OpensTable "[vm]".toList vm ∧
    SameEffect ("[vm]\n" ++ "max_steps = 7" ++ "\r\n")
      ("[vm]\n" ++ "max_steps = 7" ++ " # " ++ "\"8\" = [9]" ++ "\r\n") ∧
    SameEffect ("[vm]\n" ++ "[vm]" ++ "\nmax_steps = 7")
      ("[vm]\n" ++ "[vm]" ++ " # " ++ "again" ++ "\nmax_steps = 7") := by
  have hbare : GivesBare "max_steps = 7".toList :=
    ⟨by decide, by decide, "max_steps ".toList, " 7".toList, by decide, by decide, by decide⟩
  have htable : OpensTable "[vm]".toList vm := ⟨vm, by decide, by decide⟩
  have hopen : OpenAfter (Text.lines "[vm]\n".toList) :=
    ⟨[], "[vm]".toList, [], by decide, htable, by simp⟩
  have hbefore : Text.Ended "[vm]\n".toList := Or.inr (by decide)
  refine ⟨hbare, htable, ?_, ?_⟩
  · exact (comment_behind_line hbefore (by decide) (Or.inr ⟨[], Or.inr (by decide)⟩)
      (by decide)).1 hbare
  · refine (comment_behind_line hbefore (by decide) (Or.inr ⟨"max_steps = 7".toList, ?_⟩)
      (by decide)).2 vm htable ?_
    · exact Or.inl (by decide)
    · exact ⟨fun _ => ⟨hopen, by decide⟩, fun _ => rfl⟩

open Settings in
/-- Behind a comment the line of another table goes unseen, and what that table says counts. -/
theorem comment_hides_table :
    OpensTable "[other]".toList "other".toList ∧
    (({} : Settings).assignAll (file "[vm]\n[other]\ntape_size = 9" "")).2 = .ok {} ∧
    (({} : Settings).assignAll (file "[vm]\n[other] # not ours\ntape_size = 9" "")).2 =
      .ok { tapeSize := 9 } ∧
    ¬SameEffect "[vm]\n[other]\ntape_size = 9" "[vm]\n[other] # not ours\ntape_size = 9" := by
  have hplain : (({} : Settings).assignAll
      (file "[vm]\n[other]\ntape_size = 9" "")).2 = .ok {} := by
    decide +kernel
  have hcommented : (({} : Settings).assignAll
      (file "[vm]\n[other] # not ours\ntape_size = 9" "")).2 = .ok { tapeSize := 9 } := by
    decide +kernel
  refine ⟨⟨"other".toList, by decide, by decide⟩, hplain, hcommented, ?_⟩
  intro hsame
  have h := (hsame "" _ _ (List.Perm.refl _) (List.Perm.refl _) {} {}).mp hplain
  rw [hcommented] at h
  exact absurd h (by decide)

end TapeMachine
