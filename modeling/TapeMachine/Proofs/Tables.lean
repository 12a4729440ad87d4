import Mathlib.Data.List.Induction
import TapeMachine.Settings

/-!
# What a settings file says

A file is read line by line with one flag that says whether a table `[vm]` is open. Here the same
is said without a flag, in terms of the lines: which of them open a table, which give a key a value,
and which of these is the last one for its key.
-/

namespace TapeMachine.Settings

/-! ## One line -/

/-- A table line is, without the blanks around it, a name in brackets. -/
def OpensTable (line name : List Char) : Prop :=
  ∃ inner, Text.trim line = '[' :: (inner ++ [']']) ∧ name = Text.trim inner

/-- A line `key = value` that is neither a comment nor a table line. -/
def GivesValue (line key value : List Char) : Prop :=
  (Text.trim line).head? ≠ some '#' ∧ (∀ name, ¬OpensTable line name) ∧
    ∃ left right, Text.trim line = left ++ '=' :: right ∧ '=' ∉ left ∧
      key = Text.trim left ∧ value = unquote right

theorem takeWhile_ne_append {c : Char} {left : List Char} (h : c ∉ left) (right : List Char) :
    (left ++ c :: right).takeWhile (· ≠ c) = left := by
  rw [List.takeWhile_append_of_pos (by simpa using fun x hx => ne_of_mem_of_not_mem hx h)]
  simp

theorem dropWhile_ne_append {c : Char} {left : List Char} (h : c ∉ left) (right : List Char) :
    (left ++ c :: right).dropWhile (· ≠ c) = c :: right := by
  rw [List.dropWhile_append_of_pos (by simpa using fun x hx => ne_of_mem_of_not_mem hx h)]
  simp

theorem ofLine_of_opensTable {line name : List Char} (h : OpensTable line name) :
    Entry.ofLine line = .table name := by
  obtain ⟨inner, htrim, rfl⟩ := h
  simp [Entry.ofLine, htrim, List.getLast?_cons]

theorem opensTable_of_ofLine {line name : List Char} (h : Entry.ofLine line = .table name) :
    OpensTable line name := by
  unfold Entry.ofLine at h
  simp only at h
  split at h
  · cases h
  · split at h
    · rename_i hbrackets
      cases h
      simp only [Bool.and_eq_true, beq_iff_eq] at hbrackets
      obtain ⟨tail, htrim⟩ := List.head?_eq_some_iff.mp hbrackets.1
      rw [htrim] at hbrackets
      -- One bracket alone cannot be both, so the name lies between two.
      rcases List.eq_nil_or_concat tail with rfl | ⟨inner, last, rfl⟩
      · simp at hbrackets
      · have hlast : last = ']' := by simpa [List.getLast?_cons] using hbrackets.2
        exact ⟨inner, by simp [htrim, hlast], by simp [htrim]⟩
    · split at h <;> cases h

theorem ofLine_of_givesValue {line key value : List Char} (h : GivesValue line key value) :
    Entry.ofLine line = .value key value := by
  obtain ⟨hcomment, htable, left, right, htrim, hleft, rfl, rfl⟩ := h
  have hnotable : ∀ name, Entry.ofLine line ≠ .table name :=
    fun name hname => htable name (opensTable_of_ofLine hname)
  have hfull : Text.trim line ≠ [] := by simp [htrim]
  unfold Entry.ofLine at hnotable ⊢
  simp only at hnotable ⊢
  rw [if_neg (by simp [hcomment, hfull])] at hnotable ⊢
  split at hnotable
  · exact absurd rfl (hnotable _)
  · rename_i hbrackets
    rw [if_neg hbrackets, if_pos (by simp [htrim]), htrim, takeWhile_ne_append hleft,
      dropWhile_ne_append hleft]
    rfl

theorem givesValue_of_ofLine {line key value : List Char}
    (h : Entry.ofLine line = .value key value) : GivesValue line key value := by
  have htable : ∀ name, ¬OpensTable line name := by
    intro name hname
    rw [ofLine_of_opensTable hname] at h
    cases h
  unfold Entry.ofLine at h
  simp only at h
  split at h
  · cases h
  · rename_i hblank
    split at h
    · cases h
    · split at h
      · rename_i hmem
        obtain ⟨left, right, htrim, hleft⟩ := List.eq_append_cons_of_mem hmem
        have hcomment : (Text.trim line).head? ≠ some '#' := by
          intro hhead
          simp [hhead] at hblank
        refine ⟨hcomment, htable, left, right, htrim, hleft, ?_⟩
        rw [htrim, takeWhile_ne_append hleft, dropWhile_ne_append hleft] at h
        cases h
        exact ⟨rfl, rfl⟩
      · cases h

theorem ofLine_eq_table_iff {line name : List Char} :
    Entry.ofLine line = .table name ↔ OpensTable line name :=
  ⟨opensTable_of_ofLine, ofLine_of_opensTable⟩

theorem ofLine_eq_value_iff {line key value : List Char} :
    Entry.ofLine line = .value key value ↔ GivesValue line key value :=
  ⟨givesValue_of_ofLine, ofLine_of_givesValue⟩

theorem not_givesValue_of_opensTable {line name key value : List Char}
    (h : OpensTable line name) : ¬GivesValue line key value :=
  fun hvalue => hvalue.2.1 name h

/-! ## The last value of a key -/

def vm : List Char := ['v', 'm']

/-- The last table line of these lines opens a table `[vm]`. -/
def OpenAfter (lines : List (List Char)) : Prop :=
  ∃ before header between, lines = before ++ header :: between ∧ OpensTable header vm ∧
    ∀ line ∈ between, ∀ name, ¬OpensTable line name

/-- Line `i` gives the key a value, in a table `[vm]`. -/
def GivenAt (lines : List (List Char)) (i : Nat) (key value : List Char) : Prop :=
  ∃ line, lines[i]? = some line ∧ GivesValue line key value ∧ OpenAfter (lines.take i)

def LastGiven (lines : List (List Char)) (key value : List Char) : Prop :=
  ∃ i, GivenAt lines i key value ∧ ∀ j other, i < j → ¬GivenAt lines j key other

theorem not_openAfter_nil : ¬OpenAfter [] := by
  rintro ⟨before, header, between, h, -⟩
  simp at h

theorem concat_eq_append_cons {lines before between : List (List Char)} {line header : List Char}
    (h : lines ++ [line] = before ++ header :: between) :
    (line = header ∧ between = []) ∨
      ∃ shorter, between = shorter ++ [line] ∧ lines = before ++ header :: shorter := by
  rcases List.eq_nil_or_concat between with rfl | ⟨shorter, last, rfl⟩
  · obtain ⟨-, hsame⟩ := List.append_inj' h rfl
    exact Or.inl ⟨List.singleton_inj.mp hsame, rfl⟩
  · have hsplit : lines ++ [line] = (before ++ header :: shorter) ++ [last] := by simpa using h
    obtain ⟨hlines, hsame⟩ := List.append_inj' hsplit rfl
    exact Or.inr ⟨shorter, by simpa using hsame.symm, hlines⟩

theorem openAfter_concat_table {lines : List (List Char)} {line name : List Char}
    (h : OpensTable line name) : OpenAfter (lines ++ [line]) ↔ name = vm := by
  constructor
  · rintro ⟨before, header, between, hlines, hheader, hbetween⟩
    rcases concat_eq_append_cons hlines with ⟨rfl, -⟩ | ⟨shorter, rfl, -⟩
    · have hname := (ofLine_of_opensTable h).symm.trans (ofLine_of_opensTable hheader)
      cases hname
      rfl
    · exact absurd h (hbetween line (by simp) name)
  · rintro rfl
    exact ⟨lines, line, [], rfl, h, by simp⟩

theorem openAfter_concat_other {lines : List (List Char)} {line : List Char}
    (h : ∀ name, ¬OpensTable line name) : OpenAfter (lines ++ [line]) ↔ OpenAfter lines := by
  constructor
  · rintro ⟨before, header, between, hlines, hheader, hbetween⟩
    rcases concat_eq_append_cons hlines with ⟨rfl, -⟩ | ⟨shorter, rfl, hshorter⟩
    · exact absurd hheader (h vm)
    · exact ⟨before, header, shorter, hshorter, hheader, fun l hl => hbetween l (by simp [hl])⟩
  · rintro ⟨before, header, between, rfl, hheader, hbetween⟩
    refine ⟨before, header, between ++ [line], by simp, hheader, ?_⟩
    intro l hl
    rcases List.mem_append.mp hl with hl | hl
    · exact hbetween l hl
    · rw [List.mem_singleton.mp hl]
      exact h

section Concat

variable {lines : List (List Char)} {line key value : List Char}

theorem givenAt_concat {i : Nat} :
    GivenAt (lines ++ [line]) i key value ↔
      (i < lines.length ∧ GivenAt lines i key value) ∨
      (i = lines.length ∧ GivesValue line key value ∧ OpenAfter lines) := by
  unfold GivenAt
  rcases Nat.lt_trichotomy i lines.length with hlt | rfl | hgt
  · rw [List.getElem?_append_left hlt, List.take_append_of_le_length (Nat.le_of_lt hlt)]
    simp [hlt, Nat.ne_of_lt hlt]
  · simp
  · have hnone : (lines ++ [line])[i]? = none := List.getElem?_eq_none (by simp; omega)
    simp [hnone]
    omega

theorem lastGiven_concat :
    LastGiven (lines ++ [line]) key value ↔
      (GivesValue line key value ∧ OpenAfter lines) ∨
      ((∀ other, ¬(GivesValue line key other ∧ OpenAfter lines)) ∧ LastGiven lines key value) := by
  unfold LastGiven
  simp only [givenAt_concat]
  constructor
  · rintro ⟨i, ⟨hi, hgiven⟩ | ⟨-, hvalue⟩, hlast⟩
    · -- Nothing behind it gives a value, so the line at the end does not.
      right
      refine ⟨fun other hother => hlast lines.length other hi (Or.inr ⟨rfl, hother⟩), i, hgiven, ?_⟩
      intro j other hj hother
      have hlen : j < lines.length := by
        obtain ⟨l, hl, -⟩ := hother
        exact (List.getElem?_eq_some_iff.mp hl).1
      exact hlast j other hj (Or.inl ⟨hlen, hother⟩)
    · exact Or.inl hvalue
  · rintro (hvalue | ⟨hnone, i, hgiven, hlast⟩)
    · refine ⟨lines.length, Or.inr ⟨rfl, hvalue⟩, ?_⟩
      rintro j other hj (⟨hlt, -⟩ | ⟨rfl, -⟩) <;> omega
    · have hlen : i < lines.length := by
        obtain ⟨l, hl, -⟩ := hgiven
        exact (List.getElem?_eq_some_iff.mp hl).1
      refine ⟨i, Or.inl ⟨hlen, hgiven⟩, ?_⟩
      rintro j other hj (⟨-, hother⟩ | ⟨-, hother⟩)
      · exact hlast j other hj hother
      · exact hnone other hother

end Concat

/-! ## The values that are read -/

/-- Whether a table `[vm]` is open after a line. -/
def Entry.leaves (inside : Bool) : Entry → Bool
  | .table name => name == vm
  | _ => inside

theorem tableValues_append (inside : Bool) (entries more : List Entry) :
    tableValues inside (entries ++ more) =
      tableValues inside entries ++ tableValues (entries.foldl Entry.leaves inside) more := by
  induction entries generalizing inside with
  | nil => rfl
  | cons e rest ih =>
    cases e with
    | nothing => exact ih inside
    | table name => exact ih _
    | value key value =>
      simp only [List.cons_append, tableValues, ih, List.foldl_cons, Entry.leaves]
      split <;> rfl

theorem leaves_iff_openAfter (lines : List (List Char)) :
    (lines.map Entry.ofLine).foldl Entry.leaves false = true ↔ OpenAfter lines := by
  induction lines using List.reverseRecOn with
  | nil => simp [not_openAfter_nil]
  | append_singleton lines line ih =>
    rw [List.map_append, List.foldl_append]
    cases hline : Entry.ofLine line with
    | table name =>
      rw [openAfter_concat_table (opensTable_of_ofLine hline)]
      simp [hline, Entry.leaves]
    | nothing | value =>
      rw [openAfter_concat_other, ← ih]
      · simp [hline, Entry.leaves]
      · intro name hname
        rw [ofLine_of_opensTable hname] at hline
        cases hline

section Put

variable {values : List (List Char × List Char)} {key value : List Char}

theorem keys_put : (put key value values).map Prod.fst =
    if key ∈ values.map Prod.fst then values.map Prod.fst else values.map Prod.fst ++ [key] := by
  induction values with
  | nil => rfl
  | cons entry rest ih =>
    unfold put
    by_cases h : entry.1 = key
    · simp [h]
    · simp only [if_neg h, List.map_cons, ih, List.mem_cons, Ne.symm h, false_or]
      split <;> rfl

theorem nodup_put (h : (values.map Prod.fst).Nodup) :
    ((put key value values).map Prod.fst).Nodup := by
  rw [keys_put]
  split
  · exact h
  · rename_i hnew
    refine List.nodup_append.mpr ⟨h, by simp, ?_⟩
    intro a ha b hb
    rw [List.mem_singleton.mp hb]
    exact ne_of_mem_of_not_mem ha hnew

theorem mem_put (h : (values.map Prod.fst).Nodup) {k v : List Char} :
    (k, v) ∈ put key value values ↔ (k = key ∧ v = value) ∨ (k ≠ key ∧ (k, v) ∈ values) := by
  induction values with
  | nil => simp [put]
  | cons entry rest ih =>
    obtain ⟨k', v'⟩ := entry
    obtain ⟨hnew, hrest⟩ := List.nodup_cons.mp h
    have hother : (k, v) ∈ rest → k ≠ k' := by
      rintro hmem rfl
      exact hnew (List.mem_map.mpr ⟨(k, v), hmem, rfl⟩)
    unfold put
    by_cases hkey : k' = key
    · subst hkey
      simp only [if_true, List.mem_cons, Prod.mk.injEq]
      tauto
    · simp only [if_neg hkey, List.mem_cons, Prod.mk.injEq, ih hrest]
      constructor
      · rintro (⟨rfl, rfl⟩ | hput | ⟨hne, hmem⟩)
        · exact Or.inr ⟨hkey, Or.inl ⟨rfl, rfl⟩⟩
        · exact Or.inl hput
        · exact Or.inr ⟨hne, Or.inr hmem⟩
      · tauto

end Put

/-- The values that are read from some lines. -/
def valuesOf (lines : List (List Char)) : List (List Char × List Char) :=
  (tableValues false (lines.map Entry.ofLine)).foldl
    (fun values (key, value) => put key value values) []

theorem valuesOf_concat (lines : List (List Char)) (line : List Char) :
    valuesOf (lines ++ [line]) =
      (tableValues ((lines.map Entry.ofLine).foldl Entry.leaves false) [Entry.ofLine line]).foldl
        (fun values (key, value) => put key value values) (valuesOf lines) := by
  unfold valuesOf
  rw [List.map_append, tableValues_append, List.foldl_append]
  rfl

theorem nodup_valuesOf (lines : List (List Char)) : ((valuesOf lines).map Prod.fst).Nodup := by
  unfold valuesOf
  apply List.foldlRecOn
    (motive := fun values : List (List Char × List Char) => (values.map Prod.fst).Nodup)
  · simp
  · intro values hvalues entry _
    exact nodup_put hvalues

/-- What is read for a key is its last value in the tables `[vm]`. -/
theorem mem_valuesOf_iff {lines : List (List Char)} {key value : List Char} :
    (key, value) ∈ valuesOf lines ↔ LastGiven lines key value := by
  induction lines using List.reverseRecOn with
  | nil => simp [valuesOf, tableValues, LastGiven, GivenAt]
  | append_singleton lines line ih =>
    rw [valuesOf_concat, lastGiven_concat]
    simp only [← ofLine_eq_value_iff, ← leaves_iff_openAfter, ← ih]
    cases Entry.ofLine line with
    | nothing | table => simp [tableValues]
    | value k v =>
      -- A value counts if the table is open there, and then it takes the place of an older one.
      cases (lines.map Entry.ofLine).foldl Entry.leaves false with
      | false => simp [tableValues]
      | true =>
        simp only [tableValues, if_true, List.foldl_cons, List.foldl_nil,
          mem_put (nodup_valuesOf lines), Entry.value.injEq]
        constructor
        · rintro (⟨rfl, rfl⟩ | ⟨hne, hmem⟩)
          · exact Or.inl ⟨⟨rfl, rfl⟩, trivial⟩
          · exact Or.inr ⟨fun other hother => hne hother.1.1.symm, hmem⟩
        · rintro (⟨⟨rfl, rfl⟩, -⟩ | ⟨hne, hmem⟩)
          · exact Or.inl ⟨rfl, rfl⟩
          · exact Or.inr ⟨fun h => hne v ⟨⟨h.symm, rfl⟩, trivial⟩, hmem⟩

/-! ## Lines that change nothing -/

/-- A blank line, a comment, or a value for a key that is not known. -/
def IdleLine (line : List Char) : Prop :=
  Text.trim line = [] ∨ (Text.trim line).head? = some '#' ∨
    ∃ name value, GivesValue line name value ∧ ∀ key : Key, name ≠ key.name.toList

/-- A table with another name than `vm`, up to the next table line or the end of the file. -/
def OtherTable (table rest : List (List Char)) : Prop :=
  ∃ header body name, table = header :: body ∧ OpensTable header name ∧ name ≠ vm ∧
    (∀ line ∈ body, ∀ name, ¬OpensTable line name) ∧
    ∀ next, rest.head? = some next → ∃ name, OpensTable next name

/-- Lines that may be left out in front of the rest. -/
def Idle (lines rest : List (List Char)) : Prop :=
  (∃ line, lines = [line] ∧ IdleLine line) ∨ OtherTable lines rest

theorem IdleLine.ofLine_ne {line : List Char} (h : IdleLine line) :
    (∀ name, ¬OpensTable line name) ∧
      ∀ (key : Key) (value : List Char), ¬GivesValue line key.name.toList value := by
  rcases h with hblank | hcomment | ⟨name, value, hvalue, hunknown⟩
  · have hnothing : Entry.ofLine line = .nothing := by simp [Entry.ofLine, hblank]
    simp [← ofLine_eq_table_iff, ← ofLine_eq_value_iff, hnothing]
  · have hnothing : Entry.ofLine line = .nothing := by simp [Entry.ofLine, hcomment]
    simp [← ofLine_eq_table_iff, ← ofLine_eq_value_iff, hnothing]
  · refine ⟨hvalue.2.1, fun key other hother => ?_⟩
    have hsame := (ofLine_of_givesValue hvalue).symm.trans (ofLine_of_givesValue hother)
    cases hsame
    exact hunknown key rfl

section Append

variable {before lines rest : List (List Char)} {line key value : List Char}

theorem lastGiven_concat_of_not (h : ∀ other, ¬(GivesValue line key other ∧ OpenAfter lines)) :
    LastGiven (lines ++ [line]) key value ↔ LastGiven lines key value := by
  rw [lastGiven_concat]
  exact ⟨fun hlast => hlast.elim (fun hvalue => absurd hvalue (h value)) And.right,
    fun hlast => Or.inr ⟨h, hlast⟩⟩

theorem lastGiven_append_congr {lines' : List (List Char)}
    (hlast : ∀ value, LastGiven lines key value ↔ LastGiven lines' key value)
    (hopen : OpenAfter lines ↔ OpenAfter lines') (rest : List (List Char)) :
    LastGiven (lines ++ rest) key value ↔ LastGiven (lines' ++ rest) key value := by
  have hboth : (OpenAfter (lines ++ rest) ↔ OpenAfter (lines' ++ rest)) ∧
      ∀ value, LastGiven (lines ++ rest) key value ↔ LastGiven (lines' ++ rest) key value := by
    induction rest using List.reverseRecOn with
    | nil => simpa using ⟨hopen, hlast⟩
    | append_singleton rest line ih =>
      rw [← List.append_assoc, ← List.append_assoc]
      constructor
      · by_cases htable : ∃ name, OpensTable line name
        · obtain ⟨name, hname⟩ := htable
          rw [openAfter_concat_table hname, openAfter_concat_table hname]
        · have hnot := not_exists.mp htable
          rw [openAfter_concat_other hnot, openAfter_concat_other hnot, ih.1]
      · intro value
        simp only [lastGiven_concat, ih.1, ih.2]
  exact hboth.2 value

theorem closed_in_otherTable {header name : List Char} {body : List (List Char)}
    (hheader : OpensTable header name) (hname : name ≠ vm)
    (hbody : ∀ line ∈ body, ∀ name, ¬OpensTable line name) (before : List (List Char))
    (key : List Char) :
    ¬OpenAfter (before ++ header :: body) ∧
      ∀ value, LastGiven (before ++ header :: body) key value ↔ LastGiven before key value := by
  induction body using List.reverseRecOn with
  | nil =>
    refine ⟨fun hopen => hname ((openAfter_concat_table hheader).mp hopen), fun value => ?_⟩
    exact lastGiven_concat_of_not fun other h => not_givesValue_of_opensTable hheader h.1
  | append_singleton body line ih =>
    obtain ⟨hclosed, hlast⟩ := ih fun line hline => hbody line (by simp [hline])
    have hsplit : before ++ header :: (body ++ [line]) = (before ++ header :: body) ++ [line] := by
      simp
    rw [hsplit, openAfter_concat_other (hbody line (by simp))]
    refine ⟨hclosed, fun value => ?_⟩
    rw [lastGiven_concat_of_not fun other h => hclosed h.2, hlast]

theorem lastGiven_idle (h : Idle lines rest) (key : Key) :
    LastGiven (before ++ lines ++ rest) key.name.toList value ↔
      LastGiven (before ++ rest) key.name.toList value := by
  rcases h with ⟨line, rfl, hline⟩ | ⟨header, body, name, rfl, hheader, hname, hbody, hrest⟩
  · obtain ⟨htable, hvalue⟩ := hline.ofLine_ne
    exact lastGiven_append_congr
      (fun value => lastGiven_concat_of_not fun other h => hvalue key other h.1)
      (openAfter_concat_other htable) rest
  · obtain ⟨-, hlast⟩ := closed_in_otherTable hheader hname hbody before key.name.toList
    cases rest with
    | nil => simpa using hlast value
    | cons next rest =>
      -- The table line that ends the other table decides what is open, whatever came before.
      obtain ⟨name, hnext⟩ := hrest next rfl
      have hnone : ∀ lines other,
          ¬(GivesValue next key.name.toList other ∧ OpenAfter lines) :=
        fun lines other h => not_givesValue_of_opensTable hnext h.1
      have hcongr : LastGiven (before ++ header :: body ++ [next] ++ rest) key.name.toList value ↔
          LastGiven (before ++ [next] ++ rest) key.name.toList value := by
        apply lastGiven_append_congr
        · intro value
          rw [lastGiven_concat_of_not (hnone _), lastGiven_concat_of_not (hnone _), hlast]
        · rw [openAfter_concat_table hnext, openAfter_concat_table hnext]
      simpa using hcongr

end Append

end TapeMachine.Settings
