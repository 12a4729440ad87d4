import Mathlib.Data.List.Nodup
import TapeMachine.Proofs.Tables

/-!
# Settings in layers

A file and then the environment are laid over settings. Each field takes the last value given for
its key and nothing else touches it, so the order in which the values of one layer are put in does
not matter.
-/

namespace TapeMachine

namespace Settings

/-! ## Fields and values -/

inductive Value where
  | number (n : Nat)
  | policy (p : EofPolicy)
  | flag (b : Bool)
deriving DecidableEq

def field (s : Settings) : Key → Value
  | .maxSteps => .number s.maxSteps
  | .eof => .policy s.eof
  | .speedMs => .number s.speedMs
  | .instant => .flag s.instant
  | .tapeSize => .number s.tapeSize
  | .coalesce => .flag s.coalesce

theorem ext_field {s t : Settings} (h : ∀ key, s.field key = t.field key) : s = t := by
  have hmaxSteps := h .maxSteps
  have heof := h .eof
  have hspeed := h .speedMs
  have hinstant := h .instant
  have htape := h .tapeSize
  have hcoalesce := h .coalesce
  cases s
  cases t
  simp_all [field]

def truth? (text : String) : Option Bool :=
  let word := Text.lowered (Text.trimmed text)
  if word ∈ ["true", "1", "yes", "on"] then some true
  else if word ∈ ["false", "0", "no", "off"] then some false
  else none

/-- Any text is a policy: one that is not known means to leave the cell alone. -/
def policy (text : String) : EofPolicy :=
  let word := Text.lowered (Text.trimmed text)
  if word ∈ ["zero", "0"] then .zero
  else if word ∈ ["minus-one", "minusone", "minus_one", "-1", "255"] then .minusOne
  else .unchanged

/-- What a text means as the value of a key, if it is valid. -/
def Key.value? (text : String) : Key → Option Value
  | .maxSteps => (Text.readWord (Text.trimmed text)).map fun n => .number (max n 1)
  | .eof => some (.policy (policy text))
  | .speedMs => (Text.readWord (Text.trimmed text)).map .number
  | .instant | .coalesce => (truth? text).map .flag
  | .tapeSize => ((Text.readWord (Text.trimmed text)).filter (1 ≤ ·)).map .number

theorem truth_eq (text : String) :
    truth text = match truth? text with
      | some b => .ok b
      | none => .error .notTruth := by
  unfold truth truth?
  simp only
  split <;> simp_all

theorem ofSetting_eq (text : String) : EofPolicy.ofSetting text = policy text := by
  unfold EofPolicy.ofSetting policy
  simp only
  split <;> simp_all

theorem cellCount_eq (text : String) :
    cellCount text = match Text.readWord (Text.trimmed text) with
      | some 0 => .error .noCell
      | some n => .ok n
      | none => .error .notCount := by
  unfold cellCount word
  cases Text.readWord (Text.trimmed text) with
  | none => rfl
  | some n => cases n <;> rfl

theorem set_of_valid {key : Key} {text : String} {v : Value} (s : Settings)
    (h : key.value? text = some v) : ∃ t, s.set text key = .ok t ∧ t.field key = v := by
  cases key with
  | maxSteps =>
    simp only [Key.value?, Option.map_eq_some_iff] at h
    obtain ⟨n, hn, rfl⟩ := h
    exact ⟨{ s with maxSteps := max n 1 }, by simp [set, word, hn, Except.map], rfl⟩
  | eof =>
    simp only [Key.value?, Option.some.injEq] at h
    exact ⟨{ s with eof := .ofSetting text }, by simp only [set],
      by simp only [field, ofSetting_eq, h]⟩
  | speedMs =>
    simp only [Key.value?, Option.map_eq_some_iff] at h
    obtain ⟨n, hn, rfl⟩ := h
    exact ⟨{ s with speedMs := n }, by simp [set, word, hn, Except.map], rfl⟩
  | instant =>
    simp only [Key.value?, Option.map_eq_some_iff] at h
    obtain ⟨b, hb, rfl⟩ := h
    exact ⟨{ s with instant := b }, by simp [set, truth_eq, hb, Except.map], rfl⟩
  | tapeSize =>
    simp only [Key.value?, Option.map_eq_some_iff, Option.filter_eq_some_iff] at h
    obtain ⟨n, ⟨hn, hpos⟩, rfl⟩ := h
    refine ⟨{ s with tapeSize := n }, ?_, rfl⟩
    cases n with
    | zero => simp at hpos
    | succ n => simp [set, cellCount_eq, hn, Except.map]
  | coalesce =>
    simp only [Key.value?, Option.map_eq_some_iff] at h
    obtain ⟨b, hb, rfl⟩ := h
    exact ⟨{ s with coalesce := b }, by simp [set, truth_eq, hb, Except.map], rfl⟩

theorem exists_of_map_eq_ok {ε α β : Type} {x : Except ε α} {f : α → β} {b : β}
    (h : x.map f = .ok b) : ∃ a, f a = b := by
  cases x with
  | error e => cases h
  | ok a => exact ⟨a, Except.ok.inj h⟩

theorem field_of_set {s t : Settings} {text : String} {key other : Key}
    (h : s.set text key = .ok t) (hother : other ≠ key) : t.field other = s.field other := by
  cases key with
  | eof =>
    simp only [set, Except.ok.injEq] at h
    subst h
    cases other <;> simp_all [field]
  | maxSteps | speedMs | instant | tapeSize | coalesce =>
    simp only [set] at h
    obtain ⟨v, rfl⟩ := exists_of_map_eq_ok h
    cases other <;> simp_all [field]

theorem set_of_invalid {key : Key} {text : String} (s : Settings) (h : key.value? text = none) :
    ∃ fault, s.set text key = .error fault := by
  cases key with
  | maxSteps =>
    simp only [Key.value?, Option.map_eq_none_iff] at h
    exact ⟨.notPositive, by simp [set, word, h, Except.map]⟩
  | eof => simp [Key.value?] at h
  | speedMs =>
    simp only [Key.value?, Option.map_eq_none_iff] at h
    exact ⟨.notDelay, by simp [set, word, h, Except.map]⟩
  | instant | coalesce =>
    simp only [Key.value?, Option.map_eq_none_iff] at h
    exact ⟨.notTruth, by simp [set, truth_eq, h, Except.map]⟩
  | tapeSize =>
    cases hn : Text.readWord (Text.trimmed text) with
    | none => exact ⟨.notCount, by simp [set, cellCount_eq, hn, Except.map]⟩
    | some n =>
      cases n with
      | zero => exact ⟨.noCell, by simp [set, cellCount_eq, hn, Except.map]⟩
      | succ n => simp [Key.value?, hn] at h

/-! ## Lists of values -/

theorem Key.ofName?_eq_some_iff {name : String} {key : Key} :
    Key.ofName? name = some key ↔ name = key.name := by
  constructor
  · intro h
    unfold Key.ofName? at h
    have hname := List.find?_some h
    exact (beq_iff_eq.mp hname).symm
  · rintro rfl
    cases key <;> rfl

theorem Key.ofName?_eq_none_iff {name : String} :
    Key.ofName? name = none ↔ ∀ key : Key, name ≠ key.name := by
  rw [Option.eq_none_iff_forall_ne_some]
  exact forall_congr' fun key => not_congr Key.ofName?_eq_some_iff

theorem Key.name_injective {key other : Key} (h : key.name = other.name) : key = other := by
  have hsame := Key.ofName?_eq_some_iff.mpr h
  rw [Key.ofName?_eq_some_iff.mpr rfl] at hsame
  exact Option.some.inj hsame

/-- One of the assignments gives the key this value. -/
def Gives (assignments : List Assignment) (key : Key) (text : String) : Prop :=
  ∃ a ∈ assignments, a.name = key.name ∧ a.value = text

theorem gives_cons {a : Assignment} {rest : List Assignment} {key : Key} {text : String} :
    Gives (a :: rest) key text ↔ (a.name = key.name ∧ a.value = text) ∨ Gives rest key text := by
  simp [Gives]

/-- Settings `t` hold what the assignments give, and else what `s` holds. -/
def Holds (s : Settings) (assignments : List Assignment) (t : Settings) : Prop :=
  ∀ key, (∀ text, Gives assignments key text → key.value? text = some (t.field key)) ∧
    ((∀ text, ¬Gives assignments key text) → t.field key = s.field key)

section Assign

variable {s t : Settings} {a : Assignment} {rest : List Assignment}

theorem assign_cases (s : Settings) (a : Assignment) :
    ((∀ key : Key, a.name ≠ key.name) ∧ s.assign a = .ok s) ∨
    (∃ key : Key, a.name = key.name ∧ key.value? a.value = none ∧
      ∃ fault, s.assign a = .error ⟨a, fault⟩) ∨
    (∃ (key : Key) (t : Settings), a.name = key.name ∧ key.value? a.value = some (t.field key) ∧
      (∀ other, other ≠ key → t.field other = s.field other) ∧ s.assign a = .ok t) := by
  unfold assign
  cases hkey : Key.ofName? a.name with
  | none => exact Or.inl ⟨Key.ofName?_eq_none_iff.mp hkey, rfl⟩
  | some key =>
    have hname := Key.ofName?_eq_some_iff.mp hkey
    right
    cases hvalue : key.value? a.value with
    | none =>
      obtain ⟨fault, hset⟩ := set_of_invalid s hvalue
      exact Or.inl ⟨key, hname, hvalue, fault, by simp [hset, Except.mapError]⟩
    | some v =>
      obtain ⟨t, hset, rfl⟩ := set_of_valid s hvalue
      have hothers : ∀ other, other ≠ key → t.field other = s.field other :=
        fun other => field_of_set hset
      exact Or.inr ⟨key, t, hname, hvalue, hothers, by simp [hset, Except.mapError]⟩

theorem assignAll_error {e : Invalid} (h : s.assign a = .error e) :
    (s.assignAll (a :: rest)).2 = .error e := by
  simp only [assignAll, h]

theorem assignAll_cons (h : s.assign a = .ok t) :
    (s.assignAll (a :: rest)).2 = (t.assignAll rest).2 := by
  simp only [assignAll, h]

theorem holds_cons_unknown (h : ∀ key : Key, a.name ≠ key.name) :
    s.Holds (a :: rest) t ↔ s.Holds rest t := by
  simp [Holds, gives_cons, h]

theorem holds_cons_known {key : Key} {s' : Settings} (hname : a.name = key.name)
    (hnew : ∀ text, ¬Gives rest key text) (hvalue : key.value? a.value = some (s'.field key))
    (hothers : ∀ other, other ≠ key → s'.field other = s.field other) :
    s.Holds (a :: rest) t ↔ s'.Holds rest t := by
  apply forall_congr'
  intro other
  simp only [gives_cons, hname]
  by_cases hkey : other = key
  · subst hkey
    simp [hnew, hvalue]
    exact eq_comm
  · have hne : key.name ≠ other.name := fun h => hkey (Key.name_injective h).symm
    simp [hne, hothers other hkey]

end Assign

theorem assignAll_eq_ok_iff {s t : Settings} {assignments : List Assignment}
    (hnodup : (assignments.map Assignment.name).Nodup) :
    (s.assignAll assignments).2 = .ok t ↔ s.Holds assignments t := by
  induction assignments generalizing s with
  | nil =>
    have hiff : s.Holds [] t ↔ ∀ key, t.field key = s.field key := by simp [Holds, Gives]
    rw [hiff]
    constructor
    · intro h
      cases h
      exact fun key => rfl
    · intro h
      rw [ext_field h]
      rfl
  | cons a rest ih =>
    obtain ⟨hnew, hrest⟩ := List.nodup_cons.mp hnodup
    rcases s.assign_cases a with ⟨hunknown, hassign⟩ | ⟨key, hname, hvalue, fault, hassign⟩ |
      ⟨key, s', hname, hvalue, hothers, hassign⟩
    · rw [assignAll_cons hassign, ih hrest, holds_cons_unknown hunknown]
    · rw [assignAll_error hassign]
      constructor
      · intro h
        cases h
      · intro h
        have := (h key).1 a.value (gives_cons.mpr (Or.inl ⟨hname, rfl⟩))
        rw [hvalue] at this
        cases this
    · have hfresh : ∀ text, ¬Gives rest key text := by
        rintro text ⟨b, hb, hbname, -⟩
        exact hnew (List.mem_map.mpr ⟨b, hb, hbname.trans hname.symm⟩)
      rw [assignAll_cons hassign, ih hrest]
      exact (holds_cons_known hname hfresh hvalue hothers).symm

theorem exists_assignAll_iff {s : Settings} {assignments : List Assignment} :
    (∃ t, (s.assignAll assignments).2 = .ok t) ↔
      ∀ key text, Gives assignments key text → (key.value? text).isSome = true := by
  induction assignments generalizing s with
  | nil => simp [assignAll, Gives]
  | cons a rest ih =>
    simp only [gives_cons]
    rcases s.assign_cases a with ⟨hunknown, hassign⟩ | ⟨key, hname, hvalue, fault, hassign⟩ |
      ⟨key, s', hname, hvalue, -, hassign⟩
    · rw [assignAll_cons hassign, ih]
      simp [hunknown]
    · rw [assignAll_error hassign]
      constructor
      · rintro ⟨t, h⟩
        cases h
      · intro h
        have := h key a.value (Or.inl ⟨hname, rfl⟩)
        rw [hvalue] at this
        cases this
    · rw [assignAll_cons hassign, ih]
      constructor
      · rintro h other text (⟨hother, rfl⟩ | hgives)
        · rw [← Key.name_injective (hname.symm.trans hother), hvalue]
          rfl
        · exact h other text hgives
      · intro h other text hgives
        exact h other text (Or.inr hgives)

/-! ## The two layers -/

def Key.envName? : Key → Option String
  | .maxSteps => some "BFVM_MAX_STEPS"
  | .eof => some "BFVM_EOF"
  | .speedMs => some "BFVM_SPEED_MS"
  | .instant => some "BFVM_INSTANT"
  | .tapeSize => some "BFVM_TAPE_SIZE"
  | .coalesce => none

theorem mem_environmentKeys {var : String} {key : Key} :
    (var, key) ∈ environmentKeys ↔ key.envName? = some var := by
  cases key <;> simp [environmentKeys, Key.envName?, eq_comm]

theorem gives_environment {lookup : String → Option String} {key : Key} {text : String} :
    Gives (environment lookup) key text ↔ key.envName?.bind lookup = some text := by
  unfold Gives environment
  simp only [List.mem_filterMap, Option.map_eq_some_iff, Option.bind_eq_some_iff, Prod.exists,
    mem_environmentKeys]
  constructor
  · rintro ⟨a, ⟨var, key', hvar, value, hvalue, rfl⟩, hname, rfl⟩
    rw [← Key.name_injective hname]
    exact ⟨var, hvar, hvalue⟩
  · rintro ⟨var, hvar, hvalue⟩
    exact ⟨_, ⟨var, key, hvar, text, hvalue, rfl⟩, rfl, rfl⟩

theorem nodup_environment (lookup : String → Option String) :
    ((environment lookup).map Assignment.name).Nodup := by
  have hkeys : environmentKeys.Pairwise fun a b => a.2.name ≠ b.2.name := by decide
  apply List.Pairwise.map
  · exact fun a b h => h
  · unfold environment
    apply List.Pairwise.filterMap _ _ hkeys
    rintro ⟨var, key⟩ ⟨var', key'⟩ hne a ha b hb
    obtain ⟨value, -, rfl⟩ := Option.map_eq_some_iff.mp ha
    obtain ⟨value', -, rfl⟩ := Option.map_eq_some_iff.mp hb
    exact hne

theorem gives_file {content origin text : String} {key : Key} :
    Gives (file content origin) key text ↔
      LastGiven (Text.lines content.toList) key.name.toList text.toList := by
  rw [← mem_valuesOf_iff]
  unfold Gives file
  constructor
  · rintro ⟨a, ha, hname, rfl⟩
    obtain ⟨⟨k, v⟩, hmem, rfl⟩ := List.mem_map.mp ha
    simp only at hname ⊢
    rw [← hname, String.toList_ofList, String.toList_ofList]
    exact hmem
  · intro hmem
    exact ⟨_, List.mem_map.mpr ⟨_, hmem, rfl⟩, String.ofList_toList, String.ofList_toList⟩

theorem nodup_file (content origin : String) :
    ((file content origin).map Assignment.name).Nodup := by
  have hnames : (file content origin).map Assignment.name =
      ((valuesOf (Text.lines content.toList)).map Prod.fst).map String.ofList := by
    unfold file
    rw [List.map_map, List.map_map]
    rfl
  rw [hnames]
  exact (nodup_valuesOf _).map fun a b => String.ofList_injective

theorem gives_perm {l l' : List Assignment} (h : l.Perm l') {key : Key} {text : String} :
    Gives l key text ↔ Gives l' key text := by
  simp only [Gives, h.mem_iff]

theorem Holds.one_le_maxSteps {s t : Settings} {assignments : List Assignment}
    (h : s.Holds assignments t) (hs : 1 ≤ s.maxSteps) : 1 ≤ t.maxSteps := by
  by_cases hgives : ∃ text, Gives assignments .maxSteps text
  · obtain ⟨text, htext⟩ := hgives
    have hvalue := (h .maxSteps).1 text htext
    simp only [Key.value?, field, Option.map_eq_some_iff, Value.number.injEq] at hvalue
    obtain ⟨n, -, hn⟩ := hvalue
    omega
  · have hfield := (h .maxSteps).2 (not_exists.mp hgives)
    simp only [field, Value.number.injEq] at hfield
    omega

theorem Holds.one_le_tapeSize {s t : Settings} {assignments : List Assignment}
    (h : s.Holds assignments t) (hs : 1 ≤ s.tapeSize) : 1 ≤ t.tapeSize := by
  by_cases hgives : ∃ text, Gives assignments .tapeSize text
  · obtain ⟨text, htext⟩ := hgives
    have hvalue := (h .tapeSize).1 text htext
    simp only [Key.value?, field, Option.map_eq_some_iff, Option.filter_eq_some_iff,
      Value.number.injEq, decide_eq_true_eq] at hvalue
    obtain ⟨n, ⟨-, hpos⟩, hn⟩ := hvalue
    omega
  · have hfield := (h .tapeSize).2 (not_exists.mp hgives)
    simp only [field, Value.number.injEq] at hfield
    omega

end Settings

open Settings in
/-- Settings are laid over one another field by field. The values of a file may be put in in any
order: they are accepted exactly when the last value of each known key in the tables `[vm]` is
valid. After the file and the environment, a field holds the value of its variable, else the last
value in the file, else what it held before. Blank lines, comments, unknown keys and other tables
can be left out, and from the defaults on there is always a step and a cell. -/
theorem settings_layered (s : Settings) (content origin : String)
    (lookup : String → Option String) (order : List Assignment)
    (horder : order.Perm (file content origin)) :
    let lines := Text.lines content.toList
    (∀ t, (s.assignAll order).2 = .ok t ↔ (s.assignAll (file content origin)).2 = .ok t) ∧
    ((∃ t, (s.assignAll order).2 = .ok t) ↔
      ∀ (key : Key) (text : String), LastGiven lines key.name.toList text.toList →
        (key.value? text).isSome = true) ∧
    (∀ t u, (s.assignAll order).2 = .ok t → (t.assignAll (environment lookup)).2 = .ok u →
      (∀ key : Key,
        (∀ text, key.envName?.bind lookup = some text →
          key.value? text = some (u.field key)) ∧
        (key.envName?.bind lookup = none →
          (∀ text : String, LastGiven lines key.name.toList text.toList →
            key.value? text = some (u.field key)) ∧
          ((∀ text : String, ¬LastGiven lines key.name.toList text.toList) →
            u.field key = s.field key))) ∧
      (s = {} → 1 ≤ u.maxSteps ∧ 1 ≤ u.tapeSize)) ∧
    (∀ before idle rest shorter, lines = before ++ idle ++ rest → Idle idle rest →
      Text.lines shorter.toList = before ++ rest →
      ∀ t, (s.assignAll (file shorter origin)).2 = .ok t ↔ (s.assignAll order).2 = .ok t) := by
  intro lines
  have hnodup : (order.map Assignment.name).Nodup :=
    (horder.map Assignment.name).nodup_iff.mpr (nodup_file content origin)
  have hgives : ∀ key text, Gives order key text ↔
      LastGiven lines key.name.toList text.toList :=
    fun key text => (gives_perm horder).trans gives_file
  refine ⟨?_, ?_, ?_, ?_⟩
  · -- Settings that hold the values do not depend on the order of these.
    intro t
    rw [assignAll_eq_ok_iff hnodup, assignAll_eq_ok_iff (nodup_file content origin)]
    simp only [Holds, gives_perm horder]
  · rw [exists_assignAll_iff]
    simp only [hgives]
  · intro t u ht hu
    rw [assignAll_eq_ok_iff hnodup] at ht
    rw [assignAll_eq_ok_iff (nodup_environment lookup)] at hu
    constructor
    · intro key
      obtain ⟨hset, hunset⟩ := hu key
      obtain ⟨hfile, hkept⟩ := ht key
      simp only [gives_environment, hgives] at hset hunset hfile hkept
      refine ⟨hset, ?_⟩
      -- Without a variable the environment leaves what the file has given.
      intro hnone
      rw [hunset (by simp [hnone])]
      exact ⟨hfile, hkept⟩
    · rintro rfl
      exact ⟨hu.one_le_maxSteps (ht.one_le_maxSteps (by decide)),
        hu.one_le_tapeSize (ht.one_le_tapeSize (by decide))⟩
  · intro before idle rest shorter hlines hidle hshorter t
    rw [assignAll_eq_ok_iff (nodup_file shorter origin), assignAll_eq_ok_iff hnodup]
    simp only [Holds, gives_file, hgives, hshorter, hlines, lastGiven_idle hidle]

open Settings in
theorem settings_layered_backwards :
    let content :=
      "[vm]\nmax_steps = 5\n# later\n[other]\ntape_size = 0\n [vm]\ntape_size=9\nmax_steps = 0 # one"
    let order := (file content "").reverse
    let lookup := fun name => if name = "BFVM_TAPE_SIZE" then some "3" else none
    order.Perm (file content "") ∧ ∃ t u,
      (({} : Settings).assignAll order).2 = .ok t ∧
      (t.assignAll (environment lookup)).2 = .ok u ∧
      t.tapeSize = 9 ∧ u.field .tapeSize = .number 3 ∧ 1 ≤ u.maxSteps := by
  intro content order lookup
  have hperm : order.Perm (file content "") := List.reverse_perm _
  obtain ⟨-, -, hlayers, -⟩ := settings_layered {} content "" lookup order hperm
  have ht : (({} : Settings).assignAll order).2 = .ok { maxSteps := 1, tapeSize := 9 } := by
    decide +kernel
  have hu : (({ maxSteps := 1, tapeSize := 9 } : Settings).assignAll (environment lookup)).2 =
      .ok { maxSteps := 1, tapeSize := 3 } := by
    decide +kernel
  obtain ⟨hfields, hbounds⟩ := hlayers _ _ ht hu
  have hthree : Key.tapeSize.value? "3" = some (.number 3) := by decide +kernel
  have htape := (hfields .tapeSize).1 "3" rfl
  rw [hthree] at htape
  exact ⟨hperm, _, _, ht, hu, rfl, (Option.some.inj htape).symm, (hbounds rfl).1⟩

end TapeMachine
