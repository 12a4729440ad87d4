import TapeMachine.Proofs.Tree

/-!
# Nested brackets

The pass over the brackets accepts the balanced lists and no others, and what it pairs are the
brackets that enclose something balanced. Where it fails, it fails at the first `]` that nothing
opens, or else at the last `[` that nothing closes.
-/

namespace TapeMachine

/-! ## Balanced instructions -/

/-- However far the instructions are read, no more brackets have been closed than opened. -/
def Covered (ops : List Instruction) : Prop :=
  ∀ n, (ops.take n).count .loopClose ≤ (ops.take n).count .loopOpen

structure Balanced (ops : List Instruction) : Prop where
  covered : Covered ops
  even : ops.count .loopOpen = ops.count .loopClose

theorem balanced_nil : Balanced [] :=
  ⟨by simp [Covered], rfl⟩

theorem balanced_primitive (p : Primitive) : Balanced [p.instruction] := by
  have hopen := List.count_eq_zero_of_not_mem (a := .loopOpen) (l := [p.instruction])
    (by simpa using p.instruction_ne_loopOpen.symm)
  have hclose := List.count_eq_zero_of_not_mem (a := .loopClose) (l := [p.instruction])
    (by simpa using p.instruction_ne_loopClose.symm)
  refine ⟨fun n => ?_, by rw [hopen, hclose]⟩
  have := (List.take_sublist n [p.instruction]).count_le .loopClose
  omega

theorem Covered.append {a b : List Instruction} (ha : Covered a) (hb : Covered b) :
    Covered (a ++ b) := by
  intro n
  have := ha n
  have := hb (n - a.length)
  simp only [List.take_append, List.count_append]
  omega

theorem Covered.cons_loopOpen {ops : List Instruction} (h : Covered ops) :
    Covered (.loopOpen :: ops) := by
  rintro (_ | n)
  · simp
  · have := h n
    simp
    omega

theorem Balanced.append {a b : List Instruction} (ha : Balanced a) (hb : Balanced b) :
    Balanced (a ++ b) := by
  refine ⟨ha.covered.append hb.covered, ?_⟩
  rw [List.count_append, List.count_append, ha.even, hb.even]

theorem Balanced.wrap {inside : List Instruction} (h : Balanced inside) :
    Balanced (.loopOpen :: inside ++ [.loopClose]) := by
  constructor
  · rintro (_ | n)
    · simp
    · have := h.covered n
      have := (List.take_sublist (n - inside.length) [Instruction.loopClose]).count_le .loopClose
      simp [List.take_append] at *
      omega
  · simp [h.even]

theorem Balanced.drop_le {ops : List Instruction} (h : Balanced ops) (n : Nat) :
    (ops.drop n).count .loopOpen ≤ (ops.drop n).count .loopClose := by
  have hcovered := h.covered n
  have hsplit (op : Instruction) :
      ops.count op = (ops.take n).count op + (ops.drop n).count op := by
    rw [← List.count_append, List.take_append_drop]
  have heven := h.even
  rw [hsplit .loopOpen, hsplit .loopClose] at heven
  omega

theorem Balanced.not_covered_loopClose {before : List Instruction} (h : Balanced before)
    (later : List Instruction) : ¬ Covered (before ++ .loopClose :: later) := by
  intro hcovered
  have hread :
      (before ++ .loopClose :: later).take (before.length + 1) = before ++ [.loopClose] := by
    simp [List.take_append, List.take_of_length_le]
  have hcount := hcovered (before.length + 1)
  have heven := h.even
  simp [hread] at hcount
  omega

/-! ## Brackets that enclose something balanced -/

structure Encloses (ops : List Instruction) (opening closing : Nat) : Prop where
  lt : opening < closing
  opens : ops[opening]? = some .loopOpen
  closes : ops[closing]? = some .loopClose
  inside : Balanced ((ops.take closing).drop (opening + 1))

section Encloses

variable {ops : List Instruction} {i k i' k' : Nat}

theorem Encloses.lt_length (h : Encloses ops i k) : k < ops.length :=
  (List.getElem?_eq_some_iff.mp h.closes).1

theorem Encloses.append (h : Encloses ops i k) (later : List Instruction) :
    Encloses (ops ++ later) i k := by
  have hk := h.lt_length
  have hi := h.lt
  refine ⟨h.lt, ?_, ?_, ?_⟩
  · rw [List.getElem?_append_left (by omega), h.opens]
  · rw [List.getElem?_append_left hk, h.closes]
  · rw [List.take_append_of_le_length (by omega)]
    exact h.inside

theorem encloses_wrap {before inside : List Instruction} (h : Balanced inside) :
    Encloses (before ++ .loopOpen :: inside ++ [.loopClose]) before.length
      (before ++ .loopOpen :: inside).length := by
  refine ⟨by simp, by simp, by simp, ?_⟩
  rw [List.take_left]
  simpa using h

theorem Encloses.nested (h : Encloses ops i k) (h' : Encloses ops i' k') (hlo : i < i')
    (hhi : i' < k) : k' < k := by
  apply Nat.lt_of_not_le
  intro hle
  have hlt := h.lt_length
  have hopen : ops.drop i' = .loopOpen :: ops.drop (i' + 1) := by
    obtain ⟨hi', heq⟩ := List.getElem?_eq_some_iff.mp h'.opens
    rw [List.drop_eq_getElem_cons hi', heq]
  -- From the inner `[` on as many brackets are closed as opened, but the inner `[` itself is one
  -- that nothing closes up to there.
  have houter := h.inside.drop_le (i' - (i + 1))
  have hinner := h'.inside.covered (k - (i' + 1))
  rw [List.drop_drop, Nat.add_sub_of_le hlo, List.drop_take, hopen,
    show k - i' = k - (i' + 1) + 1 by omega] at houter
  rw [List.drop_take, List.take_take, Nat.min_eq_left (by omega)] at hinner
  simp at houter
  omega

theorem Encloses.not_closed_later (h : Encloses ops i k) (h' : Encloses ops i k') : ¬ k < k' := by
  intro hlt
  have hi := h.lt
  have hclose : (ops.drop (i + 1))[k - (i + 1)]? = some .loopClose := by
    rw [List.getElem?_drop, Nat.add_sub_of_le hi, h.closes]
  have heven := h.inside.even
  have hcovered := h'.inside.covered (k - (i + 1) + 1)
  rw [List.drop_take] at heven
  rw [List.drop_take, List.take_take, Nat.min_eq_left (by omega), List.take_add_one,
    hclose] at hcovered
  simp at hcovered
  omega

theorem Encloses.closing_unique (h : Encloses ops i k) (h' : Encloses ops i k') : k = k' := by
  have := h.not_closed_later h'
  have := h'.not_closed_later h
  omega

theorem Encloses.opening_unique (h : Encloses ops i k) (h' : Encloses ops i' k) : i = i' := by
  have hi := h.lt
  have hi' := h'.lt
  rcases Nat.lt_trichotomy i i' with hlt | heq | hgt
  · exact absurd (h.nested h' hlt hi') (Nat.lt_irrefl k)
  · exact heq
  · exact absurd (h'.nested h hgt hi) (Nat.lt_irrefl k)

end Encloses

/-! ## Brackets that are still open -/

/-- The `[` that are still open, the last one first: something balanced stands before, between and
behind them. -/
inductive Opens : List Instruction → List Nat → Prop where
  | none {ops : List Instruction} (whole : Balanced ops) : Opens ops []
  | more {before inside : List Instruction} {opened : List Nat} (outer : Opens before opened)
      (inner : Balanced inside) : Opens (before ++ .loopOpen :: inside) (before.length :: opened)

section Opens

variable {ops : List Instruction} {opened : List Nat} {i : Nat}

theorem Opens.append (h : Opens ops opened) {later : List Instruction} (hlater : Balanced later) :
    Opens (ops ++ later) opened := by
  rcases h with whole | ⟨outer, inner⟩
  · exact .none (whole.append hlater)
  · rw [List.append_assoc, List.cons_append]
    exact .more outer (inner.append hlater)

theorem Opens.loopOpen (h : Opens ops opened) : Opens (ops ++ [.loopOpen]) (ops.length :: opened) :=
  .more h balanced_nil

theorem Opens.loopClose (h : Opens ops (i :: opened)) :
    Opens (ops ++ [.loopClose]) opened ∧ Encloses (ops ++ [.loopClose]) i ops.length := by
  rcases h with _ | ⟨outer, inner⟩
  refine ⟨?_, encloses_wrap inner⟩
  rw [List.append_assoc]
  exact outer.append inner.wrap

theorem Opens.covered (h : Opens ops opened) : Covered ops := by
  induction h with
  | none whole => exact whole.covered
  | more outer inner ih => exact ih.append inner.covered.cons_loopOpen

end Opens

namespace Jumps

/-! ## The pass -/

/-- What a pass knows when it has gone over `seen`. -/
structure Pass.Knows (p : Pass) (seen : List Instruction) : Prop where
  size : p.partners.size = seen.length
  opened : Opens seen p.opened
  paired : ∀ i k, p.partners[i]? = some (some k) → Encloses seen i k ∨ Encloses seen k i
  complete : ∀ i op, seen[i]? = some op → op = .loopOpen ∨ op = .loopClose →
    i ∈ p.opened ∨ ∃ k, p.partners[i]? = some (some k)

theorem Pass.knows_nothing : Pass.Knows {} [] :=
  ⟨rfl, .none balanced_nil, by simp, by simp⟩

theorem getElem?_concat_cases {seen : List Instruction} {op x : Instruction} {i : Nat}
    (h : (seen ++ [op])[i]? = some x) : seen[i]? = some x ∨ i = seen.length ∧ op = x := by
  rw [List.getElem?_append] at h
  split at h
  · exact Or.inl h
  · obtain ⟨hi, hop⟩ := List.getElem?_eq_some_iff.mp h
    simp at hi hop
    exact Or.inr ⟨by omega, hop⟩

section Pass

variable {p q : Pass} {seen ops : List Instruction} {op : Instruction} {e : BracketError}

theorem Pass.Knows.push_none (h : p.Knows seen) {opened : List Nat}
    (hopened : Opens (seen ++ [op]) opened) (hkept : ∀ i ∈ p.opened, i ∈ opened)
    (hop : op = .loopOpen ∨ op = .loopClose → seen.length ∈ opened) :
    Pass.Knows ⟨p.partners.push none, opened⟩ (seen ++ [op]) := by
  refine ⟨by simp [h.size], hopened, ?_, ?_⟩
  · intro i k hik
    simp only [Array.getElem?_push] at hik
    split at hik
    · simp at hik
    · rcases h.paired i k hik with hpair | hpair
      · exact Or.inl (hpair.append _)
      · exact Or.inr (hpair.append _)
  · intro i x hx hbracket
    rcases getElem?_concat_cases hx with hold | ⟨rfl, rfl⟩
    · have hlt := (List.getElem?_eq_some_iff.mp hold).1
      have hne : i ≠ p.partners.size := by rw [h.size]; omega
      rcases h.complete i x hold hbracket with hmem | ⟨k, hk⟩
      · exact Or.inl (hkept i hmem)
      · exact Or.inr ⟨k, by simpa [Array.getElem?_push, hne] using hk⟩
    · exact Or.inl (hop hbracket)

theorem Pass.Knows.pair (h : p.Knows seen) {i : Nat} {opened : List Nat}
    (hopened : p.opened = i :: opened) :
    Pass.Knows ⟨(p.partners.setIfInBounds i (some p.partners.size)).push (some i), opened⟩
      (seen ++ [.loopClose]) := by
  have hall := h.opened
  rw [hopened] at hall
  obtain ⟨hrest, hpair⟩ := hall.loopClose
  have hi : i < p.partners.size := h.size ▸ hpair.lt
  refine ⟨by simp [h.size], hrest, ?_, ?_⟩
  · intro j k hjk
    simp only [Array.getElem?_push, Array.size_setIfInBounds, Array.getElem?_setIfInBounds,
      hi] at hjk
    split at hjk
    · -- The `]` itself.
      obtain rfl : i = k := by simpa using hjk
      right
      rwa [‹j = _›, h.size]
    · split at hjk
      · -- The `[` it closes.
        obtain rfl : p.partners.size = k := by simpa using hjk
        left
        rwa [← ‹i = j›, h.size]
      · rcases h.paired j k hjk with hold | hold
        · exact Or.inl (hold.append _)
        · exact Or.inr (hold.append _)
  · intro j x hx hbracket
    simp only [Array.getElem?_push, Array.size_setIfInBounds, Array.getElem?_setIfInBounds, hi]
    rcases getElem?_concat_cases hx with hold | ⟨rfl, rfl⟩
    · have hlt := (List.getElem?_eq_some_iff.mp hold).1
      have hcomplete := h.complete j x hold hbracket
      rw [hopened, List.mem_cons] at hcomplete
      rw [if_neg (by rw [h.size]; omega)]
      -- Of the brackets that were open, the last one has its partner now.
      rcases hcomplete with (rfl | hmem) | ⟨k, hk⟩
      · exact Or.inr ⟨p.partners.size, by simp⟩
      · exact Or.inl hmem
      · right
        split
        · exact ⟨p.partners.size, by simp⟩
        · exact ⟨k, hk⟩
    · exact Or.inr ⟨i, by simp [h.size]⟩

theorem Pass.Knows.advance (h : p.Knows seen) (hp : p.advance op = .ok q) :
    q.Knows (seen ++ [op]) := by
  rcases op.bracket_or_primitive with rfl | rfl | ⟨x, rfl⟩
  · obtain rfl := Except.ok.inj hp
    rw [h.size]
    exact h.push_none h.opened.loopOpen (fun i => List.mem_cons_of_mem _) (by simp)
  · cases hopened : p.opened with
    | nil => simp [Pass.advance, hopened] at hp
    | cons i opened =>
      simp only [Pass.advance, hopened, Except.ok.injEq] at hp
      subst hp
      exact h.pair hopened
  · rw [Pass.advance_primitive] at hp
    obtain rfl := Except.ok.inj hp
    apply h.push_none (h.opened.append (balanced_primitive x)) (by simp)
    rintro (hop | hop)
    · exact absurd hop x.instruction_ne_loopOpen
    · exact absurd hop x.instruction_ne_loopClose

theorem Pass.advance_error (hp : p.advance op = .error e) :
    op = .loopClose ∧ p.opened = [] ∧ e = ⟨.closing, p.partners.size⟩ := by
  rcases op.bracket_or_primitive with rfl | rfl | ⟨x, rfl⟩
  · simp [Pass.advance] at hp
  · cases hopened : p.opened with
    | nil =>
      simp only [Pass.advance, hopened, Except.error.injEq] at hp
      exact ⟨rfl, rfl, hp.symm⟩
    | cons i opened => simp [Pass.advance, hopened] at hp
  · simp [Pass.advance_primitive] at hp

theorem Pass.Knows.run (h : p.Knows seen) (hrun : p.run ops = .ok q) : q.Knows (seen ++ ops) := by
  induction ops generalizing p seen with
  | nil =>
    obtain rfl := Except.ok.inj hrun
    rwa [List.append_nil]
  | cons op ops ih =>
    rw [Pass.run] at hrun
    split at hrun
    · rename_i next hnext
      simpa using ih (h.advance hnext) hrun
    · cases hrun

/-- A pass that fails has gone over something balanced and stands at a `]`. -/
theorem Pass.Knows.run_error (h : p.Knows seen) (hrun : p.run ops = .error e) :
    ∃ before later, ops = before ++ .loopClose :: later ∧ Balanced (seen ++ before) ∧
      e = ⟨.closing, (seen ++ before).length⟩ := by
  induction ops generalizing p seen with
  | nil => cases hrun
  | cons op ops ih =>
    rw [Pass.run] at hrun
    split at hrun
    · rename_i next hnext
      obtain ⟨before, later, rfl, hbalanced, rfl⟩ := ih (h.advance hnext) hrun
      exact ⟨op :: before, later, rfl, by simpa using hbalanced, by simp⟩
    · rename_i e' herror
      obtain ⟨rfl, hopened, rfl⟩ := Pass.advance_error herror
      obtain rfl := Except.error.inj hrun
      have hall := h.opened
      rw [hopened] at hall
      rcases hall with ⟨whole⟩
      exact ⟨[], ops, rfl, by simpa using whole, by simp [h.size]⟩

end Pass

/-- The pairs are those of brackets that enclose something balanced, and each bracket is in one. -/
structure Pairs (j : Jumps) (ops : List Instruction) : Prop where
  paired : ∀ i k, j.partner? i = some k → Encloses ops i k ∨ Encloses ops k i
  complete : ∀ i op, ops[i]? = some op → op = .loopOpen ∨ op = .loopClose →
    ∃ k, j.partner? i = some k

theorem ofInstructions_cases (ops : List Instruction) :
    (∃ j, ofInstructions ops = .ok j ∧ Balanced ops ∧ j.Pairs ops) ∨
    (∃ before later, ops = before ++ .loopClose :: later ∧ Balanced before ∧
      ofInstructions ops = .error ⟨.closing, before.length⟩) ∨
    (∃ before inside, ops = before ++ .loopOpen :: inside ∧ Covered before ∧ Balanced inside ∧
      ofInstructions ops = .error ⟨.opening, before.length⟩) := by
  cases hrun : Pass.run {} ops with
  | error e =>
    obtain ⟨before, later, rfl, hbalanced, rfl⟩ := Pass.knows_nothing.run_error hrun
    exact Or.inr (Or.inl ⟨before, later, rfl, hbalanced, by simp [ofInstructions, hrun]⟩)
  | ok q =>
    have hq : q.Knows ops := Pass.knows_nothing.run hrun
    obtain ⟨partners, opened⟩ := q
    rcases hq with ⟨-, hopened, hpaired, hcomplete⟩
    rcases hopened with whole | ⟨outer, inner⟩
    · left
      refine ⟨⟨partners⟩, by simp [ofInstructions, hrun], whole, ?_, ?_⟩
      · intro i k hk
        exact hpaired i k (Option.join_eq_some_iff.mp hk)
      · intro i op hop hbracket
        obtain hmem | ⟨k, hk⟩ := hcomplete i op hop hbracket
        · cases hmem
        · exact ⟨k, Option.join_eq_some_iff.mpr hk⟩
    · exact Or.inr (Or.inr ⟨_, _, rfl, outer.covered, inner, by simp [ofInstructions, hrun]⟩)

section Pairs

variable {j : Jumps} {ops : List Instruction} {i k : Nat}

theorem Pairs.partner?_eq_some_iff (h : j.Pairs ops) :
    j.partner? i = some k ↔ Encloses ops i k ∨ Encloses ops k i := by
  constructor
  · exact h.paired i k
  · rintro (hpair | hpair)
    · obtain ⟨k', hk'⟩ := h.complete i _ hpair.opens (by simp)
      rcases h.paired i k' hk' with hpair' | hpair'
      · rwa [hpair.closing_unique hpair']
      · exact absurd hpair'.closes (by simp [hpair.opens])
    · obtain ⟨k', hk'⟩ := h.complete i _ hpair.closes (by simp)
      rcases h.paired i k' hk' with hpair' | hpair'
      · exact absurd hpair'.opens (by simp [hpair.closes])
      · rwa [hpair.opening_unique hpair']

theorem Pairs.ahead_iff (h : j.Pairs ops) (hlt : i < k) :
    j.partner? i = some k ↔ Encloses ops i k := by
  rw [h.partner?_eq_some_iff]
  constructor
  · rintro (hpair | hpair)
    · exact hpair
    · exact absurd hpair.lt (Nat.lt_asymm hlt)
  · exact Or.inl

theorem Pairs.exists_partner_iff (h : j.Pairs ops) :
    (∃ k, j.partner? i = some k) ↔
      ops[i]? = some .loopOpen ∨ ops[i]? = some .loopClose := by
  constructor
  · rintro ⟨k, hk⟩
    rcases h.paired i k hk with hpair | hpair
    · exact Or.inl hpair.opens
    · exact Or.inr hpair.closes
  · rintro (hop | hop)
    · exact h.complete i _ hop (by simp)
    · exact h.complete i _ hop (by simp)

theorem Pairs.exists_ahead (h : j.Pairs ops) (hop : ops[i]? = some .loopOpen) :
    ∃ k, Encloses ops i k := by
  obtain ⟨k, hk⟩ := h.complete i _ hop (by simp)
  rcases h.paired i k hk with hpair | hpair
  · exact ⟨k, hpair⟩
  · exact absurd hpair.closes (by simp [hop])

end Pairs

theorem pairs_of_ok {ops : List Instruction} {j : Jumps} (h : ofInstructions ops = .ok j) :
    j.Pairs ops := by
  rcases ofInstructions_cases ops with ⟨j', hj', -, hpairs⟩ | ⟨_, _, -, -, herror⟩ |
    ⟨_, _, -, -, -, herror⟩
  · rw [h] at hj'
    rwa [Except.ok.inj hj']
  · simp [h] at herror
  · simp [h] at herror

theorem exists_ok_iff (ops : List Instruction) :
    (∃ j, ofInstructions ops = .ok j) ↔ Balanced ops := by
  rcases ofInstructions_cases ops with ⟨j, hj, hbalanced, -⟩ |
    ⟨before, later, rfl, hbefore, herror⟩ | ⟨before, inside, rfl, hbefore, hinside, herror⟩
  · exact ⟨fun _ => hbalanced, fun _ => ⟨j, hj⟩⟩
  · simp only [herror, reduceCtorEq, exists_false, false_iff]
    exact fun h => hbefore.not_covered_loopClose later h.covered
  · simp only [herror, reduceCtorEq, exists_false, false_iff]
    intro h
    have := h.even
    have := hinside.even
    have := hbefore before.length
    simp at *
    omega

end Jumps

/-- Brackets are matched if and only if they are balanced, and then as they are nested. Each bracket
has a partner and nothing else has one; a `[` has its partner further on, which has the `[` for its
own; the partner is the `]` up to which everything is balanced. Two pairs lie apart or one lies
inside the other. -/
theorem pairing_is_nesting (ops : List Instruction) :
    ((∃ j, Jumps.ofInstructions ops = .ok j) ↔ Balanced ops) ∧
    ∀ j, Jumps.ofInstructions ops = .ok j →
      (∀ i, (∃ k, j.partner? i = some k) ↔
        ops[i]? = some .loopOpen ∨ ops[i]? = some .loopClose) ∧
      (∀ i k, j.partner? i = some k → j.partner? k = some i) ∧
      (∀ i, ops[i]? = some .loopOpen →
        ∃ k, i < k ∧ ops[k]? = some .loopClose ∧ j.partner? i = some k) ∧
      (∀ i k, i < k → (j.partner? i = some k ↔
        ops[i]? = some .loopOpen ∧ ops[k]? = some .loopClose ∧
          Balanced ((ops.take k).drop (i + 1)))) ∧
      (∀ i k i' k', i < k → i' < k' → j.partner? i = some k → j.partner? i' = some k' → i ≠ i' →
        k < i' ∨ k' < i ∨ (i < i' ∧ k' < k) ∨ (i' < i ∧ k < k')) := by
  refine ⟨Jumps.exists_ok_iff ops, ?_⟩
  intro j hj
  have h := Jumps.pairs_of_ok hj
  refine ⟨fun i => h.exists_partner_iff, ?_, ?_, ?_, ?_⟩
  · intro i k hk
    rw [h.partner?_eq_some_iff] at hk ⊢
    exact hk.symm
  · intro i hop
    obtain ⟨k, hpair⟩ := h.exists_ahead hop
    exact ⟨k, hpair.lt, hpair.closes, (h.ahead_iff hpair.lt).mpr hpair⟩
  · intro i k hlt
    rw [h.ahead_iff hlt]
    exact ⟨fun hpair => ⟨hpair.opens, hpair.closes, hpair.inside⟩,
      fun ⟨hopen, hclose, hinside⟩ => ⟨hlt, hopen, hclose, hinside⟩⟩
  · intro i k i' k' hlt hlt' hk hk' hne
    rw [h.ahead_iff hlt] at hk
    rw [h.ahead_iff hlt'] at hk'
    have hclose : k ≠ i' := fun heq => by simpa [heq, hk'.opens] using hk.closes
    have hclose' : k' ≠ i := fun heq => by simpa [heq, hk.opens] using hk'.closes
    have hin := hk.nested hk'
    have hin' := hk'.nested hk
    omega

end TapeMachine
