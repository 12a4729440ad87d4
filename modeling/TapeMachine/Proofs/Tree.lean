import TapeMachine.Block

/-!
# The tree of a program

The pass over the brackets accepts exactly the instructions of a block, the block is the only one
with these instructions, and the pairs found are those of its loops.
-/

namespace TapeMachine

/-! ## A block is told by its instructions -/

theorem Primitive.instruction_injective {p q : Primitive} (h : p.instruction = q.instruction) :
    p = q := by
  cases p <;> cases q <;> first | rfl | cases h

theorem Primitive.instruction_ne_loopOpen (p : Primitive) : p.instruction ≠ .loopOpen := by
  cases p <;> intro h <;> cases h

theorem Primitive.instruction_ne_loopClose (p : Primitive) : p.instruction ≠ .loopClose := by
  cases p <;> intro h <;> cases h

theorem Instruction.bracket_or_primitive (op : Instruction) :
    op = .loopOpen ∨ op = .loopClose ∨ ∃ p : Primitive, op = p.instruction := by
  cases op with
  | loopOpen => exact Or.inl rfl
  | loopClose => exact Or.inr (Or.inl rfl)
  | right => exact Or.inr (Or.inr ⟨.right, rfl⟩)
  | left => exact Or.inr (Or.inr ⟨.left, rfl⟩)
  | increment => exact Or.inr (Or.inr ⟨.increment, rfl⟩)
  | decrement => exact Or.inr (Or.inr ⟨.decrement, rfl⟩)
  | write => exact Or.inr (Or.inr ⟨.write, rfl⟩)
  | read => exact Or.inr (Or.inr ⟨.read, rfl⟩)

namespace Block

@[simp]
theorem instructions_done : done.instructions = [] := rfl

@[simp]
theorem instructions_first (p : Primitive) (rest : Block) :
    (first p rest).instructions = p.instruction :: rest.instructions := rfl

@[simp]
theorem instructions_loop (body rest : Block) :
    (loop body rest).instructions =
      .loopOpen :: (body.instructions ++ .loopClose :: rest.instructions) := rfl

/-- Where a block has to end: at the end of the text or at a `]` that is not its own. -/
def Stops (rest : List Instruction) : Prop :=
  ∀ op, rest.head? = some op → op = .loopClose

theorem not_stops_primitive (p : Primitive) (rest : List Instruction) :
    ¬ Stops (p.instruction :: rest) := by
  intro h
  exact p.instruction_ne_loopClose (h _ rfl)

theorem not_stops_loopOpen (rest : List Instruction) : ¬ Stops (.loopOpen :: rest) := by
  intro h
  cases h _ rfl

theorem stops_loopClose (rest : List Instruction) : Stops (.loopClose :: rest) := by
  intro op h
  exact (Option.some.inj h).symm

/-- Two blocks with the same text and something behind that ends them are the same. -/
theorem eq_of_append_eq {b c : Block} {r s : List Instruction} (hr : Stops r) (hs : Stops s)
    (h : b.instructions ++ r = c.instructions ++ s) : b = c ∧ r = s := by
  -- Blocks of two kinds differ in the first instruction, or one is over and the other is not.
  induction b generalizing c r s with
  | done =>
    cases c with
    | done => exact ⟨rfl, h⟩
    | first p rest =>
      rw [show r = _ from h] at hr
      exact absurd hr (not_stops_primitive p _)
    | loop body rest =>
      rw [show r = _ from h] at hr
      exact absurd hr (not_stops_loopOpen _)
  | first p rest ih =>
    cases c with
    | done =>
      rw [show s = _ from h.symm] at hs
      exact absurd hs (not_stops_primitive p _)
    | first q rest' =>
      obtain ⟨hop, htail⟩ := List.cons.inj h
      obtain ⟨rfl, rfl⟩ := ih hr hs htail
      exact ⟨by rw [Primitive.instruction_injective hop], rfl⟩
    | loop body rest' => exact absurd (List.cons.inj h).1 p.instruction_ne_loopOpen
  | loop body rest ihbody ihrest =>
    cases c with
    | done =>
      rw [show s = _ from h.symm] at hs
      exact absurd hs (not_stops_loopOpen _)
    | first q rest' => exact absurd (List.cons.inj h).1.symm q.instruction_ne_loopOpen
    | loop body' rest' =>
      simp only [instructions_loop, List.cons_append, List.append_assoc] at h
      -- A body ends at its `]`, which nothing in it can be taken for.
      have htail := (List.cons.inj h).2
      obtain ⟨rfl, hclose⟩ := ihbody (stops_loopClose _) (stops_loopClose _) htail
      obtain ⟨rfl, rfl⟩ := ihrest hr hs (List.cons.inj hclose).2
      exact ⟨rfl, rfl⟩

theorem instructions_injective {b c : Block} (h : b.instructions = c.instructions) : b = c := by
  have hnil : Stops [] := fun op h => nomatch h
  exact (eq_of_append_eq hnil hnil (by rw [h])).1

/-! ## The pass over a block -/

/-- The partner of each instruction of a block whose first one has the index `base`. -/
def partners (base : Nat) : Block → List (Option Nat)
  | done => []
  | first _ rest => none :: rest.partners (base + 1)
  | loop body rest =>
    let close := base + body.instructions.length + 1
    some close :: body.partners (base + 1) ++ some base :: rest.partners (close + 1)

theorem length_partners (b : Block) (base : Nat) :
    (b.partners base).length = b.instructions.length := by
  induction b generalizing base with
  | done => rfl
  | first p rest ih => simp [partners, instructions, ih]
  | loop body rest ihbody ihrest => simp [partners, instructions, ihbody, ihrest]

end Block

namespace Jumps

theorem Pass.advance_primitive (p : Pass) (q : Primitive) :
    p.advance q.instruction = .ok ⟨p.partners.push none, p.opened⟩ := by
  cases q <;> rfl

theorem Pass.run_block (b : Block) (p : Pass) (later : List Instruction) :
    p.run (b.instructions ++ later) =
      Pass.run ⟨p.partners ++ b.partners p.partners.size, p.opened⟩ later := by
  induction b generalizing p later with
  | done => simp [Block.instructions, Block.partners]
  | first q rest ih =>
    simp only [Block.instructions_first, List.cons_append, Pass.run, Pass.advance_primitive]
    rw [ih]
    simp [Block.partners]
  | loop body rest ihbody ihrest =>
    have hclose : (p.partners.push none ++ body.partners (p.partners.size + 1)).size =
        p.partners.size + body.instructions.length + 1 := by
      rw [← Array.length_toList]
      simp [Block.length_partners]
      omega
    simp only [Block.instructions_loop, List.cons_append, List.append_assoc, Pass.run, Pass.advance]
    rw [ihbody]
    simp only [Pass.run, Pass.advance]
    rw [ihrest]
    congr 2
    apply Array.ext'
    simp [Block.partners, hclose]

theorem ofInstructions_block (b : Block) :
    ofInstructions b.instructions = .ok ⟨(b.partners 0).toArray⟩ := by
  have hrun : Pass.run {} b.instructions = .ok ⟨(b.partners 0).toArray, []⟩ := by
    have := Pass.run_block b {} []
    rw [List.append_nil] at this
    rw [this]
    simp [Pass.run]
  unfold ofInstructions
  rw [hrun]

/-- What is left of a text when some brackets are open: a block, and for each of them its `]` and
another block. -/
def closing (first : Block) (rest : List Block) : List Instruction :=
  first.instructions ++ rest.flatMap fun b => .loopClose :: b.instructions

theorem Pass.exists_closing {ops : List Instruction} {p q : Pass} (h : p.run ops = .ok q)
    (hq : q.opened = []) :
    ∃ b rest, rest.length = p.opened.length ∧ ops = closing b rest := by
  induction ops generalizing p with
  | nil =>
    cases h
    exact ⟨.done, [], by rw [hq]; rfl, rfl⟩
  | cons op ops ih =>
    -- What the instruction does to the open brackets decides how the block behind it grows.
    rw [Pass.run] at h
    split at h
    · rename_i next hnext
      obtain ⟨b, rest, hlen, rfl⟩ := ih h
      rcases op.bracket_or_primitive with rfl | rfl | ⟨q, rfl⟩
      · -- A `[`: what comes up to its `]` is its body.
        cases hnext
        cases rest with
        | nil => cases hlen
        | cons c rest =>
          refine ⟨.loop b c, rest, Nat.succ.inj hlen, ?_⟩
          simp [closing]
      · -- A `]`: the block before it is over, with nothing in it.
        cases hopened : p.opened with
        | nil => simp [Pass.advance, hopened] at hnext
        | cons partner opened =>
          simp only [Pass.advance, hopened, Except.ok.injEq] at hnext
          subst hnext
          refine ⟨.done, b :: rest, by rw [List.length_cons, hlen, List.length_cons], ?_⟩
          simp [closing]
      · rw [Pass.advance_primitive] at hnext
        cases hnext
        exact ⟨.first q b, rest, hlen, rfl⟩
    · cases h

theorem exists_block {ops : List Instruction} {j : Jumps} (h : ofInstructions ops = .ok j) :
    ∃ b : Block, b.instructions = ops := by
  unfold ofInstructions at h
  split at h
  · cases h
  · rename_i partners hrun
    obtain ⟨b, rest, hlen, rfl⟩ := Pass.exists_closing hrun rfl
    obtain rfl := List.eq_nil_of_length_eq_zero hlen
    exact ⟨b, by simp [closing]⟩
  · cases h

end Jumps

/-! ## Where a block stands in a program -/

/-- A `[` and the `]` behind it that the program pairs it with. -/
structure Program.Paired (p : Program) (opening closing : Nat) : Prop where
  lt : opening < closing
  isOpen : p.op? opening = some .loopOpen
  isClose : p.op? closing = some .loopClose
  ahead : p.partner? opening = some closing
  back : p.partner? closing = some opening

/-- The block stands in the program from `base` on, and the brackets of its loops are paired. -/
def Block.At (p : Program) (base : Nat) : Block → Prop
  | done => True
  | first op rest => p.op? base = some op.instruction ∧ rest.At p (base + 1)
  | loop body rest =>
    let close := base + body.instructions.length + 1
    p.Paired base close ∧ body.At p (base + 1) ∧ rest.At p (close + 1)

theorem Program.op?_eq (p : Program) (i : Nat) : p.op? i = p.ops[i]? := by
  unfold op? ops
  rw [List.getElem?_map, Array.getElem?_toList]

theorem Program.length_ops (p : Program) : p.ops.length = p.size := by
  unfold ops size
  rw [List.length_map, Array.length_toList]

theorem Block.jumps_eq {p : Program} {b : Block} (h : b.instructions = p.ops) :
    p.jumps = ⟨(b.partners 0).toArray⟩ := by
  have hjumps : Jumps.ofInstructions p.ops = .ok p.jumps := p.jumps_eq
  rw [← h, Jumps.ofInstructions_block] at hjumps
  exact (Except.ok.inj hjumps).symm

theorem Block.partner?_eq {p : Program} {b : Block} (h : b.instructions = p.ops) (i : Nat) :
    p.partner? i = (b.partners 0)[i]?.join := by
  unfold Program.partner? Jumps.partner?
  rw [jumps_eq h, List.getElem?_toArray]

theorem drop_of_append {α : Type} {l s t : List α} {n : Nat} (h : l.drop n = s ++ t) :
    l.drop (n + s.length) = t := by
  rw [← List.drop_drop, h, List.drop_left]

theorem getElem?_of_drop {α : Type} {l t : List α} {a : α} {n : Nat} (h : l.drop n = a :: t) :
    l[n]? = some a := by
  have := congrArg List.head? h
  rwa [List.head?_drop] at this

theorem Block.at_of_drop {p : Program} {b : Block} {base : Nat} {table : List (Option Nat)}
    (htable : ∀ i, p.partner? i = table[i]?.join) {ops : List Instruction}
    {more : List (Option Nat)} (hops : p.ops.drop base = b.instructions ++ ops)
    (hmore : table.drop base = b.partners base ++ more) : b.At p base := by
  induction b generalizing base ops more with
  | done => trivial
  | first op rest ih =>
    refine ⟨?_, ih (drop_of_append (s := [_]) hops) (drop_of_append (s := [_]) hmore)⟩
    rw [Program.op?_eq]
    exact getElem?_of_drop hops
  | loop body rest ihbody ihrest =>
    simp only [instructions_loop, List.cons_append, List.append_assoc] at hops
    simp only [partners, List.cons_append, List.append_assoc] at hmore
    have hin := drop_of_append (s := [_]) hops
    have hmorein := drop_of_append (s := [_]) hmore
    have hclose := drop_of_append hin
    have hmoreclose := drop_of_append hmorein
    rw [List.length_singleton, Nat.add_right_comm] at hclose
    rw [List.length_singleton, length_partners, Nat.add_right_comm] at hmoreclose
    refine ⟨⟨by omega, ?_, ?_, ?_, ?_⟩, ihbody hin hmorein,
      ihrest (drop_of_append (s := [_]) hclose) (drop_of_append (s := [_]) hmoreclose)⟩
    · rw [Program.op?_eq, getElem?_of_drop hops]
    · rw [Program.op?_eq, getElem?_of_drop hclose]
    · rw [htable, getElem?_of_drop hmore]
      rfl
    · rw [htable, getElem?_of_drop hmoreclose]
      rfl

theorem Block.at_zero {p : Program} {b : Block} (h : b.instructions = p.ops) : b.At p 0 := by
  have hops : p.ops.drop 0 = b.instructions ++ [] := by
    rw [List.drop_zero, List.append_nil, h]
  have hmore : (b.partners 0).drop 0 = b.partners 0 ++ [] := by
    rw [List.drop_zero, List.append_nil]
  exact at_of_drop (partner?_eq h) hops hmore

theorem Block.At.exists_paired {p : Program} {b : Block} {base i : Nat} (h : b.At p base)
    (hlo : base ≤ i) (hhi : i < base + b.instructions.length)
    (hop : p.op? i = some .loopOpen ∨ p.op? i = some .loopClose) :
    ∃ j, p.Paired i j ∨ p.Paired j i := by
  induction b generalizing base with
  | done => exact absurd hhi (Nat.not_lt.mpr hlo)
  | first q rest ih =>
    obtain ⟨hhere, hrest⟩ := h
    rcases Nat.eq_or_lt_of_le hlo with rfl | hlt
    · rw [hhere] at hop
      rcases hop with hop | hop
      · exact absurd (Option.some.inj hop) q.instruction_ne_loopOpen
      · exact absurd (Option.some.inj hop) q.instruction_ne_loopClose
    · rw [instructions_first, List.length_cons] at hhi
      exact ih hrest hlt (by omega)
  | loop body rest ihbody ihrest =>
    obtain ⟨hpair, hbody, hrest⟩ := h
    simp only [instructions_loop, List.length_cons, List.length_append] at hhi
    rcases Nat.eq_or_lt_of_le hlo with rfl | hlt
    · exact ⟨_, Or.inl hpair⟩
    · rcases Nat.lt_trichotomy i (base + body.instructions.length + 1) with hin | rfl | hout
      · exact ihbody hbody hlt (by omega)
      · exact ⟨base, Or.inr hpair⟩
      · exact ihrest hrest hout (by omega)

theorem Program.exists_tree (p : Program) : ∃ b : Block, b.instructions = p.ops :=
  Jumps.exists_block p.jumps_eq

theorem Program.exists_paired {p : Program} {i : Nat}
    (hop : p.op? i = some .loopOpen ∨ p.op? i = some .loopClose) :
    ∃ j, p.Paired i j ∨ p.Paired j i := by
  obtain ⟨b, hb⟩ := p.exists_tree
  have hlt : i < p.ops.length := by
    rcases hop with hop | hop
    all_goals
      rw [op?_eq] at hop
      exact (List.getElem?_eq_some_iff.mp hop).1
  exact (Block.at_zero hb).exists_paired (Nat.zero_le i) (by rw [hb]; omega) hop

end TapeMachine
