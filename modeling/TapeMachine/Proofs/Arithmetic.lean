import Mathlib.Algebra.GroupWithZero.Nat
import Mathlib.Data.List.Induction
import TapeMachine.Tape

/-!
# Tape arithmetic

What a sequence of additions, subtractions and moves leaves on a tape can be told by counting. The
moves alone tell where the pointer is, modulo the capacity. A cell is told by the amounts that came
while the pointer was at it, modulo 256.
-/

namespace TapeMachine

namespace Tape

inductive Op where
  | add (amount : Nat)
  | sub (amount : Nat)
  | right
  | left
deriving DecidableEq, Repr

namespace Op

def apply (t : Tape) : Op → Tape
  | add amount => t.add amount
  | sub amount => t.sub amount
  | right => t.moveRight
  | left => t.moveLeft

def added : Op → Nat
  | add amount => amount
  | _ => 0

def subtracted : Op → Nat
  | sub amount => amount
  | _ => 0

end Op

def applyAll (t : Tape) (ops : List Op) : Tape :=
  ops.foldl Op.apply t

/-! ## Counting -/

/-- Where the moves among some operations lead from cell `start`. -/
def place (capacity start : Nat) (ops : List Op) : Int :=
  (start + ops.count .right - ops.count .left) % capacity

/-- The operations that come while the pointer is at cell `j`. -/
def doneAt (capacity start j : Nat) (ops : List Op) : List Op :=
  (ops.zipIdx.filter fun op => place capacity start (ops.take op.2) = j).map Prod.fst

def totalAdded (ops : List Op) : Nat :=
  (ops.map Op.added).sum

def totalSubtracted (ops : List Op) : Nat :=
  (ops.map Op.subtracted).sum

theorem doneAt_concat (capacity start j : Nat) (ops : List Op) (op : Op) :
    doneAt capacity start j (ops ++ [op]) =
      doneAt capacity start j ops ++ if place capacity start ops = j then [op] else [] := by
  have hbefore : (ops.zipIdx.filter fun o => place capacity start ((ops ++ [op]).take o.2) = j) =
      ops.zipIdx.filter fun o => place capacity start (ops.take o.2) = j := by
    apply List.filter_congr
    intro o ho
    rw [List.take_append_of_le_length (Nat.le_of_lt (List.mem_zipIdx' ho).1)]
  unfold doneAt
  rw [List.zipIdx_append, List.filter_append, List.map_append, hbefore]
  congr 1
  split
  · rename_i hhere
    simp [hhere]
  · rename_i helsewhere
    simp [helsewhere]

theorem place_append (capacity start : Nat) (ops more : List Op) :
    place capacity start (ops ++ more) =
      (place capacity start ops + (more.count .right - more.count .left : Int)) % capacity := by
  unfold place
  rw [Int.emod_add_emod, List.count_append, List.count_append]
  congr 1
  omega

/-! ## One operation -/

section Step

variable (t : Tape) (op : Op)

theorem pointer_emod : (t.pointer : Int) % t.capacity = t.pointer := by
  have hlt := t.pointer_lt_capacity
  exact Int.emod_eq_of_lt (by omega) (by omega)

@[simp]
theorem capacity_apply : (op.apply t).capacity = t.capacity := by
  cases op <;> simp [Op.apply]

theorem pointer_apply :
    ((op.apply t).pointer : Int) =
      (t.pointer + ([op].count .right - [op].count .left : Int)) % t.capacity := by
  cases op with
  | add amount => simp [Op.apply, Tape.add, pointer_emod]
  | sub amount => simp [Op.apply, Tape.sub, pointer_emod]
  | right =>
    rw [Op.apply, pointer_moveRight]
    simp
  | left =>
    have hlt := t.pointer_lt_capacity
    have hback : (t.pointer + (t.capacity - 1 : Nat) : Int) = t.pointer - 1 + t.capacity := by
      omega
    rw [Op.apply, pointer_moveLeft, Int.natCast_emod, Int.natCast_add, hback,
      Int.add_emod_right]
    simp [Int.sub_eq_add_neg]

theorem cells_moveRight : t.moveRight.cells = t.cells := by
  unfold moveRight
  split <;> rfl

theorem cells_moveLeft : t.moveLeft.cells = t.cells := by
  unfold moveLeft
  split <;> rfl

theorem getElem?_set_get (f : UInt8 → UInt8) (j : Nat) :
    (t.set (f t.get)).cells[j]? = t.cells[j]?.map fun v => if t.pointer = j then f v else v := by
  simp only [set, Array.getElem?_set]
  split
  · rename_i hhere
    subst hhere
    simp [Array.getElem?_eq_getElem t.pointer_lt, get]
  · simp

theorem getElem?_apply (j : Nat) :
    (op.apply t).cells[j]? = t.cells[j]?.map fun v =>
      if t.pointer = j then v + UInt8.ofNat op.added - UInt8.ofNat op.subtracted else v := by
  cases op with
  | add amount =>
    rw [Op.apply, Tape.add, t.getElem?_set_get (· + .ofNat amount)]
    simp [Op.added, Op.subtracted]
  | sub amount =>
    rw [Op.apply, Tape.sub, t.getElem?_set_get (· - .ofNat amount)]
    simp [Op.added, Op.subtracted]
  | right => simp [Op.apply, Op.added, Op.subtracted, cells_moveRight]
  | left => simp [Op.apply, Op.added, Op.subtracted, cells_moveLeft]

end Step

/-! ## Many operations -/

section Run

variable (t : Tape) (ops : List Op)

theorem applyAll_concat (op : Op) : t.applyAll (ops ++ [op]) = op.apply (t.applyAll ops) := by
  simp [applyAll]

theorem capacity_applyAll : (t.applyAll ops).capacity = t.capacity := by
  induction ops using List.reverseRecOn with
  | nil => rfl
  | append_singleton ops op ih => rw [applyAll_concat, capacity_apply, ih]

theorem pointer_applyAll : ((t.applyAll ops).pointer : Int) = place t.capacity t.pointer ops := by
  induction ops using List.reverseRecOn with
  | nil => simp [applyAll, place, pointer_emod]
  | append_singleton ops op ih =>
    rw [applyAll_concat, pointer_apply, capacity_applyAll, ih, place_append]

theorem getElem?_applyAll (j : Nat) :
    (t.applyAll ops).cells[j]? = t.cells[j]?.map fun v =>
      v + UInt8.ofNat (totalAdded (doneAt t.capacity t.pointer j ops)) -
        UInt8.ofNat (totalSubtracted (doneAt t.capacity t.pointer j ops)) := by
  induction ops using List.reverseRecOn with
  | nil => simp [applyAll, doneAt, totalAdded, totalSubtracted]
  | append_singleton ops op ih =>
    have hplace : (t.applyAll ops).pointer = j ↔ place t.capacity t.pointer ops = j := by
      rw [← pointer_applyAll, Int.natCast_inj]
    rw [applyAll_concat, getElem?_apply, ih, Option.map_map, doneAt_concat]
    congr 1
    funext v
    simp only [Function.comp_apply, hplace]
    split
    · simp only [totalAdded, totalSubtracted, List.map_append, List.sum_append, List.map_singleton,
        List.sum_singleton, UInt8.ofNat_add]
      grind
    · rw [List.append_nil]

end Run

theorem toNat_add_sub (v : UInt8) (more less : Nat) :
    ((v + UInt8.ofNat more - UInt8.ofNat less).toNat : Int) =
      ((v.toNat : Int) + more - less) % 256 := by
  rw [UInt8.toNat_sub, UInt8.toNat_add, UInt8.toNat_ofNat', UInt8.toNat_ofNat']
  omega

/-! ## Moves alone -/

section Moves

variable {t : Tape} {ops : List Op}

theorem sum_of_moves (amount : Op → Nat) (hright : amount .right = 0) (hleft : amount .left = 0)
    (hmoves : ∀ op ∈ ops, op = .right ∨ op = .left) : (ops.map amount).sum = 0 := by
  rw [List.sum_eq_zero_iff_forall_eq_nat]
  intro n hn
  obtain ⟨op, hop, rfl⟩ := List.mem_map.mp hn
  rcases hmoves op hop with rfl | rfl
  · exact hright
  · exact hleft

theorem getElem?_of_moves {j : Nat}
    (hmoves : ∀ op ∈ doneAt t.capacity t.pointer j ops, op = .right ∨ op = .left) :
    (t.applyAll ops).cells[j]? = t.cells[j]? := by
  rw [getElem?_applyAll, totalAdded, totalSubtracted, sum_of_moves _ rfl rfl hmoves,
    sum_of_moves _ rfl rfl hmoves]
  simp

theorem mem_of_mem_doneAt {capacity start j : Nat} {op : Op}
    (h : op ∈ doneAt capacity start j ops) : op ∈ ops := by
  obtain ⟨o, ho, rfl⟩ := List.mem_map.mp h
  exact (List.mem_zipIdx' (List.mem_filter.mp ho |>.1)).2 ▸ List.getElem_mem _

theorem applyAll_eq_self (hmoves : ∀ op ∈ ops, op = .right ∨ op = .left)
    (hback : place t.capacity t.pointer ops = t.pointer) : t.applyAll ops = t := by
  have hpointer : (t.applyAll ops).pointer = t.pointer := by
    rw [← Int.natCast_inj, pointer_applyAll, hback]
  have hcells : (t.applyAll ops).cells = t.cells := by
    apply Array.ext_getElem?
    intro j
    exact getElem?_of_moves fun op hop => hmoves op (mem_of_mem_doneAt hop)
  cases t
  cases h : Tape.applyAll _ ops
  simp_all

end Moves

end Tape

/-- A tape counts modulo its capacity and modulo 256. After any additions, subtractions and moves,
the pointer is as many cells to the right as there are moves to the right, less those to the left,
and each cell holds what it held, plus what was added and less what was subtracted while the pointer
was at it. A cell at which nothing was added or subtracted is as it was. So one move undoes the
other, as many moves one way as there are cells change nothing, and a subtraction undoes the
addition of as much. -/
theorem tape_counts (t : Tape) (ops : List Tape.Op) :
    let u := t.applyAll ops
    let done (j : Nat) := Tape.doneAt t.capacity t.pointer j ops
    u.capacity = t.capacity ∧
    (u.pointer : Int) = (t.pointer + ops.count .right - ops.count .left) % t.capacity ∧
    (∀ (j : Nat) (value : UInt8), t.cells[j]? = some value →
      ∃ value' : UInt8, u.cells[j]? = some value' ∧
        (value'.toNat : Int) =
          (value.toNat + Tape.totalAdded (done j) - Tape.totalSubtracted (done j)) % 256) ∧
    (∀ j : Nat, (∀ op ∈ done j, op = .right ∨ op = .left) → u.cells[j]? = t.cells[j]?) ∧
    (t.moveRight.moveLeft = t ∧ t.moveLeft.moveRight = t) ∧
    (t.applyAll (List.replicate t.capacity .right) = t ∧
      t.applyAll (List.replicate t.capacity .left) = t) ∧
    ∀ amount, (t.add amount).sub amount = t ∧ (t.sub amount).add amount = t := by
  intro u done
  refine ⟨t.capacity_applyAll ops, t.pointer_applyAll ops, ?_, fun j => Tape.getElem?_of_moves,
    ⟨?_, ?_⟩, ⟨?_, ?_⟩, fun amount => ⟨?_, ?_⟩⟩
  · intro j value hvalue
    refine ⟨_, ?_, Tape.toNat_add_sub value _ _⟩
    rw [t.getElem?_applyAll, hvalue]
    rfl
  -- Here and below: nothing is added, and as many moves go one way as the other.
  · change t.applyAll [.right, .left] = t
    exact Tape.applyAll_eq_self (by simp) (by simp [Tape.place, t.pointer_emod])
  · change t.applyAll [.left, .right] = t
    exact Tape.applyAll_eq_self (by simp) (by simp [Tape.place, t.pointer_emod])
  · apply Tape.applyAll_eq_self
    · simp
    · simp [Tape.place, List.count_replicate, t.pointer_emod]
  · apply Tape.applyAll_eq_self
    · simp
    · simp [Tape.place, List.count_replicate, t.pointer_emod]
  · simp [Tape.add, Tape.sub]
  · simp [Tape.add, Tape.sub]

theorem tape_counts_over_both_ends :
    let t : Tape := ⟨#[0, 7, 9], 2, by decide⟩
    let u := t.applyAll [.right, .sub 1, .left, .left, .add 300]
    u.pointer = 1 ∧
    (∃ value : UInt8, u.cells[0]? = some value ∧ (value.toNat : Int) = 255) ∧
    (∃ value : UInt8, u.cells[1]? = some value ∧ (value.toNat : Int) = 51) ∧
    u.cells[2]? = some 9 := by
  intro t u
  obtain ⟨-, hpointer, hcells, hkept, -⟩ :=
    tape_counts t [.right, .sub 1, .left, .left, .add 300]
  obtain ⟨first, hfirst, hbelow⟩ := hcells 0 0 rfl
  obtain ⟨second, hsecond, habove⟩ := hcells 1 7 rfl
  refine ⟨?_, ⟨first, hfirst, hbelow.trans ?_⟩, ⟨second, hsecond, habove.trans ?_⟩,
    hkept 2 (by decide)⟩
  · exact Int.natCast_inj.mp hpointer
  · decide
  · decide

end TapeMachine
