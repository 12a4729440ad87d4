/-!
# The tape

A fixed number of byte cells and a pointer. Cells count modulo 256 and the pointer wraps around at
both ends, so no operation can fail.
-/

namespace TapeMachine

structure Tape where
  cells : Array UInt8
  pointer : Nat
  pointer_lt : pointer < cells.size
deriving DecidableEq

namespace Tape

def defaultCapacity : Nat := 4096

/-- A tape of zeros. It always has a cell. -/
def blank (capacity : Nat) : Tape where
  cells := Array.replicate (max capacity 1) 0
  pointer := 0
  pointer_lt := by rw [Array.size_replicate]; omega

instance : Inhabited Tape := ⟨blank 1⟩

def capacity (t : Tape) : Nat :=
  t.cells.size

def get (t : Tape) : UInt8 :=
  have := t.pointer_lt
  t.cells[t.pointer]

/-- Every cell zero, and the pointer at the first. -/
def cleared (t : Tape) : Tape where
  cells := (t.cells.toList.map fun _ => 0).toArray
  pointer := 0
  pointer_lt := by simpa using Nat.zero_lt_of_lt t.pointer_lt

def set (t : Tape) (value : UInt8) : Tape :=
  ⟨t.cells.set t.pointer value t.pointer_lt, t.pointer, by simpa using t.pointer_lt⟩

def add (t : Tape) (amount : Nat) : Tape :=
  t.set (t.get + UInt8.ofNat amount)

def sub (t : Tape) (amount : Nat) : Tape :=
  t.set (t.get - UInt8.ofNat amount)

def moveRight (t : Tape) : Tape :=
  if h : t.pointer + 1 < t.cells.size then ⟨t.cells, t.pointer + 1, h⟩
  else ⟨t.cells, 0, Nat.zero_lt_of_lt t.pointer_lt⟩

def moveLeft (t : Tape) : Tape :=
  if t.pointer = 0 then
    ⟨t.cells, t.cells.size - 1, Nat.sub_one_lt_of_lt t.pointer_lt⟩
  else ⟨t.cells, t.pointer - 1, Nat.lt_of_le_of_lt (Nat.sub_le ..) t.pointer_lt⟩

/-- Up to `len` cells from `base` on, cut at the end of the tape. -/
def window (t : Tape) (base len : Nat) : List UInt8 :=
  (t.cells.extract base (base + len)).toList

/-- The greatest index below `bound` of a cell that is not zero, or 0. -/
def lastNonzeroBelow (cells : Array UInt8) : Nat → Nat
  | 0 => 0
  | i + 1 => if cells.getD i 0 ≠ 0 then i else lastNonzeroBelow cells i

/-- The furthest cell that is not zero, or the pointer if that is further. -/
def highWaterMark (t : Tape) : Nat :=
  max (lastNonzeroBelow t.cells t.cells.size) t.pointer

/-! ## The number of cells never changes -/

theorem pointer_lt_capacity (t : Tape) : t.pointer < t.capacity :=
  t.pointer_lt

@[simp]
theorem capacity_blank (capacity : Nat) : (blank capacity).capacity = max capacity 1 :=
  Array.size_replicate

@[simp]
theorem capacity_set (t : Tape) (value : UInt8) : (t.set value).capacity = t.capacity :=
  Array.size_set t.pointer_lt

@[simp]
theorem capacity_add (t : Tape) (amount : Nat) : (t.add amount).capacity = t.capacity :=
  capacity_set ..

@[simp]
theorem capacity_sub (t : Tape) (amount : Nat) : (t.sub amount).capacity = t.capacity :=
  capacity_set ..

@[simp]
theorem capacity_moveRight (t : Tape) : t.moveRight.capacity = t.capacity := by
  unfold moveRight; split <;> rfl

@[simp]
theorem capacity_moveLeft (t : Tape) : t.moveLeft.capacity = t.capacity := by
  unfold moveLeft; split <;> rfl

@[simp]
theorem capacity_cleared (t : Tape) : t.cleared.capacity = t.capacity := by
  simp [cleared, capacity]

/-! ## Cells and moves -/

@[simp]
theorem get_blank (capacity : Nat) : (blank capacity).get = 0 := by
  simp [get, blank]

@[simp]
theorem get_set (t : Tape) (value : UInt8) : (t.set value).get = value := by
  simp [get, set]

@[simp]
theorem pointer_set (t : Tape) (value : UInt8) : (t.set value).pointer = t.pointer :=
  rfl

@[simp]
theorem set_get (t : Tape) : t.set t.get = t := by
  simp [set, get]

@[simp]
theorem set_set (t : Tape) (first second : UInt8) : (t.set first).set second = t.set second := by
  simp [set]

@[simp]
theorem add_zero (t : Tape) : t.add 0 = t := by
  simp [add]

@[simp]
theorem sub_zero (t : Tape) : t.sub 0 = t := by
  simp [sub]

theorem add_add (t : Tape) (a b : Nat) : (t.add a).add b = t.add (a + b) := by
  simp [add, UInt8.add_assoc]

theorem sub_sub (t : Tape) (a b : Nat) : (t.sub a).sub b = t.sub (a + b) := by
  simp only [sub, get_set, set_set, UInt8.ofNat_add, UInt8.sub_eq_add_neg, UInt8.neg_add,
    UInt8.add_assoc]

/-- Nothing is left of a cleared tape but how many cells it has. -/
theorem cleared_eq_blank (t : Tape) : t.cleared = blank t.capacity := by
  have hpos : 1 ≤ t.capacity := Nat.zero_lt_of_lt t.pointer_lt
  have hcells : (t.cells.toList.map fun _ => (0 : UInt8)).toArray =
      Array.replicate (max t.capacity 1) 0 := by
    rw [Nat.max_eq_left hpos, List.map_const']
    simp [capacity]
  simp only [cleared, blank, hcells]

@[simp]
theorem cleared_blank (capacity : Nat) : (blank capacity).cleared = blank capacity := by
  rw [cleared_eq_blank, capacity_blank]
  unfold blank
  congr 2
  omega

theorem cleared_cleared (t : Tape) : t.cleared.cleared = t.cleared := by
  rw [cleared_eq_blank, capacity_cleared, ← cleared_eq_blank]

theorem pointer_moveRight (t : Tape) : t.moveRight.pointer = (t.pointer + 1) % t.capacity := by
  have := t.pointer_lt
  unfold moveRight capacity
  split
  · rw [Nat.mod_eq_of_lt (by assumption)]
  · rw [show t.pointer + 1 = t.cells.size by omega, Nat.mod_self]

theorem pointer_moveLeft (t : Tape) :
    t.moveLeft.pointer = (t.pointer + (t.capacity - 1)) % t.capacity := by
  have := t.pointer_lt
  unfold moveLeft capacity
  split
  · rename_i zero
    rw [zero, Nat.zero_add, Nat.mod_eq_of_lt (by omega)]
  · rw [show t.pointer + (t.cells.size - 1) = (t.pointer - 1) + t.cells.size by omega,
      Nat.add_mod_right, Nat.mod_eq_of_lt (by omega)]

end Tape

end TapeMachine
