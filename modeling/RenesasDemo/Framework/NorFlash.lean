import Mathlib.Data.List.GetD

namespace RenesasDemo.Framework.NorFlash

def program (cells : Nat → UInt8) (address : Nat) (bytes : List UInt8) : Nat → UInt8 :=
  fun a => if address ≤ a then cells a &&& bytes.getD (a - address) 0xFF else cells a

def erase (cells : Nat → UInt8) (address n : Nat) : Nat → UInt8 :=
  fun a => if address ≤ a ∧ a < address + n then 0xFF else cells a

def read (cells : Nat → UInt8) (address n : Nat) : List UInt8 :=
  (List.range n).map fun i => cells (address + i)

/-- What the user of a flash may know of a cell. -/
inductive Cell where
  | unknown
  | erased
  | holds (byte : UInt8)
  deriving DecidableEq

def Cell.Allows : Cell → UInt8 → Prop
  | .unknown, _ => True
  | .erased, byte => byte = 0xFF
  | .holds expected, byte => byte = expected

/-- A byte was read. That a cell is erased says it already, and that it can be programmed. -/
def Cell.reported : Cell → UInt8 → Cell
  | .erased, _ => .erased
  | _, byte => .holds byte

theorem Cell.Allows.reported {cell : Cell} {byte : UInt8} (h : cell.Allows byte) :
    (cell.reported byte).Allows byte := by
  cases cell with
  | erased => exact h
  | unknown => rfl
  | holds expected => rfl

section lemmas

variable {cells : Nat → UInt8} {address n a : Nat} {bytes : List UInt8}

theorem program_of_lt (h : a < address) : program cells address bytes a = cells a :=
  if_neg (Nat.not_le.mpr h)

theorem and_allOnes (x : UInt8) : x &&& 0xFF = x := by
  rw [← UInt8.toBitVec_inj, UInt8.toBitVec_and]
  exact BitVec.and_allOnes

theorem program_of_le (h : address + bytes.length ≤ a) :
    program cells address bytes a = cells a := by
  rw [program]
  split
  · have hlen : bytes.length ≤ a - address := by omega
    rw [List.getD_eq_default _ _ hlen, and_allOnes]
  · rfl

theorem program_erased {i : Nat} (hi : i < bytes.length) (h : cells (address + i) = 0xFF) :
    program cells address bytes (address + i) = bytes[i] := by
  rw [program, if_pos (Nat.le_add_right _ _), h, Nat.add_sub_cancel_left,
    List.getD_eq_getElem _ _ hi, UInt8.and_comm, and_allOnes]

theorem program_append (cells : Nat → UInt8) (address : Nat) (xs ys : List UInt8) :
    program (program cells address xs) (address + xs.length) ys =
      program cells address (xs ++ ys) := by
  funext a
  by_cases hlt : a < address
  · rw [program_of_lt (by omega), program_of_lt hlt, program_of_lt hlt]
  by_cases hxs : a < address + xs.length
  · rw [program_of_lt hxs]
    simp only [program]
    rw [List.getD_append _ _ _ _ (by omega)]
  · rw [program, if_pos (by omega), program_of_le (by omega)]
    simp only [program]
    rw [if_pos (by omega), List.getD_append_right _ _ _ _ (by omega)]
    congr 2
    omega

theorem erase_of_mem (h1 : address ≤ a) (h2 : a < address + n) :
    erase cells address n a = 0xFF := if_pos ⟨h1, h2⟩

theorem erase_of_notMem (h : a < address ∨ address + n ≤ a) :
    erase cells address n a = cells a := if_neg (by omega)

@[simp]
theorem length_read : (read cells address n).length = n := by simp [read]

@[simp]
theorem getElem_read {i : Nat} (hi : i < (read cells address n).length) :
    (read cells address n)[i] = cells (address + i) := by simp [read]

theorem read_eq (h : ∀ i (hi : i < bytes.length), cells (address + i) = bytes[i]) :
    read cells address bytes.length = bytes := by
  refine List.ext_getElem length_read fun i hi hi' => ?_
  rw [getElem_read]
  exact h i hi'

end lemmas

end RenesasDemo.Framework.NorFlash
