import Mathlib.Data.List.Basic

namespace RenesasDemo.Framework

variable {α : Type*}

def SliceAt (img : List α) (o : Nat) (bs : List α) : Prop :=
  ∀ i < bs.length, img[o + i]? = bs[i]?

instance [DecidableEq α] (img : List α) (o : Nat) (bs : List α) : Decidable (SliceAt img o bs) :=
  inferInstanceAs (Decidable (∀ i < bs.length, img[o + i]? = bs[i]?))

def overwrite (m : Nat → α) (a : Nat) (bs : List α) (i : Nat) : α :=
  if a ≤ i then bs[i - a]?.getD (m i) else m i

def readFrom (m : Nat → α) (a n : Nat) : List α := (List.range' a n).map m

section slices

variable {img as bs : List α} {o i : Nat}

theorem SliceAt.take (h : SliceAt img o bs) (k : Nat) : SliceAt img o (bs.take k) := by
  intro i hi
  rw [List.length_take] at hi
  rw [List.getElem?_take_of_lt (by omega)]
  exact h i (by omega)

theorem SliceAt.drop (h : SliceAt img o bs) (k : Nat) : SliceAt img (o + k) (bs.drop k) := by
  intro i hi
  rw [List.length_drop] at hi
  rw [List.getElem?_drop, Nat.add_assoc]
  exact h (k + i) (by omega)

theorem SliceAt.append (h1 : SliceAt img o as) (h2 : SliceAt img (o + as.length) bs) :
    SliceAt img o (as ++ bs) := by
  intro i hi
  rw [List.length_append] at hi
  by_cases hlt : i < as.length
  · rw [List.getElem?_append_left hlt]
    exact h1 i hlt
  · rw [List.getElem?_append_right (by omega)]
    have hsum : o + i = o + as.length + (i - as.length) := by omega
    rw [hsum]
    exact h2 (i - as.length) (by omega)

end slices

section overwrite

variable {m : Nat → α} {a i : Nat} {img bs : List α}

theorem overwrite_of_notMem (hi : i ∉ List.range' a bs.length) : overwrite m a bs i = m i := by
  rw [List.mem_range'_1] at hi
  rw [overwrite]
  split
  · rw [List.getElem?_eq_none (by omega)]
    rfl
  · rfl

theorem overwrite_of_mem (hs : SliceAt img a bs) (hi : i ∈ List.range' a bs.length) :
    img[i]? = some (overwrite m a bs i) := by
  rw [List.mem_range'_1] at hi
  have hlt : i - a < bs.length := by omega
  have hget := hs (i - a) hlt
  rw [show a + (i - a) = i by omega] at hget
  rw [hget, overwrite, if_pos hi.1, List.getElem?_eq_getElem hlt]
  rfl

theorem overwrite_nil (m : Nat → α) (a : Nat) : overwrite m a [] = m := by
  funext i
  exact overwrite_of_notMem (by simp)

@[simp] theorem length_readFrom (m : Nat → α) (a n : Nat) : (readFrom m a n).length = n := by
  simp [readFrom]

theorem overwrite_readFrom (m : Nat → α) (a : Nat) {n j : Nat} (h : j + bs.length ≤ n) :
    overwrite m a
      ((readFrom m a n).take j ++ bs ++ (readFrom m a n).drop (j + bs.length)) =
      overwrite m (a + j) bs := by
  funext i
  by_cases hmem : i ∈ List.range' (a + j) bs.length
  · rw [List.mem_range'_1] at hmem
    have hpos : i - a = j + (i - (a + j)) := by omega
    rw [overwrite, if_pos (by omega), overwrite, if_pos (by omega), List.append_assoc,
      List.getElem?_append_right (by simp; omega), List.getElem?_append_left (by simp; omega)]
    congr 2
    simp
    omega
  · rw [overwrite_of_notMem hmem, overwrite]
    rw [List.mem_range'_1] at hmem
    split
    · next hle =>
      by_cases hlow : i - a < j
      · rw [List.append_assoc, List.getElem?_append_left (by simp; omega),
          List.getElem?_take_of_lt hlow, readFrom, List.getElem?_map,
          List.getElem?_range' (by omega)]
        simp [show a + (i - a) = i by omega]
      · rw [List.getElem?_append_right (by simp; omega), List.getElem?_drop, readFrom,
          List.getElem?_map]
        by_cases hin : i - a < n
        · rw [List.getElem?_range' (by simp; omega)]
          simp
          congr 1
          omega
        · rw [List.getElem?_eq_none (by simp; omega)]
          rfl
    · rfl

end overwrite

/-- An array of `n` values. -/
structure Buffer (α : Type*) (n : Nat) where
  bytes : List α
  length_bytes : bytes.length = n

namespace Buffer

variable {n i : Nat} {src : List α}

/-- Undefined unless `src` fits at index `i`. -/
def memcpy (b : Buffer α n) (i : Nat) (src : List α) : Option (Buffer α n) :=
  if h : i + src.length ≤ n then
    some ⟨b.bytes.take i ++ src ++ b.bytes.drop (i + src.length), by
      have hlen := b.length_bytes
      simp
      omega⟩
  else none

def set (b : Buffer α n) (i : Nat) (a : α) : Buffer α n :=
  ⟨b.bytes.set i a, (List.length_set ..).trans b.length_bytes⟩

theorem memcpy_of_le (b : Buffer α n) (i : Nat) (src : List α) (h : i + src.length ≤ n) :
    ∃ b', b.memcpy i src = some b' ∧
      b'.bytes = b.bytes.take i ++ src ++ b.bytes.drop (i + src.length) :=
  ⟨_, dif_pos h, rfl⟩

theorem memcpy_eq_some {b b' : Buffer α n} (h : b.memcpy i src = some b') :
    i + src.length ≤ n ∧ b'.bytes = b.bytes.take i ++ src ++ b.bytes.drop (i + src.length) := by
  rw [memcpy] at h
  split at h
  · next hle =>
    obtain rfl := Option.some.inj h
    exact ⟨hle, rfl⟩
  · cases h

end Buffer

end RenesasDemo.Framework
