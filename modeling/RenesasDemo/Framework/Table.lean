import Mathlib.Data.Fintype.Card
import Mathlib.Data.List.FinRange
import Mathlib.Algebra.BigOperators.Group.Finset.Piecewise

namespace RenesasDemo.Framework

variable {α : Type*} {n : Nat}

/-- The lowest index of a fixed-size table that meets `p`: a C loop that breaks at its
first match. -/
def firstSlot (p : Fin n → Bool) : Option (Fin n) := (List.finRange n).find? p

theorem mem_finRange_split {pre post : List (Fin n)} {i : Fin n}
    (h : List.finRange n = pre ++ i :: post) (k : Fin n) : k ∈ pre ↔ k < i := by
  have hsorted : (pre ++ i :: post).Pairwise (· < ·) := h ▸ List.pairwise_lt_finRange n
  obtain ⟨-, hpost, hcross⟩ := List.pairwise_append.mp hsorted
  constructor
  · intro hk
    exact hcross k hk i (by simp)
  · intro hk
    have hmem : k ∈ pre ++ i :: post := h ▸ List.mem_finRange k
    rcases List.mem_append.mp hmem with hpre | hrest
    · exact hpre
    · rcases List.mem_cons.mp hrest with rfl | hlater
      · exact absurd hk (lt_irrefl k)
      · exact absurd (List.rel_of_pairwise_cons hpost hlater) (lt_asymm hk)

theorem firstSlot_eq_some {p : Fin n → Bool} {i : Fin n} :
    firstSlot p = some i ↔ p i = true ∧ ∀ k < i, p k = false := by
  unfold firstSlot
  rw [List.find?_eq_some_iff_append]
  constructor
  · intro h
    obtain ⟨hi, pre, post, hsplit, hpre⟩ := h
    refine ⟨hi, fun k hk => ?_⟩
    simpa using hpre k ((mem_finRange_split hsplit k).mpr hk)
  · intro h
    obtain ⟨hi, hlow⟩ := h
    obtain ⟨pre, post, hsplit⟩ := List.append_of_mem (List.mem_finRange i)
    refine ⟨hi, pre, post, hsplit, fun k hk => ?_⟩
    simpa using hlow k ((mem_finRange_split hsplit k).mp hk)

theorem firstSlot_eq_none {p : Fin n → Bool} :
    firstSlot p = none ↔ ∀ i, p i = false := by
  simp [firstSlot]

/-- The rule for a C loop over all indices: `P i` before iteration `i` gives `P n` after it. -/
theorem foldl_finRange_rule {β : Type*} {f : β → Fin n → β} (P : Nat → β → Prop) {b : β}
    (h0 : P 0 b) (hstep : ∀ (i : Fin n) b, P i b → P (i + 1) (f b i)) :
    P n ((List.finRange n).foldl f b) := by
  have hdrop : ∀ (is : List (Fin n)) (k : Nat) (b : β), is = (List.finRange n).drop k → k ≤ n →
      P k b → P n (is.foldl f b) := by
    intro is
    induction is with
    | nil =>
      intro k b his hk hb
      have hlen : n ≤ k := by
        have := List.drop_eq_nil_iff.mp his.symm
        simpa using this
      simpa [Nat.le_antisymm hk hlen] using hb
    | cons i is ih =>
      intro k b his hk hb
      have hkn : k < n := by
        have hlen := congrArg List.length his
        simp only [List.length_cons, List.length_drop, List.length_finRange] at hlen
        omega
      rw [List.drop_eq_getElem_cons (by simpa using hkn)] at his
      obtain ⟨hi, hrest⟩ := List.cons.inj his
      have hik : i.val = k := by simp [hi]
      exact ih (k + 1) (f b i) hrest hkn (hik ▸ hstep i b (hik ▸ hb))
  exact hdrop _ 0 b rfl (Nat.zero_le n) h0

/-- The number of slots of a table that meet `p`. -/
def slotCount (p : α → Prop) [DecidablePred p] (t : Fin n → α) : Nat :=
  (Finset.univ.filter fun i => p (t i)).card

theorem of_update_eq {t : Fin n → α} {i k : Fin n} {a b : α} (h : Function.update t i a k = b)
    (hne : a ≠ b) : k ≠ i ∧ t k = b := by
  have hki : k ≠ i := by
    intro hki
    rw [hki, Function.update_self] at h
    exact hne h
  rw [Function.update_of_ne hki] at h
  exact ⟨hki, h⟩

section slotCount

variable (p : α → Prop) [DecidablePred p] (t : Fin n → α)

theorem slotCount_eq_sum : slotCount p t = ∑ i, if p (t i) then 1 else 0 := by
  rw [slotCount, Finset.card_filter]

/-- Overwriting one slot moves the count by what the old and the new entry weigh. -/
theorem slotCount_update (i : Fin n) (a : α) :
    slotCount p (Function.update t i a) + (if p (t i) then 1 else 0) =
      slotCount p t + (if p a then 1 else 0) := by
  have hrest : ∑ k ∈ Finset.univ.erase i, (if p (Function.update t i a k) then 1 else 0) =
      ∑ k ∈ Finset.univ.erase i, (if p (t k) then 1 else 0) := by
    apply Finset.sum_congr rfl
    intro k hk
    rw [Function.update_of_ne (Finset.ne_of_mem_erase hk)]
  rw [slotCount_eq_sum, slotCount_eq_sum, ← Finset.add_sum_erase _ _ (Finset.mem_univ i),
    ← Finset.add_sum_erase _ (fun k => if p (t k) then 1 else 0) (Finset.mem_univ i), hrest,
    Function.update_self]
  omega

/-- Reordering the slots of a table keeps every count. -/
theorem slotCount_perm (σ : Equiv.Perm (Fin n)) :
    slotCount p (fun i => t (σ i)) = slotCount p t := by
  rw [slotCount_eq_sum, slotCount_eq_sum]
  exact Equiv.sum_comp σ fun i => if p (t i) then 1 else 0

variable {p t}

theorem slotCount_pos_of {i : Fin n} (h : p (t i)) : 0 < slotCount p t :=
  Finset.card_pos.mpr ⟨i, by simpa using h⟩

theorem slotCount_eq_zero : slotCount p t = 0 ↔ ∀ i, ¬ p (t i) := by
  simp [slotCount, Finset.filter_eq_empty_iff]

theorem slotCount_one_unique (h : slotCount p t = 1) {i k : Fin n} (hi : p (t i))
    (hk : p (t k)) : i = k := by
  obtain ⟨m, hm⟩ := Finset.card_eq_one.mp h
  have him : i ∈ ({m} : Finset (Fin n)) := hm ▸ by simpa using hi
  have hkm : k ∈ ({m} : Finset (Fin n)) := hm ▸ by simpa using hk
  rw [Finset.mem_singleton.mp him, Finset.mem_singleton.mp hkm]

end slotCount

end RenesasDemo.Framework
