import RenesasDemo.Framework.Table

namespace RenesasDemo.Framework

variable {σ : Type*} {n : Nat}

/-- What the compaction loop asks of a table with `n` slots and how it moves an entry. -/
structure CompactionOps (σ : Type*) (n : Nat) where
  /-- The slot at the outer index is a hole to be filled. -/
  isHole : σ → Fin n → Bool
  /-- The inner scan stops here. -/
  isOccupied : σ → Fin n → Bool
  /-- A slot that is no hole and is counted where it stands. -/
  isCounted : σ → Fin n → Bool
  /-- `move t src dst` moves the entry at `src` to `dst` and clears `src`. -/
  move : σ → Fin n → Fin n → σ

structure CompactionState (σ : Type*) where
  table : σ
  lastOccupied : Nat
  count : Nat
  /-- No iteration so far moved an entry upwards. -/
  assertOk : Bool

/-- One iteration of the outer loop; the inner scan resumes where it last stopped. -/
def compactStep (ops : CompactionOps σ n) (st : CompactionState σ) (idx : Fin n) :
    CompactionState σ :=
  if ops.isHole st.table idx ∧ st.lastOccupied < n then
    let last : Nat := if st.lastOccupied ≤ idx then idx.val + 1 else st.lastOccupied
    match firstSlot fun k => decide (last ≤ k) && ops.isOccupied st.table k with
    | some k =>
        { table := ops.move st.table k idx
          lastOccupied := k + 1
          count := st.count + 1
          assertOk := st.assertOk && decide (idx < k) }
    | none => { st with lastOccupied := n }
  else if ops.isCounted st.table idx then { st with count := st.count + 1 }
  else st

def compact (ops : CompactionOps σ n) (t : σ) : CompactionState σ :=
  (List.finRange n).foldl (compactStep ops) ⟨t, 0, 0, true⟩

/-- Holes, occupied slots and counted slots exclude each other as the loop assumes, and a move
touches its two slots only. -/
structure CompactionOps.Lawful (ops : CompactionOps σ n) : Prop where
  hole_not_counted : ∀ t k, ops.isHole t k → ops.isCounted t k = false
  move_counted_dst : ∀ t src dst, dst < src → ops.isOccupied t src →
    ops.isCounted (ops.move t src dst) dst
  move_counted_other : ∀ t src dst k, k ≠ src → k ≠ dst →
    ops.isCounted (ops.move t src dst) k = ops.isCounted t k

variable {ops : CompactionOps σ n}

/-- One iteration moves an entry down into a hole, or leaves the table alone. -/
theorem compactStep_cases (ops : CompactionOps σ n) (st : CompactionState σ) (idx : Fin n) :
    (∃ k, idx < k ∧ ops.isHole st.table idx ∧ ops.isOccupied st.table k ∧
      compactStep ops st idx =
        ⟨ops.move st.table k idx, k + 1, st.count + 1, st.assertOk && decide (idx < k)⟩) ∨
    (ops.isHole st.table idx ∧ compactStep ops st idx = { st with lastOccupied := n }) ∨
    (compactStep ops st idx =
      { st with count := st.count + if ops.isCounted st.table idx then 1 else 0 }) := by
  unfold compactStep
  by_cases hhole : ops.isHole st.table idx ∧ st.lastOccupied < n
  · rw [if_pos hhole]
    generalize hlast : (if st.lastOccupied ≤ idx then idx.val + 1 else st.lastOccupied) = last
    have hidx : idx < last := by
      subst hlast
      split_ifs <;> omega
    dsimp only
    cases hscan : firstSlot fun k => decide (last ≤ k) && ops.isOccupied st.table k with
    | none => exact .inr (.inl ⟨hhole.1, rfl⟩)
    | some k =>
      have hk := (firstSlot_eq_some.mp hscan).1
      simp only [Bool.and_eq_true, decide_eq_true_eq] at hk
      exact .inl ⟨k, by omega, hhole.1, hk.2, rfl⟩
  · rw [if_neg hhole]
    refine .inr (.inr ?_)
    split_ifs <;> rfl

/-- A property kept by every downward move into a hole survives compaction. -/
theorem compact_rule {P : σ → Prop} {t : σ} (h0 : P t)
    (hmove : ∀ t src dst, P t → dst < src → ops.isHole t dst → ops.isOccupied t src →
      P (ops.move t src dst)) : P (compact ops t).table := by
  refine foldl_finRange_rule (fun _ (st : CompactionState σ) => P st.table) h0 ?_
  intro idx st hst
  obtain ⟨k, hk, hhole, hocc, he⟩ | ⟨-, he⟩ | he := compactStep_cases ops st idx
  · rw [he]
    exact hmove _ _ _ hst hk hhole hocc
  all_goals rw [he]; exact hst

/-- The loop's assertion: entries only ever move down. -/
theorem compact_assertOk (t : σ) : (compact ops t).assertOk = true := by
  refine foldl_finRange_rule (fun _ (st : CompactionState σ) => st.assertOk = true) rfl ?_
  intro idx st hst
  obtain ⟨k, hk, -, -, he⟩ | ⟨-, he⟩ | he := compactStep_cases ops st idx
  · simp [he, hst, hk]
  all_goals rw [he]; exact hst

/-- The count the loop returns is the number of counted slots of the table it leaves. -/
theorem compact_count (hl : ops.Lawful) (t : σ) :
    (compact ops t).count =
      (Finset.univ.filter fun k => ops.isCounted (compact ops t).table k).card := by
  let below (t : σ) (i : Nat) := Finset.univ.filter fun k : Fin n => k < i ∧ ops.isCounted t k
  have hnext (t : σ) (i : Fin n) : below t (i + 1) =
      if ops.isCounted t i then insert i (below t i) else below t i := by
    ext k
    by_cases hk : k = i
    · subst hk
      split_ifs with hc <;> simp [below, hc]
    · have hne : k.val ≠ i.val := fun h => hk (Fin.ext h)
      have hlt : k.val < i.val + 1 ↔ k.val < i.val := by omega
      split_ifs <;> simp only [below, Finset.mem_insert, Finset.mem_filter, hk, hlt, false_or]
  have hfresh (t : σ) (i : Fin n) : i ∉ below t i := by simp [below]
  have hmain : (compact ops t).count = (below (compact ops t).table n).card := by
    refine foldl_finRange_rule
      (fun i (st : CompactionState σ) => st.count = (below st.table i).card) ?_ ?_
    · simp [below]
    · intro idx st hst
      obtain ⟨k, hk, hhole, hocc, he⟩ | ⟨hhole, he⟩ | he := compactStep_cases ops st idx
      · have hsame : below (ops.move st.table k idx) idx = below st.table idx := by
          ext j
          simp only [below, Finset.mem_filter, Finset.mem_univ, true_and]
          refine and_congr_right fun hj => ?_
          have hjk : j ≠ k := by
            intro heq
            subst heq
            omega
          have hji : j ≠ idx := by
            intro heq
            subst heq
            omega
          rw [hl.move_counted_other _ _ _ _ hjk hji]
        rw [he]
        change st.count + 1 = (below (ops.move st.table k idx) (idx + 1)).card
        rw [hnext, if_pos (hl.move_counted_dst _ _ _ hk hocc),
          Finset.card_insert_of_notMem (hfresh _ _), hsame, hst]
      · rw [he]
        change st.count = (below st.table (idx + 1)).card
        rw [hnext, if_neg (by simp [hl.hole_not_counted _ _ hhole]), hst]
      · rw [he]
        change st.count + _ = (below st.table (idx + 1)).card
        rw [hnext]
        split_ifs with hc
        · rw [Finset.card_insert_of_notMem (hfresh _ _), hst]
        · simpa using hst
  simpa [below] using hmain

end RenesasDemo.Framework
