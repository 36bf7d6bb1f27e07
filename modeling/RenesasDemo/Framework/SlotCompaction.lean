import RenesasDemo.Framework.StableCompaction

namespace RenesasDemo.Framework

variable {α : Type*} {n : Nat}

/-- The loop on a table of slots of which some are occupied: a move copies a slot and clears its
old place. -/
def slotOps (occ : α → Bool) (empty : α) (n : Nat) : CompactionOps (Fin n → α) n where
  isHole t i := !occ (t i)
  isOccupied t i := occ (t i)
  isCounted t i := occ (t i)
  move t src dst := Function.update (Function.update t dst (t src)) src empty

/-- The occupied slots of a table in their order. -/
def occupiedEntries (occ : α → Bool) (t : Fin n → α) : List α :=
  ((List.finRange n).filter fun i => occ (t i)).map t

/-- One pass over the sources below `L` has put `m` of them in place and cleared the others. -/
structure SlotsGathered (occ : α → Bool) (empty : α) (l : Fin n → α) (L m : Nat) (t : Fin n → α) :
    Prop where
  count : m = rank (fun i => occ (l i)) L
  placed : ∀ i : Fin n, i.val < L → occ (l i) = true → t (rankIdx (fun i => occ (l i)) i) = l i
  cleared : ∀ i : Fin n, m ≤ i.val → i.val < L → t i = if occ (l i) then empty else l i
  rest : ∀ i : Fin n, L ≤ i.val → t i = l i

section slots

variable {occ : α → Bool} {empty : α} {l t : Fin n → α}

theorem slotOps_exact (hempty : occ empty = false) :
    (slotOps occ empty n).Exact fun _ => True where
  hole_iff t k _ := by simp [slotOps]
  counted_eq _ _ _ := rfl
  move_ok _ _ _ _ _ _ := trivial
  move_src t src dst _ _ := by simp [slotOps, hempty]
  move_dst t src dst _ hlt hocc := by simpa [slotOps, hlt.ne] using hocc
  move_other t src dst k hs hd := by simp [slotOps, hs, hd]

theorem slotsGathered_start (l : Fin n → α) : SlotsGathered occ empty l 0 0 l where
  count := (rank_zero _).symm
  placed _ hi := absurd hi (Nat.not_lt_zero _)
  cleared _ _ hi := absurd hi (Nat.not_lt_zero _)
  rest _ _ := rfl

/-- A source that is occupied goes to the slot behind those that are in place. -/
theorem slotsGathered_move {src dst : Fin n} (h : SlotsGathered occ empty l src dst t)
    (hlt : dst < src) (hocc : occ (t src) = true) :
    SlotsGathered occ empty l (src + 1) (dst + 1) ((slotOps occ empty n).move t src dst) := by
  rw [h.rest src (Nat.le_refl _)] at hocc
  have hdst : rankIdx (fun i => occ (l i)) src = dst := Fin.ext h.count.symm
  have hrank (i : Fin n) : (rankIdx (fun i => occ (l i)) i).val ≤ i.val :=
    rank_le _ i.val i.isLt.le
  refine ⟨?_, fun i hi hoccI => ?_, fun i hm hi => ?_, fun i hi => ?_⟩
  · rw [rank_succ, hocc, ← h.count]
    rfl
  · by_cases hsrc : i = src
    · subst hsrc
      simp only [slotOps, hdst, Function.update_of_ne hlt.ne, Function.update_self]
      exact h.rest i (Nat.le_refl _)
    · have hi' : i.val < src.val :=
        Nat.lt_of_le_of_ne (Nat.le_of_lt_succ hi) (Fin.val_ne_of_ne hsrc)
      have hbelow := hrank i
      have hne : rankIdx (fun i => occ (l i)) i ≠ src := Fin.ne_of_val_ne (by omega)
      have hapart : rankIdx (fun i => occ (l i)) i ≠ dst := by
        have hltRank := rank_lt (fun i => occ (l i)) hoccI hi'
        rw [← hdst]
        exact Fin.ne_of_val_ne (Nat.ne_of_lt hltRank)
      simp only [slotOps, Function.update_of_ne hne, Function.update_of_ne hapart]
      exact h.placed i hi' hoccI
  · by_cases hsrc : i = src
    · subst hsrc
      simp [slotOps, hocc]
    · have hi' : i.val < src.val :=
        Nat.lt_of_le_of_ne (Nat.le_of_lt_succ hi) (Fin.val_ne_of_ne hsrc)
      have hapart : i ≠ dst := Fin.ne_of_val_ne (by omega)
      simp only [slotOps, Function.update_of_ne hsrc, Function.update_of_ne hapart]
      exact h.cleared i (by omega) hi'
  · have hlt' : dst.val < src.val := hlt
    have hsrc : i ≠ src := Fin.ne_of_val_ne (by omega)
    have hapart : i ≠ dst := Fin.ne_of_val_ne (by omega)
    simp only [slotOps, Function.update_of_ne hsrc, Function.update_of_ne hapart]
    exact h.rest i (by omega)

theorem slotsGathered_rule (occ : α → Bool) (empty : α) (l : Fin n → α) :
    GatherRule (slotOps occ empty n) (SlotsGathered occ empty l) where
  skip m t i h hfree := by
    have hfree : occ (t i) = false := hfree
    rw [h.rest i (Nat.le_refl _)] at hfree
    refine ⟨?_, fun k hk hocc => ?_, fun k hm hk => ?_, fun k hk => h.rest k (by omega)⟩
    · rw [rank_succ, hfree, h.count]
      rfl
    · have hne : k ≠ i := by
        rintro rfl
        rw [hfree] at hocc
        cases hocc
      have hk' := Fin.val_ne_of_ne hne
      exact h.placed k (by omega) hocc
    · by_cases hki : k = i
      · subst hki
        rw [hfree]
        exact h.rest k (Nat.le_refl _)
      · have hk' := Fin.val_ne_of_ne hki
        exact h.cleared k hm (by omega)
  keep t i h hocc := by
    have hocc : occ (t i) = true := hocc
    rw [h.rest i (Nat.le_refl _)] at hocc
    have hself : rankIdx (fun i => occ (l i)) i = i := Fin.ext h.count.symm
    refine ⟨?_, fun k hk hoccK => ?_, fun k hm hk => ?_, fun k hk => h.rest k (by omega)⟩
    · rw [rank_succ, hocc, ← h.count]
      rfl
    · by_cases hki : k = i
      · subst hki
        rw [hself]
        exact h.rest k (Nat.le_refl _)
      · have hk' := Fin.val_ne_of_ne hki
        exact h.placed k (by omega) hoccK
    · omega
  move t src dst h hlt _ hocc := slotsGathered_move h hlt hocc

/-- What the loop makes of a table of slots: the occupied ones are the first, in their order; behind
them those that were occupied are cleared and the others are as they were. -/
theorem compact_slots (occ : α → Bool) (empty : α) (hempty : occ empty = false)
    (l : Fin n → α) :
    let st := compact (slotOps occ empty n) l
    st.count = rank (fun i => occ (l i)) n ∧
      (∀ i, occ (st.table i) = true ↔ i.val < st.count) ∧
      (∀ i, st.count ≤ i.val → st.table i = if occ (l i) then empty else l i) ∧
      occupiedEntries occ st.table = occupiedEntries occ l := by
  obtain ⟨hgather, -, hocc⟩ := compact_gather (slotOps_exact hempty)
    (slotsGathered_rule occ empty l) trivial (slotsGathered_start l)
  refine ⟨hgather.count, hocc, fun i hi => hgather.cleared i hi i.isLt, ?_⟩
  have hfilter := filter_gathered (fun i => occ (l i)) (fun k => by
    rw [← hgather.count]
    exact hocc k)
  unfold occupiedEntries
  change List.map _ ((List.finRange n).filter
    ((slotOps occ empty n).isOccupied (compact (slotOps occ empty n) l).table)) = _
  rw [hfilter, List.map_map]
  apply List.map_congr_left
  intro i hi
  exact hgather.placed i i.isLt (List.mem_filter.mp hi).2

end slots

end RenesasDemo.Framework
