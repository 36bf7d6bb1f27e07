import RenesasDemo.Framework.Compaction

namespace RenesasDemo.Framework

variable {σ : Type*} {n : Nat}

/-- The number of slots below `L` that meet `occ`. -/
def rank (occ : Fin n → Bool) (L : Nat) : Nat :=
  (Finset.univ.filter fun k : Fin n => k.val < L ∧ occ k = true).card

section rank

variable (occ : Fin n → Bool)

@[simp] theorem rank_zero : rank occ 0 = 0 := by simp [rank]

theorem rank_succ (i : Fin n) : rank occ (i + 1) = rank occ i + if occ i then 1 else 0 := by
  have hbelow : (Finset.univ.filter fun k : Fin n => k.val < i.val + 1 ∧ occ k = true) =
      if occ i then insert i (Finset.univ.filter fun k : Fin n => k.val < i ∧ occ k = true)
      else Finset.univ.filter fun k : Fin n => k.val < i ∧ occ k = true := by
    ext k
    by_cases hk : k = i
    · subst hk
      split_ifs with hc <;> simp [hc]
    · have hne : k.val ≠ i.val := fun h => hk (Fin.ext h)
      have hlt : k.val < i.val + 1 ↔ k.val < i.val := by omega
      split_ifs <;> simp only [Finset.mem_insert, Finset.mem_filter, hk, hlt, false_or]
  rw [rank, hbelow]
  split_ifs
  · rw [Finset.card_insert_of_notMem (by simp)]
    rfl
  · rfl

theorem rank_le (L : Nat) (hL : L ≤ n) : rank occ L ≤ L := by
  induction L with
  | zero => simp
  | succ L ih =>
    have hstep := rank_succ occ ⟨L, hL⟩
    have := ih (by omega)
    dsimp only at hstep
    split_ifs at hstep <;> omega

theorem rank_mono {L M : Nat} (h : L ≤ M) : rank occ L ≤ rank occ M := by
  apply Finset.card_le_card
  intro k hk
  simp only [Finset.mem_filter, Finset.mem_univ, true_and] at hk ⊢
  exact ⟨by omega, hk.2⟩

theorem rank_lt {i k : Fin n} (hi : occ i = true) (hik : i < k) : rank occ i < rank occ k := by
  have hstep := rank_succ occ i
  rw [if_pos hi] at hstep
  have hle : rank occ (i + 1) ≤ rank occ k := rank_mono occ hik
  omega

/-- The occupied slots of a gathered table are the first ones. -/
theorem rank_initial {m : Nat} (hocc : ∀ k, occ k = true ↔ k.val < m) (L : Nat) (hL : L ≤ n) :
    rank occ L = min L m := by
  induction L with
  | zero => simp
  | succ L ih =>
    have hstep := rank_succ occ ⟨L, hL⟩
    have hk := hocc ⟨L, hL⟩
    have := ih (by omega)
    dsimp only at hstep hk
    split_ifs at hstep with hc
    · have := hk.mp hc
      omega
    · have := mt hk.mpr hc
      omega

/-- The index to which a slot is gathered. -/
def rankIdx (i : Fin n) : Fin n := ⟨rank occ i, lt_of_le_of_lt (rank_le occ i i.isLt.le) i.isLt⟩

theorem rank_eq_slotCount {α : Type*} (p : α → Prop) [DecidablePred p] (t : Fin n → α) :
    rank (fun i => decide (p (t i))) n = slotCount p t := by
  simp [rank, slotCount]

/-- The slots that meet `occ` have the ranks `0, 1, …` in order. -/
theorem map_rank_filter :
    ((List.finRange n).filter occ).map (fun i : Fin n => rank occ i) =
      List.range (rank occ n) := by
  have hprefix : ∀ L ≤ n, (((List.finRange n).take L).filter occ).map
      (fun i : Fin n => rank occ i) = List.range (rank occ L) := by
    intro L hL
    induction L with
    | zero => simp
    | succ L ih =>
      have hlen : L < (List.finRange n).length := by
        rw [List.length_finRange]
        omega
      have hstep := rank_succ occ ⟨L, hL⟩
      dsimp only at hstep
      rw [← List.take_append_getElem hlen, List.filter_append, List.map_append, ih (by omega),
        hstep]
      split_ifs with hc
      · simp [List.range_succ, hc]
      · simp [hc]
  have htake : (List.finRange n).take n = List.finRange n :=
    List.take_of_length_le (by simp)
  rw [← htake]
  exact hprefix n le_rfl

/-- The slots that a gathered table occupies are the images of the slots occupied before. -/
theorem filter_gathered {occ' : Fin n → Bool} (hocc' : ∀ k, occ' k = true ↔ k.val < rank occ n) :
    (List.finRange n).filter occ' = ((List.finRange n).filter occ).map (rankIdx occ) := by
  apply List.map_injective_iff.mpr Fin.val_injective
  have hself : ((List.finRange n).filter occ').map Fin.val =
      ((List.finRange n).filter occ').map fun i : Fin n => rank occ' i := by
    apply List.map_congr_left
    intro i hi
    have hlt := (hocc' i).mp (List.mem_filter.mp hi).2
    have hrank := rank_initial occ' hocc' i i.isLt.le
    omega
  have htotal : rank occ' n = rank occ n := by
    have hle := rank_le occ n le_rfl
    rw [rank_initial occ' hocc' n le_rfl]
    omega
  rw [hself, map_rank_filter, htotal, List.map_map, ← map_rank_filter]
  rfl

end rank

/-- The laws under which the two-index loop gathers the occupied slots. -/
structure CompactionOps.Exact (ops : CompactionOps σ n) (Ok : σ → Prop) : Prop where
  hole_iff : ∀ t k, Ok t → (ops.isHole t k = true ↔ ops.isOccupied t k = false)
  counted_eq : ∀ t k, Ok t → ops.isCounted t k = ops.isOccupied t k
  move_ok : ∀ t src dst, Ok t → dst < src → ops.isOccupied t src = true → Ok (ops.move t src dst)
  move_src : ∀ t src dst, Ok t → dst < src → ops.isOccupied (ops.move t src dst) src = false
  move_dst : ∀ t src dst, Ok t → dst < src → ops.isOccupied t src = true →
    ops.isOccupied (ops.move t src dst) dst = true
  move_other : ∀ t src dst k, k ≠ src → k ≠ dst →
    ops.isOccupied (ops.move t src dst) k = ops.isOccupied t k

/-- What one pass over the sources has to keep: after the sources below `L` the first `m` slots
are filled. -/
structure GatherRule (ops : CompactionOps σ n) (P : Nat → Nat → σ → Prop) : Prop where
  skip : ∀ m t (i : Fin n), P i m t → ops.isOccupied t i = false → P (i + 1) m t
  keep : ∀ t (i : Fin n), P i i t → ops.isOccupied t i = true → P (i + 1) (i + 1) t
  move : ∀ t (src dst : Fin n), P src dst t → dst < src → ops.isHole t dst = true →
    ops.isOccupied t src = true → P (src + 1) (dst + 1) (ops.move t src dst)

section gather

variable {ops : CompactionOps σ n} {Ok : σ → Prop} {P : Nat → Nat → σ → Prop}

theorem GatherRule.skipTo (hr : GatherRule ops P) {m L k : Nat} {t : σ} (hP : P L m t)
    (hLk : L ≤ k) (hkn : k ≤ n)
    (hfree : ∀ j : Fin n, L ≤ j → j.val < k → ops.isOccupied t j = false) : P k m t := by
  induction k, hLk using Nat.le_induction with
  | base => exact hP
  | succ k hLk ih =>
    have hk := ih (by omega) fun j hj hjk => hfree j hj (by omega)
    exact hr.skip m t ⟨k, hkn⟩ hk (hfree ⟨k, hkn⟩ hLk (by simp))

/-- The state of the two-index loop before its iteration `idx`. -/
structure GatherInv (ops : CompactionOps σ n) (Ok : σ → Prop) (P : Nat → Nat → σ → Prop)
    (idx : Nat) (st : CompactionState σ) : Prop where
  pass : P (max idx st.lastOccupied) st.count st.table
  ok : Ok st.table
  bound : st.lastOccupied ≤ n
  front : st.count = idx ∨ (st.lastOccupied = n ∧ st.count ≤ idx)
  filled : ∀ k : Fin n, k.val < st.count → ops.isOccupied st.table k = true
  gap : ∀ k : Fin n, st.count ≤ k → k.val < max idx st.lastOccupied →
    ops.isOccupied st.table k = false

theorem gatherInv_keep (he : ops.Exact Ok) (hr : GatherRule ops P) {t : σ} {last : Nat} {ok : Bool}
    (idx : Fin n) (hst : GatherInv ops Ok P idx ⟨t, last, idx, ok⟩)
    (hocc : ops.isOccupied t idx = true) :
    compactStep ops ⟨t, last, idx, ok⟩ idx = ⟨t, last, idx + 1, ok⟩ ∧
      GatherInv ops Ok P (idx + 1) ⟨t, last, idx + 1, ok⟩ := by
  obtain ⟨hpass, hok, hbound, -, hfilled, hgap⟩ := hst
  dsimp only at hpass hok hbound hfilled hgap
  have hhole : ops.isHole t idx ≠ true := by
    rw [ne_eq, he.hole_iff t idx hok, hocc]
    simp
  -- An occupied slot cannot lie in the gap, so nothing has been moved yet.
  have hlow : last ≤ idx := by
    by_contra hlt
    have hfree := hgap idx le_rfl (by omega)
    rw [hocc] at hfree
    cases hfree
  refine ⟨?_, ?_, hok, hbound, .inl rfl, fun k hk => ?_, fun k hk hkm => ?_⟩
  · rw [compactStep, if_neg fun h => hhole h.1, he.counted_eq t idx hok, if_pos hocc]
  · rw [Nat.max_eq_left hlow] at hpass
    rw [Nat.max_eq_left (by exact hlow.trans (Nat.le_succ _))]
    exact hr.keep t idx hpass hocc
  · dsimp only at hk
    rcases Nat.lt_succ_iff_lt_or_eq.mp hk with hk | hk
    · exact hfilled k hk
    · rw [Fin.ext hk]
      exact hocc
  · dsimp only at hk hkm
    omega

theorem gatherInv_fill (he : ops.Exact Ok) (hr : GatherRule ops P) {t : σ} {last : Nat} {ok : Bool}
    (idx : Fin n) (hst : GatherInv ops Ok P idx ⟨t, last, idx, ok⟩) (hlast : last < n)
    (hocc : ops.isOccupied t idx = false) :
    GatherInv ops Ok P (idx + 1) (compactStep ops ⟨t, last, idx, ok⟩ idx) := by
  obtain ⟨hpass, hok, hbound, -, hfilled, hgap⟩ := hst
  dsimp only at hpass hok hbound hfilled hgap
  have hhole := (he.hole_iff t idx hok).mpr hocc
  rw [compactStep, if_pos ⟨hhole, hlast⟩]
  dsimp only
  -- The inner scan starts at `start`, with every slot from `idx` up to there free.
  generalize hstart : (if last ≤ idx then idx.val + 1 else last) = start
  have hle : idx.val < start ∧ start ≤ n ∧ start = max (idx.val + 1) last := by
    subst hstart
    split_ifs <;> omega
  have hfree : ∀ k : Fin n, idx ≤ k → k.val < start → ops.isOccupied t k = false := by
    intro k hk hks
    by_cases hki : k = idx
    · rw [hki]
      exact hocc
    · have hne : k.val ≠ idx.val := fun h => hki (Fin.ext h)
      have hk' : idx.val ≤ k.val := hk
      exact hgap k hk' (by omega)
  have hpass' : P start idx t := hr.skipTo hpass (by omega) hle.2.1 fun j hj hjs =>
    hfree j (by simp only [Fin.le_def]; omega) hjs
  have hpassed : ∀ j : Fin n, idx ≤ j → (decide (start ≤ j) && ops.isOccupied t j) = false →
      ops.isOccupied t j = false := by
    intro j hj hno
    by_cases hjs : j.val < start
    · exact hfree j hj hjs
    · simpa [not_lt.mp hjs] using hno
  cases hscan : firstSlot fun k => decide (start ≤ k) && ops.isOccupied t k with
  | some k =>
    obtain ⟨hk, hlow⟩ := firstSlot_eq_some.mp hscan
    simp only [Bool.and_eq_true, decide_eq_true_eq] at hk
    have hidx : idx < k := by simp only [Fin.lt_def]; omega
    have hbetween : ∀ j : Fin n, idx ≤ j → j < k → ops.isOccupied t j = false :=
      fun j hj hjk => hpassed j hj (hlow j hjk)
    have hpassk : P k idx t := hr.skipTo hpass' hk.1 k.isLt.le fun j hj hjk =>
      hbetween j (by simp only [Fin.le_def]; omega) hjk
    have hmax : max (idx.val + 1) (k.val + 1) = k.val + 1 := by
      have : idx.val < k.val := hidx
      omega
    refine ⟨?_, he.move_ok t k idx hok hidx hk.2, k.isLt, .inl rfl, fun j hj => ?_,
      fun j hj hjk => ?_⟩
    · dsimp only
      rw [hmax]
      exact hr.move t k idx hpassk hidx hhole hk.2
    · dsimp only at hj ⊢
      rcases Nat.lt_succ_iff_lt_or_eq.mp hj with hj | hj
      · have hji : j < idx := hj
        rw [he.move_other t k idx j (hji.trans hidx).ne hji.ne]
        exact hfilled j hj
      · rw [Fin.ext hj]
        exact he.move_dst t k idx hok hidx hk.2
    · dsimp only at hj hjk ⊢
      rw [hmax] at hjk
      rcases Nat.lt_succ_iff_lt_or_eq.mp hjk with hjk | hjk
      · have hij : idx < j := hj
        rw [he.move_other t k idx j (Fin.ne_of_lt hjk) hij.ne']
        exact hbetween j hij.le hjk
      · rw [Fin.ext hjk]
        exact he.move_src t k idx hok hidx
  | none =>
    have hnone : ∀ j : Fin n, idx ≤ j → ops.isOccupied t j = false :=
      fun j hj => hpassed j hj (firstSlot_eq_none.mp hscan j)
    have hmax : max (idx.val + 1) n = n := by omega
    refine ⟨?_, hok, le_rfl, .inr ⟨rfl, Nat.le_succ _⟩, hfilled, fun j hj _ => hnone j hj⟩
    dsimp only
    rw [hmax]
    exact hr.skipTo hpass' hle.2.1 le_rfl fun j hj _ =>
      hnone j (by simp only [Fin.le_def]; omega)

theorem gatherInv_step (he : ops.Exact Ok) (hr : GatherRule ops P) {st : CompactionState σ}
    (idx : Fin n) (hst : GatherInv ops Ok P idx st) :
    GatherInv ops Ok P (idx + 1) (compactStep ops st idx) := by
  obtain ⟨t, last, count, ok⟩ := st
  by_cases hlast : last < n
  · obtain rfl : count = idx := hst.front.resolve_right fun h => by
      have := h.1
      dsimp only at this
      omega
    cases hocc : ops.isOccupied t idx with
    | true =>
      obtain ⟨heq, hinv⟩ := gatherInv_keep he hr idx hst hocc
      rw [heq]
      exact hinv
    | false => exact gatherInv_fill he hr idx hst hlast hocc
  · -- The sources are exhausted: what is left are holes.
    obtain ⟨hpass, hok, hbound, hfront, hfilled, hgap⟩ := hst
    dsimp only at hpass hok hbound hfront hfilled hgap
    obtain rfl : last = n := by omega
    have hcount : count ≤ idx := by omega
    have hmax (i : Nat) (hi : i ≤ last) : max i last = last := Nat.max_eq_right hi
    rw [hmax _ idx.isLt.le] at hpass hgap
    have hfree := hgap idx hcount idx.isLt
    have heq : compactStep ops ⟨t, last, count, ok⟩ idx = ⟨t, last, count, ok⟩ := by
      rw [compactStep, if_neg fun h => hlast h.2, he.counted_eq t idx hok, hfree,
        if_neg Bool.false_ne_true]
    rw [heq]
    refine ⟨?_, hok, le_rfl, .inr ⟨rfl, by dsimp only; omega⟩, hfilled,
      fun k hk _ => hgap k hk k.isLt⟩
    dsimp only
    rw [hmax _ idx.isLt]
    exact hpass

/-- The two-index loop keeps what one pass over the sources keeps. -/
theorem compact_gather (he : ops.Exact Ok) (hr : GatherRule ops P) {t : σ} (hok : Ok t)
    (h0 : P 0 0 t) : P n (compact ops t).count (compact ops t).table ∧ Ok (compact ops t).table ∧
      ∀ k : Fin n, ops.isOccupied (compact ops t).table k = true ↔ k < (compact ops t).count := by
  have hinv : GatherInv ops Ok P n (compact ops t) :=
    foldl_finRange_rule (GatherInv ops Ok P) ⟨h0, hok, Nat.zero_le _, .inl rfl, by simp, by simp⟩
      fun idx st hst => gatherInv_step he hr idx hst
  have hmax : max n (compact ops t).lastOccupied = n := Nat.max_eq_left hinv.bound
  refine ⟨?_, hinv.ok, fun k => ⟨fun hk => ?_, hinv.filled k⟩⟩
  · have hpass := hinv.pass
    rwa [hmax] at hpass
  · by_contra hlt
    have hfree := hinv.gap k (not_lt.mp hlt) (by rw [hmax]; exact k.isLt)
    rw [hk] at hfree
    cases hfree

end gather

end RenesasDemo.Framework
