import RenesasDemo.Framework.StableCompaction
import RenesasDemo.Mqtt.TableRuns
import RenesasDemo.Mqtt.Resubscribe

namespace RenesasDemo.Mqtt

open Framework

/-- The occupied slots in order, each with its reference count and acknowledgement. -/
def occupiedSlots (s : SubMgrCtx) : List (MQTTSubscribeInfo × Nat × MQTTSubAckStatus) :=
  ((List.finRange _).filter fun i => (s.filterAt i).isSome).map fun i =>
    (s.pxSubscriptions i, s.pulSubCbCount i, s.pxSubAckStatus i)

/-- What the callback in element `j` calls, and the subscription it refers to. -/
def callbackMeaning (s : SubMgrCtx) (j : CbIdx) : Ptr × Ptr × Ptr × Option MQTTSubscribeInfo :=
  ((s.pxCallbacks j).pxIncomingPublishCallback,
    (s.pxCallbacks j).pvIncomingPublishCallbackContext, (s.pxCallbacks j).xTaskHandle,
    (s.pxCallbacks j).pxSubInfo.map s.pxSubscriptions)

/-- Compaction of `s` into `s'`, as far as the two arrays it writes are concerned. -/
structure Compacted (s s' : SubMgrCtx) : Prop where
  contiguous : ∀ i, s'.filterAt i ≠ none ↔ i < s'.uxSubscriptionCount
  entries : occupiedSubscriptions s' = occupiedSubscriptions s
  number : s'.uxSubscriptionCount = slotCount (fun f => f ≠ none) s.filterAt
  callbacks : ∀ j, callbackMeaning s' j = callbackMeaning s j

/-- The parallel arrays have followed the filters as well. -/
structure MeaningKept (s s' : SubMgrCtx) : Prop extends Compacted s s' where
  slots : occupiedSlots s' = occupiedSlots s

/-- The index to which compaction brings slot `i`: the number of occupied slots below it. -/
def compactedIdx (s : SubMgrCtx) (i : SubIdx) : SubIdx :=
  rankIdx (fun k => (s.filterAt k).isSome) i

/-- A slot that moves finds its own count and acknowledgement at its new index. -/
def ParallelDataFits (s : SubMgrCtx) : Prop :=
  ∀ i, s.filterAt i ≠ none → s.pulSubCbCount (compactedIdx s i) = s.pulSubCbCount i ∧
    s.pxSubAckStatus (compactedIdx s i) = s.pxSubAckStatus i

instance (s : SubMgrCtx) : Decidable (ParallelDataFits s) :=
  inferInstanceAs (Decidable (∀ _, _))

/-- A filter is NULL exactly when its length is zero. -/
def NullFilters (t : SubListTables) : Prop :=
  ∀ i, (t.pxSubList i).pTopicFilter = none ↔ (t.pxSubList i).topicFilterLength = 0

section compaction

theorem isOccupied_eq {t : SubListTables} (ht : NullFilters t) (i : SubIdx) :
    subscriptionListOps.isOccupied t i = ((t.pxSubList i).pTopicFilter).isSome := by
  have hi := ht i
  cases hf : (t.pxSubList i).pTopicFilter with
  | none => simpa [subscriptionListOps] using hi.mp hf
  | some f =>
    rw [hf] at hi
    simpa [subscriptionListOps] using hi

theorem subscriptionListOps_exact : subscriptionListOps.Exact NullFilters where
  hole_iff t k ht := by
    rw [isOccupied_eq ht]
    have hk := ht k
    cases hf : (t.pxSubList k).pTopicFilter with
    | none => simpa [subscriptionListOps, hf] using hk.mp hf
    | some f => simp [subscriptionListOps, hf]
  counted_eq t k ht := by
    rw [isOccupied_eq ht]
    have hk := ht k
    cases hf : (t.pxSubList k).pTopicFilter with
    | none => simp [subscriptionListOps, hf]
    | some f =>
      rw [hf] at hk
      simpa [subscriptionListOps, hf] using hk
  move_ok t src dst ht hlt _ k := by
    by_cases hs : k = src
    · subst hs
      simp [subscriptionListOps, moveSubscription, MQTTSubscribeInfo.zero]
    · by_cases hd : k = dst
      · subst hd
        simpa [subscriptionListOps, moveSubscription, hs] using ht src
      · simpa [subscriptionListOps, moveSubscription, hs, hd] using ht k
  move_src t src dst _ _ := by
    simp [subscriptionListOps, moveSubscription, MQTTSubscribeInfo.zero]
  move_dst t src dst _ hlt hocc := by
    simpa [subscriptionListOps, moveSubscription, hlt.ne] using hocc
  move_other t src dst k hs hd := by
    simp [subscriptionListOps, moveSubscription, hs, hd]

variable {s : SubMgrCtx}

/-- Where a reference to slot `i` points once the sources below `L` are done. -/
def gatheredRef (s : SubMgrCtx) (L : Nat) (i : SubIdx) : SubIdx :=
  if i.val < L then compactedIdx s i else i

theorem gatheredRef_succ {i k : SubIdx} (hk : k ≠ i ∨ compactedIdx s i = i) :
    gatheredRef s (i + 1) k = gatheredRef s i k := by
  unfold gatheredRef
  by_cases hki : k = i
  · subst hki
    rw [if_pos (Nat.lt_succ_self _), if_neg (lt_irrefl _), hk.resolve_left (by simp)]
  · have hne := Fin.val_ne_of_ne hki
    by_cases hlt : k.val < i.val
    · rw [if_pos hlt, if_pos (by omega)]
    · rw [if_neg hlt, if_neg (by omega)]

/-- One pass over the subscriptions below `L` has put `m` of them in place. -/
structure Gathered (s : SubMgrCtx) (L m : Nat) (t : SubListTables) : Prop where
  count : m = rank (fun k => (s.filterAt k).isSome) L
  placed : ∀ i, i.val < L → s.filterAt i ≠ none →
    t.pxSubList (compactedIdx s i) = s.pxSubscriptions i
  rest : ∀ i, L ≤ i.val → t.pxSubList i = s.pxSubscriptions i
  refs : ∀ j, t.pxCallbacksList j = { s.pxCallbacks j with
    pxSubInfo := (s.pxCallbacks j).pxSubInfo.map (gatheredRef s L) }

theorem compactedIdx_le (i : SubIdx) : (compactedIdx s i).val ≤ i.val :=
  rank_le _ i.val i.isLt.le

theorem compactedIdx_ne {i k : SubIdx} (hi : s.filterAt i ≠ none) (hik : i < k) :
    compactedIdx s i ≠ compactedIdx s k := by
  intro heq
  have hlt := rank_lt (fun k => (s.filterAt k).isSome) (Option.isSome_iff_ne_none.mpr hi) hik
  have hval := congrArg Fin.val heq
  simp only [compactedIdx, rankIdx] at hval
  omega

theorem Gathered.occupied_iff {L m : Nat} {t : SubListTables} {i : SubIdx} (h : Gathered s L m t)
    (hnull : ∀ i, s.filterAt i = none ↔ (s.pxSubscriptions i).topicFilterLength = 0)
    (hi : L ≤ i.val) : subscriptionListOps.isOccupied t i = (s.filterAt i).isSome := by
  have hlen : subscriptionListOps.isOccupied t i =
      subscriptionListOps.isOccupied ⟨s.pxSubscriptions, s.pxCallbacks⟩ i := by
    simp only [subscriptionListOps, h.rest i hi]
  rw [hlen]
  exact isOccupied_eq (t := ⟨s.pxSubscriptions, s.pxCallbacks⟩) hnull i

/-- A source that stays where it is leaves every reference as it is. -/
theorem Gathered.stay {m m' : Nat} {t : SubListTables} {i : SubIdx} (h : Gathered s i m t)
    (hdangling : ∀ j i, (s.pxCallbacks j).pxSubInfo = some i → s.filterAt i ≠ none)
    (hi : s.filterAt i = none ∨ compactedIdx s i = i)
    (hm : m' = rank (fun k => (s.filterAt k).isSome) (i + 1)) : Gathered s (i + 1) m' t where
  count := hm
  placed k hk hkf := by
    by_cases hki : k = i
    · subst hki
      have hself := hi.resolve_left hkf
      rw [hself]
      exact h.rest k le_rfl
    · have hne := Fin.val_ne_of_ne hki
      exact h.placed k (by omega) hkf
  rest k hk := h.rest k (by omega)
  refs j := by
    have hsame : (s.pxCallbacks j).pxSubInfo.map (gatheredRef s (i + 1)) =
        (s.pxCallbacks j).pxSubInfo.map (gatheredRef s i) := by
      apply Option.map_congr
      intro k hk
      have hkf := hdangling j k hk
      apply gatheredRef_succ
      obtain hnone | hself := hi
      · left
        intro hki
        rw [hki] at hkf
        exact hkf hnone
      · exact .inr hself
    rw [h.refs j, hsame]

/-- A move redirects the references to its source. -/
theorem Gathered.redirect {t : SubListTables} {src dst : SubIdx} (h : Gathered s src dst t)
    (hdst : compactedIdx s src = dst) (j : CbIdx) :
    prvUpdateCallbackRefs t.pxCallbacksList src dst j = { s.pxCallbacks j with
      pxSubInfo := (s.pxCallbacks j).pxSubInfo.map (gatheredRef s (src + 1)) } := by
  rw [prvUpdateCallbackRefs, h.refs j]
  dsimp only
  cases hj : (s.pxCallbacks j).pxSubInfo with
  | none => simp
  | some k =>
    simp only [Option.map_some, Option.some.injEq]
    by_cases hk : k = src
    · subst hk
      have hold : gatheredRef s k k = k := if_neg (lt_irrefl _)
      have hnew : gatheredRef s (k + 1) k = dst := by
        rw [gatheredRef, if_pos (Nat.lt_succ_self _), hdst]
      rw [if_pos hold, hnew]
    · have hsame := gatheredRef_succ (s := s) (.inl hk)
      have hne : gatheredRef s src k ≠ src := by
        unfold gatheredRef
        split_ifs with hlt
        · have hle := compactedIdx_le (s := s) k
          exact Fin.ne_of_val_ne (by omega)
        · exact hk
      rw [if_neg hne, hsame]

theorem gathered_rule
    (hnull : ∀ i, s.filterAt i = none ↔ (s.pxSubscriptions i).topicFilterLength = 0)
    (hdangling : ∀ j i, (s.pxCallbacks j).pxSubInfo = some i → s.filterAt i ≠ none) :
    GatherRule subscriptionListOps (Gathered s) where
  skip m t i h hocc := by
    rw [h.occupied_iff hnull le_rfl] at hocc
    refine h.stay hdangling (.inl (by simpa using hocc)) ?_
    rw [rank_succ, hocc, h.count]
    rfl
  keep t i h hocc := by
    rw [h.occupied_iff hnull le_rfl] at hocc
    have hself : compactedIdx s i = i := Fin.ext h.count.symm
    refine h.stay hdangling (.inr hself) ?_
    rw [rank_succ, hocc, ← h.count]
    rfl
  move t src dst h hlt hhole hocc := by
    rw [h.occupied_iff hnull le_rfl] at hocc
    have hdst : compactedIdx s src = dst := Fin.ext h.count.symm
    have hocc' : s.filterAt src ≠ none := Option.isSome_iff_ne_none.mp hocc
    refine ⟨?_, fun k hk hkf => ?_, fun k hk => ?_, h.redirect hdst⟩
    · rw [rank_succ, hocc, ← h.count]
      rfl
    · by_cases hks : k = src
      · subst hks
        simp only [subscriptionListOps, moveSubscription, hdst, Function.update_of_ne hlt.ne,
          Function.update_self]
        exact h.rest k le_rfl
      · have hne := Fin.val_ne_of_ne hks
        have hklt : k < src := by simp only [Fin.lt_def]; omega
        have hsrc : compactedIdx s k ≠ src := by
          have hle := compactedIdx_le (s := s) k
          exact Fin.ne_of_val_ne (by omega)
        have hdst' : compactedIdx s k ≠ dst := hdst ▸ compactedIdx_ne hkf hklt
        simp only [subscriptionListOps, moveSubscription, Function.update_of_ne hsrc,
          Function.update_of_ne hdst']
        exact h.placed k hklt hkf
    · have hsrc : k ≠ src := Fin.ne_of_val_ne (by omega)
      have hlt' : dst.val < src.val := hlt
      have hdst' : k ≠ dst := Fin.ne_of_val_ne (by omega)
      simp only [subscriptionListOps, moveSubscription, Function.update_of_ne hsrc,
          Function.update_of_ne hdst']
      exact h.rest k (by omega)

theorem gathered_start (s : SubMgrCtx) :
    Gathered s 0 0 ⟨s.pxSubscriptions, s.pxCallbacks⟩ where
  count := (rank_zero _).symm
  placed i hi := absurd hi (Nat.not_lt_zero _)
  rest _ _ := rfl
  refs j := by
    have hid : gatheredRef s 0 = id := funext fun i => if_neg (Nat.not_lt_zero _)
    simp [hid]

/-- The tables after compaction, with every source gathered. -/
theorem compressSubscriptions_gathered
    (hnull : ∀ i, s.filterAt i = none ↔ (s.pxSubscriptions i).topicFilterLength = 0)
    (hdangling : ∀ j i, (s.pxCallbacks j).pxSubInfo = some i → s.filterAt i ≠ none)
    {s' : SubMgrCtx} (hs : s' = s.compressSubscriptions) :
    Gathered s mqttAgentMaxSubscriptions s'.uxSubscriptionCount
        ⟨s'.pxSubscriptions, s'.pxCallbacks⟩ ∧
      ∀ i, s'.filterAt i ≠ none ↔ i.val < s'.uxSubscriptionCount := by
  obtain ⟨hgather, hok, hocc⟩ := compact_gather (t := ⟨s.pxSubscriptions, s.pxCallbacks⟩)
    subscriptionListOps_exact (gathered_rule hnull hdangling) hnull (gathered_start s)
  subst hs
  refine ⟨hgather, fun i => ?_⟩
  rw [← Option.isSome_iff_ne_none]
  have hi := hocc i
  rw [isOccupied_eq hok] at hi
  exact hi

/-- The occupied slots after compaction are the images of those before. -/
theorem filter_compacted {s' : SubMgrCtx}
    (hcount : s'.uxSubscriptionCount =
      rank (fun k => (s.filterAt k).isSome) mqttAgentMaxSubscriptions)
    (hocc : ∀ i, s'.filterAt i ≠ none ↔ i.val < s'.uxSubscriptionCount) :
    (List.finRange _).filter (fun i => (s'.filterAt i).isSome) =
      ((List.finRange _).filter fun i => (s.filterAt i).isSome).map (compactedIdx s) := by
  apply filter_gathered (fun k => (s.filterAt k).isSome)
  intro k
  rw [Option.isSome_iff_ne_none, hocc, hcount]

/-- Compaction loses no subscription and redirects every callback. -/
theorem compressSubscriptions_compacted
    (hnull : ∀ i, s.filterAt i = none ↔ (s.pxSubscriptions i).topicFilterLength = 0)
    (hdangling : ∀ j i, (s.pxCallbacks j).pxSubInfo = some i → s.filterAt i ≠ none) :
    Compacted s s.compressSubscriptions := by
  obtain ⟨hgather, hocc⟩ := compressSubscriptions_gathered hnull hdangling rfl
  generalize s.compressSubscriptions = s' at hgather hocc ⊢
  refine ⟨hocc, ?_, ?_, fun j => ?_⟩
  · have hmove (i : SubIdx) (hi : s.filterAt i ≠ none) :
        s'.pxSubscriptions (compactedIdx s i) = s.pxSubscriptions i := hgather.placed i i.isLt hi
    have hfilter := filter_compacted hgather.count hocc
    unfold occupiedSubscriptions
    rw [List.filter_map, List.filter_map]
    change List.map _ ((List.finRange _).filter fun i => (s'.filterAt i).isSome) = _
    rw [hfilter, List.map_map]
    apply List.map_congr_left
    intro i hi
    exact hmove i (Option.isSome_iff_ne_none.mp (List.mem_filter.mp hi).2)
  · rw [hgather.count, ← rank_eq_slotCount]
    congr 1
    funext i
    cases s.filterAt i <;> simp
  · have hj := hgather.refs j
    dsimp only at hj
    rw [callbackMeaning, callbackMeaning, hj]
    simp only [Prod.mk.injEq, true_and]
    rw [Option.map_map]
    apply Option.map_congr
    intro i hi
    have hmoved : gatheredRef s mqttAgentMaxSubscriptions i = compactedIdx s i := if_pos i.isLt
    rw [Function.comp_apply, hmoved]
    exact hgather.placed i i.isLt (hdangling j i hi)

/-- Compaction keeps the meaning of the table exactly when the parallel arrays fit. -/
theorem prvHandleResubscribe_meaningKept_iff
    (hnull : ∀ i, s.filterAt i = none ↔ (s.pxSubscriptions i).topicFilterLength = 0)
    (hdangling : ∀ j i, (s.pxCallbacks j).pxSubInfo = some i → s.filterAt i ≠ none)
    (xSubscribe : MQTTStatus) :
    MeaningKept s (prvHandleResubscribe s xSubscribe).ctx ↔ ParallelDataFits s := by
  rw [prvHandleResubscribe_eq]
  have hcompacted := compressSubscriptions_compacted hnull hdangling
  obtain ⟨hgather, hocc⟩ := compressSubscriptions_gathered hnull hdangling rfl
  have hcount : s.compressSubscriptions.pulSubCbCount = s.pulSubCbCount := rfl
  have hack : s.compressSubscriptions.pxSubAckStatus = s.pxSubAckStatus := rfl
  dsimp only
  generalize s.compressSubscriptions = s' at hcompacted hgather hocc hcount hack ⊢
  have hslots : occupiedSlots s' = occupiedSlots s ↔ ParallelDataFits s := by
    unfold occupiedSlots ParallelDataFits
    rw [filter_compacted hgather.count hocc, List.map_map, List.map_inj_left]
    constructor
    · intro h i hi
      have hmem : i ∈ (List.finRange mqttAgentMaxSubscriptions).filter
          fun i => (s.filterAt i).isSome :=
        List.mem_filter.mpr ⟨List.mem_finRange i, Option.isSome_iff_ne_none.mpr hi⟩
      have hi' := h i hmem
      simp only [Function.comp_apply, Prod.mk.injEq, hcount, hack] at hi'
      exact hi'.2
    · intro h i hi
      have hi' := Option.isSome_iff_ne_none.mp (List.mem_filter.mp hi).2
      simp only [Function.comp_apply, Prod.mk.injEq, hcount, hack]
      exact ⟨hgather.placed i i.isLt hi', h i hi'⟩
  exact ⟨fun h => hslots.mp h.slots, fun h => ⟨hcompacted, hslots.mpr h⟩⟩

end compaction

theorem prvHandleResubscribe_meaningKept_compacted :
    MeaningKept subscribedTable.compressSubscriptions
      (prvHandleResubscribe subscribedTable.compressSubscriptions .mqttSuccess).ctx :=
  (prvHandleResubscribe_meaningKept_iff (by decide +kernel) (by decide +kernel) _).mpr
    (by decide +kernel)

/-- The first subscription of a fresh table is in slot 1: it moves to slot 0, its reference count
does not. -/
theorem not_meaningKept_subscribedTable :
    ¬ ∀ s : SubMgrCtx,
      (∀ i, s.filterAt i = none ↔ (s.pxSubscriptions i).topicFilterLength = 0) →
      (∀ j i, (s.pxCallbacks j).pxSubInfo = some i → s.filterAt i ≠ none) →
      ∀ xSubscribe, MeaningKept s (prvHandleResubscribe s xSubscribe).ctx := by
  intro h
  have hslots := (h subscribedTable (by decide +kernel) (by decide +kernel) .mqttSuccess).slots
  have hcounts := congrArg (List.map fun slot => slot.2.1) hslots
  exact absurd hcounts (by decide +kernel)

end RenesasDemo.Mqtt
