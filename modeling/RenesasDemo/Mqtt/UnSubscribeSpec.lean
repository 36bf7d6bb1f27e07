import RenesasDemo.Mqtt.SubscribeSpec

namespace RenesasDemo.Mqtt

open Framework

/-- Slot `i` no longer stores a filter, and its acknowledgement is reset. -/
structure FilterFreed (s s' : SubMgrCtx) (i : SubIdx) : Prop where
  filter : s'.filterAt = Function.update s.filterAt i none
  length : ∀ k, (s'.pxSubscriptions k).topicFilterLength =
    if k = i then 0 else (s.pxSubscriptions k).topicFilterLength
  ack : s'.pxSubAckStatus = Function.update s.pxSubAckStatus i mqttSubAckFailure
  number : s'.uxSubscriptionCount = s.uxSubscriptionCount - 1

/-- The callback in slot `j` is gone and the others have closed up; reference counts stay. -/
structure CallbackRemoved (s s' : SubMgrCtx) (j : CbIdx) : Prop where
  callbacks : ∃ τ : Equiv.Perm CbIdx,
    s'.pxCallbacks = fun k => Function.update s.pxCallbacks j .zero (τ k)
  count : s'.pulSubCbCount = s.pulSubCbCount
  number : s'.uxCallbackCount = slotCount (fun e => e.pxSubInfo ≠ none) s'.pxCallbacks

/-- Everything the last phase of `MqttAgent_UnSubscribeSync` can do to the tables. -/
inductive RemoveEffect (s : SubMgrCtx) (self : Ptr) (f : CString) (cb ctx : Ptr)
    (ulCallbackCount : Nat) : SubMgrCtx × MQTTStatus → Prop where
  /-- No slot with a zero count stores `f`, or the callback is not registered with it. -/
  | kept {xStatus} (hst : xStatus ≠ .mqttSuccess)
      (hnot : ∀ i j, s.filterAt i = some f → s.pulSubCbCount i = 0 →
        s.pxCallbacks j ≠ ⟨cb, ctx, self, some i⟩) :
      RemoveEffect s self f cb ctx ulCallbackCount (s, xStatus)
  | freed {s'} (i : SubIdx) (j : CbIdx) (hi : s.filterAt i = some f)
      (hzero : s.pulSubCbCount i = 0) (hj : s.pxCallbacks j = ⟨cb, ctx, self, some i⟩)
      (hone : ulCallbackCount = 1) (hf : FilterFreed s s' i) (hc : CallbackRemoved s s' j) :
      RemoveEffect s self f cb ctx ulCallbackCount (s', .mqttSuccess)
  | removed {s'} (i : SubIdx) (j : CbIdx) (hi : s.filterAt i = some f)
      (hzero : s.pulSubCbCount i = 0) (hj : s.pxCallbacks j = ⟨cb, ctx, self, some i⟩)
      (hone : ulCallbackCount ≠ 1) (hf : FiltersKept s s')
      (ha : s'.pxSubAckStatus = s.pxSubAckStatus) (hc : CallbackRemoved s s' j) :
      RemoveEffect s self f cb ctx ulCallbackCount (s', .mqttSuccess)

variable {s : SubMgrCtx} {f : CString}

theorem sameFilter_iff (hw : SlotsWf s) (hpos : 0 < f.length) (hlt : f.length < uint16Max)
    (i : SubIdx) : sameFilter s f i = true ↔ s.filterAt i = some f := by
  have hlen : f.strnlen uint16Max = f.length := Nat.min_eq_left hlt.le
  unfold sameFilter
  rw [Bool.and_eq_true, beq_iff_eq, beq_iff_eq, strncmpFilter_slot hw, hlen]
  constructor
  · intro h
    obtain ⟨hl, hp⟩ := h
    cases hi : s.filterAt i with
    | none =>
      rw [hw.empty i hi] at hl
      omega
    | some g =>
      have hg := (hw.stored i g hi).1
      rw [(hp g hi).eq_of_length (by omega)]
  · intro hi
    refine ⟨(hw.stored i f hi).1.symm, fun g hg => ?_⟩
    rw [hi] at hg
    exact Option.some.inj hg ▸ CString.IsPrefix.refl f

theorem firstSlot_sameFilter (hw : FiltersWf s) (hpos : 0 < f.length) (hlt : f.length < uint16Max)
    (i : SubIdx) : firstSlot (sameFilter s f) = some i ↔ s.filterAt i = some f := by
  have hsame := sameFilter_iff hw.toSlotsWf hpos hlt
  rw [firstSlot_eq_some, hsame]
  refine ⟨And.left, fun hi => ⟨hi, fun k hk => ?_⟩⟩
  rw [Bool.eq_false_iff, ne_eq, hsame]
  exact fun hfk => absurd (hw.distinct i k f hi hfk) hk.ne'

def SubMgrCtx.dropReference (s : SubMgrCtx) (i : SubIdx) : SubMgrCtx :=
  { s with pulSubCbCount := Function.update s.pulSubCbCount i (s.pulSubCbCount i - 1) }

theorem unsubscribeDecrement_slot {i : SubIdx} (hi : firstSlot (sameFilter s f) = some i) :
    unsubscribeDecrement s f = ⟨s.dropReference i, .mqttSuccess, s.pulSubCbCount i⟩ := by
  unfold unsubscribeDecrement
  rw [hi]
  dsimp only
  split_ifs with hc
  · rfl
  · have hz : s.pulSubCbCount i = 0 := by omega
    have hsame : Function.update s.pulSubCbCount i 0 = s.pulSubCbCount := by
      rw [← hz, Function.update_eq_self]
    simp [SubMgrCtx.dropReference, hz, hsame]

theorem unsubscribeDecrement_stored (hw : FiltersWf s) (hpos : 0 < f.length)
    (hlt : f.length < uint16Max) {i : SubIdx} (hi : s.filterAt i = some f) :
    unsubscribeDecrement s f = ⟨s.dropReference i, .mqttSuccess, s.pulSubCbCount i⟩ :=
  unsubscribeDecrement_slot ((firstSlot_sameFilter hw hpos hlt i).mpr hi)

theorem unsubscribeDecrement_absent (hw : SlotsWf s) (hpos : 0 < f.length)
    (hlt : f.length < uint16Max) (hf : ∀ i, s.filterAt i ≠ some f) :
    unsubscribeDecrement s f = ⟨s, .mqttNoDataAvailable, 0⟩ := by
  have hnone : firstSlot (sameFilter s f) = none := by
    rw [firstSlot_eq_none]
    intro i
    rw [Bool.eq_false_iff, ne_eq, sameFilter_iff hw hpos hlt]
    exact hf i
  simp [unsubscribeDecrement, hnone]

/-- The NULL slot of a failed search matches no callback. -/
theorem firstSlot_nullCallback
    (hcleared : ∀ j, (s.pxCallbacks j).pxSubInfo = none → s.pxCallbacks j = .zero) (self : Ptr)
    {cb : Ptr} (hcb : cb ≠ 0) (ctx : Ptr) :
    firstSlot (fun j => prvMatchCbCtx (s.pxCallbacks j) none cb ctx self) = none := by
  rw [firstSlot_eq_none]
  intro j
  rw [Bool.eq_false_iff, ne_eq, prvMatchCbCtx_iff]
  intro he
  have hz := hcleared j (by rw [he])
  rw [he] at hz
  exact hcb (congrArg SubCallbackElement.pxIncomingPublishCallback hz)

theorem removeCallback_removed
    (hcleared : ∀ j, (s.pxCallbacks j).pxSubInfo = none → s.pxCallbacks j = .zero) (j : CbIdx) :
    CallbackRemoved s (s.removeCallback j) j where
  callbacks := by
    refine prvCompressCallbackList_perm fun k hk => ?_
    by_cases hkj : k = j
    · simp [hkj]
    · rw [Function.update_of_ne hkj] at hk ⊢
      exact hcleared k hk
  count := rfl
  number := by
    have hcount := compact_count callbackListOps_lawful (Function.update s.pxCallbacks j .zero)
    change (compact callbackListOps _).count = slotCount _ (compact callbackListOps _).table
    rw [hcount]
    generalize (compact callbackListOps _).table = t
    unfold slotCount
    congr 1
    ext k
    simp [callbackListOps, Option.isSome_iff_ne_none]

theorem freeSubscription_freed (i : SubIdx) : FilterFreed s (s.freeSubscription i) i where
  filter := by
    funext k
    by_cases hk : k = i
    · subst hk; simp [SubMgrCtx.filterAt, SubMgrCtx.freeSubscription, MQTTSubscribeInfo.zero]
    · simp [SubMgrCtx.filterAt, SubMgrCtx.freeSubscription, hk]
  length k := by
    by_cases hk : k = i
    · subst hk; simp [SubMgrCtx.freeSubscription, MQTTSubscribeInfo.zero]
    · simp [SubMgrCtx.freeSubscription, hk]
  ack := rfl
  number := rfl

theorem unsubscribeRemove_effect (hw : TableWf s) (hpos : 0 < f.length)
    (hlt : f.length < uint16Max) (self : Ptr) {cb : Ptr} (hcb : cb ≠ 0) (ctx : Ptr)
    (ulCallbackCount : Nat) (xStatus : MQTTStatus) :
    RemoveEffect s self f cb ctx ulCallbackCount
      (unsubscribeRemove s self f cb ctx ulCallbackCount xStatus) := by
  have hsame := sameFilter_iff hw.toSlotsWf hpos hlt
  unfold unsubscribeRemove
  dsimp only
  cases hslot : firstSlot fun i => s.pulSubCbCount i == 0 && sameFilter s f i with
  | none =>
    have hnot : ∀ i j, s.filterAt i = some f → s.pulSubCbCount i = 0 →
        s.pxCallbacks j ≠ ⟨cb, ctx, self, some i⟩ := by
      intro i j hi hz
      have h := firstSlot_eq_none.mp hslot i
      simp [hz, (hsame i).mpr hi] at h
    by_cases hst : xStatus = .mqttSuccess
    · have hnull := firstSlot_nullCallback hw.cleared self hcb ctx
      simp only [Option.isSome_none, Bool.false_eq_true, if_false, hst, if_true, hnull]
      exact .kept (by simp) hnot
    · simp only [Option.isSome_none, Bool.false_eq_true, if_false, hst]
      exact .kept hst hnot
  | some i =>
    obtain ⟨hi, -⟩ := firstSlot_eq_some.mp hslot
    rw [Bool.and_eq_true, beq_iff_eq, hsame] at hi
    obtain ⟨hzero, hi⟩ := hi
    simp only [Option.isSome_some, if_true]
    cases hcbs : firstSlot fun j =>
        prvMatchCbCtx (s.pxCallbacks j) (some i) cb ctx self with
    | none =>
      refine .kept (by simp) fun k j hk hz he => ?_
      have hki := hw.distinct k i f hk hi
      have h := firstSlot_eq_none.mp hcbs j
      rw [Bool.eq_false_iff, ne_eq, prvMatchCbCtx_iff] at h
      exact h (hki ▸ he)
    | some j =>
      have hj := (prvMatchCbCtx_iff _ _ _ _ _).mp (firstSlot_eq_some.mp hcbs).1
      have hrem := removeCallback_removed hw.cleared j
      have hfree := freeSubscription_freed (s := s.removeCallback j) i
      dsimp only
      have hz' : (s.removeCallback j).pulSubCbCount i = 0 := hzero
      by_cases hone : ulCallbackCount = 1
      · rw [if_pos ⟨hone, hz'⟩]
        exact .freed i j hi hzero hj hone ⟨hfree.filter, hfree.length, hfree.ack, hfree.number⟩
          ⟨hrem.callbacks, hrem.count, hrem.number⟩
      · rw [if_neg fun h => hone h.1]
        exact .removed i j hi hzero hj hone ⟨rfl, fun _ => rfl, rfl⟩ rfl hrem

end RenesasDemo.Mqtt
