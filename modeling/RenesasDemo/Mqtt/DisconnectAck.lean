import RenesasDemo.Mqtt.AgentTask
import RenesasDemo.Mqtt.TableRuns

namespace RenesasDemo.Mqtt

open Framework

/-- No acknowledgement survives, so whoever subscribes next has to ask the broker. -/
structure AcksInvalidated (s : SubMgrCtx) : Prop where
  ack : ∀ i, s.pxSubAckStatus i = mqttSubAckFailure
  /-- A call that gets a slot, a callback element and the memory it needs sends a SUBSCRIBE. -/
  nextSubscribe : ∀ task a f xMalloc reply, a.checked = some f →
    (subscribeLocked s task f a.xRequestedQoS a.pxCallback a.pvCallbackCtx xMalloc).xStatus =
      .mqttSuccess →
    ∃ i, (subscribeLocked s task f a.xRequestedQoS a.pxCallback a.pvCallbackCtx
        xMalloc).uxTargetSubIdx = some i ∧
      (mqttAgentSubscribeSync s task a xMalloc reply).sent = some ⟨some (.slot i), 1⟩

/-- Every acknowledgement is a failure, and the search has not succeeded without a slot. -/
structure FreshScan (st : SlotScan) : Prop where
  ack : ∀ i, st.pxSubAckStatus i = mqttSubAckFailure
  target : st.uxTargetSubIdx = none → st.xStatus ≠ .mqttSuccess

theorem update_failure {ack : SubIdx → MQTTSubAckStatus} (h : ∀ i, ack i = mqttSubAckFailure)
    (k i : SubIdx) : Function.update ack k mqttSubAckFailure i = mqttSubAckFailure := by
  by_cases hi : i = k
  · simp [hi]
  · simpa [hi] using h i

theorem findSubscriptionSlot_fresh (pxSubscriptions : SubIdx → MQTTSubscribeInfo) (f : CString)
    (is : List SubIdx) {st : SlotScan} (hst : FreshScan st) :
    FreshScan (findSubscriptionSlot pxSubscriptions f is st) := by
  induction is generalizing st with
  | nil => exact hst
  | cons k is ih =>
    rw [findSubscriptionSlot]
    dsimp only
    split_ifs with hfree hmatch hqos
    · exact ih ⟨update_failure hst.ack k, by simp⟩
    · exact ⟨update_failure hst.ack k, by simp⟩
    · exact ⟨hst.ack, by simp⟩
    · exact ih hst

theorem populateSubscription_ack (s : SubMgrCtx) (i : SubIdx) (f : CString) (q : MQTTQoS)
    (xMalloc : Bool) :
    (populateSubscription s i f q xMalloc).1.pxSubAckStatus = s.pxSubAckStatus := by
  unfold populateSubscription
  by_cases hack : s.pxSubAckStatus i = mqttSubAckFailure
  · rw [if_pos hack]
    cases s.filterAt i <;> cases xMalloc <;> rfl
  · rw [if_neg hack]

/-- With no acknowledgement standing, a locked part that succeeds leaves a slot to send for. -/
theorem subscribeLocked_fresh {s : SubMgrCtx}
    (hs : ∀ i, s.pxSubAckStatus i = mqttSubAckFailure) (task : Ptr) (f : CString) (q : MQTTQoS)
    (cb ctx : Ptr) (xMalloc : Bool) {u : SubscribeUpdate}
    (hu : u = subscribeLocked s task f q cb ctx xMalloc) (hst : u.xStatus = .mqttSuccess) :
    ∃ i, u.uxTargetSubIdx = some i ∧ u.toSend u.ctx = some i := by
  have hstart : FreshScan ⟨.mqttNoMemory, none, q, s.pxSubAckStatus⟩ := ⟨hs, by simp⟩
  have hscan := findSubscriptionSlot_fresh s.pxSubscriptions f (List.finRange _) hstart
  unfold subscribeLocked at hu
  generalize findSubscriptionSlot s.pxSubscriptions f (List.finRange _)
    ⟨.mqttNoMemory, none, q, s.pxSubAckStatus⟩ = scan at hscan hu
  dsimp only at hu
  cases htarget : scan.uxTargetSubIdx with
  | none =>
    rw [htarget] at hu
    rw [hu] at hst
    exact absurd hst (hscan.target htarget)
  | some i =>
    rw [htarget] at hu
    dsimp only at hu
    have hack : ∀ k, u.ctx.pxSubAckStatus k = mqttSubAckFailure := by
      intro k
      cases hfind : findCallbackSlot s.pxCallbacks i cb ctx task (List.finRange _) none with
      | none =>
        rw [hu, hfind]
        exact hscan.ack k
      | some j =>
        rw [hu, hfind]
        dsimp only
        split_ifs
        · exact (congrFun (populateSubscription_ack _ _ _ _ _) k).trans (hscan.ack k)
        · exact (congrFun (populateSubscription_ack _ _ _ _ _) k).trans (hscan.ack k)
    have htargetu : u.uxTargetSubIdx = some i := by
      cases hfind : findCallbackSlot s.pxCallbacks i cb ctx task (List.finRange _) none with
      | none => rw [hu, hfind]
      | some j =>
        rw [hu, hfind]
        dsimp only
        split_ifs <;> rfl
    refine ⟨i, htargetu, ?_⟩
    simp [SubscribeUpdate.toSend, htargetu, hst, hack i]

theorem acksInvalidated_iff (s : SubMgrCtx) :
    AcksInvalidated s ↔ ∀ i, s.pxSubAckStatus i = mqttSubAckFailure := by
  refine ⟨AcksInvalidated.ack, fun hs => ⟨hs, ?_⟩⟩
  intro task a f xMalloc reply ha hst
  obtain ⟨i, hi, hsend⟩ := subscribeLocked_fresh hs task f a.xRequestedQoS a.pxCallback
    a.pvCallbackCtx xMalloc rfl hst
  refine ⟨i, hi, ?_⟩
  unfold mqttAgentSubscribeSync
  rw [ha]
  dsimp only
  rw [hsend]

/-- Only one byte of 0x80 reads as MQTTSubAckFailure. -/
theorem filled_eq_failure_iff {xSize : Nat} (hpos : 0 < xSize) :
    ∑ k ∈ Finset.range xSize, mqttSubAckFailure * 256 ^ k = mqttSubAckFailure ↔ xSize = 1 := by
  obtain ⟨n, rfl⟩ := Nat.exists_eq_succ_of_ne_zero hpos.ne'
  cases n with
  | zero => simp
  | succ n =>
    rw [Finset.sum_range_succ', Finset.sum_range_succ']
    have hsecond : 0 < mqttSubAckFailure * 256 ^ (0 + 1) := by decide
    refine iff_of_false (fun h => ?_) (by omega)
    rw [pow_zero, mul_one] at h
    have hrest := Nat.add_eq_zero_iff.mp (Nat.add_eq_right.mp h)
    exact absurd hrest.2 hsecond.ne'

/-- The cleanup of a disconnect invalidates the acknowledgements exactly when they are stored in
single bytes. -/
theorem disconnect_acksInvalidated_iff (s : AgentTask) (backoff : Bool) {xSize : Nat}
    (hpos : 0 < xSize) :
    AcksInvalidated (s.next xSize (.disconnect backoff)).xSubMgrCtx ↔ xSize = 1 := by
  rw [acksInvalidated_iff, ← filled_eq_failure_iff hpos]
  exact ⟨fun h => h 0, fun h _ => h⟩

theorem disconnect_acksInvalidated_byte :
    AcksInvalidated (AgentTask.start.next 1 (.disconnect true)).xSubMgrCtx :=
  (disconnect_acksInvalidated_iff _ _ Nat.one_pos).mpr rfl

/-- In four bytes the fill reads 0x80808080. -/
theorem not_acksInvalidated_word :
    ¬ ∀ xSize, 0 < xSize → ∀ (s : AgentTask) backoff,
      AcksInvalidated (s.next xSize (.disconnect backoff)).xSubMgrCtx := by
  intro h
  have hack := (h 4 (by decide) AgentTask.start true).ack 0
  exact absurd hack (by decide)

end RenesasDemo.Mqtt
