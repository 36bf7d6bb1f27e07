import RenesasDemo.Mqtt.SubscribeOutcome

namespace RenesasDemo.Mqtt

open Framework

/-- The part of the table invariant that a subscribe relies on. -/
structure TableRep (s : SubMgrCtx) : Prop extends SlotsWf s where
  distinct : ∀ i k f, s.filterAt i = some f → s.filterAt k = some f → i = k
  noDangling : ∀ j i, (s.pxCallbacks j).pxSubInfo = some i → s.filterAt i ≠ none

def MQTTQoS.value : MQTTQoS → Nat
  | mqttQoS0 => 0
  | mqttQoS1 => 1
  | mqttQoS2 => 2
  | invalid value => value

/-- The callback ends up with the filter asked for, at no less than the QoS asked for. -/
structure TargetsFilter (s : SubMgrCtx) (task : Ptr) (a : SubscribeArgs) (f : CString)
    (xMalloc : Bool) (r : SyncResult) : Prop where
  /-- In terms of `uxTargetSubIdx`, the slot to which the call attaches. -/
  attached : ∃ i j, (subscribeLocked s task f a.xRequestedQoS a.pxCallback a.pvCallbackCtx
      xMalloc).uxTargetSubIdx = some i ∧ r.ctx.filterAt i = some f ∧
    r.ctx.pxCallbacks j = ⟨a.pxCallback, a.pvCallbackCtx, task, some i⟩
  sent : (∀ i, s.filterAt i ≠ some f) → ∃ args, r.sent = some args ∧
    listedSubscriptions r.ctx args = [⟨a.xRequestedQoS, some f, f.length⟩]
  qos : ∀ i, s.filterAt i = some f →
    (s.pxSubscriptions i).qos.value ≤ (r.ctx.pxSubscriptions i).qos.value ∧
      a.xRequestedQoS.value ≤ (r.ctx.pxSubscriptions i).qos.value

/-- The search for `f` settles on the slot of `f` with a QoS that merges, or on a hole that it
fills with the QoS asked for. -/
def SearchFits (s : SubMgrCtx) (f : CString) (q : MQTTQoS) : Prop :=
  ∀ i, SearchTarget s f i →
    (s.filterAt i = some f ∧
      ((s.pxSubscriptions i).qos = q ∨ ((s.pxSubscriptions i).qos.value ≤ 1 ∧ q.value ≤ 1))) ∨
    (s.filterAt i = none ∧ NeedsSubscribe s f i q ∧
      (∀ k, s.filterAt k = some f → q.value ≤ (s.pxSubscriptions k).qos.value) ∧
      ((∀ k, s.filterAt k ≠ some f) → mergedQoS s f i q = q))

instance (s : SubMgrCtx) (f : CString) (q : MQTTQoS) : Decidable (SearchFits s f q) :=
  inferInstanceAs (Decidable (∀ _, _))

theorem TableWf.tableRep {s : SubMgrCtx} (hw : TableWf s) : TableRep s where
  toSlotsWf := hw.toSlotsWf
  distinct := hw.distinct
  noDangling := hw.noDangling

theorem prvGetNewQoS_upgrades (xCurrentQoS xRequestedQoS : MQTTQoS) :
    (xCurrentQoS.value ≤ (prvGetNewQoS xCurrentQoS xRequestedQoS).value ∧
      xRequestedQoS.value ≤ (prvGetNewQoS xCurrentQoS xRequestedQoS).value) ↔
      xCurrentQoS = xRequestedQoS ∨ (xCurrentQoS.value ≤ 1 ∧ xRequestedQoS.value ≤ 1) := by
  unfold prvGetNewQoS
  split_ifs with hq
  · subst hq
    simp
  · simp [hq, MQTTQoS.value]

/-- The entry of the target after a SUBSCRIBE was found necessary. -/
def subscribedEntry (s : SubMgrCtx) (f : CString) (i : SubIdx) (q : MQTTQoS) :
    MQTTSubscribeInfo :=
  match s.filterAt i with
  | some _ => { s.pxSubscriptions i with qos := mergedQoS s f i q }
  | none => ⟨mergedQoS s f i q, some f, f.strnlen uint16Max % 2 ^ 16⟩

/-- What a successful subscribe leaves at its target `i`, and what it sends. -/
structure Subscribed (s : SubMgrCtx) (task : Ptr) (a : SubscribeArgs) (f : CString) (i : SubIdx)
    (r : SyncResult) : Prop where
  target : SearchTarget s f i
  callback : ∃ j, r.ctx.pxCallbacks j = ⟨a.pxCallback, a.pvCallbackCtx, task, some i⟩
  sent : r.sent = if NeedsSubscribe s f i a.xRequestedQoS then some ⟨some (.slot i), 1⟩ else none
  entries : r.ctx.pxSubscriptions = if NeedsSubscribe s f i a.xRequestedQoS then
    Function.update s.pxSubscriptions i (subscribedEntry s f i a.xRequestedQoS)
    else s.pxSubscriptions

section target

variable {s : SubMgrCtx} {task : Ptr} {a : SubscribeArgs} {f : CString} {xMalloc : Bool}
  {reply : AgentReply} {r : SyncResult} {i : SubIdx}

theorem setQoS_entries {g : CString} (q : MQTTQoS) (hi : s.filterAt i = some g)
    (ack : SubIdx → MQTTSubAckStatus) :
    ((s.withAck ack).setQoS i (mergedQoS s f i q)).pxSubscriptions =
      Function.update s.pxSubscriptions i (subscribedEntry s f i q) := by
  simp [subscribedEntry, hi, SubMgrCtx.setQoS, SubMgrCtx.withAck]

theorem storeFilter_entries (q : MQTTQoS) (hi : s.filterAt i = none)
    (ack : SubIdx → MQTTSubAckStatus) :
    (((s.withAck ack).storeFilter i f).setQoS i (mergedQoS s f i q)).pxSubscriptions =
      Function.update s.pxSubscriptions i (subscribedEntry s f i q) := by
  simp [subscribedEntry, hi, SubMgrCtx.setQoS, SubMgrCtx.storeFilter, SubMgrCtx.withAck]

/-- A successful call has a target, and what it does there is fixed. -/
theorem subscribeSync_subscribed (hw : SlotsWf s) (hf : a.pcTopicFilter = some f)
    (hr : r = mqttAgentSubscribeSync s task a xMalloc reply) (hst : r.xStatus = .mqttSuccess) :
    ∃ i, (subscribeLocked s task f a.xRequestedQoS a.pxCallback a.pvCallbackCtx
      xMalloc).uxTargetSubIdx = some i ∧ Subscribed s task a f i r := by
  unfold mqttAgentSubscribeSync at hr
  cases ha : a.checked with
  | none =>
    rw [ha] at hr
    rw [hr] at hst
    cases hst
  | some g =>
    obtain rfl : f = g := Option.some.inj (hf.symm.trans (a.checked_eq_some ha).1)
    rw [ha] at hr
    dsimp only at hr
    have houtcome := subscribeLocked_outcome hw task f a.xRequestedQoS a.pxCallback
      a.pvCallbackCtx xMalloc
    generalize subscribeLocked s task f a.xRequestedQoS a.pxCallback a.pvCallbackCtx xMalloc = u
      at hr houtcome ⊢
    -- Every refusal has its status returned.
    have hrefused (hsend : u.toSend u.ctx = none) (hne : u.xStatus ≠ .mqttSuccess) : False := by
      rw [hsend] at hr
      rw [hr] at hst
      exact hne hst
    cases houtcome with
    | noSlot hno => exact (hrefused rfl (by simp)).elim
    | noCallback i ack ht hplace =>
        exact (hrefused (by simp [SubscribeUpdate.toSend]) (by simp)).elim
    | noMemory i ack ht hplace hneeds hi hmem =>
      exact (hrefused (by simp [SubscribeUpdate.toSend]) (by simp)).elim
    | acknowledged i ack s' ht hneeds hack hjoin =>
      obtain ⟨hsubs, hacks, -⟩ := hjoin.kept
      rw [SubscribeUpdate.toSend_some rfl rfl, hacks, if_neg (by exact hack)] at hr
      subst hr
      exact ⟨i, rfl, ht, hjoin.mem, (if_neg hneeds).symm, hsubs.trans (if_neg hneeds).symm⟩
    | merged i ack s' g ht hneeds hi hack hjoin =>
      obtain ⟨hsubs, hacks, -⟩ := hjoin.kept
      rw [SubscribeUpdate.toSend_some rfl rfl, hacks, if_pos (by exact hack)] at hr
      subst hr
      refine ⟨i, rfl, ht, ?_, (if_pos hneeds).symm, ?_⟩
      · rw [storeAck_pxCallbacks]
        exact hjoin.mem
      · rw [if_pos hneeds, storeAck_pxSubscriptions, hsubs, setQoS_entries _ hi]
    | created i ack s' ht hneeds hi hmem hack hjoin =>
      obtain ⟨hsubs, hacks, -⟩ := hjoin.kept
      rw [SubscribeUpdate.toSend_some rfl rfl, hacks, if_pos (by exact hack)] at hr
      subst hr
      refine ⟨i, rfl, ht, ?_, (if_pos hneeds).symm, ?_⟩
      · rw [storeAck_pxCallbacks]
        exact hjoin.mem
      · rw [if_pos hneeds, storeAck_pxSubscriptions, hsubs, storeFilter_entries _ hi]

theorem Subscribed.filter_target (h : Subscribed s task a f i r) :
    r.ctx.filterAt i = some f ↔
      s.filterAt i = some f ∨ (s.filterAt i = none ∧ NeedsSubscribe s f i a.xRequestedQoS) := by
  have hsame : (s.pxSubscriptions i).pTopicFilter = s.filterAt i := rfl
  rw [SubMgrCtx.filterAt, h.entries]
  split_ifs with hneeds
  · rw [Function.update_self, subscribedEntry]
    cases hi : s.filterAt i with
    | some g => simp [hsame, hi]
    | none => simp [hneeds]
  · simp [hsame, hneeds]

/-- The merged QoS is in the entry even if nothing had to be written. -/
theorem Subscribed.qos_target (h : Subscribed s task a f i r) :
    (r.ctx.pxSubscriptions i).qos = mergedQoS s f i a.xRequestedQoS := by
  rw [h.entries]
  split_ifs with hneeds
  · rw [Function.update_self, subscribedEntry]
    cases s.filterAt i <;> rfl
  · unfold NeedsSubscribe at hneeds
    push Not at hneeds
    obtain ⟨hstop, -, hqos⟩ := hneeds
    rw [mergedQoS, if_pos hstop]
    exact hqos

theorem Subscribed.qos_other (h : Subscribed s task a f i r) {k : SubIdx} (hk : k ≠ i) :
    (r.ctx.pxSubscriptions k).qos = (s.pxSubscriptions k).qos := by
  rw [h.entries]
  split_ifs
  · rw [Function.update_of_ne hk]
  · rfl

theorem mergedQoS_stored (hi : s.filterAt i = some f) (q : MQTTQoS) :
    mergedQoS s f i q = prvGetNewQoS (s.pxSubscriptions i).qos q :=
  if_pos (scanStops_self hi)

/-- A SUBSCRIBE for a hole carries the filter and the merged QoS. -/
theorem Subscribed.listed (h : Subscribed s task a f i r) (hi : s.filterAt i = none)
    (hneeds : NeedsSubscribe s f i a.xRequestedQoS) (hlt : f.length < uint16Max) :
    listedSubscriptions r.ctx ⟨some (.slot i), 1⟩ =
      [⟨mergedQoS s f i a.xRequestedQoS, some f, f.length⟩] := by
  have hentry : r.ctx.pxSubscriptions i = ⟨mergedQoS s f i a.xRequestedQoS, some f, f.length⟩ := by
    rw [h.entries, if_pos hneeds, Function.update_self, subscribedEntry, hi]
    unfold uint16Max at hlt
    simp only [CString.strnlen, uint16Max, MQTTSubscribeInfo.mk.injEq, true_and]
    omega
  rw [← hentry]
  simp [listedSubscriptions, List.take_one]

theorem ne_of_filterAt {k : SubIdx} (hk : s.filterAt k = some f) (hi : s.filterAt i = none) :
    k ≠ i := by
  intro hki
  rw [hki, hi] at hk
  cases hk

/-- A call that succeeds has checked its arguments. -/
theorem subscribeSync_length (hf : a.pcTopicFilter = some f)
    (hst : (mqttAgentSubscribeSync s task a xMalloc reply).xStatus = .mqttSuccess) :
    f.length < uint16Max := by
  cases ha : a.checked with
  | none => simp [mqttAgentSubscribeSync, ha] at hst
  | some g =>
    obtain rfl : f = g := Option.some.inj (hf.symm.trans (a.checked_eq_some ha).1)
    exact (a.checked_length ha).2

/-- A successful subscribe reaches its own filter exactly when the search fits. -/
theorem subscribeSync_targetsFilter_iff (hw : TableRep s) (hf : a.pcTopicFilter = some f)
    (hst : (mqttAgentSubscribeSync s task a xMalloc reply).xStatus = .mqttSuccess) :
    TargetsFilter s task a f xMalloc (mqttAgentSubscribeSync s task a xMalloc reply) ↔
      SearchFits s f a.xRequestedQoS := by
  have hlt := subscribeSync_length hf hst
  obtain ⟨i, hi, h⟩ := subscribeSync_subscribed hw.toSlotsWf hf rfl hst
  generalize mqttAgentSubscribeSync s task a xMalloc reply = r at h ⊢
  constructor
  · intro ht k hk
    obtain rfl := h.target.unique hk
    obtain ⟨i', j, hi', hfilter, -⟩ := ht.attached
    obtain rfl : i = i' := Option.some.inj (hi.symm.trans hi')
    obtain hstored | ⟨hempty, hneeds⟩ := h.filter_target.mp hfilter
    · refine .inl ⟨hstored, ?_⟩
      have hqos := ht.qos i hstored
      rw [h.qos_target, mergedQoS_stored hstored] at hqos
      exact (prvGetNewQoS_upgrades _ _).mp hqos
    · refine .inr ⟨hempty, hneeds, fun k hk => ?_, fun hnew => ?_⟩
      · have hqos := (ht.qos k hk).2
        rwa [h.qos_other (ne_of_filterAt hk hempty)] at hqos
      · obtain ⟨args, hargs, hlist⟩ := ht.sent hnew
        rw [h.sent, if_pos hneeds] at hargs
        rw [← Option.some.inj hargs, h.listed hempty hneeds hlt] at hlist
        simpa using hlist
  · intro hfit
    obtain ⟨j, hj⟩ := h.callback
    obtain ⟨hstored, hqos⟩ | ⟨hempty, hneeds, hqos, hnew⟩ := hfit i h.target
    · refine ⟨⟨i, j, hi, h.filter_target.mpr (.inl hstored), hj⟩,
        fun hno => absurd hstored (hno i), fun k hk => ?_⟩
      obtain rfl := hw.distinct i k f hstored hk
      rw [h.qos_target, mergedQoS_stored hstored]
      exact (prvGetNewQoS_upgrades _ _).mpr hqos
    · refine ⟨⟨i, j, hi, h.filter_target.mpr (.inr ⟨hempty, hneeds⟩), hj⟩, fun hno => ?_,
        fun k hk => ?_⟩
      · refine ⟨_, h.sent.trans (if_pos hneeds), ?_⟩
        rw [h.listed hempty hneeds hlt, hnew hno]
      · rw [h.qos_other (ne_of_filterAt hk hempty)]
        exact ⟨le_rfl, hqos k hk⟩

end target

section prefixedFilter

def prefixedFilter : CString := ⟨[97, 98], by decide⟩

theorem subscribeSync_targetsFilter_shared :
    TargetsFilter subscribedTable 2 ⟨1, some sharedFilter, .mqttQoS0, 20, 0⟩ sharedFilter true
      (mqttAgentSubscribeSync subscribedTable 2 ⟨1, some sharedFilter, .mqttQoS0, 20, 0⟩ true
        acceptedReply) :=
  (subscribeSync_targetsFilter_iff settled_subscribedTable.toTableWf.tableRep rfl
    (by decide +kernel)).mpr (by decide +kernel)

/-- With "a" in the table a callback for "ab" is attached to "a". -/
theorem not_targetsFilter_prefixed :
    ¬ ∀ s, Settled s → ∀ task a f xMalloc reply, a.pcTopicFilter = some f →
      (mqttAgentSubscribeSync s task a xMalloc reply).xStatus = .mqttSuccess →
      TargetsFilter s task a f xMalloc (mqttAgentSubscribeSync s task a xMalloc reply) := by
  intro h
  have ht := h subscribedTable settled_subscribedTable 2 ⟨1, some prefixedFilter, .mqttQoS1, 20, 0⟩
    prefixedFilter true acceptedReply rfl (by decide +kernel)
  obtain ⟨i, j, -, hi, -⟩ := ht.attached
  revert i
  decide +kernel

end prefixedFilter

end RenesasDemo.Mqtt
