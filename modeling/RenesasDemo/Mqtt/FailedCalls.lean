import RenesasDemo.Mqtt.SubscribeOutcome

namespace RenesasDemo.Mqtt

open Framework

/-- How the tables are laid out, whatever they mean: lengths fit their filters, and an empty
callback element is all zero. -/
structure TableLayout (s : SubMgrCtx) : Prop extends SlotsWf s where
  cleared : ∀ j, (s.pxCallbacks j).pxSubInfo = none → s.pxCallbacks j = .zero

theorem TableWf.tableLayout {s : SubMgrCtx} (hw : TableWf s) : TableLayout s where
  toSlotsWf := hw.toSlotsWf
  cleared := hw.cleared

/-- What a failed call has to leave alone. -/
structure NoEffect (s s' : SubMgrCtx) : Prop where
  filter : s'.filterAt = s.filterAt
  qos : ∀ i, s.filterAt i ≠ none → (s'.pxSubscriptions i).qos = (s.pxSubscriptions i).qos
  count : s'.pulSubCbCount = s.pulSubCbCount
  callbacks : s'.pxCallbacks = s.pxCallbacks
  subscriptionNumber : s'.uxSubscriptionCount = s.uxSubscriptionCount
  callbackNumber : s'.uxCallbackCount = s.uxCallbackCount

/-- The filter of a call whose arguments pass every check. -/
def MqttCall.checked : MqttCall → Option CString
  | subscribe _ args _ _ => args.checked
  | unsubscribe _ args _ => args.checked

def Registered (s : SubMgrCtx) (xCurrentTask : Ptr) (a : UnSubscribeArgs) (f : CString) : Prop :=
  ∃ i j, s.filterAt i = some f ∧
    s.pxCallbacks j = ⟨a.pxCallback, a.pvCallbackCtx, xCurrentTask, some i⟩

structure FailsCleanly (s : SubMgrCtx) (c : MqttCall) : Prop where
  noEffect : (c.run s).xStatus ≠ .mqttSuccess → NoEffect s (c.run s).ctx
  badParameter : c.checked = none → (c.run s).xStatus = .mqttBadParameter
  notRegistered : ∀ task a reply f, c = .unsubscribe task a reply → a.checked = some f →
    ¬ Registered s task a f → (c.run s).sent = none ∧ (c.run s).xStatus ≠ .mqttSuccess

def FirstStored (s : SubMgrCtx) (f : CString) (i : SubIdx) : Prop :=
  s.filterAt i = some f ∧ ∀ k < i, s.filterAt k ≠ some f

def FirstDrained (s : SubMgrCtx) (f : CString) (i : SubIdx) : Prop :=
  (s.filterAt i = some f ∧ s.pulSubCbCount i = 0) ∧
    ∀ k < i, ¬ (s.filterAt k = some f ∧ s.pulSubCbCount k = 0)

/-- The agent accepts the SUBSCRIBE, or the call stops before it, or it changes nothing: the
callback is registered with an entry that keeps its QoS. -/
def SubscribeFits (s : SubMgrCtx) (xCurrentTask : Ptr) (a : SubscribeArgs) (f : CString)
    (xMalloc : Bool) (reply : AgentReply) : Prop :=
  (prvSendSubRequest reply).xStatus = .mqttSuccess ∨ ∀ i, SearchTarget s f i →
    ¬ CallbackPlace s ⟨a.pxCallback, a.pvCallbackCtx, xCurrentTask, some i⟩ ∨
    ¬ NeedsSubscribe s f i a.xRequestedQoS ∨
    (s.filterAt i = none ∧ xMalloc = false) ∨
    (s.filterAt i ≠ none ∧ (s.pxSubscriptions i).qos = mergedQoS s f i a.xRequestedQoS ∧
      ∃ j, s.pxCallbacks j = ⟨a.pxCallback, a.pvCallbackCtx, xCurrentTask, some i⟩)

/-- The filter has no reference to drop, or dropping it drains a slot with which the callback is
registered. -/
def UnSubscribeFits (s : SubMgrCtx) (xCurrentTask : Ptr) (a : UnSubscribeArgs) (f : CString) :
    Prop :=
  ∀ i, FirstStored s f i → s.pulSubCbCount i = 0 ∨
    ∃ k j, FirstDrained (s.dropReference i) f k ∧
      s.pxCallbacks j = ⟨a.pxCallback, a.pvCallbackCtx, xCurrentTask, some k⟩

/-- The calls that fail cleanly. -/
def CallFits (s : SubMgrCtx) : MqttCall → Prop
  | .subscribe xCurrentTask a xMalloc reply =>
      ∃ f, a.checked = some f ∧ SubscribeFits s xCurrentTask a f xMalloc reply
  | .unsubscribe xCurrentTask a _ =>
      ∀ f, a.checked = some f → UnSubscribeFits s xCurrentTask a f

section unsubscribe

variable {s : SubMgrCtx} {f : CString} {i : SubIdx}

theorem firstStored_iff (hw : SlotsWf s) (hpos : 0 < f.length) (hlt : f.length < uint16Max) :
    firstSlot (sameFilter s f) = some i ↔ FirstStored s f i := by
  have hsame := sameFilter_iff hw hpos hlt
  rw [firstSlot_eq_some, FirstStored, hsame]
  simp only [Bool.eq_false_iff, ne_eq, hsame]

theorem firstDrained_iff (hw : SlotsWf s) (hpos : 0 < f.length) (hlt : f.length < uint16Max) :
    firstSlot (fun i => s.pulSubCbCount i == 0 && sameFilter s f i) = some i ↔
      FirstDrained s f i := by
  have hsame := sameFilter_iff hw hpos hlt
  rw [firstSlot_eq_some, FirstDrained]
  simp only [Bool.eq_false_iff, ne_eq, Bool.and_eq_true, beq_iff_eq, hsame, and_comm]

theorem FirstStored.unique {k : SubIdx} (hi : FirstStored s f i) (hk : FirstStored s f k) :
    i = k := by
  rcases lt_trichotomy i k with h | h | h
  · exact absurd hi.1 (hk.2 i h)
  · exact h
  · exact absurd hk.1 (hi.2 k h)

/-- The last phase fails without effect, or finds the callback at the lowest drained slot. -/
theorem unsubscribeRemove_cases (hl : TableLayout s) (hpos : 0 < f.length)
    (hlt : f.length < uint16Max) (self : Ptr) {cb : Ptr} (hcb : cb ≠ 0) (ctx : Ptr)
    (ulCallbackCount : Nat) (xStatus : MQTTStatus) {r : SubMgrCtx × MQTTStatus}
    (hr : r = unsubscribeRemove s self f cb ctx ulCallbackCount xStatus) :
    (r.2 = .mqttSuccess ∧ ∃ k j, FirstDrained s f k ∧ s.pxCallbacks j = ⟨cb, ctx, self, some k⟩) ∨
      (r.2 ≠ .mqttSuccess ∧ r.1 = s ∧
        ∀ k j, FirstDrained s f k → s.pxCallbacks j ≠ ⟨cb, ctx, self, some k⟩) := by
  have hdrained (k : SubIdx) := firstDrained_iff (i := k) hl.toSlotsWf hpos hlt
  unfold unsubscribeRemove at hr
  dsimp only at hr
  cases hslot : firstSlot fun i => s.pulSubCbCount i == 0 && sameFilter s f i with
  | none =>
    rw [hslot] at hr
    refine .inr ⟨?_, ?_, fun k j hk => ?_⟩
    · by_cases hst : xStatus = .mqttSuccess
      · simp [hr, hst, firstSlot_nullCallback hl.cleared self hcb ctx]
      · simp [hr, hst]
    · by_cases hst : xStatus = .mqttSuccess
      · simp [hr, hst, firstSlot_nullCallback hl.cleared self hcb ctx]
      · simp [hr, hst]
    · rw [← hdrained k, hslot] at hk
      cases hk
  | some k =>
    have hk := (hdrained k).mp hslot
    rw [hslot] at hr
    simp only [Option.isSome_some, if_true] at hr
    cases hcbs : firstSlot fun j => prvMatchCbCtx (s.pxCallbacks j) (some k) cb ctx self with
    | none =>
      rw [hcbs] at hr
      refine .inr ⟨by simp [hr], by simp [hr], fun k' j hk' he => ?_⟩
      obtain rfl : k = k' := Option.some.inj (hslot.symm.trans ((hdrained k').mpr hk'))
      have h := firstSlot_eq_none.mp hcbs j
      rw [Bool.eq_false_iff, ne_eq, prvMatchCbCtx_iff] at h
      exact h he
    | some j =>
      have hj := (prvMatchCbCtx_iff _ _ _ _ _).mp (firstSlot_eq_some.mp hcbs).1
      rw [hcbs] at hr
      refine .inl ⟨?_, k, j, hk, hj⟩
      rw [hr]
      dsimp only
      split_ifs <;> rfl

theorem noEffect_refl (s : SubMgrCtx) : NoEffect s s := ⟨rfl, fun _ _ => rfl, rfl, rfl, rfl, rfl⟩

/-- A dropped reference shows unless there was none. -/
theorem noEffect_dropReference : NoEffect s (s.dropReference i) ↔ s.pulSubCbCount i = 0 := by
  constructor
  · intro h
    have hi := congrFun h.count i
    simp only [SubMgrCtx.dropReference, Function.update_self] at hi
    omega
  · intro hz
    have hsame : Function.update s.pulSubCbCount i 0 = s.pulSubCbCount := by
      rw [← hz, Function.update_eq_self]
    have hdrop : s.dropReference i = s := by simp [SubMgrCtx.dropReference, hz, hsame]
    rw [hdrop]
    exact noEffect_refl s

/-- A complete unsubscribe with valid arguments, by the lowest slot that stores the filter. -/
theorem unsubscribeSync_cases (hl : TableLayout s) {a : UnSubscribeArgs} (ha : a.checked = some f)
    (task : Ptr) (reply : AgentReply) {r : SyncResult}
    (hr : r = mqttAgentUnSubscribeSync s task a reply) :
    ((∀ i, s.filterAt i ≠ some f) ∧ r.xStatus ≠ .mqttSuccess ∧ r.ctx = s ∧ r.sent = none) ∨
      ∃ i, FirstStored s f i ∧ (r.sent = none ↔ s.pulSubCbCount i ≠ 1) ∧
        ((r.xStatus = .mqttSuccess ∧ ∃ k j, FirstDrained (s.dropReference i) f k ∧
            s.pxCallbacks j = ⟨a.pxCallback, a.pvCallbackCtx, task, some k⟩) ∨
          (r.xStatus ≠ .mqttSuccess ∧ r.ctx = s.dropReference i ∧
            ∀ k j, FirstDrained (s.dropReference i) f k →
              s.pxCallbacks j ≠ ⟨a.pxCallback, a.pvCallbackCtx, task, some k⟩)) := by
  obtain ⟨hpos, hlt, hcb⟩ := a.checked_length ha
  unfold mqttAgentUnSubscribeSync at hr
  rw [ha] at hr
  dsimp only at hr
  cases hfirst : firstSlot (sameFilter s f) with
  | none =>
    have hno : ∀ i, s.filterAt i ≠ some f := by
      intro i hi
      have hi' := firstSlot_eq_none.mp hfirst i
      rw [(sameFilter_iff hl.toSlotsWf hpos hlt i).mpr hi] at hi'
      cases hi'
    rw [unsubscribeDecrement_absent hl.toSlotsWf hpos hlt hno] at hr
    have hcases := unsubscribeRemove_cases hl hpos hlt task hcb a.pvCallbackCtx 0
      .mqttNoDataAvailable rfl
    obtain ⟨-, k, j, hk, -⟩ | ⟨hst, hctx, -⟩ := hcases
    · exact absurd hk.1.1 (hno k)
    · subst hr
      exact .inl ⟨hno, hst, hctx, rfl⟩
  | some i =>
    have hi := (firstStored_iff hl.toSlotsWf hpos hlt).mp hfirst
    rw [unsubscribeDecrement_slot hfirst] at hr
    refine .inr ⟨i, hi, ?_, ?_⟩
    · subst hr
      simp [UnSubscribeDecrement.toSend]
    · subst hr
      have hl' : TableLayout (s.dropReference i) := ⟨⟨hl.empty, hl.stored⟩, hl.cleared⟩
      exact unsubscribeRemove_cases hl' hpos hlt task hcb a.pvCallbackCtx _ _ rfl

/-- An unsubscribe with valid arguments fails cleanly exactly when it has no reference to drop or
succeeds. -/
theorem unsubscribeSync_fits_iff (hl : TableLayout s) {a : UnSubscribeArgs}
    (ha : a.checked = some f) (task : Ptr) (reply : AgentReply) {r : SyncResult}
    (hr : r = mqttAgentUnSubscribeSync s task a reply) :
    ((r.xStatus ≠ .mqttSuccess → NoEffect s r.ctx) ∧
      (¬ Registered s task a f → r.sent = none ∧ r.xStatus ≠ .mqttSuccess)) ↔
      UnSubscribeFits s task a f := by
  obtain ⟨hno, hst, hctx, hsent⟩ | ⟨i, hi, hsent, hcases⟩ :=
    unsubscribeSync_cases hl ha task reply hr
  · refine iff_of_true ⟨fun _ => ?_, fun _ => ⟨hsent, hst⟩⟩ ?_
    · rw [hctx]
      exact noEffect_refl s
    · exact fun i hi => absurd hi.1 (hno i)
  · obtain ⟨hst, k, j, hk, hj⟩ | ⟨hst, hctx, hnot⟩ := hcases
    · -- The call succeeds, so the callback was registered.
      have hreg : Registered s task a f := ⟨k, j, hk.1.1, hj⟩
      refine iff_of_true ⟨fun hne => absurd hst hne, fun hnreg => absurd hreg hnreg⟩ ?_
      intro i' hi'
      obtain rfl := hi.unique hi'
      exact .inr ⟨k, j, hk, hj⟩
    · constructor
      · intro h i' hi'
        obtain rfl := hi.unique hi'
        have heff := h.1 hst
        rw [hctx] at heff
        exact .inl (noEffect_dropReference.mp heff)
      · intro hfit
        obtain hz | ⟨k, j, hk, hj⟩ := hfit i hi
        · refine ⟨fun _ => ?_, fun _ => ⟨hsent.mpr (by omega), hst⟩⟩
          rw [hctx]
          exact noEffect_dropReference.mpr hz
        · exact absurd hj (hnot k j hk)

end unsubscribe

section subscribe

variable {s : SubMgrCtx} {f : CString} {i : SubIdx}

theorem Joins.place {s2 s' : SubMgrCtx} {e : SubCallbackElement} (h : Joins s2 s' e i)
    (h2 : s2.pxCallbacks = s.pxCallbacks) : CallbackPlace s e := by
  obtain ⟨-, j, hj⟩ | ⟨j, hfree, -, -⟩ := h
  · exact ⟨j, .inl (by rw [← h2]; exact hj)⟩
  · exact ⟨j, .inr (by rw [← h2]; exact hfree)⟩

/-- Joining leaves the list as it is only if the callback is in it. -/
theorem Joins.callbacks_eq {s2 s' : SubMgrCtx} {e : SubCallbackElement} (h : Joins s2 s' e i)
    (he : e.pxSubInfo ≠ none) (hsame : s'.pxCallbacks = s2.pxCallbacks) :
    ∃ j, s2.pxCallbacks j = e := by
  obtain ⟨-, hj⟩ | ⟨j, hfree, -, rfl⟩ := h
  · exact hj
  · have hj := congrFun hsame j
    simp only [SubMgrCtx.attachCallback, Function.update_self] at hj
    rw [← hj] at hfree
    exact absurd hfree he

theorem noEffect_emptyQoS (ack : SubIdx → MQTTSubAckStatus) (q : MQTTQoS)
    (hi : s.filterAt i = none) : NoEffect s ((s.withAck ack).setQoS i q) where
  filter := (setQoS_filtersKept i q).filter
  qos k hk := by
    have hki : k ≠ i := by
      intro hki
      rw [hki] at hk
      exact hk hi
    simp [SubMgrCtx.setQoS, SubMgrCtx.withAck, hki]
  count := rfl
  callbacks := rfl
  subscriptionNumber := rfl
  callbackNumber := rfl

/-- A rejected SUBSCRIBE for a stored filter shows in its QoS or in the callback list. -/
theorem noEffect_merged {s' : SubMgrCtx} {e : SubCallbackElement} {ack : SubIdx → MQTTSubAckStatus}
    {q : MQTTQoS} (r : SubRequestResult) (he : e.pxSubInfo ≠ none) (hi : s.filterAt i ≠ none)
    (hjoin : Joins ((s.withAck ack).setQoS i q) s' e i) :
    NoEffect s (s'.storeAck i r) ↔ (s.pxSubscriptions i).qos = q ∧ ∃ j, s.pxCallbacks j = e := by
  constructor
  · intro h
    constructor
    · have hqos := h.qos i hi
      rw [storeAck_pxSubscriptions, hjoin.kept.1] at hqos
      simpa [SubMgrCtx.setQoS] using hqos.symm
    · have hcbs := h.callbacks
      rw [storeAck_pxCallbacks] at hcbs
      exact hjoin.callbacks_eq he hcbs
  · intro h
    obtain ⟨hqos, j, hj⟩ := h
    obtain ⟨rfl, -⟩ | ⟨-, -, hnew, -⟩ := hjoin
    · have hsame : ((s.withAck ack).setQoS i q).pxSubscriptions = s.pxSubscriptions := by
        simp [SubMgrCtx.setQoS, SubMgrCtx.withAck, ← hqos]
      refine ⟨?_, fun k _ => ?_, ?_, ?_, ?_, ?_⟩
      · rw [storeAck_filterAt]
        exact (setQoS_filtersKept i q).filter
      · rw [storeAck_pxSubscriptions, hsame]
      · rw [storeAck_pulSubCbCount]
        rfl
      · rw [storeAck_pxCallbacks]
        rfl
      · rw [storeAck_uxSubscriptionCount]
        rfl
      · rw [storeAck_uxCallbackCount]
        rfl
    · exact absurd hj (hnew j)

/-- A subscribe with valid arguments fails cleanly exactly when it fits. -/
theorem subscribeSync_fits_iff (hw : SlotsWf s) {a : SubscribeArgs} (ha : a.checked = some f)
    (task : Ptr) (xMalloc : Bool) (reply : AgentReply) {r : SyncResult}
    (hr : r = mqttAgentSubscribeSync s task a xMalloc reply) :
    (r.xStatus ≠ .mqttSuccess → NoEffect s r.ctx) ↔ SubscribeFits s task a f xMalloc reply := by
  unfold mqttAgentSubscribeSync at hr
  rw [ha] at hr
  dsimp only at hr
  have houtcome := subscribeLocked_outcome hw task f a.xRequestedQoS a.pxCallback
    a.pvCallbackCtx xMalloc
  generalize subscribeLocked s task f a.xRequestedQoS a.pxCallback a.pvCallbackCtx xMalloc = u
    at hr houtcome
  cases houtcome with
  | noSlot hno =>
    subst hr
    exact iff_of_true (fun _ => noEffect_refl s) (.inr fun i hi => absurd hi (hno i))
  | noCallback i ack ht hplace =>
    subst hr
    refine iff_of_true (fun _ => ⟨rfl, fun _ _ => rfl, rfl, rfl, rfl, rfl⟩) (.inr fun k hk => ?_)
    obtain rfl := ht.unique hk
    exact .inl hplace
  | noMemory i ack ht hplace hneeds hi hmem =>
    subst hr
    refine iff_of_true (fun _ => noEffect_emptyQoS ack _ hi) (.inr fun k hk => ?_)
    obtain rfl := ht.unique hk
    exact .inr (.inr (.inl ⟨hi, hmem⟩))
  | acknowledged i ack s' ht hneeds hack hjoin =>
    rw [SubscribeUpdate.toSend_some rfl rfl, hjoin.kept.2.1, if_neg (by exact hack)] at hr
    subst hr
    refine iff_of_true (fun hne => absurd rfl hne) (.inr fun k hk => ?_)
    obtain rfl := ht.unique hk
    exact .inr (.inl hneeds)
  | merged i ack s' g ht hneeds hi hack hjoin =>
    rw [SubscribeUpdate.toSend_some rfl rfl, hjoin.kept.2.1, if_pos (by exact hack)] at hr
    subst hr
    dsimp only
    by_cases hst : (prvSendSubRequest reply).xStatus = .mqttSuccess
    · exact iff_of_true (fun hne => absurd hst hne) (.inl hst)
    · have hocc : s.filterAt i ≠ none := by simp [hi]
      rw [noEffect_merged _ (by simp) hocc hjoin]
      constructor
      · intro h
        refine .inr fun k hk => ?_
        obtain rfl := ht.unique hk
        exact .inr (.inr (.inr ⟨hocc, h hst⟩))
      · intro hfit _
        obtain hplace | hn | ⟨hnone, -⟩ | ⟨-, hsame⟩ := (hfit.resolve_left hst) i ht
        · exact absurd (hjoin.place rfl) hplace
        · exact absurd hneeds hn
        · exact absurd hnone hocc
        · exact hsame
  | created i ack s' ht hneeds hi hmem hack hjoin =>
    rw [SubscribeUpdate.toSend_some rfl rfl, hjoin.kept.2.1, if_pos (by exact hack)] at hr
    subst hr
    dsimp only
    by_cases hst : (prvSendSubRequest reply).xStatus = .mqttSuccess
    · exact iff_of_true (fun hne => absurd hst hne) (.inl hst)
    · refine iff_of_false (fun h => ?_) fun hfit => ?_
      · have hfilter := congrFun (h hst).filter i
        rw [storeAck_filterAt, hi, SubMgrCtx.filterAt, hjoin.kept.1] at hfilter
        simp [SubMgrCtx.setQoS, SubMgrCtx.storeFilter] at hfilter
      · obtain hplace | hn | ⟨-, hfalse⟩ | ⟨hocc, -⟩ := (hfit.resolve_left hst) i ht
        · exact absurd (hjoin.place rfl) hplace
        · exact absurd hneeds hn
        · rw [hmem] at hfalse
          cases hfalse
        · exact absurd hi hocc

end subscribe

/-- A subscribe call with a bad parameter never fails cleanly: it has another status. -/
theorem subscribe_cleanly_iff {s : SubMgrCtx} (hl : TableLayout s) (task : Ptr)
    (a : SubscribeArgs) (xMalloc : Bool) (reply : AgentReply) :
    FailsCleanly s (.subscribe task a xMalloc reply) ↔
      ∃ f, a.checked = some f ∧ SubscribeFits s task a f xMalloc reply := by
  cases ha : a.checked with
  | none =>
    refine iff_of_false (fun h => ?_) ?_
    · have hbad := h.badParameter ha
      simp [MqttCall.run, mqttAgentSubscribeSync, ha] at hbad
    · intro h
      obtain ⟨f, hf, -⟩ := h
      cases hf
  | some f =>
    have hiff := subscribeSync_fits_iff hl.toSlotsWf ha task xMalloc reply rfl
    constructor
    · intro h
      exact ⟨f, rfl, hiff.mp h.noEffect⟩
    · intro h
      obtain ⟨f', hf', hfit⟩ := h
      obtain rfl := Option.some.inj hf'
      refine ⟨hiff.mpr hfit, fun hnone => ?_, fun _ _ _ _ hc => by cases hc⟩
      rw [MqttCall.checked, ha] at hnone
      cases hnone

theorem unsubscribe_cleanly_iff {s : SubMgrCtx} (hl : TableLayout s) (task : Ptr)
    (a : UnSubscribeArgs) (reply : AgentReply) :
    FailsCleanly s (.unsubscribe task a reply) ↔
      ∀ f, a.checked = some f → UnSubscribeFits s task a f := by
  cases ha : a.checked with
  | none =>
    have hrun : (MqttCall.unsubscribe task a reply).run s = ⟨s, .mqttBadParameter, none⟩ := by
      simp [MqttCall.run, mqttAgentUnSubscribeSync, ha]
    refine iff_of_true ⟨fun _ => ?_, fun _ => by rw [hrun], ?_⟩ ?_
    · rw [hrun]
      exact noEffect_refl s
    · intro task' a' reply' f hc hf
      cases hc
      rw [ha] at hf
      cases hf
    · intro f hf
      cases hf
  | some f =>
    have hiff := unsubscribeSync_fits_iff hl ha task reply rfl
    constructor
    · intro h f' hf'
      obtain rfl := Option.some.inj hf'
      exact hiff.mp ⟨h.noEffect, h.notRegistered task a reply f rfl ha⟩
    · intro h
      obtain ⟨hno, hreg⟩ := hiff.mpr (h f rfl)
      refine ⟨hno, fun hnone => ?_, fun task' a' reply' f' hc hf' => ?_⟩
      · rw [MqttCall.checked, ha] at hnone
        cases hnone
      · cases hc
        obtain rfl : f = f' := Option.some.inj (ha.symm.trans hf')
        exact hreg

/-- A call fails cleanly exactly under its condition, from every table. -/
theorem failsCleanly_iff {s : SubMgrCtx} (hl : TableLayout s) (c : MqttCall) :
    FailsCleanly s c ↔ CallFits s c := by
  cases c with
  | subscribe task a xMalloc reply => exact subscribe_cleanly_iff hl task a xMalloc reply
  | unsubscribe task a reply => exact unsubscribe_cleanly_iff hl task a reply

section layout

variable {s s' : SubMgrCtx} {f : CString} {i : SubIdx}

/-- The tables that the last phase of an unsubscribe can leave. -/
theorem unsubscribeRemove_ctx (s : SubMgrCtx) (self : Ptr) (f : CString) (cb ctx : Ptr)
    (ulCallbackCount : Nat) (xStatus : MQTTStatus) {s' : SubMgrCtx}
    (hs : s' = (unsubscribeRemove s self f cb ctx ulCallbackCount xStatus).1) :
    s' = s ∨ ∃ j, s' = s.removeCallback j ∨ ∃ i, s' = (s.removeCallback j).freeSubscription i := by
  unfold unsubscribeRemove at hs
  dsimp only at hs
  generalize (firstSlot fun i => s.pulSubCbCount i == 0 && sameFilter s f i) = pxSubInfo at hs
  generalize (if pxSubInfo.isSome = true then MQTTStatus.mqttSuccess else xStatus) = st at hs
  by_cases hst : st = .mqttSuccess
  · rw [if_pos hst] at hs
    cases hcb : firstSlot fun j => prvMatchCbCtx (s.pxCallbacks j) pxSubInfo cb ctx self with
    | none =>
      rw [hcb] at hs
      exact .inl hs
    | some j =>
      rw [hcb] at hs
      refine .inr ⟨j, ?_⟩
      cases pxSubInfo with
      | none => exact .inl hs
      | some i =>
        dsimp only at hs
        split_ifs at hs
        · exact .inr ⟨i, hs⟩
        · exact .inl hs
  · rw [if_neg hst] at hs
    exact .inl hs

theorem TableLayout.removeCallback (hl : TableLayout s) (j : CbIdx) :
    TableLayout (s.removeCallback j) where
  toSlotsWf := ⟨hl.empty, hl.stored⟩
  cleared := (removeCallback_removed hl.cleared j).cleared hl.cleared

theorem TableLayout.freeSubscription (hl : TableLayout s) (i : SubIdx) :
    TableLayout (s.freeSubscription i) where
  toSlotsWf := hl.toSlotsWf.free (freeSubscription_freed i)
  cleared := hl.cleared

theorem TableLayout.attach {s2 : SubMgrCtx} {e : SubCallbackElement} (hl : TableLayout s)
    (hw : SlotsWf s2) (h2 : s2.pxCallbacks = s.pxCallbacks) (he : e.pxSubInfo ≠ none)
    (hjoin : Joins s2 s' e i) : TableLayout s' := by
  obtain ⟨rfl, -⟩ | ⟨j, -, -, rfl⟩ := hjoin
  · exact ⟨hw, by rw [h2]; exact hl.cleared⟩
  · refine ⟨⟨hw.empty, hw.stored⟩, fun k hk => ?_⟩
    simp only [SubMgrCtx.attachCallback, h2] at hk ⊢
    by_cases hkj : k = j
    · subst hkj
      rw [Function.update_self] at hk
      exact absurd hk he
    · rw [Function.update_of_ne hkj] at hk ⊢
      exact hl.cleared k hk

theorem TableLayout.storeAck (hl : TableLayout s) (i : SubIdx) (r : SubRequestResult) :
    TableLayout (s.storeAck i r) where
  empty k hk := by
    rw [storeAck_filterAt] at hk
    rw [storeAck_pxSubscriptions]
    exact hl.empty k hk
  stored k g hk := by
    rw [storeAck_filterAt] at hk
    rw [storeAck_pxSubscriptions]
    exact hl.stored k g hk
  cleared := by
    rw [storeAck_pxCallbacks]
    exact hl.cleared

theorem subscribeLocked_layout (hl : TableLayout s) (self : Ptr) (q : MQTTQoS) (cb ctx : Ptr)
    (xMalloc : Bool) (hpos : 0 < f.length) (hlt : f.length < uint16Max) :
    TableLayout (subscribeLocked s self f q cb ctx xMalloc).ctx := by
  have hw (ack : SubIdx → MQTTSubAckStatus) : SlotsWf (s.withAck ack) := ⟨hl.empty, hl.stored⟩
  have houtcome := subscribeLocked_outcome hl.toSlotsWf self f q cb ctx xMalloc
  generalize subscribeLocked s self f q cb ctx xMalloc = u at houtcome ⊢
  cases houtcome with
  | noSlot hno => exact hl
  | noCallback i ack => exact ⟨hw ack, hl.cleared⟩
  | noMemory i ack => exact ⟨(hw ack).kept (setQoS_filtersKept i _), hl.cleared⟩
  | acknowledged i ack s' ht hneeds hack hjoin => exact hl.attach (hw ack) rfl (by simp) hjoin
  | merged i ack s' g ht hneeds hi hack hjoin =>
    exact hl.attach ((hw ack).kept (setQoS_filtersKept i _)) rfl (by simp) hjoin
  | created i ack s' ht hneeds hi hmem hack hjoin =>
    exact hl.attach ((hw ack).store (storeFilter_stored i f _ hlt) hpos hlt) rfl (by simp) hjoin

/-- Every call keeps the layout, whether it succeeds or fails. -/
theorem tableLayout_call (hl : TableLayout s) (c : MqttCall) : TableLayout (c.run s).ctx := by
  cases c with
  | subscribe task a xMalloc reply =>
    cases ha : a.checked with
    | none => simpa [MqttCall.run, mqttAgentSubscribeSync, ha] using hl
    | some f =>
      obtain ⟨hpos, hlt⟩ := a.checked_length ha
      have hlocked := subscribeLocked_layout hl task a.xRequestedQoS a.pxCallback
        a.pvCallbackCtx xMalloc hpos hlt
      obtain ⟨hctx, -⟩ | ⟨i, -, -, hctx, -⟩ := subscribeSync_cases ha xMalloc reply rfl rfl
      · change TableLayout (mqttAgentSubscribeSync s task a xMalloc reply).ctx
        rwa [hctx]
      · change TableLayout (mqttAgentSubscribeSync s task a xMalloc reply).ctx
        rw [hctx]
        exact hlocked.storeAck i _
  | unsubscribe task a reply =>
    cases ha : a.checked with
    | none => simpa [MqttCall.run, mqttAgentUnSubscribeSync, ha] using hl
    | some f =>
      have hdecrement : TableLayout (unsubscribeDecrement s f).ctx := by
        unfold unsubscribeDecrement
        split
        · exact hl
        · dsimp only
          split_ifs
          · exact ⟨⟨hl.empty, hl.stored⟩, hl.cleared⟩
          · exact hl
      have hctx := unsubscribeRemove_ctx (unsubscribeDecrement s f).ctx task f a.pxCallback
        a.pvCallbackCtx (unsubscribeDecrement s f).ulCallbackCount
        (if (unsubscribeDecrement s f).toSend then prvSendUnsubRequest reply
          else (unsubscribeDecrement s f).xStatus) rfl
      change TableLayout (mqttAgentUnSubscribeSync s task a reply).ctx
      unfold mqttAgentUnSubscribeSync
      rw [ha]
      dsimp only
      obtain hsame | ⟨j, hrem | ⟨i, hfree⟩⟩ := hctx
      · rwa [hsame]
      · rw [hrem]
        exact hdecrement.removeCallback j
      · rw [hfree]
        exact (hdecrement.removeCallback j).freeSubscription i

end layout

theorem tableLayout_run {cs : List MqttCall} {s : SubMgrCtx}
    (hrun : Run CallStep prvSubscriptionManagerCtxReset cs s) : TableLayout s := by
  refine hrun.invariant settled_reset.toTableWf.tableLayout ?_
  intro s c t hs hstep
  subst hstep
  exact tableLayout_call hs c

section unregistered

theorem failsCleanly_noMemory : FailsCleanly prvSubscriptionManagerCtxReset
    (.subscribe 1 ⟨1, some sharedFilter, .mqttQoS1, 10, 0⟩ false ⟨.mqttNoMemory, none⟩) :=
  (failsCleanly_iff settled_reset.toTableWf.tableLayout _).mpr
    ⟨sharedFilter, rfl, .inr (by decide +kernel)⟩

/-- Another task unsubscribes from a filter it has no callback for: the call fails, but the
filter has lost its reference. -/
theorem not_failsCleanly_unregistered : ¬ ∀ s, Settled s → ∀ c, FailsCleanly s c := by
  intro h
  have hcount := ((h subscribedTable settled_subscribedTable
    (.unsubscribeFrom sharedFilter 2 20)).noEffect (by decide +kernel)).count
  exact absurd (congrFun hcount 1) (by decide +kernel)

end unregistered

end RenesasDemo.Mqtt
