import RenesasDemo.Mqtt.TableInvariant

namespace RenesasDemo.Mqtt

open Framework

/-- A complete call by one task; the allocator's and the agent's answers are part of it. -/
inductive MqttCall where
  | subscribe (xCurrentTask : Ptr) (args : SubscribeArgs) (xMalloc : Bool) (reply : AgentReply)
  | unsubscribe (xCurrentTask : Ptr) (args : UnSubscribeArgs) (reply : AgentReply)

def MqttCall.run (s : SubMgrCtx) : MqttCall → SyncResult
  | subscribe xCurrentTask args xMalloc reply =>
      mqttAgentSubscribeSync s xCurrentTask args xMalloc reply
  | unsubscribe xCurrentTask args reply => mqttAgentUnSubscribeSync s xCurrentTask args reply

def CallStep (s : SubMgrCtx) (c : MqttCall) (s' : SubMgrCtx) : Prop := s' = (c.run s).ctx

/-- What the tables promise with the mutex released and no call in flight. -/
structure SubscriptionTableInv (s : SubMgrCtx) : Prop where
  refCount : ∀ i, s.pulSubCbCount i = s.attachedTo i
  callbackCount : s.uxCallbackCount = slotCount (fun e => e.pxSubInfo ≠ none) s.pxCallbacks
  subscriptionCount : s.uxSubscriptionCount = slotCount (fun f => f ≠ none) s.filterAt
  noDangling : ∀ j i, (s.pxCallbacks j).pxSubInfo = some i → s.filterAt i ≠ none
  nullFilter : ∀ i, s.filterAt i = none ↔ (s.pxSubscriptions i).topicFilterLength = 0
  distinct : ∀ i k f, s.filterAt i = some f → s.filterAt k = some f → i = k

/-- The tables between calls: every occupied slot has a callback, and references are exact. -/
structure Settled (s : SubMgrCtx) : Prop extends TableWf s where
  refCount : ∀ i, s.pulSubCbCount i = s.attachedTo i
  inUse : ∀ i, s.filterAt i ≠ none → 0 < s.attachedTo i

theorem Settled.subscriptionTableInv {s : SubMgrCtx} (hs : Settled s) :
    SubscriptionTableInv s where
  refCount := hs.refCount
  callbackCount := hs.callbackCount
  subscriptionCount := hs.subscriptionCount
  noDangling := hs.noDangling
  nullFilter i := by
    refine ⟨hs.empty i, fun hlen => ?_⟩
    by_contra hocc
    obtain ⟨f, hf⟩ := Option.ne_none_iff_exists'.mp hocc
    have hlen' := hs.stored i f hf
    omega
  distinct := hs.distinct

theorem settled_reset : Settled prvSubscriptionManagerCtxReset where
  empty _ _ := rfl
  stored i f hf := absurd hf (by simp [SubMgrCtx.filterAt, prvSubscriptionManagerCtxReset,
    MQTTSubscribeInfo.zero])
  emptyAck _ _ := rfl
  distinct i k f hf := absurd hf (by simp [SubMgrCtx.filterAt, prvSubscriptionManagerCtxReset,
    MQTTSubscribeInfo.zero])
  subscriptionCount := (slotCount_eq_zero.mpr (by simp [SubMgrCtx.filterAt,
    prvSubscriptionManagerCtxReset, MQTTSubscribeInfo.zero])).symm
  cleared _ _ := rfl
  single j k _ hj := absurd rfl hj
  callbackCount := (slotCount_eq_zero.mpr (by simp [prvSubscriptionManagerCtxReset,
    SubCallbackElement.zero])).symm
  noDangling j i hj := absurd hj (by simp [prvSubscriptionManagerCtxReset,
    SubCallbackElement.zero])
  refCount i := (slotCount_eq_zero.mpr (by simp [prvSubscriptionManagerCtxReset,
    SubCallbackElement.zero])).symm
  inUse i hi := absurd rfl hi

/-- Whoever unsubscribes from a stored filter holds the only reference to it. -/
def SoleHolder (s : SubMgrCtx) (self : Ptr) (f : CString) (cb ctx : Ptr) : Prop :=
  ∀ i, s.filterAt i = some f →
    s.pulSubCbCount i = 1 ∧ ∃ j, s.pxCallbacks j = ⟨cb, ctx, self, some i⟩

/-- The calls that keep the tables consistent. -/
def CallOk (s : SubMgrCtx) : MqttCall → Prop
  | .subscribe _ args xMalloc _ => ∀ f ∈ args.checked, SearchOk s f xMalloc
  | .unsubscribe self args _ =>
      ∀ f ∈ args.checked, SoleHolder s self f args.pxCallback args.pvCallbackCtx

instance (s : SubMgrCtx) (f : CString) (k : SubIdx) : Decidable (FirstStop s f k) := by
  unfold FirstStop
  infer_instance

instance (s : SubMgrCtx) (f : CString) (xMalloc : Bool) : Decidable (SearchOk s f xMalloc) := by
  unfold SearchOk
  infer_instance

instance (s : SubMgrCtx) (self : Ptr) (f : CString) (cb ctx : Ptr) :
    Decidable (SoleHolder s self f cb ctx) :=
  inferInstanceAs (Decidable (∀ i, s.filterAt i = some f → _))

instance (s : SubMgrCtx) : (c : MqttCall) → Decidable (CallOk s c)
  | .subscribe _ args _ _ => inferInstanceAs (Decidable (∀ f ∈ args.checked, _))
  | .unsubscribe _ args _ => inferInstanceAs (Decidable (∀ f ∈ args.checked, _))

theorem topicFilterStatus_success {f : CString} (h : topicFilterStatus f = .mqttSuccess) :
    0 < f.length ∧ f.length < uint16Max := by
  unfold topicFilterStatus CString.strnlen at h
  dsimp only at h
  split_ifs at h with hlen
  omega

theorem SubscribeArgs.checked_eq_some {a : SubscribeArgs} {f : CString}
    (h : a.checked = some f) : a.pcTopicFilter = some f ∧ a.pxCallback ≠ 0 ∧
      topicFilterStatus f = .mqttSuccess := by
  unfold SubscribeArgs.checked at h
  cases hf : a.pcTopicFilter with
  | none => simp [hf] at h
  | some g =>
    simp only [hf] at h
    split_ifs at h with hbad hlen
    obtain rfl := Option.some.inj h
    exact ⟨rfl, fun h0 => hbad (.inr (.inl h0)), hlen⟩

theorem UnSubscribeArgs.checked_eq_some {a : UnSubscribeArgs} {f : CString}
    (h : a.checked = some f) : a.pcTopicFilter = some f ∧ a.pxCallback ≠ 0 ∧
      topicFilterStatus f = .mqttSuccess := by
  unfold UnSubscribeArgs.checked at h
  cases hf : a.pcTopicFilter with
  | none => simp [hf] at h
  | some g =>
    simp only [hf] at h
    split_ifs at h with hbad hlen
    obtain rfl := Option.some.inj h
    exact ⟨rfl, fun h0 => hbad (.inr h0), hlen⟩

theorem SubscribeArgs.checked_length {a : SubscribeArgs} {f : CString}
    (h : a.checked = some f) : 0 < f.length ∧ f.length < uint16Max := by
  obtain ⟨-, -, hstatus⟩ := a.checked_eq_some h
  exact topicFilterStatus_success hstatus

theorem UnSubscribeArgs.checked_length {a : UnSubscribeArgs} {f : CString}
    (h : a.checked = some f) : 0 < f.length ∧ f.length < uint16Max ∧ a.pxCallback ≠ 0 := by
  obtain ⟨-, hcb, hstatus⟩ := a.checked_eq_some h
  obtain ⟨hpos, hlt⟩ := topicFilterStatus_success hstatus
  exact ⟨hpos, hlt, hcb⟩

section calls

variable {s : SubMgrCtx} {self : Ptr} {f : CString}

/-- After the mutex is given, a subscribe can only store an acknowledgement, and only for the
slot it has just filled. -/
theorem subscribeSync_cases {a : SubscribeArgs} (ha : a.checked = some f) (xMalloc : Bool)
    (reply : AgentReply) {u : SubscribeUpdate}
    (hu : u = subscribeLocked s self f a.xRequestedQoS a.pxCallback a.pvCallbackCtx xMalloc)
    {r : SyncResult} (hr : r = mqttAgentSubscribeSync s self a xMalloc reply) :
    (r.ctx = u.ctx ∧ r.xStatus = u.xStatus) ∨
      ∃ i, u.uxTargetSubIdx = some i ∧ u.xStatus = .mqttSuccess ∧
        r.ctx = u.ctx.storeAck i (prvSendSubRequest reply) ∧
        r.xStatus = (prvSendSubRequest reply).xStatus := by
  unfold mqttAgentSubscribeSync at hr
  rw [ha] at hr
  dsimp only at hr
  rw [← hu] at hr
  unfold SubscribeUpdate.toSend at hr
  cases htarget : u.uxTargetSubIdx with
  | none => exact .inl (by simp [hr, htarget])
  | some i =>
    simp only [htarget] at hr
    split_ifs at hr with hsend
    · exact .inr ⟨i, rfl, hsend.1, by simp [hr], by simp [hr]⟩
    · exact .inl (by simp [hr])

/-- An unsubscribe from a stored filter drops one reference, then runs the removal. -/
theorem unsubscribeSync_stored (self : Ptr) (hw : TableWf s) {a : UnSubscribeArgs}
    (ha : a.checked = some f) {i : SubIdx} (hi : s.filterAt i = some f) (reply : AgentReply) :
    RemoveEffect (s.dropReference i) self f a.pxCallback a.pvCallbackCtx (s.pulSubCbCount i)
      ((mqttAgentUnSubscribeSync s self a reply).ctx,
        (mqttAgentUnSubscribeSync s self a reply).xStatus) := by
  obtain ⟨hpos, hlt, hcb⟩ := a.checked_length ha
  unfold mqttAgentUnSubscribeSync
  rw [ha]
  simp only [unsubscribeDecrement_stored hw.toFiltersWf hpos hlt hi]
  exact unsubscribeRemove_effect (hw.dropReference i) hpos hlt self hcb _ _ _

/-- The call by the only holder of a filter frees the slot, whatever the agent answers. -/
theorem unsubscribeSync_freed (hw : TableWf s) {a : UnSubscribeArgs} (ha : a.checked = some f)
    (hsole : SoleHolder s self f a.pxCallback a.pvCallbackCtx) {i : SubIdx}
    (hi : s.filterAt i = some f) (reply : AgentReply) {r : SyncResult}
    (hr : r = mqttAgentUnSubscribeSync s self a reply) :
    r.xStatus = .mqttSuccess ∧ FilterFreed (s.dropReference i) r.ctx i ∧
      ∃ j, s.pxCallbacks j = ⟨a.pxCallback, a.pvCallbackCtx, self, some i⟩ ∧
        CallbackRemoved (s.dropReference i) r.ctx j := by
  obtain ⟨hone, j, hj⟩ := hsole i hi
  have heffect := unsubscribeSync_stored self hw ha hi reply
  rw [← hr] at heffect
  have hzero : (s.dropReference i).pulSubCbCount i = 0 := by simp [SubMgrCtx.dropReference, hone]
  generalize r.ctx = s', r.xStatus = st at heffect ⊢
  cases heffect with
  | kept hne hnot => exact absurd hj (hnot i j hi hzero)
  | freed i' j' hi' hzero' hj' hone' hf hc =>
    obtain rfl := hw.distinct i' i f hi' hi
    exact ⟨rfl, hf, j', hj', hc⟩
  | removed i' j' hi' hzero' hj' hone' => exact absurd hone hone'

/-- A filter that no slot stores leaves the call without effect. -/
theorem unsubscribeSync_absent (self : Ptr) (hw : TableWf s) {a : UnSubscribeArgs}
    (ha : a.checked = some f) (hf : ∀ i, s.filterAt i ≠ some f) (reply : AgentReply)
    {r : SyncResult}
    (hr : r = mqttAgentUnSubscribeSync s self a reply) :
    r.xStatus ≠ .mqttSuccess ∧ r.ctx = s := by
  obtain ⟨hpos, hlt, hcb⟩ := a.checked_length ha
  have heffect : RemoveEffect s self f a.pxCallback a.pvCallbackCtx 0 (r.ctx, r.xStatus) := by
    unfold mqttAgentUnSubscribeSync at hr
    rw [ha] at hr
    simp only [unsubscribeDecrement_absent hw.toSlotsWf hpos hlt hf] at hr
    rw [hr]
    exact unsubscribeRemove_effect hw hpos hlt self hcb _ _ _
  generalize r.ctx = s', r.xStatus = st at heffect ⊢
  cases heffect with
  | kept hne hnot => exact ⟨hne, rfl⟩
  | freed i j hi => exact absurd hi (hf i)
  | removed i j hi => exact absurd hi (hf i)

/-- Anyone but the only holder leaves a stored filter with a wrong reference count. -/
theorem unsubscribeSync_miscount (hs : Settled s) {a : UnSubscribeArgs} (ha : a.checked = some f)
    (hsole : ¬ SoleHolder s self f a.pxCallback a.pvCallbackCtx) (reply : AgentReply)
    {r : SyncResult} (hr : r = mqttAgentUnSubscribeSync s self a reply) :
    ∃ i, r.ctx.pulSubCbCount i + 1 = r.ctx.attachedTo i := by
  unfold SoleHolder at hsole
  push Not at hsole
  obtain ⟨i, hi, hnot⟩ := hsole
  have hinUse := hs.inUse i (by simp [hi])
  have hcount := hs.refCount i
  have hself : (s.dropReference i).pulSubCbCount i = s.pulSubCbCount i - 1 := by
    simp [SubMgrCtx.dropReference]
  -- The count has dropped to zero for somebody else's callback, or has not reached zero.
  have hblocked (i' : SubIdx) (j : CbIdx) (hi' : s.filterAt i' = some f)
      (hzero : (s.dropReference i).pulSubCbCount i' = 0)
      (hj : s.pxCallbacks j = ⟨a.pxCallback, a.pvCallbackCtx, self, some i'⟩) : False := by
    obtain rfl := hs.distinct i' i f hi' hi
    exact hnot (by omega) j hj
  have heffect := unsubscribeSync_stored self hs.toTableWf ha hi reply
  rw [← hr] at heffect
  refine ⟨i, ?_⟩
  generalize r.ctx = s', r.xStatus = st at heffect ⊢
  cases heffect with
  | kept =>
    change (s.dropReference i).pulSubCbCount i + 1 = s.attachedTo i
    omega
  | freed i' j hi' hzero hj => exact (hblocked i' j hi' hzero hj).elim
  | removed i' j hi' hzero hj => exact (hblocked i' j hi' hzero hj).elim

end calls

/-- One call that meets its condition leaves the tables settled. -/
theorem settled_call {s : SubMgrCtx} (hs : Settled s) {c : MqttCall} (hok : CallOk s c) :
    Settled (c.run s).ctx := by
  cases c with
  | subscribe self a xMalloc reply =>
    cases ha : a.checked with
    | none => simpa [MqttCall.run, mqttAgentSubscribeSync, ha] using hs
    | some f =>
      obtain ⟨hpos, hlt⟩ := a.checked_length ha
      have heffect := subscribeLocked_effect hs.toTableWf hlt self a.xRequestedQoS a.pxCallback
        a.pvCallbackCtx xMalloc
      generalize hu : subscribeLocked s self f a.xRequestedQoS a.pxCallback a.pvCallbackCtx
        xMalloc = u at heffect
      have hwf := heffect.tableWf hs.toTableWf hpos hlt (hok f ha)
      have hsettled : Settled u.ctx := by
        refine ⟨hwf, fun i => ?_, heffect.inUse hs.inUse⟩
        have hbalance := heffect.balance i
        have hcount := hs.refCount i
        omega
      rcases subscribeSync_cases ha xMalloc reply hu.symm rfl with ⟨hctx, -⟩ | ⟨i, hi, hst, hctx, -⟩
      · change Settled (mqttAgentSubscribeSync s self a xMalloc reply).ctx
        rwa [hctx]
      · change Settled (mqttAgentSubscribeSync s self a xMalloc reply).ctx
        rw [hctx]
        refine ⟨hwf.storeAck _ (heffect.occupied hst hi), ?_, ?_⟩
        · simpa using hsettled.refCount
        · simpa using hsettled.inUse
  | unsubscribe self a reply =>
    cases ha : a.checked with
    | none => simpa [MqttCall.run, mqttAgentUnSubscribeSync, ha] using hs
    | some f =>
      by_cases hstored : ∃ i, s.filterAt i = some f
      · obtain ⟨i, hi⟩ := hstored
        obtain ⟨-, hf, j, hj, hc⟩ :=
          unsubscribeSync_freed hs.toTableWf ha (hok f ha) hi reply rfl
        change Settled (mqttAgentUnSubscribeSync s self a reply).ctx
        generalize (mqttAgentUnSubscribeSync s self a reply).ctx = s' at hf hc
        obtain ⟨hone, -⟩ := hok f ha i hi
        have hzero : (s.dropReference i).pulSubCbCount i = 0 := by
          simp [SubMgrCtx.dropReference, hone]
        have heffect : RemoveEffect (s.dropReference i) self f a.pxCallback a.pvCallbackCtx 1
            (s', .mqttSuccess) := .freed i j hi hzero hj rfl hf hc
        have hcount (k : SubIdx) : s'.attachedTo k + (if k = i then 1 else 0) = s.attachedTo k :=
          attachedTo_remove hc hj k
        refine ⟨heffect.tableWf (hs.toTableWf.dropReference i) ?_, fun k => ?_, fun k hk => ?_⟩
        · intro i' hi' _ _
          obtain rfl := hs.distinct i' i f hi' hi
          exact (hs.refCount i' ▸ hone).le
        · have hk := hcount k
          have href := hs.refCount k
          rw [hc.count]
          by_cases hki : k = i
          · subst hki
            simp only [hzero, if_true] at hk ⊢
            omega
          · simp only [hki, if_false, add_zero] at hk
            simp [SubMgrCtx.dropReference, hki, href, hk]
        · have hki : k ≠ i := by
            intro hki
            rw [hki] at hk
            exact hk (by simp [hf.filter])
          have hkk := hcount k
          rw [if_neg hki] at hkk
          rw [hf.filter, Function.update_of_ne hki] at hk
          have hpos := hs.inUse k hk
          omega
      · push Not at hstored
        have hsame := (unsubscribeSync_absent self hs.toTableWf ha hstored reply rfl).2
        change Settled (mqttAgentUnSubscribeSync s self a reply).ctx
        rwa [hsame]

/-- Outside its condition a call breaks the tables in one step. -/
theorem callOk_of_inv {s : SubMgrCtx} (hs : Settled s) {c : MqttCall}
    (hinv : SubscriptionTableInv (c.run s).ctx) : CallOk s c := by
  cases c with
  | subscribe self a xMalloc reply =>
    intro f ha ⟨j, hfree⟩ hmem k hstop hk m hm
    obtain ⟨hpos, hlt⟩ := a.checked_length ha
    have heffect := subscribeLocked_effect hs.toTableWf hlt self a.xRequestedQoS a.pxCallback
      a.pvCallbackCtx xMalloc
    generalize hu : subscribeLocked s self f a.xRequestedQoS a.pxCallback a.pvCallbackCtx
      xMalloc = u at heffect
    -- The call takes the empty slot it stopped at, so two slots store the filter.
    have htwice : u.ctx.filterAt k = some f ∧ u.ctx.filterAt m = some f := by
      cases heffect with
      | refused hst hwhy =>
        rcases hwhy with hfull | hfull | hmem'
        · exact absurd hk (hfull k)
        · exact absurd hfree (hfull j)
        · exact absurd hmem (by simp [hmem'])
      | registered i j g hi hstop' => rw [hstop.unique hstop', hi] at hk; simp at hk
      | attached i j g hi hstop' => rw [hstop.unique hstop', hi] at hk; simp at hk
      | created i j hi hmem hstop' hf =>
        have hki : k = i := by
          rcases hstop' with hstop' | hno
          · exact hstop.unique hstop'
          · exact absurd hstop.1 (hno k)
        have hmk : m ≠ k := by
          intro hmk
          rw [hmk, hk] at hm
          cases hm
        subst hki
        rw [hf.filter, Function.update_self, Function.update_of_ne hmk]
        exact ⟨rfl, hm⟩
    have hsame : (mqttAgentSubscribeSync s self a xMalloc reply).ctx.filterAt = u.ctx.filterAt := by
      rcases subscribeSync_cases ha xMalloc reply hu.symm rfl with ⟨hctx, -⟩ | ⟨i, -, -, hctx, -⟩
      · rw [hctx]
      · rw [hctx, storeAck_filterAt]
    have hkm := hinv.distinct k m f
    rw [MqttCall.run, hsame] at hkm
    rw [← hkm htwice.1 htwice.2, hk] at hm
    simp at hm
  | unsubscribe self a reply =>
    intro f ha
    by_contra hsole
    obtain ⟨i, hi⟩ := unsubscribeSync_miscount hs ha hsole reply rfl
    have hcount := hinv.refCount i
    rw [MqttCall.run] at hcount
    omega

theorem subscriptionTableInv_step_iff {s : SubMgrCtx} (hs : Settled s) (c : MqttCall) :
    SubscriptionTableInv (c.run s).ctx ↔ CallOk s c :=
  ⟨callOk_of_inv hs, fun hok => (settled_call hs hok).subscriptionTableInv⟩

theorem settled_run {cs : List MqttCall} {s : SubMgrCtx}
    (hrun : Run (Guarded CallOk CallStep) prvSubscriptionManagerCtxReset cs s) : Settled s := by
  refine hrun.invariant settled_reset ?_
  intro s c t hs hstep
  obtain ⟨hok, rfl⟩ := hstep
  exact settled_call hs hok

/-- The table invariant holds in every state that calls meeting their condition reach. -/
theorem subscriptionTableInv_run {cs : List MqttCall} {s : SubMgrCtx}
    (hrun : Run (Guarded CallOk CallStep) prvSubscriptionManagerCtxReset cs s) :
    SubscriptionTableInv s :=
  (settled_run hrun).subscriptionTableInv

section sharedFilter

def sharedFilter : CString := ⟨[97], noNul_a⟩

def acceptedReply : AgentReply := ⟨.mqttSuccess, some ⟨.mqttSuccess, some [1]⟩⟩

def MqttCall.subscribeTo (f : CString) (self cb : Ptr) : MqttCall :=
  .subscribe self ⟨1, some f, .mqttQoS1, cb, 0⟩ true acceptedReply

def MqttCall.unsubscribeFrom (f : CString) (self cb : Ptr) : MqttCall :=
  .unsubscribe self ⟨1, some f, cb, 0⟩ acceptedReply

def subscribedTable : SubMgrCtx :=
  ((MqttCall.subscribeTo sharedFilter 1 10).run prvSubscriptionManagerCtxReset).ctx

theorem settled_subscribedTable : Settled subscribedTable :=
  settled_call settled_reset (by decide +kernel)

theorem subscriptionTableInv_run_subscribed : SubscriptionTableInv
    ([MqttCall.subscribeTo sharedFilter 1 10, .subscribeTo sharedFilter 2 20].foldl
      (fun s c => (c.run s).ctx) prvSubscriptionManagerCtxReset) :=
  subscriptionTableInv_run (Run.ofAdmits CallOk (fun _ _ hok => ⟨hok, rfl⟩) (by decide +kernel))

/-- The first of two callbacks of a filter unsubscribes: its reference goes, the callback
stays. -/
theorem not_subscriptionTableInv_shared :
    ¬ ∀ cs s, Run CallStep prvSubscriptionManagerCtxReset cs s → SubscriptionTableInv s := by
  intro h
  have hrun : Run CallStep prvSubscriptionManagerCtxReset
      [.subscribeTo sharedFilter 1 10, .subscribeTo sharedFilter 1 20,
        .unsubscribeFrom sharedFilter 1 10] _ := .cons rfl (.cons rfl (.cons rfl (.refl _)))
  exact absurd ((h _ _ hrun).refCount 1) (by decide +kernel)

end sharedFilter

end RenesasDemo.Mqtt
