import RenesasDemo.Mqtt.TableRuns

namespace RenesasDemo.Mqtt

open Framework

/-- What a successful subscribe promises: calls of `pxCallback` for `filter`. -/
structure Registration where
  filter : CString
  pxCallback : Ptr
  pvCallbackCtx : Ptr
  xTaskHandle : Ptr
  deriving DecidableEq

def Registration.element (r : Registration) (i : SubIdx) : SubCallbackElement :=
  ⟨r.pxCallback, r.pvCallbackCtx, r.xTaskHandle, some i⟩

def Attached (s : SubMgrCtx) (r : Registration) : Prop :=
  ∃ i j, s.filterAt i = some r.filter ∧ s.pxCallbacks j = r.element i

/-- The registration that callback slot `j` stands for. -/
def SubMgrCtx.registrationAt (s : SubMgrCtx) (j : CbIdx) : Option Registration :=
  (s.pxCallbacks j).pxSubInfo.bind fun i => (s.filterAt i).map fun f =>
    ⟨f, (s.pxCallbacks j).pxIncomingPublishCallback,
      (s.pxCallbacks j).pvIncomingPublishCallbackContext, (s.pxCallbacks j).xTaskHandle⟩

section publish

variable {s : SubMgrCtx}

theorem registrationAt_eq_some {j : CbIdx} {r : Registration} :
    s.registrationAt j = some r ↔
      ∃ i, s.filterAt i = some r.filter ∧ s.pxCallbacks j = r.element i := by
  obtain ⟨f, cb, ctx, task⟩ := r
  unfold SubMgrCtx.registrationAt Registration.element
  generalize s.pxCallbacks j = e
  obtain ⟨ecb, ectx, etask, esub⟩ := e
  cases esub with
  | none => simp
  | some i =>
    simp only [Option.bind_some, Option.map_eq_some_iff, Registration.mk.injEq,
      SubCallbackElement.mk.injEq, Option.some.injEq]
    constructor
    · intro h
      obtain ⟨g, hg, rfl, rfl, rfl, rfl⟩ := h
      exact ⟨i, hg, rfl, rfl, rfl, rfl⟩
    · intro h
      obtain ⟨i, hi, rfl, rfl, rfl, rfl⟩ := h
      exact ⟨f, hi, rfl, rfl, rfl, rfl⟩

theorem registrationAt_nodup (hw : TableWf s) :
    ((List.finRange _).filterMap s.registrationAt).Nodup := by
  refine (List.nodup_finRange _).filterMap fun j k r hj hk => ?_
  obtain ⟨i, hi, hj⟩ := registrationAt_eq_some.mp hj
  obtain ⟨m, hm, hk⟩ := registrationAt_eq_some.mp hk
  obtain rfl := hw.distinct i m r.filter hi hm
  exact hw.single j k (hj.trans hk.symm) (by simp [hj, Registration.element])

/-- The publish handler goes through the registrations whose filter matches. -/
theorem prvIncomingPublishCallback_eq (hw : TableWf s)
    (mqttMatchTopic : CString → Option CString → Bool) (pcTopicName : CString) :
    prvIncomingPublishCallback mqttMatchTopic s pcTopicName =
      (((List.finRange _).filterMap s.registrationAt).filter fun r =>
        mqttMatchTopic pcTopicName (some r.filter)).map fun r =>
          (r.pxCallback, r.pvCallbackCtx) := by
  unfold prvIncomingPublishCallback
  induction List.finRange mqttAgentMaxCallbacks with
  | nil => rfl
  | cons j js ih =>
    have hj : (s.registrationAt j = none ∧ (s.pxCallbacks j).pxSubInfo = none) ∨
        ∃ i r, s.registrationAt j = some r ∧ s.filterAt i = some r.filter ∧
          s.pxCallbacks j = r.element i := by
      cases hr : s.registrationAt j with
      | some r =>
        obtain ⟨i, hi, he⟩ := registrationAt_eq_some.mp hr
        exact .inr ⟨i, r, rfl, hi, he⟩
      | none =>
        refine .inl ⟨rfl, ?_⟩
        cases hsub : (s.pxCallbacks j).pxSubInfo with
        | none => rfl
        | some i => simp [SubMgrCtx.registrationAt, hsub, hw.noDangling j i hsub] at hr
    rcases hj with ⟨hr, hsub⟩ | ⟨i, r, hr, hi, he⟩
    · simp only [List.filterMap_cons, hr, hsub]
      exact ih
    · have hp : (s.pxSubscriptions i).pTopicFilter = some r.filter := hi
      simp only [List.filterMap_cons, List.filter_cons, hr, he, Registration.element,
        prvMatchTopic, hp]
      split_ifs with hmatch
      · simp only [List.map_cons]
        rw [← ih]
        rfl
      · exact ih

end publish

section attached

variable {s s' : SubMgrCtx} {i : SubIdx} {j : CbIdx}

theorem attached_kept (hf : FiltersKept s s') (hc : CallbacksKept s s') (r : Registration) :
    Attached s' r ↔ Attached s r := by
  simp only [Attached, hf.filter, hc.callbacks]

/-- Attaching a callback to a slot for its filter adds its registration and no other. -/
theorem attached_attach {r0 : Registration} (hw : TableWf s) (hi : s'.filterAt i = some r0.filter)
    (hkeep : ∀ k f, s.filterAt k = some f → s'.filterAt k = some f)
    (hc : CallbackAttached s s' j (r0.element i) i) (r : Registration) :
    Attached s' r ↔ r = r0 ∨ Attached s r := by
  constructor
  · intro h
    obtain ⟨i', j', hi', hj'⟩ := h
    rw [hc.callbacks] at hj'
    by_cases hjj : j' = j
    · subst hjj
      rw [Function.update_self] at hj'
      obtain ⟨f, cb, ctx, task⟩ := r
      obtain ⟨f0, cb0, ctx0, task0⟩ := r0
      simp only [Registration.element, SubCallbackElement.mk.injEq, Option.some.injEq] at hj'
      obtain ⟨rfl, rfl, rfl, rfl⟩ := hj'
      rw [hi] at hi'
      exact .inl (by simpa using hi'.symm)
    · rw [Function.update_of_ne hjj] at hj'
      have hocc := hw.noDangling j' i' (by rw [hj']; rfl)
      obtain ⟨g, hg⟩ := Option.ne_none_iff_exists'.mp hocc
      refine .inr ⟨i', j', ?_, hj'⟩
      rw [hg, ← hkeep i' g hg, hi']
  · intro h
    obtain rfl | ⟨i', j', hi', hj'⟩ := h
    · exact ⟨i, j, hi, by simp [hc.callbacks]⟩
    · have hjj : j' ≠ j := by
        intro hjj
        have hfree := hc.free
        rw [← hjj, hj'] at hfree
        cases hfree
      exact ⟨i', j', hkeep i' _ hi', by simp [hc.callbacks, hjj, hj']⟩

/-- Freeing the slot of a sole callback removes its registration and no other. -/
theorem attached_freed (r0 : Registration) (hw : TableWf s) (hi : s.filterAt i = some r0.filter)
    (hone : s.attachedTo i = 1) (hj : s.pxCallbacks j = r0.element i)
    (hf : FilterFreed s s' i) (hc : CallbackRemoved s s' j) (r : Registration) :
    Attached s' r ↔ r ≠ r0 ∧ Attached s r := by
  have hother (k : CbIdx) (hk : (s.pxCallbacks k).pxSubInfo = some i) : k = j :=
    slotCount_one_unique hone hk (by rw [hj]; rfl)
  constructor
  · intro h
    obtain ⟨i', j', hi', hj'⟩ := h
    rw [hf.filter] at hi'
    obtain ⟨hne, hi'⟩ := of_update_eq hi' nofun
    obtain ⟨k, -, hk⟩ := (mem_remove hc (by simp [Registration.element])).mp ⟨j', hj'⟩
    refine ⟨?_, i', k, hi', hk⟩
    intro hr
    rw [hr] at hi'
    exact hne (hw.distinct i' i _ hi' hi)
  · intro h
    obtain ⟨hr, i', j', hi', hj'⟩ := h
    have hjj : j' ≠ j := by
      intro hjj
      subst hjj
      obtain ⟨f, cb, ctx, task⟩ := r
      obtain ⟨f0, cb0, ctx0, task0⟩ := r0
      simp only [hj, Registration.element, SubCallbackElement.mk.injEq, Option.some.injEq] at hj'
      obtain ⟨rfl, rfl, rfl, rfl⟩ := hj'
      rw [hi] at hi'
      exact hr (by simpa using hi'.symm)
    have hne : i' ≠ i := by
      intro hii
      subst hii
      exact hjj (hother j' (by rw [hj']; rfl))
    obtain ⟨k, hk⟩ := (mem_remove hc (e := r.element i') (by simp [Registration.element])).mpr
      ⟨j', hjj, hj'⟩
    refine ⟨i', k, ?_, hk⟩
    rw [hf.filter, Function.update_of_ne hne]
    exact hi'

end attached

/-- A subscribe that can get a callback slot ends its search at the slot of its own filter, or
at an empty slot while none stores that filter. -/
def SearchExact (s : SubMgrCtx) (self : Ptr) (f : CString) (cb ctx : Ptr) : Prop :=
  ∀ k, FirstStop s f k →
    (∃ j, (s.pxCallbacks j).pxSubInfo = none ∨ s.pxCallbacks j = ⟨cb, ctx, self, some k⟩) →
    s.filterAt k = some f ∨ (s.filterAt k = none ∧ ∀ m, s.filterAt m ≠ some f)

/-- The calls after which the callbacks called are those registered. -/
def DeliveryOk (s : SubMgrCtx) : MqttCall → Prop
  | .subscribe self args _ _ =>
      ∀ f ∈ args.checked, SearchExact s self f args.pxCallback args.pvCallbackCtx
  | .unsubscribe self args _ =>
      ∀ f ∈ args.checked, SoleHolder s self f args.pxCallback args.pvCallbackCtx

instance (s : SubMgrCtx) (self : Ptr) (f : CString) (cb ctx : Ptr) :
    Decidable (SearchExact s self f cb ctx) :=
  inferInstanceAs (Decidable (∀ k, FirstStop s f k → _ → _))

instance (s : SubMgrCtx) : (c : MqttCall) → Decidable (DeliveryOk s c)
  | .subscribe _ args _ _ => inferInstanceAs (Decidable (∀ f ∈ args.checked, _))
  | .unsubscribe _ args _ => inferInstanceAs (Decidable (∀ f ∈ args.checked, _))

theorem SearchExact.searchOk {s : SubMgrCtx} {self cb ctx : Ptr} {f : CString}
    (h : SearchExact s self f cb ctx) (xMalloc : Bool) : SearchOk s f xMalloc := by
  intro hroom _ k hstop hk
  obtain ⟨j, hfree⟩ := hroom
  obtain hf | ⟨-, hnew⟩ := h k hstop ⟨j, .inl hfree⟩
  · simp [hk] at hf
  · exact hnew

theorem DeliveryOk.callOk {s : SubMgrCtx} {c : MqttCall} (h : DeliveryOk s c) : CallOk s c := by
  cases c with
  | subscribe self a xMalloc reply => exact fun f ha => (h f ha).searchOk xMalloc
  | unsubscribe self a reply => exact h

/-- A subscribe registers its callback exactly if it succeeds. -/
theorem SubscribeEffect.attached_iff (r0 : Registration) {s : SubMgrCtx} {xMalloc : Bool}
    {u : SubscribeUpdate}
    (he : SubscribeEffect s r0.xTaskHandle r0.filter r0.pxCallback r0.pvCallbackCtx xMalloc u)
    (hw : TableWf s)
    (hok : SearchExact s r0.xTaskHandle r0.filter r0.pxCallback r0.pvCallbackCtx)
    (r : Registration) :
    Attached u.ctx r ↔ (u.xStatus = .mqttSuccess ∧ r = r0) ∨ Attached s r := by
  cases he with
  | refused hst hwhy hf hc ha =>
    rw [attached_kept hf hc]
    simp [hst]
  | registered i j g hi hstop hj hf hc ha =>
    have hexact := hok i hstop ⟨j, .inr hj⟩
    rw [hi] at hexact
    have hmem : Attached s r0 := ⟨i, j, hi.trans (by simpa using hexact), hj⟩
    rw [attached_kept hf hc]
    constructor
    · exact .inr
    · intro h
      obtain ⟨-, rfl⟩ | h := h
      · exact hmem
      · exact h
  | attached i j g hi hstop hnew hf hc ha =>
    have hexact := hok i hstop ⟨j, .inl hc.free⟩
    rw [hi] at hexact
    have hif : s.filterAt i = some r0.filter := hi.trans (by simpa using hexact)
    rw [attached_attach hw (hf.filter ▸ hif) (fun k f hk => hf.filter ▸ hk) hc]
    simp
  | created i j hi hmem hstop hf hc ha hack =>
    rw [attached_attach hw (by simp [hf.filter]) (fun k f hk => ?_) hc]
    · simp
    · have hki : k ≠ i := by
        intro hki
        rw [hki, hi] at hk
        cases hk
      rw [hf.filter, Function.update_of_ne hki]
      exact hk

def MqttCall.registration : MqttCall → Option Registration
  | subscribe self a _ _ => a.pcTopicFilter.map fun f => ⟨f, a.pxCallback, a.pvCallbackCtx, self⟩
  | unsubscribe self a _ => a.pcTopicFilter.map fun f => ⟨f, a.pxCallback, a.pvCallbackCtx, self⟩

/-- The agent queues the request, and it completes without an error. -/
def AgentReply.Accepts (reply : AgentReply) : Prop :=
  reply.xQueueStatus = .mqttSuccess ∧
    ∃ info, reply.xCompletion = some info ∧ info.returnCode = .mqttSuccess ∧
      info.firstSubackCode ≠ mqttSubAckFailure

def MqttCall.Accepted : MqttCall → Prop
  | subscribe _ _ xMalloc reply => xMalloc = true ∧ reply.Accepts
  | unsubscribe _ _ reply => reply.Accepts

/-- The registrations whose last successful call was a subscribe, once `c` has returned. -/
def registeredAfter (registered : Finset Registration) (c : MqttCall) (xStatus : MQTTStatus) :
    Finset Registration :=
  match c.registration with
  | none => registered
  | some r =>
      if xStatus = .mqttSuccess then
        match c with
        | .subscribe .. => insert r registered
        | .unsubscribe .. => registered.erase r
      else registered

structure Delivery where
  ctx : SubMgrCtx
  registered : Finset Registration

def Delivery.start : Delivery := ⟨prvSubscriptionManagerCtxReset, ∅⟩

def Delivery.next (d : Delivery) (c : MqttCall) : Delivery :=
  ⟨(c.run d.ctx).ctx, registeredAfter d.registered c (c.run d.ctx).xStatus⟩

def DeliveryStep (d : Delivery) (c : MqttCall) (d' : Delivery) : Prop :=
  c.Accepted ∧ d' = d.next c

/-- `c` unsubscribes a current registration from the agent. -/
def Unsubscribes (d : Delivery) : MqttCall → Prop
  | .subscribe .. => False
  | c@(.unsubscribe _ a _) => a.xHandle ≠ 0 ∧ ∃ r ∈ d.registered, c.registration = some r

/-- Publishes reach the registrations that match, once each, and the calls that `step` admits
can end a registration. -/
structure DeliveryContract (step : Delivery → MqttCall → Delivery → Prop) (d : Delivery) :
    Prop where
  unsubscribes : ∀ c d', step d c d' → Unsubscribes d c → (c.run d.ctx).xStatus = .mqttSuccess
  delivers : ∀ (mqttMatchTopic : CString → Option CString → Bool) (pcTopicName : CString),
    (prvIncomingPublishCallback mqttMatchTopic d.ctx pcTopicName : Multiset (Ptr × Ptr)) =
      (d.registered.filter fun r => mqttMatchTopic pcTopicName (some r.filter)).val.map fun r =>
        (r.pxCallback, r.pvCallbackCtx)

/-- The tables hold exactly the current registrations. -/
structure DeliveryInv (d : Delivery) : Prop where
  settled : Settled d.ctx
  attached : ∀ r, Attached d.ctx r ↔ r ∈ d.registered
  callback : ∀ r ∈ d.registered, r.pxCallback ≠ 0

theorem UnSubscribeArgs.checked_of_stored {a : UnSubscribeArgs} {f : CString}
    (hf : a.pcTopicFilter = some f) (hhandle : a.xHandle ≠ 0) (hcb : a.pxCallback ≠ 0)
    (hpos : 0 < f.length) (hlt : f.length < uint16Max) : a.checked = some f := by
  have hstatus : topicFilterStatus f = .mqttSuccess := by
    unfold topicFilterStatus
    rw [CString.strnlen, Nat.min_eq_left hlt.le]
    exact if_neg (by omega)
  simp [UnSubscribeArgs.checked, hf, hhandle, hcb, hstatus]

theorem AgentReply.Accepts.status {reply : AgentReply} (h : reply.Accepts) :
    (prvSendSubRequest reply).xStatus = .mqttSuccess := by
  obtain ⟨hq, info, hinfo, hrc, -⟩ := h
  obtain ⟨q, completion⟩ := reply
  subst hq hinfo
  rw [prvSendSubRequest_completed]
  exact hrc

theorem deliveryInv_start : DeliveryInv Delivery.start where
  settled := settled_reset
  attached r := by
    refine iff_of_false ?_ (by simp [Delivery.start])
    intro h
    obtain ⟨i, j, hi, -⟩ := h
    simp [Delivery.start, prvSubscriptionManagerCtxReset, SubMgrCtx.filterAt,
      MQTTSubscribeInfo.zero] at hi
  callback r hr := by simp [Delivery.start] at hr

theorem registeredAfter_failed {registered : Finset Registration} {c : MqttCall}
    {xStatus : MQTTStatus} (h : xStatus ≠ .mqttSuccess) :
    registeredAfter registered c xStatus = registered := by
  unfold registeredAfter
  cases c.registration with
  | none => rfl
  | some r => exact if_neg h

section next

variable {d : Delivery} {self : Ptr} {f : CString}

theorem DeliveryInv.failed (hd : DeliveryInv d) {c : MqttCall} (hctx : (c.run d.ctx).ctx = d.ctx)
    (hst : (c.run d.ctx).xStatus ≠ .mqttSuccess) : DeliveryInv (d.next c) := by
  have hnext : d.next c = d := by
    rw [Delivery.next, hctx, registeredAfter_failed hst]
  rwa [hnext]

theorem DeliveryInv.subscribe (hd : DeliveryInv d) {a : SubscribeArgs} (ha : a.checked = some f)
    {reply : AgentReply} (hreply : reply.Accepts) (xMalloc : Bool)
    (hok : SearchExact d.ctx self f a.pxCallback a.pvCallbackCtx) :
    DeliveryInv (d.next (.subscribe self a xMalloc reply)) := by
  have hsettled : Settled (d.next (.subscribe self a xMalloc reply)).ctx := by
    refine settled_call hd.settled fun g hg => ?_
    obtain rfl := Option.some.inj (ha.symm.trans hg)
    exact hok.searchOk xMalloc
  obtain ⟨-, hlt⟩ := a.checked_length ha
  obtain ⟨hfilter, hcb, -⟩ := a.checked_eq_some ha
  have heffect := subscribeLocked_effect hd.settled.toTableWf hlt self a.xRequestedQoS
    a.pxCallback a.pvCallbackCtx xMalloc
  generalize hu : subscribeLocked d.ctx self f a.xRequestedQoS a.pxCallback a.pvCallbackCtx
    xMalloc = u at heffect
  have hatt := SubscribeEffect.attached_iff ⟨f, a.pxCallback, a.pvCallbackCtx, self⟩ heffect
    hd.settled.toTableWf hok
  generalize hres : mqttAgentSubscribeSync d.ctx self a xMalloc reply = res
  have hrun : (MqttCall.subscribe self a xMalloc reply).run d.ctx = res := hres
  -- Waiting for the acknowledgement changes neither the tables nor the status.
  have hsame (r : Registration) : (Attached res.ctx r ↔ Attached u.ctx r) ∧
      res.xStatus = u.xStatus := by
    rcases subscribeSync_cases ha xMalloc reply hu.symm hres.symm with
      ⟨hctx, hst⟩ | ⟨i, hi, hsucc, hctx, hst⟩
    · rw [hctx, hst]
      exact ⟨Iff.rfl, rfl⟩
    · rw [hctx, hst, hsucc, hreply.status]
      exact ⟨by simp [Attached], rfl⟩
  have hreg (r : Registration) : r ∈ (d.next (.subscribe self a xMalloc reply)).registered ↔
      (u.xStatus = .mqttSuccess ∧ r = ⟨f, a.pxCallback, a.pvCallbackCtx, self⟩) ∨
        r ∈ d.registered := by
    simp only [Delivery.next, registeredAfter, MqttCall.registration, hfilter, Option.map_some,
      hrun, (hsame r).2]
    split_ifs with hst
    · simp [hst]
    · simp [hst]
  refine ⟨hsettled, fun r => ?_, fun r hr => ?_⟩
  · rw [hreg, ← hd.attached, ← hatt, ← (hsame r).1, Delivery.next, hrun]
  · rcases (hreg r).mp hr with ⟨-, rfl⟩ | hold
    · exact hcb
    · exact hd.callback r hold

theorem DeliveryInv.unsubscribe (hd : DeliveryInv d) {a : UnSubscribeArgs}
    (ha : a.checked = some f) (reply : AgentReply)
    (hok : SoleHolder d.ctx self f a.pxCallback a.pvCallbackCtx) :
    DeliveryInv (d.next (.unsubscribe self a reply)) := by
  by_cases hstored : ∃ i, d.ctx.filterAt i = some f
  · have hsettled : Settled (d.next (.unsubscribe self a reply)).ctx := by
      refine settled_call hd.settled fun g hg => ?_
      obtain rfl := Option.some.inj (ha.symm.trans hg)
      exact hok
    obtain ⟨i, hi⟩ := hstored
    obtain ⟨hst, hf, j, hj, hc⟩ := unsubscribeSync_freed hd.settled.toTableWf ha hok hi reply rfl
    have hatt := attached_freed ⟨f, a.pxCallback, a.pvCallbackCtx, self⟩
      (hd.settled.toTableWf.dropReference i) hi ((hd.settled.refCount i).symm.trans (hok i hi).1)
      hj hf hc
    have hreg : (d.next (.unsubscribe self a reply)).registered =
        d.registered.erase ⟨f, a.pxCallback, a.pvCallbackCtx, self⟩ := by
      simp only [Delivery.next, registeredAfter, MqttCall.registration, (a.checked_eq_some ha).1,
        Option.map_some, MqttCall.run, hst, if_true]
    refine ⟨hsettled, fun r => ?_, fun r hr => ?_⟩
    · rw [hreg, Finset.mem_erase, ← hd.attached]
      exact hatt r
    · rw [hreg] at hr
      exact hd.callback r (Finset.mem_of_mem_erase hr)
  · push Not at hstored
    obtain ⟨hst, hctx⟩ := unsubscribeSync_absent self hd.settled.toTableWf ha hstored reply rfl
    exact hd.failed hctx hst

end next

/-- One accepted call that meets its condition keeps the registrations and the tables in
agreement. -/
theorem deliveryInv_next {d : Delivery} (hd : DeliveryInv d) {c : MqttCall} (hacc : c.Accepted)
    (hok : DeliveryOk d.ctx c) : DeliveryInv (d.next c) := by
  cases c with
  | subscribe self a xMalloc reply =>
    cases ha : a.checked with
    | none =>
      apply hd.failed <;> simp [MqttCall.run, mqttAgentSubscribeSync, ha]
    | some f => exact hd.subscribe ha hacc.2 xMalloc (hok f ha)
  | unsubscribe self a reply =>
    cases ha : a.checked with
    | none =>
      apply hd.failed <;> simp [MqttCall.run, mqttAgentUnSubscribeSync, ha]
    | some f => exact hd.unsubscribe ha reply (hok f ha)

/-- The publish handler calls the registrations that match, once each. -/
theorem DeliveryInv.delivers {d : Delivery} (hd : DeliveryInv d)
    (mqttMatchTopic : CString → Option CString → Bool) (pcTopicName : CString) :
    (prvIncomingPublishCallback mqttMatchTopic d.ctx pcTopicName : Multiset (Ptr × Ptr)) =
      (d.registered.filter fun r => mqttMatchTopic pcTopicName (some r.filter)).val.map fun r =>
        (r.pxCallback, r.pvCallbackCtx) := by
  have hall : (((List.finRange _).filterMap d.ctx.registrationAt : List Registration) :
      Multiset Registration) = d.registered.val := by
    rw [Multiset.Nodup.ext (Multiset.coe_nodup.mpr (registrationAt_nodup hd.settled.toTableWf))
      d.registered.nodup]
    intro r
    rw [Finset.mem_val, ← hd.attached, Multiset.mem_coe, List.mem_filterMap]
    simp only [List.mem_finRange, true_and, registrationAt_eq_some, Attached]
    exact exists_comm
  rw [prvIncomingPublishCallback_eq hd.settled.toTableWf, Finset.filter_val, ← hall,
    Multiset.filter_coe, Multiset.map_coe]
  simp only [Bool.decide_eq_true]

theorem DeliveryInv.unsubscribes {d : Delivery} (hd : DeliveryInv d) {c : MqttCall}
    (hok : DeliveryOk d.ctx c) (hreg : Unsubscribes d c) :
    (c.run d.ctx).xStatus = .mqttSuccess := by
  cases c with
  | subscribe => exact hreg.elim
  | unsubscribe self a reply =>
    obtain ⟨hhandle, r, hr, hcr⟩ := hreg
    obtain ⟨f, hfilter, rfl⟩ := Option.map_eq_some_iff.mp hcr
    obtain ⟨i, j, hi, -⟩ := (hd.attached _).mpr hr
    obtain ⟨-, hpos, hlt⟩ := hd.settled.stored i _ hi
    have ha : a.checked = some f :=
      UnSubscribeArgs.checked_of_stored hfilter hhandle (hd.callback _ hr) hpos hlt
    exact (unsubscribeSync_freed hd.settled.toTableWf ha (hok f ha) hi reply rfl).1

/-- In every history whose calls meet their condition, publishes reach the registrations that
match and every registration can be ended. -/
theorem deliveryContract_run {cs : List MqttCall} {d : Delivery}
    (hrun : Run (Guarded (fun d c => DeliveryOk d.ctx c) DeliveryStep) Delivery.start cs d) :
    DeliveryContract (Guarded (fun d c => DeliveryOk d.ctx c) DeliveryStep) d := by
  have hd : DeliveryInv d := by
    refine hrun.invariant deliveryInv_start ?_
    intro d c d' hd hstep
    obtain ⟨hok, hacc, rfl⟩ := hstep
    exact deliveryInv_next hd hacc hok
  exact ⟨fun c d' hstep hreg => hd.unsubscribes hstep.1 hreg, hd.delivers⟩

section sharedFilter

def otherFilter : CString := ⟨[98], by decide⟩

theorem acceptedReply_accepts : acceptedReply.Accepts :=
  ⟨rfl, _, rfl, rfl, by decide⟩

theorem subscribeTo_accepted (f : CString) (self cb : Ptr) :
    (MqttCall.subscribeTo f self cb).Accepted :=
  ⟨rfl, acceptedReply_accepts⟩

theorem unsubscribeFrom_accepted (f : CString) (self cb : Ptr) :
    (MqttCall.unsubscribeFrom f self cb).Accepted :=
  acceptedReply_accepts

theorem deliveryContract_run_unsubscribed :
    DeliveryContract (Guarded (fun d c => DeliveryOk d.ctx c) DeliveryStep)
      ([MqttCall.subscribeTo sharedFilter 1 10, .subscribeTo otherFilter 2 20,
        .unsubscribeFrom sharedFilter 1 10].foldl Delivery.next .start) :=
  deliveryContract_run
    (.cons ⟨by decide +kernel, subscribeTo_accepted sharedFilter 1 10, rfl⟩
      (.cons ⟨by decide +kernel, subscribeTo_accepted otherFilter 2 20, rfl⟩
        (.cons ⟨by decide +kernel, unsubscribeFrom_accepted sharedFilter 1 10, rfl⟩ (.refl _))))

/-- With a second callback on the filter, a registered callback cannot be unsubscribed. -/
theorem not_deliveryContract_shared :
    ¬ ∀ cs d, Run DeliveryStep Delivery.start cs d → DeliveryContract DeliveryStep d := by
  intro h
  have hcontract := h _ _
    (.cons ⟨subscribeTo_accepted sharedFilter 1 10, rfl⟩
      (.cons ⟨subscribeTo_accepted sharedFilter 1 20, rfl⟩ (.refl _)))
  have hst := hcontract.unsubscribes _ _ ⟨unsubscribeFrom_accepted sharedFilter 1 10, rfl⟩
    ⟨by decide, ⟨sharedFilter, 10, 0, 1⟩, by decide +kernel, rfl⟩
  exact absurd hst (by decide +kernel)

end sharedFilter

end RenesasDemo.Mqtt
