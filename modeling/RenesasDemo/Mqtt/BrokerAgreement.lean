import RenesasDemo.Mqtt.ClientTables

namespace RenesasDemo.Mqtt

open Framework

/-- The task waits for exactly this request. -/
def Awaits : ClientPc → AgentRequest → Prop
  | .subscribeWaiting _ i, .subscribe _ k => i = k
  | .unsubscribeWaiting r n, .unsubscribe _ f => n = 1 ∧ r.filter = f
  | _, _ => False

/-- The broker has `f`, and no queued request will change that. -/
def SubscribedAt (s : ClientSystem) (f : CString) : Prop :=
  s.broker f = some .subscribe ∧ ∀ task, AgentRequest.unsubscribe task f ∉ s.queue

/-- The tables, the queue and the broker between any two steps. -/
structure AgreementInv (s : ClientSystem) : Prop where
  tables : ClientTables s.ctx s.pc
  targeted : ∀ t r xStatus, s.pc t = .subscribeUnlocked r xStatus none → xStatus ≠ .mqttSuccess
  checked : ∀ t r n, (s.pc t).unsubscribing = some (r, n) →
    0 < r.filter.length ∧ r.filter.length < uint16Max ∧ r.pxCallback ≠ 0
  decremented : ∀ o r xStatus, s.pc o = .unsubscribeDecremented r xStatus 1 →
    xStatus = .mqttSuccess
  queueTasks : (s.queue.map AgentRequest.task).Nodup
  awaited : ∀ q ∈ s.queue, Awaits (s.pc q.task) q
  acknowledged : ∀ i f, s.ctx.filterAt i = some f → s.ctx.pxSubAckStatus i ≠ mqttSubAckFailure →
    NoLastHolder s.pc f → SubscribedAt s f
  acked : ∀ t r i info, s.pc t = .subscribeAcked r i info → SubscribedAt s r.filter
  granted : ∀ r ∈ s.granted, (∀ o, (s.pc o).unsubscribing ≠ some (r, 1)) →
    Attached s.ctx r ∧ SubscribedAt s r.filter

theorem agreementInv_start : AgreementInv .start where
  tables := by
    refine ⟨settled_reset.toTableWf, fun _ _ => rfl, ?_, ?_, ?_, ?_⟩
    · intro i f hi
      simp [ClientSystem.start, SubMgrCtx.filterAt, prvSubscriptionManagerCtxReset,
        MQTTSubscribeInfo.zero] at hi
    · intro o r ho
      simp [ClientSystem.start, ClientPc.unsubscribing] at ho
    · intro t r n ht
      simp [ClientSystem.start, ClientPc.unsubscribing] at ht
    · intro t r i ht
      simp [ClientSystem.start, ClientPc.subscribing] at ht
  targeted t r xStatus ht := by simp [ClientSystem.start] at ht
  checked t r n ht := by simp [ClientSystem.start, ClientPc.unsubscribing] at ht
  decremented o r xStatus ho := by simp [ClientSystem.start] at ho
  queueTasks := List.nodup_nil
  awaited q hq := by simp [ClientSystem.start] at hq
  acknowledged i f hi := by
    simp [ClientSystem.start, SubMgrCtx.filterAt, prvSubscriptionManagerCtxReset,
      MQTTSubscribeInfo.zero] at hi
  acked t r i info ht := by simp [ClientSystem.start] at ht
  granted r hr := by simp [ClientSystem.start] at hr

/-- A view that the move of one task leaves as it was. -/
theorem view_update {α : Type*} (view : ClientPc → α) {pc : Ptr → ClientPc} {task : Ptr}
    {p : ClientPc} (h : view p = view (pc task)) (t : Ptr) :
    view (Function.update pc task p t) = view (pc t) := by
  by_cases ht : t = task
  · rw [ht, Function.update_self, h]
  · rw [Function.update_of_ne ht]

theorem noLastHolder_congr {pc pc' : Ptr → ClientPc}
    (h : ∀ t, (pc' t).unsubscribing = (pc t).unsubscribing) (f : CString) :
    NoLastHolder pc' f ↔ NoLastHolder pc f := by
  simp only [NoLastHolder, h]

/-- A state that the move of a task does not lead to was there before. -/
theorem pc_of_update {pc : Ptr → ClientPc} {task t : Ptr} {p p' : ClientPc} (hne : p ≠ p')
    (ht : Function.update pc task p t = p') : pc t = p' := by
  by_cases htt : t = task
  · rw [htt, Function.update_self] at ht
    exact absurd ht hne
  · rwa [Function.update_of_ne htt] at ht

namespace AgreementInv

variable {s : ClientSystem} {task : Ptr}

/-- A task with no request of its own in the queue may move without disturbing the others. -/
theorem awaited_update (hs : AgreementInv s) {p : ClientPc}
    (hidle : ∀ q ∈ s.queue, q.task ≠ task) (q : AgentRequest) (hq : q ∈ s.queue) :
    Awaits (Function.update s.pc task p q.task) q := by
  rw [Function.update_of_ne (hidle q hq)]
  exact hs.awaited q hq

theorem not_queued (hs : AgreementInv s) (h : ∀ q, ¬ Awaits (s.pc task) q) (q : AgentRequest)
    (hq : q ∈ s.queue) : q.task ≠ task := by
  intro hqt
  exact h q (hqt ▸ hs.awaited q hq)

theorem granted_unowned (hs : AgreementInv s) {r : Registration} (hatt : Attached s.ctx r)
    (hnot : ∀ o, (s.pc o).unsubscribing ≠ some (r, 1)) : NoLastHolder s.pc r.filter := by
  intro o r' ho hf
  have hsame := hs.tables.owner_only ho hatt hf.symm
  exact hnot o (hsame ▸ ho)

theorem subscribeLock (hs : AgreementInv s) {args : SubscribeArgs} {xMalloc : Bool}
    (henabled : s.Enabled (.subscribeLock task args xMalloc))
    (hok : AgreementOk s (.subscribeLock task args xMalloc)) :
    AgreementInv (s.next (.subscribeLock task args xMalloc)) := by
  obtain ⟨hidle, hchecked⟩ := henabled
  obtain ⟨f, hf⟩ := Option.ne_none_iff_exists'.mp hchecked
  obtain ⟨hpos, hlt⟩ := args.checked_length hf
  have hagrees := hok f hf
  simp only [ClientSystem.next, hf]
  have heffect := subscribeLocked_effect hs.tables.table hlt task args.xRequestedQoS
    args.pxCallback args.pvCallbackCtx xMalloc
  generalize subscribeLocked s.ctx task f args.xRequestedQoS args.pxCallback args.pvCallbackCtx
    xMalloc = u at heffect
  have htables : ClientTables u.ctx (Function.update s.pc task (.subscribeUnlocked
      ⟨f, args.pxCallback, args.pvCallbackCtx, task⟩ u.xStatus u.uxTargetSubIdx)) :=
    hs.tables.subscribeLock (r := ⟨f, args.pxCallback, args.pvCallbackCtx, task⟩) hidle heffect
      hpos hlt hagrees
  generalize (⟨f, args.pxCallback, args.pvCallbackCtx, task⟩ : Registration) = r at htables ⊢
  have hview (t : Ptr) : (Function.update s.pc task
      (.subscribeUnlocked r u.xStatus u.uxTargetSubIdx) t).unsubscribing =
      (s.pc t).unsubscribing := view_update _ (by rw [hidle]; rfl) t
  refine ⟨htables, ?_, fun t r' n ht => hs.checked t r' n ((hview t).symm.trans ht), ?_,
    hs.queueTasks, ?_, ?_, ?_, ?_⟩
  · intro t r' xStatus ht hst
    by_cases hself : t = task
    · have hpc : ClientPc.subscribeUnlocked r u.xStatus u.uxTargetSubIdx =
          .subscribeUnlocked r' xStatus none := by
        rw [← ht, hself]
        exact (Function.update_self task _ s.pc).symm
      simp only [ClientPc.subscribeUnlocked.injEq] at hpc
      exact heffect.target_ne_none (hpc.2.1.trans hst) hpc.2.2
    · refine hs.targeted t r' xStatus ?_ hst
      rwa [← Function.update_of_ne hself (.subscribeUnlocked r u.xStatus u.uxTargetSubIdx) s.pc]
  · intro o r' xStatus ho
    exact hs.decremented o r' xStatus (pc_of_update (by simp) ho)
  · refine hs.awaited_update (hs.not_queued ?_)
    intro q hq
    rw [hidle] at hq
    exact hq
  · intro i g hi hack hno
    rcases heffect.filter_new hi with hold | ⟨-, hfail⟩
    · refine hs.acknowledged i g hold ?_ ((noLastHolder_congr hview g).mp hno)
      rcases heffect.ackReset i with hsame | hfail
      · exact fun h => hack (hsame.trans h)
      · exact absurd hfail hack
    · exact absurd hfail hack
  · intro t r' i info ht
    exact hs.acked t r' i info (pc_of_update (by simp) ht)
  · intro r' hr' hnot
    obtain ⟨⟨i, j, hi, hj⟩, hsub⟩ := hs.granted r' hr' fun o => by rw [← hview]; exact hnot o
    have hkept := heffect.callback_kept (k := j) (by rw [hj]; simp [Registration.element])
    exact ⟨⟨i, j, heffect.filter_kept hi, hkept.trans hj⟩, hsub⟩

/-- The return of a subscribe, granted only for what the table and the broker have. -/
theorem subscribeReturn (hs : AgreementInv s) {r : Registration} {xStatus : MQTTStatus}
    (hview : (s.pc task).unsubscribing = none) (hqueue : ∀ q, ¬ Awaits (s.pc task) q)
    (hgrant : xStatus = .mqttSuccess → Attached s.ctx r ∧ SubscribedAt s r.filter) :
    AgreementInv (s.subscribeReturn task r xStatus) := by
  have hunsub (t : Ptr) : (Function.update s.pc task .idle t).unsubscribing =
      (s.pc t).unsubscribing := view_update _ (by rw [hview]; rfl) t
  have hsub (t : Ptr) : (Function.update s.pc task .idle t).subscribing = (s.pc t).subscribing ∨
      (Function.update s.pc task .idle t).subscribing = none := by
    by_cases ht : t = task
    · exact .inr (by rw [ht, Function.update_self]; rfl)
    · exact .inl (by rw [Function.update_of_ne ht])
  refine ⟨?_, ?_, fun t r' n ht => hs.checked t r' n ((hunsub t).symm.trans ht), ?_, hs.queueTasks,
    ?_, ?_, ?_, ?_⟩
  · exact hs.tables.congr hs.tables.table rfl rfl rfl hunsub hsub
  · intro t r' st ht
    exact hs.targeted t r' st (pc_of_update (by simp) ht)
  · intro o r' st ho
    exact hs.decremented o r' st (pc_of_update (by simp) ho)
  · exact hs.awaited_update (hs.not_queued hqueue)
  · intro i f hi hack hno
    exact hs.acknowledged i f hi hack ((noLastHolder_congr hunsub f).mp hno)
  · intro t r' i info ht
    exact hs.acked t r' i info (pc_of_update (by simp) ht)
  · intro r' hr' hnot
    have hnot' : ∀ o, (s.pc o).unsubscribing ≠ some (r', 1) := fun o => by
      rw [← hunsub]
      exact hnot o
    simp only [ClientSystem.subscribeReturn] at hr'
    split_ifs at hr' with hst
    · rcases Finset.mem_insert.mp hr' with hnew | hold
      · rw [hnew]
        exact hgrant hst
      · exact hs.granted r' hold hnot'
    · exact hs.granted r' hr' hnot'

/-- A task puts its request into the queue and waits; only a last holder may unsubscribe. -/
theorem enqueue (hs : AgreementInv s) {p : ClientPc} {q : AgentRequest} (htask : q.task = task)
    (hno : ∀ q, ¬ Awaits (s.pc task) q) (hawaits : Awaits p q)
    (hunsub : p.unsubscribing = (s.pc task).unsubscribing)
    (hsub : p.subscribing = (s.pc task).subscribing)
    (hlast : ∀ t f, q = .unsubscribe t f → ¬ NoLastHolder s.pc f) :
    AgreementInv ({ s with queue := s.queue ++ [q] }.setPc task p) := by
  have hview := view_update ClientPc.unsubscribing hunsub
  have hkeep (f : CString) (hf : NoLastHolder s.pc f) (h : SubscribedAt s f) :
      SubscribedAt ({ s with queue := s.queue ++ [q] }.setPc task p) f := by
    refine ⟨h.1, fun t hmem => ?_⟩
    rcases List.mem_append.mp hmem with hold | hnew
    · exact h.2 t hold
    · exact hlast t f (List.mem_singleton.mp hnew).symm hf
  have hidle := hs.not_queued hno
  refine ⟨?_, ?_, fun t r n ht => hs.checked t r n ((hview t).symm.trans ht), ?_, ?_, ?_, ?_, ?_,
    ?_⟩
  · exact hs.tables.congr hs.tables.table rfl rfl rfl hview
      fun t => .inl (view_update ClientPc.subscribing hsub t)
  · intro t r st ht
    refine hs.targeted t r st (pc_of_update ?_ ht)
    intro hp
    rw [hp] at hawaits
    exact hawaits
  · intro o r st ho
    refine hs.decremented o r st (pc_of_update ?_ ho)
    intro hp
    rw [hp] at hawaits
    exact hawaits
  · simp only [ClientSystem.setPc, List.map_append, List.map_cons, List.map_nil]
    refine List.nodup_append.mpr ⟨hs.queueTasks, by simp, ?_⟩
    intro t ht t' ht'
    obtain ⟨q', hq', hqt⟩ := List.mem_map.mp ht
    rw [List.mem_singleton.mp ht', htask, ← hqt]
    exact hidle q' hq'
  · intro q' hq'
    rcases List.mem_append.mp hq' with hold | hnew
    · exact hs.awaited_update hidle q' hold
    · rw [List.mem_singleton.mp hnew, htask]
      change Awaits (Function.update s.pc task p task) q
      rwa [Function.update_self]
  · intro i f hi hack hf
    have hf' := (noLastHolder_congr hview f).mp hf
    exact hkeep f hf' (hs.acknowledged i f hi hack hf')
  · intro t r i info ht
    have hpc : s.pc t = .subscribeAcked r i info := by
      refine pc_of_update ?_ ht
      intro hp
      rw [hp] at hawaits
      exact hawaits
    have hsubt : (s.pc t).subscribing = some (r, i) := by rw [hpc]; rfl
    exact hkeep r.filter (hs.tables.subscribing_unowned hsubt) (hs.acked t r i info hpc)
  · intro r hr hnot
    have hnot' : ∀ o, (s.pc o).unsubscribing ≠ some (r, 1) := fun o => by
      rw [← hview]
      exact hnot o
    obtain ⟨hatt, hsubscribed⟩ := hs.granted r hr hnot'
    exact ⟨hatt, hkeep r.filter (hs.granted_unowned hatt hnot') hsubscribed⟩

theorem subscribeSend (hs : AgreementInv s) (henabled : s.Enabled (.subscribeSend task)) :
    AgreementInv (s.next (.subscribeSend task)) := by
  obtain ⟨r, xStatus, target, hpc⟩ := henabled
  simp only [ClientSystem.next, hpc]
  have hno : ∀ q, ¬ Awaits (s.pc task) q := by
    intro q hq
    rw [hpc] at hq
    exact hq
  cases hsend : SubscribeUpdate.toSend ⟨s.ctx, xStatus, target⟩ s.ctx with
  | none =>
    refine hs.subscribeReturn (by rw [hpc]; rfl) hno fun hst => ?_
    cases htarget : target with
    | none => exact absurd hst (hs.targeted task r xStatus (htarget ▸ hpc))
    | some i =>
      have hview : (s.pc task).subscribing = some (r, i) := by
        simp [hpc, ClientPc.subscribing, hst, htarget]
      have hat := (hs.tables.subscribing task r i hview).2
      have hack : s.ctx.pxSubAckStatus i ≠ mqttSubAckFailure := by
        intro hfail
        simp [SubscribeUpdate.toSend, htarget, hst, hfail] at hsend
      exact ⟨hat.attached, hs.acknowledged i r.filter hat.1 hack
        (hs.tables.subscribing_unowned hview)⟩
  | some i =>
    have htarget : target = some i ∧ xStatus = .mqttSuccess := by
      cases target with
      | none => simp [SubscribeUpdate.toSend] at hsend
      | some k =>
        simp only [SubscribeUpdate.toSend] at hsend
        split_ifs at hsend with hc
        exact ⟨hsend, hc.1⟩
    refine hs.enqueue rfl hno rfl ?_ ?_ (fun t f h => absurd h (by simp))
    · rw [hpc]
      rfl
    · simp [hpc, ClientPc.subscribing, htarget.1, htarget.2]

theorem subscribeStore (hs : AgreementInv s) (henabled : s.Enabled (.subscribeStore task)) :
    AgreementInv (s.next (.subscribeStore task)) := by
  obtain ⟨r, i, info, hpc⟩ := henabled
  simp only [ClientSystem.next, hpc, prvSendSubRequest_completed]
  have hview : (s.pc task).subscribing = some (r, i) := by rw [hpc]; rfl
  have hat := (hs.tables.subscribing task r i hview).2
  have hsubscribed := hs.acked task r i info hpc
  have hocc : s.ctx.filterAt i ≠ none := by simp [hat.1]
  generalize hresult : (⟨info.returnCode, some info.firstSubackCode⟩ : SubRequestResult) = result
  -- The acknowledgement is stored while the callback is attached and the broker has the filter.
  have hstored : AgreementInv { s with ctx := s.ctx.storeAck i result } := by
    refine ⟨?_, hs.targeted, hs.checked, hs.decremented, hs.queueTasks, hs.awaited, ?_, hs.acked,
      ?_⟩
    · exact hs.tables.congr (hs.tables.table.storeAck result hocc) (storeAck_filterAt _)
        (storeAck_pxCallbacks _) (storeAck_pulSubCbCount _) (fun _ => rfl) (fun _ => .inl rfl)
    · intro k f hk hack hno
      have hk' : s.ctx.filterAt k = some f := by rwa [← storeAck_filterAt result]
      by_cases hki : k = i
      · subst hki
        rw [hat.1] at hk'
        exact Option.some.inj hk' ▸ hsubscribed
      · refine hs.acknowledged k f hk' ?_ hno
        rw [← hresult] at hack
        simpa [SubMgrCtx.storeAck, Function.update_of_ne hki] using hack
    · intro r' hr' hnot
      obtain ⟨hatt, hsub⟩ := hs.granted r' hr' hnot
      exact ⟨by simpa [Attached] using hatt, hsub⟩
  refine hstored.subscribeReturn (by rw [hpc]; rfl) ?_ fun _ => ⟨?_, hsubscribed⟩
  · intro q hq
    rw [hpc] at hq
    exact hq
  · simpa [Attached] using hat.attached

/-- The decrement, whatever it found, leaves filters, callbacks and acknowledgements alone. -/
theorem unsubscribeEnter (hs : AgreementInv s) (hidle : s.pc task = .idle) {ctx : SubMgrCtx}
    {r : Registration} {xStatus : MQTTStatus} {n : Nat}
    (hlen : 0 < r.filter.length ∧ r.filter.length < uint16Max ∧ r.pxCallback ≠ 0)
    (htables : ClientTables ctx
      (Function.update s.pc task (.unsubscribeDecremented r xStatus n)))
    (hfilter : ctx.filterAt = s.ctx.filterAt) (hcallbacks : ctx.pxCallbacks = s.ctx.pxCallbacks)
    (hack : ctx.pxSubAckStatus = s.ctx.pxSubAckStatus) (hst : n = 1 → xStatus = .mqttSuccess) :
    AgreementInv ({ s with ctx := ctx }.setPc task (.unsubscribeDecremented r xStatus n)) := by
  have hold (t : Ptr) (r' : Registration) (m : Nat) (ht : (s.pc t).unsubscribing = some (r', m)) :
      (Function.update s.pc task (.unsubscribeDecremented r xStatus n) t).unsubscribing =
        some (r', m) := by
    have hne : t ≠ task := by
      intro htt
      rw [htt, hidle] at ht
      exact absurd ht (by simp [ClientPc.unsubscribing])
    rwa [Function.update_of_ne hne]
  refine ⟨htables, ?_, ?_, ?_, hs.queueTasks, ?_, ?_, ?_, ?_⟩
  · intro t r' st ht
    exact hs.targeted t r' st (pc_of_update (by simp) ht)
  · intro t r' m ht
    rcases ClientTables.update_cases ht with ⟨-, hnew⟩ | ⟨-, ht⟩
    · obtain ⟨hr, -⟩ := Prod.mk.inj (Option.some.inj hnew)
      exact hr ▸ hlen
    · exact hs.checked t r' m ht
  · intro o r' st ho
    by_cases hot : o = task
    · have hpc : ClientPc.unsubscribeDecremented r xStatus n = .unsubscribeDecremented r' st 1 := by
        rw [← ho, hot]
        exact (Function.update_self task _ s.pc).symm
      simp only [ClientPc.unsubscribeDecremented.injEq] at hpc
      exact hpc.2.1 ▸ hst hpc.2.2
    · refine hs.decremented o r' st ?_
      rwa [← Function.update_of_ne hot (.unsubscribeDecremented r xStatus n) s.pc]
  · refine hs.awaited_update (hs.not_queued ?_)
    intro q hq
    rw [hidle] at hq
    exact hq
  · intro i f hi hack' hno
    refine hs.acknowledged i f (hfilter ▸ hi) (hack ▸ hack') ?_
    exact fun o r' ho => hno o r' (hold o r' 1 ho)
  · intro t r' i info ht
    exact hs.acked t r' i info (pc_of_update (by simp) ht)
  · intro r' hr' hnot
    obtain ⟨hatt, hsub⟩ := hs.granted r' hr' fun o ho => hnot o (hold o r' 1 ho)
    refine ⟨?_, hsub⟩
    change Attached ctx r'
    rwa [Attached, hfilter, hcallbacks]

theorem unsubscribeLock (hs : AgreementInv s) {args : UnSubscribeArgs}
    (henabled : s.Enabled (.unsubscribeLock task args))
    (hok : AgreementOk s (.unsubscribeLock task args)) :
    AgreementInv (s.next (.unsubscribeLock task args)) := by
  obtain ⟨hidle, hchecked⟩ := henabled
  obtain ⟨f, hf⟩ := Option.ne_none_iff_exists'.mp hchecked
  obtain ⟨hpos, hlt, hcb⟩ := args.checked_length hf
  have hagrees := hok f hf
  simp only [ClientSystem.next, hf]
  by_cases hstored : ∃ i, s.ctx.filterAt i = some f
  · obtain ⟨i, hi⟩ := hstored
    rw [unsubscribeDecrement_stored hs.tables.table.toFiltersWf hpos hlt hi]
    rcases hagrees i hi with hzero | ⟨hone, j, hj⟩
    · have hsame : s.ctx.dropReference i = s.ctx := by
        have hupdate : Function.update s.ctx.pulSubCbCount i 0 = s.ctx.pulSubCbCount := by
          rw [← hzero, Function.update_eq_self]
        simp [SubMgrCtx.dropReference, hzero, hupdate]
      simp only [hsame, hzero]
      refine hs.unsubscribeEnter hidle ⟨hpos, hlt, hcb⟩ ?_ rfl rfl rfl (fun h => absurd h (by simp))
      refine hs.tables.unsubscribeLock_bystander
        (r := ⟨f, args.pxCallback, args.pvCallbackCtx, task⟩) hidle .mqttSuccess fun k hk => ?_
      have hki : k = i := hs.tables.table.distinct k i f hk hi
      rw [hki, hzero]
    · simp only [hone]
      refine hs.unsubscribeEnter hidle ⟨hpos, hlt, hcb⟩ ?_ rfl rfl rfl (fun _ => rfl)
      exact hs.tables.unsubscribeLock_last
        (r := ⟨f, args.pxCallback, args.pvCallbackCtx, task⟩) hidle ⟨hi, j, hj⟩ hone
  · push Not at hstored
    rw [unsubscribeDecrement_absent hs.tables.table.toSlotsWf hpos hlt hstored]
    refine hs.unsubscribeEnter hidle ⟨hpos, hlt, hcb⟩ ?_ rfl rfl rfl (fun h => absurd h (by simp))
    exact hs.tables.unsubscribeLock_bystander
      (r := ⟨f, args.pxCallback, args.pvCallbackCtx, task⟩) hidle .mqttNoDataAvailable
      fun k hk => absurd hk (hstored k)

theorem unsubscribeSend (hs : AgreementInv s) (henabled : s.Enabled (.unsubscribeSend task)) :
    AgreementInv (s.next (.unsubscribeSend task)) := by
  obtain ⟨r, xStatus, n, hpc⟩ := henabled
  have hno : ∀ q, ¬ Awaits (s.pc task) q := by
    intro q hq
    rw [hpc] at hq
    exact hq
  simp only [ClientSystem.next, hpc]
  by_cases hsend : UnSubscribeDecrement.toSend ⟨s.ctx, xStatus, n⟩ = true
  · rw [if_pos hsend]
    have hone : n = 1 := by
      simp only [UnSubscribeDecrement.toSend, Bool.and_eq_true, beq_iff_eq] at hsend
      exact hsend.2
    refine hs.enqueue rfl hno ⟨hone, rfl⟩ (by rw [hpc]; rfl) (by rw [hpc]; rfl) ?_
    intro t f hq hlast
    obtain ⟨-, hf⟩ := AgentRequest.unsubscribe.inj hq
    exact hlast task r (by rw [hpc, hone]; rfl) hf
  · rw [if_neg hsend]
    have hview : ∀ t, (Function.update s.pc task (.unsubscribeRemoving r xStatus n)
        t).unsubscribing = (s.pc t).unsubscribing := view_update _ (by rw [hpc]; rfl)
    have hsub : ∀ t, (Function.update s.pc task (.unsubscribeRemoving r xStatus n)
        t).subscribing = (s.pc t).subscribing := view_update _ (by rw [hpc]; rfl)
    refine ⟨hs.tables.congr hs.tables.table rfl rfl rfl hview fun t => .inl (hsub t), ?_,
      fun t r' m ht => hs.checked t r' m ((hview t).symm.trans ht), ?_, hs.queueTasks,
      hs.awaited_update (hs.not_queued hno), ?_, ?_, ?_⟩
    · intro t r' st ht
      exact hs.targeted t r' st (pc_of_update (by simp) ht)
    · intro o r' st ho
      exact hs.decremented o r' st (pc_of_update (by simp) ho)
    · intro i f hi hack hlast
      exact hs.acknowledged i f hi hack ((noLastHolder_congr hview f).mp hlast)
    · intro t r' i info ht
      exact hs.acked t r' i info (pc_of_update (by simp) ht)
    · intro r' hr' hnot
      exact hs.granted r' hr' fun o ho => hnot o ((hview o).trans ho)

/-- The return of an unsubscribe, once its effect on the tables is known. -/
theorem unsubscribeLeave (hs : AgreementInv s) {ctx : SubMgrCtx} {granted : Finset Registration}
    (hno : ∀ q, ¬ Awaits (s.pc task) q)
    (htables : ClientTables ctx (Function.update s.pc task .idle))
    (hack : ∀ i f, ctx.filterAt i = some f → ctx.pxSubAckStatus i ≠ mqttSubAckFailure →
      NoLastHolder (Function.update s.pc task .idle) f → SubscribedAt s f)
    (hgranted : ∀ r ∈ granted,
      (∀ o, (Function.update s.pc task .idle o).unsubscribing ≠ some (r, 1)) →
      Attached ctx r ∧ SubscribedAt s r.filter) :
    AgreementInv { s.setPc task .idle with ctx := ctx, granted := granted } := by
  refine ⟨htables, ?_, ?_, ?_, hs.queueTasks, hs.awaited_update (hs.not_queued hno), hack, ?_,
    hgranted⟩
  · intro t r st ht
    exact hs.targeted t r st (pc_of_update (by simp) ht)
  · intro t r n ht
    rcases ClientTables.update_cases ht with ⟨-, hnew⟩ | ⟨-, hold⟩
    · exact absurd hnew (by simp [ClientPc.unsubscribing])
    · exact hs.checked t r n hold
  · intro o r st ho
    exact hs.decremented o r st (pc_of_update (by simp) ho)
  · intro t r i info ht
    exact hs.acked t r i info (pc_of_update (by simp) ht)

theorem unsubscribeRemove (hs : AgreementInv s) (henabled : s.Enabled (.unsubscribeRemove task)) :
    AgreementInv (s.next (.unsubscribeRemove task)) := by
  obtain ⟨r, xStatus, n, hpc⟩ := henabled
  have hview : (s.pc task).unsubscribing = some (r, n) := by rw [hpc]; rfl
  obtain ⟨hpos, hlt, hcb⟩ := hs.checked task r n hview
  simp only [ClientSystem.next, hpc]
  have heffect := unsubscribeRemove_effect hs.tables.table hpos hlt task hcb r.pvCallbackCtx n
    xStatus
  generalize Mqtt.unsubscribeRemove s.ctx task r.filter r.pxCallback r.pvCallbackCtx n
    xStatus = e at heffect
  obtain ⟨ctx, st⟩ := e
  change AgreementInv { s.setPc task .idle with
    ctx := ctx, granted := if st = .mqttSuccess then s.granted.erase r else s.granted }
  have hno : ∀ q, ¬ Awaits (s.pc task) q := by
    intro q hq
    rw [hpc] at hq
    exact hq
  have hother (o : Ptr) (r' : Registration) (hne : (r', 1) ≠ (r, n))
      (hnot : (Function.update s.pc task .idle o).unsubscribing ≠ some (r', 1)) :
      (s.pc o).unsubscribing ≠ some (r', 1) := by
    intro ho
    by_cases hot : o = task
    · rw [hot, hview] at ho
      exact hne (Option.some.inj ho).symm
    · rw [Function.update_of_ne hot] at hnot
      exact hnot ho
  by_cases hone : n = 1
  · subst hone
    obtain ⟨hst, i, j, hi, hatt, hzero, hj, hf, hc⟩ :=
      hs.tables.unsubscribeRemove_last hview heffect
    subst hst
    refine hs.unsubscribeLeave hno
      (hs.tables.unsubscribeRemove_tables hview hi hatt hzero hj hf hc) ?_ ?_
    · intro k f hk hack hlast
      have hki : k ≠ i := by
        intro hki
        rw [hf.filter, hki, Function.update_self] at hk
        exact absurd hk (by simp)
      rw [hf.filter, Function.update_of_ne hki] at hk
      rw [hf.ack, Function.update_of_ne hki] at hack
      refine hs.acknowledged k f hk hack fun o r' ho hfr => ?_
      by_cases hrr : r' = r
      · refine hki (hs.tables.table.distinct k i f hk ?_)
        rw [hi, ← hfr, hrr]
      · exact hother o r' (by simp [hrr]) (fun h => hlast o r' h hfr) ho
    · intro r' hr' hnot
      rw [if_pos rfl] at hr'
      obtain ⟨hrr, hmem⟩ := Finset.mem_erase.mp hr'
      obtain ⟨⟨k, m, hk, hm⟩, hsub⟩ :=
        hs.granted r' hmem fun o => hother o r' (by simp [hrr]) (hnot o)
      exact ⟨(ClientTables.attachedAt_freed hatt hi hj hf hc hrr ⟨hk, m, hm⟩).2.attached, hsub⟩
  · obtain ⟨hctx, hst⟩ := hs.tables.unsubscribeRemove_bystander hview hone heffect
    subst hctx
    have hne (r' : Registration) : (r', 1) ≠ (r, n) := by
      intro h
      exact hone (Prod.mk.inj h).2.symm
    refine hs.unsubscribeLeave hno (hs.tables.unsubscribeLeave_bystander hview hone) ?_ ?_
    · intro k f hk hack hlast
      exact hs.acknowledged k f hk hack
        fun o r' ho hfr => hother o r' (hne r') (fun h => hlast o r' h hfr) ho
    · intro r' hr' hnot
      rw [if_neg hst] at hr'
      exact hs.granted r' hr' fun o => hother o r' (hne r') (hnot o)

theorem dequeue (hs : AgreementInv s) {q : AgentRequest} {rest : List AgentRequest}
    (hq : s.queue = q :: rest) {p : ClientPc} {broker : CString → Option RequestKind}
    (hp : (∃ r i info, p = .subscribeAcked r i info) ∨
      ∃ r st n, p = .unsubscribeRemoving r st n)
    (hunsub : p.unsubscribing = (s.pc q.task).unsubscribing)
    (hsub : p.subscribing = (s.pc q.task).subscribing)
    (hkeep : ∀ f, SubscribedAt s f → broker f = some .subscribe)
    (hacked : ∀ r i info, p = .subscribeAcked r i info →
      broker r.filter = some .subscribe ∧ ∀ t, AgentRequest.unsubscribe t r.filter ∉ rest) :
    AgreementInv ({ s with queue := rest, broker := broker }.setPc q.task p) := by
  have hview := view_update ClientPc.unsubscribing hunsub
  have hnodup := hs.queueTasks
  rw [hq, List.map_cons, List.nodup_cons] at hnodup
  have hafter (f : CString) (h : SubscribedAt s f) :
      SubscribedAt ({ s with queue := rest, broker := broker }.setPc q.task p) f := by
    refine ⟨hkeep f h, fun t hmem => h.2 t ?_⟩
    rw [hq]
    exact List.mem_cons_of_mem _ hmem
  refine ⟨?_, ?_, fun t r n ht => hs.checked t r n ((hview t).symm.trans ht), ?_, hnodup.2, ?_, ?_,
    ?_, ?_⟩
  · exact hs.tables.congr hs.tables.table rfl rfl rfl hview
      fun t => .inl (view_update ClientPc.subscribing hsub t)
  · intro t r st ht
    refine hs.targeted t r st (pc_of_update ?_ ht)
    rcases hp with ⟨r', i, info, rfl⟩ | ⟨r', st', n, rfl⟩ <;> simp
  · intro o r st ho
    refine hs.decremented o r st (pc_of_update ?_ ho)
    rcases hp with ⟨r', i, info, rfl⟩ | ⟨r', st', n, rfl⟩ <;> simp
  · intro q' hq'
    have hne : q'.task ≠ q.task := by
      intro h
      exact hnodup.1 (h ▸ List.mem_map_of_mem hq')
    change Awaits (Function.update s.pc q.task p q'.task) q'
    rw [Function.update_of_ne hne]
    refine hs.awaited q' ?_
    rw [hq]
    exact List.mem_cons_of_mem _ hq'
  · intro i f hi hack hlast
    exact hafter f (hs.acknowledged i f hi hack ((noLastHolder_congr hview f).mp hlast))
  · intro t r i info ht
    by_cases htq : t = q.task
    · refine hacked r i info ?_
      rw [← ht, htq]
      exact (Function.update_self q.task p s.pc).symm
    · refine hafter r.filter (hs.acked t r i info ?_)
      rwa [← Function.update_of_ne htq p s.pc]
  · intro r hr hnot
    obtain ⟨hatt, hsubscribed⟩ := hs.granted r hr fun o ho => hnot o ((hview o).trans ho)
    exact ⟨hatt, hafter r.filter hsubscribed⟩

theorem process_subscribe (hs : AgreementInv s) {i : SubIdx} {rest : List AgentRequest}
    (hq : s.queue = .subscribe task i :: rest) (info : MQTTAgentReturnInfo) :
    AgreementInv ({ s with
      queue := rest
      broker := s.brokerAfter (.subscribe task i) }.setPc task
        (ClientSystem.notify (s.pc task) info)) := by
  have hawaits : Awaits (s.pc task) (.subscribe task i) :=
    hs.awaited (.subscribe task i) (by simp [hq])
  obtain ⟨r, hpc⟩ : ∃ r, s.pc task = .subscribeWaiting r i := by
    cases hpc : s.pc task with
    | subscribeWaiting r k =>
      rw [hpc] at hawaits
      exact ⟨r, by rw [show k = i from hawaits]⟩
    | idle | subscribeUnlocked | subscribeAcked | unsubscribeDecremented | unsubscribeWaiting
    | unsubscribeRemoving => simp [hpc, Awaits] at hawaits
  have hview : (s.pc task).subscribing = some (r, i) := by rw [hpc]; rfl
  have hat := (hs.tables.subscribing task r i hview).2
  have hbroker : s.brokerAfter (.subscribe task i) =
      Function.update s.broker r.filter (some .subscribe) := by
    simp [ClientSystem.brokerAfter, hat.1]
  rw [hbroker]
  refine hs.dequeue hq (.inl ⟨r, i, info, by rw [hpc]; rfl⟩) ?_ ?_ ?_ ?_
  · change _ = (s.pc task).unsubscribing
    rw [hpc]
    rfl
  · change _ = (s.pc task).subscribing
    rw [hpc]
    rfl
  · intro f hf
    by_cases hfr : f = r.filter
    · rw [hfr, Function.update_self]
    · rw [Function.update_of_ne hfr]
      exact hf.1
  · intro r' i' info' hp
    rw [hpc] at hp
    obtain ⟨hr, -, -⟩ := ClientPc.subscribeAcked.inj hp
    subst hr
    refine ⟨Function.update_self .., fun t hmem => ?_⟩
    -- A queued UNSUBSCRIBE is the last holder's, and this task's callback is attached.
    have hwaits : Awaits (s.pc t) (.unsubscribe t r.filter) := by
      refine hs.awaited (.unsubscribe t r.filter) ?_
      rw [hq]
      exact List.mem_cons_of_mem _ hmem
    cases hpt : s.pc t with
    | unsubscribeWaiting r' n =>
      rw [hpt] at hwaits
      obtain ⟨hn, hf⟩ := hwaits
      exact hs.tables.subscribing_unowned hview t r' (by rw [hpt, hn]; rfl) hf
    | idle | subscribeUnlocked | subscribeAcked | unsubscribeDecremented | subscribeWaiting
    | unsubscribeRemoving => simp [hpt, Awaits] at hwaits

theorem process_unsubscribe (hs : AgreementInv s) {f : CString} {rest : List AgentRequest}
    (hq : s.queue = .unsubscribe task f :: rest) (info : MQTTAgentReturnInfo) :
    AgreementInv ({ s with
      queue := rest
      broker := s.brokerAfter (.unsubscribe task f) }.setPc task
        (ClientSystem.notify (s.pc task) info)) := by
  have hawaits : Awaits (s.pc task) (.unsubscribe task f) :=
    hs.awaited (.unsubscribe task f) (by simp [hq])
  obtain ⟨r, n, hpc⟩ : ∃ r n, s.pc task = .unsubscribeWaiting r n := by
    cases hpc : s.pc task with
    | unsubscribeWaiting r n => exact ⟨r, n, rfl⟩
    | idle | subscribeUnlocked | subscribeAcked | unsubscribeDecremented | subscribeWaiting
    | unsubscribeRemoving => simp [hpc, Awaits] at hawaits
  refine hs.dequeue hq (.inr ⟨r, _, n, by rw [hpc]; rfl⟩) ?_ ?_ ?_ ?_
  · change _ = (s.pc task).unsubscribing
    rw [hpc]
    rfl
  · change _ = (s.pc task).subscribing
    rw [hpc]
    rfl
  · intro g hg
    have hgf : g ≠ f := by
      intro h
      exact hg.2 task (by simp [hq, h])
    change Function.update s.broker f (some .unsubscribe) g = some .subscribe
    rw [Function.update_of_ne hgf]
    exact hg.1
  · intro r' i' info' hp
    rw [hpc] at hp
    exact absurd hp (by simp [ClientSystem.notify])

theorem next (hs : AgreementInv s) {e : ClientEvent} (henabled : s.Enabled e)
    (hok : AgreementOk s e) : AgreementInv (s.next e) := by
  cases e with
  | subscribeLock task args xMalloc => exact hs.subscribeLock henabled hok
  | subscribeSend task => exact hs.subscribeSend henabled
  | subscribeStore task => exact hs.subscribeStore henabled
  | unsubscribeLock task args => exact hs.unsubscribeLock henabled hok
  | unsubscribeSend task => exact hs.unsubscribeSend henabled
  | unsubscribeRemove task => exact hs.unsubscribeRemove henabled
  | process info =>
    cases hq : s.queue with
    | nil => exact absurd hq henabled.1
    | cons q rest =>
      simp only [ClientSystem.next, hq]
      cases q with
      | subscribe task i => exact hs.process_subscribe hq info
      | unsubscribe task f => exact hs.process_unsubscribe hq info

end AgreementInv

theorem AgreementInv.brokerAgreement {s : ClientSystem} (hs : AgreementInv s) :
    BrokerAgreement s := by
  intro hquiet r hr
  obtain ⟨hatt, hsubscribed⟩ := hs.granted r hr fun o ho => by
    rw [hquiet o] at ho
    exact absurd ho (by simp [ClientPc.unsubscribing])
  exact ⟨hsubscribed.1, hatt⟩

/-- The broker and the table agree after every interleaving whose locked steps meet their
condition. -/
theorem brokerAgreement_run {es : List ClientEvent} {s : ClientSystem}
    (hrun : Run (Guarded AgreementOk ClientStep) .start es s) : BrokerAgreement s := by
  have hs : AgreementInv s := by
    refine hrun.invariant agreementInv_start ?_
    intro s e s' hs hstep
    obtain ⟨hok, henabled, hnext⟩ := hstep
    rw [hnext]
    exact hs.next henabled hok
  exact hs.brokerAgreement

section race

def subscribeArgs (f : CString) (cb : Ptr) : SubscribeArgs := ⟨1, some f, .mqttQoS1, cb, 0⟩

def unsubscribeArgs (f : CString) (cb : Ptr) : UnSubscribeArgs := ⟨1, some f, cb, 0⟩

/-- Two tasks subscribe to a filter at the same time; the second finds it pending. -/
theorem brokerAgreement_run_concurrent : BrokerAgreement
    ([ClientEvent.subscribeLock 1 (subscribeArgs sharedFilter 10) true,
      .subscribeLock 2 (subscribeArgs sharedFilter 20) true, .subscribeSend 2, .subscribeSend 1,
      .process ⟨.mqttSuccess, some [1]⟩, .subscribeStore 2, .process ⟨.mqttSuccess, some [1]⟩,
      .subscribeStore 1].foldl ClientSystem.next .start) :=
  brokerAgreement_run (Run.ofAdmits (fun s e => AgreementOk s e ∧ s.Enabled e)
    (fun _ _ h => ⟨h.1, h.2, rfl⟩) (by decide +kernel))

/-- A second task subscribes between a last holder's decrement and its UNSUBSCRIBE, and trusts
the cached acknowledgement. -/
theorem not_brokerAgreement_race :
    ¬ ∀ es s, Run ClientStep .start es s → BrokerAgreement s := by
  intro h
  have hrun : Run ClientStep .start
      [.subscribeLock 1 (subscribeArgs sharedFilter 10) true, .subscribeSend 1,
        .process ⟨.mqttSuccess, some [1]⟩, .subscribeStore 1,
        .unsubscribeLock 1 (unsubscribeArgs sharedFilter 10),
        .subscribeLock 2 (subscribeArgs sharedFilter 20) true, .subscribeSend 2,
        .unsubscribeSend 1, .process ⟨.mqttSuccess, none⟩, .unsubscribeRemove 1] _ :=
    Run.ofAdmits (fun s e => s.Enabled e) (fun _ _ henabled => ⟨henabled, rfl⟩)
      (by decide +kernel)
  have hagree := h _ _ hrun ?_ ⟨sharedFilter, 20, 0, 2⟩ (by decide +kernel)
  · exact absurd hagree.1 (by decide +kernel)
  · intro task
    match task with
    | 0 => rfl
    | 1 => rfl
    | 2 => rfl
    | n + 3 => rfl

end race

end RenesasDemo.Mqtt
