import RenesasDemo.Mqtt.Interleaving

namespace RenesasDemo.Mqtt

open Framework

/-- The call to unsubscribe `r` that a task is in, with the count it has found. -/
def ClientPc.unsubscribing : ClientPc → Option (Registration × Nat)
  | unsubscribeDecremented r _ n => some (r, n)
  | unsubscribeWaiting r n => some (r, n)
  | unsubscribeRemoving r _ n => some (r, n)
  | _ => none

/-- The call to subscribe `r` that a task is in, once it has a slot. -/
def ClientPc.subscribing : ClientPc → Option (Registration × SubIdx)
  | subscribeUnlocked r xStatus target =>
      if xStatus = .mqttSuccess then target.map fun i => (r, i) else none
  | subscribeWaiting r i => some (r, i)
  | subscribeAcked r i _ => some (r, i)
  | _ => none

theorem ClientPc.subscribing_of_unsubscribing {pc : ClientPc} (h : pc.unsubscribing ≠ none) :
    pc.subscribing = none := by
  cases pc with
  | unsubscribeDecremented r xStatus n => rfl
  | unsubscribeWaiting r n => rfl
  | unsubscribeRemoving r xStatus n => rfl
  | idle => exact absurd rfl h
  | subscribeUnlocked r xStatus target => exact absurd rfl h
  | subscribeWaiting r i => exact absurd rfl h
  | subscribeAcked r i info => exact absurd rfl h

/-- The callback of `r` is attached to slot `i`, which stores its filter. -/
def AttachedAt (s : SubMgrCtx) (r : Registration) (i : SubIdx) : Prop :=
  s.filterAt i = some r.filter ∧ ∃ j, s.pxCallbacks j = r.element i

/-- No task is giving up `f` as its last holder. -/
def NoLastHolder (pc : Ptr → ClientPc) (f : CString) : Prop :=
  ∀ o r, (pc o).unsubscribing = some (r, 1) → r.filter ≠ f

/-- The tables between locked steps, with any number of calls in flight. A task that found a
count of one is the last holder of its filter and has taken the count to zero; a task that
found zero has nothing in the table. -/
structure ClientTables (s : SubMgrCtx) (pc : Ptr → ClientPc) : Prop where
  table : TableWf s
  unoccupied : ∀ i, s.filterAt i = none → s.pulSubCbCount i = 0
  unowned : ∀ i f, s.filterAt i = some f → NoLastHolder pc f →
    s.pulSubCbCount i = s.attachedTo i
  owned : ∀ o r, (pc o).unsubscribing = some (r, 1) → r.xTaskHandle = o ∧
    ∃ i, AttachedAt s r i ∧ s.pulSubCbCount i = 0 ∧ s.attachedTo i = 1
  bystander : ∀ t r n, (pc t).unsubscribing = some (r, n) → n ≠ 1 →
    r.xTaskHandle = t ∧ n = 0 ∧ ¬ Attached s r
  subscribing : ∀ t r i, (pc t).subscribing = some (r, i) → r.xTaskHandle = t ∧ AttachedAt s r i

theorem AttachedAt.attached {s : SubMgrCtx} {r : Registration} {i : SubIdx}
    (h : AttachedAt s r i) : Attached s r := by
  obtain ⟨hi, j, hj⟩ := h
  exact ⟨i, j, hi, hj⟩

theorem AttachedAt.unique {s : SubMgrCtx} {r r' : Registration} {i : SubIdx}
    (hone : s.attachedTo i = 1) (h : AttachedAt s r i) (h' : AttachedAt s r' i) : r' = r := by
  obtain ⟨hi, j, hj⟩ := h
  obtain ⟨hi', j', hj'⟩ := h'
  have hjj : j' = j := slotCount_one_unique hone (by rw [hj']; rfl) (by rw [hj]; rfl)
  subst hjj
  obtain ⟨f, cb, ctx, task⟩ := r
  obtain ⟨f', cb', ctx', task'⟩ := r'
  rw [hj'] at hj
  rw [hi'] at hi
  simp only [Registration.element, SubCallbackElement.mk.injEq, Option.some.injEq] at hj hi
  simp [hi, hj]

/-- A subscribe that succeeds leaves its callback at its target slot. -/
theorem SubscribeEffect.attachedAt {s : SubMgrCtx} {r : Registration} {xMalloc : Bool}
    {u : SubscribeUpdate} {k : SubIdx}
    (he : SubscribeEffect s r.xTaskHandle r.filter r.pxCallback r.pvCallbackCtx xMalloc u)
    (hok : SearchExact s r.xTaskHandle r.filter r.pxCallback r.pvCallbackCtx)
    (hst : u.xStatus = .mqttSuccess) (hk : u.uxTargetSubIdx = some k) : AttachedAt u.ctx r k := by
  have hexact (i : SubIdx) (g : CString) (hi : s.filterAt i = some g)
      (hstop : FirstStop s r.filter i)
      (hj : ∃ j, (s.pxCallbacks j).pxSubInfo = none ∨ s.pxCallbacks j = r.element i) :
      s.filterAt i = some r.filter := by
    rcases hok i hstop hj with hf | ⟨hnone, -⟩
    · exact hf
    · rw [hi] at hnone
      exact absurd hnone (by simp)
  cases he with
  | refused hne => exact absurd hst hne
  | registered i j g hi hstop hj hf hc ha =>
    obtain rfl := Option.some.inj hk
    refine ⟨?_, j, by rw [hc.callbacks]; exact hj⟩
    rw [hf.filter]
    exact hexact i g hi hstop ⟨j, .inr hj⟩
  | attached i j g hi hstop hnew hf hc ha =>
    obtain rfl := Option.some.inj hk
    refine ⟨?_, j, by rw [hc.callbacks, Function.update_self]; rfl⟩
    rw [hf.filter]
    exact hexact i g hi hstop ⟨j, .inl hc.free⟩
  | created i j hi hmem hstop hf hc ha hack =>
    obtain rfl := Option.some.inj hk
    exact ⟨by rw [hf.filter, Function.update_self],
      j, by rw [hc.callbacks, Function.update_self]; rfl⟩

namespace ClientTables

variable {s : SubMgrCtx} {pc : Ptr → ClientPc}

/-- Where the last holder is leaving, no other callback is attached. -/
theorem owner_only (h : ClientTables s pc) {o : Ptr} {r r' : Registration}
    (ho : (pc o).unsubscribing = some (r, 1)) (hr : Attached s r') (hf : r'.filter = r.filter) :
    r' = r := by
  obtain ⟨-, i, hat, -, hone⟩ := h.owned o r ho
  obtain ⟨i', j, hi', hj⟩ := hr
  rw [hf] at hi'
  have hii : i' = i := h.table.distinct i' i r.filter hi' hat.1
  subst hii
  exact AttachedAt.unique hone hat ⟨hf ▸ hi', j, hj⟩

/-- A subscribing task's filter has no last holder about to leave. -/
theorem subscribing_unowned (h : ClientTables s pc) {t : Ptr} {r : Registration} {i : SubIdx}
    (ht : (pc t).subscribing = some (r, i)) : NoLastHolder pc r.filter := by
  intro o r' ho hf
  obtain ⟨htask, hat⟩ := h.subscribing t r i ht
  have hsame := h.owner_only ho hat.attached hf.symm
  have hot : o = t := by rw [← (h.owned o r' ho).1, ← hsame, htask]
  subst hot
  rw [ClientPc.subscribing_of_unsubscribing (by simp [ho])] at ht
  exact absurd ht (by simp)

theorem congr (h : ClientTables s pc) {s' : SubMgrCtx} {pc' : Ptr → ClientPc}
    (htable : TableWf s') (hfilter : s'.filterAt = s.filterAt)
    (hcallbacks : s'.pxCallbacks = s.pxCallbacks) (hcount : s'.pulSubCbCount = s.pulSubCbCount)
    (hunsub : ∀ t, (pc' t).unsubscribing = (pc t).unsubscribing)
    (hsub : ∀ t, (pc' t).subscribing = (pc t).subscribing ∨ (pc' t).subscribing = none) :
    ClientTables s' pc' := by
  have hatt (i : SubIdx) : s'.attachedTo i = s.attachedTo i := by
    rw [SubMgrCtx.attachedTo, hcallbacks, SubMgrCtx.attachedTo]
  have hat (r : Registration) (i : SubIdx) : AttachedAt s' r i ↔ AttachedAt s r i := by
    rw [AttachedAt, hfilter, hcallbacks, AttachedAt]
  refine ⟨htable, ?_, ?_, ?_, ?_, ?_⟩
  · rw [hfilter, hcount]
    exact h.unoccupied
  · intro i f hi hno
    rw [hcount, hatt]
    refine h.unowned i f (hfilter ▸ hi) fun o r ho => hno o r ?_
    rw [hunsub, ho]
  · intro o r ho
    obtain ⟨htask, i, hi, hzero, hone⟩ := h.owned o r (by rw [← hunsub, ho])
    exact ⟨htask, i, (hat r i).mpr hi, by rw [hcount, hzero], by rw [hatt, hone]⟩
  · intro t r n ht hn
    obtain ⟨htask, hzero, hno⟩ := h.bystander t r n (by rw [← hunsub, ht]) hn
    refine ⟨htask, hzero, ?_⟩
    rwa [Attached, hfilter, hcallbacks]
  · intro t r i ht
    rcases hsub t with hsame | hnone
    · obtain ⟨htask, hi⟩ := h.subscribing t r i (hsame ▸ ht)
      exact ⟨htask, (hat r i).mpr hi⟩
    · rw [hnone] at ht
      exact absurd ht (by simp)

/-- What a view of the tasks says after one task has moved. -/
theorem update_cases {α : Type*} {view : ClientPc → Option α} {task t : Ptr} {p : ClientPc} {a : α}
    (h : view (Function.update pc task p t) = some a) :
    (t = task ∧ view p = some a) ∨ (t ≠ task ∧ view (pc t) = some a) := by
  by_cases ht : t = task
  · subst ht
    rw [Function.update_self] at h
    exact .inl ⟨rfl, h⟩
  · rw [Function.update_of_ne ht] at h
    exact .inr ⟨ht, h⟩

section subscribeLock

variable {t : Ptr} {r : Registration} {xMalloc : Bool} {u : SubscribeUpdate}

/-- A registration in the tables is left there. -/
theorem attachedAt_kept
    (he : SubscribeEffect s r.xTaskHandle r.filter r.pxCallback r.pvCallbackCtx xMalloc u)
    {r' : Registration} {i : SubIdx} (hat : AttachedAt s r' i) : AttachedAt u.ctx r' i := by
  obtain ⟨hi, j, hj⟩ := hat
  have hkept := he.callback_kept (k := j) (by rw [hj]; simp [Registration.element])
  exact ⟨he.filter_kept hi, j, hkept.trans hj⟩

theorem attachedTo_empty {s : SubMgrCtx} (hw : TableWf s) {i : SubIdx}
    (hn : s.filterAt i = none) : s.attachedTo i = 0 :=
  slotCount_eq_zero.mpr fun j hj => hw.noDangling j i hj hn

theorem subscribeLock (h : ClientTables s pc) (hidle : pc r.xTaskHandle = .idle)
    (he : SubscribeEffect s r.xTaskHandle r.filter r.pxCallback r.pvCallbackCtx xMalloc u)
    (hpos : 0 < r.filter.length) (hlt : r.filter.length < uint16Max)
    (hok : SubscribeAgrees s r.xTaskHandle r.filter r.pxCallback r.pvCallbackCtx) :
    ClientTables u.ctx (Function.update pc r.xTaskHandle
      (.subscribeUnlocked r u.xStatus u.uxTargetSubIdx)) := by
  have hwf := he.tableWf h.table hpos hlt (hok.1.searchOk xMalloc)
  have hunsub (o : Ptr) (r' : Registration) (n : Nat)
      (ho : (Function.update pc r.xTaskHandle
        (.subscribeUnlocked r u.xStatus u.uxTargetSubIdx) o).unsubscribing = some (r', n)) :
      o ≠ r.xTaskHandle ∧ (pc o).unsubscribing = some (r', n) := by
    rcases update_cases ho with ⟨-, hnone⟩ | hold
    · exact absurd hnone (by simp [ClientPc.unsubscribing])
    · exact hold
  have hunsub' (o : Ptr) (r' : Registration) (n : Nat) (ho : (pc o).unsubscribing = some (r', n)) :
      (Function.update pc r.xTaskHandle
        (.subscribeUnlocked r u.xStatus u.uxTargetSubIdx) o).unsubscribing = some (r', n) := by
    have hne : o ≠ r.xTaskHandle := by
      intro hot
      rw [hot, hidle] at ho
      exact absurd ho (by simp [ClientPc.unsubscribing])
    rwa [Function.update_of_ne hne]
  refine ⟨hwf, ?_, ?_, ?_, ?_, ?_⟩
  · -- An empty slot has no callback before or after.
    intro i hi
    have hold : s.filterAt i = none := by
      cases hs : s.filterAt i with
      | none => rfl
      | some g =>
        rw [he.filter_kept hs] at hi
        exact absurd hi (by simp)
    have hzero := h.unoccupied i hold
    have hbalance := he.balance i
    have hafter := attachedTo_empty hwf hi
    omega
  · intro i f hi hno
    have hbalance := he.balance i
    rcases he.filter_new hi with hold | ⟨hnone, -⟩
    · have hcount := h.unowned i f hold fun o r' ho => hno o r' (hunsub' o r' 1 ho)
      omega
    · have hzero := h.unoccupied i hnone
      have hempty := attachedTo_empty h.table hnone
      omega
  · intro o r' ho
    obtain ⟨htask, i, hat, hzero, hone⟩ := h.owned o r' (hunsub o r' 1 ho).2
    refine ⟨htask, i, attachedAt_kept he hat, ?_⟩
    rcases he.gain i with ⟨hcount, hatt⟩ | hnone | ⟨hstop, j, hfree⟩
    · exact ⟨by rw [hcount, hzero], by rw [hatt, hone]⟩
    · rw [hat.1] at hnone
      exact absurd hnone (by simp)
    · -- The search ended at this slot, so it is for the same filter.
      rcases hok.1 i hstop ⟨j, .inl hfree⟩ with hf | ⟨hnone, -⟩
      · exact absurd hzero (hok.2 i hf)
      · rw [hat.1] at hnone
        exact absurd hnone (by simp)
  · intro t r' n ht hn
    obtain ⟨hne, ht⟩ := hunsub t r' n ht
    obtain ⟨htask, hzero, hno⟩ := h.bystander t r' n ht hn
    refine ⟨htask, hzero, ?_⟩
    intro hatt
    obtain ⟨i, j, hi, hj⟩ := hatt
    have hold : s.pxCallbacks j = r'.element i := by
      rcases he.callback_new j with hsame | hnew
      · rw [← hsame, hj]
      · rw [hj] at hnew
        exact absurd (htask.symm.trans hnew) hne
    have hocc := h.table.noDangling j i (by rw [hold]; rfl)
    rcases he.filter_new hi with hfilter | ⟨hnone, -⟩
    · exact hno ⟨i, j, hfilter, hold⟩
    · exact hocc hnone
  · intro t r' i ht
    rcases update_cases ht with ⟨hself, hnew⟩ | ⟨hne, hold⟩
    · simp only [ClientPc.subscribing] at hnew
      split_ifs at hnew with hst
      obtain ⟨i', htarget, heq⟩ := Option.map_eq_some_iff.mp hnew
      obtain ⟨hr, hi⟩ := Prod.mk.inj heq
      subst hr hi
      exact ⟨hself.symm, he.attachedAt hok.1 hst htarget⟩
    · obtain ⟨htask, hat⟩ := h.subscribing t r' i hold
      exact ⟨htask, attachedAt_kept he hat⟩

end subscribeLock

section unsubscribeLock

variable {r : Registration}

/-- A decrement by the last holder of a filter, whose count drops to zero. -/
theorem unsubscribeLock_last (h : ClientTables s pc) (hidle : pc r.xTaskHandle = .idle)
    {i : SubIdx} (hat : AttachedAt s r i) (hone : s.pulSubCbCount i = 1) :
    ClientTables (s.dropReference i)
      (Function.update pc r.xTaskHandle (.unsubscribeDecremented r .mqttSuccess 1)) := by
  have hzero : (s.dropReference i).pulSubCbCount i = 0 := by simp [SubMgrCtx.dropReference, hone]
  have hother {k : SubIdx} (hk : k ≠ i) :
      (s.dropReference i).pulSubCbCount k = s.pulSubCbCount k := by
    simp [SubMgrCtx.dropReference, hk]
  have hold (t : Ptr) (r' : Registration) (n : Nat) (hne : t ≠ r.xTaskHandle)
      (ht : (pc t).unsubscribing = some (r', n)) : (Function.update pc r.xTaskHandle
        (.unsubscribeDecremented r .mqttSuccess 1) t).unsubscribing = some (r', n) := by
    rwa [Function.update_of_ne hne]
  have hfree : NoLastHolder pc r.filter := by
    intro o r' ho hf
    obtain ⟨-, i', hat', hzero', -⟩ := h.owned o r' ho
    have hii : i' = i := h.table.distinct i' i r.filter (hf ▸ hat'.1) hat.1
    rw [hii, hone] at hzero'
    exact absurd hzero' (by simp)
  have hcount : s.attachedTo i = 1 := by
    rw [← h.unowned i r.filter hat.1 hfree, hone]
  refine ⟨h.table.dropReference i, ?_, ?_, ?_, ?_, ?_⟩
  · intro k hk
    have hki : k ≠ i := by
      intro hki
      rw [hki] at hk
      exact absurd (hat.1.symm.trans hk) (by simp)
    rw [hother hki]
    exact h.unoccupied k hk
  · intro k f hk hno
    have hki : k ≠ i := by
      intro hki
      refine hno r.xTaskHandle r (by rw [Function.update_self]; rfl) ?_
      rw [hki] at hk
      exact Option.some.inj (hat.1.symm.trans hk)
    rw [hother hki]
    refine h.unowned k f hk fun o r' ho => hno o r' (hold o r' 1 ?_ ho)
    intro hor
    rw [hor, hidle] at ho
    exact absurd ho (by simp [ClientPc.unsubscribing])
  · intro o r' ho
    rcases update_cases ho with ⟨hself, hnew⟩ | ⟨-, ho⟩
    · obtain ⟨hr, -⟩ := Prod.mk.inj (Option.some.inj hnew)
      subst hr
      exact ⟨hself.symm, i, hat, hzero, hcount⟩
    · obtain ⟨htask, i', hat', hzero', hone'⟩ := h.owned o r' ho
      have hne : i' ≠ i := by
        intro hii
        rw [hii, hone] at hzero'
        exact absurd hzero' (by simp)
      exact ⟨htask, i', hat', by rw [hother hne, hzero'], hone'⟩
  · intro t r' n ht hn
    rcases update_cases ht with ⟨-, hnew⟩ | ⟨-, ht⟩
    · exact absurd (Prod.mk.inj (Option.some.inj hnew)).2.symm hn
    · exact h.bystander t r' n ht hn
  · intro t r' k ht
    rcases update_cases ht with ⟨-, hnew⟩ | ⟨-, ht⟩
    · exact absurd hnew (by simp [ClientPc.subscribing])
    · exact h.subscribing t r' k ht

/-- A decrement that finds nothing to drop leaves the caller a bystander. -/
theorem unsubscribeLock_bystander (h : ClientTables s pc) (hidle : pc r.xTaskHandle = .idle)
    (xStatus : MQTTStatus) (hzero : ∀ i, s.filterAt i = some r.filter → s.pulSubCbCount i = 0) :
    ClientTables s (Function.update pc r.xTaskHandle (.unsubscribeDecremented r xStatus 0)) := by
  have hno : ¬ Attached s r := by
    intro hatt
    obtain ⟨i, j, hi, hj⟩ := hatt
    have hpos : 0 < s.attachedTo i := slotCount_pos_of
      (p := fun e : SubCallbackElement => e.pxSubInfo = some i) (i := j) (by rw [hj]; rfl)
    have howned : ¬ NoLastHolder pc r.filter := by
      intro hnone
      have hcount := h.unowned i r.filter hi hnone
      have hz := hzero i hi
      omega
    unfold NoLastHolder at howned
    push Not at howned
    obtain ⟨o, r', ho, hf⟩ := howned
    have hsame := h.owner_only ho ⟨i, j, hi, hj⟩ hf.symm
    have htask := (h.owned o r' ho).1
    rw [← hsame] at htask
    rw [← htask, hidle] at ho
    exact absurd ho (by simp [ClientPc.unsubscribing])
  refine ⟨h.table, h.unoccupied, ?_, ?_, ?_, ?_⟩
  · intro i f hi hfree
    refine h.unowned i f hi fun o r' ho => hfree o r' ?_
    rw [Function.update_of_ne]
    · exact ho
    · intro hor
      rw [hor, hidle] at ho
      exact absurd ho (by simp [ClientPc.unsubscribing])
  · intro o r' ho
    rcases update_cases ho with ⟨-, hnew⟩ | ⟨-, ho⟩
    · exact absurd hnew (by simp [ClientPc.unsubscribing])
    · exact h.owned o r' ho
  · intro t r' n ht hn
    rcases update_cases ht with ⟨hself, hnew⟩ | ⟨-, ht⟩
    · obtain ⟨hr, hn0⟩ := Prod.mk.inj (Option.some.inj hnew)
      subst hr
      exact ⟨hself.symm, hn0.symm, hno⟩
    · exact h.bystander t r' n ht hn
  · intro t r' k ht
    rcases update_cases ht with ⟨-, hnew⟩ | ⟨-, ht⟩
    · exact absurd hnew (by simp [ClientPc.subscribing])
    · exact h.subscribing t r' k ht

end unsubscribeLock

section unsubscribeRemove

variable {o : Ptr} {r : Registration} {n : Nat} {s' : SubMgrCtx} {st : MQTTStatus}

/-- The last phase does nothing for a task with nothing in the table. -/
theorem unsubscribeRemove_bystander (h : ClientTables s pc)
    (ho : (pc o).unsubscribing = some (r, n)) (hn : n ≠ 1)
    (he : RemoveEffect s o r.filter r.pxCallback r.pvCallbackCtx n (s', st)) :
    s' = s ∧ st ≠ .mqttSuccess := by
  obtain ⟨htask, -, hno⟩ := h.bystander o r n ho hn
  subst htask
  cases he with
  | kept hst => exact ⟨rfl, hst⟩
  | freed i j hi hzero hj hone => exact absurd hone hn
  | removed i j hi hzero hj => exact absurd ⟨i, j, hi, hj⟩ hno

theorem unsubscribeLeave_bystander (h : ClientTables s pc)
    (ho : (pc o).unsubscribing = some (r, n)) (hn : n ≠ 1) :
    ClientTables s (Function.update pc o .idle) := by
  refine ⟨h.table, h.unoccupied, ?_, ?_, ?_, ?_⟩
  · intro i f hi hfree
    refine h.unowned i f hi fun o' r' ho' => hfree o' r' ?_
    rw [Function.update_of_ne]
    · exact ho'
    · intro hoo
      rw [hoo, ho] at ho'
      exact hn (Prod.mk.inj (Option.some.inj ho')).2
  · intro o' r' ho'
    rcases update_cases ho' with ⟨-, hnew⟩ | ⟨-, ho'⟩
    · exact absurd hnew (by simp [ClientPc.unsubscribing])
    · exact h.owned o' r' ho'
  · intro t r' m ht hm
    rcases update_cases ht with ⟨-, hnew⟩ | ⟨-, ht⟩
    · exact absurd hnew (by simp [ClientPc.unsubscribing])
    · exact h.bystander t r' m ht hm
  · intro t r' k ht
    rcases update_cases ht with ⟨-, hnew⟩ | ⟨-, ht⟩
    · exact absurd hnew (by simp [ClientPc.subscribing])
    · exact h.subscribing t r' k ht

theorem unsubscribeRemove_last (h : ClientTables s pc) (ho : (pc o).unsubscribing = some (r, 1))
    (he : RemoveEffect s o r.filter r.pxCallback r.pvCallbackCtx 1 (s', st)) :
    st = .mqttSuccess ∧ ∃ i j, s.filterAt i = some r.filter ∧ s.attachedTo i = 1 ∧
      s.pulSubCbCount i = 0 ∧ s.pxCallbacks j = r.element i ∧ FilterFreed s s' i ∧
      CallbackRemoved s s' j := by
  obtain ⟨htask, i, ⟨hi, j, hj⟩, hzero, hone⟩ := h.owned o r ho
  subst htask
  cases he with
  | kept hst hnot => exact absurd hj (hnot i j hi hzero)
  | freed i' j' hi' hzero' hj' hone' hf hc =>
    have hii : i' = i := h.table.distinct i' i r.filter hi' hi
    subst hii
    exact ⟨rfl, i', j', hi, hone, hzero, hj', hf, hc⟩
  | removed i' j' hi' hzero' hj' hone' => exact absurd rfl hone'

/-- Freeing the slot of a last holder leaves every other callback where it is. -/
theorem attachedAt_freed {i : SubIdx} {j : CbIdx} (hone : s.attachedTo i = 1)
    (hi : s.filterAt i = some r.filter) (hj : s.pxCallbacks j = r.element i)
    (hf : FilterFreed s s' i) (hc : CallbackRemoved s s' j) {r' : Registration} {k : SubIdx}
    (hne : r' ≠ r) (hat : AttachedAt s r' k) : k ≠ i ∧ AttachedAt s' r' k := by
  have hki : k ≠ i := by
    intro hki
    subst hki
    exact hne (AttachedAt.unique hone ⟨hi, j, hj⟩ hat)
  obtain ⟨hk, m, hm⟩ := hat
  refine ⟨hki, by rw [hf.filter, Function.update_of_ne hki, hk], ?_⟩
  refine (mem_remove hc (by simp [Registration.element])).mpr ⟨m, ?_, hm⟩
  intro hmj
  rw [hmj, hj] at hm
  exact hki (by simpa [Registration.element] using (congrArg (·.pxSubInfo) hm).symm)

theorem unsubscribeRemove_tables (h : ClientTables s pc) (ho : (pc o).unsubscribing = some (r, 1))
    {i : SubIdx} {j : CbIdx} (hi : s.filterAt i = some r.filter) (hone : s.attachedTo i = 1)
    (hzero : s.pulSubCbCount i = 0) (hj : s.pxCallbacks j = r.element i)
    (hf : FilterFreed s s' i) (hc : CallbackRemoved s s' j) :
    ClientTables s' (Function.update pc o .idle) := by
  have htask := (h.owned o r ho).1
  have hcount (k : SubIdx) : s'.attachedTo k + (if k = i then 1 else 0) = s.attachedTo k :=
    attachedTo_remove hc hj k
  have heffect : RemoveEffect s r.xTaskHandle r.filter r.pxCallback r.pvCallbackCtx 1
      (s', .mqttSuccess) := .freed i j hi hzero hj rfl hf hc
  have hslot (k : SubIdx) (f : CString) (hk : s'.filterAt k = some f) :
      k ≠ i ∧ s.filterAt k = some f := by
    rw [hf.filter] at hk
    by_cases hki : k = i
    · rw [hki, Function.update_self] at hk
      exact absurd hk (by simp)
    · rw [Function.update_of_ne hki] at hk
      exact ⟨hki, hk⟩
  have hback (r' : Registration) (hat : Attached s' r') : Attached s r' := by
    obtain ⟨k, m, hk, hm⟩ := hat
    obtain ⟨m', -, hm'⟩ := (mem_remove hc (by simp [Registration.element])).mp ⟨m, hm⟩
    exact ⟨k, m', (hslot k _ hk).2, hm'⟩
  refine ⟨heffect.tableWf h.table ?_, ?_, ?_, ?_, ?_, ?_⟩
  · intro k hk _ _
    have hki : k = i := h.table.distinct k i r.filter hk hi
    rw [hki, hone]
  · intro k hk
    rw [hc.count]
    by_cases hki : k = i
    · rw [hki, hzero]
    · rw [hf.filter, Function.update_of_ne hki] at hk
      exact h.unoccupied k hk
  · intro k f hk hno
    obtain ⟨hki, hold⟩ := hslot k f hk
    have hsame := hcount k
    rw [if_neg hki, add_zero] at hsame
    rw [hc.count, hsame]
    refine h.unowned k f hold fun o' r' ho' => ?_
    by_cases hoo : o' = o
    · -- The task that returns was the last holder of another filter.
      subst hoo
      rw [ho] at ho'
      obtain ⟨hr, -⟩ := Prod.mk.inj (Option.some.inj ho')
      intro hfr
      refine hki (h.table.distinct k i f hold ?_)
      rw [hi, ← hfr, hr]
    · exact hno o' r' (by rwa [Function.update_of_ne hoo])
  · intro o' r' ho'
    rcases update_cases ho' with ⟨-, hnew⟩ | ⟨hoo, ho'⟩
    · exact absurd hnew (by simp [ClientPc.unsubscribing])
    · obtain ⟨htask', k, hat, hzero', hone'⟩ := h.owned o' r' ho'
      have hne : r' ≠ r := by
        intro hr
        exact hoo (by rw [← htask', hr, htask])
      obtain ⟨hki, hat'⟩ := attachedAt_freed hone hi hj hf hc hne hat
      have hsame := hcount k
      rw [if_neg hki, add_zero] at hsame
      exact ⟨htask', k, hat', by rw [hc.count, hzero'], by rw [hsame, hone']⟩
  · intro t r' m ht hm
    rcases update_cases ht with ⟨-, hnew⟩ | ⟨-, ht⟩
    · exact absurd hnew (by simp [ClientPc.unsubscribing])
    · obtain ⟨htask', hz, hno⟩ := h.bystander t r' m ht hm
      exact ⟨htask', hz, fun hat => hno (hback r' hat)⟩
  · intro t r' k ht
    rcases update_cases ht with ⟨-, hnew⟩ | ⟨hne, ht⟩
    · exact absurd hnew (by simp [ClientPc.subscribing])
    · obtain ⟨htask', hat⟩ := h.subscribing t r' k ht
      have hrr : r' ≠ r := by
        intro hr
        exact hne (by rw [← htask', hr, htask])
      exact ⟨htask', (attachedAt_freed hone hi hj hf hc hrr hat).2⟩

end unsubscribeRemove

end ClientTables

end RenesasDemo.Mqtt
