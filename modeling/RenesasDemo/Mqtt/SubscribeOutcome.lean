import RenesasDemo.Mqtt.TableRuns
import RenesasDemo.Mqtt.Resubscribe

namespace RenesasDemo.Mqtt

open Framework

/-- The slot that the search for `f` settles on: where it stops, else the only hole. -/
def SearchTarget (s : SubMgrCtx) (f : CString) (i : SubIdx) : Prop :=
  FirstStop s f i ∨ (s.filterAt i = none ∧ ∀ k, ¬ ScanStops s f k)

instance (s : SubMgrCtx) (f : CString) (i : SubIdx) : Decidable (SearchTarget s f i) :=
  inferInstanceAs (Decidable (_ ∨ _))

theorem SearchTarget.unique {s : SubMgrCtx} {f : CString} {i k : SubIdx}
    (hi : SearchTarget s f i) (hk : SearchTarget s f k) : i = k := by
  obtain hi | ⟨hi, hno⟩ := hi
  · obtain hk | ⟨-, hno⟩ := hk
    · exact hi.unique hk
    · exact absurd hi.1 (hno i)
  · obtain hk | ⟨hk, -⟩ := hk
    · exact absurd hk.1 (hno k)
    · -- The later of two holes would stop the search.
      have hlow {h m : SubIdx} (hh : s.filterAt h = none) (hm : s.filterAt m = none) :
          ¬ h < m := by
        intro hlt
        exact hno m (by simpa only [ScanStops, hm] using ⟨h, hlt, hh⟩)
      exact le_antisymm (not_lt.mp (hlow hk hi)) (not_lt.mp (hlow hi hk))

/-- The QoS that the search leaves for slot `i`: it is merged with whatever the search stops at. -/
def mergedQoS (s : SubMgrCtx) (f : CString) (i : SubIdx) (q : MQTTQoS) : MQTTQoS :=
  if ScanStops s f i then prvGetNewQoS (s.pxSubscriptions i).qos q else q

/-- The acknowledgement of the target `i` is a failure once the search is over. -/
def NeedsSubscribe (s : SubMgrCtx) (f : CString) (i : SubIdx) (q : MQTTQoS) : Prop :=
  ScanStops s f i → s.pxSubAckStatus i = mqttSubAckFailure ∨
    (s.pxSubscriptions i).qos ≠ prvGetNewQoS (s.pxSubscriptions i).qos q

instance (s : SubMgrCtx) (f : CString) (i : SubIdx) (q : MQTTQoS) :
    Decidable (NeedsSubscribe s f i q) := inferInstanceAs (Decidable (_ → _))

/-- There is a callback element for `e`: its own or an empty one. -/
def CallbackPlace (s : SubMgrCtx) (e : SubCallbackElement) : Prop :=
  ∃ j, s.pxCallbacks j = e ∨ (s.pxCallbacks j).pxSubInfo = none

instance (s : SubMgrCtx) (e : SubCallbackElement) : Decidable (CallbackPlace s e) :=
  inferInstanceAs (Decidable (∃ _, _))

/-- `e` is in the callback list already, or goes into an empty element. -/
def Joins (s s' : SubMgrCtx) (e : SubCallbackElement) (i : SubIdx) : Prop :=
  (s' = s ∧ ∃ j, s.pxCallbacks j = e) ∨
    ∃ j, (s.pxCallbacks j).pxSubInfo = none ∧ (∀ k, s.pxCallbacks k ≠ e) ∧
      s' = s.attachCallback j e i

theorem Joins.kept {s s' : SubMgrCtx} {e : SubCallbackElement} {i : SubIdx}
    (h : Joins s s' e i) : s'.pxSubscriptions = s.pxSubscriptions ∧
      s'.pxSubAckStatus = s.pxSubAckStatus ∧ s'.uxSubscriptionCount = s.uxSubscriptionCount := by
  obtain ⟨rfl, -⟩ | ⟨j, -, -, rfl⟩ := h <;> exact ⟨rfl, rfl, rfl⟩

theorem Joins.mem {s s' : SubMgrCtx} {e : SubCallbackElement} {i : SubIdx}
    (h : Joins s s' e i) : ∃ j, s'.pxCallbacks j = e := by
  obtain ⟨rfl, hj⟩ | ⟨j, -, -, rfl⟩ := h
  · exact hj
  · exact ⟨j, by simp [SubMgrCtx.attachCallback]⟩

def SubMgrCtx.withAck (s : SubMgrCtx) (ack : SubIdx → MQTTSubAckStatus) : SubMgrCtx :=
  { s with pxSubAckStatus := ack }

/-- What the locked part of `MqttAgent_SubscribeSync` leaves, whatever the table holds. -/
inductive LockedOutcome (s : SubMgrCtx) (self : Ptr) (f : CString) (q : MQTTQoS) (cb ctx : Ptr)
    (xMalloc : Bool) : SubscribeUpdate → Prop where
  | noSlot (hno : ∀ i, ¬ SearchTarget s f i) :
      LockedOutcome s self f q cb ctx xMalloc ⟨s, .mqttNoMemory, none⟩
  | noCallback (i : SubIdx) (ack : SubIdx → MQTTSubAckStatus) (ht : SearchTarget s f i)
      (hplace : ¬ CallbackPlace s ⟨cb, ctx, self, some i⟩) :
      LockedOutcome s self f q cb ctx xMalloc ⟨s.withAck ack, .mqttNoMemory, some i⟩
  | noMemory (i : SubIdx) (ack : SubIdx → MQTTSubAckStatus) (ht : SearchTarget s f i)
      (hplace : CallbackPlace s ⟨cb, ctx, self, some i⟩) (hneeds : NeedsSubscribe s f i q)
      (hi : s.filterAt i = none) (hmem : xMalloc = false) :
      LockedOutcome s self f q cb ctx xMalloc
        ⟨(s.withAck ack).setQoS i (mergedQoS s f i q), .mqttNoMemory, some i⟩
  /-- The cached acknowledgement still stands, so the entry is left alone. -/
  | acknowledged (i : SubIdx) (ack : SubIdx → MQTTSubAckStatus) (s' : SubMgrCtx)
      (ht : SearchTarget s f i) (hneeds : ¬ NeedsSubscribe s f i q)
      (hack : ack i ≠ mqttSubAckFailure)
      (hjoin : Joins (s.withAck ack) s' ⟨cb, ctx, self, some i⟩ i) :
      LockedOutcome s self f q cb ctx xMalloc ⟨s', .mqttSuccess, some i⟩
  | merged (i : SubIdx) (ack : SubIdx → MQTTSubAckStatus) (s' : SubMgrCtx) (g : CString)
      (ht : SearchTarget s f i) (hneeds : NeedsSubscribe s f i q) (hi : s.filterAt i = some g)
      (hack : ack i = mqttSubAckFailure)
      (hjoin : Joins ((s.withAck ack).setQoS i (mergedQoS s f i q)) s' ⟨cb, ctx, self, some i⟩ i) :
      LockedOutcome s self f q cb ctx xMalloc ⟨s', .mqttSuccess, some i⟩
  | created (i : SubIdx) (ack : SubIdx → MQTTSubAckStatus) (s' : SubMgrCtx)
      (ht : SearchTarget s f i) (hneeds : NeedsSubscribe s f i q) (hi : s.filterAt i = none)
      (hmem : xMalloc = true) (hack : ack i = mqttSubAckFailure)
      (hjoin : Joins (((s.withAck ack).storeFilter i f).setQoS i (mergedQoS s f i q)) s'
        ⟨cb, ctx, self, some i⟩ i) :
      LockedOutcome s self f q cb ctx xMalloc ⟨s', .mqttSuccess, some i⟩

section outcome

variable {s : SubMgrCtx} {f : CString} {q : MQTTQoS} {scan : SlotScan} {i : SubIdx}

theorem ScanOutcome.mergedQoS (h : ScanOutcome s f q scan) (hi : scan.uxTargetSubIdx = some i) :
    scan.xRequestedQoS = mergedQoS s f i q := by
  unfold Mqtt.mergedQoS
  cases h with
  | stop k ack hk =>
    obtain rfl := Option.some.inj hi
    rw [if_pos hk.1]
  | hole h hh hstop => rw [if_neg (hstop i)]
  | full => exact absurd hi (by simp)

theorem ScanOutcome.needsSubscribe (h : ScanOutcome s f q scan)
    (hi : scan.uxTargetSubIdx = some i) :
    scan.pxSubAckStatus i = mqttSubAckFailure ↔ NeedsSubscribe s f i q := by
  cases h with
  | stop k ack hk hack hackk =>
    obtain rfl := Option.some.inj hi
    dsimp only
    rw [hackk]
    split_ifs with hq
    · exact iff_of_true rfl fun _ => .inr hq
    · refine ⟨fun hfail _ => .inl hfail, fun hneeds => ?_⟩
      exact (hneeds hk.1).resolve_right hq
  | hole h hh hstop =>
    obtain rfl := Option.some.inj hi
    simp [NeedsSubscribe, hstop]
  | full => exact absurd hi (by simp)

theorem ScanOutcome.noTarget (h : ScanOutcome s f q scan) (hi : scan.uxTargetSubIdx = none) :
    (∀ i, ¬ SearchTarget s f i) ∧ scan.pxSubAckStatus = s.pxSubAckStatus ∧
      scan.xStatus = .mqttNoMemory := by
  cases h with
  | stop => exact absurd hi (by simp)
  | hole => exact absurd hi (by simp)
  | full hfull hstop =>
    refine ⟨fun i ht => ?_, rfl, rfl⟩
    obtain hk | ⟨hk, -⟩ := ht
    · exact hstop i hk.1
    · exact hfull i hk

theorem populateSubscription_acknowledged (q : MQTTQoS) (xMalloc : Bool)
    (hack : s.pxSubAckStatus i ≠ mqttSubAckFailure) :
    populateSubscription s i f q xMalloc = (s, .mqttSuccess) := if_neg hack

theorem populateSubscription_merged {g : CString} (q : MQTTQoS) (xMalloc : Bool)
    (hack : s.pxSubAckStatus i = mqttSubAckFailure) (hi : s.filterAt i = some g) :
    populateSubscription s i f q xMalloc = (s.setQoS i q, .mqttSuccess) := by
  simp [populateSubscription, hack, hi]

theorem populateSubscription_empty (q : MQTTQoS) (xMalloc : Bool)
    (hack : s.pxSubAckStatus i = mqttSubAckFailure) (hi : s.filterAt i = none) :
    populateSubscription s i f q xMalloc =
      if xMalloc then ((s.storeFilter i f).setQoS i q, .mqttSuccess)
      else (s.setQoS i q, .mqttNoMemory) := by
  simp [populateSubscription, hack, hi]

theorem SubscribeUpdate.toSend_some {u : SubscribeUpdate} {s : SubMgrCtx}
    (hi : u.uxTargetSubIdx = some i) (hst : u.xStatus = .mqttSuccess) :
    u.toSend s = if s.pxSubAckStatus i = mqttSubAckFailure then some i else none := by
  simp [SubscribeUpdate.toSend, hi, hst]

/-- The element is in the list already, or it goes into the empty one that was found. -/
theorem attachCallback_rule {Q : SubscribeUpdate → Prop} {s2 : SubMgrCtx} {j : CbIdx}
    {cb ctx self : Ptr} (h2 : s2.pxCallbacks = s.pxCallbacks)
    (hslot : s.pxCallbacks j = ⟨cb, ctx, self, some i⟩ ∨
      ((s.pxCallbacks j).pxSubInfo = none ∧
        ∀ k ∈ List.finRange _, s.pxCallbacks k ≠ ⟨cb, ctx, self, some i⟩))
    (hdone : ∀ s', Joins s2 s' ⟨cb, ctx, self, some i⟩ i → Q ⟨s', .mqttSuccess, some i⟩) :
    Q (if MQTTStatus.mqttSuccess = .mqttSuccess ∧ (s2.pxCallbacks j).pxSubInfo = none then
        ⟨s2.attachCallback j ⟨cb, ctx, self, some i⟩ i, .mqttSuccess, some i⟩
      else ⟨s2, .mqttSuccess, some i⟩) := by
  rw [h2]
  obtain hreg | ⟨hfree, hnew⟩ := hslot
  · rw [if_neg (by simp [hreg])]
    exact hdone _ (.inl ⟨rfl, j, by rw [h2]; exact hreg⟩)
  · rw [if_pos ⟨rfl, hfree⟩]
    refine hdone _ (.inr ⟨j, by rw [h2]; exact hfree, fun k => ?_, rfl⟩)
    rw [h2]
    exact hnew k (List.mem_finRange k)

/-- The locked part of a subscribe, for any table whose length fields fit the filters. -/
theorem subscribeLocked_outcome (hw : SlotsWf s) (self : Ptr) (f : CString) (q : MQTTQoS)
    (cb ctx : Ptr) (xMalloc : Bool) :
    LockedOutcome s self f q cb ctx xMalloc (subscribeLocked s self f q cb ctx xMalloc) := by
  have hscan := subscribe_scan hw f q
  unfold subscribeLocked
  generalize findSubscriptionSlot s.pxSubscriptions f (List.finRange _)
    ⟨.mqttNoMemory, none, q, s.pxSubAckStatus⟩ = scan at hscan
  dsimp only
  cases htarget : scan.uxTargetSubIdx with
  | none =>
    obtain ⟨hno, hack, hst⟩ := hscan.noTarget htarget
    rw [hack, hst]
    exact .noSlot hno
  | some i =>
    have ht : SearchTarget s f i := hscan.target htarget
    have hneeds := hscan.needsSubscribe htarget
    rw [hscan.mergedQoS htarget]
    generalize scan.pxSubAckStatus = ack at hneeds
    dsimp only
    have hwith : { s with pxSubAckStatus := ack } = s.withAck ack := rfl
    rw [hwith]
    cases hfind : findCallbackSlot s.pxCallbacks i cb ctx self (List.finRange _) none with
    | none =>
      refine .noCallback i ack ht ?_
      intro hplace
      obtain ⟨j, hj⟩ := hplace
      obtain ⟨hocc, hnot⟩ := (findCallbackSlot_none hfind).2 j (List.mem_finRange j)
      exact hj.elim hnot hocc
    | some j =>
      have hslot := findCallbackSlot_some (by simp) hfind
      have hplace : CallbackPlace s ⟨cb, ctx, self, some i⟩ := ⟨j, hslot.imp_right And.left⟩
      have hattach {s2 : SubMgrCtx} (h2 : s2.pxCallbacks = s.pxCallbacks) :=
        attachCallback_rule (Q := LockedOutcome s self f q cb ctx xMalloc) h2 hslot
      by_cases hn : NeedsSubscribe s f i q
      · have hack : ack i = mqttSubAckFailure := hneeds.mpr hn
        cases hi : s.filterAt i with
        | some g =>
          rw [populateSubscription_merged (s := s.withAck ack) _ _ hack hi]
          exact hattach rfl fun s' hj => .merged i ack s' g ht hn hi hack hj
        | none =>
          rw [populateSubscription_empty (s := s.withAck ack) _ _ hack hi]
          cases hmem : xMalloc with
          | true =>
            rw [hmem] at hattach
            exact hattach rfl fun s' hj => .created i ack s' ht hn hi rfl hack hj
          | false => exact .noMemory i ack ht hplace hn hi rfl
      · have hack : ack i ≠ mqttSubAckFailure := mt hneeds.mp hn
        rw [populateSubscription_acknowledged (s := s.withAck ack) _ _ hack]
        exact hattach rfl fun s' hj => .acknowledged i ack s' ht hn hack hj

end outcome

end RenesasDemo.Mqtt
