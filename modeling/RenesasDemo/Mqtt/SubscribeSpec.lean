import RenesasDemo.Mqtt.SubscribeSync

namespace RenesasDemo.Mqtt

open Framework

/-- The length field of a slot agrees with its filter. -/
structure SlotsWf (s : SubMgrCtx) : Prop where
  empty : ∀ i, s.filterAt i = none → (s.pxSubscriptions i).topicFilterLength = 0
  stored : ∀ i f, s.filterAt i = some f →
    (s.pxSubscriptions i).topicFilterLength = f.length ∧ 0 < f.length ∧ f.length < uint16Max

/-- The search for a slot for `f` ends at `k`: a stored prefix of `f`, or a second hole. -/
def ScanStops (s : SubMgrCtx) (f : CString) (k : SubIdx) : Prop :=
  match s.filterAt k with
  | some g => g.IsPrefix f
  | none => ∃ h < k, s.filterAt h = none

instance (s : SubMgrCtx) (f : CString) (k : SubIdx) : Decidable (ScanStops s f k) := by
  unfold ScanStops
  cases s.filterAt k <;> infer_instance

/-- The slot at which the search for `f` ends. -/
def FirstStop (s : SubMgrCtx) (f : CString) (k : SubIdx) : Prop :=
  ScanStops s f k ∧ ∀ k' < k, ¬ ScanStops s f k'

/-- Cached acknowledgements are only ever reset by the search. -/
def AckReset (ack ack' : SubIdx → MQTTSubAckStatus) : Prop :=
  ∀ i, ack' i = ack i ∨ ack' i = mqttSubAckFailure

theorem AckReset.refl (ack : SubIdx → MQTTSubAckStatus) : AckReset ack ack := fun _ => .inl rfl

theorem AckReset.update {ack ack' : SubIdx → MQTTSubAckStatus} (h : AckReset ack ack')
    (k : SubIdx) : AckReset ack (Function.update ack' k mqttSubAckFailure) := by
  intro i
  by_cases hi : i = k
  · simp [hi]
  · simpa [hi] using h i

theorem AckReset.ite {ack ack1 ack2 : SubIdx → MQTTSubAckStatus} {c : Prop} [Decidable c]
    (h1 : AckReset ack ack1) (h2 : AckReset ack ack2) :
    AckReset ack (if c then ack1 else ack2) := by
  split_ifs
  · exact h1
  · exact h2

/-- The three ways in which the search for a subscription slot can end. -/
inductive ScanOutcome (s : SubMgrCtx) (f : CString) (q : MQTTQoS) : SlotScan → Prop where
  | stop (k : SubIdx) (ack : SubIdx → MQTTSubAckStatus) (hk : FirstStop s f k)
      (hack : AckReset s.pxSubAckStatus ack)
      (hackk : ack k = if (s.pxSubscriptions k).qos ≠ prvGetNewQoS (s.pxSubscriptions k).qos q
        then mqttSubAckFailure else s.pxSubAckStatus k) :
      ScanOutcome s f q
        ⟨.mqttSuccess, some k, prvGetNewQoS (s.pxSubscriptions k).qos q, ack⟩
  | hole (h : SubIdx) (hh : s.filterAt h = none) (hstop : ∀ k, ¬ ScanStops s f k) :
      ScanOutcome s f q
        ⟨.mqttSuccess, some h, q, Function.update s.pxSubAckStatus h mqttSubAckFailure⟩
  | full (hfull : ∀ k, s.filterAt k ≠ none) (hstop : ∀ k, ¬ ScanStops s f k) :
      ScanOutcome s f q ⟨.mqttNoMemory, none, q, s.pxSubAckStatus⟩

/-- What the locals of the search say about the slots `pre` it has passed. -/
inductive ScanPrefix (s : SubMgrCtx) (q : MQTTQoS) (pre : List SubIdx) : SlotScan → Prop where
  | hole (h : SubIdx) (hmem : h ∈ pre) (hh : s.filterAt h = none)
      (honly : ∀ k ∈ pre, s.filterAt k = none → k = h) :
      ScanPrefix s q pre
        ⟨.mqttSuccess, some h, q, Function.update s.pxSubAckStatus h mqttSubAckFailure⟩
  | full (hfull : ∀ k ∈ pre, s.filterAt k ≠ none) :
      ScanPrefix s q pre ⟨.mqttNoMemory, none, q, s.pxSubAckStatus⟩

/-- Under the length fields, the string comparison of the search is the prefix test. -/
theorem strncmpFilter_slot {s : SubMgrCtx} (hw : SlotsWf s) (f : CString) (k : SubIdx) :
    strncmpFilter (s.pxSubscriptions k).pTopicFilter f (s.pxSubscriptions k).topicFilterLength = 0
      ↔ ∀ g, s.filterAt k = some g → g.IsPrefix f := by
  cases hk : s.filterAt k with
  | none => simp [hw.empty k hk, strncmpFilter_zero]
  | some g =>
    have hp : (s.pxSubscriptions k).pTopicFilter = some g := hk
    rw [hp, (hw.stored k g hk).1]
    simp only [strncmpFilter, strncmp_length_eq_zero, Option.some.injEq, forall_eq']

/-- At a slot that is not remembered as the first hole, the comparison tells whether the search
ends. -/
theorem strncmpFilter_stops {s : SubMgrCtx} (hw : SlotsWf s) (f : CString) {q : MQTTQoS}
    {pre post : List SubIdx} {k : SubIdx} {st : SlotScan}
    (hsplit : List.finRange _ = pre ++ k :: post) (hst : ScanPrefix s q pre st)
    (hfree : ¬ ((s.pxSubscriptions k).pTopicFilter = none ∧ st.uxTargetSubIdx = none)) :
    strncmpFilter (s.pxSubscriptions k).pTopicFilter f (s.pxSubscriptions k).topicFilterLength = 0 ↔
      ScanStops s f k := by
  rw [strncmpFilter_slot hw]
  cases hk : s.filterAt k with
  | some g => simp [ScanStops, hk]
  | none =>
    -- A hole met with a target in hand is the second hole.
    simp only [ScanStops, hk, reduceCtorEq, false_imp_iff, implies_true, true_iff]
    cases hst with
    | hole h hmem hh => exact ⟨h, (mem_finRange_split hsplit h).mp hmem, hh⟩
    | full => exact absurd ⟨hk, rfl⟩ hfree

/-- The search, resumed after the slots `pre`, ends in one of the three outcomes. -/
theorem findSubscriptionSlot_outcome {s : SubMgrCtx} (hw : SlotsWf s) (f : CString) (q : MQTTQoS)
    {pre post : List SubIdx} {st : SlotScan} (hsplit : List.finRange _ = pre ++ post)
    (hpre : ∀ k ∈ pre, ¬ ScanStops s f k) (hst : ScanPrefix s q pre st) :
    ScanOutcome s f q (findSubscriptionSlot s.pxSubscriptions f post st) := by
  induction post generalizing pre st with
  | nil =>
    have hall (k : SubIdx) : k ∈ pre := by
      have := List.mem_finRange k
      rw [hsplit] at this
      simpa using this
    simp only [findSubscriptionSlot]
    cases hst with
    | hole h hmem hh honly => exact .hole h hh fun k => hpre k (hall k)
    | full hfull => exact .full (fun k => hfull k (hall k)) fun k => hpre k (hall k)
  | cons k post ih =>
    have hlow := mem_finRange_split hsplit
    have hnext : List.finRange _ = (pre ++ [k]) ++ post := by simpa using hsplit
    have hwalk (hk : ¬ ScanStops s f k) : ∀ j ∈ pre ++ [k], ¬ ScanStops s f j := by
      intro j hj
      rcases List.mem_append.mp hj with hj | hj
      · exact hpre j hj
      · rwa [List.mem_singleton.mp hj]
    have hfirst (hk : ScanStops s f k) : FirstStop s f k :=
      ⟨hk, fun k' hk' => hpre k' ((hlow k').mpr hk')⟩
    rw [findSubscriptionSlot]
    by_cases hfree : (s.pxSubscriptions k).pTopicFilter = none ∧ st.uxTargetSubIdx = none
    · -- The first hole is remembered and does not end the search.
      rw [if_pos hfree]
      have hk : s.filterAt k = none := hfree.1
      cases hst with
      | hole h => exact absurd hfree.2 (by simp)
      | full hfull =>
        refine ih hnext (hwalk ?_) (.hole k (by simp) hk ?_)
        · simp only [ScanStops, hk, not_exists, not_and]
          exact fun h hh => hfull h ((hlow h).mpr hh)
        · intro j hj hnone
          rcases List.mem_append.mp hj with hj | hj
          · exact absurd hnone (hfull j hj)
          · exact List.mem_singleton.mp hj
    · rw [if_neg hfree]
      have hstops := strncmpFilter_stops hw f hsplit hst hfree
      by_cases hcmp : ScanStops s f k
      · rw [if_pos (hstops.mpr hcmp)]
        cases hst with
        | hole h hmem hh =>
          have hne : k ≠ h := by
            intro hkh
            rw [← hkh] at hmem
            exact lt_irrefl k ((hlow k).mp hmem)
          refine .stop k _ (hfirst hcmp) (.ite (.update (.update (.refl _) _) _)
            (.update (.refl _) _)) ?_
          split_ifs <;> simp [hne]
        | full =>
          refine .stop k _ (hfirst hcmp) (.ite (.update (.refl _) _) (.refl _)) ?_
          split_ifs <;> simp
      · rw [if_neg (mt hstops.mp hcmp)]
        refine ih hnext (hwalk hcmp) ?_
        have hocc (h : SubIdx) (hmem : h ∈ pre) (hh : s.filterAt h = none) :
            s.filterAt k ≠ none := by
          intro hk
          exact hcmp (by simpa only [ScanStops, hk] using ⟨h, (hlow h).mp hmem, hh⟩)
        cases hst with
        | hole h hmem hh honly =>
          refine .hole h (by simp [hmem]) hh fun j hj hnone => ?_
          rcases List.mem_append.mp hj with hj | hj
          · exact honly j hj hnone
          · exact absurd (List.mem_singleton.mp hj ▸ hnone) (hocc h hmem hh)
        | full hfull =>
          refine .full fun j hj => ?_
          rcases List.mem_append.mp hj with hj | hj
          · exact hfull j hj
          · rw [List.mem_singleton.mp hj]
            exact fun hk => hfree ⟨hk, rfl⟩

theorem subscribe_scan {s : SubMgrCtx} (hw : SlotsWf s) (f : CString) (q : MQTTQoS) :
    ScanOutcome s f q (findSubscriptionSlot s.pxSubscriptions f (List.finRange _)
      ⟨.mqttNoMemory, none, q, s.pxSubAckStatus⟩) :=
  findSubscriptionSlot_outcome hw f q (List.nil_append _).symm (by simp) (.full (by simp))

theorem findCallbackSlot_none {cbs : CbIdx → SubCallbackElement} {i : SubIdx}
    {cb ctx self : Ptr} {js : List CbIdx} {hole : Option CbIdx}
    (hj : findCallbackSlot cbs i cb ctx self js hole = none) :
    hole = none ∧ ∀ k ∈ js, (cbs k).pxSubInfo ≠ none ∧ cbs k ≠ ⟨cb, ctx, self, some i⟩ := by
  induction js generalizing hole with
  | nil => exact ⟨hj, by simp⟩
  | cons k js ih =>
    rw [findCallbackSlot] at hj
    by_cases hfree : hole = none ∧ (cbs k).pxSubInfo = none
    · rw [if_pos hfree] at hj
      exact absurd (ih hj).1 (by simp)
    · rw [if_neg hfree] at hj
      by_cases hmatch : prvMatchCbCtx (cbs k) (some i) cb ctx self = true
      · rw [if_pos hmatch] at hj
        exact absurd hj (by simp)
      · rw [if_neg hmatch] at hj
        obtain ⟨rfl, hrest⟩ := ih hj
        refine ⟨rfl, fun m hm => ?_⟩
        rcases List.mem_cons.mp hm with rfl | hm
        · exact ⟨fun h => hfree ⟨rfl, h⟩, mt (prvMatchCbCtx_iff _ _ _ _ _).mpr hmatch⟩
        · exact hrest m hm

/-- The search for a callback slot returns a registered element or an empty one. -/
theorem findCallbackSlot_some {cbs : CbIdx → SubCallbackElement} {i : SubIdx}
    {cb ctx self : Ptr} {js : List CbIdx} {hole : Option CbIdx} {j : CbIdx}
    (hhole : ∀ h, hole = some h → (cbs h).pxSubInfo = none)
    (hj : findCallbackSlot cbs i cb ctx self js hole = some j) :
    cbs j = ⟨cb, ctx, self, some i⟩ ∨
      ((cbs j).pxSubInfo = none ∧ ∀ k ∈ js, cbs k ≠ ⟨cb, ctx, self, some i⟩) := by
  induction js generalizing hole with
  | nil => exact .inr ⟨hhole j hj, by simp⟩
  | cons k js ih =>
    rw [findCallbackSlot] at hj
    by_cases hfree : hole = none ∧ (cbs k).pxSubInfo = none
    · rw [if_pos hfree] at hj
      have hnew : ∀ h, some k = some h → (cbs h).pxSubInfo = none := by
        intro h hkh
        cases hkh
        exact hfree.2
      obtain hreg | ⟨hempty, hnot⟩ := ih hnew hj
      · exact .inl hreg
      · refine .inr ⟨hempty, fun m hm => ?_⟩
        rcases List.mem_cons.mp hm with rfl | hm
        · intro he
          simp [he] at hfree
        · exact hnot m hm
    · rw [if_neg hfree] at hj
      by_cases hmatch : prvMatchCbCtx (cbs k) (some i) cb ctx self = true
      · rw [if_pos hmatch] at hj
        exact .inl (Option.some.inj hj ▸ (prvMatchCbCtx_iff _ _ _ _ _).mp hmatch)
      · rw [if_neg hmatch] at hj
        rcases ih hhole hj with hreg | ⟨hempty, hnot⟩
        · exact .inl hreg
        · refine .inr ⟨hempty, fun m hm => ?_⟩
          rcases List.mem_cons.mp hm with rfl | hm
          · exact mt (prvMatchCbCtx_iff _ _ _ _ _).mpr hmatch
          · exact hnot m hm

/-- The subscription slots at every unlock of the mutex. -/
structure FiltersWf (s : SubMgrCtx) : Prop extends SlotsWf s where
  emptyAck : ∀ i, s.filterAt i = none → s.pxSubAckStatus i = mqttSubAckFailure
  distinct : ∀ i k f, s.filterAt i = some f → s.filterAt k = some f → i = k
  subscriptionCount : s.uxSubscriptionCount = slotCount (fun f => f ≠ none) s.filterAt

/-- The callback slots at every unlock of the mutex, reference counts apart. -/
structure CallbacksWf (s : SubMgrCtx) : Prop where
  cleared : ∀ j, (s.pxCallbacks j).pxSubInfo = none → s.pxCallbacks j = .zero
  single : ∀ j k, s.pxCallbacks j = s.pxCallbacks k → (s.pxCallbacks j).pxSubInfo ≠ none → j = k
  callbackCount : s.uxCallbackCount = slotCount (fun e => e.pxSubInfo ≠ none) s.pxCallbacks

structure TableWf (s : SubMgrCtx) : Prop extends FiltersWf s, CallbacksWf s where
  noDangling : ∀ j i, (s.pxCallbacks j).pxSubInfo = some i → s.filterAt i ≠ none

/-- The filters, their lengths and their number are as before. -/
structure FiltersKept (s s' : SubMgrCtx) : Prop where
  filter : s'.filterAt = s.filterAt
  length : ∀ i, (s'.pxSubscriptions i).topicFilterLength =
    (s.pxSubscriptions i).topicFilterLength
  number : s'.uxSubscriptionCount = s.uxSubscriptionCount

/-- The callbacks, their number and the reference counts are as before. -/
structure CallbacksKept (s s' : SubMgrCtx) : Prop where
  callbacks : s'.pxCallbacks = s.pxCallbacks
  count : s'.pulSubCbCount = s.pulSubCbCount
  number : s'.uxCallbackCount = s.uxCallbackCount

/-- Slot `i` now stores `f`. -/
structure FilterStored (s s' : SubMgrCtx) (i : SubIdx) (f : CString) : Prop where
  filter : s'.filterAt = Function.update s.filterAt i (some f)
  length : ∀ k, (s'.pxSubscriptions k).topicFilterLength =
    if k = i then f.length else (s.pxSubscriptions k).topicFilterLength
  number : s'.uxSubscriptionCount = s.uxSubscriptionCount + 1

/-- The empty callback slot `j` now holds `e`, which is counted at slot `i`. -/
structure CallbackAttached (s s' : SubMgrCtx) (j : CbIdx) (e : SubCallbackElement) (i : SubIdx) :
    Prop where
  free : (s.pxCallbacks j).pxSubInfo = none
  callbacks : s'.pxCallbacks = Function.update s.pxCallbacks j e
  count : s'.pulSubCbCount = Function.update s.pulSubCbCount i (s.pulSubCbCount i + 1)
  number : s'.uxCallbackCount = s.uxCallbackCount + 1

/-- Everything `MqttAgent_SubscribeSync` can do to the tables while it holds the mutex. -/
inductive SubscribeEffect (s : SubMgrCtx) (self : Ptr) (f : CString) (cb ctx : Ptr)
    (xMalloc : Bool) : SubscribeUpdate → Prop where
  /-- No slot, no callback slot or no memory. -/
  | refused {s' xStatus target} (hst : xStatus ≠ .mqttSuccess)
      (hwhy : (∀ k, s.filterAt k ≠ none) ∨ (∀ j, (s.pxCallbacks j).pxSubInfo ≠ none) ∨
        xMalloc = false)
      (hf : FiltersKept s s') (hc : CallbacksKept s s')
      (ha : AckReset s.pxSubAckStatus s'.pxSubAckStatus) :
      SubscribeEffect s self f cb ctx xMalloc ⟨s', xStatus, target⟩
  /-- The callback is registered with the slot already. -/
  | registered {s'} (i : SubIdx) (j : CbIdx) (g : CString) (hi : s.filterAt i = some g)
      (hstop : FirstStop s f i) (hj : s.pxCallbacks j = ⟨cb, ctx, self, some i⟩)
      (hf : FiltersKept s s') (hc : CallbacksKept s s')
      (ha : AckReset s.pxSubAckStatus s'.pxSubAckStatus) :
      SubscribeEffect s self f cb ctx xMalloc ⟨s', .mqttSuccess, some i⟩
  /-- The callback joins an occupied slot. -/
  | attached {s'} (i : SubIdx) (j : CbIdx) (g : CString) (hi : s.filterAt i = some g)
      (hstop : FirstStop s f i) (hnew : ∀ k, s.pxCallbacks k ≠ ⟨cb, ctx, self, some i⟩)
      (hf : FiltersKept s s') (hc : CallbackAttached s s' j ⟨cb, ctx, self, some i⟩ i)
      (ha : AckReset s.pxSubAckStatus s'.pxSubAckStatus) :
      SubscribeEffect s self f cb ctx xMalloc ⟨s', .mqttSuccess, some i⟩
  /-- The filter goes into an empty slot and the callback with it. -/
  | created {s'} (i : SubIdx) (j : CbIdx) (hi : s.filterAt i = none) (hmem : xMalloc = true)
      (hstop : FirstStop s f i ∨ ∀ k, ¬ ScanStops s f k)
      (hf : FilterStored s s' i f) (hc : CallbackAttached s s' j ⟨cb, ctx, self, some i⟩ i)
      (ha : AckReset s.pxSubAckStatus s'.pxSubAckStatus)
      (hack : s'.pxSubAckStatus i = mqttSubAckFailure) :
      SubscribeEffect s self f cb ctx xMalloc ⟨s', .mqttSuccess, some i⟩

section populate

variable {s : SubMgrCtx} (i : SubIdx) (f : CString) (q : MQTTQoS)

theorem setQoS_filtersKept : FiltersKept s (s.setQoS i q) where
  filter := by
    funext k
    by_cases hk : k = i
    · subst hk; simp [SubMgrCtx.filterAt, SubMgrCtx.setQoS]
    · simp [SubMgrCtx.filterAt, SubMgrCtx.setQoS, hk]
  length k := by
    by_cases hk : k = i
    · subst hk; simp [SubMgrCtx.setQoS]
    · simp [SubMgrCtx.setQoS, hk]
  number := rfl

theorem storeFilter_stored (hf : f.length < uint16Max) :
    FilterStored s ((s.storeFilter i f).setQoS i q) i f where
  filter := by
    rw [(setQoS_filtersKept i q).filter]
    funext k
    by_cases hk : k = i
    · subst hk; simp [SubMgrCtx.filterAt, SubMgrCtx.storeFilter]
    · simp [SubMgrCtx.filterAt, SubMgrCtx.storeFilter, hk]
  length k := by
    rw [(setQoS_filtersKept i q).length]
    by_cases hk : k = i
    · subst hk
      unfold uint16Max at hf
      simp only [SubMgrCtx.storeFilter, Function.update_self, CString.strnlen, uint16Max,
        if_true]
      omega
    · simp [SubMgrCtx.storeFilter, hk]
  number := rfl

/-- Populating an entry stores the filter in an empty slot, or changes no filter at all. -/
theorem populateSubscription_cases (hf : f.length < uint16Max)
    (hack : s.filterAt i = none → s.pxSubAckStatus i = mqttSubAckFailure) (xMalloc : Bool) :
    CallbacksKept s (populateSubscription s i f q xMalloc).1 ∧
    (populateSubscription s i f q xMalloc).1.pxSubAckStatus = s.pxSubAckStatus ∧
    (((populateSubscription s i f q xMalloc).2 = .mqttSuccess ∧ s.filterAt i ≠ none ∧
        FiltersKept s (populateSubscription s i f q xMalloc).1) ∨
      ((populateSubscription s i f q xMalloc).2 = .mqttSuccess ∧ s.filterAt i = none ∧
        xMalloc = true ∧ FilterStored s (populateSubscription s i f q xMalloc).1 i f) ∨
      ((populateSubscription s i f q xMalloc).2 = .mqttNoMemory ∧ xMalloc = false ∧
        FiltersKept s (populateSubscription s i f q xMalloc).1)) := by
  unfold populateSubscription
  by_cases ha : s.pxSubAckStatus i = mqttSubAckFailure
  · rw [if_pos ha]
    cases hi : s.filterAt i with
    | some g => exact ⟨⟨rfl, rfl, rfl⟩, rfl, .inl ⟨rfl, by simp, setQoS_filtersKept i q⟩⟩
    | none =>
      cases xMalloc with
      | true =>
        exact ⟨⟨rfl, rfl, rfl⟩, rfl, .inr (.inl ⟨rfl, rfl, rfl, storeFilter_stored i f q hf⟩)⟩
      | false => exact ⟨⟨rfl, rfl, rfl⟩, rfl, .inr (.inr ⟨rfl, rfl, setQoS_filtersKept i q⟩)⟩
  · rw [if_neg ha]
    exact ⟨⟨rfl, rfl, rfl⟩, rfl, .inl ⟨rfl, mt hack ha, ⟨rfl, fun _ => rfl, rfl⟩⟩⟩

end populate

/-- The target of the search: where it stopped, or the first hole if it did not stop. -/
theorem ScanOutcome.target {s : SubMgrCtx} {f : CString} {q : MQTTQoS} {scan : SlotScan}
    {i : SubIdx} (h : ScanOutcome s f q scan) (hi : scan.uxTargetSubIdx = some i) :
    FirstStop s f i ∨ (s.filterAt i = none ∧ ∀ k, ¬ ScanStops s f k) := by
  cases h with
  | stop k ack hk => exact .inl (Option.some.inj hi ▸ hk)
  | hole h hh hstop => exact .inr (Option.some.inj hi ▸ ⟨hh, hstop⟩)
  | full => exact absurd hi (by simp)

theorem ScanOutcome.ackReset {s : SubMgrCtx} {f : CString} {q : MQTTQoS} {scan : SlotScan}
    (h : ScanOutcome s f q scan) : AckReset s.pxSubAckStatus scan.pxSubAckStatus := by
  cases h with
  | stop _ _ _ hack => exact hack
  | hole => exact .update (.refl _) _
  | full => exact .refl _

theorem subscribeLocked_effect {s : SubMgrCtx} (hw : TableWf s) {f : CString}
    (hf : f.length < uint16Max) (self : Ptr) (q : MQTTQoS) (cb ctx : Ptr) (xMalloc : Bool) :
    SubscribeEffect s self f cb ctx xMalloc (subscribeLocked s self f q cb ctx xMalloc) := by
  have hscan := subscribe_scan hw.toSlotsWf f q
  unfold subscribeLocked
  generalize findSubscriptionSlot s.pxSubscriptions f (List.finRange _)
    ⟨.mqttNoMemory, none, q, s.pxSubAckStatus⟩ = scan at hscan
  have hreset := hscan.ackReset
  dsimp only
  cases htarget : scan.uxTargetSubIdx with
  | none =>
    obtain ⟨hst, hfull⟩ : scan.xStatus = .mqttNoMemory ∧ ∀ k, s.filterAt k ≠ none := by
      cases hscan with
      | stop => exact absurd htarget (by simp)
      | hole => exact absurd htarget (by simp)
      | full hfull => exact ⟨rfl, hfull⟩
    exact .refused (by simp [hst]) (.inl hfull) ⟨rfl, fun _ => rfl, rfl⟩ ⟨rfl, rfl, rfl⟩ hreset
  | some i =>
    have hstop := hscan.target htarget
    dsimp only
    cases hfind : findCallbackSlot s.pxCallbacks i cb ctx self (List.finRange _) none with
    | none =>
      have hocc := (findCallbackSlot_none hfind).2
      exact .refused (by simp) (.inr (.inl fun j => (hocc j (List.mem_finRange j)).1))
        ⟨rfl, fun _ => rfl, rfl⟩ ⟨rfl, rfl, rfl⟩ hreset
    | some j =>
      have hslot := findCallbackSlot_some (by simp) hfind
      -- The search may have reset acknowledgements; the rest of the context is still `s`.
      generalize hs1 : ({ s with pxSubAckStatus := scan.pxSubAckStatus } : SubMgrCtx) = s1
      have hfilt : s1.filterAt = s.filterAt := by subst hs1; rfl
      have hlen (k : SubIdx) : (s1.pxSubscriptions k).topicFilterLength =
          (s.pxSubscriptions k).topicFilterLength := by subst hs1; rfl
      have hcbs : CallbacksKept s s1 := by subst hs1; exact ⟨rfl, rfl, rfl⟩
      have hnum : s1.uxSubscriptionCount = s.uxSubscriptionCount := by subst hs1; rfl
      have hack1 : s1.pxSubAckStatus = scan.pxSubAckStatus := by subst hs1; rfl
      have hempty : s1.filterAt i = none → s1.pxSubAckStatus i = mqttSubAckFailure := by
        intro hnone
        rw [hack1]
        rcases hreset i with h | h
        · rw [h, hw.emptyAck i (hfilt ▸ hnone)]
        · exact h
      obtain ⟨hcb2, hack2, hpop⟩ :=
        populateSubscription_cases i f scan.xRequestedQoS hf hempty xMalloc
      generalize populateSubscription s1 i f scan.xRequestedQoS xMalloc = r at hcb2 hack2 hpop ⊢
      obtain ⟨s2, st⟩ := r
      dsimp only at hcb2 hack2 hpop ⊢
      have hkept : FiltersKept s1 s2 → FiltersKept s s2 := fun h =>
        ⟨h.filter.trans hfilt, fun k => (h.length k).trans (hlen k), h.number.trans hnum⟩
      have hcbs2 : CallbacksKept s s2 := ⟨hcb2.callbacks.trans hcbs.callbacks,
        hcb2.count.trans hcbs.count, hcb2.number.trans hcbs.number⟩
      have hreset2 : AckReset s.pxSubAckStatus s2.pxSubAckStatus := by
        rw [hack2, hack1]; exact hreset
      have hattach (hfree : (s.pxCallbacks j).pxSubInfo = none) :
          CallbackAttached s (s2.attachCallback j ⟨cb, ctx, self, some i⟩ i) j
            ⟨cb, ctx, self, some i⟩ i :=
        ⟨hfree, by simp [SubMgrCtx.attachCallback, hcbs2.callbacks],
          by simp [SubMgrCtx.attachCallback, hcbs2.count],
          by simp [SubMgrCtx.attachCallback, hcbs2.number]⟩
      rcases hpop with ⟨rfl, hocc, hf2⟩ | ⟨rfl, hnone, hmem, hf2⟩ | ⟨rfl, hmem, hf2⟩
      · -- The slot was occupied before.
        rw [hfilt] at hocc
        obtain ⟨g, hg⟩ := Option.ne_none_iff_exists'.mp hocc
        have hfirst : FirstStop s f i := hstop.resolve_right fun h => hocc h.1
        rcases hslot with hreg | ⟨hfree, hnot⟩
        · rw [if_neg (by simp [hcbs2.callbacks, hreg])]
          exact .registered i j g hg hfirst hreg (hkept hf2) hcbs2 hreset2
        · rw [if_pos ⟨rfl, by rw [hcbs2.callbacks]; exact hfree⟩]
          have hkept2 := hkept hf2
          exact .attached i j g hg hfirst (fun k => hnot k (List.mem_finRange k))
            ⟨hkept2.filter, hkept2.length, hkept2.number⟩ (hattach hfree) hreset2
      · -- The slot was empty, so no callback can be registered with it.
        rw [hfilt] at hnone
        have hfree : (s.pxCallbacks j).pxSubInfo = none := by
          rcases hslot with hreg | ⟨hfree, -⟩
          · exact absurd hnone (hw.noDangling j i (by rw [hreg]))
          · exact hfree
        rw [if_pos ⟨rfl, by rw [hcbs2.callbacks]; exact hfree⟩]
        refine .created i j hnone hmem (hstop.imp_right And.right) ⟨?_, fun k => ?_, ?_⟩
          (hattach hfree) hreset2 ?_
        · exact hf2.filter.trans (by rw [hfilt])
        · exact (hf2.length k).trans (by rw [hlen])
        · exact hf2.number.trans (by rw [hnum])
        · exact (congrFun hack2 i).trans (hempty (hfilt ▸ hnone))
      · rw [if_neg (by simp)]
        exact .refused (by simp) (.inr (.inr hmem)) (hkept hf2) hcbs2 hreset2

end RenesasDemo.Mqtt
