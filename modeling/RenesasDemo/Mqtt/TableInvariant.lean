import RenesasDemo.Framework.Runs
import RenesasDemo.Mqtt.UnSubscribeSpec

namespace RenesasDemo.Mqtt

open Framework

/-- The number of callbacks that point to slot `i`. -/
def SubMgrCtx.attachedTo (s : SubMgrCtx) (i : SubIdx) : Nat :=
  slotCount (fun e => e.pxSubInfo = some i) s.pxCallbacks

section preservation

variable {s s' : SubMgrCtx} {f : CString} {i : SubIdx} {j : CbIdx}

theorem SlotsWf.kept (hw : SlotsWf s) (hf : FiltersKept s s') : SlotsWf s' where
  empty k hk := by
    rw [hf.length]
    exact hw.empty k (hf.filter ▸ hk)
  stored k g hk := by
    rw [hf.length]
    exact hw.stored k g (hf.filter ▸ hk)

theorem SlotsWf.store (hw : SlotsWf s) (hf : FilterStored s s' i f) (hpos : 0 < f.length)
    (hlt : f.length < uint16Max) : SlotsWf s' where
  empty k hk := by
    rw [hf.filter] at hk
    obtain ⟨hki, hk⟩ := of_update_eq hk nofun
    rw [hf.length, if_neg hki]
    exact hw.empty k hk
  stored k g hk := by
    rw [hf.filter] at hk
    rw [hf.length]
    by_cases hki : k = i
    · subst hki
      rw [Function.update_self] at hk
      obtain rfl := Option.some.inj hk
      exact ⟨if_pos rfl, hpos, hlt⟩
    · rw [Function.update_of_ne hki] at hk
      rw [if_neg hki]
      exact hw.stored k g hk

theorem SlotsWf.free (hw : SlotsWf s) (hf : FilterFreed s s' i) : SlotsWf s' where
  empty k hk := by
    rw [hf.length]
    by_cases hki : k = i
    · exact if_pos hki
    · rw [hf.filter, Function.update_of_ne hki] at hk
      rw [if_neg hki]
      exact hw.empty k hk
  stored k g hk := by
    rw [hf.filter] at hk
    obtain ⟨hki, hk⟩ := of_update_eq hk nofun
    rw [hf.length, if_neg hki]
    exact hw.stored k g hk

theorem FiltersWf.kept (hw : FiltersWf s) (hf : FiltersKept s s')
    (ha : AckReset s.pxSubAckStatus s'.pxSubAckStatus) : FiltersWf s' where
  toSlotsWf := hw.toSlotsWf.kept hf
  emptyAck k hk := by
    rcases ha k with h | h
    · rw [h, hw.emptyAck k (hf.filter ▸ hk)]
    · exact h
  distinct := by
    rw [hf.filter]
    exact hw.distinct
  subscriptionCount := by
    rw [hf.number, hf.filter]
    exact hw.subscriptionCount

theorem FiltersWf.store (hw : FiltersWf s) (hf : FilterStored s s' i f)
    (ha : AckReset s.pxSubAckStatus s'.pxSubAckStatus) (hi : s.filterAt i = none)
    (hnew : ∀ k, s.filterAt k ≠ some f) (hpos : 0 < f.length) (hlt : f.length < uint16Max) :
    FiltersWf s' where
  toSlotsWf := hw.toSlotsWf.store hf hpos hlt
  emptyAck k hk := by
    rw [hf.filter] at hk
    obtain ⟨hki, hk⟩ := of_update_eq hk nofun
    obtain h | h := ha k
    · rw [h, hw.emptyAck k hk]
    · exact h
  distinct a b g hag hbg := by
    rw [hf.filter] at hag hbg
    by_cases hai : a = i <;> by_cases hbi : b = i
    · rw [hai, hbi]
    · subst hai
      rw [Function.update_self] at hag
      rw [Function.update_of_ne hbi, ← hag] at hbg
      exact absurd hbg (hnew b)
    · subst hbi
      rw [Function.update_self] at hbg
      rw [Function.update_of_ne hai, ← hbg] at hag
      exact absurd hag (hnew a)
    · rw [Function.update_of_ne hai] at hag
      rw [Function.update_of_ne hbi] at hbg
      exact hw.distinct a b g hag hbg
  subscriptionCount := by
    have hcount := slotCount_update (fun f => f ≠ none) s.filterAt i (some f)
    simp only [hi, ne_eq, not_true_eq_false, if_false, reduceCtorEq, not_false_eq_true, if_true]
      at hcount
    rw [hf.number, hf.filter, hw.subscriptionCount]
    exact hcount.symm

theorem FiltersWf.free (hw : FiltersWf s) (hf : FilterFreed s s' i)
    (hi : s.filterAt i = some f) : FiltersWf s' where
  toSlotsWf := hw.toSlotsWf.free hf
  emptyAck k hk := by
    rw [hf.ack]
    by_cases hki : k = i
    · simp [hki]
    · rw [hf.filter, Function.update_of_ne hki] at hk
      rw [Function.update_of_ne hki]
      exact hw.emptyAck k hk
  distinct a b g hag hbg := by
    rw [hf.filter] at hag hbg
    exact hw.distinct a b g (of_update_eq hag nofun).2 (of_update_eq hbg nofun).2
  subscriptionCount := by
    have hcount := slotCount_update (fun f => f ≠ none) s.filterAt i none
    rw [if_pos (by simp [hi]), if_neg (by simp)] at hcount
    rw [hf.number, hf.filter, hw.subscriptionCount]
    omega

/-- A removal leaves no stale data in an empty element. -/
theorem CallbackRemoved.cleared (hc : CallbackRemoved s s' j)
    (hcleared : ∀ j, (s.pxCallbacks j).pxSubInfo = none → s.pxCallbacks j = .zero) :
    ∀ j, (s'.pxCallbacks j).pxSubInfo = none → s'.pxCallbacks j = .zero := by
  intro k hk
  obtain ⟨τ, hτ⟩ := hc.callbacks
  rw [hτ] at hk ⊢
  dsimp only at hk ⊢
  by_cases hkj : τ k = j
  · rw [hkj, Function.update_self]
  · rw [Function.update_of_ne hkj] at hk ⊢
    exact hcleared _ hk

theorem CallbacksWf.kept (hw : CallbacksWf s) (hc : CallbacksKept s s') : CallbacksWf s' where
  cleared := by rw [hc.callbacks]; exact hw.cleared
  single := by rw [hc.callbacks]; exact hw.single
  callbackCount := by rw [hc.callbacks, hc.number]; exact hw.callbackCount

theorem CallbacksWf.attach {e : SubCallbackElement} (hw : CallbacksWf s)
    (hc : CallbackAttached s s' j e i) (he : e.pxSubInfo = some i)
    (hnew : ∀ k, s.pxCallbacks k ≠ e) : CallbacksWf s' where
  cleared k hk := by
    rw [hc.callbacks] at hk ⊢
    by_cases hkj : k = j
    · subst hkj
      rw [Function.update_self, he] at hk
      exact absurd hk (by simp)
    · rw [Function.update_of_ne hkj] at hk ⊢
      exact hw.cleared k hk
  single a b hab ha := by
    rw [hc.callbacks] at hab ha
    by_cases haj : a = j <;> by_cases hbj : b = j
    · rw [haj, hbj]
    · subst haj
      rw [Function.update_self, Function.update_of_ne hbj] at hab
      exact absurd hab.symm (hnew b)
    · subst hbj
      rw [Function.update_self, Function.update_of_ne haj] at hab
      exact absurd hab (hnew a)
    · rw [Function.update_of_ne haj] at hab ha
      rw [Function.update_of_ne hbj] at hab
      exact hw.single a b hab ha
  callbackCount := by
    have hcount := slotCount_update (fun e => e.pxSubInfo ≠ none) s.pxCallbacks j e
    simp only [hc.free, he, ne_eq, not_true_eq_false, if_false, reduceCtorEq, not_false_eq_true,
      if_true] at hcount
    rw [hc.number, hc.callbacks, hw.callbackCount]
    exact hcount.symm

theorem CallbacksWf.remove (hw : CallbacksWf s) (hc : CallbackRemoved s s' j) :
    CallbacksWf s' where
  cleared := hc.cleared hw.cleared
  single a b hab ha := by
    obtain ⟨τ, hτ⟩ := hc.callbacks
    rw [hτ] at hab ha
    dsimp only at hab ha
    have haj : τ a ≠ j := by
      intro h
      rw [h, Function.update_self] at ha
      exact ha rfl
    have hbj : τ b ≠ j := by
      intro h
      rw [hab, h, Function.update_self] at ha
      exact ha rfl
    rw [Function.update_of_ne haj] at hab ha
    rw [Function.update_of_ne hbj] at hab
    exact τ.injective (hw.single _ _ hab ha)
  callbackCount := hc.number

theorem attachedTo_kept (hc : CallbacksKept s s') (k : SubIdx) :
    s'.attachedTo k = s.attachedTo k := by
  simp [SubMgrCtx.attachedTo, hc.callbacks]

theorem attachedTo_attach {e : SubCallbackElement} (hc : CallbackAttached s s' j e i)
    (he : e.pxSubInfo = some i) (k : SubIdx) :
    s'.attachedTo k = s.attachedTo k + if k = i then 1 else 0 := by
  have hcount := slotCount_update (fun e => e.pxSubInfo = some k) s.pxCallbacks j e
  simp only [hc.free, he, reduceCtorEq, if_false, add_zero, Option.some.injEq, eq_comm (a := i)]
    at hcount
  rw [SubMgrCtx.attachedTo, hc.callbacks]
  exact hcount

theorem attachedTo_remove {cb ctx self : Ptr} (hc : CallbackRemoved s s' j)
    (hj : s.pxCallbacks j = ⟨cb, ctx, self, some i⟩) (k : SubIdx) :
    s'.attachedTo k + (if k = i then 1 else 0) = s.attachedTo k := by
  obtain ⟨τ, hτ⟩ := hc.callbacks
  have hcount := slotCount_update (fun e => e.pxSubInfo = some k) s.pxCallbacks j .zero
  simp only [hj, SubCallbackElement.zero, reduceCtorEq, if_false, add_zero, Option.some.injEq,
    eq_comm (a := i)] at hcount
  rw [SubMgrCtx.attachedTo, hτ, slotCount_perm]
  exact hcount

/-- After a removal exactly the callbacks in the other slots are left. -/
theorem mem_remove (hc : CallbackRemoved s s' j) {e : SubCallbackElement}
    (he : e.pxSubInfo ≠ none) :
    (∃ k, s'.pxCallbacks k = e) ↔ ∃ k, k ≠ j ∧ s.pxCallbacks k = e := by
  obtain ⟨τ, hτ⟩ := hc.callbacks
  rw [hτ]
  constructor
  · intro h
    obtain ⟨k, hk⟩ := h
    have hzero : SubCallbackElement.zero ≠ e := fun h => he (h ▸ rfl)
    exact ⟨τ k, of_update_eq hk hzero⟩
  · intro h
    obtain ⟨k, hkj, hk⟩ := h
    exact ⟨τ.symm k, by simpa [hkj] using hk⟩

theorem TableWf.kept (hw : TableWf s) (hf : FiltersKept s s') (hc : CallbacksKept s s')
    (ha : AckReset s.pxSubAckStatus s'.pxSubAckStatus) : TableWf s' where
  toFiltersWf := hw.toFiltersWf.kept hf ha
  toCallbacksWf := hw.toCallbacksWf.kept hc
  noDangling := by
    rw [hf.filter, hc.callbacks]
    exact hw.noDangling

theorem TableWf.attach {e : SubCallbackElement} (hw : TableWf s) (hf : FiltersWf s')
    (hkeep : ∀ k, s.filterAt k ≠ none → s'.filterAt k ≠ none) (hi : s'.filterAt i ≠ none)
    (hc : CallbackAttached s s' j e i) (he : e.pxSubInfo = some i)
    (hnew : ∀ k, s.pxCallbacks k ≠ e) : TableWf s' where
  toFiltersWf := hf
  toCallbacksWf := hw.toCallbacksWf.attach hc he hnew
  noDangling k m hk := by
    rw [hc.callbacks] at hk
    by_cases hkj : k = j
    · subst hkj
      rw [Function.update_self, he] at hk
      exact Option.some.inj hk ▸ hi
    · rw [Function.update_of_ne hkj] at hk
      exact hkeep m (hw.noDangling k m hk)

theorem TableWf.dropReference (hw : TableWf s) (i : SubIdx) : TableWf (s.dropReference i) where
  toFiltersWf := ⟨⟨hw.empty, hw.stored⟩, hw.emptyAck, hw.distinct, hw.subscriptionCount⟩
  toCallbacksWf := ⟨hw.cleared, hw.single, hw.callbackCount⟩
  noDangling := hw.noDangling

end preservation

/-- A callback slot and memory being available, the search for `f` does not end at an empty
slot while another slot stores `f`. -/
def SearchOk (s : SubMgrCtx) (f : CString) (xMalloc : Bool) : Prop :=
  (∃ j, (s.pxCallbacks j).pxSubInfo = none) → xMalloc = true →
    ∀ k, FirstStop s f k → s.filterAt k = none → ∀ m, s.filterAt m ≠ some f

section subscribe

variable {s : SubMgrCtx} {self cb ctx : Ptr} {f : CString} {xMalloc : Bool} {u : SubscribeUpdate}

theorem scanStops_self {m : SubIdx} (hm : s.filterAt m = some f) : ScanStops s f m := by
  simpa only [ScanStops, hm] using CString.IsPrefix.refl f

theorem FirstStop.unique {k m : SubIdx} (hk : FirstStop s f k) (hm : FirstStop s f m) : k = m := by
  rcases lt_trichotomy k m with h | h | h
  · exact absurd hk.1 (hm.2 k h)
  · exact h
  · exact absurd hm.1 (hk.2 m h)

theorem SubscribeEffect.tableWf (he : SubscribeEffect s self f cb ctx xMalloc u) (hw : TableWf s)
    (hpos : 0 < f.length) (hlt : f.length < uint16Max) (hok : SearchOk s f xMalloc) :
    TableWf u.ctx := by
  cases he with
  | refused hst hwhy hf hc ha => exact hw.kept hf hc ha
  | registered i j g hi hstop hj hf hc ha => exact hw.kept hf hc ha
  | attached i j g hi hstop hnew hf hc ha =>
    refine hw.attach (hw.toFiltersWf.kept hf ha) (fun k hk => ?_) ?_ hc rfl hnew
    · rwa [hf.filter]
    · simp [hf.filter, hi]
  | created i j hi hmem hstop hf hc ha hack =>
    have hfresh : ∀ m, s.filterAt m ≠ some f := by
      rcases hstop with hstop | hno
      · exact hok ⟨j, hc.free⟩ hmem i hstop hi
      · exact fun m hm => hno m (scanStops_self hm)
    have hnew : ∀ k, s.pxCallbacks k ≠ ⟨cb, ctx, self, some i⟩ := by
      intro k hk
      exact hw.noDangling k i (by rw [hk]) hi
    refine hw.attach (hw.toFiltersWf.store hf ha hi hfresh hpos hlt) (fun k hk => ?_) ?_ hc rfl hnew
    · rw [hf.filter]
      by_cases hki : k = i
      · simp [hki]
      · rwa [Function.update_of_ne hki]
    · simp [hf.filter]

/-- References and attached callbacks grow together. -/
theorem SubscribeEffect.balance (he : SubscribeEffect s self f cb ctx xMalloc u) (k : SubIdx) :
    u.ctx.pulSubCbCount k + s.attachedTo k = s.pulSubCbCount k + u.ctx.attachedTo k := by
  have hkept {s' : SubMgrCtx} (hc : CallbacksKept s s') :
      s'.pulSubCbCount k + s.attachedTo k = s.pulSubCbCount k + s'.attachedTo k := by
    rw [hc.count, attachedTo_kept hc]
  have hjoin {s' : SubMgrCtx} {i : SubIdx} {j : CbIdx}
      (hc : CallbackAttached s s' j ⟨cb, ctx, self, some i⟩ i) :
      s'.pulSubCbCount k + s.attachedTo k = s.pulSubCbCount k + s'.attachedTo k := by
    rw [hc.count, attachedTo_attach hc rfl]
    by_cases hki : k = i
    · subst hki
      simp only [Function.update_self, if_true]
      omega
    · simp [hki]
  cases he with
  | refused hst hwhy hf hc ha => exact hkept hc
  | registered i j g hi hstop hj hf hc ha => exact hkept hc
  | attached i j g hi hstop hnew hf hc ha => exact hjoin hc
  | created i j hi hmem hstop hf hc ha hack => exact hjoin hc

/-- No slot loses a callback or its filter, and a slot in use has a callback. -/
theorem SubscribeEffect.inUse (he : SubscribeEffect s self f cb ctx xMalloc u)
    (hinUse : ∀ i, s.filterAt i ≠ none → 0 < s.attachedTo i) (k : SubIdx)
    (hk : u.ctx.filterAt k ≠ none) : 0 < u.ctx.attachedTo k := by
  cases he with
  | refused hst hwhy hf hc ha =>
    rw [attachedTo_kept hc]
    exact hinUse k (hf.filter ▸ hk)
  | registered i j g hi hstop hj hf hc ha =>
    rw [attachedTo_kept hc]
    exact hinUse k (hf.filter ▸ hk)
  | attached i j g hi hstop hnew hf hc ha =>
    have hpos := hinUse k (hf.filter ▸ hk)
    rw [attachedTo_attach hc rfl]
    omega
  | created i j hi hmem hstop hf hc ha hack =>
    rw [attachedTo_attach hc rfl]
    by_cases hki : k = i
    · simp [hki]
    · rw [hf.filter, Function.update_of_ne hki] at hk
      have hpos := hinUse k hk
      omega

theorem SubscribeEffect.occupied (he : SubscribeEffect s self f cb ctx xMalloc u)
    (hst : u.xStatus = .mqttSuccess) {i : SubIdx} (hi : u.uxTargetSubIdx = some i) :
    u.ctx.filterAt i ≠ none := by
  cases he with
  | refused hne => exact absurd hst hne
  | registered k j g hk hstop hj hf =>
    obtain rfl := Option.some.inj hi
    simp [hf.filter, hk]
  | attached k j g hk hstop hnew hf =>
    obtain rfl := Option.some.inj hi
    simp [hf.filter, hk]
  | created k j hk hmem hstop hf =>
    obtain rfl := Option.some.inj hi
    simp [hf.filter]

theorem SubscribeEffect.filter_kept (he : SubscribeEffect s self f cb ctx xMalloc u) {k : SubIdx}
    {g : CString} (hk : s.filterAt k = some g) : u.ctx.filterAt k = some g := by
  cases he with
  | refused hst hwhy hf hc ha => rwa [hf.filter]
  | registered i j g' hi hstop hj hf hc ha => rwa [hf.filter]
  | attached i j g' hi hstop hnew hf hc ha => rwa [hf.filter]
  | created i j hi hmem hstop hf hc ha hack =>
    have hki : k ≠ i := by
      intro h
      rw [h, hi] at hk
      exact absurd hk (by simp)
    rwa [hf.filter, Function.update_of_ne hki]

/-- A filter that the update has brought in is not acknowledged yet. -/
theorem SubscribeEffect.filter_new (he : SubscribeEffect s self f cb ctx xMalloc u) {k : SubIdx}
    {g : CString} (hk : u.ctx.filterAt k = some g) : s.filterAt k = some g ∨
      (s.filterAt k = none ∧ u.ctx.pxSubAckStatus k = mqttSubAckFailure) := by
  cases he with
  | refused hst hwhy hf hc ha => exact .inl (hf.filter ▸ hk)
  | registered i j g' hi hstop hj hf hc ha => exact .inl (hf.filter ▸ hk)
  | attached i j g' hi hstop hnew hf hc ha => exact .inl (hf.filter ▸ hk)
  | created i j hi hmem hstop hf hc ha hack =>
    by_cases hki : k = i
    · subst hki
      exact .inr ⟨hi, hack⟩
    · rw [hf.filter, Function.update_of_ne hki] at hk
      exact .inl hk

theorem SubscribeEffect.callback_kept (he : SubscribeEffect s self f cb ctx xMalloc u) {k : CbIdx}
    (hk : (s.pxCallbacks k).pxSubInfo ≠ none) : u.ctx.pxCallbacks k = s.pxCallbacks k := by
  have hjoin {s' : SubMgrCtx} {i : SubIdx} {j : CbIdx}
      (hc : CallbackAttached s s' j ⟨cb, ctx, self, some i⟩ i) :
      s'.pxCallbacks k = s.pxCallbacks k := by
    have hkj : k ≠ j := by
      intro h
      exact hk (h ▸ hc.free)
    rw [hc.callbacks, Function.update_of_ne hkj]
  cases he with
  | refused hst hwhy hf hc ha => rw [hc.callbacks]
  | registered i j g hi hstop hj hf hc ha => rw [hc.callbacks]
  | attached i j g hi hstop hnew hf hc ha => exact hjoin hc
  | created i j hi hmem hstop hf hc ha hack => exact hjoin hc

theorem SubscribeEffect.callback_new (he : SubscribeEffect s self f cb ctx xMalloc u) (k : CbIdx) :
    u.ctx.pxCallbacks k = s.pxCallbacks k ∨ (u.ctx.pxCallbacks k).xTaskHandle = self := by
  have hjoin {s' : SubMgrCtx} {i : SubIdx} {j : CbIdx}
      (hc : CallbackAttached s s' j ⟨cb, ctx, self, some i⟩ i) :
      s'.pxCallbacks k = s.pxCallbacks k ∨ (s'.pxCallbacks k).xTaskHandle = self := by
    rw [hc.callbacks]
    by_cases hkj : k = j
    · exact .inr (by rw [hkj, Function.update_self])
    · exact .inl (Function.update_of_ne hkj _ _)
  cases he with
  | refused hst hwhy hf hc ha => exact .inl (by rw [hc.callbacks])
  | registered i j g hi hstop hj hf hc ha => exact .inl (by rw [hc.callbacks])
  | attached i j g hi hstop hnew hf hc ha => exact hjoin hc
  | created i j hi hmem hstop hf hc ha hack => exact hjoin hc

theorem SubscribeEffect.ackReset (he : SubscribeEffect s self f cb ctx xMalloc u) :
    AckReset s.pxSubAckStatus u.ctx.pxSubAckStatus := by
  cases he with
  | refused hst hwhy hf hc ha => exact ha
  | registered i j g hi hstop hj hf hc ha => exact ha
  | attached i j g hi hstop hnew hf hc ha => exact ha
  | created i j hi hmem hstop hf hc ha hack => exact ha

theorem SubscribeEffect.target_ne_none (he : SubscribeEffect s self f cb ctx xMalloc u)
    (hst : u.xStatus = .mqttSuccess) : u.uxTargetSubIdx ≠ none := by
  cases he with
  | refused hne => exact absurd hst hne
  | registered i j g hi hstop hj hf hc ha => simp
  | attached i j g hi hstop hnew hf hc ha => simp
  | created i j hi hmem hstop hf hc ha hack => simp

/-- Only the slot at which the search ends, or an empty one, gains a callback. -/
theorem SubscribeEffect.gain (he : SubscribeEffect s self f cb ctx xMalloc u) (k : SubIdx) :
    (u.ctx.pulSubCbCount k = s.pulSubCbCount k ∧ u.ctx.attachedTo k = s.attachedTo k) ∨
      s.filterAt k = none ∨ (FirstStop s f k ∧ ∃ j, (s.pxCallbacks j).pxSubInfo = none) := by
  cases he with
  | refused hst hwhy hf hc ha => exact .inl ⟨by rw [hc.count], attachedTo_kept hc k⟩
  | registered i j g hi hstop hj hf hc ha => exact .inl ⟨by rw [hc.count], attachedTo_kept hc k⟩
  | attached i j g hi hstop hnew hf hc ha =>
    by_cases hki : k = i
    · subst hki
      exact .inr (.inr ⟨hstop, j, hc.free⟩)
    · refine .inl ⟨by rw [hc.count, Function.update_of_ne hki], ?_⟩
      rw [attachedTo_attach hc rfl, if_neg hki, add_zero]
  | created i j hi hmem hstop hf hc ha hack =>
    by_cases hki : k = i
    · subst hki
      exact .inr (.inl hi)
    · refine .inl ⟨by rw [hc.count, Function.update_of_ne hki], ?_⟩
      rw [attachedTo_attach hc rfl, if_neg hki, add_zero]

end subscribe

section storeAck

variable {s : SubMgrCtx} {i : SubIdx} (r : SubRequestResult)

@[simp] theorem storeAck_pxSubscriptions :
    (s.storeAck i r).pxSubscriptions = s.pxSubscriptions := by
  unfold SubMgrCtx.storeAck
  cases r.pxSubAckStatus <;> rfl

@[simp] theorem storeAck_filterAt : (s.storeAck i r).filterAt = s.filterAt := by
  unfold SubMgrCtx.storeAck
  cases r.pxSubAckStatus <;> rfl

@[simp] theorem storeAck_pxCallbacks : (s.storeAck i r).pxCallbacks = s.pxCallbacks := by
  unfold SubMgrCtx.storeAck
  cases r.pxSubAckStatus <;> rfl

@[simp] theorem storeAck_pulSubCbCount : (s.storeAck i r).pulSubCbCount = s.pulSubCbCount := by
  unfold SubMgrCtx.storeAck
  cases r.pxSubAckStatus <;> rfl

@[simp] theorem storeAck_uxSubscriptionCount :
    (s.storeAck i r).uxSubscriptionCount = s.uxSubscriptionCount := by
  unfold SubMgrCtx.storeAck
  cases r.pxSubAckStatus <;> rfl

@[simp] theorem storeAck_uxCallbackCount :
    (s.storeAck i r).uxCallbackCount = s.uxCallbackCount := by
  unfold SubMgrCtx.storeAck
  cases r.pxSubAckStatus <;> rfl

@[simp] theorem storeAck_attachedTo (k : SubIdx) :
    (s.storeAck i r).attachedTo k = s.attachedTo k := by
  simp [SubMgrCtx.attachedTo]

/-- An acknowledgement may only be stored for an occupied slot. -/
theorem TableWf.storeAck (hw : TableWf s) (hi : s.filterAt i ≠ none) :
    TableWf (s.storeAck i r) := by
  unfold SubMgrCtx.storeAck
  cases r.pxSubAckStatus with
  | none => exact hw
  | some code =>
    refine ⟨⟨⟨hw.empty, hw.stored⟩, fun k hk => ?_, hw.distinct, hw.subscriptionCount⟩,
      ⟨hw.cleared, hw.single, hw.callbackCount⟩, hw.noDangling⟩
    have hki : k ≠ i := by
      intro hki
      rw [hki] at hk
      exact hi hk
    exact (Function.update_of_ne hki _ _).trans (hw.emptyAck k hk)

end storeAck

section remove

variable {s s' : SubMgrCtx} {self cb ctx : Ptr} {f : CString} {n : Nat} {st : MQTTStatus}

/-- The removal keeps the tables consistent if it frees a slot for its last callback only. -/
theorem RemoveEffect.tableWf (he : RemoveEffect s self f cb ctx n (s', st)) (hw : TableWf s)
    (hlast : ∀ i, s.filterAt i = some f → s.pulSubCbCount i = 0 → n = 1 → s.attachedTo i ≤ 1) :
    TableWf s' := by
  cases he with
  | kept => exact hw
  | freed i j hi hzero hj hone hf hc =>
    refine ⟨hw.toFiltersWf.free hf hi, hw.toCallbacksWf.remove hc, fun k m hk => ?_⟩
    have hcount := attachedTo_remove hc hj i
    rw [if_pos rfl] at hcount
    have hle := hlast i hi hzero hone
    have hmi : m ≠ i := by
      intro hmi
      subst hmi
      have hpos : 0 < s'.attachedTo m :=
        slotCount_pos_of (p := fun e : SubCallbackElement => e.pxSubInfo = some m) hk
      omega
    obtain ⟨k', -, hk'⟩ := (mem_remove hc (e := s'.pxCallbacks k) (by simp [hk])).mp ⟨k, rfl⟩
    rw [hf.filter, Function.update_of_ne hmi]
    exact hw.noDangling k' m (by rw [hk', hk])
  | removed i j hi hzero hj hone hf ha hc =>
    refine ⟨hw.toFiltersWf.kept hf fun k => .inl (by rw [ha]), hw.toCallbacksWf.remove hc,
      fun k m hk => ?_⟩
    obtain ⟨k', -, hk'⟩ := (mem_remove hc (e := s'.pxCallbacks k) (by simp [hk])).mp ⟨k, rfl⟩
    rw [hf.filter]
    exact hw.noDangling k' m (by rw [hk', hk])

end remove

end RenesasDemo.Mqtt
