import RenesasDemo.Framework.SlotCompaction
import RenesasDemo.Mqtt.SubscriptionTable

namespace RenesasDemo.Mqtt

open Framework

def SubCallbackElement.isOccupied (e : SubCallbackElement) : Bool := e.pxSubInfo.isSome

/-- The loop of `prvCompressCallbackList` for a table of `n` elements. -/
def compressCallbacks {n : Nat} (pxCallbackList : Fin n → SubCallbackElement) :
    CompactionState (Fin n → SubCallbackElement) :=
  compact (slotOps SubCallbackElement.isOccupied .zero n) pxCallbackList

/-- What compression makes of a table. -/
structure CallbacksCompressed {n : Nat} (pxCallbackList : Fin n → SubCallbackElement)
    (st : CompactionState (Fin n → SubCallbackElement)) : Prop where
  contiguous : ∀ i, (st.table i).pxSubInfo ≠ none ↔ i.val < st.count
  entries : occupiedEntries SubCallbackElement.isOccupied st.table =
    occupiedEntries SubCallbackElement.isOccupied pxCallbackList
  /-- An element that was empty keeps its other fields. -/
  later : ∀ i, st.count ≤ i.val →
    st.table i = if (pxCallbackList i).pxSubInfo ≠ none then .zero else pxCallbackList i
  number : st.count = slotCount (fun e => e.pxSubInfo ≠ none) pxCallbackList
  assertOk : st.assertOk = true

section compression

variable {n : Nat}

theorem isOccupied_iff (e : SubCallbackElement) : e.isOccupied = true ↔ e.pxSubInfo ≠ none :=
  Option.isSome_iff_ne_none

theorem isOccupied_eq_decide :
    SubCallbackElement.isOccupied = fun e => decide (e.pxSubInfo ≠ none) := by
  funext e
  rw [Bool.eq_iff_iff, isOccupied_iff, decide_eq_true_iff]

theorem prvCompressCallbackList_eq (pxCallbackList : CbIdx → SubCallbackElement) :
    prvCompressCallbackList pxCallbackList = compressCallbacks pxCallbackList := by
  have hops : callbackListOps =
      slotOps SubCallbackElement.isOccupied .zero mqttAgentMaxCallbacks := by
    unfold callbackListOps slotOps SubCallbackElement.isOccupied
    simp only [Option.not_isSome]
    rfl
  rw [prvCompressCallbackList, hops]
  rfl

theorem compressCallbacks_compressed (pxCallbackList : Fin n → SubCallbackElement) :
    CallbacksCompressed pxCallbackList (compressCallbacks pxCallbackList) := by
  obtain ⟨hcount, hocc, hlater, hentries⟩ :=
    compact_slots SubCallbackElement.isOccupied .zero rfl pxCallbackList
  refine ⟨fun i => ?_, hentries, fun i hi => ?_, ?_, compact_assertOk _⟩
  · rw [← isOccupied_iff]
    exact hocc i
  · have hi := hlater i hi
    simp only [isOccupied_iff] at hi
    exact hi
  · rw [← rank_eq_slotCount]
    refine hcount.trans ?_
    rw [isOccupied_eq_decide]

/-- Compression of a table of any size, that of MQTT_AGENT_MAX_CALLBACKS elements among them, moves
the occupied elements to the front in their order and clears the places they leave. -/
theorem prvCompressCallbackList_compressed :
    (∀ n (pxCallbackList : Fin n → SubCallbackElement),
      CallbacksCompressed pxCallbackList (compressCallbacks pxCallbackList)) ∧
    ∀ pxCallbackList : CbIdx → SubCallbackElement,
      prvCompressCallbackList pxCallbackList = compressCallbacks pxCallbackList ∧
        CallbacksCompressed pxCallbackList (prvCompressCallbackList pxCallbackList) := by
  refine ⟨fun n l => compressCallbacks_compressed l, fun l => ?_⟩
  rw [prvCompressCallbackList_eq]
  exact ⟨rfl, compressCallbacks_compressed l⟩

end compression

/-- An element without a subscription, but with a callback in it, stays where it is. -/
def staleCallbacks : CbIdx → SubCallbackElement := fun _ => ⟨1, 0, 0, none⟩

theorem not_cleared_staleCallbacks :
    ¬ ∀ (pxCallbackList : CbIdx → SubCallbackElement) (i : CbIdx),
      (prvCompressCallbackList pxCallbackList).count ≤ i.val →
        (prvCompressCallbackList pxCallbackList).table i = .zero := by
  intro h
  have hzero := h staleCallbacks 0 (by decide)
  exact absurd hzero (by decide)

end RenesasDemo.Mqtt
