import Mathlib.Algebra.GroupWithZero.Nat
import RenesasDemo.Framework.CString
import RenesasDemo.Framework.Compaction

namespace RenesasDemo.Mqtt

open Framework

abbrev mqttAgentMaxSubscriptions : Nat := 10
abbrev mqttAgentMaxCallbacks : Nat := 10

abbrev SubIdx := Fin mqttAgentMaxSubscriptions
abbrev CbIdx := Fin mqttAgentMaxCallbacks

instance : NeZero mqttAgentMaxSubscriptions := ⟨by decide⟩

/-- A function pointer, `void *` or task handle; zero is NULL. -/
abbrev Ptr := Nat

/-- `invalid` stands for any other bit pattern a caller may pass. -/
inductive MQTTQoS where
  | mqttQoS0
  | mqttQoS1
  | mqttQoS2
  | invalid (value : Nat)
  deriving DecidableEq

inductive MQTTStatus where
  | mqttSuccess
  | mqttBadParameter
  | mqttNoMemory
  | mqttSendFailed
  | mqttRecvFailed
  | mqttBadResponse
  | mqttServerRefused
  | mqttNoDataAvailable
  | mqttIllegalState
  | mqttStateCollision
  | mqttKeepAliveTimeout
  | mqttNeedMoreBytes
  deriving DecidableEq

/-- The raw value of an `MQTTSubAckStatus_t`. -/
abbrev MQTTSubAckStatus := Nat

def mqttSubAckFailure : MQTTSubAckStatus := 0x80

structure MQTTSubscribeInfo where
  qos : MQTTQoS
  pTopicFilter : Option CString
  topicFilterLength : Nat

def MQTTSubscribeInfo.zero : MQTTSubscribeInfo := ⟨.mqttQoS0, none, 0⟩

structure SubCallbackElement where
  pxIncomingPublishCallback : Ptr
  pvIncomingPublishCallbackContext : Ptr
  xTaskHandle : Ptr
  /-- `&pxSubscriptions[ i ]`, or NULL for an empty element. -/
  pxSubInfo : Option SubIdx
  deriving DecidableEq

def SubCallbackElement.zero : SubCallbackElement := ⟨0, 0, 0, none⟩

/-- What an `MQTTSubscribeInfo_t *` handed to the agent points to. -/
inductive SubscribeInfoPtr where
  | slot (uxIdx : SubIdx)
  | caller (xSubInfo : MQTTSubscribeInfo)

structure MQTTAgentSubscribeArgs where
  pSubscribeInfo : Option SubscribeInfoPtr
  numSubscriptions : Nat

/-- `SubMgrCtx_t` without its mutex. -/
structure SubMgrCtx where
  pxSubscriptions : SubIdx → MQTTSubscribeInfo
  pxSubAckStatus : SubIdx → MQTTSubAckStatus
  pulSubCbCount : SubIdx → Nat
  pxCallbacks : CbIdx → SubCallbackElement
  uxSubscriptionCount : Nat
  uxCallbackCount : Nat
  xInitialSubscribeArgs : MQTTAgentSubscribeArgs

def SubMgrCtx.filterAt (s : SubMgrCtx) (i : SubIdx) : Option CString :=
  (s.pxSubscriptions i).pTopicFilter

/-- Every slot of the five tables is overwritten, so nothing of the old context is left. -/
def prvSubscriptionManagerCtxReset : SubMgrCtx where
  pxSubscriptions := fun _ => .zero
  pxSubAckStatus := fun _ => mqttSubAckFailure
  pulSubCbCount := fun _ => 0
  pxCallbacks := fun _ => .zero
  uxSubscriptionCount := 0
  uxCallbackCount := 0
  xInitialSubscribeArgs := ⟨none, 0⟩

def moveCallback (pxCallbackList : CbIdx → SubCallbackElement) (src dst : CbIdx) :
    CbIdx → SubCallbackElement :=
  Function.update (Function.update pxCallbackList dst (pxCallbackList src)) src .zero

def callbackListOps : CompactionOps (CbIdx → SubCallbackElement) mqttAgentMaxCallbacks where
  isHole l i := (l i).pxSubInfo.isNone
  isOccupied l i := (l i).pxSubInfo.isSome
  isCounted l i := (l i).pxSubInfo.isSome
  move := moveCallback

def prvCompressCallbackList (pxCallbackList : CbIdx → SubCallbackElement) :
    CompactionState (CbIdx → SubCallbackElement) :=
  compact callbackListOps pxCallbackList

/-- Redirect the callbacks of slot `uxOldIdx` to slot `uxNewIdx`. -/
def prvUpdateCallbackRefs (pxCallbacksList : CbIdx → SubCallbackElement)
    (uxOldIdx uxNewIdx : SubIdx) : CbIdx → SubCallbackElement :=
  fun j =>
    if (pxCallbacksList j).pxSubInfo = some uxOldIdx then
      { pxCallbacksList j with pxSubInfo := some uxNewIdx }
    else pxCallbacksList j

/-- The two arrays that `prvCompressSubscriptionList` writes. -/
structure SubListTables where
  pxSubList : SubIdx → MQTTSubscribeInfo
  pxCallbacksList : CbIdx → SubCallbackElement

def moveSubscription (t : SubListTables) (src dst : SubIdx) : SubListTables where
  pxSubList :=
    Function.update (Function.update t.pxSubList dst (t.pxSubList src)) src .zero
  pxCallbacksList := prvUpdateCallbackRefs t.pxCallbacksList src dst

/-- The inner scan of the source is bounded by MQTT_AGENT_MAX_CALLBACKS, the same number. -/
def subscriptionListOps : CompactionOps SubListTables mqttAgentMaxSubscriptions where
  isHole t i := (t.pxSubList i).pTopicFilter.isNone && (t.pxSubList i).topicFilterLength == 0
  isOccupied t i := (t.pxSubList i).topicFilterLength != 0
  isCounted t i := (t.pxSubList i).pTopicFilter.isSome && (t.pxSubList i).topicFilterLength != 0
  move := moveSubscription

def prvCompressSubscriptionList (t : SubListTables) : CompactionState SubListTables :=
  compact subscriptionListOps t

def prvMatchCbCtx (pxCbCtx : SubCallbackElement) (pxSubInfo : Option SubIdx)
    (pxCallback pvCallbackCtx xCurrentTask : Ptr) : Bool :=
  pxCbCtx.pxSubInfo == pxSubInfo &&
    pxCbCtx.pvIncomingPublishCallbackContext == pvCallbackCtx &&
    pxCbCtx.pxIncomingPublishCallback == pxCallback &&
    pxCbCtx.xTaskHandle == xCurrentTask

/-- `strncmp` on a stored filter; a NULL filter is only ever compared over zero bytes. -/
def strncmpFilter (pTopicFilter : Option CString) (s : CString) (n : Nat) : Int :=
  match pTopicFilter with
  | some f => strncmp f.bytes s.bytes n
  | none => strncmp [] s.bytes n

/-- A successful `MQTT_MatchTopic` that reports a match; the matcher is the MQTT library's. -/
def prvMatchTopic (mqttMatchTopic : CString → Option CString → Bool)
    (pxSubscribeInfo : MQTTSubscribeInfo) (pcTopicName : CString) : Bool :=
  mqttMatchTopic pcTopicName pxSubscribeInfo.pTopicFilter

/-- The (callback, context) pairs that `prvIncomingPublishCallback` calls, in order. -/
def prvIncomingPublishCallback (mqttMatchTopic : CString → Option CString → Bool)
    (s : SubMgrCtx) (pcTopicName : CString) : List (Ptr × Ptr) :=
  (List.finRange mqttAgentMaxCallbacks).filterMap fun ulCbIdx =>
    let pxCallback := s.pxCallbacks ulCbIdx
    match pxCallback.pxSubInfo with
    | none => none
    | some pxSubInfo =>
        if prvMatchTopic mqttMatchTopic (s.pxSubscriptions pxSubInfo) pcTopicName then
          some (pxCallback.pxIncomingPublishCallback,
            pxCallback.pvIncomingPublishCallbackContext)
        else none

theorem strncmpFilter_zero (p : Option CString) (s : CString) : strncmpFilter p s 0 = 0 := by
  cases p <;> simp [strncmpFilter, strncmp]

theorem prvMatchCbCtx_iff (e : SubCallbackElement) (i : Option SubIdx) (cb ctx self : Ptr) :
    prvMatchCbCtx e i cb ctx self = true ↔ e = ⟨cb, ctx, self, i⟩ := by
  obtain ⟨ecb, ectx, etask, esub⟩ := e
  simp only [prvMatchCbCtx, Bool.and_eq_true, beq_iff_eq, SubCallbackElement.mk.injEq]
  tauto

/-- On a list whose empty elements are zero, moving down is swapping two slots. -/
theorem moveCallback_eq_swap {l : CbIdx → SubCallbackElement} {src dst : CbIdx}
    (hne : dst ≠ src) (hz : l dst = .zero) :
    moveCallback l src dst = fun j => l (Equiv.swap dst src j) := by
  funext j
  by_cases hs : j = src
  · subst hs
    simp [moveCallback, hz]
  · by_cases hd : j = dst
    · subst hd
      simp [moveCallback, hne]
    · simp [moveCallback, hs, hd, Equiv.swap_apply_of_ne_of_ne hd hs]

/-- Compaction reorders the callbacks and nothing else. -/
theorem prvCompressCallbackList_perm {l : CbIdx → SubCallbackElement}
    (hz : ∀ j, (l j).pxSubInfo = none → l j = .zero) :
    ∃ τ : Equiv.Perm CbIdx, (prvCompressCallbackList l).table = fun j => l (τ j) := by
  refine compact_rule (P := fun t => ∃ τ : Equiv.Perm CbIdx, t = fun j => l (τ j))
    ⟨Equiv.refl _, rfl⟩ ?_
  intro t src dst hperm hlt hhole _
  obtain ⟨τ, rfl⟩ := hperm
  have hnone : (l (τ dst)).pxSubInfo = none := by simpa [callbackListOps] using hhole
  refine ⟨(Equiv.swap dst src).trans τ, ?_⟩
  exact moveCallback_eq_swap hlt.ne (hz _ hnone)

theorem callbackListOps_lawful : callbackListOps.Lawful where
  hole_not_counted t k h := by
    have hnone : (t k).pxSubInfo = none := by simpa [callbackListOps] using h
    simp [callbackListOps, hnone]
  move_counted_dst t src dst hlt h := by
    simpa [callbackListOps, moveCallback, hlt.ne] using h
  move_counted_other t src dst k hs hd := by
    simp [callbackListOps, moveCallback, hs, hd]

end RenesasDemo.Mqtt
