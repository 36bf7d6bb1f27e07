import RenesasDemo.Mqtt.SubscriptionTable

namespace RenesasDemo.Mqtt

open Framework

def MQTTStatus.value : MQTTStatus → Nat
  | mqttSuccess => 0
  | mqttBadParameter => 1
  | mqttNoMemory => 2
  | mqttSendFailed => 3
  | mqttRecvFailed => 4
  | mqttBadResponse => 5
  | mqttServerRefused => 6
  | mqttNoDataAvailable => 7
  | mqttIllegalState => 8
  | mqttStateCollision => 9
  | mqttKeepAliveTimeout => 10
  | mqttNeedMoreBytes => 11

def MQTTStatus.ofValue : Nat → MQTTStatus
  | 0 => mqttSuccess
  | 1 => mqttBadParameter
  | 2 => mqttNoMemory
  | 3 => mqttSendFailed
  | 4 => mqttRecvFailed
  | 5 => mqttBadResponse
  | 6 => mqttServerRefused
  | 7 => mqttNoDataAvailable
  | 8 => mqttIllegalState
  | 9 => mqttStateCollision
  | 10 => mqttKeepAliveTimeout
  | _ => mqttNeedMoreBytes

@[simp] theorem MQTTStatus.ofValue_value (x : MQTTStatus) : ofValue x.value = x := by
  cases x <;> rfl

theorem MQTTStatus.value_lt (x : MQTTStatus) : x.value < 2 ^ 24 := by
  cases x <;> decide

structure MQTTAgentReturnInfo where
  returnCode : MQTTStatus
  pSubackCodes : Option (List UInt8)
  deriving DecidableEq

/-- How the agent answers a request: the status of queueing it and, once it is queued, the
completion that reaches the waiting task (`none` when the wait ends without one). -/
structure AgentReply where
  xQueueStatus : MQTTStatus
  xCompletion : Option MQTTAgentReturnInfo

/-- The first SUBACK code, or zero without a list of codes. -/
def MQTTAgentReturnInfo.firstSubackCode (info : MQTTAgentReturnInfo) : Nat :=
  match info.pSubackCodes with
  | some (code :: _) => code.toNat
  | _ => 0

/-- The notification value that `prvSubscribeRqCallback` sets. -/
def prvSubscribeRqCallback (pxReturnInfo : MQTTAgentReturnInfo) : Nat :=
  pxReturnInfo.returnCode.value % 2 ^ 24 + pxReturnInfo.firstSubackCode * 2 ^ 24

/-- The status returned, and the value stored through `pxSubAckStatus` if any. -/
structure SubRequestResult where
  xStatus : MQTTStatus
  pxSubAckStatus : Option MQTTSubAckStatus

def prvSendSubRequest (reply : AgentReply) : SubRequestResult :=
  if reply.xQueueStatus = .mqttSuccess then
    match reply.xCompletion with
    | some info =>
        let ulNotifyValue := prvSubscribeRqCallback info
        ⟨.ofValue (ulNotifyValue % 2 ^ 24), some (ulNotifyValue / 2 ^ 24)⟩
    | none => ⟨.mqttKeepAliveTimeout, none⟩
  else ⟨reply.xQueueStatus, none⟩

/-- The packed notification value gives back the return code and the first SUBACK code. -/
theorem prvSendSubRequest_completed (info : MQTTAgentReturnInfo) :
    prvSendSubRequest ⟨.mqttSuccess, some info⟩ =
      ⟨info.returnCode, some info.firstSubackCode⟩ := by
  have hrc := info.returnCode.value_lt
  have hlow : prvSubscribeRqCallback info % 2 ^ 24 = info.returnCode.value := by
    unfold prvSubscribeRqCallback
    omega
  have hhigh : prvSubscribeRqCallback info / 2 ^ 24 = info.firstSubackCode := by
    unfold prvSubscribeRqCallback
    omega
  simp only [prvSendSubRequest, if_true, hlow, hhigh, MQTTStatus.ofValue_value]

/-- The notification value that `prvAgentRequestCallback` sets. -/
def prvAgentRequestCallback (pxReturnInfo : MQTTAgentReturnInfo) : Nat :=
  pxReturnInfo.returnCode.value

def prvSendUnsubRequest (reply : AgentReply) : MQTTStatus :=
  if reply.xQueueStatus = .mqttSuccess then
    match reply.xCompletion with
    | some info => .ofValue (prvAgentRequestCallback info)
    | none => .mqttKeepAliveTimeout
  else reply.xQueueStatus

def prvGetNewQoS (xCurrentQoS xRequestedQoS : MQTTQoS) : MQTTQoS :=
  if xCurrentQoS = xRequestedQoS then xCurrentQoS else .mqttQoS1

def prvValidateQoS (xQoS : MQTTQoS) : Bool :=
  xQoS == .mqttQoS0 || xQoS == .mqttQoS1 || xQoS == .mqttQoS2

structure SubscribeArgs where
  xHandle : Ptr
  pcTopicFilter : Option CString
  xRequestedQoS : MQTTQoS
  pxCallback : Ptr
  pvCallbackCtx : Ptr

structure UnSubscribeArgs where
  xHandle : Ptr
  pcTopicFilter : Option CString
  pxCallback : Ptr
  pvCallbackCtx : Ptr

def uint16Max : Nat := 65535

/-- The length check both calls make on a non-NULL filter. -/
def topicFilterStatus (pcTopicFilter : CString) : MQTTStatus :=
  let xTopicFilterLen := pcTopicFilter.strnlen uint16Max
  if xTopicFilterLen = 0 ∨ xTopicFilterLen ≥ uint16Max then .mqttBadParameter else .mqttSuccess

/-- The filter to work on, once every argument check has passed. -/
def SubscribeArgs.checked (a : SubscribeArgs) : Option CString :=
  match a.pcTopicFilter with
  | none => none
  | some f =>
      if a.xHandle = 0 ∨ a.pxCallback = 0 ∨ prvValidateQoS a.xRequestedQoS = false then none
      else if topicFilterStatus f = .mqttSuccess then some f
      else none

def UnSubscribeArgs.checked (a : UnSubscribeArgs) : Option CString :=
  match a.pcTopicFilter with
  | none => none
  | some f =>
      if a.xHandle = 0 ∨ a.pxCallback = 0 then none
      else if topicFilterStatus f = .mqttSuccess then some f
      else none

/-- The locals and the array that the search for a subscription slot writes. -/
structure SlotScan where
  xStatus : MQTTStatus
  /-- `none` is the initial MQTT_AGENT_MAX_SUBSCRIPTIONS. -/
  uxTargetSubIdx : Option SubIdx
  xRequestedQoS : MQTTQoS
  pxSubAckStatus : SubIdx → MQTTSubAckStatus

def findSubscriptionSlot (pxSubscriptions : SubIdx → MQTTSubscribeInfo)
    (pcTopicFilter : CString) : List SubIdx → SlotScan → SlotScan
  | [], st => st
  | uxSubIdx :: rest, st =>
      let pxSubInfo := pxSubscriptions uxSubIdx
      if pxSubInfo.pTopicFilter = none ∧ st.uxTargetSubIdx = none then
        -- Remember the first hole and go on looking for the filter.
        findSubscriptionSlot pxSubscriptions pcTopicFilter rest
          { st with
            xStatus := .mqttSuccess
            uxTargetSubIdx := some uxSubIdx
            pxSubAckStatus := Function.update st.pxSubAckStatus uxSubIdx mqttSubAckFailure }
      else if strncmpFilter pxSubInfo.pTopicFilter pcTopicFilter
          pxSubInfo.topicFilterLength = 0 then
        let xRequestedQoS := prvGetNewQoS pxSubInfo.qos st.xRequestedQoS
        { xStatus := .mqttSuccess
          uxTargetSubIdx := some uxSubIdx
          xRequestedQoS := xRequestedQoS
          pxSubAckStatus :=
            if pxSubInfo.qos ≠ xRequestedQoS then
              Function.update st.pxSubAckStatus uxSubIdx mqttSubAckFailure
            else st.pxSubAckStatus }
      else findSubscriptionSlot pxSubscriptions pcTopicFilter rest st

/-- The search for a callback slot: an element that is already registered, else the first
empty one. -/
def findCallbackSlot (pxCallbacks : CbIdx → SubCallbackElement) (uxTargetSubIdx : SubIdx)
    (pxCallback pvCallbackCtx xCurrentTask : Ptr) : List CbIdx → Option CbIdx → Option CbIdx
  | [], uxTargetCbIdx => uxTargetCbIdx
  | uxCbIdx :: rest, uxTargetCbIdx =>
      if uxTargetCbIdx = none ∧ (pxCallbacks uxCbIdx).pxSubInfo = none then
        findCallbackSlot pxCallbacks uxTargetSubIdx pxCallback pvCallbackCtx xCurrentTask rest
          (some uxCbIdx)
      else if prvMatchCbCtx (pxCallbacks uxCbIdx) (some uxTargetSubIdx) pxCallback
          pvCallbackCtx xCurrentTask then
        some uxCbIdx
      else
        findCallbackSlot pxCallbacks uxTargetSubIdx pxCallback pvCallbackCtx xCurrentTask rest
          uxTargetCbIdx

def SubMgrCtx.storeFilter (s : SubMgrCtx) (i : SubIdx) (f : CString) : SubMgrCtx :=
  { s with
    pxSubscriptions := Function.update s.pxSubscriptions i
      { s.pxSubscriptions i with
        pTopicFilter := some f
        topicFilterLength := f.strnlen uint16Max % 2 ^ 16 }
    uxSubscriptionCount := s.uxSubscriptionCount + 1 }

def SubMgrCtx.setQoS (s : SubMgrCtx) (i : SubIdx) (qos : MQTTQoS) : SubMgrCtx :=
  { s with
    pxSubscriptions := Function.update s.pxSubscriptions i
      { s.pxSubscriptions i with qos := qos } }

/-- Populate the subscription entry; `xMalloc` is the outcome of `pvPortMalloc`. -/
def populateSubscription (s : SubMgrCtx) (i : SubIdx) (f : CString) (qos : MQTTQoS)
    (xMalloc : Bool) : SubMgrCtx × MQTTStatus :=
  if s.pxSubAckStatus i = mqttSubAckFailure then
    match s.filterAt i with
    | some _ => (s.setQoS i qos, .mqttSuccess)
    | none =>
        if xMalloc then ((s.storeFilter i f).setQoS i qos, .mqttSuccess)
        else (s.setQoS i qos, .mqttNoMemory)
  else (s, .mqttSuccess)

def SubMgrCtx.attachCallback (s : SubMgrCtx) (j : CbIdx) (e : SubCallbackElement)
    (i : SubIdx) : SubMgrCtx :=
  { s with
    pxCallbacks := Function.update s.pxCallbacks j e
    pulSubCbCount := Function.update s.pulSubCbCount i (s.pulSubCbCount i + 1)
    uxCallbackCount := s.uxCallbackCount + 1 }

/-- What `MqttAgent_SubscribeSync` leaves when it gives the mutex. -/
structure SubscribeUpdate where
  ctx : SubMgrCtx
  xStatus : MQTTStatus
  uxTargetSubIdx : Option SubIdx

/-- `MqttAgent_SubscribeSync` between taking and giving the mutex. -/
def subscribeLocked (s : SubMgrCtx) (xCurrentTask : Ptr) (pcTopicFilter : CString)
    (xRequestedQoS : MQTTQoS) (pxCallback pvCallbackCtx : Ptr) (xMalloc : Bool) :
    SubscribeUpdate :=
  let scan := findSubscriptionSlot s.pxSubscriptions pcTopicFilter (List.finRange _)
    ⟨.mqttNoMemory, none, xRequestedQoS, s.pxSubAckStatus⟩
  let s := { s with pxSubAckStatus := scan.pxSubAckStatus }
  match scan.uxTargetSubIdx with
  | none => ⟨s, scan.xStatus, none⟩
  | some i =>
      match findCallbackSlot s.pxCallbacks i pxCallback pvCallbackCtx xCurrentTask
          (List.finRange _) none with
      | none => ⟨s, .mqttNoMemory, some i⟩
      | some j =>
          let (s, xStatus) := populateSubscription s i pcTopicFilter scan.xRequestedQoS xMalloc
          if xStatus = .mqttSuccess ∧ (s.pxCallbacks j).pxSubInfo = none then
            ⟨s.attachCallback j ⟨pxCallback, pvCallbackCtx, xCurrentTask, some i⟩ i, xStatus,
              some i⟩
          else ⟨s, xStatus, some i⟩

/-- The slot to send a SUBSCRIBE for, as read after the mutex was given. -/
def SubscribeUpdate.toSend (u : SubscribeUpdate) (s : SubMgrCtx) : Option SubIdx :=
  match u.uxTargetSubIdx with
  | none => none
  | some i =>
      if u.xStatus = .mqttSuccess ∧ s.pxSubAckStatus i = mqttSubAckFailure then some i else none

def SubMgrCtx.storeAck (s : SubMgrCtx) (i : SubIdx) (r : SubRequestResult) : SubMgrCtx :=
  match r.pxSubAckStatus with
  | none => s
  | some code => { s with pxSubAckStatus := Function.update s.pxSubAckStatus i code }

/-- The outcome of a complete call: the context it leaves, its status and the arguments of
the request it handed to the agent. -/
structure SyncResult where
  ctx : SubMgrCtx
  xStatus : MQTTStatus
  sent : Option MQTTAgentSubscribeArgs

/-- A rejected argument ends in the branch of the failed lock, so its MQTTBadParameter is
overwritten. -/
def mqttAgentSubscribeSync (s : SubMgrCtx) (xCurrentTask : Ptr) (a : SubscribeArgs)
    (xMalloc : Bool) (reply : AgentReply) : SyncResult :=
  match a.checked with
  | none => ⟨s, .mqttIllegalState, none⟩
  | some f =>
      let u := subscribeLocked s xCurrentTask f a.xRequestedQoS a.pxCallback a.pvCallbackCtx
        xMalloc
      match u.toSend u.ctx with
      | none => ⟨u.ctx, u.xStatus, none⟩
      | some i =>
          let r := prvSendSubRequest reply
          ⟨u.ctx.storeAck i r, r.xStatus, some ⟨some (.slot i), 1⟩⟩

/-- The test by which both phases of `MqttAgent_UnSubscribeSync` recognise the filter. -/
def sameFilter (s : SubMgrCtx) (f : CString) (i : SubIdx) : Bool :=
  let pxSubInfo := s.pxSubscriptions i
  f.strnlen uint16Max == pxSubInfo.topicFilterLength &&
    strncmpFilter pxSubInfo.pTopicFilter f pxSubInfo.topicFilterLength == 0

/-- The context, `xStatus` and `ulCallbackCount` after the first locked phase. -/
structure UnSubscribeDecrement where
  ctx : SubMgrCtx
  xStatus : MQTTStatus
  ulCallbackCount : Nat

/-- First phase of `MqttAgent_UnSubscribeSync`: drop one reference to the filter. -/
def unsubscribeDecrement (s : SubMgrCtx) (f : CString) : UnSubscribeDecrement :=
  match firstSlot (sameFilter s f) with
  | none => ⟨s, .mqttNoDataAvailable, 0⟩
  | some i =>
      let ulCallbackCount := s.pulSubCbCount i
      if ulCallbackCount > 0 then
        ⟨{ s with pulSubCbCount := Function.update s.pulSubCbCount i (ulCallbackCount - 1) },
          .mqttSuccess, ulCallbackCount⟩
      else ⟨s, .mqttSuccess, ulCallbackCount⟩

def UnSubscribeDecrement.toSend (d : UnSubscribeDecrement) : Bool :=
  d.xStatus == .mqttSuccess && d.ulCallbackCount == 1

/-- Clear a callback element and close the gap. -/
def SubMgrCtx.removeCallback (s : SubMgrCtx) (j : CbIdx) : SubMgrCtx :=
  let c := prvCompressCallbackList (Function.update s.pxCallbacks j .zero)
  { s with pxCallbacks := c.table, uxCallbackCount := c.count }

def SubMgrCtx.freeSubscription (s : SubMgrCtx) (i : SubIdx) : SubMgrCtx :=
  { s with
    pxSubscriptions := Function.update s.pxSubscriptions i .zero
    pxSubAckStatus := Function.update s.pxSubAckStatus i mqttSubAckFailure
    uxSubscriptionCount := s.uxSubscriptionCount - 1 }

/-- Last phase of `MqttAgent_UnSubscribeSync`. The slot is looked up again, and only one whose
count is zero is found; without it `pxSubInfo` stays NULL in the callback search. -/
def unsubscribeRemove (s : SubMgrCtx) (xCurrentTask : Ptr) (f : CString)
    (pxCallback pvCallbackCtx : Ptr) (ulCallbackCount : Nat) (xStatus : MQTTStatus) :
    SubMgrCtx × MQTTStatus :=
  let pxSubInfo := firstSlot fun i => s.pulSubCbCount i == 0 && sameFilter s f i
  let xStatus := if pxSubInfo.isSome then .mqttSuccess else xStatus
  if xStatus = .mqttSuccess then
    match firstSlot fun j =>
        prvMatchCbCtx (s.pxCallbacks j) pxSubInfo pxCallback pvCallbackCtx xCurrentTask with
    | none => (s, .mqttNoDataAvailable)
    | some j =>
        let s := s.removeCallback j
        match pxSubInfo with
        | some i =>
            if ulCallbackCount = 1 ∧ s.pulSubCbCount i = 0 then
              (s.freeSubscription i, .mqttSuccess)
            else (s, .mqttSuccess)
        | none => (s, .mqttSuccess)
  else (s, xStatus)

def mqttAgentUnSubscribeSync (s : SubMgrCtx) (xCurrentTask : Ptr) (a : UnSubscribeArgs)
    (reply : AgentReply) : SyncResult :=
  match a.checked with
  | none => ⟨s, .mqttBadParameter, none⟩
  | some f =>
      let d := unsubscribeDecrement s f
      let xStatus := if d.toSend then prvSendUnsubRequest reply else d.xStatus
      let (s, xStatus) := unsubscribeRemove d.ctx xCurrentTask f a.pxCallback a.pvCallbackCtx
        d.ulCallbackCount xStatus
      ⟨s, xStatus,
        if d.toSend then
          some ⟨some (.caller ⟨.mqttQoS1, some f, f.strnlen uint16Max % 2 ^ 16⟩), 1⟩
        else none⟩

end RenesasDemo.Mqtt
