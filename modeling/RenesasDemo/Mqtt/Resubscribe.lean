import RenesasDemo.Mqtt.SubscribeSync

namespace RenesasDemo.Mqtt

open Framework

/-- The outcome of `prvHandleResubscribe`. -/
structure ResubscribeResult where
  ctx : SubMgrCtx
  xStatus : MQTTStatus
  /-- The SUBSCRIBE command that `MQTTAgent_Subscribe` took. -/
  enqueued : Option MQTTAgentSubscribeArgs
  /-- The function gave the mutex itself. -/
  unlocked : Bool

/-- `prvCompressSubscriptionList` on the arrays of the context. -/
def SubMgrCtx.compressSubscriptions (s : SubMgrCtx) : SubMgrCtx :=
  let c := prvCompressSubscriptionList ⟨s.pxSubscriptions, s.pxCallbacks⟩
  { s with
    pxSubscriptions := c.table.pxSubList
    pxCallbacks := c.table.pxCallbacksList
    uxSubscriptionCount := c.count }

/-- `xSubscribe` is what `MQTTAgent_Subscribe` answers, if it is called. -/
def prvHandleResubscribe (s : SubMgrCtx) (xSubscribe : MQTTStatus) : ResubscribeResult :=
  let xStatus : MQTTStatus := .mqttBadParameter
  let s := s.compressSubscriptions
  if xStatus = .mqttSuccess ∧ s.uxSubscriptionCount > 0 then
    let args : MQTTAgentSubscribeArgs := ⟨some (.slot 0), s.uxSubscriptionCount⟩
    -- On success the completion callback gives the mutex.
    ⟨{ s with xInitialSubscribeArgs := args }, xSubscribe,
      if xSubscribe = .mqttSuccess then some args else none, false⟩
  else ⟨s, .mqttSuccess, none, true⟩

/-- The update that `prvResubscribeCommandCallback` makes before it gives the mutex. -/
def prvResubscribeCommandCallback (s : SubMgrCtx) (pSubackCodes : Nat → MQTTSubAckStatus) :
    SubMgrCtx :=
  { s with
    pxSubAckStatus := fun ulSubIdx =>
      if ulSubIdx < s.uxSubscriptionCount then pSubackCodes ulSubIdx
      else s.pxSubAckStatus ulSubIdx }

/-- The status that the first test looks at is the one the function starts with. -/
theorem prvHandleResubscribe_eq (s : SubMgrCtx) (xSubscribe : MQTTStatus) :
    prvHandleResubscribe s xSubscribe = ⟨s.compressSubscriptions, .mqttSuccess, none, true⟩ := by
  unfold prvHandleResubscribe
  exact if_neg (by simp)

/-- The entries a SUBSCRIBE command points to, as the agent reads them from `s`. -/
def listedSubscriptions (s : SubMgrCtx) (args : MQTTAgentSubscribeArgs) :
    List MQTTSubscribeInfo :=
  match args.pSubscribeInfo with
  | some (.slot i) => (((List.finRange _).map s.pxSubscriptions).drop i).take args.numSubscriptions
  | some (.caller xSubInfo) => [xSubInfo]
  | none => []

def occupiedSubscriptions (s : SubMgrCtx) : List MQTTSubscribeInfo :=
  ((List.finRange _).map s.pxSubscriptions).filter fun xSubInfo => xSubInfo.pTopicFilter.isSome

/-- `sent` is one SUBSCRIBE for what `s` stores, and in `s'` its codes find their entries. -/
structure ResubscribesAll (s s' : SubMgrCtx) (sent : List MQTTAgentSubscribeArgs) : Prop where
  complete : ∃ args, sent = [args] ∧
    (listedSubscriptions s' args).Perm (occupiedSubscriptions s)
  answered : ∀ args ∈ sent, ∀ k i, (listedSubscriptions s' args)[k]? = some (s'.pxSubscriptions i) →
    ∀ codes, (prvResubscribeCommandCallback s' codes).pxSubAckStatus i = codes k

end RenesasDemo.Mqtt
