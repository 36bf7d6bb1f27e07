import RenesasDemo.Mqtt.Delivery

namespace RenesasDemo.Mqtt

open Framework

/-- A command in the agent's queue; the SUBSCRIBE points to a slot of the table. -/
inductive AgentRequest where
  | subscribe (task : Ptr) (pxSubInfo : SubIdx)
  | unsubscribe (task : Ptr) (pcTopicFilter : CString)

def AgentRequest.task : AgentRequest → Ptr
  | subscribe task _ => task
  | unsubscribe task _ => task

/-- The last request the broker processed for a filter. -/
inductive RequestKind where
  | subscribe
  | unsubscribe
  deriving DecidableEq

/-- Where a task is in `MqttAgent_SubscribeSync` or `MqttAgent_UnSubscribeSync`. -/
inductive ClientPc where
  | idle
  /-- The table is updated and the mutex given. -/
  | subscribeUnlocked (r : Registration) (xStatus : MQTTStatus) (uxTargetSubIdx : Option SubIdx)
  | subscribeWaiting (r : Registration) (pxSubInfo : SubIdx)
  /-- The acknowledgement has come; the task has yet to store it. -/
  | subscribeAcked (r : Registration) (pxSubInfo : SubIdx) (info : MQTTAgentReturnInfo)
  /-- The reference is dropped and the mutex given. -/
  | unsubscribeDecremented (r : Registration) (xStatus : MQTTStatus) (ulCallbackCount : Nat)
  | unsubscribeWaiting (r : Registration) (ulCallbackCount : Nat)
  /-- The last locked phase is next. -/
  | unsubscribeRemoving (r : Registration) (xStatus : MQTTStatus) (ulCallbackCount : Nat)
  deriving DecidableEq

structure ClientSystem where
  ctx : SubMgrCtx
  pc : Ptr → ClientPc
  queue : List AgentRequest
  broker : CString → Option RequestKind
  /-- The callbacks whose subscribe returned MQTTSuccess and whose unsubscribe has not. -/
  granted : Finset Registration

inductive ClientEvent where
  | subscribeLock (task : Ptr) (args : SubscribeArgs) (xMalloc : Bool)
  | subscribeSend (task : Ptr)
  | subscribeStore (task : Ptr)
  | unsubscribeLock (task : Ptr) (args : UnSubscribeArgs)
  | unsubscribeSend (task : Ptr)
  | unsubscribeRemove (task : Ptr)
  /-- The agent takes the oldest command and the broker acknowledges it. -/
  | process (info : MQTTAgentReturnInfo)

namespace ClientSystem

def start : ClientSystem :=
  ⟨prvSubscriptionManagerCtxReset, fun _ => .idle, [], fun _ => none, ∅⟩

def Enabled (s : ClientSystem) : ClientEvent → Prop
  | .subscribeLock task args _ => s.pc task = .idle ∧ args.checked ≠ none
  | .subscribeSend task => ∃ r xStatus target, s.pc task = .subscribeUnlocked r xStatus target
  | .subscribeStore task => ∃ r i info, s.pc task = .subscribeAcked r i info
  | .unsubscribeLock task args => s.pc task = .idle ∧ args.checked ≠ none
  | .unsubscribeSend task => ∃ r xStatus n, s.pc task = .unsubscribeDecremented r xStatus n
  | .unsubscribeRemove task => ∃ r xStatus n, s.pc task = .unsubscribeRemoving r xStatus n
  | .process info => s.queue ≠ [] ∧ info.returnCode = .mqttSuccess ∧
      info.firstSubackCode ≠ mqttSubAckFailure

instance (pc : ClientPc) :
    Decidable (∃ r xStatus target, pc = .subscribeUnlocked r xStatus target) := by
  cases pc <;> first | exact isTrue ⟨_, _, _, rfl⟩ | exact isFalse (by simp)

instance (pc : ClientPc) : Decidable (∃ r i info, pc = .subscribeAcked r i info) := by
  cases pc <;> first | exact isTrue ⟨_, _, _, rfl⟩ | exact isFalse (by simp)

instance (pc : ClientPc) :
    Decidable (∃ r xStatus n, pc = .unsubscribeDecremented r xStatus n) := by
  cases pc <;> first | exact isTrue ⟨_, _, _, rfl⟩ | exact isFalse (by simp)

instance (pc : ClientPc) : Decidable (∃ r xStatus n, pc = .unsubscribeRemoving r xStatus n) := by
  cases pc <;> first | exact isTrue ⟨_, _, _, rfl⟩ | exact isFalse (by simp)

instance (s : ClientSystem) (e : ClientEvent) : Decidable (s.Enabled e) := by
  cases e <;> unfold Enabled <;> infer_instance

def setPc (s : ClientSystem) (task : Ptr) (pc : ClientPc) : ClientSystem :=
  { s with pc := Function.update s.pc task pc }

def subscribeReturn (s : ClientSystem) (task : Ptr) (r : Registration) (xStatus : MQTTStatus) :
    ClientSystem :=
  { s.setPc task .idle with
    granted := if xStatus = .mqttSuccess then insert r s.granted else s.granted }

def unsubscribeReturn (s : ClientSystem) (task : Ptr) (r : Registration) (xStatus : MQTTStatus) :
    ClientSystem :=
  { s.setPc task .idle with
    granted := if xStatus = .mqttSuccess then s.granted.erase r else s.granted }

/-- A SUBSCRIBE is for the filter its slot holds when the agent takes the command. -/
def brokerAfter (s : ClientSystem) : AgentRequest → CString → Option RequestKind
  | .subscribe _ i =>
      match s.ctx.filterAt i with
      | some f => Function.update s.broker f (some .subscribe)
      | none => s.broker
  | .unsubscribe _ f => Function.update s.broker f (some .unsubscribe)

def notify (pc : ClientPc) (info : MQTTAgentReturnInfo) : ClientPc :=
  match pc with
  | .subscribeWaiting r i => .subscribeAcked r i info
  | .unsubscribeWaiting r n =>
      .unsubscribeRemoving r (prvSendUnsubRequest ⟨.mqttSuccess, some info⟩) n
  | pc => pc

def next (s : ClientSystem) : ClientEvent → ClientSystem
  | .subscribeLock task args xMalloc =>
      match args.checked with
      | none => s
      | some f =>
          let u := subscribeLocked s.ctx task f args.xRequestedQoS args.pxCallback
            args.pvCallbackCtx xMalloc
          { s with ctx := u.ctx }.setPc task
            (.subscribeUnlocked ⟨f, args.pxCallback, args.pvCallbackCtx, task⟩ u.xStatus
              u.uxTargetSubIdx)
  | .subscribeSend task =>
      match s.pc task with
      | .subscribeUnlocked r xStatus target =>
          -- The cached acknowledgement is read without the mutex.
          match SubscribeUpdate.toSend ⟨s.ctx, xStatus, target⟩ s.ctx with
          | some i => { s with queue := s.queue ++ [AgentRequest.subscribe task i] }.setPc task
              (.subscribeWaiting r i)
          | none => s.subscribeReturn task r xStatus
      | _ => s
  | .subscribeStore task =>
      match s.pc task with
      | .subscribeAcked r i info =>
          let result := prvSendSubRequest ⟨.mqttSuccess, some info⟩
          { s with ctx := s.ctx.storeAck i result }.subscribeReturn task r result.xStatus
      | _ => s
  | .unsubscribeLock task args =>
      match args.checked with
      | none => s
      | some f =>
          let d := unsubscribeDecrement s.ctx f
          { s with ctx := d.ctx }.setPc task
            (.unsubscribeDecremented ⟨f, args.pxCallback, args.pvCallbackCtx, task⟩ d.xStatus
              d.ulCallbackCount)
  | .unsubscribeSend task =>
      match s.pc task with
      | .unsubscribeDecremented r xStatus n =>
          if UnSubscribeDecrement.toSend ⟨s.ctx, xStatus, n⟩ then
            { s with queue := s.queue ++ [AgentRequest.unsubscribe task r.filter] }.setPc task
              (.unsubscribeWaiting r n)
          else s.setPc task (.unsubscribeRemoving r xStatus n)
      | _ => s
  | .unsubscribeRemove task =>
      match s.pc task with
      | .unsubscribeRemoving r xStatus n =>
          let (ctx, xStatus) := Mqtt.unsubscribeRemove s.ctx task r.filter r.pxCallback
            r.pvCallbackCtx n xStatus
          { s with ctx := ctx }.unsubscribeReturn task r xStatus
      | _ => s
  | .process info =>
      match s.queue with
      | [] => s
      | request :: rest =>
          { s with
            queue := rest
            broker := s.brokerAfter request }.setPc request.task
              (notify (s.pc request.task) info)

end ClientSystem

def ClientStep (s : ClientSystem) (e : ClientEvent) (s' : ClientSystem) : Prop :=
  s.Enabled e ∧ s' = s.next e

section alone

variable {s : ClientSystem} {task : Ptr} {f : CString}

/-- Steps taken without interruption are the complete call. -/
theorem subscribe_uninterrupted {args : SubscribeArgs} (hf : args.checked = some f)
    (hqueue : s.queue = []) (xMalloc : Bool) (info : MQTTAgentReturnInfo) :
    ([ClientEvent.subscribeLock task args xMalloc, .subscribeSend task, .process info,
      .subscribeStore task].foldl ClientSystem.next s).ctx =
      (mqttAgentSubscribeSync s.ctx task args xMalloc ⟨.mqttSuccess, some info⟩).ctx := by
  unfold mqttAgentSubscribeSync
  simp only [List.foldl_cons, List.foldl_nil, ClientSystem.next, ClientSystem.setPc, hf,
    Function.update_self]
  generalize subscribeLocked s.ctx task f args.xRequestedQoS args.pxCallback args.pvCallbackCtx
    xMalloc = u
  have hsame : SubscribeUpdate.toSend ⟨u.ctx, u.xStatus, u.uxTargetSubIdx⟩ u.ctx = u.toSend u.ctx :=
    rfl
  rw [hsame]
  cases hsend : u.toSend u.ctx with
  | none => simp [ClientSystem.subscribeReturn, ClientSystem.setPc, hqueue]
  | some i =>
    simp [hqueue, AgentRequest.task, ClientSystem.notify, ClientSystem.subscribeReturn,
      ClientSystem.setPc]

theorem unsubscribe_uninterrupted {args : UnSubscribeArgs} (hf : args.checked = some f)
    (hqueue : s.queue = []) (info : MQTTAgentReturnInfo) :
    ([ClientEvent.unsubscribeLock task args, .unsubscribeSend task, .process info,
      .unsubscribeRemove task].foldl ClientSystem.next s).ctx =
      (mqttAgentUnSubscribeSync s.ctx task args ⟨.mqttSuccess, some info⟩).ctx := by
  unfold mqttAgentUnSubscribeSync
  simp only [List.foldl_cons, List.foldl_nil, ClientSystem.next, ClientSystem.setPc, hf,
    Function.update_self]
  generalize unsubscribeDecrement s.ctx f = d
  have hsame : UnSubscribeDecrement.toSend ⟨d.ctx, d.xStatus, d.ulCallbackCount⟩ = d.toSend := rfl
  rw [hsame]
  by_cases hsend : d.toSend = true
  · simp [hsend, hqueue, AgentRequest.task, ClientSystem.notify, ClientSystem.unsubscribeReturn,
      ClientSystem.setPc]
  · simp [hsend, hqueue, ClientSystem.unsubscribeReturn, ClientSystem.setPc]

end alone

/-- With no call in flight, the broker has every filter for which a callback was granted, and
the callback's slot still holds it. -/
def BrokerAgreement (s : ClientSystem) : Prop :=
  (∀ task, s.pc task = .idle) → ∀ r ∈ s.granted,
    s.broker r.filter = some .subscribe ∧ Attached s.ctx r

/-- The search ends at a slot for the filter that nobody is giving up, or at an empty one. -/
def SubscribeAgrees (s : SubMgrCtx) (self : Ptr) (f : CString) (cb ctx : Ptr) : Prop :=
  SearchExact s self f cb ctx ∧ ∀ i, s.filterAt i = some f → s.pulSubCbCount i ≠ 0

/-- The caller holds the only reference to the filter, or finds none to drop. -/
def UnsubscribeAgrees (s : SubMgrCtx) (self : Ptr) (f : CString) (cb ctx : Ptr) : Prop :=
  ∀ i, s.filterAt i = some f → s.pulSubCbCount i = 0 ∨
    (s.pulSubCbCount i = 1 ∧ ∃ j, s.pxCallbacks j = ⟨cb, ctx, self, some i⟩)

/-- The locked steps after which the table and the broker stay in agreement. -/
def AgreementOk (s : ClientSystem) : ClientEvent → Prop
  | .subscribeLock task args _ => ∀ f ∈ args.checked,
      SubscribeAgrees s.ctx task f args.pxCallback args.pvCallbackCtx
  | .unsubscribeLock task args => ∀ f ∈ args.checked,
      UnsubscribeAgrees s.ctx task f args.pxCallback args.pvCallbackCtx
  | _ => True

instance (s : SubMgrCtx) (self : Ptr) (f : CString) (cb ctx : Ptr) :
    Decidable (SubscribeAgrees s self f cb ctx) :=
  inferInstanceAs (Decidable (_ ∧ ∀ i, s.filterAt i = some f → _))

instance (s : SubMgrCtx) (self : Ptr) (f : CString) (cb ctx : Ptr) :
    Decidable (UnsubscribeAgrees s self f cb ctx) :=
  inferInstanceAs (Decidable (∀ i, s.filterAt i = some f → _))

instance (s : ClientSystem) (e : ClientEvent) : Decidable (AgreementOk s e) := by
  cases e <;> unfold AgreementOk <;> infer_instance

end RenesasDemo.Mqtt
