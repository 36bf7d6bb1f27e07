import RenesasDemo.Framework.Mailbox
import RenesasDemo.Mqtt.SubscribeSync

namespace RenesasDemo.Ota

open Framework Mqtt

inductive OtaMqttStatus where
  | otaMqttSuccess
  | otaMqttPublishFailed
  | otaMqttSubscribeFailed
  | otaMqttUnsubscribeFailed
  deriving DecidableEq

/-- What the call returns, from the agent's handle, its answer, and what the wait gave. -/
def prvMQTTPublish (xMQTTAgentHandle : Ptr) (xPublish : MQTTStatus) (xWait : Mailbox Nat) :
    OtaMqttStatus :=
  if xMQTTAgentHandle = 0 then .otaMqttPublishFailed
  else
    let mqttStatus :=
      if xPublish = .mqttSuccess then
        if xWait.pending then MQTTStatus.ofValue xWait.value else .mqttSendFailed
      else xPublish
    if mqttStatus ≠ .mqttSuccess then .otaMqttPublishFailed else .otaMqttSuccess

/-- The value that `prvCommandCallback` notifies the task of. -/
def prvCommandCallback (returnCode : MQTTStatus) : Nat := returnCode.value

/-- The state is cleared before the publish, and the value only when the wait is over. -/
def otaPublishWait : WaitPolicy := ⟨true, false⟩

def PublishStep (returnCode : Nat → MQTTStatus) : Caller Nat → CallEvent → Caller Nat → Prop :=
  Caller.Step otaPublishWait 0 fun n => prvCommandCallback (returnCode n)

def PublishInTime (returnCode : Nat → MQTTStatus) : Caller Nat → CallEvent → Caller Nat → Prop :=
  Caller.InTime otaPublishWait 0 fun n => prvCommandCallback (returnCode n)

/-- A callback that begins or is at work finds `xCommandContext` on the stack of its own call: the
call has not returned. -/
def ContextLive (s : Caller Nat) : Prop :=
  ∀ m, s.Enabled (.complete m) ∨ s.delivering = some m → s.pc = .called m ∨ s.pc = .waiting m

section publish

variable {returnCode : Nat → MQTTStatus} {es : List CallEvent} {s : Caller Nat}

/-- While no call is at work, a context is alive only if nothing is to be completed. -/
theorem ContextLive.settled (h : ContextLive s) (hidle : s.pc = .idle) :
    s.outstanding = [] ∧ s.delivering = none := by
  have hdead : ∀ m, ¬ (s.Enabled (.complete m) ∨ s.delivering = some m) := by
    intro m hm
    have hcalled := h m hm
    simp [hidle] at hcalled
  have hdelivering : s.delivering = none := by
    cases hd : s.delivering with
    | none => rfl
    | some m => exact absurd (.inr hd) (hdead m)
  refine ⟨List.eq_nil_iff_forall_not_mem.mpr fun m hm => ?_, hdelivering⟩
  exact hdead m (.inl ⟨hm, hdelivering⟩)

theorem own_of_settled (hidle : s.pc = .idle)
    (hsettled : s.outstanding = [] ∧ s.delivering = none) : s.Own otaPublishWait := by
  rw [Caller.Own, hidle]
  exact ⟨hsettled, .inl rfl⟩

/-- A wait that times out is a failure; any other returns the answer to this publish or an earlier
one. Until the next time-out, every callback finds its context just when no earlier publish is to be
completed, and every wait takes the answer to its own publish just then. -/
theorem prvMQTTPublish_run {xMQTTAgentHandle : Ptr} (hhandle : xMQTTAgentHandle ≠ 0)
    (h : Run (PublishStep returnCode) (.init 0) es s) :
    (∀ n, s.pc = .waiting n →
      (s.box.pending = false →
        prvMQTTPublish xMQTTAgentHandle .mqttSuccess s.box = .otaMqttPublishFailed) ∧
      (s.box.pending = true → s.source ≤ n ∧
        (prvMQTTPublish xMQTTAgentHandle .mqttSuccess s.box = .otaMqttSuccess ↔
          returnCode s.source = .mqttSuccess))) ∧
    (s.pc = .idle →
      ((∀ es' t, Run (PublishInTime returnCode) s es' t → ContextLive t) ↔
        s.outstanding = [] ∧ s.delivering = none) ∧
      ((∀ es' t, Run (PublishInTime returnCode) s es' t → t.TakesOwn) ↔
        s.outstanding = [] ∧ s.delivering = none)) := by
  have hknown := Caller.known_init.run h
  refine ⟨fun n hn => ⟨fun hno => ?_, fun hpending => ?_⟩, fun hidle => ⟨⟨?_, ?_⟩, ⟨?_, ?_⟩⟩⟩
  · simp [prvMQTTPublish, hhandle, hno]
  · obtain ⟨hlt, hvalue⟩ := hknown.pending hpending
    have hmade := hknown.calling n (.inr (.inr hn))
    refine ⟨by omega, ?_⟩
    rw [prvMQTTPublish, if_neg hhandle, if_pos rfl, if_pos hpending, hvalue, prvCommandCallback,
      MQTTStatus.ofValue_value]
    cases returnCode s.source <;> simp
  · exact fun hlive => (hlive [] s (.refl s)).settled hidle
  · intro hsettled es' t hr m hm
    exact ((own_of_settled hidle hsettled).run hr).at_work (hm.imp_left fun he => he.1)
  · exact fun htakes => ((Caller.takesOwn_iff hknown hidle).mp htakes).1
  · intro hsettled es' t hr
    exact ((own_of_settled hidle hsettled).run hr).takesOwn

/-- A publish that timed out leaves a callback behind that reads a dead context. -/
theorem prvMQTTPublish_late :
    ¬∀ es t, Run (PublishInTime fun _ => .mqttSuccess)
      ⟨⟨0, false⟩, 0, true, [0], none, .idle, 1⟩ es t → ContextLive t := by
  have hrun : Run (PublishStep fun _ => .mqttSuccess) (.init 0)
      [.start, .accept, .enter, .timeOut] ⟨⟨0, false⟩, 0, true, [0], none, .idle, 1⟩ := by
    refine Caller.run_ofAdmits ?_
    simp [Admits, Caller.Enabled, Caller.next, Caller.init, otaPublishWait]
  have h := ((prvMQTTPublish_run (show (1 : Ptr) ≠ 0 by decide) hrun).2 rfl).1
  rw [h]
  decide

end publish

end RenesasDemo.Ota
