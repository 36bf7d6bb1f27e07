import RenesasDemo.Framework.Mailbox
import RenesasDemo.Mqtt.SubscribeSync

namespace RenesasDemo.Defender

open Framework Mqtt

inductive ReportStatus where
  | notReceived
  | accepted
  | rejected
  | invalid
  deriving DecidableEq

/-- Where the loop of `vDefenderAgentTask` is. -/
inductive LoopStage where
  /-- Before the next report, or asleep. -/
  | sleeping
  /-- In `prvPublishDeviceMetricsReport`. -/
  | publishing
  /-- In the wait for the response. -/
  | awaiting
  /-- Behind it, with `xWaitingForCallback` still set. -/
  | answered (xReportStatus : ReportStatus)
  deriving DecidableEq

/-- A response in a callback or in the notification, and the round in which its callback began. -/
structure Response where
  status : ReportStatus
  round : Nat
  deriving DecidableEq

/-- The task with its two notifications, and the agent that runs its callbacks. -/
structure DefenderTask where
  /-- The report that is published, its acknowledgement, and `xWaitingForCallback`. -/
  puback : Caller Nat
  response : Option Response
  /-- A callback for a response, past its check. -/
  responding : Option Response
  stage : LoopStage
  round : Nat
  deriving DecidableEq

inductive DefenderEvent where
  /-- A round begins; its report is encoded or not. -/
  | begin (encoded : Bool)
  /-- A step of `prvPublishDeviceMetricsReport`, or of `prvPublishOpCb`. -/
  | publish (e : CallEvent)
  /-- `prvReportAcceptedCallback` or `prvReportRejectedCallback` begins. -/
  | receive (accepted : Bool) (pPayload : List UInt8)
  | notifyResponse
  | takeResponse
  | timeOutResponse
  /-- `xWaitingForCallback` is reset. -/
  | finish

/-- Nothing is checked. -/
def prvValidateDefenderResponse (_pcDefenderResponse : List UInt8) : Bool := true

def responseStatus (accepted : Bool) (pPayload : List UInt8) : ReportStatus :=
  if prvValidateDefenderResponse pPayload then if accepted then .accepted else .rejected
  else .invalid

/-- The value that `prvPublishOpCb` notifies the task of. -/
def prvPublishOpCb (returnCode : MQTTStatus) : Nat := returnCode.value

/-- What the call returns, from the agent's answer and what the wait gave. The wait writes its value
whether a notification came or not. -/
def prvPublishDeviceMetricsReport (xPublish : MQTTStatus) (xWait : Mailbox Nat) : Bool :=
  let ulStatus := xPublish.value
  let ulStatus := if ulStatus = MQTTStatus.mqttSuccess.value then xWait.value else ulStatus
  ulStatus = MQTTStatus.mqttSuccess.value

/-- The wait for the acknowledgement clears nothing before it ends. -/
def pubackWait : WaitPolicy := ⟨false, false⟩

namespace DefenderTask

variable (returnCode : Nat → MQTTStatus)

/-- `returnCode n` is what the publish of report `n` is completed with. -/
def nextPuback (c : Caller Nat) (e : CallEvent) : Caller Nat :=
  c.next pubackWait 0 (fun n => prvPublishOpCb (returnCode n)) e

def init : DefenderTask := ⟨.init 0, none, none, .sleeping, 0⟩

/-- The steps of the task in `prvPublishDeviceMetricsReport`. -/
def isCall : CallEvent → Bool
  | .refuse => true
  | .accept => true
  | .enter => true
  | .take => true
  | .timeOut => true
  | _ => false

def isReturn : CallEvent → Bool
  | .refuse => true
  | .take => true
  | .timeOut => true
  | _ => false

def isCallback : CallEvent → Bool
  | .complete _ => true
  | .notify => true
  | _ => false

def Enabled (s : DefenderTask) : DefenderEvent → Prop
  | .begin _ => s.stage = .sleeping
  | .publish e => s.puback.Enabled e ∧
      ((isCall e = true ∧ s.stage = .publishing) ∨ (isCallback e = true ∧ s.responding = none))
  | .receive _ _ => s.puback.delivering = none ∧ s.responding = none
  | .notifyResponse => s.responding ≠ none
  | .takeResponse => s.stage = .awaiting ∧ s.response ≠ none
  | .timeOutResponse => s.stage = .awaiting ∧ s.response = none
  | .finish => ∃ status, s.stage = .answered status

def next (s : DefenderTask) : DefenderEvent → DefenderTask
  | .begin true =>
      { s with
        puback := nextPuback returnCode s.puback .start
        stage := .publishing
        round := s.round + 1 }
  | .begin false => { s with stage := .awaiting, round := s.round + 1 }
  | .publish e =>
      { s with
        puback := nextPuback returnCode s.puback e
        stage := if isReturn e then .awaiting else s.stage }
  | .receive accepted pPayload =>
      { s with
        responding :=
          if s.puback.listening then some ⟨responseStatus accepted pPayload, s.round⟩ else none }
  | .notifyResponse => { s with response := s.responding, responding := none }
  | .takeResponse =>
      match s.response with
      | some r => { s with response := none, stage := .answered r.status }
      | none => s
  | .timeOutResponse => { s with stage := .answered .notReceived }
  | .finish =>
      { s with puback := nextPuback returnCode s.puback .close, stage := .sleeping }

def Step (s : DefenderTask) (e : DefenderEvent) (t : DefenderTask) : Prop :=
  s.Enabled e ∧ t = s.next returnCode e

/-- The step of the publish and its notification that an event is. -/
def callEvent : DefenderEvent → Option CallEvent
  | .begin true => some .start
  | .publish e => some e
  | .finish => some .close
  | _ => none

variable {returnCode} {s t : DefenderTask} {es : List DefenderEvent}

/-- The task is in a call only while it publishes. -/
def Calls (s : DefenderTask) : Prop := s.stage ≠ .publishing → s.puback.pc = .idle

theorem nextPuback_pc_callback {c : Caller Nat} {e : CallEvent} (h : isCallback e = true) :
    (nextPuback returnCode c e).pc = c.pc := by
  cases e with
  | complete m => rfl
  | notify =>
    simp only [nextPuback, Caller.next]
    split <;> rfl
  | _ => cases h

theorem nextPuback_pc_return {c : Caller Nat} {e : CallEvent} (h : isReturn e = true) :
    (nextPuback returnCode c e).pc = .idle := by
  cases e with
  | refuse => rfl
  | take => rfl
  | timeOut => rfl
  | _ => cases h

theorem Calls.step {e : DefenderEvent} (hc : s.Calls) (hs : Step returnCode s e t) : t.Calls := by
  obtain ⟨he, rfl⟩ := hs
  cases e with
  | begin encoded =>
    simp only [Enabled] at he
    cases encoded with
    | true => exact fun hne => absurd rfl hne
    | false => exact fun _ => hc (by simp [he])
  | publish e =>
    obtain ⟨-, ⟨hcall, hstage⟩ | ⟨hcallback, -⟩⟩ := he
    · intro hne
      simp only [next, hstage] at hne ⊢
      cases hr : isReturn e with
      | true => exact nextPuback_pc_return hr
      | false => simp [hr] at hne
    · intro hne
      have hr : isReturn e = false := by
        cases e <;> first | rfl | cases hcallback
      simp only [next, hr, Bool.false_eq_true, if_false] at hne ⊢
      rw [nextPuback_pc_callback hcallback]
      exact hc hne
  | receive accepted pPayload => exact hc
  | notifyResponse => exact hc
  | takeResponse =>
    obtain ⟨hstage, hr⟩ := he
    obtain ⟨r, hr⟩ := Option.ne_none_iff_exists'.mp hr
    simp only [next, hr]
    exact fun _ => hc (by simp [hstage])
  | timeOutResponse => exact fun _ => hc (by simp [he.1])
  | finish =>
    obtain ⟨status, hstage⟩ := he
    exact fun _ => hc (by simp [hstage])

theorem puback_step {e : DefenderEvent} (hc : s.Calls) (hs : Step returnCode s e t) :
    match callEvent e with
    | some c =>
        Caller.Step pubackWait 0 (fun n => prvPublishOpCb (returnCode n)) s.puback c t.puback
    | none => t.puback = s.puback := by
  obtain ⟨he, rfl⟩ := hs
  cases e with
  | begin encoded =>
    simp only [Enabled] at he
    cases encoded with
    | true => exact ⟨hc (by simp [he]), rfl⟩
    | false => rfl
  | publish e => exact ⟨he.1, rfl⟩
  | receive accepted pPayload => rfl
  | notifyResponse => rfl
  | takeResponse =>
    obtain ⟨r, hr⟩ := Option.ne_none_iff_exists'.mp he.2
    simp only [callEvent, next, hr]
  | timeOutResponse => rfl
  | finish =>
    obtain ⟨status, hstage⟩ := he
    exact ⟨hc (by simp [hstage]), rfl⟩

theorem puback_run (ok : CallEvent → Prop)
    (h : Run (Guarded (fun _ e => ∀ c ∈ callEvent e, ok c) (Step returnCode)) s es t)
    (hc : s.Calls) :
    t.Calls ∧ Run (Guarded (fun _ c => ok c)
      (Caller.Step pubackWait 0 fun n => prvPublishOpCb (returnCode n)))
      s.puback (es.filterMap callEvent) t.puback := by
  induction h with
  | refl => exact ⟨hc, .refl _⟩
  | @tail u v es e _ hs ih =>
    obtain ⟨hu, hrun⟩ := ih
    obtain ⟨hok, hstep⟩ := hs
    refine ⟨hu.step hstep, ?_⟩
    have hpuback := puback_step hu hstep
    rw [List.filterMap_append]
    cases he : callEvent e with
    | none =>
      simp only [he] at hpuback
      simp only [List.filterMap_cons, he, List.filterMap_nil, List.append_nil, hpuback]
      exact hrun
    | some c =>
      simp only [he] at hpuback
      simp only [List.filterMap_cons, he, List.filterMap_nil]
      exact hrun.tail ⟨hok c he, hpuback⟩

theorem calls_init : init.Calls := fun _ => rfl

/-- Nothing of a response is left where callbacks for it are dropped, and what there is of one
belongs to this round. -/
structure Fresh (s : DefenderTask) : Prop where
  dropped : s.puback.listening = false → s.response = none ∧ s.responding = none
  sleeping : s.stage = .sleeping → s.puback.listening = false
  response : ∀ r ∈ s.response, r.round = s.round ∧ r.status ≠ .invalid
  responding : ∀ r ∈ s.responding, r.round = s.round ∧ r.status ≠ .invalid

theorem responseStatus_ne_invalid (accepted : Bool) (pPayload : List UInt8) :
    responseStatus accepted pPayload ≠ .invalid := by
  cases accepted <;> simp [responseStatus, prvValidateDefenderResponse]

/-- The flag is reset with no response on its way. -/
def FinishesClean (s : DefenderTask) (e : DefenderEvent) : Prop :=
  match e with
  | .finish => s.response = none ∧ s.responding = none
  | _ => True

variable (returnCode) in
theorem nextPuback_listening (c : Caller Nat) {e : CallEvent}
    (h : isCall e = true ∨ isCallback e = true) :
    (nextPuback returnCode c e).listening = c.listening := by
  cases e with
  | start => rcases h with h | h <;> cases h
  | close => rcases h with h | h <;> cases h
  | accept =>
    simp only [nextPuback, Caller.next]
    split <;> rfl
  | notify =>
    simp only [nextPuback, Caller.next]
    split <;> rfl
  | enter =>
    simp only [nextPuback, Caller.next]
    split <;> rfl
  | refuse => rfl
  | complete m => rfl
  | take => rfl
  | timeOut => rfl

theorem Fresh.step {e : DefenderEvent} (h : s.Fresh) (hclean : s.FinishesClean e)
    (hs : Step returnCode s e t) : t.Fresh := by
  obtain ⟨he, rfl⟩ := hs
  cases e with
  | begin encoded =>
    simp only [Enabled] at he
    obtain ⟨hresponse, hresponding⟩ := h.dropped (h.sleeping he)
    cases encoded <;>
      exact ⟨fun _ => ⟨hresponse, hresponding⟩, by simp [next], by simp [next, hresponse],
        by simp [next, hresponding]⟩
  | publish e =>
    have hkind : isCall e = true ∨ isCallback e = true := he.2.imp And.left And.left
    have hlisten := nextPuback_listening returnCode s.puback hkind
    refine ⟨fun hl => h.dropped ?_, fun hstage => ?_, h.response, h.responding⟩
    · rw [← hlisten]
      exact hl
    · simp only [next] at hstage ⊢
      rw [hlisten]
      split at hstage
      · cases hstage
      · exact h.sleeping hstage
  | receive accepted pPayload =>
    cases hl : s.puback.listening with
    | true =>
      refine ⟨by simp [next, hl], h.sleeping, h.response, ?_⟩
      intro r hr
      simp only [next, hl, if_true, Option.mem_some_iff] at hr
      rw [← hr]
      exact ⟨rfl, responseStatus_ne_invalid accepted pPayload⟩
    | false =>
      refine ⟨fun _ => ⟨(h.dropped hl).1, by simp [next, hl]⟩, h.sleeping, h.response, ?_⟩
      simp [next, hl]
  | notifyResponse =>
    refine ⟨fun hl => ?_, h.sleeping, h.responding, by simp [next]⟩
    exact ⟨(h.dropped hl).2, rfl⟩
  | takeResponse =>
    obtain ⟨r, hr⟩ := Option.ne_none_iff_exists'.mp he.2
    simp only [next, hr]
    exact ⟨fun hl => ⟨rfl, (h.dropped hl).2⟩, by simp, by simp, h.responding⟩
  | timeOutResponse =>
    exact ⟨h.dropped, by simp [next], h.response, h.responding⟩
  | finish =>
    obtain ⟨hresponse, hresponding⟩ := hclean
    exact ⟨fun _ => ⟨hresponse, hresponding⟩, fun _ => rfl, h.response, h.responding⟩

theorem run_ofAdmits (ok : DefenderTask → DefenderEvent → Prop)
    (h : Admits (fun s e => ok s e ∧ s.Enabled e) (next returnCode) s es) :
    Run (Guarded ok (Step returnCode)) s es (es.foldl (next returnCode) s) :=
  Run.ofAdmits _ (fun _ _ he => ⟨he.1, he.2, rfl⟩) h

theorem value_init : (init.puback.box.pending = false → init.puback.box.value = 0) := fun _ => rfl

theorem report_published_of_run (h : Run (Step returnCode) init es s) {n : Nat}
    (hn : s.puback.pc = .waiting n) :
    (s.puback.box.pending = false →
      prvPublishDeviceMetricsReport .mqttSuccess s.puback.box = true) ∧
    (s.puback.box.pending = true → s.puback.source ≤ n ∧
      prvPublishDeviceMetricsReport .mqttSuccess s.puback.box =
        decide (returnCode s.puback.source = .mqttSuccess)) := by
  have hall : Run (Guarded (fun _ e => ∀ c ∈ callEvent e, True) (Step returnCode)) init es s :=
    h.mono fun _ _ _ hs => ⟨fun _ _ => trivial, hs⟩
  have hrun : Run (Caller.Step pubackWait 0 fun n => prvPublishOpCb (returnCode n)) init.puback
      (es.filterMap callEvent) s.puback :=
    ((puback_run (fun _ => True) hall calls_init).2).mono fun _ _ _ hs => hs.2
  have hknown := Caller.known_init.run hrun
  have hzero : s.puback.box.pending = false → s.puback.box.value = 0 :=
    hrun.invariant value_init fun _ _ _ hv hs => Caller.value_step rfl hv hs
  constructor
  · intro hno
    rw [prvPublishDeviceMetricsReport, if_pos rfl, hzero hno]
    rfl
  · intro hpending
    obtain ⟨hlt, hvalue⟩ := hknown.pending hpending
    have hmade := hknown.calling n (.inr (.inr hn))
    refine ⟨by omega, ?_⟩
    rw [prvPublishDeviceMetricsReport, if_pos rfl, hvalue, prvPublishOpCb]
    cases returnCode s.puback.source <;> rfl

/-- What `prvPublishDeviceMetricsReport` returns at the end of its wait: success where the wait
timed out, and else the answer to this report or an earlier one. -/
theorem report_published (h : Run (Step returnCode) init es s) :
    ∀ n, s.puback.pc = .waiting n →
      (s.puback.box.pending = false →
        prvPublishDeviceMetricsReport .mqttSuccess s.puback.box = true) ∧
      (s.puback.box.pending = true → s.puback.source ≤ n ∧
        prvPublishDeviceMetricsReport .mqttSuccess s.puback.box =
          decide (returnCode s.puback.source = .mqttSuccess)) :=
  fun _ hn => report_published_of_run h hn

/-- The first report, whose acknowledgement did not come in time. -/
theorem report_published_timedOut :
    prvPublishDeviceMetricsReport .mqttSuccess ⟨0, false⟩ = true := by
  have hrun : Run (Step fun _ => .mqttServerRefused) init
      [.begin true, .publish .accept, .publish .enter]
      ⟨⟨⟨0, false⟩, 0, true, [0], none, .waiting 0, 1⟩, none, none, .publishing, 1⟩ := by
    refine (run_ofAdmits (fun _ _ => True) ?_).mono fun _ _ _ hs => hs.2
    simp [Admits, Enabled, next, nextPuback, init, isCall, isReturn, Caller.Enabled, Caller.next,
      Caller.init]
  exact (report_published hrun 0 rfl).1 rfl

/-- No acknowledgement is missed in its wait, and no response is on its way when the flag is
reset. -/
def InTime (s : DefenderTask) (e : DefenderEvent) : Prop :=
  callEvent e ≠ some .timeOut ∧ s.FinishesClean e

end DefenderTask

end RenesasDemo.Defender
