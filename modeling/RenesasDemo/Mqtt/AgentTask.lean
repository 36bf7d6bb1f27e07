import RenesasDemo.Framework.Runs
import RenesasDemo.Mqtt.Resubscribe

namespace RenesasDemo.Mqtt

open Framework

/-- Where `vMQTTAgentTask` is in its reconnect loop. -/
inductive AgentPc where
  | loopHead
  /-- TLS is up and MQTT_Connect is next. -/
  | connecting
  /-- MQTT_Connect succeeded for a resumed session. -/
  | resuming (xSessionPresent : Bool)
  | commandLoop
  /-- From the return of the command loop, or a failed connect, to the end of the pass. -/
  | disconnecting
  | exited
  deriving DecidableEq

structure AgentTask where
  pc : AgentPc
  xSubMgrCtx : SubMgrCtx
  /-- `MUTEX_IS_OWNED` in this task. -/
  mutexOwned : Bool
  cleanSession : Bool
  xExitFlag : Bool
  /-- The SUBSCRIBE commands the task has enqueued, in order. -/
  commands : List MQTTAgentSubscribeArgs
  /-- The last of them has not completed yet. -/
  resubscribePending : Bool
  /-- The task took the mutex while it owned it, and waits for ever. -/
  waitsOnItself : Bool
  /-- The task gave the mutex while it did not own it. -/
  gaveUnowned : Bool

namespace AgentTask

/-- `prvSubscriptionManagerCtxInit` leaves the mutex locked for the first pass. -/
def start : AgentTask :=
  ⟨.loopHead, prvSubscriptionManagerCtxReset, true, true, false, [], false, false, false⟩

def xLockSubCtx (s : AgentTask) : AgentTask :=
  { s with mutexOwned := true, waitsOnItself := s.waitsOnItself || s.mutexOwned }

def xUnlockSubCtx (s : AgentTask) : AgentTask :=
  { s with mutexOwned := false, gaveUnowned := s.gaveUnowned || !s.mutexOwned }

/-- The completion of the pending resubscribe command. -/
def completeResubscribe (s : AgentTask) (pSubackCodes : Nat → MQTTSubAckStatus) : AgentTask :=
  { s with
    xSubMgrCtx := prvResubscribeCommandCallback s.xSubMgrCtx pSubackCodes
    resubscribePending := false }.xUnlockSubCtx

/-- `MQTTAgent_CancelAll` completes the pending commands; a cancelled one has no codes, and what
is read through the NULL list is zero. -/
def cancelAll (s : AgentTask) : AgentTask :=
  if s.resubscribePending then s.completeResubscribe fun _ => 0 else s

/-- `memset` writes the byte 0x80 to each of the `xSize` bytes of every entry. -/
def resetSubAckStatus (s : SubMgrCtx) (xSize : Nat) : SubMgrCtx :=
  { s with pxSubAckStatus := fun _ => ∑ k ∈ Finset.range xSize, mqttSubAckFailure * 256 ^ k }

end AgentTask

inductive AgentEvent where
  /-- The TLS connect succeeds, or every retry has failed. -/
  | tlsConnect (connected : Bool)
  | mqttConnect (xMQTTStatus : MQTTStatus) (xSessionPresent : Bool)
  /-- MQTTAgent_ResumeSession, and MQTTAgent_Subscribe should it be called. -/
  | resumeSession (xMQTTStatus xSubscribe : MQTTStatus)
  | incomingPublish
  | resubscribeComplete (pSubackCodes : Nat → MQTTSubAckStatus)
  | commandLoopReturn
  /-- The cleanup; `backoff` tells whether another attempt is due. -/
  | disconnect (backoff : Bool)
  /-- Another task's locked section. -/
  | clientUpdate (ctx : SubMgrCtx)

namespace AgentTask

def Enabled (s : AgentTask) (e : AgentEvent) : Prop :=
  match e with
  | .clientUpdate _ => s.mutexOwned = false
  | .tlsConnect _ => s.waitsOnItself = false ∧ s.pc = .loopHead
  | .mqttConnect _ _ => s.waitsOnItself = false ∧ s.pc = .connecting
  | .resumeSession _ _ => s.waitsOnItself = false ∧ ∃ present, s.pc = .resuming present
  | .incomingPublish => s.waitsOnItself = false ∧ s.pc = .commandLoop
  | .resubscribeComplete _ =>
      s.waitsOnItself = false ∧ s.pc = .commandLoop ∧ s.resubscribePending = true
  | .commandLoopReturn => s.waitsOnItself = false ∧ s.pc = .commandLoop
  | .disconnect _ => s.waitsOnItself = false ∧ s.pc = .disconnecting

instance (s : AgentTask) (e : AgentEvent) : Decidable (s.Enabled e) := by
  cases e <;> unfold Enabled <;> infer_instance

/-- Further reconnects resume the session. -/
def connected (s : AgentTask) : AgentTask := { s with pc := .commandLoop, cleanSession := false }

/-- `prvHandleResubscribe`, called with the mutex owned. -/
def handleResubscribe (s : AgentTask) (xSubscribe : MQTTStatus) : AgentTask :=
  let r := prvHandleResubscribe s.xSubMgrCtx xSubscribe
  let s := { s with
    xSubMgrCtx := r.ctx
    commands := s.commands ++ r.enqueued.toList
    resubscribePending := r.enqueued.isSome }
  let s := if r.unlocked then s.xUnlockSubCtx else s
  if r.xStatus = .mqttSuccess then s.connected else { s with pc := .disconnecting }

/-- `xSize` is the size of an `MQTTSubAckStatus_t`. -/
def next (xSize : Nat) (s : AgentTask) : AgentEvent → AgentTask
  | .tlsConnect true => { s with pc := .connecting }
  | .tlsConnect false => { s with pc := .disconnecting, xExitFlag := true }
  | .mqttConnect xMQTTStatus xSessionPresent =>
      let s := s.cancelAll
      if xMQTTStatus = .mqttSuccess ∧ s.cleanSession = false then
        { s with pc := .resuming xSessionPresent }
      else if xMQTTStatus = .mqttSuccess then
        { s with xSubMgrCtx := prvSubscriptionManagerCtxReset }.xUnlockSubCtx.connected
      else { s with pc := .disconnecting }
  | .resumeSession xMQTTStatus xSubscribe =>
      if xMQTTStatus = .mqttSuccess then
        -- A session that is still present needs no resubscribe; the mutex stays taken.
        if s.pc = .resuming false then s.handleResubscribe xSubscribe else s.connected
      else { s with pc := .disconnecting }
  | .incomingPublish =>
      -- prvIncomingPublishCallback: a self-wait never reaches the give.
      let s := s.xLockSubCtx
      if s.waitsOnItself then s else s.xUnlockSubCtx
  | .resubscribeComplete pSubackCodes => s.completeResubscribe pSubackCodes
  | .commandLoopReturn => { s with pc := .disconnecting }
  | .disconnect backoff =>
      let s := s.cancelAll
      let s := if s.mutexOwned then s else s.xLockSubCtx
      let xExitFlag := s.xExitFlag || !backoff
      { s with
        xSubMgrCtx := resetSubAckStatus s.xSubMgrCtx xSize
        xExitFlag := xExitFlag
        pc := if xExitFlag then .exited else .loopHead }
  | .clientUpdate ctx => { s with xSubMgrCtx := ctx }

end AgentTask

def AgentStep (xSize : Nat) (s : AgentTask) (e : AgentEvent) (s' : AgentTask) : Prop :=
  s.Enabled e ∧ s' = s.next xSize e

/-- The agent task's part in the mutex protocol of the subscription context. -/
structure AgentMutexProtocol (s : AgentTask) : Prop where
  loopHead : s.pc = .loopHead → s.mutexOwned = true
  noSelfWait : s.waitsOnItself = false
  noUnownedGive : s.gaveUnowned = false
  commandLoop : s.pc = .commandLoop → s.mutexOwned = false ∨ s.resubscribePending = true

/-- The broker does not resume a session that is still present. -/
def ResumeOk (s : AgentTask) : AgentEvent → Prop
  | .resumeSession xMQTTStatus _ => s.pc = .resuming true → xMQTTStatus ≠ .mqttSuccess
  | _ => True

instance (s : AgentTask) (e : AgentEvent) : Decidable (ResumeOk s e) := by
  cases e <;> unfold ResumeOk <;> infer_instance

/-- Who owns the mutex where: no resubscribe command is ever pending. -/
structure AgentInv (s : AgentTask) : Prop where
  noPending : s.resubscribePending = false
  noSelfWait : s.waitsOnItself = false
  noUnownedGive : s.gaveUnowned = false
  owned : s.mutexOwned = true ∨ s.pc = .commandLoop ∨ s.pc = .disconnecting
  released : s.pc = .commandLoop → s.mutexOwned = false

theorem agentInv_start : AgentInv .start where
  noPending := rfl
  noSelfWait := rfl
  noUnownedGive := rfl
  owned := .inl rfl
  released h := by simp [AgentTask.start] at h

theorem AgentInv.cancelAll {s : AgentTask} (hs : AgentInv s) : s.cancelAll = s :=
  if_neg (by simp [hs.noPending])

theorem handleResubscribe_eq (s : AgentTask) (xSubscribe : MQTTStatus) :
    s.handleResubscribe xSubscribe =
      { s with
        xSubMgrCtx := s.xSubMgrCtx.compressSubscriptions
        resubscribePending := false }.xUnlockSubCtx.connected := by
  simp [AgentTask.handleResubscribe, prvHandleResubscribe_eq, AgentTask.xUnlockSubCtx,
    AgentTask.connected]

theorem AgentInv.release {s : AgentTask} (hs : AgentInv s) (howned : s.mutexOwned = true)
    (ctx : SubMgrCtx) :
    AgentInv { s with xSubMgrCtx := ctx, resubscribePending := false }.xUnlockSubCtx.connected where
  noPending := rfl
  noSelfWait := hs.noSelfWait
  noUnownedGive := by simp [AgentTask.xUnlockSubCtx, AgentTask.connected, howned, hs.noUnownedGive]
  owned := .inr (.inl rfl)
  released _ := rfl

theorem agentInv_next {xSize : Nat} {s : AgentTask} (hs : AgentInv s) {e : AgentEvent}
    (henabled : s.Enabled e) (hok : ResumeOk s e) : AgentInv (s.next xSize e) := by
  have hpending := hs.noPending
  cases e with
  | tlsConnect connected =>
    have hpc : s.pc = .loopHead := henabled.2
    have howned : s.mutexOwned = true := by simpa [hpc] using hs.owned
    cases connected with
    | true =>
      exact ⟨hpending, hs.noSelfWait, hs.noUnownedGive, .inl howned,
        fun h => by simp [AgentTask.next] at h⟩
    | false =>
      exact ⟨hpending, hs.noSelfWait, hs.noUnownedGive, .inl howned,
        fun h => by simp [AgentTask.next] at h⟩
  | mqttConnect xMQTTStatus xSessionPresent =>
    have hpc : s.pc = .connecting := henabled.2
    have howned : s.mutexOwned = true := by simpa [hpc] using hs.owned
    simp only [AgentTask.next, hs.cancelAll]
    split_ifs with hresume hclean
    · exact ⟨hpending, hs.noSelfWait, hs.noUnownedGive, .inl howned, fun h => by simp at h⟩
    · have hrelease := hs.release howned prvSubscriptionManagerCtxReset
      rwa [← hpending] at hrelease
    · exact ⟨hpending, hs.noSelfWait, hs.noUnownedGive, .inl howned, fun h => by simp at h⟩
  | resumeSession xMQTTStatus xSubscribe =>
    obtain ⟨present, hpc⟩ := henabled.2
    have howned : s.mutexOwned = true := by simpa [hpc] using hs.owned
    simp only [AgentTask.next]
    split_ifs with hst habsent
    · rw [handleResubscribe_eq]
      exact hs.release howned _
    · have hpresent : s.pc = .resuming true := by
        cases present with
        | true => exact hpc
        | false => exact absurd hpc habsent
      exact absurd hst (hok hpresent)
    · exact ⟨hpending, hs.noSelfWait, hs.noUnownedGive, .inl howned, fun h => by simp at h⟩
  | incomingPublish =>
    have hpc : s.pc = .commandLoop := henabled.2
    have hfree : s.mutexOwned = false := hs.released hpc
    have hlock : s.xLockSubCtx.waitsOnItself = false := by
      simp [AgentTask.xLockSubCtx, hs.noSelfWait, hfree]
    simp only [AgentTask.next, hlock, Bool.false_eq_true, if_false]
    refine ⟨hpending, hlock, ?_, .inr (.inl hpc), fun _ => rfl⟩
    simp [AgentTask.xLockSubCtx, AgentTask.xUnlockSubCtx, hs.noUnownedGive]
  | resubscribeComplete pSubackCodes =>
    exact absurd henabled.2.2 (by simp [hpending])
  | commandLoopReturn =>
    exact ⟨hpending, hs.noSelfWait, hs.noUnownedGive, .inr (.inr rfl),
      fun h => by simp [AgentTask.next] at h⟩
  | disconnect backoff =>
    simp only [AgentTask.next, hs.cancelAll]
    have hlocked : AgentInv (if s.mutexOwned then s else s.xLockSubCtx) ∧
        (if s.mutexOwned then s else s.xLockSubCtx).mutexOwned = true := by
      split_ifs with howned
      · exact ⟨hs, howned⟩
      · have hwait : s.xLockSubCtx.waitsOnItself = false := by
          simp [AgentTask.xLockSubCtx, hs.noSelfWait, howned]
        have hpc : s.xLockSubCtx.pc = .disconnecting := henabled.2
        exact ⟨⟨hpending, hwait, hs.noUnownedGive, .inl rfl, fun h => by simp [hpc] at h⟩, rfl⟩
    generalize (if s.mutexOwned then s else s.xLockSubCtx) = s1 at hlocked
    obtain ⟨hs1, howned⟩ := hlocked
    refine ⟨hs1.noPending, hs1.noSelfWait, hs1.noUnownedGive, .inl howned, fun h => ?_⟩
    dsimp only at h
    split_ifs at h
  | clientUpdate ctx =>
    exact ⟨hpending, hs.noSelfWait, hs.noUnownedGive, hs.owned, hs.released⟩

theorem AgentInv.agentMutexProtocol {s : AgentTask} (hs : AgentInv s) : AgentMutexProtocol s where
  loopHead hpc := by simpa [hpc] using hs.owned
  noSelfWait := hs.noSelfWait
  noUnownedGive := hs.noUnownedGive
  commandLoop hpc := .inl (hs.released hpc)

/-- The mutex protocol holds in every run in which no session that is still present resumes. -/
theorem agentMutexProtocol_run {xSize : Nat} {es : List AgentEvent} {s : AgentTask}
    (hrun : Run (Guarded ResumeOk (AgentStep xSize)) .start es s) : AgentMutexProtocol s := by
  have hs : AgentInv s := by
    refine hrun.invariant agentInv_start ?_
    intro s e s' hs hstep
    obtain ⟨hok, henabled, hnext⟩ := hstep
    rw [hnext]
    exact agentInv_next hs henabled hok
  exact hs.agentMutexProtocol

/-- Resuming a present session enters the command loop with the mutex taken. -/
theorem not_agentMutexProtocol_of_resumed {xSize : Nat} {s : AgentTask} (hs : AgentInv s)
    (hpc : s.pc = .resuming true) (xSubscribe : MQTTStatus) :
    ¬ AgentMutexProtocol (s.next xSize (.resumeSession .mqttSuccess xSubscribe)) := by
  intro h
  have howned : s.mutexOwned = true := by simpa [hpc] using hs.owned
  have hnext : s.next xSize (.resumeSession .mqttSuccess xSubscribe) = s.connected := by
    simp [AgentTask.next, hpc]
  rw [hnext] at h
  rcases h.commandLoop rfl with hfree | hpending
  · exact absurd howned (by simpa [AgentTask.connected] using hfree)
  · exact absurd hs.noPending (by simpa [AgentTask.connected] using hpending)

theorem agentMutexProtocol_run_reconnected : AgentMutexProtocol
    ([AgentEvent.tlsConnect true, .mqttConnect .mqttSuccess false, .incomingPublish,
      .commandLoopReturn, .disconnect true, .tlsConnect true, .mqttConnect .mqttSuccess false,
      .resumeSession .mqttSuccess .mqttSuccess].foldl (AgentTask.next 4) .start) :=
  agentMutexProtocol_run (Run.ofAdmits (fun s e => ResumeOk s e ∧ s.Enabled e)
    (fun _ _ h => ⟨h.1, h.2, rfl⟩) (by decide +kernel))

/-- The first publish after a present session was resumed deadlocks the task. -/
theorem not_agentMutexProtocol_presentSession :
    ¬ ∀ es s, Run (AgentStep 4) .start es s → AgentMutexProtocol s := by
  intro h
  have hrun : Run (AgentStep 4) .start
      [.tlsConnect true, .mqttConnect .mqttSuccess false, .commandLoopReturn, .disconnect true,
        .tlsConnect true, .mqttConnect .mqttSuccess true,
        .resumeSession .mqttSuccess .mqttSuccess, .incomingPublish] _ :=
    Run.ofAdmits (fun s e => s.Enabled e) (fun _ _ henabled => ⟨henabled, rfl⟩)
      (by decide +kernel)
  exact absurd (h _ _ hrun).noSelfWait (by decide +kernel)

/-- The events of a reconnect whose session the broker no longer has. -/
def AgentTask.resumedWithoutSession (xSize : Nat) (s : AgentTask) (xSubscribe : MQTTStatus) :
    AgentTask :=
  (s.next xSize (.mqttConnect .mqttSuccess false)).next xSize
    (.resumeSession .mqttSuccess xSubscribe)

theorem resumedWithoutSession_commands {xSize : Nat} {s : AgentTask} {xSubscribe : MQTTStatus}
    (hresumed : s.cleanSession = false) :
    (s.resumedWithoutSession xSize xSubscribe).commands = s.commands := by
  have hkeep : s.cancelAll.cleanSession = false ∧ s.cancelAll.commands = s.commands := by
    unfold AgentTask.cancelAll
    split_ifs
    · exact ⟨hresumed, rfl⟩
    · exact ⟨hresumed, rfl⟩
  simp [AgentTask.resumedWithoutSession, AgentTask.next, hkeep.1, handleResubscribe_eq,
    AgentTask.xUnlockSubCtx, AgentTask.connected, hkeep.2]

/-- What the task enqueues on a reconnect whose session is gone, as `ResubscribesAll` asks. -/
def ResumesSubscriptions (xSize : Nat) (s : AgentTask) (xSubscribe : MQTTStatus) : Prop :=
  ResubscribesAll s.xSubMgrCtx (s.resumedWithoutSession xSize xSubscribe).xSubMgrCtx
    ((s.resumedWithoutSession xSize xSubscribe).commands.drop s.commands.length)

/-- No resumed connection without a session leads to the SUBSCRIBE it needs. -/
theorem not_resumesSubscriptions {xSize : Nat} (s : AgentTask) (xSubscribe : MQTTStatus)
    (hresumed : s.cleanSession = false) : ¬ ResumesSubscriptions xSize s xSubscribe := by
  intro h
  obtain ⟨args, hsent, -⟩ := h.complete
  rw [resumedWithoutSession_commands hresumed] at hsent
  simp at hsent

/-- The task about to reconnect, one subscription having been made since the first connect. -/
def reconnecting : AgentTask :=
  [AgentEvent.tlsConnect true, .mqttConnect .mqttSuccess false,
    .clientUpdate (prvSubscriptionManagerCtxReset.storeFilter 1 ⟨[97], noNul_a⟩),
    .commandLoopReturn, .disconnect true, .tlsConnect true].foldl (AgentTask.next 4) .start

theorem not_resumesSubscriptions_reconnecting :
    ¬ ResumesSubscriptions 4 reconnecting .mqttSuccess :=
  not_resumesSubscriptions reconnecting .mqttSuccess rfl

theorem not_resumesSubscriptions_oneFilter :
    ¬ ∀ (s : AgentTask) (xSubscribe : MQTTStatus), s.pc = .connecting → s.cleanSession = false →
      (∃ i, s.xSubMgrCtx.filterAt i ≠ none) → ResumesSubscriptions 4 s xSubscribe := by
  intro h
  have hall := h reconnecting .mqttSuccess rfl rfl ⟨1, by decide +kernel⟩
  obtain ⟨args, hsent, -⟩ := hall.complete
  have hnone : ((reconnecting.resumedWithoutSession 4 .mqttSuccess).commands.drop
      reconnecting.commands.length) = [] := by rfl
  rw [hnone] at hsent
  simp at hsent

end RenesasDemo.Mqtt
