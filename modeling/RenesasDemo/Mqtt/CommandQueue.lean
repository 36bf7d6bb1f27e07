import Mathlib.Data.Fintype.Basic
import Mathlib.Data.List.Basic
import RenesasDemo.Framework.Runs

namespace RenesasDemo.Mqtt

open Framework

def mqttAgentNotifyFlagSocketRecv : BitVec 32 := 1#32 <<< 31
def mqttAgentNotifyFlagMQueue : BitVec 32 := 1#32 <<< 30

structure TaskNotification where
  ulNotifiedValue : BitVec 32
  pending : Bool
  deriving DecidableEq

/-- `xTaskNotifyIndexed` with `eSetBits`. -/
def TaskNotification.setBits (n : TaskNotification) (ulValue : BitVec 32) : TaskNotification :=
  ⟨n.ulNotifiedValue ||| ulValue, true⟩

/-- What `xTaskNotifyWaitIndexed` leaves when it clears all bits on exit. -/
def TaskNotification.cleared : TaskNotification := ⟨0, false⟩

/-- A queued command and its place in the order in which commands were accepted. -/
structure QueuedCommand (Command : Type*) where
  seq : Nat
  command : Command
  deriving DecidableEq

/-- Where a task is in `prvAgentMessageSend`. -/
inductive SenderPc where
  | outside
  /-- Past `xQueueSendToBack`, which took the command with this number, or refused it. -/
  | notifying (seq : Option Nat)
  deriving DecidableEq

/-- Where the agent is in `prvAgentMessageReceive`. -/
inductive ReceiverPc where
  /-- Outside, or waiting for a notification. -/
  | waiting
  | dequeuing
  deriving DecidableEq

/-- The agent's message context and everybody at work on it. -/
structure MessageSystem (Task Command : Type*) where
  xQueue : List (QueuedCommand Command)
  notification : TaskNotification
  sender : Task → SenderPc
  receiver : ReceiverPc
  /-- Every command `xQueueSendToBack` took so far. -/
  accepted : List (QueuedCommand Command)
  /-- Every command `xQueueReceive` returned so far. -/
  received : List (QueuedCommand Command)

inductive MessageEvent (Task Command : Type*) where
  | enqueue (task : Task) (pxCommand : Command)
  | queueFull (task : Task)
  | notify (task : Task)
  | socketRecvReady
  | notifyWait
  | waitTimeout
  | queueReceive

section system

variable {Task Command : Type*} [DecidableEq Task]

def MessageSystem.start : MessageSystem Task Command :=
  ⟨[], .cleared, fun _ => .outside, .waiting, [], []⟩

/-- `uxQueueLength` is the capacity the queue was created with. -/
def MessageSystem.Enabled (uxQueueLength : Nat) (s : MessageSystem Task Command) :
    MessageEvent Task Command → Prop
  | .enqueue task _ => s.sender task = .outside ∧ s.xQueue.length < uxQueueLength
  | .queueFull task => s.sender task = .outside ∧ uxQueueLength ≤ s.xQueue.length
  | .notify task => s.sender task ≠ .outside
  | .socketRecvReady => True
  | .notifyWait => s.receiver = .waiting ∧ s.notification.pending = true
  | .waitTimeout => s.receiver = .waiting ∧ s.notification.pending = false
  | .queueReceive => s.receiver = .dequeuing

instance (uxQueueLength : Nat) (s : MessageSystem Task Command) (e : MessageEvent Task Command) :
    Decidable (s.Enabled uxQueueLength e) := by
  cases e <;> unfold MessageSystem.Enabled <;> infer_instance

/-- The notification is set even if the queue took nothing; socket events come first. -/
def MessageSystem.next (s : MessageSystem Task Command) :
    MessageEvent Task Command → MessageSystem Task Command
  | .enqueue task pxCommand =>
      let entry : QueuedCommand Command := ⟨s.accepted.length, pxCommand⟩
      { s with
        xQueue := s.xQueue ++ [entry]
        accepted := s.accepted ++ [entry]
        sender := Function.update s.sender task (.notifying (some entry.seq)) }
  | .queueFull task => { s with sender := Function.update s.sender task (.notifying none) }
  | .notify task =>
      { s with
        notification := s.notification.setBits mqttAgentNotifyFlagMQueue
        sender := Function.update s.sender task .outside }
  | .socketRecvReady =>
      { s with notification := s.notification.setBits mqttAgentNotifyFlagSocketRecv }
  | .notifyWait =>
      { s with
        notification := .cleared
        receiver :=
          if s.notification.ulNotifiedValue &&& mqttAgentNotifyFlagSocketRecv ≠ 0 then .waiting
          else .dequeuing }
  | .waitTimeout => s
  | .queueReceive =>
      match s.xQueue with
      | [] => { s with receiver := .waiting }
      | entry :: rest =>
          { s with xQueue := rest, received := s.received ++ [entry], receiver := .waiting }

def MessageStep (uxQueueLength : Nat) (s : MessageSystem Task Command)
    (e : MessageEvent Task Command) (s' : MessageSystem Task Command) : Prop :=
  s.Enabled uxQueueLength e ∧ s' = s.next e

def FullySent (s : MessageSystem Task Command) (entry : QueuedCommand Command) : Prop :=
  ∀ task, s.sender task ≠ .notifying (some entry.seq)

/-- The agent learns of every command that waits for it, and takes each one once. -/
structure NoLostWakeUp (uxQueueLength : Nat) (s : MessageSystem Task Command) : Prop where
  notified : s.xQueue ≠ [] → (∀ task, s.sender task = .outside) → s.receiver = .waiting →
    s.notification.pending = true
  noTimeout : s.Enabled uxQueueLength .waitTimeout → ∀ entry ∈ s.xQueue, ¬ FullySent s entry
  conserved : s.accepted = s.received ++ s.xQueue

/-- A wait that finds a socket event, and a dequeue without a new notification, leave no fully
sent command in the queue. -/
def ReceiveOk (s : MessageSystem Task Command) : MessageEvent Task Command → Prop
  | .notifyWait => s.notification.ulNotifiedValue &&& mqttAgentNotifyFlagSocketRecv ≠ 0 →
      ∀ entry ∈ s.xQueue, ¬ FullySent s entry
  | .queueReceive => s.notification.pending = false →
      ∀ entry ∈ s.xQueue.tail, ¬ FullySent s entry
  | _ => True

instance [Fintype Task] (s : MessageSystem Task Command) (entry : QueuedCommand Command) :
    Decidable (FullySent s entry) :=
  inferInstanceAs (Decidable (∀ task, s.sender task ≠ _))

instance [Fintype Task] (s : MessageSystem Task Command) (e : MessageEvent Task Command) :
    Decidable (ReceiveOk s e) := by
  cases e <;> unfold ReceiveOk <;> infer_instance

/-- While the agent waits without a notification, every queued command has its own to come. -/
structure WakeUpInv (s : MessageSystem Task Command) : Prop where
  awaited : s.receiver = .waiting → s.notification.pending = false →
    ∀ entry ∈ s.xQueue, ¬ FullySent s entry
  conserved : s.accepted = s.received ++ s.xQueue

theorem conserved_next {s : MessageSystem Task Command} (hs : s.accepted = s.received ++ s.xQueue)
    (e : MessageEvent Task Command) :
    (s.next e).accepted = (s.next e).received ++ (s.next e).xQueue := by
  cases e with
  | enqueue task pxCommand => simp [MessageSystem.next, hs]
  | queueReceive =>
    cases hq : s.xQueue with
    | nil => simpa [MessageSystem.next, hq] using hs
    | cons entry rest => simp [MessageSystem.next, hq, hs]
  | queueFull task => exact hs
  | notify task => exact hs
  | socketRecvReady => exact hs
  | notifyWait => exact hs
  | waitTimeout => exact hs

theorem not_fullySent_update {s : MessageSystem Task Command} {task : Task} {pc : SenderPc}
    {entry : QueuedCommand Command} (houtside : s.sender task = .outside)
    (h : ¬ FullySent s entry) :
    ¬ ∀ t, Function.update s.sender task pc t ≠ .notifying (some entry.seq) := by
  unfold FullySent at h
  push Not at h ⊢
  obtain ⟨t, ht⟩ := h
  have hne : t ≠ task := by
    intro hte
    rw [hte, houtside] at ht
    exact absurd ht (by simp)
  exact ⟨t, by rw [Function.update_of_ne hne, ht]⟩

theorem wakeUpInv_next {uxQueueLength : Nat} {s : MessageSystem Task Command} (hs : WakeUpInv s)
    {e : MessageEvent Task Command} (henabled : s.Enabled uxQueueLength e)
    (hok : ReceiveOk s e) : WakeUpInv (s.next e) := by
  refine ⟨?_, conserved_next hs.conserved e⟩
  intro hwait hpending entry hentry
  cases e with
  | enqueue task pxCommand =>
    have hmem : entry ∈ s.xQueue ++ [⟨s.accepted.length, pxCommand⟩] := hentry
    rcases List.mem_append.mp hmem with hold | hnew
    · exact not_fullySent_update henabled.1 (hs.awaited hwait hpending entry hold)
    · have heq := List.mem_singleton.mp hnew
      intro hsent
      exact hsent task (by simp [MessageSystem.next, heq])
  | queueFull task =>
    exact not_fullySent_update henabled.1 (hs.awaited hwait hpending entry hentry)
  | notify task => exact absurd hpending (by simp [MessageSystem.next, TaskNotification.setBits])
  | socketRecvReady =>
    exact absurd hpending (by simp [MessageSystem.next, TaskNotification.setBits])
  | notifyWait =>
    have hsocket : s.notification.ulNotifiedValue &&& mqttAgentNotifyFlagSocketRecv ≠ 0 := by
      by_contra hnone
      simp [MessageSystem.next, hnone] at hwait
    exact hok hsocket entry hentry
  | waitTimeout => exact hs.awaited hwait hpending entry hentry
  | queueReceive =>
    cases hq : s.xQueue with
    | nil => simp [MessageSystem.next, hq] at hentry
    | cons first rest =>
      simp only [MessageSystem.next, hq] at hentry hpending
      have hunsent := hok hpending entry (by simpa [hq] using hentry)
      simpa [MessageSystem.next, hq, FullySent] using hunsent

omit [DecidableEq Task] in
theorem WakeUpInv.noLostWakeUp {uxQueueLength : Nat} {s : MessageSystem Task Command}
    (hs : WakeUpInv s) : NoLostWakeUp uxQueueLength s where
  notified hqueue hquiet hwait := by
    by_contra hpending
    obtain ⟨entry, hentry⟩ := List.exists_mem_of_ne_nil _ hqueue
    have hunsent := hs.awaited hwait (by simpa using hpending) entry hentry
    exact hunsent fun task => by simp [hquiet task]
  noTimeout henabled := hs.awaited henabled.1 henabled.2
  conserved := hs.conserved

omit [DecidableEq Task] in
theorem wakeUpInv_start : WakeUpInv (MessageSystem.start : MessageSystem Task Command) :=
  ⟨by simp [MessageSystem.start], rfl⟩

/-- No wake-up is lost in any interleaving whose receives meet their condition. -/
theorem noLostWakeUp_run {uxQueueLength : Nat} {es : List (MessageEvent Task Command)}
    {s : MessageSystem Task Command}
    (hrun : Run (Guarded ReceiveOk (MessageStep uxQueueLength)) .start es s) :
    NoLostWakeUp uxQueueLength s := by
  have hs : WakeUpInv s := by
    refine hrun.invariant wakeUpInv_start ?_
    intro s e s' hs hstep
    obtain ⟨hok, henabled, hnext⟩ := hstep
    rw [hnext]
    exact wakeUpInv_next hs henabled hok
  exact hs.noLostWakeUp

/-- Whatever the receives find, no accepted command is dropped or received twice. -/
theorem accepted_eq_received_append_queue {uxQueueLength : Nat}
    {es : List (MessageEvent Task Command)} {s : MessageSystem Task Command}
    (hrun : Run (MessageStep uxQueueLength) .start es s) :
    s.accepted = s.received ++ s.xQueue := by
  refine hrun.invariant (P := fun s => s.accepted = s.received ++ s.xQueue) rfl ?_
  intro s e s' hs hstep
  rw [hstep.2]
  exact conserved_next hs e

end system

section twoSends

/-- One command is sent and received before the next notification. -/
theorem noLostWakeUp_run_received :
    NoLostWakeUp 2 ([.enqueue 0 7, .notify 0, .notifyWait, .queueReceive].foldl
      MessageSystem.next (.start : MessageSystem (Fin 1) Nat)) :=
  noLostWakeUp_run (Run.ofAdmits (fun s e => ReceiveOk s e ∧ s.Enabled 2 e)
    (fun _ _ h => ⟨h.1, h.2, rfl⟩) (by decide))

/-- Two commands set the same bit, and the receive that takes the first command clears it. -/
theorem not_noLostWakeUp_coalesced :
    ¬ ∀ es (s : MessageSystem (Fin 1) Nat), Run (MessageStep 2) .start es s →
      NoLostWakeUp 2 s := by
  intro h
  have hrun : Run (MessageStep 2) (.start : MessageSystem (Fin 1) Nat)
      [.enqueue 0 7, .notify 0, .enqueue 0 8, .notify 0, .notifyWait, .queueReceive] _ :=
    Run.ofAdmits (fun s e => s.Enabled 2 e) (fun _ _ henabled => ⟨henabled, rfl⟩) (by decide)
  have hpending := (h _ _ hrun).notified (by decide) (by decide) rfl
  exact absurd hpending (by decide)

end twoSends

end RenesasDemo.Mqtt
