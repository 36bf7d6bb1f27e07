import Mathlib.Data.List.Count
import Mathlib.Data.List.FinRange
import Mathlib.Data.List.Perm.Basic
import Mathlib.Logic.Function.Basic
import RenesasDemo.Framework.Runs
import RenesasDemo.Framework.Segments

namespace RenesasDemo.Ota

open Framework

/-- An event buffer with room for `OTA_DATA_BLOCK_SIZE` bytes. -/
structure OtaEventData (otaDataBlockSize : Nat) where
  data : Buffer UInt8 otaDataBlockSize
  dataLength : Nat
  bufferUsed : Bool

/-- The payload, which fits into the buffer, is copied. -/
def OtaEventData.fill {otaDataBlockSize : Nat} (b : OtaEventData otaDataBlockSize)
    (pPayload : List UInt8) : OtaEventData otaDataBlockSize :=
  { b with data := (b.data.memcpy 0 pPayload).getD b.data, dataLength := pPayload.length }

inductive OtaAgentEvent where
  | receivedFileBlock
  | receivedJobDocument
  deriving DecidableEq

/-- An event for the agent; `pEventData` is the number of its buffer. -/
structure OtaEventMsg (n : Nat) where
  eventId : OtaAgentEvent
  pEventData : Fin n

structure MQTTPublishInfo where
  pTopicName : List UInt8
  pPayload : List UInt8

/-- The length of `$aws/things` and the slash behind it. -/
def otaTopicClientIdentifierStartIdx : Nat := 12

/-- The comparison from `idx` and `matchIdx` on: the identifier and a slash. -/
def matchClientIdentifier : List UInt8 → List UInt8 → Bool
  | [], _ => false
  | c :: _, [] => c = 0x2F
  | c :: pTopic, d :: pClientIdentifier =>
      if d ≠ c then false else matchClientIdentifier pTopic pClientIdentifier

def prvMatchClientIdentifierInTopic (pTopic pClientIdentifier : List UInt8) : Bool :=
  matchClientIdentifier (pTopic.drop otaTopicClientIdentifierStartIdx) pClientIdentifier

/-- The pool with its buffers, and the events that are queued or in process. -/
structure OtaEventBuffers (n otaDataBlockSize : Nat) where
  eventBuffer : Fin n → OtaEventData otaDataBlockSize
  inFlight : List (OtaEventMsg n)

/-- A publish comes with the answer of `OTA_SignalEvent`, should it be called. -/
inductive OtaBufferEvent where
  | incomingData (pPublishInfo : MQTTPublishInfo) (signalled : Bool)
  | incomingJobMessage (pPublishInfo : MQTTPublishInfo) (signalled : Bool)
  /-- `OtaJobEventProcessed` for one of the events in flight. -/
  | processed (idx : Nat)

namespace OtaEventBuffers

variable {n otaDataBlockSize : Nat}

def prvOTAEventBufferPoolInit (eventBuffer : Fin n → OtaEventData otaDataBlockSize) :
    OtaEventBuffers n otaDataBlockSize :=
  ⟨fun i => { eventBuffer i with bufferUsed := false }, []⟩

def setBuffer (s : OtaEventBuffers n otaDataBlockSize) (i : Fin n)
    (b : OtaEventData otaDataBlockSize) : OtaEventBuffers n otaDataBlockSize :=
  { s with eventBuffer := Function.update s.eventBuffer i b }

def prvOTAEventBufferFree (s : OtaEventBuffers n otaDataBlockSize) (pxBuffer : Fin n) :
    OtaEventBuffers n otaDataBlockSize :=
  s.setBuffer pxBuffer { s.eventBuffer pxBuffer with bufferUsed := false }

def freeBuffer (s : OtaEventBuffers n otaDataBlockSize) : Option (Fin n) :=
  (List.finRange n).find? fun i => !(s.eventBuffer i).bufferUsed

def prvOTAEventBufferGet (s : OtaEventBuffers n otaDataBlockSize) :
    Option (Fin n × OtaEventBuffers n otaDataBlockSize) :=
  s.freeBuffer.map fun i => (i, s.setBuffer i { s.eventBuffer i with bufferUsed := true })

/-- What both handlers of incoming publishes do; the answer of `OTA_SignalEvent` is not looked
at. -/
def prvProcessIncoming (eventId : OtaAgentEvent) (pcThingName : List UInt8)
    (s : OtaEventBuffers n otaDataBlockSize) (pPublishInfo : MQTTPublishInfo) (signalled : Bool) :
    OtaEventBuffers n otaDataBlockSize :=
  if prvMatchClientIdentifierInTopic pPublishInfo.pTopicName pcThingName = true then
    if pPublishInfo.pPayload.length ≤ otaDataBlockSize then
      match s.prvOTAEventBufferGet with
      | none => s
      | some (pData, t) =>
          let t' := t.setBuffer pData ((t.eventBuffer pData).fill pPublishInfo.pPayload)
          if signalled then { t' with inFlight := t'.inFlight ++ [⟨eventId, pData⟩] } else t'
    else s
  else s

def prvProcessIncomingData (pcThingName : List UInt8) (s : OtaEventBuffers n otaDataBlockSize)
    (pPublishInfo : MQTTPublishInfo) (signalled : Bool) : OtaEventBuffers n otaDataBlockSize :=
  prvProcessIncoming .receivedFileBlock pcThingName s pPublishInfo signalled

def prvProcessIncomingJobMessage (pcThingName : List UInt8)
    (s : OtaEventBuffers n otaDataBlockSize) (pPublishInfo : MQTTPublishInfo) (signalled : Bool) :
    OtaEventBuffers n otaDataBlockSize :=
  prvProcessIncoming .receivedJobDocument pcThingName s pPublishInfo signalled

def otaAppCallbackProcessed (s : OtaEventBuffers n otaDataBlockSize) (idx : Nat) :
    OtaEventBuffers n otaDataBlockSize :=
  match s.inFlight[idx]? with
  | none => s
  | some msg => { s with inFlight := s.inFlight.eraseIdx idx }.prvOTAEventBufferFree msg.pEventData

def next (pcThingName : List UInt8) (s : OtaEventBuffers n otaDataBlockSize) :
    OtaBufferEvent → OtaEventBuffers n otaDataBlockSize
  | .incomingData pPublishInfo signalled =>
      prvProcessIncomingData pcThingName s pPublishInfo signalled
  | .incomingJobMessage pPublishInfo signalled =>
      prvProcessIncomingJobMessage pcThingName s pPublishInfo signalled
  | .processed idx => s.otaAppCallbackProcessed idx

def references (s : OtaEventBuffers n otaDataBlockSize) (i : Fin n) : Nat :=
  s.inFlight.countP fun msg => msg.pEventData = i

/-- A used buffer belongs to one event, and a free one to none. -/
structure Owned (s : OtaEventBuffers n otaDataBlockSize) : Prop where
  used : ∀ i, (s.eventBuffer i).bufferUsed = true → s.references i = 1
  inFlight : ∀ msg ∈ s.inFlight, (s.eventBuffer msg.pEventData).bufferUsed = true

/-- The handler gets as far as taking a buffer. -/
def TakesBuffer (pcThingName : List UInt8) (s : OtaEventBuffers n otaDataBlockSize)
    (pPublishInfo : MQTTPublishInfo) : Prop :=
  prvMatchClientIdentifierInTopic pPublishInfo.pTopicName pcThingName = true ∧
    pPublishInfo.pPayload.length ≤ otaDataBlockSize ∧
      ∃ i, (s.eventBuffer i).bufferUsed = false

/-- The queue of the agent has room when an event is to be put into it. -/
def SignalOk (pcThingName : List UInt8) (s : OtaEventBuffers n otaDataBlockSize) :
    OtaBufferEvent → Prop
  | .incomingData pPublishInfo signalled =>
      s.TakesBuffer pcThingName pPublishInfo → signalled = true
  | .incomingJobMessage pPublishInfo signalled =>
      s.TakesBuffer pcThingName pPublishInfo → signalled = true
  | .processed _ => True

section owned

variable {s : OtaEventBuffers n otaDataBlockSize} {i : Fin n} {pcThingName : List UInt8}
  {pPublishInfo : MQTTPublishInfo} {eventId : OtaAgentEvent} {signalled : Bool}

/-- Either no buffer is taken, or one that was free is filled. -/
theorem prvProcessIncoming_cases (eventId : OtaAgentEvent) (pcThingName : List UInt8)
    (s : OtaEventBuffers n otaDataBlockSize) (pPublishInfo : MQTTPublishInfo) (signalled : Bool) :
    (¬ s.TakesBuffer pcThingName pPublishInfo ∧
        prvProcessIncoming eventId pcThingName s pPublishInfo signalled = s) ∨
      ∃ i, s.TakesBuffer pcThingName pPublishInfo ∧ (s.eventBuffer i).bufferUsed = false ∧
        prvProcessIncoming eventId pcThingName s pPublishInfo signalled =
          ⟨Function.update s.eventBuffer i
              ({ s.eventBuffer i with bufferUsed := true }.fill pPublishInfo.pPayload),
            if signalled then s.inFlight ++ [⟨eventId, i⟩] else s.inFlight⟩ := by
  rw [prvProcessIncoming]
  by_cases hmatch : prvMatchClientIdentifierInTopic pPublishInfo.pTopicName pcThingName = true
  · rw [if_pos hmatch]
    by_cases hlen : pPublishInfo.pPayload.length ≤ otaDataBlockSize
    · rw [if_pos hlen, prvOTAEventBufferGet]
      cases hfree : s.freeBuffer with
      | none =>
        left
        refine ⟨?_, rfl⟩
        intro htakes
        obtain ⟨i, hi⟩ := htakes.2.2
        have hall := List.find?_eq_none.mp hfree i (List.mem_finRange i)
        rw [hi] at hall
        exact hall rfl
      | some i =>
        right
        have hi : (s.eventBuffer i).bufferUsed = false := by
          have hfound := List.find?_some hfree
          simpa using hfound
        refine ⟨i, ⟨hmatch, hlen, i, hi⟩, hi, ?_⟩
        simp only [Option.map_some, setBuffer, Function.update_idem, Function.update_self]
        cases signalled <;> rfl
    · rw [if_neg hlen]
      exact .inl ⟨fun htakes => hlen htakes.2.1, rfl⟩
  · rw [if_neg hmatch]
    exact .inl ⟨fun htakes => hmatch htakes.1, rfl⟩

theorem Owned.take (h : s.Owned) (hi : (s.eventBuffer i).bufferUsed = false)
    (eventId : OtaAgentEvent) {b : OtaEventData otaDataBlockSize} (hb : b.bufferUsed = true) :
    Owned ⟨Function.update s.eventBuffer i b, s.inFlight ++ [⟨eventId, i⟩]⟩ := by
  have hnone : ∀ msg ∈ s.inFlight, msg.pEventData ≠ i := by
    intro msg hmsg heq
    have hused := h.inFlight msg hmsg
    rw [heq, hi] at hused
    cases hused
  constructor
  · intro j hj
    rw [references, List.countP_append, List.countP_singleton]
    by_cases hji : j = i
    · have hzero : s.inFlight.countP (fun msg => msg.pEventData = j) = 0 := by
        apply List.countP_eq_zero.mpr
        intro msg hmsg
        rw [hji]
        simpa using hnone msg hmsg
      rw [hzero, hji]
      simp
    · simp only [Function.update_of_ne hji] at hj
      have hone : s.inFlight.countP (fun msg => msg.pEventData = j) = 1 := h.used j hj
      have hij : ¬ i = j := fun heq => hji heq.symm
      rw [hone]
      simp [hij]
  · intro msg hmsg
    obtain hmsg | hmsg := List.mem_append.mp hmsg
    · simp only [Function.update_of_ne (hnone msg hmsg)]
      exact h.inFlight msg hmsg
    · rw [List.mem_singleton.mp hmsg]
      simpa only [Function.update_self] using hb

theorem Owned.not_lost (h : s.Owned) (hi : (s.eventBuffer i).bufferUsed = false)
    {b : OtaEventData otaDataBlockSize} (hb : b.bufferUsed = true) :
    ¬ Owned ⟨Function.update s.eventBuffer i b, s.inFlight⟩ := by
  intro hown
  have hone : s.inFlight.countP (fun msg => msg.pEventData = i) = 1 :=
    hown.used i (by simpa only [Function.update_self] using hb)
  have hpos : 0 < s.inFlight.countP fun msg => msg.pEventData = i := by omega
  obtain ⟨msg, hmsg, heq⟩ := List.countP_pos_iff.mp hpos
  have hused := h.inFlight msg hmsg
  rw [of_decide_eq_true heq, hi] at hused
  cases hused

theorem Owned.processed (h : s.Owned) (idx : Nat) : (s.otaAppCallbackProcessed idx).Owned := by
  rw [otaAppCallbackProcessed]
  cases hmsg : s.inFlight[idx]? with
  | none => exact h
  | some msg =>
    have hmem : msg ∈ s.inFlight := List.mem_of_getElem? hmsg
    obtain ⟨hidx, hget⟩ := List.getElem?_eq_some_iff.mp hmsg
    have hperm : s.inFlight.Perm (msg :: s.inFlight.eraseIdx idx) := by
      rw [← hget]
      exact (List.getElem_cons_eraseIdx_perm hidx).symm
    have hcount : ∀ j, s.references j =
        (s.inFlight.eraseIdx idx).countP (fun m => m.pEventData = j) +
          if msg.pEventData = j then 1 else 0 := by
      intro j
      rw [references, hperm.countP_eq, List.countP_cons]
      simp
    have hnone : ∀ m ∈ s.inFlight.eraseIdx idx, m.pEventData ≠ msg.pEventData := by
      have hzero := hcount msg.pEventData
      rw [h.used _ (h.inFlight msg hmem), if_pos rfl] at hzero
      intro m hm heq
      have hall := List.countP_eq_zero.mp (Nat.succ.inj hzero).symm m hm
      exact hall (decide_eq_true heq)
    constructor
    · intro j hj
      by_cases hji : j = msg.pEventData
      · subst hji
        simp only [prvOTAEventBufferFree, setBuffer, Function.update_self] at hj
        cases hj
      · simp only [prvOTAEventBufferFree, setBuffer, Function.update_of_ne hji] at hj
        have hone := hcount j
        rw [h.used j hj, if_neg (fun heq => hji heq.symm)] at hone
        exact hone.symm
    · intro m hm
      have hne := hnone m hm
      simp only [prvOTAEventBufferFree, setBuffer, Function.update_of_ne hne]
      exact h.inFlight m (List.mem_of_mem_eraseIdx hm)

/-- A publish keeps the ownership exactly when its event is queued or no buffer is needed. -/
theorem Owned.incoming (h : s.Owned) (eventId : OtaAgentEvent) :
    (prvProcessIncoming eventId pcThingName s pPublishInfo signalled).Owned ↔
      (s.TakesBuffer pcThingName pPublishInfo → signalled = true) := by
  obtain ⟨hnot, hres⟩ | ⟨i, htakes, hi, hres⟩ :=
    prvProcessIncoming_cases eventId pcThingName s pPublishInfo signalled
  · rw [hres]
    exact ⟨fun _ htakes => absurd htakes hnot, fun _ => h⟩
  · rw [hres]
    cases signalled with
    | true => exact ⟨fun _ _ => rfl, fun _ => h.take hi eventId rfl⟩
    | false =>
      constructor
      · intro hown
        exact absurd hown (h.not_lost hi rfl)
      · intro hok
        cases hok htakes

theorem Owned.next_iff (h : s.Owned) (e : OtaBufferEvent) :
    (s.next pcThingName e).Owned ↔ s.SignalOk pcThingName e := by
  cases e with
  | incomingData => exact h.incoming .receivedFileBlock
  | incomingJobMessage => exact h.incoming .receivedJobDocument
  | processed idx => exact ⟨fun _ => trivial, fun _ => h.processed idx⟩

theorem Owned.all_free (h : s.Owned) (hnone : s.inFlight = []) (i : Fin n) :
    (s.eventBuffer i).bufferUsed = false := by
  cases hused : (s.eventBuffer i).bufferUsed with
  | false => rfl
  | true =>
    have hone := h.used i hused
    rw [references, hnone] at hone
    cases hone

end owned

/-- Ownership after every step, and what follows from it for the next buffer and for the end. -/
def KeepsOwnership (pcThingName : List UInt8) (s : OtaEventBuffers n otaDataBlockSize)
    (e : OtaBufferEvent) : Prop :=
  (s.next pcThingName e).Owned ∧
    (∀ i t, (s.next pcThingName e).prvOTAEventBufferGet = some (i, t) →
      (s.next pcThingName e).references i = 0) ∧
    ((s.next pcThingName e).inFlight = [] →
      ∀ i, ((s.next pcThingName e).eventBuffer i).bufferUsed = false)

theorem Owned.get_unreferenced {s t : OtaEventBuffers n otaDataBlockSize} {i : Fin n} (h : s.Owned)
    (hget : s.prvOTAEventBufferGet = some (i, t)) : s.references i = 0 := by
  obtain ⟨j, hfree, hpair⟩ := Option.map_eq_some_iff.mp hget
  obtain ⟨rfl, -⟩ := Prod.mk.inj hpair
  have hfound := List.find?_some hfree
  apply List.countP_eq_zero.mpr
  intro msg hmsg heq
  have hused := h.inFlight msg hmsg
  rw [of_decide_eq_true heq] at hused
  rw [hused] at hfound
  cases hfound

/-- Buffers have one owner after every step of a run exactly when the agent's queue takes every
event it is handed. -/
theorem eventBufferOwnership_run (pcThingName : List UInt8)
    (eventBuffer : Fin n → OtaEventData otaDataBlockSize) (events : List OtaBufferEvent) :
    Admits (KeepsOwnership pcThingName) (next pcThingName) (prvOTAEventBufferPoolInit eventBuffer)
        events ↔
      Admits (SignalOk pcThingName) (next pcThingName) (prvOTAEventBufferPoolInit eventBuffer)
        events := by
  have hstart : (prvOTAEventBufferPoolInit eventBuffer).Owned :=
    ⟨fun _ hi => absurd hi Bool.false_ne_true, fun _ hmsg => absurd hmsg List.not_mem_nil⟩
  constructor
  · intro h
    exact h.mono_of_invariant Owned (fun s e hs hk => ⟨(hs.next_iff e).mp hk.1, hk.1⟩) hstart
  · intro h
    apply h.mono_of_invariant Owned ?_ hstart
    intro s e hs hok
    have hown := (hs.next_iff e).mpr hok
    exact ⟨⟨hown, fun _ _ hget => hown.get_unreferenced hget, hown.all_free⟩, hown⟩

/-- One buffer, and a block that the agent's queue has no room for. -/
theorem not_eventBufferOwnership_rejected :
    ¬ Admits (KeepsOwnership (n := 1) [0x61]) (next [0x61])
      (prvOTAEventBufferPoolInit fun _ => (⟨⟨[0], rfl⟩, 0, false⟩ : OtaEventData 1))
      [.incomingData ⟨List.replicate 12 0 ++ [0x61, 0x2F], [7]⟩ false] := by
  intro h
  have hused := h.1.2.2 (by decide +kernel) 0
  exact absurd hused (by decide +kernel)

end OtaEventBuffers

end RenesasDemo.Ota
