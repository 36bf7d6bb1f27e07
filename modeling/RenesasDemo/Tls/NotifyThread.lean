import RenesasDemo.Framework.Runs

namespace RenesasDemo.Tls

open Framework

/-- What `mbedtls_ssl_read` and `mbedtls_ssl_write` return. -/
inductive TlsStatus where
  | bytes (n : Nat)
  | timeout
  | wantRead
  | wantWrite
  /-- `MBEDTLS_ERR_SSL_PEER_CLOSE_NOTIFY` or `MBEDTLS_ERR_NET_CONN_RESET`. -/
  | closed
  | failed
  deriving DecidableEq

/-- Where `vSocketNotifyThread` is. -/
inductive NotifyThreadPc where
  /-- Before `xTaskNotifyStateClear`. -/
  | clearing
  /-- In `sock_select` or on the way to it. -/
  | selecting
  /-- With its answer, before the callback. -/
  | selected
  | waiting
  deriving DecidableEq

/-- Where the agent is in `mbedtls_transport_recv`. -/
inductive RecvPc where
  | outside
  /-- In `mbedtls_ssl_read`. -/
  | reading
  | notifying
  | returning
  deriving DecidableEq

/-- An open connection with its receive-ready callback. -/
structure RecvSystem where
  /-- The number of bytes on the socket that nobody has read. -/
  unread : Nat
  thread : NotifyThreadPc
  /-- A notification with the value 0 is pending. -/
  notified : Bool
  recv : RecvPc
  /-- The callback was invoked after the last call of `mbedtls_transport_recv` returned. -/
  calledBack : Bool
  deriving DecidableEq

inductive RecvEvent where
  | arrive (n : Nat)
  | threadClears
  | selectReturns
  | callback
  | notifyWait
  | recvCall
  /-- `mbedtls_ssl_read` takes bytes from the socket. -/
  | consume (n : Nat)
  | tlsRead (tlsStatus : TlsStatus)
  | notify
  | recvReturn

namespace RecvSystem

def start (unread : Nat) : RecvSystem := ⟨unread, .clearing, false, .outside, false⟩

/-- Only a read that is no error and no time-out notifies the thread; the connection stays open. -/
def afterRead : TlsStatus → RecvPc
  | .bytes _ => .notifying
  | .timeout => .returning
  | .wantRead => .returning
  | .wantWrite => .returning
  | .closed => .reading
  | .failed => .returning

theorem afterRead_ne_outside (tlsStatus : TlsStatus) : afterRead tlsStatus ≠ .outside := by
  cases tlsStatus <;> simp [afterRead]

/-- A step that cannot be taken leaves the state as it is. -/
def next (s : RecvSystem) : RecvEvent → RecvSystem
  | .arrive n => { s with unread := s.unread + n }
  | .threadClears =>
      if s.thread = .clearing then { s with thread := .selecting, notified := false } else s
  | .selectReturns =>
      if s.thread = .selecting ∧ 0 < s.unread then { s with thread := .selected } else s
  | .callback =>
      if s.thread = .selected then { s with thread := .waiting, calledBack := true } else s
  | .notifyWait =>
      if s.thread = .waiting ∧ s.notified = true then
        { s with thread := .selecting, notified := false }
      else s
  | .recvCall => if s.recv = .outside then { s with recv := .reading } else s
  | .consume n => if s.recv = .reading then { s with unread := s.unread - n } else s
  | .tlsRead tlsStatus =>
      if s.recv = .reading then { s with recv := afterRead tlsStatus } else s
  | .notify => if s.recv = .notifying then { s with notified := true, recv := .returning } else s
  | .recvReturn =>
      if s.recv = .returning then { s with recv := .outside, calledBack := false } else s

def threadSteps : List RecvEvent := [.threadClears, .notifyWait, .selectReturns, .callback]

/-- Unread data is known to the thread or to the owner of the callback, and the thread by itself
comes to the callback. -/
structure Ready (s : RecvSystem) : Prop where
  known : s.recv = .outside → 0 < s.unread →
    s.thread ≠ .waiting ∨ s.notified = true ∨ s.calledBack = true
  followed : s.recv = .outside → 0 < s.unread → (threadSteps.foldl next s).calledBack = true

/-- Data that arrives now is not missed, and neither is what has arrived before. -/
def NeverMissed (s : RecvSystem) : Prop := ∀ n, (s.next (.arrive n)).Ready

/-- When a call of `mbedtls_transport_recv` returns, the thread does not wait without a
notification. -/
def ReturnsAwake (s : RecvSystem) : RecvEvent → Prop
  | .recvReturn => s.recv = .returning → s.thread ≠ .waiting ∨ s.notified = true
  | _ => True

/-- `mbedtls_ssl_read` gives bytes, or the 0 of an empty record. -/
def readsBytes (s : RecvSystem) : RecvEvent → Bool
  | .tlsRead (.bytes _) => decide (s.recv = .reading)
  | _ => false

def goesToSelect (s : RecvSystem) (e : RecvEvent) : Bool :=
  decide (s.thread ≠ .selecting ∧ (s.next e).thread = .selecting)

/-- The thread gets to `sock_select`, or its callback was invoked. -/
def Awake (s : RecvSystem) : Prop :=
  s.recv = .outside → s.thread ≠ .waiting ∨ s.notified = true ∨ s.calledBack = true

section steps

variable {s : RecvSystem} {e : RecvEvent}

/-- From every place but an idle wait the thread comes to the callback. -/
theorem calledBack_threadSteps (hunread : 0 < s.unread)
    (h : s.thread ≠ .waiting ∨ s.notified = true ∨ s.calledBack = true) :
    (threadSteps.foldl next s).calledBack = true := by
  obtain ⟨unread, thread, notified, recv, calledBack⟩ := s
  have hunread : 0 < unread := hunread
  cases thread with
  | clearing => simp [threadSteps, next, hunread]
  | selecting => simp [threadSteps, next, hunread]
  | selected => simp [threadSteps, next]
  | waiting =>
    cases notified with
    | true => simp [threadSteps, next, hunread]
    | false =>
      have hcalled : calledBack = true := by simpa using h
      simp [threadSteps, next, hcalled]

theorem Awake.neverMissed (h : s.Awake) : s.NeverMissed := by
  intro n
  constructor
  · exact fun houtside _ => h houtside
  · exact fun houtside hunread => calledBack_threadSteps hunread (h houtside)

theorem Awake.of_inside (h : s.recv ≠ .outside) : s.Awake := fun houtside => absurd houtside h

theorem Awake.next (h : s.Awake) (hok : s.ReturnsAwake e) : (s.next e).Awake := by
  cases e with
  | arrive n => exact h
  | threadClears =>
    rw [RecvSystem.next]
    split
    · exact fun _ => .inl (by simp)
    · exact h
  | selectReturns =>
    rw [RecvSystem.next]
    split
    · exact fun _ => .inl (by simp)
    · exact h
  | callback =>
    rw [RecvSystem.next]
    split
    · exact fun _ => .inr (.inr rfl)
    · exact h
  | notifyWait =>
    rw [RecvSystem.next]
    split
    · exact fun _ => .inl (by simp)
    · exact h
  | recvCall =>
    rw [RecvSystem.next]
    split
    · exact .of_inside (by simp)
    · exact h
  | consume n =>
    rw [RecvSystem.next]
    split <;> exact h
  | tlsRead tlsStatus =>
    rw [RecvSystem.next]
    split
    · exact .of_inside (afterRead_ne_outside tlsStatus)
    · exact h
  | notify =>
    rw [RecvSystem.next]
    split
    · exact .of_inside (by simp)
    · exact h
  | recvReturn =>
    rw [RecvSystem.next]
    split
    · next hreturning =>
      intro _
      obtain hthread | hnotified := hok hreturning
      · exact .inl hthread
      · exact .inr (.inl hnotified)
    · exact h

theorem ReturnsAwake.of_neverMissed (h : (s.next e).NeverMissed) : s.ReturnsAwake e := by
  cases e with
  | recvReturn =>
    intro hreturning
    have hnext : s.next .recvReturn = { s with recv := .outside, calledBack := false } := by
      rw [RecvSystem.next, if_pos hreturning]
    rw [hnext] at h
    obtain hthread | hnotified | hcalled := (h 1).known rfl (Nat.succ_pos _)
    · exact .inl hthread
    · exact .inr hnotified
    · cases hcalled
  | _ => trivial

end steps

theorem start_awake (unread : Nat) : (start unread).Awake := fun _ => .inl (by simp [start])

end RecvSystem

/-- An open connection and what its reads have given. -/
structure RecvHistory where
  system : RecvSystem
  /-- A read has given bytes; the thread has not gone to `sock_select` since, or only before that
  call's `xTaskNotify`. -/
  readSince : Bool
  deriving DecidableEq

namespace RecvHistory

def start (unread : Nat) : RecvHistory := ⟨.start unread, false⟩

/-- A call that has read bytes comes to its `xTaskNotify` after the thread has turned. -/
def next (h : RecvHistory) (e : RecvEvent) : RecvHistory where
  system := h.system.next e
  readSince :=
    if h.system.readsBytes e then true
    else if h.system.goesToSelect e then decide (h.system.recv = .notifying)
    else h.readSince

/-- When a call of `mbedtls_transport_recv` returns, the thread does not wait, or a read has given
bytes since it last went to `sock_select`. -/
def StepOk (h : RecvHistory) : RecvEvent → Prop
  | .recvReturn =>
      h.system.recv = .returning → h.system.thread ≠ .waiting ∨ h.readSince = true
  | _ => True

instance (h : RecvHistory) (e : RecvEvent) : Decidable (h.StepOk e) := by
  cases e <;> unfold StepOk <;> infer_instance

/-- A notification is pending, or its call is about to give it, just when the reads say so. -/
def NotifiedByRead (h : RecvHistory) : Prop :=
  h.readSince = true ↔ h.system.notified = true ∨ h.system.recv = .notifying

section steps

variable {h : RecvHistory} {e : RecvEvent}

/-- Neither a read nor a turn of the thread. -/
theorem NotifiedByRead.of_same (hread : h.NotifiedByRead) (hbytes : h.system.readsBytes e = false)
    (hturn : h.system.goesToSelect e = false)
    (hnotified : ((h.system.next e).notified = true ∨ (h.system.next e).recv = .notifying) ↔
      (h.system.notified = true ∨ h.system.recv = .notifying)) : (h.next e).NotifiedByRead := by
  rw [NotifiedByRead, RecvHistory.next, hbytes, hturn, if_neg Bool.false_ne_true,
    if_neg Bool.false_ne_true, hnotified]
  exact hread

/-- The thread goes to `sock_select` and takes the notification. -/
theorem NotifiedByRead.of_turn (hbytes : h.system.readsBytes e = false)
    (hturn : h.system.goesToSelect e = true) (hnotified : (h.system.next e).notified = false)
    (hrecv : (h.system.next e).recv = h.system.recv) : (h.next e).NotifiedByRead := by
  rw [NotifiedByRead, RecvHistory.next, hbytes, hturn, if_neg Bool.false_ne_true, if_pos rfl,
    hnotified, hrecv]
  simp

theorem NotifiedByRead.next (hread : h.NotifiedByRead) (e : RecvEvent) :
    (h.next e).NotifiedByRead := by
  obtain ⟨⟨unread, thread, notified, recv, calledBack⟩, readSince⟩ := h
  cases e with
  | arrive n => exact hread.of_same rfl (by simp [RecvSystem.goesToSelect, RecvSystem.next]) Iff.rfl
  | threadClears =>
    by_cases hthread : thread = .clearing
    · subst hthread
      exact .of_turn rfl rfl rfl rfl
    · apply hread.of_same rfl <;> simp [RecvSystem.goesToSelect, RecvSystem.next, hthread]
  | selectReturns =>
    by_cases hthread : thread = .selecting ∧ 0 < unread
    · apply hread.of_same rfl <;> simp [RecvSystem.goesToSelect, RecvSystem.next, hthread]
    · apply hread.of_same rfl <;> simp [RecvSystem.goesToSelect, RecvSystem.next, hthread]
  | callback =>
    by_cases hthread : thread = .selected
    · apply hread.of_same rfl <;> simp [RecvSystem.goesToSelect, RecvSystem.next, hthread]
    · apply hread.of_same rfl <;> simp [RecvSystem.goesToSelect, RecvSystem.next, hthread]
  | notifyWait =>
    by_cases hthread : thread = .waiting ∧ notified = true
    · obtain ⟨rfl, rfl⟩ := hthread
      exact .of_turn rfl rfl rfl rfl
    · apply hread.of_same rfl <;> simp [RecvSystem.goesToSelect, RecvSystem.next, hthread]
  | recvCall =>
    cases recv <;> exact hread.of_same rfl (by simp [RecvSystem.goesToSelect, RecvSystem.next])
      (by simp [RecvSystem.next])
  | consume n =>
    cases recv <;> exact hread.of_same rfl (by simp [RecvSystem.goesToSelect, RecvSystem.next])
      (by simp [RecvSystem.next])
  | tlsRead tlsStatus =>
    by_cases hrecv : recv = .reading
    · subst hrecv
      cases tlsStatus with
      | bytes n =>
        simp [NotifiedByRead, RecvHistory.next, RecvSystem.readsBytes, RecvSystem.next,
          RecvSystem.afterRead]
      | _ =>
        exact hread.of_same rfl (by simp [RecvSystem.goesToSelect, RecvSystem.next])
          (by simp [RecvSystem.next, RecvSystem.afterRead])
    · apply hread.of_same
      · cases tlsStatus <;> simp [RecvSystem.readsBytes, hrecv]
      · simp [RecvSystem.goesToSelect, RecvSystem.next, hrecv]
      · simp [RecvSystem.next, hrecv]
  | notify =>
    cases recv <;> exact hread.of_same rfl (by simp [RecvSystem.goesToSelect, RecvSystem.next])
      (by simp [RecvSystem.next])
  | recvReturn =>
    cases recv <;> exact hread.of_same rfl (by simp [RecvSystem.goesToSelect, RecvSystem.next])
      (by simp [RecvSystem.next])

/-- What the reads and the thread's turns say about a return is what the notification says. -/
theorem NotifiedByRead.stepOk_iff (hread : h.NotifiedByRead) :
    h.StepOk e ↔ h.system.ReturnsAwake e := by
  cases e with
  | recvReturn =>
    apply forall_congr'
    intro hreturning
    have hread : h.readSince = true ↔ h.system.notified = true ∨ h.system.recv = .notifying := hread
    rw [hread, hreturning]
    simp
  | _ => exact Iff.rfl

end steps

/-- No data is missed in any state of a run exactly when each call of `mbedtls_transport_recv`
returns while the thread does not wait, or when a read has given bytes since the thread last went
to `sock_select`. -/
theorem recvReady_run (unread : Nat) (events : List RecvEvent) :
    Admits (fun s e => (RecvSystem.next s e).NeverMissed) RecvSystem.next (.start unread) events ↔
      Admits StepOk next (start unread) events := by
  have hstep : ∀ h e, (next h e).system = h.system.next e := fun _ _ => rfl
  have hmap := Admits.map (fun s e => (RecvSystem.next s e).NeverMissed) RecvHistory.system hstep
    (start unread) events
  have hstart : (start unread).NotifiedByRead := by simp [NotifiedByRead, start, RecvSystem.start]
  refine hmap.symm.trans ⟨?_, ?_⟩
  · intro hmissed
    refine hmissed.mono_of_invariant NotifiedByRead ?_ hstart
    intro h e hread hnext
    exact ⟨hread.stepOk_iff.mpr (.of_neverMissed hnext), hread.next e⟩
  · intro hok
    refine hok.mono_of_invariant (fun h => h.NotifiedByRead ∧ h.system.Awake) ?_
      ⟨hstart, RecvSystem.start_awake unread⟩
    intro h e hinv hstep
    have hawake := hinv.2.next (hinv.1.stepOk_iff.mp hstep)
    exact ⟨hawake.neverMissed, hinv.1.next e, hawake⟩

/-- Part of a record arrives and is read; nothing sends the thread back to `sock_select`. -/
theorem not_recvReady_partialRecord :
    ¬ Admits (fun s e => (RecvSystem.next s e).NeverMissed) RecvSystem.next (.start 0)
      [.threadClears, .arrive 5, .selectReturns, .callback, .recvCall, .consume 5,
        .tlsRead .wantRead, .recvReturn] := by
  intro h
  obtain hthread | hnotified := RecvSystem.ReturnsAwake.of_neverMissed h.2.2.2.2.2.2.2.1 rfl
  · exact hthread rfl
  · cases hnotified

end RecvHistory

end RenesasDemo.Tls
