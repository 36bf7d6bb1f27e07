import RenesasDemo.Framework.Runs

namespace RenesasDemo.Tls

open Framework

/-- What `vStopSocketNotifyTask` is called for. -/
inductive StopFor where
  /-- Before `sock_close`, and before `mbedtls_transport_setrecvcallback` sets the callback. -/
  | close
  /-- By `vCreateSocketNotifyTask`. -/
  | create
  /-- By `vFreeNotifyThreadCtx`. -/
  | free
  deriving DecidableEq

/-- Where the agent's task is. The loop of `vStopSocketNotifyTask` reads `xTaskHandle` for each of
its two tests and again for the notification. -/
inductive OwnerPc where
  | outside
  | testing (op : StopFor)
  | asking (op : StopFor)
  | notifying (op : StopFor)
  | delaying (op : StopFor)
  /-- `vStopSocketNotifyTask` has come back. -/
  | stopped (op : StopFor)
  /-- Behind `xTaskCreateStatic`, before `xTaskHandle` is set. -/
  | created
  /-- `mbedtls_transport_recv` has seen a handle and is about to notify. -/
  | waking
  | freed
  deriving DecidableEq

/-- Where the thread on `puxStackBuffer` and `xTaskBuffer` is. -/
inductive SocketThread where
  /-- There is none, for the kernel either. -/
  | absent
  | clearing
  | selecting
  | calling
  | waiting (xExitFlag : Bool)
  /-- Behind the loop, before `xTaskHandle = NULL`. -/
  | leaving
  /-- Before `vTaskDelete`. -/
  | ending
  /-- In the kernel's list of deleted tasks, until the idle task takes it out. -/
  | deleted
  deriving DecidableEq

/-- The thread has not given up its handle. -/
def SocketThread.atWork : SocketThread → Bool
  | .absent | .ending | .deleted => false
  | _ => true

/-- A `NotifyThreadCtx_t` whose callback is set, with its thread and the agent that owns it. -/
structure NotifyThread where
  /-- `xTaskHandle` is not NULL. -/
  xTaskHandle : Bool
  thread : SocketThread
  /-- The thread's notification where one is pending. -/
  ulNotifyValue : Option UInt32
  owner : OwnerPc
  /-- How often the callback was called. -/
  calls : Nat
  deriving DecidableEq

inductive NotifyEvent where
  | stop (op : StopFor)
  | test (op : StopFor)
  | ask (op : StopFor)
  | notify (op : StopFor)
  /-- `vTaskDelay( 1 )` comes back. -/
  | delay (op : StopFor)
  | close
  | create
  | assign
  | free
  /-- The test of the handle in `mbedtls_transport_recv`. -/
  | recv
  | wake
  | clear
  /-- What `sock_select` returns and sets. -/
  | select (lRslt : Int) (xReadSet xErrorSet : Bool)
  | callback
  | wait
  | forget
  | delete
  /-- The idle task. -/
  | cleanUp

/-- The steps of `vSocketNotifyThread`. -/
def NotifyEvent.ofThread : NotifyEvent → Bool
  | .clear | .select .. | .callback | .wait | .forget | .delete => true
  | _ => false

/-- The steps with which the agent goes on behind `vStopSocketNotifyTask`. -/
def NotifyEvent.goesOn : NotifyEvent → Bool
  | .close | .create | .free => true
  | _ => false

def SocketThread.remaining : SocketThread → Nat
  | .clearing => 6
  | .selecting => 5
  | .calling => 4
  | .waiting _ => 3
  | .leaving => 2
  | .ending => 1
  | .deleted | .absent => 0

def SocketThread.callsLeft : SocketThread → Nat
  | .clearing | .selecting | .calling => 1
  | _ => 0

theorem SocketThread.remaining_le (pc : SocketThread) : pc.remaining ≤ 6 := by
  cases pc <;> simp [remaining]

theorem SocketThread.callsLeft_le (pc : SocketThread) : pc.callsLeft ≤ 1 := by
  cases pc <;> simp [callsLeft]

namespace NotifyThread

/-- As `mbedtls_transport_setrecvcallback` leaves a new one. -/
def init : NotifyThread := ⟨false, .absent, none, .outside, 0⟩

def Enabled (s : NotifyThread) : NotifyEvent → Prop
  | .stop _ => s.owner = .outside
  | .test op => s.owner = .testing op
  | .ask op => s.owner = .asking op
  | .notify op => s.owner = .notifying op
  | .delay op => s.owner = .delaying op
  | .close => s.owner = .stopped .close
  | .create => s.owner = .stopped .create
  | .assign => s.owner = .created
  | .free => s.owner = .stopped .free
  | .recv => s.owner = .outside
  | .wake => s.owner = .waking
  | .clear => s.thread = .clearing
  | .select .. => s.thread = .selecting
  | .callback => s.thread = .calling
  | .wait => ∃ xExitFlag, s.thread = .waiting xExitFlag ∧ s.ulNotifyValue ≠ none
  | .forget => s.thread = .leaving
  | .delete => s.thread = .ending
  | .cleanUp => s.thread = .deleted

/-- `xTaskNotify`; the kernel asserts that it gets a handle. -/
def xTaskNotify (s : NotifyThread) (ulValue : UInt32) (owner : OwnerPc) : Option NotifyThread :=
  if s.xTaskHandle then some { s with ulNotifyValue := some ulValue, owner } else none

/-- The rest of a pass of the thread's loop behind `sock_select`. -/
def afterSelect (lRslt : Int) (xReadSet xErrorSet : Bool) : SocketThread :=
  if lRslt = 0 ∨ xErrorSet = true then .waiting true
  else if xReadSet then .calling
  else .waiting false

/-- `xTaskNotifyWait` and the test of the loop. -/
def afterWait (xExitFlag : Bool) (ulNotifyValue : UInt32) : SocketThread :=
  if xExitFlag || ulNotifyValue == 0xFFFFFFFF then .leaving else .selecting

/-- `none` where a step asserts, or uses a stack and a control block that are in use. -/
def next (s : NotifyThread) : NotifyEvent → Option NotifyThread
  | .stop op => some { s with owner := .testing op }
  | .test op => some { s with owner := if s.xTaskHandle then .asking op else .stopped op }
  | .ask op =>
      if s.xTaskHandle then
        some { s with owner := if s.thread = .deleted then .stopped op else .notifying op }
      else none
  | .notify op => s.xTaskNotify 0xFFFFFFFF (.delaying op)
  | .delay op => some { s with owner := .testing op }
  | .close => some { s with owner := .outside }
  | .create =>
      if s.thread = .absent then
        some { s with thread := .clearing, ulNotifyValue := none, owner := .created }
      else none
  | .assign => some { s with xTaskHandle := true, owner := .outside }
  | .free => if s.thread = .absent then some { s with owner := .freed } else none
  | .recv => some { s with owner := if s.xTaskHandle then .waking else .outside }
  | .wake => s.xTaskNotify 0 .outside
  | .clear => some { s with ulNotifyValue := none, thread := .selecting }
  | .select lRslt xReadSet xErrorSet =>
      some { s with thread := afterSelect lRslt xReadSet xErrorSet }
  | .callback => some { s with thread := .waiting false, calls := s.calls + 1 }
  | .wait =>
      match s.thread, s.ulNotifyValue with
      | .waiting xExitFlag, some ulNotifyValue =>
          some { s with thread := afterWait xExitFlag ulNotifyValue, ulNotifyValue := none }
      | _, _ => some s
  | .forget => some { s with xTaskHandle := false, thread := .ending }
  | .delete => some { s with thread := .deleted }
  | .cleanUp => some { s with thread := .absent }

/-- The thread has the priority of the idle task and the agent a higher one, so that both run only
while the agent is blocked, in `vTaskDelay` or outside of these functions. -/
def Scheduled (s : NotifyThread) (e : NotifyEvent) : Prop :=
  e.ofThread = true ∨ e = .cleanUp → s.owner = .outside ∨ ∃ op, s.owner = .delaying op

def Step (s : NotifyThread) (e : NotifyEvent) (t : NotifyThread) : Prop :=
  s.Enabled e ∧ s.Scheduled e ∧ s.next e = some t

/-- What holds in each place of the agent. -/
def Sound (s : NotifyThread) : Prop :=
  match s.owner with
  | .outside => s.xTaskHandle = s.thread.atWork
  | .testing _ => s.xTaskHandle = s.thread.atWork
  | .asking _ => s.xTaskHandle = true ∧ s.thread.atWork = true
  | .notifying _ => s.xTaskHandle = true ∧ s.thread.atWork = true
  | .delaying _ =>
      s.xTaskHandle = s.thread.atWork ∧ ∀ ulValue ∈ s.ulNotifyValue, ulValue = 0xFFFFFFFF
  | .stopped _ => s.xTaskHandle = false ∧ s.thread.atWork = false
  | .created => s.xTaskHandle = false ∧ s.thread = .clearing
  | .waking => s.xTaskHandle = true ∧ s.thread.atWork = true
  | .freed => s.xTaskHandle = false ∧ s.thread = .absent

/-- The step takes the stack and the control block of a thread that is not gone. -/
def Reuses (s : NotifyThread) (e : NotifyEvent) : Prop :=
  (e = .create ∨ e = .free) ∧ (s.thread = .ending ∨ s.thread = .deleted)

def Blocked (s : NotifyThread) : Prop := s.owner = .outside ∨ ∃ op, s.owner = .delaying op

/-- The agent is in `vStopSocketNotifyTask`, or just behind it. -/
inductive InStop (s : NotifyThread) : Prop where
  | testing {op : StopFor} (h : s.owner = .testing op)
  | asking {op : StopFor} (h : s.owner = .asking op)
  | notifying {op : StopFor} (h : s.owner = .notifying op)
  | delaying {op : StopFor} (h : s.owner = .delaying op)
  | stopped {op : StopFor} (h : s.owner = .stopped op)

/-- The steps of the call and of the thread meanwhile. -/
def StopStep : NotifyThread → NotifyEvent → NotifyThread → Prop :=
  Guarded (fun _ e => e.goesOn = false) Step

section steps

variable {s t : NotifyThread} {e : NotifyEvent} {op : StopFor}

theorem sound_init : init.Sound := rfl

theorem Sound.handle (h : s.Sound) (hb : s.Blocked) : s.xTaskHandle = s.thread.atWork := by
  rw [Sound] at h
  obtain hb | ⟨op, hb⟩ := hb
  · rw [hb] at h
    exact h
  · rw [hb] at h
    exact h.1

/-- A step of the thread, or of the idle task. -/
theorem Sound.move (h : s.Sound) (hb : s.Blocked) (howner : t.owner = s.owner)
    (hhandle : t.xTaskHandle = t.thread.atWork)
    (hvalue : t.ulNotifyValue = s.ulNotifyValue ∨ t.ulNotifyValue = none) : t.Sound := by
  rw [Sound] at h ⊢
  rw [howner]
  obtain hb | ⟨op, hb⟩ := hb
  · rw [hb]
    exact hhandle
  · rw [hb] at h ⊢
    refine ⟨hhandle, ?_⟩
    obtain hvalue | hvalue := hvalue
    · rw [hvalue]
      exact h.2
    · rw [hvalue]
      exact nofun

theorem atWork_afterSelect (lRslt : Int) (xReadSet xErrorSet : Bool) :
    (afterSelect lRslt xReadSet xErrorSet).atWork = true := by
  unfold afterSelect
  split_ifs <;> rfl

theorem atWork_afterWait (xExitFlag : Bool) (ulNotifyValue : UInt32) :
    (afterWait xExitFlag ulNotifyValue).atWork = true := by
  unfold afterWait
  split_ifs <;> rfl

/-- Each step of the thread, where it is enabled. -/
theorem Sound.thread (h : s.Sound) (hb : s.Blocked) (hthread : e.ofThread = true ∨ e = .cleanUp)
    (he : s.Enabled e) : ∃ t, s.next e = some t ∧ t.Sound := by
  have hhandle := h.handle hb
  cases e with
  | clear =>
    have hpc : s.thread = .clearing := he
    rw [hpc] at hhandle
    exact ⟨_, rfl, h.move hb rfl hhandle (.inr rfl)⟩
  | select lRslt xReadSet xErrorSet =>
    have hpc : s.thread = .selecting := he
    rw [hpc] at hhandle
    refine ⟨_, rfl, h.move hb rfl ?_ (.inl rfl)⟩
    exact hhandle.trans (atWork_afterSelect lRslt xReadSet xErrorSet).symm
  | callback =>
    have hpc : s.thread = .calling := he
    rw [hpc] at hhandle
    exact ⟨_, rfl, h.move hb rfl hhandle (.inl rfl)⟩
  | wait =>
    obtain ⟨xExitFlag, hpc, hvalue⟩ := he
    obtain ⟨ulNotifyValue, hvalue⟩ := Option.ne_none_iff_exists'.mp hvalue
    rw [hpc] at hhandle
    refine ⟨{ s with thread := afterWait xExitFlag ulNotifyValue, ulNotifyValue := none }, ?_,
      h.move hb rfl ?_ (.inr rfl)⟩
    · simp only [next, hpc, hvalue]
    · exact hhandle.trans (atWork_afterWait xExitFlag ulNotifyValue).symm
  | forget => exact ⟨_, rfl, h.move hb rfl rfl (.inl rfl)⟩
  | delete =>
    have hpc : s.thread = .ending := he
    rw [hpc] at hhandle
    exact ⟨_, rfl, h.move hb rfl hhandle (.inl rfl)⟩
  | cleanUp =>
    have hpc : s.thread = .deleted := he
    rw [hpc] at hhandle
    exact ⟨_, rfl, h.move hb rfl hhandle (.inl rfl)⟩
  | _ => simp [NotifyEvent.ofThread] at hthread

/-- What the agent finds when its handle is set: the thread is at work, so that `eTaskGetState` does
not end the loop. -/
theorem Sound.ask (h : s.Sound) (he : s.owner = .asking op) :
    s.next (.ask op) = some { s with owner := .notifying op } ∧
      ({ s with owner := .notifying op } : NotifyThread).Sound := by
  rw [Sound, he] at h
  obtain ⟨hhandle, hwork⟩ := h
  have hpc : s.thread ≠ .deleted := by
    intro hpc
    rw [hpc] at hwork
    cases hwork
  rw [next, if_pos hhandle, if_neg hpc]
  exact ⟨rfl, hhandle, hwork⟩

theorem Sound.test (h : s.Sound) (he : s.owner = .testing op) :
    ({ s with owner := if s.xTaskHandle then .asking op else .stopped op } :
      NotifyThread).Sound := by
  rw [Sound, he] at h
  have hwork : s.xTaskHandle = s.thread.atWork := h
  rw [Sound]
  cases hhandle : s.xTaskHandle with
  | true => exact ⟨rfl, hwork.symm.trans hhandle⟩
  | false => exact ⟨rfl, hwork.symm.trans hhandle⟩

/-- A step that takes the place of a thread goes well exactly when that is gone. -/
theorem Sound.next (h : s.Sound) (he : s.Enabled e) (hsched : s.Scheduled e) :
    (s.next e = none ↔ s.Reuses e) ∧ ∀ t, s.next e = some t → t.Sound := by
  have hgoes : ∀ {t}, s.next e = some t → t.Sound → (e ≠ .create ∧ e ≠ .free) →
      (s.next e = none ↔ s.Reuses e) ∧ ∀ t, s.next e = some t → t.Sound := by
    intro t hnext ht hother
    refine ⟨⟨fun hnone => ?_, fun hreuse => ?_⟩, fun u hu => ?_⟩
    · rw [hnext] at hnone
      cases hnone
    · exact absurd hreuse.1 (not_or.mpr hother)
    · rw [hnext] at hu
      exact Option.some.inj hu ▸ ht
  have htakes : s.xTaskHandle = false ∧ s.thread.atWork = false → ∀ u : NotifyThread,
      (e = .create ∨ e = .free) → (s.thread = .absent → u.Sound) →
      s.next e = (if s.thread = .absent then some u else none) →
      (s.next e = none ↔ s.Reuses e) ∧ ∀ t, s.next e = some t → t.Sound := by
    rintro ⟨-, hwork⟩ u htakes hu hnext
    rw [hnext]
    by_cases hgone : s.thread = .absent
    · rw [if_pos hgone]
      refine ⟨⟨nofun, fun hreuse => ?_⟩, fun t ht => Option.some.inj ht ▸ hu hgone⟩
      obtain ⟨-, hpc | hpc⟩ := hreuse <;> rw [hgone] at hpc <;> cases hpc
    · rw [if_neg hgone]
      refine ⟨⟨fun _ => ⟨htakes, ?_⟩, fun _ => rfl⟩, nofun⟩
      cases hpc : s.thread with
      | absent => exact absurd hpc hgone
      | ending => exact .inl rfl
      | deleted => exact .inr rfl
      | _ => rw [hpc] at hwork; cases hwork
  have hmoves : e.ofThread = true ∨ e = .cleanUp → (e ≠ .create ∧ e ≠ .free) →
      (s.next e = none ↔ s.Reuses e) ∧ ∀ t, s.next e = some t → t.Sound := by
    intro hthread hother
    obtain ⟨t, hnext, ht⟩ := h.thread (hsched hthread) hthread he
    exact hgoes hnext ht hother
  cases e with
  | stop op =>
    have howner : s.owner = .outside := he
    exact hgoes rfl (h.handle (.inl howner)) ⟨nofun, nofun⟩
  | test op => exact hgoes rfl (h.test he) ⟨nofun, nofun⟩
  | ask op => exact hgoes (h.ask he).1 (h.ask he).2 ⟨nofun, nofun⟩
  | notify op =>
    have howner : s.owner = .notifying op := he
    rw [Sound, howner] at h
    refine hgoes (if_pos h.1) ⟨h.1.trans h.2.symm, fun v hv => ?_⟩ ⟨nofun, nofun⟩
    exact (Option.some.inj hv).symm
  | delay op =>
    exact hgoes rfl (h.handle (.inr ⟨op, he⟩)) ⟨nofun, nofun⟩
  | close =>
    have howner : s.owner = .stopped .close := he
    rw [Sound, howner] at h
    exact hgoes rfl (h.1.trans h.2.symm) ⟨nofun, nofun⟩
  | create =>
    have howner : s.owner = .stopped .create := he
    rw [Sound, howner] at h
    exact htakes h { s with thread := .clearing, ulNotifyValue := none, owner := .created }
      (.inl rfl) (fun _ => ⟨h.1, rfl⟩) rfl
  | assign =>
    have howner : s.owner = .created := he
    rw [Sound, howner] at h
    refine hgoes rfl ?_ ⟨nofun, nofun⟩
    have hwork : s.thread.atWork = true := by rw [h.2]; rfl
    exact hwork.symm
  | free =>
    have howner : s.owner = .stopped .free := he
    rw [Sound, howner] at h
    exact htakes h { s with owner := .freed } (.inr rfl) (fun hgone => ⟨h.1, hgone⟩) rfl
  | recv =>
    have howner : s.owner = .outside := he
    have hwork := h.handle (.inl howner)
    refine hgoes rfl ?_ ⟨nofun, nofun⟩
    rw [Sound]
    cases hhandle : s.xTaskHandle with
    | true => exact ⟨rfl, hwork.symm.trans hhandle⟩
    | false => exact hhandle.symm.trans hwork
  | wake =>
    have howner : s.owner = .waking := he
    rw [Sound, howner] at h
    exact hgoes (if_pos h.1) (h.1.trans h.2.symm) ⟨nofun, nofun⟩
  | clear => exact hmoves (.inl rfl) ⟨nofun, nofun⟩
  | select lRslt xReadSet xErrorSet => exact hmoves (.inl rfl) ⟨nofun, nofun⟩
  | callback => exact hmoves (.inl rfl) ⟨nofun, nofun⟩
  | wait => exact hmoves (.inl rfl) ⟨nofun, nofun⟩
  | forget => exact hmoves (.inl rfl) ⟨nofun, nofun⟩
  | delete => exact hmoves (.inl rfl) ⟨nofun, nofun⟩
  | cleanUp => exact hmoves (.inr rfl) ⟨nofun, nofun⟩

theorem Sound.step (h : s.Sound) (hs : s.Step e t) : t.Sound :=
  (h.next hs.1 hs.2.1).2 t hs.2.2

theorem InStop.ne_outside (h : s.InStop) : s.owner ≠ .outside := by
  obtain h | h | h | h | h := h <;> rw [h] <;> exact nofun

/-- A thread that steps during the call has been told to stop. -/
theorem InStop.told (h : s.Sound) (hstop : s.InStop) (hb : s.Blocked) :
    ∀ ulValue ∈ s.ulNotifyValue, ulValue = 0xFFFFFFFF := by
  obtain hb | ⟨op, hb⟩ := hb
  · exact absurd hb hstop.ne_outside
  · rw [Sound, hb] at h
    exact h.2

theorem InStop.of_owner (h : s.InStop) (howner : t.owner = s.owner) : t.InStop := by
  obtain h | h | h | h | h := h
  · exact .testing (howner.trans h)
  · exact .asking (howner.trans h)
  · exact .notifying (howner.trans h)
  · exact .delaying (howner.trans h)
  · exact .stopped (howner.trans h)

theorem remaining_afterSelect (lRslt : Int) (xReadSet xErrorSet : Bool) :
    (afterSelect lRslt xReadSet xErrorSet).remaining ≤ 4 ∧
      (afterSelect lRslt xReadSet xErrorSet).callsLeft ≤ 1 := by
  unfold afterSelect
  split_ifs <;> decide

/-- Each step of a thread that was told to stop is one less that it has before it. -/
theorem InStop.thread (h : s.Sound) (hstop : s.InStop) (hb : s.Blocked)
    (hthread : e.ofThread = true ∨ e = .cleanUp) (he : s.Enabled e) (hnext : s.next e = some t) :
    t.InStop ∧ e.ofThread.toNat + t.thread.remaining ≤ s.thread.remaining ∧
      t.calls + t.thread.callsLeft ≤ s.calls + s.thread.callsLeft := by
  have htold := hstop.told h hb
  cases e with
  | clear =>
    have hpc : s.thread = .clearing := he
    obtain rfl := Option.some.inj hnext
    rw [hpc]
    exact ⟨hstop.of_owner rfl, Nat.le_refl _, Nat.le_refl _⟩
  | select lRslt xReadSet xErrorSet =>
    have hpc : s.thread = .selecting := he
    obtain rfl := Option.some.inj hnext
    obtain ⟨hsteps, hcalls⟩ := remaining_afterSelect lRslt xReadSet xErrorSet
    rw [hpc]
    exact ⟨hstop.of_owner rfl, Nat.add_le_add_left hsteps 1, Nat.add_le_add_left hcalls s.calls⟩
  | callback =>
    have hpc : s.thread = .calling := he
    obtain rfl := Option.some.inj hnext
    rw [hpc]
    exact ⟨hstop.of_owner rfl, Nat.le_refl _, Nat.le_refl _⟩
  | wait =>
    obtain ⟨xExitFlag, hpc, hvalue⟩ := he
    obtain ⟨ulNotifyValue, hvalue⟩ := Option.ne_none_iff_exists'.mp hvalue
    obtain rfl : ulNotifyValue = 0xFFFFFFFF := htold _ hvalue
    simp only [NotifyThread.next, hpc, hvalue] at hnext
    obtain rfl := Option.some.inj hnext
    rw [hpc]
    have hleaves : afterWait xExitFlag 0xFFFFFFFF = .leaving := by simp [afterWait]
    rw [hleaves]
    exact ⟨hstop.of_owner rfl, Nat.le_refl _, Nat.le_refl _⟩
  | forget =>
    have hpc : s.thread = .leaving := he
    obtain rfl := Option.some.inj hnext
    rw [hpc]
    exact ⟨hstop.of_owner rfl, Nat.le_refl _, Nat.le_refl _⟩
  | delete =>
    have hpc : s.thread = .ending := he
    obtain rfl := Option.some.inj hnext
    rw [hpc]
    exact ⟨hstop.of_owner rfl, Nat.le_refl _, Nat.le_refl _⟩
  | cleanUp =>
    have hpc : s.thread = .deleted := he
    obtain rfl := Option.some.inj hnext
    rw [hpc]
    exact ⟨hstop.of_owner rfl, Nat.le_refl _, Nat.le_refl _⟩
  | _ => simp [NotifyEvent.ofThread] at hthread

theorem InStop.step (h : s.Sound) (hstop : s.InStop) (hs : s.StopStep e t) :
    t.InStop ∧ e.ofThread.toNat + t.thread.remaining ≤ s.thread.remaining ∧
      t.calls + t.thread.callsLeft ≤ s.calls + s.thread.callsLeft := by
  obtain ⟨hstay, he, hsched, hnext⟩ := hs
  by_cases hthread : e.ofThread = true ∨ e = .cleanUp
  · exact hstop.thread h (hsched hthread) hthread he hnext
  have hsame : t.InStop → t.thread = s.thread → t.calls = s.calls →
      t.InStop ∧ e.ofThread.toNat + t.thread.remaining ≤ s.thread.remaining ∧
        t.calls + t.thread.callsLeft ≤ s.calls + s.thread.callsLeft := by
    intro ht hpc hcalls
    have hnot : e.ofThread = false := Bool.eq_false_iff.mpr fun hof => hthread (.inl hof)
    rw [hpc, hcalls, hnot]
    exact ⟨ht, Nat.le_of_eq (Nat.zero_add _), Nat.le_refl _⟩
  cases e with
  | stop op => exact absurd he hstop.ne_outside
  | test op =>
    obtain rfl := Option.some.inj hnext
    refine hsame ?_ rfl rfl
    cases hhandle : s.xTaskHandle with
    | true => exact .asking rfl
    | false => exact .stopped rfl
  | ask op =>
    rw [(h.ask he).1] at hnext
    obtain rfl := Option.some.inj hnext
    exact hsame (.notifying rfl) rfl rfl
  | notify op =>
    have howner : s.owner = .notifying op := he
    rw [Sound, howner] at h
    have hgoes : s.next (.notify op) =
        some { s with ulNotifyValue := some 0xFFFFFFFF, owner := .delaying op } := if_pos h.1
    obtain rfl := Option.some.inj (hgoes.symm.trans hnext)
    exact hsame (.delaying rfl) rfl rfl
  | delay op =>
    obtain rfl := Option.some.inj hnext
    exact hsame (.testing rfl) rfl rfl
  | assign =>
    have howner : s.owner = .created := he
    obtain h | h | h | h | h := hstop <;> rw [howner] at h <;> cases h
  | recv => exact absurd he hstop.ne_outside
  | wake =>
    have howner : s.owner = .waking := he
    obtain h | h | h | h | h := hstop <;> rw [howner] at h <;> cases h
  | close => cases hstay
  | create => cases hstay
  | free => cases hstay
  | cleanUp => exact absurd (.inr rfl) hthread
  | _ => exact absurd (.inl rfl) hthread

theorem scheduled_of_agent (hagent : e.ofThread = false) (hne : e ≠ .cleanUp) :
    s.Scheduled e := by
  rintro (hthread | hclean)
  · rw [hagent] at hthread
    cases hthread
  · exact absurd hclean hne

theorem owner_of_thread (hthread : e.ofThread = true ∨ e = .cleanUp) (hnext : s.next e = some t) :
    t.owner = s.owner := by
  cases e with
  | wait =>
    simp only [NotifyThread.next] at hnext
    split at hnext <;> exact Option.some.inj hnext ▸ rfl
  | clear => exact Option.some.inj hnext ▸ rfl
  | select lRslt xReadSet xErrorSet => exact Option.some.inj hnext ▸ rfl
  | callback => exact Option.some.inj hnext ▸ rfl
  | forget => exact Option.some.inj hnext ▸ rfl
  | delete => exact Option.some.inj hnext ▸ rfl
  | cleanUp => exact Option.some.inj hnext ▸ rfl
  | _ => simp [NotifyEvent.ofThread] at hthread

/-- One pass of the loop and one step of the thread. -/
theorem Sound.round (h : s.Sound) (howner : s.owner = .testing op)
    (hhandle : s.xTaskHandle = true) :
    ∃ es t, Run StopStep s es t ∧ t.Sound ∧ t.owner = .testing op ∧
      t.thread.remaining < s.thread.remaining := by
  have hwork : s.thread.atWork = true := by
    rw [Sound, howner] at h
    exact h.symm.trans hhandle
  let asking : NotifyThread := { s with owner := .asking op }
  let notifying : NotifyThread := { s with owner := .notifying op }
  let told : NotifyThread := { s with ulNotifyValue := some 0xFFFFFFFF, owner := .delaying op }
  have htest : s.StopStep (.test op) asking :=
    ⟨rfl, howner, scheduled_of_agent rfl nofun, by simp [NotifyThread.next, hhandle, asking]⟩
  have hasked : asking.Sound := ⟨hhandle, hwork⟩
  have hask : asking.StopStep (.ask op) notifying :=
    ⟨rfl, rfl, scheduled_of_agent rfl nofun, (hasked.ask rfl).1⟩
  have hnotify : notifying.StopStep (.notify op) told :=
    ⟨rfl, rfl, scheduled_of_agent rfl nofun, if_pos hhandle⟩
  have htold : told.Sound := ⟨hhandle.trans hwork.symm, fun v hv => (Option.some.inj hv).symm⟩
  have hstep : ∃ e, e.ofThread = true ∧ told.Enabled e := by
    cases hpc : s.thread with
    | clearing => exact ⟨.clear, rfl, hpc⟩
    | selecting => exact ⟨.select 1 true false, rfl, hpc⟩
    | calling => exact ⟨.callback, rfl, hpc⟩
    | waiting xExitFlag => exact ⟨.wait, rfl, xExitFlag, hpc, nofun⟩
    | leaving => exact ⟨.forget, rfl, hpc⟩
    | _ => rw [hpc] at hwork; cases hwork
  obtain ⟨e, hof, he⟩ := hstep
  have hblocked : told.Blocked := .inr ⟨op, rfl⟩
  obtain ⟨u, hnext, hu⟩ := htold.thread hblocked (.inl hof) he
  have hstay : e.goesOn = false := by
    cases e <;> first | rfl | cases hof
  have hthread : told.StopStep e u := ⟨hstay, he, fun _ => hblocked, hnext⟩
  obtain ⟨-, hless, -⟩ := InStop.step htold (.delaying rfl) hthread
  rw [hof] at hless
  have howner' : u.owner = .delaying op := owner_of_thread (.inl hof) hnext
  have hdelay : u.StopStep (.delay op) { u with owner := .testing op } :=
    ⟨rfl, howner', scheduled_of_agent rfl nofun, rfl⟩
  refine ⟨_, _, .cons htest (.cons hask (.cons hnotify (.cons hthread (.single hdelay)))),
    hu.step hdelay.2, rfl, ?_⟩
  have hsteps : 1 + u.thread.remaining ≤ s.thread.remaining := hless
  exact Nat.lt_of_lt_of_le (Nat.lt_add_of_pos_left Nat.one_pos) hsteps

/-- From the top of the loop, as long as `sock_select` returns. -/
theorem Sound.comesBack (h : s.Sound) (howner : s.owner = .testing op) :
    ∃ es t, Run StopStep s es t ∧ t.owner = .stopped op := by
  induction hn : s.thread.remaining using Nat.strongRecOn generalizing s with
  | _ n ih =>
    cases hhandle : s.xTaskHandle with
    | false =>
      refine ⟨[.test op], { s with owner := .stopped op }, .single ?_, rfl⟩
      exact ⟨rfl, howner, scheduled_of_agent rfl nofun, by simp [NotifyThread.next, hhandle]⟩
    | true =>
      obtain ⟨es, u, hround, hu, huowner, hless⟩ := h.round howner hhandle
      obtain ⟨es', t, hrest, ht⟩ := ih _ (hn ▸ hless) hu huowner rfl
      exact ⟨es ++ es', t, hround.append hrest, ht⟩

theorem InStop.comesBack (h : s.Sound) (hstop : s.InStop) :
    ∃ es t op, Run StopStep s es t ∧ t.owner = .stopped op := by
  have hdelay : ∀ {u : NotifyThread} {op}, u.Sound → u.owner = .delaying op →
      ∃ es t op, Run StopStep u es t ∧ t.owner = .stopped op := by
    intro u op hu howner
    have hs : u.StopStep (.delay op) { u with owner := .testing op } :=
      ⟨rfl, howner, scheduled_of_agent rfl nofun, rfl⟩
    obtain ⟨es, t, hrun, ht⟩ := (hu.step hs.2).comesBack rfl
    exact ⟨_, t, op, .cons hs hrun, ht⟩
  have hnotify : ∀ {u : NotifyThread} {op}, u.Sound → u.owner = .notifying op →
      ∃ es t op, Run StopStep u es t ∧ t.owner = .stopped op := by
    intro u op hu howner
    have hhandle : u.xTaskHandle = true := by
      rw [Sound, howner] at hu
      exact hu.1
    have hs : u.StopStep (.notify op)
        { u with ulNotifyValue := some 0xFFFFFFFF, owner := .delaying op } :=
      ⟨rfl, howner, scheduled_of_agent rfl nofun, if_pos hhandle⟩
    obtain ⟨es, t, op', hrun, ht⟩ := hdelay (hu.step hs.2) rfl
    exact ⟨_, t, op', .cons hs hrun, ht⟩
  obtain howner | @⟨op, howner⟩ | howner | howner | howner := hstop
  · obtain ⟨es, t, hrun, ht⟩ := h.comesBack howner
    exact ⟨es, t, _, hrun, ht⟩
  · obtain ⟨hnext, hu⟩ := h.ask howner
    have hs : s.StopStep (.ask op) { s with owner := .notifying op } :=
      ⟨rfl, howner, scheduled_of_agent rfl nofun, hnext⟩
    obtain ⟨es, t, op', hrun, ht⟩ := hnotify hu rfl
    exact ⟨_, t, op', .cons hs hrun, ht⟩
  · exact hnotify h howner
  · exact hdelay h howner
  · exact ⟨[], s, _, .refl s, howner⟩

/-- Without its handle, and until the next one is created, a thread does nothing but end. -/
theorem Sound.idle_step (h : s.Sound) (hgone : s.thread.atWork = false) (hne : e ≠ .create)
    (hs : s.Step e t) : t.thread.atWork = false ∧ t.calls = s.calls := by
  obtain ⟨he, hsched, hnext⟩ := hs
  have hnot : ∀ pc : SocketThread, pc.atWork = true → s.thread ≠ pc := by
    rintro pc hpc rfl
    rw [hgone] at hpc
    cases hpc
  cases e with
  | create => exact absurd rfl hne
  | clear => exact absurd he (hnot _ rfl)
  | select lRslt xReadSet xErrorSet => exact absurd he (hnot _ rfl)
  | callback => exact absurd he (hnot _ rfl)
  | wait =>
    obtain ⟨xExitFlag, hpc, -⟩ := he
    exact absurd hpc (hnot _ rfl)
  | forget => exact absurd he (hnot _ rfl)
  | delete => exact Option.some.inj hnext ▸ ⟨rfl, rfl⟩
  | cleanUp => exact Option.some.inj hnext ▸ ⟨rfl, rfl⟩
  | ask op =>
    rw [(h.ask he).1] at hnext
    exact Option.some.inj hnext ▸ ⟨hgone, rfl⟩
  | notify op =>
    simp only [NotifyThread.next, xTaskNotify, Option.ite_none_right_eq_some] at hnext
    exact Option.some.inj hnext.2 ▸ ⟨hgone, rfl⟩
  | wake =>
    simp only [NotifyThread.next, xTaskNotify, Option.ite_none_right_eq_some] at hnext
    exact Option.some.inj hnext.2 ▸ ⟨hgone, rfl⟩
  | free =>
    simp only [NotifyThread.next, Option.ite_none_right_eq_some] at hnext
    exact Option.some.inj hnext.2 ▸ ⟨hgone, rfl⟩
  | stop op => exact Option.some.inj hnext ▸ ⟨hgone, rfl⟩
  | test op => exact Option.some.inj hnext ▸ ⟨hgone, rfl⟩
  | delay op => exact Option.some.inj hnext ▸ ⟨hgone, rfl⟩
  | close => exact Option.some.inj hnext ▸ ⟨hgone, rfl⟩
  | assign => exact Option.some.inj hnext ▸ ⟨hgone, rfl⟩
  | recv => exact Option.some.inj hnext ▸ ⟨hgone, rfl⟩

theorem sound_run {es : List NotifyEvent} (h : Run Step init es s) : s.Sound :=
  h.invariant sound_init fun _ _ _ hu hs => hu.step hs

end steps

variable {s : NotifyThread} {es : List NotifyEvent}

/-- In every order of the agent's steps with those of the thread, a step goes wrong exactly when it
takes the stack of a thread that is gone for `vStopSocketNotifyTask` but not for the kernel; behind
that call no callback comes until the next thread is created. -/
theorem stop_run (h : Run Step init es s) :
    (∀ e, s.Enabled e → s.Scheduled e → (s.next e = none ↔ s.Reuses e)) ∧
      ∀ op, s.owner = .stopped op → ∀ es' t, Run (Guarded (fun _ e => e ≠ .create) Step) s es' t →
        t.thread.atWork = false ∧ t.calls = s.calls := by
  have hs := sound_run h
  refine ⟨fun e he hsched => (hs.next he hsched).1, fun op howner es' t hrun => ?_⟩
  have hgone : s.thread.atWork = false := by
    rw [Sound, howner] at hs
    exact hs.2
  have hboth : t.Sound ∧ t.thread.atWork = false ∧ t.calls = s.calls := by
    refine hrun.invariant
      (P := fun t => t.Sound ∧ t.thread.atWork = false ∧ t.calls = s.calls) ⟨hs, hgone, rfl⟩ ?_
    rintro u e v ⟨hu, hugone, hcalls⟩ ⟨hne, hstep⟩
    obtain ⟨hvgone, hvcalls⟩ := hu.idle_step hugone hne hstep
    exact ⟨hu.step hstep, hvgone, hvcalls.trans hcalls⟩
  exact hboth.2

private theorem selecting_run : Run Step init
    [.stop .create, .test .create, .create, .assign, .clear]
    ⟨true, .selecting, none, .outside, 0⟩ :=
  .cons ⟨rfl, scheduled_of_agent rfl nofun, rfl⟩ (.cons ⟨rfl, scheduled_of_agent rfl nofun, rfl⟩
    (.cons ⟨rfl, scheduled_of_agent rfl nofun, rfl⟩ (.cons
      ⟨rfl, scheduled_of_agent rfl nofun, rfl⟩ (.single ⟨rfl, fun _ => .inl rfl, rfl⟩))))

/-- The agent wakes up between `xTaskHandle = NULL` and `vTaskDelete`. -/
theorem stop_run_freed : (⟨false, .ending, none, .stopped .free, 1⟩ : NotifyThread).next .free =
    none := by
  have hrun : Run Step ⟨true, .selecting, none, .outside, 0⟩
      [.stop .free, .test .free, .ask .free, .notify .free, .select 1 true false, .callback, .wait,
        .forget, .delay .free, .test .free] ⟨false, .ending, none, .stopped .free, 1⟩ :=
    .cons ⟨rfl, scheduled_of_agent rfl nofun, rfl⟩ (.cons ⟨rfl, scheduled_of_agent rfl nofun, rfl⟩
      (.cons ⟨rfl, scheduled_of_agent rfl nofun, rfl⟩ (.cons
        ⟨rfl, scheduled_of_agent rfl nofun, rfl⟩ (.cons ⟨rfl, fun _ => .inr ⟨_, rfl⟩, rfl⟩ (.cons
          ⟨rfl, fun _ => .inr ⟨_, rfl⟩, rfl⟩ (.cons
            ⟨⟨false, rfl, nofun⟩, fun _ => .inr ⟨_, rfl⟩, rfl⟩
            (.cons ⟨rfl, fun _ => .inr ⟨_, rfl⟩, rfl⟩ (.cons
              ⟨rfl, scheduled_of_agent rfl nofun, rfl⟩ (.single
                ⟨rfl, scheduled_of_agent rfl nofun, rfl⟩)))))))))
  have hexact := (stop_run (selecting_run.append hrun)).1 .free rfl (scheduled_of_agent rfl nofun)
  exact hexact.mpr ⟨.inr rfl, .inl rfl⟩

/-- Once `vStopSocketNotifyTask` is called the thread takes six steps at most, one callback among
them, and the call can always come back. -/
theorem stop_bounded (h : Run Step init es s) (hstop : s.InStop) :
    (∀ es' t, Run StopStep s es' t →
      es'.countP NotifyEvent.ofThread ≤ 6 ∧ t.calls ≤ s.calls + 1 ∧ t.InStop) ∧
      ∃ es' t op, Run StopStep s es' t ∧ t.owner = .stopped op := by
  have hs := sound_run h
  refine ⟨fun es' t hrun => ?_, hstop.comesBack hs⟩
  have hsteps := hrun.countP_add_le (P := fun u => u.Sound ∧ u.InStop) NotifyEvent.ofThread
    (fun u => u.thread.remaining) ⟨hs, hstop⟩ ?_
  · have hcalls : t.InStop ∧ t.calls + t.thread.callsLeft ≤ s.calls + s.thread.callsLeft := by
      have hall := hrun.invariant (P := fun u => u.Sound ∧ u.InStop ∧
        u.calls + u.thread.callsLeft ≤ s.calls + s.thread.callsLeft)
        ⟨hs, hstop, Nat.le_refl _⟩ ?_
      · exact hall.2
      · rintro u e v ⟨hu, hustop, hle⟩ hstep
        obtain ⟨hv, -, hvle⟩ := hustop.step hu hstep
        exact ⟨hu.step hstep.2, hv, Nat.le_trans hvle hle⟩
    have hremaining : s.thread.remaining ≤ 6 := SocketThread.remaining_le s.thread
    have hleft : s.thread.callsLeft ≤ 1 := SocketThread.callsLeft_le s.thread
    exact ⟨by omega, by omega, hcalls.1⟩
  · rintro u e v ⟨hu, hustop⟩ hstep
    obtain ⟨hv, hless, -⟩ := hustop.step hu hstep
    exact ⟨⟨hu.step hstep.2, hv⟩, hless⟩

theorem stop_bounded_selecting : ∃ es t op,
    Run StopStep ⟨true, .selecting, none, .testing .close, 0⟩ es t ∧ t.owner = .stopped op := by
  have hcall : Run Step ⟨true, .selecting, none, .outside, 0⟩ [.stop .close]
      ⟨true, .selecting, none, .testing .close, 0⟩ :=
    .single ⟨rfl, scheduled_of_agent rfl nofun, rfl⟩
  exact (stop_bounded (selecting_run.append hcall) (.testing rfl)).2

end NotifyThread

end RenesasDemo.Tls
