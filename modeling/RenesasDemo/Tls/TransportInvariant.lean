import RenesasDemo.Tls.Transport

namespace RenesasDemo.Tls

def reaches : List AddressOutcome → Bool
  | [] => false
  | .otherFamily :: addresses => reaches addresses
  | .noSocket :: _ => false
  | .refused :: addresses => reaches addresses
  | .connected :: _ => true

def ConnectOutcome.Succeeds (o : ConnectOutcome) (ulRecvTimeoutMs : Nat) : Prop :=
  o.hostnameSet = true ∧ (∃ addresses, o.addresses = some addresses ∧ reaches addresses = true) ∧
    o.optionsStatus ulRecvTimeoutMs = .success

namespace Connection

/-- What the context owns is accounted for. -/
structure Owned (c : Connection) : Prop where
  notify : c.pxNotifyThreadCtx ≠ .uninitialised
  sockets : c.openSockets = c.xSockHandle.toList
  lost : c.lostThreads = []
  unharmed : c.closedInUse = false

/-- No thread runs. -/
structure Idle (c : Connection) : Prop extends Owned c where
  threads : c.pxNotifyThreadCtx.threads = []

/-- The context between two calls. -/
structure Tidy (c : Connection) : Prop extends Owned c where
  connected : c.xConnectionState = .connected ↔ c.xSockHandle ≠ none
  threads : ∀ x ∈ c.pxNotifyThreadCtx.threads, x ≠ none ∧ x = c.xSockHandle

variable {c : Connection}

theorem Idle.tidy (h : c.Idle)
    (hconnected : c.xConnectionState = .connected ↔ c.xSockHandle ≠ none) : c.Tidy := by
  refine ⟨h.toOwned, hconnected, ?_⟩
  intro x hx
  rw [h.threads] at hx
  cases hx

theorem Idle.threads_eq (h : c.Idle) : c.threads = [] := by
  rw [Connection.threads, h.threads, h.lost, List.append_nil]

theorem Owned.withState (h : c.Owned) (xConnectionState : ConnectionState) :
    { c with xConnectionState := xConnectionState }.Owned :=
  ⟨h.notify, h.sockets, h.lost, h.unharmed⟩

theorem Idle.withState (h : c.Idle) (xConnectionState : ConnectionState) :
    { c with xConnectionState := xConnectionState }.Idle :=
  ⟨h.toOwned.withState xConnectionState, h.threads⟩

theorem Owned.stopSocketNotifyTask (h : c.Owned) (notify : NotifyThreadCtx) :
    (c.stopSocketNotifyTask notify).Idle :=
  ⟨⟨nofun, h.sockets, h.lost, h.unharmed⟩, rfl⟩

theorem Owned.stopIfAny (h : c.Owned) : ∃ c1, c.stopIfAny = some c1 ∧ c1.Idle ∧
    c1.xConnectionState = c.xConnectionState ∧ c1.xSockHandle = c.xSockHandle := by
  cases hnotify : c.pxNotifyThreadCtx with
  | null =>
    refine ⟨c, by rw [Connection.stopIfAny, hnotify], ⟨h, ?_⟩, rfl, rfl⟩
    rw [hnotify]
    rfl
  | uninitialised => exact absurd hnotify h.notify
  | allocation notify =>
    exact ⟨_, by rw [Connection.stopIfAny, hnotify], h.stopSocketNotifyTask notify, rfl, rfl⟩

@[simp]
theorem closeSocket_xSockHandle (c : Connection) : c.closeSocket.xSockHandle = none := by
  cases hsocket : c.xSockHandle with
  | none => rw [closeSocket, hsocket, hsocket]
  | some h => rw [closeSocket, hsocket]

@[simp]
theorem closeSocket_xConnectionState (c : Connection) :
    c.closeSocket.xConnectionState = c.xConnectionState := by
  cases hsocket : c.xSockHandle with
  | none => rw [closeSocket, hsocket]
  | some h => rw [closeSocket, hsocket]

theorem Idle.closeSocket (h : c.Idle) : c.closeSocket.Idle := by
  cases hsocket : c.xSockHandle with
  | none =>
    have hclose : c.closeSocket = c := by rw [Connection.closeSocket, hsocket]
    rwa [hclose]
  | some x =>
    have hsockets : c.openSockets.erase x = [] := by
      rw [h.sockets, hsocket]
      simp
    have hunharmed : (c.closedInUse || c.threads.contains (some x)) = false := by
      rw [h.unharmed, h.threads_eq]
      rfl
    rw [Connection.closeSocket, hsocket]
    exact ⟨⟨h.notify, hsockets, h.lost, hunharmed⟩, h.threads⟩

theorem Idle.openSocket (h : c.Idle) (hclosed : c.xSockHandle = none) : c.openSocket.Idle := by
  have hsockets : c.openSocket.openSockets = [c.nextSocket] := by
    rw [Connection.openSocket, h.sockets, hclosed]
    rfl
  exact ⟨⟨h.notify, hsockets, h.lost, h.unharmed⟩, h.threads⟩

end Connection

/-- A connection attempt from a context without a socket and without a thread. -/
structure Attempted (r : TlsTransportStatus × Connection) : Prop where
  idle : r.2.Idle
  socket : r.1 = .success → r.2.xSockHandle ≠ none

theorem tryAddresses_attempted {c : Connection} (h : c.Idle) (hclosed : c.xSockHandle = none)
    (addresses : List AddressOutcome) : Attempted (tryAddresses c addresses) := by
  induction addresses generalizing c with
  | nil => exact ⟨h, nofun⟩
  | cons address addresses ih =>
    cases address with
    | otherFamily => exact ih h hclosed
    | noSocket =>
      have hsame : { c with xSockHandle := none } = c := by rw [← hclosed]
      rw [tryAddresses, hsame]
      exact ⟨h, nofun⟩
    | refused =>
      -- the socket of this address is closed again before the next is tried
      have hidle := (h.openSocket hclosed).closeSocket
      exact ih hidle c.openSocket.closeSocket_xSockHandle
    | connected => exact ⟨h.openSocket hclosed, fun _ => nofun⟩

theorem tryAddresses_xConnectionState (c : Connection) (addresses : List AddressOutcome) :
    (tryAddresses c addresses).2.xConnectionState = c.xConnectionState := by
  induction addresses generalizing c with
  | nil => rfl
  | cons address addresses ih =>
    cases address with
    | otherFamily => exact ih c
    | noSocket => rfl
    | refused =>
      exact (ih c.openSocket.closeSocket).trans c.openSocket.closeSocket_xConnectionState
    | connected => rfl

theorem tryAddresses_closedInUse {c : Connection} (h : c.closedInUse = true)
    (addresses : List AddressOutcome) : (tryAddresses c addresses).2.closedInUse = true := by
  induction addresses generalizing c with
  | nil => exact h
  | cons address addresses ih =>
    cases address with
    | otherFamily => exact ih h
    | noSocket => exact h
    | refused =>
      refine ih ?_
      show (c.closedInUse || _) = true
      rw [h, Bool.true_or]
    | connected => exact h

theorem tryAddresses_success (c : Connection) (addresses : List AddressOutcome) :
    (tryAddresses c addresses).1 = .success ↔ reaches addresses = true := by
  induction addresses generalizing c with
  | nil => exact ⟨nofun, nofun⟩
  | cons address addresses ih =>
    cases address with
    | otherFamily => exact ih c
    | noSocket => exact ⟨nofun, nofun⟩
    | refused => exact ih c.openSocket.closeSocket
    | connected => exact ⟨fun _ => rfl, fun _ => rfl⟩

/-- The context between two calls, or what it left. -/
def TlsTransport.Tidy (s : TlsTransport) : Prop :=
  match s.context with
  | none => s.resources.openSockets = [] ∧ s.resources.lostThreads = [] ∧
      s.resources.closedInUse = false
  | some context => Connection.Tidy ⟨context, s.resources⟩

/-- The call used no pointer that leads nowhere and left its context in order. -/
structure CallResult.Tidied (r : CallResult) : Prop where
  defined : r.ending ≠ .undefined
  tidy : r.transport.Tidy

namespace Connection

variable {c : Connection}

theorem Tidy.ends (h : c.Tidy) {ending : CallEnding} (hending : ending ≠ .undefined) :
    (c.ends ending).Tidied :=
  ⟨hending, h⟩

theorem Idle.attempt (h : c.Idle) (ulRecvTimeoutMs : Nat) (o : ConnectOutcome) :
    Attempted (c.attempt ulRecvTimeoutMs o) := by
  rw [Connection.attempt]
  split
  · have hconnect : Attempted (c.connectSocket o.addresses) := by
      cases o.addresses with
      | none => exact ⟨h.closeSocket, nofun⟩
      | some addresses =>
        exact tryAddresses_attempted h.closeSocket c.closeSocket_xSockHandle addresses
    dsimp only
    split
    · next hsuccess => exact ⟨hconnect.idle, fun _ => hconnect.socket hsuccess⟩
    · exact hconnect
  · exact ⟨h, nofun⟩

theorem attempt_xConnectionState (c : Connection) (ulRecvTimeoutMs : Nat) (o : ConnectOutcome) :
    (c.attempt ulRecvTimeoutMs o).2.xConnectionState = c.xConnectionState := by
  have hconnect : (c.connectSocket o.addresses).2.xConnectionState = c.xConnectionState := by
    cases o.addresses with
    | none => exact c.closeSocket_xConnectionState
    | some addresses =>
      exact (tryAddresses_xConnectionState c.closeSocket addresses).trans
        c.closeSocket_xConnectionState
  rw [attempt]
  split
  · dsimp only
    split <;> exact hconnect
  · rfl

theorem attempt_success (c : Connection) (ulRecvTimeoutMs : Nat) (o : ConnectOutcome) :
    (c.attempt ulRecvTimeoutMs o).1 = .success ↔ o.Succeeds ulRecvTimeoutMs := by
  rw [attempt, ConnectOutcome.Succeeds]
  have hconnect : (c.connectSocket o.addresses).1 = .success ↔
      ∃ addresses, o.addresses = some addresses ∧ reaches addresses = true := by
    cases o.addresses with
    | none => exact ⟨nofun, fun ⟨_, h, _⟩ => nomatch h⟩
    | some addresses =>
      rw [connectSocket, tryAddresses_success]
      simp
  split
  · next hhostname =>
    dsimp only
    split
    · next hsuccess =>
      have hreaches := hconnect.mp hsuccess
      exact ⟨fun h => ⟨hhostname, hreaches, h⟩, fun h => h.2.2⟩
    · next hfailed => exact ⟨fun h => absurd h hfailed, fun h => hconnect.mpr h.2.1⟩
  · next hhostname => exact ⟨nofun, fun h => absurd h.1 hhostname⟩

theorem Idle.closed (h : c.Idle) (hnot : c.xConnectionState ≠ .connected) :
    c.closeSocket.Tidy := by
  have hnot : c.closeSocket.xConnectionState ≠ .connected := by
    rwa [closeSocket_xConnectionState]
  exact h.closeSocket.tidy
    ⟨fun h => absurd h hnot, fun h => absurd c.closeSocket_xSockHandle h⟩

theorem Owned.createSocketNotifyTask (h : c.Owned) (hopen : c.xSockHandle ≠ none)
    (notify : NotifyThreadCtx) :
    { c.createSocketNotifyTask notify with xConnectionState := .connected }.Tidy := by
  rw [Connection.createSocketNotifyTask]
  split
  · refine ⟨⟨nofun, h.sockets, h.lost, h.unharmed⟩, ⟨fun _ => hopen, fun _ => rfl⟩, ?_⟩
    intro x hx
    obtain rfl : x = c.xSockHandle := by simpa [NotifyPointer.threads] using hx
    exact ⟨hopen, rfl⟩
  · exact ((h.stopSocketNotifyTask notify).withState .connected).tidy
      ⟨fun _ => hopen, fun _ => rfl⟩

theorem Idle.established (h : c.Idle) (hopen : c.xSockHandle ≠ none) : c.established.Tidied := by
  rw [Connection.established]
  split
  · exact ((h.withState .connected).tidy ⟨fun _ => hopen, fun _ => rfl⟩).ends nofun
  · next hnotify => exact absurd hnotify h.notify
  · next notify _ => exact (h.createSocketNotifyTask hopen notify).ends nofun

theorem finish_failed {xStatus : TlsTransportStatus} (h : xStatus ≠ .success) :
    finish (xStatus, c) = c.closeSocket.ends (.status xStatus) := by
  cases xStatus with
  | success => exact absurd rfl h
  | _ => rfl

theorem finish_success {r : TlsTransportStatus × Connection} (h : r.1 = .success) :
    finish r = r.2.established := by
  obtain ⟨xStatus, c1⟩ := r
  cases h
  rfl

theorem established_ending (c : Connection) :
    c.established.ending = .status .success ∨ c.established.ending = .undefined := by
  rw [Connection.established]
  split
  · exact .inl rfl
  · exact .inr rfl
  · exact .inl rfl

theorem established_closedInUse (c : Connection) :
    c.established.transport.resources.closedInUse = c.closedInUse := by
  rw [Connection.established]
  split
  · rfl
  · rfl
  · rw [createSocketNotifyTask]
    split <;> rfl

/-- The clean-up keeps the state, which is to be none of a connection. -/
theorem finish_tidied {r : TlsTransportStatus × Connection} (h : Attempted r)
    (hstate : r.1 = .success ∨ r.2.xConnectionState ≠ .connected) : (finish r).Tidied := by
  obtain ⟨xStatus, c1⟩ := r
  by_cases hsuccess : xStatus = .success
  · subst hsuccess
    exact h.idle.established (h.socket rfl)
  · rw [finish_failed hsuccess]
    exact (h.idle.closed (hstate.resolve_left hsuccess)).ends nofun

theorem Tidy.idle (h : c.Tidy) (hthreads : c.threads = []) : c.Idle :=
  ⟨h.toOwned, (List.append_eq_nil_iff.mp hthreads).1⟩

theorem Tidy.threads_eq (h : c.Tidy) (hstate : c.xConnectionState ≠ .connected) :
    c.threads = [] := by
  rw [Connection.threads, h.lost, List.append_nil, List.eq_nil_iff_forall_not_mem]
  intro x hx
  obtain ⟨hx, hsocket⟩ := h.threads x hx
  exact hstate (h.connected.mpr (hsocket ▸ hx))

theorem Owned.disconnect (h : c.Owned) : ∃ c1, c.disconnect = some c1 ∧ c1.Tidy ∧
    c1.xConnectionState ≠ .connected := by
  rw [Connection.disconnect]
  split
  · obtain ⟨c1, hstop, hidle, hstate, -⟩ := (h.withState .configured).stopIfAny
    have hnot : c1.xConnectionState ≠ .connected := by
      rw [hstate]
      nofun
    exact ⟨_, congrArg (Option.map _) hstop, hidle.closed hnot,
      c1.closeSocket_xConnectionState ▸ hnot⟩
  · next hstate0 =>
    obtain ⟨c1, hstop, hidle, hstate, -⟩ := h.stopIfAny
    have hnot : c1.xConnectionState ≠ .connected := hstate ▸ hstate0
    exact ⟨_, congrArg (Option.map _) hstop, hidle.closed hnot,
      c1.closeSocket_xConnectionState ▸ hnot⟩

theorem Tidy.configured (h : c.Tidy) (hstate : c.xConnectionState ≠ .connected) (done : Bool) :
    (c.configured done).Tidied := by
  rw [Connection.configured]
  split
  · have hidle := (h.idle (h.threads_eq hstate)).withState .configured
    have hclosed : c.xSockHandle = none :=
      not_not.mp fun hopen => hstate (h.connected.mpr hopen)
    exact (hidle.tidy ⟨nofun, fun hopen => absurd hclosed hopen⟩).ends nofun
  · exact h.ends nofun

theorem Tidy.configure (h : c.Tidy) (done : Bool) : (c.configure done).Tidied := by
  rw [Connection.configure]
  split
  · obtain ⟨c1, hdisconnect, htidy, hnot⟩ := h.disconnect
    rw [hdisconnect]
    exact htidy.configured hnot done
  · next hstate => exact h.configured hstate done

theorem Tidy.setCallback (h : c.Tidy) (notify : NotifyThreadCtx)
    (hthreads : ∀ x ∈ notify.xTaskHandle, x ≠ none ∧ x = c.xSockHandle) :
    (c.setCallback notify).Tidied := by
  rw [Connection.setCallback]
  split
  · next hstate =>
    have hcreate := h.createSocketNotifyTask (h.connected.mp hstate)
      { notify with pxRecvReadyCallback := true }
    rw [← hstate] at hcreate
    exact Tidy.ends hcreate nofun
  · have hset : { c with
        pxNotifyThreadCtx := .allocation { notify with pxRecvReadyCallback := true } }.Tidy := by
      refine ⟨⟨nofun, h.sockets, h.lost, h.unharmed⟩, h.connected, ?_⟩
      intro x hx
      exact hthreads x (by simpa [NotifyPointer.threads] using hx)
    exact hset.ends nofun

theorem Tidy.setrecvcallback (h : c.Tidy) (allocated : Bool) :
    (c.setrecvcallback allocated).Tidied := by
  rw [Connection.setrecvcallback]
  split
  · split
    · exact h.setCallback ⟨none, true⟩ nofun
    · exact h.ends nofun
  · next hnotify => exact absurd hnotify h.notify
  · next notify hnotify =>
    refine h.setCallback notify ?_
    intro x hx
    refine h.threads x ?_
    rw [hnotify, NotifyPointer.threads]
    simpa using hx

theorem Tidy.peerClosed (h : c.Tidy) (hstate : c.xConnectionState = .connected) :
    c.peerClosed.Tidied := by
  have hopen := h.connected.mp hstate
  obtain ⟨c1, hstop, hidle, hstate1, -⟩ := (h.withState .configured).stopIfAny
  have hnot : c1.xConnectionState ≠ .connected := by
    rw [hstate1]
    nofun
  rw [Connection.peerClosed]
  rw [if_neg hopen, hstop]
  exact (hidle.closed hnot).ends nofun

theorem configure_touches (c : Connection) (done : Bool) : (c.configure done).touches = true := by
  have hconfigured (c : Connection) : (c.configured done).touches = true := by
    rw [Connection.configured]
    split <;> rfl
  rw [Connection.configure]
  split
  · split
    · rfl
    · exact hconfigured _
  · exact hconfigured c

theorem Tidy.transfer (h : c.Tidy) {done : Nat → CallResult} (hdone : ∀ n, (done n).Tidied)
    {pBuffer : Bool} (hbuffer : c.xConnectionState = .connected → pBuffer = true)
    (tlsStatus : TlsStatus) : (c.transfer done pBuffer tlsStatus).Tidied := by
  rw [Connection.transfer]
  split
  · next hstate =>
    rw [if_pos (hbuffer hstate)]
    cases tlsStatus with
    | bytes n => exact hdone n
    | closed => exact h.peerClosed hstate
    | _ => exact h.ends nofun
  · exact hdone 0

theorem Tidy.notifyRead (h : c.Tidy) (n : Nat) : (c.notifyRead n).Tidied := by
  rw [Connection.notifyRead]
  split
  · next hnotify => exact absurd hnotify h.notify
  · exact h.ends nofun
  · exact h.ends nofun

/-- The arguments are accepted; on a connection no thread runs, and the attempt succeeds. -/
def Connectable (c : Connection) (cfg : TransportConfig) (pcHostName : Option (List UInt8))
    (usPort ulRecvTimeoutMs : Nat) (o : ConnectOutcome) : Prop :=
  (∃ hostName, pcHostName = some hostName ∧ hostName.length ≤ cfg.maxHostNameLen) ∧ usPort ≠ 0 ∧
    (c.xConnectionState = .connected → c.threads = [] ∧ o.Succeeds ulRecvTimeoutMs)

theorem Tidy.connect (h : c.Tidy) {cfg : TransportConfig} {pcHostName : Option (List UInt8)}
    {usPort ulRecvTimeoutMs : Nat} {o : ConnectOutcome}
    (hok : c.Connectable cfg pcHostName usPort ulRecvTimeoutMs o) :
    (c.connect cfg pcHostName usPort ulRecvTimeoutMs o).Tidied := by
  obtain ⟨⟨hostName, rfl, hlength⟩, hport, hconnected⟩ := hok
  -- a thread runs on a connection only, and the condition excludes it there
  have hidle : c.Idle := by
    by_cases hstate : c.xConnectionState = .connected
    · exact h.idle (hconnected hstate).1
    · exact h.idle (h.threads_eq hstate)
  have hsuccess : (c.attempt ulRecvTimeoutMs o).1 = .success ∨
      (c.attempt ulRecvTimeoutMs o).2.xConnectionState ≠ .connected := by
    rw [attempt_xConnectionState]
    by_cases hstate : c.xConnectionState = .connected
    · exact .inl ((c.attempt_success ulRecvTimeoutMs o).mpr (hconnected hstate).2)
    · exact .inr hstate
  rw [Connection.connect]
  rw [if_neg (Nat.not_lt.mpr hlength), if_neg hport]
  exact finish_tidied (hidle.attempt ulRecvTimeoutMs o) hsuccess

/-- Arguments that are not accepted lead to NULL. -/
theorem connect_accepted {cfg : TransportConfig} {pcHostName : Option (List UInt8)}
    {usPort ulRecvTimeoutMs : Nat} {o : ConnectOutcome}
    (h : (c.connect cfg pcHostName usPort ulRecvTimeoutMs o).ending ≠ .undefined) :
    (∃ hostName, pcHostName = some hostName ∧ hostName.length ≤ cfg.maxHostNameLen) ∧
      usPort ≠ 0 ∧ c.connect cfg pcHostName usPort ulRecvTimeoutMs o =
        finish (c.attempt ulRecvTimeoutMs o) := by
  cases pcHostName with
  | none => exact absurd rfl h
  | some hostName =>
    rw [Connection.connect] at h ⊢
    by_cases hlength : cfg.maxHostNameLen < hostName.length
    · rw [if_pos hlength] at h
      exact absurd rfl h
    by_cases hport : usPort = 0
    · rw [if_neg hlength, if_pos hport] at h
      exact absurd rfl h
    rw [if_neg hlength, if_neg hport]
    exact ⟨⟨hostName, rfl, Nat.not_lt.mp hlength⟩, hport, rfl⟩

/-- A connect that fails has no socket. -/
theorem finish_closed {r : TlsTransportStatus × Connection} {xStatus : TlsTransportStatus}
    (h : (finish r).ending = .status xStatus) (hfailed : xStatus ≠ .success) :
    ∃ c1 : Connection, c1.xSockHandle = none ∧ (finish r).transport = c1.transport := by
  obtain ⟨xStatus1, c1⟩ := r
  by_cases hsuccess : xStatus1 = .success
  · subst hsuccess
    obtain hstatus | hundefined := c1.established_ending
    · rw [finish, hstatus] at h
      cases h
      exact absurd rfl hfailed
    · rw [finish, hundefined] at h
      cases h
  · rw [finish_failed hsuccess]
    exact ⟨c1.closeSocket, c1.closeSocket_xSockHandle, rfl⟩

theorem closeSocket_closedInUse (h : c.closeSocket.closedInUse = false)
    (hthreads : ∀ x ∈ c.threads, x ≠ none ∧ x = c.xSockHandle) : c.threads = [] := by
  rw [List.eq_nil_iff_forall_not_mem]
  intro x hx
  obtain ⟨hsome, hsocket⟩ := hthreads x hx
  cases x with
  | none => exact hsome rfl
  | some y =>
    rw [closeSocket, ← hsocket] at h
    have hin : c.threads.contains (some y) = true := List.contains_iff_mem.mpr hx
    have h : (c.closedInUse || c.threads.contains (some y)) = false := h
    rw [hin, Bool.or_true] at h
    cases h

theorem attempt_closedInUse {ulRecvTimeoutMs : Nat} {o : ConnectOutcome}
    (hsuccess : (c.attempt ulRecvTimeoutMs o).1 = .success)
    (h : (c.attempt ulRecvTimeoutMs o).2.closedInUse = false) :
    c.closeSocket.closedInUse = false := by
  obtain ⟨hhostname, ⟨addresses, haddresses, hreaches⟩, -⟩ :=
    (c.attempt_success ulRecvTimeoutMs o).mp hsuccess
  rw [attempt, if_pos hhostname, haddresses] at h
  have hconnect : (c.connectSocket (some addresses)).1 = .success :=
    (tryAddresses_success c.closeSocket addresses).mpr hreaches
  dsimp only at h
  rw [if_pos hconnect] at h
  by_contra hused
  rw [Bool.not_eq_false] at hused
  have hstays := tryAddresses_closedInUse hused addresses
  rw [connectSocket, hstays] at h
  cases h

/-- On a connection, the clean-up of a failed attempt and a thread that runs show. -/
theorem Tidy.connectable (h : c.Tidy) {cfg : TransportConfig} {pcHostName : Option (List UInt8)}
    {usPort ulRecvTimeoutMs : Nat} {o : ConnectOutcome} {r : CallResult}
    (hr : c.connect cfg pcHostName usPort ulRecvTimeoutMs o = r) (hdefined : r.ending ≠ .undefined)
    (hfailed : ∀ xStatus, r.ending = .status xStatus → xStatus ≠ .success →
      ∀ c1, r.transport.context = some c1 → c1.xConnectionState ≠ .connected)
    (hunharmed : r.transport.resources.closedInUse = false) :
    c.Connectable cfg pcHostName usPort ulRecvTimeoutMs o := by
  subst hr
  obtain ⟨hhost, hport, hfinish⟩ := connect_accepted hdefined
  rw [hfinish] at hfailed hunharmed
  refine ⟨hhost, hport, fun hstate => ?_⟩
  -- the clean-up would leave the context connected
  have hsuccess : (c.attempt ulRecvTimeoutMs o).1 = .success := by
    by_contra hnot
    rw [finish_failed hnot] at hfailed
    refine hfailed _ rfl hnot _ rfl ?_
    exact (closeSocket_xConnectionState _).trans
      ((c.attempt_xConnectionState ulRecvTimeoutMs o).trans hstate)
  -- the old socket was closed while nobody used it
  have hattempt : (c.attempt ulRecvTimeoutMs o).2.closedInUse = false := by
    rw [← (c.attempt ulRecvTimeoutMs o).2.established_closedInUse, ← finish_success hsuccess]
    exact hunharmed
  refine ⟨closeSocket_closedInUse (attempt_closedInUse hsuccess hattempt) ?_,
    (c.attempt_success ulRecvTimeoutMs o).mp hsuccess⟩
  intro x hx
  rw [Connection.threads, h.lost, List.append_nil] at hx
  exact h.threads x hx

end Connection

end RenesasDemo.Tls
