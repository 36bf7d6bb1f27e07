import RenesasDemo.Framework.Runs
import RenesasDemo.Tls.TransportInvariant

namespace RenesasDemo.Tls

open Framework

namespace TlsTransport

def threads (s : TlsTransport) : List (Option Nat) :=
  (s.context.map fun context => context.pxNotifyThreadCtx.threads).getD [] ++
    s.resources.lostThreads

/-- What the context and its surroundings look like between two calls. -/
structure Good (s : TlsTransport) : Prop where
  connected : ∀ c, s.context = some c → c.xConnectionState = .connected →
    ∃ h ∈ s.resources.openSockets, c.xSockHandle = some h
  /-- No socket is lost. -/
  owned : ∀ h ∈ s.resources.openSockets, ∃ c, s.context = some c ∧ c.xSockHandle = some h
  single : s.resources.openSockets.length ≤ 1
  notify : ∀ c, s.context = some c → c.pxNotifyThreadCtx ≠ .uninitialised
  threads : ∀ h, some h ∈ s.threads → h ∈ s.resources.openSockets
  /-- No socket was closed before the thread that referred to it had ended. -/
  unharmed : s.resources.closedInUse = false

section calls

variable (cfg : TransportConfig) (s : TlsTransport)

/-- The call is one that the code rejects for a NULL argument. -/
def Rejects : TransportEvent → Prop
  | .allocate _ _ => False
  | .configure given pxPrivateKey pxClientCert pxRootCaCerts _ _ =>
      s.pxNetworkContext given = none ∨ pxPrivateKey ≠ pxClientCert ∨ pxRootCaCerts = false
  | .setrecvcallback given pxCallback _ _ =>
      s.pxNetworkContext given = none ∨ pxCallback = false
  | .connect given pcHostName _ _ _ => s.pxNetworkContext given = none ∨ pcHostName = none
  | .recv given pBuffer _ _ =>
      cfg.ndebug = false ∧ (s.pxNetworkContext given = none ∨ pBuffer = false)
  | .send given pBuffer _ _ =>
      cfg.ndebug = false ∧ (s.pxNetworkContext given = none ∨ pBuffer = false)
  | .disconnect given => s.pxNetworkContext given = none
  | .free given => s.pxNetworkContext given = none
  | .threadEnds _ => False

/-- The call is a failed `mbedtls_transport_connect`. -/
def FailedConnect : TransportEvent → CallEnding → Prop
  | .connect _ _ _ _ _, .status xStatus => xStatus ≠ .success
  | _, _ => False

structure Sound (e : TransportEvent) : Prop where
  defined : (s.call cfg e).ending ≠ .undefined
  rejected : s.Rejects cfg e → (s.call cfg e).touches = false
  failed : FailedConnect e (s.call cfg e).ending →
    ∀ c, (s.next cfg e).context = some c → c.xConnectionState ≠ .connected ∧ c.xSockHandle = none
  good : (s.next cfg e).Good

/-- The context and the buffer are there where no assertion looks at them. -/
def TransferOk (given pBuffer : Bool) : Prop :=
  cfg.ndebug = true → ∃ c, s.pxNetworkContext given = some c ∧
    (c.xConnectionState = .connected → pBuffer = true)

/-- The condition on the state and the arguments and outcomes of a call. -/
def StepOk : TransportEvent → Prop
  | .allocate allocated nullField => s.context = none → allocated = true → nullField = true
  | .configure given pxPrivateKey pxClientCert pxRootCaCerts _ _ =>
      s.pxNetworkContext given ≠ none ∧ pxPrivateKey = pxClientCert ∧ pxRootCaCerts = true
  | .setrecvcallback given pxCallback allocated _ =>
      s.pxNetworkContext given = none ∨ pxCallback = false → allocated = false
  | .connect given pcHostName usPort ulRecvTimeoutMs outcome =>
      (s.pxNetworkContext given = none → cfg.ndebug = false) ∧
        ∀ c, s.pxNetworkContext given = some c →
          c.Connectable cfg pcHostName usPort ulRecvTimeoutMs outcome
  | .recv given pBuffer _ _ => s.TransferOk cfg given pBuffer
  | .send given pBuffer _ _ => s.TransferOk cfg given pBuffer
  | .disconnect _ => True
  | .free _ => True
  | .threadEnds _ => True

end calls

variable {cfg : TransportConfig} {s : TlsTransport} {e : TransportEvent} {c : Connection}

theorem eq_transport {given : Bool} (h : s.pxNetworkContext given = some c) :
    s = c.transport := by
  obtain ⟨context, resources⟩ := s
  cases given with
  | false => cases h
  | true =>
    cases context with
    | none => cases h
    | some context =>
      cases h
      rfl

theorem Tidy.connection (h : s.Tidy) {given : Bool} (hc : s.pxNetworkContext given = some c) :
    c.Tidy := by
  rw [eq_transport hc] at h
  exact h

/-- A context in order is all that can be seen. -/
theorem Tidy.good (h : s.Tidy) : s.Good := by
  obtain ⟨context, resources⟩ := s
  cases context with
  | none =>
    obtain ⟨hsockets, hlost, hunharmed⟩ := h
    refine ⟨nofun, ?_, ?_, nofun, ?_, hunharmed⟩
    · intro x hx
      rw [hsockets] at hx
      cases hx
    · rw [hsockets]
      exact Nat.zero_le _
    · intro x hx
      rw [threads, hlost] at hx
      cases hx
  | some context =>
    have h : Connection.Tidy ⟨context, resources⟩ := h
    have hmem : ∀ x, x ∈ resources.openSockets ↔ context.xSockHandle = some x := by
      intro x
      rw [h.sockets, Option.mem_toList]
    refine ⟨?_, ?_, ?_, ?_, ?_, h.unharmed⟩
    · intro c hc hstate
      cases hc
      obtain ⟨x, hx⟩ := Option.ne_none_iff_exists'.mp (h.connected.mp hstate)
      exact ⟨x, (hmem x).mpr hx, hx⟩
    · intro x hx
      exact ⟨context, rfl, (hmem x).mp hx⟩
    · rw [h.sockets]
      exact Option.length_toList_le
    · intro c hc
      cases hc
      exact h.notify
    · intro x hx
      rw [threads, h.lost, List.append_nil] at hx
      exact (hmem x).mpr (h.threads (some x) hx).2.symm

theorem Tidy.untouched (h : s.Tidy) {ending : CallEnding} (hending : ending ≠ .undefined) :
    (s.untouched ending).Tidied :=
  ⟨hending, h⟩

theorem Tidy.assertFails (h : s.Tidy) {otherwise : CallResult}
    (hotherwise : cfg.ndebug = true → otherwise.Tidied) :
    (s.assertFails cfg otherwise).Tidied := by
  rw [TlsTransport.assertFails]
  split
  · next hndebug => exact hotherwise hndebug
  · exact h.untouched nofun

theorem Tidy.allocate (h : s.Tidy) {allocated nullField : Bool}
    (hok : s.context = none → allocated = true → nullField = true) :
    (s.allocate allocated nullField).Tidied := by
  rw [TlsTransport.allocate]
  split
  · next hnew =>
    obtain ⟨hnone, hallocated⟩ := hnew
    rw [TlsTransport.Tidy, hnone] at h
    obtain ⟨hsockets, hlost, hunharmed⟩ := h
    rw [if_pos (hok hnone hallocated)]
    exact ⟨nofun, ⟨nofun, hsockets, hlost, hunharmed⟩, ⟨nofun, fun h => absurd rfl h⟩, nofun⟩
  · exact h.untouched nofun

theorem Tidy.transfer (h : s.Tidy) {given pBuffer : Bool} (hok : s.TransferOk cfg given pBuffer)
    (uxBytes : Nat) (tlsStatus : TlsStatus) {done : Connection → Nat → CallResult}
    (hdone : ∀ c, c.Tidy → ∀ n, (done c n).Tidied) :
    (s.transfer cfg given pBuffer uxBytes tlsStatus done).Tidied := by
  cases hc : s.pxNetworkContext given with
  | none =>
    rw [TlsTransport.transfer, hc]
    refine h.assertFails fun hndebug => ?_
    obtain ⟨c, hsome, -⟩ := hok hndebug
    rw [hc] at hsome
    cases hsome
  | some c =>
    have htidy := h.connection hc
    rw [TlsTransport.transfer, hc]
    dsimp only
    split
    · next hargs => exact htidy.transfer (hdone c htidy) (fun _ => hargs.1) tlsStatus
    · refine h.assertFails fun hndebug => ?_
      obtain ⟨c', hsome, hbuffer⟩ := hok hndebug
      rw [hc] at hsome
      cases hsome
      exact htidy.transfer (hdone c htidy) hbuffer tlsStatus

theorem Tidy.configure (h : s.Tidy) {given : Bool} (hgiven : s.pxNetworkContext given ≠ none)
    (pxPrivateKey pxClientCert pxRootCaCerts : Bool) (uxNumRootCA : Nat) (done : Bool) :
    (s.configure given pxPrivateKey pxClientCert pxRootCaCerts uxNumRootCA done).Tidied := by
  obtain ⟨c, hc⟩ := Option.ne_none_iff_exists'.mp hgiven
  rw [TlsTransport.configure, hc]
  exact (h.connection hc).configure _

theorem Tidy.setrecvcallback (h : s.Tidy) {given pxCallback allocated : Bool}
    (hok : s.pxNetworkContext given = none ∨ pxCallback = false → allocated = false)
    (garbage : Bool) : (s.setrecvcallback given pxCallback allocated garbage).Tidied := by
  cases hc : s.pxNetworkContext given with
  | none =>
    obtain rfl := hok (.inl hc)
    rw [TlsTransport.setrecvcallback, hc]
    exact h.untouched nofun
  | some c =>
    rw [TlsTransport.setrecvcallback, hc]
    cases pxCallback with
    | true => exact (h.connection hc).setrecvcallback allocated
    | false =>
      obtain rfl := hok (.inr rfl)
      exact h.untouched nofun

theorem Tidy.connect (h : s.Tidy) {given : Bool} {pcHostName : Option (List UInt8)}
    {usPort ulRecvTimeoutMs : Nat} {o : ConnectOutcome}
    (hnull : s.pxNetworkContext given = none → cfg.ndebug = false)
    (hok : ∀ c, s.pxNetworkContext given = some c →
      c.Connectable cfg pcHostName usPort ulRecvTimeoutMs o) :
    (s.connect cfg given pcHostName usPort ulRecvTimeoutMs o).Tidied := by
  cases hc : s.pxNetworkContext given with
  | none =>
    rw [TlsTransport.connect, hc]
    refine h.assertFails fun hndebug => ?_
    rw [hnull hc] at hndebug
    cases hndebug
  | some c =>
    rw [TlsTransport.connect, hc]
    exact (h.connection hc).connect (hok c hc)

theorem Tidy.disconnect (h : s.Tidy) (given : Bool) : (s.disconnect cfg given).Tidied := by
  cases hc : s.pxNetworkContext given with
  | none =>
    rw [TlsTransport.disconnect, hc]
    exact h.assertFails fun _ => h.untouched nofun
  | some c =>
    obtain ⟨c1, hdisconnect, htidy, -⟩ := (h.connection hc).disconnect
    rw [TlsTransport.disconnect, hc]
    dsimp only
    rw [hdisconnect]
    exact htidy.ends nofun

theorem Tidy.free (h : s.Tidy) (given : Bool) : (s.free given).Tidied := by
  cases hc : s.pxNetworkContext given with
  | none =>
    rw [TlsTransport.free, hc]
    exact h.untouched nofun
  | some c =>
    obtain ⟨c1, hstop, hidle, -, -⟩ := (h.connection hc).stopIfAny
    have hclosed := hidle.closeSocket
    have hsockets : c1.closeSocket.openSockets = [] := by
      rw [hclosed.sockets, Connection.closeSocket_xSockHandle]
      rfl
    rw [TlsTransport.free, hc]
    dsimp only
    rw [hstop]
    exact ⟨nofun, hsockets, hclosed.lost, hclosed.unharmed⟩

theorem Tidy.threadEnds (h : s.Tidy) (lost : Option Nat) : (s.threadEnds lost).Tidy := by
  cases lost with
  | some i =>
    obtain ⟨context, resources⟩ := s
    cases context with
    | none =>
      obtain ⟨hsockets, hlost, hunharmed⟩ := h
      refine ⟨hsockets, ?_, hunharmed⟩
      show resources.lostThreads.eraseIdx i = []
      rw [hlost, List.eraseIdx_nil]
    | some context =>
      have h : Connection.Tidy ⟨context, resources⟩ := h
      refine ⟨⟨h.notify, h.sockets, ?_, h.unharmed⟩, h.connected, h.threads⟩
      show resources.lostThreads.eraseIdx i = []
      rw [h.lost, List.eraseIdx_nil]
  | none =>
    cases hc : s.pxNetworkContext true with
    | none =>
      rw [TlsTransport.threadEnds, hc]
      exact h
    | some c =>
      have htidy := h.connection hc
      rw [TlsTransport.threadEnds, hc]
      dsimp only
      split
      · exact h
      · exact h
      · next notify _ => exact (htidy.stopSocketNotifyTask notify).tidy htidy.connected

/-- Every call that meets the condition leaves its context in order. -/
theorem Tidy.call (h : s.Tidy) (hok : s.StepOk cfg e) : (s.call cfg e).Tidied := by
  cases e with
  | allocate allocated nullField => exact h.allocate hok
  | configure given pxPrivateKey pxClientCert pxRootCaCerts uxNumRootCA done =>
    exact h.configure hok.1 pxPrivateKey pxClientCert pxRootCaCerts uxNumRootCA done
  | setrecvcallback given pxCallback allocated garbage => exact h.setrecvcallback hok garbage
  | connect given pcHostName usPort ulRecvTimeoutMs outcome => exact h.connect hok.1 hok.2
  | recv given pBuffer uxBytesToRecv tlsStatus =>
    exact h.transfer hok uxBytesToRecv tlsStatus fun c hc n => hc.notifyRead n
  | send given pBuffer uxBytesToSend tlsStatus =>
    exact h.transfer hok uxBytesToSend tlsStatus fun c hc n => hc.ends nofun
  | disconnect given => exact h.disconnect given
  | free given => exact h.free given
  | threadEnds lost => exact ⟨nofun, h.threadEnds lost⟩

theorem assertFails_touches (otherwise : CallResult) (hndebug : cfg.ndebug = false) :
    (s.assertFails cfg otherwise).touches = false := by
  rw [TlsTransport.assertFails, hndebug]
  rfl

theorem transfer_rejected {given pBuffer : Bool} {uxBytes : Nat} {tlsStatus : TlsStatus}
    {done : Connection → Nat → CallResult} (hndebug : cfg.ndebug = false)
    (hnull : s.pxNetworkContext given = none ∨ pBuffer = false) :
    (s.transfer cfg given pBuffer uxBytes tlsStatus done).touches = false := by
  cases hc : s.pxNetworkContext given with
  | none =>
    rw [TlsTransport.transfer, hc]
    exact assertFails_touches _ hndebug
  | some c =>
    obtain hnone | rfl := hnull
    · rw [hc] at hnone
      cases hnone
    · rw [TlsTransport.transfer, hc]
      exact assertFails_touches _ hndebug

theorem setrecvcallback_rejected {given pxCallback : Bool} (garbage : Bool)
    (hnull : s.pxNetworkContext given = none ∨ pxCallback = false) :
    (s.setrecvcallback given pxCallback false garbage).touches = false := by
  rw [TlsTransport.setrecvcallback]
  cases hc : s.pxNetworkContext given with
  | none => rfl
  | some c =>
    obtain hnone | rfl := hnull
    · rw [hc] at hnone
      cases hnone
    · rfl

theorem StepOk.rejected (hok : s.StepOk cfg e) (hrejects : s.Rejects cfg e) :
    (s.call cfg e).touches = false := by
  cases e with
  | allocate allocated nullField => cases hrejects
  | configure given pxPrivateKey pxClientCert pxRootCaCerts uxNumRootCA done =>
    obtain ⟨hgiven, hcredentials, hroot⟩ := hok
    obtain hnone | hunequal | hnull := hrejects
    · exact absurd hnone hgiven
    · exact absurd hcredentials hunequal
    · rw [hroot] at hnull
      cases hnull
  | setrecvcallback given pxCallback allocated garbage =>
    obtain rfl := hok hrejects
    exact setrecvcallback_rejected garbage hrejects
  | connect given pcHostName usPort ulRecvTimeoutMs outcome =>
    obtain ⟨hnull, hconnectable⟩ := hok
    cases hc : s.pxNetworkContext given with
    | none =>
      rw [TlsTransport.call, TlsTransport.connect, hc]
      exact assertFails_touches _ (hnull hc)
    | some c =>
      obtain ⟨⟨hostName, hhost, -⟩, -, -⟩ := hconnectable c hc
      obtain hnone | hnoHost := hrejects
      · rw [hc] at hnone
        cases hnone
      · rw [hhost] at hnoHost
        cases hnoHost
  | recv given pBuffer uxBytesToRecv tlsStatus =>
    exact transfer_rejected hrejects.1 hrejects.2
  | send given pBuffer uxBytesToSend tlsStatus =>
    exact transfer_rejected hrejects.1 hrejects.2
  | disconnect given =>
    have hnone : s.pxNetworkContext given = none := hrejects
    rw [TlsTransport.call, TlsTransport.disconnect, hnone]
    dsimp only
    rw [TlsTransport.assertFails]
    split <;> rfl
  | free given =>
    have hnone : s.pxNetworkContext given = none := hrejects
    rw [TlsTransport.call, TlsTransport.free, hnone]
    rfl
  | threadEnds lost => cases hrejects

theorem StepOk.failed (h : s.Tidy) (hok : s.StepOk cfg e)
    (hfailed : FailedConnect e (s.call cfg e).ending) (context : TlsContext)
    (hcontext : (s.next cfg e).context = some context) :
    context.xConnectionState ≠ .connected ∧ context.xSockHandle = none := by
  have hnext := (h.call hok).tidy
  cases e with
  | connect given pcHostName usPort ulRecvTimeoutMs outcome =>
    cases hc : s.pxNetworkContext given with
    | none =>
      rw [TlsTransport.call, TlsTransport.connect, hc] at hfailed
      dsimp only at hfailed
      rw [TlsTransport.assertFails, hok.1 hc] at hfailed
      cases hfailed
    | some c =>
      have hcall : s.call cfg (.connect given pcHostName usPort ulRecvTimeoutMs outcome) =
          c.connect cfg pcHostName usPort ulRecvTimeoutMs outcome := by
        rw [TlsTransport.call, TlsTransport.connect, hc]
      have hdefined := (h.call hok).defined
      rw [TlsTransport.next] at hcontext
      rw [hcall] at hfailed hdefined hnext hcontext
      obtain ⟨-, -, hfinish⟩ := Connection.connect_accepted hdefined
      rw [hfinish] at hfailed hnext hcontext
      cases hending : (Connection.finish (c.attempt ulRecvTimeoutMs outcome)).ending with
      | status xStatus =>
        rw [hending] at hfailed
        obtain ⟨c1, hclosed, htransport⟩ := Connection.finish_closed hending hfailed
        rw [htransport] at hnext hcontext
        cases hcontext
        have hnext : c1.Tidy := hnext
        exact ⟨fun hstate => hnext.connected.mp hstate hclosed, hclosed⟩
      | _ =>
        rw [hending] at hfailed
        cases hfailed
  | _ => cases hfailed

theorem Tidy.sound (h : s.Tidy) (hok : s.StepOk cfg e) :
    s.Sound cfg e ∧ (s.next cfg e).Tidy := by
  have hcall := h.call hok
  exact ⟨⟨hcall.defined, hok.rejected, hok.failed h, hcall.tidy.good⟩, hcall.tidy⟩

theorem TransferOk.of_defined {given pBuffer : Bool} {uxBytes : Nat} {tlsStatus : TlsStatus}
    {done : Connection → Nat → CallResult}
    (h : (s.transfer cfg given pBuffer uxBytes tlsStatus done).ending ≠ .undefined) :
    s.TransferOk cfg given pBuffer := by
  intro hndebug
  cases hc : s.pxNetworkContext given with
  | none =>
    rw [TlsTransport.transfer, hc] at h
    dsimp only at h
    rw [TlsTransport.assertFails, if_pos hndebug] at h
    exact absurd rfl h
  | some c =>
    refine ⟨c, rfl, fun hstate => ?_⟩
    by_contra hbuffer
    rw [TlsTransport.transfer, hc] at h
    dsimp only at h
    rw [if_neg fun hargs => hbuffer hargs.1, TlsTransport.assertFails, if_pos hndebug,
      Connection.transfer, if_pos hstate, if_neg hbuffer] at h
    exact h rfl

/-- The field that `mbedtls_transport_allocate` leaves as it is shows in the new context. -/
theorem allocate_sound {allocated nullField : Bool}
    (h : s.Sound cfg (.allocate allocated nullField)) (hnone : s.context = none)
    (hallocated : allocated = true) : nullField = true := by
  have hnotify := h.good.notify
  rw [TlsTransport.next, TlsTransport.call, TlsTransport.allocate,
    if_pos ⟨hnone, hallocated⟩] at hnotify
  cases nullField with
  | true => rfl
  | false => exact absurd rfl (hnotify _ rfl)

/-- `mbedtls_transport_configure` goes through the context in any case. -/
theorem configure_sound {given pxPrivateKey pxClientCert pxRootCaCerts : Bool} {uxNumRootCA : Nat}
    {done : Bool}
    (h : s.Sound cfg
      (.configure given pxPrivateKey pxClientCert pxRootCaCerts uxNumRootCA done)) :
    s.pxNetworkContext given ≠ none ∧ pxPrivateKey = pxClientCert ∧ pxRootCaCerts = true := by
  have hdefined := h.defined
  have hrejected := h.rejected
  rw [TlsTransport.call, TlsTransport.configure] at hdefined hrejected
  cases hc : s.pxNetworkContext given with
  | none =>
    rw [hc] at hdefined
    exact absurd rfl hdefined
  | some c =>
    rw [hc] at hrejected
    -- a rejected call would have gone through the context
    have hnot : ¬ (pxPrivateKey ≠ pxClientCert ∨ pxRootCaCerts = false) := by
      intro hnull
      have htouches := hrejected (.inr hnull)
      rw [c.configure_touches] at htouches
      cases htouches
    obtain ⟨hequal, hroot⟩ := not_or.mp hnot
    exact ⟨nofun, not_not.mp hequal, Bool.of_not_eq_false hroot⟩

theorem setrecvcallback_sound {given pxCallback allocated garbage : Bool}
    (h : s.Sound cfg (.setrecvcallback given pxCallback allocated garbage))
    (hnull : s.pxNetworkContext given = none ∨ pxCallback = false) : allocated = false := by
  have htouches := h.rejected hnull
  cases allocated with
  | false => rfl
  | true =>
    rw [TlsTransport.call, TlsTransport.setrecvcallback] at htouches
    cases hc : s.pxNetworkContext given with
    | none =>
      rw [hc] at htouches
      cases htouches
    | some c =>
      obtain hnone | rfl := hnull
      · rw [hc] at hnone
        cases hnone
      · rw [hc] at htouches
        cases htouches

theorem connect_sound {given : Bool} {pcHostName : Option (List UInt8)}
    {usPort ulRecvTimeoutMs : Nat} {o : ConnectOutcome} (hs : s.Tidy)
    (h : s.Sound cfg (.connect given pcHostName usPort ulRecvTimeoutMs o)) :
    (s.pxNetworkContext given = none → cfg.ndebug = false) ∧
      ∀ c, s.pxNetworkContext given = some c →
        c.Connectable cfg pcHostName usPort ulRecvTimeoutMs o := by
  have hdefined := h.defined
  constructor
  · intro hnone
    rw [TlsTransport.call, TlsTransport.connect, hnone] at hdefined
    dsimp only at hdefined
    rw [TlsTransport.assertFails] at hdefined
    by_contra hndebug
    rw [if_pos (Bool.of_not_eq_false hndebug)] at hdefined
    exact hdefined rfl
  · intro c hc
    have hcall : c.connect cfg pcHostName usPort ulRecvTimeoutMs o =
        s.call cfg (.connect given pcHostName usPort ulRecvTimeoutMs o) := by
      rw [TlsTransport.call, TlsTransport.connect, hc]
    refine (hs.connection hc).connectable hcall hdefined ?_ h.good.unharmed
    intro xStatus hending hfailed context hcontext
    have hfails : FailedConnect (.connect given pcHostName usPort ulRecvTimeoutMs o)
        (s.call cfg (.connect given pcHostName usPort ulRecvTimeoutMs o)).ending := by
      rw [hending]
      exact hfailed
    exact (h.failed hfails context hcontext).1

/-- A call that keeps the state machine in order met the condition. -/
theorem StepOk.of_sound (h : s.Tidy) (hsound : s.Sound cfg e) : s.StepOk cfg e := by
  cases e with
  | allocate allocated nullField => exact allocate_sound hsound
  | configure given pxPrivateKey pxClientCert pxRootCaCerts uxNumRootCA done =>
    exact configure_sound hsound
  | setrecvcallback given pxCallback allocated garbage => exact setrecvcallback_sound hsound
  | connect given pcHostName usPort ulRecvTimeoutMs outcome => exact connect_sound h hsound
  | recv given pBuffer uxBytesToRecv tlsStatus => exact .of_defined hsound.defined
  | send given pBuffer uxBytesToSend tlsStatus => exact .of_defined hsound.defined
  | disconnect given => trivial
  | free given => trivial
  | threadEnds lost => trivial

/-- All calls of a run keep the state machine in order exactly when each of them meets the
condition. -/
theorem transportStateMachine_run (cfg : TransportConfig) (events : List TransportEvent) :
    Admits (Sound cfg) (next cfg) start events ↔ Admits (StepOk cfg) (next cfg) start events := by
  have hstart : start.Tidy := ⟨rfl, rfl, rfl⟩
  constructor
  · intro h
    refine h.mono_of_invariant Tidy ?_ hstart
    intro s e hs hsound
    have hok := StepOk.of_sound hs hsound
    exact ⟨hok, (hs.sound hok).2⟩
  · intro h
    refine h.mono_of_invariant Tidy ?_ hstart
    exact fun s e hs hok => hs.sound hok

/-- A second connect without a disconnect: the handshake fails, and the context stays connected
with no socket. -/
theorem not_transportStateMachine_reconnect :
    ¬ Admits (Sound ⟨true, 255⟩) (next ⟨true, 255⟩) start
      [.allocate true true, .configure true false false true 1 true,
        .connect true (some [97]) 8883 0 ⟨true, some [.connected], true, true, true, true, true⟩,
        .connect true (some [97]) 8883 0
          ⟨true, some [.connected], true, true, true, true, false⟩] := by
  intro h
  have hgood := h.2.2.2.1.good
  obtain ⟨x, hx, -⟩ := hgood.connected ⟨.connected, none, .null⟩ (by decide +kernel) rfl
  have hsockets : x ∉ [] := List.not_mem_nil
  exact hsockets hx

end TlsTransport

end RenesasDemo.Tls
