import RenesasDemo.Tls.NotifyThread

namespace RenesasDemo.Tls

inductive ConnectionState where
  | allocated
  | configured
  | connected
  deriving DecidableEq

/-- What `mbedtls_transport_connect` returns. -/
inductive TlsTransportStatus where
  | success
  | invalidParameter
  | handshakeFailed
  | internalError
  | connectFailure
  | dnsFailed
  | insufficientSockets
  | invalidHostname
  deriving DecidableEq

structure NotifyThreadCtx where
  /-- The running thread with its `xSockHandle`; none when it is NULL or the thread has ended. -/
  xTaskHandle : Option (Option Nat)
  /-- The callback is not NULL. -/
  pxRecvReadyCallback : Bool
  deriving DecidableEq

inductive NotifyPointer where
  | null
  /-- What `pvPortMalloc` left in it, other than NULL. -/
  | uninitialised
  | allocation (notify : NotifyThreadCtx)
  deriving DecidableEq

structure TlsContext where
  xConnectionState : ConnectionState
  /-- `-1` is none. -/
  xSockHandle : Option Nat
  pxNotifyThreadCtx : NotifyPointer
  deriving DecidableEq

/-- What the calls leave outside the context. -/
structure TransportResources where
  openSockets : List Nat
  nextSocket : Nat
  /-- The sockets of running threads whose `NotifyThreadCtx_t` was overwritten. -/
  lostThreads : List (Option Nat)
  /-- A socket was closed while a running thread referred to it. -/
  closedInUse : Bool
  deriving DecidableEq

/-- The context that a call is given, with its surroundings. -/
structure Connection extends TlsContext, TransportResources
  deriving DecidableEq

structure TlsTransport where
  context : Option TlsContext
  resources : TransportResources
  deriving DecidableEq

structure TransportConfig where
  /-- `NDEBUG` is defined and `configASSERT` is empty. -/
  ndebug : Bool
  maxHostNameLen : Nat

/-- How a call ends. -/
inductive CallEnding where
  | returns
  | status (xStatus : TlsTransportStatus)
  | value (lError : Int)
  /-- It returns the error of mbedtls. -/
  | error
  /-- It stays in a failed `configASSERT`. -/
  | asserts
  /-- It uses NULL or an uninitialised pointer. -/
  | undefined
  deriving DecidableEq

structure CallResult where
  ending : CallEnding
  transport : TlsTransport
  /-- The call allocated memory or went through a pointer. -/
  touches : Bool
  deriving DecidableEq

/-- What becomes of one address of the host. -/
inductive AddressOutcome where
  | otherFamily
  | noSocket
  | refused
  | connected
  deriving DecidableEq

/-- The outcomes of what `mbedtls_transport_connect` calls. -/
structure ConnectOutcome where
  /-- The host name is the one set before, or `mbedtls_ssl_set_hostname` sets it. -/
  hostnameSet : Bool
  /-- None when `dns_getaddrinfo` fails or gives NULL. -/
  addresses : Option (List AddressOutcome)
  recvTimeoutSet : Bool
  sendTimeoutSet : Bool
  flagsRead : Bool
  flagsWritten : Bool
  handshake : Bool
  deriving DecidableEq

/-- The sockets of the running threads that a pointer leads to. -/
def NotifyPointer.threads : NotifyPointer → List (Option Nat)
  | .null => []
  | .uninitialised => []
  | .allocation notify => notify.xTaskHandle.toList

namespace Connection

variable (c : Connection)

def transport : TlsTransport := ⟨some c.toTlsContext, c.toTransportResources⟩

def ends (ending : CallEnding) : CallResult := ⟨ending, c.transport, true⟩

def threads : List (Option Nat) := c.pxNotifyThreadCtx.threads ++ c.lostThreads

def openSocket : Connection :=
  { c with
    xSockHandle := some c.nextSocket
    openSockets := c.nextSocket :: c.openSockets
    nextSocket := c.nextSocket + 1 }

/-- `sock_close`, if the handle is not negative. -/
def closeSocket : Connection :=
  match c.xSockHandle with
  | none => c
  | some h =>
      { c with
        xSockHandle := none
        openSockets := c.openSockets.erase h
        closedInUse := c.closedInUse || c.threads.contains (some h) }

/-- `vStopSocketNotifyTask` comes back when the thread has ended. -/
def stopSocketNotifyTask (notify : NotifyThreadCtx) : Connection :=
  { c with pxNotifyThreadCtx := .allocation { notify with xTaskHandle := none } }

/-- The thread is stopped where there is a `NotifyThreadCtx_t`. -/
def stopIfAny : Option Connection :=
  match c.pxNotifyThreadCtx with
  | .null => some c
  | .uninitialised => none
  | .allocation notify => some (c.stopSocketNotifyTask notify)

def createSocketNotifyTask (notify : NotifyThreadCtx) : Connection :=
  let c1 := c.stopSocketNotifyTask notify
  if notify.pxRecvReadyCallback then
    { c1 with pxNotifyThreadCtx := .allocation { notify with xTaskHandle := some c.xSockHandle } }
  else c1

end Connection

/-- The loop of `xConnectSocket`. -/
def tryAddresses (c : Connection) : List AddressOutcome → TlsTransportStatus × Connection
  | [] => (.connectFailure, c)
  | .otherFamily :: addresses => tryAddresses c addresses
  | .noSocket :: _ => (.insufficientSockets, { c with xSockHandle := none })
  | .refused :: addresses => tryAddresses c.openSocket.closeSocket addresses
  | .connected :: _ => (.success, c.openSocket)

/-- The socket options and the handshake. -/
def ConnectOutcome.optionsStatus (o : ConnectOutcome) (ulRecvTimeoutMs : Nat) :
    TlsTransportStatus :=
  if !o.recvTimeoutSet then .invalidParameter
  else if !o.sendTimeoutSet then .invalidParameter
  else if ulRecvTimeoutMs = 0 ∧ !o.flagsRead then .internalError
  else if ulRecvTimeoutMs = 0 ∧ !o.flagsWritten then .internalError
  else if !o.handshake then .handshakeFailed
  else .success

namespace Connection

variable (c : Connection)

def connectSocket : Option (List AddressOutcome) → TlsTransportStatus × Connection
  | none => (.dnsFailed, c.closeSocket)
  | some addresses => tryAddresses c.closeSocket addresses

/-- `mbedtls_transport_connect` up to the handshake, with arguments it accepts. -/
def attempt (ulRecvTimeoutMs : Nat) (o : ConnectOutcome) : TlsTransportStatus × Connection :=
  if o.hostnameSet then
    let r := c.connectSocket o.addresses
    if r.1 = .success then (o.optionsStatus ulRecvTimeoutMs, r.2) else r
  else (.invalidHostname, c)

def established : CallResult :=
  match c.pxNotifyThreadCtx with
  | .null => { c with xConnectionState := .connected }.ends (.status .success)
  | .uninitialised => c.ends .undefined
  | .allocation notify =>
      { c.createSocketNotifyTask notify with xConnectionState := .connected }.ends
        (.status .success)

/-- The clean-up on failure does not touch `xConnectionState`. -/
def finish : TlsTransportStatus × Connection → CallResult
  | (.success, c1) => c1.established
  | (xStatus, c1) => c1.closeSocket.ends (.status xStatus)

/-- With an argument that is not accepted `mbedtls_ssl_session_reset` gets NULL. -/
def connect (cfg : TransportConfig) (pcHostName : Option (List UInt8))
    (usPort ulRecvTimeoutMs : Nat) (o : ConnectOutcome) : CallResult :=
  match pcHostName with
  | none => c.closeSocket.ends .undefined
  | some hostName =>
      if cfg.maxHostNameLen < hostName.length then c.closeSocket.ends .undefined
      else if usPort = 0 then c.closeSocket.ends .undefined
      else finish (c.attempt ulRecvTimeoutMs o)

def disconnect : Option Connection :=
  let c1 :=
    if c.xConnectionState = .connected then { c with xConnectionState := .configured } else c
  c1.stopIfAny.map closeSocket

/-- `mbedtls_transport_configure` after it has disconnected. -/
def configured (done : Bool) : CallResult :=
  if done then { c with xConnectionState := .configured }.ends .returns else c.ends .returns

/-- `done` says whether the configuration came to its end. -/
def configure (done : Bool) : CallResult :=
  if c.xConnectionState = .connected then
    match c.disconnect with
    | none => c.ends .undefined
    | some c1 => c1.configured done
  else c.configured done

/-- The end of `mbedtls_transport_setrecvcallback`; `vCreateSocketNotifyTask` stops the thread
that runs. -/
def setCallback (notify : NotifyThreadCtx) : CallResult :=
  let notify1 := { notify with pxRecvReadyCallback := true }
  if c.xConnectionState = .connected then (c.createSocketNotifyTask notify1).ends (.value 0)
  else { c with pxNotifyThreadCtx := .allocation notify1 }.ends (.value 0)

def overwriteNotify (notify : NotifyThreadCtx) : Connection :=
  { c with
    pxNotifyThreadCtx := .allocation notify
    lostThreads := c.pxNotifyThreadCtx.threads ++ c.lostThreads }

/-- `mbedtls_transport_setrecvcallback` with a callback. -/
def setrecvcallback (allocated : Bool) : CallResult :=
  match c.pxNotifyThreadCtx with
  | .null =>
      if allocated then c.setCallback ⟨none, true⟩ else c.ends (.value (-1))
  | .uninitialised => c.ends .undefined
  | .allocation notify => c.setCallback notify

def peerClosed : CallResult :=
  let c1 := { c with xConnectionState := .configured }
  if c1.xSockHandle = none then c1.ends (.value (-1))
  else
    match c1.stopIfAny with
    | none => c.ends .undefined
    | some c2 => c2.closeSocket.ends (.value (-1))

/-- Bytes were read; the notification looks at `xTaskHandle`. -/
def notifyRead (n : Nat) : CallResult :=
  match c.pxNotifyThreadCtx with
  | .uninitialised => c.ends .undefined
  | .null => c.ends (.value n)
  | .allocation _ => c.ends (.value n)

/-- What `mbedtls_transport_recv` and `mbedtls_transport_send` do with the answer of mbedtls;
`done` is for bytes that went through. -/
def afterTransfer (done : Nat → CallResult) : TlsStatus → CallResult
  | .bytes n => done n
  | .timeout => c.ends (.value 0)
  | .wantRead => c.ends (.value 0)
  | .wantWrite => c.ends (.value 0)
  | .closed => c.peerClosed
  | .failed => c.ends .error

/-- mbedtls is called on a connection only, and then gets the buffer as it is. -/
def transfer (done : Nat → CallResult) (pBuffer : Bool) (tlsStatus : TlsStatus) : CallResult :=
  if c.xConnectionState = .connected then
    if pBuffer then c.afterTransfer done tlsStatus else c.ends .undefined
  else c.afterTransfer done (.bytes 0)

end Connection

namespace TlsTransport

variable (cfg : TransportConfig) (s : TlsTransport)

/-- The argument `pxNetworkContext`: NULL, or the context while there is one. -/
def pxNetworkContext (given : Bool) : Option Connection :=
  if given then s.context.map fun context => ⟨context, s.resources⟩ else none

def untouched (ending : CallEnding) : CallResult := ⟨ending, s, false⟩

def usesNull : CallResult := ⟨.undefined, s, true⟩

/-- `configASSERT( pointer != NULL )` with NULL. -/
def assertFails (otherwise : CallResult) : CallResult :=
  if cfg.ndebug then otherwise else s.untouched .asserts

/-- A second context is not part of the run. -/
def allocate (allocated nullField : Bool) : CallResult :=
  if s.context = none ∧ allocated = true then
    ⟨.returns, ⟨some ⟨.allocated, none, if nullField then .null else .uninitialised⟩,
      s.resources⟩, true⟩
  else s.untouched .returns

/-- The credentials are complete and there is a CA certificate. -/
def credentialsAccepted (pxPrivateKey pxClientCert pxRootCaCerts : Bool) (uxNumRootCA : Nat) :
    Bool :=
  pxPrivateKey == pxClientCert && pxRootCaCerts && uxNumRootCA != 0

/-- Rejected arguments do not keep it from going on to the context. -/
def configure (given pxPrivateKey pxClientCert pxRootCaCerts : Bool) (uxNumRootCA : Nat)
    (done : Bool) : CallResult :=
  match s.pxNetworkContext given with
  | none => s.usesNull
  | some c =>
      c.configure
        (credentialsAccepted pxPrivateKey pxClientCert pxRootCaCerts uxNumRootCA && done)

/-- `garbage` is what `pvPortMalloc` leaves in the field of the callback. -/
def setrecvcallback (given pxCallback allocated garbage : Bool) : CallResult :=
  match s.pxNetworkContext given with
  -- the local pointer is NULL, so memory is asked for all the same
  | none => if allocated then s.usesNull else s.untouched (.value (-1))
  | some c =>
      if pxCallback then c.setrecvcallback allocated
      -- here too, whatever the context already has
      else if allocated then (c.overwriteNotify ⟨none, garbage⟩).ends (.value (-1))
      else s.untouched (.value (-1))

def connect (given : Bool) (pcHostName : Option (List UInt8)) (usPort ulRecvTimeoutMs : Nat)
    (o : ConnectOutcome) : CallResult :=
  match s.pxNetworkContext given with
  | none => s.assertFails cfg s.usesNull
  | some c => c.connect cfg pcHostName usPort ulRecvTimeoutMs o

/-- The assertions of `mbedtls_transport_recv` and `mbedtls_transport_send`. -/
def transfer (given pBuffer : Bool) (uxBytes : Nat) (tlsStatus : TlsStatus)
    (done : Connection → Nat → CallResult) : CallResult :=
  match s.pxNetworkContext given with
  | none => s.assertFails cfg s.usesNull
  | some c =>
      if pBuffer = true ∧ 0 < uxBytes then c.transfer (done c) pBuffer tlsStatus
      else s.assertFails cfg (c.transfer (done c) pBuffer tlsStatus)

def recv (given pBuffer : Bool) (uxBytesToRecv : Nat) (tlsStatus : TlsStatus) : CallResult :=
  s.transfer cfg given pBuffer uxBytesToRecv tlsStatus fun c n => c.notifyRead n

def send (given pBuffer : Bool) (uxBytesToSend : Nat) (tlsStatus : TlsStatus) : CallResult :=
  s.transfer cfg given pBuffer uxBytesToSend tlsStatus fun c n => c.ends (.value n)

def disconnect (given : Bool) : CallResult :=
  match s.pxNetworkContext given with
  | none => s.assertFails cfg (s.untouched .returns)
  | some c =>
      match c.disconnect with
      | none => c.ends .undefined
      | some c1 => c1.ends .returns

/-- The context is gone; so is its `NotifyThreadCtx_t`, after its thread. -/
def free (given : Bool) : CallResult :=
  match s.pxNetworkContext given with
  | none => s.untouched .returns
  | some c =>
      match c.stopIfAny with
      | none => c.ends .undefined
      | some c1 => ⟨.returns, ⟨none, c1.closeSocket.toTransportResources⟩, true⟩

/-- A thread ends by itself: the one of the context, or one whose `NotifyThreadCtx_t` is lost. -/
def threadEnds : Option Nat → TlsTransport
  | some i =>
      { s with resources := { s.resources with
          lostThreads := s.resources.lostThreads.eraseIdx i } }
  | none =>
      match s.pxNetworkContext true with
      | none => s
      | some c =>
          match c.pxNotifyThreadCtx with
          | .null => s
          | .uninitialised => s
          | .allocation notify => (c.stopSocketNotifyTask notify).transport

end TlsTransport

/-- The calls with their arguments and the outcomes of what they call; a pointer argument is
whether it is not NULL. -/
inductive TransportEvent where
  | allocate (allocated nullField : Bool)
  | configure (given pxPrivateKey pxClientCert pxRootCaCerts : Bool) (uxNumRootCA : Nat)
      (done : Bool)
  | setrecvcallback (given pxCallback allocated garbage : Bool)
  | connect (given : Bool) (pcHostName : Option (List UInt8)) (usPort ulRecvTimeoutMs : Nat)
      (outcome : ConnectOutcome)
  | recv (given pBuffer : Bool) (uxBytesToRecv : Nat) (tlsStatus : TlsStatus)
  | send (given pBuffer : Bool) (uxBytesToSend : Nat) (tlsStatus : TlsStatus)
  | disconnect (given : Bool)
  | free (given : Bool)
  | threadEnds (lost : Option Nat)

namespace TlsTransport

variable (cfg : TransportConfig) (s : TlsTransport)

def call : TransportEvent → CallResult
  | .allocate allocated nullField => s.allocate allocated nullField
  | .configure given pxPrivateKey pxClientCert pxRootCaCerts uxNumRootCA done =>
      s.configure given pxPrivateKey pxClientCert pxRootCaCerts uxNumRootCA done
  | .setrecvcallback given pxCallback allocated garbage =>
      s.setrecvcallback given pxCallback allocated garbage
  | .connect given pcHostName usPort ulRecvTimeoutMs outcome =>
      s.connect cfg given pcHostName usPort ulRecvTimeoutMs outcome
  | .recv given pBuffer uxBytesToRecv tlsStatus =>
      s.recv cfg given pBuffer uxBytesToRecv tlsStatus
  | .send given pBuffer uxBytesToSend tlsStatus =>
      s.send cfg given pBuffer uxBytesToSend tlsStatus
  | .disconnect given => s.disconnect cfg given
  | .free given => s.free given
  | .threadEnds lost => (s.threadEnds lost).untouched .returns

def next (e : TransportEvent) : TlsTransport := (s.call cfg e).transport

def start : TlsTransport := ⟨none, [], 0, [], false⟩

end TlsTransport

end RenesasDemo.Tls
