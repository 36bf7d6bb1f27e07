import RenesasDemo.Framework.ErrorChain
import RenesasDemo.Framework.Printf

namespace RenesasDemo.Defender

open Framework

abbrev CborError := UInt32

def cborNoError : CborError := 0
def cborUnknownError : CborError := 1
def cborErrorImproperValue : CborError := 519

/-- The encoders of a report: the caller's, the `tc` map of the connections, the map with the total
(`tp`, `up`, `ec`), the list in it (`pts`, `cs`), the map of the list's entry `k`, and the `ns`
map. -/
inductive Encoder where
  | metrics
  | tc
  | object
  | list
  | entry (k : Nat)
  | ns
  deriving DecidableEq

inductive EncoderCall where
  | textStringz (on : Encoder) (text : List UInt8)
  | uint (on : Encoder) (value : Nat)
  | createMap (parent child : Encoder) (length : Nat)
  | createArray (parent child : Encoder) (length : Nat)
  | closeContainer (parent child : Encoder)
  deriving DecidableEq

abbrev Encoding := Outcome EncoderCall

/-- The errors of a key and of its value. -/
structure KvErrors where
  key : CborError := 0
  value : CborError := 0

def KvErrors.Clean (e : KvErrors) : Prop := e.key = 0 ∧ e.value = 0

def cborAddKvUint (on : Encoder) (pcKey : List UInt8) (xUInt : Nat) (e : KvErrors) : Encoding :=
  (Outcome.call (.textStringz on pcKey) e.key).orAssign (.call (.uint on xUInt) e.value)

def cborAddKvStr (on : Encoder) (pcKey pcValue : List UInt8) (e : KvErrors) : Encoding :=
  (Outcome.call (.textStringz on pcKey) e.key).orAssign (.call (.textStringz on pcValue) e.value)

section lwip

inductive TcpState where
  | closed
  | listen
  | synSent
  | synRcvd
  | established
  | finWait1
  | finWait2
  | closeWait
  | closing
  | lastAck
  | timeWait
  deriving DecidableEq

structure TcpPcbListen where
  state : TcpState
  netifIdx : UInt8
  localPort : UInt16

structure UdpPcb where
  netifIdx : UInt8
  localPort : UInt16

structure TcpPcb (Addr : Type) where
  remoteIp : Addr
  remotePort : UInt16
  netifIdx : UInt8
  localPort : UInt16

/-- `mib2_counters` of an interface. -/
structure Mib2Counters where
  ifinoctets : UInt32
  ifoutoctets : UInt32
  ifinucastpkts : UInt32
  ifinnucastpkts : UInt32
  ifoutucastpkts : UInt32
  ifoutnucastpkts : UInt32

/-- The TCP/IP stack's state under its core lock, and the two of its functions that are called. -/
structure Lwip (Addr : Type) where
  tcpListenPcbs : List TcpPcbListen
  udpPcbs : List UdpPcb
  tcpActivePcbs : List (TcpPcb Addr)
  /-- `netif_default->num`, if there is a default interface. -/
  netifDefault : Option UInt8
  /-- The interfaces that are counted: the default one, or all of them. -/
  netifs : List Mib2Counters
  netifIndexToName : UInt8 → Option CString
  /-- The text of an address, if it fits a buffer of the given size. -/
  ipaddrNtoaR : Addr → Nat → Option CString
  ipaddrStrlenMax : Nat

variable {Addr : Type} (lwip : Lwip Addr)

namespace Lwip

/-- The size of `int` character constants and of the digits of a port is added to an address's. -/
def ipaddrPortStrLen : Nat := lwip.ipaddrStrlenMax + 4 + 5 + 4

def pcGetNetifName (ucNetifIdx : UInt8) : Option (List UInt8) :=
  if ucNetifIdx = 0 then
    match lwip.netifDefault with
    | some num => (lwip.netifIndexToName num).map CString.bytes
    | none => some (ascii "any")
  else
    (lwip.netifIndexToName ucNetifIdx).map CString.bytes

/-- The buffer's text when the function returns true. -/
def xIpAddrPortToString (pxIpAddr : Addr) (usPort : UInt16) : Option (List UInt8) :=
  match lwip.ipaddrNtoaR pxIpAddr lwip.ipaddrPortStrLen with
  | some address =>
    let text := address.bytes ++ ascii ":" ++ decimalText usPort.toNat
    if text.length ≤ lwip.ipaddrPortStrLen then some (text.take (lwip.ipaddrPortStrLen - 1))
    else none
  | none => none

end Lwip
end lwip

section ports

/-- The errors that the encoder returns at the calls for one entry of a list of ports. -/
structure PtErrors where
  map : CborError := 0
  ifName : KvErrors := {}
  pt : KvErrors := {}
  close : CborError := 0

/-- One round of `xAppendTcpPtsToList` and of `xAppendUdpPtsToList`. -/
def appendPt (pcNetifNameFound : Option (List UInt8)) (localPort : UInt16) (e : PtErrors)
    (k : Nat) : Encoding :=
  let o : Encoding := match pcNetifNameFound with
    | some name =>
      (Outcome.call (.createMap .list (.entry k) 2) e.map).ifOk
        (cborAddKvStr (.entry k) (ascii "if") name e.ifName)
    | none => Outcome.call (.createMap .list (.entry k) 1) e.map
  (o.ifOk (cborAddKvUint (.entry k) (ascii "pt") localPort.toNat e.pt)).ifOk
    (.call (.closeContainer .list (.entry k)) e.close)

/-- The errors at the calls for the map with the total. -/
structure ObjectErrors where
  map : CborError := 0
  t : KvErrors := {}
  listName : CborError := 0
  array : CborError := 0
  closeList : CborError := 0
  close : CborError := 0

/-- The map with the total, and with the list of the entries when the total is not 0. -/
def addObject (o : Encoding) (parent : Encoder) (listName : List UInt8) (count : Nat)
    (entries : Encoding) (e : ObjectErrors) : Encoding :=
  let o := o.ifOk (.call (.createMap parent .object (if 0 < count then 2 else 1)) e.map)
  let o := o.ifOk (cborAddKvUint .object (ascii "t") count e.t)
  let o := if 0 < count then
      (((o.ifOk (.call (.textStringz .object listName) e.listName)).ifOk
        (.call (.createArray .object .list count) e.array)).ifOk entries).ifOk
        (.call (.closeContainer .object .list) e.closeList)
    else o
  o.ifOk (.call (.closeContainer parent .object) e.close)

/-- The errors at the calls of `xGetListeningTcpPorts` or of `xGetListeningUdpPorts`. -/
structure PortsErrors where
  name : CborError := 0
  object : ObjectErrors := {}
  pts : Nat → PtErrors := fun _ => {}

/-- `xGetListeningTcpPorts` and `xGetListeningUdpPorts` with an encoder. -/
def getListeningPorts (pcName : List UInt8) (ulPortCount : Nat) (pts : Encoding)
    (e : PortsErrors) : Encoding :=
  addObject (.call (.textStringz .metrics pcName) e.name) .metrics (ascii "pts") ulPortCount pts
    e.object

namespace Lwip

variable {Addr : Type} (lwip : Lwip Addr)

def xCountListeningTcpPorts : Nat := lwip.tcpListenPcbs.countP fun pcb => pcb.state = .listen

def xAppendTcpPtsToList (e : Nat → PtErrors) : Encoding :=
  Outcome.assignAll
    (fun (pcb, k) => appendPt (lwip.pcGetNetifName pcb.netifIdx) pcb.localPort (e k) k)
    lwip.tcpListenPcbs.zipIdx

/-- The encoder is absent when `pxMetricsEncoder` is NULL. -/
def xGetListeningTcpPorts (pxMetricsEncoder : Option PortsErrors) : Encoding :=
  match pxMetricsEncoder with
  | none => .fail cborErrorImproperValue
  | some e =>
    getListeningPorts (ascii "tp") lwip.xCountListeningTcpPorts (lwip.xAppendTcpPtsToList e.pts) e

def xCountListeningUdpPorts : Nat := lwip.udpPcbs.length

def xAppendUdpPtsToList (e : Nat → PtErrors) : Encoding :=
  Outcome.assignAll
    (fun (pcb, k) => appendPt (lwip.pcGetNetifName pcb.netifIdx) pcb.localPort (e k) k)
    lwip.udpPcbs.zipIdx

def xGetListeningUdpPorts (pxMetricsEncoder : Option PortsErrors) : Encoding :=
  match pxMetricsEncoder with
  | none => .fail cborErrorImproperValue
  | some e =>
    getListeningPorts (ascii "up") lwip.xCountListeningUdpPorts (lwip.xAppendUdpPtsToList e.pts) e

end Lwip
end ports

section connections

/-- The errors at the calls for one entry of the list of connections. -/
structure ConnErrors where
  map : CborError := 0
  rad : KvErrors := {}
  li : KvErrors := {}
  lp : KvErrors := {}
  close : CborError := 0

/-- The errors at the calls of `xGetEstablishedConnections`. -/
structure ConnectionsErrors where
  name : CborError := 0
  tc : CborError := 0
  ec : CborError := 0
  object : ObjectErrors := {}
  cs : Nat → ConnErrors := fun _ => {}
  close : CborError := 0

namespace Lwip

variable {Addr : Type} (lwip : Lwip Addr)

def xCountTcpConnections : Nat := lwip.tcpActivePcbs.length

/-- One round of `xAppendTcpConnectionsToList`. -/
def appendConnection (pcb : TcpPcb Addr) (e : ConnErrors) (k : Nat) : Encoding :=
  let o : Encoding := .call (.createMap .list (.entry k) 3) e.map
  let o := o.ifOk <| match lwip.xIpAddrPortToString pcb.remoteIp pcb.remotePort with
    | some text => cborAddKvStr (.entry k) (ascii "rad") text e.rad
    | none => .fail cborUnknownError
  let o := match lwip.pcGetNetifName pcb.netifIdx with
    | some name => o.ifOk (cborAddKvStr (.entry k) (ascii "li") name e.li)
    | none => o.assign (.fail cborUnknownError)
  (o.ifOk (cborAddKvUint (.entry k) (ascii "lp") pcb.localPort.toNat e.lp)).ifOk
    (.call (.closeContainer .list (.entry k)) e.close)

def xAppendTcpConnectionsToList (e : Nat → ConnErrors) : Encoding :=
  Outcome.assignAll (fun (pcb, k) => lwip.appendConnection pcb (e k) k) lwip.tcpActivePcbs.zipIdx

def xGetEstablishedConnections (pxMetricsEncoder : Option ConnectionsErrors) : Encoding :=
  match pxMetricsEncoder with
  | none => .fail cborErrorImproperValue
  | some e =>
    let o : Encoding := .call (.textStringz .metrics (ascii "tc")) e.name
    let o := o.ifOk (.call (.createMap .metrics .tc 1) e.tc)
    let o := o.ifOk (.call (.textStringz .tc (ascii "ec")) e.ec)
    let o := addObject o .tc (ascii "cs") lwip.xCountTcpConnections
      (lwip.xAppendTcpConnectionsToList e.cs) e.object
    o.ifOk (.call (.closeContainer .metrics .tc) e.close)

end Lwip
end connections

section stats

/-- The errors at the calls of `xGetNetworkStats`. -/
structure StatsErrors where
  ns : CborError := 0
  map : CborError := 0
  pi : KvErrors := {}
  po : KvErrors := {}
  bi : KvErrors := {}
  bo : KvErrors := {}
  close : CborError := 0

namespace Lwip

variable {Addr : Type} (lwip : Lwip Addr)

/-- A sum over the interfaces, in 64 bits. -/
def total (counter : Mib2Counters → UInt64) : Nat :=
  (lwip.netifs.foldl (fun sum netif => sum + counter netif) 0).toNat

def xBytesIn : Nat := lwip.total fun c => c.ifinoctets.toUInt64
def xBytesOut : Nat := lwip.total fun c => c.ifoutoctets.toUInt64

def xPktsIn : Nat := lwip.total fun c => c.ifinnucastpkts.toUInt64 + c.ifinucastpkts.toUInt64
def xPktsOut : Nat := lwip.total fun c => c.ifoutucastpkts.toUInt64 + c.ifoutnucastpkts.toUInt64

/-- The four pairs; the third one assigns where the others add. -/
def addStats (o : Encoding) (e : StatsErrors) : Encoding :=
  let o := o.orAssign (cborAddKvUint .ns (ascii "pi") lwip.xPktsIn e.pi)
  let o := o.orAssign (cborAddKvUint .ns (ascii "po") lwip.xPktsOut e.po)
  let o := o.assign (cborAddKvUint .ns (ascii "bi") lwip.xBytesIn e.bi)
  o.orAssign (cborAddKvUint .ns (ascii "bo") lwip.xBytesOut e.bo)

def xGetNetworkStats (pxEncoder : Option StatsErrors) : Encoding :=
  match pxEncoder with
  | none => .fail cborErrorImproperValue
  | some e =>
    let o : Encoding := .call (.textStringz .metrics (ascii "ns")) e.ns
    let o := o.ifOk (.call (.createMap .metrics .ns 4) e.map)
    let o := if o.xError = 0 then lwip.addStats o e else o
    o.ifOk (.call (.closeContainer .metrics .ns) e.close)

end Lwip
end stats
end RenesasDemo.Defender
