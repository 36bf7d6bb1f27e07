import RenesasDemo.Framework.Heap
import RenesasDemo.Framework.LittleEndian

namespace RenesasDemo.KVStore

open Framework

abbrev sizeofVoidPtr : Nat := 4

/-- `size_t` and pointers have 32 bits on the target. -/
abbrev sizeMod : Nat := 2 ^ 32

/-- `other` is the raw value `KV_TYPE_LAST + above`, as a file may hold it. -/
inductive KVStoreValueType where
  | kvTypeNone
  | kvTypeBaseT
  | kvTypeUBaseT
  | kvTypeInt32
  | kvTypeUInt32
  | kvTypeString
  | kvTypeBlob
  | other (above : Nat)
  deriving DecidableEq

def kvTypeLast : Nat := 7

namespace KVStoreValueType

def toNat : KVStoreValueType → Nat
  | kvTypeNone => 0
  | kvTypeBaseT => 1
  | kvTypeUBaseT => 2
  | kvTypeInt32 => 3
  | kvTypeUInt32 => 4
  | kvTypeString => 5
  | kvTypeBlob => 6
  | other above => kvTypeLast + above

def ofNat : Nat → KVStoreValueType
  | 0 => kvTypeNone
  | 1 => kvTypeBaseT
  | 2 => kvTypeUBaseT
  | 3 => kvTypeInt32
  | 4 => kvTypeUInt32
  | 5 => kvTypeString
  | 6 => kvTypeBlob
  | above + 7 => other above

theorem ofNat_toNat (t : KVStoreValueType) : ofNat t.toNat = t := by
  cases t with
  | other above =>
    rw [toNat, kvTypeLast, Nat.add_comm]
    rfl
  | _ => rfl

end KVStoreValueType

/-- Why a call does not return. -/
inductive Stop where
  | assertFailed
  | undefinedBehaviour
  deriving DecidableEq

/-- `configASSERT` halts the device, unless the build defines NDEBUG. -/
def configASSERT (ndebug x : Bool) : Except Stop Unit :=
  if x || ndebug then .ok () else .error .assertFailed

/-- An operation on memory that C leaves undefined where it has no result. -/
def definedOr {α : Type*} : Option α → Except Stop α
  | some a => .ok a
  | none => .error .undefinedBehaviour

/-- The union of a value pointer with an inline value. -/
structure DataUnion where
  bytes : List UInt8
  size : bytes.length = sizeofVoidPtr
  deriving DecidableEq

namespace DataUnion

def pvData (u : DataUnion) : Nat := ofBytes u.bytes

/-- The union after `pvData`, `ulData` or `xData` is assigned. -/
def ofWord (x : Nat) : DataUnion := ⟨toBytes sizeofVoidPtr x, toBytes_length _ _⟩

/-- `memcpy` to the start of the union. -/
def copyIn (u : DataUnion) (v : List UInt8) (hv : v.length ≤ sizeofVoidPtr) : DataUnion where
  bytes := v ++ u.bytes.drop v.length
  size := by
    rw [List.length_append, List.length_drop, u.size]
    omega

theorem pvData_ofWord {a : Nat} (ha : a < sizeMod) : (ofWord a).pvData = a :=
  ofBytes_toBytes ha

end DataUnion

structure KVStoreCacheEntry where
  type : KVStoreValueType
  length : Nat
  data : DataUnion
  xChangePending : Bool
  deriving DecidableEq

def KVStoreCacheEntry.zero : KVStoreCacheEntry := ⟨.kvTypeNone, 0, .ofWord 0, false⟩

/-- `kvStoreCache` and the heap it allocates from; `n` is CS_NUM_KEYS. -/
structure KVStoreCache (n : Nat) where
  entry : Fin n → KVStoreCacheEntry
  heap : Heap UInt8

/-- Where the bytes of an entry are. -/
inductive DataPtr where
  /-- `&kvStoreCache[ key ].pvData` -/
  | inline
  | block (address : Nat)
  deriving DecidableEq

def DataPtr.isNull : DataPtr → Bool
  | inline => false
  | block address => address == 0

variable {n : Nat}

namespace KVStoreCache

def zeroed (answer : Nat → Nat × (Nat → UInt8)) : KVStoreCache n :=
  ⟨fun _ => .zero, .empty answer⟩

def setEntry (s : KVStoreCache n) (key : Fin n) (e : KVStoreCacheEntry) : KVStoreCache n :=
  { s with entry := Function.update s.entry key e }

def readThrough (s : KVStoreCache n) (key : Fin n) (len : Nat) :
    DataPtr → Except Stop (List UInt8)
  | .inline =>
      definedOr (if len ≤ sizeofVoidPtr then some ((s.entry key).data.bytes.take len) else none)
  | .block address => definedOr (s.heap.load address len)

def writeThrough (s : KVStoreCache n) (key : Fin n) (v : List UInt8) :
    DataPtr → Except Stop (KVStoreCache n)
  | .inline =>
      if hv : v.length ≤ sizeofVoidPtr then
        .ok (s.setEntry key { s.entry key with data := (s.entry key).data.copyIn v hv })
      else .error .undefinedBehaviour
  | .block address =>
      if v = [] then .ok s
      else (definedOr (s.heap.store address v)).map fun heap => { s with heap }

end KVStoreCache

def pvGetDataWritePtr (ndebug : Bool) (s : KVStoreCache n) (key : Fin n) :
    Except Stop DataPtr := do
  let pvData : DataPtr :=
    if sizeofVoidPtr < (s.entry key).length then .block (s.entry key).data.pvData else .inline
  configASSERT ndebug !pvData.isNull
  return pvData

/-- NULL is `DataPtr.block 0`. -/
def pvGetDataReadPtr (s : KVStoreCache n) (key : Fin n) : DataPtr :=
  if (s.entry key).type = .kvTypeNone then .block 0
  else if sizeofVoidPtr < (s.entry key).length then .block (s.entry key).data.pvData
  else .inline

/-- The new block's address, or NULL. -/
def pvPortMalloc (heap : Heap UInt8) (size : Nat) : Nat × Heap UInt8 :=
  let (address, heap) := heap.malloc sizeMod size
  (address.getD 0, heap)

def vPortFree (heap : Heap UInt8) (address : Nat) : Except Stop (Heap UInt8) :=
  if address = 0 then .ok heap else definedOr (heap.free address)

def vAllocateDataBuffer (s : KVStoreCache n) (key : Fin n) (xNewLength : Nat) :
    KVStoreCache n :=
  if sizeofVoidPtr < xNewLength then
    let (pvData, heap) := pvPortMalloc s.heap xNewLength
    { s.setEntry key { s.entry key with data := .ofWord pvData, length := xNewLength } with heap }
  else s.setEntry key { s.entry key with data := .ofWord 0, length := xNewLength }

def vClearDataBuffer (s : KVStoreCache n) (key : Fin n) : Except Stop (KVStoreCache n) :=
  if sizeofVoidPtr < (s.entry key).length then do
    let heap ← vPortFree s.heap (s.entry key).data.pvData
    return { s.setEntry key { s.entry key with data := .ofWord 0, length := 0 } with heap }
  else return s.setEntry key { s.entry key with length := 0, data := .ofWord 0 }

def vReallocDataBuffer (s : KVStoreCache n) (key : Fin n) (xNewLength : Nat) :
    Except Stop (KVStoreCache n) :=
  if (s.entry key).length < xNewLength then do
    let s ← vClearDataBuffer s key
    return vAllocateDataBuffer s key xNewLength
  -- a block that a value of at most four bytes replaces is kept, but its address is not
  else return s.setEntry key { s.entry key with length := xNewLength }

def KVStoreCache.retype (s : KVStoreCache n) (xKey : Fin n) (xNewType : KVStoreValueType) :
    KVStoreCache n :=
  s.setEntry xKey { s.entry xKey with type := xNewType, xChangePending := true }

/-- The first half of `xprvWriteCacheEntry`: find out whether anything changes, make room. -/
def prvPrepareCacheEntry (s : KVStoreCache n) (xKey : Fin n) (xNewType : KVStoreValueType)
    (pvNewValue : List UInt8) : Except Stop (KVStoreCache n) :=
  if (s.entry xKey).type = .kvTypeNone then
    return (vAllocateDataBuffer s xKey pvNewValue.length).retype xKey xNewType
  else if (s.entry xKey).length ≠ pvNewValue.length then do
    let s ← vReallocDataBuffer s xKey pvNewValue.length
    return s.retype xKey xNewType
  else if (s.entry xKey).type ≠ xNewType then
    return s.retype xKey xNewType
  else do
    let pvReadPtr := pvGetDataReadPtr s xKey
    if pvReadPtr.isNull then
      return s.setEntry xKey { s.entry xKey with xChangePending := true }
    let old ← s.readThrough xKey pvNewValue.length pvReadPtr
    if old ≠ pvNewValue then
      return s.setEntry xKey { s.entry xKey with xChangePending := true }
    return s

/-- The second half of `xprvWriteCacheEntry`: copy the value if a change is pending. -/
def prvStoreCacheEntry (ndebug : Bool) (s : KVStoreCache n) (xKey : Fin n)
    (pvNewValue : List UInt8) : Except Stop (KVStoreCache n) :=
  if (s.entry xKey).xChangePending then do
    let pvDataWrite ← pvGetDataWritePtr ndebug s xKey
    if pvDataWrite.isNull then return s else s.writeThrough xKey pvNewValue pvDataWrite
  else return s

/-- `pvNewValue` stands for the `xLength` bytes at the caller's (never NULL) pointer. -/
def xprvWriteCacheEntry (ndebug : Bool) (s : KVStoreCache n) (xKey : Fin n)
    (xNewType : KVStoreValueType) (pvNewValue : List UInt8) : Except Stop (KVStoreCache n) := do
  configASSERT ndebug (xNewType.toNat < kvTypeLast)
  configASSERT ndebug (0 < pvNewValue.length)
  let s ← prvPrepareCacheEntry s xKey xNewType pvNewValue
  prvStoreCacheEntry ndebug s xKey pvNewValue

/-- What `xprvCopyValueFromCache` reports: its result, `*pxDataType` and `*pxDataLength` (kept
when the entry is unset), and the buffer. -/
structure CacheRead where
  found : Bool
  pxDataType : Option KVStoreValueType
  pxDataLength : Option Nat
  pvBuffer : List UInt8

/-- `memcpy` to the start of a caller's buffer, of which `v` takes a part. -/
def copyToBuffer (pvBuffer v : List UInt8) : List UInt8 := v ++ pvBuffer.drop v.length

/-- `xBufferSize` is the length of the caller's buffer. -/
def xprvCopyValueFromCache (s : KVStoreCache n) (xKey : Fin n) (pvBuffer : List UInt8) :
    Except Stop CacheRead := do
  let pvDataPtr := pvGetDataReadPtr s xKey
  if pvDataPtr.isNull then return ⟨false, none, none, pvBuffer⟩
  let xDataLen := min pvBuffer.length (s.entry xKey).length
  let v ← s.readThrough xKey xDataLen pvDataPtr
  return ⟨0 < xDataLen, some (s.entry xKey).type, some (s.entry xKey).length,
    copyToBuffer pvBuffer v⟩

end RenesasDemo.KVStore
