import RenesasDemo.KVStore.Files

namespace RenesasDemo.KVStore

open Framework

/-- A row of `kvStoreDefaults`; `pointee` is the memory its pointer member leads to. -/
structure KVStoreDefaultEntry where
  type : KVStoreValueType
  length : Nat
  value : DataUnion
  pointee : List UInt8

/-- The build's tables and constants for `n` keys. -/
structure KVStoreConfig (n : Nat) where
  kvStoreKeyMap : Fin n → CString
  kvStoreDefaults : Fin n → KVStoreDefaultEntry
  kvstoreKeyMaxLen : Nat
  kvstoreValMaxLen : Nat
  ndebug : Bool
  keyMap_injective : Function.Injective kvStoreKeyMap
  keyMap_length : ∀ k, (kvStoreKeyMap k).length ≤ kvstoreKeyMaxLen

variable {n : Nat}

/-- The caller's buffer and the length that are left behind by a read. -/
structure EntryRead where
  pvBuffer : List UInt8
  xLength : Nat

/-- The test is on the number of bytes to copy, not on the length of the default. -/
def prvCopyDefault (d : KVStoreDefaultEntry) (xDataLen : Nat) : Except Stop (List UInt8) :=
  if sizeofVoidPtr < xDataLen then
    definedOr (if xDataLen ≤ d.pointee.length then some (d.pointee.take xDataLen) else none)
  else .ok (d.value.bytes.take xDataLen)

def xReadEntryOrDefault (cfg : KVStoreConfig n) (s : KVStoreCache n) (xKey : Fin n)
    (pvBuffer : List UInt8) : Except Stop EntryRead := do
  let r ← xprvCopyValueFromCache s xKey pvBuffer
  let xLength := r.pxDataLength.getD 0
  if xLength = 0 then
    let d := cfg.kvStoreDefaults xKey
    let v ← prvCopyDefault d (min r.pvBuffer.length d.length)
    return ⟨copyToBuffer r.pvBuffer v, d.length⟩
  else return ⟨r.pvBuffer, xLength⟩

def KVStoreConfig.keyType (cfg : KVStoreConfig n) (key : Nat) : Option KVStoreValueType :=
  if h : key < n then some (cfg.kvStoreDefaults ⟨key, h⟩).type else none

/-- The check that each setter makes, and the write behind it. -/
def prvSetValue (cfg : KVStoreConfig n) (s : KVStoreCache n) (key : Nat)
    (type : KVStoreValueType) (pvNewValue : List UInt8) : Except Stop (Bool × KVStoreCache n) :=
  if h : key < n then
    if (cfg.kvStoreDefaults ⟨key, h⟩).type = type then
      (xprvWriteCacheEntry cfg.ndebug s ⟨key, h⟩ type pvNewValue).map fun s => (true, s)
    else .ok (false, s)
  else .ok (false, s)

section setters

variable (cfg : KVStoreConfig n) (s : KVStoreCache n) (key : Nat)

/-- `none` is a NULL pointer; `xLength` is the number of bytes. -/
def kvStoreSetBlob (pvNewValue : Option (List UInt8)) : Except Stop (Bool × KVStoreCache n) :=
  match pvNewValue with
  | none => .ok (false, s)
  | some v => if 0 < v.length then prvSetValue cfg s key .kvTypeBlob v else .ok (false, s)

def kvStoreSetString (pcNewValue : Option CString) : Except Stop (Bool × KVStoreCache n) :=
  match pcNewValue with
  | none => .ok (false, s)
  | some str => prvSetValue cfg s key .kvTypeString (str.bytes ++ [0])

def kvStoreSetUInt32 (ulNewVal : UInt32) : Except Stop (Bool × KVStoreCache n) :=
  prvSetValue cfg s key .kvTypeUInt32 (toBytes 4 ulNewVal.toNat)

def kvStoreSetInt32 (lNewVal : Int32) : Except Stop (Bool × KVStoreCache n) :=
  prvSetValue cfg s key .kvTypeInt32 (toBytes 4 lNewVal.toUInt32.toNat)

def kvStoreSetUBase (uxNewVal : UInt32) : Except Stop (Bool × KVStoreCache n) :=
  prvSetValue cfg s key .kvTypeUBaseT (toBytes 4 uxNewVal.toNat)

def kvStoreSetBase (xNewVal : Int32) : Except Stop (Bool × KVStoreCache n) :=
  prvSetValue cfg s key .kvTypeBaseT (toBytes 4 xNewVal.toUInt32.toNat)

end setters

structure BufferRead where
  size : Nat
  pvBuffer : Option (List UInt8)
  deriving DecidableEq

structure WordRead (α : Type) where
  value : α
  pxSuccess : Bool
  deriving DecidableEq

/-- The check and the read of the four number getters, for the type that they check. -/
def prvGetWord (cfg : KVStoreConfig n) (s : KVStoreCache n) (key : Nat)
    (type : KVStoreValueType) : Except Stop (WordRead UInt32) :=
  if h : key < n then
    if (cfg.kvStoreDefaults ⟨key, h⟩).type = type then do
      let r ← xReadEntryOrDefault cfg s ⟨key, h⟩ (toBytes 4 0)
      return ⟨.ofNat (ofBytes r.pvBuffer), r.xLength == 4⟩
    else .ok ⟨0, false⟩
  else .ok ⟨0, false⟩

section getters

variable (cfg : KVStoreConfig n) (s : KVStoreCache n) (key : Nat)

def kvStoreGetBlob (pvBuffer : Option (List UInt8)) : Except Stop BufferRead :=
  match pvBuffer with
  | none => .ok ⟨0, none⟩
  | some buf =>
      if h : key < n then
        if (cfg.kvStoreDefaults ⟨key, h⟩).type = .kvTypeBlob then do
          let r ← xReadEntryOrDefault cfg s ⟨key, h⟩ buf
          return ⟨r.xLength, some r.pvBuffer⟩
        else .ok ⟨0, some buf⟩
      else .ok ⟨0, some buf⟩

/-- The terminator goes to the last byte of the buffer, which must have one. -/
def kvStoreGetString (pcBuffer : Option (List UInt8)) : Except Stop BufferRead :=
  match pcBuffer with
  | none => .ok ⟨0, none⟩
  | some buf =>
      if h : key < n then
        if (cfg.kvStoreDefaults ⟨key, h⟩).type = .kvTypeString then do
          let r ← xReadEntryOrDefault cfg s ⟨key, h⟩ buf
          if buf = [] then .error .undefinedBehaviour
          else return ⟨r.xLength - 1, some (r.pvBuffer.set (buf.length - 1) 0)⟩
        else .ok ⟨0, some buf⟩
      else .ok ⟨0, some buf⟩

def kvStoreGetUInt32 : Except Stop (WordRead UInt32) := prvGetWord cfg s key .kvTypeUInt32

/-- The bytes read are those of an `int32_t`. -/
def prvSignedWord (r : WordRead UInt32) : WordRead Int32 := ⟨r.value.toInt32, r.pxSuccess⟩

def kvStoreGetInt32 : Except Stop (WordRead Int32) :=
  (prvGetWord cfg s key .kvTypeInt32).map prvSignedWord

def kvStoreGetBase : Except Stop (WordRead Int32) :=
  (prvGetWord cfg s key .kvTypeBaseT).map prvSignedWord

/-- The check is on KV_TYPE_BASE_T here too. -/
def kvStoreGetUBase : Except Stop (WordRead UInt32) := prvGetWord cfg s key .kvTypeBaseT

end getters

/-- The buffer after a read, and the length reported, of a value that is set. -/
theorem xReadEntryOrDefault_set {s : KVStoreCache n} {k : Fin n} (cfg : KVStoreConfig n)
    (hs : s.Valid) (ht : (s.entry k).type ≠ .kvTypeNone) (hpos : 0 < (s.contents k).length)
    (buf : List UInt8) : xReadEntryOrDefault cfg s k buf =
      .ok ⟨copyToBuffer buf ((s.contents k).take buf.length), (s.contents k).length⟩ := by
  obtain ⟨hnull, hread⟩ := hs.readPtr ht
  have hlen := hs.contents_length ht
  have hcopy := hread (min buf.length (s.entry k).length) (Nat.min_le_right ..)
  have htake : (s.contents k).take (min buf.length (s.entry k).length) =
      (s.contents k).take buf.length := by
    rw [← hlen, ← List.take_take, List.take_of_length_le (Nat.le_refl _)]
  have hne : (s.entry k).length ≠ 0 := by omega
  simp [xReadEntryOrDefault, xprvCopyValueFromCache, hnull, hcopy, htake, hne, hlen, bind,
    Except.bind, pure, Except.pure]

theorem xReadEntryOrDefault_null {s : KVStoreCache n} {k : Fin n} (cfg : KVStoreConfig n)
    (hnull : (pvGetDataReadPtr s k).isNull = true) (buf : List UInt8) :
    xReadEntryOrDefault cfg s k buf =
      (prvCopyDefault (cfg.kvStoreDefaults k) (min buf.length (cfg.kvStoreDefaults k).length)).map
        fun v => ⟨copyToBuffer buf v, (cfg.kvStoreDefaults k).length⟩ := by
  simp only [xReadEntryOrDefault, xprvCopyValueFromCache, hnull, if_true, bind, Except.bind, pure,
    Except.pure, Option.getD_none]
  cases prvCopyDefault (cfg.kvStoreDefaults k) (min buf.length (cfg.kvStoreDefaults k).length) <;>
    rfl

theorem xReadEntryOrDefault_unset {s : KVStoreCache n} {k : Fin n} (cfg : KVStoreConfig n)
    (ht : (s.entry k).type = .kvTypeNone) (buf : List UInt8) :
    xReadEntryOrDefault cfg s k buf =
      (prvCopyDefault (cfg.kvStoreDefaults k) (min buf.length (cfg.kvStoreDefaults k).length)).map
        fun v => ⟨copyToBuffer buf v, (cfg.kvStoreDefaults k).length⟩ := by
  have hnull : (pvGetDataReadPtr s k).isNull = true := by
    simp [pvGetDataReadPtr, ht, DataPtr.isNull]
  exact xReadEntryOrDefault_null cfg hnull buf

/-- What a read sees of a key is its entry and its value. -/
theorem xReadEntryOrDefault_congr {s s' : KVStoreCache n} {k : Fin n} (cfg : KVStoreConfig n)
    (hs : s.Valid) (hs' : s'.Valid) (hentry : s'.entry k = s.entry k)
    (hcontents : (s.entry k).type ≠ .kvTypeNone → s'.contents k = s.contents k)
    (buf : List UInt8) : xReadEntryOrDefault cfg s' k buf = xReadEntryOrDefault cfg s k buf := by
  by_cases ht : (s.entry k).type = .kvTypeNone
  · rw [xReadEntryOrDefault_unset cfg ht, xReadEntryOrDefault_unset cfg (by rw [hentry]; exact ht)]
  · have ht' : (s'.entry k).type ≠ .kvTypeNone := by rw [hentry]; exact ht
    obtain ⟨hnull, hread⟩ := hs.readPtr ht
    obtain ⟨hnull', hread'⟩ := hs'.readPtr ht'
    have hcopy := hread (min buf.length (s.entry k).length) (Nat.min_le_right ..)
    have hcopy' := hread' (min buf.length (s'.entry k).length) (Nat.min_le_right ..)
    rw [hcontents ht, hentry] at hcopy'
    simp only [xReadEntryOrDefault, xprvCopyValueFromCache, hnull, hnull', hentry, hcopy, hcopy']

end RenesasDemo.KVStore
