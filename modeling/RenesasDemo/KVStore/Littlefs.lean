import Mathlib.Data.List.FinRange
import RenesasDemo.Framework.CString
import RenesasDemo.KVStore.Cache

namespace RenesasDemo.KVStore

open Framework

/-- `sizeof( KVStoreTLVHeader_t )`: the type and the length, four bytes each. -/
abbrev sizeofTLVHeader : Nat := 8

/-- The largest file littlefs makes. -/
abbrev lfsFileMax : Nat := 2 ^ 31 - 1

structure KVStoreTLVHeader where
  type : KVStoreValueType
  length : Nat
  deriving DecidableEq

def KVStoreTLVHeader.toBytes (h : KVStoreTLVHeader) : List UInt8 :=
  Framework.toBytes 4 h.type.toNat ++ Framework.toBytes 4 h.length

/-- A zeroed header into which the given bytes are read. -/
def KVStoreTLVHeader.ofBytes (bs : List UInt8) : KVStoreTLVHeader where
  type := .ofNat (Framework.ofBytes (bs.take 4))
  length := Framework.ofBytes ((bs.drop 4).take 4)

structure LfsInfo where
  isReg : Bool
  size : Nat

/-- What littlefs answers while the file of one key is read. -/
structure LfsReadAnswers where
  /-- `lfs_stat` in `xprvGetValueLengthFromImpl`; `none` is an error code. -/
  statLength : Option LfsInfo
  /-- `lfs_stat` in `xValidateFile`. -/
  statValidate : Option LfsInfo
  openOk : Bool
  /-- What there is to read at the header; `none` is an error code. -/
  header : Option (List UInt8)
  /-- What there is to read behind the header. -/
  value : Option (List UInt8)

/-- `lfs_file_read` delivers at most the bytes it is asked for. -/
def lfsFileRead (content : Option (List UInt8)) (size : Nat) : Option (List UInt8) :=
  content.map (List.take size)

def xValidateFile (lfs : LfsReadAnswers) : Bool :=
  match lfs.statValidate with
  | some xFileInfo => xFileInfo.isReg && sizeofTLVHeader ≤ xFileInfo.size
  | none => false

/-- The subtraction wraps for a file shorter than the header. -/
def xprvGetValueLengthFromImpl (lfs : LfsReadAnswers) : Nat :=
  match lfs.statLength with
  | some xFileInfo => (xFileInfo.size + sizeMod - sizeofTLVHeader) % sizeMod
  | none => 0

/-- What opening the file and reading its header delivers. -/
def LfsReadAnswers.headerRead (lfs : LfsReadAnswers) : Option (List UInt8) :=
  if lfs.openOk then lfsFileRead lfs.header sizeofTLVHeader else none

/-- What `xprvReadValueFromImpl` wrote to `pvBuffer`, and `*pxType`, `*pxLength` when it
returned pdTRUE. -/
structure NvRead where
  pvBuffer : List UInt8
  result : Option KVStoreTLVHeader

/-- `xBufferSize` is not looked at. -/
def xprvReadValueFromImpl (ndebug : Bool) (kvstoreValMaxLen : Nat) (lfs : LfsReadAnswers) :
    Except Stop NvRead :=
  if xValidateFile lfs then do
    let xTlvHeader := KVStoreTLVHeader.ofBytes (lfs.headerRead.getD [])
    configASSERT ndebug (xTlvHeader.length < kvstoreValMaxLen)
    if lfs.headerRead.map List.length = some sizeofTLVHeader then
      let valueRead := lfsFileRead lfs.value xTlvHeader.length
      return ⟨valueRead.getD [],
        if valueRead.map List.length = some xTlvHeader.length then some xTlvHeader else none⟩
    else return ⟨[], none⟩
  else return ⟨[], none⟩

variable {n : Nat}

/-- One pass of the loop in `vprvCacheInit`. -/
def prvCacheInitEntry (ndebug : Bool) (kvstoreValMaxLen : Nat) (lfs : LfsReadAnswers)
    (s : KVStoreCache n) (i : Fin n) : Except Stop (KVStoreCache n) :=
  let s := s.setEntry i { s.entry i with xChangePending := false, type := .kvTypeNone }
  let xNvLength := xprvGetValueLengthFromImpl lfs
  if 0 < xNvLength then do
    let s := vAllocateDataBuffer s i xNvLength
    let pvBuffer ← pvGetDataWritePtr ndebug s i
    let nv ← xprvReadValueFromImpl ndebug kvstoreValMaxLen lfs
    let s ← s.writeThrough i nv.pvBuffer pvBuffer
    match nv.result with
    | some xTlvHeader =>
        return s.setEntry i
          { s.entry i with type := xTlvHeader.type, length := xTlvHeader.length }
    | none => return s
  else return s

def vprvCacheInit (ndebug : Bool) (kvstoreValMaxLen : Nat) (lfs : Fin n → LfsReadAnswers)
    (s : KVStoreCache n) : Except Stop (KVStoreCache n) :=
  (List.finRange n).foldlM (fun s i => prvCacheInitEntry ndebug kvstoreValMaxLen (lfs i) s i) s

end RenesasDemo.KVStore
