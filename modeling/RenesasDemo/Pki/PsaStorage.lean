import Mathlib.Logic.Function.Basic
import RenesasDemo.Pki.PsaUtil
import RenesasDemo.Pki.SoundSuccess

namespace RenesasDemo.Pki

open Framework

/-- What a PSA storage service holds under each id. -/
abbrev PsaStore := Nat → Option (List UInt8)

namespace PsaStore

def set (store : PsaStore) (uid : Nat) (data : List UInt8) : PsaStatus × PsaStore :=
  if uid = 0 then (.invalidArgument, store)
  else (.success, Function.update store uid (some data))

def getInfo (store : PsaStore) (uid : Nat) : Except PsaStatus Nat :=
  match store uid with
  | some data => .ok data.length
  | none => .error .doesNotExist

def get (store : PsaStore) (uid dataOffset dataSize : Nat) : Except PsaStatus (List UInt8) :=
  match store uid with
  | some data =>
      if dataOffset ≤ data.length then .ok ((data.drop dataOffset).take dataSize)
      else .error .invalidArgument
  | none => .error .doesNotExist

end PsaStore

/-- The internal trusted storage and the protected storage. -/
structure PsaStores where
  its : PsaStore
  ps : PsaStore

def lWriteObjectToPsaIts (stores : PsaStores) (xObjectUid : Nat) (pucData : List UInt8) :
    Int × PsaStores :=
  let (xStatus, its) := stores.its.set xObjectUid pucData
  (mbedtlsPsaErrTranslatePk xStatus, { stores with its })

def lWriteObjectToPsaPs (stores : PsaStores) (xObjectUid : Nat) (pucData : List UInt8) :
    Int × PsaStores :=
  let (xStatus, ps) := stores.ps.set xObjectUid pucData
  (mbedtlsPsaErrTranslatePk xStatus, { stores with ps })

/-- The code, and the buffer unless `*ppucData` is left as it was; none when the assertion on the
id fails. -/
abbrev ReadObjectResult := Option (Int × Option (List UInt8))

def readObject (mbedtlsCalloc : Nat → Bool) (store : PsaStore) (xObjectUid : Nat) :
    ReadObjectResult :=
  if xObjectUid = 0 then none
  else
    match (store.getInfo xObjectUid).bind fun size =>
      if mbedtlsCalloc size then store.get xObjectUid 0 size else .error .insufficientMemory with
    | .ok data => some (mbedtlsPsaErrTranslatePk .success, some data)
    | .error xStatus => some (mbedtlsPsaErrTranslatePk xStatus, none)

def lReadObjectFromPsaIts (mbedtlsCalloc : Nat → Bool) (stores : PsaStores) (xObjectUid : Nat) :
    ReadObjectResult :=
  readObject mbedtlsCalloc stores.its xObjectUid

def lReadObjectFromPsaPs (mbedtlsCalloc : Nat → Bool) (stores : PsaStores) (xObjectUid : Nat) :
    ReadObjectResult :=
  readObject mbedtlsCalloc stores.ps xObjectUid

/-- The form of an object with what the union holds. A buffer that is NULL is none; its length is
`uxLen`. -/
inductive PkiObject where
  | none
  | pem (pucBuffer : Option (List UInt8))
  | der (pucBuffer : Option (List UInt8))
  | pkcs11Label (pcPkcs11Label : CString)
  | psaCrypto (xPsaCryptoId : Nat)
  | psaIts (xPsaStorageId : Nat)
  | psaPs (xPsaStorageId : Nat)

/-- What is called to read a key, the storage apart. An allocation is granted or not. -/
structure PkiCalls where
  mbedtlsCalloc : Nat → Bool
  pvPortMalloc : Nat → Bool
  mbedtlsPkParseKey : List UInt8 → Int
  xPkcs11InitMbedtlsPkContext : CString → PkiStatus
  lPsaInitMbedtlsPkContext : Nat → Int
  xPkcs11ReadPublicKey : CString → PkiStatus × Option (List UInt8)
  xReadPublicKeyFromPSACrypto : Nat → PsaStatus × Option (List UInt8)

section reads

variable (calls : PkiCalls) (stores : PsaStores)

/-- OBJ_FORM_PEM and OBJ_FORM_DER -/
def parsePrivateKey (pucBuffer : Option (List UInt8)) : PkiStatus :=
  match pucBuffer with
  | some (b :: key) => xPrvMbedtlsErrToPkiStatus (calls.mbedtlsPkParseKey (b :: key))
  | _ => .errArgInvalid

/-- A blob is parsed if it was read; none when an assertion fails. -/
def parseBlob (read : ReadObjectResult) : Option PkiStatus :=
  read.bind fun (lError, pucPk) =>
    if pucPk = some [] then none
    else
      let lError := if lError = 0 then calls.mbedtlsPkParseKey (pucPk.getD []) else lError
      some (xPrvMbedtlsErrToPkiStatus lError)

def xPkiReadPrivateKey (pxPrivateKey : PkiObject) : Option PkiStatus :=
  match pxPrivateKey with
  | .pem pucBuffer | .der pucBuffer => some (parsePrivateKey calls pucBuffer)
  | .pkcs11Label label => some (calls.xPkcs11InitMbedtlsPkContext label)
  | .psaCrypto id => some (xPrvMbedtlsErrToPkiStatus (calls.lPsaInitMbedtlsPkContext id))
  | .psaIts id => parseBlob calls (lReadObjectFromPsaIts calls.mbedtlsCalloc stores id)
  | .psaPs id =>
      -- the case has no `break`: what follows it overwrites the status
      (parseBlob calls (lReadObjectFromPsaPs calls.mbedtlsCalloc stores id)).map
        fun _ => .errArgInvalid
  | .none => some .errArgInvalid

/-- The status and the key; none when an assertion fails, or when memory that was not granted is
written. -/
abbrev PublicKeyDerResult := Option (PkiStatus × Option (List UInt8))

/-- OBJ_FORM_PEM and OBJ_FORM_DER -/
def copyPublicKey (pucBuffer : Option (List UInt8)) : PublicKeyDerResult :=
  match pucBuffer with
  | some (b :: key) =>
      if calls.pvPortMalloc (b :: key).length then some (.success, some (b :: key)) else none
  | _ => some (.errArgInvalid, none)

def xPkiReadPublicKeyDer (ppucPubKeyDer puxPubKeyDerLen : Bool) (pxPublicKey : Option PkiObject) :
    PublicKeyDerResult :=
  if ppucPubKeyDer = false ∨ puxPubKeyDerLen = false then some (.errArgInvalid, none)
  else
    match pxPublicKey with
    | none => some (.errArgInvalid, none)
    | some (.pem pucBuffer) | some (.der pucBuffer) => copyPublicKey calls pucBuffer
    | some (.pkcs11Label label) => some (calls.xPkcs11ReadPublicKey label)
    | some (.psaCrypto id) =>
        let (lError, key) := calls.xReadPublicKeyFromPSACrypto id
        some (xPrvMbedtlsErrToPkiStatus lError.value, key)
    | some (.psaIts id) =>
        (lReadObjectFromPsaIts calls.mbedtlsCalloc stores id).map fun (lError, key) =>
          (xPrvMbedtlsErrToPkiStatus lError, key)
    | some (.psaPs id) =>
        (lReadObjectFromPsaIts calls.mbedtlsCalloc stores id).map fun (lError, key) =>
          (xPrvMbedtlsErrToPkiStatus lError, key)
    | some .none => some (.errArgInvalid, none)

end reads

/-- The forms of objects in the PSA storages. -/
inductive PsaStorageForm where
  | psaIts
  | psaPs
  deriving DecidableEq

namespace PsaStorageForm

def object : PsaStorageForm → Nat → PkiObject
  | psaIts => .psaIts
  | psaPs => .psaPs

def write : PsaStorageForm → PsaStores → Nat → List UInt8 → Int × PsaStores
  | psaIts => lWriteObjectToPsaIts
  | psaPs => lWriteObjectToPsaPs

end PsaStorageForm

/-- The object is read as the bytes `data`. -/
structure ReadsBack (calls : PkiCalls) (stores : PsaStores) (object : PkiObject)
    (data : List UInt8) : Prop where
  publicKey : xPkiReadPublicKeyDer calls stores true true (some object) =
    some (.success, some data)
  privateKey : xPkiReadPrivateKey calls stores object = some .success ↔
    calls.mbedtlsPkParseKey data = 0

section storage

variable {calls : PkiCalls} {stores : PsaStores} {store : PsaStore} {id : Nat}
  {data : List UInt8}

theorem set_store (hid : 0 < id) :
    store.set id data = (.success, Function.update store id (some data)) :=
  if_neg (Nat.ne_of_gt hid)

theorem readObject_stored (hcalloc : ∀ n, 0 < n → calls.mbedtlsCalloc n = true) (hid : 0 < id)
    (hdata : data ≠ []) (h : store id = some data) :
    readObject calls.mbedtlsCalloc store id = some (0, some data) := by
  have hgranted := hcalloc data.length (List.length_pos_of_ne_nil hdata)
  rw [readObject, if_neg (Nat.ne_of_gt hid), PsaStore.getInfo, h]
  simp only [Except.bind, hgranted, if_true, PsaStore.get, h, Nat.zero_le, List.drop_zero,
    List.take_length]
  rfl

/-- Bytes come out only if they are stored. -/
theorem stored_of_readObject {lError : Int}
    (h : readObject calls.mbedtlsCalloc store id = some (lError, some data)) :
    store id = some data := by
  rw [readObject] at h
  split at h
  · cases h
  · cases hstore : store id with
    | none =>
      rw [PsaStore.getInfo, hstore] at h
      cases h
    | some stored =>
      simp only [PsaStore.getInfo, PsaStore.get, hstore, Except.bind, Nat.zero_le, if_true,
        List.drop_zero, List.take_length] at h
      cases hgranted : calls.mbedtlsCalloc stored.length with
      | true =>
        rw [hgranted] at h
        exact (Prod.mk.inj (Option.some.inj h)).2
      | false =>
        rw [hgranted] at h
        cases h

/-- A key that was read decides the status by itself. -/
theorem parseBlob_read (hparse : calls.mbedtlsPkParseKey data ≤ 0) (hdata : data ≠ []) :
    parseBlob calls (some (0, some data)) = some .success ↔ calls.mbedtlsPkParseKey data = 0 := by
  simp only [parseBlob, Option.bind_some, Option.some.injEq, if_neg hdata, if_true,
    Option.getD_some]
  rw [xPrvMbedtlsErrToPkiStatus_success]
  omega

theorem readsBack_psaIts (hcalloc : ∀ n, 0 < n → calls.mbedtlsCalloc n = true)
    (hparse : calls.mbedtlsPkParseKey data ≤ 0) (hid : 0 < id) (hdata : data ≠ [])
    (h : stores.its id = some data) : ReadsBack calls stores (.psaIts id) data := by
  have hread : lReadObjectFromPsaIts calls.mbedtlsCalloc stores id = some (0, some data) :=
    readObject_stored hcalloc hid hdata h
  constructor
  · rw [xPkiReadPublicKeyDer, if_neg (by decide)]
    simp only [hread]
    rfl
  · rw [xPkiReadPrivateKey, hread]
    exact parseBlob_read hparse hdata

/-- The public key is looked for in the other storage. -/
theorem publicKey_psaPs (hcalloc : ∀ n, 0 < n → calls.mbedtlsCalloc n = true) (hid : 0 < id)
    (hdata : data ≠ []) :
    xPkiReadPublicKeyDer calls stores true true (some (.psaPs id)) = some (.success, some data) ↔
      stores.its id = some data := by
  rw [xPkiReadPublicKeyDer, if_neg (by decide)]
  simp only [lReadObjectFromPsaIts]
  constructor
  · intro h
    obtain ⟨⟨lError, key⟩, hread, hresult⟩ := Option.map_eq_some_iff.mp h
    obtain ⟨-, rfl⟩ := Prod.mk.inj hresult
    exact stored_of_readObject hread
  · intro h
    rw [readObject_stored hcalloc hid hdata h]
    rfl

/-- No private key of this form is accepted. -/
theorem privateKey_psaPs :
    xPkiReadPrivateKey calls stores (.psaPs id) ≠ some .success := by
  rw [xPkiReadPrivateKey]
  intro h
  obtain ⟨xStatus, -, hstatus⟩ := Option.map_eq_some_iff.mp h
  cases hstatus

/-- Objects in the internal trusted storage are read back. Those in the protected storage are not,
unless the internal trusted storage holds the same and no private key is in it. -/
theorem readsBack_iff (hcalloc : ∀ n, 0 < n → calls.mbedtlsCalloc n = true)
    (hparse : ∀ key, calls.mbedtlsPkParseKey key ≤ 0) (form : PsaStorageForm) (stores : PsaStores)
    (hid : 0 < id) (hdata : data ≠ []) :
    ReadsBack calls (form.write stores id data).2 (form.object id) data ↔
      form = .psaIts ∨
        form = .psaPs ∧ stores.its id = some data ∧ calls.mbedtlsPkParseKey data ≠ 0 := by
  cases form with
  | psaIts =>
    refine iff_of_true ?_ (.inl rfl)
    refine readsBack_psaIts hcalloc (hparse data) hid hdata ?_
    simp only [PsaStorageForm.write, lWriteObjectToPsaIts, set_store hid, Function.update_self]
  | psaPs =>
    have hits : ((PsaStorageForm.psaPs.write stores id data).2).its = stores.its := rfl
    constructor
    · intro h
      refine .inr ⟨rfl, ?_, ?_⟩
      · rw [← hits]
        exact (publicKey_psaPs hcalloc hid hdata).mp h.publicKey
      · intro haccepts
        exact privateKey_psaPs (h.privateKey.mpr haccepts)
    · intro h
      obtain ⟨-, hstored, hrejects⟩ := h.resolve_left (by decide)
      exact ⟨(publicKey_psaPs hcalloc hid hdata).mpr (hits ▸ hstored),
        iff_of_false privateKey_psaPs hrejects⟩

end storage

/-- Every allocation is granted, and no blob is a key. -/
def exampleCalls : PkiCalls where
  mbedtlsCalloc := fun _ => true
  pvPortMalloc := fun _ => true
  mbedtlsPkParseKey := fun _ => -0x3D00
  xPkcs11InitMbedtlsPkContext := fun _ => .errObjNotFound
  lPsaInitMbedtlsPkContext := fun _ => mbedtlsErrPlatformHwAccelFailed
  xPkcs11ReadPublicKey := fun _ => (.errObjNotFound, none)
  xReadPublicKeyFromPSACrypto := fun _ => (.invalidHandle, none)

def emptyStores : PsaStores := ⟨fun _ => none, fun _ => none⟩

theorem readsBack_iff_its : ReadsBack exampleCalls
    (PsaStorageForm.psaIts.write emptyStores 1 [0x30]).2 (PsaStorageForm.psaIts.object 1)
      [0x30] := by
  have hparse : ∀ key, exampleCalls.mbedtlsPkParseKey key ≤ 0 := by
    intro key
    change (-0x3D00 : Int) ≤ 0
    decide
  exact (readsBack_iff (fun _ _ => rfl) hparse .psaIts emptyStores (by decide)
    (by decide)).mpr (.inl rfl)

theorem protected_storage_not_read : ¬ ReadsBack exampleCalls
    (PsaStorageForm.psaPs.write emptyStores 1 [0x30]).2 (PsaStorageForm.psaPs.object 1) [0x30] := by
  intro h
  exact absurd h.publicKey (by decide)

end RenesasDemo.Pki
