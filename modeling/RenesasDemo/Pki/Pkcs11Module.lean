import Mathlib
import RenesasDemo.Pki.PublicKeyRoundTrip

namespace RenesasDemo.Pki

open Framework Std.Do

set_option mvcgen.warning false

/-- `CKA_CLASS`. -/
inductive CkObjectClass where
  | certificate
  | publicKey
  | privateKey
  deriving DecidableEq

/-- `pValue` is what is read of the object, `xToken` its CKA_TOKEN. -/
structure CkObject where
  xClass : CkObjectClass
  label : List UInt8
  pValue : List UInt8
  xToken : Bool
  deriving DecidableEq

def CkObject.Named (x : CkObject) (xClass : CkObjectClass) (label : List UInt8) : Prop :=
  x.xClass = xClass ∧ x.label = label

instance (x : CkObject) (xClass : CkObjectClass) (label : List UInt8) :
    Decidable (x.Named xClass label) :=
  inferInstanceAs (Decidable (_ ∧ _))

abbrev CkObjects := CkHandle → Option CkObject

/-- A PKCS#11 module (its code is not here), with the helpers that open a session and look for an
object. What a call returns may depend on anything; the laws are about the objects that it finds
and leaves. -/
structure Pkcs11Module (σ : Type) where
  objects : σ → CkObjects
  cGetFunctionList : StateM σ CkRv
  /-- From what the variable for the handle holds to what it holds afterwards. -/
  xInitializePkcs11Session : CkHandle → StateM σ (CkRv × CkHandle)
  xFindObjectWithLabelAndClass : CkHandle → List UInt8 → CkObjectClass → StateM σ (CkRv × CkHandle)
  cDestroyObject : CkHandle → CkHandle → StateM σ CkRv
  cCreateObject : CkHandle → CkObject → StateM σ CkRv
  /-- For the labels of the public and of the private key; the handle is that of the public one. -/
  cGenerateKeyPair : CkHandle → List UInt8 → List UInt8 → StateM σ (CkRv × CkHandle)
  cGetAttributeValue : CkHandle → CkHandle → StateM σ (CkRv × List UInt8)
  cCloseSession : CkHandle → StateM σ CkRv
  invalid_handle : ∀ s, objects s ckInvalidHandle = none
  functionList_spec : ∀ o, ⦃fun s => ⌜objects s = o⌝⦄ cGetFunctionList ⦃⇓ _ s => ⌜objects s = o⌝⦄
  session_spec : ∀ o xSession, ⦃fun s => ⌜objects s = o⌝⦄ xInitializePkcs11Session xSession
    ⦃⇓ r s => ⌜objects s = o ∧ (r.1 = ckrOk → r.2 ≠ 0)⌝⦄
  /-- An object with the name is found, or there is none. -/
  find_spec : ∀ o xSession label xClass, ⦃fun s => ⌜objects s = o⌝⦄
    xFindObjectWithLabelAndClass xSession label xClass
    ⦃⇓ r s => ⌜objects s = o ∧ (r.1 = ckrOk → (∃ x, o r.2 = some x ∧ x.Named xClass label) ∨
      r.2 = ckInvalidHandle ∧ ∀ h x, o h = some x → ¬ x.Named xClass label)⌝⦄
  /-- A call that fails may have destroyed the object all the same. -/
  destroy_spec : ∀ o xSession h, ⦃fun s => ⌜objects s = o⌝⦄ cDestroyObject xSession h
    ⦃⇓ r s => ⌜objects s = Function.update o h none ∨ r ≠ ckrOk ∧ objects s = o⌝⦄
  create_spec : ∀ o xSession x, ⦃fun s => ⌜objects s = o⌝⦄ cCreateObject xSession x
    ⦃⇓ r s => ⌜(r = ckrOk ∧ ∃ h, o h = none ∧ objects s = Function.update o h (some x)) ∨
      r ≠ ckrOk ∧ objects s = o⌝⦄
  /-- Both keys are there, or none. -/
  generate_spec : ∀ o xSession pubLabel prvLabel, ⦃fun s => ⌜objects s = o⌝⦄
    cGenerateKeyPair xSession pubLabel prvLabel
    ⦃⇓ r s => ⌜(r.1 = ckrOk ∧ ∃ h x x', r.2 ≠ h ∧ o r.2 = none ∧ o h = none ∧
        x.Named .publicKey pubLabel ∧ x'.Named .privateKey prvLabel ∧
        objects s = Function.update (Function.update o r.2 (some x)) h (some x')) ∨
      r.1 ≠ ckrOk ∧ objects s = o⌝⦄
  value_spec : ∀ o xSession h, ⦃fun s => ⌜objects s = o⌝⦄ cGetAttributeValue xSession h
    ⦃⇓ r s => ⌜objects s = o ∧ (r.1 = ckrOk → ∃ x, o h = some x ∧ x.pValue = r.2)⌝⦄
  /-- Objects of the token stay; others may go with the session. -/
  close_spec : ∀ o xSession, ⦃fun s => ⌜objects s = o⌝⦄ cCloseSession xSession
    ⦃⇓ _ s => ⌜(∀ h x, objects s h = some x → o h = some x) ∧
      ∀ h x, o h = some x → x.xToken = true → objects s h = some x⌝⦄

/-- The label that is used: at most `pkcs11configMAX_LABEL_LENGTH` characters of it, and none where
an argument is NULL. -/
def usedLabel (pkcs11configMAX_LABEL_LENGTH : Nat) (pcLabel : Option CString) (context : Bool) :
    List UInt8 :=
  match pcLabel with
  | none => []
  | some label => if context then label.bytes.take pkcs11configMAX_LABEL_LENGTH else []

namespace Pkcs11Module

attribute [spec] functionList_spec session_spec find_spec destroy_spec create_spec generate_spec
  value_spec close_spec

variable {σ : Type} (m : Pkcs11Module σ)

def xPrvDestoryObject (xSession : CkHandle) (xClass : CkObjectClass) (label : List UInt8) :
    StateM σ CkRv := do
  let xResult ← m.cGetFunctionList
  if xResult ≠ ckrOk then return xResult
  let (xResult, xObjectHandle) ← m.xFindObjectWithLabelAndClass xSession label xClass
  if xResult = ckrOk ∧ xObjectHandle ≠ ckInvalidHandle then
    m.cDestroyObject xSession xObjectHandle
  else return xResult

/-- `lWriteCertificateToPKCS11` and `lWriteEcPublicKeyToPKCS11`: the object with the label is
destroyed as in `xPrvDestoryObject`, the value is made, and the object created. -/
def writeObject (xSession : CkHandle) (xClass : CkObjectClass) (label : List UInt8)
    (made : CkRv × List UInt8) : StateM σ Int := do
  let xResult ← m.xPrvDestoryObject xSession xClass label
  if xResult ≠ ckrOk ∨ made.1 ≠ ckrOk then return -1
  let xResult ← m.cCreateObject xSession ⟨xClass, label, made.2, true⟩
  return if xResult = ckrOk then 0 else -1

/-- What `xPkcs11WriteCertificate` and `xPkcs11WritePubKey` do in their session. -/
def replaceObject (xSession : CkHandle) (xClass : CkObjectClass) (label : List UInt8)
    (made : CkRv × List UInt8) : StateM σ PkiStatus := do
  let xResult ← m.xPrvDestoryObject xSession xClass label
  if xResult ≠ ckrOk then return xPrvCkRvToPkiStatus xResult
  let lRslt ← m.writeObject xSession xClass label made
  return xPrvMbedtlsErrToPkiStatus lRslt

def closeIfOpen (xSession : CkHandle) : StateM σ Unit := do
  if xSession ≠ 0 then
    let _ ← m.cCloseSession xSession

/-- The functions open a session, use it and close it, also one that is open although
`xInitializePkcs11Session` failed. -/
def inSession {α : Type} (failed : CkRv → α) (use : CkHandle → StateM σ α) : StateM σ α := do
  let xResult ← m.cGetFunctionList
  if xResult ≠ ckrOk then return failed xResult
  let (xResult, xSession) ← m.xInitializePkcs11Session 0
  let result ← if xResult ≠ ckrOk then pure (failed xResult) else use xSession
  m.closeIfOpen xSession
  return result

/-- `pxCertificateContext` is NULL or has these bytes, at least one, in `raw`. -/
def xPkcs11WriteCertificate (pkcs11configMAX_LABEL_LENGTH : Nat) (pcLabel : Option CString)
    (pxCertificateContext : Option (List UInt8)) : StateM σ PkiStatus := do
  let label := usedLabel pkcs11configMAX_LABEL_LENGTH pcLabel pxCertificateContext.isSome
  if label = [] then return .errArgInvalid
  m.inSession xPrvCkRvToPkiStatus fun xSession =>
    m.replaceObject xSession .certificate label (ckrOk, pxCertificateContext.getD [])

/-- `pxPubKeyContext` is NULL, or `exportEcPoint` makes this of its key. -/
def xPkcs11WritePubKey (pkcs11configMAX_LABEL_LENGTH : Nat) (pcLabel : Option CString)
    (pxPubKeyContext : Option (CkRv × List UInt8)) : StateM σ PkiStatus := do
  let label := usedLabel pkcs11configMAX_LABEL_LENGTH pcLabel pxPubKeyContext.isSome
  if label = [] then return .errArgInvalid
  m.inSession xPrvCkRvToPkiStatus fun xSession =>
    m.replaceObject xSession .publicKey label (pxPubKeyContext.getD (ckrFunctionFailed, []))

/-- What the calls of `xPrvExportPubKeyDer` answer; `malloc` is the answer of `pvPortMalloc`. -/
def exportAnswers (malloc : Bool) (xSession xPublicKeyHandle : CkHandle) :
    StateM σ ExportAnswers := do
  let xResult ← m.cGetFunctionList
  if xResult ≠ ckrOk then return ⟨⟨xResult, false⟩, xResult, 0, malloc, xResult, []⟩
  let (size, pValue) ← m.cGetAttributeValue xSession xPublicKeyHandle
  if size ≠ ckrOk ∨ malloc = false then
    return ⟨⟨ckrOk, true⟩, size, BitVec.ofNat 32 pValue.length, malloc, size, []⟩
  let (value, ecPoint) ← m.cGetAttributeValue xSession xPublicKeyHandle
  return ⟨⟨ckrOk, true⟩, size, BitVec.ofNat 32 pValue.length, malloc, value, ecPoint⟩

/-- What `xPkcs11GenerateKeyPairEC` does in its session: the old keys are destroyed before the new
ones are there. -/
def replaceKeyPair (malloc : Bool) (prvLabel pubLabel : List UInt8) (xSession : CkHandle) :
    StateM σ (Option PkiStatus) := do
  let xResult ← m.xPrvDestoryObject xSession .privateKey prvLabel
  if xResult ≠ ckrOk then return some (xPrvCkRvToPkiStatus xResult)
  let xResult ← m.xPrvDestoryObject xSession .publicKey pubLabel
  if xResult ≠ ckrOk then return some (xPrvCkRvToPkiStatus xResult)
  let (xResult, xPubKeyHandle) ← m.cGenerateKeyPair xSession pubLabel prvLabel
  if xResult ≠ ckrOk then return some (xPrvCkRvToPkiStatus xResult)
  let answers ← m.exportAnswers malloc xSession xPubKeyHandle
  return (xPrvExportPubKeyDer answers).map fun r => xPrvCkRvToPkiStatus r.1

/-- An assertion fails if one of the labels is empty. -/
def xPkcs11GenerateKeyPairEC (pkcs11configMAX_LABEL_LENGTH : Nat)
    (pcPrivateKeyLabel pcPublicKeyLabel : CString) (malloc : Bool) :
    StateM σ (Option PkiStatus) := do
  let prvLabel := pcPrivateKeyLabel.bytes.take pkcs11configMAX_LABEL_LENGTH
  let pubLabel := pcPublicKeyLabel.bytes.take pkcs11configMAX_LABEL_LENGTH
  if prvLabel = [] ∨ pubLabel = [] then return none
  m.inSession (fun xResult => some (xPrvCkRvToPkiStatus xResult))
    (m.replaceKeyPair malloc prvLabel pubLabel)

end Pkcs11Module

/-- A read of a certificate: the status, what the calls of `lReadCertificateFromPKCS11` answered if
it was reached, and the bytes that `mbedtls_x509_crt_parse` got. -/
structure CertificateRead where
  xStatus : Option PkiStatus
  answers : Option CertificateAnswers
  parsed : Option (List UInt8)

/-- The arguments of `xPkcs11ReadCertificate`, what its variable for the session holds at first,
the answer of `mbedtls_calloc` and what `mbedtls_x509_crt_parse` makes of the bytes. -/
structure CertificateCall where
  pxCertificateContext : Bool
  pcLabel : Option CString
  xSession : CkHandle
  calloc : Bool
  parse : List UInt8 → Int

/-- Behind `lReadCertificateFromPKCS11`. -/
def CertificateAnswers.read (a : CertificateAnswers) (parsed : Option (List UInt8)) :
    CertificateRead :=
  ⟨(lReadCertificateFromPKCS11 a).map xPrvMbedtlsErrToPkiStatus, some a, parsed⟩

namespace Pkcs11Module

variable {σ : Type} (m : Pkcs11Module σ)

/-- The calls of `lReadCertificateFromPKCS11`. -/
def readObject (call : CertificateCall) (label : List UInt8) (xSession : CkHandle) :
    StateM σ CertificateRead := do
  let functionList ← m.cGetFunctionList
  let list : FunctionListAnswer := ⟨functionList, functionList = ckrOk⟩
  let (find, xCertObj) ← m.xFindObjectWithLabelAndClass xSession label .certificate
  if find ≠ ckrOk ∨ functionList ≠ ckrOk then
    return CertificateAnswers.read ⟨list, find, xCertObj, find, call.calloc, find, 0⟩ none
  let (size, _) ← m.cGetAttributeValue xSession xCertObj
  if size ≠ ckrOk ∨ call.calloc = false then
    return CertificateAnswers.read ⟨list, find, xCertObj, size, call.calloc, size, 0⟩ none
  let (value, pValue) ← m.cGetAttributeValue xSession xCertObj
  return CertificateAnswers.read
    ⟨list, find, xCertObj, size, call.calloc, value, call.parse pValue⟩
    (if value = ckrOk then some pValue else none)

/-- What the variable for the session holds in the end is closed, whatever it is. -/
def xPkcs11ReadCertificate (pkcs11configMAX_LABEL_LENGTH : Nat) (call : CertificateCall) :
    StateM σ CertificateRead := do
  let args := certificateArgs pkcs11configMAX_LABEL_LENGTH call.pxCertificateContext call.pcLabel
  if args ≠ .success then return ⟨some args, none, none⟩
  let xResult ← m.cGetFunctionList
  if xResult ≠ ckrOk then return ⟨some (xPrvCkRvToPkiStatus xResult), none, none⟩
  let (xResult, xSession) ← m.xInitializePkcs11Session call.xSession
  let result ← if xResult ≠ ckrOk then pure ⟨some (xPrvCkRvToPkiStatus xResult), none, none⟩
    else m.readObject call (usedLabel pkcs11configMAX_LABEL_LENGTH call.pcLabel true) xSession
  m.closeIfOpen xSession
  return result

end Pkcs11Module

end RenesasDemo.Pki
