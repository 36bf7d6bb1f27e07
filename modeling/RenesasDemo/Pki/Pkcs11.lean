import RenesasDemo.Framework.CString
import RenesasDemo.Framework.Segments

namespace RenesasDemo.Pki

open Framework

/-- A PKCS#11 return value, an `unsigned long` of 32 bits. -/
abbrev CkRv := BitVec 32

def ckrOk : CkRv := 0
def ckrHostMemory : CkRv := 2
def ckrFunctionFailed : CkRv := 6
def ckrObjectHandleInvalid : CkRv := 0x82

/-- Session and object handles; CK_INVALID_HANDLE is 0. -/
abbrev CkHandle := Nat

def ckInvalidHandle : CkHandle := 0

def mbedtlsErrX509AllocFailed : Int := -0x2880
def mbedtlsErrErrorCorruptionDetected : Int := -0x006E
def mbedtlsErrX509CertUnknownFormat : Int := -0x2780
def mbedtlsErrX509BadInputData : Int := -0x2800
def mbedtlsErrPemBadInputData : Int := -0x1480
def mbedtlsErrPemNoHeaderFooterPresent : Int := -0x1080

inductive PkiStatus where
  | success
  | err
  | errArgInvalid
  | errNomem
  | errInternal
  | errNotImplemented
  | errObj
  | errObjNotFound
  | errObjParsingFailed
  deriving DecidableEq

def xPrvMbedtlsErrToPkiStatus (lError : Int) : PkiStatus :=
  if lError = 0 then .success
  else if lError = mbedtlsErrX509AllocFailed then .errNomem
  else if lError = mbedtlsErrErrorCorruptionDetected then .errInternal
  else if lError = mbedtlsErrX509CertUnknownFormat ∨ lError = mbedtlsErrX509BadInputData ∨
      lError = mbedtlsErrPemBadInputData ∨ lError = mbedtlsErrPemNoHeaderFooterPresent then
    .errObjParsingFailed
  else if lError < 0 then .err
  else .success

def xPrvCkRvToPkiStatus (xError : CkRv) : PkiStatus :=
  if xError = ckrOk then .success
  else if xError = ckrObjectHandleInvalid then .errObjNotFound
  else if xError = ckrHostMemory then .errNomem
  else if xError = ckrFunctionFailed then .errInternal
  else .err

/-- A step that is taken while `xStatus` is PKI_SUCCESS. -/
def PkiStatus.andThen (xStatus next : PkiStatus) : PkiStatus :=
  if xStatus = .success then next else xStatus

/-- A step that is taken while `xResult` is CKR_OK. -/
def ckAndThen (xResult next : CkRv) : CkRv := if xResult = ckrOk then next else xResult

/-- What `C_GetFunctionList` answers. -/
structure FunctionListAnswer where
  xResult : CkRv
  /-- `pxFunctionList` is not NULL afterwards. -/
  list : Bool

/-- What the calls made by `lReadCertificateFromPKCS11` answer. -/
structure CertificateAnswers where
  functionList : FunctionListAnswer
  /-- `xFindObjectWithLabelAndClass`. -/
  find : CkRv
  xCertObj : CkHandle
  /-- `C_GetAttributeValue` for the size. -/
  size : CkRv
  /-- `mbedtls_calloc` does not return NULL. -/
  calloc : Bool
  /-- `C_GetAttributeValue` for the value. -/
  value : CkRv
  /-- `mbedtls_x509_crt_parse`. -/
  parse : Int

def CertificateAnswers.xResult (a : CertificateAnswers) : CkRv :=
  ckAndThen (ckAndThen (ckAndThen a.find a.size) (if a.calloc then ckrOk else ckrHostMemory))
    a.value

/-- Undefined when a function of a list that is not there is called. What `lResult` was set to
before the decoding, for a list or a certificate that is not there, is overwritten at the end. -/
def lReadCertificateFromPKCS11 (a : CertificateAnswers) : Option Int :=
  if a.find = ckrOk ∧ a.functionList.list = false then none
  else if a.xResult = ckrOk then some a.parse
  else some a.xResult.toInt

/-- What the calls made by `xPkcs11ReadCertificate` answer. -/
structure ReadCertificateAnswers where
  functionList : FunctionListAnswer
  /-- `xInitializePkcs11Session`. -/
  session : CkRv
  certificate : CertificateAnswers

/-- The checks of the arguments of `xPkcs11ReadCertificate`; NULL is `none` or `false`. -/
def certificateArgs (pkcs11configMAX_LABEL_LENGTH : Nat) (pxCertificateContext : Bool)
    (pcLabel : Option CString) : PkiStatus :=
  match pcLabel with
  | none => .errArgInvalid
  | some label =>
      if pxCertificateContext = false then .errArgInvalid
      else if label.strnlen pkcs11configMAX_LABEL_LENGTH = 0 then .errArgInvalid
      else .success

/-- `xStatus` when the certificate is to be read; an answer CKR_OK with a list that is NULL is
converted to PKI_SUCCESS. -/
def certificateStatus (pkcs11configMAX_LABEL_LENGTH : Nat) (pxCertificateContext : Bool)
    (pcLabel : Option CString) (a : ReadCertificateAnswers) : PkiStatus :=
  ((certificateArgs pkcs11configMAX_LABEL_LENGTH pxCertificateContext pcLabel).andThen
    (if a.functionList.xResult ≠ ckrOk ∨ a.functionList.list = false then
      xPrvCkRvToPkiStatus a.functionList.xResult
    else .success)).andThen
    (if a.session ≠ ckrOk then xPrvCkRvToPkiStatus a.session else .success)

def xPkcs11ReadCertificate (pkcs11configMAX_LABEL_LENGTH : Nat) (pxCertificateContext : Bool)
    (pcLabel : Option CString) (a : ReadCertificateAnswers) : Option PkiStatus :=
  let xStatus := certificateStatus pkcs11configMAX_LABEL_LENGTH pxCertificateContext pcLabel a
  if xStatus = .success then
    (lReadCertificateFromPKCS11 a.certificate).map xPrvMbedtlsErrToPkiStatus
  else some xStatus

/-- `xPkiReadCertificate` for an object of the form OBJ_FORM_PKCS11_LABEL. -/
def xPkiReadCertificateLabel (pkcs11configMAX_LABEL_LENGTH : Nat) (pcPkcs11Label : Option CString)
    (a : ReadCertificateAnswers) : Option PkiStatus :=
  xPkcs11ReadCertificate pkcs11configMAX_LABEL_LENGTH true pcPkcs11Label a

def pucEcP256AsnAndOid : List UInt8 :=
  [0x30, 0x59, 0x30, 0x13, 0x06, 0x07, 0x2a, 0x86, 0x48, 0xce, 0x3d, 0x02, 0x01, 0x06, 0x08, 0x2a,
    0x86, 0x48, 0xce, 0x3d, 0x03, 0x01, 0x07, 0x03, 0x42, 0x00]

def sizeofUnusedKeyTag : Nat := 2

/-- What the calls made by `xPrvExportPubKeyDer` answer. -/
structure ExportAnswers where
  functionList : FunctionListAnswer
  /-- `C_GetAttributeValue` for the size. -/
  size : CkRv
  ulValueLen : BitVec 32
  /-- `pvPortMalloc` does not return NULL. -/
  malloc : Bool
  /-- `C_GetAttributeValue` for the value, and the bytes it writes. -/
  value : CkRv
  ecPoint : List UInt8

def ExportAnswers.pubKeyDerLen (a : ExportAnswers) : Nat :=
  (a.ulValueLen + BitVec.ofNat 32 (pucEcP256AsnAndOid.length - sizeofUnusedKeyTag + 1)).toNat

/-- The result, `*ppucPubKeyDer` and `*pulPubKeyDerLen`. The header is copied over the tags of
the point. Undefined when something is written outside the buffer or a list that is not there is
used. -/
def xPrvExportPubKeyDer (a : ExportAnswers) : Option (CkRv × Option (List UInt8) × Nat) :=
  if a.functionList.xResult ≠ ckrOk then some (ckrHostMemory, none, 0)
  else if a.functionList.list = false then none
  else if a.size ≠ ckrOk ∨ a.malloc = false then some (ckrHostMemory, none, 0)
  else
    let zeros : Buffer UInt8 a.pubKeyDerLen :=
      ⟨List.replicate a.pubKeyDerLen 0, List.length_replicate⟩
    (zeros.memcpy (pucEcP256AsnAndOid.length - sizeofUnusedKeyTag) a.ecPoint).bind fun b =>
      (b.memcpy 0 pucEcP256AsnAndOid).map fun b =>
        if a.value ≠ ckrOk then (a.value, none, 0)
        else (a.value, some b.bytes, a.pubKeyDerLen)

/-- What the calls made by `xPkcs11ReadPublicKey` answer. -/
structure ReadPublicKeyAnswers where
  functionList : FunctionListAnswer
  /-- `xInitializePkcs11Session`, and the session handle it leaves. -/
  session : CkRv
  xSession : CkHandle
  /-- `xFindObjectWithLabelAndClass`. -/
  find : CkRv
  exported : ExportAnswers
  /-- `C_CloseSession`. -/
  close : CkRv

def publicKeyArgs (pkcs11configMAX_LABEL_LENGTH : Nat) (ppucPublicKeyDer : Bool)
    (pcPubKeyLabel : Option CString) : PkiStatus :=
  match pcPubKeyLabel with
  | none => .errArgInvalid
  | some label =>
      if ppucPublicKeyDer = false then .errArgInvalid
      else
        let uxPubKeyLabelLen := label.strnlen (pkcs11configMAX_LABEL_LENGTH + 1)
        if uxPubKeyLabelLen = 0 ∨ pkcs11configMAX_LABEL_LENGTH < uxPubKeyLabelLen then
          .errArgInvalid
        else .success

/-- What `xPkcs11ReadPublicKey` leaves: its status and, where they are set, `*ppucPublicKeyDer` and
`*puxPubKeyLen`. -/
structure PublicKeyResult where
  xStatus : PkiStatus
  pucPublicKeyDer : Option (List UInt8)
  uxPubKeyLen : Option Nat

def searchAndExport (a : ReadPublicKeyAnswers) : Option PublicKeyResult :=
  let xStatus := xPrvCkRvToPkiStatus a.find
  if xStatus = .success then
    (xPrvExportPubKeyDer a.exported).map fun (xResult, pucPubKeyDer, ulPubKeyLen) =>
      let xStatus := xPrvCkRvToPkiStatus xResult
      ⟨xStatus, pucPubKeyDer, if xStatus = .success then some ulPubKeyLen else none⟩
  else some ⟨xStatus, none, none⟩

/-- The status of closing the session replaces the one before. -/
def closeSession (a : ReadPublicKeyAnswers) (r : PublicKeyResult) : Option PublicKeyResult :=
  if a.xSession ≠ 0 then
    if a.functionList.list = false then none
    else some { r with xStatus := xPrvCkRvToPkiStatus a.close }
  else some r

/-- `xStatus` when the session is to be opened. -/
def publicKeyStatus (pkcs11configMAX_LABEL_LENGTH : Nat) (ppucPublicKeyDer : Bool)
    (pcPubKeyLabel : Option CString) (a : ReadPublicKeyAnswers) : PkiStatus :=
  (publicKeyArgs pkcs11configMAX_LABEL_LENGTH ppucPublicKeyDer pcPubKeyLabel).andThen
    (xPrvCkRvToPkiStatus a.functionList.xResult)

/-- What happens until the session is closed. -/
def openAndExport (a : ReadPublicKeyAnswers) : Option PublicKeyResult :=
  let xStatus := xPrvCkRvToPkiStatus a.session
  if xStatus = .success then searchAndExport a else some ⟨xStatus, none, none⟩

def xPkcs11ReadPublicKey (pkcs11configMAX_LABEL_LENGTH : Nat) (ppucPublicKeyDer : Bool)
    (pcPubKeyLabel : Option CString) (a : ReadPublicKeyAnswers) : Option PublicKeyResult :=
  let xStatus := publicKeyStatus pkcs11configMAX_LABEL_LENGTH ppucPublicKeyDer pcPubKeyLabel a
  if xStatus = .success then (openAndExport a).bind (closeSession a)
  else some ⟨xStatus, none, none⟩

end RenesasDemo.Pki
