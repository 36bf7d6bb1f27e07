import RenesasDemo.Framework.Der
import RenesasDemo.Pki.SoundSuccess

namespace RenesasDemo.Pki

open Framework

def ckrFunctionNotSupported : CkRv := 0x54

def mbedtlsErrEcpBufferTooSmall : Int := -0x4F00

def mbedtlsAsn1OctetString : UInt8 := 0x04

/-- 1.2.840.10045.2.1 -/
def oidEcPublicKey : List UInt8 := [0x2a, 0x86, 0x48, 0xce, 0x3d, 0x02, 0x01]

/-- 1.2.840.10045.3.1.7 -/
def oidSecp256r1 : List UInt8 := [0x2a, 0x86, 0x48, 0xce, 0x3d, 0x03, 0x01, 0x07]

/-- A public point of P-256 by its coordinates, highest byte first. -/
structure P256Point where
  x : Buffer UInt8 32
  y : Buffer UInt8 32

def P256Point.uncompressed (q : P256Point) : List UInt8 := 0x04 :: (q.x.bytes ++ q.y.bytes)

/-- What one call of `mbedtls_ecp_point_write_binary` returns, `*olen`, and what it writes. -/
structure PointWrite where
  lRslt : Int
  olen : Nat
  written : List UInt8

/-- `mbedtls_ecp_point_write_binary` for a point in the uncompressed format, as it depends on the
size of the buffer. -/
structure PointWriter (point : List UInt8) where
  write : Nat → PointWrite
  write_small : ∀ buflen < point.length, (write buflen).lRslt = mbedtlsErrEcpBufferTooSmall ∧
    (write buflen).olen = point.length
  write_fits : ∀ buflen, point.length ≤ buflen → write buflen = ⟨0, point.length, point⟩

def ecpPointWriteBinary (point : List UInt8) : PointWriter point where
  write buflen :=
    if buflen < point.length then ⟨mbedtlsErrEcpBufferTooSmall, point.length, []⟩
    else ⟨0, point.length, point⟩
  write_small := by
    intro buflen h
    rw [if_pos h]
    exact ⟨rfl, rfl⟩
  write_fits := by
    intro buflen h
    rw [if_neg (Nat.not_lt.mpr h)]

/-- What the calls made by `lWriteEcPublicKeyToPKCS11` answer. -/
structure WriteKeyAnswers where
  functionList : CkRv
  /-- `xFindObjectWithLabelAndClass`, and the handle of an object that is there already. -/
  find : CkRv
  xCertHandle : CkHandle
  /-- `C_DestroyObject`. -/
  destroy : CkRv
  /-- `pk_info->type` is MBEDTLS_PK_ECKEY. -/
  ecKey : Bool
  /-- `mbedtls_calloc` does not return NULL. -/
  calloc : Bool
  /-- `C_CreateObject`. -/
  create : CkRv

/-- `xResult` when the point is to be exported. -/
def WriteKeyAnswers.opened (a : WriteKeyAnswers) : CkRv :=
  let xResult := ckAndThen a.functionList a.find
  if xResult = ckrOk ∧ a.xCertHandle ≠ ckInvalidHandle then a.destroy else xResult

/-- The export of the point behind the tag and the length of an octet string: `xResult`, and the
first `uxEcPointLength` bytes of `pucEcPoint`. -/
def exportEcPoint (write : Nat → PointWrite) (a : WriteKeyAnswers) : CkRv × List UInt8 :=
  if a.ecKey = false then (ckrFunctionNotSupported, [])
  else
    let needed := write 0
    if needed.lRslt ≠ mbedtlsErrEcpBufferTooSmall ∧ needed.lRslt ≠ 0 then (ckrFunctionFailed, [])
    else if a.calloc = false then (ckrHostMemory, [])
    else if 255 < needed.olen then (ckrFunctionFailed, [])
    else
      let point := write needed.olen
      if point.lRslt ≠ 0 then (ckrFunctionFailed, [])
      else (ckrOk, (mbedtlsAsn1OctetString :: UInt8.ofNat needed.olen :: point.written).take
        (point.olen + 2))

/-- The result, and the CKA_EC_POINT of the object that is created. -/
def lWriteEcPublicKeyToPKCS11 (write : Nat → PointWrite) (a : WriteKeyAnswers) :
    Int × Option (List UInt8) :=
  let xResult := a.opened
  let exported := if xResult = ckrOk then exportEcPoint write a else (xResult, [])
  if exported.1 = ckrOk then
    if a.create = ckrOk then (0, some exported.2) else (-1, none)
  else (-1, none)

def WriteKeyAnswers.Succeed (a : WriteKeyAnswers) : Prop :=
  a.functionList = ckrOk ∧ a.find = ckrOk ∧ a.destroy = ckrOk ∧ a.ecKey = true ∧
    a.calloc = true ∧ a.create = ckrOk

/-- All calls succeed and the attribute is the one that was stored. -/
structure ReadPublicKeyAnswers.Stored (a : ReadPublicKeyAnswers) (stored : List UInt8) : Prop where
  functionList : a.functionList = ⟨ckrOk, true⟩
  session : a.session = ckrOk
  find : a.find = ckrOk
  exportList : a.exported.functionList = ⟨ckrOk, true⟩
  size : a.exported.size = ckrOk
  ulValueLen : a.exported.ulValueLen = BitVec.ofNat 32 stored.length
  malloc : a.exported.malloc = true
  value : a.exported.value = ckrOk
  ecPoint : a.exported.ecPoint = stored
  close : a.close = ckrOk

def P256Point.der (q : P256Point) : List UInt8 :=
  derSubjectPublicKeyInfo oidEcPublicKey oidSecp256r1 q.uncompressed

/-- The buffer and the length are the key, and a strict parser takes all of it. -/
def PublicKeyResult.ReadsBack (q : P256Point) (r : PublicKeyResult) : Prop :=
  r.xStatus = .success ∧ ∃ buffer len content, r.pucPublicKeyDer = some buffer ∧
    r.uxPubKeyLen = some len ∧ len ≤ buffer.length ∧ buffer.take len = q.der ∧
    readElement (buffer.take len) = some (0x30, content, [])

section roundTrip

variable {q : P256Point}

theorem length_uncompressed (q : P256Point) : q.uncompressed.length = 65 := by
  rw [P256Point.uncompressed, List.length_cons, List.length_append, q.x.length_bytes,
    q.y.length_bytes]

/-- The constant is what stands before the point. -/
theorem der_eq (q : P256Point) : q.der = pucEcP256AsnAndOid ++ q.uncompressed := by
  have hlen := length_uncompressed q
  have halgorithm : derElement 0x30 (derElement 0x06 oidEcPublicKey ++
      derElement 0x06 oidSecp256r1) = (pucEcP256AsnAndOid.drop 2).take 21 := by decide
  have hbits : derElement 0x03 (0 :: q.uncompressed) = 0x03 :: 0x42 :: 0 :: q.uncompressed := by
    rw [derElement_short, List.length_cons, hlen]
    · rfl
    · rw [List.length_cons, hlen]
      decide
  rw [P256Point.der, derSubjectPublicKeyInfo, halgorithm, hbits, derElement_short]
  · rw [List.length_append, List.length_cons, List.length_cons, List.length_cons, hlen]
    rfl
  · rw [List.length_append, List.length_cons, List.length_cons, List.length_cons, hlen]
    decide

theorem exportEcPoint_stored (writer : PointWriter q.uncompressed) {a : WriteKeyAnswers}
    (h : a.Succeed) :
    exportEcPoint writer.write a = (ckrOk, 0x04 :: 0x41 :: q.uncompressed) := by
  obtain ⟨-, -, -, hec, hcalloc, -⟩ := h
  have hlen := length_uncompressed q
  obtain ⟨hsmall, hneeded⟩ := writer.write_small 0 (by omega)
  rw [hlen] at hneeded
  have hfits := writer.write_fits 65 (Nat.le_of_eq hlen)
  rw [exportEcPoint]
  simp only [hec, hsmall, hneeded, hcalloc, hfits]
  simp [hlen, mbedtlsAsn1OctetString]

theorem lWriteEcPublicKeyToPKCS11_stored (writer : PointWriter q.uncompressed)
    {a : WriteKeyAnswers} (h : a.Succeed) :
    lWriteEcPublicKeyToPKCS11 writer.write a = (0, some (0x04 :: 0x41 :: q.uncompressed)) := by
  have hexported := exportEcPoint_stored writer h
  obtain ⟨hlist, hfind, hdestroy, -, -, hcreate⟩ := h
  have hopened : a.opened = ckrOk := by
    rw [WriteKeyAnswers.opened, ckAndThen, if_pos hlist, hfind, hdestroy]
    simp only [ite_self]
  rw [lWriteEcPublicKeyToPKCS11, hopened]
  simp only [if_true, hexported, hcreate]

/-- The length has a byte more than header and point. -/
theorem xPrvExportPubKeyDer_stored {a : ReadPublicKeyAnswers}
    (h : a.Stored (0x04 :: 0x41 :: q.uncompressed)) :
    xPrvExportPubKeyDer a.exported = some (ckrOk, some (q.der ++ [0]), 92) := by
  have hlen : (0x04 :: 0x41 :: q.uncompressed).length = 67 :=
    congrArg (· + 2) (length_uncompressed q)
  have hroom : a.exported.pubKeyDerLen = 92 := by
    rw [ExportAnswers.pubKeyDerLen, h.ulValueLen, hlen]
    decide
  have hpoint := h.ecPoint
  rw [xPrvExportPubKeyDer, h.exportList, h.size, h.malloc, h.value]
  obtain ⟨b, hb, hbytes⟩ := Buffer.memcpy_of_le
    (⟨List.replicate a.exported.pubKeyDerLen 0, List.length_replicate⟩ :
      Buffer UInt8 a.exported.pubKeyDerLen)
    (pucEcP256AsnAndOid.length - sizeofUnusedKeyTag) a.exported.ecPoint
    (by rw [hpoint, hlen, hroom]; decide)
  obtain ⟨b', hb', hbytes'⟩ := b.memcpy_of_le 0 pucEcP256AsnAndOid (by rw [hroom]; decide)
  -- the header covers the zeros in front and the two tags
  have hfinal : b'.bytes = q.der ++ [0] := by
    have htail : (List.replicate 92 (0 : UInt8)).drop 91 = [0] := rfl
    have hfront : ((List.replicate 92 (0 : UInt8)).take 24 ++ (0x04 :: 0x41 :: q.uncompressed) ++
        [0]).drop 26 = q.uncompressed ++ [0] := rfl
    rw [hbytes', hbytes, hpoint, hlen, hroom, der_eq, List.take_zero, List.nil_append,
      List.append_assoc]
    exact congrArg (pucEcP256AsnAndOid ++ ·) hfront
  simp only [hb, Option.bind_some, hb', Option.map_some, hfinal]
  rw [hroom]
  rfl

/-- What the functions make of a point: the key, and one byte behind it. -/
theorem xPkcs11ReadPublicKey_stored {pkcs11configMAX_LABEL_LENGTH : Nat}
    {pcPubKeyLabel : CString} {a : ReadPublicKeyAnswers}
    (hlabel : publicKeyArgs pkcs11configMAX_LABEL_LENGTH true (some pcPubKeyLabel) = .success)
    (h : a.Stored (0x04 :: 0x41 :: q.uncompressed)) :
    xPkcs11ReadPublicKey pkcs11configMAX_LABEL_LENGTH true (some pcPubKeyLabel) a =
      some ⟨.success, some (q.der ++ [0]), some 92⟩ := by
  have hstatus : publicKeyStatus pkcs11configMAX_LABEL_LENGTH true (some pcPubKeyLabel) a =
      .success := by
    rw [publicKeyStatus, hlabel, h.functionList]
    rfl
  have hopen : openAndExport a = some ⟨.success, some (q.der ++ [0]), some 92⟩ := by
    rw [openAndExport, h.session, searchAndExport, h.find, xPrvExportPubKeyDer_stored h]
    rfl
  rw [xPkcs11ReadPublicKey]
  simp only [hstatus, if_true, hopen, Option.bind_some, closeSession]
  rw [h.close, h.functionList]
  split <;> rfl

theorem readElement_der (q : P256Point) (rest : List UInt8) :
    ∃ content, readElement (q.der ++ rest) = some (0x30, content, rest) := by
  refine ⟨_, readElement_append 0x30 (Nat.lt_of_le_of_lt (m := 91) ?_ (by decide)) rest⟩
  have hlen := length_derElement 0x30
    (derElement 0x30 (derElement 0x06 oidEcPublicKey ++ derElement 0x06 oidSecp256r1) ++
      derElement 0x03 (0 :: q.uncompressed))
  have hder : q.der.length = 91 := by
    rw [der_eq, List.length_append, length_uncompressed]
    rfl
  have hsame : q.der.length = _ := hlen
  omega

theorem not_readsBack_longer (q : P256Point) :
    ¬ PublicKeyResult.ReadsBack q ⟨.success, some (q.der ++ [0]), some 92⟩ := by
  intro h
  obtain ⟨-, buffer, len, content, hbuffer, hlen, -, -, hread⟩ := h
  obtain ⟨content', hread'⟩ := readElement_der q [0]
  rw [← Option.some.inj hbuffer, ← Option.some.inj hlen, List.take_of_length_le, hread'] at hread
  · cases hread
  · rw [List.length_append, der_eq, List.length_append, length_uncompressed]
    decide

/-- The writer stores the key and the reader finds it, but what it returns is not the key. -/
theorem not_readsBack (writer : PointWriter q.uncompressed) {w : WriteKeyAnswers}
    (hw : w.Succeed) (pkcs11configMAX_LABEL_LENGTH : Nat) (pcPubKeyLabel : CString) :
    ∃ stored, lWriteEcPublicKeyToPKCS11 writer.write w = (0, some stored) ∧
      ∀ a : ReadPublicKeyAnswers, a.Stored stored → ∃ r,
        xPkcs11ReadPublicKey pkcs11configMAX_LABEL_LENGTH true (some pcPubKeyLabel) a = some r ∧
          ¬ r.ReadsBack q := by
  refine ⟨_, lWriteEcPublicKeyToPKCS11_stored writer hw, fun a ha => ?_⟩
  by_cases hlabel :
      publicKeyArgs pkcs11configMAX_LABEL_LENGTH true (some pcPubKeyLabel) = .success
  · exact ⟨_, xPkcs11ReadPublicKey_stored hlabel ha, not_readsBack_longer q⟩
  · -- the label is refused
    have hstatus : publicKeyStatus pkcs11configMAX_LABEL_LENGTH true (some pcPubKeyLabel) a ≠
        .success := fun h => hlabel (andThen_success.mp h).1
    refine ⟨⟨publicKeyStatus pkcs11configMAX_LABEL_LENGTH true (some pcPubKeyLabel) a, none, none⟩,
      ?_, fun h => hstatus h.1⟩
    rw [xPkcs11ReadPublicKey]
    simp only [if_neg hstatus]

def examplePoint : P256Point where
  x := ⟨List.replicate 32 1, List.length_replicate⟩
  y := ⟨List.replicate 32 2, List.length_replicate⟩

def exampleLabel : CString := ⟨[107], by decide⟩

def exampleWrite : WriteKeyAnswers := ⟨ckrOk, ckrOk, ckInvalidHandle, ckrOk, true, true, ckrOk⟩

def exampleRead (stored : List UInt8) : ReadPublicKeyAnswers :=
  ⟨⟨ckrOk, true⟩, ckrOk, 1, ckrOk,
    ⟨⟨ckrOk, true⟩, ckrOk, BitVec.ofNat 32 stored.length, true, ckrOk, stored⟩, ckrOk⟩

theorem not_readsBack_example :
    ∃ stored, lWriteEcPublicKeyToPKCS11
        (ecpPointWriteBinary examplePoint.uncompressed).write exampleWrite = (0, some stored) ∧
      ∀ a : ReadPublicKeyAnswers, a.Stored stored → ∃ r,
        xPkcs11ReadPublicKey 32 true (some exampleLabel) a = some r ∧
          ¬ r.ReadsBack examplePoint :=
  not_readsBack (ecpPointWriteBinary examplePoint.uncompressed) ⟨rfl, rfl, rfl, rfl, rfl, rfl⟩ 32
    exampleLabel

/-- 92 bytes come back, and a strict parser leaves one of them. -/
theorem not_readsBack_trailing :
    ¬ ∀ stored, lWriteEcPublicKeyToPKCS11
        (ecpPointWriteBinary examplePoint.uncompressed).write exampleWrite = (0, some stored) →
      ∃ r, xPkcs11ReadPublicKey 32 true (some exampleLabel) (exampleRead stored) = some r ∧
        r.ReadsBack examplePoint := by
  intro h
  obtain ⟨r, hr, hback⟩ := h (0x04 :: 0x41 :: examplePoint.uncompressed)
    (lWriteEcPublicKeyToPKCS11_stored _ ⟨rfl, rfl, rfl, rfl, rfl, rfl⟩)
  have hlabel : publicKeyArgs 32 true (some exampleLabel) = .success := by decide
  have hstored : (exampleRead (0x04 :: 0x41 :: examplePoint.uncompressed)).Stored
      (0x04 :: 0x41 :: examplePoint.uncompressed) :=
    ⟨rfl, rfl, rfl, rfl, rfl, rfl, rfl, rfl, rfl, rfl⟩
  rw [xPkcs11ReadPublicKey_stored hlabel hstored] at hr
  rw [← Option.some.inj hr] at hback
  exact not_readsBack_longer examplePoint hback

end roundTrip

end RenesasDemo.Pki
