import RenesasDemo.Pki.Asn1Write
import RenesasDemo.Pki.PsaUtil
import RenesasDemo.Pki.PublicKeyRoundTrip

namespace RenesasDemo.Pki

open Framework

/-- What goes in front of `parLen` bytes of parameters to make an AlgorithmIdentifier; NULL when
there are none. -/
def algorithmIdentifierFront (oid : List UInt8) (parLen : Nat) : List UInt8 :=
  if parLen = 0 then derElement 0x30 (derElement 0x06 oid ++ [0x05, 0x00])
  else 0x30 :: (derLengthOctets ((derElement 0x06 oid).length + parLen) ++ derElement 0x06 oid)

/-- The writers for OBJECT IDENTIFIERs and the table of them. For an AlgorithmIdentifier the
parameters in front of which it is written are counted, too. -/
structure Asn1OidWrite extends Asn1Write where
  mbedtlsAsn1WriteOid (start : Nat) (oid : List UInt8) (c : Asn1Cursor) : Asn1Result
  mbedtlsAsn1WriteAlgorithmIdentifier (start : Nat) (oid : List UInt8) (parLen : Nat)
    (c : Asn1Cursor) : Asn1Result
  mbedtlsOidGetOidByPkAlg : PkType → Option (List UInt8)
  oid_puts : ∀ start oid c, c.front.length < 2 ^ 32 →
    Puts start (derElement 0x06 oid) c (mbedtlsAsn1WriteOid start oid c)
  algorithm_puts : ∀ start oid parLen c, c.front.length + parLen < 2 ^ 31 →
    ∃ r, Puts start (algorithmIdentifierFront oid parLen) c r ∧
      mbedtlsAsn1WriteAlgorithmIdentifier start oid parLen c = chkAdd (parLen, c) r
  eckey_oid : mbedtlsOidGetOidByPkAlg .eckey = some oidEcPublicKey

inductive PsaKeyType where
  | eccPublicKey (family : PsaEccFamily)
  | eccKeyPair (family : PsaEccFamily)
  | rsaPublicKey
  | rsaKeyPair
  | other
  deriving DecidableEq

structure PsaKeyAttributes where
  type : PsaKeyType
  bits : Nat

def PsaKeyType.eccFamily : PsaKeyType → Option PsaEccFamily
  | eccPublicKey family => some family
  | eccKeyPair family => some family
  | _ => none

def PsaKeyType.isRsa : PsaKeyType → Bool
  | rsaPublicKey => true
  | rsaKeyPair => true
  | _ => false

def psaExportPublicKeyOutputSize (attrs : PsaKeyAttributes) : Nat :=
  match attrs.type with
  | .rsaPublicKey | .rsaKeyPair => attrs.bits / 8 + 5 + 11
  | .eccPublicKey _ | .eccKeyPair _ => 2 * ((attrs.bits + 7) / 8) + 1
  | .other => 0

structure PsaExportConfig where
  ecp : EcpConfig
  errors : PsaErrorConfig
  mbedtlsMpiMaxSize : Nat

/-- What the PSA calls and the allocation answer. -/
structure PsaKeyAnswers where
  psaGetKeyAttributes : Except PsaStatus PsaKeyAttributes
  mbedtlsCalloc : Bool
  psaExportKey : Except PsaStatus (List UInt8)
  psaExportPublicKey : Except PsaStatus (List UInt8)

/-- What is exported for a type of keys. -/
def PsaKeyAnswers.exported (a : PsaKeyAnswers) : PsaKeyType → Except PsaStatus (List UInt8)
  | .eccPublicKey _ | .rsaPublicKey => a.psaExportKey
  | .eccKeyPair _ | .rsaKeyPair => a.psaExportPublicKey
  | .other => .error .invalidHandle

/-- The status, the buffer and the length; the buffer that is freed after an error is none. -/
structure PublicKeyExport where
  xStatus : PsaStatus
  pucPubKeyDer : Option (List UInt8)
  uxPubDerKeyLen : Nat
  deriving DecidableEq

def PublicKeyExport.failed (xStatus : PsaStatus) : PublicKeyExport := ⟨xStatus, none, 0⟩

/-- Bytes written and the write pointer, or a status that is not PSA_SUCCESS. -/
abbrev PsaStep := Except PsaStatus (Nat × Asn1Cursor)

section source

variable (cfg : PsaExportConfig) (asn1 : Asn1OidWrite)

/-- ECP_PUB_DER_MAX_BYTES or RSA_PUB_DER_MAX_BYTES -/
def pubDerMaxBytes (type : PsaKeyType) : Option Nat :=
  if type.eccFamily.isSome then some (30 + 2 * cfg.ecp.mbedtlsEcpMaxBytes)
  else if type.isRsa then some (38 + 2 * cfg.mbedtlsMpiMaxSize)
  else none

/-- `xStatus = mbedtls_to_psa_error( lRslt )` -/
def convertResult (lRslt : Int) (s : Nat × Asn1Cursor) : PsaStep :=
  if mbedtlsToPsaError cfg.errors lRslt = .success then .ok s
  else .error (mbedtlsToPsaError cfg.errors lRslt)

/-- Only a result that is not positive is converted. -/
def addOrConvert (s : Nat × Asn1Cursor) (r : Asn1Result) : PsaStep :=
  match r with
  | .ok (lRslt, c) => .ok (s.1 + lRslt, c)
  | .error lRslt => convertResult cfg lRslt s

/-- Every result is converted, the number of bytes, too. -/
def addAndConvert (s : Nat × Asn1Cursor) (r : Asn1Result) : PsaStep :=
  match r with
  | .ok (lRslt, c) => convertResult cfg lRslt (s.1 + lRslt, c)
  | .error lRslt => convertResult cfg lRslt s

/-- The object at the end of the buffer with a null byte in front of it; none when the byte is
written before the buffer. -/
def placeObject (uxLen : Nat) (object : List UInt8) : Option (Nat × Asn1Cursor) :=
  if object.length < uxLen then
    let front := (object ++ List.replicate (uxLen - object.length) 0).take (uxLen - object.length)
    some (object.length + 1, ⟨front.dropLast, 0 :: object⟩)
  else none

/-- Length and tag of the public key. -/
def publicKeyObject (s : Nat × Asn1Cursor) : PsaStep :=
  (addOrConvert cfg s (asn1.mbedtlsAsn1WriteLen 0 s.1 s.2)).bind fun s =>
    addOrConvert cfg s (asn1.mbedtlsAsn1WriteTag 0 mbedtlsAsn1BitString s.2)

/-- `uxObjLen` and the write pointer after the parameters of the AlgorithmIdentifier. -/
def algorithmParameters (attrs : PsaKeyAttributes) (c : Asn1Cursor) : PsaStep :=
  match attrs.type.eccFamily with
  | some xFamily =>
      match mbedtlsPsaGetEccOidFromId cfg.ecp xFamily attrs.bits with
      | some (b :: oid) =>
          addAndConvert cfg (0, c) (asn1.mbedtlsAsn1WriteOid 0 (b :: oid) c)
      | _ => convertResult cfg mbedtlsErrPkFeatureUnavailable (0, c)
  | none =>
      convertResult cfg (if attrs.type.isRsa then 0 else mbedtlsErrPkFeatureUnavailable) (0, c)

/-- The AlgorithmIdentifier is closed: the bytes of the parameters are counted here. -/
def algorithmIdentifier (xPkType : PkType) (uxBytesWritten : Nat) (par : Nat × Asn1Cursor) :
    PsaStep :=
  match asn1.mbedtlsOidGetOidByPkAlg xPkType with
  | some (b :: oid) =>
      addAndConvert cfg (uxBytesWritten, par.2)
        (asn1.mbedtlsAsn1WriteAlgorithmIdentifier 0 (b :: oid) par.1 par.2)
  | _ => convertResult cfg mbedtlsErrPkFeatureUnavailable (uxBytesWritten, par.2)

/-- The SubjectPublicKeyInfo is closed; none when the assertion fails. -/
def closeSubjectPublicKeyInfo (s : Nat × Asn1Cursor) : Option PsaStep :=
  match asn1.mbedtlsAsn1WriteLen 0 s.1 s.2 with
  | .ok (lRslt, c) =>
      some (addAndConvert cfg (s.1 + lRslt, c) (asn1.mbedtlsAsn1WriteTag 0 mbedtlsAsn1Sequence c))
  | .error lRslt => if lRslt = 0 then none else some (convertResult cfg lRslt s)

def subjectPublicKeyInfo (attrs : PsaKeyAttributes) (s : Nat × Asn1Cursor) : Option PsaStep :=
  let xPkType := if attrs.type.eccFamily.isSome then .eckey
    else if attrs.type.isRsa then .rsa else .none
  match (publicKeyObject cfg asn1 s).bind fun s =>
    (algorithmParameters cfg asn1 attrs s.2).bind fun par =>
      algorithmIdentifier cfg asn1 xPkType s.1 par with
  | .ok s => closeSubjectPublicKeyInfo cfg asn1 s
  | .error xStatus => some (.error xStatus)

def moveToStart (uxLen : Nat) (s : Nat × Asn1Cursor) : PublicKeyExport :=
  let buffer := s.2.buf
  ⟨.success, some (if s.1 < uxLen then copyToStart buffer (buffer.drop (uxLen - s.1)) s.1
    else buffer), s.1⟩

/-- none when a byte is written before the buffer, or when the assertion fails. -/
def xReadPublicKeyFromPSACrypto (ppucPubKeyDer puxPubDerKeyLen : Bool) (a : PsaKeyAnswers) :
    Option PublicKeyExport :=
  if ppucPubKeyDer = false ∨ puxPubDerKeyLen = false then some (.failed .invalidArgument)
  else
    match a.psaGetKeyAttributes with
    | .error xStatus => some (.failed xStatus)
    | .ok attrs =>
        match pubDerMaxBytes cfg attrs.type with
        -- the status for other types is overwritten, as there is no buffer
        | none => some (.failed .insufficientMemory)
        | some uxLen =>
            if a.mbedtlsCalloc = false then some (.failed .insufficientMemory)
            else if uxLen < psaExportPublicKeyOutputSize attrs + 1 then
              some (.failed .bufferTooSmall)
            else
              match a.exported attrs.type with
              -- the null byte is written although nothing was exported
              | .error _ => none
              | .ok object =>
                  (placeObject uxLen object).bind fun s =>
                    (subjectPublicKeyInfo cfg asn1 attrs s).map fun
                      | .ok s => moveToStart uxLen s
                      | .error xStatus => .failed xStatus

end source

/-- The key is in the buffer as SubjectPublicKeyInfo, and its length is set. -/
def ExportsKey (parameters point : List UInt8) (result : Option PublicKeyExport) : Prop :=
  ∃ buffer len, result = some ⟨.success, some buffer, len⟩ ∧ len ≤ buffer.length ∧
    buffer.take len = derSubjectPublicKeyInfo oidEcPublicKey parameters point

/-- The end of a buffer of `len` bytes holds `bs`, whose bytes are counted. -/
structure Counted (len : Nat) (bs : List UInt8) (s : Nat × Asn1Cursor) : Prop where
  count : s.1 = bs.length
  written : s.2.written = bs
  room : s.2.front.length + bs.length = len

section writing

variable (cfg : PsaExportConfig) (asn1 : Asn1OidWrite) {len : Nat} {bs bs' oid : List UInt8}
  {s : Nat × Asn1Cursor} {r : Asn1Result}

theorem Counted.put (h : Counted len bs s) (hput : Puts 0 bs' s.2 r)
    (hroom : bs'.length + bs.length ≤ len) :
    ∃ c, r = .ok (bs'.length, c) ∧ Counted len (bs' ++ bs) (s.1 + bs'.length, c) := by
  have hfront := h.room
  obtain ⟨c, hr, hadv⟩ := hput.ok (by omega)
  have hmoved := hadv.front
  refine ⟨c, hr, ?_, ?_, ?_⟩
  · rw [h.count, List.length_append, Nat.add_comm]
  · rw [hadv.written, h.written]
  · change c.front.length + (bs' ++ bs).length = len
    rw [List.length_append]
    omega

/-- Length and tag are put in front of `bs`. -/
theorem Counted.element (h : Counted len bs s) (tag : UInt8) (hlen : len < 2 ^ 32)
    (hroom : (derElement tag bs).length ≤ len) :
    ∃ c c', asn1.mbedtlsAsn1WriteLen 0 s.1 s.2 = .ok ((derLengthOctets bs.length).length, c) ∧
      asn1.mbedtlsAsn1WriteTag 0 tag c = .ok (1, c') ∧
        Counted len (derElement tag bs) (s.1 + (derLengthOctets bs.length).length + 1, c') := by
  have hfront := h.room
  rw [length_derElement] at hroom
  have hputs := asn1.len_puts 0 s.1 s.2 (by rw [h.count]; omega)
  rw [h.count] at hputs
  obtain ⟨c, hlength, hcounted⟩ := h.put hputs (by omega)
  obtain ⟨c', htag, hcounted'⟩ := hcounted.put (asn1.tag_puts 0 tag c) (by
    rw [List.length_append, List.length_singleton]
    omega)
  exact ⟨c, c', h.count.symm ▸ hlength, htag, hcounted'⟩

theorem length_derLengthOctets_le (h : len < 256) : (derLengthOctets len).length ≤ 2 := by
  have hsize : len.size ≤ 8 := Nat.size_le.mpr h
  rw [derLengthOctets]
  split
  · exact Nat.le_add_left 1 1
  · rw [List.length_cons, length_longLength]
    omega

theorem length_derElement_le (tag : UInt8) (bs : List UInt8) (h : bs.length < 256) :
    (derElement tag bs).length ≤ bs.length + 3 := by
  have hlength := length_derLengthOctets_le h
  rw [length_derElement]
  omega

theorem length_derElement_short (tag : UInt8) (bs : List UInt8) (h : bs.length < 128) :
    (derElement tag bs).length = bs.length + 2 := by
  rw [derElement_short tag h, List.length_cons, List.length_cons]

theorem placeObject_counted {object : List UInt8} (h : object.length < len) :
    ∃ s, placeObject len object = some s ∧ Counted len (0 :: object) s := by
  refine ⟨_, if_pos h, rfl, rfl, ?_⟩
  rw [List.length_dropLast, List.length_take, List.length_append, List.length_replicate,
    List.length_cons]
  omega

theorem publicKeyObject_counted (h : Counted len bs s) (hlen : len < 2 ^ 32)
    (hroom : (derElement mbedtlsAsn1BitString bs).length ≤ len) :
    ∃ s', publicKeyObject cfg asn1 s = .ok s' ∧
      Counted len (derElement mbedtlsAsn1BitString bs) s' := by
  obtain ⟨c, c', hlength, htag, hcounted⟩ := h.element asn1 mbedtlsAsn1BitString hlen hroom
  refine ⟨_, ?_, hcounted⟩
  rw [publicKeyObject, hlength]
  simp only [addOrConvert, Except.bind, htag]

/-- The parameters are put in front, if their number of bytes is not taken for an error. -/
theorem algorithmParameters_counted {attrs : PsaKeyAttributes} {xFamily : PsaEccFamily}
    (h : Counted len bs s) (hlen : len < 2 ^ 32) (hfamily : attrs.type.eccFamily = some xFamily)
    (hoid : mbedtlsPsaGetEccOidFromId cfg.ecp xFamily attrs.bits = some oid) (hne : oid ≠ [])
    (hconvert : mbedtlsToPsaError cfg.errors (derElement 0x06 oid).length = .success)
    (hroom : (derElement 0x06 oid).length + bs.length ≤ len) :
    ∃ c, algorithmParameters cfg asn1 attrs s.2 = .ok ((derElement 0x06 oid).length, c) ∧
      Counted len (derElement 0x06 oid ++ bs) (s.1 + (derElement 0x06 oid).length, c) := by
  have hfront := h.room
  obtain ⟨c, hput, hcounted⟩ := h.put (asn1.oid_puts 0 oid s.2 (by omega)) hroom
  refine ⟨c, ?_, hcounted⟩
  obtain ⟨b, t, rfl⟩ := List.exists_cons_of_ne_nil hne
  rw [algorithmParameters, hfamily]
  simp only [hoid, hput, addAndConvert, convertResult, hconvert, if_true, Nat.zero_add]

theorem algorithmIdentifierFront_append (algorithm : List UInt8) {parameters : List UInt8}
    (hne : parameters ≠ []) :
    algorithmIdentifierFront algorithm parameters.length ++ parameters =
      derElement 0x30 (derElement 0x06 algorithm ++ parameters) := by
  have hlength := Nat.ne_of_gt (List.length_pos_of_ne_nil hne)
  rw [algorithmIdentifierFront, if_neg hlength, ← List.length_append, List.cons_append,
    List.append_assoc]
  rfl

/-- What is in front of the parameters is put there. The bytes of both together are converted. -/
theorem algorithmIdentifier_counted {algorithm parameters : List UInt8} {xPkType : PkType} {n : Nat}
    {c : Asn1Cursor} (h : Counted len (parameters ++ bs) (n + parameters.length, c))
    (hlen : len < 2 ^ 30) (halgorithm : asn1.mbedtlsOidGetOidByPkAlg xPkType = some algorithm)
    (hne : algorithm ≠ []) (hpar : parameters ≠ [])
    (hroom : (derElement 0x30 (derElement 0x06 algorithm ++ parameters)).length + bs.length ≤
      len) :
    ∃ c', algorithmIdentifier cfg asn1 xPkType n (parameters.length, c) = convertResult cfg
        (derElement 0x30 (derElement 0x06 algorithm ++ parameters)).length
          (n + (derElement 0x30 (derElement 0x06 algorithm ++ parameters)).length, c') ∧
      Counted len (derElement 0x30 (derElement 0x06 algorithm ++ parameters) ++ bs)
        (n + (derElement 0x30 (derElement 0x06 algorithm ++ parameters)).length, c') := by
  have hfront : c.front.length + (parameters ++ bs).length = len := h.room
  have happend := algorithmIdentifierFront_append algorithm hpar
  have hlength := congrArg List.length happend
  rw [List.length_append] at hfront hlength
  obtain ⟨r, hputs, hr⟩ := asn1.algorithm_puts 0 algorithm parameters.length c (by omega)
  obtain ⟨c', rfl, hcounted⟩ := h.put hputs (by rw [List.length_append]; omega)
  have hsum : n + (derElement 0x30 (derElement 0x06 algorithm ++ parameters)).length =
      n + parameters.length + (algorithmIdentifierFront algorithm parameters.length).length := by
    omega
  refine ⟨c', ?_, ?_⟩
  · obtain ⟨b, t, rfl⟩ := List.exists_cons_of_ne_nil hne
    rw [algorithmIdentifier, halgorithm]
    simp only [hr, chkAdd, Except.map, addAndConvert]
    rw [← hlength, Nat.add_comm (algorithmIdentifierFront (b :: t) parameters.length).length]
  · rw [hsum, ← happend, List.append_assoc]
    exact hcounted

theorem closeSubjectPublicKeyInfo_counted (h : Counted len bs s) (hlen : len < 2 ^ 32)
    (hroom : (derElement mbedtlsAsn1Sequence bs).length ≤ len) :
    ∃ s', closeSubjectPublicKeyInfo cfg asn1 s = some (.ok s') ∧
      Counted len (derElement mbedtlsAsn1Sequence bs) s' := by
  obtain ⟨c, c', hlength, htag, hcounted⟩ := h.element asn1 mbedtlsAsn1Sequence hlen hroom
  have hconvert : mbedtlsToPsaError cfg.errors (1 : Nat) = .success :=
    mbedtlsToPsaError_count cfg.errors (by decide)
  refine ⟨_, ?_, hcounted⟩
  rw [closeSubjectPublicKeyInfo, hlength]
  simp only [htag, addAndConvert, convertResult, hconvert, if_true]

/-- The first bytes of the buffer are what was at its end. -/
theorem moveToStart_counted (h : Counted len bs s) :
    ∃ buffer, moveToStart len s = ⟨.success, some buffer, bs.length⟩ ∧
      bs.length ≤ buffer.length ∧ buffer.take bs.length = bs := by
  have hroom := h.room
  have hbuf : s.2.buf = s.2.front ++ bs := by rw [Asn1Cursor.buf, h.written]
  refine ⟨_, by rw [moveToStart, h.count], ?_, ?_⟩
  · split
    · rw [copyToStart, List.length_append, List.length_take, List.length_drop, List.length_drop,
        hbuf, List.length_append]
      omega
    · rw [hbuf, List.length_append]
      omega
  · split
    · next hlt =>
      have hfront : len - bs.length = s.2.front.length := by omega
      rw [copyToStart, hbuf, hfront, List.drop_left, List.take_length, List.take_left]
    · next hge =>
      have hfront : s.2.front = [] := List.length_eq_zero_iff.mp (by omega)
      rw [hbuf, hfront, List.nil_append, List.take_length]

end writing

section exported

variable (cfg : PsaExportConfig) (asn1 : Asn1OidWrite) {a : PsaKeyAnswers}
  {attrs : PsaKeyAttributes} {family : PsaEccFamily} {g : EccGroup} {len : Nat}
  {oid point : List UInt8}

theorem length_algorithm (h : oid.length ≤ 9) :
    (derElement 0x30 (derElement 0x06 oidEcPublicKey ++ derElement 0x06 oid)).length =
      oid.length + 13 := by
  have hec : (derElement 0x06 oidEcPublicKey).length = 9 :=
    length_derElement_short 0x06 oidEcPublicKey (by decide)
  have hpar := length_derElement_short 0x06 oid (by omega)
  rw [length_derElement_short, List.length_append, hec, hpar]
  · omega
  · rw [List.length_append, hec, hpar]
    omega

/-- The buffer has room for the key of each curve, with not a byte to spare for the largest OID. -/
theorem length_subjectPublicKeyInfo_le (hoid : oid.length ≤ 9) (hpoint : point.length ≤ 133) :
    (derSubjectPublicKeyInfo oidEcPublicKey oid point).length ≤ oid.length + point.length + 20 := by
  have halgorithm := length_algorithm hoid
  have hkey : (derElement 0x03 (0 :: point)).length ≤ (0 :: point).length + 3 :=
    length_derElement_le 0x03 (0 :: point) (by rw [List.length_cons]; omega)
  rw [List.length_cons] at hkey
  have hinfo := length_derElement_le 0x30
    (derElement 0x30 (derElement 0x06 oidEcPublicKey ++ derElement 0x06 oid) ++
      derElement 0x03 (0 :: point)) (by rw [List.length_append]; omega)
  rw [List.length_append] at hinfo
  rw [derSubjectPublicKeyInfo]
  omega

/-- What becomes of the length of the AlgorithmIdentifier decides whether the key is written. -/
theorem subjectPublicKeyInfo_counted {s : Nat × Asn1Cursor} (h : Counted len (0 :: point) s)
    (hlen : len < 2 ^ 30) (hfamily : attrs.type.eccFamily = some family)
    (hoid : mbedtlsPsaGetEccOidFromId cfg.ecp family attrs.bits = some g.oid)
    (hpoint : point.length ≤ 133) (hroom : g.oid.length + point.length + 20 ≤ len) :
    ∃ s', Counted len (derSubjectPublicKeyInfo oidEcPublicKey g.oid point) s' ∧
      subjectPublicKeyInfo cfg asn1 attrs s =
        if mbedtlsToPsaError cfg.errors (g.oid.length + 13 : Nat) = .success then some (.ok s')
        else some (.error (mbedtlsToPsaError cfg.errors (g.oid.length + 13 : Nat))) := by
  have hle := length_oid_le g
  have halgorithm := length_algorithm hle
  have hparameters := length_derElement_short 0x06 g.oid (by omega)
  have htotal := length_subjectPublicKeyInfo_le hle hpoint
  have hinner := length_lt_derElement 0x30
    (derElement 0x30 (derElement 0x06 oidEcPublicKey ++ derElement 0x06 g.oid) ++
      derElement 0x03 (0 :: point))
  rw [derSubjectPublicKeyInfo] at htotal ⊢
  rw [List.length_append, halgorithm] at hinner
  obtain ⟨s1, hkey, hcounted1⟩ := publicKeyObject_counted cfg asn1 h (by omega)
    (by change (derElement 0x03 (0 :: point)).length ≤ len; omega)
  have hconvert : mbedtlsToPsaError cfg.errors (derElement 0x06 g.oid).length = .success := by
    rw [hparameters]
    refine mbedtlsToPsaError_count cfg.errors ?_
    obtain h5 | h8 | h9 := length_oid g
    · rw [h5.1]
      decide
    · rw [h8.1]
      decide
    · rw [h9.1]
      decide
  obtain ⟨c2, hpar, hcounted2⟩ := algorithmParameters_counted cfg asn1 hcounted1 (by omega)
    hfamily hoid (oid_ne_nil g) hconvert
    (by change _ + (derElement 0x03 (0 :: point)).length ≤ len; omega)
  have hpar_ne : derElement 0x06 g.oid ≠ [] := List.cons_ne_nil _ _
  obtain ⟨c3, halg, hcounted3⟩ := algorithmIdentifier_counted cfg asn1 hcounted2 (by omega)
    asn1.eckey_oid (by decide) hpar_ne
    (by change _ + (derElement 0x03 (0 :: point)).length ≤ len; omega)
  obtain ⟨s4, hclose, hcounted4⟩ := closeSubjectPublicKeyInfo_counted cfg asn1 hcounted3
    (by omega) (Nat.le_trans htotal hroom)
  refine ⟨s4, hcounted4, ?_⟩
  rw [halgorithm] at halg hclose
  rw [subjectPublicKeyInfo, hfamily]
  simp only [Option.isSome_some, if_true, hkey, Except.bind, hpar, halg]
  by_cases hok : mbedtlsToPsaError cfg.errors (g.oid.length + 13 : Nat) = .success
  · simp only [convertResult, if_pos hok]
    exact hclose
  · simp only [convertResult, if_neg hok]

theorem eccFamily_eq_some (h : attrs.type.eccFamily = some family) :
    attrs.type = .eccPublicKey family ∨ attrs.type = .eccKeyPair family := by
  cases htype : attrs.type with
  | eccPublicKey f | eccKeyPair f =>
    rw [htype] at h
    cases h
    first | exact .inl rfl | exact .inr rfl
  | rsaPublicKey | rsaKeyPair | other =>
    rw [htype] at h
    cases h

theorem outputSize_ecc (h : attrs.type.eccFamily = some family) :
    psaExportPublicKeyOutputSize attrs = 2 * ((attrs.bits + 7) / 8) + 1 := by
  obtain htype | htype := eccFamily_eq_some h <;> rw [psaExportPublicKeyOutputSize, htype]

/-- A point of an enabled curve is either written or refused for the number of bytes. -/
theorem xReadPublicKeyFromPSACrypto_ecc (hattrs : a.psaGetKeyAttributes = .ok attrs)
    (hfamily : attrs.type.eccFamily = some family)
    (hg : EccGroup.find family attrs.bits = some g) (henabled : cfg.ecp.enabled g = true)
    (hcalloc : a.mbedtlsCalloc = true) (hexported : a.exported attrs.type = .ok point)
    (hpoint : point.length = psaExportPublicKeyOutputSize attrs) :
    ∃ s, Counted (30 + 2 * cfg.ecp.mbedtlsEcpMaxBytes)
        (derSubjectPublicKeyInfo oidEcPublicKey g.oid point) s ∧
      xReadPublicKeyFromPSACrypto cfg asn1 true true a =
        if mbedtlsToPsaError cfg.errors (g.oid.length + 13 : Nat) = .success then
          some (moveToStart (30 + 2 * cfg.ecp.mbedtlsEcpMaxBytes) s)
        else some (.failed (mbedtlsToPsaError cfg.errors (g.oid.length + 13 : Nat))) := by
  have hmax := cfg.ecp.maxBytes_ge g henabled
  have hmax_le := cfg.ecp.maxBytes_le
  have hbits := find_bits hg
  have hsize := outputSize_ecc hfamily
  have hle := length_oid_le g
  have hoid : mbedtlsPsaGetEccOidFromId cfg.ecp family attrs.bits = some g.oid := by
    rw [mbedtlsPsaGetEccOidFromId, hg, Option.bind_some, if_pos henabled]
  rw [hsize, hbits] at hpoint
  rw [hbits] at hsize
  have hbuffer : pubDerMaxBytes cfg attrs.type = some (30 + 2 * cfg.ecp.mbedtlsEcpMaxBytes) := by
    rw [pubDerMaxBytes, hfamily]
    rfl
  have hshort : point.length < 30 + 2 * cfg.ecp.mbedtlsEcpMaxBytes := by omega
  obtain ⟨s, hplace, hcounted⟩ := placeObject_counted hshort
  obtain ⟨s', hcounted', hinfo⟩ := subjectPublicKeyInfo_counted cfg asn1 hcounted (by omega)
    hfamily hoid (by omega) (by omega)
  refine ⟨s', hcounted', ?_⟩
  have hroom : ¬ 30 + 2 * cfg.ecp.mbedtlsEcpMaxBytes < psaExportPublicKeyOutputSize attrs + 1 := by
    omega
  rw [xReadPublicKeyFromPSACrypto, if_neg (by decide), hattrs]
  simp only [hbuffer, hcalloc, Bool.true_eq_false, if_false, if_neg hroom, hexported, hplace,
    Option.bind_some, hinfo]
  by_cases hok : mbedtlsToPsaError cfg.errors (g.oid.length + 13 : Nat) = .success
  · simp only [if_pos hok, Option.map_some]
  · simp only [if_neg hok, Option.map_some]

/-- The number of bytes is a result only where the OID has 8 of them. -/
theorem algorithmLength_converts (errors : PsaErrorConfig) (g : EccGroup) :
    mbedtlsToPsaError errors (g.oid.length + 13 : Nat) = .success ↔
      g = .secp192r1 ∨ g = .secp256r1 := by
  obtain ⟨h18, h22⟩ := mbedtlsToPsaError_collision errors
  obtain ⟨hlen, hne⟩ | ⟨hlen, heq⟩ | ⟨hlen, hne⟩ := length_oid g
  · rw [hlen]
    refine iff_of_false ?_ (not_or.mpr hne)
    change mbedtlsToPsaError errors 18 ≠ .success
    rw [h18]
    decide
  · rw [hlen]
    exact iff_of_true (mbedtlsToPsaError_count errors (by decide)) heq
  · rw [hlen]
    refine iff_of_false ?_ (not_or.mpr hne)
    change mbedtlsToPsaError errors 22 ≠ .success
    rw [h22]
    decide

theorem not_exportsKey_failed (oid point : List UInt8) (xStatus : PsaStatus) :
    ¬ ExportsKey oid point (some (.failed xStatus)) := by
  intro ⟨buffer, len, hexport, _⟩
  have hfreed := congrArg PublicKeyExport.pucPubKeyDer (Option.some.inj hexport)
  cases hfreed

/-- A public key of a curve that has an OID is exported for secp192r1 and secp256r1 only. -/
theorem exportsKey_iff (a : PsaKeyAnswers)
    (hattrs : a.psaGetKeyAttributes = .ok attrs) (hfamily : attrs.type.eccFamily = some family)
    (hoid : mbedtlsPsaGetEccOidFromId cfg.ecp family attrs.bits = some oid)
    (hcalloc : a.mbedtlsCalloc = true) (hexported : a.exported attrs.type = .ok point)
    (hpoint : point.length = psaExportPublicKeyOutputSize attrs) :
    ExportsKey oid point (xReadPublicKeyFromPSACrypto cfg asn1 true true a) ↔
      family = .secpR1 ∧ (attrs.bits = 192 ∨ attrs.bits = 256) := by
  obtain ⟨g, hg, henabled, rfl⟩ := group_of_oid hoid
  obtain ⟨s, hcounted, hresult⟩ := xReadPublicKeyFromPSACrypto_ecc cfg asn1 hattrs hfamily
    hg henabled hcalloc hexported hpoint
  rw [hresult, ← find_secpR1 hg, ← algorithmLength_converts cfg.errors g]
  by_cases hok : mbedtlsToPsaError cfg.errors (g.oid.length + 13 : Nat) = .success
  · refine iff_of_true ?_ hok
    rw [if_pos hok]
    obtain ⟨buffer, hmoved, hle, htake⟩ := moveToStart_counted hcounted
    exact ⟨buffer, _, congrArg some hmoved, hle, htake⟩
  · refine iff_of_false ?_ hok
    rw [if_neg hok]
    exact not_exportsKey_failed g.oid point _

end exported

/-- The functions as the library has them. -/
def mbedtlsAsn1Oid : Asn1OidWrite where
  toAsn1Write := mbedtlsAsn1
  mbedtlsAsn1WriteOid start oid c := putBytes start (derElement 0x06 oid) c
  mbedtlsAsn1WriteAlgorithmIdentifier start oid parLen c :=
    chkAdd (parLen, c) (putBytes start (algorithmIdentifierFront oid parLen) c)
  mbedtlsOidGetOidByPkAlg
    | .eckey => some oidEcPublicKey
    | .rsa => some [0x2A, 0x86, 0x48, 0x86, 0xF7, 0x0D, 0x01, 0x01, 0x01]
    | _ => none
  oid_puts := fun start oid c _ => putBytes_puts start (derElement 0x06 oid) c
  algorithm_puts := fun start oid parLen c _ =>
    ⟨_, putBytes_puts start (algorithmIdentifierFront oid parLen) c, rfl⟩
  eckey_oid := rfl

/-- The curves that are enabled in the configuration of the library. -/
def demoEcpConfig : EcpConfig where
  enabled g := g = .secp256r1 || g = .secp384r1 || g = .secp521r1
  mbedtlsEcpMaxBytes := 66
  maxBytes_ge := by
    intro g _
    have hbits := bits_le g
    omega
  maxBytes_le := by decide

def demoExportConfig : PsaExportConfig := ⟨demoEcpConfig, ⟨false, false, false⟩, 1024⟩

/-- A key pair of a curve of the family SECP_R1. -/
def keyPairAnswers (bits : Nat) (point : List UInt8) : PsaKeyAnswers :=
  ⟨.ok ⟨.eccKeyPair .secpR1, bits⟩, true, .error .notPermitted, .ok point⟩

theorem exportsKey_secp256r1 : ExportsKey oidSecp256r1 (0x04 :: List.replicate 64 0x01)
    (xReadPublicKeyFromPSACrypto demoExportConfig mbedtlsAsn1Oid true true
      (keyPairAnswers 256 (0x04 :: List.replicate 64 0x01))) :=
  (exportsKey_iff demoExportConfig mbedtlsAsn1Oid (keyPairAnswers 256 _) rfl rfl (by decide) rfl
    rfl (by decide)).mpr ⟨rfl, .inr rfl⟩

/-- The AlgorithmIdentifier of secp384r1 has 18 bytes. -/
theorem secp384r1_not_exported : ¬ ExportsKey EccGroup.secp384r1.oid
    (0x04 :: List.replicate 96 0x01)
    (xReadPublicKeyFromPSACrypto demoExportConfig mbedtlsAsn1Oid true true
      (keyPairAnswers 384 (0x04 :: List.replicate 96 0x01))) := by
  obtain ⟨s, -, hresult⟩ := xReadPublicKeyFromPSACrypto_ecc (g := .secp384r1) demoExportConfig
    mbedtlsAsn1Oid (a := keyPairAnswers 384 (0x04 :: List.replicate 96 0x01)) rfl rfl rfl
    (by decide) rfl rfl (by decide)
  have hrefused := (algorithmLength_converts demoExportConfig.errors .secp384r1).not.mpr (by decide)
  rw [hresult, if_neg hrefused]
  exact not_exportsKey_failed _ _ _

end RenesasDemo.Pki
