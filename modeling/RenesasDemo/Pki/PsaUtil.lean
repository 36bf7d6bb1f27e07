import RenesasDemo.Pki.Pkcs11

namespace RenesasDemo.Pki

inductive PkType where
  | none
  | rsa
  | eckey
  | eckeyDh
  | ecdsa
  | rsaAlt
  | rsassaPss
  deriving DecidableEq

def mbedtlsErrPkFeatureUnavailable : Int := -0x3980
def mbedtlsErrPkAllocFailed : Int := -0x3F80
def mbedtlsErrPkBadInputData : Int := -0x3E80
def mbedtlsErrEcpRandomFailed : Int := -0x4D00
def mbedtlsErrPlatformHwAccelFailed : Int := -0x0070

inductive PsaStatus where
  | success
  | genericError
  | notPermitted
  | notSupported
  | invalidArgument
  | invalidHandle
  | badState
  | bufferTooSmall
  | alreadyExists
  | doesNotExist
  | insufficientMemory
  | insufficientStorage
  | insufficientData
  | communicationFailure
  | storageFailure
  | hardwareFailure
  | insufficientEntropy
  | invalidSignature
  | invalidPadding
  | corruptionDetected
  | dataCorrupt
  | dataInvalid
  deriving DecidableEq

/-- The number that a `psa_status_t` is. -/
def PsaStatus.value : PsaStatus → Int
  | .success => 0
  | .genericError => -132
  | .notPermitted => -133
  | .notSupported => -134
  | .invalidArgument => -135
  | .invalidHandle => -136
  | .badState => -137
  | .bufferTooSmall => -138
  | .alreadyExists => -139
  | .doesNotExist => -140
  | .insufficientMemory => -141
  | .insufficientStorage => -142
  | .insufficientData => -143
  | .communicationFailure => -145
  | .storageFailure => -146
  | .hardwareFailure => -147
  | .insufficientEntropy => -148
  | .invalidSignature => -149
  | .invalidPadding => -150
  | .corruptionDetected => -151
  | .dataCorrupt => -152
  | .dataInvalid => -153

def mbedtlsPsaErrTranslatePk : PsaStatus → Int
  | .success => 0
  | .notSupported => mbedtlsErrPkFeatureUnavailable
  | .insufficientMemory => mbedtlsErrPkAllocFailed
  | .insufficientEntropy => mbedtlsErrEcpRandomFailed
  | .badState => mbedtlsErrPkBadInputData
  | _ => mbedtlsErrPlatformHwAccelFailed

/-- The macros that `mbedtls_to_psa_error` is compiled with. -/
structure PsaErrorConfig where
  camelliaBadInputData : Bool
  psaCryptoExternalRng : Bool
  psaHmacDrbgMdType : Bool

/-- Cases of `mbedtls_to_psa_error`, as they follow each other there. -/
abbrev PsaErrorCases := List (Int × PsaStatus)

def aesErrorCases : PsaErrorCases := [(-0x0020, .notSupported), (-0x0022, .notSupported)]

def asn1ErrorCases : PsaErrorCases :=
  [(-0x0060, .invalidArgument), (-0x0062, .invalidArgument), (-0x0064, .invalidArgument),
    (-0x0066, .invalidArgument), (-0x0068, .invalidArgument), (-0x006A, .insufficientMemory),
    (-0x006C, .bufferTooSmall)]

def camelliaErrorCases : PsaErrorCases := [(-0x0024, .notSupported)]

def cipherErrorCases : PsaErrorCases :=
  [(-0x6080, .notSupported), (-0x6100, .invalidArgument), (-0x6180, .insufficientMemory),
    (-0x6200, .invalidPadding), (-0x6280, .invalidArgument), (-0x6300, .invalidSignature),
    (-0x6380, .corruptionDetected)]

def ctrDrbgErrorCases : PsaErrorCases :=
  [(-0x0034, .insufficientEntropy), (-0x0036, .notSupported), (-0x0038, .notSupported),
    (-0x003A, .insufficientEntropy)]

def entropyErrorCases : PsaErrorCases :=
  [(-0x0040, .insufficientEntropy), (-0x003D, .insufficientEntropy),
    (-0x003C, .insufficientEntropy)]

def hmacDrbgErrorCases : PsaErrorCases :=
  [(-0x0009, .insufficientEntropy), (-0x0003, .notSupported), (-0x0005, .notSupported),
    (-0x0007, .insufficientEntropy)]

def mdErrorCases : PsaErrorCases :=
  [(-0x5080, .notSupported), (-0x5100, .invalidArgument), (-0x5180, .insufficientMemory),
    (-0x5200, .storageFailure)]

def mpiErrorCases : PsaErrorCases :=
  [(-0x0002, .storageFailure), (-0x0004, .invalidArgument), (-0x0006, .invalidArgument),
    (-0x0008, .bufferTooSmall), (-0x000A, .invalidArgument), (-0x000C, .invalidArgument),
    (-0x000E, .invalidArgument), (-0x0010, .insufficientMemory)]

def pkErrorCases : PsaErrorCases :=
  [(mbedtlsErrPkAllocFailed, .insufficientMemory), (-0x3F00, .invalidArgument),
    (mbedtlsErrPkBadInputData, .invalidArgument), (-0x3E00, .storageFailure),
    (-0x3D80, .invalidArgument), (-0x3D00, .invalidArgument), (-0x3C80, .notSupported),
    (-0x3C00, .notPermitted), (-0x3B80, .notPermitted), (-0x3B00, .invalidArgument),
    (-0x3A80, .notSupported), (-0x3A00, .notSupported),
    (mbedtlsErrPkFeatureUnavailable, .notSupported), (-0x3900, .invalidSignature),
    (-0x3880, .bufferTooSmall)]

def platformErrorCases : PsaErrorCases :=
  [(mbedtlsErrPlatformHwAccelFailed, .hardwareFailure), (-0x0072, .notSupported)]

def rsaErrorCases : PsaErrorCases :=
  [(-0x4080, .invalidArgument), (-0x4100, .invalidPadding), (-0x4180, .hardwareFailure),
    (-0x4200, .invalidArgument), (-0x4280, .corruptionDetected), (-0x4300, .corruptionDetected),
    (-0x4380, .invalidSignature), (-0x4400, .bufferTooSmall), (-0x4480, .insufficientEntropy)]

def ecpErrorCases : PsaErrorCases :=
  [(-0x4F80, .invalidArgument), (-0x4C80, .invalidArgument), (-0x4F00, .bufferTooSmall),
    (-0x4E80, .notSupported), (-0x4C00, .invalidSignature), (-0x4E00, .invalidSignature),
    (-0x4D80, .insufficientMemory), (mbedtlsErrEcpRandomFailed, .insufficientEntropy)]

def psaErrorCases (cfg : PsaErrorConfig) : PsaErrorCases :=
  aesErrorCases ++ asn1ErrorCases ++
    (if cfg.camelliaBadInputData then camelliaErrorCases else []) ++ cipherErrorCases ++
    (if cfg.psaCryptoExternalRng || cfg.psaHmacDrbgMdType then [] else ctrDrbgErrorCases) ++
    entropyErrorCases ++
    (if !cfg.psaCryptoExternalRng && cfg.psaHmacDrbgMdType then hmacDrbgErrorCases else []) ++
    mdErrorCases ++ mpiErrorCases ++ pkErrorCases ++ platformErrorCases ++ rsaErrorCases ++
    ecpErrorCases ++ [(mbedtlsErrErrorCorruptionDetected, .corruptionDetected)]

/-- `-ret & 0x007f`, of a number that is not negative too -/
def lowLevelRet (ret : Int) : Int := -(-ret % 0x80)

/-- The code that the switch looks for. -/
def dispatchedRet (ret : Int) : Int := if lowLevelRet ret ≠ 0 then lowLevelRet ret else ret

def mbedtlsToPsaError (cfg : PsaErrorConfig) (ret : Int) : PsaStatus :=
  if dispatchedRet ret = 0 then .success
  else match (psaErrorCases cfg).lookup (dispatchedRet ret) with
    | some xStatus => xStatus
    | none => if ret < 0 then .genericError else .success

inductive PsaEccFamily where
  | secpK1
  | secpR1
  | secpR2
  | sectK1
  | sectR1
  | sectR2
  | brainpoolPR1
  | montgomery
  | twistedEdwards
  deriving DecidableEq

/-- The curves that `mbedtls_psa_get_ecc_oid_from_id` has an OID for. -/
inductive EccGroup where
  | secp192r1
  | secp224r1
  | secp256r1
  | secp384r1
  | secp521r1
  | secp192k1
  | secp224k1
  | secp256k1
  | bp256r1
  | bp384r1
  | bp512r1
  deriving DecidableEq

namespace EccGroup

def oid : EccGroup → List UInt8
  | secp192r1 => [0x2A, 0x86, 0x48, 0xCE, 0x3D, 0x03, 0x01, 0x01]
  | secp224r1 => [0x2B, 0x81, 0x04, 0x00, 0x21]
  | secp256r1 => [0x2A, 0x86, 0x48, 0xCE, 0x3D, 0x03, 0x01, 0x07]
  | secp384r1 => [0x2B, 0x81, 0x04, 0x00, 0x22]
  | secp521r1 => [0x2B, 0x81, 0x04, 0x00, 0x23]
  | secp192k1 => [0x2B, 0x81, 0x04, 0x00, 0x1F]
  | secp224k1 => [0x2B, 0x81, 0x04, 0x00, 0x20]
  | secp256k1 => [0x2B, 0x81, 0x04, 0x00, 0x0A]
  | bp256r1 => [0x2B, 0x24, 0x03, 0x03, 0x02, 0x08, 0x01, 0x01, 0x07]
  | bp384r1 => [0x2B, 0x24, 0x03, 0x03, 0x02, 0x08, 0x01, 0x01, 0x0B]
  | bp512r1 => [0x2B, 0x24, 0x03, 0x03, 0x02, 0x08, 0x01, 0x01, 0x0D]

def bits : EccGroup → Nat
  | secp192r1 => 192
  | secp224r1 => 224
  | secp256r1 => 256
  | secp384r1 => 384
  | secp521r1 => 521
  | secp192k1 => 192
  | secp224k1 => 224
  | secp256k1 => 256
  | bp256r1 => 256
  | bp384r1 => 384
  | bp512r1 => 512

def find : PsaEccFamily → Nat → Option EccGroup
  | .secpR1, 192 => some secp192r1
  | .secpR1, 224 => some secp224r1
  | .secpR1, 256 => some secp256r1
  | .secpR1, 384 => some secp384r1
  | .secpR1, 521 => some secp521r1
  | .secpK1, 192 => some secp192k1
  | .secpK1, 224 => some secp224k1
  | .secpK1, 256 => some secp256k1
  | .brainpoolPR1, 256 => some bp256r1
  | .brainpoolPR1, 384 => some bp384r1
  | .brainpoolPR1, 512 => some bp512r1
  | _, _ => none

end EccGroup

/-- The MBEDTLS_ECP_DP_…_ENABLED of the curves, and MBEDTLS_ECP_MAX_BYTES, the size of a coordinate
of the largest of them. -/
structure EcpConfig where
  enabled : EccGroup → Bool
  mbedtlsEcpMaxBytes : Nat
  maxBytes_ge : ∀ g, enabled g = true → (g.bits + 7) / 8 ≤ mbedtlsEcpMaxBytes
  maxBytes_le : mbedtlsEcpMaxBytes ≤ (521 + 7) / 8

/-- none is the result -1, after which `oid` is not set. -/
def mbedtlsPsaGetEccOidFromId (cfg : EcpConfig) (curve : PsaEccFamily) (bits : Nat) :
    Option (List UInt8) :=
  (EccGroup.find curve bits).bind fun g => if cfg.enabled g then some g.oid else none

section counts

variable {cfg : EcpConfig} {g : EccGroup} {family : PsaEccFamily} {bits n : Nat}

/-- Byte counts that are handed to the function as if they were results. -/
theorem mbedtlsToPsaError_count (cfg : PsaErrorConfig) (h : n ∈ [1, 7, 10, 11, 21]) :
    mbedtlsToPsaError cfg n = .success := by
  obtain ⟨camellia, rng, hmac⟩ := cfg
  revert camellia rng hmac n
  decide

/-- 18 - 128 is MBEDTLS_ERR_ERROR_CORRUPTION_DETECTED, and 22 - 128 is
MBEDTLS_ERR_ASN1_ALLOC_FAILED. -/
theorem mbedtlsToPsaError_collision (cfg : PsaErrorConfig) :
    mbedtlsToPsaError cfg 18 = .corruptionDetected ∧
      mbedtlsToPsaError cfg 22 = .insufficientMemory := by
  obtain ⟨camellia, rng, hmac⟩ := cfg
  revert camellia rng hmac
  decide

theorem mbedtlsToPsaError_neg (cfg : PsaErrorConfig) {ret : Int} (h : ret < 0) :
    mbedtlsToPsaError cfg ret ≠ .success := by
  have hcases : ∀ entry ∈ psaErrorCases cfg, entry.2 ≠ .success := by
    obtain ⟨camellia, rng, hmac⟩ := cfg
    revert camellia rng hmac
    decide
  have hne : dispatchedRet ret ≠ 0 := by
    rw [dispatchedRet]
    split <;> omega
  rw [mbedtlsToPsaError, if_neg hne]
  split
  · next xStatus hlookup =>
    obtain ⟨l1, l2, hl, -⟩ := List.lookup_eq_some_iff.mp hlookup
    refine hcases (dispatchedRet ret, xStatus) ?_
    rw [hl]
    exact List.mem_append_right l1 List.mem_cons_self
  · rw [if_pos h]
    decide

theorem find_bits (h : EccGroup.find family bits = some g) : bits = g.bits := by
  rw [EccGroup.find.eq_def] at h
  split at h <;> cases h <;> rfl

theorem find_secpR1 (h : EccGroup.find family bits = some g) :
    g = .secp192r1 ∨ g = .secp256r1 ↔ family = .secpR1 ∧ (bits = 192 ∨ bits = 256) := by
  rw [EccGroup.find.eq_def] at h
  split at h <;> cases h <;> decide

theorem length_oid (g : EccGroup) : g.oid.length = 5 ∧ g ≠ .secp192r1 ∧ g ≠ .secp256r1 ∨
    g.oid.length = 8 ∧ (g = .secp192r1 ∨ g = .secp256r1) ∨
      g.oid.length = 9 ∧ g ≠ .secp192r1 ∧ g ≠ .secp256r1 := by
  cases g <;> decide

theorem length_oid_le (g : EccGroup) : g.oid.length ≤ 9 := by
  have hoid := length_oid g
  omega

theorem oid_ne_nil (g : EccGroup) : g.oid ≠ [] := by
  cases g <;> decide

theorem bits_le (g : EccGroup) : g.bits ≤ 521 := by
  cases g <;> decide

/-- A curve with an OID is enabled. -/
theorem group_of_oid {oid : List UInt8}
    (h : mbedtlsPsaGetEccOidFromId cfg family bits = some oid) :
    ∃ g, EccGroup.find family bits = some g ∧ cfg.enabled g = true ∧ oid = g.oid := by
  obtain ⟨g, hg, henabled⟩ := Option.bind_eq_some_iff.mp h
  split at henabled
  · next hon => exact ⟨g, hg, hon, (Option.some.inj henabled).symm⟩
  · cases henabled

end counts

end RenesasDemo.Pki
