import RenesasDemo.Pki.Pkcs11

namespace RenesasDemo.Pki

open Framework

/-- A certificate object was found, its value read and decoded. -/
def CertificateAnswers.Read (a : CertificateAnswers) : Prop :=
  a.find = ckrOk ∧ a.xCertObj ≠ ckInvalidHandle ∧ a.size = ckrOk ∧ a.calloc = true ∧
    a.value = ckrOk ∧ a.parse = 0

def ReadCertificateAnswers.Reached (pkcs11configMAX_LABEL_LENGTH : Nat)
    (pxCertificateContext : Bool) (pcLabel : Option CString) (a : ReadCertificateAnswers) : Prop :=
  certificateArgs pkcs11configMAX_LABEL_LENGTH pxCertificateContext pcLabel = .success ∧
    a.functionList.xResult = ckrOk ∧ a.session = ckrOk

/-- The first call that fails does so with a code that is negative as an `int32_t`, memory is
there, and a certificate is decoded only when there is one. -/
structure CertificateAnswers.Detected (a : CertificateAnswers) : Prop where
  find : a.find ≠ ckrOk → a.find.toInt < 0
  functionList : a.find = ckrOk → a.functionList.list = true
  size : a.find = ckrOk → a.size ≠ ckrOk → a.size.toInt < 0
  calloc : a.find = ckrOk → a.size = ckrOk → a.calloc = true
  value : a.find = ckrOk → a.size = ckrOk → a.value ≠ ckrOk → a.value.toInt < 0
  parse : a.find = ckrOk → a.size = ckrOk → a.value = ckrOk →
    a.parse < 0 ∨ a.parse = 0 ∧ a.xCertObj ≠ ckInvalidHandle

/-- The function returns, and PKI_SUCCESS only when the work is done. -/
def Sound (result : Option PkiStatus) (done : Prop) : Prop :=
  ∃ xStatus, result = some xStatus ∧ (xStatus = .success → done)

theorem sound_none (done : Prop) : ¬ Sound none done := by
  intro h
  obtain ⟨xStatus, hnone, -⟩ := h
  cases hnone

theorem sound_some {xStatus : PkiStatus} {done : Prop} :
    Sound (some xStatus) done ↔ (xStatus = .success → done) := by
  constructor
  · intro h
    obtain ⟨x, hx, hdone⟩ := h
    rwa [← Option.some.inj hx] at hdone
  · intro h
    exact ⟨xStatus, rfl, h⟩

/-- Positive codes are taken for a success. -/
theorem xPrvMbedtlsErrToPkiStatus_success (lError : Int) :
    xPrvMbedtlsErrToPkiStatus lError = .success ↔ 0 ≤ lError := by
  rw [xPrvMbedtlsErrToPkiStatus]
  split_ifs with h0 h1 h2 h3 h4
  · exact ⟨fun _ => by omega, fun _ => rfl⟩
  · subst h1
    decide
  · subst h2
    decide
  · obtain rfl | rfl | rfl | rfl := h3 <;> decide
  · exact ⟨fun h => (by cases h), fun _ => by omega⟩
  · exact ⟨fun _ => by omega, fun _ => rfl⟩

theorem xPrvCkRvToPkiStatus_success (xError : CkRv) :
    xPrvCkRvToPkiStatus xError = .success ↔ xError = ckrOk := by
  rw [xPrvCkRvToPkiStatus]
  split_ifs with hok
  · exact ⟨fun _ => hok, fun _ => rfl⟩
  all_goals exact ⟨fun h => (by cases h), fun h => absurd h hok⟩

theorem andThen_success {xStatus next : PkiStatus} :
    xStatus.andThen next = .success ↔ xStatus = .success ∧ next = .success := by
  rw [PkiStatus.andThen]
  split
  · next h => simp [h]
  · next h => simp [h]

theorem ckAndThen_ok {xResult : CkRv} (h : xResult = ckrOk) (next : CkRv) :
    ckAndThen xResult next = next := if_pos h

theorem ckAndThen_ne {xResult : CkRv} (h : xResult ≠ ckrOk) (next : CkRv) :
    ckAndThen xResult next = xResult := if_neg h

/-- A failure that is reported by its code is detected when the code is negative. -/
theorem sound_failure {a : CertificateAnswers} (lError : Int) (hread : ¬ a.Read) :
    Sound (some (xPrvMbedtlsErrToPkiStatus lError)) a.Read ↔ lError < 0 := by
  rw [sound_some, xPrvMbedtlsErrToPkiStatus_success]
  constructor
  · intro h
    by_contra hneg
    exact hread (h (by omega))
  · intro h hpos
    omega

/-- What is read is what is claimed exactly when failures are detected. -/
theorem lReadCertificateFromPKCS11_sound (a : CertificateAnswers) :
    Sound ((lReadCertificateFromPKCS11 a).map xPrvMbedtlsErrToPkiStatus) a.Read ↔
      a.Detected := by
  rw [lReadCertificateFromPKCS11, CertificateAnswers.xResult]
  by_cases hfind : a.find = ckrOk
  · rw [ckAndThen_ok hfind]
    by_cases hlist : a.functionList.list = false
    · rw [if_pos ⟨hfind, hlist⟩]
      refine ⟨fun h => absurd h (sound_none _), fun h => ?_⟩
      have htrue := h.functionList hfind
      rw [hlist] at htrue
      cases htrue
    rw [if_neg (fun h => hlist h.2)]
    have hlist : a.functionList.list = true := by simpa using hlist
    by_cases hsize : a.size = ckrOk
    · rw [ckAndThen_ok hsize]
      cases hcalloc : a.calloc with
      | false =>
        -- CKR_HOST_MEMORY is positive
        have hread : ¬ a.Read := fun h => Bool.false_ne_true (hcalloc.symm.trans h.2.2.2.1)
        rw [ckAndThen_ne (by decide), if_neg (by decide), Option.map_some, sound_failure _ hread]
        refine ⟨fun h => absurd h (by decide), fun h => ?_⟩
        have htrue := h.calloc hfind hsize
        rw [hcalloc] at htrue
        cases htrue
      | true =>
        rw [ckAndThen_ok (if_pos rfl)]
        by_cases hvalue : a.value = ckrOk
        · rw [if_pos hvalue, Option.map_some, sound_some, xPrvMbedtlsErrToPkiStatus_success]
          constructor
          · intro h
            refine ⟨fun hne => absurd hfind hne, fun _ => hlist, fun _ hne => absurd hsize hne,
              fun _ _ => hcalloc, fun _ _ hne => absurd hvalue hne, fun _ _ _ => ?_⟩
            by_cases hneg : a.parse < 0
            · exact .inl hneg
            · have hread := h (by omega)
              exact .inr ⟨hread.2.2.2.2.2, hread.2.1⟩
          · intro h hpos
            obtain hneg | ⟨hzero, hobj⟩ := h.parse hfind hsize hvalue
            · omega
            · exact ⟨hfind, hobj, hsize, hcalloc, hvalue, hzero⟩
        · have hread : ¬ a.Read := fun h => hvalue h.2.2.2.2.1
          rw [if_neg hvalue, Option.map_some, sound_failure _ hread]
          refine ⟨fun h => ⟨fun hne => absurd hfind hne, fun _ => hlist,
            fun _ hne => absurd hsize hne, fun _ _ => hcalloc, fun _ _ _ => h,
            fun _ _ hok => absurd hok hvalue⟩, fun h => h.value hfind hsize hvalue⟩
    · have hread : ¬ a.Read := fun h => hsize h.2.2.1
      rw [ckAndThen_ne hsize, ckAndThen_ne hsize, if_neg hsize, Option.map_some,
        sound_failure _ hread]
      refine ⟨fun h => ⟨fun hne => absurd hfind hne, fun _ => hlist, fun _ _ => h,
        fun _ hok => absurd hok hsize, fun _ hok => absurd hok hsize,
        fun _ hok => absurd hok hsize⟩, fun h => h.size hfind hsize⟩
  · have hread : ¬ a.Read := fun h => hfind h.1
    rw [ckAndThen_ne hfind, ckAndThen_ne hfind, ckAndThen_ne hfind, if_neg (fun h => hfind h.1),
      if_neg hfind, Option.map_some, sound_failure _ hread]
    refine ⟨fun h => ⟨fun _ => h, fun hok => absurd hok hfind, fun hok => absurd hok hfind,
      fun hok => absurd hok hfind, fun hok => absurd hok hfind, fun hok => absurd hok hfind⟩,
      fun h => h.find hfind⟩

theorem certificateStatus_success {pkcs11configMAX_LABEL_LENGTH : Nat}
    {pxCertificateContext : Bool} {pcLabel : Option CString} {a : ReadCertificateAnswers} :
    certificateStatus pkcs11configMAX_LABEL_LENGTH pxCertificateContext pcLabel a = .success ↔
      a.Reached pkcs11configMAX_LABEL_LENGTH pxCertificateContext pcLabel := by
  have hlist : (if a.functionList.xResult ≠ ckrOk ∨ a.functionList.list = false then
      xPrvCkRvToPkiStatus a.functionList.xResult else .success) = .success ↔
      a.functionList.xResult = ckrOk := by
    split
    · exact xPrvCkRvToPkiStatus_success _
    · next h => exact ⟨fun _ => not_not.mp (fun hne => h (.inl hne)), fun _ => rfl⟩
  have hsession : (if a.session ≠ ckrOk then xPrvCkRvToPkiStatus a.session else .success) =
      .success ↔ a.session = ckrOk := by
    split
    · exact xPrvCkRvToPkiStatus_success _
    · next h => exact ⟨fun _ => not_not.mp h, fun _ => rfl⟩
  rw [certificateStatus, andThen_success, andThen_success, hlist, hsession, and_assoc]
  rfl

theorem xPkcs11ReadCertificate_sound (pkcs11configMAX_LABEL_LENGTH : Nat)
    (pxCertificateContext : Bool) (pcLabel : Option CString) (a : ReadCertificateAnswers) :
    Sound (xPkcs11ReadCertificate pkcs11configMAX_LABEL_LENGTH pxCertificateContext pcLabel a)
        a.certificate.Read ↔
      (a.Reached pkcs11configMAX_LABEL_LENGTH pxCertificateContext pcLabel →
        a.certificate.Detected) := by
  rw [xPkcs11ReadCertificate]
  by_cases hreach : a.Reached pkcs11configMAX_LABEL_LENGTH pxCertificateContext pcLabel
  · simp only [if_pos (certificateStatus_success.mpr hreach)]
    rw [lReadCertificateFromPKCS11_sound]
    exact ⟨fun hd _ => hd, fun hd => hd hreach⟩
  · have hne := mt certificateStatus_success.mp hreach
    simp only [if_neg hne]
    rw [sound_some]
    exact ⟨fun _ h => absurd h hreach, fun _ h => absurd h hne⟩

/-- The buffer holds the header and behind it the point without its tags, the length is the
buffer's. -/
def PublicKeyResult.Exported (r : PublicKeyResult) (ecPoint : List UInt8) : Prop :=
  ∃ key, r.pucPublicKeyDer = some key ∧ r.uxPubKeyLen = some key.length ∧
    key.take pucEcP256AsnAndOid.length = pucEcP256AsnAndOid ∧
    (ecPoint.drop sizeofUnusedKeyTag) <+: key.drop pucEcP256AsnAndOid.length

/-- The function returns, and PKI_SUCCESS only with the exported key. -/
def PublicKeySound (result : Option PublicKeyResult) (ecPoint : List UInt8) : Prop :=
  ∃ r, result = some r ∧ (r.xStatus = .success → r.Exported ecPoint)

/-- Nothing is written outside the buffer and no list that is not there is used. -/
def ExportAnswers.Fits (a : ExportAnswers) : Prop :=
  a.functionList.xResult = ckrOk → a.functionList.list = true ∧
    (a.size = ckrOk → a.malloc = true →
      pucEcP256AsnAndOid.length - sizeofUnusedKeyTag + a.ecPoint.length ≤ a.pubKeyDerLen ∧
        pucEcP256AsnAndOid.length ≤ a.pubKeyDerLen)

def ExportAnswers.Succeeds (a : ExportAnswers) : Prop :=
  a.functionList.xResult = ckrOk ∧ a.size = ckrOk ∧ a.malloc = true ∧ a.value = ckrOk

def ReadPublicKeyAnswers.Reached (pkcs11configMAX_LABEL_LENGTH : Nat)
    (ppucPublicKeyDer : Bool) (pcPubKeyLabel : Option CString) (a : ReadPublicKeyAnswers) : Prop :=
  publicKeyArgs pkcs11configMAX_LABEL_LENGTH ppucPublicKeyDer pcPubKeyLabel = .success ∧
    a.functionList.xResult = ckrOk

/-- When a call fails while a session is open, closing the session fails too. -/
structure ReadPublicKeyAnswers.Detected (a : ReadPublicKeyAnswers) : Prop where
  functionList : a.xSession ≠ 0 → a.functionList.list = true
  fits : a.session = ckrOk → a.find = ckrOk → a.exported.Fits
  close : a.xSession ≠ 0 → a.close = ckrOk →
    a.session = ckrOk ∧ a.find = ckrOk ∧ a.exported.Succeeds

/-- Of what stands behind `k` values, all but the first `t` stand behind the first `k + t`. -/
theorem drop_prefix_drop {α : Type*} {zeros : List α} {k : Nat} (hk : k ≤ zeros.length)
    (point rest : List α) (t : Nat) :
    point.drop t <+: (zeros.take k ++ point ++ rest).drop (k + t) := by
  rw [List.append_assoc, ← List.drop_drop, List.drop_left' (List.length_take_of_le hk),
    List.drop_append]
  exact List.prefix_append _ _

/-- An export that stays in its buffer fails with CKR_HOST_MEMORY or the code of the last call, or
delivers the key. -/
theorem xPrvExportPubKeyDer_cases {a : ExportAnswers} (h : a.Fits) :
    (¬ a.Succeeds ∧ ∃ xResult, xResult ≠ ckrOk ∧
      xPrvExportPubKeyDer a = some (xResult, none, 0)) ∨
    (a.Succeeds ∧ ∃ key, xPrvExportPubKeyDer a = some (ckrOk, some key, key.length) ∧
      key.take pucEcP256AsnAndOid.length = pucEcP256AsnAndOid ∧
      (a.ecPoint.drop sizeofUnusedKeyTag) <+: key.drop pucEcP256AsnAndOid.length) := by
  rw [xPrvExportPubKeyDer]
  by_cases hrv : a.functionList.xResult = ckrOk
  · obtain ⟨hlist, hroom⟩ := h hrv
    rw [if_neg (not_not.mpr hrv), if_neg (by simp [hlist])]
    by_cases hmem : a.size ≠ ckrOk ∨ a.malloc = false
    · rw [if_pos hmem]
      refine .inl ⟨?_, ckrHostMemory, by decide, rfl⟩
      intro hs
      obtain hne | hnone := hmem
      · exact hne hs.2.1
      · rw [hs.2.2.1] at hnone
        cases hnone
    · rw [if_neg hmem]
      obtain ⟨hsize, hmalloc⟩ := not_or.mp hmem
      have hsize := not_not.mp hsize
      have hmalloc : a.malloc = true := by simpa using hmalloc
      obtain ⟨hpoint, hheader⟩ := hroom hsize hmalloc
      obtain ⟨b, hb, hbytes⟩ := Buffer.memcpy_of_le
        (⟨List.replicate a.pubKeyDerLen 0, List.length_replicate⟩ : Buffer UInt8 a.pubKeyDerLen)
        _ a.ecPoint hpoint
      obtain ⟨b', hb', hbytes'⟩ := b.memcpy_of_le 0 pucEcP256AsnAndOid (by omega)
      simp only [hb, Option.bind_some, hb', Option.map_some]
      by_cases hvalue : a.value = ckrOk
      · right
        rw [if_neg (not_not.mpr hvalue), hvalue]
        refine ⟨⟨hrv, hsize, hmalloc, hvalue⟩, b'.bytes, by rw [b'.length_bytes], ?_, ?_⟩
        · rw [hbytes']
          simp
        · have hlen : pucEcP256AsnAndOid.length =
              pucEcP256AsnAndOid.length - sizeofUnusedKeyTag + sizeofUnusedKeyTag := rfl
          have hrest : b'.bytes.drop pucEcP256AsnAndOid.length =
              b.bytes.drop pucEcP256AsnAndOid.length := by
            rw [hbytes', List.take_zero, List.nil_append, Nat.zero_add, List.drop_left]
          rw [hrest, hbytes, hlen]
          apply drop_prefix_drop
          rw [List.length_replicate]
          omega
      · left
        rw [if_pos hvalue]
        exact ⟨fun hs => hvalue hs.2.2.2, a.value, hvalue, rfl⟩
  · rw [if_pos hrv]
    exact .inl ⟨fun hs => hrv hs.1, ckrHostMemory, by decide, rfl⟩

theorem publicKeyStatus_success {pkcs11configMAX_LABEL_LENGTH : Nat} {ppucPublicKeyDer : Bool}
    {pcPubKeyLabel : Option CString} {a : ReadPublicKeyAnswers} :
    publicKeyStatus pkcs11configMAX_LABEL_LENGTH ppucPublicKeyDer pcPubKeyLabel a = .success ↔
      a.Reached pkcs11configMAX_LABEL_LENGTH ppucPublicKeyDer pcPubKeyLabel := by
  rw [publicKeyStatus, andThen_success, xPrvCkRvToPkiStatus_success]
  rfl

/-- An export that may write outside its buffer or use a list that is not there is undefined. -/
theorem xPrvExportPubKeyDer_none {a : ExportAnswers} (h : ¬ a.Fits) :
    xPrvExportPubKeyDer a = none := by
  obtain ⟨hrv, hno⟩ := Classical.not_imp.mp h
  rw [xPrvExportPubKeyDer, if_neg (not_not.mpr hrv)]
  by_cases hlist : a.functionList.list = false
  · rw [if_pos hlist]
  · rw [if_neg hlist]
    have hroom : ¬ (a.size = ckrOk → a.malloc = true → _) := fun hr =>
      hno ⟨by simpa using hlist, hr⟩
    obtain ⟨hsize, hroom⟩ := Classical.not_imp.mp hroom
    obtain ⟨hmalloc, hroom⟩ := Classical.not_imp.mp hroom
    rw [if_neg (by simp [hsize, hmalloc])]
    simp only [Buffer.memcpy]
    split
    · next hpoint =>
      rw [Option.bind_some, dif_neg, Option.map_none]
      intro hheader
      rw [Nat.zero_add] at hheader
      exact hroom ⟨hpoint, hheader⟩
    · rfl

theorem openAndExport_cases (a : ReadPublicKeyAnswers) :
    (¬ (a.session = ckrOk → a.find = ckrOk → a.exported.Fits) ∧ openAndExport a = none) ∨
    ((a.session = ckrOk → a.find = ckrOk → a.exported.Fits) ∧ ∃ r, openAndExport a = some r ∧
      ((a.session = ckrOk ∧ a.find = ckrOk ∧ a.exported.Succeeds ∧
          r.Exported a.exported.ecPoint) ∨
        (¬ (a.session = ckrOk ∧ a.find = ckrOk ∧ a.exported.Succeeds) ∧ r.xStatus ≠ .success ∧
          r.uxPubKeyLen = none))) := by
  rw [openAndExport]
  by_cases hsession : a.session = ckrOk
  · rw [if_pos ((xPrvCkRvToPkiStatus_success _).mpr hsession), searchAndExport]
    by_cases hfind : a.find = ckrOk
    · rw [if_pos ((xPrvCkRvToPkiStatus_success _).mpr hfind)]
      by_cases hfits : a.exported.Fits
      · right
        refine ⟨fun _ _ => hfits, ?_⟩
        obtain ⟨hno, xResult, hne, hres⟩ | ⟨hs, key, hres, hheader, hpoint⟩ :=
          xPrvExportPubKeyDer_cases hfits
        · have hstatus := mt (xPrvCkRvToPkiStatus_success xResult).mp hne
          simp only [hres, Option.map_some, if_neg hstatus]
          exact ⟨_, rfl, .inr ⟨fun h => hno h.2.2, hstatus, rfl⟩⟩
        · simp only [hres, Option.map_some]
          exact ⟨_, rfl, .inl ⟨hsession, hfind, hs, key, rfl, rfl, hheader, hpoint⟩⟩
      · left
        rw [xPrvExportPubKeyDer_none hfits]
        exact ⟨fun h => hfits (h hsession hfind), rfl⟩
    · right
      have hstatus := mt (xPrvCkRvToPkiStatus_success _).mp hfind
      rw [if_neg hstatus]
      exact ⟨fun _ h => absurd h hfind, _, rfl, .inr ⟨fun h => hfind h.2.1, hstatus, rfl⟩⟩
  · right
    have hstatus := mt (xPrvCkRvToPkiStatus_success _).mp hsession
    rw [if_neg hstatus]
    exact ⟨fun h => absurd h hsession, _, rfl, .inr ⟨fun h => hsession h.1, hstatus, rfl⟩⟩

theorem publicKeySound_some {r : PublicKeyResult} {ecPoint : List UInt8} :
    PublicKeySound (some r) ecPoint ↔ (r.xStatus = .success → r.Exported ecPoint) := by
  constructor
  · intro h
    obtain ⟨r', hr', hdone⟩ := h
    rwa [← Option.some.inj hr'] at hdone
  · intro h
    exact ⟨r, rfl, h⟩

theorem publicKeySound_none (ecPoint : List UInt8) : ¬ PublicKeySound none ecPoint := by
  intro h
  obtain ⟨r, hnone, -⟩ := h
  cases hnone

/-- The status of closing the session must not hide a failure. -/
theorem xPkcs11ReadPublicKey_sound (pkcs11configMAX_LABEL_LENGTH : Nat) (ppucPublicKeyDer : Bool)
    (pcPubKeyLabel : Option CString) (a : ReadPublicKeyAnswers) :
    PublicKeySound (xPkcs11ReadPublicKey pkcs11configMAX_LABEL_LENGTH ppucPublicKeyDer
        pcPubKeyLabel a) a.exported.ecPoint ↔
      (a.Reached pkcs11configMAX_LABEL_LENGTH ppucPublicKeyDer pcPubKeyLabel → a.Detected) := by
  rw [xPkcs11ReadPublicKey]
  by_cases hreach : a.Reached pkcs11configMAX_LABEL_LENGTH ppucPublicKeyDer pcPubKeyLabel
  · simp only [if_pos (publicKeyStatus_success.mpr hreach)]
    have hdrop : (a.Reached pkcs11configMAX_LABEL_LENGTH ppucPublicKeyDer pcPubKeyLabel →
        a.Detected) ↔ a.Detected := ⟨fun h => h hreach, fun h _ => h⟩
    rw [hdrop]
    obtain ⟨hno, hres⟩ | ⟨hfits, r, hres, hcases⟩ := openAndExport_cases a
    · rw [hres, Option.bind_none]
      exact ⟨fun h => absurd h (publicKeySound_none _), fun h => absurd h.fits hno⟩
    · rw [hres, Option.bind_some, closeSession]
      by_cases hopen : a.xSession ≠ 0
      · rw [if_pos hopen]
        by_cases hlist : a.functionList.list = false
        · rw [if_pos hlist]
          refine ⟨fun h => absurd h (publicKeySound_none _), fun h => ?_⟩
          have htrue := h.functionList hopen
          rw [hlist] at htrue
          cases htrue
        · rw [if_neg hlist, publicKeySound_some]
          have hlist : a.functionList.list = true := by simpa using hlist
          simp only [xPrvCkRvToPkiStatus_success]
          constructor
          · intro h
            refine ⟨fun _ => hlist, hfits, fun _ hclose => ?_⟩
            obtain hdone | ⟨-, -, hlen⟩ := hcases
            · exact ⟨hdone.1, hdone.2.1, hdone.2.2.1⟩
            · obtain ⟨key, -, hsome, -⟩ := h hclose
              rw [hlen] at hsome
              cases hsome
          · intro h hclose
            obtain ⟨-, -, -, hexp⟩ | ⟨hnot, -, -⟩ := hcases
            · exact hexp
            · exact absurd (h.close hopen hclose) hnot
      · rw [if_neg hopen, publicKeySound_some]
        refine ⟨fun _ => ⟨fun h => absurd h hopen, hfits, fun h => absurd h hopen⟩, ?_⟩
        intro _ hsucc
        obtain ⟨-, -, -, hexp⟩ | ⟨-, hne, -⟩ := hcases
        · exact hexp
        · exact absurd hsucc hne
  · have hne := mt publicKeyStatus_success.mp hreach
    simp only [if_neg hne]
    rw [publicKeySound_some]
    exact ⟨fun _ h => absurd h hreach, fun _ h => absurd h hne⟩

/-- Both ways to read a certificate and the reading of a public key report success only with the
work done, for those answers of the calls for which a failure is detected. -/
theorem pkiSuccess_sound (pkcs11configMAX_LABEL_LENGTH : Nat) (pointer : Bool)
    (label : Option CString) (a : ReadCertificateAnswers) (k : ReadPublicKeyAnswers) :
    (Sound (xPkcs11ReadCertificate pkcs11configMAX_LABEL_LENGTH pointer label a)
        a.certificate.Read ↔
      (a.Reached pkcs11configMAX_LABEL_LENGTH pointer label → a.certificate.Detected)) ∧
    (Sound (xPkiReadCertificateLabel pkcs11configMAX_LABEL_LENGTH label a) a.certificate.Read ↔
      (a.Reached pkcs11configMAX_LABEL_LENGTH true label → a.certificate.Detected)) ∧
    (PublicKeySound (xPkcs11ReadPublicKey pkcs11configMAX_LABEL_LENGTH pointer label k)
        k.exported.ecPoint ↔
      (k.Reached pkcs11configMAX_LABEL_LENGTH pointer label → k.Detected)) :=
  ⟨xPkcs11ReadCertificate_sound .., xPkcs11ReadCertificate_sound ..,
    xPkcs11ReadPublicKey_sound ..⟩

/-- A certificate that is not there: the code CKR_OBJECT_HANDLE_INVALID is positive. -/
theorem not_pkiSuccess_noCertificate :
    ¬ Sound (xPkcs11ReadCertificate 32 true (some ⟨[0x61], by decide⟩)
        ⟨⟨ckrOk, true⟩, ckrOk, ⟨⟨ckrOk, true⟩, ckrOk, ckInvalidHandle, ckrObjectHandleInvalid, true,
          ckrObjectHandleInvalid, -1⟩⟩)
      (CertificateAnswers.Read ⟨⟨ckrOk, true⟩, ckrOk, ckInvalidHandle, ckrObjectHandleInvalid, true,
        ckrObjectHandleInvalid, -1⟩) := by
  intro h
  obtain ⟨xStatus, hres, hread⟩ := h
  have hsucc : xStatus = .success := by
    rw [← Option.some.inj hres]
    decide
  exact absurd (hread hsucc).2.1 (by decide)

end RenesasDemo.Pki
