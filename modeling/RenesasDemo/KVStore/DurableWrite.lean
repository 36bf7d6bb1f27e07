import RenesasDemo.KVStore.Commit

namespace RenesasDemo.KVStore

open Framework

/-- `lfs_ssize_t`: a number of bytes, or a negative error code. -/
structure LfsSSize where
  value : Int
  lower : -2 ^ 31 ≤ value
  upper : value < 2 ^ 31

def lfsErrOk : Int := 0

def lfsErrFBig : Int := -27

def lfsErrCorrupt : Int := -84

/-- The comparison is between unsigned numbers. -/
def vLfsSSizeToErr (pxReturnValue : Int) (xExpectedLength : Nat) : Int :=
  if pxReturnValue % sizeMod = xExpectedLength then lfsErrOk
  else if 0 ≤ pxReturnValue then lfsErrCorrupt
  else pxReturnValue

/-- What `lfs_file_write` returns, and how many bytes an error leaves in the open file. -/
structure LfsWriteAnswer where
  lReturn : LfsSSize
  kept : Nat

/-- What a call returns that is to bring the storage up to date, and whether it does so even if
it fails, or if a write has failed before. -/
structure LfsSyncAnswer where
  ok : Bool
  commits : Bool

/-- What littlefs answers while the file of one key is written. -/
structure LfsStorageAnswers where
  openOk : Bool
  /-- Opening a file that is absent stores an empty one. -/
  created : Bool
  header : LfsWriteAnswer
  value : LfsWriteAnswer
  sync : LfsSyncAnswer
  close : LfsSyncAnswer
  remove : LfsSyncAnswer

/-- `lfs_file_write` to the open file; what it returns, and the file. -/
def lfsFileWriteOpen (f : LfsFile) (v : List UInt8) (a : LfsWriteAnswer) : Int × LfsFile :=
  if h : f.bytes.length + v.length ≤ lfsFileMax then
    let count := if 0 ≤ a.lReturn.value then a.lReturn.value.toNat else a.kept
    (if 0 ≤ a.lReturn.value then min a.lReturn.value v.length else a.lReturn.value,
      ⟨f.bytes ++ v.take count, length_append_take_le count h⟩)
  else (lfsErrFBig, f)

/-- The stored file after `lfs_file_sync` or `lfs_file_close`: all of the open file, or none. -/
def LfsSyncAnswer.store (a : LfsSyncAnswer) (failed : Bool) (open' : LfsFile)
    (stored : Option LfsFile) : Option LfsFile :=
  if (a.ok && !failed) || a.commits then some open' else stored

section writes

variable (xType : KVStoreValueType) (pvData : List UInt8) (lfs : LfsStorageAnswers)

def headerWrite : Int × LfsFile :=
  lfsFileWriteOpen .empty (KVStoreTLVHeader.toBytes ⟨xType, pvData.length⟩) lfs.header

def valueWrite : Int × LfsFile :=
  lfsFileWriteOpen (headerWrite xType pvData lfs).2 pvData lfs.value

/-- `lReturn` after the writes, whether one of them failed, and the open file. -/
structure WrittenFile where
  lReturn : Int
  failed : Bool
  file : LfsFile

/-- The header, and the value if the header is complete. -/
def prvWriteTlv : WrittenFile :=
  let (lReturn, f) := headerWrite xType pvData lfs
  if vLfsSSizeToErr lReturn sizeofTLVHeader = lfsErrOk then
    let (lReturn, f) := valueWrite xType pvData lfs
    ⟨vLfsSSizeToErr lReturn pvData.length, decide (lReturn < 0), f⟩
  else ⟨vLfsSSizeToErr lReturn sizeofTLVHeader, decide (lReturn < 0), f⟩

end writes

/-- `xprvWriteValueToImpl` on the stored file of its key; `pvData` is `none` for NULL. -/
def xprvWriteValueToImplStored (xType : KVStoreValueType) (pvData : Option (List UInt8))
    (lfs : LfsStorageAnswers) (stored : Option LfsFile) : Bool × Option LfsFile :=
  match pvData with
  | none => (false, stored)
  | some v =>
      if lfs.openOk then
        let stored := if lfs.created then some (stored.getD .empty) else stored
        let w := prvWriteTlv xType v lfs
        let stored := lfs.sync.store w.failed w.file stored
        let stored := lfs.close.store w.failed w.file stored
        -- a partially written file is deleted
        let stored :=
          if w.lReturn ≠ lfsErrOk ∧ (lfs.remove.ok || lfs.remove.commits) then none else stored
        (decide (w.lReturn = lfsErrOk), stored)
      else (false, stored)

/-- The file gives a value when it is read. -/
def ReadsAs (file : Option LfsFile) (nv : NvRead) : Prop :=
  nv.result.isSome ∧ ∃ ndebug kvstoreValMaxLen,
    xprvReadValueFromImpl ndebug kvstoreValMaxLen (.ofFile file) = .ok nv

/-- All of the header and of the value was written, synchronised and closed. -/
structure AllSucceed (xType : KVStoreValueType) (v : List UInt8) (lfs : LfsStorageAnswers) :
    Prop where
  opened : lfs.openOk = true
  header : (headerWrite xType v lfs).1 = sizeofTLVHeader
  value : (valueWrite xType v lfs).1 = v.length
  sync : lfs.sync.ok = true
  close : lfs.close.ok = true

/-- Success means that everything succeeded and is stored; after a failure a read gives the new
value, or what it gave before. -/
def DurableOrNothing (xType : KVStoreValueType) (pvData : Option (List UInt8))
    (lfs : LfsStorageAnswers) (stored : Option LfsFile) : Prop :=
  ((xprvWriteValueToImplStored xType pvData lfs stored).1 = true →
    ∃ v f, pvData = some v ∧ AllSucceed xType v lfs ∧
      (xprvWriteValueToImplStored xType pvData lfs stored).2 = some f ∧
      f.bytes = tlvBytes xType v) ∧
  ((xprvWriteValueToImplStored xType pvData lfs stored).1 = false →
    ∀ nv, ReadsAs (xprvWriteValueToImplStored xType pvData lfs stored).2 nv →
      (∃ v, pvData = some v ∧ nv = ⟨v, some ⟨xType, v.length⟩⟩) ∨ ReadsAs stored nv)

/-- What opens and is written is synchronised and closed, and no error code of the last write is
taken for the length of the value. -/
def DurableWhen (xType : KVStoreValueType) (pvData : Option (List UInt8))
    (lfs : LfsStorageAnswers) : Prop :=
  ∀ v, pvData = some v → lfs.openOk = true →
    (headerWrite xType v lfs).1 = sizeofTLVHeader →
    (valueWrite xType v lfs).1 % sizeMod = v.length →
    (valueWrite xType v lfs).1 = v.length ∧ lfs.sync.ok = true ∧ lfs.close.ok = true

theorem vLfsSSizeToErr_eq_ok {r : Int} {len : Nat} :
    vLfsSSizeToErr r len = lfsErrOk ↔ r % sizeMod = len := by
  rw [vLfsSSizeToErr]
  split
  · next h => exact iff_of_true rfl h
  · next h =>
    apply iff_of_false _ h
    split
    · decide
    · intro hz
      simp only [lfsErrOk] at hz
      omega

section open'

variable {f : LfsFile} {v : List UInt8} {a : LfsWriteAnswer}

/-- What is written is a beginning of the value, and all of it if that is what is returned. -/
theorem lfsFileWriteOpen_spec (f : LfsFile) (v : List UInt8) (a : LfsWriteAnswer) :
    (∃ count, (lfsFileWriteOpen f v a).2.bytes = f.bytes ++ v.take count) ∧
      ((lfsFileWriteOpen f v a).1 = v.length →
        (lfsFileWriteOpen f v a).2.bytes = f.bytes ++ v) := by
  rw [lfsFileWriteOpen]
  split
  · refine ⟨⟨_, rfl⟩, ?_⟩
    intro hall
    simp only at hall ⊢
    split at hall
    · next hpos =>
      rw [if_pos hpos, List.take_of_length_le (by omega)]
    · omega
  · refine ⟨⟨0, by simp⟩, ?_⟩
    intro hall
    simp only [lfsErrFBig] at hall
    omega

theorem lfsFileWriteOpen_range (f : LfsFile) (v : List UInt8) (a : LfsWriteAnswer) :
    -2 ^ 31 ≤ (lfsFileWriteOpen f v a).1 ∧ (lfsFileWriteOpen f v a).1 < 2 ^ 31 := by
  have hlower := a.lReturn.lower
  have hupper := a.lReturn.upper
  rw [lfsFileWriteOpen]
  split
  · simp only
    split <;> omega
  · simp only [lfsErrFBig]
    omega

end open'

section stored

variable {xType : KVStoreValueType} {v : List UInt8} {lfs : LfsStorageAnswers}
  {stored : Option LfsFile}

/-- No error code is taken for the eight bytes of the header. -/
theorem headerWrite_ok :
    vLfsSSizeToErr (headerWrite xType v lfs).1 sizeofTLVHeader = lfsErrOk ↔
      (headerWrite xType v lfs).1 = sizeofTLVHeader := by
  obtain ⟨hlower, hupper⟩ := lfsFileWriteOpen_range .empty
    (KVStoreTLVHeader.toBytes ⟨xType, v.length⟩) lfs.header
  rw [vLfsSSizeToErr_eq_ok, headerWrite]
  simp only [sizeMod, sizeofTLVHeader] at *
  omega

theorem headerWrite_complete (h : (headerWrite xType v lfs).1 = sizeofTLVHeader) :
    (headerWrite xType v lfs).2.bytes = KVStoreTLVHeader.toBytes ⟨xType, v.length⟩ := by
  have hall := (lfsFileWriteOpen_spec .empty (KVStoreTLVHeader.toBytes ⟨xType, v.length⟩)
    lfs.header).2
  rw [KVStoreTLVHeader.toBytes_length] at hall
  exact hall h

/-- The open file is a beginning of the complete one. -/
theorem prvWriteTlv_prefix (xType : KVStoreValueType) (v : List UInt8) (lfs : LfsStorageAnswers) :
    (prvWriteTlv xType v lfs).file.bytes <+: tlvBytes xType v := by
  have hhead := KVStoreTLVHeader.toBytes_length ⟨xType, v.length⟩
  rw [prvWriteTlv]
  simp only
  split
  · next hok =>
    obtain ⟨count, hcount⟩ :=
      (lfsFileWriteOpen_spec (headerWrite xType v lfs).2 v lfs.value).1
    have hfile : (valueWrite xType v lfs).2.bytes =
        KVStoreTLVHeader.toBytes ⟨xType, v.length⟩ ++ v.take count := by
      rw [valueWrite, hcount, headerWrite_complete (headerWrite_ok.mp hok)]
    rw [hfile, tlvBytes]
    exact (List.prefix_append_right_inj _).mpr (List.take_prefix ..)
  · obtain ⟨count, hcount⟩ := (lfsFileWriteOpen_spec .empty
      (KVStoreTLVHeader.toBytes ⟨xType, v.length⟩) lfs.header).1
    have hfile : (headerWrite xType v lfs).2.bytes =
        (KVStoreTLVHeader.toBytes ⟨xType, v.length⟩).take count := hcount
    rw [hfile, tlvBytes]
    exact (List.take_prefix ..).trans (List.prefix_append ..)

/-- What may be stored afterwards: nothing, what was stored before, or a beginning of the file. -/
theorem stored_cases (xType : KVStoreValueType) (v : List UInt8) (lfs : LfsStorageAnswers)
    (stored : Option LfsFile) :
    (xprvWriteValueToImplStored xType (some v) lfs stored).2 = none ∨
      (xprvWriteValueToImplStored xType (some v) lfs stored).2 = stored ∨
      ∃ f, (xprvWriteValueToImplStored xType (some v) lfs stored).2 = some f ∧
        f.bytes <+: tlvBytes xType v := by
  have hw := prvWriteTlv_prefix xType v lfs
  have hopened : ∀ created : Bool,
      (if created then some (stored.getD .empty) else stored) = stored ∨
      ∃ f, (if created then some (stored.getD .empty) else stored) = some f ∧
        f.bytes <+: tlvBytes xType v := by
    intro created
    cases created with
    | false => exact .inl rfl
    | true =>
      cases stored with
      | some f => exact .inl rfl
      | none => exact .inr ⟨.empty, rfl, List.nil_prefix⟩
  have hstore : ∀ (a : LfsSyncAnswer) (failed : Bool) (old : Option LfsFile),
      (old = stored ∨ ∃ f, old = some f ∧ f.bytes <+: tlvBytes xType v) →
      (a.store failed (prvWriteTlv xType v lfs).file old = stored ∨
        ∃ f, a.store failed (prvWriteTlv xType v lfs).file old = some f ∧
          f.bytes <+: tlvBytes xType v) := by
    intro a failed old hold
    rw [LfsSyncAnswer.store]
    split
    · exact .inr ⟨_, rfl, hw⟩
    · exact hold
  simp only [xprvWriteValueToImplStored]
  split
  · split
    · exact .inl rfl
    · exact .inr (hstore _ _ _ (hstore _ _ _ (hopened _)))
  · exact .inr (.inl rfl)

/-- What makes a file give a value. -/
theorem readsAs_file {f : LfsFile} {nv : NvRead} (h : ReadsAs (some f) nv) :
    sizeofTLVHeader ≤ f.bytes.length ∧ nv.result = some f.header ∧
      f.header.length ≤ f.payload.length ∧ nv.pvBuffer = f.payload.take f.header.length := by
  obtain ⟨hsome, ndebug, kvstoreValMaxLen, hread⟩ := h
  rw [xprvReadValueFromImpl] at hread
  split at hread
  · next hvalid =>
    have hbig : sizeofTLVHeader ≤ f.bytes.length := by
      simpa [xValidateFile, LfsReadAnswers.ofFile] using hvalid
    have hheader : (LfsReadAnswers.ofFile (some f)).headerRead =
        some (f.bytes.take sizeofTLVHeader) := rfl
    have hvalue : lfsFileRead (LfsReadAnswers.ofFile (some f)).value f.header.length =
        some (f.payload.take f.header.length) := rfl
    have hhdr : KVStoreTLVHeader.ofBytes (f.bytes.take sizeofTLVHeader) = f.header := rfl
    simp only [hheader, Option.getD_some, hhdr, hvalue, bind, Except.bind, pure,
      Except.pure] at hread
    split at hread
    · cases hread
    split at hread
    · obtain rfl := Except.ok.inj hread
      simp only [Option.map_some, Option.some.injEq, List.length_take] at hsome ⊢
      split at hsome
      · next hlen => exact ⟨hbig, if_pos hlen, by omega, trivial⟩
      · cases hsome
    · obtain rfl := Except.ok.inj hread
      cases hsome
  · obtain rfl := Except.ok.inj hread
    cases hsome

theorem not_readsAs_none {nv : NvRead} : ¬ ReadsAs none nv := by
  intro h
  obtain ⟨hsome, ndebug, kvstoreValMaxLen, hread⟩ := h
  obtain rfl : (⟨[], none⟩ : NvRead) = nv := Except.ok.inj hread
  cases hsome

/-- A beginning of a complete file gives the complete value, or none. -/
theorem readsAs_prefix {f : LfsFile} {nv : NvRead} (ht : xType.toNat < sizeMod)
    (hv : v.length < sizeMod) (hpre : f.bytes <+: tlvBytes xType v) (h : ReadsAs (some f) nv) :
    nv = ⟨v, some ⟨xType, v.length⟩⟩ := by
  obtain ⟨hbig, hres, hlen, hbuf⟩ := readsAs_file h
  have hhead := KVStoreTLVHeader.toBytes_length ⟨xType, v.length⟩
  obtain ⟨rest, hrest⟩ := hpre
  have htake : f.bytes.take sizeofTLVHeader = KVStoreTLVHeader.toBytes ⟨xType, v.length⟩ := by
    have hcut := congrArg (List.take sizeofTLVHeader) hrest
    rwa [List.take_append_of_le_length hbig, tlvBytes, ← hhead, List.take_left] at hcut
  have hheader : f.header = ⟨xType, v.length⟩ := by
    rw [LfsFile.header, htake]
    exact KVStoreTLVHeader.ofBytes_toBytes _ ht hv
  have hpayload : f.payload ++ rest = v := by
    have hcut := congrArg (List.drop sizeofTLVHeader) hrest
    rwa [List.drop_append_of_le_length hbig, tlvBytes, ← hhead, List.drop_left] at hcut
  have hall : f.payload = v := by
    have hlen' : v.length ≤ f.payload.length := by rwa [hheader] at hlen
    have hsum := congrArg List.length hpayload
    rw [List.length_append] at hsum
    have hnil : rest = [] := List.eq_nil_of_length_eq_zero (by omega)
    rwa [hnil, List.append_nil] at hpayload
  rw [hheader] at hres hbuf
  rw [hall, List.take_length] at hbuf
  cases nv
  simp only at hres hbuf
  rw [hres, hbuf]

end stored

section durable

variable {xType : KVStoreValueType} {v : List UInt8} {lfs : LfsStorageAnswers}
  {stored : Option LfsFile}

/-- When `xprvWriteValueToImpl` reports success: the results of `lfs_file_sync` and
`lfs_file_close` are not looked at. -/
theorem xprvWriteValueToImplStored_true :
    (xprvWriteValueToImplStored xType (some v) lfs stored).1 = true ↔
      lfs.openOk = true ∧ (headerWrite xType v lfs).1 = sizeofTLVHeader ∧
        (valueWrite xType v lfs).1 % sizeMod = v.length := by
  simp only [xprvWriteValueToImplStored]
  by_cases hopen : lfs.openOk = true
  · rw [if_pos hopen, decide_eq_true_iff, prvWriteTlv]
    simp only
    by_cases hheader : (headerWrite xType v lfs).1 = sizeofTLVHeader
    · rw [if_pos (headerWrite_ok.mpr hheader), vLfsSSizeToErr_eq_ok]
      exact ⟨fun h => ⟨hopen, hheader, h⟩, fun h => h.2.2⟩
    · have hnot := headerWrite_ok.not.mpr hheader
      rw [if_neg hnot]
      exact iff_of_false hnot fun h => hheader h.2.1
  · rw [if_neg hopen]
    exact iff_of_false Bool.false_ne_true fun h => hopen h.1

/-- When everything succeeds the complete file is stored. -/
theorem AllSucceed.isStored (h : AllSucceed xType v lfs) (stored : Option LfsFile) :
    ∃ f, (xprvWriteValueToImplStored xType (some v) lfs stored).2 = some f ∧
      f.bytes = tlvBytes xType v := by
  have hlen : (v.length : Int) % sizeMod = v.length := by
    have hupper := (lfsFileWriteOpen_range (headerWrite xType v lfs).2 v lfs.value).2
    have hvalue : (lfsFileWriteOpen (headerWrite xType v lfs).2 v lfs.value).1 = v.length :=
      h.value
    simp only [sizeMod]
    omega
  have hok : vLfsSSizeToErr (valueWrite xType v lfs).1 v.length = lfsErrOk := by
    rw [vLfsSSizeToErr_eq_ok, h.value, hlen]
  have hw : prvWriteTlv xType v lfs = ⟨lfsErrOk, false, (valueWrite xType v lfs).2⟩ := by
    have hpos : ¬ (valueWrite xType v lfs).1 < 0 := by
      rw [h.value]
      omega
    rw [prvWriteTlv]
    simp only [if_pos (headerWrite_ok.mpr h.header), hok, decide_eq_false hpos]
  refine ⟨(valueWrite xType v lfs).2, ?_, ?_⟩
  · simp only [xprvWriteValueToImplStored, if_pos h.opened, hw, LfsSyncAnswer.store, h.sync,
      h.close, ne_eq, not_true_eq_false, false_and, if_false, Bool.not_false, Bool.and_self,
      Bool.true_or, if_true]
  · rw [valueWrite, (lfsFileWriteOpen_spec _ v lfs.value).2 h.value,
      headerWrite_complete h.header, tlvBytes]

/-- A write is durable or leaves no mark exactly when a complete write is also synchronised and
closed. -/
theorem durableOrNothing_iff (lfs : LfsStorageAnswers) (stored : Option LfsFile)
    {pvData : Option (List UInt8)} (ht : xType.toNat < sizeMod)
    (hv : ∀ v, pvData = some v → v.length < sizeMod) :
    DurableOrNothing xType pvData lfs stored ↔ DurableWhen xType pvData lfs := by
  constructor
  · intro h v hdata hopen hheader hvalue
    subst hdata
    obtain ⟨v', f, hv', hall, -⟩ :=
      h.1 (xprvWriteValueToImplStored_true.mpr ⟨hopen, hheader, hvalue⟩)
    obtain rfl := Option.some.inj hv'
    exact ⟨hall.value, hall.sync, hall.close⟩
  · intro h
    cases pvData with
    | none =>
      constructor
      · intro hok
        cases hok
      · exact fun _ nv hnv => .inr hnv
    | some v =>
      constructor
      · intro hok
        obtain ⟨hopen, hheader, hvalue⟩ := xprvWriteValueToImplStored_true.mp hok
        obtain ⟨hcount, hsync, hclose⟩ := h v rfl hopen hheader hvalue
        have hall : AllSucceed xType v lfs := ⟨hopen, hheader, hcount, hsync, hclose⟩
        obtain ⟨f, hf, hbytes⟩ := hall.isStored stored
        exact ⟨v, f, rfl, hall, hf, hbytes⟩
      · intro _ nv hnv
        obtain hnone | hsame | ⟨f, hf, hpre⟩ := stored_cases xType v lfs stored
        · rw [hnone] at hnv
          exact absurd hnv not_readsAs_none
        · rw [hsame] at hnv
          exact .inr hnv
        · rw [hf] at hnv
          exact .inl ⟨v, rfl, readsAs_prefix ht (hv v rfl) hpre hnv⟩

def LfsWriteAnswers.storage (lfs : LfsWriteAnswers) : LfsStorageAnswers where
  openOk := lfs.openOk
  created := true
  header := writeAnswer lfs.header
  value := writeAnswer lfs.value
  sync := ⟨true, true⟩
  close := ⟨true, true⟩
  remove := ⟨lfs.removeOk, false⟩
where
  /-- An error is -5, a count what the type can hold of it. -/
  writeAnswer : Option Nat → LfsWriteAnswer
    | none => ⟨⟨-5, by decide, by decide⟩, 0⟩
    | some count => ⟨⟨(min count (2 ^ 31 - 1) : Nat), by omega, by omega⟩, 0⟩

theorem lfsFileWriteOpen_eq (f : LfsFile) (v : List UInt8) (answer : Option Nat) :
    (lfsFileWriteOpen f v (LfsWriteAnswers.storage.writeAnswer answer)).2 =
        (lfsFileWrite f v answer).2 ∧
      ∀ len : Nat, len < 2 ^ 31 →
        ((lfsFileWriteOpen f v (LfsWriteAnswers.storage.writeAnswer answer)).1 % sizeMod = len ↔
          (lfsFileWrite f v answer).1 = some len) := by
  by_cases hfits : f.bytes.length + v.length ≤ lfsFileMax
  · rw [lfsFileWriteOpen, lfsFileWrite, dif_pos hfits, dif_pos hfits]
    simp only [lfsFileMax] at hfits
    cases answer with
    | none =>
      constructor
      · cases f
        simp [LfsWriteAnswers.storage.writeAnswer]
      · intro len hlen
        simp only [LfsWriteAnswers.storage.writeAnswer, sizeMod, reduceCtorEq, iff_false]
        omega
    | some count =>
      have hval : (LfsWriteAnswers.storage.writeAnswer (some count)).lReturn.value =
          (min count (2 ^ 31 - 1) : Nat) := rfl
      have hpos : 0 ≤ (LfsWriteAnswers.storage.writeAnswer (some count)).lReturn.value := by omega
      have hcut : v.take (LfsWriteAnswers.storage.writeAnswer (some count)).lReturn.value.toNat =
          v.take count := by
        rw [hval, Int.toNat_natCast]
        by_cases hbig : count ≤ 2 ^ 31 - 1
        · rw [Nat.min_eq_left hbig]
        · rw [List.take_of_length_le (by omega), List.take_of_length_le (by omega)]
      simp only [if_pos hpos, hcut, true_and]
      intro len hlen
      simp only [sizeMod, Option.some.injEq]
      omega
  · rw [lfsFileWriteOpen, lfsFileWrite, dif_neg hfits, dif_neg hfits]
    refine ⟨rfl, ?_⟩
    intro len hlen
    simp only [lfsErrFBig, sizeMod, reduceCtorEq, iff_false]
    omega

/-- Where synchronising and closing succeed this is the write of the commit. -/
theorem xprvWriteValueToImpl_eq_stored (path : List UInt8) (lfs : LfsWriteAnswers)
    (files : LfsFiles) (hv : v.length < 2 ^ 31) :
    xprvWriteValueToImpl path xType v.length (some v) lfs files =
      ((xprvWriteValueToImplStored xType (some v) lfs.storage (files path)).1,
        Function.update files path
          (xprvWriteValueToImplStored xType (some v) lfs.storage (files path)).2) := by
  simp only [xprvWriteValueToImpl, xprvWriteValueToImplStored]
  have hopen : lfs.storage.openOk = lfs.openOk := rfl
  rw [hopen]
  by_cases hok : lfs.openOk = true
  · obtain ⟨hfile, hcount⟩ := lfsFileWriteOpen_eq .empty
      (KVStoreTLVHeader.toBytes ⟨xType, v.length⟩) lfs.header
    have hheader : vLfsSSizeToErr (headerWrite xType v lfs.storage).1 sizeofTLVHeader = lfsErrOk ↔
        (lfsFileWrite .empty (KVStoreTLVHeader.toBytes ⟨xType, v.length⟩) lfs.header).1 =
          some sizeofTLVHeader :=
      vLfsSSizeToErr_eq_ok.trans (hcount _ (by decide))
    have hheader2 : (headerWrite xType v lfs.storage).2 =
        (lfsFileWrite .empty (KVStoreTLVHeader.toBytes ⟨xType, v.length⟩) lfs.header).2 := hfile
    obtain ⟨hfile', hcount'⟩ := lfsFileWriteOpen_eq
      (lfsFileWrite .empty (KVStoreTLVHeader.toBytes ⟨xType, v.length⟩) lfs.header).2 v lfs.value
    have hvalue : vLfsSSizeToErr (valueWrite xType v lfs.storage).1 v.length = lfsErrOk ↔
        (lfsFileWrite (lfsFileWrite .empty (KVStoreTLVHeader.toBytes ⟨xType, v.length⟩)
          lfs.header).2 v lfs.value).1 = some v.length := by
      rw [valueWrite, hheader2]
      exact vLfsSSizeToErr_eq_ok.trans (hcount' _ hv)
    have hvalue2 : (valueWrite xType v lfs.storage).2 =
        (lfsFileWrite (lfsFileWrite .empty (KVStoreTLVHeader.toBytes ⟨xType, v.length⟩)
          lfs.header).2 v lfs.value).2 := by
      rw [valueWrite, hheader2]
      exact hfile'
    have hsync : ∀ (failed : Bool) (f : LfsFile) (old : Option LfsFile),
        LfsSyncAnswer.store ⟨true, true⟩ failed f old = some f := by
      intro failed f old
      rw [LfsSyncAnswer.store, Bool.or_true, if_pos rfl]
    have hclose : lfs.storage.close = ⟨true, true⟩ := rfl
    have hremove : lfs.storage.remove = ⟨lfs.removeOk, false⟩ := rfl
    rw [if_pos hok, if_pos hok]
    simp only [hclose, hsync, hremove, Bool.or_false, prvWriteTlv]
    by_cases hh : (lfsFileWrite .empty (KVStoreTLVHeader.toBytes ⟨xType, v.length⟩)
        lfs.header).1 = some sizeofTLVHeader
    · rw [if_pos hh, if_pos (hheader.mpr hh)]
      simp only [hvalue2]
      by_cases hvw : (lfsFileWrite (lfsFileWrite .empty
          (KVStoreTLVHeader.toBytes ⟨xType, v.length⟩) lfs.header).2 v lfs.value).1 =
            some v.length
      · simp [hvw, hvalue.mpr hvw]
      · have hnot := hvalue.not.mpr hvw
        cases hrem : lfs.removeOk <;> simp [hvw, hnot]
    · have hnot := hheader.not.mpr hh
      rw [if_neg hh, if_neg hnot]
      simp only [hheader2]
      cases hrem : lfs.removeOk <;> simp [hnot]
  · rw [if_neg hok, if_neg hok, Function.update_eq_self]

end durable

def portValue : List UInt8 := [0x5B, 7, 0, 0]

/-- Everything is written, and closing the file fails with nothing stored. -/
def closeFails : LfsStorageAnswers :=
  ⟨true, true, ⟨⟨8, by decide, by decide⟩, 0⟩, ⟨⟨4, by decide, by decide⟩, 0⟩, ⟨false, false⟩,
    ⟨false, false⟩, ⟨true, true⟩⟩

def valueFails : LfsStorageAnswers :=
  { closeFails with value := ⟨⟨-28, by decide, by decide⟩, 2⟩, sync := ⟨true, true⟩ }

theorem durableOrNothing_valueFails :
    DurableOrNothing .kvTypeUInt32 (some portValue) valueFails none := by
  refine (durableOrNothing_iff valueFails none (by decide) ?_).mpr ?_
  · intro v hv
    rw [← Option.some.inj hv]
    decide
  · intro v hv _ _ hvalue
    rw [← Option.some.inj hv] at hvalue
    exact absurd hvalue (by decide)

/-- A write is reported as a success although nothing is stored. -/
theorem not_durableOrNothing_closeFails :
    ¬ DurableOrNothing .kvTypeUInt32 (some portValue) closeFails none := by
  intro h
  obtain ⟨v, f, hv, -, hstored, hbytes⟩ := h.1 (by decide)
  have hempty : (some LfsFile.empty : Option LfsFile) = some f :=
    Eq.trans (by decide) hstored
  rw [← Option.some.inj hempty] at hbytes
  rw [← Option.some.inj hv] at hbytes
  exact absurd hbytes (by decide)

end RenesasDemo.KVStore
