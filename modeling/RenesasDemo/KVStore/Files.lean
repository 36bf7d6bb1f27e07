import RenesasDemo.Framework.Runs
import RenesasDemo.KVStore.CacheInit

namespace RenesasDemo.KVStore

open Framework

/-- The contents of a file; littlefs makes none longer than `lfsFileMax`. -/
structure LfsFile where
  bytes : List UInt8
  fits : bytes.length ≤ lfsFileMax
  deriving DecidableEq

def LfsReadAnswers.absent : LfsReadAnswers := ⟨none, none, false, none, none⟩

/-- littlefs returns exactly what the file holds. -/
def LfsReadAnswers.ofFile : Option LfsFile → LfsReadAnswers
  | none => .absent
  | some f =>
      ⟨some ⟨true, f.bytes.length⟩, some ⟨true, f.bytes.length⟩, true, some f.bytes,
        some (f.bytes.drop sizeofTLVHeader)⟩

namespace LfsFile

def header (f : LfsFile) : KVStoreTLVHeader := .ofBytes (f.bytes.take sizeofTLVHeader)

def payload (f : LfsFile) : List UInt8 := f.bytes.drop sizeofTLVHeader

/-- What start-up reads of the file: nothing behind an incomplete header, and no value shorter
than its header says. -/
def read (f : LfsFile) : NvRead :=
  if f.payload = [] then ⟨[], none⟩
  else ⟨f.payload.take f.header.length,
    if f.header.length ≤ f.payload.length then some f.header else none⟩

/-- The assertion on the value's length, where it is reached. -/
def LengthOk (ndebug : Bool) (kvstoreValMaxLen : Nat) (f : LfsFile) : Prop :=
  f.payload ≠ [] → ndebug = true ∨ f.header.length < kvstoreValMaxLen

variable {ndebug : Bool} {kvstoreValMaxLen : Nat} {f : LfsFile}

theorem payload_length (f : LfsFile) :
    f.payload.length = f.bytes.length - sizeofTLVHeader := List.length_drop

theorem valueLength (f : LfsFile) (hne : f.payload ≠ []) :
    xprvGetValueLengthFromImpl (.ofFile (some f)) = f.payload.length := by
  have hpos := List.length_pos_of_ne_nil hne
  have hlen := f.payload_length
  have hfits := f.fits
  simp only [xprvGetValueLengthFromImpl, LfsReadAnswers.ofFile, sizeMod, sizeofTLVHeader,
    lfsFileMax] at *
  omega

theorem read_fits (f : LfsFile) :
    f.read.Fits (xprvGetValueLengthFromImpl (.ofFile (some f))) := by
  rw [read]
  split
  · exact ⟨Nat.zero_le _, fun _ h => by cases h⟩
  · next hne =>
    rw [f.valueLength hne]
    constructor
    · simp only [List.length_take]
      omega
    · intro h hres _
      split at hres
      · next hle =>
        obtain rfl := Option.some.inj hres
        exact hle
      · cases hres

/-- Reading a file comes down to `read`, or to a failed assertion. -/
theorem prvLoadValue_file (f : LfsFile) :
    (f.LengthOk ndebug kvstoreValMaxLen →
      prvLoadValue ndebug kvstoreValMaxLen (.ofFile (some f)) = .ok f.read) ∧
    (¬ f.LengthOk ndebug kvstoreValMaxLen →
      prvLoadValue ndebug kvstoreValMaxLen (.ofFile (some f)) = .error .assertFailed) := by
  by_cases hne : f.payload = []
  · have hok : f.LengthOk ndebug kvstoreValMaxLen := fun h => absurd hne h
    refine ⟨fun _ => ?_, fun h => absurd hok h⟩
    have hlen := f.payload_length
    rw [hne, List.length_nil] at hlen
    rw [read, if_pos hne, prvLoadValue]
    split
    · next hpos =>
      have hshort : ¬ sizeofTLVHeader ≤ f.bytes.length := by
        intro hle
        have heq : f.bytes.length = sizeofTLVHeader := by omega
        simp [xprvGetValueLengthFromImpl, LfsReadAnswers.ofFile, heq] at hpos
      simp [xprvReadValueFromImpl, xValidateFile, LfsReadAnswers.ofFile, hshort, pure, Except.pure]
    · rfl
  · have hpos := List.length_pos_of_ne_nil hne
    have hlen := f.payload_length
    have hbig : sizeofTLVHeader ≤ f.bytes.length := by omega
    have hvalid : xValidateFile (.ofFile (some f)) = true := by
      simp [xValidateFile, LfsReadAnswers.ofFile, hbig]
    have hheader : (LfsReadAnswers.ofFile (some f)).headerRead =
        some (f.bytes.take sizeofTLVHeader) := rfl
    have hcomplete : (some (f.bytes.take sizeofTLVHeader)).map List.length =
        some sizeofTLVHeader := by
      simp [hbig]
    have hvalue : lfsFileRead (LfsReadAnswers.ofFile (some f)).value f.header.length =
        some (f.payload.take f.header.length) := rfl
    have hhdr : KVStoreTLVHeader.ofBytes (f.bytes.take sizeofTLVHeader) = f.header := rfl
    have hread : xprvReadValueFromImpl ndebug kvstoreValMaxLen (.ofFile (some f)) =
        (configASSERT ndebug (f.header.length < kvstoreValMaxLen)).map fun _ => f.read := by
      simp only [xprvReadValueFromImpl, hvalid, if_true, hheader, Option.getD_some, hhdr,
        hcomplete, hvalue]
      cases configASSERT ndebug (f.header.length < kvstoreValMaxLen) with
      | error e => rfl
      | ok _ =>
        have hiff : ((some (f.payload.take f.header.length)).map List.length =
            some f.header.length) ↔ f.header.length ≤ f.payload.length := by
          simp
        simp only [bind, Except.bind, pure, Except.pure, Except.map, read, if_neg hne, hiff]
    rw [prvLoadValue, f.valueLength hne, if_pos hpos, hread]
    constructor
    · intro hok
      obtain hn | hlt := hok hne
      · simp [configASSERT, hn, Except.map]
      · simp [configASSERT, hlt, Except.map]
    · intro hnot
      have hassert : ¬ (ndebug = true ∨ f.header.length < kvstoreValMaxLen) :=
        fun h => hnot (fun _ => h)
      obtain ⟨hn, hlt⟩ := not_or.mp hassert
      simp [configASSERT, hn, hlt, Except.map]

end LfsFile

def readFile : Option LfsFile → NvRead
  | none => ⟨[], none⟩
  | some f => f.read

def fileRoom (file : Option LfsFile) : Nat := xprvGetValueLengthFromImpl (.ofFile file)

def FileLengthOk (ndebug : Bool) (kvstoreValMaxLen : Nat) (file : Option LfsFile) : Prop :=
  ∀ f, file = some f → f.LengthOk ndebug kvstoreValMaxLen

variable {n : Nat} {ndebug : Bool} {kvstoreValMaxLen : Nat} {file : Option LfsFile}

theorem readFile_fits (file : Option LfsFile) : (readFile file).Fits (fileRoom file) := by
  cases file with
  | none => exact ⟨Nat.zero_le _, fun _ h => by cases h⟩
  | some f => exact f.read_fits

theorem prvLoadValue_readFile (h : FileLengthOk ndebug kvstoreValMaxLen file) :
    prvLoadValue ndebug kvstoreValMaxLen (.ofFile file) = .ok (readFile file) := by
  cases file with
  | none => rfl
  | some f => exact f.prvLoadValue_file.1 (h f rfl)

theorem fileLengthOk_of_ok {nv : NvRead}
    (h : prvLoadValue ndebug kvstoreValMaxLen (.ofFile file) = .ok nv) :
    FileLengthOk ndebug kvstoreValMaxLen file := by
  intro f hf
  by_contra hnot
  rw [hf, f.prvLoadValue_file.2 hnot] at h
  cases h

def tlvBytes (type : KVStoreValueType) (v : List UInt8) : List UInt8 :=
  KVStoreTLVHeader.toBytes ⟨type, v.length⟩ ++ v

theorem KVStoreTLVHeader.toBytes_length (h : KVStoreTLVHeader) :
    h.toBytes.length = sizeofTLVHeader := by
  simp [KVStoreTLVHeader.toBytes]

theorem KVStoreTLVHeader.ofBytes_toBytes (h : KVStoreTLVHeader) (ht : h.type.toNat < sizeMod)
    (hl : h.length < sizeMod) : KVStoreTLVHeader.ofBytes h.toBytes = h := by
  have htype : h.toBytes.take 4 = Framework.toBytes 4 h.type.toNat :=
    List.take_left' (Framework.toBytes_length 4 _)
  have hlength : (h.toBytes.drop 4).take 4 = Framework.toBytes 4 h.length := by
    rw [KVStoreTLVHeader.toBytes, List.drop_left' (Framework.toBytes_length 4 _)]
    exact List.take_of_length_le (Framework.toBytes_length 4 _).le
  rw [KVStoreTLVHeader.ofBytes, htype, hlength, Framework.ofBytes_toBytes ht,
    Framework.ofBytes_toBytes hl, KVStoreValueType.ofNat_toNat]

/-- A complete file of a value reads as that value. -/
theorem readFile_tlv {f : LfsFile} {type : KVStoreValueType} {v : List UInt8}
    (hf : f.bytes = tlvBytes type v) (ht : type.toNat < sizeMod) (hv : 0 < v.length) :
    readFile (some f) = ⟨v, some ⟨type, v.length⟩⟩ ∧ fileRoom (some f) = v.length := by
  have hhead := KVStoreTLVHeader.toBytes_length ⟨type, v.length⟩
  have hpayload : f.payload = v := by
    rw [LfsFile.payload, hf, tlvBytes, ← hhead, List.drop_left]
  have hsmall : v.length < sizeMod := by
    have hfits := f.fits
    rw [hf, tlvBytes, List.length_append, hhead] at hfits
    simp only [sizeMod, lfsFileMax] at *
    omega
  have hheader : f.header = ⟨type, v.length⟩ := by
    rw [LfsFile.header, hf, tlvBytes, ← hhead, List.take_left]
    exact KVStoreTLVHeader.ofBytes_toBytes _ ht hsmall
  have hne : v ≠ [] := List.ne_nil_of_length_pos hv
  constructor
  · rw [readFile, LfsFile.read, hpayload, if_neg hne, hheader]
    simp
  · rw [fileRoom, f.valueLength (by rw [hpayload]; exact hne), hpayload]

/-- The entry of `k` is what start-up makes of the file. -/
structure Loaded (s : KVStoreCache n) (k : Fin n) (file : Option LfsFile) : Prop where
  type : (s.entry k).type = ((readFile file).header (fileRoom file)).type
  length : (s.entry k).length = ((readFile file).header (fileRoom file)).length
  contents : ∀ h, (readFile file).result = some h → h.type ≠ .kvTypeNone →
    (sizeofVoidPtr < h.length ↔ sizeofVoidPtr < fileRoom file) →
    s.contents k = (readFile file).pvBuffer

/-- The bytes read for a complete value are as many as its header says. -/
theorem readFile_length {h : KVStoreTLVHeader} (hres : (readFile file).result = some h) :
    (readFile file).pvBuffer.length = h.length := by
  cases file with
  | none => cases hres
  | some f =>
    simp only [readFile, LfsFile.read] at hres ⊢
    split at hres
    · cases hres
    · next hne =>
      simp only at hres
      split at hres
      · next hle =>
        obtain rfl := Option.some.inj hres
        simp [if_neg hne, hle]
      · cases hres

theorem LoadEffect.loaded {s s' : KVStoreCache n} {i : Fin n}
    (h : LoadEffect s s' i (fileRoom file) (readFile file)) : Loaded s' i file where
  type := h.type
  length := h.length
  contents hdr hres _ hside := h.contents hdr hres (readFile_length hres) hside

/-- Type, length and value of `k` did not change. -/
theorem Loaded.congr {s s' : KVStoreCache n} {k : Fin n} (h : Loaded s k file)
    (htype : (s'.entry k).type = (s.entry k).type)
    (hlength : (s'.entry k).length = (s.entry k).length)
    (hcontents : (s.entry k).type ≠ .kvTypeNone → s'.contents k = s.contents k) :
    Loaded s' k file where
  type := by rw [htype, h.type]
  length := by rw [hlength, h.length]
  contents hdr hres ht hside := by
    have htype : (s.entry k).type = hdr.type := by
      rw [h.type, NvRead.header, hres]
      rfl
    rw [hcontents (by rw [htype]; exact ht), h.contents hdr hres ht hside]

/-- Start-up over files leaves each entry as its file says, and nothing pending. -/
theorem vprvCacheInit_files {files : Fin n → Option LfsFile}
    {answer : Nat → Nat × (Nat → UInt8)} {s : KVStoreCache n}
    (h : vprvCacheInit ndebug kvstoreValMaxLen (fun k => .ofFile (files k)) (.zeroed answer) =
      .ok s) :
    s.Valid ∧ ∀ k, Loaded s k (files k) ∧ (s.entry k).xChangePending = false ∧
      FileLengthOk ndebug kvstoreValMaxLen (files k) := by
  have hrule := foldlM_rule
    (P := fun todo (s : KVStoreCache n) =>
      s.Valid ∧ todo.Nodup ∧ (∀ k ∈ todo, s.entry k = .zero) ∧
        ∀ k, k ∉ todo → Loaded s k (files k) ∧ (s.entry k).xChangePending = false ∧
          FileLengthOk ndebug kvstoreValMaxLen (files k))
    (by
      intro i todo s t hP hstep
      obtain ⟨hvalid, hnodup, hzero, hdone⟩ := hP
      obtain ⟨hi, hnodup⟩ := List.nodup_cons.mp hnodup
      obtain ⟨nv, hread⟩ := prvLoadValue_of_ok hstep
      have hok := fileLengthOk_of_ok hread
      have heff := prvCacheInitEntry_effect hvalid (hzero i List.mem_cons_self)
        (prvLoadValue_readFile hok) (readFile_fits (files i)) hstep
      refine ⟨heff.valid, hnodup, ?_, ?_⟩
      · intro k hk
        have hki : k ≠ i := fun heq => hi (heq ▸ hk)
        rw [heff.entry_other k hki]
        exact hzero k (List.mem_cons_of_mem i hk)
      · intro k hk
        by_cases hki : k = i
        · subst hki
          exact ⟨heff.loaded, heff.pending, hok⟩
        · obtain ⟨hload, hpend, hlen⟩ := hdone k (by simp [hki, hk])
          refine ⟨hload.congr (by rw [heff.entry_other k hki]) (by rw [heff.entry_other k hki])
            (heff.contents_other k hki), ?_, hlen⟩
          rw [heff.entry_other k hki]
          exact hpend)
    ⟨(KVStoreCache.zeroed_valid answer), List.nodup_finRange n, fun _ _ => rfl,
      fun k hk => absurd (List.mem_finRange k) hk⟩ h
  exact ⟨hrule.1, fun k => hrule.2.2.2 k List.not_mem_nil⟩

/-- An allocator that hands out one address after the other. -/
def exampleAnswer (i : Nat) : Nat × (Nat → UInt8) := (16 * (i + 1), fun _ => 0)

/-- Start-up over files goes through when no value is too long and no block is refused. -/
theorem vprvCacheInit_files_total {files : Fin n → Option LfsFile}
    {answer : Nat → Nat × (Nat → UInt8)}
    (hok : ∀ k, FileLengthOk ndebug kvstoreValMaxLen (files k))
    (hserves : (Heap.empty answer).Serves sizeMod n) :
    ∃ s : KVStoreCache n, vprvCacheInit ndebug kvstoreValMaxLen (fun k => .ofFile (files k))
      (.zeroed answer) = .ok s := by
  have htotal := foldlM_total
    (fun (s : KVStoreCache n) i =>
      prvCacheInitEntry ndebug kvstoreValMaxLen (.ofFile (files i)) s i)
    (List.finRange n) (.zeroed answer)
    (P := fun todo (s : KVStoreCache n) =>
      s.Valid ∧ todo.Nodup ∧ (∀ k ∈ todo, s.entry k = .zero) ∧
        s.heap.Serves sizeMod todo.length)
    (by
      intro i todo s hP
      obtain ⟨hvalid, hnodup, hzero, hserves⟩ := hP
      obtain ⟨hi, hnodup⟩ := List.nodup_cons.mp hnodup
      obtain ⟨t, ht, heff⟩ := prvCacheInitEntry_spec ndebug kvstoreValMaxLen
        (readFile (files i)) hvalid (hzero i List.mem_cons_self)
        (prvLoadValue_readFile (hok i)) (readFile_fits (files i))
        (fun _ => KVStoreCache.pvPortMalloc_served hserves _)
      refine ⟨t, ht, heff.valid, hnodup, ?_, heff.serves _ hserves⟩
      intro k hk
      have hki : k ≠ i := fun heq => hi (heq ▸ hk)
      rw [heff.entry_other k hki]
      exact hzero k (List.mem_cons_of_mem i hk))
    ⟨KVStoreCache.zeroed_valid answer, List.nodup_finRange n, fun _ _ => rfl,
      by rw [List.length_finRange]; exact hserves⟩
  obtain ⟨s, hs, -⟩ := htotal
  exact ⟨s, hs⟩

end RenesasDemo.KVStore
