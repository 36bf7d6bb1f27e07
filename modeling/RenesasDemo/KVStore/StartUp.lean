import RenesasDemo.KVStore.HeapGetters
import RenesasDemo.KVStore.MapLaw

namespace RenesasDemo.KVStore

open Framework

variable {n : Nat}

namespace LfsFile

/-- A header with a type there is and with the length of what is behind it. -/
structure WellFormed (f : LfsFile) : Prop where
  header : sizeofTLVHeader ≤ f.bytes.length
  length : f.header.length = f.payload.length
  type : 0 < f.header.type.toNat ∧ f.header.type.toNat < kvTypeLast

/-- Nothing behind the header, or a header that says so. -/
def ReadsAsUnset (f : LfsFile) : Prop :=
  f.bytes.length = sizeofTLVHeader ∨
    (sizeofTLVHeader < f.bytes.length ∧ f.header.length = 0)

end LfsFile

/-- The same build with another table of defaults. -/
def KVStoreConfig.withDefaults (cfg : KVStoreConfig n)
    (kvStoreDefaults : Fin n → KVStoreDefaultEntry) : KVStoreConfig n :=
  { cfg with kvStoreDefaults }

/-- The size of `k` is that of its default, and every getter reports what it reports for a key
that is not set. -/
structure TreatedAsUnset (cfg : KVStoreConfig n) (s : KVStoreCache n) (k : Fin n) : Prop where
  size : kvStoreGetSize cfg s k = (cfg.kvStoreDefaults k).length
  get : ∀ g : GetCall, g.run cfg s k = g.run cfg (s.setEntry k .zero) k
  getHeap : ∀ g : HeapGetter, (g.run cfg s k).map (Prod.map id KVStoreCache.heap) =
    (g.run cfg (s.setEntry k .zero) k).map (Prod.map id KVStoreCache.heap)

/-- Start-up returns, no block it took is longer than the file it is for, and the keys of
malformed files are as if they were not set, whatever their defaults are. -/
def StartsUp (cfg : KVStoreConfig n) (files : Fin n → Option LfsFile)
    (answer : Nat → Nat × (Nat → UInt8)) : Prop :=
  ∃ s, vprvCacheInit cfg.ndebug cfg.kvstoreValMaxLen (fun k => .ofFile (files k))
      (.zeroed answer) = .ok s ∧
    (∀ a b, s.heap.block a = some b → ∃ k f, files k = some f ∧
      sizeofVoidPtr < fileRoom (some f) ∧ s.address k = a ∧ b.length ≤ f.bytes.length) ∧
    ∀ k f, files k = some f → ¬ f.WellFormed →
      ∀ table, TreatedAsUnset (cfg.withDefaults table) s k

def heapAfter (h : Heap UInt8) (room : Nat) : Heap UInt8 :=
  if sizeofVoidPtr < room then (pvPortMalloc h room).2 else h

/-- A block for the key's value is not refused. Without assertions it may be, if nothing is read
into it. -/
def Granted (ndebug : Bool) (file : Option LfsFile) (h : Heap UInt8) : Prop :=
  sizeofVoidPtr < fileRoom file → (pvPortMalloc h (fileRoom file)).1 ≠ 0 ∨
    (ndebug = true ∧ (readFile file).pvBuffer = [])

/-- The requests of start-up for these keys are granted one after the other. -/
def HeapProvides (ndebug : Bool) (files : Fin n → Option LfsFile) :
    List (Fin n) → Heap UInt8 → Prop
  | [], _ => True
  | k :: ks, h => Granted ndebug (files k) h ∧
      HeapProvides ndebug files ks (heapAfter h (fileRoom (files k)))

instance (ndebug : Bool) (file : Option LfsFile) (h : Heap UInt8) :
    Decidable (Granted ndebug file h) := inferInstanceAs (Decidable (_ → _ ∨ _))

instance HeapProvides.decidable (ndebug : Bool) (files : Fin n → Option LfsFile) :
    ∀ ks h, Decidable (HeapProvides ndebug files ks h)
  | [], _ => inferInstanceAs (Decidable True)
  | k :: ks, h =>
      have := HeapProvides.decidable ndebug files ks (heapAfter h (fileRoom (files k)))
      inferInstanceAs (Decidable (_ ∧ _))

section pass

variable {ndebug : Bool} {kvstoreValMaxLen : Nat} {file : Option LfsFile}
  {s s' : KVStoreCache n} {i : Fin n} {h h' : Heap UInt8}

theorem heapAfter_alike (hh : h.Alike h') (room : Nat) :
    (heapAfter h room).Alike (heapAfter h' room) := by
  rw [heapAfter, heapAfter]
  split
  · exact (hh.malloc sizeMod room).2
  · exact hh

theorem granted_alike (hh : h.Alike h') (hg : Granted ndebug file h) :
    Granted ndebug file h' := by
  intro hlen
  have hsame : (pvPortMalloc h (fileRoom file)).1 = (pvPortMalloc h' (fileRoom file)).1 :=
    congrArg (·.getD 0) (hh.malloc sizeMod (fileRoom file)).1
  rw [← hsame]
  exact hg hlen

theorem prvCacheInitEntry_sameHeap (hlen : ¬ sizeofVoidPtr < fileRoom file)
    (hread : prvLoadValue ndebug kvstoreValMaxLen (.ofFile file) = .ok (readFile file))
    (hstep : prvCacheInitEntry ndebug kvstoreValMaxLen (.ofFile file) s i = .ok s') :
    s'.heap = s.heap := by
  have hbuf := (readFile_fits file).buffer
  by_cases hpos : 0 < xprvGetValueLengthFromImpl (.ofFile file)
  · rw [prvLoadValue, if_pos hpos] at hread
    have hsmall : xprvGetValueLengthFromImpl (.ofFile file) ≤ sizeofVoidPtr :=
      Nat.le_of_not_lt hlen
    have hfit : (readFile file).pvBuffer.length ≤ sizeofVoidPtr := by omega
    rw [prvCacheInitEntry_inline hpos hsmall hread hfit] at hstep
    rw [← Except.ok.inj hstep]
    rfl
  · rw [prvCacheInitEntry_absent (Nat.eq_zero_of_not_pos hpos)] at hstep
    rw [← Except.ok.inj hstep]
    rfl

theorem prvCacheInitEntry_heap
    (hread : prvLoadValue ndebug kvstoreValMaxLen (.ofFile file) = .ok (readFile file))
    (hstep : prvCacheInitEntry ndebug kvstoreValMaxLen (.ofFile file) s i = .ok s') :
    Granted ndebug file s.heap ∧ s'.heap.Alike (heapAfter s.heap (fileRoom file)) ∧
      ∀ a b, s'.heap.block a = some b → s.heap.block a = some b ∨
        (sizeofVoidPtr < fileRoom file ∧ s'.address i = a ∧ b.length = fileRoom file) := by
  have hbuf := (readFile_fits file).buffer
  by_cases hlen : sizeofVoidPtr < fileRoom file
  · have hpos : 0 < xprvGetValueLengthFromImpl (.ofFile file) := Nat.lt_of_le_of_lt (by omega) hlen
    rw [prvLoadValue, if_pos hpos] at hread
    have hfit : (readFile file).pvBuffer.length ≤ fileRoom file := by omega
    rw [heapAfter, if_pos hlen]
    by_cases hserved : (pvPortMalloc s.heap (fileRoom file)).1 ≠ 0
    · refine ⟨fun _ => .inl hserved, ?_⟩
      obtain ⟨a, b, heap, hdead, hfirst, hlim, hb, -, hblock, hanswer, hval⟩ :=
        prvCacheInitEntry_block (i := i) hlen hread hfit hserved
      obtain rfl := Except.ok.inj (hstep.symm.trans hval)
      obtain ⟨hzero, -⟩ | ⟨a', b', ha', hfirst', -, -, -, -, hblock'⟩ :=
        KVStoreCache.pvPortMalloc_cases s.heap (fileRoom file)
      · exact absurd hzero hserved
      obtain rfl : a' = a := hfirst'.trans hfirst.symm
      refine ⟨⟨?_, ?_⟩, ?_⟩
      · exact hanswer.trans (KVStoreCache.pvPortMalloc_answer s.heap _).symm
      · intro x
        change (heap.block x).isNone = _
        rw [hblock, hblock']
        by_cases hx : x = a'
        · rw [hx, Function.update_self, Function.update_self]
          rfl
        · rw [Function.update_of_ne hx, Function.update_of_ne hx]
      · intro x bx hbx
        change heap.block x = some bx at hbx
        rw [hblock] at hbx
        by_cases hx : x = a'
        · right
          rw [hx, Function.update_self] at hbx
          obtain rfl := Option.some.inj hbx
          refine ⟨hlen, ?_, hb⟩
          rw [hx, KVStoreCache.address]
          simp only [Function.update_self, NvRead.entry]
          exact DataUnion.pvData_ofWord hlim
        · left
          rwa [Function.update_of_ne hx] at hbx
    · have hzero : (pvPortMalloc s.heap (fileRoom file)).1 = 0 := not_not.mp hserved
      have hval := prvCacheInitEntry_refused (i := i) hlen hread hzero
      rw [hstep] at hval
      split at hval
      · cases hval
      split at hval
      · next hn hnil =>
        obtain rfl := Except.ok.inj hval
        have hblock : (pvPortMalloc s.heap (fileRoom file)).2.block = s.heap.block := by
          obtain ⟨-, hblock⟩ | ⟨a, b, ha, -, -, hnull, -⟩ :=
            KVStoreCache.pvPortMalloc_cases s.heap (fileRoom file)
          · exact hblock
          · exact absurd (ha.symm.trans hzero) hnull
        refine ⟨fun _ => .inr ⟨Bool.eq_true_of_not_eq_false hn, hnil⟩, .refl _, ?_⟩
        intro a b hab
        left
        rwa [← hblock]
      · cases hval
  · have hsame := prvCacheInitEntry_sameHeap hlen hread hstep
    rw [heapAfter, if_neg hlen, hsame]
    exact ⟨fun h => absurd h hlen, .refl _, fun a b hab => .inl hab⟩

theorem prvCacheInitEntry_returns_iff (ndebug : Bool) (kvstoreValMaxLen : Nat)
    (file : Option LfsFile) (hs : s.Valid) (hz : s.entry i = .zero) :
    (∃ s', prvCacheInitEntry ndebug kvstoreValMaxLen (.ofFile file) s i = .ok s') ↔
      FileLengthOk ndebug kvstoreValMaxLen file ∧ Granted ndebug file s.heap := by
  constructor
  · intro hret
    obtain ⟨s', hstep⟩ := hret
    obtain ⟨nv, hread⟩ := prvLoadValue_of_ok hstep
    have hok := fileLengthOk_of_ok hread
    exact ⟨hok, (prvCacheInitEntry_heap (prvLoadValue_readFile hok) hstep).1⟩
  · intro h
    obtain ⟨hok, hgranted⟩ := h
    have hread := prvLoadValue_readFile hok
    by_cases hserved : sizeofVoidPtr < fileRoom file → (pvPortMalloc s.heap (fileRoom file)).1 ≠ 0
    · obtain ⟨s', hstep, -⟩ := prvCacheInitEntry_spec ndebug kvstoreValMaxLen (readFile file)
        hs hz hread (readFile_fits file) hserved
      exact ⟨s', hstep⟩
    · obtain ⟨hlen, hrefused⟩ := Classical.not_imp.mp hserved
      obtain ⟨hn, hnil⟩ := (hgranted hlen).resolve_left hrefused
      have hpos : 0 < xprvGetValueLengthFromImpl (.ofFile file) :=
        Nat.lt_of_le_of_lt (by omega) hlen
      rw [prvLoadValue, if_pos hpos] at hread
      have hval := prvCacheInitEntry_refused (i := i) hlen hread (not_not.mp hrefused)
      rw [if_neg (by rw [hn]; decide), if_pos hnil] at hval
      exact ⟨_, hval⟩

end pass

section loop

variable {ndebug : Bool} {kvstoreValMaxLen : Nat} {files : Fin n → Option LfsFile}

/-- The loop gets through when it gets past every file, with what the heap grants in turn. -/
theorem cacheInitLoop_returns_iff (ndebug : Bool) (kvstoreValMaxLen : Nat)
    (files : Fin n → Option LfsFile) (todo : List (Fin n)) {s : KVStoreCache n} {h : Heap UInt8}
    (hs : s.Valid) (hnodup : todo.Nodup) (hz : ∀ k ∈ todo, s.entry k = .zero)
    (hh : s.heap.Alike h) :
    (∃ t, todo.foldlM (fun s i =>
        prvCacheInitEntry ndebug kvstoreValMaxLen (.ofFile (files i)) s i) s = .ok t) ↔
      (∀ k ∈ todo, FileLengthOk ndebug kvstoreValMaxLen (files k)) ∧
        HeapProvides ndebug files todo h := by
  induction todo generalizing s h with
  | nil => exact iff_of_true ⟨s, rfl⟩ ⟨fun k hk => absurd hk List.not_mem_nil, trivial⟩
  | cons i todo ih =>
    obtain ⟨hi, hnodup⟩ := List.nodup_cons.mp hnodup
    have hpass := prvCacheInitEntry_returns_iff ndebug kvstoreValMaxLen (files i) hs
      (hz i List.mem_cons_self)
    have hnext : ∀ s', prvCacheInitEntry ndebug kvstoreValMaxLen (.ofFile (files i)) s i = .ok s' →
        ((∃ t, todo.foldlM (fun s i =>
            prvCacheInitEntry ndebug kvstoreValMaxLen (.ofFile (files i)) s i) s' = .ok t) ↔
          (∀ k ∈ todo, FileLengthOk ndebug kvstoreValMaxLen (files k)) ∧
            HeapProvides ndebug files todo (heapAfter h (fileRoom (files i)))) := by
      intro s' hstep
      have hread := prvLoadValue_readFile (hpass.mp ⟨s', hstep⟩).1
      have heff := prvCacheInitEntry_effect hs (hz i List.mem_cons_self) hread
        (readFile_fits (files i)) hstep
      refine ih heff.valid hnodup ?_
        ((prvCacheInitEntry_heap hread hstep).2.1.trans (heapAfter_alike hh _))
      intro k hk
      have hki : k ≠ i := fun heq => hi (heq ▸ hk)
      rw [heff.entry_other k hki]
      exact hz k (List.mem_cons_of_mem i hk)
    constructor
    · intro hret
      obtain ⟨t, ht⟩ := hret
      obtain ⟨s', hstep, hrest⟩ := foldlM_cons_ok ht
      obtain ⟨hok, hgranted⟩ := hpass.mp ⟨s', hstep⟩
      obtain ⟨hoks, hprov⟩ := (hnext s' hstep).mp ⟨t, hrest⟩
      exact ⟨List.forall_mem_cons.mpr ⟨hok, hoks⟩, granted_alike hh hgranted, hprov⟩
    · intro hret
      obtain ⟨hoks, hgranted, hprov⟩ := hret
      obtain ⟨hok, hoks⟩ := List.forall_mem_cons.mp hoks
      have hback : h.Alike s.heap := ⟨hh.answer.symm, fun a => (hh.live a).symm⟩
      obtain ⟨s', hstep⟩ := hpass.mpr ⟨hok, granted_alike hback hgranted⟩
      obtain ⟨t, ht⟩ := (hnext s' hstep).mpr ⟨hoks, hprov⟩
      refine ⟨t, ?_⟩
      rw [List.foldlM_cons, hstep]
      exact ht

/-- Every block that start-up takes is as long as the room it makes for one of the keys. -/
theorem vprvCacheInit_blocks {answer : Nat → Nat × (Nat → UInt8)} {s : KVStoreCache n}
    (h : vprvCacheInit ndebug kvstoreValMaxLen (fun k => .ofFile (files k)) (.zeroed answer) =
      .ok s) :
    ∀ a b, s.heap.block a = some b → ∃ k, sizeofVoidPtr < fileRoom (files k) ∧
      s.address k = a ∧ b.length = fileRoom (files k) := by
  have hrule := foldlM_rule
    (P := fun todo (s : KVStoreCache n) =>
      s.Valid ∧ todo.Nodup ∧ (∀ k ∈ todo, s.entry k = .zero) ∧
        ∀ a b, s.heap.block a = some b → ∃ k, k ∉ todo ∧ sizeofVoidPtr < fileRoom (files k) ∧
          s.address k = a ∧ b.length = fileRoom (files k))
    (by
      intro i todo s t hP hstep
      obtain ⟨hvalid, hnodup, hzero, hblocks⟩ := hP
      obtain ⟨hi, hnodup⟩ := List.nodup_cons.mp hnodup
      obtain ⟨nv, hnv⟩ := prvLoadValue_of_ok hstep
      have hread := prvLoadValue_readFile (fileLengthOk_of_ok hnv)
      have heff := prvCacheInitEntry_effect hvalid (hzero i List.mem_cons_self) hread
        (readFile_fits (files i)) hstep
      refine ⟨heff.valid, hnodup, ?_, ?_⟩
      · intro k hk
        have hki : k ≠ i := fun heq => hi (heq ▸ hk)
        rw [heff.entry_other k hki]
        exact hzero k (List.mem_cons_of_mem i hk)
      · intro a b hab
        obtain hold | ⟨hlen, haddr, hb⟩ := (prvCacheInitEntry_heap hread hstep).2.2 a b hab
        · obtain ⟨k, hk, hlen, haddr, hb⟩ := hblocks a b hold
          obtain ⟨hki, hk⟩ := not_or.mp (List.mem_cons.not.mp hk)
          exact ⟨k, hk, hlen, (KVStoreCache.address_congr (heff.entry_other k hki)).trans haddr, hb⟩
        · exact ⟨i, hi, hlen, haddr, hb⟩)
    ⟨KVStoreCache.zeroed_valid answer, List.nodup_finRange n, fun _ _ => rfl,
      fun a b hab => by cases hab⟩ h
  intro a b hab
  obtain ⟨k, -, hk⟩ := hrule.2.2.2 a b hab
  exact ⟨k, hk⟩

end loop

section unset

variable {cfg : KVStoreConfig n} {s s' : KVStoreCache n} {k : Fin n}

theorem prvReadToHeap_congr
    {get : KVStoreCache n → Option (List UInt8) → Except Stop BufferRead}
    (hheap : s'.heap = s.heap) (hsize : kvStoreGetSize cfg s' k = kvStoreGetSize cfg s k)
    (hget : ∀ heap b, get ⟨s'.entry, heap⟩ b = get ⟨s.entry, heap⟩ b) :
    (prvReadToHeap cfg s' k get).map (Prod.map id KVStoreCache.heap) =
      (prvReadToHeap cfg s k get).map (Prod.map id KVStoreCache.heap) := by
  rw [prvReadToHeap, prvReadToHeap, hheap, hsize]
  split
  · simp only [hget]
    split
    · simp only [bind, Except.bind]
      split
      · rfl
      split
      · rfl
      split
      · split <;> rfl
      · rfl
    · rfl
  · simp only [Except.map, Prod.map, hheap]

/-- A key for which no bytes are kept is as one that is not set. -/
theorem treatedAsUnset_of_length (cfg : KVStoreConfig n) (hz : (s.entry k).length = 0) :
    TreatedAsUnset cfg s k := by
  have hread : ∀ heap buf, xReadEntryOrDefault cfg ⟨s.entry, heap⟩ k buf =
      xReadEntryOrDefault cfg ⟨(s.setEntry k .zero).entry, heap⟩ k buf := by
    intro heap buf
    have hkept : NoStoredValue ⟨s.entry, heap⟩ k := .inr hz
    have hunset : NoStoredValue ⟨(s.setEntry k .zero).entry, heap⟩ k :=
      .inr (by simp [KVStoreCacheEntry.zero])
    rw [xReadEntryOrDefault_noStoredValue cfg hkept, xReadEntryOrDefault_noStoredValue cfg hunset]
  have hsize : kvStoreGetSize cfg s k = (cfg.kvStoreDefaults k).length := by
    rw [kvStoreGetSize, dif_pos k.isLt, if_pos hz]
  have hsize' : kvStoreGetSize cfg (s.setEntry k .zero) k = (cfg.kvStoreDefaults k).length := by
    rw [kvStoreGetSize, dif_pos k.isLt, if_pos (by simp [KVStoreCacheEntry.zero])]
  have hget : ∀ (g : HeapGetter) heap b, g.fill cfg ⟨s.entry, heap⟩ k b =
      g.fill cfg ⟨(s.setEntry k .zero).entry, heap⟩ k b := by
    intro g heap b
    cases g <;> cases b with
    | none => rfl
    | some buf => simp only [HeapGetter.fill, kvStoreGetBlob, kvStoreGetString, hread]
  have hheap : ∀ g : HeapGetter,
      (prvReadToHeap cfg s k (fun s b => g.fill cfg s k b)).map (Prod.map id KVStoreCache.heap) =
        (prvReadToHeap cfg (s.setEntry k .zero) k (fun s b => g.fill cfg s k b)).map
          (Prod.map id KVStoreCache.heap) :=
    fun g => prvReadToHeap_congr rfl (hsize.trans hsize'.symm) (hget g)
  have hswap : ∀ x : Except Stop (HeapRead × KVStoreCache n),
      (x.map (Prod.map prvWithoutTerminator id)).map (Prod.map id KVStoreCache.heap) =
        (x.map (Prod.map id KVStoreCache.heap)).map (Prod.map prvWithoutTerminator id) := by
    intro x
    cases x <;> rfl
  refine ⟨hsize, fun g => GetCall.run_of_read (hread s.heap) g, ?_⟩
  intro g
  cases g with
  | blob => exact hheap .blob
  | string =>
    have hmap := congrArg (Except.map (Prod.map prvWithoutTerminator id)) (hheap .string)
    rw [← hswap, ← hswap] at hmap
    exact hmap

end unset

section startUp

variable {cfg : KVStoreConfig n} {files : Fin n → Option LfsFile}
  {answer : Nat → Nat × (Nat → UInt8)} {s : KVStoreCache n} {k : Fin n} {f : LfsFile}

/-- The subtraction of the header's size wraps for a file that is shorter. -/
theorem fileRoom_eq (f : LfsFile) : fileRoom (some f) =
    if f.bytes.length < sizeofTLVHeader then f.bytes.length + sizeMod - sizeofTLVHeader
    else f.bytes.length - sizeofTLVHeader := by
  have hfits := f.fits
  simp only [fileRoom, xprvGetValueLengthFromImpl, LfsReadAnswers.ofFile, sizeMod,
    sizeofTLVHeader, lfsFileMax] at *
  split <;> omega

/-- No bytes are kept for a file exactly when it reads as unset, or is absent. -/
theorem Loaded.length_eq_zero_iff (h : Loaded s k (some f)) :
    (s.entry k).length = 0 ↔ f.ReadsAsUnset := by
  have hpl := f.payload_length
  have hroom := fileRoom_eq f
  have hmod : sizeofTLVHeader < sizeMod := by decide
  rw [h.length, NvRead.header, readFile, LfsFile.read, LfsFile.ReadsAsUnset]
  by_cases hnil : f.payload = []
  · rw [hnil, List.length_nil] at hpl
    rw [if_pos hnil]
    simp only [Option.getD_none, hroom]
    split <;> omega
  · have hpos := List.length_pos_of_ne_nil hnil
    rw [if_neg hnil]
    simp only
    split
    · simp only [Option.getD_some]
      omega
    · simp only [Option.getD_none, hroom]
      split <;> omega

theorem StartsUp.fileMeets (h : StartsUp cfg files answer) (hf : files k = some f) :
    f.LengthOk cfg.ndebug cfg.kvstoreValMaxLen ∧ (f.WellFormed ∨ f.ReadsAsUnset) := by
  obtain ⟨s, hinit, -, hunset⟩ := h
  obtain ⟨-, hall⟩ := vprvCacheInit_files hinit
  obtain ⟨hload, -, hok⟩ := hall k
  refine ⟨hok f hf, ?_⟩
  by_cases hwell : f.WellFormed
  · exact .inl hwell
  · right
    rw [hf] at hload
    apply hload.length_eq_zero_iff.mp
    -- a default of another length than the one that is kept
    have hsize := (hunset k f hf hwell
      fun _ => ⟨.kvTypeBlob, (s.entry k).length + 1, .ofWord 0, []⟩).size
    rw [kvStoreGetSize, dif_pos k.isLt] at hsize
    split at hsize
    · next hzero => exact hzero
    · exact absurd hsize (Nat.ne_of_lt (Nat.lt_succ_self _))

/-- A file that start-up copes with is not shorter than its header. -/
theorem fileRoom_le (h : f.WellFormed ∨ f.ReadsAsUnset) :
    fileRoom (some f) ≤ f.bytes.length := by
  have hbig : sizeofTLVHeader ≤ f.bytes.length := by
    obtain hwell | heq | ⟨hlt, -⟩ := h
    · exact hwell.header
    · exact heq.ge
    · exact Nat.le_of_lt hlt
  rw [fileRoom_eq, if_neg (Nat.not_lt.mpr hbig)]
  exact Nat.sub_le ..

/-- Which files start-up copes with: those with the length that their header says or with no
value, if no value that is read is too long. -/
theorem startsUp_iff (cfg : KVStoreConfig n) (files : Fin n → Option LfsFile)
    (answer : Nat → Nat × (Nat → UInt8)) :
    StartsUp cfg files answer ↔
      (∀ k f, files k = some f → f.LengthOk cfg.ndebug cfg.kvstoreValMaxLen ∧
        (f.WellFormed ∨ f.ReadsAsUnset)) ∧
      HeapProvides cfg.ndebug files (List.finRange n) (.empty answer) := by
  have hreturns := cacheInitLoop_returns_iff cfg.ndebug cfg.kvstoreValMaxLen files (List.finRange n)
    (KVStoreCache.zeroed_valid answer) (List.nodup_finRange n) (fun _ _ => rfl) (.refl _)
  constructor
  · intro h
    refine ⟨fun k f hf => h.fileMeets hf, ?_⟩
    obtain ⟨s, hinit, -⟩ := h
    exact (hreturns.mp ⟨s, hinit⟩).2
  · intro h
    obtain ⟨hfiles, hprov⟩ := h
    obtain ⟨s, hinit⟩ := hreturns.mpr ⟨fun k _ f hf => (hfiles k f hf).1, hprov⟩
    refine ⟨s, hinit, ?_, ?_⟩
    · intro a b hab
      obtain ⟨k, hlen, haddr, hb⟩ := vprvCacheInit_blocks hinit a b hab
      cases hf : files k with
      | none =>
        rw [hf] at hlen
        exact absurd hlen (Nat.not_lt_zero _)
      | some f =>
        rw [hf] at hlen hb
        exact ⟨k, f, hf, hlen, haddr, hb.trans_le (fileRoom_le (hfiles k f hf).2)⟩
    · intro k f hf hwell table
      have hload := ((vprvCacheInit_files hinit).2 k).1
      rw [hf] at hload
      exact treatedAsUnset_of_length _
        (hload.length_eq_zero_iff.mpr ((hfiles k f hf).2.resolve_left hwell))

/-- One byte behind a header that says there are five. -/
def shortFile : LfsFile := ⟨[4, 0, 0, 0, 5, 0, 0, 0, 65], by decide⟩

/-- The file of the port number is cut short: its size is then 1, not that of the default. -/
theorem not_startsUp_shortFile :
    ¬ ∀ files : Fin 6 → Option LfsFile,
      StartsUp (kvStoreBuild 0xFFF80010) files exampleAnswer := by
  intro h
  obtain ⟨s, hinit, -, hunset⟩ := h fun k => if k = 2 then some shortFile else none
  have hmalformed : ¬ shortFile.WellFormed := fun hwell => absurd hwell.length (by decide)
  have hsize := (hunset 2 shortFile (if_pos rfl) hmalformed
    (kvStoreBuild 0xFFF80010).kvStoreDefaults).size
  have hread := congrArg
    (Except.map fun s : KVStoreCache 6 => kvStoreGetSize (kvStoreBuild 0xFFF80010) s 2) hinit
  have hone : Except.ok 1 = (Except.ok 4 : Except Stop Nat) :=
    Eq.trans (by decide) (hread.trans (congrArg Except.ok hsize))
  cases hone

end startUp

end RenesasDemo.KVStore
