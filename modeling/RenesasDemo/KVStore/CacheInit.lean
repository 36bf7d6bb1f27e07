import RenesasDemo.KVStore.CacheSpec
import RenesasDemo.KVStore.Littlefs

namespace RenesasDemo.KVStore

open Framework

variable {n : Nat} {ndebug : Bool} {kvstoreValMaxLen : Nat} {lfs : LfsReadAnswers}
  {s s' : KVStoreCache n} {i : Fin n} {nv : NvRead}

def NvRead.header (nv : NvRead) (xNvLength : Nat) : KVStoreTLVHeader :=
  nv.result.getD ⟨.kvTypeNone, xNvLength⟩

def NvRead.entry (nv : NvRead) (xNvLength : Nat) (data : DataUnion) : KVStoreCacheEntry :=
  ⟨(nv.header xNvLength).type, (nv.header xNvLength).length, data, false⟩

theorem prvCacheInitEntry_absent (h : xprvGetValueLengthFromImpl lfs = 0) :
    prvCacheInitEntry ndebug kvstoreValMaxLen lfs s i =
      .ok (s.setEntry i { s.entry i with xChangePending := false, type := .kvTypeNone }) := by
  simp [prvCacheInitEntry, h, pure, Except.pure]

theorem prvCacheInitEntry_inline (hpos : 0 < xprvGetValueLengthFromImpl lfs)
    (hlen : xprvGetValueLengthFromImpl lfs ≤ sizeofVoidPtr)
    (hread : xprvReadValueFromImpl ndebug kvstoreValMaxLen lfs = .ok nv)
    (hfit : nv.pvBuffer.length ≤ sizeofVoidPtr) :
    prvCacheInitEntry ndebug kvstoreValMaxLen lfs s i =
      .ok (s.setEntry i (nv.entry (xprvGetValueLengthFromImpl lfs)
        ((DataUnion.ofWord 0).copyIn nv.pvBuffer hfit))) := by
  have hbig : ¬ sizeofVoidPtr < xprvGetValueLengthFromImpl lfs := by omega
  simp only [prvCacheInitEntry, if_pos hpos, vAllocateDataBuffer, if_neg hbig,
    pvGetDataWritePtr, KVStoreCache.setEntry_self, DataPtr.isNull, Bool.not_false,
    configASSERT, Bool.true_or, if_true, hread, KVStoreCache.writeThrough, dif_pos hfit,
    bind, Except.bind, pure, Except.pure, NvRead.entry, NvRead.header]
  cases hres : nv.result <;>
    simp [KVStoreCache.setEntry, Function.update_idem]

/-- A value that gets a block: its pointer is NULL, or the block holds what was read. -/
theorem prvCacheInitEntry_block (hlen : sizeofVoidPtr < xprvGetValueLengthFromImpl lfs)
    (hread : xprvReadValueFromImpl ndebug kvstoreValMaxLen lfs = .ok nv)
    (hfit : nv.pvBuffer.length ≤ xprvGetValueLengthFromImpl lfs)
    (hserved : (pvPortMalloc s.heap (xprvGetValueLengthFromImpl lfs)).1 ≠ 0) :
    ∃ a b heap, s.heap.block a = none ∧ a = (s.heap.answer 0).1 ∧ a < sizeMod ∧
      b.length = xprvGetValueLengthFromImpl lfs ∧
      b.take nv.pvBuffer.length = nv.pvBuffer ∧
      heap.block = Function.update s.heap.block a (some b) ∧
      (heap.answer = fun j => s.heap.answer (j + 1)) ∧
      prvCacheInitEntry ndebug kvstoreValMaxLen lfs s i =
        .ok ⟨Function.update s.entry i
          (nv.entry (xprvGetValueLengthFromImpl lfs) (.ofWord a)), heap⟩ := by
  obtain ⟨hzero, -⟩ | ⟨a, b, haddr, hfirst, hlim, hnull, hdead, hb, hblock⟩ :=
    KVStoreCache.pvPortMalloc_cases s.heap (xprvGetValueLengthFromImpl lfs)
  · exact absurd hzero hserved
  have hanswer := KVStoreCache.pvPortMalloc_answer s.heap (xprvGetValueLengthFromImpl lfs)
  have hword : (DataUnion.ofWord a).pvData = a := DataUnion.pvData_ofWord hlim
  have hpos : 0 < xprvGetValueLengthFromImpl lfs := by omega
  have hnotNull : (DataPtr.block a).isNull = false := beq_eq_false_iff_ne.mpr hnull
  generalize hmalloc : pvPortMalloc s.heap (xprvGetValueLengthFromImpl lfs) = res at *
  obtain ⟨p, heap⟩ := res
  obtain rfl : p = a := haddr
  have hwrite : ∃ heap' b', heap'.block = Function.update s.heap.block p (some b') ∧
      b'.length = b.length ∧ b'.take nv.pvBuffer.length = nv.pvBuffer ∧
      heap'.answer = heap.answer ∧ ∀ e : Fin n → KVStoreCacheEntry,
        KVStoreCache.writeThrough ⟨e, heap⟩ i nv.pvBuffer (.block p) = .ok ⟨e, heap'⟩ := by
    by_cases hnil : nv.pvBuffer = []
    · refine ⟨heap, b, hblock, rfl, by simp [hnil], rfl, ?_⟩
      intro e
      rw [KVStoreCache.writeThrough, if_pos hnil]
    · have hlive : heap.block p = some b := by
        rw [hblock]
        exact Function.update_self ..
      obtain ⟨heap', hstore, hans, hblock'⟩ :=
        Heap.store_of_live hlive (v := nv.pvBuffer) (by omega)
      refine ⟨heap', nv.pvBuffer ++ b.drop nv.pvBuffer.length, ?_, ?_, by simp, hans, ?_⟩
      · rw [hblock', hblock]
        exact Function.update_idem ..
      · rw [List.length_append, List.length_drop]
        omega
      · intro e
        rw [KVStoreCache.writeThrough, if_neg hnil, hstore]
        rfl
  obtain ⟨heap', b', hblock', hb', htake, hans, hwrite⟩ := hwrite
  refine ⟨p, b', heap', hdead, hfirst, hlim, hb'.trans hb, htake, hblock', hans.trans hanswer, ?_⟩
  simp only [prvCacheInitEntry, if_pos hpos, vAllocateDataBuffer, if_pos hlen,
    KVStoreCache.setEntry_heap, hmalloc, pvGetDataWritePtr, KVStoreCache.setEntry_self, hword,
    hnotNull, Bool.not_false, configASSERT, Bool.true_or, if_true, hread, bind, Except.bind, pure,
    Except.pure, hwrite, NvRead.entry, NvRead.header]
  cases hres : nv.result <;>
    simp [KVStoreCache.setEntry, Function.update_idem]

/-- A value that is refused its block: without assertions the pass returns if nothing is read. -/
theorem prvCacheInitEntry_refused (hlen : sizeofVoidPtr < xprvGetValueLengthFromImpl lfs)
    (hread : xprvReadValueFromImpl ndebug kvstoreValMaxLen lfs = .ok nv)
    (hzero : (pvPortMalloc s.heap (xprvGetValueLengthFromImpl lfs)).1 = 0) :
    prvCacheInitEntry ndebug kvstoreValMaxLen lfs s i =
      if ndebug = false then .error .assertFailed
      else if nv.pvBuffer = [] then
        .ok ⟨Function.update s.entry i (nv.entry (xprvGetValueLengthFromImpl lfs) (.ofWord 0)),
          (pvPortMalloc s.heap (xprvGetValueLengthFromImpl lfs)).2⟩
      else .error .undefinedBehaviour := by
  have hpos : 0 < xprvGetValueLengthFromImpl lfs := by omega
  generalize hmalloc : pvPortMalloc s.heap (xprvGetValueLengthFromImpl lfs) = res at *
  obtain ⟨p, heap⟩ := res
  obtain rfl : p = 0 := hzero
  have hword : (DataUnion.ofWord 0).pvData = 0 := DataUnion.pvData_ofWord (by decide)
  have hstore : heap.store 0 nv.pvBuffer = none := dif_neg (not_not.mpr rfl)
  simp only [prvCacheInitEntry, if_pos hpos, vAllocateDataBuffer, if_pos hlen,
    KVStoreCache.setEntry_heap, hmalloc, pvGetDataWritePtr, KVStoreCache.setEntry_self, hword,
    DataPtr.isNull, beq_self_eq_true, Bool.not_true, configASSERT, Bool.false_or, hread, bind,
    Except.bind, pure, Except.pure, KVStoreCache.writeThrough]
  cases ndebug with
  | false => rfl
  | true =>
    simp only [if_true, Bool.true_eq_false, if_false]
    by_cases hnil : nv.pvBuffer = []
    · simp only [if_pos hnil]
      cases hres : nv.result <;>
        simp [KVStoreCache.setEntry, Function.update_idem, NvRead.entry, NvRead.header, hres]
    · simp only [if_neg hnil, hstore]
      rfl

def prvLoadValue (ndebug : Bool) (kvstoreValMaxLen : Nat) (lfs : LfsReadAnswers) :
    Except Stop NvRead :=
  if 0 < xprvGetValueLengthFromImpl lfs then xprvReadValueFromImpl ndebug kvstoreValMaxLen lfs
  else .ok ⟨[], none⟩

/-- The bytes read fit into the room made for `xNvLength` bytes, and so does the length. -/
structure NvRead.Fits (nv : NvRead) (xNvLength : Nat) : Prop where
  buffer : nv.pvBuffer.length ≤ max xNvLength sizeofVoidPtr
  length : ∀ h, nv.result = some h → sizeofVoidPtr < h.length → h.length ≤ xNvLength

/-- What one loop pass does. -/
structure LoadEffect (s s' : KVStoreCache n) (i : Fin n) (xNvLength : Nat) (nv : NvRead) :
    Prop where
  valid : s'.Valid
  type : (s'.entry i).type = (nv.header xNvLength).type
  length : (s'.entry i).length = (nv.header xNvLength).length
  pending : (s'.entry i).xChangePending = false
  contents : ∀ h, nv.result = some h → nv.pvBuffer.length = h.length →
    (sizeofVoidPtr < h.length ↔ sizeofVoidPtr < xNvLength) → s'.contents i = nv.pvBuffer
  entry_other : ∀ j, j ≠ i → s'.entry j = s.entry j
  contents_other : ∀ j, j ≠ i → (s.entry j).type ≠ .kvTypeNone → s'.contents j = s.contents j
  live : ∀ a, (s'.heap.block a).isSome →
    (sizeofVoidPtr < xNvLength ∧ a = s'.address i) ∨ (s.heap.block a).isSome
  serves : ∀ m, s.heap.Serves sizeMod (m + 1) → s'.heap.Serves sizeMod m

/-- A request more than is made leaves the answers to the others good. -/
private theorem serves_pred {heap : Heap UInt8} (m : Nat) (h : heap.Serves sizeMod (m + 1)) :
    heap.Serves sizeMod m := fun i hi => h i (Nat.lt_succ_of_lt hi)

theorem LoadEffect.of_absent (hs : s.Valid) (hz : s.entry i = .zero) :
    LoadEffect s (s.setEntry i { s.entry i with xChangePending := false, type := .kvTypeNone })
      i 0 ⟨[], none⟩ := by
  have hsame :
      s.setEntry i { s.entry i with xChangePending := false, type := .kvTypeNone } = s := by
    have hentry : { s.entry i with xChangePending := false, type := .kvTypeNone } = s.entry i := by
      rw [hz]
      rfl
    rw [hentry, KVStoreCache.setEntry, Function.update_eq_self]
  rw [hsame]
  exact
    { valid := hs
      type := by rw [hz]; rfl
      length := by rw [hz]; rfl
      pending := by rw [hz]; rfl
      contents := fun h hres => by cases hres
      entry_other := fun _ _ => rfl
      contents_other := fun _ _ _ => rfl
      live := fun _ ha => .inr ha
      serves := serves_pred }

/-- The entry does not use a block, and the blocks are as before. -/
theorem LoadEffect.of_sameBlocks (hs : s.Valid) {xNvLength : Nat} {data : DataUnion}
    {heap : Heap UInt8} (hnot : ¬ (nv.entry xNvLength data).OnHeap)
    (hblock : heap.block = s.heap.block)
    (hcontents : ∀ h, nv.result = some h → nv.pvBuffer.length = h.length →
      (sizeofVoidPtr < h.length ↔ sizeofVoidPtr < xNvLength) →
      KVStoreCache.contents ⟨Function.update s.entry i (nv.entry xNvLength data), heap⟩ i =
        nv.pvBuffer)
    (hserves : ∀ m, s.heap.Serves sizeMod (m + 1) → heap.Serves sizeMod m) :
    LoadEffect s ⟨Function.update s.entry i (nv.entry xNvLength data), heap⟩ i xNvLength nv := by
  generalize hs' : (⟨Function.update s.entry i (nv.entry xNvLength data), heap⟩ :
    KVStoreCache n) = s' at *
  have hentry : s'.entry i = nv.entry xNvLength data := by
    rw [← hs']
    exact Function.update_self ..
  have hheap : s'.heap.block = s.heap.block := by rw [← hs', ← hblock]
  have hreplaced : s.Replaced s' i := by
    refine ⟨?_, fun j _ _ => by rw [hheap], ?_, ?_⟩
    · intro j hj
      rw [← hs']
      exact Function.update_of_ne hj ..
    · intro hi
      rw [hentry] at hi
      exact absurd hi hnot
    · intro hi
      rw [hentry] at hi
      exact absurd hi hnot
  refine ⟨hreplaced.valid hs, ?_, ?_, ?_, hcontents, hreplaced.entry, hreplaced.contents, ?_, ?_⟩
  · rw [hentry]
    rfl
  · rw [hentry]
    rfl
  · rw [hentry]
    rfl
  · intro a ha
    right
    rwa [hheap] at ha
  · intro m hm
    rw [← hs']
    exact hserves m hm

theorem LoadEffect.of_inline (hs : s.Valid) {xNvLength : Nat} (hlen : xNvLength ≤ sizeofVoidPtr)
    (hfits : nv.Fits xNvLength) (hbuf : nv.pvBuffer.length ≤ sizeofVoidPtr) :
    LoadEffect s (s.setEntry i (nv.entry xNvLength ((DataUnion.ofWord 0).copyIn nv.pvBuffer hbuf)))
      i xNvLength nv := by
  have hsmall : (nv.header xNvLength).length ≤ sizeofVoidPtr := by
    cases hres : nv.result with
    | none => simpa [NvRead.header, hres] using hlen
    | some h =>
      have hle := hfits.length h hres
      simp only [NvRead.header, hres, Option.getD_some]
      omega
  refine .of_sameBlocks hs ?_ rfl ?_ serves_pred
  · intro hheap
    have hbig : sizeofVoidPtr < (nv.header xNvLength).length := hheap.2
    omega
  · intro h hres hlenEq _
    have hh : (nv.header xNvLength).length = nv.pvBuffer.length := by
      simp [NvRead.header, hres, hlenEq]
    simp only [KVStoreCache.contents, Function.update_self, NvRead.entry]
    rw [if_neg (by omega), hh]
    simp [DataUnion.copyIn]

/-- What is kept of the header is not longer than the file says, or is kept inline. -/
theorem NvRead.header_length_le (nv : NvRead) {xNvLength : Nat} (hfits : nv.Fits xNvLength) :
    (nv.header xNvLength).length ≤ xNvLength ∨ (nv.header xNvLength).length ≤ sizeofVoidPtr := by
  cases hres : nv.result with
  | none =>
    left
    simp [NvRead.header, hres]
  | some h =>
    have hle := hfits.length h hres
    simp only [NvRead.header, hres, Option.getD_some]
    omega

theorem LoadEffect.of_block (hs : s.Valid) {xNvLength a : Nat} {b : List UInt8}
    {heap : Heap UInt8} (hlen : sizeofVoidPtr < xNvLength) (hfits : nv.Fits xNvLength)
    (hdead : s.heap.block a = none) (hlim : a < sizeMod) (hb : b.length = xNvLength)
    (htake : b.take nv.pvBuffer.length = nv.pvBuffer)
    (hblock : heap.block = Function.update s.heap.block a (some b))
    (hserves : ∀ m, s.heap.Serves sizeMod (m + 1) → heap.Serves sizeMod m) :
    LoadEffect s ⟨Function.update s.entry i (nv.entry xNvLength (.ofWord a)), heap⟩
      i xNvLength nv := by
  generalize hs' : (⟨Function.update s.entry i (nv.entry xNvLength (.ofWord a)), heap⟩ :
    KVStoreCache n) = s'
  have hentry : s'.entry i = nv.entry xNvLength (.ofWord a) := by
    rw [← hs']
    exact Function.update_self ..
  have hheap : s'.heap.block = Function.update s.heap.block a (some b) := by
    rw [← hs', ← hblock]
  have haddr : s'.address i = a := by
    rw [KVStoreCache.address, hentry]
    exact DataUnion.pvData_ofWord hlim
  have hne : ∀ j, (s.entry j).OnHeap → s.address j ≠ a := by
    intro j hj heq
    obtain ⟨bj, hbj, -⟩ := hs.backed j hj
    rw [heq, hdead] at hbj
    cases hbj
  have hreplaced : s.Replaced s' i := by
    refine ⟨?_, ?_, ?_, ?_⟩
    · intro j hj
      rw [← hs']
      exact Function.update_of_ne hj ..
    · intro j _ hj
      rw [hheap, Function.update_of_ne (hne j hj)]
    · intro hi
      rw [hentry] at hi
      have hbig : sizeofVoidPtr < (nv.header xNvLength).length := hi.2
      have hfit := nv.header_length_le hfits
      rw [haddr, hheap, Function.update_self, hentry]
      refine ⟨b, rfl, ?_⟩
      simp only [NvRead.entry]
      omega
    · intro _ j _ hj
      rw [haddr]
      exact hne j hj
  refine ⟨hreplaced.valid hs, ?_, ?_, ?_, ?_, hreplaced.entry, hreplaced.contents, ?_, ?_⟩
  · rw [hentry]
    rfl
  · rw [hentry]
    rfl
  · rw [hentry]
    rfl
  · intro h hres hlenEq hiff
    have hh : (s'.entry i).length = nv.pvBuffer.length := by
      rw [hentry]
      simp [NvRead.entry, NvRead.header, hres, hlenEq]
    have hbig : sizeofVoidPtr < nv.pvBuffer.length := by
      rw [hlenEq]
      exact hiff.mpr hlen
    rw [KVStoreCache.contents, hh, if_pos hbig, haddr, hheap, Function.update_self]
    exact htake
  · intro a' ha'
    by_cases heq : a' = a
    · left
      exact ⟨hlen, heq.trans haddr.symm⟩
    · right
      rwa [hheap, Function.update_of_ne heq] at ha'
  · intro m hm
    rw [← hs']
    exact hserves m hm

/-- A pass of the loop whose read returns, fits, and is not refused its block. -/
theorem prvCacheInitEntry_spec (ndebug : Bool) (kvstoreValMaxLen : Nat) (nv : NvRead)
    (hs : s.Valid) (hz : s.entry i = .zero)
    (hread : prvLoadValue ndebug kvstoreValMaxLen lfs = .ok nv)
    (hfits : nv.Fits (xprvGetValueLengthFromImpl lfs))
    (hserved : sizeofVoidPtr < xprvGetValueLengthFromImpl lfs →
      (pvPortMalloc s.heap (xprvGetValueLengthFromImpl lfs)).1 ≠ 0) :
    ∃ s', prvCacheInitEntry ndebug kvstoreValMaxLen lfs s i = .ok s' ∧
      LoadEffect s s' i (xprvGetValueLengthFromImpl lfs) nv := by
  have hbuf := hfits.buffer
  by_cases hpos : 0 < xprvGetValueLengthFromImpl lfs
  · rw [prvLoadValue, if_pos hpos] at hread
    by_cases hlen : sizeofVoidPtr < xprvGetValueLengthFromImpl lfs
    · obtain ⟨a, b, heap, hdead, hfirst, hlim, hb, htake, hblock, hanswer, hval⟩ :=
        prvCacheInitEntry_block (i := i) hlen hread (by omega) (hserved hlen)
      refine ⟨_, hval, .of_block hs hlen hfits hdead hlim hb htake hblock ?_⟩
      intro m hm
      exact hm.rest hanswer (hfirst ▸ hblock)
    · have hbuf' : nv.pvBuffer.length ≤ sizeofVoidPtr := by omega
      exact ⟨_, prvCacheInitEntry_inline hpos (by omega) hread hbuf',
        .of_inline hs (by omega) hfits hbuf'⟩
  · have hzero : xprvGetValueLengthFromImpl lfs = 0 := by omega
    rw [prvLoadValue, if_neg hpos] at hread
    obtain rfl : (⟨[], none⟩ : NvRead) = nv := Except.ok.inj hread
    rw [hzero]
    exact ⟨_, prvCacheInitEntry_absent hzero, .of_absent hs hz⟩

/-- A complete read delivered as many bytes as the header says. -/
theorem NvRead.length_of_result {nv : NvRead} {h : KVStoreTLVHeader}
    (hread : xprvReadValueFromImpl ndebug kvstoreValMaxLen lfs = .ok nv)
    (hres : nv.result = some h) : nv.pvBuffer.length = h.length := by
  rw [xprvReadValueFromImpl] at hread
  split at hread
  · simp only [bind, Except.bind] at hread
    split at hread
    · cases hread
    split at hread
    · obtain rfl := Except.ok.inj hread
      simp only at hres
      split at hres
      · next hlen =>
        obtain ⟨v, hv, hvlen⟩ := Option.map_eq_some_iff.mp hlen
        obtain rfl := Option.some.inj hres
        simp [hv, hvlen]
      · cases hres
    · obtain rfl := Except.ok.inj hread
      cases hres
  · obtain rfl := Except.ok.inj hread
    cases hres

theorem prvLoadValue_of_ok (h : prvCacheInitEntry ndebug kvstoreValMaxLen lfs s i = .ok s') :
    ∃ nv, prvLoadValue ndebug kvstoreValMaxLen lfs = .ok nv := by
  rw [prvLoadValue]
  split
  · next hpos =>
    cases hread : xprvReadValueFromImpl ndebug kvstoreValMaxLen lfs with
    | error e =>
      simp only [prvCacheInitEntry, if_pos hpos, hread, bind, Except.bind] at h
      split at h <;> cases h
    | ok nv => exact ⟨nv, rfl⟩
  · exact ⟨_, rfl⟩

theorem prvCacheInitEntry_effect (hs : s.Valid) (hz : s.entry i = .zero)
    (hread : prvLoadValue ndebug kvstoreValMaxLen lfs = .ok nv)
    (hfits : nv.Fits (xprvGetValueLengthFromImpl lfs))
    (h : prvCacheInitEntry ndebug kvstoreValMaxLen lfs s i = .ok s') :
    LoadEffect s s' i (xprvGetValueLengthFromImpl lfs) nv := by
  by_cases hserved : sizeofVoidPtr < xprvGetValueLengthFromImpl lfs →
      (pvPortMalloc s.heap (xprvGetValueLengthFromImpl lfs)).1 ≠ 0
  · obtain ⟨t, ht, heff⟩ :=
      prvCacheInitEntry_spec ndebug kvstoreValMaxLen nv hs hz hread hfits hserved
    obtain rfl := Except.ok.inj (h.symm.trans ht)
    exact heff
  -- refused a block, the pass only returns without assertions and with nothing to copy
  · simp only [Classical.not_imp, not_not] at hserved
    obtain ⟨hlen, hzero⟩ := hserved
    have hpos : 0 < xprvGetValueLengthFromImpl lfs := by omega
    rw [prvLoadValue, if_pos hpos] at hread
    have hblock : (pvPortMalloc s.heap (xprvGetValueLengthFromImpl lfs)).2.block =
        s.heap.block := by
      obtain ⟨-, hblock⟩ | ⟨a, b, ha, -, -, hnull, -⟩ :=
        KVStoreCache.pvPortMalloc_cases s.heap (xprvGetValueLengthFromImpl lfs)
      · exact hblock
      · exact absurd (ha.symm.trans hzero) hnull
    have hserves : ∀ m, ¬ s.heap.Serves sizeMod (m + 1) :=
      fun m hm => KVStoreCache.pvPortMalloc_served hm _ hzero
    rw [prvCacheInitEntry_refused hlen hread hzero] at h
    split at h
    · cases h
    split at h
    · next hnil =>
      obtain rfl := Except.ok.inj h
      have hempty : ∀ hdr, nv.result = some hdr → hdr.length = 0 := by
        intro hdr hres
        rw [← NvRead.length_of_result hread hres, hnil]
        rfl
      refine .of_sameBlocks hs ?_ hblock ?_ (fun m hm => absurd hm (hserves m))
      · intro hheap
        cases hres : nv.result with
        | none =>
          apply hheap.1
          simp [NvRead.entry, NvRead.header, hres]
        | some hdr =>
          have hbig := hheap.2
          simp [NvRead.entry, NvRead.header, hres, hempty hdr hres] at hbig
      · intro hdr hres _ hside
        have hbig := hside.mpr hlen
        rw [hempty hdr hres] at hbig
        omega
    · cases h

end RenesasDemo.KVStore
