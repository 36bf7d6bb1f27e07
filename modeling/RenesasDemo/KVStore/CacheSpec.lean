import RenesasDemo.KVStore.Cache

namespace RenesasDemo.KVStore

open Framework

/-- The value of the entry is in a block of its own. -/
def KVStoreCacheEntry.OnHeap (e : KVStoreCacheEntry) : Prop :=
  e.type ≠ .kvTypeNone ∧ sizeofVoidPtr < e.length

instance (e : KVStoreCacheEntry) : Decidable e.OnHeap :=
  inferInstanceAs (Decidable (_ ∧ _))

variable {n : Nat}

namespace KVStoreCache

def address (s : KVStoreCache n) (k : Fin n) : Nat := (s.entry k).data.pvData

/-- Values that are too long for the union are in live blocks, no two in the same. -/
structure Valid (s : KVStoreCache n) : Prop where
  backed : ∀ k, (s.entry k).OnHeap →
    ∃ b, s.heap.block (s.address k) = some b ∧ (s.entry k).length ≤ b.length
  unshared : ∀ j k, (s.entry j).OnHeap → (s.entry k).OnHeap → s.address j = s.address k → j = k

def contents (s : KVStoreCache n) (k : Fin n) : List UInt8 :=
  if sizeofVoidPtr < (s.entry k).length then
    ((s.heap.block (s.address k)).getD []).take (s.entry k).length
  else (s.entry k).data.bytes.take (s.entry k).length

@[simp] theorem setEntry_heap (s : KVStoreCache n) (k : Fin n) (e : KVStoreCacheEntry) :
    (s.setEntry k e).heap = s.heap := rfl

@[simp] theorem setEntry_self (s : KVStoreCache n) (k : Fin n) (e : KVStoreCacheEntry) :
    (s.setEntry k e).entry k = e := Function.update_self ..

theorem setEntry_of_ne (s : KVStoreCache n) {j k : Fin n} (e : KVStoreCacheEntry)
    (h : j ≠ k) : (s.setEntry k e).entry j = s.entry j := Function.update_of_ne h ..

variable {s s' : KVStoreCache n} {k : Fin n} {t : KVStoreValueType} {v : List UInt8}

theorem Valid.contents_length (hs : s.Valid) (ht : (s.entry k).type ≠ .kvTypeNone) :
    (s.contents k).length = (s.entry k).length := by
  rw [contents]
  split
  · next hlen =>
    obtain ⟨b, hb, hle⟩ := hs.backed k ⟨ht, hlen⟩
    simp [hb, hle]
  · next hlen =>
    have hsize := (s.entry k).data.size
    rw [List.length_take]
    omega

theorem zeroed_valid (answer : Nat → Nat × (Nat → UInt8)) :
    (KVStoreCache.zeroed answer : KVStoreCache n).Valid where
  backed _ hk := absurd rfl hk.1
  unshared _ _ hj _ _ := absurd rfl hj.1

theorem Valid.readPtr (hs : s.Valid) (ht : (s.entry k).type ≠ .kvTypeNone) :
    (pvGetDataReadPtr s k).isNull = false ∧ ∀ len, len ≤ (s.entry k).length →
      s.readThrough k len (pvGetDataReadPtr s k) = .ok ((s.contents k).take len) := by
  rw [pvGetDataReadPtr, if_neg ht]
  by_cases hlen : sizeofVoidPtr < (s.entry k).length
  · obtain ⟨b, hb, hle⟩ := hs.backed k ⟨ht, hlen⟩
    rw [if_pos hlen]
    constructor
    · exact beq_eq_false_iff_ne.mpr (Heap.ne_zero_of_live hb)
    · intro len hl
      have hload : s.heap.load (s.entry k).data.pvData len = some (b.take len) :=
        Heap.load_of_live hb (by omega)
      rw [readThrough, hload, contents, if_pos hlen, hb]
      simp [definedOr, List.take_take, hl]
  · rw [if_neg hlen]
    refine ⟨rfl, ?_⟩
    intro len hl
    have hfit : len ≤ sizeofVoidPtr := by omega
    rw [readThrough, if_pos hfit, contents, if_neg hlen]
    simp [definedOr, List.take_take, hl]

/-- Only the inline bytes of entries and the contents of blocks may differ. -/
structure SameLayout (s s' : KVStoreCache n) : Prop where
  type : ∀ k, (s'.entry k).type = (s.entry k).type
  length : ∀ k, (s'.entry k).length = (s.entry k).length
  pending : ∀ k, (s'.entry k).xChangePending = (s.entry k).xChangePending
  address : ∀ k, sizeofVoidPtr < (s.entry k).length → s'.address k = s.address k
  sizes : ∀ a, (s'.heap.block a).map List.length = (s.heap.block a).map List.length

namespace SameLayout

theorem onHeap (h : SameLayout s s') (k : Fin n) :
    (s'.entry k).OnHeap ↔ (s.entry k).OnHeap := by
  rw [KVStoreCacheEntry.OnHeap, KVStoreCacheEntry.OnHeap, h.type, h.length]

theorem block (h : SameLayout s s') {a : Nat} {b : List UInt8} (hb : s.heap.block a = some b) :
    ∃ b', s'.heap.block a = some b' ∧ b'.length = b.length := by
  have hsize := h.sizes a
  rw [hb] at hsize
  simpa using hsize

theorem valid (h : SameLayout s s') (hs : s.Valid) : s'.Valid where
  backed k hk := by
    have hk' := (h.onHeap k).mp hk
    obtain ⟨b, hb, hle⟩ := hs.backed k hk'
    obtain ⟨b', hb', hlen⟩ := h.block hb
    rw [h.address k hk'.2, h.length]
    exact ⟨b', hb', by omega⟩
  unshared j k hj hk heq := by
    have hj' := (h.onHeap j).mp hj
    have hk' := (h.onHeap k).mp hk
    rw [h.address j hj'.2, h.address k hk'.2] at heq
    exact hs.unshared j k hj' hk' heq

end SameLayout

/-- The second half of a write puts the value where the entry keeps it. -/
theorem Valid.store (ndebug : Bool) (hs : s.Valid) (ht : (s.entry k).type ≠ .kvTypeNone)
    (hlen : (s.entry k).length = v.length) (hp : (s.entry k).xChangePending = true) :
    ∃ s', prvStoreCacheEntry ndebug s k v = .ok s' ∧ SameLayout s s' ∧ s'.contents k = v ∧
      (∀ j, j ≠ k → s'.entry j = s.entry j) ∧
      ∀ j, j ≠ k → (s.entry j).type ≠ .kvTypeNone → s'.contents j = s.contents j := by
  rw [prvStoreCacheEntry, if_pos hp, pvGetDataWritePtr]
  by_cases hbig : sizeofVoidPtr < (s.entry k).length
  · obtain ⟨b, hb, hle⟩ := hs.backed k ⟨ht, hbig⟩
    obtain ⟨heap, hstore, -, hblock⟩ := Heap.store_of_live hb (v := v) (by omega)
    have hnull : (DataPtr.block (s.entry k).data.pvData).isNull = false :=
      beq_eq_false_iff_ne.mpr (Heap.ne_zero_of_live hb)
    have hne : v ≠ [] := by
      intro hnil
      rw [hnil] at hlen
      simp [hlen] at hbig
    refine ⟨{ s with heap }, ?_, ⟨fun _ => rfl, fun _ => rfl, fun _ => rfl, fun _ _ => rfl, ?_⟩,
      ?_, fun _ _ => rfl, ?_⟩
    · have hstore' : s.heap.store (s.entry k).data.pvData v = some heap := hstore
      simp only [if_pos hbig, configASSERT, hnull, Bool.not_false, Bool.true_or, if_true, pure,
        Except.pure, bind, Except.bind, if_false, writeThrough, if_neg hne, hstore', definedOr,
        Except.map, Bool.false_eq_true]
    · intro a
      by_cases ha : a = s.address k
      · simp only [hblock, ha, hb, Function.update_self, Option.map_some, List.length_append,
          List.length_drop]
        congr 1
        omega
      · simp only [hblock, Function.update_of_ne ha]
    · have haddr : heap.block ((⟨s.entry, heap⟩ : KVStoreCache n).address k) =
          some (v ++ b.drop v.length) := by
        rw [hblock]
        exact Function.update_self ..
      rw [contents, if_pos hbig, haddr]
      simp [hlen]
    · intro j hj htj
      rw [contents, contents]
      by_cases hbigj : sizeofVoidPtr < (s.entry j).length
      · have hne : s.address j ≠ s.address k :=
          fun heq => hj (hs.unshared j k ⟨htj, hbigj⟩ ⟨ht, hbig⟩ heq)
        have haddr : heap.block ((⟨s.entry, heap⟩ : KVStoreCache n).address j) =
            s.heap.block (s.address j) := by
          rw [hblock]
          exact Function.update_of_ne hne ..
        rw [if_pos hbigj, if_pos hbigj, haddr]
      · rw [if_neg hbigj, if_neg hbigj]
  · have hfit : v.length ≤ sizeofVoidPtr := by omega
    refine ⟨s.setEntry k { s.entry k with data := (s.entry k).data.copyIn v hfit }, ?_,
      ⟨?_, ?_, ?_, ?_, fun _ => rfl⟩, ?_, ?_, ?_⟩
    · simp only [if_neg hbig, configASSERT, DataPtr.isNull, Bool.not_false, Bool.true_or, if_true,
        pure, Except.pure, bind, Except.bind, if_false, writeThrough, dif_pos hfit,
        Bool.false_eq_true]
    · intro j
      by_cases hj : j = k
      · rw [hj, setEntry_self]
      · rw [setEntry_of_ne _ _ hj]
    · intro j
      by_cases hj : j = k
      · rw [hj, setEntry_self]
      · rw [setEntry_of_ne _ _ hj]
    · intro j
      by_cases hj : j = k
      · rw [hj, setEntry_self]
      · rw [setEntry_of_ne _ _ hj]
    · intro j hbigj
      have hj : j ≠ k := fun heq => hbig (heq ▸ hbigj)
      rw [address, address, setEntry_of_ne _ _ hj]
    · rw [contents, setEntry_self, if_neg hbig]
      simp [DataUnion.copyIn, hlen]
    · intro j hj
      exact setEntry_of_ne _ _ hj
    · intro j hj _
      rw [contents, contents, address, setEntry_of_ne _ _ hj]
      rfl

/-- How the first half of a write makes room for `len` bytes: the entry's new union, the heap
and the blocks the heap had before the allocation. -/
inductive RoomMade (s : KVStoreCache n) (k : Fin n) (len : Nat) :
    DataUnion → Heap UInt8 → Prop where
  | reuse : (s.entry k).type ≠ .kvTypeNone → len ≤ (s.entry k).length →
      RoomMade s k len (s.entry k).data s.heap
  | inline : ¬ (s.entry k).OnHeap → len ≤ sizeofVoidPtr → RoomMade s k len (.ofWord 0) s.heap
  | fresh : ¬ (s.entry k).OnHeap → sizeofVoidPtr < len →
      RoomMade s k len (.ofWord (pvPortMalloc s.heap len).1) (pvPortMalloc s.heap len).2
  | regrown (heap : Heap UInt8) : (s.entry k).OnHeap → (s.entry k).length < len →
      heap.block = Function.update s.heap.block (s.address k) none →
      RoomMade s k len (.ofWord (pvPortMalloc heap len).1) (pvPortMalloc heap len).2

def Changes (s : KVStoreCache n) (k : Fin n) (t : KVStoreValueType) (v : List UInt8) : Prop :=
  (s.entry k).type ≠ t ∨ s.contents k ≠ v

instance : Decidable (s.Changes k t v) := inferInstanceAs (Decidable (_ ∨ _))

theorem vAllocateDataBuffer_room (s : KVStoreCache n) (k : Fin n) (len : Nat)
    (hk : ¬ (s.entry k).OnHeap) : ∃ data heap, RoomMade s k len data heap ∧
      vAllocateDataBuffer s k len =
        ⟨Function.update s.entry k { s.entry k with data := data, length := len }, heap⟩ := by
  rw [vAllocateDataBuffer]
  split
  · next hlen => exact ⟨_, _, .fresh hk hlen, rfl⟩
  · next hlen => exact ⟨_, _, .inline hk (by omega), rfl⟩

theorem vReallocDataBuffer_room (s : KVStoreCache n) (k : Fin n) (len : Nat) (hs : s.Valid)
    (ht : (s.entry k).type ≠ .kvTypeNone) : ∃ data heap, RoomMade s k len data heap ∧
      vReallocDataBuffer s k len =
        .ok ⟨Function.update s.entry k { s.entry k with data := data, length := len }, heap⟩ := by
  rw [vReallocDataBuffer]
  split
  · next hgrow =>
    by_cases hbig : sizeofVoidPtr < (s.entry k).length
    · obtain ⟨b, hb, -⟩ := hs.backed k ⟨ht, hbig⟩
      obtain ⟨heap, hfree, hblock⟩ := Heap.free_of_live hb
      have hnull : (s.entry k).data.pvData ≠ 0 := Heap.ne_zero_of_live hb
      have hfree' : s.heap.free (s.entry k).data.pvData = some heap := hfree
      have hlen : sizeofVoidPtr < len := by omega
      refine ⟨_, _, .regrown heap ⟨ht, hbig⟩ hgrow hblock, ?_⟩
      simp only [vClearDataBuffer, if_pos hbig, vPortFree, if_neg hnull, hfree', definedOr, bind,
        Except.bind, pure, Except.pure, vAllocateDataBuffer, if_pos hlen, setEntry,
        Function.update_idem, Function.update_self]
    · have hk : ¬ (s.entry k).OnHeap := fun h => hbig h.2
      simp only [vClearDataBuffer, if_neg hbig, bind, Except.bind, pure, Except.pure,
        vAllocateDataBuffer]
      split
      · next hlen =>
        refine ⟨_, _, .fresh hk hlen, ?_⟩
        simp only [setEntry, Function.update_idem, Function.update_self]
      · next hlen =>
        refine ⟨_, _, .inline hk (by omega), ?_⟩
        simp only [setEntry, Function.update_idem, Function.update_self]
  · next hgrow => exact ⟨_, _, .reuse ht (by omega), rfl⟩

/-- The first half of a write gives the entry its type and length and notes a change. -/
theorem Valid.prepare (hs : s.Valid) (ht : t ≠ .kvTypeNone) :
    ∃ data heap, RoomMade s k v.length data heap ∧
      (¬ s.Changes k t v → data = (s.entry k).data ∧ heap = s.heap) ∧
      prvPrepareCacheEntry s k t v = .ok ⟨Function.update s.entry k
        ⟨t, v.length, data, (s.entry k).xChangePending || decide (s.Changes k t v)⟩, heap⟩ := by
  rw [prvPrepareCacheEntry]
  by_cases hnone : (s.entry k).type = .kvTypeNone
  · obtain ⟨data, heap, hroom, hval⟩ :=
      vAllocateDataBuffer_room s k v.length (fun h => h.1 hnone)
    have hchg : s.Changes k t v := .inl (fun h => ht (h ▸ hnone))
    refine ⟨data, heap, hroom, fun h => absurd hchg h, ?_⟩
    rw [if_pos hnone, hval]
    simp [retype, setEntry, hchg, pure, Except.pure]
  · rw [if_neg hnone]
    have hclen := hs.contents_length hnone
    by_cases hlen : (s.entry k).length = v.length
    · rw [if_neg (not_not.mpr hlen)]
      refine ⟨_, _, .reuse hnone hlen.ge, fun _ => ⟨rfl, rfl⟩, ?_⟩
      by_cases htype : (s.entry k).type = t
      · obtain ⟨hnull, hread⟩ := hs.readPtr hnone
        have hall : (s.contents k).take v.length = s.contents k :=
          List.take_of_length_le (by omega)
        rw [if_neg (not_not.mpr htype)]
        simp only [hnull, hread v.length hlen.ge, bind, Except.bind, hall, if_false,
          Bool.false_eq_true]
        by_cases heq : s.contents k = v
        · have hchg : ¬ s.Changes k t v := by simp [Changes, htype, heq]
          have hsame : (⟨t, v.length, (s.entry k).data, (s.entry k).xChangePending⟩ :
              KVStoreCacheEntry) = s.entry k := by
            rw [← htype, ← hlen]
          simp [heq, hchg, hsame, pure, Except.pure]
        · have hchg : s.Changes k t v := .inr heq
          subst htype
          simp [heq, hchg, setEntry, pure, Except.pure, ← hlen]
      · have hchg : s.Changes k t v := .inl htype
        rw [if_pos htype]
        simp [retype, setEntry, hchg, hlen, pure, Except.pure]
    · obtain ⟨data, heap, hroom, hval⟩ := vReallocDataBuffer_room s k v.length hs hnone
      have hchg : s.Changes k t v := by
        right
        intro heq
        rw [heq] at hclen
        exact hlen hclen.symm
      refine ⟨data, heap, hroom, fun h => absurd hchg h, ?_⟩
      rw [if_pos hlen, hval]
      simp [retype, setEntry, hchg, bind, Except.bind, pure, Except.pure]

/-- The block the first half of a write asks for, if any, is not refused. -/
def AllocationSucceeds (s : KVStoreCache n) (k : Fin n) (t : KVStoreValueType)
    (v : List UInt8) : Prop :=
  ∀ s1, prvPrepareCacheEntry s k t v = .ok s1 → sizeofVoidPtr < v.length → s1.address k ≠ 0

theorem pvPortMalloc_cases (heap : Heap UInt8) (size : Nat) :
    ((pvPortMalloc heap size).1 = 0 ∧ (pvPortMalloc heap size).2.block = heap.block) ∨
      ∃ a b, (pvPortMalloc heap size).1 = a ∧ a = (heap.answer 0).1 ∧ a < sizeMod ∧ a ≠ 0 ∧
        heap.block a = none ∧ b.length = size ∧
        (pvPortMalloc heap size).2.block = Function.update heap.block a (some b) := by
  obtain ⟨hnone, hblock⟩ | ⟨a, b, hsome, hans, hnull, hlim, hdead, hlen, hblock⟩ :=
    Heap.malloc_cases heap sizeMod size
  · left
    have hzero : (pvPortMalloc heap size).1 = ((heap.malloc sizeMod size).1).getD 0 := rfl
    exact ⟨by rw [hzero, hnone]; rfl, hblock⟩
  · right
    have haddr : (pvPortMalloc heap size).1 = ((heap.malloc sizeMod size).1).getD 0 := rfl
    exact ⟨a, b, by rw [haddr, hsome]; rfl, hans, hlim, hnull, hdead, hlen, hblock⟩

theorem pvPortMalloc_answer (heap : Heap UInt8) (size : Nat) :
    (pvPortMalloc heap size).2.answer = fun j => heap.answer (j + 1) :=
  Heap.malloc_answer heap sizeMod size

theorem pvPortMalloc_served {heap : Heap UInt8} {m : Nat}
    (hserves : heap.Serves sizeMod (m + 1)) (size : Nat) : (pvPortMalloc heap size).1 ≠ 0 := by
  have haddr : (pvPortMalloc heap size).1 = ((heap.malloc sizeMod size).1).getD 0 := rfl
  rw [haddr, hserves.first size]
  exact (hserves 0 (Nat.succ_pos m)).1.1

/-- The blocks of the other entries stay, whatever room is made. -/
theorem RoomMade.frame {len : Nat} {data : DataUnion} {heap : Heap UInt8}
    (h : RoomMade s k len data heap) (hs : s.Valid) {j : Fin n} (hj : j ≠ k)
    (hheap : (s.entry j).OnHeap) : heap.block (s.address j) = s.heap.block (s.address j) := by
  obtain ⟨b, hb, -⟩ := hs.backed j hheap
  -- a served request takes an address that was not live
  have hmalloc : ∀ h0 : Heap UInt8, h0.block (s.address j) = some b →
      (pvPortMalloc h0 len).2.block (s.address j) = some b := by
    intro h0 h0b
    obtain ⟨-, hblock⟩ | ⟨a, b', -, -, -, -, hdead, -, hblock⟩ := pvPortMalloc_cases h0 len
    · rw [hblock, h0b]
    · have hne : s.address j ≠ a := by
        intro heq
        rw [heq, hdead] at h0b
        cases h0b
      rw [hblock, Function.update_of_ne hne, h0b]
  rw [hb]
  cases h with
  | reuse => exact hb
  | inline => exact hb
  | fresh => exact hmalloc _ hb
  | regrown h0 hk _ hblock =>
    apply hmalloc
    have hne : s.address j ≠ s.address k := fun heq => hj (hs.unshared j k hheap hk heq)
    rw [hblock, Function.update_of_ne hne, hb]

/-- Room for more bytes than fit inline is a block that no other entry uses. -/
theorem RoomMade.own {len : Nat} {data : DataUnion} {heap : Heap UInt8}
    (h : RoomMade s k len data heap) (hs : s.Valid) (hlen : sizeofVoidPtr < len)
    (hnull : data.pvData ≠ 0) : (∃ b, heap.block data.pvData = some b ∧ len ≤ b.length) ∧
      ∀ j, j ≠ k → (s.entry j).OnHeap → s.address j ≠ data.pvData := by
  have hmalloc : ∀ h0 : Heap UInt8, (DataUnion.ofWord (pvPortMalloc h0 len).1).pvData ≠ 0 →
      ∃ b, (pvPortMalloc h0 len).2.block (DataUnion.ofWord (pvPortMalloc h0 len).1).pvData =
        some b ∧ b.length = len ∧
        h0.block (DataUnion.ofWord (pvPortMalloc h0 len).1).pvData = none := by
    intro h0 hne
    obtain ⟨hz, -⟩ | ⟨a, b, ha, -, hlim, -, hdead, hb, hblock⟩ := pvPortMalloc_cases h0 len
    · rw [hz] at hne
      exact absurd rfl hne
    · rw [ha, DataUnion.pvData_ofWord hlim, hblock, Function.update_self]
      exact ⟨b, rfl, hb, hdead⟩
  cases h with
  | reuse ht hle =>
    have hk : (s.entry k).OnHeap := ⟨ht, by omega⟩
    obtain ⟨b, hb, hbl⟩ := hs.backed k hk
    exact ⟨⟨b, hb, by omega⟩, fun j hj hheap heq => hj (hs.unshared j k hheap hk heq)⟩
  | inline _ hle => omega
  | fresh =>
    obtain ⟨b, hb, hbl, hdead⟩ := hmalloc _ hnull
    refine ⟨⟨b, hb, hbl.ge⟩, ?_⟩
    intro j hj hheap heq
    obtain ⟨bj, hbj, -⟩ := hs.backed j hheap
    rw [← heq, hbj] at hdead
    cases hdead
  | regrown h0 hk _ hblock =>
    obtain ⟨b, hb, hbl, hdead⟩ := hmalloc _ hnull
    refine ⟨⟨b, hb, hbl.ge⟩, ?_⟩
    intro j hj hheap heq
    obtain ⟨bj, hbj, -⟩ := hs.backed j hheap
    have hne : s.address j ≠ s.address k := fun heq => hj (hs.unshared j k hheap hk heq)
    rw [← heq, hblock, Function.update_of_ne hne, hbj] at hdead
    cases hdead

/-- A block is live afterwards because it was made room with, or because it was live before and
is not the block the entry had on the heap. -/
theorem RoomMade.live {len : Nat} {data : DataUnion} {heap : Heap UInt8}
    (h : RoomMade s k len data heap) (hshrink : (s.entry k).OnHeap → sizeofVoidPtr < len)
    {a : Nat} (ha : (heap.block a).isSome) : (sizeofVoidPtr < len ∧ a = data.pvData) ∨
      ((s.heap.block a).isSome ∧ ((s.entry k).OnHeap → a ≠ s.address k)) := by
  have hmalloc : ∀ h0 : Heap UInt8, ((pvPortMalloc h0 len).2.block a).isSome →
      a = (DataUnion.ofWord (pvPortMalloc h0 len).1).pvData ∨ (h0.block a).isSome := by
    intro h0 hlive
    obtain ⟨-, hblock⟩ | ⟨a', b, ha', -, hlim, -, -, -, hblock⟩ := pvPortMalloc_cases h0 len
    · right
      rwa [hblock] at hlive
    · by_cases heq : a = a'
      · left
        rw [ha', DataUnion.pvData_ofWord hlim, heq]
      · right
        rwa [hblock, Function.update_of_ne heq] at hlive
  cases h with
  | reuse =>
    by_cases hk : (s.entry k).OnHeap
    · by_cases heq : a = s.address k
      · exact .inl ⟨hshrink hk, heq⟩
      · exact .inr ⟨ha, fun _ => heq⟩
    · exact .inr ⟨ha, fun hk' => absurd hk' hk⟩
  | inline hk => exact .inr ⟨ha, fun hk' => absurd hk' hk⟩
  | fresh hk hlen =>
    obtain heq | hlive := hmalloc _ ha
    · exact .inl ⟨hlen, heq⟩
    · exact .inr ⟨hlive, fun hk' => absurd hk' hk⟩
  | regrown h0 hk _ hblock =>
    obtain heq | hlive := hmalloc _ ha
    · exact .inl ⟨hshrink hk, heq⟩
    · have hne : a ≠ s.address k := by
        intro heq
        rw [hblock, heq, Function.update_self] at hlive
        cases hlive
      rw [hblock, Function.update_of_ne hne] at hlive
      exact .inr ⟨hlive, fun _ => hne⟩

/-- What a write to `k` does. -/
structure WriteEffect (s s' : KVStoreCache n) (k : Fin n) (t : KVStoreValueType)
    (v : List UInt8) : Prop where
  valid : s'.Valid
  type : (s'.entry k).type = t
  length : (s'.entry k).length = v.length
  contents : s'.contents k = v
  pending : (s'.entry k).xChangePending =
    ((s.entry k).xChangePending || decide (s.Changes k t v))
  entry_other : ∀ j, j ≠ k → s'.entry j = s.entry j
  contents_other : ∀ j, j ≠ k → (s.entry j).type ≠ .kvTypeNone → s'.contents j = s.contents j
  live : ((s.entry k).OnHeap → sizeofVoidPtr < v.length) → ∀ a, (s'.heap.block a).isSome →
    (sizeofVoidPtr < v.length ∧ a = s'.address k) ∨
      ((s.heap.block a).isSome ∧ ((s.entry k).OnHeap → a ≠ s.address k))

theorem address_congr {j : Fin n} (h : s'.entry j = s.entry j) : s'.address j = s.address j := by
  rw [address, h, address]

/-- `k` has another entry, whose block, if there is one, is its own. -/
structure Replaced (s s' : KVStoreCache n) (k : Fin n) : Prop where
  entry : ∀ j, j ≠ k → s'.entry j = s.entry j
  block : ∀ j, j ≠ k → (s.entry j).OnHeap →
    s'.heap.block (s.address j) = s.heap.block (s.address j)
  backed : (s'.entry k).OnHeap →
    ∃ b, s'.heap.block (s'.address k) = some b ∧ (s'.entry k).length ≤ b.length
  own : (s'.entry k).OnHeap → ∀ j, j ≠ k → (s.entry j).OnHeap → s.address j ≠ s'.address k

namespace Replaced

theorem valid (h : Replaced s s' k) (hs : s.Valid) : s'.Valid where
  backed j hj := by
    by_cases hjk : j = k
    · rw [hjk] at hj ⊢
      exact h.backed hj
    · rw [h.entry j hjk] at hj ⊢
      rw [address_congr (h.entry j hjk), h.block j hjk hj]
      exact hs.backed j hj
  unshared i j hi hj heq := by
    by_cases hik : i = k <;> by_cases hjk : j = k
    · rw [hik, hjk]
    · rw [hik] at hi heq
      rw [h.entry j hjk] at hj
      rw [address_congr (h.entry j hjk)] at heq
      exact absurd heq.symm (h.own hi j hjk hj)
    · rw [hjk] at hj heq
      rw [h.entry i hik] at hi
      rw [address_congr (h.entry i hik)] at heq
      exact absurd heq (h.own hj i hik hi)
    · rw [h.entry i hik] at hi
      rw [h.entry j hjk] at hj
      rw [address_congr (h.entry i hik), address_congr (h.entry j hjk)] at heq
      exact hs.unshared i j hi hj heq

theorem contents (h : Replaced s s' k) (j : Fin n) (hj : j ≠ k)
    (ht : (s.entry j).type ≠ .kvTypeNone) : s'.contents j = s.contents j := by
  simp only [KVStoreCache.contents, h.entry j hj, address_congr (h.entry j hj)]
  by_cases hbig : sizeofVoidPtr < (s.entry j).length
  · rw [h.block j hj ⟨ht, hbig⟩]
  · rw [if_neg hbig, if_neg hbig]

end Replaced

theorem RoomMade.replaced {data : DataUnion} {heap : Heap UInt8} (pending : Bool)
    (h : RoomMade s k v.length data heap) (hs : s.Valid)
    (hnull : sizeofVoidPtr < v.length → data.pvData ≠ 0) :
    Replaced s ⟨Function.update s.entry k ⟨t, v.length, data, pending⟩, heap⟩ k := by
  refine ⟨fun j hj => Function.update_of_ne hj .., fun j hj hheap => h.frame hs hj hheap, ?_, ?_⟩
  · intro hk
    simp only [address, Function.update_self] at hk ⊢
    exact (h.own hs hk.2 (hnull hk.2)).1
  · intro hk
    simp only [address, Function.update_self] at hk ⊢
    exact (h.own hs hk.2 (hnull hk.2)).2

theorem configASSERT_ok {ndebug x : Bool} (hx : ndebug = true ∨ x = true) :
    configASSERT ndebug x = .ok () := by
  obtain hx | hx := hx <;> simp [configASSERT, hx]

theorem configASSERT_eq_ok {ndebug x : Bool} (h : configASSERT ndebug x = .ok ()) :
    ndebug = true ∨ x = true := by
  cases ndebug <;> cases x <;> simp [configASSERT] at h ⊢

/-- A write whose block is not refused returns, and this is what it did. -/
theorem xprvWriteCacheEntry_spec (ndebug : Bool) (hs : s.Valid) (ht : t ≠ .kvTypeNone)
    (hlast : ndebug = true ∨ t.toNat < kvTypeLast) (hv : ndebug = true ∨ 0 < v.length)
    (halloc : s.AllocationSucceeds k t v) :
    ∃ s', xprvWriteCacheEntry ndebug s k t v = .ok s' ∧ WriteEffect s s' k t v := by
  obtain ⟨data, heap, hroom, hsame, hprep⟩ := hs.prepare (k := k) (v := v) ht
  have hnull : sizeofVoidPtr < v.length → data.pvData ≠ 0 := by
    intro hlen
    have hne := halloc _ hprep hlen
    simpa only [address, Function.update_self] using hne
  have hreplaced := hroom.replaced (t := t)
    ((s.entry k).xChangePending || decide (s.Changes k t v)) hs hnull
  have hvalid := hreplaced.valid hs
  have hother := hreplaced.contents
  rw [xprvWriteCacheEntry, configASSERT_ok (hlast.imp_right decide_eq_true),
    configASSERT_ok (hv.imp_right decide_eq_true)]
  simp only [bind, Except.bind, hprep]
  generalize hs1 : (⟨Function.update s.entry k ⟨t, v.length, data,
    (s.entry k).xChangePending || decide (s.Changes k t v)⟩, heap⟩ : KVStoreCache n) = s1 at *
  have hentry : s1.entry k = ⟨t, v.length, data,
      (s.entry k).xChangePending || decide (s.Changes k t v)⟩ := by
    rw [← hs1]
    exact Function.update_self ..
  have hentry_other : ∀ j, j ≠ k → s1.entry j = s.entry j := by
    intro j hj
    rw [← hs1]
    exact Function.update_of_ne hj ..
  have hheap : s1.heap = heap := by rw [← hs1]
  by_cases hp : (s1.entry k).xChangePending = true
  · obtain ⟨s', hstore, hlay, hcont, hent, hcont_other⟩ :=
      hvalid.store ndebug (k := k) (v := v) (by rw [hentry]; exact ht)
        (by rw [hentry]) hp
    refine ⟨s', hstore, hlay.valid hvalid, ?_, ?_, hcont, ?_, ?_, ?_, ?_⟩
    · rw [hlay.type, hentry]
    · rw [hlay.length, hentry]
    · rw [hlay.pending, hentry]
    · intro j hj
      rw [hent j hj, hentry_other j hj]
    · intro j hj htj
      rw [hcont_other j hj (by rw [hentry_other j hj]; exact htj), hother j hj htj]
    · intro hshrink a ha
      have hsize := hlay.sizes a
      have hlive : (heap.block a).isSome := by
        rw [← Option.isSome_map (f := List.length), hsize, Option.isSome_map, hheap] at ha
        exact ha
      obtain ⟨hlen, heq⟩ | hold := hroom.live hshrink hlive
      · left
        refine ⟨hlen, ?_⟩
        rw [hlay.address k (by rw [hentry]; exact hlen), address, hentry, heq]
      · exact .inr hold
  · -- nothing was pending and nothing changes: the cache is as before
    have hchg : ¬ s.Changes k t v := by
      intro hc
      apply hp
      simp [hentry, hc]
    obtain ⟨hdata, hheap'⟩ := hsame hchg
    have hval : s.contents k = v := not_not.mp (fun h => hchg (.inr h))
    have hlen : (s.entry k).length = v.length := by
      have htk : (s.entry k).type = t := not_not.mp (fun h => hchg (.inl h))
      rw [← hval, hs.contents_length (by rw [htk]; exact ht)]
    refine ⟨s1, by rw [prvStoreCacheEntry, if_neg hp]; rfl, hvalid, ?_, ?_, ?_, ?_,
      hentry_other, hother, ?_⟩
    · rw [hentry]
    · rw [hentry]
    · rw [contents, address, hentry, hheap, hdata, hheap', ← hlen]
      exact hval
    · rw [hentry]
    · intro hshrink a ha
      rw [hheap] at ha
      obtain ⟨hbig, heq⟩ | hold := hroom.live hshrink ha
      · left
        refine ⟨hbig, ?_⟩
        rw [address, hentry, heq]
      · exact .inr hold

/-- A write that is refused its block gets to its second half with a NULL pointer in the union. -/
theorem Valid.refused (hs : s.Valid) (ht : t ≠ .kvTypeNone)
    (halloc : ¬ s.AllocationSucceeds k t v) : ∃ s1, prvPrepareCacheEntry s k t v = .ok s1 ∧
      (s1.entry k).type = t ∧ sizeofVoidPtr < (s1.entry k).length ∧
      (s1.entry k).data.pvData = 0 ∧ (s1.entry k).xChangePending = true := by
  obtain ⟨data, heap, -, hsame, hprep⟩ := hs.prepare (k := k) (v := v) ht
  simp only [AllocationSucceeds, not_forall] at halloc
  obtain ⟨s1, hs1, hlen, hnull⟩ := halloc
  obtain rfl : s1 = _ := Except.ok.inj (hs1.symm.trans hprep)
  have hzero : data.pvData = 0 := by
    simpa only [address, Function.update_self, not_not] using hnull
  have hchg : s.Changes k t v := by
    by_contra hchg
    have htk : (s.entry k).type = t := not_not.mp (fun h => hchg (.inl h))
    have hval : s.contents k = v := not_not.mp (fun h => hchg (.inr h))
    have hlenk : (s.entry k).length = v.length := by
      rw [← hval, hs.contents_length (by rw [htk]; exact ht)]
    obtain ⟨b, hb, -⟩ := hs.backed k ⟨by rw [htk]; exact ht, by omega⟩
    rw [(hsame hchg).1] at hzero
    exact Heap.ne_zero_of_live hb hzero
  refine ⟨_, hprep, ?_, ?_, ?_, ?_⟩ <;> simp only [Function.update_self]
  · exact hlen
  · exact hzero
  · rw [decide_eq_true hchg, Bool.or_true]

/-- With assertions compiled in, a write that is refused its block halts. -/
theorem write_refused (hs : s.Valid) (ht : t ≠ .kvTypeNone)
    (halloc : ¬ s.AllocationSucceeds k t v) :
    xprvWriteCacheEntry false s k t v = .error .assertFailed := by
  obtain ⟨s1, hprep, -, hlen, hzero, hpending⟩ := hs.refused ht halloc
  simp only [xprvWriteCacheEntry, bind, Except.bind, hprep, configASSERT, Bool.or_false]
  split
  · next h1 =>
    split at h1
    · cases h1
    · exact congrArg Except.error (Except.error.inj h1).symm
  split
  · next h2 =>
    split at h2
    · cases h2
    · exact congrArg Except.error (Except.error.inj h2).symm
  simp [prvStoreCacheEntry, pvGetDataWritePtr, hpending, hlen, hzero, DataPtr.isNull, configASSERT,
    bind, Except.bind]

/-- Without them it leaves the key with no value behind its pointer. -/
theorem write_unnoticed (hs : s.Valid) (ht : t ≠ .kvTypeNone)
    (halloc : ¬ s.AllocationSucceeds k t v) : ∃ s', xprvWriteCacheEntry true s k t v = .ok s' ∧
      (pvGetDataReadPtr s' k).isNull = true := by
  obtain ⟨s1, hprep, htype, hlen, hzero, hpending⟩ := hs.refused ht halloc
  refine ⟨s1, ?_, ?_⟩
  · simp [xprvWriteCacheEntry, configASSERT_ok, hprep, prvStoreCacheEntry, pvGetDataWritePtr,
      hpending, hlen, hzero, DataPtr.isNull, bind, Except.bind, pure, Except.pure]
  · have hset : (s1.entry k).type ≠ .kvTypeNone := by
      rw [htype]
      exact ht
    simp [pvGetDataReadPtr, hset, hlen, hzero, DataPtr.isNull]

/-- A write meets no undefined behaviour, as long as a refused block is noticed. -/
theorem write_defined (ndebug : Bool) (hs : s.Valid) (ht : t ≠ .kvTypeNone)
    (halloc : ndebug = true → s.AllocationSucceeds k t v) :
    xprvWriteCacheEntry ndebug s k t v ≠ .error .undefinedBehaviour := by
  by_cases hserved : s.AllocationSucceeds k t v
  · by_cases hasserts : (ndebug = true ∨ t.toNat < kvTypeLast) ∧ (ndebug = true ∨ 0 < v.length)
    · obtain ⟨s', hok, -⟩ := xprvWriteCacheEntry_spec ndebug hs ht hasserts.1 hasserts.2 hserved
      rw [hok]
      exact fun h => by cases h
    · cases hn : ndebug with
      | true => exact absurd ⟨.inl hn, .inl hn⟩ hasserts
      | false =>
        simp only [hn, Bool.false_eq_true, false_or, not_and] at hasserts
        by_cases hlast : t.toNat < kvTypeLast
        · simp [xprvWriteCacheEntry, configASSERT, hlast, hasserts hlast, bind, Except.bind]
        · simp [xprvWriteCacheEntry, configASSERT, hlast, bind, Except.bind]
  · cases hn : ndebug with
    | true => exact absurd (halloc hn) hserved
    | false =>
      rw [write_refused hs ht hserved]
      exact fun h => by cases h

end KVStoreCache

end RenesasDemo.KVStore
