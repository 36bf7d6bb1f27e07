import RenesasDemo.KVStore.Files

namespace RenesasDemo.KVStore

open Framework

variable {n : Nat} {ndebug : Bool} {kvstoreValMaxLen : Nat} {lfs : LfsReadAnswers}

namespace KVStoreCache

/-- The block at `a` is that of `k`; a value that fits into the union has none. -/
def Owns (s : KVStoreCache n) (k : Fin n) (a : Nat) : Prop :=
  sizeofVoidPtr < (s.entry k).length ∧ s.address k = a

/-- Each live block is owned by one entry, and each long value has its block. -/
structure Ownership (s : KVStoreCache n) : Prop where
  type_none : ∀ k, (s.entry k).type = .kvTypeNone ↔ (s.entry k).length = 0
  owned : ∀ k, sizeofVoidPtr < (s.entry k).length →
    ∃ b, s.heap.block (s.address k) = some b ∧ (s.entry k).length ≤ b.length
  unshared : ∀ a j k, s.Owns j a → s.Owns k a → j = k
  noLeak : ∀ a, (s.heap.block a).isSome → ∃ k, s.Owns k a

variable {s s' : KVStoreCache n} {k : Fin n}

theorem Ownership.valid (hs : s.Ownership) : s.Valid where
  backed k hk := hs.owned k hk.2
  unshared j k hj hk heq := hs.unshared (s.address k) j k ⟨hj.2, heq⟩ ⟨hk.2, rfl⟩

/-- One entry changes: its block is new or was its own, every other block has its owner. -/
theorem Ownership.replace (hs : s.Ownership) (hvalid : s'.Valid)
    (htype : (s'.entry k).type = .kvTypeNone ↔ (s'.entry k).length = 0)
    (hother : ∀ j, j ≠ k → s'.entry j = s.entry j)
    (hlive : ∀ a, (s'.heap.block a).isSome → s'.Owns k a ∨
      ((s.heap.block a).isSome ∧ ¬ s.Owns k a)) : s'.Ownership := by
  have htypes : ∀ j, (s'.entry j).type = .kvTypeNone ↔ (s'.entry j).length = 0 := by
    intro j
    by_cases hj : j = k
    · rw [hj]
      exact htype
    · rw [hother j hj]
      exact hs.type_none j
  have hheap : ∀ j, sizeofVoidPtr < (s'.entry j).length → (s'.entry j).OnHeap := by
    intro j hj
    refine ⟨?_, hj⟩
    intro hnone
    have hzero := (htypes j).mp hnone
    omega
  constructor
  · exact htypes
  · intro j hj
    exact hvalid.backed j (hheap j hj)
  · intro a i j hi hj
    exact hvalid.unshared i j (hheap i hi.1) (hheap j hj.1) (hi.2.trans hj.2.symm)
  · intro a ha
    obtain hown | ⟨hold, hnot⟩ := hlive a ha
    · exact ⟨k, hown⟩
    · obtain ⟨j, hj⟩ := hs.noLeak a hold
      have hjk : j ≠ k := fun heq => hnot (heq ▸ hj)
      refine ⟨j, ?_, ?_⟩
      · rw [hother j hjk]
        exact hj.1
      · rw [address, hother j hjk]
        exact hj.2

theorem Ownership.zeroed (answer : Nat → Nat × (Nat → UInt8)) :
    (KVStoreCache.zeroed answer : KVStoreCache n).Ownership where
  type_none _ := ⟨fun _ => rfl, fun _ => rfl⟩
  owned k hk := absurd hk (Nat.not_lt_zero _)
  unshared a j k hj _ := absurd hj.1 (Nat.not_lt_zero _)
  noLeak a ha := absurd ha (by simp [KVStoreCache.zeroed, Heap.empty])

end KVStoreCache

/-- Start-up either finds no value for a key, or reads it completely: a set value, on the side
of the inline limit on which the file's size is, and no longer than the room made for it. -/
def LoadsCleanly (ndebug : Bool) (kvstoreValMaxLen : Nat) (lfs : LfsReadAnswers) : Prop :=
  0 < xprvGetValueLengthFromImpl lfs →
    ∀ nv, xprvReadValueFromImpl ndebug kvstoreValMaxLen lfs = .ok nv →
      ∃ h, nv.result = some h ∧ (h.type = .kvTypeNone ↔ h.length = 0) ∧
        (sizeofVoidPtr < h.length ↔ sizeofVoidPtr < xprvGetValueLengthFromImpl lfs) ∧
        h.length ≤ max (xprvGetValueLengthFromImpl lfs) sizeofVoidPtr

/-- A clean pass of the start-up loop keeps the ownership. -/
theorem prvCacheInitEntry_ownership {s s' : KVStoreCache n} {i : Fin n} (hs : s.Ownership)
    (hz : s.entry i = .zero) (hload : LoadsCleanly ndebug kvstoreValMaxLen lfs)
    (h : prvCacheInitEntry ndebug kvstoreValMaxLen lfs s i = .ok s') :
    s'.Ownership ∧ ∀ j, j ≠ i → s'.entry j = s.entry j := by
  have hnot : ∀ a, ¬ s.Owns i a := by
    intro a hown
    have hlen := hown.1
    rw [hz] at hlen
    exact absurd hlen (Nat.not_lt_zero _)
  obtain ⟨nv, hread⟩ := prvLoadValue_of_ok h
  by_cases hpos : 0 < xprvGetValueLengthFromImpl lfs
  · have hread' := hread
    rw [prvLoadValue, if_pos hpos] at hread'
    obtain ⟨hdr, hres, htype, hside, hle⟩ := hload hpos nv hread'
    have hbuf := NvRead.length_of_result hread' hres
    have hfits : nv.Fits (xprvGetValueLengthFromImpl lfs) := by
      refine ⟨by omega, ?_⟩
      intro h' hres' hbig
      obtain rfl := Option.some.inj (hres.symm.trans hres')
      have hbig' := hside.mp hbig
      omega
    have heff := prvCacheInitEntry_effect hs.valid hz hread hfits h
    have hhdr : nv.header (xprvGetValueLengthFromImpl lfs) = hdr := by
      simp [NvRead.header, hres]
    have hlenEq : (s'.entry i).length = hdr.length := by rw [heff.length, hhdr]
    refine ⟨hs.replace heff.valid ?_ heff.entry_other ?_, heff.entry_other⟩
    · rw [heff.type, hlenEq, hhdr]
      exact htype
    · intro a ha
      obtain ⟨hbig, haddr⟩ | hold := heff.live a ha
      · left
        refine ⟨?_, haddr.symm⟩
        rw [hlenEq]
        exact hside.mpr hbig
      · exact .inr ⟨hold, hnot a⟩
  · have hzero : xprvGetValueLengthFromImpl lfs = 0 := by omega
    have hread' := hread
    rw [prvLoadValue, if_neg hpos] at hread'
    obtain rfl := Except.ok.inj hread'
    have heff := prvCacheInitEntry_effect hs.valid hz hread
      ⟨Nat.zero_le _, fun _ hres => by cases hres⟩ h
    refine ⟨hs.replace heff.valid ?_ heff.entry_other ?_, heff.entry_other⟩
    · rw [heff.type, heff.length, hzero]
      exact ⟨fun _ => rfl, fun _ => rfl⟩
    · intro a ha
      obtain ⟨hbig, -⟩ | hold := heff.live a ha
      · omega
      · exact .inr ⟨hold, hnot a⟩

theorem vprvCacheInit_ownership {lfs : Fin n → LfsReadAnswers}
    {answer : Nat → Nat × (Nat → UInt8)} {s : KVStoreCache n}
    (hload : ∀ i, LoadsCleanly ndebug kvstoreValMaxLen (lfs i))
    (h : vprvCacheInit ndebug kvstoreValMaxLen lfs (.zeroed answer) = .ok s) : s.Ownership := by
  -- the keys to come are still as in zeroed memory
  have hrule := foldlM_rule
    (P := fun todo (s : KVStoreCache n) =>
      s.Ownership ∧ todo.Nodup ∧ ∀ k ∈ todo, s.entry k = .zero)
    (by
      intro i todo s t hP hstep
      obtain ⟨hown, hnodup, hzero⟩ := hP
      obtain ⟨hi, hnodup⟩ := List.nodup_cons.mp hnodup
      obtain ⟨hown', hother⟩ := prvCacheInitEntry_ownership hown
        (hzero i List.mem_cons_self) (hload i) hstep
      refine ⟨hown', hnodup, ?_⟩
      intro k hk
      have hki : k ≠ i := fun heq => hi (heq ▸ hk)
      rw [hother k hki]
      exact hzero k (List.mem_cons_of_mem i hk))
    ⟨.zeroed answer, List.nodup_finRange n, fun _ _ => rfl⟩ h
  exact hrule.1

/-- A call of `xprvWriteCacheEntry`. -/
structure WriteEvent (n : Nat) where
  xKey : Fin n
  xNewType : KVStoreValueType
  pvNewValue : List UInt8

def WriteStep (ndebug : Bool) (s : KVStoreCache n) (e : WriteEvent n) (s' : KVStoreCache n) :
    Prop :=
  xprvWriteCacheEntry ndebug s e.xKey e.xNewType e.pvNewValue = .ok s'

/-- The write sets a real type and does not bring a value that has a block below the inline
limit; without assertions the caller must see to a length and the heap to a block. -/
structure WriteKeepsBlocks (ndebug : Bool) (s : KVStoreCache n) (e : WriteEvent n) : Prop where
  type : e.xNewType ≠ .kvTypeNone
  shrink : sizeofVoidPtr < (s.entry e.xKey).length → sizeofVoidPtr < e.pvNewValue.length
  unasserted : ndebug = true →
    0 < e.pvNewValue.length ∧ s.AllocationSucceeds e.xKey e.xNewType e.pvNewValue

theorem writeStep_ownership {s s' : KVStoreCache n} {e : WriteEvent n} (hs : s.Ownership)
    (hok : WriteKeepsBlocks ndebug s e) (h : WriteStep ndebug s e s') : s'.Ownership := by
  -- what the assertions, or the caller in their place, ensure
  have hpre : (ndebug = true ∨ e.xNewType.toNat < kvTypeLast) ∧ 0 < e.pvNewValue.length ∧
      s.AllocationSucceeds e.xKey e.xNewType e.pvNewValue := by
    cases hn : ndebug with
    | true =>
      obtain ⟨hlen, halloc⟩ := hok.unasserted hn
      exact ⟨.inl rfl, hlen, halloc⟩
    | false =>
      subst hn
      have halloc : s.AllocationSucceeds e.xKey e.xNewType e.pvNewValue := by
        by_contra hrefused
        rw [WriteStep, KVStoreCache.write_refused hs.valid hok.type hrefused] at h
        cases h
      simp only [WriteStep, xprvWriteCacheEntry, bind, Except.bind] at h
      split at h
      · cases h
      next h1 =>
      split at h
      · cases h
      next h2 =>
      have hlast := KVStoreCache.configASSERT_eq_ok h1
      have hlen := KVStoreCache.configASSERT_eq_ok h2
      exact ⟨.inr (by simpa using hlast), by simpa using hlen, halloc⟩
  obtain ⟨hlast, hlen, halloc⟩ := hpre
  obtain ⟨t, ht, heff⟩ := KVStoreCache.xprvWriteCacheEntry_spec ndebug hs.valid hok.type hlast
    (.inr hlen) halloc
  obtain rfl := Except.ok.inj (h.symm.trans ht)
  refine hs.replace heff.valid (k := e.xKey) ?_ heff.entry_other ?_
  · rw [heff.type, heff.length]
    exact ⟨fun hnone => absurd hnone hok.type, fun hzero => absurd hzero (by omega)⟩
  · intro a ha
    obtain ⟨hbig, haddr⟩ | ⟨hold, hnot⟩ := heff.live (fun hk => hok.shrink hk.2) a ha
    · left
      refine ⟨?_, haddr.symm⟩
      rw [heff.length]
      exact hbig
    · right
      refine ⟨hold, ?_⟩
      intro hown
      refine hnot ⟨?_, hown.1⟩ hown.2.symm
      intro hnone
      have hz := (hs.type_none e.xKey).mp hnone
      have hbig := hown.1
      omega

/-- In every state that start-up and writes lead to, the blocks are owned as they should be, and
the next write frees no dead block and touches no bytes outside a live one. -/
theorem cacheOwnership_run (ndebug : Bool) (kvstoreValMaxLen : Nat)
    (lfs : Fin n → LfsReadAnswers) (answer : Nat → Nat × (Nat → UInt8))
    (hload : ∀ i, LoadsCleanly ndebug kvstoreValMaxLen (lfs i)) {s0 s : KVStoreCache n}
    (h0 : vprvCacheInit ndebug kvstoreValMaxLen lfs (.zeroed answer) = .ok s0)
    {es : List (WriteEvent n)}
    (hrun : Run (Guarded (WriteKeepsBlocks ndebug) (WriteStep ndebug)) s0 es s) :
    s.Ownership ∧ ∀ e : WriteEvent n, WriteKeepsBlocks ndebug s e →
      xprvWriteCacheEntry ndebug s e.xKey e.xNewType e.pvNewValue ≠
        .error .undefinedBehaviour := by
  have hown := hrun.invariant (vprvCacheInit_ownership hload h0)
    (fun s e t hs hstep => writeStep_ownership hs hstep.1 hstep.2)
  refine ⟨hown, ?_⟩
  intro e he
  exact KVStoreCache.write_defined ndebug hown.valid he.type (fun hn => (he.unasserted hn).2)

/-- A store without files: start-up and the given writes, all of which return. -/
def startUpAndWrite (n : Nat) (es : List (WriteEvent n)) : Except Stop (KVStoreCache n) :=
  (vprvCacheInit false 64 (fun _ => .absent) (.zeroed exampleAnswer)).bind fun s =>
    es.foldlM (fun s e => xprvWriteCacheEntry false s e.xKey e.xNewType e.pvNewValue) s

theorem startUpAndWrite_run (ok : KVStoreCache n → WriteEvent n → Prop)
    (es : List (WriteEvent n)) (hok : ∀ e ∈ es, ∀ s, ok s e) {p : KVStoreCache n → Bool}
    (h : returns p (startUpAndWrite n es) = true) : ∃ s0 s,
      vprvCacheInit false 64 (fun _ => .absent) (.zeroed exampleAnswer) = .ok s0 ∧
        Run (Guarded ok (WriteStep false)) s0 es s ∧ p s = true := by
  obtain ⟨s, hs, hp⟩ := exists_of_returns h
  rw [startUpAndWrite] at hs
  cases h0 : vprvCacheInit false 64 (fun _ => .absent) (.zeroed exampleAnswer) with
  | error e =>
    rw [h0] at hs
    cases hs
  | ok s0 =>
    rw [h0] at hs
    exact ⟨s0, s, rfl, Run.ofFoldlM ok hok hs, hp⟩

theorem cacheOwnership_run_grown : ∃ s0 s : KVStoreCache 1,
    vprvCacheInit false 64 (fun _ => .absent) (.zeroed exampleAnswer) = .ok s0 ∧
    Run (WriteStep false) s0
      [⟨0, .kvTypeBlob, [1, 2, 3, 4, 5]⟩, ⟨0, .kvTypeBlob, [1, 2, 3, 4, 5, 6, 7]⟩] s ∧
    s.Ownership := by
  obtain ⟨s0, s, h0, hrun, -⟩ := startUpAndWrite_run (WriteKeepsBlocks false)
    [⟨(0 : Fin 1), .kvTypeBlob, [1, 2, 3, 4, 5]⟩, ⟨0, .kvTypeBlob, [1, 2, 3, 4, 5, 6, 7]⟩]
    (by
      intro e he s
      have hlong : e.xNewType = .kvTypeBlob ∧ sizeofVoidPtr < e.pvNewValue.length := by
        revert e
        decide
      exact ⟨by rw [hlong.1]; decide, fun _ => hlong.2, fun h => by cases h⟩)
    (p := fun _ => true) (by decide +kernel)
  have hown := cacheOwnership_run false 64 (fun _ => .absent) exampleAnswer
    (fun _ hpos => absurd hpos (by decide)) h0 hrun
  exact ⟨s0, s, h0, hrun.mono (fun _ _ _ h => h.2), hown.1⟩

/-- A blob of five bytes replaced by one of one byte: its block stays, and nobody owns it. -/
theorem not_cacheOwnership_shrunk : ∃ s0 s : KVStoreCache 1,
    vprvCacheInit false 64 (fun _ => .absent) (.zeroed exampleAnswer) = .ok s0 ∧
    Run (WriteStep false) s0
      [⟨0, .kvTypeBlob, [1, 2, 3, 4, 5]⟩, ⟨0, .kvTypeBlob, [6]⟩] s ∧
    ¬ s.Ownership := by
  obtain ⟨s0, s, h0, hrun, hp⟩ := startUpAndWrite_run (fun _ _ => True)
    [⟨(0 : Fin 1), .kvTypeBlob, [1, 2, 3, 4, 5]⟩, ⟨0, .kvTypeBlob, [6]⟩]
    (fun _ _ _ => trivial)
    (p := fun s => (s.heap.block 16).isSome && (s.entry 0).length == 1) (by decide +kernel)
  refine ⟨s0, s, h0, hrun.mono (fun _ _ _ h => h.2), ?_⟩
  intro hown
  simp only [Bool.and_eq_true, beq_iff_eq] at hp
  obtain ⟨k, hbig, -⟩ := hown.noLeak 16 hp.1
  obtain rfl : k = 0 := Subsingleton.elim _ _
  rw [hp.2] at hbig
  exact absurd hbig (by decide)

end RenesasDemo.KVStore
