import RenesasDemo.KVStore.CacheSpec
import RenesasDemo.Framework.Runs

namespace RenesasDemo.KVStore

open Framework

variable {n : Nat}

/-- Where a call of `xprvWriteCacheEntry` is; another task may run before each of these. -/
inductive SetStage where
  | clear
  | allocate
  | shrink
  | retype
  | compare
  | store
  deriving DecidableEq

def firstStage (s : KVStoreCache n) (xKey : Fin n) (xNewType : KVStoreValueType)
    (pvNewValue : List UInt8) : SetStage :=
  if (s.entry xKey).type = .kvTypeNone then .allocate
  else if (s.entry xKey).length ≠ pvNewValue.length then
    if (s.entry xKey).length < pvNewValue.length then .clear else .shrink
  else if (s.entry xKey).type ≠ xNewType then .retype
  else .compare

def KVStoreCache.noteChange (s : KVStoreCache n) (xKey : Fin n) : KVStoreCache n :=
  s.setEntry xKey { s.entry xKey with xChangePending := true }

/-- One stage, and the stage that comes next. -/
def setStage (ndebug : Bool) (s : KVStoreCache n) (xKey : Fin n) (xNewType : KVStoreValueType)
    (pvNewValue : List UInt8) : SetStage → Except Stop (KVStoreCache n × Option SetStage)
  | .clear => do
    let s ← vClearDataBuffer s xKey
    return (s, some .allocate)
  | .allocate => return (vAllocateDataBuffer s xKey pvNewValue.length, some .retype)
  | .shrink =>
    return (s.setEntry xKey { s.entry xKey with length := pvNewValue.length }, some .retype)
  | .retype => return (s.retype xKey xNewType, some .store)
  | .compare => do
    let pvReadPtr := pvGetDataReadPtr s xKey
    if pvReadPtr.isNull then return (s.noteChange xKey, some .store)
    let old ← s.readThrough xKey pvNewValue.length pvReadPtr
    return (if old ≠ pvNewValue then s.noteChange xKey else s, some .store)
  | .store => do
    let s ← prvStoreCacheEntry ndebug s xKey pvNewValue
    return (s, none)

/-- A call that no other task interrupts, from a stage on. -/
def runStages (ndebug : Bool) (xKey : Fin n) (xNewType : KVStoreValueType)
    (pvNewValue : List UInt8) :
    Nat → KVStoreCache n × Option SetStage → Except Stop (KVStoreCache n)
  | _, (s, none) => return s
  | 0, (s, some _) => return s
  | fuel + 1, (s, some stage) => do
    let r ← setStage ndebug s xKey xNewType pvNewValue stage
    runStages ndebug xKey xNewType pvNewValue fuel r

/-- The last stage gives its own result. -/
theorem runStages_store (ndebug : Bool) (s : KVStoreCache n) (k : Fin n) (t : KVStoreValueType)
    (v : List UInt8) (fuel : Nat) :
    runStages ndebug k t v (fuel + 1) (s, some .store) = prvStoreCacheEntry ndebug s k v := by
  simp only [runStages, setStage, bind, Except.bind]
  cases prvStoreCacheEntry ndebug s k v <;> cases fuel <;> rfl

theorem runStages_retype (ndebug : Bool) (s : KVStoreCache n) (k : Fin n) (t : KVStoreValueType)
    (v : List UInt8) (fuel : Nat) :
    runStages ndebug k t v (fuel + 2) (s, some .retype) =
      prvStoreCacheEntry ndebug (s.retype k t) k v :=
  runStages_store ndebug _ k t v fuel

/-- The stages of a call that is not interrupted are the call; there are at most four. -/
theorem runStages_eq (ndebug : Bool) (s : KVStoreCache n) (k : Fin n) {t : KVStoreValueType}
    {v : List UInt8} (hlast : t.toNat < kvTypeLast) (hv : 0 < v.length) :
    runStages ndebug k t v 4 (s, some (firstStage s k t v)) =
      xprvWriteCacheEntry ndebug s k t v := by
  rw [xprvWriteCacheEntry, KVStoreCache.configASSERT_ok (.inr (decide_eq_true hlast)),
    KVStoreCache.configASSERT_ok (.inr (decide_eq_true hv)), prvPrepareCacheEntry, firstStage]
  by_cases hnone : (s.entry k).type = .kvTypeNone
  · rw [if_pos hnone, if_pos hnone]
    exact runStages_retype ndebug _ k t v 1
  rw [if_neg hnone, if_neg hnone]
  by_cases hlen : (s.entry k).length ≠ v.length
  · rw [if_pos hlen, if_pos hlen, vReallocDataBuffer]
    by_cases hgrow : (s.entry k).length < v.length
    · rw [if_pos hgrow, if_pos hgrow]
      simp only [runStages, setStage, bind, Except.bind]
      cases vClearDataBuffer s k with
      | error e => rfl
      | ok u => exact runStages_retype ndebug _ k t v 0
    · rw [if_neg hgrow, if_neg hgrow]
      exact runStages_retype ndebug _ k t v 1
  rw [if_neg hlen, if_neg hlen]
  by_cases htype : (s.entry k).type ≠ t
  · rw [if_pos htype, if_pos htype]
    exact runStages_retype ndebug _ k t v 2
  rw [if_neg htype, if_neg htype]
  by_cases hnull : (pvGetDataReadPtr s k).isNull = true
  · have hstage : setStage ndebug s k t v .compare = .ok (s.noteChange k, some .store) := by
      simp only [setStage, if_pos hnull, pure, Except.pure]
    simp only [runStages, hstage, bind, Except.bind, if_pos hnull, pure, Except.pure]
    exact runStages_store ndebug _ k t v 2
  · simp only [runStages, setStage, bind, Except.bind, if_neg hnull]
    cases s.readThrough k v.length (pvGetDataReadPtr s k) with
    | error e => rfl
    | ok old =>
      refine (runStages_store ndebug _ k t v 2).trans ?_
      by_cases hold : old ≠ v
      · simp only [if_pos hold, pure, Except.pure]
        rfl
      · simp only [if_neg hold, pure, Except.pure]

namespace KVStoreCache

/-- Values that are too long for the union are in live blocks of their own, also while a call has
not yet given the entry its type. -/
structure Kept (s : KVStoreCache n) : Prop where
  owned : ∀ k, sizeofVoidPtr < (s.entry k).length →
    ∃ b, s.heap.block (s.address k) = some b ∧ (s.entry k).length ≤ b.length
  unshared : ∀ j k, sizeofVoidPtr < (s.entry j).length → sizeofVoidPtr < (s.entry k).length →
    s.address j = s.address k → j = k

/-- A step on `k` leaves the other keys their entries and their blocks. -/
structure OnlyChanges (s s' : KVStoreCache n) (k : Fin n) : Prop where
  entry : ∀ j, j ≠ k → s'.entry j = s.entry j
  block : ∀ j, j ≠ k → sizeofVoidPtr < (s.entry j).length →
    s'.heap.block (s.address j) = s.heap.block (s.address j)

variable {s s' : KVStoreCache n} {k : Fin n} {t : KVStoreValueType} {v : List UInt8}

theorem Kept.valid (hs : s.Kept) : s.Valid where
  backed k hk := hs.owned k hk.2
  unshared j k hj hk heq := hs.unshared j k hj.2 hk.2 heq

theorem kept_zeroed (answer : Nat → Nat × (Nat → UInt8)) :
    (KVStoreCache.zeroed answer : KVStoreCache n).Kept where
  owned _ hk := absurd hk (Nat.not_lt_zero _)
  unshared _ _ hj _ _ := absurd hj (Nat.not_lt_zero _)

namespace OnlyChanges

theorem contents (h : OnlyChanges s s' k) {j : Fin n} (hj : j ≠ k) :
    s'.contents j = s.contents j := by
  simp only [KVStoreCache.contents, h.entry j hj, address_congr (h.entry j hj)]
  by_cases hbig : sizeofVoidPtr < (s.entry j).length
  · rw [h.block j hj hbig]
  · rw [if_neg hbig, if_neg hbig]

/-- What has to be seen of `k` itself. -/
theorem kept (h : OnlyChanges s s' k) (hs : s.Kept)
    (hown : sizeofVoidPtr < (s'.entry k).length →
      (∃ b, s'.heap.block (s'.address k) = some b ∧ (s'.entry k).length ≤ b.length) ∧
        ∀ j, j ≠ k → sizeofVoidPtr < (s.entry j).length → s.address j ≠ s'.address k) :
    s'.Kept where
  owned j hj := by
    by_cases hjk : j = k
    · rw [hjk] at hj ⊢
      exact (hown hj).1
    · rw [h.entry j hjk] at hj ⊢
      rw [address_congr (h.entry j hjk), h.block j hjk hj]
      exact hs.owned j hj
  unshared i j hi hj heq := by
    by_cases hik : i = k <;> by_cases hjk : j = k
    · rw [hik, hjk]
    · rw [hik] at hi heq
      rw [h.entry j hjk] at hj
      rw [address_congr (h.entry j hjk)] at heq
      exact absurd heq.symm ((hown hi).2 j hjk hj)
    · rw [hjk] at hj heq
      rw [h.entry i hik] at hi
      rw [address_congr (h.entry i hik)] at heq
      exact absurd heq ((hown hj).2 i hik hi)
    · rw [h.entry i hik] at hi
      rw [h.entry j hjk] at hj
      rw [address_congr (h.entry i hik), address_congr (h.entry j hjk)] at heq
      exact hs.unshared i j hi hj heq

end OnlyChanges

/-- Only the entry changes, and a long value stays in its block. -/
theorem onlyChanges_setEntry (s : KVStoreCache n) (k : Fin n) (e : KVStoreCacheEntry) :
    OnlyChanges s (s.setEntry k e) k :=
  ⟨fun _ hj => setEntry_of_ne s e hj, fun _ _ _ => rfl⟩

theorem Kept.setEntry (hs : s.Kept) {e : KVStoreCacheEntry} (hlen : e.length ≤ (s.entry k).length)
    (hdata : e.data = (s.entry k).data) : (s.setEntry k e).Kept := by
  refine (onlyChanges_setEntry s k e).kept hs fun hbig => ?_
  rw [setEntry_self] at hbig ⊢
  have hold : sizeofVoidPtr < (s.entry k).length := Nat.lt_of_lt_of_le hbig hlen
  have haddr : (s.setEntry k e).address k = s.address k := by
    rw [address, setEntry_self, hdata, address]
  obtain ⟨b, hb, hle⟩ := hs.owned k hold
  rw [haddr]
  exact ⟨⟨b, hb, Nat.le_trans hlen hle⟩, fun j hj hbigj heq => hj (hs.unshared j k hbigj hold heq)⟩

theorem Kept.clear (hs : s.Kept) (k : Fin n) : ∃ s', vClearDataBuffer s k = .ok s' ∧ s'.Kept ∧
    OnlyChanges s s' k ∧
      (sizeofVoidPtr < (s.entry k).length → s'.heap.block (s.address k) = none) := by
  rw [vClearDataBuffer]
  by_cases hbig : sizeofVoidPtr < (s.entry k).length
  · obtain ⟨b, hb, -⟩ := hs.owned k hbig
    obtain ⟨heap, hfree, hblock⟩ := Heap.free_of_live hb
    have hnull : (s.entry k).data.pvData ≠ 0 := Heap.ne_zero_of_live hb
    have hfree' : s.heap.free (s.entry k).data.pvData = some heap := hfree
    have honly : OnlyChanges s
        { s.setEntry k { s.entry k with data := .ofWord 0, length := 0 } with heap } k := by
      refine ⟨fun j hj => setEntry_of_ne s _ hj, fun j hj hbigj => ?_⟩
      have hne : s.address j ≠ s.address k := fun heq => hj (hs.unshared j k hbigj hbig heq)
      change heap.block _ = _
      rw [hblock, Function.update_of_ne hne]
    refine ⟨_, ?_, honly.kept hs fun hlen => ?_, honly, fun _ => ?_⟩
    · simp only [if_pos hbig, vPortFree, if_neg hnull, hfree', definedOr, bind, Except.bind, pure,
        Except.pure]
    · simp [KVStoreCache.setEntry] at hlen
    · change heap.block _ = _
      rw [hblock, Function.update_self]
  · have honly := onlyChanges_setEntry s k { s.entry k with length := 0, data := .ofWord 0 }
    refine ⟨_, by rw [if_neg hbig]; rfl, honly.kept hs fun hlen => ?_, honly,
      fun h => absurd h hbig⟩
    rw [setEntry_self] at hlen
    exact absurd hlen (Nat.not_lt_zero _)

/-- The allocator serves the request that the stage makes, if it makes one. -/
def Served (s : KVStoreCache n) (len : Nat) : Prop :=
  sizeofVoidPtr < len → (pvPortMalloc s.heap len).1 ≠ 0

theorem Kept.allocate (hs : s.Kept) (k : Fin n) {len : Nat} (hserved : s.Served len) :
    (vAllocateDataBuffer s k len).Kept ∧ OnlyChanges s (vAllocateDataBuffer s k len) k ∧
      ((vAllocateDataBuffer s k len).entry k).length = len := by
  rw [vAllocateDataBuffer]
  by_cases hlen : sizeofVoidPtr < len
  · rw [if_pos hlen]
    obtain ⟨hz, -⟩ | ⟨a, b, ha, -, hlim, hne, hdead, hb, hblock⟩ := pvPortMalloc_cases s.heap len
    · exact absurd hz (hserved hlen)
    · have hlive : ∀ j, sizeofVoidPtr < (s.entry j).length → s.address j ≠ a := by
        intro j hj heq
        obtain ⟨bj, hbj, -⟩ := hs.owned j hj
        rw [heq, hdead] at hbj
        cases hbj
      have honly : OnlyChanges s { s.setEntry k { s.entry k with
          data := .ofWord (pvPortMalloc s.heap len).1, length := len } with
          heap := (pvPortMalloc s.heap len).2 } k := by
        refine ⟨fun j hj => setEntry_of_ne s _ hj, fun j hj hbigj => ?_⟩
        change (pvPortMalloc s.heap len).2.block _ = _
        rw [hblock, Function.update_of_ne (hlive j hbigj)]
      refine ⟨honly.kept hs fun _ => ?_, honly, ?_⟩
      · have haddr : (KVStoreCache.mk (s.setEntry k { s.entry k with
            data := .ofWord (pvPortMalloc s.heap len).1, length := len }).entry
            (pvPortMalloc s.heap len).2).address k = a := by
          simp only [address, KVStoreCache.setEntry, Function.update_self]
          rw [ha, DataUnion.pvData_ofWord hlim]
        refine ⟨⟨b, ?_, ?_⟩, fun j hj hbigj => ?_⟩
        · rw [haddr]
          change (pvPortMalloc s.heap len).2.block a = some b
          rw [hblock, Function.update_self]
        · simp only [KVStoreCache.setEntry, Function.update_self]
          exact hb.ge
        · rw [haddr]
          exact hlive j hbigj
      · simp only [KVStoreCache.setEntry, Function.update_self]
  · rw [if_neg hlen]
    have honly := onlyChanges_setEntry s k { s.entry k with data := .ofWord 0, length := len }
    refine ⟨honly.kept hs fun hbig => ?_, honly, by rw [setEntry_self]⟩
    rw [setEntry_self] at hbig
    exact absurd hbig hlen

theorem SameLayout.kept (h : SameLayout s s') (hs : s.Kept) : s'.Kept where
  owned k hk := by
    rw [h.length] at hk ⊢
    obtain ⟨b, hb, hle⟩ := hs.owned k hk
    obtain ⟨b', hb', hlen⟩ := h.block hb
    rw [h.address k hk]
    exact ⟨b', hb', by omega⟩
  unshared j k hj hk heq := by
    rw [h.length] at hj hk
    rw [h.address j hj, h.address k hk] at heq
    exact hs.unshared j k hj hk heq

/-- What a step on `k` leaves to the callers that are at other keys. -/
structure Elsewhere (s s' : KVStoreCache n) (k : Fin n) : Prop where
  entry : ∀ j, j ≠ k → s'.entry j = s.entry j
  contents : ∀ j, j ≠ k → (s.entry j).type ≠ .kvTypeNone → s'.contents j = s.contents j

theorem OnlyChanges.elsewhere (h : OnlyChanges s s' k) : Elsewhere s s' k :=
  ⟨h.entry, fun _ hj _ => h.contents hj⟩

/-- What a call relies on at a stage; no other task may change it. -/
def At (s : KVStoreCache n) (k : Fin n) (t : KVStoreValueType) (v : List UInt8) :
    SetStage → Prop
  | .clear | .allocate => True
  | .shrink => v.length ≤ (s.entry k).length
  | .retype => (s.entry k).length = v.length
  | .compare => (s.entry k).type = t ∧ (s.entry k).length = v.length
  | .store => (s.entry k).type = t ∧ (s.entry k).length = v.length ∧
      ((s.entry k).xChangePending = true ∨ s.contents k = v)

/-- A call is at a stage, or has stored its value. -/
def AtOrDone (s : KVStoreCache n) (k : Fin n) (t : KVStoreValueType) (v : List UInt8) :
    Option SetStage → Prop
  | some stage => s.At k t v stage
  | none => (s.entry k).type = t ∧ s.contents k = v

theorem at_firstStage (s : KVStoreCache n) (k : Fin n) (t : KVStoreValueType) (v : List UInt8) :
    s.At k t v (firstStage s k t v) := by
  rw [firstStage]
  split
  · trivial
  split
  · split
    · trivial
    · next hgrow => exact Nat.le_of_not_lt hgrow
  next hlen =>
  split
  · exact not_not.mp hlen
  · next htype => exact ⟨not_not.mp htype, not_not.mp hlen⟩

namespace Elsewhere

variable {j : Fin n}

theorem readPtr (h : Elsewhere s s' k) (hj : j ≠ k) :
    pvGetDataReadPtr s' j = pvGetDataReadPtr s j := by
  rw [pvGetDataReadPtr, pvGetDataReadPtr, h.entry j hj]

theorem atStage (h : Elsewhere s s' k) (hj : j ≠ k) (ht : t ≠ .kvTypeNone) {stage : SetStage}
    (hat : s.At j t v stage) : s'.At j t v stage := by
  cases stage with
  | store =>
    obtain ⟨htype, hlen, hp⟩ := hat
    rw [At, h.entry j hj, h.contents j hj (htype ▸ ht)]
    exact ⟨htype, hlen, hp⟩
  | clear => trivial
  | allocate => trivial
  | _ =>
    rw [At, h.entry j hj]
    exact hat

end Elsewhere

/-- A stage of a call on `k`. -/
theorem setStage_spec (ndebug : Bool) (hs : s.Kept) (ht : t ≠ .kvTypeNone) {stage : SetStage}
    (hat : s.At k t v stage) (hserved : stage = .allocate → s.Served v.length) :
    ∃ s' next, setStage ndebug s k t v stage = .ok (s', next) ∧ s'.Kept ∧ Elsewhere s s' k ∧
      s'.AtOrDone k t v next := by
  cases stage with
  | clear =>
    obtain ⟨s', hclear, hkept, honly, -⟩ := hs.clear k
    refine ⟨s', some .allocate, ?_, hkept, honly.elsewhere, trivial⟩
    simp only [setStage, hclear, bind, Except.bind, pure, Except.pure]
  | allocate =>
    obtain ⟨hkept, honly, hlen⟩ := hs.allocate k (hserved rfl)
    exact ⟨_, some .retype, rfl, hkept, honly.elsewhere, hlen⟩
  | shrink =>
    refine ⟨_, some .retype, rfl, hs.setEntry hat rfl, (onlyChanges_setEntry s k _).elsewhere, ?_⟩
    change ((s.setEntry k _).entry k).length = v.length
    rw [setEntry_self]
  | retype =>
    have hlen : (s.entry k).length = v.length := hat
    refine ⟨_, some .store, rfl, hs.setEntry (Nat.le_refl _) rfl,
      (onlyChanges_setEntry s k _).elsewhere, ?_⟩
    simp only [AtOrDone, At, retype, setEntry_self]
    exact ⟨trivial, hlen, .inl trivial⟩
  | compare =>
    obtain ⟨htype, hlen⟩ : (s.entry k).type = t ∧ (s.entry k).length = v.length := hat
    have hset : (s.entry k).type ≠ .kvTypeNone := htype ▸ ht
    obtain ⟨hnull, hread⟩ := hs.valid.readPtr hset
    have hall : (s.contents k).take v.length = s.contents k := by
      apply List.take_of_length_le
      rw [hs.valid.contents_length hset, hlen]
    have hread := hread v.length hlen.ge
    rw [hall] at hread
    by_cases heq : s.contents k = v
    · refine ⟨s, some .store, ?_, hs, ⟨fun _ _ => rfl, fun _ _ _ => rfl⟩, htype, hlen, .inr heq⟩
      simp [setStage, hnull, hread, heq, bind, Except.bind, pure, Except.pure]
    · refine ⟨s.noteChange k, some .store, ?_, hs.setEntry (Nat.le_refl _) rfl,
        (onlyChanges_setEntry s k _).elsewhere, ?_⟩
      · simp [setStage, hnull, hread, heq, bind, Except.bind, pure, Except.pure]
      · simp only [AtOrDone, At, noteChange, setEntry_self]
        exact ⟨htype, hlen, .inl trivial⟩
  | store =>
    obtain ⟨htype, hlen, hpending⟩ := hat
    by_cases hp : (s.entry k).xChangePending = true
    · obtain ⟨s', hstore, hlay, hcont, hentry, hother⟩ :=
        hs.valid.store ndebug (k := k) (v := v) (htype ▸ ht) hlen hp
      refine ⟨s', none, ?_, hlay.kept hs, ⟨hentry, hother⟩, (hlay.type k).trans htype, hcont⟩
      simp only [setStage, hstore, bind, Except.bind, pure, Except.pure]
    · refine ⟨s, none, ?_, hs, ⟨fun _ _ => rfl, fun _ _ _ => rfl⟩, htype,
        hpending.resolve_left hp⟩
      simp [setStage, prvStoreCacheEntry, hp, bind, Except.bind, pure, Except.pure]

end KVStoreCache

/-- A task is outside the store; in a setter, which takes no mutex; or in a getter, which holds the
mutex and has the pointer and the length that it will copy. -/
inductive TaskPc (n : Nat) where
  | idle
  | setting (xKey : Fin n) (xNewType : KVStoreValueType) (pvNewValue : List UInt8)
      (stage : SetStage)
  | getting (xKey : Fin n) (pvDataPtr : DataPtr) (xDataLen : Nat)
  deriving DecidableEq

namespace TaskPc

def key : TaskPc n → Option (Fin n)
  | idle => none
  | setting xKey _ _ _ => some xKey
  | getting xKey _ _ => some xKey

def setKey : TaskPc n → Option (Fin n)
  | setting xKey _ _ _ => some xKey
  | _ => none

def holdsMutex : TaskPc n → Bool
  | getting _ _ _ => true
  | _ => false

end TaskPc

/-- Tasks that share the store. -/
structure SharedStore (ι : Type) (n : Nat) where
  cache : KVStoreCache n
  pc : ι → TaskPc n
  /-- The value of the last setter of each key that returned. -/
  value : Fin n → Option (List UInt8)

/-- A setter or a getter of a task begins, or goes on. -/
inductive SharedEvent (ι : Type) (n : Nat) where
  | set (i : ι) (xKey : Fin n) (xNewType : KVStoreValueType) (pvNewValue : List UInt8)
  | stage (i : ι)
  | get (i : ι) (xKey : Fin n) (xBufferSize : Nat)
  | copy (i : ι)
  deriving DecidableEq

def KVStoreCache.value (s : KVStoreCache n) (k : Fin n) : Option (List UInt8) :=
  if (s.entry k).type = .kvTypeNone then none else some (s.contents k)

theorem KVStoreCache.Elsewhere.value {s s' : KVStoreCache n} {j k : Fin n}
    (h : Elsewhere s s' k) (hj : j ≠ k) : s'.value j = s.value j := by
  rw [KVStoreCache.value, KVStoreCache.value, h.entry j hj]
  split
  · rfl
  · next ht => rw [h.contents j hj ht]

namespace SharedStore

variable {ι : Type}

def start (cache : KVStoreCache n) : SharedStore ι n := ⟨cache, fun _ => .idle, cache.value⟩

section next

variable [DecidableEq ι]

def goTo (s : SharedStore ι n) (i : ι) (pc : TaskPc n) : SharedStore ι n :=
  { s with pc := Function.update s.pc i pc }

/-- A getter that finds no value takes the default, which is not in the cache. -/
def beginGet (s : SharedStore ι n) (i : ι) (xKey : Fin n) (xBufferSize : Nat) : SharedStore ι n :=
  let pvDataPtr := pvGetDataReadPtr s.cache xKey
  if pvDataPtr.isNull then s
  else s.goTo i (.getting xKey pvDataPtr (min xBufferSize (s.cache.entry xKey).length))

def afterStage (s : SharedStore ι n) (i : ι) (xKey : Fin n) (xNewType : KVStoreValueType)
    (pvNewValue : List UInt8) : KVStoreCache n × Option SetStage → SharedStore ι n
  | (cache, some stage) =>
      { s with cache }.goTo i (.setting xKey xNewType pvNewValue stage)
  | (cache, none) =>
      { s with cache, value := Function.update s.value xKey (some pvNewValue) }.goTo i .idle

def next (ndebug : Bool) (s : SharedStore ι n) : SharedEvent ι n → Except Stop (SharedStore ι n)
  | .set i xKey xNewType pvNewValue =>
    return s.goTo i (.setting xKey xNewType pvNewValue
      (firstStage s.cache xKey xNewType pvNewValue))
  | .stage i =>
    match s.pc i with
    | .setting xKey xNewType pvNewValue stage => do
      let r ← setStage ndebug s.cache xKey xNewType pvNewValue stage
      return s.afterStage i xKey xNewType pvNewValue r
    | _ => return s
  | .get i xKey xBufferSize => return s.beginGet i xKey xBufferSize
  | .copy i =>
    match s.pc i with
    | .getting xKey pvDataPtr xDataLen => do
      let _ ← s.cache.readThrough xKey xDataLen pvDataPtr
      return s.goTo i .idle
    | _ => return s

end next

/-- A getter waits for the mutex; a setter waits for nothing. -/
def Enabled (s : SharedStore ι n) : SharedEvent ι n → Prop
  | .set i _ xNewType pvNewValue => s.pc i = .idle ∧ xNewType ≠ .kvTypeNone ∧
      xNewType.toNat < kvTypeLast ∧ pvNewValue ≠ []
  | .stage i => (s.pc i).setKey ≠ none
  | .get i _ _ => s.pc i = .idle ∧ ∀ j, (s.pc j).holdsMutex = false
  | .copy i => (s.pc i).holdsMutex = true

def Step [DecidableEq ι] (ndebug : Bool) (s : SharedStore ι n) (e : SharedEvent ι n)
    (t : SharedStore ι n) : Prop :=
  s.Enabled e ∧ s.next ndebug e = .ok t

/-- No setter of a key runs while another call on the key does, and allocations succeed. -/
def Apart (s : SharedStore ι n) : SharedEvent ι n → Prop
  | .set _ xKey _ _ => ∀ j, (s.pc j).key ≠ some xKey
  | .stage i => ∀ xKey xNewType pvNewValue, s.pc i = .setting xKey xNewType pvNewValue .allocate →
      s.cache.Served pvNewValue.length
  | .get _ xKey _ => ∀ j, (s.pc j).setKey ≠ some xKey
  | .copy _ => True

/-- Calls on one key are apart, and each finds what it relies on. -/
structure Sound (s : SharedStore ι n) : Prop where
  kept : s.cache.Kept
  setting : ∀ i k t v stage, s.pc i = .setting k t v stage → t ≠ .kvTypeNone ∧
    s.cache.At k t v stage ∧ ∀ j, j ≠ i → (s.pc j).key ≠ some k
  getting : ∀ i k p len, s.pc i = .getting k p len → (s.cache.entry k).type ≠ .kvTypeNone ∧
    p = pvGetDataReadPtr s.cache k ∧ len ≤ (s.cache.entry k).length
  value : ∀ k, (∀ i, (s.pc i).setKey ≠ some k) → s.value k = s.cache.value k

theorem sound_start {cache : KVStoreCache n} (hc : cache.Kept) :
    (start cache : SharedStore ι n).Sound where
  kept := hc
  setting _ _ _ _ _ h := nomatch h
  getting _ _ _ _ h := nomatch h
  value _ _ := rfl

theorem setKey_eq {pc : TaskPc n} {k : Fin n} (h : pc.setKey = some k) :
    ∃ t v stage, pc = .setting k t v stage := by
  cases pc with
  | setting k' t v stage =>
    cases h
    exact ⟨t, v, stage, rfl⟩
  | idle => cases h
  | getting => cases h

theorem key_of_setKey {pc : TaskPc n} {k : Fin n} (hset : pc.setKey ≠ some k)
    (hmutex : pc.holdsMutex = false) : pc.key ≠ some k := by
  cases pc with
  | idle => exact nofun
  | setting => exact hset
  | getting => cases hmutex

section read

variable {s : SharedStore ι n}

/-- No setter is at a key at which a getter is. -/
theorem Sound.notSetting (h : s.Sound) {i : ι} {k : Fin n} {p : DataPtr} {len : Nat}
    (hi : s.pc i = .getting k p len) (j : ι) : (s.pc j).setKey ≠ some k := by
  intro hj
  obtain ⟨t, v, stage, hj⟩ := setKey_eq hj
  have hne : i ≠ j := by
    rintro rfl
    rw [hi] at hj
    cases hj
  refine (h.setting j k t v stage hj).2.2 i hne ?_
  rw [hi]
  rfl

/-- A getter copies the value that its key has. -/
theorem Sound.read (h : s.Sound) {i : ι} {k : Fin n} {p : DataPtr} {len : Nat}
    (hi : s.pc i = .getting k p len) :
    ∃ v, s.value k = some v ∧ s.cache.readThrough k len p = .ok (v.take len) := by
  obtain ⟨hset, rfl, hlen⟩ := h.getting i k p len hi
  refine ⟨s.cache.contents k, ?_, (h.kept.valid.readPtr hset).2 len hlen⟩
  rw [h.value k (h.notSetting hi), KVStoreCache.value, if_neg hset]

end read

variable [DecidableEq ι] {ndebug : Bool} {s : SharedStore ι n} {es : List (SharedEvent ι n)}

theorem goTo_self (s : SharedStore ι n) (i : ι) (pc : TaskPc n) : (s.goTo i pc).pc i = pc :=
  Function.update_self ..

theorem goTo_of_ne (s : SharedStore ι n) {i j : ι} (pc : TaskPc n) (hj : j ≠ i) :
    (s.goTo i pc).pc j = s.pc j := Function.update_of_ne hj ..

/-- A task moves at a key that no other task is at. -/
theorem Sound.move (h : s.Sound) {i : ι} {k : Fin n} (hothers : ∀ j, j ≠ i → (s.pc j).key ≠ some k)
    (hwas : ∀ k', k' ≠ k → (s.pc i).setKey ≠ some k') {cache : KVStoreCache n} {pc : TaskPc n}
    {value : Fin n → Option (List UInt8)} (hkept : cache.Kept)
    (helse : KVStoreCache.Elsewhere s.cache cache k) (hkey : ∀ k', pc.key = some k' → k' = k)
    (hset : ∀ t v stage, pc = .setting k t v stage → t ≠ .kvTypeNone ∧ cache.At k t v stage)
    (hget : ∀ p len, pc = .getting k p len → (cache.entry k).type ≠ .kvTypeNone ∧
      p = pvGetDataReadPtr cache k ∧ len ≤ (cache.entry k).length)
    (hvalue : pc.setKey ≠ some k → value k = cache.value k)
    (hrest : ∀ k', k' ≠ k → value k' = s.value k') :
    (goTo ⟨cache, s.pc, value⟩ i pc).Sound where
  kept := hkept
  setting j k' t v stage hj := by
    by_cases hji : j = i
    · rw [hji, goTo_self] at hj
      obtain rfl : k' = k := hkey k' (by rw [hj]; rfl)
      obtain ⟨ht, hat⟩ := hset t v stage hj
      refine ⟨ht, hat, fun j' hj' => ?_⟩
      rw [goTo_of_ne _ _ (hji ▸ hj')]
      exact hothers j' (hji ▸ hj')
    · rw [goTo_of_ne _ _ hji] at hj
      have hne : k' ≠ k := by
        rintro rfl
        exact hothers j hji (by rw [hj]; rfl)
      obtain ⟨ht, hat, hapart⟩ := h.setting j k' t v stage hj
      refine ⟨ht, helse.atStage hne ht hat, fun j' hj' => ?_⟩
      by_cases hji' : j' = i
      · rw [hji', goTo_self]
        exact fun heq => hne (hkey k' heq)
      · rw [goTo_of_ne _ _ hji']
        exact hapart j' hj'
  getting j k' p len hj := by
    by_cases hji : j = i
    · rw [hji, goTo_self] at hj
      obtain rfl : k' = k := hkey k' (by rw [hj]; rfl)
      exact hget p len hj
    · rw [goTo_of_ne _ _ hji] at hj
      have hne : k' ≠ k := by
        rintro rfl
        exact hothers j hji (by rw [hj]; rfl)
      obtain ⟨ht, hp, hlen⟩ := h.getting j k' p len hj
      change (cache.entry k').type ≠ _ ∧ p = pvGetDataReadPtr cache k' ∧
        len ≤ (cache.entry k').length
      rw [helse.entry k' hne, helse.readPtr hne]
      exact ⟨ht, hp, hlen⟩
  value k' hk' := by
    by_cases hkk : k' = k
    · subst hkk
      refine hvalue ?_
      rw [← goTo_self ⟨cache, s.pc, value⟩ i pc]
      exact hk' i
    · have hold : ∀ j, (s.pc j).setKey ≠ some k' := by
        intro j
        by_cases hji : j = i
        · rw [hji]
          exact hwas k' hkk
        · have hnew := hk' j
          rwa [goTo_of_ne _ _ hji] at hnew
      exact (hrest k' hkk).trans ((h.value k' hold).trans (helse.value hkk).symm)

theorem elsewhere_self (s : KVStoreCache n) (k : Fin n) : KVStoreCache.Elsewhere s s k :=
  ⟨fun _ _ => rfl, fun _ _ _ => rfl⟩

theorem Sound.set (h : s.Sound) {i : ι} (hidle : s.pc i = .idle) {k : Fin n}
    {t : KVStoreValueType} {v : List UInt8} (ht : t ≠ .kvTypeNone)
    (hapart : ∀ j, (s.pc j).key ≠ some k) :
    (s.goTo i (.setting k t v (firstStage s.cache k t v))).Sound := by
  refine h.move (fun j _ => hapart j) (by rw [hidle]; exact nofun) h.kept (elsewhere_self s.cache k)
    ?_ ?_ (fun _ _ hpc => nomatch hpc) (fun hset => absurd rfl hset) fun _ _ => rfl
  · intro k' hk'
    exact (Option.some.inj hk').symm
  · intro t' v' stage hpc
    cases hpc
    exact ⟨ht, KVStoreCache.at_firstStage _ _ _ _⟩

theorem Sound.get (h : s.Sound) {i : ι} (hidle : s.pc i = .idle)
    (hmutex : ∀ j, (s.pc j).holdsMutex = false) {k : Fin n}
    (hapart : ∀ j, (s.pc j).setKey ≠ some k) (xBufferSize : Nat) :
    (s.beginGet i k xBufferSize).Sound := by
  rw [beginGet]
  split
  · exact h
  next hnull =>
  have hset : (s.cache.entry k).type ≠ .kvTypeNone := by
    intro hnone
    rw [pvGetDataReadPtr, if_pos hnone] at hnull
    exact hnull rfl
  refine h.move (fun j _ => key_of_setKey (hapart j) (hmutex j)) ?_ h.kept
    (elsewhere_self s.cache k) ?_ ?_ ?_ (fun _ => h.value k hapart) fun _ _ => rfl
  · intro k' hk' hkey
    rw [hidle] at hkey
    cases hkey
  · intro k' hk'
    exact (Option.some.inj hk').symm
  · intro t v stage hpc
    cases hpc
  · intro p len hpc
    cases hpc
    exact ⟨hset, rfl, Nat.min_le_right _ _⟩

/-- A stage that has what it relies on is defined, and leaves the others what they rely on. -/
theorem Sound.stage (h : s.Sound) {i : ι} {k : Fin n} {t : KVStoreValueType} {v : List UInt8}
    {stage : SetStage} (hi : s.pc i = .setting k t v stage)
    (hserved : stage = .allocate → s.cache.Served v.length) :
    ∃ u, s.next ndebug (.stage i) = .ok u ∧ u.Sound := by
  obtain ⟨ht, hat, hothers⟩ := h.setting i k t v stage hi
  obtain ⟨cache, after, hstage, hkept, helse, hafter⟩ :=
    KVStoreCache.setStage_spec ndebug h.kept ht hat hserved
  refine ⟨s.afterStage i k t v (cache, after), ?_, ?_⟩
  · simp only [next, hi, hstage, bind, Except.bind, pure, Except.pure]
  have hwas : ∀ k', k' ≠ k → (s.pc i).setKey ≠ some k' := by
    intro k' hk' heq
    rw [hi] at heq
    exact hk' (Option.some.inj heq).symm
  cases after with
  | some stage' =>
    refine h.move hothers hwas hkept helse ?_ ?_ (fun _ _ hpc => nomatch hpc)
      (fun hset => absurd rfl hset) fun _ _ => rfl
    · intro k' hk'
      exact (Option.some.inj hk').symm
    · intro t' v' stage'' hpc
      cases hpc
      exact ⟨ht, hafter⟩
  | none =>
    obtain ⟨htype, hcontents⟩ : (cache.entry k).type = t ∧ cache.contents k = v := hafter
    refine h.move hothers hwas hkept helse (fun _ hk' => nomatch hk') (fun _ _ _ hpc => nomatch hpc)
      (fun _ _ hpc => nomatch hpc) (fun _ => ?_) fun k' hk' => Function.update_of_ne hk' ..
    rw [Function.update_self, KVStoreCache.value, htype, if_neg ht, hcontents]

theorem Sound.leave (h : s.Sound) {i : ι} (hset : (s.pc i).setKey = none) :
    (s.goTo i .idle).Sound where
  kept := h.kept
  setting j k' t' v' stage hj := by
    by_cases hji : j = i
    · rw [hji, goTo_self] at hj
      cases hj
    · rw [goTo_of_ne s _ hji] at hj
      obtain ⟨ht', hat, hothers⟩ := h.setting j k' t' v' stage hj
      refine ⟨ht', hat, fun j' hj' => ?_⟩
      by_cases hji' : j' = i
      · rw [hji', goTo_self]
        exact nofun
      · rw [goTo_of_ne s _ hji']
        exact hothers j' hj'
  getting j k' p len hj := by
    by_cases hji : j = i
    · rw [hji, goTo_self] at hj
      cases hj
    · rw [goTo_of_ne s _ hji] at hj
      exact h.getting j k' p len hj
  value k' hk' := by
    refine h.value k' fun j => ?_
    by_cases hji : j = i
    · rw [hji, hset]
      exact nofun
    · rw [← goTo_of_ne s _ hji]
      exact hk' j

theorem Sound.next (h : s.Sound) {e : SharedEvent ι n} (he : s.Enabled e) (hapart : s.Apart e) :
    ∃ u, s.next ndebug e = .ok u ∧ u.Sound := by
  cases e with
  | set i k t v =>
    obtain ⟨hidle, ht, -, -⟩ := he
    exact ⟨_, rfl, h.set hidle ht hapart⟩
  | stage i =>
    obtain ⟨k, hk⟩ := Option.ne_none_iff_exists'.mp he
    obtain ⟨t, v, stage, hi⟩ := setKey_eq hk
    exact h.stage hi fun hstage => hapart k t v (hstage ▸ hi)
  | get i k xBufferSize => exact ⟨_, rfl, h.get he.1 he.2 hapart xBufferSize⟩
  | copy i =>
    cases hi : s.pc i with
    | idle => simp [Enabled, hi, TaskPc.holdsMutex] at he
    | setting => simp [Enabled, hi, TaskPc.holdsMutex] at he
    | getting k p len =>
      obtain ⟨v, -, hread⟩ := h.read hi
      refine ⟨s.goTo i .idle, ?_, h.leave (by rw [hi]; rfl)⟩
      simp only [SharedStore.next, hi, hread, bind, Except.bind, pure, Except.pure]

/-- A setter that makes room for a longer value has freed the block that a getter is to copy from,
mutex or no mutex. -/
theorem Sound.freed (h : s.Sound) {i j : ι} (hij : j ≠ i) {k : Fin n} {a len : Nat}
    (hi : s.pc i = .getting k (.block a) len) {t : KVStoreValueType} {v : List UInt8}
    (hlong : (s.cache.entry k).length < v.length) :
    ∃ u, (s.goTo j (.setting k t v (firstStage s.cache k t v))).next ndebug (.stage j) = .ok u ∧
      u.next ndebug (.copy i) = .error .undefinedBehaviour := by
  obtain ⟨hset, hptr, hlen⟩ := h.getting i k _ len hi
  have hfirst : firstStage s.cache k t v = .clear := by
    rw [firstStage, if_neg hset, if_pos (Nat.ne_of_lt hlong), if_pos hlong]
  have hblock : sizeofVoidPtr < (s.cache.entry k).length ∧ s.cache.address k = a := by
    rw [pvGetDataReadPtr, if_neg hset] at hptr
    split at hptr
    · next hbig => exact ⟨hbig, (DataPtr.block.inj hptr).symm⟩
    · cases hptr
  obtain ⟨cache, hclear, -, -, hfreed⟩ := h.kept.clear k
  have hgone : cache.heap.block a = none := hblock.2 ▸ hfreed hblock.1
  rw [hfirst]
  refine ⟨SharedStore.goTo ⟨cache, (s.goTo j (.setting k t v .clear)).pc, s.value⟩ j
    (.setting k t v .allocate), ?_, ?_⟩
  · simp only [SharedStore.next, setStage, goTo, hclear, bind, Except.bind, pure,
      Except.pure, afterStage, Function.update_self]
  · have hi' : (SharedStore.goTo ⟨cache, (s.goTo j (.setting k t v .clear)).pc, s.value⟩ j
        (.setting k t v .allocate)).pc i = .getting k (.block a) len := by
      rw [goTo_of_ne _ _ hij.symm]
      exact (goTo_of_ne s _ hij.symm).trans hi
    simp only [SharedStore.next, hi']
    simp only [goTo, KVStoreCache.readThrough, Heap.load, hgone, Option.bind_none, definedOr, bind,
      Except.bind]

/-- In every interleaving of setters and getters in which a setter has its key to itself, no step is
undefined, and a getter copies the value of the last setter of its key. The mutex, which setters do
not take, does not see to that: one that makes room for a longer value while a getter is about to
copy frees the block under it. -/
theorem store_run {cache : KVStoreCache n} (hc : cache.Kept)
    (h : Run (Guarded Apart (Step ndebug)) (start cache : SharedStore ι n) es s) :
    (∀ e, s.Enabled e → s.Apart e → ∃ u, s.next ndebug e = .ok u) ∧
    (∀ i k p len, s.pc i = .getting k p len →
      ∃ v, s.value k = some v ∧ s.cache.readThrough k len p = .ok (v.take len)) ∧
    ∀ i j k a len t v, s.pc i = .getting k (.block a) len → s.Enabled (.set j k t v) →
      (s.cache.entry k).length < v.length → ∃ u w, s.next ndebug (.set j k t v) = .ok u ∧
        u.next ndebug (.stage j) = .ok w ∧
        w.next ndebug (.copy i) = .error .undefinedBehaviour := by
  have hs : s.Sound := by
    refine h.invariant (P := Sound) (sound_start hc) ?_
    rintro u e w hu ⟨hapart, he, hnext⟩
    have hgoes : ∃ t, u.next ndebug e = .ok t ∧ t.Sound := hu.next he hapart
    obtain ⟨w', hw', hsound⟩ := hgoes
    obtain rfl : w' = w := Except.ok.inj (hw'.symm.trans hnext)
    exact hsound
  refine ⟨fun e he hapart => ?_, fun i k p len hi => hs.read hi, ?_⟩
  · have hgoes : ∃ u, s.next ndebug e = .ok u ∧ u.Sound := hs.next he hapart
    obtain ⟨u, hu, -⟩ := hgoes
    exact ⟨u, hu⟩
  · intro i j k a len t v hi he hlong
    have hij : j ≠ i := by
      rintro rfl
      rw [he.1] at hi
      cases hi
    exact ⟨_, (hs.freed hij hi hlong).imp fun w hw => ⟨rfl, hw⟩⟩

theorem store_run_freed : ∃ s u w : SharedStore Bool 1, s.pc false = .getting 0 (.block 16) 5 ∧
    s.next false (.set true 0 .kvTypeString [1, 2, 3, 4, 5, 0]) = .ok u ∧
      u.next false (.stage true) = .ok w ∧
        w.next false (.copy false) = .error .undefinedBehaviour := by
  have hset (s : SharedStore Bool 1) (hs : s.pc = fun _ => .idle) : Guarded Apart (Step false) s
      (.set false 0 .kvTypeString [1, 2, 3, 4, 0]) _ :=
    ⟨by simp [Apart, hs, TaskPc.key], ⟨by rw [hs], by decide, by decide, by decide⟩, rfl⟩
  have hrun : ∃ s : SharedStore Bool 1, Run (Guarded Apart (Step false))
      (start (.zeroed fun i => (16 * (i + 1), fun _ => 0))) [.set false 0 .kvTypeString
        [1, 2, 3, 4, 0], .stage false, .stage false, .stage false, .get false 0 64] s ∧
      s.pc false = .getting 0 (.block 16) 5 ∧ s.pc true = .idle ∧ (s.cache.entry 0).length = 5 := by
    refine ⟨_, .cons (hset _ rfl) (.cons ⟨?_, ?_, rfl⟩ (.cons ⟨?_, ?_, rfl⟩ (.cons ⟨?_, ?_, rfl⟩
      (.single ⟨?_, ?_, rfl⟩)))), ?_, ?_, ?_⟩
    · intro k t v hi
      cases hi
      exact fun _ => by decide
    · exact nofun
    · intro k t v hi
      cases hi
    · exact nofun
    · intro k t v hi
      cases hi
    · exact nofun
    · intro j
      cases j <;> exact nofun
    · refine ⟨rfl, fun j => ?_⟩
      cases j <;> rfl
    · rfl
    · rfl
    · rfl
  obtain ⟨s, hrun, hi, hj, hlen⟩ := hrun
  have hfreed := (store_run (KVStoreCache.kept_zeroed _) hrun).2.2 false true 0 16 5 .kvTypeString
    [1, 2, 3, 4, 5, 0] hi ⟨hj, by decide, by decide, by decide⟩ (by rw [hlen]; decide)
  obtain ⟨u, w, h⟩ := hfreed
  exact ⟨s, u, w, hi, h⟩

end SharedStore

end RenesasDemo.KVStore
