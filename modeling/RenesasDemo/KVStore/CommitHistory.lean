import RenesasDemo.KVStore.Persistence

namespace RenesasDemo.KVStore

open Framework

variable {n : Nat}

/-- The calls of `xprvWriteValueToImpl`, each with its key and its result. -/
abbrev WriteLog (n : Nat) := List (Fin n × Bool)

def prvCommitEntryLogged (cfg : KVStoreConfig n) (s : KVStoreCache n)
    (lfs : Fin n → LfsWriteAnswers) (acc : (Bool × LfsFiles) × WriteLog n) (i : Fin n) :
    Except Stop ((Bool × LfsFiles) × WriteLog n) :=
  if (s.entry i).xChangePending then do
    let pvData ← prvEntryData s i
    let (ok, files) := xprvWriteValueToImpl (pcFileName cfg i) (s.entry i).type
      (s.entry i).length pvData (lfs i) acc.1.2
    return ((acc.1.1 && ok, files), acc.2 ++ [(i, ok)])
  else return acc

def kvStoreCommitLogged (cfg : KVStoreConfig n) (s : KVStoreCache n)
    (lfs : Fin n → LfsWriteAnswers) (files : LfsFiles) :
    Except Stop ((Bool × LfsFiles) × WriteLog n) :=
  (List.finRange n).foldlM (prvCommitEntryLogged cfg s lfs) ((true, files), [])

namespace KVStoreCache

def Differs (s : KVStoreCache n) (k : Fin n) (t : KVStoreValueType) (v : List UInt8) : Prop :=
  (s.entry k).type ≠ t ∨ (s.entry k).length ≠ v.length ∨ s.contents k ≠ v

instance (s : KVStoreCache n) (k : Fin n) (t : KVStoreValueType) (v : List UInt8) :
    Decidable (s.Differs k t v) := inferInstanceAs (Decidable (_ ∨ _ ∨ _))

end KVStoreCache

/-- The store, and for each key what its history says about it. -/
structure HistoryState (n : Nat) where
  cache : KVStoreCache n
  files : LfsFiles
  /-- A set has changed the value since start-up. -/
  changed : Fin n → Bool
  /-- A set has changed the value since it was last written with success, or since start-up. -/
  unsaved : Fin n → Bool

namespace HistoryState

def start (cache : KVStoreCache n) (files : LfsFiles) : HistoryState n :=
  ⟨cache, files, fun _ => false, fun _ => false⟩

/-- The marks after a set: the key is marked if the value is another one. -/
def mark (cfg : KVStoreConfig n) (s : KVStoreCache n) (call : SetCall) (marks : Fin n → Bool) :
    Fin n → Bool :=
  match call.target cfg with
  | some (k, v) => Function.update marks k (marks k || decide (s.Differs k v.type v.bytes))
  | none => marks

def next (cfg : KVStoreConfig n) (d : HistoryState n) :
    StoreEvent n → Except Stop (HistoryState n × WriteLog n)
  | .set call => (call.run cfg d.cache).map fun r =>
      (⟨r.2, d.files, mark cfg d.cache call d.changed, mark cfg d.cache call d.unsaved⟩, [])
  | .commit lfs => (kvStoreCommitLogged cfg d.cache lfs d.files).map fun r =>
      (⟨d.cache, r.1.2, d.changed, fun k => d.unsaved k && !r.2.contains (k, true)⟩, r.2)

def Step (cfg : KVStoreConfig n) (d : HistoryState n) (e : StoreEvent n)
    (d' : HistoryState n) : Prop := (d.next cfg e).map Prod.fst = .ok d'

end HistoryState

section log

variable {cfg : KVStoreConfig n} {s : KVStoreCache n} {lfs : Fin n → LfsWriteAnswers}

theorem kvStoreCommitLogged_erase (cfg : KVStoreConfig n) (s : KVStoreCache n)
    (lfs : Fin n → LfsWriteAnswers) (files : LfsFiles) :
    (kvStoreCommitLogged cfg s lfs files).map Prod.fst = kvStoreCommitChanges cfg s lfs files := by
  have hloop : ∀ (todo : List (Fin n)) (acc : (Bool × LfsFiles) × WriteLog n),
      (todo.foldlM (prvCommitEntryLogged cfg s lfs) acc).map Prod.fst =
        todo.foldlM (prvCommitEntry cfg s lfs) acc.1 := by
    intro todo
    induction todo with
    | nil => exact fun _ => rfl
    | cons i todo ih =>
      intro acc
      rw [List.foldlM_cons, List.foldlM_cons, prvCommitEntryLogged, prvCommitEntry]
      by_cases hp : (s.entry i).xChangePending = true
      · rw [if_pos hp, if_pos hp]
        cases hdata : prvEntryData s i with
        | error e => rfl
        | ok pvData => exact ih _
      · rw [if_neg hp, if_neg hp]
        exact ih acc
  exact hloop _ _

/-- A commit writes the keys with a pending change, in order and each once. -/
theorem kvStoreCommitLogged_keys {files : LfsFiles} {r : Bool × LfsFiles} {log : WriteLog n}
    (h : kvStoreCommitLogged cfg s lfs files = .ok (r, log)) :
    log.map Prod.fst = (List.finRange n).filter fun k => (s.entry k).xChangePending := by
  have hrule := foldlM_rule (f := prvCommitEntryLogged cfg s lfs)
    (P := fun todo acc => acc.2.map Prod.fst ++ todo.filter (fun k => (s.entry k).xChangePending) =
      (List.finRange n).filter fun k => (s.entry k).xChangePending)
    (by
      intro i todo acc acc' hP hstep
      rw [prvCommitEntryLogged] at hstep
      rw [← hP]
      by_cases hp : (s.entry i).xChangePending = true
      · rw [if_pos hp] at hstep
        cases hdata : prvEntryData s i with
        | error e =>
          rw [hdata] at hstep
          cases hstep
        | ok pvData =>
          have hcons : (i :: todo).filter (fun k => (s.entry k).xChangePending) =
              i :: todo.filter fun k => (s.entry k).xChangePending := List.filter_cons_of_pos hp
          rw [hdata] at hstep
          rw [← Except.ok.inj hstep, hcons]
          simp only [List.map_append, List.map_cons, List.map_nil, List.append_assoc,
            List.singleton_append]
      · have hskip : (i :: todo).filter (fun k => (s.entry k).xChangePending) =
            todo.filter fun k => (s.entry k).xChangePending := List.filter_cons_of_neg hp
        rw [if_neg hp] at hstep
        rw [← Except.ok.inj hstep, hskip])
    rfl h
  simpa using hrule

end log

section pending

variable {s s' : KVStoreCache n} {k : Fin n} {t : KVStoreValueType} {v : List UInt8}
  {ndebug : Bool}

/-- The other entries and the flag of `k` are as before. -/
structure KVStoreCache.SameFlags (s s' : KVStoreCache n) (k : Fin n) : Prop where
  other : ∀ j, j ≠ k → s'.entry j = s.entry j
  flag : (s'.entry k).xChangePending = (s.entry k).xChangePending

theorem KVStoreCache.sameFlags_update (s : KVStoreCache n) (k : Fin n) (e : KVStoreCacheEntry)
    (heap : Heap UInt8) (he : e.xChangePending = (s.entry k).xChangePending) :
    s.SameFlags ⟨Function.update s.entry k e, heap⟩ k where
  other j hj := Function.update_of_ne hj ..
  flag := by
    change (Function.update s.entry k e k).xChangePending = _
    rw [Function.update_self, he]

theorem KVStoreCache.SameFlags.trans {s'' : KVStoreCache n} (h : s.SameFlags s' k)
    (h' : s'.SameFlags s'' k) : s.SameFlags s'' k :=
  ⟨fun j hj => (h'.other j hj).trans (h.other j hj), h'.flag.trans h.flag⟩

theorem vAllocateDataBuffer_flags (s : KVStoreCache n) (k : Fin n) (len : Nat) :
    s.SameFlags (vAllocateDataBuffer s k len) k := by
  rw [vAllocateDataBuffer]
  split
  · exact s.sameFlags_update k _ _ rfl
  · exact s.sameFlags_update k _ _ rfl

theorem vReallocDataBuffer_flags {len : Nat} (h : vReallocDataBuffer s k len = .ok s') :
    s.SameFlags s' k := by
  rw [vReallocDataBuffer, vClearDataBuffer] at h
  split at h
  · split at h
    · cases hfree : vPortFree s.heap (s.entry k).data.pvData with
      | error e =>
        rw [hfree] at h
        cases h
      | ok heap =>
        rw [hfree] at h
        rw [← Except.ok.inj h]
        have hsame := s.sameFlags_update k
          { s.entry k with data := .ofWord 0, length := 0 } heap rfl
        exact hsame.trans (vAllocateDataBuffer_flags _ k len)
    · rw [← Except.ok.inj h]
      have hsame := s.sameFlags_update k
        { s.entry k with data := .ofWord 0, length := 0 } s.heap rfl
      exact hsame.trans (vAllocateDataBuffer_flags _ k len)
  · rw [← Except.ok.inj h]
    exact s.sameFlags_update k _ s.heap rfl

theorem writeThrough_flags {ptr : DataPtr} (h : s.writeThrough k v ptr = .ok s') :
    s.SameFlags s' k := by
  have hrefl : s.SameFlags s k := ⟨fun _ _ => rfl, rfl⟩
  cases ptr with
  | inline =>
    rw [KVStoreCache.writeThrough] at h
    split at h
    · rw [← Except.ok.inj h]
      exact s.sameFlags_update k _ s.heap rfl
    · cases h
  | block address =>
    rw [KVStoreCache.writeThrough] at h
    split at h
    · rwa [← Except.ok.inj h]
    · cases hstore : s.heap.store address v with
      | none =>
        rw [hstore] at h
        cases h
      | some heap =>
        rw [hstore] at h
        rw [← Except.ok.inj h]
        exact ⟨fun _ _ => rfl, rfl⟩

theorem prvStoreCacheEntry_flags (h : prvStoreCacheEntry ndebug s k v = .ok s') :
    s.SameFlags s' k := by
  have hrefl : s.SameFlags s k := ⟨fun _ _ => rfl, rfl⟩
  rw [prvStoreCacheEntry] at h
  split at h
  · cases hptr : pvGetDataWritePtr ndebug s k with
    | error e =>
      rw [hptr] at h
      cases h
    | ok ptr =>
      rw [hptr] at h
      simp only [bind, Except.bind] at h
      split at h
      · rwa [← Except.ok.inj h]
      · exact writeThrough_flags h
  · rwa [← Except.ok.inj h]

/-- A read of the whole entry gives the bytes it holds, whatever state its pointer is in. -/
theorem readThrough_contents {old : List UInt8} (ht : (s.entry k).type ≠ .kvTypeNone)
    (h : s.readThrough k (s.entry k).length (pvGetDataReadPtr s k) = .ok old) :
    s.contents k = old := by
  rw [pvGetDataReadPtr, if_neg ht] at h
  rw [KVStoreCache.contents]
  by_cases hlen : sizeofVoidPtr < (s.entry k).length
  · rw [if_pos hlen] at h ⊢
    rw [KVStoreCache.readThrough, Heap.load] at h
    cases hb : s.heap.block (s.entry k).data.pvData with
    | none =>
      rw [hb] at h
      cases h
    | some b =>
      rw [hb, Option.bind_some] at h
      rw [KVStoreCache.address, hb, Option.getD_some]
      split at h
      · exact Except.ok.inj h
      · cases h
  · rw [if_neg hlen] at h ⊢
    rw [KVStoreCache.readThrough, if_pos (Nat.le_of_not_lt hlen)] at h
    exact Except.ok.inj h

/-- Nothing is held behind a NULL pointer. -/
theorem contents_of_null (hn : (s.entry k).type ≠ .kvTypeNone)
    (hnull : (pvGetDataReadPtr s k).isNull = true) : s.contents k = [] := by
  rw [pvGetDataReadPtr, if_neg hn] at hnull
  rw [KVStoreCache.contents]
  split at hnull
  · next hbig =>
    have hzero : s.address k = 0 := beq_iff_eq.mp hnull
    rw [if_pos hbig, hzero, s.heap.null]
    exact List.take_nil
  · cases hnull

/-- An entry that differs is marked, after steps that leave the marks alone. -/
theorem KVStoreCache.SameFlags.marked {u : KVStoreCache n} {e : KVStoreCacheEntry}
    (hu : s.SameFlags u k) (he : e.xChangePending = true) (hd : s.Differs k t v) :
    (∀ j, j ≠ k → (u.setEntry k e).entry j = s.entry j) ∧
      ((u.setEntry k e).entry k).xChangePending =
        ((s.entry k).xChangePending || decide (s.Differs k t v)) := by
  refine ⟨fun j hj => (u.setEntry_of_ne e hj).trans (hu.other j hj), ?_⟩
  rw [KVStoreCache.setEntry_self, he, decide_eq_true hd, Bool.or_true]

/-- The first half of a write marks the entry when type, length or bytes are to change. -/
theorem prvPrepareCacheEntry_flags (ht : t ≠ .kvTypeNone) (hv : v ≠ [])
    (h : prvPrepareCacheEntry s k t v = .ok s') :
    (∀ j, j ≠ k → s'.entry j = s.entry j) ∧ (s'.entry k).xChangePending =
      ((s.entry k).xChangePending || decide (s.Differs k t v)) := by
  have hrefl : s.SameFlags s k := ⟨fun _ _ => rfl, rfl⟩
  rw [prvPrepareCacheEntry] at h
  by_cases hnone : (s.entry k).type = .kvTypeNone
  · rw [if_pos hnone] at h
    rw [← Except.ok.inj h]
    exact (vAllocateDataBuffer_flags s k _).marked rfl (.inl fun heq => ht (heq ▸ hnone))
  rw [if_neg hnone] at h
  by_cases hlen : (s.entry k).length ≠ v.length
  · rw [if_pos hlen] at h
    cases hre : vReallocDataBuffer s k v.length with
    | error e =>
      rw [hre] at h
      cases h
    | ok u =>
      rw [hre] at h
      rw [← Except.ok.inj h]
      exact (vReallocDataBuffer_flags hre).marked rfl (.inr (.inl hlen))
  rw [if_neg hlen] at h
  by_cases htype : (s.entry k).type ≠ t
  · rw [if_pos htype] at h
    rw [← Except.ok.inj h]
    exact hrefl.marked rfl (.inl htype)
  rw [if_neg htype] at h
  have hlen' : (s.entry k).length = v.length := not_not.mp hlen
  by_cases hnull : (pvGetDataReadPtr s k).isNull = true
  · have hnil := contents_of_null hnone hnull
    simp only [hnull, if_true] at h
    rw [← Except.ok.inj h]
    exact hrefl.marked rfl (.inr (.inr (by rw [hnil]; exact hv.symm)))
  simp only [hnull, if_false, bind, Except.bind, Bool.false_eq_true] at h
  rw [← hlen'] at h
  cases hread : s.readThrough k (s.entry k).length (pvGetDataReadPtr s k) with
  | error e =>
    rw [hread] at h
    cases h
  | ok old =>
    rw [hread] at h
    have hcont := readThrough_contents hnone hread
    by_cases hold : old ≠ v
    · simp only [if_pos hold] at h
      rw [← Except.ok.inj h]
      exact hrefl.marked rfl (.inr (.inr (by rw [hcont]; exact hold)))
    · simp only [if_neg hold] at h
      have hsame : ¬ s.Differs k t v := by
        intro hd
        obtain hd | hd | hd := hd
        · exact htype hd
        · exact hlen hd
        · exact hold (hcont ▸ hd)
      rw [← Except.ok.inj h, decide_eq_false hsame, Bool.or_false]
      exact ⟨fun _ _ => rfl, rfl⟩

/-- A write that returns marks its entry exactly when it changes type, length or bytes. -/
theorem xprvWriteCacheEntry_flags (ht : t ≠ .kvTypeNone) (hv : v ≠ [])
    (h : xprvWriteCacheEntry ndebug s k t v = .ok s') :
    (∀ j, j ≠ k → s'.entry j = s.entry j) ∧ (s'.entry k).xChangePending =
      ((s.entry k).xChangePending || decide (s.Differs k t v)) := by
  rw [xprvWriteCacheEntry] at h
  simp only [bind, Except.bind] at h
  split at h
  · cases h
  split at h
  · cases h
  cases hprep : prvPrepareCacheEntry s k t v with
  | error e =>
    rw [hprep] at h
    cases h
  | ok u =>
    rw [hprep] at h
    obtain ⟨hother, hflag⟩ := prvPrepareCacheEntry_flags ht hv hprep
    have hstore := prvStoreCacheEntry_flags h
    exact ⟨fun j hj => (hstore.other j hj).trans (hother j hj), hstore.flag.trans hflag⟩

end pending

section history

variable {cfg : KVStoreConfig n} {d d' : HistoryState n}

/-- The flags say which keys a set has changed since start-up, saved or not. -/
structure HistoryState.Inv (d : HistoryState n) : Prop where
  pending : ∀ k, (d.cache.entry k).xChangePending = d.changed k
  unsaved : ∀ k, d.unsaved k = true → d.changed k = true

theorem HistoryState.mark_of_target {s : KVStoreCache n} {call : SetCall} {k : Fin n}
    {v : KVValue} (h : call.target cfg = some (k, v)) (marks : Fin n → Bool) :
    mark cfg s call marks =
      Function.update marks k (marks k || decide (s.Differs k v.type v.bytes)) := by
  rw [mark, h]

theorem HistoryState.mark_of_no_target {s : KVStoreCache n} {call : SetCall}
    (h : call.target cfg = none) (marks : Fin n → Bool) : mark cfg s call marks = marks := by
  rw [mark, h]

theorem HistoryState.mark_le {marks marks' : Fin n → Bool} {s : KVStoreCache n}
    (call : SetCall) (h : ∀ k, marks k = true → marks' k = true) :
    ∀ k, mark cfg s call marks k = true → mark cfg s call marks' k = true := by
  intro j hj
  cases htarget : call.target cfg with
  | none =>
    rw [mark_of_no_target htarget] at hj ⊢
    exact h j hj
  | some p =>
    obtain ⟨k, v⟩ := p
    rw [mark_of_target htarget] at hj ⊢
    by_cases hjk : j = k
    · rw [hjk, Function.update_self] at hj ⊢
      obtain hmark | hd := Bool.or_eq_true_iff.mp hj
      · rw [h k hmark, Bool.true_or]
      · rw [hd, Bool.or_true]
    · rw [Function.update_of_ne hjk] at hj ⊢
      exact h j hj

theorem HistoryState.Inv.set {call : SetCall} {s' : KVStoreCache n} {b : Bool} (h : d.Inv)
    (hrun : call.run cfg d.cache = .ok (b, s')) : ∀ k,
      (s'.entry k).xChangePending = HistoryState.mark cfg d.cache call d.changed k := by
  intro j
  cases htarget : call.target cfg with
  | none =>
    rw [SetCall.run_of_no_target htarget] at hrun
    rw [← (Prod.mk.inj (Except.ok.inj hrun)).2, HistoryState.mark_of_no_target htarget]
    exact h.pending j
  | some p =>
    obtain ⟨k, v⟩ := p
    rw [SetCall.run_of_target htarget] at hrun
    rw [HistoryState.mark_of_target htarget]
    cases hwrite : xprvWriteCacheEntry cfg.ndebug d.cache k v.type v.bytes with
    | error e =>
      rw [hwrite] at hrun
      cases hrun
    | ok t =>
      rw [hwrite] at hrun
      obtain ⟨-, rfl⟩ := Prod.mk.inj (Except.ok.inj hrun)
      obtain ⟨hother, hflag⟩ := xprvWriteCacheEntry_flags v.type_ne_none
        (List.ne_nil_of_length_pos v.bytes_pos) hwrite
      by_cases hjk : j = k
      · rw [hjk, hflag, h.pending, Function.update_self]
      · rw [hother j hjk, h.pending, Function.update_of_ne hjk]

theorem HistoryState.Inv.step {e : StoreEvent n} (h : d.Inv)
    (hstep : HistoryState.Step cfg d e d') : d'.Inv := by
  cases e with
  | set call =>
    cases hrun : call.run cfg d.cache with
    | error e =>
      rw [HistoryState.Step, HistoryState.next, hrun] at hstep
      cases hstep
    | ok r =>
      rw [HistoryState.Step, HistoryState.next, hrun] at hstep
      rw [← Except.ok.inj hstep]
      exact ⟨h.set hrun, HistoryState.mark_le call h.unsaved⟩
  | commit lfs =>
    cases hcommit : kvStoreCommitLogged cfg d.cache lfs d.files with
    | error e =>
      rw [HistoryState.Step, HistoryState.next, hcommit] at hstep
      cases hstep
    | ok r =>
      rw [HistoryState.Step, HistoryState.next, hcommit] at hstep
      rw [← Except.ok.inj hstep]
      refine ⟨h.pending, ?_⟩
      intro k hk
      exact h.unsaved k (Bool.and_eq_true_iff.mp hk).1

theorem HistoryState.Inv.start {files : LfsFiles} {answer : Nat → Nat × (Nat → UInt8)}
    {s : KVStoreCache n} (h : kvStoreInit cfg files answer = .ok s) :
    (HistoryState.start s files).Inv where
  pending k := ((vprvCacheInit_files h).2 k).2.1
  unsaved _ hk := hk

variable {files : LfsFiles} {answer : Nat → Nat × (Nat → UInt8)} {s : KVStoreCache n}
  {es : List (StoreEvent n)} {lfs : Fin n → LfsWriteAnswers} {log : WriteLog n}

/-- Every commit writes all keys that were changed since start-up. -/
theorem commit_writes_changed (hinit : kvStoreInit cfg files answer = .ok s)
    (hrun : Run (HistoryState.Step cfg) (.start s files) es d)
    (hcommit : d.next cfg (.commit lfs) = .ok (d', log)) :
    log.map Prod.fst = (List.finRange n).filter d.changed := by
  have hinv := hrun.invariant (HistoryState.Inv.start hinit) (fun _ _ _ h hstep => h.step hstep)
  rw [HistoryState.next] at hcommit
  cases hlog : kvStoreCommitLogged cfg d.cache lfs d.files with
  | error e =>
    rw [hlog] at hcommit
    cases hcommit
  | ok r =>
    rw [hlog] at hcommit
    obtain ⟨-, rfl⟩ := Prod.mk.inj (Except.ok.inj hcommit)
    rw [kvStoreCommitLogged_keys (r := r.1) hlog]
    exact List.filter_congr fun k _ => hinv.pending k

/-- A commit writes exactly the keys with unsaved changes when no change was saved before. -/
theorem commit_writes_unsaved_iff (hinit : kvStoreInit cfg files answer = .ok s)
    (hrun : Run (HistoryState.Step cfg) (.start s files) es d)
    (hcommit : d.next cfg (.commit lfs) = .ok (d', log)) :
    log.map Prod.fst = (List.finRange n).filter d.unsaved ↔
      ∀ k, d.changed k = true → d.unsaved k = true := by
  have hinv := hrun.invariant (HistoryState.Inv.start hinit) (fun _ _ _ h hstep => h.step hstep)
  rw [commit_writes_changed hinit hrun hcommit]
  constructor
  · intro heq k hk
    have hmem : k ∈ (List.finRange n).filter d.changed :=
      List.mem_filter.mpr ⟨List.mem_finRange k, hk⟩
    rw [heq] at hmem
    exact (List.mem_filter.mp hmem).2
  · intro hsub
    refine List.filter_congr fun k _ => ?_
    rw [Bool.eq_iff_iff]
    exact ⟨hsub k, hinv.unsaved k⟩

end history

def historyExample (es : List (StoreEvent 2)) :
    Except Stop (KVStoreCache 2 × HistoryState 2 × HistoryState 2 × WriteLog 2) := do
  let s ← kvStoreInit exampleConfig (fun _ => none) exampleAnswer
  let d ← es.foldlM (fun d e => (d.next exampleConfig e).map Prod.fst)
    (HistoryState.start s fun _ => none)
  let (d', log) ← d.next exampleConfig (.commit fun _ => .complete)
  return (s, d, d', log)

theorem historyExample_run (es : List (StoreEvent 2)) (p : HistoryState 2 → WriteLog 2 → Bool)
    (h : returns (fun r => p r.2.1 r.2.2.2) (historyExample es) = true) : ∃ s d d' log,
      kvStoreInit exampleConfig (fun _ => none) exampleAnswer = .ok s ∧
      Run (HistoryState.Step exampleConfig) (.start s fun _ => none) es d ∧
      d.next exampleConfig (.commit fun _ => .complete) = .ok (d', log) ∧ p d log = true := by
  obtain ⟨⟨s, d, d', log⟩, hrun, hp⟩ := exists_of_returns h
  simp only [historyExample, bind, Except.bind] at hrun
  split at hrun
  · cases hrun
  next s0 hinit =>
  split at hrun
  · cases hrun
  next d0 hloop =>
  split at hrun
  · cases hrun
  next r hcommit =>
  simp only [pure, Except.pure, Except.ok.injEq, Prod.mk.injEq] at hrun
  obtain ⟨rfl, rfl, rfl, rfl⟩ := hrun
  have hsteps := Run.ofFoldlM (fun _ _ => True) (fun _ _ _ => trivial) hloop
  exact ⟨s0, d0, r.1, r.2, hinit, hsteps.mono (fun _ _ _ h => h.2), hcommit, hp⟩

theorem commit_writes_unsaved_once : ∃ s d d' log,
    kvStoreInit exampleConfig (fun _ => none) exampleAnswer = .ok s ∧
    Run (HistoryState.Step exampleConfig) (.start s fun _ => none)
      [.set (.setString 0 (some (exampleString 3)))] d ∧
    d.next exampleConfig (.commit fun _ => .complete) = .ok (d', log) ∧
    log.map Prod.fst = (List.finRange 2).filter d.unsaved := by
  obtain ⟨s, d, d', log, hinit, hrun, hcommit, hp⟩ :=
    historyExample_run [.set (.setString 0 (some (exampleString 3)))]
      (fun d _ => (List.finRange 2).all fun k => !d.changed k || d.unsaved k)
      (by decide +kernel)
  refine ⟨s, d, d', log, hinit, hrun, hcommit,
    (commit_writes_unsaved_iff hinit hrun hcommit).mpr ?_⟩
  intro k hk
  have hall := List.all_eq_true.mp hp k (List.mem_finRange k)
  rw [hk] at hall
  exact hall

/-- The second of two commits in a row writes the same key again. -/
theorem not_commit_writes_unsaved : ∃ s d d' log,
    kvStoreInit exampleConfig (fun _ => none) exampleAnswer = .ok s ∧
    Run (HistoryState.Step exampleConfig) (.start s fun _ => none)
      [.set (.setString 0 (some (exampleString 3))), .commit fun _ => .complete] d ∧
    d.next exampleConfig (.commit fun _ => .complete) = .ok (d', log) ∧
    log.map Prod.fst ≠ (List.finRange 2).filter d.unsaved := by
  obtain ⟨s, d, d', log, hinit, hrun, hcommit, hp⟩ :=
    historyExample_run
      [.set (.setString 0 (some (exampleString 3))), .commit fun _ => .complete]
      (fun d log => log.map Prod.fst == [0] && (List.finRange 2).filter d.unsaved == [])
      (by decide +kernel)
  simp only [Bool.and_eq_true, beq_iff_eq] at hp
  refine ⟨s, d, d', log, hinit, hrun, hcommit, ?_⟩
  rw [hp.1, hp.2]
  decide

end RenesasDemo.KVStore
