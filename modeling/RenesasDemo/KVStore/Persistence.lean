import RenesasDemo.KVStore.Commit
import RenesasDemo.KVStore.MapLaw

namespace RenesasDemo.KVStore

open Framework

variable {n : Nat}

/-- The cache in RAM and the files in flash. -/
structure StoreState (n : Nat) where
  cache : KVStoreCache n
  files : LfsFiles

def StoreState.file (cfg : KVStoreConfig n) (d : StoreState n) (k : Fin n) : Option LfsFile :=
  d.files (pcFileName cfg k)

/-- `KVStore_init` on zeroed memory. -/
def kvStoreInit (cfg : KVStoreConfig n) (files : LfsFiles) (answer : Nat → Nat × (Nat → UInt8)) :
    Except Stop (KVStoreCache n) :=
  vprvCacheInit cfg.ndebug cfg.kvstoreValMaxLen (fun k => .ofFile (files (pcFileName cfg k)))
    (.zeroed answer)

inductive StoreEvent (n : Nat) where
  | set (call : SetCall)
  | commit (lfs : Fin n → LfsWriteAnswers)

/-- A setter that returns, allocation succeeding, or a commit with any result. -/
def StoreStep (cfg : KVStoreConfig n) (d : StoreState n) :
    StoreEvent n → StoreState n → Prop
  | .set call, d' => SetStep cfg d.cache call d'.cache ∧ d'.files = d.files
  | .commit lfs, d' => d'.cache = d.cache ∧
      ∃ ok, kvStoreCommitChanges cfg d.cache lfs d.files = .ok (ok, d'.files)

/-- An entry with a pending change holds what a setter wrote, any other what its file says. -/
structure Coherent (cfg : KVStoreConfig n) (d : StoreState n) : Prop where
  valid : d.cache.Valid
  pending : ∀ k, (d.cache.entry k).xChangePending = true →
    ∃ v : KVValue, (d.cache.entry k).type = v.type ∧ d.cache.contents k = v.bytes
  clean : ∀ k, (d.cache.entry k).xChangePending = false →
    Loaded d.cache k (d.file cfg k) ∧
      FileLengthOk cfg.ndebug cfg.kvstoreValMaxLen (d.file cfg k)

section coherent

variable {cfg : KVStoreConfig n} {d d' : StoreState n} {k : Fin n} {v : KVValue}

theorem Coherent.init {files : LfsFiles} {answer : Nat → Nat × (Nat → UInt8)}
    {s : KVStoreCache n} (h : kvStoreInit cfg files answer = .ok s) : Coherent cfg ⟨s, files⟩ := by
  obtain ⟨hvalid, hload⟩ := vprvCacheInit_files h
  constructor
  · exact hvalid
  · intro k hp
    rw [(hload k).2.1] at hp
    cases hp
  · intro k _
    exact ⟨(hload k).1, (hload k).2.2⟩

theorem Coherent.type_pending (h : Coherent cfg d) (k : Fin n)
    (hp : (d.cache.entry k).xChangePending = true) : (d.cache.entry k).type ≠ .kvTypeNone := by
  obtain ⟨v, ht, -⟩ := h.pending k hp
  rw [ht]
  exact v.type_ne_none

theorem Coherent.write {s' : KVStoreCache n} (h : Coherent cfg d)
    (heff : KVStoreCache.WriteEffect d.cache s' k v.type v.bytes) :
    Coherent cfg ⟨s', d.files⟩ where
  valid := heff.valid
  pending j hp := by
    by_cases hj : j = k
    · rw [hj]
      exact ⟨v, heff.type, heff.contents⟩
    · have hentry : s'.entry j = d.cache.entry j := heff.entry_other j hj
      have hp' : (d.cache.entry j).xChangePending = true := by rw [← hentry]; exact hp
      obtain ⟨w, ht, hc⟩ := h.pending j hp'
      refine ⟨w, ?_, ?_⟩
      · exact (congrArg KVStoreCacheEntry.type hentry).trans ht
      · exact (heff.contents_other j hj (h.type_pending j hp')).trans hc
  clean j hp := by
    by_cases hj : j = k
    · subst hj
      have hpend := heff.pending
      rw [show (s'.entry j).xChangePending = false from hp] at hpend
      obtain ⟨hclean, hchg⟩ := Bool.or_eq_false_iff.mp hpend.symm
      have hsame : ¬ d.cache.Changes j v.type v.bytes := of_decide_eq_false hchg
      have htype : (d.cache.entry j).type = v.type := not_not.mp (fun h => hsame (.inl h))
      have hcont : d.cache.contents j = v.bytes := not_not.mp (fun h => hsame (.inr h))
      have hlen : (d.cache.entry j).length = v.bytes.length := by
        rw [← hcont, h.valid.contents_length (by rw [htype]; exact v.type_ne_none)]
      obtain ⟨hload, hok⟩ := h.clean j hclean
      exact ⟨hload.congr (heff.type.trans htype.symm) (heff.length.trans hlen.symm)
        (fun _ => heff.contents.trans hcont.symm), hok⟩
    · have hentry : s'.entry j = d.cache.entry j := heff.entry_other j hj
      have hp' : (d.cache.entry j).xChangePending = false := by rw [← hentry]; exact hp
      obtain ⟨hload, hok⟩ := h.clean j hp'
      exact ⟨hload.congr (congrArg KVStoreCacheEntry.type hentry)
        (congrArg KVStoreCacheEntry.length hentry) (heff.contents_other j hj), hok⟩

theorem Coherent.accepted {call : SetCall} {s' : KVStoreCache n} {b : Bool}
    (h : Coherent cfg d) (htarget : call.target cfg = some (k, v))
    (hserved : call.Served cfg d.cache) (hrun : call.run cfg d.cache = .ok (b, s')) :
    b = true ∧ KVStoreCache.WriteEffect d.cache s' k v.type v.bytes := by
  obtain ⟨t, ht, heff⟩ := KVStoreCache.xprvWriteCacheEntry_spec cfg.ndebug h.valid
    v.type_ne_none (.inr v.type_lt_last) (.inr v.bytes_pos) (hserved k v htarget)
  rw [SetCall.run_of_target htarget, ht] at hrun
  obtain ⟨hb, rfl⟩ := Prod.mk.inj (Except.ok.inj hrun)
  exact ⟨hb.symm, heff⟩

theorem Coherent.step {e : StoreEvent n} (h : Coherent cfg d) (hstep : StoreStep cfg d e d') :
    Coherent cfg d' := by
  cases e with
  | set call =>
    obtain ⟨⟨hserved, b, hrun⟩, hfiles⟩ := hstep
    have hd' : d' = ⟨d'.cache, d.files⟩ := by rw [← hfiles]
    rw [hd']
    cases htarget : call.target cfg with
    | none =>
      rw [SetCall.run_of_no_target htarget] at hrun
      rw [← (Prod.mk.inj (Except.ok.inj hrun)).2]
      exact h
    | some p =>
      obtain ⟨k, v⟩ := p
      exact h.write (h.accepted htarget hserved hrun).2
  | commit lfs =>
    obtain ⟨hcache, ok, hcommit⟩ := hstep
    obtain ⟨ok', files', hval, hclean, -⟩ :=
      kvStoreCommitChanges_spec cfg lfs h.valid h.type_pending d.files
    obtain ⟨-, rfl⟩ := Prod.mk.inj (Except.ok.inj (hcommit.symm.trans hval))
    have hd' : d' = ⟨d.cache, d'.files⟩ := by rw [← hcache]
    rw [hd']
    constructor
    · exact h.valid
    · exact h.pending
    · intro k hp
      have hfile : (⟨d.cache, d'.files⟩ : StoreState n).file cfg k = d.file cfg k := hclean k hp
      rw [hfile]
      exact h.clean k hp

end coherent

/-- The cache holds `v` under `k`, and the getter for it returns it. -/
structure ReadsBack (cfg : KVStoreConfig n) (s : KVStoreCache n) (k : Fin n) (v : KVValue) :
    Prop where
  type : (s.entry k).type = v.type
  length : (s.entry k).length = v.bytes.length
  contents : s.contents k = v.bytes
  getter : ∀ g : GetCall, g.type = v.type → g.HasBuffer →
    ∃ r, g.run cfg s k.val = .ok r ∧ g.Reports v r

def RoundTrip (cfg : KVStoreConfig n) (files : LfsFiles) (answer : Nat → Nat × (Nat → UInt8))
    (k : Fin n) (v : KVValue) : Prop :=
  ∃ s, kvStoreInit cfg files answer = .ok s ∧ ReadsBack cfg s k v

/-- The value and the other values with a pending change pass the assertion of the reader, and
the getter's check is the right one. -/
structure Persistable (cfg : KVStoreConfig n) (s : KVStoreCache n) (k : Fin n) (v : KVValue) :
    Prop where
  value : cfg.ndebug = true ∨ v.bytes.length < cfg.kvstoreValMaxLen
  others : cfg.ndebug = true ∨ ∀ j, j ≠ k → (s.entry j).xChangePending = true →
    (s.entry j).length < cfg.kvstoreValMaxLen
  getter : v.type ≠ .kvTypeUBaseT

/-- The value behind the header is not one of at most four bytes in a file with room for more. -/
def Compact (file : Option LfsFile) : Prop :=
  ∀ h, (readFile file).result = some h → sizeofVoidPtr < fileRoom file → sizeofVoidPtr < h.length

section roundTrip

variable {cfg : KVStoreConfig n} {d : StoreState n} {s s' : KVStoreCache n} {k : Fin n}
  {v : KVValue} {files' : LfsFiles}

/-- A complete file of a value passes the reader's assertion if the value is short enough. -/
theorem fileLengthOk_tlv {f : LfsFile} {type : KVStoreValueType} {b : List UInt8}
    (hf : f.bytes = tlvBytes type b) (ht : type.toNat < sizeMod) (hb : 0 < b.length) :
    FileLengthOk cfg.ndebug cfg.kvstoreValMaxLen (some f) ↔
      (cfg.ndebug = true ∨ b.length < cfg.kvstoreValMaxLen) := by
  obtain ⟨hread, -⟩ := readFile_tlv hf ht hb
  -- the file is not empty behind its header, and the header is the one written
  have hne : f.payload ≠ [] := by
    intro hnil
    rw [readFile, LfsFile.read, if_pos hnil] at hread
    cases hread
  have hheader : f.header.length = b.length := by
    rw [readFile, LfsFile.read, if_neg hne] at hread
    obtain ⟨-, hres⟩ := NvRead.mk.inj hread
    split at hres
    · rw [Option.some.inj hres]
    · cases hres
  constructor
  · intro h
    have hok := h f rfl hne
    rwa [hheader] at hok
  · intro h g hg _
    obtain rfl := Option.some.inj hg
    rwa [hheader]

theorem Loaded.header {file : Option LfsFile} (h : Loaded s k file)
    (ht : (s.entry k).type ≠ .kvTypeNone) : ∃ hdr, (readFile file).result = some hdr ∧
      (s.entry k).type = hdr.type ∧ (s.entry k).length = hdr.length := by
  have htype := h.type
  have hlength := h.length
  rw [NvRead.header] at htype hlength
  cases hres : (readFile file).result with
  | none =>
    rw [hres] at htype
    exact absurd htype ht
  | some hdr =>
    rw [hres] at htype hlength
    exact ⟨hdr, rfl, htype, hlength⟩

/-- Two caches loaded from the same file agree on a value that is there. -/
theorem Loaded.agree {file : Option LfsFile} (h : Loaded s k file) (h' : Loaded s' k file)
    (ht : (s.entry k).type ≠ .kvTypeNone) (hcompact : Compact file) :
    (s'.entry k).type = (s.entry k).type ∧ (s'.entry k).length = (s.entry k).length ∧
      s'.contents k = s.contents k := by
  refine ⟨h'.type.trans h.type.symm, h'.length.trans h.length.symm, ?_⟩
  obtain ⟨hdr, hres, heq, -⟩ := h.header ht
  have htype : hdr.type ≠ .kvTypeNone := heq ▸ ht
  have hside : sizeofVoidPtr < hdr.length ↔ sizeofVoidPtr < fileRoom file := by
    constructor
    · intro hbig
      have hle := (readFile_fits file).length hdr hres hbig
      omega
    · exact hcompact hdr hres
  rw [h'.contents hdr hres htype hside, h.contents hdr hres htype hside]

/-- The getter of a key that holds `v` returns it, unless its check is the wrong one. -/
theorem readsBack_getter (hs : s.Valid) (hkey : (cfg.kvStoreDefaults k).type = v.type)
    (ht : (s.entry k).type = v.type) (hc : s.contents k = v.bytes) :
    (∀ g : GetCall, g.type = v.type → g.HasBuffer →
      ∃ r, g.run cfg s k.val = .ok r ∧ g.Reports v r) ↔ v.type ≠ .kvTypeUBaseT := by
  have hrep : Represents cfg s (Function.update (fun _ => none) k (some v)) := by
    have honly : ∀ j w, Function.update (fun _ => none) k (some v) j = some w → j = k ∧ w = v := by
      intro j w hw
      by_cases hj : j = k
      · subst hj
        rw [Function.update_self] at hw
        exact ⟨rfl, (Option.some.inj hw).symm⟩
      · rw [Function.update_of_ne hj] at hw
        cases hw
    constructor
    · exact hs
    · intro j w hw
      obtain ⟨rfl, rfl⟩ := honly j w hw
      exact hkey
    · intro j w hw
      obtain ⟨rfl, rfl⟩ := honly j w hw
      exact ht
    · intro j w hw
      obtain ⟨rfl, rfl⟩ := honly j w hw
      exact hc
  have hv : Function.update (fun _ => none) k (some v) k = some v := Function.update_self ..
  constructor
  · intro hget hubase
    have hmis : GetCall.getUBase.MisChecked cfg k.val := by
      refine ⟨rfl, .inl ?_⟩
      rw [keyType_val, hkey, hubase]
    refine hrep.not_lawful hv hmis ⟨?_, ?_⟩
    · intro hk w hw htw hbuf
      obtain rfl := Option.some.inj (hv.symm.trans hw)
      exact hget .getUBase htw.symm hbuf
    · intro hother
      rw [keyType_val, hkey, hubase] at hother
      exact absurd rfl hother
  · intro hne g hg hbuf
    have hlaw : g.Lawful cfg s _ k.val := hrep.lawful k.val (by
      intro hmis
      rw [hmis.1] at hg
      exact hne hg.symm)
    exact hlaw.reports k.isLt v hv hg.symm hbuf

/-- After a commit that returned pdTRUE the reader's assertion holds for every file exactly when
no value with a pending change is too long. -/
theorem fileLengthOk_commit (h : Coherent cfg d)
    (hclean : ∀ j, (d.cache.entry j).xChangePending = false →
      files' (pcFileName cfg j) = d.file cfg j)
    (hdone : ∀ j, (d.cache.entry j).xChangePending = true → ∃ f : LfsFile,
      f.bytes = tlvBytes (d.cache.entry j).type (d.cache.contents j) ∧
        files' (pcFileName cfg j) = some f) (j : Fin n) :
    FileLengthOk cfg.ndebug cfg.kvstoreValMaxLen (files' (pcFileName cfg j)) ↔
      (cfg.ndebug = true ∨ ((d.cache.entry j).xChangePending = true →
        (d.cache.entry j).length < cfg.kvstoreValMaxLen)) := by
  cases hp : (d.cache.entry j).xChangePending with
  | false =>
    rw [hclean j hp]
    exact ⟨fun _ => .inr (fun hf => by cases hf), fun _ => (h.clean j hp).2⟩
  | true =>
    obtain ⟨f, hf, hfile⟩ := hdone j hp
    obtain ⟨w, ht, hc⟩ := h.pending j hp
    have hlen := h.valid.contents_length (h.type_pending j hp)
    rw [hc] at hlen
    rw [ht, hc] at hf
    rw [hfile, fileLengthOk_tlv hf w.type_small w.bytes_pos, hlen]
    simp

/-- A value that was loaded has passed the reader's assertion. -/
theorem Loaded.length_lt {file : Option LfsFile} (h : Loaded s k file)
    (hok : FileLengthOk cfg.ndebug cfg.kvstoreValMaxLen file)
    (ht : (s.entry k).type ≠ .kvTypeNone) :
    cfg.ndebug = true ∨ (s.entry k).length < cfg.kvstoreValMaxLen := by
  obtain ⟨hdr, hres, -, hlen⟩ := h.header ht
  cases file with
  | none => cases hres
  | some f =>
    simp only [readFile, LfsFile.read] at hres
    split at hres
    · cases hres
    · next hne =>
      simp only at hres
      split at hres
      · have hassert := hok f rfl hne
        rw [Option.some.inj hres] at hassert
        rwa [hlen]
      · cases hres

end roundTrip

/-- A setter accepts only what it is called with. -/
theorem SetCall.target_of_accepted {cfg : KVStoreConfig n} {s s' : KVStoreCache n} {call : SetCall}
    {k : Fin n} {v : KVValue} (hkey : call.key = k.val) (hvalue : call.value = some v)
    (hset : call.run cfg s = .ok (true, s')) : call.target cfg = some (k, v) := by
  cases ht : call.target cfg with
  | none =>
    rw [SetCall.run_of_no_target ht] at hset
    cases hset
  | some p =>
    obtain ⟨hv, hk, -⟩ := SetCall.target_eq_some ht
    rw [hvalue] at hv
    rw [hkey] at hk
    rw [Option.some.inj hv, Fin.ext hk]

/-- A value that a setter accepted, in any state that start-up over any files, setters and
commits lead to, survives a commit that returns pdTRUE and a restart exactly when the values to
be written are short enough for the reader and the getter's check is the right one. -/
theorem persistence_roundTrip (cfg : KVStoreConfig n) (files0 : LfsFiles)
    (answer0 : Nat → Nat × (Nat → UInt8)) {s0 : KVStoreCache n}
    (h0 : kvStoreInit cfg files0 answer0 = .ok s0) {es : List (StoreEvent n)} {d : StoreState n}
    (hrun : Run (StoreStep cfg) ⟨s0, files0⟩ es d)
    {call : SetCall} {k : Fin n} {v : KVValue} {s : KVStoreCache n}
    (hkey : call.key = k.val) (hvalue : call.value = some v) (hserved : call.Served cfg d.cache)
    (hset : call.run cfg d.cache = .ok (true, s))
    (hcompact : (s.entry k).xChangePending = false → Compact (d.file cfg k))
    {lfs : Fin n → LfsWriteAnswers} {files : LfsFiles}
    (hcommit : kvStoreCommitChanges cfg s lfs d.files = .ok (true, files))
    {answer : Nat → Nat × (Nat → UInt8)} (hserves : (Heap.empty answer).Serves sizeMod n) :
    RoundTrip cfg files answer k v ↔ Persistable cfg d.cache k v := by
  have hcoh : Coherent cfg d :=
    hrun.invariant (.init h0) (fun d e d' hd hstep => hd.step hstep)
  have htarget := SetCall.target_of_accepted hkey hvalue hset
  have heff := (hcoh.accepted htarget hserved hset).2
  have hcoh1 : Coherent cfg ⟨s, d.files⟩ := hcoh.write heff
  have hktype : (cfg.kvStoreDefaults k).type = v.type := (SetCall.target_eq_some htarget).2.2
  have hset1 : (s.entry k).type ≠ .kvTypeNone := by
    rw [heff.type]
    exact v.type_ne_none
  obtain ⟨ok, files', hval, hclean, hdone⟩ :=
    kvStoreCommitChanges_spec cfg lfs hcoh1.valid hcoh1.type_pending d.files
  obtain ⟨rfl, rfl⟩ := Prod.mk.inj (Except.ok.inj (hcommit.symm.trans hval))
  have hassert := fileLengthOk_commit hcoh1 hclean (hdone rfl)
  constructor
  · intro hround
    obtain ⟨s2, hinit, hback⟩ := hround
    obtain ⟨hvalid2, hload2⟩ := vprvCacheInit_files hinit
    refine ⟨?_, ?_, ?_⟩
    · rw [← heff.length]
      cases hp : (s.entry k).xChangePending with
      | false =>
        obtain ⟨hload, hok⟩ := hcoh1.clean k hp
        exact hload.length_lt hok hset1
      | true => exact ((hassert k).mp (hload2 k).2.2).imp_right (fun h => h hp)
    · by_cases hn : cfg.ndebug = true
      · exact .inl hn
      · right
        intro j hj hp
        have hentry := heff.entry_other j hj
        obtain hn' | hlen := (hassert j).mp (hload2 j).2.2
        · exact absurd hn' hn
        · have hlen' := hlen (by rw [hentry]; exact hp)
          rwa [hentry] at hlen'
    · exact (readsBack_getter hvalid2 hktype hback.type hback.contents).mp hback.getter
  · intro hpers
    have hok : ∀ j, FileLengthOk cfg.ndebug cfg.kvstoreValMaxLen (files (pcFileName cfg j)) := by
      intro j
      apply (hassert j).mpr
      by_cases hj : j = k
      · subst hj
        refine hpers.value.imp_right (fun h _ => ?_)
        rwa [heff.length]
      · refine hpers.others.imp_right (fun h hp => ?_)
        rw [heff.entry_other j hj] at hp ⊢
        exact h j hj hp
    obtain ⟨s2, hinit⟩ := vprvCacheInit_files_total hok hserves
    obtain ⟨hvalid2, hload2⟩ := vprvCacheInit_files hinit
    have hread : (s2.entry k).type = v.type ∧ (s2.entry k).length = v.bytes.length ∧
        s2.contents k = v.bytes := by
      cases hp : (s.entry k).xChangePending with
      | true =>
        obtain ⟨f, hf, hfile⟩ := hdone rfl k hp
        have hl := (hload2 k).1
        rw [hfile] at hl
        rw [heff.type, heff.contents] at hf
        exact hl.value hf
      | false =>
        have hl := (hload2 k).1
        rw [hclean k hp] at hl
        obtain ⟨htype, hlen, hcont⟩ := (hcoh1.clean k hp).1.agree hl hset1 (hcompact hp)
        exact ⟨htype.trans heff.type, hlen.trans heff.length, hcont.trans heff.contents⟩
    obtain ⟨htype, hlen, hcont⟩ := hread
    exact ⟨s2, hinit, htype, hlen, hcont,
      (readsBack_getter hvalid2 hktype htype hcont).mpr hpers.getter⟩

def LfsWriteAnswers.complete : LfsWriteAnswers := ⟨true, some (2 ^ 31), some (2 ^ 31), true⟩

/-- Start-up without files, a call that asks for room, and a commit; all with success. -/
def commitExample (call : SetCall) (k : Fin 2) (v : KVValue) :
    Except Stop (KVStoreCache 2 × KVStoreCache 2 × LfsFiles) := do
  let s0 ← kvStoreInit exampleConfig (fun _ => none) exampleAnswer
  let prepared ← prvPrepareCacheEntry s0 k v.type v.bytes
  let (accepted, s) ← call.run exampleConfig s0
  let (ok, files) ← kvStoreCommitChanges exampleConfig s (fun _ => .complete) (fun _ => none)
  if prepared.address k ≠ 0 ∧ accepted ∧ ok then return (s0, s, files)
  else .error .undefinedBehaviour

theorem commitExample_spec {call : SetCall} {k : Fin 2} {v : KVValue}
    (htarget : call.target exampleConfig = some (k, v)) {s0 s : KVStoreCache 2} {files : LfsFiles}
    (h : commitExample call k v = .ok (s0, s, files)) :
    kvStoreInit exampleConfig (fun _ => none) exampleAnswer = .ok s0 ∧
      call.Served exampleConfig s0 ∧ call.run exampleConfig s0 = .ok (true, s) ∧
      kvStoreCommitChanges exampleConfig s (fun _ => .complete) (fun _ => none) =
        .ok (true, files) := by
  simp only [commitExample, bind, Except.bind] at h
  split at h
  · cases h
  next hinit =>
  split at h
  · cases h
  next hprep =>
  split at h
  · cases h
  next hset =>
  split at h
  · cases h
  next hcommit =>
  split at h
  · next hall =>
    obtain ⟨hne, haccepted, hok⟩ := hall
    obtain ⟨rfl, hrest⟩ := Prod.mk.inj (Except.ok.inj h)
    obtain ⟨rfl, rfl⟩ := Prod.mk.inj hrest
    refine ⟨hinit, ?_, ?_, ?_⟩
    · intro k' v' htarget' s1 hs1 _
      obtain ⟨rfl, rfl⟩ := Prod.mk.inj (Option.some.inj (htarget.symm.trans htarget'))
      obtain rfl := Except.ok.inj (hprep.symm.trans hs1)
      exact hne
    · rw [hset, ← haccepted]
    · rw [hcommit, ← hok]
  · cases h

theorem exampleAnswer_serves : (Heap.empty exampleAnswer).Serves sizeMod 2 := by
  intro i hi
  refine ⟨⟨?_, ?_, rfl⟩, ?_⟩
  · show 16 * (i + 1) ≠ 0
    omega
  · show 16 * (i + 1) < 2 ^ 32
    omega
  · intro j hj
    show 16 * (j + 1) ≠ 16 * (i + 1)
    omega

def exampleString (len : Nat) : CString :=
  ⟨List.replicate len 97, by simp [List.mem_replicate]⟩

theorem persistence_roundTrip_string : ∃ files,
    RoundTrip exampleConfig files exampleAnswer 0 (.string (exampleString 20)) := by
  obtain ⟨⟨s0, s, files⟩, hrun, hp⟩ := exists_of_returns
    (x := commitExample (.setString 0 (some (exampleString 20))) 0 (.string (exampleString 20)))
    (p := fun r => (r.2.1.entry 0).xChangePending && !(r.1.entry 1).xChangePending)
    (by decide +kernel)
  simp only [Bool.and_eq_true, Bool.not_eq_true'] at hp
  obtain ⟨hinit, hserved, hset, hcommit⟩ := commitExample_spec (by decide +kernel) hrun
  refine ⟨files, (persistence_roundTrip exampleConfig (fun _ => none) exampleAnswer hinit
    (Run.refl _) rfl rfl hserved hset ?_ hcommit exampleAnswer_serves).mpr ⟨?_, ?_, ?_⟩⟩
  · intro hclean
    rw [hp.1] at hclean
    cases hclean
  · exact .inr (by decide)
  · right
    intro j hj hpend
    have hj1 : j = 1 := by omega
    rw [hj1, hp.2] at hpend
    cases hpend
  · decide

/-- A string as long as the reader's limit is written, and the next start-up halts on it. -/
theorem not_persistence_long : ∃ s0 s files,
    kvStoreInit exampleConfig (fun _ => none) exampleAnswer = .ok s0 ∧
    (SetCall.setString 0 (some (exampleString 63))).Served exampleConfig s0 ∧
    (SetCall.setString 0 (some (exampleString 63))).run exampleConfig s0 = .ok (true, s) ∧
    kvStoreCommitChanges exampleConfig s (fun _ => .complete) (fun _ => none) =
      .ok (true, files) ∧
    ¬ RoundTrip exampleConfig files exampleAnswer 0 (.string (exampleString 63)) := by
  obtain ⟨⟨s0, s, files⟩, hrun, hp⟩ := exists_of_returns
    (x := commitExample (.setString 0 (some (exampleString 63))) 0 (.string (exampleString 63)))
    (p := fun r => !returns (fun _ => true) (kvStoreInit exampleConfig r.2.2 exampleAnswer))
    (by decide +kernel)
  obtain ⟨hinit, hserved, hset, hcommit⟩ := commitExample_spec (by decide +kernel) hrun
  refine ⟨s0, s, files, hinit, hserved, hset, hcommit, ?_⟩
  intro hround
  obtain ⟨s2, hrestart, -⟩ := hround
  simp only [hrestart, returns] at hp
  cases hp

end RenesasDemo.KVStore
