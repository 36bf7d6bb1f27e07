import RenesasDemo.KVStore.Api

namespace RenesasDemo.KVStore

open Framework

variable {n : Nat}

def kvstorePrefix : List UInt8 := [47, 99, 102, 103, 47]

/-- The size of a file name buffer: the prefix, its terminator and a key name. -/
def KVStoreConfig.kvstoreMaxFnName (cfg : KVStoreConfig n) : Nat :=
  kvstorePrefix.length + 1 + cfg.kvstoreKeyMaxLen

/-- `strncpy` of the prefix and `strncat` of the name, each bounded by the whole buffer. -/
def pcFileName (cfg : KVStoreConfig n) (xKey : Fin n) : List UInt8 :=
  kvstorePrefix.take cfg.kvstoreMaxFnName ++
    (cfg.kvStoreKeyMap xKey).bytes.take cfg.kvstoreMaxFnName

theorem pcFileName_eq (cfg : KVStoreConfig n) (k : Fin n) :
    pcFileName cfg k = kvstorePrefix ++ (cfg.kvStoreKeyMap k).bytes := by
  have hname := cfg.keyMap_length k
  rw [CString.length] at hname
  have hmax : cfg.kvstoreMaxFnName = kvstorePrefix.length + 1 + cfg.kvstoreKeyMaxLen := rfl
  rw [pcFileName, List.take_of_length_le (by omega), List.take_of_length_le (by omega)]

/-- The name and its terminator fit into the buffer. -/
theorem pcFileName_fits (cfg : KVStoreConfig n) (k : Fin n) :
    (pcFileName cfg k).length + 1 ≤ cfg.kvstoreMaxFnName := by
  have hname := cfg.keyMap_length k
  rw [CString.length] at hname
  rw [pcFileName_eq, List.length_append, KVStoreConfig.kvstoreMaxFnName]
  omega

theorem pcFileName_injective (cfg : KVStoreConfig n) : Function.Injective (pcFileName cfg) := by
  intro j k h
  rw [pcFileName_eq, pcFileName_eq] at h
  exact cfg.keyMap_injective (CString.ext (List.append_cancel_left h))

/-- The files of the default file system by name. -/
abbrev LfsFiles := List UInt8 → Option LfsFile

/-- What littlefs answers while the file of one key is written. -/
structure LfsWriteAnswers where
  openOk : Bool
  /-- The number of bytes written of the header; `none` is an error code. -/
  header : Option Nat
  value : Option Nat
  removeOk : Bool

theorem length_append_take_le {b v : List UInt8} (count : Nat)
    (h : b.length + v.length ≤ lfsFileMax) : (b ++ v.take count).length ≤ lfsFileMax := by
  rw [List.length_append, List.length_take]
  omega

/-- `lfs_file_write`: an error or a count, and the file; a file that is too long is an error. -/
def lfsFileWrite (f : LfsFile) (v : List UInt8) (answer : Option Nat) : Option Nat × LfsFile :=
  if h : f.bytes.length + v.length ≤ lfsFileMax then
    match answer with
    | none => (none, f)
    | some count =>
        (some (min count v.length), ⟨f.bytes ++ v.take count, length_append_take_le count h⟩)
  else (none, f)

def LfsFile.empty : LfsFile := ⟨[], Nat.zero_le _⟩

/-- Header, then value; synchronising and closing succeed. `pvData` is `none` for NULL. -/
def xprvWriteValueToImpl (path : List UInt8) (xType : KVStoreValueType) (xLength : Nat)
    (pvData : Option (List UInt8)) (lfs : LfsWriteAnswers) (files : LfsFiles) :
    Bool × LfsFiles :=
  match pvData with
  | none => (false, files)
  | some v =>
      if lfs.openOk then
        let xTlvHeader : KVStoreTLVHeader := ⟨xType, xLength⟩
        let (count, f) := lfsFileWrite .empty xTlvHeader.toBytes lfs.header
        let (ok, f) :=
          if count = some sizeofTLVHeader then
            let (count, f) := lfsFileWrite f v lfs.value
            (decide (count = some xLength), f)
          else (false, f)
        -- a partially written file is deleted
        (ok, Function.update files path (if ok || !lfs.removeOk then some f else none))
      else (false, files)

/-- The bytes to write for a key, through `pvGetDataReadPtr`. -/
def prvEntryData (s : KVStoreCache n) (i : Fin n) : Except Stop (Option (List UInt8)) :=
  if (pvGetDataReadPtr s i).isNull then .ok none
  else (s.readThrough i (s.entry i).length (pvGetDataReadPtr s i)).map some

/-- One pass of the loop in `KVStore_xCommitChanges`. -/
def prvCommitEntry (cfg : KVStoreConfig n) (s : KVStoreCache n) (lfs : Fin n → LfsWriteAnswers)
    (acc : Bool × LfsFiles) (i : Fin n) : Except Stop (Bool × LfsFiles) :=
  if (s.entry i).xChangePending then do
    let pvData ← prvEntryData s i
    let (ok, files) := xprvWriteValueToImpl (pcFileName cfg i) (s.entry i).type
      (s.entry i).length pvData (lfs i) acc.2
    return (acc.1 && ok, files)
  else return acc

/-- The flags that a change is pending stay. -/
def kvStoreCommitChanges (cfg : KVStoreConfig n) (s : KVStoreCache n)
    (lfs : Fin n → LfsWriteAnswers) (files : LfsFiles) : Except Stop (Bool × LfsFiles) :=
  (List.finRange n).foldlM (prvCommitEntry cfg s lfs) (true, files)

theorem lfsFileWrite_complete {f : LfsFile} {v : List UInt8} {answer : Option Nat}
    (h : (lfsFileWrite f v answer).1 = some v.length) :
    (lfsFileWrite f v answer).2.bytes = f.bytes ++ v := by
  rw [lfsFileWrite] at h ⊢
  split at h
  · next hfits =>
    rw [dif_pos hfits]
    cases answer with
    | none => cases h
    | some count =>
      have hle : v.length ≤ count := by
        have hmin := Option.some.inj h
        omega
      simp only
      rw [List.take_of_length_le hle]
  · cases h

/-- A write that reports success left the complete file. -/
theorem xprvWriteValueToImpl_ok {path : List UInt8} {type : KVStoreValueType} {v : List UInt8}
    {lfs : LfsWriteAnswers} {files : LfsFiles}
    (h : (xprvWriteValueToImpl path type v.length (some v) lfs files).1 = true) :
    ∃ f : LfsFile, f.bytes = tlvBytes type v ∧
      (xprvWriteValueToImpl path type v.length (some v) lfs files).2 path = some f := by
  simp only [xprvWriteValueToImpl] at h ⊢
  split at h
  · next hopen =>
    rw [if_pos hopen]
    have hhead := KVStoreTLVHeader.toBytes_length ⟨type, v.length⟩
    by_cases hcount : (lfsFileWrite .empty (KVStoreTLVHeader.toBytes ⟨type, v.length⟩)
        lfs.header).1 = some sizeofTLVHeader
    · have hbytes := lfsFileWrite_complete (hcount.trans (congrArg some hhead.symm))
      simp only [if_pos hcount] at h ⊢
      have hvalue := of_decide_eq_true h
      refine ⟨(lfsFileWrite (lfsFileWrite .empty (KVStoreTLVHeader.toBytes ⟨type, v.length⟩)
        lfs.header).2 v lfs.value).2, ?_, ?_⟩
      · rw [lfsFileWrite_complete hvalue, hbytes]
        rfl
      · rw [h, Function.update_self]
        rfl
    · simp only [if_neg hcount] at h
      cases h
  · cases h

theorem xprvWriteValueToImpl_other (path : List UInt8) (type : KVStoreValueType) (len : Nat)
    (data : Option (List UInt8)) (lfs : LfsWriteAnswers) (files : LfsFiles) {p : List UInt8}
    (hp : p ≠ path) : (xprvWriteValueToImpl path type len data lfs files).2 p = files p := by
  cases data with
  | none => rfl
  | some v =>
    simp only [xprvWriteValueToImpl]
    split
    · exact Function.update_of_ne hp ..
    · rfl

section commit

variable {cfg : KVStoreConfig n} {s : KVStoreCache n} {lfs : Fin n → LfsWriteAnswers}
  {acc acc' : Bool × LfsFiles} {i k : Fin n}

theorem prvEntryData_set (hs : s.Valid) (ht : (s.entry i).type ≠ .kvTypeNone) :
    prvEntryData s i = .ok (some (s.contents i)) := by
  obtain ⟨hnull, hread⟩ := hs.readPtr ht
  rw [prvEntryData, hnull, hread _ (Nat.le_refl _),
    List.take_of_length_le (by rw [hs.contents_length ht])]
  rfl

theorem prvCommitEntry_clean (hp : (s.entry i).xChangePending = false) :
    prvCommitEntry cfg s lfs acc i = .ok acc := by
  simp [prvCommitEntry, hp, pure, Except.pure]

/-- The loop writes a pending key, and reports success only if this write was complete. -/
theorem prvCommitEntry_pending (cfg : KVStoreConfig n) (lfs : Fin n → LfsWriteAnswers)
    (acc : Bool × LfsFiles) (hs : s.Valid) (ht : (s.entry i).type ≠ .kvTypeNone)
    (hp : (s.entry i).xChangePending = true) : ∃ acc', prvCommitEntry cfg s lfs acc i = .ok acc' ∧
      (∀ p, p ≠ pcFileName cfg i → acc'.2 p = acc.2 p) ∧
      (acc'.1 = true → acc.1 = true ∧ ∃ f : LfsFile,
        f.bytes = tlvBytes (s.entry i).type (s.contents i) ∧
          acc'.2 (pcFileName cfg i) = some f) := by
  have hlen := hs.contents_length ht
  refine ⟨(acc.1 && (xprvWriteValueToImpl (pcFileName cfg i) (s.entry i).type
      (s.entry i).length (some (s.contents i)) (lfs i) acc.2).1,
    (xprvWriteValueToImpl (pcFileName cfg i) (s.entry i).type
      (s.entry i).length (some (s.contents i)) (lfs i) acc.2).2), ?_, ?_, ?_⟩
  · rw [prvCommitEntry, if_pos hp, prvEntryData_set hs ht]
    rfl
  · intro p hne
    exact xprvWriteValueToImpl_other _ _ _ _ _ _ hne
  · intro hok
    obtain ⟨hacc, hwrite⟩ := Bool.and_eq_true_iff.mp hok
    rw [← hlen] at hwrite ⊢
    exact ⟨hacc, xprvWriteValueToImpl_ok hwrite⟩

/-- A commit writes files of pending keys only; if it returns pdTRUE, all of them completely. -/
theorem kvStoreCommitChanges_spec (cfg : KVStoreConfig n) (lfs : Fin n → LfsWriteAnswers)
    (hs : s.Valid)
    (ht : ∀ k, (s.entry k).xChangePending = true → (s.entry k).type ≠ .kvTypeNone)
    (files : LfsFiles) : ∃ ok files', kvStoreCommitChanges cfg s lfs files = .ok (ok, files') ∧
      (∀ k, (s.entry k).xChangePending = false →
        files' (pcFileName cfg k) = files (pcFileName cfg k)) ∧
      (ok = true → ∀ k, (s.entry k).xChangePending = true → ∃ f : LfsFile,
        f.bytes = tlvBytes (s.entry k).type (s.contents k) ∧
          files' (pcFileName cfg k) = some f) := by
  have hloop := foldlM_total (prvCommitEntry cfg s lfs) (List.finRange n) (true, files)
    (P := fun todo acc => todo.Nodup ∧
      (∀ k, (s.entry k).xChangePending = false →
        acc.2 (pcFileName cfg k) = files (pcFileName cfg k)) ∧
      (acc.1 = true → ∀ k, k ∉ todo → (s.entry k).xChangePending = true → ∃ f : LfsFile,
        f.bytes = tlvBytes (s.entry k).type (s.contents k) ∧
          acc.2 (pcFileName cfg k) = some f))
    (by
      intro i todo acc hP
      obtain ⟨hnodup, hclean, hdone⟩ := hP
      obtain ⟨hi, hnodup⟩ := List.nodup_cons.mp hnodup
      cases hp : (s.entry i).xChangePending with
      | false =>
        refine ⟨acc, prvCommitEntry_clean hp, hnodup, hclean, ?_⟩
        intro hok k hk hpk
        have hki : k ≠ i := by
          intro heq
          rw [heq, hp] at hpk
          cases hpk
        exact hdone hok k (by simp [hki, hk]) hpk
      | true =>
        obtain ⟨acc', hval, hother, hwrite⟩ :=
          prvCommitEntry_pending cfg lfs acc hs (ht i hp) hp
        have hname : ∀ k, k ≠ i → pcFileName cfg k ≠ pcFileName cfg i :=
          fun k hk heq => hk (pcFileName_injective cfg heq)
        refine ⟨acc', hval, hnodup, ?_, ?_⟩
        · intro k hk
          have hki : k ≠ i := by
            intro heq
            rw [heq, hp] at hk
            cases hk
          rw [hother _ (hname k hki)]
          exact hclean k hk
        · intro hok k hk hpk
          obtain ⟨hacc, hfile⟩ := hwrite hok
          by_cases hki : k = i
          · rw [hki]
            exact hfile
          · rw [hother _ (hname k hki)]
            exact hdone hacc k (by simp [hki, hk]) hpk)
    ⟨List.nodup_finRange n, fun _ _ => rfl, fun _ k hk => absurd (List.mem_finRange k) hk⟩
  obtain ⟨⟨ok, files'⟩, hval, -, hclean, hdone⟩ := hloop
  exact ⟨ok, files', hval, hclean, fun hok k hp => hdone hok k List.not_mem_nil hp⟩

end commit

end RenesasDemo.KVStore
