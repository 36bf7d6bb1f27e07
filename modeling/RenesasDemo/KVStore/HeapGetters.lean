import RenesasDemo.KVStore.Defaults

namespace RenesasDemo.KVStore

open Framework

variable {n : Nat}

def kvStoreGetSize (cfg : KVStoreConfig n) (s : KVStoreCache n) (xKey : Nat) : Nat :=
  if h : xKey < n then
    if (s.entry ⟨xKey, h⟩).length = 0 then (cfg.kvStoreDefaults ⟨xKey, h⟩).length
    else (s.entry ⟨xKey, h⟩).length
  else 0

/-- The returned pointer, NULL being 0, and what is stored where `pxLength` points to. -/
structure HeapRead where
  pxLength : Nat
  pvBuffer : Nat
  deriving DecidableEq

/-- The part that the heap getters share: `pxLength` is `xLen` before it is stored. -/
def prvReadToHeap (cfg : KVStoreConfig n) (s : KVStoreCache n) (key : Nat)
    (get : KVStoreCache n → Option (List UInt8) → Except Stop BufferRead) :
    Except Stop (HeapRead × KVStoreCache n) :=
  let xLen := kvStoreGetSize cfg s key
  if 0 < xLen then
    let (pvBuffer, heap) := pvPortMalloc s.heap xLen
    if pvBuffer ≠ 0 then do
      let r ← get { s with heap } (heap.block pvBuffer)
      let heap ← definedOr (heap.store pvBuffer (r.pvBuffer.getD []))
      if r.size = 0 then
        let heap ← vPortFree heap pvBuffer
        return (⟨0, 0⟩, { s with heap })
      else return (⟨xLen, pvBuffer⟩, { s with heap })
    else .ok (⟨xLen, 0⟩, { s with heap })
  else .ok (⟨xLen, 0⟩, s)

def kvStoreGetBlobHeap (cfg : KVStoreConfig n) (s : KVStoreCache n) (key : Nat) :
    Except Stop (HeapRead × KVStoreCache n) :=
  prvReadToHeap cfg s key fun s pvBuffer => kvStoreGetBlob cfg s key pvBuffer

/-- `xLen - 1`, which wraps for zero. -/
def prvWithoutTerminator (r : HeapRead) : HeapRead :=
  { r with pxLength := if r.pxLength = 0 then sizeMod - 1 else r.pxLength - 1 }

def kvStoreGetStringHeap (cfg : KVStoreConfig n) (s : KVStoreCache n) (key : Nat) :
    Except Stop (HeapRead × KVStoreCache n) :=
  (prvReadToHeap cfg s key fun s pcBuffer => kvStoreGetString cfg s key pcBuffer).map
    (Prod.map prvWithoutTerminator id)

namespace KVStoreCache

/-- A read of the entry finds bytes. -/
def HoldsValue (s : KVStoreCache n) (k : Fin n) : Prop :=
  (pvGetDataReadPtr s k).isNull = false ∧ 0 < (s.entry k).length

instance (s : KVStoreCache n) (k : Fin n) : Decidable (s.HoldsValue k) :=
  inferInstanceAs (Decidable (_ ∧ _))

/-- The pointer of an entry is NULL, as a refused request leaves it, or leads to a live block. -/
def Readable (s : KVStoreCache n) (k : Fin n) : Prop :=
  (s.entry k).OnHeap → s.address k ≠ 0 →
    ∃ b, s.heap.block (s.address k) = some b ∧ (s.entry k).length ≤ b.length

theorem Valid.readable {s : KVStoreCache n} (hs : s.Valid) (k : Fin n) : s.Readable k :=
  fun hk _ => hs.backed k hk

variable {s : KVStoreCache n} {k : Fin n}

theorem HoldsValue.type (h : s.HoldsValue k) : (s.entry k).type ≠ .kvTypeNone := by
  intro ht
  have hnull := h.1
  rw [pvGetDataReadPtr, if_pos ht] at hnull
  cases hnull

theorem HoldsValue.address (h : s.HoldsValue k) (hlen : sizeofVoidPtr < (s.entry k).length) :
    s.address k ≠ 0 := by
  have hnull := h.1
  rw [pvGetDataReadPtr, if_neg h.type, if_pos hlen] at hnull
  exact beq_eq_false_iff_ne.mp hnull

theorem Readable.read (hr : s.Readable k) (h : s.HoldsValue k) :
    (s.contents k).length = (s.entry k).length ∧ ∀ len, len ≤ (s.entry k).length →
      s.readThrough k len (pvGetDataReadPtr s k) = .ok ((s.contents k).take len) := by
  rw [pvGetDataReadPtr, if_neg h.type, contents]
  by_cases hlen : sizeofVoidPtr < (s.entry k).length
  · obtain ⟨b, hb, hle⟩ := hr ⟨h.type, hlen⟩ (h.address hlen)
    rw [if_pos hlen, if_pos hlen, hb]
    refine ⟨List.length_take_of_le hle, ?_⟩
    intro len hl
    have hload : s.heap.load (s.entry k).data.pvData len = some (b.take len) :=
      Heap.load_of_live hb (Nat.le_trans hl hle)
    rw [readThrough, hload, Option.getD_some, List.take_take, Nat.min_eq_left hl]
    rfl
  · have hsize := (s.entry k).data.size
    rw [if_neg hlen, if_neg hlen]
    refine ⟨List.length_take_of_le (by omega), ?_⟩
    intro len hl
    have hfit : len ≤ sizeofVoidPtr := by omega
    rw [readThrough, if_pos hfit, List.take_take, Nat.min_eq_left hl]
    rfl

end KVStoreCache

section reads

variable {cfg : KVStoreConfig n} {s : KVStoreCache n} {k : Fin n}

theorem xReadEntryOrDefault_held (cfg : KVStoreConfig n) (hr : s.Readable k)
    (h : s.HoldsValue k) (buf : List UInt8) : xReadEntryOrDefault cfg s k buf =
      .ok ⟨copyToBuffer buf ((s.contents k).take buf.length), (s.contents k).length⟩ := by
  obtain ⟨hlen, hread⟩ := hr.read h
  have hcopy := hread (min buf.length (s.entry k).length) (Nat.min_le_right ..)
  have htake : (s.contents k).take (min buf.length (s.entry k).length) =
      (s.contents k).take buf.length := by
    rw [← hlen, ← List.take_take, List.take_of_length_le (Nat.le_refl _)]
  have hne : (s.entry k).length ≠ 0 := Nat.ne_of_gt h.2
  simp [xReadEntryOrDefault, xprvCopyValueFromCache, h.1, hcopy, htake, hne, hlen, bind,
    Except.bind, pure, Except.pure]

theorem xReadEntryOrDefault_notHeld (cfg : KVStoreConfig n) (h : ¬ s.HoldsValue k)
    (buf : List UInt8) : xReadEntryOrDefault cfg s k buf =
      (prvCopyDefault (cfg.kvStoreDefaults k) (min buf.length (cfg.kvStoreDefaults k).length)).map
        fun v => ⟨copyToBuffer buf v, (cfg.kvStoreDefaults k).length⟩ := by
  by_cases hnull : (pvGetDataReadPtr s k).isNull = true
  · exact xReadEntryOrDefault_null cfg hnull buf
  · have hzero : (s.entry k).length = 0 := by
      have hpos := not_and.mp h (Bool.eq_false_iff.mpr hnull)
      omega
    exact xReadEntryOrDefault_noStoredValue cfg (.inr hzero) buf

end reads

section delivery

variable (cfg : KVStoreConfig n) (table : Fin n → KvDflt) (s : KVStoreCache n) (k : Fin n)

/-- The stored value of the key, or else its default. -/
def currentValue : List UInt8 :=
  if s.HoldsValue k then s.contents k else (table k).valueBytes

/-- What a read copies into a buffer of the value's length: a default of at most four bytes is
taken from its pointer. -/
def copiedValue : List UInt8 :=
  if s.HoldsValue k ∨ sizeofVoidPtr < (currentValue table s k).length then currentValue table s k
  else (cfg.kvStoreDefaults k).value.bytes.take (currentValue table s k).length

def Refused : Prop :=
  0 < kvStoreGetSize cfg s k ∧ (pvPortMalloc s.heap (kvStoreGetSize cfg s k)).1 = 0

instance : Decidable (Refused cfg s k) := inferInstanceAs (Decidable (_ ∧ _))

inductive HeapGetter where
  | blob
  | string
  deriving DecidableEq

namespace HeapGetter

def type : HeapGetter → KVStoreValueType
  | blob => .kvTypeBlob
  | string => .kvTypeString

def run (g : HeapGetter) (key : Nat) : Except Stop (HeapRead × KVStoreCache n) :=
  match g with
  | blob => kvStoreGetBlobHeap cfg s key
  | string => kvStoreGetStringHeap cfg s key

def lengthOf : HeapGetter → List UInt8 → Nat
  | blob, v => v.length
  | string, v => strlen v

/-- A buffer with the complete value and its length, or NULL with length 0 for lack of a value or
of memory. -/
def Delivers (g : HeapGetter) : Prop :=
  ∃ r s', g.run cfg s k = .ok (r, s') ∧
    ((r.pvBuffer ≠ 0 ∧ s'.heap.block r.pvBuffer = some (currentValue table s k) ∧
        r.pxLength = g.lengthOf (currentValue table s k)) ∨
      (r.pvBuffer = 0 ∧ r.pxLength = 0 ∧ (currentValue table s k = [] ∨ Refused cfg s k)))

/-- The length kept in the entry is that of the value, or zero. -/
def SizeAgrees : Prop :=
  (s.entry k).length = 0 ∨ (s.entry k).length = (currentValue table s k).length

/-- The read finds `part` of the value, which for a default of at most four bytes is a chance. -/
def Finds (part : List UInt8) : Prop :=
  s.HoldsValue k ∨ sizeofVoidPtr < (currentValue table s k).length ∨
    part <+: (cfg.kvStoreDefaults k).value.bytes

/-- When a heap getter does what it is for. -/
def DeliversWhen : HeapGetter → Prop
  | blob =>
      if currentValue table s k = [] then (s.entry k).length = 0 ∨ ¬ Refused cfg s k
      else ¬ Refused cfg s k ∧ SizeAgrees table s k ∧ Finds cfg table s k (currentValue table s k)
  | string =>
      if Refused cfg s k then kvStoreGetSize cfg s k = 1
      else ∃ str : CString, str.bytes ≠ [] ∧ currentValue table s k = str.bytes ++ [0] ∧
        SizeAgrees table s k ∧ Finds cfg table s k str.bytes

end HeapGetter

end delivery

section outcomes

variable {cfg : KVStoreConfig n} {table : Fin n → KvDflt} {memory : Memory}
  {s : KVStoreCache n} {k : Fin n}

theorem prvReadToHeap_nothing
    (get : KVStoreCache n → Option (List UInt8) → Except Stop BufferRead)
    (h : kvStoreGetSize cfg s k = 0) :
    prvReadToHeap cfg s k get = .ok (⟨0, 0⟩, s) := by
  rw [prvReadToHeap, h]
  rfl

theorem prvReadToHeap_refused
    (get : KVStoreCache n → Option (List UInt8) → Except Stop BufferRead)
    (h : Refused cfg s k) :
    ∃ s', prvReadToHeap cfg s k get = .ok (⟨kvStoreGetSize cfg s k, 0⟩, s') := by
  rw [prvReadToHeap]
  simp only [if_pos h.1, ne_eq, h.2, not_true_eq_false, if_false]
  exact ⟨_, rfl⟩

/-- The buffer is a new block; the other blocks are as before while it is filled. -/
theorem prvReadToHeap_served
    (get : KVStoreCache n → Option (List UInt8) → Except Stop BufferRead)
    (hpos : 0 < kvStoreGetSize cfg s k) (hok : ¬ Refused cfg s k) :
    ∃ a b heap, a ≠ 0 ∧ b.length = kvStoreGetSize cfg s k ∧ s.heap.block a = none ∧
      heap.block = Function.update s.heap.block a (some b) ∧
      ∀ size v, get { s with heap } (some b) = .ok ⟨size, some v⟩ → v.length = b.length →
        ∃ s', prvReadToHeap cfg s k get =
            .ok (if size = 0 then ⟨0, 0⟩ else ⟨kvStoreGetSize cfg s k, a⟩, s') ∧
          (size ≠ 0 → s'.heap.block a = some v) := by
  have hserved : (pvPortMalloc s.heap (kvStoreGetSize cfg s k)).1 ≠ 0 := fun h => hok ⟨hpos, h⟩
  obtain ⟨hzero, -⟩ | ⟨a, b, haddr, -, -, hnull, hdead, hb, hblock⟩ :=
    KVStoreCache.pvPortMalloc_cases s.heap (kvStoreGetSize cfg s k)
  · exact absurd hzero hserved
  generalize hmalloc : pvPortMalloc s.heap (kvStoreGetSize cfg s k) = res at *
  obtain ⟨p, heap⟩ := res
  obtain rfl : p = a := haddr
  have hlive : heap.block p = some b := by
    rw [hblock]
    exact Function.update_self ..
  refine ⟨p, b, heap, hnull, hb, hdead, hblock, ?_⟩
  intro size v hget hv
  obtain ⟨heap', hstore, -, hblock'⟩ := Heap.store_of_live hlive (v := v) (Nat.le_of_eq hv)
  have hnew : heap'.block p = some v := by
    rw [hblock', Function.update_self, hv, List.drop_length, List.append_nil]
  obtain ⟨heap'', hfree, -⟩ := Heap.free_of_live hnew
  rw [prvReadToHeap]
  simp only [if_pos hpos, hmalloc, ne_eq, hnull, not_false_eq_true, if_true, hlive, hget, bind,
    Except.bind, Option.getD_some, hstore, definedOr]
  by_cases hsize : size = 0
  · rw [if_pos hsize, if_pos hsize, vPortFree, if_neg hnull, hfree]
    exact ⟨_, rfl, fun h => absurd hsize h⟩
  · rw [if_neg hsize, if_neg hsize]
    exact ⟨_, rfl, fun _ => hnew⟩

/-- A new block changes nothing about what the entry holds. -/
theorem KVStoreCache.Readable.malloc (hr : s.Readable k) {heap : Heap UInt8} {a : Nat}
    {b : Option (List UInt8)} (hdead : s.heap.block a = none)
    (hblock : heap.block = Function.update s.heap.block a b) :
    KVStoreCache.Readable { s with heap } k ∧
      (s.HoldsValue k → KVStoreCache.contents { s with heap } k = s.contents k) := by
  have hkeep : (s.entry k).OnHeap → s.address k ≠ 0 →
      heap.block (s.address k) = s.heap.block (s.address k) := by
    intro hk hne
    obtain ⟨b', hb', -⟩ := hr hk hne
    have hdiff : s.address k ≠ a := by
      intro heq
      rw [heq, hdead] at hb'
      cases hb'
    rw [hblock, Function.update_of_ne hdiff]
  constructor
  · intro hk hne
    obtain ⟨b', hb', hle⟩ := hr hk hne
    exact ⟨b', (hkeep hk hne).trans hb', hle⟩
  · intro h
    by_cases hlen : sizeofVoidPtr < (s.entry k).length
    · have hsame : heap.block (s.entry k).data.pvData = s.heap.block (s.address k) :=
        hkeep ⟨h.type, hlen⟩ (h.address hlen)
      rw [KVStoreCache.contents, KVStoreCache.contents, if_pos hlen, if_pos hlen,
        KVStoreCache.address, hsame]
    · rw [KVStoreCache.contents, KVStoreCache.contents, if_neg hlen, if_neg hlen]

theorem currentValue_held (h : s.HoldsValue k) : currentValue table s k = s.contents k := if_pos h

theorem currentValue_notHeld (h : ¬ s.HoldsValue k) :
    currentValue table s k = (table k).valueBytes := if_neg h

theorem currentValue_malloc (table : Fin n → KvDflt) (hr : s.Readable k) {heap : Heap UInt8}
    {a : Nat} {b : Option (List UInt8)} (hdead : s.heap.block a = none)
    (hblock : heap.block = Function.update s.heap.block a b) :
    currentValue table { s with heap } k = currentValue table s k := by
  by_cases h : s.HoldsValue k
  · have h' : KVStoreCache.HoldsValue { s with heap } k := h
    rw [currentValue_held h, currentValue_held h', (hr.malloc hdead hblock).2 h]
  · have h' : ¬ KVStoreCache.HoldsValue { s with heap } k := h
    rw [currentValue_notHeld h, currentValue_notHeld h']

/-- The row of a key that a heap getter may read is an array. -/
theorem HeapGetter.row {g : HeapGetter} (hcfg : cfg.kvStoreDefaults k = (table k).entry memory)
    (hplaced : (table k).Placed memory) (htype : (cfg.kvStoreDefaults k).type = g.type) :
    ∃ value, cfg.kvStoreDefaults k = kvDfltPointer memory g.type value ∧
      (table k).valueBytes = value.bytes ∧ value.bytes <+: memory value.address := by
  rw [hcfg] at htype ⊢
  cases hrow : table k with
  | blob value | string value =>
    rw [hrow] at htype hplaced
    exact ⟨value, by rw [← htype]; rfl, rfl, hplaced⟩
  | baseT value | uBaseT value | int32 value | uint32 value =>
    rw [hrow] at htype
    cases g <;> cases htype

theorem xReadEntryOrDefault_current {g : HeapGetter}
    (hcfg : cfg.kvStoreDefaults k = (table k).entry memory) (hplaced : (table k).Placed memory)
    (htype : (cfg.kvStoreDefaults k).type = g.type) (hr : s.Readable k) (buf : List UInt8) :
    ∃ v, xReadEntryOrDefault cfg s k buf = .ok ⟨v, (currentValue table s k).length⟩ ∧
      v.length = buf.length ∧
      (buf.length = (currentValue table s k).length → v = copiedValue cfg table s k) := by
  have hfill : ∀ part : List UInt8, part.length ≤ buf.length →
      (copyToBuffer buf part).length = buf.length := by
    intro part hpart
    rw [copyToBuffer, List.length_append, List.length_drop]
    omega
  have hwhole : ∀ part : List UInt8, part.length = buf.length → copyToBuffer buf part = part := by
    intro part hpart
    rw [copyToBuffer, hpart, List.drop_length, List.append_nil]
  by_cases h : s.HoldsValue k
  · rw [copiedValue, if_pos (.inl h), currentValue_held h, xReadEntryOrDefault_held cfg hr h]
    refine ⟨_, rfl, hfill _ (List.length_take_le ..), ?_⟩
    intro hlen
    rw [hlen, List.take_length]
    exact hwhole _ hlen.symm
  · obtain ⟨value, hrow, hbytes, hmem⟩ := HeapGetter.row hcfg hplaced htype
    rw [copiedValue, currentValue_notHeld h, xReadEntryOrDefault_notHeld cfg h, hrow, hbytes]
    have hD : (kvDfltPointer memory g.type value).length = value.bytes.length := rfl
    have hcopy : ∀ m, m ≤ value.bytes.length →
        prvCopyDefault (kvDfltPointer memory g.type value) m =
          .ok (if sizeofVoidPtr < m then value.bytes.take m
            else (kvDfltPointer memory g.type value).value.bytes.take m) := by
      intro m hm
      by_cases hfar : sizeofVoidPtr < m
      · rw [if_pos hfar]
        exact (prvCopyDefault_pointer hm hmem).mpr (.inl hfar)
      · rw [if_neg hfar, prvCopyDefault, if_neg hfar]
    have hlen := prvCopyDefault_length (hcopy _ (Nat.min_le_right buf.length value.bytes.length))
    rw [hD, hcopy _ (Nat.min_le_right ..)]
    refine ⟨_, rfl, hfill _ (by rw [hlen]; exact Nat.min_le_left ..), ?_⟩
    intro heq
    rw [heq, Nat.min_self] at hlen ⊢
    rw [hwhole _ (hlen.trans heq.symm)]
    by_cases hfar : sizeofVoidPtr < value.bytes.length
    · rw [if_pos hfar, if_pos (.inr hfar), List.take_length]
    · rw [if_neg hfar, if_neg (not_or.mpr ⟨h, hfar⟩)]

theorem kvStoreGetSize_eq (hcfg : cfg.kvStoreDefaults k = (table k).entry memory) :
    kvStoreGetSize cfg s k =
      if (s.entry k).length = 0 then (currentValue table s k).length else (s.entry k).length := by
  rw [kvStoreGetSize, dif_pos k.isLt]
  by_cases hzero : (s.entry k).length = 0
  · have h : ¬ s.HoldsValue k := fun h => Nat.ne_of_gt h.2 hzero
    rw [if_pos hzero, if_pos hzero, currentValue_notHeld h, hcfg, KvDflt.entry_length]
  · rw [if_neg hzero, if_neg hzero]

theorem sizeAgrees_iff (hcfg : cfg.kvStoreDefaults k = (table k).entry memory) :
    HeapGetter.SizeAgrees table s k ↔
      kvStoreGetSize cfg s k = (currentValue table s k).length := by
  rw [kvStoreGetSize_eq hcfg, HeapGetter.SizeAgrees]
  by_cases hzero : (s.entry k).length = 0
  · rw [if_pos hzero]
    exact iff_of_true (.inl hzero) rfl
  · rw [if_neg hzero]
    exact or_iff_right hzero

theorem copiedValue_eq_iff :
    copiedValue cfg table s k = currentValue table s k ↔
      HeapGetter.Finds cfg table s k (currentValue table s k) := by
  rw [copiedValue, HeapGetter.Finds, ← or_assoc]
  split
  · next h => exact iff_of_true rfl (.inl h)
  · next h =>
    rw [or_iff_right h, List.prefix_iff_eq_take]
    exact eq_comm

/-- The terminator that is put at the end makes up for a last byte that was not found. -/
theorem copiedValue_set_eq_iff {str : CString}
    (hval : currentValue table s k = str.bytes ++ [0]) :
    (copiedValue cfg table s k).set str.length 0 = str.bytes ++ [0] ↔
      HeapGetter.Finds cfg table s k str.bytes := by
  have hlen : (currentValue table s k).length = str.length + 1 := by
    rw [hval, List.length_append, List.length_singleton, CString.length]
  rw [copiedValue, HeapGetter.Finds, ← or_assoc]
  split
  · next h =>
    refine iff_of_true ?_ (.inl h)
    rw [hval, CString.length, List.set_append_right _ _ (Nat.le_refl _), Nat.sub_self]
    rfl
  · next h =>
    have hsize := (cfg.kvStoreDefaults k).value.size
    have hfit : str.length < (cfg.kvStoreDefaults k).value.bytes.length := by omega
    have htake : ((cfg.kvStoreDefaults k).value.bytes.take str.length).length = str.length :=
      List.length_take_of_le (Nat.le_of_lt hfit)
    rw [or_iff_right h, List.prefix_iff_eq_take, hlen, List.take_succ_eq_append_getElem hfit,
      List.set_append_right _ _ (Nat.le_of_eq htake), htake, Nat.sub_self]
    constructor
    · intro heq
      exact (List.append_inj_left' heq rfl).symm
    · intro heq
      exact congrArg (· ++ [0]) heq.symm

namespace HeapGetter

def fill (g : HeapGetter) (cfg : KVStoreConfig n) (s : KVStoreCache n) (key : Nat) :
    Option (List UInt8) → Except Stop BufferRead :=
  match g with
  | blob => kvStoreGetBlob cfg s key
  | string => kvStoreGetString cfg s key

def count : HeapGetter → Nat → Nat
  | blob, len => len
  | string, len => len - 1

/-- What the getter leaves of the bytes that were copied. -/
def finish : HeapGetter → List UInt8 → List UInt8
  | blob, v => v
  | string, v => v.set (v.length - 1) 0

theorem finish_length (g : HeapGetter) (v : List UInt8) : (g.finish v).length = v.length := by
  cases g with
  | blob => rfl
  | string => exact List.length_set ..

variable {g : HeapGetter}

theorem fill_current (hcfg : cfg.kvStoreDefaults k = (table k).entry memory)
    (hplaced : (table k).Placed memory) (htype : (cfg.kvStoreDefaults k).type = g.type)
    (hr : s.Readable k) {b : List UInt8} (hb : b ≠ []) :
    ∃ v, v.length = b.length ∧
      (b.length = (currentValue table s k).length → v = copiedValue cfg table s k) ∧
      g.fill cfg s k (some b) =
        .ok ⟨g.count (currentValue table s k).length, some (g.finish v)⟩ := by
  obtain ⟨v, hread, hlen, hcopied⟩ := xReadEntryOrDefault_current hcfg hplaced htype hr b
  refine ⟨v, hlen, hcopied, ?_⟩
  cases g with
  | blob =>
    have ht : (cfg.kvStoreDefaults k).type = .kvTypeBlob := htype
    simp only [fill, kvStoreGetBlob, dif_pos k.isLt, if_pos ht, hread, bind, Except.bind]
    rfl
  | string =>
    have ht : (cfg.kvStoreDefaults k).type = .kvTypeString := htype
    simp only [fill, kvStoreGetString, dif_pos k.isLt, if_pos ht, hread, bind, Except.bind,
      if_neg hb, finish, hlen]
    rfl

/-- What a heap getter does when its block is not refused. -/
theorem served_current (hcfg : cfg.kvStoreDefaults k = (table k).entry memory)
    (hplaced : (table k).Placed memory) (htype : (cfg.kvStoreDefaults k).type = g.type)
    (hr : s.Readable k) (hpos : 0 < kvStoreGetSize cfg s k) (hok : ¬ Refused cfg s k) :
    ∃ a v s', a ≠ 0 ∧ v.length = kvStoreGetSize cfg s k ∧
      (kvStoreGetSize cfg s k = (currentValue table s k).length →
        v = copiedValue cfg table s k) ∧
      prvReadToHeap cfg s k (fun s b => g.fill cfg s k b) =
        .ok (if g.count (currentValue table s k).length = 0 then ⟨0, 0⟩
          else ⟨kvStoreGetSize cfg s k, a⟩, s') ∧
      (g.count (currentValue table s k).length ≠ 0 →
        s'.heap.block a = some (g.finish v)) := by
  obtain ⟨a, b, heap, hnull, hb, hdead, hblock, hserved⟩ :=
    prvReadToHeap_served (fun s b => g.fill cfg s k b) hpos hok
  have hbne : b ≠ [] := by
    intro hnil
    rw [hnil] at hb
    exact Nat.ne_of_gt hpos hb.symm
  obtain ⟨v, hlen, hcopied, hget⟩ :=
    fill_current hcfg hplaced htype (hr.malloc hdead hblock).1 hbne
  have hsame := currentValue_malloc table hr hdead hblock
  rw [hsame] at hcopied hget
  obtain ⟨s', hrun, hnew⟩ := hserved _ _ hget ((g.finish_length v).trans hlen)
  refine ⟨a, v, s', hnull, hlen.trans hb, ?_, hrun, hnew⟩
  intro h
  rw [hcopied (hb.trans h), copiedValue, copiedValue, hsame]
  rfl

/-- A block that was given out is the value, or not. -/
theorem delivers_block {r : HeapRead} {s' : KVStoreCache n} {v : List UInt8}
    (hrun : g.run cfg s k = .ok (r, s')) (hnull : r.pvBuffer ≠ 0)
    (hblock : s'.heap.block r.pvBuffer = some v) :
    g.Delivers cfg table s k ↔
      v = currentValue table s k ∧ r.pxLength = g.lengthOf (currentValue table s k) := by
  rw [Delivers, hrun]
  constructor
  · intro h
    obtain ⟨r', s'', hrun', hr'⟩ := h
    obtain ⟨rfl, rfl⟩ := Prod.mk.inj (Except.ok.inj hrun')
    obtain ⟨-, hblk, hlen⟩ | ⟨hz, -⟩ := hr'
    · exact ⟨Option.some.inj (hblock.symm.trans hblk), hlen⟩
    · exact absurd hz hnull
  · intro h
    exact ⟨r, s', rfl, .inl ⟨hnull, h.1 ▸ hblock, h.2⟩⟩

theorem delivers_null {r : HeapRead} {s' : KVStoreCache n}
    (hrun : g.run cfg s k = .ok (r, s')) (hnull : r.pvBuffer = 0) :
    g.Delivers cfg table s k ↔
      r.pxLength = 0 ∧ (currentValue table s k = [] ∨ Refused cfg s k) := by
  rw [Delivers, hrun]
  constructor
  · intro h
    obtain ⟨r', s'', hrun', hr'⟩ := h
    obtain ⟨rfl, rfl⟩ := Prod.mk.inj (Except.ok.inj hrun')
    obtain ⟨hne, -⟩ | ⟨-, hr'⟩ := hr'
    · exact absurd hnull hne
    · exact hr'
  · intro h
    exact ⟨r, s', rfl, .inr ⟨hnull, h⟩⟩

theorem blob_delivers_iff (hcfg : cfg.kvStoreDefaults k = (table k).entry memory)
    (hplaced : (table k).Placed memory) (htype : (cfg.kvStoreDefaults k).type = .kvTypeBlob)
    (hr : s.Readable k) : blob.Delivers cfg table s k ↔ blob.DeliversWhen cfg table s k := by
  have hagree := sizeAgrees_iff (s := s) hcfg
  have hsize := kvStoreGetSize_eq (s := s) hcfg
  rw [DeliversWhen]
  by_cases hzero : kvStoreGetSize cfg s k = 0
  · -- nothing is allocated
    have hval : currentValue table s k = [] := by
      apply List.eq_nil_of_length_eq_zero
      by_cases hentry : (s.entry k).length = 0
      · rwa [hsize, if_pos hentry] at hzero
      · rw [hsize, if_neg hentry] at hzero
        exact absurd hzero hentry
    have hrun : blob.run cfg s k = .ok (⟨0, 0⟩, s) :=
      prvReadToHeap_nothing (fun s b => blob.fill cfg s k b) hzero
    rw [if_pos hval, delivers_null hrun rfl]
    refine iff_of_true ⟨rfl, .inl hval⟩ (.inr ?_)
    intro hrefused
    exact Nat.ne_of_gt hrefused.1 hzero
  have hpos : 0 < kvStoreGetSize cfg s k := Nat.pos_of_ne_zero hzero
  by_cases hrefused : Refused cfg s k
  · -- the length that was asked for is left in `*pxLength`
    obtain ⟨s', hrun⟩ := prvReadToHeap_refused (fun s b => blob.fill cfg s k b) hrefused
    have hrun' : blob.run cfg s k = .ok (⟨kvStoreGetSize cfg s k, 0⟩, s') := hrun
    rw [delivers_null hrun' rfl]
    apply iff_of_false fun h => hzero h.1
    split
    · next hval =>
      intro h
      obtain hentry | hok := h
      · rw [hsize, if_pos hentry, hval] at hzero
        exact hzero rfl
      · exact hok hrefused
    · exact fun h => h.1 hrefused
  obtain ⟨a, v, s', hnull, -, hcopied, hrun, hnew⟩ :=
    served_current (g := blob) hcfg hplaced htype hr hpos hrefused
  by_cases hval : currentValue table s k = []
  · rw [hval, if_pos (by rfl)] at hrun
    have hrun' : blob.run cfg s k = .ok (⟨0, 0⟩, s') := hrun
    rw [if_pos hval, delivers_null hrun' rfl]
    exact iff_of_true ⟨rfl, .inl hval⟩ (.inr hrefused)
  · have hvlen : blob.count (currentValue table s k).length ≠ 0 := fun h =>
      hval (List.eq_nil_of_length_eq_zero h)
    rw [if_neg hvlen] at hrun
    have hrun' : blob.run cfg s k = .ok (⟨kvStoreGetSize cfg s k, a⟩, s') := hrun
    rw [if_neg hval, hagree, ← copiedValue_eq_iff, delivers_block hrun' hnull (hnew hvlen)]
    constructor
    · intro h
      obtain ⟨hv, hlen⟩ := h
      exact ⟨hrefused, hlen, (hcopied hlen).symm.trans hv⟩
    · intro h
      obtain ⟨-, hlen, hv⟩ := h
      exact ⟨(hcopied hlen).trans hv, hlen⟩

/-- What is stored in `*pxLength` is one less than the length of the block. -/
theorem string_run {r : HeapRead} {s' : KVStoreCache n}
    (h : prvReadToHeap cfg s k (fun s b => string.fill cfg s k b) = .ok (r, s')) :
    string.run cfg s k = .ok (prvWithoutTerminator r, s') := by
  have hrun : string.run cfg s k =
      (prvReadToHeap cfg s k (fun s b => string.fill cfg s k b)).map
        (Prod.map prvWithoutTerminator id) := rfl
  rw [hrun, h]
  rfl

/-- NULL although the request was not refused: the length wraps. -/
theorem string_wraps {s' : KVStoreCache n}
    (h : prvReadToHeap cfg s k (fun s b => string.fill cfg s k b) = .ok (⟨0, 0⟩, s')) :
    ¬ string.Delivers cfg table s k := by
  have hwrap : (prvWithoutTerminator ⟨0, 0⟩).pxLength ≠ 0 := by decide
  rw [delivers_null (string_run h) rfl]
  exact fun hdel => hwrap hdel.1

theorem string_delivers_refused (hrefused : Refused cfg s k) :
    string.Delivers cfg table s k ↔ kvStoreGetSize cfg s k = 1 := by
  obtain ⟨s', hread⟩ := prvReadToHeap_refused (fun s b => string.fill cfg s k b) hrefused
  have hpos := hrefused.1
  have hlen : (prvWithoutTerminator ⟨kvStoreGetSize cfg s k, 0⟩).pxLength =
      kvStoreGetSize cfg s k - 1 := if_neg (Nat.ne_of_gt hpos)
  rw [delivers_null (string_run hread) rfl, hlen]
  constructor
  · intro h
    have hone := h.1
    omega
  · intro h
    refine ⟨?_, .inr hrefused⟩
    omega

theorem two_le_length {v : List UInt8} {str : CString} (hstr : str.bytes ≠ [])
    (hval : v = str.bytes ++ [0]) : 2 ≤ v.length := by
  have hpos := List.length_pos_of_ne_nil hstr
  rw [hval, List.length_append, List.length_singleton]
  omega

theorem string_delivers_iff (hcfg : cfg.kvStoreDefaults k = (table k).entry memory)
    (hplaced : (table k).Placed memory) (htype : (cfg.kvStoreDefaults k).type = .kvTypeString)
    (hr : s.Readable k) : string.Delivers cfg table s k ↔ string.DeliversWhen cfg table s k := by
  have hagree := sizeAgrees_iff (s := s) hcfg
  rw [DeliversWhen]
  by_cases hrefused : Refused cfg s k
  · rw [if_pos hrefused]
    exact string_delivers_refused hrefused
  rw [if_neg hrefused]
  by_cases hzero : kvStoreGetSize cfg s k = 0
  · apply iff_of_false (string_wraps (prvReadToHeap_nothing _ hzero))
    intro h
    obtain ⟨str, hstr, hval, hsize, -⟩ := h
    have h2 := two_le_length hstr hval
    rw [hagree] at hsize
    omega
  have hpos : 0 < kvStoreGetSize cfg s k := Nat.pos_of_ne_zero hzero
  obtain ⟨a, v, s', hnull, hvlen, hcopied, hread, hnew⟩ :=
    served_current (g := string) hcfg hplaced htype hr hpos hrefused
  have hcount : string.count (currentValue table s k).length =
      (currentValue table s k).length - 1 := rfl
  rw [hcount] at hread hnew
  by_cases hshort : (currentValue table s k).length - 1 = 0
  · rw [if_pos hshort] at hread
    apply iff_of_false (string_wraps hread)
    intro h
    obtain ⟨str, hstr, hval, -⟩ := h
    have h2 := two_le_length hstr hval
    omega
  rw [if_neg hshort] at hread
  have hlen : (prvWithoutTerminator ⟨kvStoreGetSize cfg s k, a⟩).pxLength =
      kvStoreGetSize cfg s k - 1 := if_neg hzero
  have hfinish : string.finish v = v.set (kvStoreGetSize cfg s k - 1) 0 := by
    rw [finish, hvlen]
  have hlast : ∀ str : CString, currentValue table s k = str.bytes ++ [0] →
      kvStoreGetSize cfg s k = (currentValue table s k).length →
        kvStoreGetSize cfg s k - 1 = str.length := by
    intro str hval hall
    rw [hall, hval, List.length_append, List.length_singleton, CString.length]
    omega
  rw [delivers_block (string_run hread) hnull (hnew hshort), hlen]
  constructor
  · intro h
    obtain ⟨hv, hstrlen⟩ := h
    change kvStoreGetSize cfg s k - 1 = strlen (currentValue table s k) at hstrlen
    have hall : kvStoreGetSize cfg s k = (currentValue table s k).length := by
      rw [← hv, finish_length, hvlen]
    obtain ⟨str, hstr⟩ := strlen_succ_eq_length_iff.mp
      (show strlen (currentValue table s k) + 1 = (currentValue table s k).length by omega)
    refine ⟨str, ?_, hstr, hagree.mpr hall, (copiedValue_set_eq_iff hstr).mp ?_⟩
    · intro hnil
      rw [hstr, hnil] at hshort
      exact hshort rfl
    · rw [← hlast str hstr hall, ← hcopied hall, ← hfinish, hv, hstr]
  · intro h
    obtain ⟨str, -, hval, hsize, hfinds⟩ := h
    have hall := hagree.mp hsize
    have hlenv := hlast str hval hall
    constructor
    · rw [hfinish, hcopied hall, hlenv, (copiedValue_set_eq_iff hval).mpr hfinds, hval]
    · rw [hlenv, hval]
      exact str.strlen_append_nul.symm

end HeapGetter

end outcomes

/-- A heap getter gives the complete value, or NULL and zero for lack of a value or of memory, in
these cases and no others. -/
theorem heapGetter_delivers_iff (g : HeapGetter) {cfg : KVStoreConfig n} {table : Fin n → KvDflt}
    {memory : Memory} {s : KVStoreCache n} {k : Fin n}
    (hcfg : ∀ j, cfg.kvStoreDefaults j = (table j).entry memory)
    (hplaced : ∀ j, (table j).Placed memory) (htype : (cfg.kvStoreDefaults k).type = g.type)
    (hr : s.Readable k) : g.Delivers cfg table s k ↔ g.DeliversWhen cfg table s k := by
  cases g with
  | blob => exact HeapGetter.blob_delivers_iff (hcfg k) (hplaced k) htype hr
  | string => exact HeapGetter.string_delivers_iff (hcfg k) (hplaced k) htype hr

def namedStore : KVStoreCache 6 :=
  emptyStore.setEntry 0 ⟨.kvTypeString, 3, ⟨[97, 98, 0, 0], rfl⟩, false⟩

theorem heapGetter_delivers_ab :
    HeapGetter.string.Delivers (kvStoreBuild 0xFFF80010) (kvStoreDefaultRows 0xFFF80010)
      namedStore 0 :=
  (heapGetter_delivers_iff .string (fun _ => rfl) (by decide) rfl
    (fun h => absurd h.2 (by decide))).mpr
    ⟨⟨[97, 98], by decide⟩, by decide, by decide, .inr (by decide), .inl (by decide)⟩

/-- The default thing name is empty: NULL is returned, with the largest length there is. -/
theorem not_delivers_thingName :
    ¬ ∀ (address : Nat) (s : KVStoreCache 6) (k : Fin 6), s.Readable k →
      ((kvStoreBuild address).kvStoreDefaults k).type = .kvTypeString →
      HeapGetter.string.Delivers (kvStoreBuild address) (kvStoreDefaultRows address) s k := by
  intro h
  obtain ⟨r, s', hrun, hr⟩ :=
    h 0xFFF80010 emptyStore 0 (fun hk => absurd hk.2 (by decide)) rfl
  have hread : (HeapGetter.string.run (kvStoreBuild 0xFFF80010) emptyStore (0 : Fin 6)).map
      Prod.fst = .ok ⟨2 ^ 32 - 1, 0⟩ := by decide
  rw [hrun] at hread
  obtain rfl : r = ⟨2 ^ 32 - 1, 0⟩ := Except.ok.inj hread
  obtain ⟨hne, -⟩ | ⟨-, hz, -⟩ := hr
  · exact hne rfl
  · cases hz

end RenesasDemo.KVStore
