import RenesasDemo.KVStore.Api

namespace RenesasDemo.KVStore

open Framework

/-- A value as the typed setters take it. -/
inductive KVValue where
  | base (xNewVal : Int32)
  | uBase (uxNewVal : UInt32)
  | int32 (lNewVal : Int32)
  | uint32 (ulNewVal : UInt32)
  | string (s : CString)
  | blob (bytes : List UInt8) (nonempty : 0 < bytes.length)
  deriving DecidableEq

namespace KVValue

def type : KVValue → KVStoreValueType
  | base _ => .kvTypeBaseT
  | uBase _ => .kvTypeUBaseT
  | int32 _ => .kvTypeInt32
  | uint32 _ => .kvTypeUInt32
  | string _ => .kvTypeString
  | blob _ _ => .kvTypeBlob

/-- The bytes that are stored; a string with its terminator. -/
def bytes : KVValue → List UInt8
  | base x => toBytes 4 x.toUInt32.toNat
  | uBase x => toBytes 4 x.toNat
  | int32 x => toBytes 4 x.toUInt32.toNat
  | uint32 x => toBytes 4 x.toNat
  | string s => s.bytes ++ [0]
  | blob v _ => v

theorem bytes_pos (v : KVValue) : 0 < v.bytes.length := by
  cases v with
  | blob _ h => exact h
  | _ => simp [bytes]

theorem type_ne_none (v : KVValue) : v.type ≠ .kvTypeNone := by
  cases v <;> exact fun h => by cases h

theorem type_lt_last (v : KVValue) : v.type.toNat < kvTypeLast := by
  cases v <;> simp [type, KVStoreValueType.toNat, kvTypeLast]

theorem type_small (v : KVValue) : v.type.toNat < sizeMod :=
  v.type_lt_last.trans (by decide)

end KVValue

/-- A call of a setter. -/
inductive SetCall where
  | setBlob (key : Nat) (pvNewValue : Option (List UInt8))
  | setString (key : Nat) (pcNewValue : Option CString)
  | setUInt32 (key : Nat) (ulNewVal : UInt32)
  | setInt32 (key : Nat) (lNewVal : Int32)
  | setUBase (key : Nat) (uxNewVal : UInt32)
  | setBase (key : Nat) (xNewVal : Int32)
  deriving DecidableEq

variable {n : Nat}

namespace SetCall

def key : SetCall → Nat
  | setBlob key _ | setString key _ | setUInt32 key _ | setInt32 key _ | setUBase key _
  | setBase key _ => key

def type : SetCall → KVStoreValueType
  | setBlob .. => .kvTypeBlob
  | setString .. => .kvTypeString
  | setUInt32 .. => .kvTypeUInt32
  | setInt32 .. => .kvTypeInt32
  | setUBase .. => .kvTypeUBaseT
  | setBase .. => .kvTypeBaseT

/-- `none` for a NULL pointer or an empty blob. -/
def value : SetCall → Option KVValue
  | setBlob _ none => none
  | setBlob _ (some v) => if h : 0 < v.length then some (.blob v h) else none
  | setString _ s => s.map .string
  | setUInt32 _ x => some (.uint32 x)
  | setInt32 _ x => some (.int32 x)
  | setUBase _ x => some (.uBase x)
  | setBase _ x => some (.base x)

def run (cfg : KVStoreConfig n) (s : KVStoreCache n) :
    SetCall → Except Stop (Bool × KVStoreCache n)
  | setBlob key v => kvStoreSetBlob cfg s key v
  | setString key str => kvStoreSetString cfg s key str
  | setUInt32 key x => kvStoreSetUInt32 cfg s key x
  | setInt32 key x => kvStoreSetInt32 cfg s key x
  | setUBase key x => kvStoreSetUBase cfg s key x
  | setBase key x => kvStoreSetBase cfg s key x

/-- The key and the value of a call that the checks let through. -/
def target (cfg : KVStoreConfig n) (call : SetCall) : Option (Fin n × KVValue) :=
  call.value.bind fun v =>
    if h : call.key < n then
      if (cfg.kvStoreDefaults ⟨call.key, h⟩).type = v.type then some (⟨call.key, h⟩, v) else none
    else none

variable {cfg : KVStoreConfig n} {s s' : KVStoreCache n} {call : SetCall} {k : Fin n}
  {v : KVValue}

theorem value_type (h : call.value = some v) : v.type = call.type := by
  cases call with
  | setBlob key p =>
    cases p with
    | none => cases h
    | some b =>
      rw [value] at h
      split at h
      · obtain rfl := Option.some.inj h
        rfl
      · cases h
  | setString key p =>
    obtain ⟨str, -, rfl⟩ := Option.map_eq_some_iff.mp h
    rfl
  | _ =>
    obtain rfl := Option.some.inj h
    rfl

theorem run_eq (cfg : KVStoreConfig n) (s : KVStoreCache n) (call : SetCall) :
    call.run cfg s = match call.value with
      | some v => prvSetValue cfg s call.key v.type v.bytes
      | none => .ok (false, s) := by
  cases call with
  | setBlob key p =>
    cases p with
    | none => rfl
    | some b =>
      simp only [run, kvStoreSetBlob, value]
      split
      · simp [KVValue.type, KVValue.bytes, SetCall.key]
      · simp
  | setString key p => cases p <;> rfl
  | _ => rfl

theorem target_eq_some (h : call.target cfg = some (k, v)) :
    call.value = some v ∧ call.key = k.val ∧ (cfg.kvStoreDefaults k).type = v.type := by
  obtain ⟨w, hw, hrest⟩ := Option.bind_eq_some_iff.mp h
  split at hrest
  · next hk =>
    split at hrest
    · next ht =>
      obtain ⟨hk', hv'⟩ := Prod.mk.inj (Option.some.inj hrest)
      subst hk' hv'
      exact ⟨hw, rfl, ht⟩
    · cases hrest
  · cases hrest

theorem run_of_target (h : call.target cfg = some (k, v)) :
    call.run cfg s =
      (xprvWriteCacheEntry cfg.ndebug s k v.type v.bytes).map fun s => (true, s) := by
  obtain ⟨hvalue, hkey, htype⟩ := target_eq_some h
  have hk : (⟨k.val, k.isLt⟩ : Fin n) = k := rfl
  rw [run_eq, hvalue]
  simp only [hkey, prvSetValue, dif_pos k.isLt, hk, if_pos htype]

theorem run_of_no_target (h : call.target cfg = none) : call.run cfg s = .ok (false, s) := by
  rw [run_eq]
  cases hvalue : call.value with
  | none => rfl
  | some v =>
    rw [target, hvalue, Option.bind_some] at h
    simp only [prvSetValue]
    split at h
    · next hk =>
      rw [dif_pos hk]
      split at h
      · cases h
      · next ht => rw [if_neg ht]
    · next hk => rw [dif_neg hk]

theorem target_of_type (h : cfg.keyType call.key ≠ some call.type) : call.target cfg = none := by
  cases htarget : call.target cfg with
  | none => rfl
  | some p =>
    obtain ⟨k, v⟩ := p
    obtain ⟨hvalue, hkey, htype⟩ := target_eq_some htarget
    exfalso
    apply h
    rw [KVStoreConfig.keyType, dif_pos (by rw [hkey]; exact k.isLt), ← value_type hvalue, ← htype]
    simp [hkey]

end SetCall

/-- The map that the store stands for: the value of each key that has one. -/
abbrev KVMap (n : Nat) := Fin n → Option KVValue

/-- What a call of a setter is to do to the map. -/
def KVMap.set (cfg : KVStoreConfig n) (m : KVMap n) (call : SetCall) : KVMap n :=
  match call.target cfg with
  | some (k, v) => Function.update m k (some v)
  | none => m

/-- The cache holds each value of the map, and the values have their keys' types. -/
structure Represents (cfg : KVStoreConfig n) (s : KVStoreCache n) (m : KVMap n) : Prop where
  valid : s.Valid
  keyType : ∀ k v, m k = some v → (cfg.kvStoreDefaults k).type = v.type
  type : ∀ k v, m k = some v → (s.entry k).type = v.type
  contents : ∀ k v, m k = some v → s.contents k = v.bytes

def SetCall.Served (cfg : KVStoreConfig n) (s : KVStoreCache n) (call : SetCall) : Prop :=
  ∀ k v, call.target cfg = some (k, v) → s.AllocationSucceeds k v.type v.bytes

/-- A call of a setter that returns, allocation succeeding. -/
def SetStep (cfg : KVStoreConfig n) (s : KVStoreCache n) (call : SetCall)
    (s' : KVStoreCache n) : Prop :=
  call.Served cfg s ∧ ∃ b, call.run cfg s = .ok (b, s')

section step

variable {cfg : KVStoreConfig n} {s s' : KVStoreCache n} {m : KVMap n} {call : SetCall}
  {k : Fin n} {v : KVValue}

theorem Represents.accepted (h : Represents cfg s m) (htarget : call.target cfg = some (k, v))
    (hserved : call.Served cfg s) : ∃ s', call.run cfg s = .ok (true, s') ∧
      KVStoreCache.WriteEffect s s' k v.type v.bytes := by
  obtain ⟨s', hs', heff⟩ := KVStoreCache.xprvWriteCacheEntry_spec cfg.ndebug h.valid
    v.type_ne_none (.inr v.type_lt_last) (.inr v.bytes_pos) (hserved k v htarget)
  refine ⟨s', ?_, heff⟩
  rw [SetCall.run_of_target htarget, hs']
  rfl

theorem Represents.write (h : Represents cfg s m)
    (htype : (cfg.kvStoreDefaults k).type = v.type)
    (heff : KVStoreCache.WriteEffect s s' k v.type v.bytes) :
    Represents cfg s' (Function.update m k (some v)) where
  valid := heff.valid
  keyType j w hw := by
    by_cases hj : j = k
    · subst hj
      rw [Function.update_self] at hw
      rw [htype, Option.some.inj hw]
    · rw [Function.update_of_ne hj] at hw
      exact h.keyType j w hw
  type j w hw := by
    by_cases hj : j = k
    · subst hj
      rw [Function.update_self] at hw
      rw [heff.type, Option.some.inj hw]
    · rw [Function.update_of_ne hj] at hw
      rw [heff.entry_other j hj]
      exact h.type j w hw
  contents j w hw := by
    by_cases hj : j = k
    · subst hj
      rw [Function.update_self] at hw
      rw [heff.contents, Option.some.inj hw]
    · rw [Function.update_of_ne hj] at hw
      have ht : (s.entry j).type ≠ .kvTypeNone := by
        rw [h.type j w hw]
        exact w.type_ne_none
      rw [heff.contents_other j hj ht]
      exact h.contents j w hw

/-- One call of a setter does to the cache what it is to do to the map. -/
theorem Represents.step (h : Represents cfg s m) (hstep : SetStep cfg s call s') :
    Represents cfg s' (m.set cfg call) := by
  obtain ⟨hserved, b, hrun⟩ := hstep
  rw [KVMap.set]
  cases htarget : call.target cfg with
  | none =>
    rw [SetCall.run_of_no_target htarget] at hrun
    obtain ⟨-, rfl⟩ := Prod.mk.inj (Except.ok.inj hrun)
    exact h
  | some p =>
    obtain ⟨k, v⟩ := p
    obtain ⟨t, ht, heff⟩ := h.accepted htarget hserved
    obtain ⟨-, rfl⟩ := Prod.mk.inj (Except.ok.inj (hrun.symm.trans ht))
    exact h.write (SetCall.target_eq_some htarget).2.2 heff

theorem Represents.run {calls : List SetCall} (h : Represents cfg s m)
    (hrun : Run (SetStep cfg) s calls s') : Represents cfg s' (calls.foldl (KVMap.set cfg) m) := by
  induction hrun with
  | refl => exact h
  | tail _ hstep ih =>
    rw [List.foldl_append]
    exact ih.step hstep

end step

/-- A call of a getter on a key. -/
inductive GetCall where
  | getBlob (pvBuffer : Option (List UInt8))
  | getString (pcBuffer : Option (List UInt8))
  | getUInt32
  | getInt32
  | getUBase
  | getBase
  deriving DecidableEq

inductive GetResult where
  | buffer (r : BufferRead)
  | unsigned (r : WordRead UInt32)
  | signed (r : WordRead Int32)
  deriving DecidableEq

namespace GetCall

def type : GetCall → KVStoreValueType
  | getBlob _ => .kvTypeBlob
  | getString _ => .kvTypeString
  | getUInt32 => .kvTypeUInt32
  | getInt32 => .kvTypeInt32
  | getUBase => .kvTypeUBaseT
  | getBase => .kvTypeBaseT

def run (cfg : KVStoreConfig n) (s : KVStoreCache n) (key : Nat) :
    GetCall → Except Stop GetResult
  | getBlob buf => (kvStoreGetBlob cfg s key buf).map .buffer
  | getString buf => (kvStoreGetString cfg s key buf).map .buffer
  | getUInt32 => (kvStoreGetUInt32 cfg s key).map .unsigned
  | getInt32 => (kvStoreGetInt32 cfg s key).map .signed
  | getUBase => (kvStoreGetUBase cfg s key).map .unsigned
  | getBase => (kvStoreGetBase cfg s key).map .signed

/-- Nothing read: length 0 and the buffer as it was, or the number 0 and pdFALSE. -/
def failure : GetCall → GetResult
  | getBlob buf => .buffer ⟨0, buf⟩
  | getString buf => .buffer ⟨0, buf⟩
  | getUInt32 => .unsigned ⟨0, false⟩
  | getInt32 => .signed ⟨0, false⟩
  | getUBase => .unsigned ⟨0, false⟩
  | getBase => .signed ⟨0, false⟩

/-- `r` reports `v`: its exact length, and as much of it as the buffer takes, a string always
with its terminator; a number and pdTRUE. -/
def Reports : GetCall → KVValue → GetResult → Prop
  | getBlob (some buf), .blob v _, r =>
      r = .buffer ⟨v.length, some (copyToBuffer buf (v.take buf.length))⟩
  | getString (some buf), .string str, r =>
      ∃ out, r = .buffer ⟨str.length, some out⟩ ∧ out.length = buf.length ∧
        out.take (min (str.length + 1) buf.length) = str.bytes.take (buf.length - 1) ++ [0]
  | getUInt32, .uint32 x, r => r = .unsigned ⟨x, true⟩
  | getInt32, .int32 x, r => r = .signed ⟨x, true⟩
  | getUBase, .uBase x, r => r = .unsigned ⟨x, true⟩
  | getBase, .base x, r => r = .signed ⟨x, true⟩
  | _, _, _ => False

/-- The caller gave a buffer, for a string one that has room for a terminator. -/
def HasBuffer : GetCall → Prop
  | getBlob buf => buf ≠ none
  | getString buf => buf ≠ none ∧ buf ≠ some []
  | _ => True

/-- The getter's check looks for another type than its own. -/
def MisChecked (cfg : KVStoreConfig n) (key : Nat) (g : GetCall) : Prop :=
  g = .getUBase ∧ (cfg.keyType key = some .kvTypeUBaseT ∨ cfg.keyType key = some .kvTypeBaseT)

/-- What the map says about a getter: its own type of key reports the value that the key has, any
other key nothing. -/
structure Lawful (cfg : KVStoreConfig n) (s : KVStoreCache n) (m : KVMap n) (key : Nat)
    (g : GetCall) : Prop where
  reports : ∀ (h : key < n) (v : KVValue), m ⟨key, h⟩ = some v → v.type = g.type →
    g.HasBuffer → ∃ r, g.run cfg s key = .ok r ∧ g.Reports v r
  fails : cfg.keyType key ≠ some g.type → g.run cfg s key = .ok g.failure

end GetCall

section get

variable {cfg : KVStoreConfig n} {s s' : KVStoreCache n} {m : KVMap n} {k : Fin n}

theorem keyType_val (cfg : KVStoreConfig n) (k : Fin n) :
    cfg.keyType k.val = some (cfg.kvStoreDefaults k).type := dif_pos k.isLt

theorem Represents.read {v : KVValue} (h : Represents cfg s m) (hv : m k = some v)
    (buf : List UInt8) : xReadEntryOrDefault cfg s k buf =
      .ok ⟨copyToBuffer buf (v.bytes.take buf.length), v.bytes.length⟩ := by
  have hcont := h.contents k v hv
  have hread := xReadEntryOrDefault_set (k := k) cfg h.valid
    (by rw [h.type k v hv]; exact v.type_ne_none) (by rw [hcont]; exact v.bytes_pos) buf
  rw [hcont] at hread
  exact hread

theorem Represents.getWord {v : KVValue} {x : UInt32} {key : Nat} (h : Represents cfg s m)
    (hk : key < n) (hv : m ⟨key, hk⟩ = some v) (hx : v.bytes = toBytes 4 x.toNat)
    {type : KVStoreValueType} (ht : (cfg.kvStoreDefaults ⟨key, hk⟩).type = type) :
    prvGetWord cfg s key type = .ok ⟨x, true⟩ := by
  have hread := h.read hv (toBytes 4 0)
  rw [hx] at hread
  have hall : (toBytes 4 x.toNat).take (toBytes 4 0).length = toBytes 4 x.toNat :=
    List.take_of_length_le (by simp)
  have hbuf : copyToBuffer (toBytes 4 0) (toBytes 4 x.toNat) = toBytes 4 x.toNat := by
    have hdrop : (toBytes 4 0).drop (toBytes 4 x.toNat).length = [] :=
      List.drop_eq_nil_of_le (by simp)
    rw [copyToBuffer, hdrop, List.append_nil]
  have hword : ofBytes (toBytes 4 x.toNat) = x.toNat := ofBytes_toBytes x.toNat_lt
  rw [hall, hbuf] at hread
  rw [prvGetWord, dif_pos hk, if_pos ht, hread]
  simp [bind, Except.bind, pure, Except.pure, hword]

theorem type_of_keyType {key : Nat} {type : KVStoreValueType}
    (h : cfg.keyType key ≠ some type) (hk : key < n) :
    (cfg.kvStoreDefaults ⟨key, hk⟩).type ≠ type := by
  rw [KVStoreConfig.keyType, dif_pos hk] at h
  exact fun ht => h (congrArg some ht)

theorem prvGetWord_other {key : Nat} {type : KVStoreValueType}
    (h : cfg.keyType key ≠ some type) : prvGetWord cfg s key type = .ok ⟨0, false⟩ := by
  rw [prvGetWord]
  split
  · next hk => rw [if_neg (type_of_keyType h hk)]
  · rfl

theorem copyToBuffer_terminated (b buf : List UInt8) (hpos : 0 < buf.length) :
    ((copyToBuffer buf ((b ++ [0]).take buf.length)).set (buf.length - 1) 0).take
        (min (b.length + 1) buf.length) = b.take (buf.length - 1) ++ [0] := by
  rw [List.take_set, copyToBuffer]
  by_cases hfit : b.length + 1 ≤ buf.length
  · have hall : (b ++ [0]).take buf.length = b ++ [0] :=
      List.take_of_length_le (by simpa using hfit)
    have hlen : (b ++ [0]).length = b.length + 1 := by simp
    rw [hall, Nat.min_eq_left hfit, ← hlen, List.take_left,
      List.take_of_length_le (show b.length ≤ buf.length - 1 by omega)]
    by_cases hlast : buf.length - 1 = b.length
    · rw [hlast, List.set_append_right _ _ (Nat.le_refl _)]
      simp
    · exact List.set_eq_of_length_le (by rw [hlen]; omega)
  · have hcut : (b ++ [0]).take buf.length = b.take buf.length :=
      List.take_append_of_le_length (by omega)
    have hlen : (b.take buf.length).length = buf.length := by
      rw [List.length_take]
      omega
    have hi : buf.length - 1 < b.length := by omega
    have hsplit : b.take buf.length = b.take (buf.length - 1) ++ [b[buf.length - 1]] := by
      rw [← List.take_succ_eq_append_getElem]
      congr 1
      omega
    have hone : (b.take (buf.length - 1)).length = buf.length - 1 := by
      rw [List.length_take]
      omega
    rw [hcut, Nat.min_eq_right (by omega), hlen, List.drop_length, List.append_nil,
      List.take_of_length_le hlen.le, hsplit, List.set_append_right _ _ hone.le, hone]
    simp

theorem Represents.getString {str : CString} {buf : List UInt8} (h : Represents cfg s m)
    (hv : m k = some (.string str)) (hbuf : buf ≠ []) : ∃ out,
      kvStoreGetString cfg s k.val (some buf) = .ok ⟨str.length, some out⟩ ∧
      out.length = buf.length ∧
      out.take (min (str.length + 1) buf.length) = str.bytes.take (buf.length - 1) ++ [0] := by
  have hread := h.read hv buf
  have ht : (cfg.kvStoreDefaults k).type = .kvTypeString := h.keyType k _ hv
  have hk : (⟨k.val, k.isLt⟩ : Fin n) = k := rfl
  have hpos := List.length_pos_of_ne_nil hbuf
  refine ⟨(copyToBuffer buf ((str.bytes ++ [0]).take buf.length)).set (buf.length - 1) 0,
    ?_, ?_, ?_⟩
  · simp only [kvStoreGetString]
    rw [dif_pos k.isLt, hk, if_pos ht, hread]
    simp [bind, Except.bind, pure, Except.pure, if_neg hbuf, KVValue.bytes, CString.length]
  · simp only [List.length_set, copyToBuffer, List.length_append, List.length_take,
      List.length_drop]
    omega
  · exact copyToBuffer_terminated str.bytes buf hpos

theorem Represents.reports (h : Represents cfg s m) {key : Nat} (hk : key < n) {g : GetCall}
    (hg : ¬ g.MisChecked cfg key) {v : KVValue} (hv : m ⟨key, hk⟩ = some v)
    (hvtype : v.type = g.type) (hbuf : g.HasBuffer) :
    ∃ r, g.run cfg s key = .ok r ∧ g.Reports v r := by
  have htype := h.keyType _ v hv
  cases g with
  | getBlob buf =>
    obtain ⟨buf, rfl⟩ := Option.ne_none_iff_exists'.mp hbuf
    cases v with
    | blob bytes hpos =>
      refine ⟨_, ?_, rfl⟩
      simp only [GetCall.run, kvStoreGetBlob]
      have ht : (cfg.kvStoreDefaults ⟨key, hk⟩).type = .kvTypeBlob := htype
      rw [dif_pos hk, if_pos ht, h.read hv buf]
      rfl
    | _ => cases hvtype
  | getString buf =>
    obtain ⟨buf, rfl⟩ := Option.ne_none_iff_exists'.mp hbuf.1
    cases v with
    | string str =>
      obtain ⟨out, hrun, hlen, htake⟩ :=
        h.getString hv (fun hnil => hbuf.2 (congrArg some hnil))
      refine ⟨.buffer ⟨str.length, some out⟩, ?_, out, rfl, hlen, htake⟩
      simp only [GetCall.run]
      rw [hrun]
      rfl
    | _ => cases hvtype
  | getUInt32 =>
    cases v with
    | uint32 x =>
      refine ⟨_, ?_, rfl⟩
      have ht : (cfg.kvStoreDefaults ⟨key, hk⟩).type = .kvTypeUInt32 := htype
      simp only [GetCall.run, kvStoreGetUInt32]
      rw [h.getWord hk hv rfl ht]
      rfl
    | _ => cases hvtype
  | getInt32 =>
    cases v with
    | int32 x =>
      refine ⟨_, ?_, rfl⟩
      have ht : (cfg.kvStoreDefaults ⟨key, hk⟩).type = .kvTypeInt32 := htype
      simp only [GetCall.run, kvStoreGetInt32]
      rw [h.getWord hk hv rfl ht]
      rfl
    | _ => cases hvtype
  | getUBase =>
    exfalso
    apply hg
    refine ⟨rfl, .inl ?_⟩
    rw [KVStoreConfig.keyType, dif_pos hk, htype, hvtype]
    rfl
  | getBase =>
    cases v with
    | base x =>
      refine ⟨_, ?_, rfl⟩
      have ht : (cfg.kvStoreDefaults ⟨key, hk⟩).type = .kvTypeBaseT := htype
      simp only [GetCall.run, kvStoreGetBase]
      rw [h.getWord hk hv rfl ht]
      rfl
    | _ => cases hvtype

theorem GetCall.run_fails {key : Nat} {g : GetCall} (hg : ¬ g.MisChecked cfg key)
    (hkey : cfg.keyType key ≠ some g.type) (s : KVStoreCache n) :
    g.run cfg s key = .ok g.failure := by
  cases g with
  | getBlob buf =>
    cases buf with
    | none => rfl
    | some buf =>
      have hother : ∀ hk : key < n, (cfg.kvStoreDefaults ⟨key, hk⟩).type ≠ .kvTypeBlob :=
        type_of_keyType hkey
      simp only [GetCall.run, kvStoreGetBlob]
      split
      · next hk =>
        rw [if_neg (hother hk)]
        rfl
      · rfl
  | getString buf =>
    cases buf with
    | none => rfl
    | some buf =>
      have hother : ∀ hk : key < n, (cfg.kvStoreDefaults ⟨key, hk⟩).type ≠ .kvTypeString :=
        type_of_keyType hkey
      simp only [GetCall.run, kvStoreGetString]
      split
      · next hk =>
        rw [if_neg (hother hk)]
        rfl
      · rfl
  | getUInt32 =>
    have hother : cfg.keyType key ≠ some .kvTypeUInt32 := hkey
    simp only [GetCall.run, kvStoreGetUInt32]
    rw [prvGetWord_other hother]
    rfl
  | getInt32 =>
    have hother : cfg.keyType key ≠ some .kvTypeInt32 := hkey
    simp only [GetCall.run, kvStoreGetInt32]
    rw [prvGetWord_other hother]
    rfl
  | getUBase =>
    have hbase : cfg.keyType key ≠ some .kvTypeBaseT := fun ht => hg ⟨rfl, .inr ht⟩
    simp only [GetCall.run, kvStoreGetUBase]
    rw [prvGetWord_other hbase]
    rfl
  | getBase =>
    have hother : cfg.keyType key ≠ some .kvTypeBaseT := hkey
    simp only [GetCall.run, kvStoreGetBase]
    rw [prvGetWord_other hother]
    rfl

/-- Every getter but the one with the wrong check keeps to the map. -/
theorem Represents.lawful (h : Represents cfg s m) (key : Nat) {g : GetCall}
    (hg : ¬ g.MisChecked cfg key) : g.Lawful cfg s m key where
  reports hk _ hv hvtype hbuf := h.reports hk hg hv hvtype hbuf
  fails hkey := GetCall.run_fails hg hkey s

/-- The getter with the wrong check fails the map on every key that has a value. -/
theorem Represents.not_lawful {v : KVValue} (h : Represents cfg s m) (hv : m k = some v)
    {g : GetCall} (hg : g.MisChecked cfg k.val) : ¬ g.Lawful cfg s m k.val := by
  intro hlaw
  obtain ⟨rfl, hkey⟩ := hg
  have htype := h.keyType k v hv
  rw [keyType_val] at hkey
  obtain hkey | hkey := hkey
  · have hvtype : v.type = .kvTypeUBaseT := htype.symm.trans (Option.some.inj hkey)
    obtain ⟨r, hrun, hrep⟩ := hlaw.reports k.isLt v hv hvtype trivial
    have hne : cfg.keyType k.val ≠ some .kvTypeBaseT := by
      rw [keyType_val, hkey]
      exact fun h => by cases h
    simp only [GetCall.run, kvStoreGetUBase] at hrun
    rw [prvGetWord_other hne] at hrun
    obtain rfl := Except.ok.inj hrun
    cases v with
    | uBase x =>
      have hsame : GetResult.unsigned ⟨0, false⟩ = .unsigned ⟨x, true⟩ := hrep
      simp at hsame
    | _ => cases hvtype
  · have hvtype : v.type = .kvTypeBaseT := htype.symm.trans (Option.some.inj hkey)
    have hfail := hlaw.fails (by
      rw [keyType_val, hkey]
      exact fun h => by cases h)
    cases v with
    | base x =>
      have ht : (cfg.kvStoreDefaults k).type = .kvTypeBaseT := htype
      simp only [GetCall.run, kvStoreGetUBase] at hfail
      rw [h.getWord k.isLt hv rfl ht] at hfail
      have hsame : GetResult.unsigned ⟨x.toUInt32, true⟩ = .unsigned ⟨0, false⟩ :=
        Except.ok.inj hfail
      simp at hsame
    | _ => cases hvtype

/-- What a getter returns depends on what reads of its key deliver. -/
theorem GetCall.run_of_read
    (hread : ∀ buf, xReadEntryOrDefault cfg s' k buf = xReadEntryOrDefault cfg s k buf)
    (g : GetCall) : g.run cfg s' k.val = g.run cfg s k.val := by
  have hk : (⟨k.val, k.isLt⟩ : Fin n) = k := rfl
  have hword : ∀ type, prvGetWord cfg s' k.val type = prvGetWord cfg s k.val type := by
    intro type
    simp only [prvGetWord, hk, hread]
  cases g with
  | getBlob buf =>
    cases buf with
    | none => rfl
    | some buf => simp only [GetCall.run, kvStoreGetBlob, hk, hread]
  | getString buf =>
    cases buf with
    | none => rfl
    | some buf => simp only [GetCall.run, kvStoreGetString, hk, hread]
  | getUInt32 => simp only [GetCall.run, kvStoreGetUInt32, hword]
  | getInt32 => simp only [GetCall.run, kvStoreGetInt32, hword]
  | getUBase => simp only [GetCall.run, kvStoreGetUBase, hword]
  | getBase => simp only [GetCall.run, kvStoreGetBase, hword]

/-- What a getter returns depends on the entry and the value of its key. -/
theorem GetCall.run_congr (hs : s.Valid) (hs' : s'.Valid) (hentry : s'.entry k = s.entry k)
    (hcontents : (s.entry k).type ≠ .kvTypeNone → s'.contents k = s.contents k) (g : GetCall) :
    g.run cfg s' k.val = g.run cfg s k.val :=
  GetCall.run_of_read (xReadEntryOrDefault_congr cfg hs hs' hentry hcontents) g

end get

/-- The file holds the value, or there is neither. -/
def FileOf : Option KVValue → Option LfsFile → Prop
  | none, none => True
  | some v, some f => f.bytes = tlvBytes v.type v.bytes
  | _, _ => False

/-- The values read from files that have the types of their keys. -/
def KVMap.ofStored (cfg : KVStoreConfig n) (stored : Fin n → Option KVValue) : KVMap n :=
  fun k => (stored k).filter fun v => v.type = (cfg.kvStoreDefaults k).type

theorem Loaded.value {s : KVStoreCache n} {k : Fin n} {f : LfsFile} {v : KVValue}
    (h : Loaded s k (some f)) (hf : f.bytes = tlvBytes v.type v.bytes) :
    (s.entry k).type = v.type ∧ (s.entry k).length = v.bytes.length ∧
      s.contents k = v.bytes := by
  obtain ⟨hread, hroom⟩ := readFile_tlv hf v.type_small v.bytes_pos
  refine ⟨?_, ?_, ?_⟩
  · rw [h.type, hread]
    rfl
  · rw [h.length, hread]
    rfl
  · rw [h.contents ⟨v.type, v.bytes.length⟩ (by rw [hread]) v.type_ne_none (by rw [hroom]), hread]

/-- Start-up over well-formed files leaves the map of what they hold. -/
theorem vprvCacheInit_represents {cfg : KVStoreConfig n} {stored : Fin n → Option KVValue}
    {files : Fin n → Option LfsFile} {answer : Nat → Nat × (Nat → UInt8)} {s : KVStoreCache n}
    (hfiles : ∀ k, FileOf (stored k) (files k))
    (h : vprvCacheInit cfg.ndebug cfg.kvstoreValMaxLen (fun k => .ofFile (files k))
      (.zeroed answer) = .ok s) : Represents cfg s (.ofStored cfg stored) := by
  obtain ⟨hvalid, hload⟩ := vprvCacheInit_files h
  have hkey : ∀ k v, KVMap.ofStored cfg stored k = some v →
      stored k = some v ∧ v.type = (cfg.kvStoreDefaults k).type := by
    intro k v hv
    obtain ⟨hv, ht⟩ := Option.filter_eq_some_iff.mp hv
    exact ⟨hv, by simpa using ht⟩
  have hentry : ∀ k v, stored k = some v →
      (s.entry k).type = v.type ∧ s.contents k = v.bytes := by
    intro k v hv
    have hfile := hfiles k
    rw [hv] at hfile
    cases hf : files k with
    | none =>
      rw [hf] at hfile
      exact hfile.elim
    | some f =>
      rw [hf] at hfile
      have hl := (hload k).1
      rw [hf] at hl
      obtain ⟨htype, -, hcont⟩ := hl.value hfile
      exact ⟨htype, hcont⟩
  constructor
  · exact hvalid
  · intro k v hv
    exact (hkey k v hv).2.symm
  · intro k v hv
    exact (hentry k v (hkey k v hv).1).1
  · intro k v hv
    exact (hentry k v (hkey k v hv).1).2

/-- What the map says about a setter: a call that a check stops has no effect, any other does to
the store what it is to do to the map and leaves every getter of another key alone. -/
structure SetCall.Lawful (cfg : KVStoreConfig n) (s : KVStoreCache n) (m : KVMap n)
    (call : SetCall) : Prop where
  rejected : cfg.keyType call.key ≠ some call.type ∨ call.value = none →
    call.run cfg s = .ok (false, s)
  accepted : ∀ k v, call.target cfg = some (k, v) → call.Served cfg s →
    ∃ s', call.run cfg s = .ok (true, s') ∧ Represents cfg s' (Function.update m k (some v)) ∧
      ∀ j : Fin n, j ≠ k → ∀ g : GetCall, g.run cfg s' j.val = g.run cfg s j.val

theorem Represents.setLawful {cfg : KVStoreConfig n} {s : KVStoreCache n} {m : KVMap n}
    (h : Represents cfg s m) (call : SetCall) : call.Lawful cfg s m := by
  constructor
  · intro hrej
    apply SetCall.run_of_no_target
    obtain htype | hvalue := hrej
    · exact SetCall.target_of_type htype
    · rw [SetCall.target, hvalue]
      rfl
  · intro k v htarget hserved
    obtain ⟨s', hrun, heff⟩ := h.accepted htarget hserved
    refine ⟨s', hrun, h.write (SetCall.target_eq_some htarget).2.2 heff, ?_⟩
    intro j hj g
    exact g.run_congr h.valid heff.valid (heff.entry_other j hj) (heff.contents_other j hj)

/-- In every state that setters lead to from well-formed files, setters and getters keep to the
map of the last values; a getter of a key with a value does so exactly when its check is right. -/
theorem mapLaw_run (cfg : KVStoreConfig n) (stored : Fin n → Option KVValue)
    (files : Fin n → Option LfsFile) (hfiles : ∀ k, FileOf (stored k) (files k))
    (answer : Nat → Nat × (Nat → UInt8)) {s0 s : KVStoreCache n}
    (h0 : vprvCacheInit cfg.ndebug cfg.kvstoreValMaxLen (fun k => .ofFile (files k))
      (.zeroed answer) = .ok s0)
    {calls : List SetCall} (hrun : Run (SetStep cfg) s0 calls s) {m : KVMap n}
    (hm : m = calls.foldl (KVMap.set cfg) (.ofStored cfg stored)) :
    (∀ (key : Nat) (g : GetCall), ¬ g.MisChecked cfg key → g.Lawful cfg s m key) ∧
    (∀ (k : Fin n) (g : GetCall), m k ≠ none →
      (g.Lawful cfg s m k.val ↔ ¬ g.MisChecked cfg k.val)) ∧
    ∀ call : SetCall, call.Lawful cfg s m := by
  have hrep : Represents cfg s m := by
    rw [hm]
    exact (vprvCacheInit_represents hfiles h0).run hrun
  refine ⟨fun key g hg => hrep.lawful key hg, ?_, hrep.setLawful⟩
  intro k g hv
  obtain ⟨v, hv⟩ := Option.ne_none_iff_exists'.mp hv
  constructor
  · intro hlaw hg
    exact hrep.not_lawful hv hg hlaw
  · intro hg
    exact hrep.lawful k.val hg

def exampleConfig : KVStoreConfig 2 where
  kvStoreKeyMap k := if k = 0 then ⟨[110], by decide⟩ else ⟨[99], by decide⟩
  kvStoreDefaults k :=
    if k = 0 then ⟨.kvTypeString, 1, .ofWord 0, [0]⟩ else ⟨.kvTypeUBaseT, 4, .ofWord 0, []⟩
  kvstoreKeyMaxLen := 16
  kvstoreValMaxLen := 64
  ndebug := false
  keyMap_injective := by
    intro j k
    revert j k
    decide
  keyMap_length := by decide

def runSetters (cfg : KVStoreConfig n) (s : KVStoreCache n) (calls : List SetCall) :
    Except Stop (KVStoreCache n) :=
  calls.foldlM (fun s call => (call.run cfg s).map Prod.snd) s

/-- No block is asked for values that fit into the union. -/
theorem runSetters_run {cfg : KVStoreConfig n} {s s' : KVStoreCache n} {calls : List SetCall}
    (hshort : ∀ call ∈ calls, ∀ v, call.value = some v → v.bytes.length ≤ sizeofVoidPtr)
    (h : runSetters cfg s calls = .ok s') : Run (SetStep cfg) s calls s' := by
  have hrun := Run.ofFoldlM (fun s call => SetCall.Served cfg s call) (by
    intro call hcall s k v htarget s1 _ hlen
    have hle := hshort call hcall v (SetCall.target_eq_some htarget).1
    omega) h
  refine hrun.mono ?_
  intro s call t hstep
  obtain ⟨hserved, hval⟩ := hstep
  cases hres : call.run cfg s with
  | error e =>
    rw [hres] at hval
    cases hval
  | ok r =>
    rw [hres] at hval
    refine ⟨hserved, r.1, ?_⟩
    rw [hres, ← Except.ok.inj hval]

/-- A store without files and the given setters, all of which return. -/
def exampleRun (calls : List SetCall) : Except Stop (KVStoreCache 2) :=
  (vprvCacheInit false 64 (fun _ => .ofFile none) (.zeroed exampleAnswer)).bind fun s =>
    runSetters exampleConfig s calls

theorem exampleRun_run (calls : List SetCall)
    (hshort : ∀ call ∈ calls, ∀ v, call.value = some v → v.bytes.length ≤ sizeofVoidPtr)
    (h : returns (fun _ => true) (exampleRun calls) = true) : ∃ s0 s,
      vprvCacheInit (n := 2) false 64 (fun _ => .ofFile none) (.zeroed exampleAnswer) = .ok s0 ∧
        Run (SetStep exampleConfig) s0 calls s := by
  obtain ⟨s, hs, -⟩ := exists_of_returns h
  rw [exampleRun] at hs
  cases h0 : vprvCacheInit (n := 2) false 64 (fun _ => .ofFile none) (.zeroed exampleAnswer) with
  | error e =>
    rw [h0] at hs
    cases hs
  | ok s0 =>
    rw [h0] at hs
    exact ⟨s0, s, rfl, runSetters_run hshort hs⟩

theorem mapLaw_run_string : ∃ s0 s : KVStoreCache 2,
    vprvCacheInit false 64 (fun _ => .ofFile none) (.zeroed exampleAnswer) = .ok s0 ∧
    Run (SetStep exampleConfig) s0
      [.setString 0 (some ⟨[104, 105], by decide⟩), .setUBase 1 7] s ∧
    ∃ r, (GetCall.getString (some (List.replicate 8 1))).run exampleConfig s 0 = .ok r ∧
      (GetCall.getString (some (List.replicate 8 1))).Reports (.string ⟨[104, 105], by decide⟩)
        r := by
  obtain ⟨s0, s, h0, hrun⟩ := exampleRun_run
    [.setString 0 (some ⟨[104, 105], by decide⟩), .setUBase 1 7] (by
      intro call hcall v hv
      have hcases : call = .setString 0 (some ⟨[104, 105], by decide⟩) ∨ call = .setUBase 1 7 := by
        simpa using hcall
      obtain rfl | rfl := hcases <;> obtain rfl := Option.some.inj hv <;> decide)
    (by decide +kernel)
  have hlaw := mapLaw_run exampleConfig (fun _ => none) (fun _ => none) (fun _ => trivial)
    exampleAnswer h0 hrun rfl
  refine ⟨s0, s, h0, hrun, ?_⟩
  have hget := hlaw.1 0 (.getString (some (List.replicate 8 1))) (by
    intro hmis
    cases hmis.1)
  exact hget.reports (by decide) (.string ⟨[104, 105], by decide⟩) (by decide +kernel) rfl
    ⟨by simp, by simp⟩

/-- The value set by `KVStore_setUBase` is not returned by `KVStore_getUBase`. -/
theorem not_mapLaw_getUBase : ∃ s0 s : KVStoreCache 2,
    vprvCacheInit false 64 (fun _ => .ofFile none) (.zeroed exampleAnswer) = .ok s0 ∧
    Run (SetStep exampleConfig) s0 [.setUBase 1 7] s ∧
    GetCall.getUBase.run exampleConfig s 1 = .ok (.unsigned ⟨0, false⟩) ∧
    ¬ GetCall.getUBase.Lawful exampleConfig s
      (KVMap.set exampleConfig (fun _ => none) (.setUBase 1 7)) 1 := by
  obtain ⟨s0, s, h0, hrun⟩ := exampleRun_run [.setUBase 1 7] (by
      intro call hcall v hv
      obtain rfl : call = .setUBase 1 7 := by simpa using hcall
      obtain rfl := Option.some.inj hv
      decide)
    (by decide +kernel)
  have hget : GetCall.getUBase.run exampleConfig s 1 = .ok (.unsigned ⟨0, false⟩) := by
    simp only [GetCall.run, kvStoreGetUBase]
    rw [prvGetWord_other (by decide)]
    rfl
  refine ⟨s0, s, h0, hrun, hget, ?_⟩
  intro hlaw
  obtain ⟨r, hr, hrep⟩ := hlaw.reports (by decide) (.uBase 7) (by decide +kernel) rfl trivial
  obtain rfl := Except.ok.inj (hget.symm.trans hr)
  have hsame : GetResult.unsigned ⟨0, false⟩ = .unsigned ⟨7, true⟩ := hrep
  simp at hsame

end RenesasDemo.KVStore
