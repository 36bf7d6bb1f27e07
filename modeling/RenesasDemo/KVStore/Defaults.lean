import Mathlib.Data.Fin.VecNotation
import RenesasDemo.KVStore.Api

namespace RenesasDemo.KVStore

open Framework

/-- A constant expression of an integer type of `size` bytes. -/
structure NumberExpr where
  size : Nat
  value : Int
  deriving DecidableEq

/-- An array, such as a string literal with its terminator, that the linker puts at `address`. -/
structure ArrayExpr where
  address : Nat
  bytes : List UInt8
  deriving DecidableEq

def NumberExpr.bytes (e : NumberExpr) : List UInt8 :=
  toBytes e.size (e.value % (256 ^ e.size : Nat)).toNat

/-- The value converted to the type of a number member of the union. -/
def NumberExpr.word (e : NumberExpr) : Nat := (e.value % (256 ^ sizeofVoidPtr : Nat)).toNat

/-- What can be read from an address on. -/
abbrev Memory := Nat → List UInt8

section macros

variable (memory : Memory)

/-- The initializer that names a number member of the union. -/
def kvDfltNumber (type : KVStoreValueType) (value : NumberExpr) : KVStoreDefaultEntry :=
  ⟨type, value.size, .ofWord value.word, memory value.word⟩

/-- The initializer that names a pointer member of the union. -/
def kvDfltPointer (type : KVStoreValueType) (value : ArrayExpr) : KVStoreDefaultEntry :=
  ⟨type, value.bytes.length, .ofWord value.address, memory value.address⟩

def kvDfltKvTypeBaseT (value : NumberExpr) : KVStoreDefaultEntry :=
  kvDfltNumber memory .kvTypeBaseT value

def kvDfltKvTypeUBaseT (value : NumberExpr) : KVStoreDefaultEntry :=
  kvDfltNumber memory .kvTypeUBaseT value

def kvDfltKvTypeInt32 (value : NumberExpr) : KVStoreDefaultEntry :=
  kvDfltNumber memory .kvTypeInt32 value

def kvDfltKvTypeUInt32 (value : NumberExpr) : KVStoreDefaultEntry :=
  kvDfltNumber memory .kvTypeUInt32 value

def kvDfltKvTypeString (value : ArrayExpr) : KVStoreDefaultEntry :=
  kvDfltPointer memory .kvTypeString value

def kvDfltKvTypeBlob (value : ArrayExpr) : KVStoreDefaultEntry :=
  kvDfltPointer memory .kvTypeBlob value

end macros

/-- A row of KV_STORE_DEFAULTS: the type token that KV_DFLT pastes, and the value. -/
inductive KvDflt where
  | baseT (value : NumberExpr)
  | uBaseT (value : NumberExpr)
  | int32 (value : NumberExpr)
  | uint32 (value : NumberExpr)
  | string (value : ArrayExpr)
  | blob (value : ArrayExpr)
  deriving DecidableEq

namespace KvDflt

def entry (memory : Memory) : KvDflt → KVStoreDefaultEntry
  | baseT value => kvDfltKvTypeBaseT memory value
  | uBaseT value => kvDfltKvTypeUBaseT memory value
  | int32 value => kvDfltKvTypeInt32 memory value
  | uint32 value => kvDfltKvTypeUInt32 memory value
  | string value => kvDfltKvTypeString memory value
  | blob value => kvDfltKvTypeBlob memory value

def valueBytes : KvDflt → List UInt8
  | baseT value | uBaseT value | int32 value | uint32 value => value.bytes
  | string value | blob value => value.bytes

/-- The linker has put the array of the row, if it has one, into the memory. -/
def Placed (memory : Memory) : KvDflt → Prop
  | baseT _ | uBaseT _ | int32 _ | uint32 _ => True
  | string value | blob value => value.bytes <+: memory value.address

/-- A number has its bytes copied out of the union and an array out of the memory, or what is
copied happens to be the same. -/
def Followed (memory : Memory) (xDataLen : Nat) : KvDflt → Prop
  | baseT value | uBaseT value | int32 value | uint32 value =>
      xDataLen ≤ sizeofVoidPtr ∨ value.bytes.take xDataLen <+: memory value.word
  | string value | blob value =>
      sizeofVoidPtr < xDataLen ∨
        value.bytes.take xDataLen <+: toBytes sizeofVoidPtr value.address

instance (memory : Memory) : (d : KvDflt) → Decidable (d.Placed memory)
  | baseT _ | uBaseT _ | int32 _ | uint32 _ => inferInstanceAs (Decidable True)
  | string value | blob value =>
      inferInstanceAs (Decidable (value.bytes <+: memory value.address))

instance (memory : Memory) (xDataLen : Nat) : (d : KvDflt) → Decidable (d.Followed memory xDataLen)
  | baseT value | uBaseT value | int32 value | uint32 value =>
      inferInstanceAs (Decidable (xDataLen ≤ sizeofVoidPtr ∨
        value.bytes.take xDataLen <+: memory value.word))
  | string value | blob value =>
      inferInstanceAs (Decidable (sizeofVoidPtr < xDataLen ∨
        value.bytes.take xDataLen <+: toBytes sizeofVoidPtr value.address))

end KvDflt

/-- A read of the key stores the first bytes of `value`, as many as there is room for, and
returns the length of all of them. -/
def ReadsValue (cfg : KVStoreConfig n) (s : KVStoreCache n) (k : Fin n)
    (value pvBuffer : List UInt8) : Prop :=
  xReadEntryOrDefault cfg s k pvBuffer =
    .ok ⟨copyToBuffer pvBuffer (value.take pvBuffer.length), value.length⟩

section lengths

variable (memory : Memory)

@[simp] theorem NumberExpr.bytes_length (e : NumberExpr) : e.bytes.length = e.size :=
  toBytes_length _ _

@[simp] theorem KvDflt.entry_length (d : KvDflt) :
    (d.entry memory).length = d.valueBytes.length := by
  cases d with
  | string value | blob value => rfl
  | baseT value | uBaseT value | int32 value | uint32 value => exact value.bytes_length.symm

end lengths

/-- The low bytes of a number are those of the number cut to more bytes. -/
theorem take_bytes_word (e : NumberExpr) {k : Nat} (hsize : k ≤ e.size) (hk : k ≤ sizeofVoidPtr) :
    (toBytes sizeofVoidPtr e.word).take k = e.bytes.take k := by
  have hcut : ∀ w, k ≤ w → (toBytes w (e.value % (256 ^ w : Nat)).toNat).take k =
      toBytes k (e.value % (256 ^ k : Nat)).toNat := by
    intro w hw
    have hdvd : ((256 ^ k : Nat) : Int) ∣ ((256 ^ w : Nat) : Int) :=
      Int.natCast_dvd_natCast.mpr (Nat.pow_dvd_pow 256 hw)
    have hpos : (0 : Int) < ((256 ^ w : Nat) : Int) :=
      Int.natCast_pos.mpr (Nat.pow_pos (by decide))
    have hnonneg := Int.emod_nonneg e.value (Int.ne_of_gt hpos)
    rw [take_toBytes _ hw, ← toBytes_mod k, ← Int.emod_emod_of_dvd e.value hdvd,
      Int.toNat_emod hnonneg (Int.natCast_nonneg _), Int.toNat_natCast]
  rw [NumberExpr.word, NumberExpr.bytes, hcut _ hk, hcut _ hsize]

section copies

variable {memory : Memory} {type : KVStoreValueType} {k : Nat}

theorem definedOr_take_iff {mem v : List UInt8} (hv : v.length = k) :
    definedOr (if k ≤ mem.length then some (mem.take k) else none) = .ok v ↔ v <+: mem := by
  rw [List.prefix_iff_eq_take, hv]
  split
  · exact ⟨fun h => (Except.ok.inj h).symm, fun h => congrArg Except.ok h.symm⟩
  · next hshort =>
    constructor
    · intro h
      cases h
    · intro h
      have hlen := congrArg List.length h
      rw [List.length_take] at hlen
      omega

theorem prvCopyDefault_number (value : NumberExpr) (hk : k ≤ value.size) :
    prvCopyDefault (kvDfltNumber memory type value) k = .ok (value.bytes.take k) ↔
      k ≤ sizeofVoidPtr ∨ value.bytes.take k <+: memory value.word := by
  rw [prvCopyDefault]
  split
  · next hfar =>
    have hlen : (value.bytes.take k).length = k := List.length_take_of_le (by simpa using hk)
    exact (definedOr_take_iff hlen).trans (or_iff_right (Nat.not_le_of_lt hfar)).symm
  · next hnear =>
    have hle : k ≤ sizeofVoidPtr := Nat.le_of_not_lt hnear
    exact iff_of_true (congrArg Except.ok (take_bytes_word value hk hle)) (.inl hle)

theorem prvCopyDefault_pointer {value : ArrayExpr} (hk : k ≤ value.bytes.length)
    (hplaced : value.bytes <+: memory value.address) :
    prvCopyDefault (kvDfltPointer memory type value) k = .ok (value.bytes.take k) ↔
      sizeofVoidPtr < k ∨ value.bytes.take k <+: toBytes sizeofVoidPtr value.address := by
  have hlen : (value.bytes.take k).length = k := List.length_take_of_le hk
  rw [prvCopyDefault]
  split
  · next hfar =>
    have hprefix := (List.take_prefix k value.bytes).trans hplaced
    exact iff_of_true ((definedOr_take_iff hlen).mpr hprefix) (.inl hfar)
  · next hnear =>
    rw [or_iff_right hnear, List.prefix_iff_eq_take, hlen]
    exact ⟨fun h => (Except.ok.inj h).symm, fun h => congrArg Except.ok h.symm⟩

theorem prvCopyDefault_entry {d : KvDflt} (hk : k ≤ d.valueBytes.length)
    (hplaced : d.Placed memory) :
    prvCopyDefault (d.entry memory) k = .ok (d.valueBytes.take k) ↔ d.Followed memory k := by
  cases d with
  | string value | blob value => exact prvCopyDefault_pointer hk hplaced
  | baseT value | uBaseT value | int32 value | uint32 value =>
    exact prvCopyDefault_number value (by simpa [KvDflt.valueBytes] using hk)

end copies

section reads

variable {cfg : KVStoreConfig n} {s : KVStoreCache n} {k : Fin n}

/-- Nothing is stored for the key, or a value without bytes. -/
def NoStoredValue (s : KVStoreCache n) (k : Fin n) : Prop :=
  (s.entry k).type = .kvTypeNone ∨ (s.entry k).length = 0

theorem xReadEntryOrDefault_noStoredValue (cfg : KVStoreConfig n) (h : NoStoredValue s k)
    (buf : List UInt8) :
    xReadEntryOrDefault cfg s k buf =
      (prvCopyDefault (cfg.kvStoreDefaults k) (min buf.length (cfg.kvStoreDefaults k).length)).map
        fun v => ⟨copyToBuffer buf v, (cfg.kvStoreDefaults k).length⟩ := by
  by_cases ht : (s.entry k).type = .kvTypeNone
  · exact xReadEntryOrDefault_unset cfg ht buf
  · have hzero : (s.entry k).length = 0 := h.resolve_left ht
    have hinline : pvGetDataReadPtr s k = .inline := by
      rw [pvGetDataReadPtr, if_neg ht, hzero]
      rfl
    have hread : xprvCopyValueFromCache s k buf =
        .ok ⟨false, some (s.entry k).type, some 0, buf⟩ := by
      simp [xprvCopyValueFromCache, hinline, hzero, DataPtr.isNull, KVStoreCache.readThrough,
        definedOr, copyToBuffer, bind, Except.bind, pure, Except.pure]
    rw [xReadEntryOrDefault, hread]
    simp only [bind, Except.bind, pure, Except.pure, Option.getD_some, if_true]
    cases prvCopyDefault (cfg.kvStoreDefaults k) (min buf.length (cfg.kvStoreDefaults k).length) <;>
      rfl

theorem prvCopyDefault_length {d : KVStoreDefaultEntry} {m : Nat} {v : List UInt8}
    (h : prvCopyDefault d m = .ok v) : v.length = m := by
  rw [prvCopyDefault] at h
  split at h
  · split at h
    · next hle =>
      obtain rfl := Except.ok.inj h
      exact List.length_take_of_le hle
    · cases h
  · next hnear =>
    obtain rfl := Except.ok.inj h
    exact List.length_take_of_le (by rw [d.value.size]; omega)

/-- A default is read right exactly when what the code follows is what the macro has put there. -/
theorem xReadEntryOrDefault_default_iff {memory : Memory} (table : Fin n → KvDflt)
    (hcfg : ∀ j, cfg.kvStoreDefaults j = (table j).entry memory)
    (hplaced : ∀ j, (table j).Placed memory) (hk : NoStoredValue s k) (buf : List UInt8) :
    ReadsValue cfg s k (table k).valueBytes buf ↔
      (table k).Followed memory (min buf.length (table k).valueBytes.length) := by
  have hmin : (table k).valueBytes.take (min buf.length (table k).valueBytes.length) =
      (table k).valueBytes.take buf.length := by
    rw [← List.take_take, List.take_of_length_le (Nat.le_refl (table k).valueBytes.length)]
  rw [← prvCopyDefault_entry (Nat.min_le_right ..) (hplaced k), ReadsValue,
    xReadEntryOrDefault_noStoredValue cfg hk, hcfg k, KvDflt.entry_length, hmin]
  cases hres : prvCopyDefault ((table k).entry memory)
      (min buf.length (table k).valueBytes.length) with
  | error stop => simp [Except.map]
  | ok v =>
    have hv := prvCopyDefault_length hres
    have hlen : v.length = ((table k).valueBytes.take buf.length).length := by
      rw [hv, List.length_take]
    constructor
    · intro h
      have hbuf := congrArg EntryRead.pvBuffer (Except.ok.inj h)
      exact congrArg Except.ok (List.append_inj_left hbuf hlen)
    · intro h
      rw [Except.ok.inj h]
      rfl

end reads

def kvStoreStrings : Fin 6 → CString :=
  ![⟨[116, 104, 105, 110, 103, 95, 110, 97, 109, 101], by decide⟩,
    ⟨[109, 113, 116, 116, 95, 101, 110, 100, 112, 111, 105, 110, 116], by decide⟩,
    ⟨[109, 113, 116, 116, 95, 112, 111, 114, 116], by decide⟩,
    ⟨[119, 105, 102, 105, 95, 115, 115, 105, 100], by decide⟩,
    ⟨[119, 105, 102, 105, 95, 99, 114, 101, 100, 101, 110, 116, 105, 97, 108], by decide⟩,
    ⟨[116, 105, 109, 101, 95, 104, 119, 109], by decide⟩]

def kvStoreDefaultRows (address : Nat) : Fin 6 → KvDflt :=
  ![.string ⟨address, [0]⟩, .string ⟨address, [0]⟩, .uint32 ⟨4, 8883⟩, .string ⟨address, [0]⟩,
    .string ⟨address, [0]⟩, .uint32 ⟨4, 0⟩]

/-- The build of the repository, with the empty string at `address`. -/
def kvStoreBuild (address : Nat) : KVStoreConfig 6 where
  kvStoreKeyMap := kvStoreStrings
  kvStoreDefaults k := (kvStoreDefaultRows address k).entry fun a => if a = address then [0] else []
  kvstoreKeyMaxLen := 16
  kvstoreValMaxLen := 64
  ndebug := false
  keyMap_injective := by
    intro j k
    revert j k
    decide
  keyMap_length := by decide

def emptyStore : KVStoreCache 6 := .zeroed fun i => (16 * (i + 1), fun _ => 0)

theorem xReadEntryOrDefault_default_port :
    NoStoredValue emptyStore 2 ∧
      ReadsValue (kvStoreBuild 0xFFF80010) emptyStore 2 [0xB3, 0x22, 0, 0] [1, 1, 1, 1, 1, 1] :=
  ⟨.inl rfl, (xReadEntryOrDefault_default_iff (kvStoreDefaultRows 0xFFF80010)
    (fun _ => rfl) (by decide) (.inl rfl) [1, 1, 1, 1, 1, 1]).mpr (by decide)⟩

/-- The default thing name is read as the low byte of the address of the empty string. -/
theorem not_readsValue_thingName :
    ¬ ∀ (address : Nat) (k : Fin 6) (buf : List UInt8), 0 < buf.length →
      ReadsValue (kvStoreBuild address) emptyStore k (kvStoreDefaultRows address k).valueBytes
        buf := by
  intro h
  have hread := congrArg (Except.map EntryRead.pvBuffer) (h 0xFFF80010 0 [1, 1] (by decide))
  revert hread
  decide

end RenesasDemo.KVStore
