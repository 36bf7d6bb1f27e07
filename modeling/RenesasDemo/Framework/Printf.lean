import RenesasDemo.Framework.CString
import RenesasDemo.Framework.Numerals
import RenesasDemo.Framework.Segments
import RenesasDemo.Framework.Words
import Mathlib.Algebra.Group.Nat.Defs
import Mathlib.Data.List.DropRight

namespace RenesasDemo.Framework

/-- `%lu`. -/
def decimalText (n : Nat) : List UInt8 :=
  if n < 10 then [UInt8.ofNat (0x30 + n)] else decimalText (n / 10) ++ [UInt8.ofNat (0x30 + n % 10)]

/-- `%ld`. -/
def integerText (n : Int) : List UInt8 :=
  if n < 0 then 0x2D :: decimalText n.natAbs else decimalText n.natAbs

/-- `%0*lu`, for a number that has no more digits. -/
def decimalDigits : Nat → Nat → List UInt8
  | 0, _ => []
  | width + 1, n => decimalDigits width (n / 10) ++ [UInt8.ofNat (0x30 + n % 10)]

/-- A field width: spaces in front. -/
def padLeft (width : Nat) (s : List UInt8) : List UInt8 :=
  List.replicate (width - s.length) 0x20 ++ s

/-- A field width with the flag `-`: spaces behind. -/
def padRight (width : Nat) (s : List UInt8) : List UInt8 :=
  s ++ List.replicate (width - s.length) 0x20

section texts

variable {n k width : Nat} {s : List UInt8}

theorem toNat_digit (hn : n < 10) : (UInt8.ofNat (0x30 + n)).toNat = 0x30 + n := by
  rw [UInt8.toNat_ofNat']
  omega

theorem isDigit_digit (hn : n < 10) : isDigit (UInt8.ofNat (0x30 + n)) = true := by
  rw [isDigit_iff, toNat_digit hn]
  omega

theorem isDigit_decimalText (n : Nat) : ∀ c ∈ decimalText n, isDigit c = true := by
  fun_induction decimalText n with
  | case1 n hn =>
    intro c hc
    obtain rfl := List.mem_singleton.mp hc
    exact isDigit_digit hn
  | case2 n hn ih =>
    intro c hc
    rcases List.mem_append.mp hc with hc | hc
    · exact ih c hc
    · obtain rfl := List.mem_singleton.mp hc
      exact isDigit_digit (Nat.mod_lt n (by decide))

theorem isDigit_decimalDigits (k n : Nat) : ∀ c ∈ decimalDigits k n, isDigit c = true := by
  induction k generalizing n with
  | zero => exact nofun
  | succ k ih =>
    intro c hc
    rcases List.mem_append.mp hc with hc | hc
    · exact ih (n / 10) c hc
    · obtain rfl := List.mem_singleton.mp hc
      exact isDigit_digit (Nat.mod_lt n (by decide))

theorem noNul_of_isDigit (h : ∀ c ∈ s, isDigit c = true) : 0 ∉ s :=
  fun hmem => absurd (h 0 hmem) (by decide)

theorem noNul_decimalText (n : Nat) : 0 ∉ decimalText n := noNul_of_isDigit (isDigit_decimalText n)

theorem length_decimalDigits (width n : Nat) : (decimalDigits width n).length = width := by
  induction width generalizing n with
  | zero => rfl
  | succ width ih => rw [decimalDigits, List.length_append, ih, List.length_singleton]

theorem length_decimalText_pos (n : Nat) : 0 < (decimalText n).length := by
  rw [decimalText]
  split <;> simp

theorem length_integerText_pos (z : Int) : 0 < (integerText z).length := by
  unfold integerText
  split
  · exact Nat.succ_pos _
  · exact length_decimalText_pos _

theorem length_decimalText_le (hk : 0 < k) (hn : n < 10 ^ k) : (decimalText n).length ≤ k := by
  induction k generalizing n with
  | zero => exact absurd hk (Nat.lt_irrefl 0)
  | succ k ih =>
    rw [decimalText]
    split
    · simp
    · next hge =>
      have hk : 0 < k := by
        rcases Nat.eq_zero_or_pos k with rfl | hk
        · simp at hn
          omega
        · exact hk
      have hdiv : n / 10 < 10 ^ k := by
        rw [Nat.pow_succ] at hn
        exact Nat.div_lt_of_lt_mul (by omega)
      rw [List.length_append, List.length_singleton]
      exact Nat.succ_le_succ (ih hk hdiv)

theorem length_integerText (x : Int32) : (integerText x.toInt).length ≤ 11 := by
  have hlo := x.le_toInt
  have hhi := x.toInt_lt
  have hdecimal := length_decimalText_le (k := 10) (n := x.toInt.natAbs) (by decide) (by omega)
  unfold integerText
  split
  · rw [List.length_cons]
    omega
  · omega

theorem noNul_padLeft (h : 0 ∉ s) : 0 ∉ padLeft width s := by
  rw [padLeft, List.mem_append, not_or]
  exact ⟨fun hm => absurd (List.eq_of_mem_replicate hm) (by decide), h⟩

theorem noNul_padRight (h : 0 ∉ s) : 0 ∉ padRight width s := by
  rw [padRight, List.mem_append, not_or]
  exact ⟨h, fun hm => absurd (List.eq_of_mem_replicate hm) (by decide)⟩

theorem length_padLeft (h : s.length ≤ width) : (padLeft width s).length = width := by
  rw [padLeft, List.length_append, List.length_replicate]
  omega

theorem length_padRight (h : s.length ≤ width) : (padRight width s).length = width := by
  rw [padRight, List.length_append, List.length_replicate]
  omega

end texts

section readBack

theorem decimalValue_decimalText (n : Nat) : decimalValue (decimalText n) = n := by
  fun_induction decimalText n with
  | case1 n hn =>
    simp only [decimalValue, List.foldl_cons, List.foldl_nil, toNat_digit hn]
    omega
  | case2 n hn ih =>
    rw [decimalValue, List.foldl_append, ← decimalValue, ih, List.foldl_cons, List.foldl_nil,
      toNat_digit (Nat.mod_lt n (by decide))]
    omega

theorem decimalText_ne_nil (n : Nat) : decimalText n ≠ [] :=
  List.ne_nil_of_length_pos (length_decimalText_pos n)

/-- What stands behind a number is not a part of it. -/
def EndsNumber (s : List UInt8) : Prop := ∀ c ∈ s.head?, isDigit c = false

instance : (s : List UInt8) → Decidable (EndsNumber s)
  | [] => .isTrue nofun
  | c :: s => decidable_of_iff (isDigit c = false) (by simp [EndsNumber])

theorem EndsNumber.append {s : List UInt8} (h : EndsNumber s) (hne : s ≠ []) (t : List UInt8) :
    EndsNumber (s ++ t) := by
  cases s with
  | nil => exact absurd rfl hne
  | cons c s => exact h

theorem decimalText_append_inj {m n : Nat} {s t : List UInt8} (hs : EndsNumber s)
    (ht : EndsNumber t) (h : decimalText m ++ s = decimalText n ++ t) : m = n ∧ s = t := by
  have hdigits := congrArg (List.takeWhile isDigit) h
  rw [takeWhile_append_of_stop (isDigit_decimalText m) hs,
    takeWhile_append_of_stop (isDigit_decimalText n) ht] at hdigits
  have hvalue := congrArg decimalValue hdigits
  rw [decimalValue_decimalText, decimalValue_decimalText] at hvalue
  rw [hdigits] at h
  exact ⟨hvalue, List.append_cancel_left h⟩

theorem integerText_append_inj {x y : Int} {s t : List UInt8} (hs : EndsNumber s)
    (ht : EndsNumber t) (h : integerText x ++ s = integerText y ++ t) : x = y ∧ s = t := by
  have hsign : ∀ (n : Nat) (r r' : List UInt8), 0x2D :: r ≠ decimalText n ++ r' := by
    intro n r r' heq
    cases hn : decimalText n with
    | nil => exact decimalText_ne_nil n hn
    | cons c d =>
      have hc := isDigit_decimalText n c (hn ▸ List.mem_cons_self)
      rw [hn, List.cons_append] at heq
      rw [← (List.cons.inj heq).1] at hc
      exact absurd hc (by decide)
  rw [integerText, integerText] at h
  split at h <;> split at h
  · rw [List.cons_append, List.cons_append] at h
    obtain ⟨habs, hrest⟩ := decimalText_append_inj hs ht (List.cons.inj h).2
    exact ⟨by omega, hrest⟩
  · rw [List.cons_append] at h
    exact absurd h (hsign _ _ _)
  · rw [List.cons_append] at h
    exact absurd h.symm (hsign _ _ _)
  · obtain ⟨habs, hrest⟩ := decimalText_append_inj hs ht h
    exact ⟨by omega, hrest⟩

end readBack

/-- What the printf functions return for a text of `n` characters: an int cannot express more. -/
def printfResult (n : Nat) : Int := if n < 2 ^ 31 then n else -1

theorem printfResult_pos_iff (n : Nat) : 0 < printfResult n ↔ 0 < n ∧ n < 2 ^ 31 := by
  rw [printfResult]
  split <;> omega

/-- `snprintf` to the index `i` of a buffer, with room for `size` characters; undefined where that
reaches behind the end of the buffer. -/
def snprintf {n : Nat} (b : Buffer UInt8 n) (i size : Nat) (text : List UInt8) :
    Option (Buffer UInt8 n) :=
  if size = 0 then some b else b.memcpy i (text.take (size - 1) ++ [0])

/-- What stands in the buffer behind it: what stood before `i`, and as much of the text as fits with
its terminator. -/
theorem snprintf_spec {n i size : Nat} (b : Buffer UInt8 n) (text : List UInt8) (hsize : 0 < size)
    (hroom : i + size ≤ n) :
    ∃ b', snprintf b i size text = some b' ∧
      b'.bytes.take (i + (text.take (size - 1)).length + 1) =
        b.bytes.take i ++ text.take (size - 1) ++ [0] := by
  have hlen : (text.take (size - 1) ++ [0]).length = (text.take (size - 1)).length + 1 :=
    List.length_append
  have hle : (text.take (size - 1)).length ≤ size - 1 := List.length_take_le _ _
  obtain ⟨b', hb', hbytes⟩ := b.memcpy_of_le i (text.take (size - 1) ++ [0]) (by omega)
  have hi : (b.bytes.take i).length = i := by
    rw [List.length_take, b.length_bytes]
    omega
  refine ⟨b', ?_, ?_⟩
  · rw [snprintf, if_neg (by omega), hb']
  · rw [hbytes, List.take_left']
    · rw [List.append_assoc]
    · rw [List.length_append, hi, hlen, Nat.add_assoc]

/-- From the start of the buffer: the bytes, and the string at its pointer. -/
theorem snprintf_start {n : Nat} (b : Buffer UInt8 n) (size : Nat) (text : List UInt8)
    (hsize : 0 < size) (hroom : size ≤ n) :
    ∃ b', snprintf b 0 size text = some b' ∧
      b'.bytes.take (text.take (size - 1)).length = text.take (size - 1) ∧
      (0 ∉ text → (CString.ofBytes b'.bytes).bytes = text.take (size - 1)) := by
  obtain ⟨b', hb', hbytes⟩ := snprintf_spec (i := 0) b text hsize (by omega)
  rw [List.take_zero, List.nil_append, Nat.zero_add] at hbytes
  have hsplit : b'.bytes = text.take (size - 1) ++
      0 :: b'.bytes.drop ((text.take (size - 1)).length + 1) := by
    conv_lhs => rw [← List.take_append_drop ((text.take (size - 1)).length + 1) b'.bytes]
    rw [hbytes, List.append_assoc, List.singleton_append]
  refine ⟨b', hb', ?_, fun hnul => ?_⟩
  · rw [hsplit, List.take_left']
    rfl
  · have hall : ∀ c ∈ text.take (size - 1), decide (c ≠ 0) = true := fun c hc =>
      decide_eq_true fun hz => hnul (hz ▸ List.mem_of_mem_take hc)
    change b'.bytes.takeWhile (· ≠ 0) = _
    rw [hsplit, List.takeWhile_append_of_pos hall]
    simp

end RenesasDemo.Framework
