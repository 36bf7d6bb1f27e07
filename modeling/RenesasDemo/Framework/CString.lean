import Mathlib.Data.List.Infix
import Mathlib.Data.List.TakeWhile
import Mathlib.Order.Basic

namespace RenesasDemo.Framework

/-- A C string: the bytes before its terminating NUL. -/
@[ext] structure CString where
  bytes : List UInt8
  noNul : 0 ∉ bytes
  deriving DecidableEq

theorem noNul_nil : (0 : UInt8) ∉ ([] : List UInt8) := List.not_mem_nil

theorem noNul_a : (0 : UInt8) ∉ ([97] : List UInt8) := by decide

namespace CString

def length (s : CString) : Nat := s.bytes.length

/-- `strnlen`: the scan stops at the terminator or after `maxlen` bytes. -/
def strnlen (s : CString) (maxlen : Nat) : Nat := min s.length maxlen

/-- `a` is what the first `a.length` bytes of `b` spell. -/
def IsPrefix (a b : CString) : Prop := a.bytes <+: b.bytes

instance (a b : CString) : Decidable (IsPrefix a b) :=
  inferInstanceAs (Decidable (_ <+: _))

theorem IsPrefix.refl (a : CString) : IsPrefix a a := List.prefix_refl _

theorem IsPrefix.eq_of_length {a b : CString} (h : IsPrefix a b) (hl : a.length = b.length) :
    a = b :=
  CString.ext (List.IsPrefix.eq_of_length h hl)

end CString

/-- The bytes of a string literal in the source. -/
def ascii (s : String) : List UInt8 := s.toList.map fun c => UInt8.ofNat c.toNat

/-- The string at a pointer; all of the bytes when none is NUL. -/
def CString.ofBytes (mem : List UInt8) : CString where
  bytes := mem.takeWhile (· ≠ 0)
  noNul := by
    intro hmem
    have hne := List.mem_takeWhile_imp hmem
    simp at hne

theorem CString.ofBytes_of_noNul {mem : List UInt8} (h : 0 ∉ mem) : ofBytes mem = ⟨mem, h⟩ := by
  apply CString.ext
  apply List.takeWhile_eq_self_iff.mpr
  intro a ha
  exact decide_eq_true fun hz => h (hz ▸ ha)

/-- `strlen` of the bytes at a pointer; all of them when none is NUL. -/
def strlen (mem : List UInt8) : Nat := (mem.takeWhile (· ≠ 0)).length

theorem CString.strlen_append_nul (s : CString) : strlen (s.bytes ++ [0]) = s.length := by
  have hall : ∀ a ∈ s.bytes, decide (a ≠ 0) = true := by
    intro a ha
    exact decide_eq_true fun hz => s.noNul (hz ▸ ha)
  rw [strlen, List.takeWhile_append_of_pos hall, CString.length]
  simp

theorem strlen_of_nul {mem : List UInt8} {n : Nat} (hnul : mem[n]? = some 0)
    (hbefore : 0 ∉ mem.take n) : strlen mem = n := by
  obtain ⟨hn, hget⟩ := List.getElem?_eq_some_iff.mp hnul
  have hsplit : mem = mem.take n ++ 0 :: mem.drop (n + 1) := by
    rw [← hget, List.getElem_cons_drop, List.take_append_drop]
  have hall : ∀ a ∈ mem.take n, decide (a ≠ 0) = true := by
    intro a ha
    exact decide_eq_true fun hz => hbefore (hz ▸ ha)
  rw [strlen, hsplit, List.takeWhile_append_of_pos hall]
  simp
  omega

theorem strlen_succ_eq_length_iff {mem : List UInt8} :
    strlen mem + 1 = mem.length ↔ ∃ s : CString, mem = s.bytes ++ [0] := by
  constructor
  · intro h
    have hsplit := List.takeWhile_append_dropWhile (p := (· ≠ 0)) (l := mem)
    have hrest : (mem.dropWhile (· ≠ 0)).length = 1 := by
      have hlen := congrArg List.length hsplit
      rw [List.length_append] at hlen
      rw [strlen] at h
      omega
    obtain ⟨b, hb⟩ := List.length_eq_one_iff.mp hrest
    have hnul : b = 0 := by
      have hhead := List.head?_dropWhile_not (· ≠ 0) mem
      rw [hb] at hhead
      simpa using hhead
    refine ⟨⟨mem.takeWhile (· ≠ 0), ?_⟩, ?_⟩
    · intro hmem
      have hne := List.mem_takeWhile_imp hmem
      simp at hne
    · rw [hb, hnul] at hsplit
      exact hsplit.symm
  · intro h
    obtain ⟨s, rfl⟩ := h
    rw [s.strlen_append_nul, List.length_append, CString.length, List.length_singleton]

/-- `strncmp` on the bytes before two terminators; only its sign matters in C. -/
def strncmp : List UInt8 → List UInt8 → Nat → Int
  | _, _, 0 => 0
  | [], [], _ + 1 => 0
  | [], b :: _, _ + 1 => -(b.toNat : Int)
  | a :: _, [], _ + 1 => (a.toNat : Int)
  | a :: as, b :: bs, n + 1 =>
      if a = b then strncmp as bs n else (a.toNat : Int) - (b.toNat : Int)

private theorem toNat_ne_zero {a : UInt8} (h : (0 : UInt8) ≠ a) : (a.toNat : Int) ≠ 0 := by
  intro hz
  apply h
  apply UInt8.toNat_inj.mp
  simpa using (Int.ofNat_eq_zero.mp hz).symm

theorem strncmp_eq_zero {as bs : List UInt8} {n : Nat} (ha : 0 ∉ as) (hb : 0 ∉ bs) :
    strncmp as bs n = 0 ↔ as.take n = bs.take n := by
  induction n generalizing as bs with
  | zero => simp [strncmp]
  | succ n ih =>
    cases as with
    | nil =>
      cases bs with
      | nil => simp [strncmp]
      | cons b bs =>
        have hne := toNat_ne_zero (List.ne_of_not_mem_cons hb)
        simp only [strncmp, List.take_nil, List.take_succ_cons, reduceCtorEq, iff_false]
        omega
    | cons a as =>
      cases bs with
      | nil =>
        have hne := toNat_ne_zero (List.ne_of_not_mem_cons ha)
        simpa [strncmp] using hne
      | cons b bs =>
        by_cases hab : a = b
        · simpa [strncmp, hab] using
            ih (List.not_mem_of_not_mem_cons ha) (List.not_mem_of_not_mem_cons hb)
        · have hne : (a.toNat : Int) - (b.toNat : Int) ≠ 0 := by
            intro hz
            exact hab (UInt8.toNat_inj.mp (by omega))
          simpa [strncmp, hab] using hne

theorem strncmp_length_eq_zero (a b : CString) :
    strncmp a.bytes b.bytes a.length = 0 ↔ a.IsPrefix b := by
  rw [strncmp_eq_zero a.noNul b.noNul, CString.length, List.take_length, CString.IsPrefix,
    List.prefix_iff_eq_take]

/-- `strnstr`: where `little` starts within the first `len` bytes of `big`. -/
def strnstr (big little : List UInt8) (len : Nat) : Option Nat :=
  (List.range (len + 1)).find? fun i => decide (little <+: (big.take len).drop i)

theorem isSome_strnstr_iff {big little : List UInt8} {len : Nat} :
    (strnstr big little len).isSome = true ↔ little <:+: big.take len := by
  rw [strnstr, List.find?_isSome]
  constructor
  · intro h
    obtain ⟨i, -, hi⟩ := h
    exact (of_decide_eq_true hi).isInfix.trans (List.drop_suffix i _).isInfix
  · intro h
    obtain ⟨before, after, hsplit⟩ := h
    have hlen := congrArg List.length hsplit
    simp only [List.length_append, List.length_take] at hlen
    refine ⟨before.length, List.mem_range.mpr (by omega), decide_eq_true ?_⟩
    rw [← hsplit, List.append_assoc, List.drop_left]
    exact List.prefix_append _ _

end RenesasDemo.Framework
