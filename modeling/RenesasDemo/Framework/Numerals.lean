import Mathlib.Data.List.TakeWhile
import Mathlib.Data.UInt

namespace RenesasDemo.Framework

def isSpace (c : UInt8) : Bool := c = 0x20 || (0x09 ≤ c && c ≤ 0x0D)

def isDigit (c : UInt8) : Bool := 0x30 ≤ c && c ≤ 0x39

/-- Whether the number is negative, and what is behind the sign. -/
def takeSign : List UInt8 → Bool × List UInt8
  | [] => (false, [])
  | c :: s => if c = 0x2D then (true, s) else if c = 0x2B then (false, s) else (false, c :: s)

def decimalValue (s : List UInt8) : Nat := s.foldl (fun n c => 10 * n + (c.toNat - 0x30)) 0

/-- `strtoul` with base 10 and an `unsigned long` of 32 bits; 0 where there is no digit. -/
def strtoul (s : List UInt8) : UInt32 :=
  let (negative, rest) := takeSign (s.dropWhile isSpace)
  let n := decimalValue (rest.takeWhile isDigit)
  if 2 ^ 32 ≤ n then 0xFFFFFFFF else if negative then 0 - UInt32.ofNat n else UInt32.ofNat n

/-- Where `strtol` and `strtoul` with base 10 stop: behind the digits, or at the start where there
is no digit. -/
def strtolEnd (s : List UInt8) : Nat :=
  let (_, rest) := takeSign (s.dropWhile isSpace)
  let digits := rest.takeWhile isDigit
  if digits = [] then 0 else s.length - (rest.length - digits.length)

/-- `strtol` with base 10 and a `long` of 32 bits. -/
def strtol (s : List UInt8) : Int32 :=
  let (negative, rest) := takeSign (s.dropWhile isSpace)
  let n := decimalValue (rest.takeWhile isDigit)
  if negative then (if 2 ^ 31 < n then Int32.minValue else .ofInt (-n))
  else if 2 ^ 31 ≤ n then Int32.maxValue else .ofInt n

/-- The value of a word that is a decimal numeral as a whole, with a sign or without. -/
def numeralValue? (word : List UInt8) : Option Int :=
  let (negative, digits) := takeSign word
  if digits ≠ [] ∧ digits.all isDigit then
    some (if negative then -(decimalValue digits : Int) else decimalValue digits)
  else none

section numerals

variable {s : List UInt8} {c : UInt8} {z : Int}

theorem isDigit_iff : isDigit c = true ↔ 0x30 ≤ c.toNat ∧ c.toNat ≤ 0x39 := by
  rw [isDigit, Bool.and_eq_true, decide_eq_true_iff, decide_eq_true_iff, UInt8.le_iff_toNat_le,
    UInt8.le_iff_toNat_le]
  rfl

theorem isSpace_of_isDigit (h : isDigit c = true) : isSpace c = false := by
  simp only [isDigit, Bool.and_eq_true, decide_eq_true_eq, UInt8.le_iff_toNat_le] at h
  simp only [isSpace, Bool.or_eq_false_iff, decide_eq_false_iff_not, Bool.and_eq_false_iff,
    UInt8.le_iff_toNat_le, ← UInt8.toNat_inj]
  have hlo : (0x30 : UInt8).toNat = 48 := rfl
  have hsp : (0x20 : UInt8).toNat = 32 := rfl
  have hcr : (0x0D : UInt8).toNat = 13 := rfl
  omega

theorem dropWhile_of_numeral (h : numeralValue? s = some z) : s.dropWhile isSpace = s := by
  cases s with
  | nil => rfl
  | cons c s =>
    have hspace : isSpace c = false := by
      by_cases hminus : c = 0x2D
      · subst hminus
        rfl
      · by_cases hplus : c = 0x2B
        · subst hplus
          rfl
        · simp only [numeralValue?, takeSign, hminus, hplus, if_false] at h
          split at h
          · next hall =>
            exact isSpace_of_isDigit (List.all_eq_true.mp hall.2 c List.mem_cons_self)
          · cases h
    exact List.dropWhile_cons_of_neg (by simp [hspace])

/-- What a numeral is made of. -/
theorem takeSign_of_numeral (h : numeralValue? s = some z) :
    ∃ negative digits, takeSign (s.dropWhile isSpace) = (negative, digits) ∧
      digits.takeWhile isDigit = digits ∧
      z = if negative then -(decimalValue digits : Int) else decimalValue digits := by
  rw [dropWhile_of_numeral h]
  simp only [numeralValue?] at h
  by_cases hall : (takeSign s).2 ≠ [] ∧ (takeSign s).2.all isDigit
  · rw [if_pos hall] at h
    refine ⟨(takeSign s).1, (takeSign s).2, rfl, ?_, (Option.some.inj h).symm⟩
    exact List.takeWhile_eq_self_iff.mpr (List.all_eq_true.mp hall.2)
  · rw [if_neg hall] at h
    cases h

theorem strtol_of_numeral (h : numeralValue? s = some z) (hlo : -2 ^ 31 ≤ z) (hhi : z < 2 ^ 31) :
    (strtol s).toInt = z := by
  obtain ⟨negative, digits, hsign, hdigits, rfl⟩ := takeSign_of_numeral h
  simp only [strtol, hsign, hdigits]
  cases negative with
  | true =>
    simp only [if_true] at hlo hhi ⊢
    rw [if_neg (by omega), Int32.toInt_ofInt_of_le hlo hhi]
  | false =>
    simp only [Bool.false_eq_true, if_false] at hlo hhi ⊢
    rw [if_neg (by omega), Int32.toInt_ofInt_of_le hlo hhi]

theorem strtoul_of_numeral (h : numeralValue? s = some z) (hlo : 0 ≤ z) (hhi : z < 2 ^ 32) :
    ((strtoul s).toNat : Int) = z := by
  obtain ⟨negative, digits, hsign, hdigits, rfl⟩ := takeSign_of_numeral h
  simp only [strtoul, hsign, hdigits]
  cases negative with
  | true =>
    simp only [if_true] at hlo hhi ⊢
    have hzero : decimalValue digits = 0 := by omega
    rw [hzero]
    rfl
  | false =>
    simp only [Bool.false_eq_true, if_false] at hlo hhi ⊢
    have hlt : decimalValue digits < 2 ^ 32 := by omega
    rw [if_neg (Nat.not_le.mpr hlt), UInt32.toNat_ofNat_of_lt' hlt]

theorem length_takeSign (s : List UInt8) : (takeSign s).2.length ≤ s.length := by
  cases s with
  | nil => exact Nat.le_refl _
  | cons c s =>
    rw [takeSign]
    split
    · exact Nat.le_succ _
    · split
      · exact Nat.le_succ _
      · exact Nat.le_refl _

theorem digits_of_strtolEnd (h : strtolEnd s = 0) :
    (takeSign (s.dropWhile isSpace)).2.takeWhile isDigit = [] := by
  have hsign := length_takeSign (s.dropWhile isSpace)
  have hspace := (List.dropWhile_suffix (l := s) isSpace).length_le
  have hdigits := (List.takeWhile_prefix (l := (takeSign (s.dropWhile isSpace)).2)
    isDigit).length_le
  unfold strtolEnd at h
  by_contra hne
  have hpos := List.length_pos_iff.mpr hne
  simp only [hne, if_false] at h
  omega

/-- The test that is to find out that there is no numeral lets everything through. -/
theorem strtol_accepted (s : List UInt8) : strtolEnd s ≠ 0 ∨ strtol s = 0 := by
  by_cases h : strtolEnd s = 0
  · have hdigits := digits_of_strtolEnd h
    right
    simp only [strtol, hdigits]
    cases (takeSign (s.dropWhile isSpace)).1 <;> rfl
  · exact .inl h

theorem strtoul_accepted (s : List UInt8) : strtolEnd s ≠ 0 ∨ strtoul s = 0 := by
  by_cases h : strtolEnd s = 0
  · have hdigits := digits_of_strtolEnd h
    right
    simp only [strtoul, hdigits]
    cases (takeSign (s.dropWhile isSpace)).1 <;> rfl
  · exact .inl h

end numerals

end RenesasDemo.Framework
