import Mathlib.Data.List.Basic
import Mathlib.Data.List.Zip

namespace RenesasDemo.Framework

section crc

variable {w : Nat} (poly : BitVec w)

/-- A bit goes into a shift register that moves down; `poly` is fed back where it leaves. -/
def crcBit (s : BitVec w) (b : Bool) : BitVec w :=
  if s.getLsbD 0 ^^ b then (s >>> 1) ^^^ poly else s >>> 1

def crcBits (s : BitVec w) (bs : List Bool) : BitVec w := bs.foldl (crcBit poly) s

variable {poly} {s t : BitVec w} {as bs : List Bool}

theorem crcBits_append (s : BitVec w) (as bs : List Bool) :
    crcBits poly s (as ++ bs) = crcBits poly (crcBits poly s as) bs := List.foldl_append

theorem getLsbD_crcBit (s : BitVec w) (b : Bool) (i : Nat) :
    (crcBit poly s b).getLsbD i =
      (s.getLsbD (1 + i) ^^ ((s.getLsbD 0 ^^ b) && poly.getLsbD i)) := by
  unfold crcBit
  split
  · next h => rw [BitVec.getLsbD_xor, BitVec.getLsbD_ushiftRight, h, Bool.true_and]
  · next h =>
    rw [BitVec.getLsbD_ushiftRight, eq_false_of_ne_true h, Bool.false_and, Bool.xor_false]

variable (poly) in
/-- The register is linear in its content and the bit together. -/
theorem crcBit_xor (s t : BitVec w) (a b : Bool) :
    crcBit poly (s ^^^ t) (a ^^ b) = crcBit poly s a ^^^ crcBit poly t b := by
  apply BitVec.eq_of_getLsbD_eq
  intro i _
  simp only [BitVec.getLsbD_xor, getLsbD_crcBit]
  cases poly.getLsbD i <;> cases s.getLsbD 0 <;> cases t.getLsbD 0 <;> cases a <;> cases b <;>
    simp

variable (poly) in
theorem crcBits_xor (s t : BitVec w) (h : as.length = bs.length) :
    crcBits poly (s ^^^ t) (as.zipWith xor bs) = crcBits poly s as ^^^ crcBits poly t bs := by
  induction as generalizing s t bs with
  | nil =>
    obtain rfl : bs = [] := List.length_eq_zero_iff.mp h.symm
    rfl
  | cons a as ih =>
    cases bs with
    | nil => cases h
    | cons b bs =>
      have hstep := crcBit_xor poly s t a b
      have hrest := ih (crcBit poly s a) (crcBit poly t b) (Nat.succ.inj h)
      rw [← hstep] at hrest
      exact hrest

/-- What the register held before, where the stream left it empty: the stream itself. -/
theorem getLsbD_of_crcBits_eq_zero (hpoly : poly.msb = true) (hlen : bs.length ≤ w)
    (h : crcBits poly s bs = 0#w) (i : Nat) : s.getLsbD i = bs.getD i false := by
  induction bs generalizing s i with
  | nil =>
    have hs : s = 0#w := h
    simp [hs]
  | cons b bs ih =>
    have hlt : bs.length < w := hlen
    have hnext := ih (Nat.le_of_lt hlt) h
    -- the top place holds only what was fed back, and the stream ends below it
    have hfeed : (s.getLsbD 0 ^^ b) = false := by
      have htop := hnext (w - 1)
      have hend : bs.getD (w - 1) false = false := by
        rw [List.getD_eq_getElem?_getD, List.getElem?_eq_none (by omega), Option.getD_none]
      have hout : s.getLsbD (1 + (w - 1)) = false := BitVec.getLsbD_of_ge s _ (by omega)
      rw [BitVec.msb_eq_getLsbD_last] at hpoly
      rwa [getLsbD_crcBit, hend, hout, hpoly, Bool.false_xor, Bool.and_true] at htop
    cases i with
    | zero =>
      rw [List.getD_cons_zero]
      cases hs : s.getLsbD 0 <;> cases b <;> simp_all
    | succ i =>
      have hi := hnext i
      rw [getLsbD_crcBit, hfeed, Bool.false_and, Bool.xor_false, Nat.add_comm 1] at hi
      rw [hi, List.getD_cons_succ]

theorem crcBits_zero_eq_zero (hpoly : poly.msb = true) (hlen : bs.length ≤ w)
    (h : crcBits poly 0#w bs = 0#w) : ∀ b ∈ bs, b = false := by
  intro b hb
  obtain ⟨i, hi, rfl⟩ := List.mem_iff_getElem.mp hb
  have hbit := getLsbD_of_crcBits_eq_zero hpoly hlen h i
  rw [BitVec.getLsbD_zero, List.getD_eq_getElem?_getD, List.getElem?_eq_getElem hi,
    Option.getD_some] at hbit
  exact hbit.symm

theorem eq_of_zipWith_xor (h : as.length = bs.length) (hzero : ∀ b ∈ as.zipWith xor bs, b = false) :
    as = bs := by
  induction as generalizing bs with
  | nil => exact (List.length_eq_zero_iff.mp h.symm).symm
  | cons a as ih =>
    cases bs with
    | nil => cases h
    | cons b bs =>
      rw [List.zipWith_cons_cons] at hzero
      have hhead : (a ^^ b) = false := hzero _ List.mem_cons_self
      have htail := ih (Nat.succ.inj h) fun c hc => hzero c (List.mem_cons_of_mem _ hc)
      rw [bne_eq_false_iff_eq.mp hhead, htail]

/-- Two streams of at most `w` bits lead one register to one content only if they agree. -/
theorem eq_of_crcBits_eq (hpoly : poly.msb = true) (hlen : as.length = bs.length)
    (hle : as.length ≤ w) (h : crcBits poly s as = crcBits poly s bs) : as = bs := by
  have hxor := crcBits_xor poly s s hlen
  rw [h, BitVec.xor_self, BitVec.xor_self] at hxor
  have hle' : (as.zipWith xor bs).length ≤ w := by
    rw [List.length_zipWith]
    omega
  exact eq_of_zipWith_xor hlen (crcBits_zero_eq_zero hpoly hle' hxor)

theorem crcBit_injective (hpoly : poly.msb = true) (b : Bool) :
    Function.Injective (crcBit poly · b) := by
  intro s t h
  have hst : crcBit poly (s ^^^ t) (b ^^ b) = 0#w := by
    rw [crcBit_xor, BitVec.xor_eq_zero_iff]
    exact h
  rw [Bool.xor_self] at hst
  cases w with
  | zero => exact BitVec.eq_of_getLsbD_eq fun i hi => absurd hi (Nat.not_lt_zero i)
  | succ w =>
    rw [← BitVec.xor_eq_zero_iff]
    apply BitVec.eq_of_getLsbD_eq
    intro i _
    have hone : [false].length ≤ w + 1 := Nat.succ_le_succ (Nat.zero_le w)
    have hbits : crcBits poly (s ^^^ t) [false] = 0#(w + 1) := hst
    have hbit := getLsbD_of_crcBits_eq_zero hpoly hone hbits i
    rw [hbit, BitVec.getLsbD_zero]
    cases i <;> rfl

theorem crcBits_injective (hpoly : poly.msb = true) (bs : List Bool) :
    Function.Injective (crcBits poly · bs) := by
  induction bs with
  | nil => exact fun _ _ h => h
  | cons b bs ih => exact fun _ _ h => crcBit_injective hpoly b (ih h)

/-- A burst of at most `w` bits is seen, whatever stands before and behind it. -/
theorem eq_of_crcBits_burst (hpoly : poly.msb = true) {before behind : List Bool}
    (hlen : as.length = bs.length) (hle : as.length ≤ w)
    (h : crcBits poly s (before ++ as ++ behind) = crcBits poly s (before ++ bs ++ behind)) :
    as = bs := by
  rw [crcBits_append, crcBits_append, crcBits_append, crcBits_append] at h
  exact eq_of_crcBits_eq hpoly hlen hle (crcBits_injective hpoly behind h)

/-- Streams of one length that agree outside a window of `w` places. -/
theorem eq_of_crcBits_window (hpoly : poly.msb = true) (hlen : as.length = bs.length) (k : Nat)
    (hout : ∀ i, i < k ∨ k + w ≤ i → as[i]? = bs[i]?)
    (h : crcBits poly s as = crcBits poly s bs) : as = bs := by
  have hbefore : as.take k = bs.take k := by
    apply List.ext_getElem?
    intro i
    rw [List.getElem?_take, List.getElem?_take]
    split
    · next hi => exact hout i (.inl hi)
    · rfl
  have hbehind : (as.drop k).drop w = (bs.drop k).drop w := by
    apply List.ext_getElem?
    intro i
    simp only [List.getElem?_drop]
    exact hout _ (.inr (by omega))
  have hsplit : ∀ l : List Bool, l = l.take k ++ (l.drop k).take w ++ (l.drop k).drop w := by
    intro l
    rw [List.append_assoc, List.take_append_drop, List.take_append_drop]
  have hwindow : (as.drop k).take w = (bs.drop k).take w := by
    rw [hsplit as, hsplit bs, hbefore, hbehind] at h
    refine eq_of_crcBits_burst hpoly ?_ (List.length_take_le w _) h
    rw [List.length_take, List.length_take, List.length_drop, List.length_drop, hlen]
  rw [hsplit as, hsplit bs, hbefore, hwindow, hbehind]

/-- The bits of a word, lowest first. -/
def lsbFirst {n : Nat} (d : BitVec n) : List Bool := (List.range n).map d.getLsbD

@[simp] theorem length_lsbFirst {n : Nat} (d : BitVec n) : (lsbFirst d).length = n := by
  simp [lsbFirst]

theorem getD_lsbFirst {n : Nat} (d : BitVec n) (i : Nat) :
    (lsbFirst d).getD i false = d.getLsbD i := by
  rw [lsbFirst, List.getD_eq_getElem?_getD, List.getElem?_map]
  by_cases hi : i < n
  · rw [List.getElem?_range hi, Option.map_some, Option.getD_some]
  · have hge : n ≤ i := Nat.le_of_not_lt hi
    rw [List.getElem?_eq_none (by simpa using hge), Option.map_none, Option.getD_none,
      BitVec.getLsbD_of_ge d i hge]

/-- A word is its low part and behind it its high part. -/
theorem lsbFirst_add {m n : Nat} (d : BitVec (m + n)) :
    lsbFirst d = lsbFirst (d.setWidth m) ++ lsbFirst ((d >>> m).setWidth n) := by
  rw [lsbFirst, List.range_add, List.map_append, List.map_map]
  congr 1
  · apply List.map_congr_left
    intro i hi
    have hlt : i < m := List.mem_range.mp hi
    simp [hlt]
  · apply List.map_congr_left
    intro i hi
    have hlt : i < n := List.mem_range.mp hi
    simp [hlt]

/-- A register that holds the stream only moves down. -/
theorem crcBits_of_holds (h : ∀ i < bs.length, s.getLsbD i = bs.getD i false) :
    crcBits poly s bs = s >>> bs.length := by
  induction bs generalizing s with
  | nil => exact (BitVec.ushiftRight_zero s).symm
  | cons b bs ih =>
    have hhead : s.getLsbD 0 = b := h 0 (Nat.zero_lt_succ _)
    have hmove : crcBit poly s b = s >>> 1 := by
      rw [crcBit, hhead, Bool.xor_self, if_neg Bool.false_ne_true]
    have hnext : ∀ i < bs.length, (s >>> 1).getLsbD i = bs.getD i false := by
      intro i hi
      rw [BitVec.getLsbD_ushiftRight, Nat.add_comm]
      exact h (i + 1) (Nat.succ_lt_succ hi)
    calc crcBits poly s (b :: bs) = crcBits poly (s >>> 1) bs := by
          rw [crcBits, List.foldl_cons, hmove, crcBits]
      _ = s >>> 1 >>> bs.length := ih hnext
      _ = s >>> (b :: bs).length := by
          rw [List.length_cons, ← BitVec.shiftRight_add, Nat.add_comm]

/-- The table's word: what leaves an index of `n` bits when `n` zeros go in. -/
def crcTable (poly : BitVec w) (n : Nat) (i : BitVec n) : BitVec w :=
  crcBits poly (i.setWidth w) (List.replicate n false)

/-- `n` bits at a time: the register moves down, and the table stands for what is fed back. -/
theorem crcBits_lsbFirst {n : Nat} (hn : n ≤ w) (s : BitVec w) (d : BitVec n) :
    crcBits poly s (lsbFirst d) =
      (s >>> n) ^^^ crcTable poly n (s.setWidth n ^^^ d) := by
  let low : BitVec w := (s.setWidth n ^^^ d).setWidth w
  have hlow : ∀ i, low.getLsbD i = (decide (i < n) && (s.getLsbD i ^^ d.getLsbD i)) := by
    intro i
    by_cases hi : i < n
    · simp [low, hi, Nat.lt_of_lt_of_le hi hn]
    · have hge : n ≤ i := Nat.le_of_not_lt hi
      simp [low, BitVec.getLsbD_setWidth, hi, BitVec.getLsbD_of_ge d i hge]
  -- with its low bits replaced by the stream the register only moves down
  have hholds : crcBits poly (s ^^^ low) (lsbFirst d) = s >>> n := by
    rw [crcBits_of_holds, length_lsbFirst]
    · apply BitVec.eq_of_getLsbD_eq
      intro i _
      rw [BitVec.getLsbD_ushiftRight, BitVec.getLsbD_ushiftRight, BitVec.getLsbD_xor, hlow,
        decide_eq_false (Nat.not_lt_of_le (Nat.le_add_right n i)), Bool.false_and, Bool.xor_false]
    · intro i hi
      rw [length_lsbFirst] at hi
      rw [getD_lsbFirst, BitVec.getLsbD_xor, hlow, decide_eq_true hi, Bool.true_and]
      cases s.getLsbD i <;> cases d.getLsbD i <;> rfl
  have hzero : (lsbFirst d).zipWith xor (List.replicate n false) = lsbFirst d := by
    apply List.ext_getElem
    · simp
    · intro i _ _
      simp
  have hlen : (lsbFirst d).length = (List.replicate n false).length := by simp
  have hsum := crcBits_xor poly (s ^^^ low) low hlen
  rw [hzero, BitVec.xor_assoc, BitVec.xor_self, BitVec.xor_zero, hholds] at hsum
  exact hsum

/-- The bits of a buffer, each byte lowest bit first. -/
def streamBits (data : List UInt8) : List Bool := data.flatMap fun b => lsbFirst b.toBitVec

theorem length_streamBits (data : List UInt8) : (streamBits data).length = 8 * data.length := by
  simp [streamBits, List.length_flatMap, Nat.mul_comm]

theorem lsbFirst_injective {n : Nat} : Function.Injective (@lsbFirst n) := by
  intro a b h
  apply BitVec.eq_of_getLsbD_eq
  intro i _
  rw [← getD_lsbFirst, h, getD_lsbFirst]

theorem streamBits_injective : Function.Injective streamBits := by
  intro xs ys h
  induction xs generalizing ys with
  | nil =>
    have hlen := congrArg List.length h
    rw [length_streamBits, length_streamBits, List.length_nil] at hlen
    exact (List.length_eq_zero_iff.mp (by omega)).symm
  | cons x xs ih =>
    cases ys with
    | nil =>
      have hlen := congrArg List.length h
      rw [length_streamBits, length_streamBits, List.length_cons, List.length_nil] at hlen
      omega
    | cons y ys =>
      rw [streamBits, streamBits, List.flatMap_cons, List.flatMap_cons] at h
      obtain ⟨hbyte, hrest⟩ := List.append_inj h (by rw [length_lsbFirst, length_lsbFirst])
      rw [UInt8.toBitVec_inj.mp (lsbFirst_injective hbyte), ih hrest]

end crc

end RenesasDemo.Framework
