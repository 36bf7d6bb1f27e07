import Mathlib.Algebra.GroupWithZero.Nat
import Mathlib.Data.List.Chain
import Mathlib.Data.List.Perm.Basic
import RenesasDemo.Framework.Segments

namespace RenesasDemo.Ota

open Framework

/-- Bytes of the image and the position of the first; positions end far below 2^32. -/
structure FlashBlock where
  offset : Nat
  binary : List UInt8
  deriving DecidableEq

def FlashBlock.length (b : FlashBlock) : Nat := b.binary.length

def FlashBlock.positions (b : FlashBlock) : List Nat := List.range' b.offset b.length

/-- The bytes are those of the image. -/
def FlashBlock.Genuine (img : List UInt8) (b : FlashBlock) : Prop := SliceAt img b.offset b.binary

instance (img : List UInt8) (b : FlashBlock) : Decidable (b.Genuine img) :=
  inferInstanceAs (Decidable (SliceAt ..))

def FlashBlock.take (b : FlashBlock) (n : Nat) : FlashBlock := ⟨b.offset, b.binary.take n⟩

def FlashBlock.drop (b : FlashBlock) (n : Nat) : FlashBlock := ⟨b.offset + n, b.binary.drop n⟩

def positions (l : List FlashBlock) : List Nat := l.flatMap FlashBlock.positions

/-- `offset & OTA_FLASH_MIN_PGM_SIZE_MASK` for pages of `P` bytes. -/
def pageTop (P offset : Nat) : Nat := offset - offset % P

theorem pageTop_eq_and {k offset : Nat} (hk : k < 32) (h : offset < 2 ^ 32) :
    offset &&& (0xFFFFFFFF - 2 ^ k + 1) = pageTop (2 ^ k) offset := by
  have hmask : 0xFFFFFFFF - 2 ^ k + 1 = (2 ^ (32 - k) - 1) <<< k := by
    have hlt : 2 ^ k < 2 ^ 32 := Nat.pow_lt_pow_right (by decide) hk
    have hsplit : 2 ^ (32 - k) * 2 ^ k = 2 ^ 32 := by
      rw [← Nat.pow_add, Nat.sub_add_cancel (Nat.le_of_lt hk)]
    rw [Nat.shiftLeft_eq, Nat.sub_mul, hsplit]
    omega
  have hpage : pageTop (2 ^ k) offset = offset >>> k <<< k := by
    rw [pageTop, Nat.shiftRight_eq_div_pow, Nat.shiftLeft_eq]
    have hdiv := Nat.div_add_mod' offset (2 ^ k)
    omega
  rw [hmask, hpage]
  apply Nat.eq_of_testBit_eq
  intro i
  rw [Nat.testBit_and, Nat.testBit_shiftLeft, Nat.testBit_two_pow_sub_one,
    Nat.testBit_shiftLeft, Nat.testBit_shiftRight]
  by_cases hi : k ≤ i
  · have hsum : k + (i - k) = i := by omega
    rw [hsum]
    by_cases hbit : i < 32
    · have hin : i - k < 32 - k := by omega
      simp [hi, hin]
    · have hpow : 2 ^ 32 ≤ 2 ^ i := Nat.pow_le_pow_right (by decide) (by omega)
      simp [Nat.testBit_lt_two_pow (Nat.lt_of_lt_of_le h hpow)]
  · simp [hi]

namespace FragmentedFlashBlockList

def insert : List FlashBlock → FlashBlock → List FlashBlock
  | [], new => [new]
  | current :: next, new =>
      if new.offset < current.offset then new :: current :: next
      else current :: insert next new

/-- The list is lost when no fragment has the offset: the search returns NULL. -/
def delete (head : List FlashBlock) (offset : Nat) : List FlashBlock :=
  if head.any (·.offset = offset) then head.eraseP (·.offset = offset) else []

/-- The candidates for a page, the number of their bytes and the nodes behind them. -/
structure Extraction where
  candidates : List FlashBlock
  assembledLength : Nat
  tail : List FlashBlock

/-- The scan of a page's candidates from the node `tmp` on. -/
def extract (P : Nat) : Nat → Nat → List FlashBlock → Option Extraction
  | _, assembledLength, [] => some ⟨[], assembledLength, []⟩
  | loopCounter, assembledLength, tmp :: next =>
      if P ≤ assembledLength ∨ P ≤ loopCounter then some ⟨[], assembledLength, tmp :: next⟩
      else if pageTop P tmp.offset + P < tmp.offset + tmp.length then
        let fragmentedLength := P - assembledLength
        -- the length of what is cut off would be negative, as a uint32_t about 2^32
        if tmp.length < fragmentedLength then none
        else
          some ⟨[tmp.take fragmentedLength], P, insert next (tmp.drop fragmentedLength)⟩
      else
        (extract P (loopCounter + 1) (assembledLength + tmp.length) next).map fun e =>
          { e with candidates := tmp :: e.candidates }

/-- The search for a page, `before` being the nodes already passed. After a scan that does not
fill a page it skips the candidates and the node behind them. -/
def search (P : Nat) :
    List FlashBlock → Nat → List FlashBlock → Option (Option (List FlashBlock × Extraction))
  | _, _, [] => some none
  | before, skip + 1, tmp :: next => search P (before ++ [tmp]) skip next
  | before, 0, tmp :: next =>
      if tmp.offset % P = 0 then
        (extract P 0 0 (tmp :: next)).bind fun e =>
          if e.assembledLength = P then some (some (before, e))
          else search P (before ++ [tmp]) e.candidates.length next
      else search P (before ++ [tmp]) 0 next

/-- The copy loop: `index` is set to the length of the last candidate, not increased by it. -/
def copyCandidates {P : Nat} (flashBlockArray : Buffer UInt8 P) (index : Nat) :
    List FlashBlock → Option (Buffer UInt8 P)
  | [] => some flashBlockArray
  | candidate :: candidates =>
      (flashBlockArray.memcpy index candidate.binary).bind fun a =>
        copyCandidates a candidate.length candidates

/-- The new list, the array the page was assembled in, and the page if one was found. -/
def assemble {P : Nat} (head : List FlashBlock) (flashBlockArray : Buffer UInt8 P) :
    Option (List FlashBlock × Buffer UInt8 P × Option FlashBlock) :=
  (search P [] 0 head).bind fun
    | none => some (head, flashBlockArray, none)
    | some (before, e) =>
        (copyCandidates flashBlockArray 0 e.candidates).map fun a =>
          (e.candidates.foldl (fun tmp c => delete tmp c.offset)
              (before ++ e.candidates ++ e.tail),
            a, e.candidates.head?.map fun c => ⟨c.offset, a.bytes⟩)

/-- Where a page begins there is something in the fragment. -/
def Solid (P : Nat) (l : List FlashBlock) : Prop := ∀ b ∈ l, b.offset % P = 0 → 0 < b.length

abbrev Adjoining (l : List FlashBlock) : Prop :=
  l.IsChain fun b c => c.offset = b.offset + b.length

def Sorted (l : List FlashBlock) : Prop := l.Pairwise fun b c => b.offset ≤ c.offset

section lists

variable {l xs ys cs : List FlashBlock} {new b c : FlashBlock} {o : Nat}

theorem insert_perm (l : List FlashBlock) (new : FlashBlock) : (insert l new).Perm (new :: l) := by
  induction l with
  | nil => exact .refl _
  | cons current next ih =>
    rw [insert]
    split
    · exact .refl _
    · exact (ih.cons current).trans (.swap new current next)

theorem mem_insert : b ∈ insert l new ↔ b = new ∨ b ∈ l := by
  rw [(insert_perm l new).mem_iff, List.mem_cons]

theorem insert_sorted (h : Sorted l) (new : FlashBlock) : Sorted (insert l new) := by
  induction l with
  | nil => exact List.pairwise_singleton _ _
  | cons current next ih =>
    obtain ⟨hle, hnext⟩ := List.pairwise_cons.mp h
    rw [insert]
    split
    · next hlt =>
      apply List.pairwise_cons.mpr
      refine ⟨?_, h⟩
      intro b hb
      obtain rfl | hb := List.mem_cons.mp hb
      · omega
      · have hcur := hle b hb
        omega
    · next hge =>
      apply List.pairwise_cons.mpr
      refine ⟨?_, ih hnext⟩
      intro b hb
      obtain rfl | hb := mem_insert.mp hb
      · omega
      · exact hle b hb

theorem insert_append (hfront : ∀ b ∈ xs, ¬ new.offset < b.offset)
    (hback : ∀ b ∈ ys.head?, new.offset < b.offset) :
    insert (xs ++ ys) new = xs ++ new :: ys := by
  induction xs with
  | nil =>
    cases ys with
    | nil => rfl
    | cons b ys => exact if_pos (hback b rfl)
  | cons b xs ih =>
    obtain ⟨hb, hfront⟩ := List.forall_mem_cons.mp hfront
    rw [List.cons_append, insert, if_neg hb, ih hfront, List.cons_append]

theorem delete_append (h : ∀ b ∈ xs, b.offset ≠ c.offset) :
    delete (xs ++ c :: ys) c.offset = xs ++ ys := by
  have hany : (xs ++ c :: ys).any (·.offset = c.offset) = true := by simp
  rw [delete, if_pos hany, List.eraseP_append_right _ (by simpa using h),
    List.eraseP_cons_of_pos (by simp)]

theorem foldl_delete (h : ∀ b ∈ xs, ∀ c ∈ cs, b.offset ≠ c.offset) :
    cs.foldl (fun tmp c => delete tmp c.offset) (xs ++ cs ++ ys) = xs ++ ys := by
  induction cs with
  | nil => simp
  | cons c cs ih =>
    have hc : ∀ b ∈ xs, b.offset ≠ c.offset := fun b hb => h b hb c List.mem_cons_self
    rw [List.foldl_cons, List.append_assoc, List.cons_append, delete_append hc,
      ← List.append_assoc]
    apply ih
    intro b hb d hd
    exact h b hb d (List.mem_cons_of_mem c hd)

end lists

end FragmentedFlashBlockList

section positions

variable {l l' xs ys : List FlashBlock} {b c : FlashBlock} {i : Nat}

@[simp] theorem positions_nil : positions [] = [] := rfl

@[simp] theorem positions_cons (b : FlashBlock) (l : List FlashBlock) :
    positions (b :: l) = b.positions ++ positions l := rfl

@[simp] theorem positions_append (xs ys : List FlashBlock) :
    positions (xs ++ ys) = positions xs ++ positions ys := List.flatMap_append

theorem positions_perm (h : l.Perm l') : (positions l).Perm (positions l') :=
  h.flatMap_right _

theorem FlashBlock.mem_positions : i ∈ b.positions ↔ b.offset ≤ i ∧ i < b.offset + b.length :=
  List.mem_range'_1

/-- Blocks with bytes in common positions do not stand on both sides of a split. -/
theorem offset_ne (h : (positions (xs ++ ys)).Nodup) (hb : b ∈ xs) (hc : c ∈ ys)
    (hbl : 0 < b.length) (hcl : 0 < c.length) : b.offset ≠ c.offset := by
  intro heq
  rw [positions_append, List.nodup_append] at h
  have hmb : b.offset ∈ positions xs :=
    List.mem_flatMap.mpr ⟨b, hb, FlashBlock.mem_positions.mpr ⟨Nat.le_refl _, by omega⟩⟩
  have hmc : b.offset ∈ positions ys :=
    List.mem_flatMap.mpr ⟨c, hc, FlashBlock.mem_positions.mpr ⟨by omega, by omega⟩⟩
  exact h.2.2 _ hmb _ hmc rfl

theorem FlashBlock.length_take (b : FlashBlock) {n : Nat} (hn : n ≤ b.length) :
    (b.take n).length = n := List.length_take_of_le hn

theorem FlashBlock.length_drop (b : FlashBlock) (n : Nat) : (b.drop n).length = b.length - n :=
  List.length_drop

theorem FlashBlock.positions_cut (b : FlashBlock) {n : Nat} (hn : n ≤ b.length) :
    (b.take n).positions ++ (b.drop n).positions = b.positions := by
  have hsum : n + (b.length - n) = b.length := by omega
  rw [FlashBlock.positions, FlashBlock.positions, b.length_take hn, b.length_drop]
  exact List.range'_append_1.trans (congrArg (List.range' b.offset) hsum)

theorem FlashBlock.Genuine.take {img : List UInt8} (h : b.Genuine img) (n : Nat) :
    (b.take n).Genuine img := SliceAt.take h n

theorem FlashBlock.Genuine.drop {img : List UInt8} (h : b.Genuine img) (n : Nat) :
    (b.drop n).Genuine img := SliceAt.drop h n

end positions

end RenesasDemo.Ota
