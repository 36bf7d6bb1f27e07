import Mathlib.Data.List.Flatten
import RenesasDemo.Ota.PageSearch

namespace RenesasDemo.Ota

open Framework FragmentedFlashBlockList

def FlashBlock.pairs (b : FlashBlock) : List (UInt8 × Nat) := b.binary.zipIdx b.offset

def pairs (l : List FlashBlock) : List (UInt8 × Nat) := l.flatMap FlashBlock.pairs

section pairs

variable {l l' cs : List FlashBlock} {b c : FlashBlock} {n o : Nat}

@[simp] theorem pairs_nil : pairs [] = [] := rfl

@[simp] theorem pairs_cons (b : FlashBlock) (l : List FlashBlock) :
    pairs (b :: l) = b.pairs ++ pairs l := rfl

@[simp] theorem pairs_append (xs ys : List FlashBlock) :
    pairs (xs ++ ys) = pairs xs ++ pairs ys := List.flatMap_append

theorem pairs_perm (h : l.Perm l') : (pairs l).Perm (pairs l') := h.flatMap_right _

theorem FlashBlock.pairs_snd (b : FlashBlock) : b.pairs.map Prod.snd = b.positions :=
  List.zipIdx_map_snd b.offset b.binary

theorem pairs_snd (l : List FlashBlock) : (pairs l).map Prod.snd = positions l := by
  induction l with
  | nil => rfl
  | cons b l ih => rw [pairs_cons, List.map_append, b.pairs_snd, ih, positions_cons]

/-- The same bytes at the same positions. -/
theorem positions_of_pairs (h : (pairs l).Perm (pairs l')) :
    (positions l).Perm (positions l') := by
  rw [← pairs_snd, ← pairs_snd]
  exact h.map Prod.snd

/-- A fragment that is cut keeps its bytes where they were. -/
theorem FlashBlock.pairs_cut (hn : n ≤ b.length) (hrange : b.offset + b.length ≤ 2 ^ 32) :
    (b.take n).pairs ++ (b.cutOff n).pairs = b.pairs := by
  have hlen : (b.binary.take n).length = n := List.length_take_of_le hn
  have hcut : (b.binary.drop n).zipIdx ((b.offset + n) % 2 ^ 32) =
      (b.binary.drop n).zipIdx (b.offset + n) := by
    by_cases hend : n < b.length
    · rw [Nat.mod_eq_of_lt (by omega)]
    · have hnil : b.binary.drop n = [] := List.drop_of_length_le (Nat.le_of_not_lt hend)
      rw [hnil]
      rfl
  show (b.binary.take n).zipIdx b.offset ++
    (b.binary.drop n).zipIdx ((b.offset + n) % 2 ^ 32) = b.binary.zipIdx b.offset
  rw [hcut]
  conv_rhs => rw [← List.take_append_drop n b.binary, List.zipIdx_append, hlen]

theorem pairs_joined (h : Adjoining cs) (ho : ∀ c ∈ cs.head?, c.offset = o) :
    (⟨o, joined cs⟩ : FlashBlock).pairs = pairs cs := by
  show (joined cs).zipIdx o = _
  induction cs generalizing o with
  | nil => rfl
  | cons c cs ih =>
    obtain ⟨hnext, hcs⟩ := List.isChain_cons.mp h
    obtain rfl : c.offset = o := ho c rfl
    rw [pairs_cons, ← ih hcs hnext, joined_cons, List.zipIdx_append]
    rfl

/-- Blocks at one position with the same pairs have the same bytes. -/
theorem binary_of_pairs {as bs : List UInt8} (h : (as.zipIdx o).Perm (bs.zipIdx o)) : as = bs := by
  apply List.ext_getElem?
  intro i
  have hiff : ∀ x, as[i]? = some x ↔ bs[i]? = some x := by
    intro x
    rw [← List.mk_add_mem_zipIdx_iff_getElem? (k := o), h.mem_iff,
      List.mk_add_mem_zipIdx_iff_getElem?]
  exact Option.ext hiff

end pairs

/-- Fragments as the list ought to hold them: in order, with bytes, and each position once. -/
structure SortedDisjoint (l : List FlashBlock) : Prop where
  sorted : Sorted l
  nonempty : ∀ b ∈ l, 0 < b.length
  disjoint : (positions l).Nodup
  inRange : ∀ b ∈ l, b.offset + b.length ≤ 2 ^ 32

section disjoint

variable {l xs ys cs : List FlashBlock} {b c : FlashBlock} {o n : Nat}

theorem head_mem_positions (hpos : 0 < b.length) (hb : b ∈ l) : b.offset ∈ positions l :=
  List.mem_flatMap.mpr ⟨b, hb, FlashBlock.mem_positions.mpr ⟨Nat.le_refl _, by omega⟩⟩

/-- Fragments in order that cover a range without gaps adjoin. -/
theorem adjoining_of_positions (hs : Sorted cs) (hne : ∀ b ∈ cs, 0 < b.length)
    (hpos : (positions cs).Perm (List.range' o n)) : Adjoining cs := by
  induction cs generalizing o n with
  | nil => exact .nil
  | cons b cs ih =>
    obtain ⟨hle, hcs⟩ := List.pairwise_cons.mp hs
    have hb := hne b List.mem_cons_self
    have hmem : ∀ i, i ∈ positions (b :: cs) ↔ o ≤ i ∧ i < o + n := by
      intro i
      rw [hpos.mem_iff, List.mem_range'_1]
    have hstart := (hmem b.offset).mp (head_mem_positions hb List.mem_cons_self)
    have hfirst : b.offset = o := by
      obtain ⟨d, hd, hod⟩ := List.mem_flatMap.mp ((hmem o).mpr ⟨Nat.le_refl o, by omega⟩)
      have hdo := FlashBlock.mem_positions.mp hod
      obtain rfl | hd := List.mem_cons.mp hd
      · omega
      · have hbd := hle d hd
        omega
    have hlast := (hmem (b.offset + b.length - 1)).mp
      (List.mem_flatMap.mpr ⟨b, List.mem_cons_self, FlashBlock.mem_positions.mpr (by omega)⟩)
    have hrest : (positions cs).Perm (List.range' (o + b.length) (n - b.length)) := by
      have hsplit : List.range' o n = List.range' o b.length ++
          List.range' (o + b.length) (n - b.length) := by
        rw [List.range'_append_1]
        congr 1
        omega
      rw [positions_cons, FlashBlock.positions, hfirst, hsplit] at hpos
      exact (List.perm_append_left_iff _).mp hpos
    refine List.isChain_cons.mpr ⟨?_, ih hcs (fun d hd => hne d (List.mem_cons_of_mem b hd)) hrest⟩
    intro c hc
    obtain ⟨ys, rfl⟩ : ∃ ys, cs = c :: ys := List.head?_eq_some_iff.mp hc
    have hcpos := hne c (by simp)
    have hmem' : ∀ i, i ∈ positions (c :: ys) ↔
        o + b.length ≤ i ∧ i < o + b.length + (n - b.length) := by
      intro i
      rw [hrest.mem_iff, List.mem_range'_1]
    have hcstart := (hmem' c.offset).mp (head_mem_positions hcpos List.mem_cons_self)
    obtain ⟨d, hd, hod⟩ := List.mem_flatMap.mp
      ((hmem' (o + b.length)).mpr ⟨Nat.le_refl _, by omega⟩)
    have hdo := FlashBlock.mem_positions.mp hod
    obtain rfl | hd := List.mem_cons.mp hd
    · omega
    · have hcd := (List.pairwise_cons.mp hcs).1 d hd
      omega

end disjoint

end RenesasDemo.Ota
