import Mathlib.Data.List.Basic
import Mathlib.Data.UInt
import Mathlib.Logic.Function.Basic

namespace RenesasDemo.Sys

def sizeofBlockLink : UInt32 := 8

def portByteAlignment : UInt32 := 8

def portByteAlignmentMask : UInt32 := portByteAlignment - 1

def xHeapStructSize : UInt32 :=
  (sizeofBlockLink + (portByteAlignment - 1)) &&& ~~~portByteAlignmentMask

/-- All bits but the one that marks a block as allocated. -/
def sizeMask : UInt32 := ~~~((1 : UInt32) <<< 31)

/-- A live block. Its header records the size of both, and the mark. -/
structure PortBlock where
  xBlockSize : UInt32
  bytes : List UInt8
  recorded : (sizeMask &&& xBlockSize).toNat = bytes.length + xHeapStructSize.toNat

/-- The live blocks, what `pvPortMalloc` answers to coming requests, and what was freed so far. -/
structure PortHeap where
  block : Nat → Option PortBlock
  /-- There is a header before every block. -/
  above : ∀ a, (block a).isSome → xHeapStructSize.toNat < a
  answer : Nat → Option (Nat × PortBlock)
  freed : List Nat

namespace PortBlock

def write (b : PortBlock) (src : List UInt8) (hsrc : src.length ≤ b.bytes.length) : PortBlock where
  xBlockSize := b.xBlockSize
  bytes := src ++ b.bytes.drop src.length
  recorded := by
    rw [b.recorded, List.length_append, List.length_drop]
    omega

/-- The mark takes one bit from the size. -/
theorem length_bytes_lt (b : PortBlock) : b.bytes.length < 2 ^ 31 := by
  have hmask : sizeMask.toNat < 2 ^ 31 := by decide
  have hle : (sizeMask &&& b.xBlockSize).toNat ≤ sizeMask.toNat := by
    rw [UInt32.toNat_and]
    exact Nat.and_le_left
  have hrec := b.recorded
  omega

/-- What is left of the recorded size without the header. -/
theorem usable (b : PortBlock) :
    ((sizeMask &&& b.xBlockSize) - xHeapStructSize).toNat = b.bytes.length := by
  have hrec := b.recorded
  have hle : xHeapStructSize ≤ sizeMask &&& b.xBlockSize := by
    rw [UInt32.le_iff_toNat_le]
    omega
  rw [UInt32.toNat_sub_of_le _ _ hle]
  omega

end PortBlock

namespace PortHeap

def skip (h : PortHeap) : PortHeap := { h with answer := fun i => h.answer (i + 1) }

def setBlock (h : PortHeap) (a : Nat) (ha : xHeapStructSize.toNat < a) (b : Option PortBlock) :
    PortHeap :=
  { h with
    block := Function.update h.block a b
    above := by
      intro c hc
      by_cases hca : c = a
      · rw [hca]
        exact ha
      · rw [Function.update_of_ne hca] at hc
        exact h.above c hc }

/-- The block can be handed out: it has room enough, at an address where nothing is live. -/
def Grants (h : PortHeap) (xWantedSize : UInt32) (a : Nat) (b : PortBlock) : Prop :=
  xHeapStructSize.toNat < a ∧ (h.block a).isNone ∧ xWantedSize.toNat ≤ b.bytes.length

instance (h : PortHeap) (xWantedSize : UInt32) (a : Nat) (b : PortBlock) :
    Decidable (h.Grants xWantedSize a b) := inferInstanceAs (Decidable (_ ∧ _))

/-- An answer that cannot be handed out stands for an exhausted heap. -/
def pvPortMalloc (h : PortHeap) (xWantedSize : UInt32) : Option Nat × PortHeap :=
  match h.answer 0 with
  | none => (none, h.skip)
  | some (a, b) =>
      if hg : h.Grants xWantedSize a b then (some a, h.skip.setBlock a hg.1 (some b))
      else (none, h.skip)

/-- Undefined at an address that is not live. -/
def vPortFree (h : PortHeap) : Option Nat → Option PortHeap
  | none => some h
  | some a =>
      if ha : (h.block a).isSome then
        some { h.setBlock a (h.above a ha) none with freed := h.freed ++ [a] }
      else none

/-- Undefined unless the bytes fit into a live block. -/
def store (h : PortHeap) (a : Nat) (src : List UInt8) : Option PortHeap :=
  if ha : (h.block a).isSome then
    if hsrc : src.length ≤ ((h.block a).get ha).bytes.length then
      some (h.setBlock a (h.above a ha) (some (((h.block a).get ha).write src hsrc)))
    else none
  else none

def memset (h : PortHeap) (a : Nat) (c : UInt8) (n : UInt32) : Option PortHeap :=
  h.store a (List.replicate n.toNat c)

def memcpy (h : PortHeap) (dest src : Nat) (n : UInt32) : Option PortHeap :=
  (h.block src).bind fun b =>
    if n.toNat ≤ b.bytes.length then h.store dest (b.bytes.take n.toNat) else none

section heap

variable {h : PortHeap} {a p : Nat} {b c : PortBlock} {xWantedSize n : UInt32}

theorem pvPortMalloc_cases (h : PortHeap) (xWantedSize : UInt32) :
    (∃ h', h.pvPortMalloc xWantedSize = (none, h') ∧ h'.block = h.block ∧ h'.freed = h.freed) ∨
    ∃ a b h', h.pvPortMalloc xWantedSize = (some a, h') ∧ h.block a = none ∧
      xWantedSize.toNat ≤ b.bytes.length ∧ h'.block = Function.update h.block a (some b) ∧
      h'.freed = h.freed := by
  rw [pvPortMalloc]
  cases h.answer 0 with
  | none => exact .inl ⟨h.skip, rfl, rfl, rfl⟩
  | some r =>
    obtain ⟨a, b⟩ := r
    by_cases hg : h.Grants xWantedSize a b
    · exact .inr ⟨a, b, _, dif_pos hg, Option.isNone_iff_eq_none.mp hg.2.1, hg.2.2, rfl, rfl⟩
    · exact .inl ⟨h.skip, dif_neg hg, rfl, rfl⟩

theorem vPortFree_of_live (hb : h.block a = some b) :
    ∃ h', h.vPortFree (some a) = some h' ∧ h'.block = Function.update h.block a none ∧
      h'.freed = h.freed ++ [a] := by
  have ha : (h.block a).isSome := by simp [hb]
  exact ⟨_, dif_pos ha, rfl, rfl⟩

theorem store_of_live {src : List UInt8} (hb : h.block a = some b)
    (hsrc : src.length ≤ b.bytes.length) :
    ∃ h', h.store a src = some h' ∧
      h'.block = Function.update h.block a (some (b.write src hsrc)) ∧ h'.freed = h.freed := by
  have ha : (h.block a).isSome := by simp [hb]
  have hget : (h.block a).get ha = b := by simp [hb]
  subst hget
  refine ⟨h.setBlock a (h.above a ha) (some (((h.block a).get ha).write src hsrc)), ?_, rfl, rfl⟩
  rw [store, dif_pos ha, dif_pos hsrc]

theorem memcpy_of_live (hb : h.block a = some b) (hc : h.block p = some c)
    (hb' : n.toNat ≤ b.bytes.length) (hc' : n.toNat ≤ c.bytes.length) :
    ∃ h' d, h.memcpy a p n = some h' ∧ h'.block = Function.update h.block a (some d) ∧
      h'.freed = h.freed ∧ d.bytes.length = b.bytes.length ∧ c.bytes.take n.toNat <+: d.bytes := by
  have hlen : (c.bytes.take n.toNat).length = n.toNat := by
    rw [List.length_take, Nat.min_eq_left hc']
  obtain ⟨h', hstore, hblock, hfreed⟩ := store_of_live hb (hlen.trans_le hb')
  refine ⟨h', _, ?_, hblock, hfreed, ?_, List.prefix_append _ _⟩
  · rw [memcpy, hc, Option.bind_some, if_pos hc', hstore]
  · rw [PortBlock.write, List.length_append, List.length_drop, hlen]
    omega

end heap

end PortHeap

end RenesasDemo.Sys
