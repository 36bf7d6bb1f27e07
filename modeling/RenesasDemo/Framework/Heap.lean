import Mathlib.Data.List.Basic
import Mathlib.Logic.Function.Basic

namespace RenesasDemo.Framework

variable {β : Type*}

/-- Live blocks with their contents, and what the allocator answers to coming requests. -/
structure Heap (β : Type*) where
  block : Nat → Option (List β)
  null : block 0 = none
  /-- Address and uninitialised contents for the next request, the one after it, and so on. -/
  answer : Nat → Nat × (Nat → β)

namespace Heap

def empty (answer : Nat → Nat × (Nat → β)) : Heap β := ⟨fun _ => none, rfl, answer⟩

/-- `a` can be handed out: an address below `limit`, not NULL and not in use. -/
def Free (h : Heap β) (limit a : Nat) : Prop := a ≠ 0 ∧ a < limit ∧ (h.block a).isNone

instance (h : Heap β) (limit a : Nat) : Decidable (h.Free limit a) :=
  inferInstanceAs (Decidable (_ ∧ _))

def skip (h : Heap β) : Heap β := { h with answer := fun i => h.answer (i + 1) }

def setBlock (h : Heap β) (a : Nat) (ha : a ≠ 0) (b : Option (List β)) : Heap β :=
  { h with
    block := Function.update h.block a b
    null := by rw [Function.update_of_ne ha.symm, h.null] }

/-- An answer that is no free address stands for an exhausted heap. -/
def malloc (h : Heap β) (limit size : Nat) : Option Nat × Heap β :=
  if ha : h.Free limit (h.answer 0).1 then
    (some (h.answer 0).1,
      h.skip.setBlock (h.answer 0).1 ha.1 (some ((List.range size).map (h.answer 0).2)))
  else (none, h.skip)

/-- Undefined unless `a` is a live block. -/
def free (h : Heap β) (a : Nat) : Option (Heap β) :=
  if ha : a ≠ 0 ∧ (h.block a).isSome then some (h.setBlock a ha.1 none) else none

/-- The first `n` bytes of a live block. -/
def load (h : Heap β) (a n : Nat) : Option (List β) :=
  (h.block a).bind fun b => if n ≤ b.length then some (b.take n) else none

/-- Undefined unless `v` fits into a live block at `a`. -/
def store (h : Heap β) (a : Nat) (v : List β) : Option (Heap β) :=
  if ha : a ≠ 0 then
    (h.block a).bind fun b =>
      if v.length ≤ b.length then some (h.setBlock a ha (some (v ++ b.drop v.length))) else none
  else none

variable {h h' : Heap β} {limit size a a' n : Nat} {b v : List β}

theorem ne_zero_of_live (hb : h.block a = some b) : a ≠ 0 := by
  intro hz
  rw [hz, h.null] at hb
  cases hb

theorem malloc_cases (h : Heap β) (limit size : Nat) :
    ((h.malloc limit size).1 = none ∧ (h.malloc limit size).2.block = h.block) ∨
      ∃ a b, (h.malloc limit size).1 = some a ∧ a = (h.answer 0).1 ∧ a ≠ 0 ∧ a < limit ∧
        h.block a = none ∧ b.length = size ∧
        (h.malloc limit size).2.block = Function.update h.block a (some b) := by
  by_cases hf : h.Free limit (h.answer 0).1
  · right
    refine ⟨_, (List.range size).map (h.answer 0).2, ?_, rfl, hf.1, hf.2.1, ?_, ?_, ?_⟩
    · rw [malloc, dif_pos hf]
    · simpa using hf.2.2
    · simp
    · rw [malloc, dif_pos hf]
      rfl
  · left
    rw [malloc, dif_neg hf]
    exact ⟨rfl, rfl⟩

theorem malloc_answer (h : Heap β) (limit size : Nat) :
    (h.malloc limit size).2.answer = fun i => h.answer (i + 1) := by
  rw [malloc]
  split <;> rfl

theorem free_of_live (hb : h.block a = some b) :
    ∃ h', h.free a = some h' ∧ h'.block = Function.update h.block a none := by
  have ha : a ≠ 0 ∧ (h.block a).isSome := ⟨ne_zero_of_live hb, by simp [hb]⟩
  exact ⟨h.setBlock a ha.1 none, dif_pos ha, rfl⟩

theorem load_of_live (hb : h.block a = some b) (hn : n ≤ b.length) :
    h.load a n = some (b.take n) := by
  simp [load, hb, hn]

theorem store_of_live (hb : h.block a = some b) (hv : v.length ≤ b.length) :
    ∃ h', h.store a v = some h' ∧ h'.answer = h.answer ∧
      h'.block = Function.update h.block a (some (v ++ b.drop v.length)) := by
  have ha := ne_zero_of_live hb
  refine ⟨h.setBlock a ha (some (v ++ b.drop v.length)), ?_, rfl, rfl⟩
  simp [store, ha, hb, hv]

/-- The next `m` requests are served: their answers are free and different from each other. -/
def Serves (h : Heap β) (limit m : Nat) : Prop :=
  ∀ i < m, h.Free limit (h.answer i).1 ∧ ∀ j < i, (h.answer j).1 ≠ (h.answer i).1

theorem Serves.first {m : Nat} (hs : h.Serves limit (m + 1)) (size : Nat) :
    (h.malloc limit size).1 = some (h.answer 0).1 := by
  rw [malloc, dif_pos (hs 0 (Nat.succ_pos m)).1]

theorem Serves.rest {m : Nat} {b : Option (List β)} (hs : h.Serves limit (m + 1))
    (hans : h'.answer = fun i => h.answer (i + 1))
    (hblock : h'.block = Function.update h.block (h.answer 0).1 b) : h'.Serves limit m := by
  intro i hi
  obtain ⟨hfree, hdiff⟩ := hs (i + 1) (Nat.succ_lt_succ hi)
  have hne : (h.answer (i + 1)).1 ≠ (h.answer 0).1 := (hdiff 0 (Nat.succ_pos i)).symm
  rw [hans]
  refine ⟨⟨hfree.1, hfree.2.1, ?_⟩, ?_⟩
  · rw [hblock, Function.update_of_ne hne]
    exact hfree.2.2
  · intro j hj
    exact hdiff (j + 1) (Nat.succ_lt_succ hj)

/-- The same addresses are live, and the same answers are to come. -/
structure Alike (h h' : Heap β) : Prop where
  answer : h.answer = h'.answer
  live : ∀ a, (h.block a).isNone = (h'.block a).isNone

theorem Alike.refl (h : Heap β) : h.Alike h := ⟨rfl, fun _ => rfl⟩

theorem Alike.trans {h'' : Heap β} (h1 : h.Alike h') (h2 : h'.Alike h'') : h.Alike h'' :=
  ⟨h1.answer.trans h2.answer, fun a => (h1.live a).trans (h2.live a)⟩

/-- What is in the blocks makes no difference to a request. -/
theorem Alike.malloc (hh : h.Alike h') (limit size : Nat) :
    (h.malloc limit size).1 = (h'.malloc limit size).1 ∧
      (h.malloc limit size).2.Alike (h'.malloc limit size).2 := by
  have hfree : h.Free limit (h.answer 0).1 ↔ h'.Free limit (h'.answer 0).1 := by
    rw [Free, Free, hh.live, hh.answer]
  by_cases hf : h.Free limit (h.answer 0).1
  · have hf' := hfree.mp hf
    rw [Heap.malloc, Heap.malloc, dif_pos hf, dif_pos hf']
    refine ⟨congrArg (fun f => some (f 0).1) hh.answer, ⟨?_, ?_⟩⟩
    · change (fun i => h.answer (i + 1)) = fun i => h'.answer (i + 1)
      rw [hh.answer]
    · intro a
      change (Function.update h.block (h.answer 0).1 _ a).isNone =
        (Function.update h'.block (h'.answer 0).1 _ a).isNone
      rw [hh.answer]
      by_cases ha : a = (h'.answer 0).1
      · rw [ha, Function.update_self, Function.update_self]
      · rw [Function.update_of_ne ha, Function.update_of_ne ha, hh.live]
  · rw [Heap.malloc, Heap.malloc, dif_neg hf, dif_neg (hf ∘ hfree.mpr)]
    refine ⟨rfl, ⟨?_, hh.live⟩⟩
    change (fun i => h.answer (i + 1)) = fun i => h'.answer (i + 1)
    rw [hh.answer]

end Heap

end RenesasDemo.Framework
