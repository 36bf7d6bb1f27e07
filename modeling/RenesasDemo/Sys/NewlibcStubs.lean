import RenesasDemo.Sys.PortHeap

namespace RenesasDemo.Sys

/-- What an allocator returns, NULL being none, and the heap behind it; undefined where C leaves it
so or an assertion fails. -/
abbrev Allocated := Option (Option Nat × PortHeap)

def calloc (h : PortHeap) (xNum xLen : UInt32) : Allocated :=
  match h.pvPortMalloc (xNum * xLen) with
  | (none, h) => some (none, h)
  | (some pvBuffer, h) => (h.memset pvBuffer 0 (xNum * xLen)).map fun h => (some pvBuffer, h)

def mallocUsableSize (h : PortHeap) : Option Nat → Option UInt32
  | none => some 0
  | some pvPtr =>
      if xHeapStructSize.toNat < pvPtr then
        (h.block pvPtr).map fun pxLink => (sizeMask &&& pxLink.xBlockSize) - xHeapStructSize
      else none

def realloc (h : PortHeap) (pvPtr : Option Nat) (xNewLen : UInt32) : Allocated :=
  match pvPtr with
  | none => some (h.pvPortMalloc xNewLen)
  | some old =>
      (mallocUsableSize h (some old)).bind fun xCurLen =>
        (if xNewLen = 0 then (h.vPortFree (some old)).map fun h => (none, h)
        else some (h.pvPortMalloc xNewLen)).bind fun (pvNewBuff, h) =>
          match pvNewBuff with
          | none => some (none, h)
          | some new =>
              (if xNewLen ≤ xCurLen then h.memcpy new old xNewLen
              else h.memcpy new old xCurLen).bind fun h =>
                (h.vPortFree (some old)).map fun h => (some new, h)

def reallocf (h : PortHeap) (pvPtr : Option Nat) (xNewLen : UInt32) : Allocated :=
  (realloc h pvPtr xNewLen).bind fun (pvNewBuff, h) =>
    if pvPtr ≠ none ∧ 0 < xNewLen ∧ pvNewBuff = none then
      (h.vPortFree pvPtr).map fun h => (pvNewBuff, h)
    else some (pvNewBuff, h)

/-- What is returned has room for `xNum` times `xLen` bytes, and they are zero. -/
def CallocRight (h : PortHeap) (xNum xLen : UInt32) : Prop :=
  ∃ result h', calloc h xNum xLen = some (result, h') ∧ ∀ a ∈ result, ∃ b, h'.block a = some b ∧
    xNum.toNat * xLen.toNat ≤ b.bytes.length ∧
    List.replicate (xNum.toNat * xLen.toNat) 0 <+: b.bytes

/-- From `h` to `h'` the block at `p` was freed, once, and nothing else was. -/
def FreedOnce (h h' : PortHeap) (p : Nat) : Prop := h'.freed = h.freed ++ [p] ∧ h'.block p = none

/-- At `a` there is room for `xNewLen` bytes, and it begins with as much of the block `b`. -/
def Moved (h' : PortHeap) (b : PortBlock) (xNewLen : UInt32) (a : Nat) : Prop :=
  ∃ d, h'.block a = some d ∧ xNewLen.toNat ≤ d.bytes.length ∧
    b.bytes.take (min xNewLen.toNat b.bytes.length) <+: d.bytes

/-- The block `b` at `p` is moved, or freed for the size 0, or left as it is. -/
def ReallocRight (h : PortHeap) (p : Nat) (b : PortBlock) (xNewLen : UInt32) : Prop :=
  ∃ result h', realloc h (some p) xNewLen = some (result, h') ∧
    (xNewLen = 0 → result = none ∧ FreedOnce h h' p) ∧
    (∀ a ∈ result, Moved h' b xNewLen a ∧ FreedOnce h h' p) ∧
    (0 < xNewLen → result = none → h'.block p = some b ∧ h'.freed = h.freed)

/-- The block `b` at `p` is moved, or freed. -/
def ReallocfRight (h : PortHeap) (p : Nat) (b : PortBlock) (xNewLen : UInt32) : Prop :=
  ∃ result h', reallocf h (some p) xNewLen = some (result, h') ∧
    (∀ a ∈ result, Moved h' b xNewLen a ∧ FreedOnce h h' p) ∧
    (result = none → FreedOnce h h' p)

section allocators

variable {h : PortHeap} {p : Nat} {b : PortBlock} {xNum xLen xNewLen : UInt32}

theorem mallocUsableSize_of_live (hb : h.block p = some b) :
    ∃ xCurLen, mallocUsableSize h (some p) = some xCurLen ∧ xCurLen.toNat = b.bytes.length := by
  have habove : xHeapStructSize.toNat < p := h.above p (by simp [hb])
  refine ⟨_, ?_, b.usable⟩
  rw [mallocUsableSize, if_pos habove, hb, Option.map_some]

/-- As much of the old block is copied as there is of it, and as was asked for. -/
theorem memcpy_shorter {a : Nat} {c : PortBlock} {xCurLen : UInt32} (hnew : h.block a = some c)
    (hold : h.block p = some b) (hcur : xCurLen.toNat = b.bytes.length)
    (hroom : xNewLen.toNat ≤ c.bytes.length) :
    ∃ h' d, (if xNewLen ≤ xCurLen then h.memcpy a p xNewLen else h.memcpy a p xCurLen) = some h' ∧
      h'.block = Function.update h.block a (some d) ∧ h'.freed = h.freed ∧
      d.bytes.length = c.bytes.length ∧
      b.bytes.take (min xNewLen.toNat b.bytes.length) <+: d.bytes := by
  rw [← hcur]
  by_cases hle : xNewLen ≤ xCurLen
  · have hshorter : xNewLen.toNat ≤ xCurLen.toNat := UInt32.le_iff_toNat_le.mp hle
    rw [if_pos hle, Nat.min_eq_left hshorter]
    exact PortHeap.memcpy_of_live hnew hold hroom (hshorter.trans_eq hcur)
  · have hlonger : xCurLen.toNat ≤ xNewLen.toNat := by
      rw [UInt32.le_iff_toNat_le] at hle
      exact Nat.le_of_not_le hle
    rw [if_neg hle, Nat.min_eq_right hlonger]
    exact PortHeap.memcpy_of_live hnew hold (hlonger.trans hroom) hcur.le

/-- Every block of the heap is freed for the size 0, left when there is no room, or moved, and no
other block changes. -/
theorem realloc_cases (hb : h.block p = some b) (xNewLen : UInt32) :
    (xNewLen = 0 ∧ ∃ h', realloc h (some p) xNewLen = some (none, h') ∧ FreedOnce h h' p) ∨
    (0 < xNewLen ∧ ∃ h', realloc h (some p) xNewLen = some (none, h') ∧ h'.block = h.block ∧
      h'.freed = h.freed) ∨
    (0 < xNewLen ∧ ∃ a h', realloc h (some p) xNewLen = some (some a, h') ∧ h.block a = none ∧
      Moved h' b xNewLen a ∧ FreedOnce h h' p ∧ ∀ q, q ≠ a → q ≠ p → h'.block q = h.block q) := by
  obtain ⟨xCurLen, husable, hcur⟩ := mallocUsableSize_of_live hb
  by_cases hzero : xNewLen = 0
  · obtain ⟨h', hfree, hblock, hfreed⟩ := PortHeap.vPortFree_of_live hb
    refine .inl ⟨hzero, h', ?_, hfreed, ?_⟩
    · rw [realloc, husable, Option.bind_some, if_pos hzero, hfree]
      rfl
    · rw [hblock, Function.update_self]
  right
  have hpos : 0 < xNewLen := UInt32.pos_iff_ne_zero.mpr hzero
  obtain ⟨h1, hmalloc, hblock, hfreed⟩ | ⟨a, c, h1, hmalloc, ha, hroom, hblock, hfreed⟩ :=
    h.pvPortMalloc_cases xNewLen
  · refine .inl ⟨hpos, h1, ?_, hblock, hfreed⟩
    rw [realloc, husable, Option.bind_some, if_neg hzero, hmalloc]
    rfl
  · right
    have hpa : p ≠ a := by
      rintro rfl
      rw [hb] at ha
      cases ha
    have hnew : h1.block a = some c := by
      rw [hblock, Function.update_self]
    have hold : h1.block p = some b := by
      rw [hblock, Function.update_of_ne hpa, hb]
    obtain ⟨h2, d, hcopy, hblock2, hfreed2, hlen, hbytes⟩ :=
      memcpy_shorter hnew hold hcur hroom
    have hold2 : h2.block p = some b := by
      rw [hblock2, Function.update_of_ne hpa, hold]
    obtain ⟨h3, hfree, hblock3, hfreed3⟩ := PortHeap.vPortFree_of_live hold2
    refine ⟨hpos, a, h3, ?_, ha, ⟨d, ?_, hlen ▸ hroom, hbytes⟩, ⟨?_, ?_⟩, ?_⟩
    · rw [realloc, husable, Option.bind_some, if_neg hzero, hmalloc, Option.bind_some]
      simp only
      rw [hcopy, Option.bind_some, hfree, Option.map_some]
    · rw [hblock3, Function.update_of_ne hpa.symm, hblock2, Function.update_self]
    · rw [hfreed3, hfreed2, hfreed]
    · rw [hblock3, Function.update_self]
    · intro q hqa hqp
      rw [hblock3, Function.update_of_ne hqp, hblock2, Function.update_of_ne hqa, hblock,
        Function.update_of_ne hqa]

theorem reallocRight (hb : h.block p = some b) (xNewLen : UInt32) :
    ReallocRight h p b xNewLen := by
  obtain ⟨hzero, h', hrun, hfreed⟩ | ⟨hpos, h', hrun, hblock, hfreed⟩ |
    ⟨hpos, a, h', hrun, -, hmoved, hfreed, -⟩ := realloc_cases hb xNewLen
  · refine ⟨none, h', hrun, fun _ => ⟨rfl, hfreed⟩, by simp, ?_⟩
    intro hpos
    exact absurd hzero (UInt32.pos_iff_ne_zero.mp hpos)
  · refine ⟨none, h', hrun, ?_, by simp, fun _ _ => ⟨by rw [hblock, hb], hfreed⟩⟩
    intro hzero
    exact absurd hzero (UInt32.pos_iff_ne_zero.mp hpos)
  · refine ⟨some a, h', hrun, ?_, ?_, fun _ hnone => absurd hnone (Option.some_ne_none a)⟩
    · intro hzero
      exact absurd hzero (UInt32.pos_iff_ne_zero.mp hpos)
    · intro c hc
      rw [← Option.some.inj hc]
      exact ⟨hmoved, hfreed⟩

/-- Where `realloc` leaves the block, `reallocf` frees it. -/
theorem reallocfRight (hb : h.block p = some b) (xNewLen : UInt32) :
    ReallocfRight h p b xNewLen := by
  obtain ⟨hzero, h', hrun, hfreed⟩ | ⟨hpos, h', hrun, hblock, hfreed⟩ |
    ⟨hpos, a, h', hrun, -, hmoved, hfreed, -⟩ := realloc_cases hb xNewLen
  · refine ⟨none, h', ?_, by simp, fun _ => hfreed⟩
    rw [reallocf, hrun, Option.bind_some]
    refine if_neg ?_
    rintro ⟨-, hpos, -⟩
    exact UInt32.pos_iff_ne_zero.mp hpos hzero
  · have hb' : h'.block p = some b := by
      rw [hblock, hb]
    obtain ⟨h2, hfree, hblock2, hfreed2⟩ := PortHeap.vPortFree_of_live hb'
    refine ⟨none, h2, ?_, by simp, fun _ => ⟨?_, ?_⟩⟩
    · have hfailed : some p ≠ none ∧ 0 < xNewLen ∧ (none : Option Nat) = none :=
        ⟨Option.some_ne_none p, hpos, rfl⟩
      rw [reallocf, hrun, Option.bind_some]
      refine (if_pos hfailed).trans ?_
      rw [hfree, Option.map_some]
    · rw [hfreed2, hfreed]
    · rw [hblock2, Function.update_self]
  · refine ⟨some a, h', ?_, ?_, fun hnone => absurd hnone (Option.some_ne_none a)⟩
    · rw [reallocf, hrun, Option.bind_some]
      refine if_neg ?_
      rintro ⟨-, -, hnone⟩
      exact Option.some_ne_none a hnone
    · intro c hc
      rw [← Option.some.inj hc]
      exact ⟨hmoved, hfreed⟩

/-- What `calloc` returns has the room that was asked of `pvPortMalloc`, the product cut to 32
bits. -/
theorem calloc_cases (h : PortHeap) (xNum xLen : UInt32) :
    ((h.pvPortMalloc (xNum * xLen)).1 = none ∧ ∃ h', calloc h xNum xLen = some (none, h')) ∨
    (h.pvPortMalloc (xNum * xLen)).1 ≠ none ∧ ∃ a h' d, calloc h xNum xLen = some (some a, h') ∧
      h'.block a = some d ∧ (xNum * xLen).toNat ≤ d.bytes.length ∧
      List.replicate (xNum * xLen).toNat 0 <+: d.bytes := by
  obtain ⟨h1, hmalloc, -⟩ | ⟨a, c, h1, hmalloc, -, hroom, hblock, -⟩ :=
    h.pvPortMalloc_cases (xNum * xLen)
  · refine .inl ⟨by rw [hmalloc], h1, ?_⟩
    rw [calloc, hmalloc]
  · have hnew : h1.block a = some c := by
      rw [hblock, Function.update_self]
    have hfits : (List.replicate (xNum * xLen).toNat (0 : UInt8)).length ≤ c.bytes.length := by
      rwa [List.length_replicate]
    obtain ⟨h2, hstore, hblock2, -⟩ := PortHeap.store_of_live hnew hfits
    have hset : (h1.memset a 0 (xNum * xLen)) = some h2 := hstore
    refine .inr ⟨by simp [hmalloc], a, h2, c.write _ hfits, ?_, ?_, ?_, List.prefix_append _ _⟩
    · rw [calloc, hmalloc]
      simp only
      rw [hset, Option.map_some]
    · rw [hblock2, Function.update_self]
    · rw [PortBlock.write, List.length_append, List.length_replicate]
      exact Nat.le_add_right _ _

/-- The product must fit into 32 bits, unless there is no memory even for what is left of it. -/
theorem callocRight_iff (h : PortHeap) (xNum xLen : UInt32) :
    CallocRight h xNum xLen ↔ xNum.toNat * xLen.toNat < 2 ^ 32 ∨
      (h.pvPortMalloc (xNum * xLen)).1 = none := by
  obtain ⟨hnone, h', hrun⟩ | ⟨hsome, a, h', d, hrun, hd, hroom, hzero⟩ := calloc_cases h xNum xLen
  · exact iff_of_true ⟨none, h', hrun, by simp⟩ (.inr hnone)
  rw [or_iff_left hsome]
  constructor
  · rintro ⟨result, h2, hrun2, hright⟩
    obtain ⟨rfl, rfl⟩ := Prod.mk.inj (Option.some.inj (hrun.symm.trans hrun2))
    obtain ⟨b, hb, hlen, -⟩ := hright a rfl
    have hlt := b.length_bytes_lt
    omega
  · intro hlt
    have hproduct : (xNum * xLen).toNat = xNum.toNat * xLen.toNat := by
      rw [UInt32.toNat_mul, Nat.mod_eq_of_lt hlt]
    refine ⟨some a, h', hrun, ?_⟩
    intro c hc
    rw [← Option.some.inj hc]
    exact ⟨d, hd, hproduct ▸ hroom, hproduct ▸ hzero⟩

/-- `realloc` and `reallocf` keep their contract for every live block; `calloc` does exactly if the
product of its arguments fits, or is refused. -/
theorem allocators_right (hb : h.block p = some b) (xNum xLen xNewLen : UInt32) :
    (CallocRight h xNum xLen ↔ xNum.toNat * xLen.toNat < 2 ^ 32 ∨
      (h.pvPortMalloc (xNum * xLen)).1 = none) ∧
      ReallocRight h p b xNewLen ∧ ReallocfRight h p b xNewLen :=
  ⟨callocRight_iff h xNum xLen, reallocRight hb xNewLen, reallocfRight hb xNewLen⟩

end allocators

def smallBlock (c : UInt8) : PortBlock where
  xBlockSize := 0x80000010
  bytes := List.replicate 8 c
  recorded := by
    rw [List.length_replicate]
    decide

/-- One block is live, and the next request gets another. -/
def smallHeap : PortHeap where
  block a := if a = 0x2000 then some (smallBlock 7) else none
  above := by
    intro a ha
    by_cases h : a = 0x2000
    · rw [h]
      decide
    · simp [h] at ha
  answer _ := some (0x1000, smallBlock 5)
  freed := []

/-- Two elements of 3 bytes, and a block moved to one of 4 bytes. -/
theorem allocators_right_small :
    (CallocRight smallHeap 2 3 ↔ (2 : UInt32).toNat * (3 : UInt32).toNat < 2 ^ 32 ∨
      (smallHeap.pvPortMalloc (2 * 3)).1 = none) ∧
      ReallocRight smallHeap 0x2000 (smallBlock 7) 4 ∧
      ReallocfRight smallHeap 0x2000 (smallBlock 7) 4 :=
  allocators_right (h := smallHeap) (if_pos rfl) 2 3 4

/-- 2^31 + 4 elements of 2 bytes are 8 bytes to `calloc`. -/
theorem calloc_not_right : ¬ CallocRight smallHeap 0x80000004 2 := by
  rintro ⟨result, h', hrun, hright⟩
  have hresult : (calloc smallHeap 0x80000004 2).map
      (fun r => (r.1, (r.2.block 0x1000).map (·.bytes.length))) = some (some 0x1000, some 8) := by
    decide +kernel
  rw [hrun] at hresult
  obtain ⟨hfirst, hsecond⟩ := Prod.mk.inj (Option.some.inj hresult)
  obtain ⟨b, hb, hlen, -⟩ := hright 0x1000 hfirst
  have hroom : ((h'.block 0x1000).map (·.bytes.length)) = some b.bytes.length := by
    rw [hb, Option.map_some]
  rw [hroom] at hsecond
  have height : b.bytes.length = 8 := Option.some.inj hsecond
  rw [height] at hlen
  exact absurd hlen (by decide)

end RenesasDemo.Sys
