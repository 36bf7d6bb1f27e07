import RenesasDemo.Framework.LinkedList
import RenesasDemo.Ota.FragmentList

namespace RenesasDemo.Ota

open Framework

/-- `FLASH_BLOCK`: the bytes are in a block of their own. -/
structure FlashBlockRecord where
  offset : UInt32
  binary : Nat
  length : UInt32
  deriving DecidableEq

/-- The nodes and the blocks of bytes that are live. -/
structure FragmentMemory where
  node : Nat → Option (Node FlashBlockRecord)
  binary : Nat → Option (List UInt8)

namespace FragmentMemory

/-- What `pvPortMalloc` can hand out: an address other than NULL where nothing is live. -/
abbrev Fresh {β : Type} (m : Nat → Option β) := { a : Nat // a ≠ 0 ∧ m a = none }

/-- Undefined at an address that is neither NULL nor live. -/
def vPortFree {β : Type} (m : Nat → Option β) (a : Nat) : Option (Nat → Option β) :=
  if a = 0 then some m else if (m a).isSome then some (Function.update m a none) else none

def setNext (m : Nat → Option (Node FlashBlockRecord)) (a next : Nat) :
    Option (Nat → Option (Node FlashBlockRecord)) :=
  (m a).map fun n => Function.update m a (some { n with next := next })

def sizeofFlashBlock : Nat := 12

def sizeofFragmentedFlashBlockList : Nat := 16

/-- What `pvPortMalloc` gives room for: what was asked for, in units of the alignment. -/
structure HeapRoom where
  usableSize : Nat → Nat
  le_usableSize : ∀ xWantedSize, xWantedSize ≤ usableSize xWantedSize
  dvd_usableSize : ∀ xWantedSize, 8 ∣ usableSize xWantedSize

/-- With a header of 8 bytes. -/
def heap4 : HeapRoom where
  usableSize xWantedSize := (xWantedSize + 8 + 7) / 8 * 8 - 8
  le_usableSize xWantedSize := by omega
  dvd_usableSize xWantedSize := by omega

/-- The node is requested with the size of its content, and its `next` is behind that. -/
theorem HeapRoom.node_fits (heap : HeapRoom) :
    sizeofFragmentedFlashBlockList ≤ heap.usableSize sizeofFlashBlock := by
  obtain ⟨k, hk⟩ := heap.dvd_usableSize sizeofFlashBlock
  have hle := heap.le_usableSize sizeofFlashBlock
  rw [sizeofFlashBlock] at hk hle
  rw [sizeofFragmentedFlashBlockList, sizeofFlashBlock]
  omega

/-- The search for the place of a new fragment: `previous` and `current` where it ends. -/
def insertSearch (m : Nat → Option (Node FlashBlockRecord)) (nullOffset offset : UInt32) :
    Nat → Nat → Nat → Option (Nat × Nat)
  | 0, _, _ => none
  | fuel + 1, previous, current =>
      -- the offset is read before the comparison with NULL
      if current = 0 then
        if offset < nullOffset ∨ current = 0 then some (previous, current) else none
      else
        match m current with
        | none => none
        | some n =>
            if offset < n.content.offset ∨ current = 0 then some (previous, current)
            else insertSearch m nullOffset offset fuel current n.next

/-- The node `new` is linked in where the search ended, and the head of the list is returned. -/
def insertLink (m : Nat → Option (Node FlashBlockRecord)) (head new previous current : Nat) :
    Option ((Nat → Option (Node FlashBlockRecord)) × Nat) :=
  if current ≠ head then
    (setNext m previous new).bind fun m => (setNext m new current).map fun m => (m, head)
  else (setNext m new current).map fun m => (m, new)

/-- What `pvPortMalloc` returned for the node, with what was there before, and for the bytes. -/
def fragmentedFlashBlockListInsert (s : FragmentMemory) (heap : HeapRoom) (nullOffset : UInt32)
    (fuel head : Nat) (new : Option (Fresh s.node × Node FlashBlockRecord))
    (newBinary : Option (Fresh s.binary)) (offset : UInt32) (binary : Nat → UInt8)
    (length : UInt32) : Option (FragmentMemory × Nat) :=
  match new with
  | none => none
  | some (new, uninitialised) =>
      match newBinary with
      | none =>
          let content := { uninitialised.content with binary := 0 }
          some ({ s with
            node := Function.update s.node new.1 (some { uninitialised with content := content }) },
            0)
      | some newBinary =>
          let bytes := (List.range length.toNat).map binary
          if heap.usableSize sizeofFlashBlock < sizeofFragmentedFlashBlockList then none
          else
            let node := Function.update s.node new.1 (some ⟨⟨offset, newBinary.1, length⟩, 0⟩)
            let s := ⟨node, Function.update s.binary newBinary.1 (some bytes)⟩
            if head = 0 then some (s, new.1)
            else
              (insertSearch s.node nullOffset offset fuel 0 head).bind fun (previous, current) =>
                (insertLink s.node head new.1 previous current).map fun (node, tmp) =>
                  (⟨node, s.binary⟩, tmp)

/-- The search for a fragment: `previous` and `tmp` where it ends. -/
def deleteSearch (m : Nat → Option (Node FlashBlockRecord)) (offset : UInt32) :
    Nat → Nat → Nat → Option (Nat × Nat)
  | 0, _, _ => none
  | fuel + 1, previous, tmp =>
      match m tmp with
      | none => none
      | some n =>
          if n.content.offset = offset then some (previous, tmp)
          else if n.next = 0 then some (previous, 0)
          else deleteSearch m offset fuel tmp n.next

/-- The bytes of a fragment are freed, and then its node. -/
def freeFragment (s : FragmentMemory) (a : Nat) : Option FragmentMemory :=
  (s.node a).bind fun n =>
    (vPortFree s.binary n.content.binary).bind fun binary =>
      (vPortFree s.node a).map fun node => ⟨node, binary⟩

def deleteUnlink (s : FragmentMemory) (head previous tmp : Nat) : Option (FragmentMemory × Nat) :=
  if previous ≠ 0 then
    (s.node tmp).bind fun target =>
      (setNext s.node previous target.next).bind fun node =>
        (freeFragment ⟨node, s.binary⟩ tmp).map fun s => (s, head)
  else
    (s.node head).bind fun first =>
      let tmp := if first.next ≠ 0 then first.next else 0
      (freeFragment s head).map fun s => (s, tmp)

def fragmentedFlashBlockListDelete (s : FragmentMemory) (fuel head : Nat) (offset : UInt32) :
    Option (FragmentMemory × Nat) :=
  if head = 0 then some (s, head)
  else
    (deleteSearch s.node offset fuel 0 head).bind fun (previous, tmp) =>
      if tmp ≠ 0 then s.deleteUnlink head previous tmp else some (s, tmp)

def fragment (s : FragmentMemory) (e : Nat × FlashBlockRecord) : FlashBlock :=
  ⟨e.2.offset.toNat, (s.binary e.2.binary).getD []⟩

/-- The nodes are a list from `head` on, and each has live bytes of its own. -/
structure Represents (s : FragmentMemory) (head : Nat) (l : List (Nat × FlashBlockRecord)) :
    Prop where
  leads : Leads s.node head l 0
  owned : (l.map fun e => e.2.binary).Nodup
  binary : ∀ e ∈ l, e.2.binary ≠ 0 ∧
    ∃ bytes, s.binary e.2.binary = some bytes ∧ bytes.length = e.2.length.toNat

/-- In memory there is a list of these fragments. -/
def Holds (s : FragmentMemory) (head : Nat) (fragments : List FlashBlock) : Prop :=
  ∃ l, s.Represents head l ∧ fragments = l.map s.fragment

section search

variable {m : Nat → Option (Node FlashBlockRecord)} {p a head current : Nat}
  {l l1 l2 : List (Nat × FlashBlockRecord)} {n : Node FlashBlockRecord} (offset : UInt32)

/-- The last address of a stretch that was passed. -/
def lastOf (l : List (Nat × FlashBlockRecord)) (previous : Nat) : Nat :=
  (l.getLast?.map Prod.fst).getD previous

theorem lastOf_cons (e : Nat × FlashBlockRecord) (l : List (Nat × FlashBlockRecord))
    (previous : Nat) : lastOf (e :: l) previous = lastOf l e.1 := by
  rw [lastOf, lastOf, List.getLast?_cons]
  cases l.getLast? <;> rfl

/-- The search passes what is not behind the new fragment, with any fuel that is enough. -/
theorem insertSearch_spec (nullOffset : UInt32) (h : Leads m p l 0) :
    ∃ l1 l2 current, l = l1 ++ l2 ∧ Leads m p l1 current ∧ Leads m current l2 0 ∧
      (∀ e ∈ l1, ¬ offset < e.2.offset) ∧ (∀ e ∈ l2.head?, offset < e.2.offset) ∧
      ∀ fuel previous, l.length < fuel →
        insertSearch m nullOffset offset fuel previous p = some (lastOf l1 previous, current) := by
  induction l generalizing p with
  | nil =>
    have hp : p = 0 := h
    refine ⟨[], [], p, rfl, rfl, h, List.forall_mem_nil _, by simp, ?_⟩
    intro fuel previous hfuel
    obtain ⟨fuel, rfl⟩ := Nat.exists_eq_succ_of_ne_zero (Nat.ne_of_gt hfuel)
    simp [insertSearch, lastOf, hp]
  | cons e l ih =>
    have hwhole := h
    obtain ⟨rfl, ha, next, hnode, hrest⟩ := h
    by_cases hlt : offset < e.2.offset
    · refine ⟨[], e :: l, e.1, rfl, rfl, hwhole, List.forall_mem_nil _, by simpa using hlt, ?_⟩
      intro fuel previous hfuel
      obtain ⟨fuel, rfl⟩ := Nat.exists_eq_succ_of_ne_zero (Nat.ne_of_gt (Nat.zero_lt_of_lt hfuel))
      simp [insertSearch, lastOf, ha, hnode, hlt]
    · obtain ⟨l1, l2, current, rfl, hfront, hback, hpassed, hstop, hsearch⟩ := ih hrest
      refine ⟨e :: l1, l2, current, rfl, ⟨rfl, ha, next, hnode, hfront⟩, hback,
        List.forall_mem_cons.mpr ⟨hlt, hpassed⟩, hstop, ?_⟩
      intro fuel previous hfuel
      obtain ⟨fuel, rfl⟩ := Nat.exists_eq_succ_of_ne_zero (Nat.ne_of_gt (Nat.zero_lt_of_lt hfuel))
      rw [lastOf_cons, ← hsearch fuel e.1 (Nat.lt_of_succ_lt_succ hfuel)]
      simp [insertSearch, ha, hnode, hlt]

/-- The search ends at the first fragment with the offset, or at NULL when there is none. -/
theorem deleteSearch_spec (h : Leads m p l 0) (hne : l ≠ []) :
    (∃ l1 e l2, l = l1 ++ e :: l2 ∧ e.2.offset = offset ∧ (∀ e ∈ l1, e.2.offset ≠ offset) ∧
      ∀ fuel previous, l.length ≤ fuel →
        deleteSearch m offset fuel previous p = some (lastOf l1 previous, e.1)) ∨
    (∀ e ∈ l, e.2.offset ≠ offset) ∧ ∀ fuel previous, l.length ≤ fuel →
      deleteSearch m offset fuel previous p = some (lastOf l.dropLast previous, 0) := by
  induction l generalizing p with
  | nil => exact absurd rfl hne
  | cons e l ih =>
    obtain ⟨rfl, ha, next, hnode, hrest⟩ := h
    by_cases heq : e.2.offset = offset
    · refine .inl ⟨[], e, l, rfl, heq, List.forall_mem_nil _, ?_⟩
      intro fuel previous hfuel
      obtain ⟨fuel, rfl⟩ := Nat.exists_eq_succ_of_ne_zero (Nat.ne_of_gt (Nat.zero_lt_of_lt hfuel))
      simp [deleteSearch, lastOf, hnode, heq]
    cases l with
    | nil =>
      have hnext : next = 0 := hrest
      refine .inr ⟨by simpa using heq, ?_⟩
      intro fuel previous hfuel
      obtain ⟨fuel, rfl⟩ := Nat.exists_eq_succ_of_ne_zero (Nat.ne_of_gt (Nat.zero_lt_of_lt hfuel))
      simp [deleteSearch, lastOf, hnode, heq, hnext]
    | cons e2 l =>
      have hnext : next ≠ 0 := by
        intro hzero
        rw [hzero] at hrest
        exact absurd hrest.of_zero (List.cons_ne_nil _ _)
      have hstep : ∀ fuel previous, deleteSearch m offset (fuel + 1) previous e.1 =
          deleteSearch m offset fuel e.1 next := by
        intro fuel previous
        simp [deleteSearch, hnode, heq, hnext]
      obtain ⟨l1, f, l2, hl, hf, hpassed, hsearch⟩ | ⟨hnone, hsearch⟩ :=
        ih hrest (List.cons_ne_nil _ _)
      · refine .inl ⟨e :: l1, f, l2, by rw [hl, List.cons_append], hf,
          List.forall_mem_cons.mpr ⟨heq, hpassed⟩, ?_⟩
        intro fuel previous hfuel
        obtain ⟨fuel, rfl⟩ := Nat.exists_eq_succ_of_ne_zero (Nat.ne_of_gt (Nat.zero_lt_of_lt hfuel))
        rw [lastOf_cons, hstep, hsearch fuel e.1 (Nat.le_of_succ_le_succ hfuel)]
      · refine .inr ⟨List.forall_mem_cons.mpr ⟨heq, hnone⟩, ?_⟩
        intro fuel previous hfuel
        obtain ⟨fuel, rfl⟩ := Nat.exists_eq_succ_of_ne_zero (Nat.ne_of_gt (Nat.zero_lt_of_lt hfuel))
        rw [List.dropLast_cons_cons, lastOf_cons, hstep,
          hsearch fuel e.1 (Nat.le_of_succ_le_succ hfuel)]

theorem lastOf_concat (l : List (Nat × FlashBlockRecord)) (e : Nat × FlashBlockRecord)
    (previous : Nat) : lastOf (l ++ [e]) previous = e.1 := by
  rw [lastOf, List.getLast?_concat]
  rfl

theorem setNext_of_live (hnode : m a = some n) (next : Nat) :
    setNext m a next = some (Function.update m a (some ⟨n.content, next⟩)) := by
  rw [setNext, hnode, Option.map_some]

/-- The new node is linked in between what was passed and the rest. -/
theorem insertLink_spec (hfront : Leads m head l1 current) (hback : Leads m current l2 0)
    (hnode : m a = some n) (ha : a ≠ 0) (hnew : ∀ b ∈ (l1 ++ l2).map Prod.fst, b ≠ a) :
    ∃ m' head', insertLink m head a (lastOf l1 0) current = some (m', head') ∧
      Leads m' head' (l1 ++ (a, n.content) :: l2) 0 := by
  have hwhole : Leads m head (l1 ++ l2) 0 := leads_append.mpr ⟨current, hfront, hback⟩
  by_cases hhead : current = head
  · -- nothing was passed, as the list from `head` on has one length
    have hnil : l1 = [] := by
      have hsame := (hhead ▸ hback).unique hwhole
      simpa using hsame
    subst hnil
    refine ⟨Function.update m a (some ⟨n.content, current⟩), a, ?_, rfl, ha, current,
      Function.update_self .., ?_⟩
    · rw [insertLink, if_neg (not_not.mpr hhead), setNext_of_live hnode, Option.map_some]
    · exact hback.congr fun b hb => Function.update_of_ne (hnew b hb) _ _
  · obtain rfl | ⟨l1, ⟨b, y⟩, hconcat⟩ := l1.eq_nil_or_concat
    · exact absurd hfront.symm hhead
    rw [List.concat_eq_append] at hconcat
    subst hconcat
    obtain ⟨r, -, hr, hb, next, hprevious, -⟩ := leads_append.mp hfront
    have hba : b ≠ a := hnew b (by simp)
    rw [List.append_assoc] at hwhole hnew ⊢
    refine ⟨Function.update (Function.update m b (some ⟨y, a⟩)) a (some ⟨n.content, current⟩), head,
      ?_, hwhole.insertBehind hback ha hnew⟩
    have hsecond : Function.update m b (some ⟨y, a⟩) a = some n := by
      rw [Function.update_of_ne hba.symm, hnode]
    rw [insertLink, if_pos hhead, lastOf_concat, setNext_of_live hprevious, Option.bind_some,
      setNext_of_live hsecond, Option.map_some]

/-- A fragment whose bytes are live can be freed. -/
theorem freeFragment_spec {s : FragmentMemory} {bytes : List UInt8} (hnode : s.node a = some n)
    (ha : a ≠ 0) (hn : n.content.binary ≠ 0) (hbytes : s.binary n.content.binary = some bytes) :
    s.freeFragment a = some ⟨Function.update s.node a none,
      Function.update s.binary n.content.binary none⟩ := by
  simp [freeFragment, vPortFree, hnode, ha, hn, hbytes]

end search

section refinement

variable {s : FragmentMemory} {head fuel : Nat} {l l1 l2 : List (Nat × FlashBlockRecord)}
  {fragments : List FlashBlock} {e : Nat × FlashBlockRecord}

theorem Represents.live (h : s.Represents head l) (he : e ∈ l) : s.binary e.2.binary ≠ none := by
  obtain ⟨-, bytes, hbytes, -⟩ := h.binary e he
  rw [hbytes]
  exact Option.some_ne_none _

/-- Where the bytes stay, fragments are made of their nodes as before. -/
theorem map_fragment_congr {s' : FragmentMemory}
    (h : ∀ e ∈ l, s'.binary e.2.binary = s.binary e.2.binary) :
    l.map s'.fragment = l.map s.fragment := by
  apply List.map_congr_left
  intro e he
  rw [fragment, fragment, h e he]

/-- A new node with bytes of its own, anywhere in the list. -/
theorem Represents.insertNode {head' a : Nat} (h : s.Represents head (l1 ++ l2))
    (s' : FragmentMemory) (newBinary : Fresh s.binary) {offset length : UInt32}
    {bytes : List UInt8} (hlength : bytes.length = length.toNat)
    (hbinary : s'.binary = Function.update s.binary newBinary.1 (some bytes))
    (hleads : Leads s'.node head' (l1 ++ (a, ⟨offset, newBinary.1, length⟩) :: l2) 0) :
    s'.Represents head' (l1 ++ (a, ⟨offset, newBinary.1, length⟩) :: l2) ∧
      (l1 ++ (a, ⟨offset, newBinary.1, length⟩) :: l2).map s'.fragment =
        l1.map s.fragment ++ ⟨offset.toNat, bytes⟩ :: l2.map s.fragment := by
  have hother : ∀ e ∈ l1 ++ l2, e.2.binary ≠ newBinary.1 := by
    intro e he hsame
    exact h.live he (hsame ▸ newBinary.2.2)
  have hkept : ∀ e ∈ l1 ++ l2, s'.binary e.2.binary = s.binary e.2.binary := by
    intro e he
    rw [hbinary, Function.update_of_ne (hother e he)]
  have hnew : s'.binary newBinary.1 = some bytes := by
    rw [hbinary, Function.update_self]
  have hmem : ∀ e ∈ l1 ++ (a, ⟨offset, newBinary.1, length⟩) :: l2,
      e ∈ l1 ++ l2 ∨ e = (a, ⟨offset, newBinary.1, length⟩) := by
    intro e he
    simp only [List.mem_append, List.mem_cons] at he ⊢
    tauto
  refine ⟨⟨hleads, ?_, ?_⟩, ?_⟩
  · rw [List.map_append, List.map_cons]
    refine List.nodup_middle.mpr (List.nodup_cons.mpr ⟨?_, ?_⟩)
    · rw [← List.map_append]
      intro hnot
      obtain ⟨e, he, hsame⟩ := List.mem_map.mp hnot
      exact hother e he hsame
    · rw [← List.map_append]
      exact h.owned
  · intro e he
    obtain he | rfl := hmem e he
    · rw [hkept e he]
      exact h.binary e he
    · exact ⟨newBinary.2.1, bytes, hnew, hlength⟩
  · rw [List.map_append, List.map_cons,
      map_fragment_congr fun e he => hkept e (List.mem_append_left _ he),
      map_fragment_congr fun e he => hkept e (List.mem_append_right _ he), fragment, hnew]
    rfl

/-- A node is taken out and its bytes are freed. -/
theorem Represents.removeNode {s' : FragmentMemory} {head' : Nat}
    (h : s.Represents head (l1 ++ e :: l2))
    (hbinary : s'.binary = Function.update s.binary e.2.binary none)
    (hleads : Leads s'.node head' (l1 ++ l2) 0) :
    s'.Represents head' (l1 ++ l2) ∧
      (l1 ++ l2).map s'.fragment = l1.map s.fragment ++ l2.map s.fragment := by
  have howned := h.owned
  rw [List.map_append, List.map_cons] at howned
  obtain ⟨hnot, hrest⟩ := List.nodup_cons.mp (List.nodup_middle.mp howned)
  rw [← List.map_append] at hnot hrest
  have hkept : ∀ f ∈ l1 ++ l2, s'.binary f.2.binary = s.binary f.2.binary := by
    intro f hf
    have hne : f.2.binary ≠ e.2.binary := by
      intro hsame
      exact hnot (hsame ▸ List.mem_map_of_mem hf)
    rw [hbinary, Function.update_of_ne hne]
  have hsub : ∀ f ∈ l1 ++ l2, f ∈ l1 ++ e :: l2 := by
    intro f hf
    simp only [List.mem_append, List.mem_cons] at hf ⊢
    tauto
  refine ⟨⟨hleads, hrest, ?_⟩, ?_⟩
  · intro f hf
    rw [hkept f hf]
    exact h.binary f (hsub f hf)
  · rw [map_fragment_congr hkept, List.map_append]

theorem deleteUnlink_spec (h : s.Represents head (l1 ++ e :: l2)) :
    ∃ s' head', s.deleteUnlink head (lastOf l1 0) e.1 = some (s', head') ∧
      s'.binary = Function.update s.binary e.2.binary none ∧
      Leads s'.node head' (l1 ++ l2) 0 := by
  obtain ⟨hbinary, bytes, hbytes, -⟩ := h.binary e (List.mem_append_right _ List.mem_cons_self)
  obtain ⟨r, hfront, hr, he, next, hnode, hback⟩ := leads_append.mp h.leads
  have hother : ∀ c ∈ (l1 ++ l2).map Prod.fst, c ≠ e.1 := fun c hc => h.leads.ne_of_mem hc
  obtain rfl | ⟨l1, ⟨b, y⟩, hconcat⟩ := l1.eq_nil_or_concat
  · have hhead : head = e.1 := hfront.trans hr
    subst hhead
    have hlast : lastOf [] 0 = 0 := rfl
    have hnext : (if next ≠ 0 then next else 0) = next := by
      split <;> omega
    refine ⟨⟨Function.update s.node e.1 none, Function.update s.binary e.2.binary none⟩, next, ?_,
      rfl, hback.congr fun c hc => Function.update_of_ne (hother c hc) _ _⟩
    rw [deleteUnlink, hlast, if_neg (not_not.mpr rfl), hnode, Option.bind_some,
      freeFragment_spec hnode he hbinary hbytes, Option.map_some, hnext]
  · rw [List.concat_eq_append] at hconcat
    subst hconcat
    obtain ⟨q, -, -, hb, after, hprevious, -⟩ := leads_append.mp hfront
    have hwhole := h.leads
    rw [List.append_assoc] at hwhole ⊢
    have hbe : b ≠ e.1 := hother b (by simp)
    have hsame : Function.update s.node b (some ⟨y, next⟩) e.1 = some ⟨e.2, next⟩ := by
      rw [Function.update_of_ne hbe.symm, hnode]
    refine ⟨⟨Function.update (Function.update s.node b (some ⟨y, next⟩)) e.1 none,
      Function.update s.binary e.2.binary none⟩, head, ?_, rfl, hwhole.removeBehind hback⟩
    rw [deleteUnlink, lastOf_concat, if_pos hb, hnode, Option.bind_some,
      setNext_of_live hprevious, Option.bind_some,
      freeFragment_spec (s := ⟨_, s.binary⟩) hsame he hbinary hbytes, Option.map_some]

/-- The list in memory is inserted into as the list of its fragments is, whatever the offset at NULL
reads as. -/
theorem insert_refines (h : s.Holds head fragments) (heap : HeapRoom) (nullOffset : UInt32)
    (new : Fresh s.node) (uninitialised : Node FlashBlockRecord) (newBinary : Fresh s.binary)
    (offset : UInt32) (binary : Nat → UInt8) (length : UInt32) :
    ∃ s' head', (∀ fuel, fragments.length < fuel →
        s.fragmentedFlashBlockListInsert heap nullOffset fuel head (some (new, uninitialised))
          (some newBinary) offset binary length = some (s', head')) ∧
      s'.Holds head' (FragmentedFlashBlockList.insert fragments
        ⟨offset.toNat, (List.range length.toNat).map binary⟩) := by
  obtain ⟨l, hrep, rfl⟩ := h
  have hroom := Nat.not_lt.mpr heap.node_fits
  have hbytes : ((List.range length.toNat).map binary).length = length.toNat := by simp
  have hnew : ∀ a ∈ l.map Prod.fst, a ≠ new.1 := by
    intro a ha hsame
    exact hrep.leads.live ha (hsame ▸ new.2.2)
  obtain ⟨m, hm⟩ : ∃ m, m = Function.update s.node new.1
      (some ⟨⟨offset, newBinary.1, length⟩, 0⟩) := ⟨_, rfl⟩
  have hnode : m new.1 = some ⟨⟨offset, newBinary.1, length⟩, 0⟩ := by
    rw [hm, Function.update_self]
  have hleads : Leads m head l 0 := by
    apply hrep.leads.congr
    intro a ha
    rw [hm, Function.update_of_ne (hnew a ha)]
  obtain ⟨l1, l2, current, rfl, hfront, hback, hpassed, hstop, hsearch⟩ :=
    insertSearch_spec offset nullOffset hleads
  have hplace : FragmentedFlashBlockList.insert ((l1 ++ l2).map s.fragment)
      ⟨offset.toNat, (List.range length.toNat).map binary⟩ =
      l1.map s.fragment ++ ⟨offset.toNat, (List.range length.toNat).map binary⟩ ::
        l2.map s.fragment := by
    rw [List.map_append]
    apply FragmentedFlashBlockList.insert_append
    · intro b hb
      obtain ⟨e, he, rfl⟩ := List.mem_map.mp hb
      exact hpassed e he
    · intro b hb
      rw [List.head?_map] at hb
      obtain ⟨e, he, rfl⟩ := Option.map_eq_some_iff.mp hb
      exact hstop e he
  rw [hplace]
  by_cases hhead : head = 0
  · obtain ⟨rfl, rfl⟩ := List.append_eq_nil_iff.mp (hhead ▸ hleads).of_zero
    have hrep' := hrep.insertNode ⟨m, Function.update s.binary newBinary.1
      (some ((List.range length.toNat).map binary))⟩ newBinary hbytes rfl
      ⟨rfl, new.2.1, 0, hnode, rfl⟩
    refine ⟨_, new.1, ?_, _, hrep'.1, hrep'.2.symm⟩
    intro fuel hfuel
    rw [fragmentedFlashBlockListInsert, if_neg hroom, if_pos hhead, hm]
  · obtain ⟨m', head', hlink, hleads'⟩ := insertLink_spec hfront hback hnode new.2.1 hnew
    have hrep' := hrep.insertNode ⟨m', Function.update s.binary newBinary.1
      (some ((List.range length.toNat).map binary))⟩ newBinary hbytes rfl hleads'
    refine ⟨_, head', ?_, _, hrep'.1, hrep'.2.symm⟩
    intro fuel hfuel
    rw [List.length_map] at hfuel
    rw [fragmentedFlashBlockListInsert, if_neg hroom, if_neg hhead, ← hm, hsearch fuel 0 hfuel,
      Option.bind_some]
    simp only
    rw [hlink, Option.map_some]

/-- It is deleted from likewise. -/
theorem delete_refines (h : s.Holds head fragments) (offset : UInt32) :
    ∃ s' head', (∀ fuel, fragments.length < fuel →
        s.fragmentedFlashBlockListDelete fuel head offset = some (s', head')) ∧
      s'.Holds head' (FragmentedFlashBlockList.delete fragments offset.toNat) := by
  obtain ⟨l, hrep, rfl⟩ := h
  by_cases hhead : head = 0
  · obtain rfl := (hhead ▸ hrep.leads).of_zero
    refine ⟨s, head, ?_, [], hrep, rfl⟩
    intro fuel hfuel
    rw [fragmentedFlashBlockListDelete, if_pos hhead]
  have hne : l ≠ [] := by
    rintro rfl
    exact hhead hrep.leads
  obtain ⟨l1, e, l2, rfl, he, hpassed, hsearch⟩ | ⟨hnone, hsearch⟩ :=
    deleteSearch_spec offset hrep.leads hne
  · have htmp : e.1 ≠ 0 := (leads_append.mp hrep.leads).choose_spec.2.2.1
    obtain ⟨s', head', hunlink, hbinary, hleads⟩ := deleteUnlink_spec hrep
    have hrep' := hrep.removeNode hbinary hleads
    refine ⟨s', head', ?_, _, hrep'.1, ?_⟩
    · intro fuel hfuel
      rw [List.length_map] at hfuel
      rw [fragmentedFlashBlockListDelete, if_neg hhead, hsearch fuel 0 hfuel.le, Option.bind_some]
      simp only
      rw [if_pos htmp, hunlink]
    · have hoffset : offset.toNat = (s.fragment e).offset := congrArg UInt32.toNat he.symm
      rw [hrep'.2, List.map_append, List.map_cons, hoffset]
      apply FragmentedFlashBlockList.delete_append
      intro b hb hsame
      obtain ⟨f, hf, rfl⟩ := List.mem_map.mp hb
      exact hpassed f hf ((UInt32.toNat_inj.mp hsame).trans he)
  · refine ⟨s, 0, ?_, [], ⟨rfl, List.nodup_nil, List.forall_mem_nil _⟩, ?_⟩
    · intro fuel hfuel
      rw [List.length_map] at hfuel
      rw [fragmentedFlashBlockListDelete, if_neg hhead, hsearch fuel 0 hfuel.le, Option.bind_some]
      simp only
      rw [if_neg (not_not.mpr rfl)]
    · rw [FragmentedFlashBlockList.delete, if_neg]
      · rfl
      · rw [List.any_eq_true]
        rintro ⟨b, hb, hsame⟩
        obtain ⟨f, hf, rfl⟩ := List.mem_map.mp hb
        exact hnone f hf (UInt32.toNat_inj.mp (of_decide_eq_true hsame))

/-- Whatever is allocated, the new list is sorted and has the new fragment besides the others. -/
def InsertRight (s : FragmentMemory) (heap : HeapRoom) (head : Nat) (fragments : List FlashBlock)
    (nullOffset offset : UInt32) (binary : Nat → UInt8) (length : UInt32) : Prop :=
  ∀ (new : Fresh s.node) (uninitialised : Node FlashBlockRecord) (newBinary : Fresh s.binary),
    ∃ s' head' fragments', (∀ fuel, fragments.length < fuel →
        s.fragmentedFlashBlockListInsert heap nullOffset fuel head (some (new, uninitialised))
          (some newBinary) offset binary length = some (s', head')) ∧
      s'.Holds head' fragments' ∧ FragmentedFlashBlockList.Sorted fragments' ∧
      fragments'.Perm (⟨offset.toNat, (List.range length.toNat).map binary⟩ :: fragments)

/-- The first fragment with the offset is removed, and nothing where there is none. -/
def DeleteRight (s : FragmentMemory) (head : Nat) (fragments : List FlashBlock) (offset : UInt32) :
    Prop :=
  ∃ s' head', (∀ fuel, fragments.length < fuel →
      s.fragmentedFlashBlockListDelete fuel head offset = some (s', head')) ∧
    s'.Holds head' (fragments.eraseP (·.offset = offset.toNat))

/-- A list in memory is a list of one length only. -/
theorem Holds.unique {fragments' : List FlashBlock} (h : s.Holds head fragments)
    (h' : s.Holds head fragments') : fragments = fragments' := by
  obtain ⟨l, hrep, rfl⟩ := h
  obtain ⟨l', hrep', rfl⟩ := h'
  rw [hrep.leads.unique hrep'.leads]

theorem insertRight (h : s.Holds head fragments)
    (hsorted : FragmentedFlashBlockList.Sorted fragments) (heap : HeapRoom)
    (nullOffset offset : UInt32) (binary : Nat → UInt8) (length : UInt32) :
    s.InsertRight heap head fragments nullOffset offset binary length := by
  intro new uninitialised newBinary
  obtain ⟨s', head', hrun, hholds⟩ :=
    insert_refines h heap nullOffset new uninitialised newBinary offset binary length
  exact ⟨s', head', _, hrun, hholds, FragmentedFlashBlockList.insert_sorted hsorted _,
    FragmentedFlashBlockList.insert_perm _ _⟩

theorem deleteRight_iff (h : s.Holds head fragments) (offset : UInt32) :
    s.DeleteRight head fragments offset ↔
      fragments = [] ∨ ∃ b ∈ fragments, b.offset = offset.toNat := by
  obtain ⟨s', head', hrun, hholds⟩ := delete_refines h offset
  have hany : fragments.any (·.offset = offset.toNat) = true ↔
      ∃ b ∈ fragments, b.offset = offset.toNat := by
    simp
  have hright : s.DeleteRight head fragments offset ↔
      FragmentedFlashBlockList.delete fragments offset.toNat =
        fragments.eraseP (·.offset = offset.toNat) := by
    constructor
    · rintro ⟨s2, head2, hrun2, hholds2⟩
      have hsame := (hrun _ (Nat.lt_succ_self _)).symm.trans (hrun2 _ (Nat.lt_succ_self _))
      obtain ⟨rfl, rfl⟩ := Prod.mk.inj (Option.some.inj hsame)
      exact hholds.unique hholds2
    · intro hsame
      exact ⟨s', head', hrun, hsame ▸ hholds⟩
  rw [hright, FragmentedFlashBlockList.delete, ← hany]
  by_cases hfound : fragments.any (·.offset = offset.toNat) = true
  · rw [if_pos hfound]
    exact ⟨fun _ => .inr hfound, fun _ => rfl⟩
  · have herase : fragments.eraseP (·.offset = offset.toNat) = fragments := by
      apply List.eraseP_of_forall_not
      simpa using hfound
    rw [if_neg hfound, herase, or_iff_left hfound]
    exact eq_comm

/-- On a sorted list inserting is always right, with any such heap; deleting is, unless there are
fragments and none has the offset. -/
theorem fragment_list_right (h : s.Holds head fragments)
    (hsorted : FragmentedFlashBlockList.Sorted fragments) (heap : HeapRoom)
    (nullOffset offset deleted length : UInt32) (binary : Nat → UInt8) :
    s.InsertRight heap head fragments nullOffset offset binary length ∧
      (s.DeleteRight head fragments deleted ↔
        fragments = [] ∨ ∃ b ∈ fragments, b.offset = deleted.toNat) :=
  ⟨insertRight h hsorted heap nullOffset offset binary length, deleteRight_iff h deleted⟩

end refinement

def oneFragment : FragmentMemory where
  node a := if a = 0x100 then some ⟨⟨8, 0x200, 1⟩, 0⟩ else none
  binary a := if a = 0x200 then some [7] else none

theorem holds_oneFragment : oneFragment.Holds 0x100 [⟨8, [7]⟩] := by
  refine ⟨[(0x100, ⟨8, 0x200, 1⟩)], ⟨⟨rfl, by decide, 0, rfl, rfl⟩, ?_, ?_⟩, rfl⟩
  · exact List.nodup_singleton _
  · intro e he
    rw [List.mem_singleton.mp he]
    exact ⟨by decide, [7], rfl, rfl⟩

theorem fragment_list_right_one :
    oneFragment.InsertRight heap4 0x100 [⟨8, [7]⟩] 0 4 (fun _ => 5) 3 ∧
      (oneFragment.DeleteRight 0x100 [⟨8, [7]⟩] 8 ↔
        [(⟨8, [7]⟩ : FlashBlock)] = [] ∨
          ∃ b ∈ [(⟨8, [7]⟩ : FlashBlock)], b.offset = (8 : UInt32).toNat) :=
  fragment_list_right holds_oneFragment (List.pairwise_singleton _ _) heap4 0 4 8 3 fun _ => 5

/-- When position 4 is to be deleted, the fragment at position 8 is lost. -/
theorem delete_not_right : ¬ oneFragment.DeleteRight 0x100 [⟨8, [7]⟩] 4 := by
  rintro ⟨s', head', hrun, l, hrep, hfragments⟩
  have hlost : oneFragment.fragmentedFlashBlockListDelete 2 0x100 4 = some (oneFragment, 0) := rfl
  obtain ⟨rfl, rfl⟩ := Prod.mk.inj (Option.some.inj (hlost.symm.trans (hrun 2 (by decide))))
  rw [hrep.leads.of_zero] at hfragments
  exact absurd hfragments (by decide)

end FragmentMemory

end RenesasDemo.Ota
