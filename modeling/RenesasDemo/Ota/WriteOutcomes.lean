import RenesasDemo.Ota.NodeAccess
import RenesasDemo.Ota.WriteBlock

namespace RenesasDemo.Ota

open Framework FragmentedFlashBlockList FragmentNodes

/-- What a pass of the assembly loop meets: memory for what is cut off a fragment, memory for the
packet, and room in the queue. -/
structure PassOutcome where
  cut : Allocation
  packet : Bool
  send : Bool

/-- What a call of `otaPal_WriteBlock` meets. -/
structure CallOutcome where
  fragment : Allocation
  packet : Bool
  send : Bool
  passes : List PassOutcome

/-- `xQueue` has each packet that was sent, also those that the flashing task has taken out. -/
structure CallState (P : Nat) where
  fragmentedFlashBlockList : List FlashBlock
  flashBlockArray : Buffer UInt8 P
  xQueue : List FlashBlock

namespace CallState

variable {P : Nat}

/-- The loop in `otaPal_WriteBlock` and what the call returns; no result where the loop needs more
passes than there are outcomes. -/
def assemblyLoop (block : FlashBlock) :
    List PassOutcome → CallState P → Option (Except Fault (CallState P × Int))
  | [], _ => none
  | o :: passes, s =>
      match FragmentNodes.assemble o.cut s.fragmentedFlashBlockList s.flashBlockArray true with
      | .error fault => some (.error fault)
      | .ok r =>
          let s' := { s with
            fragmentedFlashBlockList := r.value.1
            flashBlockArray := r.value.2.1 }
          match r.value.2.2 with
          | none => some (.ok (s', toInt16 block.length))
          | some page =>
              if o.packet then
                if o.send then assemblyLoop block passes { s' with xQueue := s'.xQueue ++ [page] }
                else some (.ok (s', rOtaErrQueueSendFail))
              else some (.error .nullWrite)

/-- A call and what it returns. Nothing is copied to a packet without bytes. -/
def otaPalWriteBlock (o : CallOutcome) (s : CallState P) (block : FlashBlock) :
    Option (Except Fault (CallState P × Int)) :=
  if block.offset % P = 0 ∧ block.length % P = 0 then
    if o.packet ∨ block.length = 0 then
      if o.send then some (.ok ({ s with xQueue := s.xQueue ++ [block] }, toInt16 block.length))
      else some (.ok (s, rOtaErrQueueSendFail))
    else some (.error .nullWrite)
  else
    match FragmentNodes.insert o.fragment s.fragmentedFlashBlockList block with
    | .error fault => some (.error fault)
    | .ok r =>
        let s' := { s with fragmentedFlashBlockList := r.value }
        if r.value = [] then some (.ok (s', toInt16 block.length))
        else s'.assemblyLoop block o.passes

/-- The bytes in the queue and in the list, each with its position. -/
def pairs (s : CallState P) : List (UInt8 × Nat) :=
  RenesasDemo.Ota.pairs (s.xQueue ++ s.fragmentedFlashBlockList)

end CallState

/-- The block size is what is returned exactly if it fits an `int16_t`. -/
theorem toInt16_eq_iff (n : Nat) : toInt16 n = (n : Int) ↔ n < 2 ^ 15 := by
  rw [toInt16, BitVec.toInt_eq_toNat_bmod, BitVec.toNat_ofNat, Int.bmod_def]
  omega

namespace FragmentNodes

/-- No scan of the list takes a page. -/
def Unfilled (P : Nat) (head : List FlashBlock) : Prop :=
  ∀ before cs tail, Searched P head before (cs ++ tail) → ¬ FillsPage P cs

/-- A scan takes `cs` for a page, and the page has their bytes: they are at most two, adjoin and
have a page's length, and no node in front of them has the offset of one of them. -/
structure RightPage (P : Nat) (head before cs tail : List FlashBlock) : Prop where
  searched : Searched P head before (cs ++ tail)
  fills : FillsPage P cs
  enough : P ≤ totalLength cs
  few : cs.length ≤ 2
  adjoining : Adjoining cs
  inRange : ∀ c ∈ cs, c.offset + c.length ≤ 2 ^ 32
  distinct : ∀ b ∈ before, ∀ c ∈ cs, b.offset ≠ c.offset

/-- A scan takes fragments with a page's length whose page is not right. -/
def WrongPage (P : Nat) (head : List FlashBlock) : Prop :=
  ∃ before cs tail, Searched P head before (cs ++ tail) ∧ FillsPage P cs ∧ P ≤ totalLength cs ∧
    ¬ RightPage P head before cs tail

/-- What a scan whose page is right makes of the list: the fragments that become the page, those
that are lost, and those that are left. -/
inductive Takes (P : Nat) (alloc : Allocation) (head : List FlashBlock) :
    List FlashBlock → List FlashBlock → List FlashBlock → Prop
  | whole {before cs tail : List FlashBlock} (right : RightPage P head before cs tail)
      (length : totalLength cs = P) : Takes P alloc head cs [] (before ++ tail)
  | cut {before xs tail : List FlashBlock} {c : FlashBlock}
      (right : RightPage P head before (xs ++ [c]) tail) (crosses : Crosses P c)
      (memory : alloc = .served) :
      Takes P alloc head (xs ++ [c.take (P - totalLength xs)]) []
        (before ++ FragmentedFlashBlockList.insert tail (c.cutOff (P - totalLength xs)))
  /-- There is no memory for the bytes that are cut off. -/
  | lost {before xs tail : List FlashBlock} {c : FlashBlock}
      (right : RightPage P head before (xs ++ [c]) tail) (crosses : Crosses P c)
      (node : alloc.node = true) (binary : alloc.binary = false) :
      Takes P alloc head (xs ++ [c.take (P - totalLength xs)])
        (c.cutOff (P - totalLength xs) :: tail) before

section takes

variable {P : Nat} {alloc : Allocation}
  {head before rest cs cands lost left xs tail : List FlashBlock} {c : FlashBlock}
  {as : List Access}

/-- Without memory for its bytes the fragment is lost, and so is the list it belongs to. -/
theorem insert_lost (head : List FlashBlock) (new : FlashBlock) (hnode : alloc.node = true)
    (hbinary : alloc.binary = false) : insert alloc head new = .ok ⟨[], []⟩ := by
  simp [insert, hnode, hbinary]

/-- The search looks at nothing behind the node it has come to. -/
theorem Searched.alone (h : Searched P head before rest) (l : List FlashBlock) :
    Searched P (before ++ l) before l := by
  induction h generalizing l with
  | start => exact .start
  | @unaligned before next tmp _ ho ih =>
    have hprior := ih (tmp :: l)
    rw [List.append_cons] at hprior
    exact hprior.unaligned ho
  | @passed before cs next tmp _ hover ih =>
    have hprior := ih (cs ++ tmp :: l)
    have hlist : before ++ (cs ++ [tmp]) ++ l = before ++ (cs ++ tmp :: l) := by
      rw [List.append_assoc, List.append_assoc, List.singleton_append]
    rw [hlist]
    exact hprior.passed hover

/-- A list behind whose last node the search goes has no page. -/
theorem Searched.assemble_stepsOff (h : Searched P head before []) (alloc : Allocation)
    (flashBlockArray : Buffer UInt8 P) :
    ∃ as, assemble alloc head flashBlockArray true = .ok ⟨(head, flashBlockArray, none), as⟩ := by
  obtain ⟨as, -, hsearch⟩ := h.search_eq alloc
  exact ⟨_, assemble_none flashBlockArray true hsearch⟩

theorem unfilled_of_search (h : search alloc P [] 0 head = .ok ⟨none, as⟩) : Unfilled P head :=
  fun _ _ _ hs hf => hs.search_ne_none hf h

theorem Unfilled.assemble (h : Unfilled P head) (hP : 0 < P) (alloc : Allocation)
    (flashBlockArray : Buffer UInt8 P) :
    ∃ as, assemble alloc head flashBlockArray true = .ok ⟨(head, flashBlockArray, none), as⟩ := by
  have hout := search_outcome alloc hP head
  generalize hsearch : search alloc P [] 0 head = result at hout
  cases hout with
  | stepsOff before as _ _ => exact ⟨_, assemble_none flashBlockArray true hsearch⟩
  | ends before rest as _ _ _ => exact ⟨_, assemble_none flashBlockArray true hsearch⟩
  | whole before cs tail as _ hs hfills _ => exact absurd hfills (h before cs tail hs)
  | wraps before xs tail c hs hfills _ _ => exact absurd hfills (h before _ tail hs)
  | cut before xs tail c as _ hs hfills _ _ _ => exact absurd hfills (h before _ tail hs)

theorem RightPage.list (h : RightPage P head before cs tail) : head = before ++ (cs ++ tail) :=
  h.searched.list

/-- A page of whole fragments is found as it is. -/
theorem RightPage.search_whole (h : RightPage P head before cs tail) (hlen : totalLength cs = P)
    (alloc : Allocation) :
    ∃ as, search alloc P [] 0 head = .ok ⟨some (before, ⟨cs, P, tail⟩), as⟩ := by
  obtain ⟨as, -, hsearch⟩ := h.searched.search_eq alloc
  have hadj := h.adjoining
  obtain ⟨xs, c, rfl, hstart, hxs, hopen, -⟩ := h.fills
  have hnot : ¬ Crosses P c := by
    intro hcross
    have hne := hcross.ne_length hadj hstart (totalLength_lt hopen)
    rw [totalLength_append, totalLength_cons, totalLength_nil] at hlen
    omega
  have hall := concat_not_crosses hxs hnot
  rw [FragmentNodes.search_whole hall hstart hopen hlen] at hsearch
  exact ⟨_, hsearch⟩

/-- What is taken of fragments of which the last one is cut. -/
structure Shortened (P : Nat) (before cands : List FlashBlock) : Prop where
  length : totalLength cands = P
  few : cands.length ≤ 2
  adjoining : Adjoining cands
  distinct : ∀ b ∈ before, ∀ c ∈ cands, b.offset ≠ c.offset

theorem RightPage.cut_le (h : RightPage P head before (xs ++ [c]) tail) :
    P - totalLength xs ≤ c.length := by
  have henough := h.enough
  rw [totalLength_append, totalLength_cons, totalLength_nil] at henough
  omega

theorem RightPage.shortened (h : RightPage P head before (xs ++ [c]) tail) (hcross : Crosses P c) :
    Shortened P before (xs ++ [c.take (P - totalLength xs)]) := by
  obtain ⟨hlt, -⟩ := h.searched.search_cut .served h.fills hcross
  have hfew := h.few
  rw [List.length_append, List.length_singleton] at hfew
  constructor
  · exact totalLength_cut (Nat.le_of_lt hlt) h.cut_le
  · rwa [List.length_append, List.length_singleton]
  · exact (adjoining_take xs c _).mpr h.adjoining
  · intro b hb d hd
    obtain hd | hd := List.mem_append.mp hd
    · exact h.distinct b hb d (List.mem_append_left _ hd)
    · rw [List.mem_singleton.mp hd]
      exact h.distinct b hb c (by simp)

/-- A page that is right has the bytes of its fragments, whatever the array holds. -/
theorem Takes.assemble (h : Takes P alloc head cands lost left) (hP : 0 < P)
    (flashBlockArray : Buffer UInt8 P) :
    ∃ (a : Buffer UInt8 P) (page : FlashBlock) (as : List Access),
      FragmentNodes.assemble alloc head flashBlockArray true = .ok ⟨(left, a, some page), as⟩ ∧
        page.pairs = Ota.pairs cands := by
  cases h with
  | whole hr hlen =>
    obtain ⟨as, hsearch⟩ := hr.search_whole hlen alloc
    obtain ⟨a, c, bs, -, hres⟩ :=
      assemble_adjoining hP flashBlockArray hsearch hlen hr.few hr.adjoining hr.distinct
    exact ⟨a, _, bs, hres⟩
  | @cut before xs tail c hr hcross hmemory =>
    obtain ⟨-, as, -, hsearch⟩ := hr.searched.search_cut alloc hr.fills hcross
    rw [if_neg (Nat.not_lt_of_le hr.cut_le), hmemory, insert_accesses] at hsearch
    obtain ⟨hlen, hfew, hadj, hne⟩ := hr.shortened hcross
    obtain ⟨a, d, bs, -, hres⟩ := assemble_adjoining hP flashBlockArray hsearch hlen hfew hadj hne
    rw [hmemory]
    exact ⟨a, _, bs, hres⟩
  | @lost _ xs tail c hr hcross hnode hbinary =>
    obtain ⟨-, as, -, hsearch⟩ := hr.searched.search_cut alloc hr.fills hcross
    rw [if_neg (Nat.not_lt_of_le hr.cut_le), insert_lost tail _ hnode hbinary] at hsearch
    obtain ⟨hlen, hfew, hadj, hne⟩ := hr.shortened hcross
    obtain ⟨a, d, bs, -, hres⟩ := assemble_adjoining hP flashBlockArray hsearch hlen hfew hadj hne
    rw [List.append_nil] at hres
    exact ⟨a, _, bs, hres⟩

/-- Each byte of the list is taken, lost or left. -/
theorem Takes.pairs_perm (h : Takes P alloc head cands lost left) :
    (Ota.pairs head).Perm (Ota.pairs cands ++ (Ota.pairs lost ++ Ota.pairs left)) := by
  have hcut : ∀ {before xs tail : List FlashBlock} {c : FlashBlock},
      RightPage P head before (xs ++ [c]) tail →
        (c.take (P - totalLength xs)).pairs ++ (c.cutOff (P - totalLength xs)).pairs = c.pairs := by
    intro before xs tail c hr
    exact FlashBlock.pairs_cut hr.cut_le (hr.inRange c (by simp))
  cases h with
  | whole hr _ =>
    rw [hr.list]
    simp only [pairs_append, pairs_nil, List.nil_append]
    exact List.perm_append_comm_assoc _ _ _
  | @cut before xs tail c hr _ _ =>
    have hins := Ota.pairs_perm (insert_perm tail (c.cutOff (P - totalLength xs)))
    have hswap := List.perm_append_comm_assoc (Ota.pairs before)
      (Ota.pairs xs ++ (c.take (P - totalLength xs)).pairs)
      ((c.cutOff (P - totalLength xs)).pairs ++ Ota.pairs tail)
    rw [hr.list]
    simp only [pairs_append, pairs_cons, pairs_nil, List.nil_append, List.append_nil, ← hcut hr]
    rw [pairs_cons] at hins
    rw [← List.append_assoc (Ota.pairs xs), List.append_assoc (Ota.pairs xs ++ _)]
    exact hswap.trans ((hins.append_left _).append_left _).symm
  | @lost _ xs tail c hr _ _ _ =>
    rw [hr.list]
    simp only [pairs_append, pairs_cons, pairs_nil, List.append_nil, ← hcut hr]
    have hswap : (Ota.pairs left ++ (Ota.pairs xs ++ (c.take (P - totalLength xs)).pairs ++
        ((c.cutOff (P - totalLength xs)).pairs ++ Ota.pairs tail))).Perm _ := List.perm_append_comm
    simpa only [List.append_assoc] using hswap

theorem Takes.totalLength_cands (h : Takes P alloc head cands lost left) :
    totalLength cands = P := by
  cases h with
  | whole _ hlen => exact hlen
  | cut hr hcross _ => exact (hr.shortened hcross).length
  | lost hr hcross _ _ => exact (hr.shortened hcross).length

theorem length_pairs (l : List FlashBlock) : (Ota.pairs l).length = totalLength l := by
  induction l with
  | nil => rfl
  | cons b l ih =>
    rw [pairs_cons, List.length_append, ih, totalLength_cons, FlashBlock.pairs, List.length_zipIdx]
    rfl

theorem Takes.cands_ne (h : Takes P alloc head cands lost left) (hP : 0 < P) :
    Ota.pairs cands ≠ [] := by
  intro hnil
  have hlen := length_pairs cands
  rw [hnil, h.totalLength_cands] at hlen
  exact absurd hlen (Nat.ne_of_lt hP)

theorem Takes.lost_ne (h : Takes P alloc head cands lost left) (hlost : lost ≠ []) :
    Ota.pairs lost ≠ [] := by
  cases h with
  | whole _ _ => exact absurd rfl hlost
  | cut _ _ _ => exact absurd rfl hlost
  | @lost _ xs tail c hr hcross _ _ =>
    obtain ⟨hless, -⟩ := hr.searched.search_cut .served hr.fills hcross
    obtain ⟨ys, d, hys, hstart, -, hopen, -⟩ := hr.fills
    obtain ⟨rfl, hd⟩ := List.append_inj' hys rfl
    obtain rfl : c = d := List.singleton_inj.mp hd
    have hne := hcross.ne_length hr.adjoining hstart (totalLength_lt hopen)
    have hle := hr.cut_le
    intro hnil
    have hlen := length_pairs (c.cutOff (P - totalLength xs) :: tail)
    have hcut : (c.cutOff (P - totalLength xs)).length = c.length - (P - totalLength xs) :=
      List.length_drop
    rw [hnil, totalLength_cons, hcut, List.length_nil] at hlen
    omega

/-- Where nodes are lost the list ends before the page. -/
theorem Takes.stepsOff (h : Takes P alloc head cands lost left) (hlost : lost ≠ []) :
    Searched P left left [] := by
  cases h with
  | whole _ _ => exact absurd rfl hlost
  | cut _ _ _ => exact absurd rfl hlost
  | lost hr _ _ _ =>
    have halone := hr.searched.alone []
    rwa [List.append_nil] at halone

/-- The ways in which a pass can go. -/
inductive PassCase (P : Nat) (alloc : Allocation) (head : List FlashBlock) : Prop
  | unfilled (none : Unfilled P head)
  | fault (fault : Fault) (result : ∀ flashBlockArray : Buffer UInt8 P,
      FragmentNodes.assemble alloc head flashBlockArray true = .error fault)
  | takes (cands lost left : List FlashBlock) (takes : Takes P alloc head cands lost left)
  | wrong (page : WrongPage P head)

theorem pass_case (hP : 0 < P) (alloc : Allocation) (head : List FlashBlock) :
    PassCase P alloc head := by
  have hout := search_outcome alloc hP head
  generalize hsearch : search alloc P [] 0 head = result at hout
  have hfault : ∀ {fault : Fault}, search alloc P [] 0 head = .error fault →
      ∀ flashBlockArray : Buffer UInt8 P,
        FragmentNodes.assemble alloc head flashBlockArray true = .error fault := by
    intro fault h flashBlockArray
    rw [FragmentNodes.assemble, h]
    rfl
  cases hout with
  | stepsOff before as _ _ => exact .unfilled (unfilled_of_search hsearch)
  | ends before rest as _ _ _ => exact .unfilled (unfilled_of_search hsearch)
  | wraps before xs tail c _ _ _ _ => exact .fault _ (hfault hsearch)
  | whole before cs tail as _ hs hfills hlen =>
    by_cases hr : RightPage P head before cs tail
    · exact .takes _ _ _ (.whole hr hlen)
    · exact .wrong ⟨before, cs, tail, hs, hfills, Nat.le_of_eq hlen.symm, hr⟩
  | cut before xs tail c as _ hs hfills hcross hless hlong =>
    by_cases hr : RightPage P head before (xs ++ [c]) tail
    · obtain ⟨node, binary⟩ := alloc
      cases node with
      | false => exact .fault _ (hfault hsearch)
      | true =>
        cases binary with
        | false => exact .takes _ _ _ (.lost hr hcross rfl rfl)
        | true => exact .takes _ _ _ (.cut hr hcross rfl)
    · refine .wrong ⟨before, xs ++ [c], tail, hs, hfills, ?_, hr⟩
      rw [totalLength_append, totalLength_cons, totalLength_nil]
      omega

end takes

end FragmentNodes

section calls

variable {P : Nat} {s : CallState P} {block page : FlashBlock} {o : PassOutcome}
  {passes : List PassOutcome} {call : CallOutcome} {left : List FlashBlock} {a : Buffer UInt8 P}
  {as : List Access}

theorem assemblyLoop_none
    (hres : assemble o.cut s.fragmentedFlashBlockList s.flashBlockArray true =
      .ok ⟨(left, a, none), as⟩) :
    s.assemblyLoop block (o :: passes) =
      some (.ok (⟨left, a, s.xQueue⟩, toInt16 block.length)) := by
  rw [CallState.assemblyLoop, hres]

theorem assemblyLoop_page
    (hres : assemble o.cut s.fragmentedFlashBlockList s.flashBlockArray true =
      .ok ⟨(left, a, some page), as⟩) (hpacket : o.packet = true) :
    s.assemblyLoop block (o :: passes) =
      if o.send then CallState.assemblyLoop block passes ⟨left, a, s.xQueue ++ [page]⟩
      else some (.ok (⟨left, a, s.xQueue⟩, rOtaErrQueueSendFail)) := by
  rw [CallState.assemblyLoop, hres]
  simp only [hpacket, if_true]

theorem assemblyLoop_packet
    (hres : assemble o.cut s.fragmentedFlashBlockList s.flashBlockArray true =
      .ok ⟨(left, a, some page), as⟩) (hpacket : o.packet = false) :
    s.assemblyLoop block (o :: passes) = some (.error .nullWrite) := by
  rw [CallState.assemblyLoop, hres]
  simp only [hpacket, Bool.false_eq_true, if_false]

/-- The assembly loop comes to an end, whatever fails: each page takes weight off the list. -/
theorem assemblyLoop_isSome (hP : 0 < P) (block : FlashBlock)
    (h : weight s.fragmentedFlashBlockList < passes.length) :
    (s.assemblyLoop block passes).isSome := by
  induction passes generalizing s with
  | nil => cases h
  | cons o passes ih =>
    obtain ⟨as, hres⟩ | ⟨fault, hres⟩ | ⟨l, a, page, as, hres, hless⟩ :=
      assemble_cases hP o.cut s.fragmentedFlashBlockList s.flashBlockArray
    · rw [assemblyLoop_none hres]
      rfl
    · rw [CallState.assemblyLoop, hres]
      rfl
    · cases hpacket : o.packet with
      | false =>
        rw [assemblyLoop_packet hres hpacket]
        rfl
      | true =>
        rw [assemblyLoop_page hres hpacket]
        split
        · exact ih (Nat.lt_of_lt_of_le hless (Nat.le_of_lt_succ h))
        · rfl

theorem otaPalWriteBlock_lost (hunaligned : ¬ (block.offset % P = 0 ∧ block.length % P = 0))
    (hnode : call.fragment.node = true) (hbinary : call.fragment.binary = false) :
    s.otaPalWriteBlock call block =
      some (.ok (⟨[], s.flashBlockArray, s.xQueue⟩, toInt16 block.length)) := by
  rw [CallState.otaPalWriteBlock, if_neg hunaligned, insert_lost _ block hnode hbinary]
  rfl

theorem otaPalWriteBlock_inserted (hunaligned : ¬ (block.offset % P = 0 ∧ block.length % P = 0))
    (hmemory : call.fragment = .served) :
    s.otaPalWriteBlock call block =
      CallState.assemblyLoop block call.passes { s with
        fragmentedFlashBlockList :=
          FragmentedFlashBlockList.insert s.fragmentedFlashBlockList block } := by
  have hne : FragmentedFlashBlockList.insert s.fragmentedFlashBlockList block ≠ [] :=
    List.ne_nil_of_mem (mem_insert.mpr (.inl rfl))
  rw [CallState.otaPalWriteBlock, if_neg hunaligned, hmemory, insert_accesses]
  simp only [if_neg hne]

theorem otaPalWriteBlock_isSome (hP : 0 < P) (s : CallState P) (block : FlashBlock)
    (h : weight (block :: s.fragmentedFlashBlockList) < call.passes.length) :
    (s.otaPalWriteBlock call block).isSome := by
  by_cases haligned : block.offset % P = 0 ∧ block.length % P = 0
  · rw [CallState.otaPalWriteBlock, if_pos haligned]
    split
    · split <;> rfl
    · rfl
  · obtain ⟨⟨node, binary⟩, packet, send, passes⟩ := call
    cases node with
    | false =>
      rw [CallState.otaPalWriteBlock, if_neg haligned]
      rfl
    | true =>
      cases binary with
      | false =>
        rw [otaPalWriteBlock_lost haligned rfl rfl]
        rfl
      | true =>
        rw [otaPalWriteBlock_inserted haligned rfl]
        apply assemblyLoop_isSome hP
        rwa [weight_perm (insert_perm s.fragmentedFlashBlockList block)]

end calls

end RenesasDemo.Ota
