import RenesasDemo.Ota.WriteOutcomes

namespace RenesasDemo.Ota

open Framework FragmentedFlashBlockList FragmentNodes

/-- A call that returns the block size adds the bytes of the block to those in the queue and in the
list. Any other leaves there what was there: it loses nothing, and nothing stays behind that a
repetition would put there a second time. -/
structure Keeps {P : Nat} (s : CallState P) (block : FlashBlock) (s' : CallState P)
    (sNumBytesWritten : Int) : Prop where
  accepted : sNumBytesWritten = block.length → s'.pairs.Perm (s.pairs ++ block.pairs)
  refused : sNumBytesWritten ≠ block.length → s'.pairs.Perm s.pairs

def CallKeeps {P : Nat} (o : CallOutcome) (s : CallState P) (block : FlashBlock) : Prop :=
  ∃ s' sNumBytesWritten, s.otaPalWriteBlock o block = some (.ok (s', sNumBytesWritten)) ∧
    Keeps s block s' sNumBytesWritten

/-- The loop takes fragments for pages that are right, with memory for what it cuts off and for the
packets, and the queue takes them all, until no scan takes a page. -/
inductive LoopSends (P : Nat) : List PassOutcome → List FlashBlock → Prop
  | unfilled {o : PassOutcome} {passes : List PassOutcome} {head : List FlashBlock}
      (none : Unfilled P head) : LoopSends P (o :: passes) head
  | sent {o : PassOutcome} {passes : List PassOutcome} {head cands left : List FlashBlock}
      (takes : Takes P o.cut head cands [] left) (packet : o.packet = true) (send : o.send = true)
      (rest : LoopSends P passes left) : LoopSends P (o :: passes) head

/-- What a call has to meet. -/
inductive CallFits {P : Nat} (o : CallOutcome) (s : CallState P) (block : FlashBlock) : Prop
  | aligned (aligned : block.offset % P = 0 ∧ block.length % P = 0)
      (packet : o.packet = true ∨ block.length = 0)
      (short : o.send = true → block.length < 2 ^ 15)
  | assembled (unaligned : ¬ (block.offset % P = 0 ∧ block.length % P = 0))
      (memory : o.fragment = .served) (short : block.length < 2 ^ 15)
      (passes : LoopSends P o.passes
        (FragmentedFlashBlockList.insert s.fragmentedFlashBlockList block))

/-- The assembly loop comes to a page that is not right. -/
inductive LoopMeetsWrong (P : Nat) : List PassOutcome → List FlashBlock → Prop
  | here {o : PassOutcome} {passes : List PassOutcome} {head : List FlashBlock}
      (page : WrongPage P head) : LoopMeetsWrong P (o :: passes) head
  | later {o : PassOutcome} {passes : List PassOutcome} {head cands left : List FlashBlock}
      (takes : Takes P o.cut head cands [] left) (packet : o.packet = true) (send : o.send = true)
      (rest : LoopMeetsWrong P passes left) : LoopMeetsWrong P (o :: passes) head

/-- The loop drops these bytes: a page that the queue refuses, and what there is no memory for. -/
inductive LoopDrops (P : Nat) :
    List PassOutcome → List FlashBlock → List (UInt8 × Nat) → Prop
  | refused {o : PassOutcome} {passes : List PassOutcome} {head cands lost left : List FlashBlock}
      (takes : Takes P o.cut head cands lost left) (packet : o.packet = true)
      (send : o.send = false) : LoopDrops P (o :: passes) head (pairs cands ++ pairs lost)
  | incomplete {o o' : PassOutcome} {passes : List PassOutcome}
      {head cands lost left : List FlashBlock} (takes : Takes P o.cut head cands lost left)
      (loses : lost ≠ []) (packet : o.packet = true) (send : o.send = true) :
      LoopDrops P (o :: o' :: passes) head (pairs lost)
  | later {o : PassOutcome} {passes : List PassOutcome} {head cands left : List FlashBlock}
      {dropped : List (UInt8 × Nat)} (takes : Takes P o.cut head cands [] left)
      (packet : o.packet = true) (send : o.send = true) (rest : LoopDrops P passes left dropped) :
      LoopDrops P (o :: passes) head dropped

/-- The call comes to a page that is not right. -/
def MeetsWrong {P : Nat} (o : CallOutcome) (s : CallState P) (block : FlashBlock) : Prop :=
  ¬ (block.offset % P = 0 ∧ block.length % P = 0) ∧ o.fragment = .served ∧
    LoopMeetsWrong P o.passes (FragmentedFlashBlockList.insert s.fragmentedFlashBlockList block)

/-- The call drops a page or a fragment, and in it the bytes of its own block and no others. -/
inductive DropsOwn {P : Nat} (o : CallOutcome) (s : CallState P) (block : FlashBlock) : Prop
  | fragment (unaligned : ¬ (block.offset % P = 0 ∧ block.length % P = 0))
      (node : o.fragment.node = true) (binary : o.fragment.binary = false)
      (own : pairs s.fragmentedFlashBlockList = [])
  | page (unaligned : ¬ (block.offset % P = 0 ∧ block.length % P = 0))
      (memory : o.fragment = .served) (dropped : List (UInt8 × Nat))
      (drops : LoopDrops P o.passes
        (FragmentedFlashBlockList.insert s.fragmentedFlashBlockList block) dropped)
      (own : dropped.Perm block.pairs)

section passes

variable {P : Nat} {s s' : CallState P} {block page : FlashBlock} {o : PassOutcome}
  {passes : List PassOutcome} {cands lost left head : List FlashBlock} {a : Buffer UInt8 P}
  {ret : Int}

@[simp] theorem CallState.pairs_mk (l xQueue : List FlashBlock) (a : Buffer UInt8 P) :
    (⟨l, a, xQueue⟩ : CallState P).pairs = Ota.pairs xQueue ++ Ota.pairs l := pairs_append ..

theorem CallState.pairs_eq (s : CallState P) :
    s.pairs = Ota.pairs s.xQueue ++ Ota.pairs s.fragmentedFlashBlockList := pairs_append ..

theorem pairs_enqueue (s : CallState P) (page : FlashBlock) :
    pairs (s.xQueue ++ [page]) = pairs s.xQueue ++ page.pairs := by
  rw [pairs_append, pairs_cons, pairs_nil, List.append_nil]

theorem pairs_insert (s : CallState P) (block : FlashBlock) :
    CallState.pairs { s with
      fragmentedFlashBlockList :=
        FragmentedFlashBlockList.insert s.fragmentedFlashBlockList block } |>.Perm
      (s.pairs ++ block.pairs) := by
  have hins := pairs_perm (insert_perm s.fragmentedFlashBlockList block)
  rw [CallState.pairs_mk, s.pairs_eq, List.append_assoc]
  refine List.Perm.append_left _ (hins.trans ?_)
  rw [pairs_cons]
  exact List.perm_append_comm

/-- What a page that is sent leaves in the queue and in the list. -/
theorem FragmentNodes.Takes.perm_sent
    (h : Takes P o.cut s.fragmentedFlashBlockList cands lost left)
    (hpage : page.pairs = pairs cands) :
    (CallState.pairs ⟨left, a, s.xQueue ++ [page]⟩ ++ pairs lost).Perm s.pairs := by
  have hsplit : (pairs lost ++ pairs left).Perm (pairs left ++ pairs lost) := List.perm_append_comm
  rw [CallState.pairs_mk, s.pairs_eq, pairs_enqueue s page, hpage, List.append_assoc,
    List.append_assoc]
  exact ((h.pairs_perm.trans (hsplit.append_left _)).append_left _).symm

theorem FragmentNodes.Takes.perm_refused
    (h : Takes P o.cut s.fragmentedFlashBlockList cands lost left) :
    (CallState.pairs ⟨left, a, s.xQueue⟩ ++ (pairs cands ++ pairs lost)).Perm s.pairs := by
  have hsplit : (pairs cands ++ pairs lost ++ pairs left).Perm
      (pairs left ++ (pairs cands ++ pairs lost)) := List.perm_append_comm
  rw [CallState.pairs_mk, s.pairs_eq, List.append_assoc]
  rw [List.append_assoc] at hsplit
  exact ((h.pairs_perm.trans hsplit).append_left _).symm

/-- What such a loop makes of a list, whatever the static array and the queue hold. -/
theorem LoopSends.loop (hP : 0 < P) (h : LoopSends P passes head) :
    ∃ final sent, (sent ++ pairs final).Perm (pairs head) ∧
      ∀ (s : CallState P) (block : FlashBlock), s.fragmentedFlashBlockList = head →
        ∃ s', s.assemblyLoop block passes = some (.ok (s', toInt16 block.length)) ∧
          s'.fragmentedFlashBlockList = final ∧ pairs s'.xQueue = pairs s.xQueue ++ sent := by
  induction h with
  | @unfilled o passes head hnone =>
    refine ⟨head, [], .refl _, ?_⟩
    rintro s block rfl
    obtain ⟨as, hres⟩ := hnone.assemble hP o.cut s.flashBlockArray
    exact ⟨_, assemblyLoop_none hres, rfl, (List.append_nil _).symm⟩
  | @sent o passes head cands left htakes hpacket hsend _ ih =>
    obtain ⟨final, sent, hperm, hloop⟩ := ih
    refine ⟨final, pairs cands ++ sent, ?_, ?_⟩
    · rw [List.append_assoc]
      exact (hperm.append_left _).trans htakes.pairs_perm.symm
    · rintro s block rfl
      obtain ⟨a, page, as, hres, hpage⟩ := htakes.assemble hP s.flashBlockArray
      obtain ⟨s', hend, hfinal, hqueue⟩ := hloop ⟨left, a, s.xQueue ++ [page]⟩ block rfl
      refine ⟨s', ?_, hfinal, ?_⟩
      · rw [assemblyLoop_page hres hpacket, if_pos hsend, hend]
      · rw [hqueue, pairs_enqueue s page, hpage, List.append_assoc]

/-- How a loop can go that comes to its end. -/
inductive LoopCase (P : Nat) (passes : List PassOutcome) (s s' : CallState P) : Prop
  | sends (sends : LoopSends P passes s.fragmentedFlashBlockList)
  | wrong (wrong : LoopMeetsWrong P passes s.fragmentedFlashBlockList)
  | drops (dropped : List (UInt8 × Nat)) (ne : dropped ≠ [])
      (drops : LoopDrops P passes s.fragmentedFlashBlockList dropped)
      (perm : (s'.pairs ++ dropped).Perm s.pairs)

theorem loop_case (hP : 0 < P) (hloop : s.assemblyLoop block passes = some (.ok (s', ret))) :
    LoopCase P passes s s' := by
  induction passes generalizing s with
  | nil => cases hloop
  | cons o passes ih =>
    cases pass_case hP o.cut s.fragmentedFlashBlockList with
    | unfilled hnone => exact .sends (.unfilled hnone)
    | fault fault hres =>
      rw [CallState.assemblyLoop, hres] at hloop
      cases hloop
    | wrong hwrong => exact .wrong (.here hwrong)
    | takes cands lost left htakes =>
      obtain ⟨a, page, as, hres, hpage⟩ := htakes.assemble hP s.flashBlockArray
      cases hpacket : o.packet with
      | false =>
        rw [assemblyLoop_packet hres hpacket] at hloop
        cases hloop
      | true =>
        rw [assemblyLoop_page hres hpacket] at hloop
        cases hsend : o.send with
        | false =>
          rw [hsend, if_neg Bool.false_ne_true] at hloop
          obtain ⟨rfl, rfl⟩ := Prod.mk.inj (Except.ok.inj (Option.some.inj hloop))
          refine .drops _ ?_ (.refused htakes hpacket hsend) htakes.perm_refused
          exact fun hnil => htakes.cands_ne hP (List.append_eq_nil_iff.mp hnil).1
        | true =>
          rw [if_pos hsend] at hloop
          have hperm := htakes.perm_sent (a := a) hpage
          by_cases hlost : lost = []
          · subst hlost
            rw [pairs_nil, List.append_nil] at hperm
            cases ih hloop with
            | sends hsends => exact .sends (.sent htakes hpacket hsend hsends)
            | wrong hwrong => exact .wrong (.later htakes hpacket hsend hwrong)
            | drops dropped hne hdrops hrest =>
              exact .drops dropped hne (.later htakes hpacket hsend hdrops) (hrest.trans hperm)
          · cases passes with
            | nil => cases hloop
            | cons o' passes =>
              obtain ⟨bs, hend⟩ := (htakes.stepsOff hlost).assemble_stepsOff o'.cut a
              rw [assemblyLoop_none hend] at hloop
              obtain ⟨rfl, rfl⟩ := Prod.mk.inj (Except.ok.inj (Option.some.inj hloop))
              exact .drops _ (htakes.lost_ne hlost) (.incomplete htakes hlost hpacket hsend) hperm

end passes

section call

variable {P : Nat} {s s' : CallState P} {block : FlashBlock} {o : CallOutcome} {ret : Int}

theorem refused_ne (n : Nat) : rOtaErrQueueSendFail ≠ (n : Int) := by
  rw [rOtaErrQueueSendFail]
  omega

theorem pairs_enqueued (s : CallState P) (block : FlashBlock) :
    (CallState.pairs { s with xQueue := s.xQueue ++ [block] }).Perm (s.pairs ++ block.pairs) := by
  rw [CallState.pairs_mk, s.pairs_eq, pairs_enqueue, List.append_assoc, List.append_assoc]
  exact List.perm_append_comm.append_left _

/-- A call that puts its block there keeps the bytes if it returns the block size. -/
theorem keeps_of_perm (hperm : s'.pairs.Perm (s.pairs ++ block.pairs))
    (hshort : block.length < 2 ^ 15) : Keeps s block s' (toInt16 block.length) :=
  ⟨fun _ => hperm, fun hne => absurd ((toInt16_eq_iff _).mpr hshort) hne⟩

theorem short_of_keeps (hperm : s'.pairs.Perm (s.pairs ++ block.pairs))
    (hkeeps : Keeps s block s' (toInt16 block.length)) : block.length < 2 ^ 15 := by
  by_contra hlong
  have hne : toInt16 block.length ≠ block.length := fun heq => hlong ((toInt16_eq_iff _).mp heq)
  have hlen := (hperm.symm.trans (hkeeps.refused hne)).length_eq
  have hpairs : block.pairs.length = block.length := List.length_zipIdx
  rw [List.length_append, hpairs] at hlen
  omega

/-- A call that drops bytes and keeps those that were there has dropped its own. -/
theorem own_of_keeps {dropped : List (UInt8 × Nat)}
    (hperm : (s'.pairs ++ dropped).Perm (s.pairs ++ block.pairs))
    (hkeeps : Keeps s block s' ret) : dropped = [] ∨ dropped.Perm block.pairs := by
  by_cases haccepted : ret = block.length
  · left
    have hlen := (hperm.trans (hkeeps.accepted haccepted).symm).length_eq
    rw [List.length_append] at hlen
    exact List.eq_nil_of_length_eq_zero (by omega)
  · right
    have hsame := (hkeeps.refused haccepted).symm.append_right dropped
    exact (List.perm_append_left_iff _).mp (hsame.trans hperm)

theorem CallFits.keeps (h : CallFits o s block) (hP : 0 < P) : CallKeeps o s block := by
  cases h with
  | aligned haligned hpacket hshort =>
    rw [CallKeeps, CallState.otaPalWriteBlock, if_pos haligned, if_pos hpacket]
    cases hsend : o.send with
    | false =>
      refine ⟨s, rOtaErrQueueSendFail, rfl, ?_, fun _ => .refl _⟩
      exact fun hret => absurd hret (refused_ne block.length)
    | true => exact ⟨_, _, rfl, keeps_of_perm (pairs_enqueued s block) (hshort hsend)⟩
  | assembled hunaligned hmemory hshort hpasses =>
    obtain ⟨final, sent, hperm, hloop⟩ := hpasses.loop hP
    obtain ⟨s', hend, rfl, hqueue⟩ := hloop { s with
      fragmentedFlashBlockList :=
        FragmentedFlashBlockList.insert s.fragmentedFlashBlockList block } block rfl
    rw [CallKeeps, otaPalWriteBlock_inserted hunaligned hmemory]
    refine ⟨s', _, hend, keeps_of_perm ?_ hshort⟩
    refine List.Perm.trans ?_ (pairs_insert s block)
    rw [s'.pairs_eq, hqueue, CallState.pairs_mk, List.append_assoc]
    exact hperm.append_left _

/-- A call that keeps the bytes meets the condition, or it comes to a page that is not right, or all
that it drops is its own block. -/
theorem CallKeeps.fits (h : CallKeeps o s block) (hP : 0 < P) :
    CallFits o s block ∨ MeetsWrong o s block ∨ DropsOwn o s block := by
  obtain ⟨s', ret, hcall, hkeeps⟩ := h
  by_cases haligned : block.offset % P = 0 ∧ block.length % P = 0
  · rw [CallState.otaPalWriteBlock, if_pos haligned] at hcall
    by_cases hpacket : o.packet = true ∨ block.length = 0
    · refine .inl (.aligned haligned hpacket fun hsend => ?_)
      rw [if_pos hpacket, if_pos hsend] at hcall
      obtain ⟨rfl, rfl⟩ := Prod.mk.inj (Except.ok.inj (Option.some.inj hcall))
      exact short_of_keeps (pairs_enqueued s block) hkeeps
    · rw [if_neg hpacket] at hcall
      cases hcall
  · obtain ⟨⟨node, binary⟩, packet, send, passes⟩ := o
    cases node with
    | false =>
      rw [CallState.otaPalWriteBlock, if_neg haligned] at hcall
      cases hcall
    | true =>
      cases binary with
      | false =>
        rw [otaPalWriteBlock_lost haligned rfl rfl] at hcall
        obtain ⟨rfl, rfl⟩ := Prod.mk.inj (Except.ok.inj (Option.some.inj hcall))
        have hperm : (CallState.pairs ⟨[], s.flashBlockArray, s.xQueue⟩ ++
            (pairs s.fragmentedFlashBlockList ++ block.pairs)).Perm (s.pairs ++ block.pairs) := by
          rw [CallState.pairs_mk, pairs_nil, List.append_nil, s.pairs_eq, List.append_assoc]
        refine .inr (.inr (.fragment haligned rfl rfl ?_))
        obtain hnil | hown := own_of_keeps hperm hkeeps
        · exact (List.append_eq_nil_iff.mp hnil).1
        · have hlen := hown.length_eq
          rw [List.length_append] at hlen
          exact List.eq_nil_of_length_eq_zero (by omega)
      | true =>
        rw [otaPalWriteBlock_inserted haligned rfl] at hcall
        cases loop_case hP hcall with
        | sends hsends =>
          obtain ⟨final, sent, hperm, hloop⟩ := hsends.loop hP
          obtain ⟨s'', hend, rfl, hqueue⟩ := hloop { s with
            fragmentedFlashBlockList :=
              FragmentedFlashBlockList.insert s.fragmentedFlashBlockList block } block rfl
          rw [hend] at hcall
          obtain ⟨rfl, rfl⟩ := Prod.mk.inj (Except.ok.inj (Option.some.inj hcall))
          refine .inl (.assembled haligned rfl (short_of_keeps ?_ hkeeps) hsends)
          refine List.Perm.trans ?_ (pairs_insert s block)
          rw [s''.pairs_eq, hqueue, CallState.pairs_mk, List.append_assoc]
          exact hperm.append_left _
        | wrong hwrong => exact .inr (.inl ⟨haligned, rfl, hwrong⟩)
        | drops dropped hne hdrops hperm =>
          obtain hnil | hown := own_of_keeps (hperm.trans (pairs_insert s block)) hkeeps
          · exact absurd hnil hne
          · exact .inr (.inr (.page haligned rfl dropped hdrops hown))

end call

section flashed

variable {P : Nat} {l : List FlashBlock} {flash : Nat → UInt8} {b : UInt8} {i : Nat}

/-- No two different bytes for one position. -/
def OneImage (bytes : List (UInt8 × Nat)) : Prop :=
  ∀ p ∈ bytes, ∀ q ∈ bytes, p.2 = q.2 → p.1 = q.1

/-- What the flashing task makes of the packets. -/
def flashPackets (flash : Nat → UInt8) (packets : List FlashBlock) : Nat → UInt8 :=
  packets.foldl (fun flash packet => overwrite flash packet.offset packet.binary) flash

theorem overwrite_of_pair {packet : FlashBlock} (h : (b, i) ∈ packet.pairs) :
    overwrite flash packet.offset packet.binary i = b := by
  obtain ⟨hle, hget⟩ := List.mk_mem_zipIdx_iff_le_and_getElem?_sub.mp h
  rw [overwrite, if_pos hle, hget]
  rfl

theorem overwrite_of_no_pair {packet : FlashBlock} (h : ∀ b, (b, i) ∉ packet.pairs) :
    overwrite flash packet.offset packet.binary i = flash i := by
  rw [overwrite]
  split
  · next hle =>
    cases hget : packet.binary[i - packet.offset]? with
    | none => rfl
    | some b => exact absurd (List.mk_mem_zipIdx_iff_le_and_getElem?_sub.mpr ⟨hle, hget⟩) (h b)
  · rfl

theorem flashPackets_of_no_pair (h : ∀ b, (b, i) ∉ pairs l) : flashPackets flash l i = flash i := by
  induction l generalizing flash with
  | nil => rfl
  | cons packet l ih =>
    have hrest : flashPackets (overwrite flash packet.offset packet.binary) l i =
        overwrite flash packet.offset packet.binary i :=
      ih fun b hb => h b (List.mem_append_right _ hb)
    exact hrest.trans (overwrite_of_no_pair fun b hb => h b (List.mem_append_left _ hb))

/-- Each byte is flashed at its position. -/
theorem flashPackets_of_pair (h : (b, i) ∈ pairs l) (himage : OneImage (pairs l)) :
    flashPackets flash l i = b := by
  induction l generalizing flash with
  | nil => cases h
  | cons packet l ih =>
    have hrest : OneImage (pairs l) := fun p hp q hq =>
      himage p (List.mem_append_right _ hp) q (List.mem_append_right _ hq)
    by_cases hlater : ∃ c, (c, i) ∈ pairs l
    · obtain ⟨c, hc⟩ := hlater
      obtain rfl : b = c := himage (b, i) h (c, i) (List.mem_append_right _ hc) rfl
      exact ih hc hrest
    · have hnone : ∀ c, (c, i) ∉ pairs l := fun c hc => hlater ⟨c, hc⟩
      have hfirst : (b, i) ∈ packet.pairs :=
        (List.mem_append.mp h).resolve_right (hnone b)
      exact (flashPackets_of_no_pair hnone).trans (overwrite_of_pair hfirst)

/-- The order of the packets does not matter for bytes of one image. -/
theorem flashPackets_perm {l' : List FlashBlock} (hperm : (pairs l).Perm (pairs l'))
    (himage : OneImage (pairs l)) : flashPackets flash l = flashPackets flash l' := by
  have himage' : OneImage (pairs l') := fun p hp q hq =>
    himage p (hperm.mem_iff.mpr hp) q (hperm.mem_iff.mpr hq)
  funext i
  by_cases hpair : ∃ b, (b, i) ∈ pairs l
  · obtain ⟨b, hb⟩ := hpair
    rw [flashPackets_of_pair hb himage, flashPackets_of_pair (hperm.mem_iff.mp hb) himage']
  · have hnone : ∀ b, (b, i) ∉ pairs l := fun b hb => hpair ⟨b, hb⟩
    have hnone' : ∀ b, (b, i) ∉ pairs l' := fun b hb => hpair ⟨b, hperm.mem_iff.mpr hb⟩
    rw [flashPackets_of_no_pair hnone, flashPackets_of_no_pair hnone']

end flashed

section run

variable {P : Nat} {s s1 t : CallState P} {call : WriteResult} {calls xs ys zs : List WriteResult}
  {block : FlashBlock} {ret : Int}

/-- A call that meets the condition, with what it returns. -/
def FittingCall (s : CallState P) (call : WriteResult) (t : CallState P) : Prop :=
  ∃ o, CallFits o s call.block ∧
    s.otaPalWriteBlock o call.block = some (.ok (t, call.sNumBytesWritten))

/-- The same list, and the same bytes added to the queue. -/
def SameEffect (s t s1 t1 : CallState P) : Prop :=
  t1.fragmentedFlashBlockList = t.fragmentedFlashBlockList ∧
    ∃ sent, pairs t.xQueue = pairs s.xQueue ++ sent ∧ pairs t1.xQueue = pairs s1.xQueue ++ sent

theorem FittingCall.replay (h : FittingCall s call t) (hP : 0 < P)
    (hlist : s1.fragmentedFlashBlockList = s.fragmentedFlashBlockList) :
    ∃ t1, FittingCall s1 call t1 ∧ SameEffect s t s1 t1 := by
  obtain ⟨o, hfits, hcall⟩ := h
  cases hfits with
  | aligned haligned hpacket hshort =>
    have hfits : CallFits o s1 call.block := .aligned haligned hpacket hshort
    rw [CallState.otaPalWriteBlock, if_pos haligned, if_pos hpacket] at hcall
    cases hsend : o.send with
    | false =>
      rw [hsend, if_neg Bool.false_ne_true] at hcall
      obtain ⟨rfl, hret⟩ := Prod.mk.inj (Except.ok.inj (Option.some.inj hcall))
      refine ⟨s1, ⟨o, hfits, ?_⟩, hlist, [], by simp, by simp⟩
      rw [CallState.otaPalWriteBlock, if_pos haligned, if_pos hpacket, hsend,
        if_neg Bool.false_ne_true, hret]
    | true =>
      rw [if_pos hsend] at hcall
      obtain ⟨rfl, hret⟩ := Prod.mk.inj (Except.ok.inj (Option.some.inj hcall))
      refine ⟨{ s1 with xQueue := s1.xQueue ++ [call.block] }, ⟨o, hfits, ?_⟩, hlist,
        call.block.pairs, pairs_enqueue s call.block, pairs_enqueue s1 call.block⟩
      rw [CallState.otaPalWriteBlock, if_pos haligned, if_pos hpacket, if_pos hsend, hret]
  | assembled hunaligned hmemory hshort hpasses =>
    obtain ⟨final, sent, -, hloop⟩ := hpasses.loop hP
    obtain ⟨t', hend, hfinal, hqueue⟩ := hloop { s with
      fragmentedFlashBlockList :=
        FragmentedFlashBlockList.insert s.fragmentedFlashBlockList call.block } call.block rfl
    obtain ⟨t1, hend1, hfinal1, hqueue1⟩ := hloop { s1 with
      fragmentedFlashBlockList := FragmentedFlashBlockList.insert s1.fragmentedFlashBlockList
        call.block } call.block (by rw [hlist])
    rw [otaPalWriteBlock_inserted hunaligned hmemory, hend] at hcall
    obtain ⟨rfl, hret⟩ := Prod.mk.inj (Except.ok.inj (Option.some.inj hcall))
    refine ⟨t1, ⟨o, .assembled hunaligned hmemory hshort (by rwa [hlist]), ?_⟩,
      hfinal1.trans hfinal.symm, sent, hqueue, hqueue1⟩
    rw [otaPalWriteBlock_inserted hunaligned hmemory, hend1, hret]

/-- What calls make of the list and add to the queue depends on the list alone. -/
theorem replay (hP : 0 < P) (h : Run FittingCall s calls t)
    (hlist : s1.fragmentedFlashBlockList = s.fragmentedFlashBlockList) :
    ∃ t1, Run FittingCall s1 calls t1 ∧ SameEffect s t s1 t1 := by
  induction h with
  | refl => exact ⟨s1, .refl s1, hlist, [], by simp, by simp⟩
  | @tail t u calls call _ hstep ih =>
    obtain ⟨t1, hrun, hsame, sent, hqueue, hqueue1⟩ := ih
    obtain ⟨u1, hstep1, hsame1, sent1, hstepped, hstepped1⟩ := hstep.replay hP hsame
    refine ⟨u1, hrun.tail hstep1, hsame1, sent ++ sent1, ?_, ?_⟩
    · rw [hstepped, hqueue, List.append_assoc]
    · rw [hstepped1, hqueue1, List.append_assoc]

/-- Only a block of whole pages is refused, and its call changes nothing. -/
theorem FittingCall.of_refused (h : FittingCall s ⟨block, ret⟩ t) (hP : 0 < P)
    (hrefused : ret ≠ block.length) :
    t = s ∧ block.offset % P = 0 ∧ block.length % P = 0 := by
  obtain ⟨o, hfits, hcall⟩ := h
  cases hfits with
  | aligned haligned hpacket hshort =>
    rw [CallState.otaPalWriteBlock, if_pos haligned, if_pos hpacket] at hcall
    cases hsend : o.send with
    | false =>
      rw [hsend, if_neg Bool.false_ne_true] at hcall
      exact ⟨(Prod.mk.inj (Except.ok.inj (Option.some.inj hcall))).1.symm, haligned⟩
    | true =>
      rw [if_pos hsend] at hcall
      have hret := (Prod.mk.inj (Except.ok.inj (Option.some.inj hcall))).2
      exact absurd (hret.symm.trans ((toInt16_eq_iff _).mpr (hshort hsend))) hrefused
  | assembled hunaligned hmemory hshort hpasses =>
    obtain ⟨final, sent, -, hloop⟩ := hpasses.loop hP
    obtain ⟨t', hend, -⟩ := hloop { s with
      fragmentedFlashBlockList :=
        FragmentedFlashBlockList.insert s.fragmentedFlashBlockList block } block rfl
    rw [otaPalWriteBlock_inserted hunaligned hmemory, hend] at hcall
    have hret := (Prod.mk.inj (Except.ok.inj (Option.some.inj hcall))).2
    exact absurd (hret.symm.trans ((toInt16_eq_iff _).mpr hshort)) hrefused

/-- A block of whole pages that is accepted is the next packet, in whatever state. -/
theorem FittingCall.of_accepted (h : FittingCall s ⟨block, block.length⟩ t)
    (haligned : block.offset % P = 0 ∧ block.length % P = 0) :
    t = { s with xQueue := s.xQueue ++ [block] } ∧
      ∀ s1 : CallState P,
        FittingCall s1 ⟨block, block.length⟩ { s1 with xQueue := s1.xQueue ++ [block] } := by
  obtain ⟨o, hfits, hcall⟩ := h
  cases hfits with
  | aligned _ hpacket hshort =>
    rw [CallState.otaPalWriteBlock, if_pos haligned, if_pos hpacket] at hcall
    cases hsend : o.send with
    | false =>
      rw [hsend, if_neg Bool.false_ne_true] at hcall
      have hret := (Prod.mk.inj (Except.ok.inj (Option.some.inj hcall))).2
      exact absurd hret (refused_ne block.length)
    | true =>
      rw [if_pos hsend] at hcall
      obtain ⟨ht, hret⟩ := Prod.mk.inj (Except.ok.inj (Option.some.inj hcall))
      refine ⟨ht.symm, fun s1 => ⟨o, .aligned haligned hpacket hshort, ?_⟩⟩
      rw [CallState.otaPalWriteBlock, if_pos haligned, if_pos hpacket, if_pos hsend, hret]
  | assembled hunaligned => exact absurd haligned hunaligned

/-- A block that is refused and written again later could as well have been accepted at first: the
list is the same in the end, and so are the bytes in the queue. -/
theorem repeated_call (hP : 0 < P)
    (h : Run FittingCall s (xs ++ ⟨block, ret⟩ :: (ys ++ ⟨block, block.length⟩ :: zs)) t)
    (hrefused : ret ≠ block.length) :
    ∃ t', Run FittingCall s (xs ++ ⟨block, block.length⟩ :: (ys ++ zs)) t' ∧
      t'.fragmentedFlashBlockList = t.fragmentedFlashBlockList ∧
      (pairs t'.xQueue).Perm (pairs t.xQueue) := by
  obtain ⟨a, hxs, hrest⟩ := h.append_inv
  obtain ⟨a', hfirst, hrest⟩ := hrest.cons_inv
  obtain ⟨b, hys, hrest⟩ := hrest.append_inv
  obtain ⟨c, hsecond, hzs⟩ := hrest.cons_inv
  obtain ⟨rfl, haligned⟩ := hfirst.of_refused hP hrefused
  obtain ⟨rfl, haccepted⟩ := hsecond.of_accepted haligned
  -- the calls in between do the same behind the block as in front of it
  have hlist : CallState.fragmentedFlashBlockList { a' with xQueue := a'.xQueue ++ [block] } =
      a'.fragmentedFlashBlockList := rfl
  obtain ⟨b', hys', hlist, sent, hsent, hsent'⟩ := replay hP hys hlist
  obtain ⟨t', hzs', hlist', sent', hend, hend'⟩ := replay hP hzs hlist
  refine ⟨t', hxs.append (.cons (haccepted a') (hys'.append hzs')), hlist', ?_⟩
  have hswap : (block.pairs ++ sent).Perm (sent ++ block.pairs) := List.perm_append_comm
  rw [hend', hend, hsent', pairs_enqueue b, hsent, pairs_enqueue a']
  simpa only [List.append_assoc] using
    (hswap.append_left (pairs a'.xQueue)).append_right sent'

theorem FittingCall.keeps (h : FittingCall s call t) (hP : 0 < P) :
    Keeps s call.block t call.sNumBytesWritten := by
  obtain ⟨o, hfits, hcall⟩ := h
  obtain ⟨s', ret, hres, hkeeps⟩ := hfits.keeps hP
  rw [hcall] at hres
  obtain ⟨rfl, rfl⟩ := Prod.mk.inj (Except.ok.inj (Option.some.inj hres))
  exact hkeeps

/-- The bytes of the blocks that were accepted. -/
def acceptedPairs (calls : List WriteResult) : List (UInt8 × Nat) :=
  (calls.filter fun call => call.sNumBytesWritten = call.block.length).flatMap
    fun call => call.block.pairs

theorem acceptedPairs_append (xs ys : List WriteResult) :
    acceptedPairs (xs ++ ys) = acceptedPairs xs ++ acceptedPairs ys := by
  rw [acceptedPairs, List.filter_append, List.flatMap_append]
  rfl

theorem acceptedPairs_subset (calls : List WriteResult) :
    acceptedPairs calls ⊆ calls.flatMap fun call => call.block.pairs := by
  intro p hp
  obtain ⟨call, hcall, hp⟩ := List.mem_flatMap.mp hp
  exact List.mem_flatMap.mpr ⟨call, List.mem_of_mem_filter hcall, hp⟩

/-- What is there in the end is what was there and what was accepted. -/
theorem pairs_of_run (hP : 0 < P) (h : Run FittingCall s calls t) :
    t.pairs.Perm (s.pairs ++ acceptedPairs calls) := by
  induction h with
  | refl => exact .of_eq (List.append_nil _).symm
  | @tail t u calls call _ hstep ih =>
    have hkeeps := hstep.keeps hP
    rw [acceptedPairs_append, ← List.append_assoc]
    by_cases haccepted : call.sNumBytesWritten = call.block.length
    · have hone : acceptedPairs [call] = call.block.pairs := by simp [acceptedPairs, haccepted]
      rw [hone]
      exact (hkeeps.accepted haccepted).trans (ih.append_right _)
    · have hnone : acceptedPairs [call] = [] := by simp [acceptedPairs, haccepted]
      rw [hnone, List.append_nil]
      exact (hkeeps.refused haccepted).trans ih

/-- The bytes in the queue are those of one image if all bytes are. -/
theorem oneImage_of_run (hP : 0 < P) (h : Run FittingCall s calls t)
    (himage : OneImage (s.pairs ++ calls.flatMap fun call => call.block.pairs)) :
    OneImage (pairs t.xQueue) := by
  have hsub : pairs t.xQueue ⊆ s.pairs ++ calls.flatMap fun call => call.block.pairs := by
    intro p hp
    have hthere : p ∈ t.pairs := t.pairs_eq ▸ List.mem_append_left _ hp
    obtain hstart | hown := List.mem_append.mp ((pairs_of_run hP h).mem_iff.mp hthere)
    · exact List.mem_append_left _ hstart
    · exact List.mem_append_right _ (acceptedPairs_subset calls hown)
  exact fun p hp q hq => himage p (hsub hp) q (hsub hq)

end run

/-- A call that meets the condition keeps the bytes, and so do calls one after the other. A call
that keeps them without meeting it comes to a page that is not right, or drops its own block. Where
all calls meet it, a block that is refused and written again gives the same image as if it had been
accepted at first. -/
theorem writeBlock_keeps {P : Nat} (hP : 0 < P) (s : CallState P) :
    (∀ o block, (CallFits o s block → CallKeeps o s block) ∧
      (CallKeeps o s block → CallFits o s block ∨ MeetsWrong o s block ∨ DropsOwn o s block)) ∧
    (∀ calls t, Run FittingCall s calls t → t.pairs.Perm (s.pairs ++ acceptedPairs calls)) ∧
    ∀ xs ys zs block ret t,
      Run FittingCall s (xs ++ ⟨block, ret⟩ :: (ys ++ ⟨block, block.length⟩ :: zs)) t →
      ret ≠ block.length →
      ∃ t', Run FittingCall s (xs ++ ⟨block, block.length⟩ :: (ys ++ zs)) t' ∧
        t'.fragmentedFlashBlockList = t.fragmentedFlashBlockList ∧
        (OneImage (s.pairs ++ (xs ++ ⟨block, ret⟩ :: (ys ++ ⟨block, block.length⟩ :: zs)).flatMap
            fun call => call.block.pairs) →
          ∀ flash, flashPackets flash t'.xQueue = flashPackets flash t.xQueue) := by
  refine ⟨fun o block => ⟨fun h => h.keeps hP, fun h => h.fits hP⟩,
    fun calls t h => pairs_of_run hP h, ?_⟩
  intro xs ys zs block ret t hrun hrefused
  obtain ⟨t', hrun', hlist, hperm⟩ := repeated_call hP hrun hrefused
  refine ⟨t', hrun', hlist, fun himage flash => ?_⟩
  exact (flashPackets_perm hperm.symm (oneImage_of_run hP hrun himage)).symm

def pageBlock : FlashBlock := ⟨0, [1, 2, 3, 4]⟩

/-- The page is refused at first and written again. -/
theorem writeBlock_keeps_pageBlock :
    CallKeeps (P := 4) ⟨.served, true, false, []⟩ ⟨[], ⟨[0, 0, 0, 0], rfl⟩, []⟩ pageBlock ∧
    ∃ t', Run (FittingCall (P := 4)) ⟨[], ⟨[0, 0, 0, 0], rfl⟩, []⟩ [⟨pageBlock, 4⟩] t' := by
  have hrefused : CallFits (P := 4) ⟨.served, true, false, []⟩ ⟨[], ⟨[0, 0, 0, 0], rfl⟩, []⟩
      pageBlock := .aligned (by decide) (.inl rfl) fun hsend => (by cases hsend)
  have hsent : CallFits (P := 4) ⟨.served, true, true, []⟩ ⟨[], ⟨[0, 0, 0, 0], rfl⟩, []⟩
      pageBlock := .aligned (by decide) (.inl rfl) fun _ => by decide
  have hkeeps := writeBlock_keeps (P := 4) (by decide) ⟨[], ⟨[0, 0, 0, 0], rfl⟩, []⟩
  refine ⟨(hkeeps.1 _ _).1 hrefused, ?_⟩
  obtain ⟨t', hrun, -⟩ := hkeeps.2.2 [] [] [] pageBlock (-2) _
    (.cons ⟨_, hrefused, rfl⟩ (.single ⟨_, hsent, rfl⟩)) (by decide)
  exact ⟨t', hrun⟩

/-- A page that the queue refuses is lost with the bytes of the call before. -/
theorem not_callKeeps_full :
    ¬ ∀ (k : Nat) (o : CallOutcome) (s : CallState (2 ^ k)) (block : FlashBlock), 1 ≤ k →
      (s.otaPalWriteBlock o block).isSome →
      ∃ s' ret, s.otaPalWriteBlock o block = some (.ok (s', ret)) ∧ s.pairs ⊆ s'.pairs := by
  intro h
  obtain ⟨s', ret, hcall, hplaced⟩ := h 2 ⟨.served, true, true, [⟨.served, true, false⟩]⟩
    ⟨[⟨0, [1, 2]⟩], ⟨[0, 0, 0, 0], rfl⟩, []⟩ ⟨2, [3, 4]⟩ (by decide) rfl
  obtain ⟨rfl, -⟩ := Prod.mk.inj (Except.ok.inj (Option.some.inj hcall))
  have hlost := hplaced (a := (1, 0)) (by decide)
  revert hlost
  decide

end RenesasDemo.Ota
