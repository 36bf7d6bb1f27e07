import RenesasDemo.Ota.PagePairs

namespace RenesasDemo.Ota

open Framework FragmentedFlashBlockList

namespace FragmentNodes

def Covered (P : Nat) (l : List FlashBlock) (o : Nat) : Prop :=
  o % P = 0 ∧ ∀ i < P, o + i ∈ positions l

/-- `b` is a page with bytes of `head`, and `l` has the others. -/
structure PageTaken (P : Nat) (head : List FlashBlock) (b : FlashBlock) (l : List FlashBlock) :
    Prop where
  length : b.length = P
  aligned : b.offset % P = 0
  sorted : Sorted l
  disjoint : (positions l).Nodup
  samePairs : (pairs (b :: l)).Perm (pairs head)

/-- `l` has the bytes of `head`, and no page is complete. -/
structure NoPage (P : Nat) (head l : List FlashBlock) : Prop where
  sorted : Sorted l
  disjoint : (positions l).Nodup
  samePairs : (pairs l).Perm (pairs head)
  incomplete : ∀ o, ¬ Covered P head o

/-- With memory, and whatever the static array holds, a page is taken or there is none. -/
def AssemblesRight (P : Nat) (head : List FlashBlock) : Prop :=
  ∀ flashBlockArray : Buffer UInt8 P, ∃ l a page as,
    assemble .served head flashBlockArray true = .ok ⟨(l, a, page), as⟩ ∧
      match page with
      | some b => PageTaken P head b l
      | none => NoPage P head l

/-- The scan that takes a page takes one or two fragments that adjoin and have a page's length; or
no scan takes a page, and none is complete. -/
def PageFits (P : Nat) (head : List FlashBlock) : Prop :=
  (∃ before cs tail, Searched P head before (cs ++ tail) ∧ FillsPage P cs ∧
      cs.length ≤ 2 ∧ Adjoining cs ∧ P ≤ totalLength cs) ∨
    (∀ before cs tail, Searched P head before (cs ++ tail) → ¬ FillsPage P cs) ∧
      ∀ o, ¬ Covered P head o

/-- What a scan makes of the fragments `cs` that it takes for a page. -/
structure PageFound (P : Nat) (head before cs cands tail : List FlashBlock) : Prop where
  length : totalLength cands = P
  nonempty : ∀ c ∈ cands, 0 < c.length
  offsets : cands.map FlashBlock.offset = cs.map FlashBlock.offset
  adjoining : Adjoining cands ↔ Adjoining cs
  fits : P ≤ totalLength cs
  samePairs : (pairs (before ++ cands ++ tail)).Perm (pairs head)
  sorted : Adjoining cs → Sorted (before ++ tail)

section found

variable {P : Nat} {head before cs tail xs : List FlashBlock} {c : FlashBlock}

theorem adjoining_take (xs : List FlashBlock) (c : FlashBlock) (n : Nat) :
    Adjoining (xs ++ [c.take n]) ↔ Adjoining (xs ++ [c]) := by
  rw [Adjoining, Adjoining, List.isChain_append, List.isChain_append]
  simp [FlashBlock.take]

theorem pageTop_last (hadj : Adjoining (xs ++ [c])) (hstart : StartsPage P (xs ++ [c]))
    (hlt : totalLength xs < P) : pageTop P c.offset + totalLength xs = c.offset := by
  obtain ⟨b, hb, ho⟩ := hstart
  have hhead : ∀ d ∈ (xs ++ [c]).head?, d.offset = b.offset := by
    intro d hd
    rw [Option.some.inj ((Option.mem_def.mp hd).symm.trans hb)]
  have hlast : c.offset = b.offset + totalLength xs := hadj.last_offset hhead
  rw [hlast, pageTop, Nat.add_mod, ho, Nat.zero_add, Nat.mod_mod, Nat.mod_eq_of_lt hlt]
  omega

/-- A fragment that ends with its page does not cross. -/
theorem Crosses.ne_length (hc : Crosses P c) (hadj : Adjoining (xs ++ [c]))
    (hstart : StartsPage P (xs ++ [c])) (hlt : totalLength xs < P) :
    c.length ≠ P - totalLength xs := by
  intro hlen
  have hlast := pageTop_last hadj hstart hlt
  have hend : pageTop P c.offset + P = c.offset + c.length := by omega
  rw [Crosses, hend] at hc
  exact Nat.lt_irrefl _ hc

/-- The last fragment is cut at the end of the page, and its rest is put back. -/
theorem PageFound.of_cut (h : SortedDisjoint head) (hlist : head = before ++ (xs ++ [c] ++ tail))
    (hstart : StartsPage P (xs ++ [c])) (hlt : totalLength xs < P) (hcross : Crosses P c)
    (hn : P - totalLength xs ≤ c.length) :
    PageFound P head before (xs ++ [c]) (xs ++ [c.take (P - totalLength xs)])
      (FragmentedFlashBlockList.insert tail (c.cutOff (P - totalLength xs))) := by
  have hc : c ∈ head := by simp [hlist]
  have htotal : totalLength (xs ++ [c]) = totalLength xs + c.length := by simp
  refine ⟨?_, ?_, ?_, adjoining_take xs c _, by omega, ?_, ?_⟩
  · exact totalLength_cut (Nat.le_of_lt hlt) hn
  · intro b hb
    obtain hb | hb := List.mem_append.mp hb
    · exact h.nonempty b (by simp [hlist, hb])
    · rw [List.mem_singleton.mp hb, c.length_take hn]
      omega
  · simp [FlashBlock.take]
  · have hcut := c.pairs_cut hn (h.inRange c hc)
    have hins' := pairs_perm (insert_perm tail (c.cutOff (P - totalLength xs)))
    rw [hlist]
    simp only [pairs_append, pairs_cons, pairs_nil, List.append_nil, List.append_assoc, ← hcut]
    exact ((hins'.append_left _).append_left _).append_left _
  · intro hadj
    have hne := hcross.ne_length hadj hstart hlt
    have hrange := h.inRange c hc
    have hoff : (c.cutOff (P - totalLength xs)).offset = c.offset + (P - totalLength xs) :=
      Nat.mod_eq_of_lt (by omega)
    have hsorted := h.sorted
    rw [hlist] at hsorted
    obtain ⟨hbefore, hrest, hle⟩ := List.pairwise_append.mp hsorted
    have htail : Sorted tail := (List.pairwise_append.mp hrest).2.1
    refine List.pairwise_append.mpr ⟨hbefore, insert_sorted htail _, ?_⟩
    intro b hb d hd
    obtain rfl | hd := mem_insert.mp hd
    · have hbc := hle b hb c (by simp)
      omega
    · exact hle b hb d (List.mem_append_right _ hd)

theorem PageFound.of_whole (h : SortedDisjoint head) (hlist : head = before ++ (cs ++ tail))
    (hlen : totalLength cs = P) : PageFound P head before cs cs tail := by
  refine ⟨hlen, ?_, rfl, .rfl, Nat.le_of_eq hlen.symm, ?_, ?_⟩
  · intro b hb
    exact h.nonempty b (by simp [hlist, hb])
  · rw [hlist, List.append_assoc]
  · intro _
    have hsub : (before ++ tail).Sublist head := by
      rw [hlist]
      exact (List.sublist_append_right _ _).append_left before
    exact List.Pairwise.sublist hsub h.sorted

theorem found_page (h : SortedDisjoint head) (hs : Searched P head before (cs ++ tail))
    (hf : FillsPage P cs) :
    search .served P [] 0 head = .error .lengthWraps ∧ totalLength cs < P ∨
      ∃ cands tail' as,
        search .served P [] 0 head = .ok ⟨some (before, ⟨cands, P, tail'⟩), as⟩ ∧
          PageFound P head before cs cands tail' := by
  obtain ⟨as, -, heq⟩ := hs.search_eq .served
  have hlist := hs.list
  obtain ⟨xs, c, rfl, hstart, hxs, hopen, hend⟩ := hf
  by_cases hcross : Crosses P c
  · rw [search_cut hxs hstart hopen hcross] at heq
    have htotal : totalLength (xs ++ [c]) = totalLength xs + c.length := by simp
    have hlt := totalLength_lt hopen
    split at heq
    · next hshort => exact .inl ⟨heq, by omega⟩
    · next hlong =>
      obtain ⟨bs, hins⟩ := insert_served tail (c.cutOff (P - totalLength xs))
      rw [hins] at heq
      exact .inr ⟨_, _, _, heq, .of_cut h hlist hstart hlt hcross (Nat.le_of_not_lt hlong)⟩
  · have hlen := hend.resolve_left hcross
    have hall := concat_not_crosses hxs hcross
    rw [search_whole hall hstart hopen hlen] at heq
    exact .inr ⟨_, _, _, heq, .of_whole h hlist hlen⟩

end found

section copy

variable {P index j : Nat} {flashBlockArray a : Buffer UInt8 P} {cs : List FlashBlock}

/-- Copying leaves alone what no candidate reaches from the length of the one before it. -/
theorem copyCandidates_getElem? (h : copyCandidates flashBlockArray index cs = some a)
    (hfirst : ∀ c ∈ cs.head?, index + c.length ≤ j)
    (hnext : ∀ xs b c ys, cs = xs ++ b :: c :: ys → b.length + c.length ≤ j) :
    a.bytes[j]? = flashBlockArray.bytes[j]? := by
  induction cs generalizing flashBlockArray index with
  | nil =>
    obtain rfl := Option.some.inj h
    rfl
  | cons b cs ih =>
    rw [copyCandidates] at h
    obtain ⟨a', ha', h⟩ := Option.bind_eq_some_iff.mp h
    have hb : index + b.binary.length ≤ j := hfirst b rfl
    obtain ⟨hfits, hbytes⟩ := Buffer.memcpy_eq_some ha'
    have hall := flashBlockArray.length_bytes
    have hlen : (flashBlockArray.bytes.take index ++ b.binary).length =
        index + b.binary.length := by
      rw [List.length_append, List.length_take_of_le (by omega)]
    rw [ih h, hbytes, List.getElem?_append_right (by omega), hlen, List.getElem?_drop]
    · congr 1
      omega
    · intro c hc
      obtain ⟨ys, rfl⟩ : ∃ ys, cs = c :: ys := List.head?_eq_some_iff.mp hc
      exact hnext [] b c ys rfl
    · intro xs c d ys hcs
      exact hnext (b :: xs) c d ys (by rw [hcs]; rfl)

/-- Two of three or more fragments do not have all their bytes. -/
theorem two_of_three (xs ys : List FlashBlock) (b c : FlashBlock)
    (hne : ∀ d ∈ xs ++ b :: c :: ys, 0 < d.length)
    (hthree : 3 ≤ (xs ++ b :: c :: ys).length) :
    b.length + c.length < totalLength (xs ++ b :: c :: ys) := by
  have hpos : ∀ l : List FlashBlock, (∀ d ∈ l, 0 < d.length) → l.length ≤ totalLength l := by
    intro l hl
    induction l with
    | nil => exact Nat.le_refl 0
    | cons d l ih =>
      have hd := hl d List.mem_cons_self
      have hrest := ih fun e he => hl e (List.mem_cons_of_mem d he)
      rw [totalLength_cons, List.length_cons]
      omega
  have hxs := hpos xs fun d hd => hne d (by simp [hd])
  have hys := hpos ys fun d hd => hne d (by simp [hd])
  simp only [List.length_append, List.length_cons] at hthree
  simp only [totalLength_append, totalLength_cons]
  omega

theorem exists_head (hP : 0 < P) (hlen : totalLength cs = P) : ∃ c, cs.head? = some c := by
  cases cs with
  | nil =>
    rw [totalLength_nil] at hlen
    omega
  | cons c cs => exact ⟨c, rfl⟩

theorem offset_of_head {c : FlashBlock} (h : cs.head? = some c) :
    ∀ d ∈ cs.head?, d.offset = c.offset := by
  intro d hd
  rw [Option.some.inj ((Option.mem_def.mp hd).symm.trans h)]

/-- One or two candidates that adjoin are the page, and exactly they are deleted. -/
theorem assemble_adjoining {alloc : Allocation} {head before tail : List FlashBlock}
    {as : List Access} (hP : 0 < P) (flashBlockArray : Buffer UInt8 P)
    (h : search alloc P [] 0 head = .ok ⟨some (before, ⟨cs, P, tail⟩), as⟩)
    (hlen : totalLength cs = P) (htwo : cs.length ≤ 2) (hadj : Adjoining cs)
    (hne : ∀ b ∈ before, ∀ c ∈ cs, b.offset ≠ c.offset) :
    ∃ (a : Buffer UInt8 P) (c : FlashBlock) (bs : List Access), cs.head? = some c ∧
      assemble alloc head flashBlockArray true =
        .ok ⟨(before ++ tail, a, some ⟨c.offset, a.bytes⟩), bs⟩ ∧
      FlashBlock.pairs ⟨c.offset, a.bytes⟩ = pairs cs := by
  obtain ⟨a, hcopy, hbytes⟩ := copyCandidates_two flashBlockArray htwo hlen
  obtain ⟨c, hc⟩ := exists_head hP hlen
  refine ⟨a, c, as ++ candidateAccesses cs.length, hc, ?_, ?_⟩
  · rw [assemble_copied h hcopy, foldl_delete hne, hc]
    rfl
  · rw [hbytes]
    exact pairs_joined hadj (offset_of_head hc)

end copy

section right

variable {P : Nat} {head before cs cands tail tail' : List FlashBlock} {as : List Access}

/-- No node in front of a page has the offset of one of its fragments. -/
theorem PageFound.offset_ne (hf : PageFound P head before cs cands tail') (h : SortedDisjoint head)
    (hlist : head = before ++ (cs ++ tail)) :
    ∀ b ∈ before, ∀ c ∈ cands, b.offset ≠ c.offset := by
  intro b hb c hc
  have hoff : c.offset ∈ cs.map FlashBlock.offset := by
    rw [← hf.offsets]
    exact List.mem_map_of_mem hc
  obtain ⟨d, hd, hdc⟩ := List.mem_map.mp hoff
  have hdisjoint := h.disjoint
  rw [hlist] at hdisjoint
  rw [← hdc]
  have hd' : d ∈ cs ++ tail := List.mem_append_left _ hd
  exact Ota.offset_ne hdisjoint hb hd' (h.nonempty b (by simp [hlist, hb]))
    (h.nonempty d (by simp [hlist, hd]))

theorem PageFound.length_eq (hf : PageFound P head before cs cands tail') :
    cands.length = cs.length := by
  have hoff := congrArg List.length hf.offsets
  rwa [List.length_map, List.length_map] at hoff

theorem sorted_iff_offsets (l : List FlashBlock) :
    Sorted l ↔ (l.map FlashBlock.offset).Pairwise (· ≤ ·) := List.pairwise_map.symm

/-- Where a call is right the array has the bytes of the candidates, whatever it held. -/
theorem PageFound.copied_of_right (hf : PageFound P head before cs cands tail')
    (h : SortedDisjoint head) (hlist : head = before ++ (cs ++ tail))
    (hsearch : search .served P [] 0 head = .ok ⟨some (before, ⟨cands, P, tail'⟩), as⟩)
    (hright : AssemblesRight P head) {c : FlashBlock} (hc : cands.head? = some c)
    (flashBlockArray : Buffer UInt8 P) :
    ∃ a, copyCandidates flashBlockArray 0 cands = some a ∧
      (a.bytes.zipIdx c.offset).Perm (pairs cands) := by
  obtain ⟨l, a, page, bs, hres, hpage⟩ := hright flashBlockArray
  cases hcopy : copyCandidates flashBlockArray 0 cands with
  | none =>
    rw [FragmentNodes.assemble, hsearch] at hres
    simp only [Except.bind, if_true, hcopy] at hres
    cases hres
  | some a' =>
    rw [assemble_copied hsearch hcopy, foldl_delete (hf.offset_ne h hlist), hc] at hres
    obtain ⟨hvalue, -⟩ := Traced.mk.inj (Except.ok.inj hres)
    obtain ⟨rfl, hrest⟩ := Prod.mk.inj hvalue
    obtain ⟨rfl, rfl⟩ := Prod.mk.inj hrest
    refine ⟨a', rfl, ?_⟩
    have hpairs := hpage.samePairs.trans hf.samePairs.symm
    rw [pairs_cons, pairs_append, pairs_append, pairs_append] at hpairs
    have hmove := hpairs.trans (List.perm_append_comm.append_right (pairs tail'))
    rw [List.append_assoc] at hmove
    exact (List.perm_append_right_iff _).mp hmove

/-- Of three or more candidates the last byte of the page is none of those copied. -/
theorem few_of_copied {c : FlashBlock} (hP : 0 < P) (hlen : totalLength cands = P)
    (hne : ∀ d ∈ cands, 0 < d.length) (hadj : Adjoining cands) (hc : cands.head? = some c)
    (hcopied : ∀ flashBlockArray : Buffer UInt8 P, ∃ a,
      copyCandidates flashBlockArray 0 cands = some a ∧
        (a.bytes.zipIdx c.offset).Perm (pairs cands)) : cands.length ≤ 2 := by
  apply Nat.le_of_not_lt
  intro hthree
  have hjoined : (joined cands).length = P := by rw [length_joined, hlen]
  obtain ⟨x, hx⟩ : ∃ x, (joined cands)[P - 1]? = some x :=
    ⟨_, List.getElem?_eq_getElem (by omega)⟩
  obtain ⟨a, hcopy, hperm⟩ := hcopied ⟨List.replicate P (x + 1), List.length_replicate⟩
  rw [← pairs_joined hadj (offset_of_head hc)] at hperm
  have hbytes : a.bytes = joined cands := binary_of_pairs hperm
  have hpair : ∀ xs b d ys, cands = xs ++ b :: d :: ys → b.length + d.length ≤ P - 1 := by
    intro xs b d ys hcands
    have hlt := two_of_three xs ys b d (by rwa [← hcands]) (by rwa [← hcands])
    rw [← hcands, hlen] at hlt
    omega
  have hfirst : ∀ b ∈ cands.head?, 0 + b.length ≤ P - 1 := by
    intro b hb
    obtain ⟨ys, hcands⟩ : ∃ ys, cands = b :: ys := List.head?_eq_some_iff.mp hb
    cases ys with
    | nil =>
      rw [hcands] at hthree
      simp at hthree
    | cons d ys =>
      have hle := hpair [] b d ys hcands
      omega
  have hkept := copyCandidates_getElem? hcopy hfirst hpair
  rw [hbytes, hx, List.getElem?_replicate_of_lt (by omega)] at hkept
  have hsame := Option.some.inj hkept
  simp at hsame

/-- A page that is right is that of adjoining fragments, of which there are at most two. -/
theorem PageFound.fits_of_right (hP : 0 < P) (hf : PageFound P head before cs cands tail')
    (h : SortedDisjoint head) (hlist : head = before ++ (cs ++ tail))
    (hsearch : search .served P [] 0 head = .ok ⟨some (before, ⟨cands, P, tail'⟩), as⟩)
    (hright : AssemblesRight P head) : cs.length ≤ 2 ∧ Adjoining cs := by
  obtain ⟨c, hc⟩ := exists_head hP hf.length
  have hcopied := hf.copied_of_right h hlist hsearch hright hc
  have hsorted : Sorted cands := by
    have hcs : cs.Sublist head := by
      rw [hlist]
      exact ((List.sublist_append_left cs tail).trans (List.sublist_append_right before _))
    rw [sorted_iff_offsets, hf.offsets, ← sorted_iff_offsets]
    exact List.Pairwise.sublist hcs h.sorted
  have hadj : Adjoining cands := by
    obtain ⟨a, -, hperm⟩ := hcopied ⟨List.replicate P 0, List.length_replicate⟩
    have hpos := hperm.map Prod.snd
    rw [List.zipIdx_map_snd, pairs_snd] at hpos
    exact adjoining_of_positions hsorted hf.nonempty hpos.symm
  refine ⟨?_, hf.adjoining.mp hadj⟩
  rw [← hf.length_eq]
  exact few_of_copied hP hf.length hf.nonempty hadj hc hcopied

theorem PageFound.right_of_fits (hP : 0 < P) (hf : PageFound P head before cs cands tail')
    (h : SortedDisjoint head) (hlist : head = before ++ (cs ++ tail))
    (hsearch : search .served P [] 0 head = .ok ⟨some (before, ⟨cands, P, tail'⟩), as⟩)
    (hstart : StartsPage P cs) (htwo : cs.length ≤ 2) (hadj : Adjoining cs) :
    AssemblesRight P head := by
  intro flashBlockArray
  have hcands := hf.adjoining.mpr hadj
  obtain ⟨a, c0, bs, hc0, hres, hpage⟩ := assemble_adjoining hP flashBlockArray hsearch hf.length
    (hf.length_eq.trans_le htwo) hcands (hf.offset_ne h hlist)
  refine ⟨_, _, _, _, hres, ?_⟩
  obtain ⟨b, hb, ho⟩ := hstart
  have hoffset : c0.offset = b.offset := by
    have hheads := congrArg List.head? hf.offsets
    rw [List.head?_map, List.head?_map, hc0, Option.mem_def.mp hb] at hheads
    exact Option.some.inj hheads
  have hperm : (pairs (⟨c0.offset, a.bytes⟩ :: (before ++ tail'))).Perm (pairs head) := by
    rw [pairs_cons, hpage, pairs_append]
    refine List.Perm.trans ?_ hf.samePairs
    rw [pairs_append, pairs_append, List.append_assoc]
    exact List.perm_append_comm_assoc ..
  exact {
    length := a.length_bytes
    aligned := by rw [← ho, ← hoffset]
    sorted := hf.sorted hadj
    disjoint := by
      have hnd := (positions_of_pairs hperm).nodup_iff.mpr h.disjoint
      rw [positions_cons] at hnd
      exact (List.nodup_append.mp hnd).2.1
    samePairs := hperm }

/-- Where the search ends without a page the call is right unless one is complete. -/
theorem assemblesRight_iff_of_none (h : SortedDisjoint head)
    (hres : search .served P [] 0 head = .ok ⟨none, as⟩) :
    AssemblesRight P head ↔ PageFits P head := by
  constructor
  · intro hright
    obtain ⟨l, a, page, bs, heq, hpage⟩ := hright ⟨List.replicate P 0, List.length_replicate⟩
    rw [assemble_none _ true hres] at heq
    obtain ⟨hvalue, -⟩ := Traced.mk.inj (Except.ok.inj heq)
    obtain ⟨-, hrest⟩ := Prod.mk.inj hvalue
    obtain ⟨-, rfl⟩ := Prod.mk.inj hrest
    exact .inr ⟨fun _ _ _ hs hfills => hs.search_ne_none hfills hres, hpage.incomplete⟩
  · intro hfits flashBlockArray
    obtain ⟨before, cs, tail, hs, hfills, -⟩ | ⟨-, hincomplete⟩ := hfits
    · exact absurd hres (hs.search_ne_none hfills)
    · exact ⟨_, _, _, _, assemble_none flashBlockArray true hres, h.sorted, h.disjoint, .refl _,
        hincomplete⟩

/-- A page that is too short is neither right nor fits. -/
theorem assemblesRight_iff_of_wraps (h : SortedDisjoint head)
    (hs : Searched P head before (cs ++ tail)) (hfills : FillsPage P cs)
    (hres : search .served P [] 0 head = .error .lengthWraps) :
    AssemblesRight P head ↔ PageFits P head := by
  refine iff_of_false ?_ ?_
  · intro hright
    obtain ⟨l, a, page, bs, heq, -⟩ := hright ⟨List.replicate P 0, List.length_replicate⟩
    rw [FragmentNodes.assemble, hres] at heq
    cases heq
  · intro hfits
    obtain ⟨before', cs', tail', hs', hfills', -, -, hlong⟩ | ⟨hnofill, -⟩ := hfits
    · obtain ⟨-, hshort⟩ | ⟨cands, l, bs, hfound, -⟩ := found_page h hs' hfills'
      · exact Nat.not_le_of_lt hshort hlong
      · rw [hres] at hfound
        cases hfound
    · exact hnofill before cs tail hs hfills

/-- A call is right exactly on lists whose first page to be taken is one or two fragments, and on
lists without one. -/
theorem assemblesRight_iff (hP : 0 < P) (h : SortedDisjoint head) :
    AssemblesRight P head ↔ PageFits P head := by
  have hstart0 : Searched P head [] head := .start
  obtain ⟨before, rest, hs, hend⟩ := hstart0.exists_end hP
  obtain ⟨as, -, hsearch⟩ := hs.search_eq .served
  cases hend with
  | stepsOff hempty =>
    subst hempty
    exact assemblesRight_iff_of_none h hsearch
  | unfinished hscan =>
    rw [search_unfinished hscan] at hsearch
    exact assemblesRight_iff_of_none h hsearch
  | overEnd hscan =>
    rw [search_over hscan] at hsearch
    exact assemblesRight_iff_of_none h hsearch
  | found cs tail hlist hfills =>
    subst hlist
    obtain ⟨hwraps, -⟩ | ⟨cands, tail', bs, hfound, hpage⟩ := found_page h hs hfills
    · exact assemblesRight_iff_of_wraps h hs hfills hwraps
    · constructor
      · intro hright
        obtain ⟨htwo, hadj⟩ := hpage.fits_of_right hP h hs.list hfound hright
        exact .inl ⟨before, cs, tail, hs, hfills, htwo, hadj, hpage.fits⟩
      · intro hfits
        obtain ⟨before', cs', l, hs', hfills', htwo, hadj, hlong⟩ | ⟨hnofill, -⟩ := hfits
        · obtain ⟨-, hshort⟩ | ⟨cands', l', bs', hfound', hpage'⟩ := found_page h hs' hfills'
          · exact absurd hlong (Nat.not_le_of_lt hshort)
          · have hstart := hfills'
            obtain ⟨-, -, -, hstart, -⟩ := hstart
            exact hpage'.right_of_fits hP h hs'.list hfound' hstart htwo hadj
        · exact absurd hfills (hnofill before cs tail hs)

end right

def twoFragments : List FlashBlock := [⟨4, [1, 2]⟩, ⟨6, [3, 4, 5]⟩]

theorem assemblesRight_twoFragments : AssemblesRight 4 twoFragments :=
  (assemblesRight_iff (by decide) {
    sorted := by simp [Sorted, twoFragments]
    nonempty := by decide
    disjoint := by decide
    inRange := by decide }).mpr
    (.inl ⟨[], twoFragments, [], .start,
      ⟨[⟨4, [1, 2]⟩], ⟨6, [3, 4, 5]⟩, rfl, ⟨⟨4, [1, 2]⟩, rfl, rfl⟩, by decide, by
        intro hfull
        obtain h | h := hfull
        · revert h
          decide
        · revert h
          decide, .inl (by decide)⟩, by decide, by simp [twoFragments, FlashBlock.length],
      by decide⟩)

/-- Of three fragments the last one is copied to where the second one was. -/
theorem not_assemblesRight_three :
    ¬ ∀ (k : Nat) (head : List FlashBlock), 1 ≤ k → head ≠ [] → SortedDisjoint head →
      AssemblesRight (2 ^ k) head := by
  intro h
  obtain ⟨l, a, page, as, heq, hpage⟩ := h 2 [⟨0, [1]⟩, ⟨1, [2]⟩, ⟨2, [3, 4]⟩] (by decide) (by simp)
    { sorted := by simp [Sorted]
      nonempty := by decide
      disjoint := by decide
      inRange := by decide }
    ⟨[9, 9, 9, 9], rfl⟩
  have hresult : some ([], some ⟨0, [1, 3, 4, 9]⟩) = some (l, page) :=
    congrArg (fun r => r.toOption.map fun r => (r.value.1, r.value.2.2)) heq
  obtain ⟨rfl, rfl⟩ := Prod.mk.inj (Option.some.inj hresult)
  have hperm := hpage.samePairs
  revert hperm
  decide

end FragmentNodes

end RenesasDemo.Ota
