import RenesasDemo.Ota.FragmentNodes

namespace RenesasDemo.Ota

open Framework FragmentedFlashBlockList

namespace FragmentNodes

def StartsPage (P : Nat) (l : List FlashBlock) : Prop := ∃ b ∈ l.head?, b.offset % P = 0

/-- The fragments that a scan takes for a page: the last one crosses the end of its page or has
the last byte that is missing. -/
def FillsPage (P : Nat) (cs : List FlashBlock) : Prop :=
  ∃ (xs : List FlashBlock) (c : FlashBlock), cs = xs ++ [c] ∧ StartsPage P cs ∧
    (∀ b ∈ xs, ¬ Crosses P b) ∧ ¬ Full P xs ∧ (Crosses P c ∨ totalLength cs = P)

/-- The fragments behind which a scan stops without a page. -/
def PassedOver (P : Nat) (cs : List FlashBlock) : Prop :=
  ∃ (xs : List FlashBlock) (c : FlashBlock), cs = xs ++ [c] ∧ StartsPage P cs ∧
    (∀ b ∈ cs, ¬ Crosses P b) ∧ ¬ Full P xs ∧ Full P cs ∧ totalLength cs ≠ P

/-- The fragments of a scan that ends with the list. -/
def Unfinished (P : Nat) (cs : List FlashBlock) : Prop :=
  StartsPage P cs ∧ (∀ b ∈ cs, ¬ Crosses P b) ∧ ¬ Full P cs

/-- The search in `head` comes to the node in front of `rest`, having passed `before`. -/
inductive Searched (P : Nat) (head : List FlashBlock) : List FlashBlock → List FlashBlock → Prop
  | start : Searched P head [] head
  | unaligned {before next : List FlashBlock} {tmp : FlashBlock}
      (prior : Searched P head before (tmp :: next)) (offset : tmp.offset % P ≠ 0) :
      Searched P head (before ++ [tmp]) next
  | passed {before cs next : List FlashBlock} {tmp : FlashBlock}
      (prior : Searched P head before (cs ++ tmp :: next)) (hcs : PassedOver P cs) :
      Searched P head (before ++ (cs ++ [tmp])) next

/-- Where a search ends: behind the list, in a scan that comes to the end of the list, or with a
page. -/
inductive SearchEnd (P : Nat) (rest : List FlashBlock) : Prop
  | stepsOff (empty : rest = [])
  | unfinished (scan : Unfinished P rest)
  | overEnd (scan : PassedOver P rest)
  | found (cs tail : List FlashBlock) (list : rest = cs ++ tail) (fills : FillsPage P cs)

def Within (P : Nat) (as : List Access) : Prop := ∀ a ∈ as, ∃ i < P, a = .candidate i

theorem Within.append {P : Nat} {as bs : List Access} (ha : Within P as) (hb : Within P bs) :
    Within P (as ++ bs) := by
  intro a h
  obtain h | h := List.mem_append.mp h
  · exact ha a h
  · exact hb a h

def Traced.after {α : Type*} (as : List Access) (r : Traced α) : Traced α :=
  ⟨r.value, as ++ r.accesses⟩

section search

variable {P : Nat} {alloc : Allocation} {head before rest cs xs tail l : List FlashBlock}
  {c tmp : FlashBlock}

theorem Searched.list (h : Searched P head before rest) : head = before ++ rest := by
  induction h with
  | start => rfl
  | unaligned _ _ ih => rw [ih, List.append_assoc]; rfl
  | passed _ _ ih =>
    rw [ih, List.append_assoc, List.append_assoc]
    rfl

theorem StartsPage.append (h : StartsPage P cs) (l : List FlashBlock) : StartsPage P (cs ++ l) := by
  obtain ⟨b, hb, ho⟩ := h
  exact ⟨b, by rw [List.head?_append, Option.mem_def.mp hb]; rfl, ho⟩

theorem StartsPage.of_append (h : StartsPage P (cs ++ l)) (hne : cs ≠ []) : StartsPage P cs := by
  cases cs with
  | nil => exact absurd rfl hne
  | cons b cs => exact h

theorem concat_not_crosses (hxs : ∀ b ∈ xs, ¬ Crosses P b) (hc : ¬ Crosses P c) :
    ∀ b ∈ xs ++ [c], ¬ Crosses P b :=
  List.forall_mem_append.mpr ⟨hxs, List.forall_mem_singleton.mpr hc⟩

theorem search_skip (alloc : Allocation) (P : Nat) (before xs l : List FlashBlock) :
    search alloc P before xs.length (xs ++ l) = search alloc P (before ++ xs) 0 l := by
  induction xs generalizing before with
  | nil => rw [List.append_nil, List.nil_append, List.length_nil]
  | cons b xs ih =>
    rw [List.cons_append, List.length_cons, search, ih, List.append_assoc]
    rfl

theorem search_unaligned (ho : tmp.offset % P ≠ 0) :
    search alloc P before 0 (tmp :: l) = search alloc P (before ++ [tmp]) 0 l := by
  rw [search, if_neg ho]

/-- A search at a page's begin goes by what the scan finds. -/
theorem search_startsPage (h : StartsPage P (tmp :: l)) :
    search alloc P before 0 (tmp :: l) =
      (extractFrom alloc P [] (tmp :: l)).bind fun r =>
        if r.value.assembledLength = P then .ok ⟨some (before, r.value), r.accesses⟩
        else if r.value.tail = [] then .ok ⟨none, r.accesses⟩
        else
          (search alloc P (before ++ [tmp]) r.value.candidates.length l).map fun s =>
            ⟨s.value, r.accesses ++ s.accesses⟩ := by
  obtain ⟨b, hb, ho⟩ := h
  obtain rfl : tmp = b := Option.some.inj hb
  rw [search, if_pos ho, extract_eq_extractFrom]

/-- The search ends with the page that the scan finds. -/
theorem search_found {r : Traced Extraction} (h : StartsPage P l)
    (hscan : extractFrom alloc P [] l = .ok r) (hlen : r.value.assembledLength = P) :
    search alloc P before 0 l = .ok ⟨some (before, r.value), r.accesses⟩ := by
  cases l with
  | nil =>
    obtain ⟨b, hb, -⟩ := h
    cases hb
  | cons tmp l =>
    rw [search_startsPage h, hscan]
    exact if_pos hlen

/-- It ends without one where the scan comes to the end of the list. -/
theorem search_exhausted {r : Traced Extraction} (h : StartsPage P l)
    (hscan : extractFrom alloc P [] l = .ok r) (hlen : r.value.assembledLength ≠ P)
    (htail : r.value.tail = []) :
    search alloc P before 0 l = .ok ⟨none, r.accesses⟩ := by
  cases l with
  | nil =>
    obtain ⟨b, hb, -⟩ := h
    cases hb
  | cons tmp l =>
    rw [search_startsPage h, hscan]
    exact (if_neg hlen).trans (if_pos htail)

/-- A fault of the scan is one of the search. -/
theorem search_fault {fault : Fault} (h : StartsPage P l)
    (hscan : extractFrom alloc P [] l = .error fault) :
    search alloc P before 0 l = .error fault := by
  cases l with
  | nil =>
    obtain ⟨b, hb, -⟩ := h
    cases hb
  | cons tmp l =>
    rw [search_startsPage h, hscan]
    rfl

theorem not_full_nil (hP : 0 < P) : ¬ Full P [] := by
  intro h
  obtain h | h := h
  · exact Nat.not_le_of_lt hP h
  · exact Nat.not_le_of_lt hP h

theorem totalLength_lt (h : ¬ Full P cs) : totalLength cs < P :=
  Nat.lt_of_not_le fun hle => h (.inl hle)

theorem length_lt (h : ¬ Full P cs) : cs.length < P := Nat.lt_of_not_le fun hle => h (.inr hle)

theorem search_unfinished (h : Unfinished P cs) :
    search alloc P before 0 cs = .ok ⟨none, candidateAccesses cs.length⟩ := by
  obtain ⟨hstart, hcs, hopen⟩ := h
  have hscan := extractFrom_open alloc hopen hcs []
  rw [List.append_nil, extractFrom_nil] at hscan
  exact search_exhausted hstart hscan (Nat.ne_of_lt (totalLength_lt hopen)) rfl

/-- What a scan leaves behind that takes the whole of its last candidate. -/
theorem extractFrom_last (alloc : Allocation) (hxs : ∀ b ∈ xs ++ [c], ¬ Crosses P b)
    (hopen : ¬ Full P xs) (hfull : Full P (xs ++ [c])) (l : List FlashBlock) :
    extractFrom alloc P [] (xs ++ [c] ++ l) =
      .ok ⟨⟨xs ++ [c], totalLength (xs ++ [c]), l⟩, candidateAccesses (xs ++ [c]).length⟩ := by
  have hc : ¬ Crosses P c := hxs c (by simp)
  have hbefore : ∀ b ∈ xs, ¬ Crosses P b := fun b hb => hxs b (List.mem_append_left _ hb)
  have hscan := extractFrom_open alloc hopen hbefore (c :: l)
  rw [List.append_assoc, List.singleton_append, hscan, extractFrom_cons hopen hc,
    extractFrom_full hfull]

theorem search_over (h : PassedOver P cs) :
    search alloc P before 0 cs = .ok ⟨none, candidateAccesses cs.length⟩ := by
  obtain ⟨xs, c, rfl, hstart, hcs, hopen, hfull, hne⟩ := h
  have hscan := extractFrom_last alloc hcs hopen hfull []
  rw [List.append_nil] at hscan
  exact search_exhausted hstart hscan hne rfl

theorem search_passed (h : PassedOver P cs) :
    search alloc P before 0 (cs ++ tmp :: l) =
      (search alloc P (before ++ (cs ++ [tmp])) 0 l).map
        (Traced.after (candidateAccesses cs.length)) := by
  obtain ⟨xs, c, rfl, hstart, hcs, hopen, hfull, hne⟩ := h
  have hscan := extractFrom_last alloc hcs hopen hfull (tmp :: l)
  cases hlist : xs ++ [c] with
  | nil => simp at hlist
  | cons b ys =>
    rw [hlist] at hstart hscan hne
    have hstart' : StartsPage P (b :: (ys ++ tmp :: l)) := hstart.append _
    have hskip : search alloc P (before ++ [b]) (b :: ys).length (ys ++ tmp :: l) =
        search alloc P (before ++ (b :: ys ++ [tmp])) 0 l := by
      have h := search_skip alloc P (before ++ [b]) (ys ++ [tmp]) l
      simp only [List.length_append, List.length_singleton, List.append_assoc,
        List.singleton_append] at h
      exact h
    rw [List.cons_append, search_startsPage hstart', ← List.cons_append, hscan]
    simp only [Except.bind, if_neg hne, List.cons_ne_nil, if_false, hskip]
    rfl

theorem search_whole (hxs : ∀ b ∈ xs ++ [c], ¬ Crosses P b) (hstart : StartsPage P (xs ++ [c]))
    (hopen : ¬ Full P xs) (hlen : totalLength (xs ++ [c]) = P) (l : List FlashBlock) :
    search alloc P before 0 (xs ++ [c] ++ l) =
      .ok ⟨some (before, ⟨xs ++ [c], P, l⟩), candidateAccesses (xs ++ [c]).length⟩ := by
  have hscan := extractFrom_last alloc hxs hopen (.inl (Nat.le_of_eq hlen.symm)) l
  rw [hlen] at hscan
  exact search_found (hstart.append l) hscan rfl

theorem search_cut (hxs : ∀ b ∈ xs, ¬ Crosses P b) (hstart : StartsPage P (xs ++ [c]))
    (hopen : ¬ Full P xs) (hc : Crosses P c) (l : List FlashBlock) :
    search alloc P before 0 (xs ++ [c] ++ l) =
      if c.length < P - totalLength xs then .error .lengthWraps
      else
        (insert alloc l (c.cutOff (P - totalLength xs))).map fun r =>
          ⟨some (before, ⟨xs ++ [c.take (P - totalLength xs)], P, r.value⟩),
            candidateAccesses (xs.length + 1) ++ r.accesses⟩ := by
  have hscan := extractFrom_open alloc hopen hxs (c :: l)
  rw [extractFrom_crosses hopen hc, ← List.singleton_append,
    ← List.append_assoc] at hscan
  by_cases hwraps : c.length < P - totalLength xs
  · rw [if_pos hwraps] at hscan ⊢
    exact search_fault (hstart.append l) hscan
  · rw [if_neg hwraps] at hscan ⊢
    cases hinsert : insert alloc l (c.cutOff (P - totalLength xs)) with
    | error fault =>
      rw [hinsert] at hscan
      exact search_fault (hstart.append l) hscan
    | ok r =>
      rw [hinsert] at hscan
      exact search_found (hstart.append l) hscan rfl

theorem Traced.after_after {α : Type*} (as bs : List Access) (r : Traced α) :
    Traced.after as (Traced.after bs r) = Traced.after (as ++ bs) r := by
  simp only [Traced.after, List.append_assoc]

/-- The accesses of a scan stay within the array of candidates. -/
theorem within_candidateAccesses {n : Nat} (hn : n ≤ P) : Within P (candidateAccesses n) := by
  intro a ha
  obtain ⟨i, hi, rfl⟩ := List.mem_map.mp ha
  exact ⟨i, Nat.lt_of_lt_of_le (List.mem_range.mp hi) hn, rfl⟩

theorem PassedOver.length_le (h : PassedOver P cs) : cs.length ≤ P := by
  obtain ⟨xs, c, rfl, -, -, hopen, -, -⟩ := h
  rw [List.length_append]
  exact length_lt hopen

theorem FillsPage.length_le (h : FillsPage P cs) : cs.length ≤ P := by
  obtain ⟨xs, c, rfl, -, -, hopen, -⟩ := h
  rw [List.length_append]
  exact length_lt hopen

/-- The search goes on from where it has come to. -/
theorem Searched.search_eq (alloc : Allocation) (h : Searched P head before rest) :
    ∃ as : List Access, Within P as ∧
      search alloc P [] 0 head = (search alloc P before 0 rest).map (Traced.after as) := by
  induction h with
  | start =>
    refine ⟨[], by simp [Within], ?_⟩
    cases search alloc P [] 0 head <;> rfl
  | unaligned _ ho ih =>
    rwa [search_unaligned ho] at ih
  | @passed before cs next tmp _ hover ih =>
    obtain ⟨as, has, heq⟩ := ih
    refine ⟨as ++ candidateAccesses cs.length,
      has.append (within_candidateAccesses hover.length_le), ?_⟩
    · rw [heq, search_passed hover]
      cases search alloc P (before ++ (cs ++ [tmp])) 0 next with
      | error fault => rfl
      | ok r => simp only [Except.map, Traced.after_after]

theorem Searched.exists_end (hP : 0 < P) (h : Searched P head before rest) :
    ∃ before' rest', Searched P head before' rest' ∧ SearchEnd P rest' := by
  induction hn : rest.length using Nat.strong_induction_on generalizing before rest with
  | h n ih =>
    subst hn
    cases rest with
    | nil => exact ⟨before, [], h, .stepsOff rfl⟩
    | cons tmp next =>
      by_cases ho : tmp.offset % P = 0
      · have hstart : StartsPage P (tmp :: next) := ⟨tmp, rfl, ho⟩
        obtain ⟨hall, hopen⟩ | ⟨xs, c, tail, hlist, hxs, hopen, hend⟩ :=
          scan_cases P [] (tmp :: next) (not_full_nil hP)
        · exact ⟨before, _, h, .unfinished ⟨hstart, hall, hopen⟩⟩
        rw [hlist, ← List.singleton_append, ← List.append_assoc] at hstart
        have hstart' := hstart.of_append (by simp)
        have hcs : tmp :: next = xs ++ [c] ++ tail := by
          rw [hlist, List.append_assoc]
          rfl
        obtain hc | ⟨hc, hfull⟩ := hend
        · exact ⟨before, _, h,
            .found (xs ++ [c]) tail hcs ⟨xs, c, rfl, hstart', hxs, hopen, .inl hc⟩⟩
        by_cases hlen : totalLength (xs ++ [c]) = P
        · exact ⟨before, _, h,
            .found (xs ++ [c]) tail hcs ⟨xs, c, rfl, hstart', hxs, hopen, .inr hlen⟩⟩
        have hover : PassedOver P (xs ++ [c]) :=
          ⟨xs, c, rfl, hstart', concat_not_crosses hxs hc, hopen, hfull, hlen⟩
        cases tail with
        | nil =>
          rw [List.append_nil] at hcs
          exact ⟨before, _, h, .overEnd (by rwa [hcs])⟩
        | cons t tail =>
          rw [hcs] at h
          have hshort : tail.length < (tmp :: next).length := by
            rw [hcs, List.length_append, List.length_cons]
            omega
          exact ih tail.length hshort (h.passed hover) rfl
      · exact ih next.length (Nat.lt_succ_self _) (h.unaligned ho) rfl

end search

/-- The ways in which a search can end, each with what it returns. -/
inductive SearchOutcome (alloc : Allocation) (P : Nat) (head : List FlashBlock) :
    Except Fault (Traced (Option (List FlashBlock × Extraction))) → Prop
  | stepsOff (before : List FlashBlock) (as : List Access) (within : Within P as)
      (searched : Searched P head before []) :
      SearchOutcome alloc P head (.ok ⟨none, as ++ [.nullNode]⟩)
  | ends (before rest : List FlashBlock) (as : List Access) (within : Within P as)
      (searched : Searched P head before rest) (stop : Unfinished P rest ∨ PassedOver P rest) :
      SearchOutcome alloc P head (.ok ⟨none, as⟩)
  | whole (before cs tail : List FlashBlock) (as : List Access) (within : Within P as)
      (searched : Searched P head before (cs ++ tail)) (fills : FillsPage P cs)
      (length : totalLength cs = P) :
      SearchOutcome alloc P head (.ok ⟨some (before, ⟨cs, P, tail⟩), as⟩)
  | wraps (before xs tail : List FlashBlock) (c : FlashBlock)
      (searched : Searched P head before (xs ++ [c] ++ tail)) (fills : FillsPage P (xs ++ [c]))
      (crosses : Crosses P c) (short : c.length < P - totalLength xs) :
      SearchOutcome alloc P head (.error .lengthWraps)
  | cut (before xs tail : List FlashBlock) (c : FlashBlock) (as : List Access)
      (within : Within P as) (searched : Searched P head before (xs ++ [c] ++ tail))
      (fills : FillsPage P (xs ++ [c])) (crosses : Crosses P c) (less : totalLength xs < P)
      (long : P - totalLength xs ≤ c.length) :
      SearchOutcome alloc P head
        ((insert alloc tail (c.cutOff (P - totalLength xs))).map fun r =>
          ⟨some (before, ⟨xs ++ [c.take (P - totalLength xs)], P, r.value⟩), as ++ r.accesses⟩)

section outcome

variable {P : Nat} {alloc : Allocation} {head before rest cs xs tail : List FlashBlock}
  {c : FlashBlock} {as : List Access}

theorem totalLength_cut (hlt : totalLength xs ≤ P) (hn : P - totalLength xs ≤ c.length) :
    totalLength (xs ++ [c.take (P - totalLength xs)]) = P := by
  rw [totalLength_append, totalLength_cons, totalLength_nil, c.length_take hn]
  omega

/-- A scan that cuts its last candidate decides the search. -/
theorem Searched.search_cut (alloc : Allocation) (hs : Searched P head before (xs ++ [c] ++ tail))
    (hf : FillsPage P (xs ++ [c])) (hc : Crosses P c) :
    totalLength xs < P ∧ ∃ as : List Access, Within P as ∧ search alloc P [] 0 head =
      if c.length < P - totalLength xs then .error .lengthWraps
      else
        (insert alloc tail (c.cutOff (P - totalLength xs))).map fun r =>
          ⟨some (before, ⟨xs ++ [c.take (P - totalLength xs)], P, r.value⟩),
            as ++ r.accesses⟩ := by
  obtain ⟨as, has, heq⟩ := hs.search_eq alloc
  have hle := hf.length_le
  obtain ⟨ys, d, hlist, hstart, hys, hopen, -⟩ := hf
  obtain ⟨rfl, hd⟩ := List.append_inj' hlist rfl
  obtain rfl : c = d := List.singleton_inj.mp hd
  refine ⟨totalLength_lt hopen, as ++ candidateAccesses (xs.length + 1),
    has.append (within_candidateAccesses (by simpa using hle)), ?_⟩
  rw [heq, FragmentNodes.search_cut hys hstart hopen hc]
  split
  · rfl
  · cases insert alloc tail (c.cutOff (P - totalLength xs)) with
    | error fault => rfl
    | ok r => simp only [Except.map, Traced.after, List.append_assoc]

theorem search_outcome (alloc : Allocation) (hP : 0 < P) (head : List FlashBlock) :
    SearchOutcome alloc P head (search alloc P [] 0 head) := by
  have hstart0 : Searched P head [] head := .start
  obtain ⟨before, rest, hs, hend⟩ := hstart0.exists_end hP
  obtain ⟨as, has, heq⟩ := hs.search_eq alloc
  cases hend with
  | stepsOff hempty =>
    subst hempty
    rw [heq]
    exact .stepsOff before as has hs
  | unfinished hscan =>
    rw [heq, search_unfinished hscan]
    exact .ends before rest _ (has.append
      (within_candidateAccesses (Nat.le_of_lt (length_lt hscan.2.2)))) hs (.inl hscan)
  | overEnd hscan =>
    rw [heq, search_over hscan]
    exact .ends before rest _ (has.append (within_candidateAccesses hscan.length_le)) hs
      (.inr hscan)
  | found cs tail hlist hfills =>
    subst hlist
    have hfills' := hfills
    obtain ⟨xs, c, rfl, hstart, hxs, hopen, hlast⟩ := hfills'
    by_cases hc : Crosses P c
    · obtain ⟨hless, bs, hbs, heq'⟩ := hs.search_cut alloc hfills hc
      rw [heq']
      split
      · next hshort => exact .wraps before xs tail c hs hfills hc hshort
      · next hlong =>
        exact .cut before xs tail c bs hbs hs hfills hc hless (Nat.le_of_not_lt hlong)
    · have hlen := hlast.resolve_left hc
      have hall := concat_not_crosses hxs hc
      rw [heq, search_whole hall hstart hopen hlen]
      exact .whole before (xs ++ [c]) tail _
        (has.append (within_candidateAccesses hfills.length_le)) hs hfills hlen

/-- A scan that takes a page decides the search. -/
theorem Searched.search_ne_none (h : Searched P head before (cs ++ tail)) (hf : FillsPage P cs) :
    search alloc P [] 0 head ≠ .ok ⟨none, as⟩ := by
  obtain ⟨bs, -, hsearch⟩ := h.search_eq alloc
  obtain ⟨xs, c, rfl, hstart, hxs, hopen, hend⟩ := hf
  intro hnone
  rw [hsearch] at hnone
  by_cases hcross : Crosses P c
  · rw [FragmentNodes.search_cut hxs hstart hopen hcross] at hnone
    split at hnone
    · cases hnone
    · cases hins : insert alloc tail (c.cutOff (P - totalLength xs)) with
      | error fault =>
        rw [hins] at hnone
        cases hnone
      | ok r =>
        rw [hins] at hnone
        cases hnone
  · have hall := concat_not_crosses hxs hcross
    rw [search_whole hall hstart hopen (hend.resolve_left hcross)] at hnone
    cases hnone

theorem assemble_none (flashBlockArray : Buffer UInt8 P) (binary : Bool)
    (h : search alloc P [] 0 head = .ok ⟨none, as⟩) :
    assemble alloc head flashBlockArray binary = .ok ⟨(head, flashBlockArray, none), as⟩ := by
  rw [assemble, h]
  rfl

/-- What a page is assembled of is deleted, each fragment by its offset. -/
theorem assemble_copied {flashBlockArray a : Buffer UInt8 P}
    (h : search alloc P [] 0 head = .ok ⟨some (before, ⟨cs, P, tail⟩), as⟩)
    (hcopy : copyCandidates flashBlockArray 0 cs = some a) :
    assemble alloc head flashBlockArray true =
      .ok ⟨(cs.foldl (fun tmp c => FragmentedFlashBlockList.delete tmp c.offset)
          (before ++ cs ++ tail), a, cs.head?.map fun c => ⟨c.offset, a.bytes⟩),
        as ++ candidateAccesses cs.length⟩ := by
  rw [assemble, h]
  simp only [Except.bind, if_true, hcopy, deleteAll_eq, List.append_nil]
  rfl

end outcome

end FragmentNodes

end RenesasDemo.Ota
