import RenesasDemo.Ota.PageAssembly

namespace RenesasDemo.Ota

open Framework FragmentedFlashBlockList

/-- What a step of the list code touches, as far as it may be wrong. -/
inductive Access where
  /-- A field of the node behind a NULL pointer; the value read makes no difference. -/
  | nullNode
  /-- `flash_block_candidate[ index ]` -/
  | candidate (index : Nat)
  deriving DecidableEq

/-- What C leaves undefined. -/
inductive Fault where
  | nullWrite
  /-- What is cut off a fragment would have a negative length, as a `uint32_t` about 2^32. -/
  | lengthWraps
  /-- A copy behind the end of the page. -/
  | overrun
  deriving DecidableEq

/-- A result and what was touched on the way. -/
@[ext] structure Traced (α : Type*) where
  value : α
  accesses : List Access
  deriving DecidableEq

/-- Which of the two requests of an insertion for memory are served. -/
structure Allocation where
  node : Bool
  binary : Bool
  deriving DecidableEq

def Allocation.served : Allocation := ⟨true, true⟩

/-- What is cut off a fragment; its offset is a `uint32_t`. -/
def FlashBlock.cutOff (b : FlashBlock) (n : Nat) : FlashBlock :=
  ⟨(b.offset + n) % 2 ^ 32, b.binary.drop n⟩

namespace FragmentNodes

/-- The offset of `current` is compared before `current` is. -/
def insertLoop (new : FlashBlock) : List FlashBlock → Traced (List FlashBlock)
  | [] => ⟨[new], [.nullNode]⟩
  | current :: next =>
      if new.offset < current.offset then ⟨new :: current :: next, []⟩
      else ⟨current :: (insertLoop new next).value, (insertLoop new next).accesses⟩

/-- The member of a node is assigned before the node is checked; the list is lost when there is no
memory for the bytes. -/
def insert (alloc : Allocation) (head : List FlashBlock) (new : FlashBlock) :
    Except Fault (Traced (List FlashBlock)) :=
  if alloc.node then
    if alloc.binary then
      match head with
      | [] => .ok ⟨[new], []⟩
      | current :: next => .ok (insertLoop new (current :: next))
    else .ok ⟨[], []⟩
  else .error .nullWrite

/-- The search for the node to delete, `before` being the nodes already passed; NULL is returned
when no node has the offset. -/
def deleteLoop (offset : Nat) : List FlashBlock → List FlashBlock → Traced (List FlashBlock)
  | _, [] => ⟨[], [.nullNode]⟩
  | before, tmp :: next =>
      if tmp.offset = offset then ⟨before ++ next, []⟩
      else
        match next with
        | [] => ⟨[], []⟩
        | _ :: _ => deleteLoop offset (before ++ [tmp]) next

def delete (head : List FlashBlock) (offset : Nat) : Traced (List FlashBlock) :=
  match head with
  | [] => ⟨[], []⟩
  | tmp :: next => deleteLoop offset [] (tmp :: next)

def sizeofFragmentedFlashBlockList : Nat := 16

/-- The sums that are logged: `total_heap_length` and `total_list_count`. -/
def printLoop (totalHeapLength totalListCount : Nat) : List FlashBlock → Traced (Nat × Nat)
  | [] => ⟨(totalHeapLength, totalListCount), [.nullNode]⟩
  | tmp :: next =>
      let heapLength := totalHeapLength + sizeofFragmentedFlashBlockList + tmp.length
      match next with
      | [] => ⟨(heapLength, totalListCount + 1), []⟩
      | _ :: _ => printLoop heapLength (totalListCount + 1) next

def print (head : List FlashBlock) : Traced (Nat × Nat) :=
  match head with
  | [] => ⟨(0, 0), []⟩
  | tmp :: next => printLoop 0 0 (tmp :: next)

/-- The test whether a fragment reaches into the page behind that of its offset. -/
def Crosses (P : Nat) (tmp : FlashBlock) : Prop :=
  (pageTop P tmp.offset + P) % 2 ^ 32 < (tmp.offset + tmp.length) % 2 ^ 32

instance (P : Nat) (tmp : FlashBlock) : Decidable (Crosses P tmp) :=
  inferInstanceAs (Decidable (_ < _))

/-- The scan of a page's candidates from the node `tmp` on. The lengths of fragments that are in
memory at once do not add up to 2^32. -/
def extract (alloc : Allocation) (P : Nat) :
    Nat → Nat → List FlashBlock → Except Fault (Traced Extraction)
  | _, assembledLength, [] => .ok ⟨⟨[], assembledLength, []⟩, []⟩
  | loopCounter, assembledLength, tmp :: next =>
      if P ≤ assembledLength ∨ P ≤ loopCounter then
        .ok ⟨⟨[], assembledLength, tmp :: next⟩, []⟩
      else if Crosses P tmp then
        let fragmentedLength := P - assembledLength
        if tmp.length < fragmentedLength then .error .lengthWraps
        else
          (insert alloc next (tmp.cutOff fragmentedLength)).map fun r =>
            ⟨⟨[tmp.take fragmentedLength], P, r.value⟩, .candidate loopCounter :: r.accesses⟩
      else
        (extract alloc P (loopCounter + 1) (assembledLength + tmp.length) next).map fun r =>
          ⟨{ r.value with candidates := tmp :: r.value.candidates },
            .candidate loopCounter :: r.accesses⟩

/-- The search for a page, `before` being the nodes already passed. A scan that ends with the list
ends the search; after another one that does not fill a page the node behind is skipped too. -/
def search (alloc : Allocation) (P : Nat) : List FlashBlock → Nat → List FlashBlock →
    Except Fault (Traced (Option (List FlashBlock × Extraction)))
  | _, _, [] => .ok ⟨none, [.nullNode]⟩
  | before, skip + 1, tmp :: next => search alloc P (before ++ [tmp]) skip next
  | before, 0, tmp :: next =>
      if tmp.offset % P = 0 then
        (extract alloc P 0 0 (tmp :: next)).bind fun r =>
          if r.value.assembledLength = P then .ok ⟨some (before, r.value), r.accesses⟩
          else if r.value.tail = [] then .ok ⟨none, r.accesses⟩
          else
            (search alloc P (before ++ [tmp]) r.value.candidates.length next).map fun s =>
              ⟨s.value, r.accesses ++ s.accesses⟩
      else search alloc P (before ++ [tmp]) 0 next

/-- The deletion of the candidates, each by its offset. -/
def deleteAll : List FlashBlock → List FlashBlock → Traced (List FlashBlock)
  | [], tmp => ⟨tmp, []⟩
  | c :: candidates, tmp =>
      let deleted := delete tmp c.offset
      ⟨(deleteAll candidates deleted.value).value,
        deleted.accesses ++ (deleteAll candidates deleted.value).accesses⟩

/-- The new list, the array the page was assembled in, and the page if one was found; `binary`
tells whether `flash_block->binary` leads to the array. -/
def assemble {P : Nat} (alloc : Allocation) (head : List FlashBlock)
    (flashBlockArray : Buffer UInt8 P) (binary : Bool) :
    Except Fault (Traced (List FlashBlock × Buffer UInt8 P × Option FlashBlock)) :=
  (search alloc P [] 0 head).bind fun r =>
    match r.value with
    | none => .ok ⟨(head, flashBlockArray, none), r.accesses⟩
    | some (before, e) =>
        if binary then
          match copyCandidates flashBlockArray 0 e.candidates with
          | none => .error .overrun
          | some a =>
              let remaining := deleteAll e.candidates (before ++ e.candidates ++ e.tail)
              .ok ⟨(remaining.value, a, e.candidates.head?.map fun c => ⟨c.offset, a.bytes⟩),
                r.accesses ++ (List.range e.candidates.length).map .candidate ++
                  remaining.accesses⟩
        else .error .nullWrite

theorem insertLoop_value (new : FlashBlock) (l : List FlashBlock) :
    (insertLoop new l).value = FragmentedFlashBlockList.insert l new := by
  induction l with
  | nil => rfl
  | cons current next ih =>
    rw [insertLoop, FragmentedFlashBlockList.insert]
    split
    · rfl
    · rw [ih]

theorem insert_served (head : List FlashBlock) (new : FlashBlock) :
    ∃ as, insert .served head new = .ok ⟨FragmentedFlashBlockList.insert head new, as⟩ := by
  cases head with
  | nil => exact ⟨[], rfl⟩
  | cons current next =>
    refine ⟨(insertLoop new (current :: next)).accesses, ?_⟩
    rw [← insertLoop_value]
    rfl

theorem deleteLoop_eq (offset : Nat) (before : List FlashBlock) (tmp : FlashBlock)
    (next : List FlashBlock) : deleteLoop offset before (tmp :: next) =
      ⟨if (tmp :: next).any (·.offset = offset) then
        before ++ (tmp :: next).eraseP (·.offset = offset) else [], []⟩ := by
  induction next generalizing before tmp with
  | nil =>
    rw [deleteLoop]
    by_cases ho : tmp.offset = offset <;> simp [ho]
  | cons t next ih =>
    by_cases ho : tmp.offset = offset
    · simp [deleteLoop, ho]
    · have hcons : (tmp :: t :: next).eraseP (·.offset = offset) =
          tmp :: (t :: next).eraseP (·.offset = offset) :=
        List.eraseP_cons_of_neg (by simpa using ho)
      have hany : (tmp :: t :: next).any (·.offset = offset) =
          (t :: next).any (·.offset = offset) := by
        rw [List.any_cons, decide_eq_false ho, Bool.false_or]
      rw [deleteLoop, if_neg ho, hcons, hany, ih, List.append_assoc]
      rfl

theorem delete_eq (head : List FlashBlock) (offset : Nat) :
    delete head offset = ⟨FragmentedFlashBlockList.delete head offset, []⟩ := by
  cases head with
  | nil => rfl
  | cons tmp next =>
    rw [delete, deleteLoop_eq]
    rfl

theorem deleteAll_eq (cs tmp : List FlashBlock) :
    deleteAll cs tmp =
      ⟨cs.foldl (fun tmp c => FragmentedFlashBlockList.delete tmp c.offset) tmp, []⟩ := by
  induction cs generalizing tmp with
  | nil => rfl
  | cons c cs ih =>
    rw [deleteAll]
    simp only [ih, delete_eq]
    rfl

theorem print_accesses (head : List FlashBlock) : (print head).accesses = [] := by
  have hloop : ∀ (tmp : FlashBlock) (next : List FlashBlock) (h n : Nat),
      (printLoop h n (tmp :: next)).accesses = [] := by
    intro tmp next
    induction next generalizing tmp with
    | nil => exact fun _ _ => rfl
    | cons t next ih => exact fun _ _ => ih t _ _
  cases head with
  | nil => rfl
  | cons tmp next => exact hloop tmp next 0 0

/-- A scan with these candidates does not go on. -/
def Full (P : Nat) (cs : List FlashBlock) : Prop := P ≤ totalLength cs ∨ P ≤ cs.length

def candidateAccesses (n : Nat) : List Access := (List.range n).map .candidate

section scan

variable {P : Nat} {alloc : Allocation} {pre xs tail : List FlashBlock} {c : FlashBlock}

theorem Full.append (h : Full P xs) (ys : List FlashBlock) : Full P (xs ++ ys) := by
  rw [Full, totalLength_append, List.length_append]
  obtain h | h := h
  · exact .inl (Nat.le_add_right_of_le h)
  · exact .inr (Nat.le_add_right_of_le h)

/-- A scan that has come to `pre`. -/
def extractFrom (alloc : Allocation) (P : Nat) (pre l : List FlashBlock) :
    Except Fault (Traced Extraction) :=
  (extract alloc P pre.length (totalLength pre) l).map fun r =>
    ⟨{ r.value with candidates := pre ++ r.value.candidates },
      candidateAccesses pre.length ++ r.accesses⟩

theorem extract_eq_extractFrom (l : List FlashBlock) :
    extract alloc P 0 0 l = extractFrom alloc P [] l := by
  rw [extractFrom]
  show _ = (extract alloc P 0 0 l).map _
  cases extract alloc P 0 0 l <;> rfl

theorem extractFrom_nil : extractFrom alloc P pre [] =
    .ok ⟨⟨pre, totalLength pre, []⟩, candidateAccesses pre.length⟩ := by
  simp [extractFrom, extract, Except.map]

theorem extractFrom_full (h : Full P pre) (l : List FlashBlock) : extractFrom alloc P pre l =
    .ok ⟨⟨pre, totalLength pre, l⟩, candidateAccesses pre.length⟩ := by
  cases l with
  | nil => exact extractFrom_nil
  | cons tmp next =>
    have hstop : P ≤ totalLength pre ∨ P ≤ pre.length := h
    simp [extractFrom, extract, if_pos hstop, Except.map]

theorem candidateAccesses_succ (n : Nat) :
    candidateAccesses (n + 1) = candidateAccesses n ++ [.candidate n] := by
  rw [candidateAccesses, List.range_succ, List.map_append]
  rfl

theorem extractFrom_cons (h : ¬ Full P pre) (hc : ¬ Crosses P c) (l : List FlashBlock) :
    extractFrom alloc P pre (c :: l) = extractFrom alloc P (pre ++ [c]) l := by
  have hmore : ¬ (P ≤ totalLength pre ∨ P ≤ pre.length) := h
  have htotal : totalLength (pre ++ [c]) = totalLength pre + c.length := by simp
  rw [extractFrom, extract, if_neg hmore, if_neg hc, extractFrom, htotal, List.length_append,
    List.length_singleton]
  cases extract alloc P (pre.length + 1) (totalLength pre + c.length) l with
  | error fault => rfl
  | ok r =>
    simp only [Except.map, candidateAccesses_succ, List.append_assoc, List.singleton_append]

theorem extractFrom_append (h : ¬ Full P (pre ++ xs)) (hxs : ∀ b ∈ xs, ¬ Crosses P b)
    (l : List FlashBlock) :
    extractFrom alloc P pre (xs ++ l) = extractFrom alloc P (pre ++ xs) l := by
  induction xs generalizing pre with
  | nil => rw [List.nil_append, List.append_nil]
  | cons c xs ih =>
    have hpre : ¬ Full P pre := fun hfull => h (hfull.append _)
    have hmore : ¬ Full P (pre ++ [c] ++ xs) := by rwa [List.append_assoc]
    rw [List.cons_append, extractFrom_cons hpre (hxs c List.mem_cons_self),
      ih hmore fun b hb => hxs b (List.mem_cons_of_mem c hb), List.append_assoc]
    rfl

theorem extractFrom_open (alloc : Allocation) (h : ¬ Full P xs) (hxs : ∀ b ∈ xs, ¬ Crosses P b)
    (l : List FlashBlock) : extractFrom alloc P [] (xs ++ l) = extractFrom alloc P xs l :=
  extractFrom_append h hxs l

theorem extractFrom_crosses (h : ¬ Full P pre) (hc : Crosses P c) (l : List FlashBlock) :
    extractFrom alloc P pre (c :: l) =
      if c.length < P - totalLength pre then .error .lengthWraps
      else
        (insert alloc l (c.cutOff (P - totalLength pre))).map fun r =>
          ⟨⟨pre ++ [c.take (P - totalLength pre)], P, r.value⟩,
            candidateAccesses (pre.length + 1) ++ r.accesses⟩ := by
  have hmore : ¬ (P ≤ totalLength pre ∨ P ≤ pre.length) := h
  rw [extractFrom, extract, if_neg hmore, if_pos hc]
  simp only
  split
  · rfl
  · cases insert alloc l (c.cutOff (P - totalLength pre)) with
    | error fault => rfl
    | ok r =>
      simp only [Except.map, candidateAccesses_succ, List.append_assoc, List.singleton_append]

/-- A scan comes to the end of the list, has enough, or comes to a fragment that crosses. -/
theorem scan_cases (P : Nat) (pre l : List FlashBlock) (h : ¬ Full P pre) :
    ((∀ b ∈ l, ¬ Crosses P b) ∧ ¬ Full P (pre ++ l)) ∨
      ∃ (xs : List FlashBlock) (c : FlashBlock) (tail : List FlashBlock),
        l = xs ++ c :: tail ∧ (∀ b ∈ xs, ¬ Crosses P b) ∧ ¬ Full P (pre ++ xs) ∧
          (Crosses P c ∨ ¬ Crosses P c ∧ Full P (pre ++ (xs ++ [c]))) := by
  induction l generalizing pre with
  | nil => exact .inl ⟨by simp, by rwa [List.append_nil]⟩
  | cons c l ih =>
    by_cases hc : Crosses P c
    · exact .inr ⟨[], c, l, rfl, by simp, by rwa [List.append_nil], .inl hc⟩
    by_cases hfull : Full P (pre ++ [c])
    · exact .inr ⟨[], c, l, rfl, by simp, by rwa [List.append_nil], .inr ⟨hc, hfull⟩⟩
    have hhead : ∀ ys : List FlashBlock, pre ++ [c] ++ ys = pre ++ c :: ys := by simp
    obtain ⟨hall, hopen⟩ | ⟨xs, d, tail, rfl, hxs, hopen, hend⟩ := ih (pre ++ [c]) hfull
    · refine .inl ⟨?_, by rwa [hhead] at hopen⟩
      intro b hb
      obtain rfl | hb := List.mem_cons.mp hb
      · exact hc
      · exact hall b hb
    · refine .inr ⟨c :: xs, d, tail, rfl, ?_, by rwa [hhead] at hopen, by rwa [hhead] at hend⟩
      intro b hb
      obtain rfl | hb := List.mem_cons.mp hb
      · exact hc
      · exact hxs b hb

end scan

/-- No position is near 2^32. -/
def FarBelow (P : Nat) (l : List FlashBlock) : Prop :=
  ∀ b ∈ l, b.offset + b.length + P < 2 ^ 32

section agrees

variable {P : Nat} {head l : List FlashBlock} {b : FlashBlock}

theorem crosses_iff (h : b.offset + b.length + P < 2 ^ 32) :
    Crosses P b ↔ pageTop P b.offset + P < b.offset + b.length := by
  have htop : pageTop P b.offset ≤ b.offset := Nat.sub_le ..
  rw [Crosses, Nat.mod_eq_of_lt (by omega), Nat.mod_eq_of_lt (by omega)]

theorem extract_value (h : FarBelow P l) (k a : Nat) :
    (extract .served P k a l).toOption.map Traced.value =
      FragmentedFlashBlockList.extract P k a l := by
  induction l generalizing k a with
  | nil => rfl
  | cons tmp next ih =>
    have htmp := h tmp List.mem_cons_self
    have hnext : FarBelow P next := fun b hb => h b (List.mem_cons_of_mem tmp hb)
    rw [extract, FragmentedFlashBlockList.extract, ← ih hnext]
    simp only [crosses_iff htmp]
    split
    · rfl
    split
    · split
      · rfl
      · next hlong =>
        have hcut : tmp.cutOff (P - a) = tmp.drop (P - a) := by
          rw [FlashBlock.cutOff, Nat.mod_eq_of_lt (by omega)]
          rfl
        obtain ⟨as, hins⟩ := insert_served next (tmp.cutOff (P - a))
        rw [hins, hcut]
        rfl
    · cases extract .served P (k + 1) (a + tmp.length) next <;> rfl

theorem search_short {before : List FlashBlock} {skip : Nat} (h : l.length ≤ skip) :
    FragmentedFlashBlockList.search P before skip l = some none := by
  induction l generalizing before skip with
  | nil => rw [FragmentedFlashBlockList.search]
  | cons tmp next ih =>
    obtain ⟨skip, rfl⟩ := Nat.exists_eq_add_of_le' (Nat.lt_of_lt_of_le (Nat.succ_pos _) h)
    rw [FragmentedFlashBlockList.search]
    exact ih (Nat.le_of_succ_le_succ h)

theorem search_value (h : FarBelow P l) (before : List FlashBlock) (skip : Nat) :
    (search .served P before skip l).toOption.map Traced.value =
      FragmentedFlashBlockList.search P before skip l := by
  induction l generalizing before skip with
  | nil => cases skip <;> rfl
  | cons tmp next ih =>
    have hnext : FarBelow P next := fun b hb => h b (List.mem_cons_of_mem tmp hb)
    cases skip with
    | succ skip => exact ih hnext _ _
    | zero =>
      rw [search, FragmentedFlashBlockList.search]
      split
      · rw [← extract_value h]
        cases hscan : extract .served P 0 0 (tmp :: next) with
        | error fault => rfl
        | ok r =>
          have hext : Extracts P 0 (tmp :: next) r.value := by
            apply extract_extracts (k := 0)
            rw [← extract_value h, hscan]
            rfl
          show _ = if r.value.assembledLength = P then _ else _
          by_cases hfull : r.value.assembledLength = P
          · simp only [Except.bind, if_pos hfull]
            rfl
          by_cases hend : r.value.tail = []
          · -- a scan to the end of the list has all its nodes for candidates
            have hall : next.length ≤ r.value.candidates.length := by
              cases hext with
              | whole hlist _ =>
                rw [hend, List.append_nil] at hlist
                rw [← hlist]
                exact Nat.le_succ _
              | split cs tmp next n hlist hle hpos hlen hcross hres =>
                rw [hres] at hfull
                exact absurd rfl hfull
            simp only [Except.bind, if_neg hfull, if_pos hend, search_short hall]
            rfl
          · simp only [Except.bind, if_neg hfull, if_neg hend, ← ih hnext]
            cases search .served P (before ++ [tmp]) r.value.candidates.length next <;> rfl
      · exact ih hnext _ _

/-- Far below 2^32 a call with memory gives what the functions on lists give. -/
theorem assemble_value (h : FarBelow P head) (flashBlockArray : Buffer UInt8 P) :
    (assemble .served head flashBlockArray true).toOption.map Traced.value =
      FragmentedFlashBlockList.assemble head flashBlockArray := by
  rw [assemble, FragmentedFlashBlockList.assemble, ← search_value h]
  cases search .served P [] 0 head with
  | error fault => rfl
  | ok r =>
    cases hfound : r.value with
    | none => simp [Except.bind, Except.toOption, hfound]
    | some page =>
      simp only [Except.bind, Except.toOption, hfound, if_true, Option.map_some,
        Option.bind_some, deleteAll_eq]
      cases copyCandidates flashBlockArray 0 page.2.candidates <;> rfl

end agrees

end FragmentNodes

end RenesasDemo.Ota
