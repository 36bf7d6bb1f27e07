import RenesasDemo.Framework.Runs
import RenesasDemo.Ota.PageProperty

namespace RenesasDemo.Ota

open Framework FragmentedFlashBlockList FragmentNodes

/-- What `otaPal_WriteBlock` works on: a call that is in the assembly loop, and whether its
`flash_block.binary` leads to the array. -/
structure WriteState (P : Nat) where
  fragmentedFlashBlockList : List FlashBlock
  flashBlockArray : Buffer UInt8 P
  assembling : Bool
  binary : Bool

inductive WriteEvent where
  | writeBlock (ulOffset : UInt32) (pData : List UInt8)
  /-- One pass of the assembly loop. -/
  | assemble

namespace WriteState

variable {P : Nat}

def start (flashBlockArray : Buffer UInt8 P) : WriteState P := ⟨[], flashBlockArray, false, false⟩

/-- A step with memory and room in the queue. A second call waits for the semaphore. -/
def step (s : WriteState P) : WriteEvent → Except Fault (Traced (WriteState P))
  | .writeBlock ulOffset pData =>
      if s.assembling then .ok ⟨s, []⟩
      else if ulOffset.toNat % P = 0 ∧ pData.length % P = 0 then .ok ⟨s, []⟩
      else
        (FragmentNodes.insert .served s.fragmentedFlashBlockList ⟨ulOffset.toNat, pData⟩).map
          fun r => ⟨{ s with
            fragmentedFlashBlockList := r.value
            assembling := !r.value.isEmpty
            binary := true }, r.accesses⟩
  | .assemble =>
      if s.assembling then
        (FragmentNodes.assemble .served s.fragmentedFlashBlockList s.flashBlockArray s.binary).map
          fun r =>
            let s' := { s with
              fragmentedFlashBlockList := r.value.1
              flashBlockArray := r.value.2.1 }
            match r.value.2.2 with
            | some _ => ⟨s', r.accesses⟩
            | none =>
                ⟨{ s' with assembling := false, binary := false },
                  r.accesses ++ (FragmentNodes.print r.value.1).accesses⟩
      else .ok ⟨s, []⟩

/-- The assembly loop from a state on; no result where it needs more passes. -/
def assembleLoop : Nat → WriteState P → Option (Except Fault (Traced (WriteState P)))
  | 0, s => if s.assembling then none else some (.ok ⟨s, []⟩)
  | passes + 1, s =>
      if s.assembling then
        match s.step .assemble with
        | .error fault => some (.error fault)
        | .ok r =>
            (assembleLoop passes r.value).map fun result =>
              result.map fun t => ⟨t.value, r.accesses ++ t.accesses⟩
      else some (.ok ⟨s, []⟩)

end WriteState

/-- No field of a NULL node, and no place behind the array of candidates. -/
def Access.Safe (P : Nat) : Access → Prop
  | .nullNode => False
  | .candidate index => index < P

/-- Nothing is touched that must not be; there may only be a request for a length that no memory
has. -/
def ResultSafe {α : Type} (P : Nat) : Except Fault (Traced α) → Prop
  | .ok r => ∀ a ∈ r.accesses, a.Safe P
  | .error fault => fault = .lengthWraps

def StepSafe {P : Nat} (s : WriteState P) (e : WriteEvent) : Prop := ResultSafe P (s.step e)

instance (P : Nat) : (a : Access) → Decidable (a.Safe P)
  | .nullNode => inferInstanceAs (Decidable False)
  | .candidate index => inferInstanceAs (Decidable (index < P))

instance {α : Type} (P : Nat) : (x : Except Fault (Traced α)) → Decidable (ResultSafe P x)
  | .ok r => inferInstanceAs (Decidable (∀ a ∈ r.accesses, a.Safe P))
  | .error fault => inferInstanceAs (Decidable (fault = .lengthWraps))

/-- The insertion stops in front of a node, or has none to look at. -/
def StopsInside (head : List FlashBlock) (new : FlashBlock) : Prop :=
  head = [] ∨ ∃ b ∈ head, new.offset < b.offset

instance (head : List FlashBlock) (new : FlashBlock) : Decidable (StopsInside head new) :=
  inferInstanceAs (Decidable (_ ∨ ∃ b ∈ head, _))

/-- The search does not go behind the list, and the rest of a fragment that is cut is inserted
in front of a node. -/
def StaysInside (P : Nat) (head : List FlashBlock) : Prop :=
  (∀ before, ¬ FragmentNodes.Searched P head before []) ∧
    ∀ before xs c tail, FragmentNodes.Searched P head before (xs ++ [c] ++ tail) →
      FragmentNodes.FillsPage P (xs ++ [c]) → FragmentNodes.Crosses P c →
        P ≤ totalLength (xs ++ [c]) → StopsInside tail (c.cutOff (P - totalLength xs))

/-- What the state before a step has to meet. -/
def StepInside {P : Nat} (s : WriteState P) : WriteEvent → Prop
  | .writeBlock ulOffset pData =>
      s.assembling = true ∨ ulOffset.toNat % P = 0 ∧ pData.length % P = 0 ∨
        StopsInside s.fragmentedFlashBlockList ⟨ulOffset.toNat, pData⟩
  | .assemble => s.assembling = true → StaysInside P s.fragmentedFlashBlockList

namespace FragmentNodes

section access

variable {P : Nat} {head l cs : List FlashBlock} {new : FlashBlock} {as bs : List Access}

theorem insertLoop_accesses (new : FlashBlock) (l : List FlashBlock) :
    (insertLoop new l).accesses = if ∃ b ∈ l, new.offset < b.offset then [] else [.nullNode] := by
  induction l with
  | nil => simp [insertLoop]
  | cons current next ih =>
    rw [insertLoop]
    by_cases hlt : new.offset < current.offset
    · simp [hlt]
    · simp [hlt, ih]

/-- An insertion reads through NULL exactly behind a list with no larger offset. -/
theorem insert_accesses (head : List FlashBlock) (new : FlashBlock) :
    insert .served head new = .ok ⟨FragmentedFlashBlockList.insert head new,
      if StopsInside head new then [] else [.nullNode]⟩ := by
  cases head with
  | nil => rfl
  | cons current next =>
    show Except.ok (insertLoop new (current :: next)) = _
    congr 1
    refine Traced.ext (insertLoop_value new _) ?_
    rw [insertLoop_accesses]
    simp [StopsInside]

theorem Within.safe (h : Within P as) : ∀ a ∈ as, a.Safe P := by
  intro a ha
  obtain ⟨i, hi, rfl⟩ := h a ha
  exact hi

theorem copyCandidates_total {index : Nat} (flashBlockArray : Buffer UInt8 P)
    (hfirst : ∀ c ∈ cs.head?, index + c.length ≤ P)
    (hnext : ∀ xs b c ys, cs = xs ++ b :: c :: ys → b.length + c.length ≤ P) :
    ∃ a, copyCandidates flashBlockArray index cs = some a := by
  induction cs generalizing flashBlockArray index with
  | nil => exact ⟨flashBlockArray, rfl⟩
  | cons b cs ih =>
    obtain ⟨a, ha, -⟩ := flashBlockArray.memcpy_of_le index b.binary (hfirst b rfl)
    rw [copyCandidates, ha]
    apply ih
    · intro c hc
      obtain ⟨ys, rfl⟩ : ∃ ys, cs = c :: ys := List.head?_eq_some_iff.mp hc
      exact hnext [] b c ys rfl
    · intro xs c d ys hcs
      exact hnext (b :: xs) c d ys (by rw [hcs]; rfl)

/-- Candidates with the bytes of a page are copied within the page. -/
theorem copyCandidates_page (flashBlockArray : Buffer UInt8 P) (h : totalLength cs = P) :
    ∃ a, copyCandidates flashBlockArray 0 cs = some a := by
  apply copyCandidates_total
  · intro c hc
    obtain ⟨ys, rfl⟩ : ∃ ys, cs = c :: ys := List.head?_eq_some_iff.mp hc
    rw [totalLength_cons] at h
    omega
  · intro xs b c ys hcs
    rw [hcs, totalLength_append, totalLength_cons, totalLength_cons] at h
    omega

theorem assemble_some (hP : 0 < P) (flashBlockArray : Buffer UInt8 P) {alloc : Allocation}
    {before tail : List FlashBlock}
    (h : search alloc P [] 0 head = .ok ⟨some (before, ⟨cs, P, tail⟩), as⟩)
    (hlen : totalLength cs = P) :
    ∃ (a : Buffer UInt8 P) (page : FlashBlock),
      assemble alloc head flashBlockArray true =
        .ok ⟨(cs.foldl (fun tmp c => FragmentedFlashBlockList.delete tmp c.offset)
            (before ++ cs ++ tail), a, some page), as ++ candidateAccesses cs.length⟩ := by
  obtain ⟨a, ha⟩ := copyCandidates_page flashBlockArray hlen
  cases cs with
  | nil =>
    rw [totalLength_nil] at hlen
    omega
  | cons c cs =>
    exact ⟨a, ⟨c.offset, a.bytes⟩, assemble_copied h ha⟩

end access

section weight

/-- A fragment counts its bytes and one more, and one without bytes counts two. -/
def weight (l : List FlashBlock) : Nat := (l.map fun b => max 2 (b.length + 1)).sum

@[simp] theorem weight_nil : weight [] = 0 := rfl

@[simp] theorem weight_cons (b : FlashBlock) (l : List FlashBlock) :
    weight (b :: l) = max 2 (b.length + 1) + weight l := List.sum_cons

@[simp] theorem weight_append (xs ys : List FlashBlock) :
    weight (xs ++ ys) = weight xs + weight ys := by
  simp [weight]

theorem weight_perm {l l' : List FlashBlock} (h : l.Perm l') : weight l = weight l' :=
  (h.map _).sum_nat

/-- A deletion takes a node away, or the list is lost. -/
theorem weight_delete (l : List FlashBlock) (offset : Nat) :
    FragmentedFlashBlockList.delete l offset = [] ∨
      weight (FragmentedFlashBlockList.delete l offset) + 2 ≤ weight l := by
  rw [FragmentedFlashBlockList.delete]
  split
  · next hany =>
    obtain ⟨b, hb, ho⟩ := List.any_eq_true.mp hany
    obtain ⟨c, xs, ys, -, -, hl, herase⟩ :=
      List.exists_of_eraseP (p := fun b : FlashBlock => b.offset = offset) hb ho
    refine .inr ?_
    rw [herase, hl]
    simp
    omega
  · exact .inl rfl

theorem foldl_delete_nil (cs : List FlashBlock) :
    cs.foldl (fun tmp c => FragmentedFlashBlockList.delete tmp c.offset) [] = [] := by
  induction cs with
  | nil => rfl
  | cons c cs ih => exact ih

theorem weight_foldl_delete (cs l : List FlashBlock) :
    cs.foldl (fun tmp c => FragmentedFlashBlockList.delete tmp c.offset) l = [] ∨
      weight (cs.foldl (fun tmp c => FragmentedFlashBlockList.delete tmp c.offset) l) +
        2 * cs.length ≤ weight l := by
  induction cs generalizing l with
  | nil => exact .inr (Nat.le_refl _)
  | cons c cs ih =>
    rw [List.foldl_cons, List.length_cons]
    obtain hlost | hone := weight_delete l c.offset
    · refine .inl ?_
      rw [hlost, foldl_delete_nil]
    · obtain hlost | hrest := ih (FragmentedFlashBlockList.delete l c.offset)
      · exact .inl hlost
      · refine .inr ?_
        omega

theorem weight_pos {cs : List FlashBlock} (h : cs ≠ []) : 2 ≤ weight cs := by
  cases cs with
  | nil => exact absurd rfl h
  | cons c cs =>
    rw [weight_cons]
    omega

/-- A fragment that is cut into two, the second one perhaps without bytes. -/
theorem weight_cut {c : FlashBlock} {n : Nat} (hn : n ≤ c.length) (hpos : 0 < n) :
    weight [c.take n] + weight [c.cutOff n] ≤ weight [c] + if n = c.length then 2 else 1 := by
  have htake : (c.take n).length = n := c.length_take hn
  have hcut : (c.cutOff n).length = c.length - n := List.length_drop
  simp only [weight_cons, weight_nil, htake, hcut]
  split <;> omega

end weight

section pass

variable {P : Nat} {head : List FlashBlock}

theorem FillsPage.ne_nil {cs : List FlashBlock} (h : FillsPage P cs) : cs ≠ [] := by
  obtain ⟨xs, c, rfl, -⟩ := h
  simp

/-- An insertion adds at most the fragment, and without memory it leaves nothing. -/
theorem weight_insert_le {alloc : Allocation} {tail : List FlashBlock} {new : FlashBlock}
    {r : Traced (List FlashBlock)} (h : insert alloc tail new = .ok r) :
    weight r.value ≤ weight [new] + weight tail := by
  obtain ⟨node, binary⟩ := alloc
  cases node with
  | false => cases h
  | true =>
    cases binary with
    | false =>
      obtain rfl := Except.ok.inj h
      exact Nat.zero_le _
    | true =>
      obtain rfl := Except.ok.inj ((insert_accesses tail new).symm.trans h)
      have hins := weight_perm (insert_perm tail new)
      rw [weight_cons] at hins
      rw [weight_cons, weight_nil]
      exact Nat.le_of_eq hins

/-- A pass hands out no page, or leaves a list of less weight, or comes to what C leaves
undefined. -/
theorem assemble_cases (hP : 0 < P) (alloc : Allocation) (head : List FlashBlock)
    (flashBlockArray : Buffer UInt8 P) :
    (∃ as, assemble alloc head flashBlockArray true =
        .ok ⟨(head, flashBlockArray, none), as⟩) ∨
      (∃ fault, assemble alloc head flashBlockArray true = .error fault) ∨
      ∃ l a page as, assemble alloc head flashBlockArray true = .ok ⟨(l, a, some page), as⟩ ∧
        weight l < weight head := by
  have hout := search_outcome alloc hP head
  generalize hsearch : search alloc P [] 0 head = result at hout
  cases hout with
  | stepsOff before as _ _ => exact .inl ⟨_, assemble_none flashBlockArray true hsearch⟩
  | ends before rest as _ _ _ => exact .inl ⟨_, assemble_none flashBlockArray true hsearch⟩
  | wraps before xs tail c _ _ _ _ =>
    refine .inr (.inl ⟨.lengthWraps, ?_⟩)
    rw [assemble, hsearch]
    rfl
  | whole before cs tail as _ hs hfills hlen =>
    obtain ⟨a, page, hres⟩ := assemble_some hP flashBlockArray hsearch hlen
    refine .inr (.inr ⟨_, _, _, _, hres, ?_⟩)
    have hlist : weight head = weight before + (weight cs + weight tail) := by
      rw [hs.list, weight_append, weight_append]
    have hpos := weight_pos hfills.ne_nil
    obtain hlost | hless := weight_foldl_delete cs (before ++ cs ++ tail)
    · rw [hlost, weight_nil]
      omega
    · have hcs := List.length_pos_of_ne_nil hfills.ne_nil
      rw [weight_append, weight_append] at hless
      omega
  | cut before xs tail c as _ hs hfills hcross hless hlong =>
    cases hins : insert alloc tail (c.cutOff (P - totalLength xs)) with
    | error fault =>
      rw [hins] at hsearch
      refine .inr (.inl ⟨fault, ?_⟩)
      rw [assemble, hsearch]
      rfl
    | ok r =>
      rw [hins] at hsearch
      simp only [Except.map] at hsearch
      have hcands := totalLength_cut (Nat.le_of_lt hless) hlong
      obtain ⟨a, page, hres⟩ := assemble_some hP flashBlockArray hsearch hcands
      refine .inr (.inr ⟨_, _, _, _, hres, ?_⟩)
      have hlist : weight head = weight before + (weight xs + weight [c] + weight tail) := by
        rw [hs.list, weight_append, weight_append, weight_append]
      have hpos := weight_pos (List.cons_ne_nil c [])
      obtain hlost | hdeleted := weight_foldl_delete (xs ++ [c.take (P - totalLength xs)])
          (before ++ (xs ++ [c.take (P - totalLength xs)]) ++ r.value)
      · rw [hlost, weight_nil]
        omega
      · have hrest := weight_insert_le hins
        have hcut := weight_cut hlong (by omega)
        rw [weight_append, weight_append, weight_append, List.length_append,
          List.length_singleton] at hdeleted
        -- alone, a fragment that crosses has more bytes than the page
        have hone : xs = [] → P - totalLength xs ≠ c.length := by
          intro hxs hlen
          subst hxs
          obtain ⟨ys, d, hys, hstart, -⟩ := hfills
          have hadj : Adjoining ([] ++ [c]) := List.isChain_singleton c
          exact hcross.ne_length hadj hstart hless hlen.symm
        by_cases hxs : xs = []
        · rw [if_neg (hone hxs)] at hcut
          omega
        · have hxslen := List.length_pos_of_ne_nil hxs
          split at hcut <;> omega

/-- A pass is safe exactly when its search and its insertion stay inside the list. -/
theorem assemble_safe_iff (hP : 0 < P) (head : List FlashBlock)
    (flashBlockArray : Buffer UInt8 P) :
    ResultSafe P (assemble .served head flashBlockArray true) ↔ StaysInside P head := by
  constructor
  · intro hsafe
    constructor
    · intro before hs
      obtain ⟨as, -, hsearch⟩ := hs.search_eq .served
      have hres := assemble_none flashBlockArray true hsearch
      rw [hres] at hsafe
      exact hsafe .nullNode (by simp)
    · intro before xs c tail hs hfills hcross hlong
      obtain ⟨hless, as, -, hsearch⟩ := hs.search_cut .served hfills hcross
      have htotal : totalLength (xs ++ [c]) = totalLength xs + c.length := by simp
      have hn : P - totalLength xs ≤ c.length := by omega
      rw [if_neg (Nat.not_lt_of_le hn), insert_accesses] at hsearch
      simp only [Except.map] at hsearch
      have hcands := totalLength_cut (Nat.le_of_lt hless) hn
      obtain ⟨a, page, hres⟩ := assemble_some hP flashBlockArray hsearch hcands
      rw [hres] at hsafe
      by_contra hoff
      rw [if_neg hoff] at hsafe
      exact hsafe .nullNode (by simp)
  · intro hinside
    have hout := search_outcome .served hP head
    generalize hsearch : search .served P [] 0 head = result at hout
    cases hout with
    | stepsOff before as _ hs => exact absurd hs (hinside.1 before)
    | ends before rest as has _ _ =>
      rw [assemble_none flashBlockArray true hsearch]
      exact has.safe
    | wraps before xs tail c _ _ _ _ =>
      rw [assemble, hsearch]
      exact rfl
    | whole before cs tail as has hs hfills hlen =>
      obtain ⟨a, page, hres⟩ := assemble_some hP flashBlockArray hsearch hlen
      rw [hres]
      exact (has.append (within_candidateAccesses hfills.length_le)).safe
    | cut before xs tail c as has hs hfills hcross hless hlong =>
      have htotal : totalLength (xs ++ [c]) = totalLength xs + c.length := by simp
      have hstop := hinside.2 before xs c tail hs hfills hcross (by omega)
      rw [insert_accesses, if_pos hstop] at hsearch
      simp only [Except.map, List.append_nil] at hsearch
      have hcands := totalLength_cut (Nat.le_of_lt hless) hlong
      obtain ⟨a, page, hres⟩ := assemble_some hP flashBlockArray hsearch hcands
      have hcount := hfills.length_le
      rw [List.length_append, List.length_singleton] at hcount
      rw [hres]
      exact (has.append (within_candidateAccesses (by simpa using hcount))).safe

end pass

end FragmentNodes

section steps

variable {P : Nat} {s t : WriteState P} {e : WriteEvent} {events : List WriteEvent}

/-- A call in the assembly loop has the array to assemble in. -/
def ArraySet (s : WriteState P) : Prop := s.assembling = true → s.binary = true

def WriteStep (s : WriteState P) (e : WriteEvent) (t : WriteState P) : Prop :=
  ∃ as, s.step e = .ok ⟨t, as⟩

theorem ArraySet.step (h : ArraySet s) (hstep : WriteStep s e t) : ArraySet t := by
  obtain ⟨as, hstep⟩ := hstep
  cases e with
  | writeBlock ulOffset pData =>
    rw [WriteState.step] at hstep
    split at hstep
    · obtain ⟨rfl, -⟩ := Traced.mk.inj (Except.ok.inj hstep)
      exact h
    split at hstep
    · obtain ⟨rfl, -⟩ := Traced.mk.inj (Except.ok.inj hstep)
      exact h
    · rw [insert_accesses] at hstep
      obtain ⟨rfl, -⟩ := Traced.mk.inj (Except.ok.inj hstep)
      exact fun _ => rfl
  | assemble =>
    rw [WriteState.step] at hstep
    split at hstep
    · next hbusy =>
      cases hres : FragmentNodes.assemble .served s.fragmentedFlashBlockList s.flashBlockArray
          s.binary with
      | error fault =>
        rw [hres] at hstep
        cases hstep
      | ok r =>
        rw [hres] at hstep
        have hok := Except.ok.inj hstep
        cases hpage : r.value.2.2 with
        | none =>
          simp only [hpage] at hok
          obtain ⟨rfl, -⟩ := Traced.mk.inj hok
          exact fun hidle => absurd hidle Bool.false_ne_true
        | some page =>
          simp only [hpage] at hok
          obtain ⟨rfl, -⟩ := Traced.mk.inj hok
          exact h
    · obtain ⟨rfl, -⟩ := Traced.mk.inj (Except.ok.inj hstep)
      exact h

theorem ResultSafe.map_iff {α β : Type} {f : Traced α → Traced β}
    (hf : ∀ r, (f r).accesses = r.accesses) (x : Except Fault (Traced α)) :
    ResultSafe P (x.map f) ↔ ResultSafe P x := by
  cases x with
  | error fault => exact .rfl
  | ok r =>
    show (∀ a ∈ (f r).accesses, a.Safe P) ↔ _
    rw [hf]
    exact .rfl

/-- A step is safe exactly when it stays inside the list. -/
theorem stepSafe_iff (hP : 0 < P) (h : ArraySet s) (e : WriteEvent) :
    StepSafe s e ↔ StepInside s e := by
  have hnothing : ResultSafe P (.ok ⟨s, []⟩) := fun a ha => absurd ha List.not_mem_nil
  cases e with
  | writeBlock ulOffset pData =>
    rw [StepSafe, StepInside, WriteState.step]
    by_cases hbusy : s.assembling = true
    · rw [if_pos hbusy]
      exact iff_of_true hnothing (.inl hbusy)
    rw [if_neg hbusy, or_iff_right hbusy]
    by_cases haligned : ulOffset.toNat % P = 0 ∧ pData.length % P = 0
    · rw [if_pos haligned]
      exact iff_of_true hnothing (.inl haligned)
    rw [if_neg haligned, or_iff_right haligned, ResultSafe.map_iff ?_, insert_accesses]
    swap
    · exact fun _ => rfl
    by_cases hstop : StopsInside s.fragmentedFlashBlockList ⟨ulOffset.toNat, pData⟩
    · rw [if_pos hstop]
      exact iff_of_true (fun a ha => absurd ha List.not_mem_nil) hstop
    · rw [if_neg hstop]
      exact iff_of_false (fun hsafe => hsafe .nullNode (List.mem_singleton_self _)) hstop
  | assemble =>
    rw [StepSafe, StepInside, WriteState.step]
    by_cases hbusy : s.assembling = true
    · rw [if_pos hbusy, h hbusy, ResultSafe.map_iff ?_, assemble_safe_iff hP]
      · exact ⟨fun hsafe _ => hsafe, fun hsafe => hsafe hbusy⟩
      · intro r
        cases hpage : r.value.2.2 with
        | none => simp [print_accesses]
        | some page => simp
    · rw [if_neg hbusy]
      exact iff_of_true hnothing fun hbusy' => absurd hbusy' hbusy

/-- The assembly loop comes to an end from every state: each page takes weight off the list. -/
theorem assembleLoop_ends (hP : 0 < P) (h : ArraySet s) :
    ∃ passes result, s.assembleLoop passes = some result := by
  induction hn : weight s.fragmentedFlashBlockList using Nat.strong_induction_on generalizing s with
  | h n ih =>
    subst hn
    by_cases hbusy : s.assembling = true
    · have hstep : s.step .assemble = _ := if_pos hbusy
      rw [h hbusy] at hstep
      obtain ⟨as, hres⟩ | ⟨fault, hres⟩ | ⟨l, a, page, as, hres, hless⟩ :=
        assemble_cases hP .served s.fragmentedFlashBlockList s.flashBlockArray
      · rw [hres] at hstep
        refine ⟨1, ?_⟩
        simp only [WriteState.assembleLoop, if_pos hbusy, hstep]
        exact ⟨_, rfl⟩
      · rw [hres] at hstep
        refine ⟨1, ?_⟩
        simp only [WriteState.assembleLoop, if_pos hbusy, hstep]
        exact ⟨_, rfl⟩
      · rw [hres] at hstep
        obtain ⟨passes, result, hloop⟩ := ih (weight l) hless
          (s := ⟨l, a, s.assembling, true⟩) (fun _ => rfl) rfl
        refine ⟨passes + 1, ?_⟩
        simp only [WriteState.assembleLoop, if_pos hbusy, hstep, Except.map, hloop]
        exact ⟨_, rfl⟩
    · exact ⟨0, _, if_neg hbusy⟩

/-- In every run whose steps stay inside the list every step is safe, and from every state the
assembly loop comes to an end; a step that goes behind the list is not safe. -/
theorem nodeAccess_run (hP : 0 < P) {flashBlockArray : Buffer UInt8 P}
    (h : Run (Guarded StepInside WriteStep) (.start flashBlockArray) events s) :
    (∀ e, StepSafe s e ↔ StepInside s e) ∧
      ∃ passes result, s.assembleLoop passes = some result := by
  have hset : ArraySet s := h.invariant (fun hbusy => absurd hbusy Bool.false_ne_true)
    fun s e t hs hstep => hs.step hstep.2
  exact ⟨stepSafe_iff hP hset, assembleLoop_ends hP hset⟩

end steps

/-- A fragment at a page's begin is written, and the scan for its page ends with the list. -/
theorem nodeAccess_run_begin :
    (∀ e, StepSafe (P := 4) ⟨[⟨0, [1, 2]⟩], ⟨[0, 0, 0, 0], rfl⟩, false, false⟩ e ↔
      StepInside (P := 4) ⟨[⟨0, [1, 2]⟩], ⟨[0, 0, 0, 0], rfl⟩, false, false⟩ e) ∧
    ∃ passes result, WriteState.assembleLoop (P := 4) passes
      ⟨[⟨0, [1, 2]⟩], ⟨[0, 0, 0, 0], rfl⟩, false, false⟩ = some result := by
  have hinside : StaysInside 4 [⟨0, [1, 2]⟩] :=
    (assemble_safe_iff (by decide) _ ⟨[0, 0, 0, 0], rfl⟩).mp (by decide)
  have hwrite : Run (Guarded StepInside WriteStep) (.start ⟨[0, 0, 0, 0], rfl⟩)
      [.writeBlock 0 [1, 2]] (⟨[⟨0, [1, 2]⟩], ⟨[0, 0, 0, 0], rfl⟩, true, true⟩ : WriteState 4) :=
    .single ⟨.inr (.inr (.inl rfl)), _, rfl⟩
  have hrun := hwrite.tail (a := WriteEvent.assemble)
    (u := ⟨[⟨0, [1, 2]⟩], ⟨[0, 0, 0, 0], rfl⟩, false, false⟩) ⟨fun _ => hinside, _, rfl⟩
  exact nodeAccess_run (by decide) hrun

/-- A fragment behind a page's begin is passed, and the node behind it is read through NULL. -/
theorem not_stepSafe_unaligned :
    ¬ ∀ (k : Nat) (flashBlockArray : Buffer UInt8 (2 ^ k)) (events : List WriteEvent)
      (s : WriteState (2 ^ k)) (e : WriteEvent), 1 ≤ k →
        (∀ ulOffset pData, .writeBlock ulOffset pData ∈ events → pData ≠ []) →
        Run WriteStep (.start flashBlockArray) events s → StepSafe s e := by
  intro h
  have hrun : Run WriteStep (.start (P := 2 ^ 2) ⟨[0, 0, 0, 0], rfl⟩) [.writeBlock 1 [7]]
      ⟨[⟨1, [7]⟩], ⟨[0, 0, 0, 0], rfl⟩, true, true⟩ := .single ⟨_, rfl⟩
  have hsafe := h 2 _ _ _ .assemble (by decide) (by simp) hrun
  exact hsafe .nullNode (by decide)

end RenesasDemo.Ota
