import RenesasDemo.Ota.WriteBlock

namespace RenesasDemo.Ota

open Framework FragmentedFlashBlockList

variable {P : Nat}

/-- `whole` are the positions written so far or still to be written with `pending`; those that
are written hold the image's bytes and are counted in `total`. -/
def Flashed (img : List UInt8) (pending : List FlashBlock) (whole : List Nat)
    (flash : Nat → UInt8) (total : Nat) : Prop :=
  ∃ written : List Nat, (positions pending ++ written).Perm whole ∧
    (∀ i ∈ written, img[i]? = some (flash i)) ∧ total = written.length

section flashed

variable {img : List UInt8} {pending pending' more : List FlashBlock} {whole : List Nat}
  {flash : Nat → UInt8} {total : Nat} {b : FlashBlock}

theorem Flashed.moved (h : Flashed img pending whole flash total)
    (pending' : List FlashBlock) (hperm : (positions pending').Perm (positions pending)) :
    Flashed img pending' whole flash total := by
  obtain ⟨written, hwhole, hmatch, htotal⟩ := h
  exact ⟨written, (hperm.append_right written).trans hwhole, hmatch, htotal⟩

theorem Flashed.extend (h : Flashed img pending whole flash total)
    (hperm : (positions pending').Perm (positions pending ++ positions more)) :
    Flashed img pending' (whole ++ positions more) flash total := by
  obtain ⟨written, hwhole, hmatch, htotal⟩ := h
  refine ⟨written, ?_, hmatch, htotal⟩
  have hcomm : (positions more ++ written).Perm (written ++ positions more) :=
    List.perm_append_comm
  have hswap := hcomm.append_left (positions pending)
  rw [← List.append_assoc, ← List.append_assoc] at hswap
  exact ((hperm.append_right written).trans hswap).trans (hwhole.append_right _)

theorem Flashed.program (h : Flashed img (b :: pending) whole flash total)
    (hb : b.Genuine img) (hnd : whole.Nodup) :
    Flashed img pending whole (overwrite flash b.offset b.binary) (total + b.length) := by
  obtain ⟨written, hwhole, hmatch, htotal⟩ := h
  rw [positions_cons, List.append_assoc] at hwhole
  have hdisjoint := (List.nodup_append.mp (hwhole.nodup_iff.mpr hnd)).2.2
  refine ⟨b.positions ++ written, ?_, ?_, ?_⟩
  · exact (List.perm_append_comm_assoc _ _ _).symm.trans hwhole
  · intro i hi
    obtain hi | hi := List.mem_append.mp hi
    · exact overwrite_of_mem hb hi
    · have hout : i ∉ List.range' b.offset b.binary.length :=
        fun hin => hdisjoint i hin i (List.mem_append_right _ hi) rfl
      rw [overwrite_of_notMem hout]
      exact hmatch i hi
  · rw [List.length_append, FlashBlock.positions, List.length_range', htotal, Nat.add_comm]

end flashed

namespace OtaPal

def delivered (s : OtaPal P) : List FlashBlock :=
  s.returned.map WriteResult.block ++ s.assembling.toList

/-- Parts of the image, none of its bytes twice; no call returned anything but the block size. -/
structure Delivery (img : List UInt8) (s : OtaPal P) : Prop where
  accepted : ∀ r ∈ s.returned, r.sNumBytesWritten = (r.block.length : Int)
  genuine : ∀ b ∈ s.delivered, b.Genuine img
  nodup : (positions s.delivered).Nodup

structure Complete (img : List UInt8) (s : OtaPal P) : Prop where
  accepted : ∀ r ∈ s.returned, r.sNumBytesWritten = (r.block.length : Int)
  genuine : ∀ b ∈ s.delivered, b.Genuine img
  covers : (positions s.delivered).Perm (List.range img.length)

theorem Complete.delivery {img : List UInt8} {s : OtaPal P} (h : s.Complete img) :
    s.Delivery img where
  accepted := h.accepted
  genuine := h.genuine
  nodup := h.covers.nodup_iff.mpr List.nodup_range

/-- What a step needs: a pass of the assembly loop finds a page in at most two adjoining fragments
or none, and a packet fits into the static block of the flashing task. -/
def StepOk (s : OtaPal P) : OtaEvent → Prop
  | .writeBlock _ _ => True
  | .assemble => s.assembling = none ∨ PageCut P s.fragmentedFlashBlockList
  | .flash => ∀ packet ∈ s.xQueue.head?, packet.length ≤ otaconfigFileBlockSize

instance (s : OtaPal P) (e : OtaEvent) : Decidable (s.StepOk e) := by
  cases e <;> unfold StepOk <;> infer_instance

def GuardedStep (s : OtaPal P) (e : OtaEvent) (s' : OtaPal P) : Prop :=
  s.StepOk e ∧ s.step e = some s'

/-- Every byte delivered is in the fragments, in the queue or in the flash. -/
structure Accounted (img : List UInt8) (s : OtaPal P) : Prop where
  wellFormed : WellFormed P s.fragmentedFlashBlockList
  genuine : ∀ b ∈ s.fragmentedFlashBlockList ++ s.xQueue, b.Genuine img
  flashed : Flashed img (s.fragmentedFlashBlockList ++ s.xQueue) (positions s.delivered) s.flash
    s.totalImageLength

section steps

variable {img : List UInt8} {s s' : OtaPal P} {e : OtaEvent}

theorem Transition.extends (h : s.Transition e s') :
    s.returned <+: s'.returned ∧ s.delivered <+: s'.delivered := by
  cases h with
  | waits => exact ⟨List.prefix_rfl, List.prefix_rfl⟩
  | sent block idle => simp [delivered, returns, idle]
  | refused block idle => simp [delivered, returns, idle]
  | inserted block idle => simp [delivered, idle]
  | finished block _ _ busy => simp [delivered, returns, busy]
  | pageSent block _ _ _ busy => simp [delivered, busy]
  | pageRefused block _ _ _ busy => simp [delivered, returns, busy]
  | flashed => exact ⟨List.prefix_rfl, List.prefix_rfl⟩

theorem Transition.delivery (h : s.Transition e s') (hd : s'.Delivery img) :
    s.Delivery img := by
  obtain ⟨hreturned, hdelivered⟩ := h.extends
  constructor
  · intro r hr
    exact hd.accepted r (hreturned.subset hr)
  · intro b hb
    exact hd.genuine b (hdelivered.subset hb)
  · obtain ⟨more, hmore⟩ := hdelivered
    have hnd := hd.nodup
    rw [← hmore, positions_append] at hnd
    exact (List.nodup_append.mp hnd).1

/-- A refused packet shows in the result of the call. -/
theorem Delivery.not_refused (hd : s.Delivery img) (block : FlashBlock) :
    ⟨block, rOtaErrQueueSendFail⟩ ∉ s.returned := by
  intro hr
  have hres : rOtaErrQueueSendFail = (block.length : Int) := hd.accepted _ hr
  rw [rOtaErrQueueSendFail] at hres
  omega

theorem Accounted.start (flashBlockArray : Buffer UInt8 P) :
    (otaPalCreateFileForRx flashBlockArray).Accounted img where
  wellFormed := .nil P
  genuine _ hb := absurd hb List.not_mem_nil
  flashed := ⟨[], .refl _, fun _ hi => absurd hi List.not_mem_nil, rfl⟩

/-- A pass of the assembly loop on an accounted list. -/
theorem Accounted.assemble {l : List FlashBlock} {a : Buffer UInt8 P} {page : Option FlashBlock}
    (hP : 0 < P) (h : s.Accounted img) (hcut : PageCut P s.fragmentedFlashBlockList)
    (hnd : (positions s.delivered).Nodup)
    (hres : FragmentedFlashBlockList.assemble s.fragmentedFlashBlockList s.flashBlockArray =
      some (l, a, page)) :
    WellFormed P l ∧ (∀ b ∈ l ++ (s.xQueue ++ page.toList), b.Genuine img) ∧
      Flashed img (l ++ (s.xQueue ++ page.toList)) (positions s.delivered) s.flash
        s.totalImageLength := by
  have hlist : (positions s.fragmentedFlashBlockList).Nodup := by
    obtain ⟨written, hwhole, -⟩ := h.flashed
    have hall := (List.nodup_append.mp (hwhole.nodup_iff.mpr hnd)).1
    rw [positions_append] at hall
    exact (List.nodup_append.mp hall).1
  obtain ⟨hwf, hperm, hgen⟩ := assemble_spec hP hcut h.wellFormed hlist hres
  have hg := hgen img fun b hb => h.genuine b (List.mem_append_left _ hb)
  refine ⟨hwf, ?_, h.flashed.moved _ ?_⟩
  · intro b hb
    rw [List.mem_append, List.mem_append] at hb
    obtain hb | hb | hb := hb
    · exact hg b (List.mem_append_right _ hb)
    · exact h.genuine b (List.mem_append_right _ hb)
    · exact hg b (List.mem_append_left _ hb)
  · have hmove : (l ++ (s.xQueue ++ page.toList)).Perm (page.toList ++ l ++ s.xQueue) := by
      rw [← List.append_assoc, List.append_assoc page.toList]
      exact List.perm_append_comm
    have hfirst := positions_perm hmove
    rw [positions_append (page.toList ++ l)] at hfirst
    rw [positions_append s.fragmentedFlashBlockList]
    exact hfirst.trans (hperm.append_right _)

theorem delivered_idle (idle : s.assembling = none) :
    s.delivered = s.returned.map WriteResult.block := by
  rw [delivered, idle]
  exact List.append_nil _

/-- While calls return what they should, no step loses or repeats a byte. -/
theorem Accounted.step (hP : 0 < P) (h : s.Accounted img) (hstep : s.GuardedStep e s')
    (hd : s'.Delivery img) : s'.Accounted img := by
  obtain ⟨hok, hval⟩ := hstep
  have htrans := step_transition hval
  have hnd := (htrans.delivery hd).nodup
  cases htrans with
  | waits => exact h
  | sent block idle =>
    have hdel : ({ s with xQueue := s.xQueue ++ [block] }.returns block
        (toInt16 block.length)).delivered = s.delivered ++ [block] := by
      simp [delivered, returns, idle]
    have hblock : block.Genuine img := hd.genuine block (by rw [hdel]; simp)
    refine ⟨h.wellFormed, ?_, ?_⟩
    · intro b hb
      obtain hb | hb := List.mem_append.mp ((List.append_assoc ..).symm ▸ hb)
      · exact h.genuine b hb
      · rw [List.mem_singleton.mp hb]
        exact hblock
    · rw [hdel, positions_append]
      apply h.flashed.extend
      rw [← positions_append, List.append_assoc]
      exact .refl _
  | refused block idle => exact absurd (by simp [returns]) (hd.not_refused block)
  | inserted block idle hun =>
    have hdel : delivered { s with
        fragmentedFlashBlockList := insert s.fragmentedFlashBlockList block
        assembling := some block } = s.delivered ++ [block] := by
      rw [delivered_idle idle]
      rfl
    have hblock : block.Genuine img := hd.genuine block (by rw [hdel]; simp)
    refine ⟨h.wellFormed.insert hun, ?_, ?_⟩
    · intro b hb
      rw [List.mem_append, mem_insert] at hb
      obtain (rfl | hb) | hb := hb
      · exact hblock
      · exact h.genuine b (List.mem_append_left _ hb)
      · exact h.genuine b (List.mem_append_right _ hb)
    · rw [hdel, positions_append]
      apply h.flashed.extend
      rw [← positions_append]
      apply positions_perm
      have hins := (insert_perm s.fragmentedFlashBlockList block).append_right s.xQueue
      have hend : ([block] ++ (s.fragmentedFlashBlockList ++ s.xQueue)).Perm _ :=
        List.perm_append_comm
      exact hins.trans hend
  | finished block l a busy hres =>
    have hcut := hok.resolve_left (by simp [busy])
    obtain ⟨hwf, hgen, hfl⟩ := h.assemble hP hcut hnd hres
    have hdel : ({ s with
        fragmentedFlashBlockList := l, flashBlockArray := a, assembling := none }.returns block
          (toInt16 block.length)).delivered = s.delivered := by
      simp [delivered, returns, busy]
    rw [Option.toList_none, List.append_nil] at hgen hfl
    refine ⟨hwf, hgen, ?_⟩
    rw [hdel]
    exact hfl
  | pageSent block packet l a busy hres =>
    have hcut := hok.resolve_left (by simp [busy])
    obtain ⟨hwf, hgen, hfl⟩ := h.assemble hP hcut hnd hres
    exact ⟨hwf, hgen, hfl⟩
  | pageRefused block packet l a busy hres =>
    exact absurd (by simp [returns]) (hd.not_refused block)
  | flashed packet packets queue =>
    have hpacket : packet.Genuine img := h.genuine packet (by simp [queue])
    refine ⟨h.wellFormed, ?_, ?_⟩
    · intro b hb
      apply h.genuine b
      rw [queue]
      rw [List.mem_append] at hb ⊢
      exact hb.imp_right (List.mem_cons_of_mem packet)
    · have hmoved := h.flashed.moved (packet :: (s.fragmentedFlashBlockList ++ packets)) (by
        rw [queue]
        exact positions_perm List.perm_middle.symm)
      exact hmoved.program hpacket hnd

/-- Every guarded step is one that C defines. -/
theorem step_defined (hok : s.StepOk e) : ∃ s', s.step e = some s' := by
  cases e with
  | writeBlock ulOffset pData =>
    rw [OtaPal.step]
    cases s.assembling with
    | some block => exact ⟨s, rfl⟩
    | none =>
      simp only
      split
      · cases s.xQueueSend ⟨ulOffset, pData⟩ <;> exact ⟨_, rfl⟩
      · exact ⟨_, rfl⟩
  | assemble =>
    rw [OtaPal.step]
    cases hbusy : s.assembling with
    | none => exact ⟨s, rfl⟩
    | some block =>
      obtain ⟨r, hr⟩ := assemble_defined s.flashBlockArray
        (hok.resolve_left (by simp [hbusy]))
      simp only [hr]
      exact ⟨_, rfl⟩
  | flash =>
    rw [OtaPal.step]
    cases hqueue : s.xQueue with
    | nil => exact ⟨s, rfl⟩
    | cons packet packets =>
      have hlen : packet.length ≤ otaconfigFileBlockSize := hok packet (by simp [hqueue])
      simp only [if_pos hlen]
      exact ⟨_, rfl⟩

theorem accounted_run (hP : 0 < P) (flashBlockArray : Buffer UInt8 P) {events : List OtaEvent}
    (hrun : Run GuardedStep (otaPalCreateFileForRx flashBlockArray) events s)
    (hd : s.Delivery img) : s.Accounted img := by
  have hinv := hrun.invariant (P := fun s => s.Delivery img → s.Accounted img)
    (fun _ => .start flashBlockArray) (by
      intro s e s' hs hstep hd'
      exact (hs ((step_transition hstep.2).delivery hd')).step hP hstep hd')
  exact hinv hd

end steps

section flush

variable {img : List UInt8} {s t : OtaPal P} {tmp : FlashBlock} {l : List FlashBlock}
  {whole : List Nat}

theorem flushFragment_first (h : tmp.offset + tmp.length ≤ P) :
    s.flushFragment tmp = some { s with
      flash := overwrite s.flash tmp.offset tmp.binary
      totalImageLength := s.totalImageLength + tmp.length } := by
  obtain ⟨assembled, hmemcpy, hbytes⟩ := Buffer.memcpy_of_le
    ⟨readFrom s.flash (pageTop P tmp.offset) P, length_readFrom ..⟩ tmp.offset tmp.binary h
  have hflash : overwrite s.flash (pageTop P tmp.offset) assembled.bytes =
      overwrite s.flash tmp.offset tmp.binary := by
    rw [hbytes, overwrite_readFrom _ _ h]
    cases hbin : tmp.binary with
    | nil => rw [overwrite_nil, overwrite_nil]
    | cons b bs =>
      have hlt : tmp.offset < P := by
        rw [FlashBlock.length, hbin, List.length_cons] at h
        omega
      rw [pageTop, Nat.mod_eq_of_lt hlt, Nat.sub_self, Nat.zero_add]
  simp only [flushFragment, hmemcpy, Option.map_some, hflash]

/-- The flush is defined exactly for fragments of the first page. -/
theorem flushFragment_eq_some (h : s.flushFragment tmp = some t) :
    tmp.offset + tmp.length ≤ P := by
  obtain ⟨assembled, hmemcpy, -⟩ := Option.map_eq_some_iff.mp h
  rw [Buffer.memcpy] at hmemcpy
  split at hmemcpy
  · next hle => exact hle
  · cases hmemcpy

theorem flushFragments_first (hl : ∀ b ∈ l, b.offset + b.length ≤ P)
    (hg : ∀ b ∈ l, b.Genuine img) (hnd : whole.Nodup)
    (h : Flashed img l whole s.flash s.totalImageLength) :
    ∃ t, s.flushFragments l = some t ∧ Flashed img [] whole t.flash t.totalImageLength := by
  induction l generalizing s with
  | nil => exact ⟨s, rfl, h⟩
  | cons tmp next ih =>
    rw [flushFragments, flushFragment_first (hl tmp List.mem_cons_self), Option.bind_some]
    apply ih
    · exact fun b hb => hl b (List.mem_cons_of_mem tmp hb)
    · exact fun b hb => hg b (List.mem_cons_of_mem tmp hb)
    · exact h.program (hg tmp List.mem_cons_self) hnd

theorem flushFragments_eq_some (h : s.flushFragments l = some t) :
    ∀ b ∈ l, b.offset + b.length ≤ P := by
  induction l generalizing s with
  | nil =>
    intro b hb
    cases hb
  | cons tmp next ih =>
    obtain ⟨s', hfirst, hrest⟩ := Option.bind_eq_some_iff.mp h
    intro b hb
    obtain rfl | hb := List.mem_cons.mp hb
    · exact flushFragment_eq_some hfirst
    · exact ih hrest b hb

end flush

def Holds (img : List UInt8) (s : OtaPal P) : Prop :=
  (∀ i (hi : i < img.length), s.flash i = img[i]) ∧ s.totalImageLength = img.length

/-- Guarded steps are defined; and once the whole image was delivered, no call runs and the queue
is empty, the flush leaves the image in the flash, exactly when the fragments that are left belong
to the first page. -/
theorem imageIntegrity_run (hP : 0 < P) (img : List UInt8) (flashBlockArray : Buffer UInt8 P)
    {events : List OtaEvent} {s : OtaPal P}
    (hrun : Run GuardedStep (otaPalCreateFileForRx flashBlockArray) events s) :
    (∀ e, s.StepOk e → ∃ s', s.step e = some s') ∧
    (s.Complete img → s.assembling = none → s.xQueue = [] →
      ((∃ t, s.otaPalCheckFileSignature = some t ∧ t.Holds img) ↔
        ∀ b ∈ s.fragmentedFlashBlockList, b.offset + b.length ≤ P)) := by
  refine ⟨fun e hok => step_defined hok, ?_⟩
  intro hcomplete _ hqueue
  have hacc := accounted_run hP flashBlockArray hrun hcomplete.delivery
  have hgen := hacc.genuine
  have hfl := hacc.flashed
  rw [hqueue, List.append_nil] at hgen hfl
  constructor
  · intro hflush
    obtain ⟨t, ht, -⟩ := hflush
    exact flushFragments_eq_some ht
  · intro hfirst
    obtain ⟨t, ht, hwritten⟩ := flushFragments_first hfirst hgen hcomplete.delivery.nodup hfl
    obtain ⟨written, hwhole, hmatch, htotal⟩ := hwritten
    have hall : written.Perm (List.range img.length) := hwhole.trans hcomplete.covers
    refine ⟨t, ht, ?_, ?_⟩
    · intro i hi
      have hget := hmatch i (hall.mem_iff.mpr (List.mem_range.mpr hi))
      rw [List.getElem?_eq_getElem hi] at hget
      exact (Option.some.inj hget).symm
    · rw [htotal, hall.length_eq, List.length_range]

def exampleStart : OtaPal 4 := otaPalCreateFileForRx ⟨[0, 0, 0, 0], rfl⟩

def next (s : OtaPal P) (e : OtaEvent) : OtaPal P := (s.step e).getD s

theorem step_next {s : OtaPal P} {e : OtaEvent} (h : (s.step e).isSome = true) :
    s.step e = some (s.next e) := by
  obtain ⟨t, ht⟩ := Option.isSome_iff_exists.mp h
  rw [next, ht]
  rfl

theorem run_next {s : OtaPal P} {events : List OtaEvent}
    (h : Admits (fun s e => s.StepOk e ∧ (s.step e).isSome = true) next s events) :
    Run GuardedStep s events (events.foldl next s) :=
  .ofAdmits _ (fun _ _ h => ⟨h.1, step_next h.2⟩) h

def exampleEvents : List OtaEvent :=
  [.writeBlock 0 [1, 2, 3], .assemble, .writeBlock 3 [4, 5, 6, 7, 8], .assemble, .assemble,
    .assemble, .flash, .flash]

theorem imageIntegrity_run_twoPages :
    ∃ t, (exampleEvents.foldl next exampleStart).otaPalCheckFileSignature = some t ∧
      t.Holds [1, 2, 3, 4, 5, 6, 7, 8] := by
  have hrun : Run GuardedStep exampleStart exampleEvents (exampleEvents.foldl next exampleStart) :=
    run_next (by decide +kernel)
  have hlaw := (imageIntegrity_run (by decide) [1, 2, 3, 4, 5, 6, 7, 8] _ hrun).2
  exact (hlaw ⟨by decide +kernel, by decide +kernel, by decide +kernel⟩ (by decide +kernel)
    (by decide +kernel)).mpr (by decide +kernel)

def threeFragments : List OtaEvent :=
  [.writeBlock 0 [1], .assemble, .writeBlock 1 [2], .assemble, .writeBlock 2 [3, 4], .assemble,
    .assemble, .flash]

/-- The third fragment is copied to the index that is the length of the second. -/
theorem not_imageIntegrity_threeFragments :
    ∃ s t : OtaPal 4, Run (fun s e s' => s.step e = some s') exampleStart threeFragments s ∧
      s.Complete [1, 2, 3, 4] ∧ s.assembling = none ∧ s.xQueue = [] ∧
      s.otaPalCheckFileSignature = some t ∧ ¬ t.Holds [1, 2, 3, 4] := by
  refine ⟨threeFragments.foldl next exampleStart, threeFragments.foldl next exampleStart, ?_, ?_⟩
  · have hstep : ∀ (s : OtaPal 4) (e : OtaEvent), (s.step e).isSome = true →
        s.step e = some (s.next e) := fun _ _ h => step_next h
    exact .ofAdmits _ hstep (by decide +kernel)
  · refine ⟨⟨by decide +kernel, by decide +kernel, by decide +kernel⟩, by decide +kernel,
      by decide +kernel, rfl, ?_⟩
    intro hholds
    have hthird := hholds.1 2 (by decide)
    exact absurd hthird (by decide +kernel)

end OtaPal

end RenesasDemo.Ota
