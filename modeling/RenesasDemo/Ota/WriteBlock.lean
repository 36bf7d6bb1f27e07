import RenesasDemo.Framework.Runs
import RenesasDemo.Ota.PageAssembly

namespace RenesasDemo.Ota

open Framework FragmentedFlashBlockList

def otaconfigMaxNumBlocksRequest : Nat := 2

/-- `1 << otaconfigLOG2_FILE_BLOCK_SIZE`. -/
def otaconfigFileBlockSize : Nat := 1 <<< 11

def rOtaErrQueueSendFail : Int := -2

/-- The conversion from `uint32_t` to `int16_t`. -/
def toInt16 (n : Nat) : Int := (BitVec.ofNat 16 n).toInt

/-- A call of `otaPal_WriteBlock` that is over. -/
structure WriteResult where
  block : FlashBlock
  sNumBytesWritten : Int

/-- What the agent's task and the flashing task share; packets in the queue are blocks. Position 0
of `flash` is the first byte behind the header in the temporary area. -/
structure OtaPal (P : Nat) where
  fragmentedFlashBlockList : List FlashBlock
  flashBlockArray : Buffer UInt8 P
  xQueue : List FlashBlock
  flash : Nat → UInt8
  totalImageLength : Nat
  /-- The block whose call of `otaPal_WriteBlock` is in the assembly loop. -/
  assembling : Option FlashBlock
  returned : List WriteResult

inductive OtaEvent where
  | writeBlock (ulOffset : Nat) (pData : List UInt8)
  /-- One pass of the assembly loop. -/
  | assemble
  /-- One pass of `ota_flashing_task`. -/
  | flash

namespace OtaPal

variable {P : Nat}

def otaPalCreateFileForRx (flashBlockArray : Buffer UInt8 P) : OtaPal P :=
  ⟨[], flashBlockArray, [], fun _ => 0xFF, 0, none, []⟩

def returns (s : OtaPal P) (block : FlashBlock) (sNumBytesWritten : Int) : OtaPal P :=
  { s with returned := s.returned ++ [⟨block, sNumBytesWritten⟩] }

/-- `xQueueSend` without waiting. -/
def xQueueSend (s : OtaPal P) (packet : FlashBlock) : Option (OtaPal P) :=
  if s.xQueue.length < otaconfigMaxNumBlocksRequest then
    some { s with xQueue := s.xQueue ++ [packet] }
  else none

/-- A task that has to wait leaves the state as it is; no state where C leaves it undefined. -/
def step (s : OtaPal P) : OtaEvent → Option (OtaPal P)
  | .writeBlock ulOffset pData =>
      match s.assembling with
      | some _ => some s
      | none =>
          let block : FlashBlock := ⟨ulOffset, pData⟩
          if block.offset % P = 0 ∧ block.length % P = 0 then
            match s.xQueueSend block with
            | some s' => some (s'.returns block (toInt16 block.length))
            | none => some (s.returns block rOtaErrQueueSendFail)
          else
            some { s with
              fragmentedFlashBlockList := insert s.fragmentedFlashBlockList block
              assembling := some block }
  | .assemble =>
      match s.assembling with
      | none => some s
      | some block =>
          (FragmentedFlashBlockList.assemble s.fragmentedFlashBlockList s.flashBlockArray).map
            fun (l, a, page) =>
              let s' := { s with fragmentedFlashBlockList := l, flashBlockArray := a }
              match page with
              | none => { s' with assembling := none }.returns block (toInt16 block.length)
              | some packet =>
                  match s'.xQueueSend packet with
                  | some s'' => s''
                  | none => { s' with assembling := none }.returns block rOtaErrQueueSendFail
  | .flash =>
      match s.xQueue with
      | [] => some s
      | packet :: packets =>
          -- the packet is copied into a static block first
          if packet.length ≤ otaconfigFileBlockSize then
            some { s with
              xQueue := packets
              flash := overwrite s.flash packet.offset packet.binary
              totalImageLength := s.totalImageLength + packet.length }
          else none

/-- One pass of the loop in `otaPal_CheckFileSignature`: the index into the page is the
fragment's position in the image. -/
def flushFragment (s : OtaPal P) (tmp : FlashBlock) : Option (OtaPal P) :=
  let page : Buffer UInt8 P := ⟨readFrom s.flash (pageTop P tmp.offset) P, length_readFrom ..⟩
  (page.memcpy tmp.offset tmp.binary).map fun assembled =>
    { s with
      flash := overwrite s.flash (pageTop P tmp.offset) assembled.bytes
      totalImageLength := s.totalImageLength + tmp.length }

/-- The loop deletes the fragment it has flashed, which is the first one (`delete_head`). -/
def flushFragments (s : OtaPal P) : List FlashBlock → Option (OtaPal P)
  | [] => some s
  | tmp :: next => (s.flushFragment tmp).bind fun s' => s'.flushFragments next

/-- `otaPal_CheckFileSignature` up to the hashing. -/
def otaPalCheckFileSignature (s : OtaPal P) : Option (OtaPal P) :=
  s.flushFragments s.fragmentedFlashBlockList

/-- What one step can do. -/
inductive Transition (s : OtaPal P) : OtaEvent → OtaPal P → Prop
  | waits (e : OtaEvent) : Transition s e s
  | sent (block : FlashBlock) (idle : s.assembling = none) :
      Transition s (.writeBlock block.offset block.binary)
        ({ s with xQueue := s.xQueue ++ [block] }.returns block (toInt16 block.length))
  | refused (block : FlashBlock) (idle : s.assembling = none) :
      Transition s (.writeBlock block.offset block.binary) (s.returns block rOtaErrQueueSendFail)
  | inserted (block : FlashBlock) (idle : s.assembling = none)
      (unaligned : ¬ (block.offset % P = 0 ∧ block.length % P = 0)) :
      Transition s (.writeBlock block.offset block.binary)
        { s with
          fragmentedFlashBlockList := insert s.fragmentedFlashBlockList block
          assembling := some block }
  | finished (block : FlashBlock) (l : List FlashBlock) (a : Buffer UInt8 P)
      (busy : s.assembling = some block)
      (result : assemble s.fragmentedFlashBlockList s.flashBlockArray = some (l, a, none)) :
      Transition s .assemble
        ({ s with fragmentedFlashBlockList := l, flashBlockArray := a, assembling := none }.returns
          block (toInt16 block.length))
  | pageSent (block packet : FlashBlock) (l : List FlashBlock) (a : Buffer UInt8 P)
      (busy : s.assembling = some block)
      (result : assemble s.fragmentedFlashBlockList s.flashBlockArray = some (l, a, some packet)) :
      Transition s .assemble
        { s with
          fragmentedFlashBlockList := l, flashBlockArray := a, xQueue := s.xQueue ++ [packet] }
  | pageRefused (block packet : FlashBlock) (l : List FlashBlock) (a : Buffer UInt8 P)
      (busy : s.assembling = some block)
      (result : assemble s.fragmentedFlashBlockList s.flashBlockArray = some (l, a, some packet)) :
      Transition s .assemble
        ({ s with fragmentedFlashBlockList := l, flashBlockArray := a, assembling := none }.returns
          block rOtaErrQueueSendFail)
  | flashed (packet : FlashBlock) (packets : List FlashBlock)
      (queue : s.xQueue = packet :: packets) :
      Transition s .flash
        { s with
          xQueue := packets
          flash := overwrite s.flash packet.offset packet.binary
          totalImageLength := s.totalImageLength + packet.length }

theorem xQueueSend_eq_some {s s' : OtaPal P} {packet : FlashBlock}
    (h : s.xQueueSend packet = some s') : s' = { s with xQueue := s.xQueue ++ [packet] } := by
  rw [xQueueSend] at h
  split at h
  · exact (Option.some.inj h).symm
  · cases h

theorem step_transition {s s' : OtaPal P} {e : OtaEvent} (h : s.step e = some s') :
    s.Transition e s' := by
  cases e with
  | writeBlock ulOffset pData =>
    rw [step] at h
    cases hbusy : s.assembling with
    | some block =>
      rw [hbusy] at h
      obtain rfl := Option.some.inj h
      exact .waits _
    | none =>
      simp only [hbusy] at h
      split at h
      · cases hsend : s.xQueueSend ⟨ulOffset, pData⟩ with
        | some t =>
          rw [hsend] at h
          obtain rfl := xQueueSend_eq_some hsend
          obtain rfl := Option.some.inj h
          exact .sent ⟨ulOffset, pData⟩ hbusy
        | none =>
          rw [hsend] at h
          obtain rfl := Option.some.inj h
          exact .refused ⟨ulOffset, pData⟩ hbusy
      · next hun =>
        obtain rfl := Option.some.inj h
        exact .inserted ⟨ulOffset, pData⟩ hbusy hun
  | assemble =>
    rw [step] at h
    cases hbusy : s.assembling with
    | none =>
      rw [hbusy] at h
      obtain rfl := Option.some.inj h
      exact .waits _
    | some block =>
      rw [hbusy] at h
      obtain ⟨⟨l, a, page⟩, hres, rfl⟩ := Option.map_eq_some_iff.mp h
      cases page with
      | none => exact .finished block l a hbusy hres
      | some packet =>
        simp only
        split
        · next s'' hsend =>
          obtain rfl := xQueueSend_eq_some hsend
          rw [← hbusy]
          exact .pageSent block packet l a hbusy hres
        · exact .pageRefused block packet l a hbusy hres
  | flash =>
    rw [step] at h
    cases hqueue : s.xQueue with
    | nil =>
      rw [hqueue] at h
      obtain rfl := Option.some.inj h
      exact .waits _
    | cons packet packets =>
      simp only [hqueue] at h
      split at h
      · obtain rfl := Option.some.inj h
        exact .flashed packet packets hqueue
      · cases h

end OtaPal

end RenesasDemo.Ota
