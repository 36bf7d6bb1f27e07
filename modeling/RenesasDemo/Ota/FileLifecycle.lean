import RenesasDemo.Ota.FlashOutcomes
import RenesasDemo.Ota.WriteBlock

namespace RenesasDemo.Ota

open Framework

/-- What `otaPal_CreateFileForRx` creates. -/
inductive KernelObject where
  | task
  | queue
  | semaphoreFlashig
  | semaphoreWriteBlock
  deriving DecidableEq

def rOtaErrInvalidContext : Int := -1

def otaContextValidate (pFileContext : Option OtaFileContext) : Int :=
  if pFileContext.isSome then 1 else 0

/-- The file that is received, with everything that is allocated for it. -/
structure OtaFile (P : Nat) where
  pal : OtaPal P
  flash : FileFlash
  /-- The handles are not NULL; the one of `xSemaphoreFlashig` is part of `flash`. -/
  xTask : Bool
  xQueue : Bool
  xSemaphoreWriteBlock : Bool
  /-- How many objects of a kind are created and not deleted. -/
  live : KernelObject → Nat
  /-- Fragments and packets that are allocated and that nothing refers to. -/
  lost : Nat
  /-- `fragmented_flash_block_list` refers to a fragment that is freed. -/
  dangling : Bool
  /-- `otaPal_CreateFileForRx` succeeded, and the file was neither closed nor aborted. -/
  isOpen : Bool

/-- The calls with the outcomes of their flash operations, and passes of the assembly loop and of
the flashing task. -/
inductive FileEvent where
  | createFileForRx (pFileContext : Option OtaFileContext) (opened erased reopened : Bool)
  | writeBlock (pFileContext : Option OtaFileContext) (ulOffset : Nat) (pData : List UInt8)
  | assemble
  | flashPacket (written : Bool)
  /-- `page` is the outcome for a fragment, by its place in the list. -/
  | closeFile (pFileContext : Option OtaFileContext) (page : Nat → PageOutcome)
      (verified : OtaPalMainStatus) (parsed opened written : Bool)
  | abort (pFileContext : Option OtaFileContext)

namespace FileFlash

section close

variable {s : FileFlash} {context : OtaFileContext} {pages : List PageOutcome}
  (verified : OtaPalMainStatus) (parsed opened written : Bool)

theorem closeFile_stuck (hsig : context.pSignature = true)
    (hthrough : ¬ (s.xSemaphoreFlashig = some true ∧ ∀ page ∈ pages, page.written = true))
    (eResult : OtaPalMainStatus) :
    (s.closeFile context pages verified parsed opened written).1 ≠ .returns eResult := by
  rw [closeFile, if_pos hsig, flush_error hthrough]
  simp only
  split <;> simp

theorem closeFile_rejected (hsig : context.pSignature = true)
    (hsem : s.xSemaphoreFlashig = some true) (hpages : ∀ page ∈ pages, page.written = true)
    (hverified : verified ≠ .success) :
    ∃ t, s.closeFile context pages verified parsed opened written = (.returns verified, t) ∧
      t.xSemaphoreFlashig = some true := by
  obtain ⟨t, hflush, htsem, -⟩ := flush_ok hsem hpages
  rw [closeFile, if_pos hsig, hflush]
  simp only [if_neg hverified]
  exact ⟨_, rfl, htsem⟩

theorem closeFile_unwritten (hsig : context.pSignature = true)
    (hsem : s.xSemaphoreFlashig = some true) (hpages : ∀ page ∈ pages, page.written = true) :
    (s.closeFile context pages .success true opened false).1 = .waits := by
  obtain ⟨t, hflush, -⟩ := flush_ok hsem hpages
  rw [closeFile, if_pos hsig, hflush]
  rfl

/-- With a right signature and the header written, or not understood, the call returns. -/
theorem closeFile_closed (hsig : context.pSignature = true)
    (hsem : s.xSemaphoreFlashig = some true) (hpages : ∀ page ∈ pages, page.written = true)
    (hheader : ¬ (parsed = true ∧ written = false)) :
    ∃ eResult t, s.closeFile context pages .success parsed opened written =
      (.returns eResult, t) ∧ t.xSemaphoreFlashig = none := by
  obtain ⟨t, hflush, -⟩ := flush_ok hsem hpages
  rw [closeFile, if_pos hsig, hflush]
  cases parsed with
  | false => exact ⟨_, _, rfl, rfl⟩
  | true =>
    cases written with
    | false => exact absurd ⟨rfl, rfl⟩ hheader
    | true => exact ⟨_, _, rfl, rfl⟩

end close

end FileFlash

namespace OtaFile

variable {P : Nat}

def start (pal : OtaPal P) : OtaFile P :=
  { pal := { pal with fragmentedFlashBlockList := [], xQueue := [] }
    flash := .start
    xTask := false
    xQueue := false
    xSemaphoreWriteBlock := false
    live := fun _ => 0
    lost := 0
    dangling := false
    isOpen := false }

def handle (s : OtaFile P) : KernelObject → Bool
  | .task => s.xTask
  | .queue => s.xQueue
  | .semaphoreFlashig => s.flash.xSemaphoreFlashig.isSome
  | .semaphoreWriteBlock => s.xSemaphoreWriteBlock

def nodes (s : OtaFile P) : Nat := s.pal.fragmentedFlashBlockList.length

/-- The objects are created before the flash is opened; what the variables held is forgotten. -/
def createFileForRx (s : OtaFile P) (pFileContext : Option OtaFileContext)
    (opened erased reopened : Bool) : Ending × OtaFile P :=
  let r := s.flash.createFileForRx pFileContext opened erased reopened
  match pFileContext with
  | none => (r.1, s)
  | some context =>
      if context.pFilePath then
        (r.1,
          { pal := { s.pal with
              fragmentedFlashBlockList := [], xQueue := [], totalImageLength := 0 }
            flash := r.2
            xTask := true
            xQueue := true
            xSemaphoreWriteBlock := true
            live := fun k => s.live k + 1
            lost := s.lost + s.nodes + s.pal.xQueue.length
            dangling := false
            isOpen := r.1 = .returns .success })
      else (r.1, s)

def palStep (s : OtaFile P) (e : OtaEvent) : Ending × OtaFile P :=
  match s.pal.step e with
  | none => (.undefined, s)
  | some pal => (.passes, { s with pal := pal })

def writeBlock (s : OtaFile P) (ulOffset : Nat) (pData : List UInt8) : Ending × OtaFile P :=
  if s.xSemaphoreWriteBlock = true ∧ s.xQueue = true then
    if s.dangling = true ∧ ¬ (ulOffset % P = 0 ∧ pData.length % P = 0) then (.undefined, s)
    else s.palStep (.writeBlock ulOffset pData)
  else (.asserts, s)

def flashPacket (s : OtaFile P) (written : Bool) : Ending × OtaFile P :=
  if s.xTask = true ∧ s.pal.xQueue ≠ [] then
    let r := s.flash.flashPacket written
    if r.1 = .passes then { s with flash := r.2 }.palStep .flash else (r.1, s)
  else (.passes, s)

def deleteObjects (s : OtaFile P) : OtaFile P :=
  { s with
    flash := { s.flash with xSemaphoreFlashig := none }
    xTask := false
    xQueue := false
    xSemaphoreWriteBlock := false
    live := fun k => s.live k - (s.handle k).toNat }

/-- The flush frees the fragments and leaves the pointer to the first. -/
def freeFragments (s : OtaFile P) : OtaFile P :=
  { s with
    pal := { s.pal with fragmentedFlashBlockList := [] }
    dangling := s.dangling || s.nodes ≠ 0 }

/-- `vQueueDelete` does not free the packets. -/
def forgetPackets (s : OtaFile P) : OtaFile P :=
  { s with pal := { s.pal with xQueue := [] }, lost := s.lost + s.pal.xQueue.length }

def drainPackets (s : OtaFile P) : OtaFile P := { s with pal := { s.pal with xQueue := [] } }

def closeFile (s : OtaFile P) (context : OtaFileContext) (page : Nat → PageOutcome)
    (verified : OtaPalMainStatus) (parsed opened written : Bool) : Ending × OtaFile P :=
  if context.pSignature = true then
    if s.dangling = true then (.undefined, s)
    else
      let r := s.flash.closeFile context ((List.range s.nodes).map page) verified parsed opened
        written
      match r.1 with
      | .returns _ =>
          if verified = .success then
            (r.1, { s.freeFragments.drainPackets.deleteObjects with
              flash := r.2, isOpen := false })
          else (r.1, { s.freeFragments with flash := r.2, isOpen := false })
      | _ => (r.1, s)
  else
    let r := s.flash.closeFile context [] verified parsed opened written
    (r.1, { s with flash := r.2, isOpen := false })

def abort (s : OtaFile P) (pFileContext : Option OtaFileContext) : Ending × OtaFile P :=
  if otaContextValidate pFileContext = rOtaErrInvalidContext then (.returns .fileClose, s)
  else (.returns .success, { s.forgetPackets.deleteObjects with isOpen := false })

def run (s : OtaFile P) : FileEvent → Ending × OtaFile P
  | .createFileForRx pFileContext opened erased reopened =>
      s.createFileForRx pFileContext opened erased reopened
  | .writeBlock _ ulOffset pData => s.writeBlock ulOffset pData
  | .assemble => if s.xQueue = true then s.palStep .assemble else (.asserts, s)
  | .flashPacket written => s.flashPacket written
  | .closeFile none .. => (.undefined, s)
  | .closeFile (some context) page verified parsed opened written =>
      s.closeFile context page verified parsed opened written
  | .abort pFileContext => s.abort pFileContext

def next (s : OtaFile P) (e : FileEvent) : OtaFile P := (s.run e).2

/-- Nothing is allocated any more. -/
structure Released (s : OtaFile P) : Prop where
  objects : ∀ k, s.live k = 0
  fragments : s.nodes = 0
  packets : s.pal.xQueue = []
  lost : s.lost = 0

/-- The call of a function that ends the file. -/
def Ends : FileEvent → Prop
  | .closeFile .. => True
  | .abort _ => True
  | _ => False

/-- What a call with a NULL context has to return. -/
def nullResult : FileEvent → Option OtaPalMainStatus
  | .createFileForRx none _ _ _ => some .rxFileCreateFailed
  | .writeBlock none _ _ => some .fileClose
  | .closeFile none _ _ _ _ _ => some .fileClose
  | .abort none => some .fileClose
  | _ => none

/-- How a step has to treat the resources. -/
structure Manages (s : OtaFile P) (e : FileEvent) : Prop where
  single : ∀ k, (s.next e).live k ≤ 1
  released : Ends e → s.isOpen = true → (∃ eResult, (s.run e).1 = .returns eResult) →
    (s.next e).Released
  null : ∀ eResult ∈ nullResult e, s.run e = (.returns eResult, s)

/-- A file is created when nothing is left of the one before, it is closed with a signature that
is found right, or aborted when no packet and no fragment waits; and no NULL context is given to
the functions that do not look at it. -/
def StepOk (s : OtaFile P) : FileEvent → Prop
  | .createFileForRx none _ _ _ => True
  | .createFileForRx (some context) _ _ _ => context.pFilePath = true → ∀ k, s.live k = 0
  | .writeBlock pFileContext _ _ => pFileContext ≠ none
  | .assemble => True
  | .flashPacket _ => True
  | .closeFile none .. => False
  | .closeFile (some context) page verified parsed _ written =>
      s.isOpen = true → context.pSignature = true ∧
        (s.dangling = false → s.flash.xSemaphoreFlashig = some true →
          (∀ i < s.nodes, (page i).written = true) → verified = .success ∧
            (s.lost = 0 ∨ parsed = true ∧ written = false))
  | .abort none => False
  | .abort (some _) => s.isOpen = true → s.nodes = 0 ∧ s.pal.xQueue = [] ∧ s.lost = 0

/-- `otaPal_CloseFile` comes to the verification. -/
def Flushes (s : OtaFile P) (page : Nat → PageOutcome) : Prop :=
  s.dangling = false ∧ s.flash.xSemaphoreFlashig = some true ∧
    ∀ i < s.nodes, (page i).written = true

/-- What a call of `otaPal_CloseFile` can do. -/
inductive Closing (s : OtaFile P) (context : OtaFileContext) (page : Nat → PageOutcome)
    (verified : OtaPalMainStatus) (parsed written : Bool) : Ending × OtaFile P → Prop
  | unsigned (unsigned : context.pSignature = false) (eResult : OtaPalMainStatus)
      (flash : FileFlash) (semaphore : flash.xSemaphoreFlashig = s.flash.xSemaphoreFlashig) :
      Closing s context page verified parsed written
        (.returns eResult, { s with flash := flash, isOpen := false })
  | stuck (signed : context.pSignature = true) (ending : Ending)
      (stays : ∀ eResult, ending ≠ .returns eResult)
      (reason : s.Flushes page → verified = .success ∧ parsed = true ∧ written = false) :
      Closing s context page verified parsed written (ending, s)
  | rejected (signed : context.pSignature = true) (flushes : s.Flushes page)
      (wrong : verified ≠ .success) (flash : FileFlash)
      (semaphore : flash.xSemaphoreFlashig = some true) :
      Closing s context page verified parsed written
        (.returns verified, { s.freeFragments with flash := flash, isOpen := false })
  | closed (signed : context.pSignature = true) (flushes : s.Flushes page)
      (right : verified = .success) (header : ¬ (parsed = true ∧ written = false))
      (eResult : OtaPalMainStatus) (flash : FileFlash)
      (semaphore : flash.xSemaphoreFlashig = none) :
      Closing s context page verified parsed written
        (.returns eResult,
          { s.freeFragments.drainPackets.deleteObjects with flash := flash, isOpen := false })

theorem closeFile_closing (s : OtaFile P) (context : OtaFileContext) (page : Nat → PageOutcome)
    (verified : OtaPalMainStatus) (parsed opened written : Bool) :
    Closing s context page verified parsed written
      (s.closeFile context page verified parsed opened written) := by
  rw [closeFile]
  by_cases hsig : context.pSignature = true
  · rw [if_pos hsig]
    by_cases hdangling : s.dangling = true
    · rw [if_pos hdangling]
      refine .stuck hsig .undefined ?_ ?_
      · intro eResult h
        cases h
      · intro hflushes
        cases hflushes.1.symm.trans hdangling
    · rw [if_neg hdangling]
      have hdangling : s.dangling = false := by simpa using hdangling
      have hpages : (∀ q ∈ (List.range s.nodes).map page, q.written = true) ↔
          ∀ i < s.nodes, (page i).written = true := by simp
      by_cases hthrough : s.flash.xSemaphoreFlashig = some true ∧
          ∀ q ∈ (List.range s.nodes).map page, q.written = true
      · obtain ⟨hsem, hall⟩ := hthrough
        have hflushes : s.Flushes page := ⟨hdangling, hsem, hpages.mp hall⟩
        by_cases hverified : verified = .success
        · subst hverified
          by_cases hheader : parsed = true ∧ written = false
          · obtain ⟨rfl, rfl⟩ := hheader
            simp only [FileFlash.closeFile_unwritten opened hsig hsem hall]
            refine .stuck hsig .waits ?_ fun _ => ⟨rfl, rfl, rfl⟩
            intro eResult h
            cases h
          · obtain ⟨eResult, t, hclose, htsem⟩ :=
              FileFlash.closeFile_closed parsed opened written hsig hsem hall hheader
            simp only [hclose, if_true]
            exact .closed hsig hflushes rfl hheader eResult t htsem
        · obtain ⟨t, hclose, htsem⟩ :=
            FileFlash.closeFile_rejected verified parsed opened written hsig hsem hall hverified
          simp only [hclose, if_neg hverified]
          exact .rejected hsig hflushes hverified t htsem
      · have hstays := FileFlash.closeFile_stuck verified parsed opened written hsig hthrough
        simp only
        refine .stuck hsig _ hstays ?_
        intro hflushes
        exact absurd ⟨hflushes.2.1, hpages.mpr hflushes.2.2⟩ hthrough
  · rw [if_neg hsig]
    have hclose : s.flash.closeFile context [] verified parsed opened written =
        (.returns .signatureCheckFailed, { s.flash with eSavedAgentState := .rejected }) := by
      rw [FileFlash.closeFile, if_neg hsig]
    simp only [hclose]
    exact .unsigned (by simpa using hsig) .signatureCheckFailed _ rfl

/-- The handles agree with what is live, and an open file has everything. -/
structure Matched (s : OtaFile P) : Prop where
  objects : (∀ k, s.handle k = true ∧ s.live k = 1) ∨ ∀ k, s.handle k = false ∧ s.live k = 0
  isOpen : s.isOpen = true → ∀ k, s.live k = 1

section matched

variable {s t : OtaFile P} {e : FileEvent} {context : OtaFileContext} {page : Nat → PageOutcome}
  {verified : OtaPalMainStatus} {parsed opened written : Bool} {r : Ending × OtaFile P}

theorem Matched.single (h : s.Matched) (k : KernelObject) : s.live k ≤ 1 := by
  obtain hall | hnone := h.objects
  · exact Nat.le_of_eq (hall k).2
  · rw [(hnone k).2]
    exact Nat.zero_le 1

theorem Matched.of_same (h : s.Matched) (hhandle : ∀ k, t.handle k = s.handle k)
    (hlive : t.live = s.live) (hopen : t.isOpen = true → s.isOpen = true) : t.Matched := by
  constructor
  · rw [hlive]
    obtain hall | hnone := h.objects
    · exact .inl fun k => ⟨(hhandle k).trans (hall k).1, (hall k).2⟩
    · exact .inr fun k => ⟨(hhandle k).trans (hnone k).1, (hnone k).2⟩
  · intro ht
    rw [hlive]
    exact h.isOpen (hopen ht)

theorem Matched.start (pal : OtaPal P) : (start pal).Matched := by
  constructor
  · right
    intro k
    cases k <;> exact ⟨rfl, rfl⟩
  · intro hopen
    cases hopen

theorem Matched.deleteObjects (h : s.Matched) (k : KernelObject) :
    s.deleteObjects.live k = 0 := by
  show s.live k - (s.handle k).toNat = 0
  obtain hall | hnone := h.objects
  · rw [(hall k).1, (hall k).2]
    rfl
  · rw [(hnone k).2]
    exact Nat.zero_sub _

theorem Matched.of_deleted (hlive : ∀ k, t.live k = 0) (htask : t.xTask = false)
    (hqueue : t.xQueue = false) (hflashig : t.flash.xSemaphoreFlashig = none)
    (hwriteBlock : t.xSemaphoreWriteBlock = false) (hopen : t.isOpen = false) : t.Matched := by
  constructor
  · right
    intro k
    refine ⟨?_, hlive k⟩
    cases k with
    | task => exact htask
    | queue => exact hqueue
    | semaphoreFlashig =>
      rw [handle, hflashig]
      rfl
    | semaphoreWriteBlock => exact hwriteBlock
  · intro h
    cases hopen.symm.trans h

theorem Matched.palStep (h : s.Matched) (e : OtaEvent) : (s.palStep e).2.Matched := by
  rw [OtaFile.palStep]
  split
  · exact h
  · exact h.of_same (fun k => by cases k <;> rfl) rfl id

theorem Matched.writeBlock (h : s.Matched) (ulOffset : Nat) (pData : List UInt8) :
    (s.writeBlock ulOffset pData).2.Matched := by
  rw [OtaFile.writeBlock]
  split
  · split
    · exact h
    · exact h.palStep _
  · exact h

theorem isSome_flashPacket (f : FileFlash) (written : Bool) :
    (f.flashPacket written).2.xSemaphoreFlashig.isSome = f.xSemaphoreFlashig.isSome := by
  rw [FileFlash.flashPacket]
  split <;> next hsem => simp [hsem]

theorem Matched.flashPacket (h : s.Matched) (written : Bool) :
    (s.flashPacket written).2.Matched := by
  rw [OtaFile.flashPacket]
  split
  · simp only
    split
    · apply Matched.palStep
      refine h.of_same ?_ rfl id
      intro k
      cases k with
      | task => rfl
      | queue => rfl
      | semaphoreFlashig => exact isSome_flashPacket s.flash written
      | semaphoreWriteBlock => rfl
    · exact h
  · exact h

theorem Matched.closing (h : s.Matched)
    (hc : Closing s context page verified parsed written r) : r.2.Matched := by
  cases hc with
  | unsigned _ _ flash hsem =>
    refine h.of_same ?_ rfl ?_
    · intro k
      cases k with
      | task => rfl
      | queue => rfl
      | semaphoreFlashig => exact congrArg Option.isSome hsem
      | semaphoreWriteBlock => rfl
    · intro hopen
      cases hopen
  | stuck => exact h
  | rejected _ hflushes _ flash hsem =>
    refine h.of_same ?_ rfl ?_
    · intro k
      cases k with
      | task => rfl
      | queue => rfl
      | semaphoreFlashig => exact congrArg Option.isSome (hsem.trans hflushes.2.1.symm)
      | semaphoreWriteBlock => rfl
    · intro hopen
      cases hopen
  | closed _ _ _ _ _ flash hsem =>
    have hsame : s.freeFragments.drainPackets.Matched :=
      h.of_same (fun k => by cases k <;> rfl) rfl id
    exact .of_deleted (fun k => hsame.deleteObjects k) rfl rfl hsem rfl rfl

theorem semaphore_createFileForRx (f : FileFlash) (hpath : context.pFilePath = true)
    (opened erased reopened : Bool) :
    (f.createFileForRx (some context) opened erased reopened).2.xSemaphoreFlashig = some true := by
  rw [FileFlash.createFileForRx]
  simp only [if_pos hpath]
  cases opened <;> cases erased <;> rfl

theorem Matched.createFileForRx (h : s.Matched) (pFileContext : Option OtaFileContext)
    (opened erased reopened : Bool)
    (hnone : ∀ context ∈ pFileContext, context.pFilePath = true → ∀ k, s.live k = 0) :
    (s.createFileForRx pFileContext opened erased reopened).2.Matched := by
  cases pFileContext with
  | none => exact h
  | some context =>
    rw [OtaFile.createFileForRx]
    simp only
    split
    · next hpath =>
      have hlive : ∀ k, s.live k + 1 = 1 := fun k => by rw [hnone context rfl hpath k]
      constructor
      · left
        intro k
        refine ⟨?_, hlive k⟩
        cases k with
        | task => rfl
        | queue => rfl
        | semaphoreFlashig =>
          exact congrArg Option.isSome
            (semaphore_createFileForRx s.flash hpath opened erased reopened)
        | semaphoreWriteBlock => rfl
      · exact fun _ => hlive
    · exact h

/-- A context that is NULL is taken for a valid one. -/
theorem abort_eq (s : OtaFile P) (pFileContext : Option OtaFileContext) :
    s.abort pFileContext =
      (.returns .success, { s.forgetPackets.deleteObjects with isOpen := false }) := by
  cases pFileContext <;> rfl

theorem Matched.abort (h : s.Matched) (pFileContext : Option OtaFileContext) :
    (s.abort pFileContext).2.Matched := by
  have hsame : s.forgetPackets.Matched := h.of_same (fun k => by cases k <;> rfl) rfl id
  rw [abort_eq]
  exact .of_deleted (fun k => hsame.deleteObjects k) rfl rfl rfl rfl rfl

theorem Matched.next (h : s.Matched) (hok : s.StepOk e) : (s.next e).Matched := by
  cases e with
  | createFileForRx pFileContext opened erased reopened =>
    apply h.createFileForRx
    intro context hcontext
    obtain rfl := Option.mem_def.mp hcontext
    exact hok
  | writeBlock pFileContext ulOffset pData => exact h.writeBlock ulOffset pData
  | assemble =>
    show (if s.xQueue = true then s.palStep .assemble else (.asserts, s)).2.Matched
    split
    · exact h.palStep _
    · exact h
  | flashPacket written => exact h.flashPacket written
  | closeFile pFileContext page verified parsed opened written =>
    cases pFileContext with
    | none => exact hok.elim
    | some context =>
      exact h.closing (closeFile_closing s context page verified parsed opened written)
  | abort pFileContext => exact h.abort pFileContext

/-- An open file is not released while an object is live. -/
theorem Matched.not_released (h : s.Matched) (hopen : s.isOpen = true) (hlive : t.live = s.live) :
    ¬ t.Released := by
  intro hreleased
  have hzero := hreleased.objects .task
  rw [hlive, h.isOpen hopen .task] at hzero
  cases hzero

/-- When a call of `otaPal_CloseFile` that returns has released what the open file had. -/
theorem closing_released (h : s.Matched)
    (hc : Closing s context page verified parsed written r) :
    (s.isOpen = true → (∃ eResult, r.1 = .returns eResult) → r.2.Released) ↔
      s.StepOk (.closeFile (some context) page verified parsed opened written) := by
  show _ ↔ (s.isOpen = true → context.pSignature = true ∧
    (s.dangling = false → s.flash.xSemaphoreFlashig = some true →
      (∀ i < s.nodes, (page i).written = true) → verified = .success ∧
        (s.lost = 0 ∨ parsed = true ∧ written = false)))
  constructor
  · intro hreleased hopen
    cases hc with
    | unsigned _ eResult =>
      exact absurd (hreleased hopen ⟨eResult, rfl⟩) (h.not_released hopen rfl)
    | stuck hsigned _ _ reason =>
      refine ⟨hsigned, ?_⟩
      intro hdangling hsem hpages
      obtain ⟨hverified, hheader⟩ := reason ⟨hdangling, hsem, hpages⟩
      exact ⟨hverified, .inr hheader⟩
    | rejected => exact absurd (hreleased hopen ⟨_, rfl⟩) (h.not_released hopen rfl)
    | closed hsigned _ hright _ eResult =>
      refine ⟨hsigned, fun _ _ _ => ⟨hright, .inl ?_⟩⟩
      exact (hreleased hopen ⟨eResult, rfl⟩).lost
  · intro hok hopen hreturns
    obtain ⟨hsigned, hflush⟩ := hok hopen
    cases hc with
    | unsigned hunsigned => cases hunsigned.symm.trans hsigned
    | stuck _ _ hstays =>
      obtain ⟨eResult, hres⟩ := hreturns
      exact absurd hres (hstays eResult)
    | rejected _ hflushes hwrong =>
      exact absurd (hflush hflushes.1 hflushes.2.1 hflushes.2.2).1 hwrong
    | closed _ hflushes _ hheader _ flash hsem =>
      have hsame : s.freeFragments.drainPackets.Matched :=
        h.of_same (fun k => by cases k <;> rfl) rfl id
      refine ⟨fun k => hsame.deleteObjects k, rfl, rfl, ?_⟩
      exact (hflush hflushes.1 hflushes.2.1 hflushes.2.2).2.resolve_right hheader

theorem abort_released (h : s.Matched) :
    (s.isOpen = true → (s.abort (some context)).2.Released) ↔
      s.StepOk (.abort (some context)) := by
  show _ ↔ (s.isOpen = true → s.nodes = 0 ∧ s.pal.xQueue = [] ∧ s.lost = 0)
  rw [abort_eq]
  constructor
  · intro hreleased hopen
    obtain ⟨-, hnodes, -, hlost⟩ := hreleased hopen
    have hsum : s.lost + s.pal.xQueue.length = 0 := hlost
    exact ⟨hnodes, List.length_eq_zero_iff.mp (by omega), by omega⟩
  · intro hok hopen
    obtain ⟨hnodes, hqueue, hlost⟩ := hok hopen
    have hsame : s.forgetPackets.Matched := h.of_same (fun k => by cases k <;> rfl) rfl id
    refine ⟨fun k => hsame.deleteObjects k, hnodes, rfl, ?_⟩
    show s.lost + s.pal.xQueue.length = 0
    rw [hlost, hqueue]
    rfl

/-- A step without a NULL context that ends no file. -/
theorem Matched.manages_of_plain (h : (s.next e).Matched) (hends : ¬ Ends e)
    (hnull : nullResult e = none) : s.Manages e where
  single := h.single
  released hend := absurd hend hends
  null eResult hres := by
    rw [hnull] at hres
    cases hres

theorem writeBlock_ne_returns (s : OtaFile P) (ulOffset : Nat) (pData : List UInt8)
    (eResult : OtaPalMainStatus) : (s.writeBlock ulOffset pData).1 ≠ .returns eResult := by
  rw [OtaFile.writeBlock]
  split
  · split
    · simp
    · rw [OtaFile.palStep]
      split <;> simp
  · simp

theorem Matched.manages (h : s.Matched) (hok : s.StepOk e) : s.Manages e := by
  have hnext := h.next hok
  cases e with
  | createFileForRx pFileContext opened erased reopened =>
    refine ⟨hnext.single, fun hend => hend.elim, ?_⟩
    intro eResult hres
    cases pFileContext with
    | none =>
      obtain rfl := Option.some.inj hres
      rfl
    | some context => cases hres
  | writeBlock pFileContext ulOffset pData =>
    cases pFileContext with
    | none => exact absurd rfl hok
    | some context => exact hnext.manages_of_plain id rfl
  | assemble => exact hnext.manages_of_plain id rfl
  | flashPacket written => exact hnext.manages_of_plain id rfl
  | closeFile pFileContext page verified parsed opened written =>
    cases pFileContext with
    | none => exact hok.elim
    | some context =>
      have hc := closeFile_closing s context page verified parsed opened written
      refine ⟨hnext.single, fun _ => (closing_released h hc).mpr hok, ?_⟩
      intro eResult hres
      cases hres
  | abort pFileContext =>
    cases pFileContext with
    | none => exact hok.elim
    | some context =>
      refine ⟨hnext.single, fun _ hopen _ => (abort_released h).mpr hok hopen, ?_⟩
      intro eResult hres
      cases hres

theorem Matched.stepOk (h : s.Matched) (hm : s.Manages e) : s.StepOk e := by
  cases e with
  | createFileForRx pFileContext opened erased reopened =>
    cases pFileContext with
    | none => trivial
    | some context =>
      intro hpath k
      have hone := hm.single k
      rw [OtaFile.next, OtaFile.run, OtaFile.createFileForRx] at hone
      simp only [if_pos hpath] at hone
      omega
  | writeBlock pFileContext ulOffset pData =>
    cases pFileContext with
    | none =>
      have hres := congrArg Prod.fst (hm.null .fileClose rfl)
      exact absurd hres (writeBlock_ne_returns s ulOffset pData .fileClose)
    | some context => exact Option.some_ne_none context
  | assemble => trivial
  | flashPacket written => trivial
  | closeFile pFileContext page verified parsed opened written =>
    cases pFileContext with
    | none =>
      have hres := congrArg Prod.fst (hm.null .fileClose rfl)
      cases hres
    | some context =>
      have hc := closeFile_closing s context page verified parsed opened written
      exact (closing_released h hc).mp (hm.released trivial)
  | abort pFileContext =>
    cases pFileContext with
    | none =>
      have hres := congrArg Prod.fst (hm.null .fileClose rfl)
      cases hres
    | some context =>
      apply (abort_released h).mp
      intro hopen
      exact hm.released trivial hopen ⟨.success, congrArg Prod.fst (abort_eq s (some context))⟩

end matched

/-- The resources are managed as they should be in every step of a run exactly when each step
meets the condition. -/
theorem fileLifecycle_run (pal : OtaPal P) (events : List FileEvent) :
    Admits Manages next (start pal) events ↔ Admits StepOk next (start pal) events := by
  constructor
  · intro h
    apply h.mono_of_invariant Matched ?_ (.start pal)
    intro s e hs hm
    have hok := hs.stepOk hm
    exact ⟨hok, hs.next hok⟩
  · intro h
    exact h.mono_of_invariant Matched (fun _ _ hs hok => ⟨hs.manages hok, hs.next hok⟩) (.start pal)

/-- A NULL context counts as valid: aborting it deletes the objects of the open file. -/
theorem not_fileLifecycle_abortNull :
    ¬ Admits Manages next (start (OtaPal.otaPalCreateFileForRx ⟨[0], rfl⟩ : OtaPal 1))
      [.createFileForRx (some ⟨true, true⟩) true true true, .abort none] := by
  intro h
  have hres := congrArg Prod.fst (h.2.1.null .fileClose rfl)
  cases hres

end OtaFile

end RenesasDemo.Ota
