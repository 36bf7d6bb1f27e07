import RenesasDemo.Ota.FlashingTask
import RenesasDemo.Ota.ImageState

namespace RenesasDemo.Ota

open Framework

/-- How a call or a pass of the flashing task ends. -/
inductive Ending where
  | returns (eResult : OtaPalMainStatus)
  /-- It is over and has no status to return. -/
  | passes
  /-- It waits for a callback that does not come. -/
  | waits
  /-- A kernel function is given NULL for its object. -/
  | asserts
  /-- C does not define what happens. -/
  | undefined
  deriving DecidableEq

/-- The outcomes of `R_FLASH_Open` and `R_FLASH_Write` for the page of one fragment. -/
structure PageOutcome where
  opened : Bool
  written : Bool
  deriving DecidableEq

/-- What the flash operations for one file leave. -/
structure FileFlash where
  /-- NULL, or whether the semaphore is given or will be by a callback that comes. -/
  xSemaphoreFlashig : Option Bool
  callback : FlashCallback
  eSavedAgentState : OtaImageState
  /-- Every flash operation issued for the file so far succeeded. -/
  succeeded : Bool
  deriving DecidableEq

/-- The calls with the outcomes of their flash operations. -/
inductive FlashEvent where
  | createFileForRx (pFileContext : Option OtaFileContext) (opened erased reopened : Bool)
  /-- A pass of `ota_flashing_task`; those for packets accepted before a call of
  `otaPal_CloseFile` come before it. -/
  | flashPacket (written : Bool)
  /-- `verified` is the result of the verification, `parsed` whether the signature is understood. -/
  | closeFile (pFileContext : OtaFileContext) (pages : List PageOutcome)
      (verified : OtaPalMainStatus) (parsed opened written : Bool)
  | setPlatformImageState (eState : OtaImageState) (opened erased : Bool)

namespace FileFlash

def start : FileFlash := ⟨none, .otaFlashingCallback, .unknown, true⟩

def issue (s : FileFlash) (ok : Bool) : FileFlash := { s with succeeded := s.succeeded && ok }

def createFileForRx (s : FileFlash) (pFileContext : Option OtaFileContext)
    (opened erased reopened : Bool) : Ending × FileFlash :=
  match pFileContext with
  | none => (.returns .rxFileCreateFailed, s)
  | some context =>
      if context.pFilePath then
        let s1 := { s with xSemaphoreFlashig := some true, succeeded := true }.issue opened
        if opened then
          let s2 := { s1 with callback := .otaHeaderFlashingCallback }.issue erased
          -- the busy wait for the callback
          if erased then
            (.returns .success,
              { s2.issue reopened with
                callback := .otaFlashingCallback, eSavedAgentState := .unknown })
          else (.waits, s2)
        else (.returns .rxFileCreateFailed, s1)
      else (.returns .rxFileCreateFailed, s)

/-- The callback gives the semaphore if the write was started and the callback is the right one. -/
def flashPacket (s : FileFlash) (written : Bool) : Ending × FileFlash :=
  match s.xSemaphoreFlashig with
  | none => (.asserts, s)
  | some false => (.waits, s)
  | some true =>
      (.passes,
        { s.issue written with
          xSemaphoreFlashig := some (written && s.callback = .otaFlashingCallback) })

def takeFlashig (s : FileFlash) : Except Ending FileFlash :=
  match s.xSemaphoreFlashig with
  | none => .error .asserts
  | some false => .error .waits
  | some true => .ok s

/-- One pass of the loop in `otaPal_CheckFileSignature`. -/
def flushPage (s : FileFlash) (page : PageOutcome) : Except Ending FileFlash :=
  s.takeFlashig.bind fun s1 =>
    let s2 := { (s1.issue page.opened).issue page.written with
      callback := .otaHeaderFlashingCallback }
    if page.written then .ok s2 else .error .waits

/-- `otaPal_CheckFileSignature` up to the verification. -/
def flush (s : FileFlash) : List PageOutcome → Except Ending FileFlash
  | [] => s.takeFlashig
  | page :: pages => (page :: pages).foldlM flushPage s

def closeFile (s : FileFlash) (pFileContext : OtaFileContext) (pages : List PageOutcome)
    (verified : OtaPalMainStatus) (parsed opened written : Bool) : Ending × FileFlash :=
  if pFileContext.pSignature then
    match s.flush pages with
    | .error ending => (ending, s)
    | .ok s1 =>
        if verified = .success then
          if parsed then
            let s2 := { (s1.issue opened).issue written with
              callback := .otaHeaderFlashingCallback }
            if written then (.returns .success, { s2 with xSemaphoreFlashig := none })
            else (.waits, s2)
          else (.returns .fileClose, { s1 with xSemaphoreFlashig := none })
        else (.returns verified, { s1 with eSavedAgentState := .rejected })
  else (.returns .signatureCheckFailed, { s with eSavedAgentState := .rejected })

/-- Only the commit in the self test issues flash operations. -/
def setPlatformImageState (s : FileFlash) (eState : OtaImageState) (opened erased : Bool) :
    Ending × FileFlash :=
  let s1 :=
    if s.eSavedAgentState = .testing ∧ eState = .accepted then
      { (s.issue opened).issue erased with callback := .otaHeaderFlashingCallback }
    else s
  (.returns (setPlatformImageStateResult s.eSavedAgentState eState erased),
    { s1 with eSavedAgentState := eState })

def run (s : FileFlash) : FlashEvent → Ending × FileFlash
  | .createFileForRx pFileContext opened erased reopened =>
      s.createFileForRx pFileContext opened erased reopened
  | .flashPacket written => s.flashPacket written
  | .closeFile pFileContext pages verified parsed opened written =>
      s.closeFile pFileContext pages verified parsed opened written
  | .setPlatformImageState eState opened erased => s.setPlatformImageState eState opened erased

def next (s : FileFlash) (e : FlashEvent) : FileFlash := (s.run e).2

/-- Nobody waits for a callback that does not come, and a success means that the flash operations
of the file succeeded. -/
structure Reliable (s : FileFlash) (e : FlashEvent) : Prop where
  terminates : (s.run e).1 ≠ .waits
  success : (s.run e).1 = .returns .success → (s.next e).succeeded = true

/-- The outcomes that the code does not look at, where they matter. -/
def StepOk (s : FileFlash) : FlashEvent → Prop
  | .createFileForRx none _ _ _ => True
  | .createFileForRx (some context) opened erased reopened =>
      context.pFilePath = true → opened = true → erased = true ∧ reopened = true
  | .flashPacket _ => s.xSemaphoreFlashig ≠ some false
  | .closeFile context pages verified parsed opened written =>
      context.pSignature = true → s.xSemaphoreFlashig ≠ none →
        s.xSemaphoreFlashig = some true ∧ (∀ page ∈ pages, page.written = true) ∧
          (verified = .success → parsed = true →
            written = true ∧ opened = true ∧ (∀ page ∈ pages, page.opened = true) ∧
              s.succeeded = true)
  | .setPlatformImageState .accepted opened erased =>
      s.eSavedAgentState = .testing → erased = true → opened = true ∧ s.succeeded = true
  | .setPlatformImageState .unknown _ _ => True
  | .setPlatformImageState (.other _) _ _ => True
  | .setPlatformImageState _ _ _ => s.succeeded = true

section flush

variable {s t : FileFlash} {pages : List PageOutcome} {page : PageOutcome}

theorem flushPage_ok (hsem : s.xSemaphoreFlashig = some true) (hpage : page.written = true) :
    s.flushPage page = .ok { s.issue page.opened with callback := .otaHeaderFlashingCallback } := by
  have htake : s.takeFlashig = .ok s := by rw [takeFlashig, hsem]
  rw [flushPage, htake]
  show (if page.written = true then _ else _) = _
  rw [if_pos hpage, issue, hpage, Bool.and_true]

theorem flushPage_waits (hsem : s.xSemaphoreFlashig = some true) (hpage : page.written = false) :
    s.flushPage page = .error .waits := by
  have htake : s.takeFlashig = .ok s := by rw [takeFlashig, hsem]
  rw [flushPage, htake]
  show (if page.written = true then _ else _) = _
  rw [hpage, if_neg Bool.false_ne_true]

/-- The loop goes through when the semaphore is there and every page is written. -/
theorem foldlM_flushPage_ok (hsem : s.xSemaphoreFlashig = some true)
    (hpages : ∀ page ∈ pages, page.written = true) :
    ∃ t, pages.foldlM flushPage s = .ok t ∧ t.xSemaphoreFlashig = some true ∧
      t.eSavedAgentState = s.eSavedAgentState ∧
      t.succeeded = (s.succeeded && pages.all PageOutcome.opened) := by
  induction pages generalizing s with
  | nil => exact ⟨s, rfl, hsem, rfl, (Bool.and_true _).symm⟩
  | cons page pages ih =>
    obtain ⟨t, ht, htsem, hsaved, hsucceeded⟩ :=
      ih (s := { s.issue page.opened with callback := .otaHeaderFlashingCallback }) hsem
        fun p hp => hpages p (List.mem_cons_of_mem page hp)
    refine ⟨t, ?_, htsem, hsaved, ?_⟩
    · rw [List.foldlM_cons, flushPage_ok hsem (hpages page List.mem_cons_self)]
      exact ht
    · rw [hsucceeded, List.all_cons, ← Bool.and_assoc]
      rfl

theorem foldlM_flushPage_waits (hsem : s.xSemaphoreFlashig = some true)
    (hpages : ∃ page ∈ pages, page.written = false) :
    pages.foldlM flushPage s = .error .waits := by
  induction pages generalizing s with
  | nil =>
    obtain ⟨page, hpage, -⟩ := hpages
    cases hpage
  | cons page pages ih =>
    rw [List.foldlM_cons]
    cases hwritten : page.written with
    | false =>
      rw [flushPage_waits hsem hwritten]
      rfl
    | true =>
      have hrest : ∃ p ∈ pages, p.written = false := by
        obtain ⟨p, hp, hfalse⟩ := hpages
        obtain rfl | hp := List.mem_cons.mp hp
        · cases hfalse.symm.trans hwritten
        · exact ⟨p, hp, hfalse⟩
      rw [flushPage_ok hsem hwritten]
      exact ih (s := { s.issue page.opened with callback := .otaHeaderFlashingCallback }) hsem hrest

theorem flush_ok (hsem : s.xSemaphoreFlashig = some true)
    (hpages : ∀ page ∈ pages, page.written = true) :
    ∃ t, s.flush pages = .ok t ∧ t.xSemaphoreFlashig = some true ∧
      t.eSavedAgentState = s.eSavedAgentState ∧
      t.succeeded = (s.succeeded && pages.all PageOutcome.opened) := by
  cases pages with
  | nil =>
    have htake : s.takeFlashig = .ok s := by rw [takeFlashig, hsem]
    exact ⟨s, htake, hsem, rfl, (Bool.and_true _).symm⟩
  | cons page pages => exact foldlM_flushPage_ok hsem hpages

/-- Without the semaphore, or with a page that is not written, the call does not come back. -/
theorem flush_waits (h : s.xSemaphoreFlashig = some false ∨
    s.xSemaphoreFlashig = some true ∧ ∃ page ∈ pages, page.written = false) :
    s.flush pages = .error .waits := by
  obtain hsem | ⟨hsem, hpages⟩ := h
  · have htake : s.takeFlashig = .error .waits := by rw [takeFlashig, hsem]
    cases pages with
    | nil => exact htake
    | cons page pages =>
      rw [flush, List.foldlM_cons, flushPage, htake]
      rfl
  · cases pages with
    | nil =>
      obtain ⟨page, hpage, -⟩ := hpages
      cases hpage
    | cons page pages => exact foldlM_flushPage_waits hsem hpages

theorem flush_asserts (hsem : s.xSemaphoreFlashig = none) : s.flush pages = .error .asserts := by
  have htake : s.takeFlashig = .error .asserts := by rw [takeFlashig, hsem]
  cases pages with
  | nil => exact htake
  | cons page pages =>
    rw [flush, List.foldlM_cons, flushPage, htake]
    rfl

/-- The flush comes to its end exactly with the semaphore and with every page written. -/
theorem flush_error (hthrough : ¬ (s.xSemaphoreFlashig = some true ∧
    ∀ page ∈ pages, page.written = true)) :
    s.flush pages = .error (if s.xSemaphoreFlashig = none then .asserts else .waits) := by
  by_cases hnone : s.xSemaphoreFlashig = none
  · rw [if_pos hnone]
    exact flush_asserts hnone
  · rw [if_neg hnone]
    apply flush_waits
    cases hsem : s.xSemaphoreFlashig with
    | none => exact absurd hsem hnone
    | some given =>
      cases given with
      | false => exact .inl rfl
      | true =>
        right
        refine ⟨rfl, ?_⟩
        by_contra hall
        push Not at hall
        exact hthrough ⟨hsem, fun page hpage => by simpa using hall page hpage⟩

end flush

section reliable

variable {s t : FileFlash} {e : FlashEvent} {context : OtaFileContext} {pages : List PageOutcome}
  {verified : OtaPalMainStatus} {parsed opened written : Bool}

/-- A call that ends neither in a wait nor with a success has nothing to answer for. -/
theorem Reliable.of_ending {ending : Ending} (h : (s.run e).1 = ending) (hwaits : ending ≠ .waits)
    (hsuccess : ending ≠ .returns .success) : s.Reliable e := by
  constructor
  · rw [h]
    exact hwaits
  · intro hres
    exact absurd (h.symm.trans hres) hsuccess

theorem not_reliable_of_waits (h : (s.run e).1 = .waits) : ¬ s.Reliable e :=
  fun hreliable => hreliable.terminates h

theorem reliable_of_success (h : (s.run e).1 = .returns .success) :
    s.Reliable e ↔ (s.next e).succeeded = true := by
  constructor
  · intro hreliable
    exact hreliable.success h
  · intro hsucceeded
    refine ⟨?_, fun _ => hsucceeded⟩
    rw [h]
    intro hwaits
    cases hwaits

theorem createFileForRx_reliable (s : FileFlash) (pFileContext : Option OtaFileContext)
    (opened erased reopened : Bool) :
    s.Reliable (.createFileForRx pFileContext opened erased reopened) ↔
      s.StepOk (.createFileForRx pFileContext opened erased reopened) := by
  have hfailed : ∀ {e : FlashEvent}, (s.run e).1 = .returns .rxFileCreateFailed → s.Reliable e :=
    fun h => .of_ending h (by decide) (by decide)
  cases pFileContext with
  | none => exact ⟨fun _ => trivial, fun _ => hfailed rfl⟩
  | some context =>
    obtain ⟨pFilePath, pSignature⟩ := context
    constructor
    · intro h hpath hopened
      have hpath : pFilePath = true := hpath
      subst hpath hopened
      cases erased with
      | false => exact absurd h (not_reliable_of_waits rfl)
      | true => exact ⟨rfl, (reliable_of_success rfl).mp h⟩
    · intro hok
      cases pFilePath with
      | false => exact hfailed rfl
      | true =>
        cases opened with
        | false => exact hfailed rfl
        | true =>
          obtain ⟨rfl, rfl⟩ := hok rfl rfl
          exact (reliable_of_success rfl).mpr rfl

theorem flashPacket_reliable (s : FileFlash) (written : Bool) :
    s.Reliable (.flashPacket written) ↔ s.StepOk (.flashPacket written) := by
  show _ ↔ s.xSemaphoreFlashig ≠ some false
  have hrun : s.run (.flashPacket written) = s.flashPacket written := rfl
  rw [flashPacket] at hrun
  cases hsem : s.xSemaphoreFlashig with
  | none =>
    rw [hsem] at hrun
    have hend : (s.run (.flashPacket written)).1 = .asserts := congrArg Prod.fst hrun
    exact ⟨fun _ => by simp, fun _ => .of_ending hend (by decide) (by decide)⟩
  | some given =>
    rw [hsem] at hrun
    cases given with
    | false =>
      have hend : (s.run (.flashPacket written)).1 = .waits := congrArg Prod.fst hrun
      exact ⟨fun h => absurd h (not_reliable_of_waits hend), fun h => absurd rfl h⟩
    | true =>
      have hend : (s.run (.flashPacket written)).1 = .passes := congrArg Prod.fst hrun
      exact ⟨fun _ => by simp, fun _ => .of_ending hend (by decide) (by decide)⟩

theorem closeFile_reliable_of_flush (hsig : context.pSignature = true)
    (hflush : s.flush pages = .ok t)
    (hsucceeded : t.succeeded = (s.succeeded && pages.all PageOutcome.opened)) :
    s.Reliable (.closeFile context pages verified parsed opened written) ↔
      (verified = .success → parsed = true →
        written = true ∧ opened = true ∧ (∀ page ∈ pages, page.opened = true) ∧
          s.succeeded = true) := by
  have hrun : s.run (.closeFile context pages verified parsed opened written) =
      s.closeFile context pages verified parsed opened written := rfl
  rw [closeFile, if_pos hsig, hflush] at hrun
  simp only at hrun
  by_cases hverified : verified = .success
  · rw [if_pos hverified] at hrun
    cases parsed with
    | false =>
      have hend : (s.run (.closeFile context pages verified false opened written)).1 =
          .returns .fileClose := congrArg Prod.fst hrun
      exact ⟨fun _ _ hparsed => absurd hparsed Bool.false_ne_true,
        fun _ => .of_ending hend (by decide) (by decide)⟩
    | true =>
      cases written with
      | false =>
        have hend := congrArg Prod.fst hrun
        constructor
        · intro h
          exact absurd h (not_reliable_of_waits hend)
        · intro h
          exact absurd (h hverified rfl).1 Bool.false_ne_true
      | true =>
        have hend := congrArg Prod.fst hrun
        have hnext : (s.next (.closeFile context pages verified true opened true)).succeeded =
            (t.succeeded && opened && true) := congrArg (fun r => r.2.succeeded) hrun
        rw [reliable_of_success hend, hnext, hsucceeded]
        simp only [Bool.and_true, Bool.and_eq_true, List.all_eq_true]
        constructor
        · intro h _ _
          exact ⟨trivial, h.2, h.1.2, h.1.1⟩
        · intro h
          obtain ⟨-, hopened, hpages, hs⟩ := h hverified trivial
          exact ⟨⟨hs, hpages⟩, hopened⟩
  · rw [if_neg hverified] at hrun
    have hend := congrArg Prod.fst hrun
    refine ⟨fun _ h => absurd h hverified, fun _ => .of_ending hend ?_ ?_⟩
    · intro h
      cases h
    · intro h
      exact hverified (Ending.returns.inj h)

theorem closeFile_reliable (s : FileFlash) (context : OtaFileContext) (pages : List PageOutcome)
    (verified : OtaPalMainStatus) (parsed opened written : Bool) :
    s.Reliable (.closeFile context pages verified parsed opened written) ↔
      s.StepOk (.closeFile context pages verified parsed opened written) := by
  by_cases hsig : context.pSignature = true
  · have hrun : ∀ ending, s.flush pages = .error ending →
        (s.run (.closeFile context pages verified parsed opened written)).1 = ending := by
      intro ending hflush
      show (s.closeFile context pages verified parsed opened written).1 = ending
      rw [closeFile, if_pos hsig, hflush]
    by_cases hthrough : s.xSemaphoreFlashig = some true ∧ ∀ page ∈ pages, page.written = true
    · obtain ⟨t, hflush, -, -, hsucceeded⟩ := flush_ok hthrough.1 hthrough.2
      rw [closeFile_reliable_of_flush hsig hflush hsucceeded]
      have hne : s.xSemaphoreFlashig ≠ none := by
        rw [hthrough.1]
        exact Option.some_ne_none true
      exact ⟨fun h _ _ => ⟨hthrough.1, hthrough.2, h⟩, fun h => (h hsig hne).2.2⟩
    · have hend := hrun _ (flush_error hthrough)
      by_cases hnone : s.xSemaphoreFlashig = none
      · rw [if_pos hnone] at hend
        exact ⟨fun _ _ h => absurd hnone h, fun _ => .of_ending hend (by decide) (by decide)⟩
      · rw [if_neg hnone] at hend
        constructor
        · intro h
          exact absurd h (not_reliable_of_waits hend)
        · intro h
          have hok := h hsig hnone
          exact absurd ⟨hok.1, hok.2.1⟩ hthrough
  · have hend : (s.run (.closeFile context pages verified parsed opened written)).1 =
        .returns .signatureCheckFailed := by
      show (s.closeFile context pages verified parsed opened written).1 = _
      rw [closeFile, if_neg hsig]
    exact ⟨fun _ h => absurd h hsig, fun _ => .of_ending hend (by decide) (by decide)⟩

theorem setPlatformImageState_reliable_of_success {eState : OtaImageState} {erased : Bool}
    (hstate : eState = .testing ∨ eState = .rejected ∨ eState = .aborted) :
    s.Reliable (.setPlatformImageState eState opened erased) ↔ s.succeeded = true := by
  have hend : (s.run (.setPlatformImageState eState opened erased)).1 = .returns .success :=
    congrArg Ending.returns (ImageState.setResult_success _ _ hstate)
  have hne : ¬ (s.eSavedAgentState = .testing ∧ eState = .accepted) := by
    intro h
    obtain rfl | rfl | rfl := hstate <;> cases h.2
  have hnext : (s.next (.setPlatformImageState eState opened erased)).succeeded = s.succeeded := by
    show (s.setPlatformImageState eState opened erased).2.succeeded = _
    simp only [setPlatformImageState, if_neg hne]
  rw [reliable_of_success hend, hnext]

theorem setPlatformImageState_reliable_of_bad {eState : OtaImageState} {erased : Bool}
    (hbad : setPlatformImageStateResult s.eSavedAgentState eState erased ≠ .success) :
    s.Reliable (.setPlatformImageState eState opened erased) := by
  refine .of_ending rfl ?_ ?_
  · intro h
    cases h
  · intro h
    exact hbad (Ending.returns.inj h)

theorem setPlatformImageState_reliable (s : FileFlash) (eState : OtaImageState)
    (opened erased : Bool) :
    s.Reliable (.setPlatformImageState eState opened erased) ↔
      s.StepOk (.setPlatformImageState eState opened erased) := by
  cases eState with
  | testing => exact setPlatformImageState_reliable_of_success (.inl rfl)
  | rejected => exact setPlatformImageState_reliable_of_success (.inr (.inl rfl))
  | aborted => exact setPlatformImageState_reliable_of_success (.inr (.inr rfl))
  | unknown =>
    exact ⟨fun _ => trivial, fun _ =>
      setPlatformImageState_reliable_of_bad (ImageState.setResult_unknown _ _)⟩
  | other n =>
    exact ⟨fun _ => trivial, fun _ =>
      setPlatformImageState_reliable_of_bad (ImageState.setResult_other _ n _)⟩
  | accepted =>
    show _ ↔ (s.eSavedAgentState = .testing → erased = true → opened = true ∧ s.succeeded = true)
    by_cases hcommit : s.eSavedAgentState = .testing ∧ erased = true
    · have hres := (ImageState.setResult_accepted s.eSavedAgentState erased).mpr hcommit
      have hnext : (s.next (.setPlatformImageState .accepted opened erased)).succeeded =
          (s.succeeded && opened && erased) := by
        show (s.setPlatformImageState .accepted opened erased).2.succeeded = _
        simp only [setPlatformImageState, hcommit.1, and_self, if_true]
        rfl
      have hend : (s.run (.setPlatformImageState .accepted opened erased)).1 =
          .returns .success := congrArg Ending.returns hres
      rw [reliable_of_success hend, hnext, hcommit.2]
      simp only [Bool.and_true, Bool.and_eq_true]
      exact ⟨fun h _ _ => h.symm, fun h => (h hcommit.1 trivial).symm⟩
    · have hbad : setPlatformImageStateResult s.eSavedAgentState .accepted erased ≠ .success :=
        fun h => hcommit ((ImageState.setResult_accepted _ _).mp h)
      exact ⟨fun _ htesting herased => absurd ⟨htesting, herased⟩ hcommit,
        fun _ => setPlatformImageState_reliable_of_bad hbad⟩

theorem reliable_iff (s : FileFlash) (e : FlashEvent) : s.Reliable e ↔ s.StepOk e := by
  cases e with
  | createFileForRx pFileContext opened erased reopened =>
    exact createFileForRx_reliable s pFileContext opened erased reopened
  | flashPacket written => exact flashPacket_reliable s written
  | closeFile context pages verified parsed opened written =>
    exact closeFile_reliable s context pages verified parsed opened written
  | setPlatformImageState eState opened erased =>
    exact setPlatformImageState_reliable s eState opened erased

/-- In every run, each operation terminates and each success is true exactly when no outcome that
the code leaves unchecked fails. -/
theorem flashOutcomes_run (events : List FlashEvent) :
    Admits Reliable next start events ↔ Admits StepOk next start events := by
  constructor
  · intro h
    exact h.mono fun s e hreliable => (reliable_iff s e).mp hreliable
  · intro h
    exact h.mono fun s e hok => (reliable_iff s e).mpr hok

/-- The erase is not started, and its callback waited for. -/
theorem not_flashOutcomes_erase :
    ¬ Admits Reliable next start [.createFileForRx (some ⟨true, true⟩) true false true] :=
  fun h => h.1.terminates rfl

end reliable

end FileFlash

end RenesasDemo.Ota
