import RenesasDemo.Framework.Runs

namespace RenesasDemo.Ota

open Framework

/-- The main codes of `OtaPalStatus_t` that the functions return. -/
inductive OtaPalMainStatus where
  | uninitialized
  | success
  | rxFileCreateFailed
  | signatureCheckFailed
  | badSignerCert
  | fileClose
  | badImageState
  | commitFailed
  deriving DecidableEq

inductive OtaImageState where
  | unknown
  | testing
  | accepted
  | rejected
  | aborted
  /-- A value of the type that the enumeration does not name. -/
  | other (n : Nat)
  deriving DecidableEq

inductive OtaPalImageState where
  | unknown
  | pendingCommit
  | valid
  | invalid
  deriving DecidableEq

/-- Which pointers of the context are not NULL. -/
structure OtaFileContext where
  pFilePath : Bool
  pSignature : Bool
  deriving DecidableEq

/-- The result and the saved state, given whether `R_FLASH_Open` and `R_FLASH_Erase` succeed; after
a failing erase the call waits for ever. -/
def createFileForRx (pFileContext : Option OtaFileContext) (opened erased : Bool)
    (eSavedAgentState : OtaImageState) : Option (OtaPalMainStatus × OtaImageState) :=
  match pFileContext with
  | none => some (.rxFileCreateFailed, eSavedAgentState)
  | some context =>
      if context.pFilePath then
        if opened then
          if erased then some (.success, .unknown) else none
        else some (.rxFileCreateFailed, eSavedAgentState)
      else some (.rxFileCreateFailed, eSavedAgentState)

/-- The result and the saved state, given what `otaPal_CheckFileSignature` and
`ota_context_update_user_firmware_header` return. -/
def closeFile (pFileContext : OtaFileContext) (checked : OtaPalMainStatus) (updated : Bool)
    (eSavedAgentState : OtaImageState) : OtaPalMainStatus × OtaImageState :=
  let eResult := if pFileContext.pSignature then checked else .signatureCheckFailed
  if eResult = .success then
    (if updated then .success else .fileClose, eSavedAgentState)
  else (eResult, .rejected)

/-- `eResult` of `otaPal_SetPlatformImageState`, given whether `R_FLASH_Erase` succeeds. -/
def setPlatformImageStateResult (eSavedAgentState eState : OtaImageState) (erased : Bool) :
    OtaPalMainStatus :=
  if eSavedAgentState = .testing then
    match eState with
    | .accepted => if erased then .success else .commitFailed
    | .rejected => .success
    | .aborted => .success
    | .testing => .success
    | _ => .badImageState
  else
    match eState with
    | .accepted => .commitFailed
    | .rejected => .success
    | .aborted => .success
    | .testing => .success
    | _ => .badImageState

/-- The new state is saved whatever the result is. -/
def otaPalSetPlatformImageState (eSavedAgentState eState : OtaImageState) (erased : Bool) :
    OtaPalMainStatus × OtaImageState :=
  (setPlatformImageStateResult eSavedAgentState eState erased, eState)

def otaPalGetPlatformImageState (eSavedAgentState : OtaImageState) : OtaPalImageState :=
  match eSavedAgentState with
  | .testing => .pendingCommit
  | .accepted => .valid
  | .unknown => .valid
  | .rejected => .invalid
  | .aborted => .invalid
  | .other _ => .invalid

/-- The state in static RAM, and what has happened to the image. -/
structure ImageState where
  eSavedAgentState : OtaImageState
  /-- A commit of the image failed, and none has succeeded since. -/
  commitFailed : Bool
  /-- The state of the last successful call of `otaPal_SetPlatformImageState`. -/
  lastSet : Option OtaImageState
  /-- The device was reset after that call. -/
  resetSince : Bool

/-- The calls with the outcomes of what they call, and resets of the device. -/
inductive ImageEvent where
  | createFileForRx (pFileContext : Option OtaFileContext) (opened erased : Bool)
  | closeFile (pFileContext : OtaFileContext) (checked : OtaPalMainStatus) (updated : Bool)
  | setPlatformImageState (eState : OtaImageState) (erased : Bool)
  | getPlatformImageState
  | reset

namespace ImageState

def start : ImageState := ⟨.unknown, false, none, false⟩

def report (s : ImageState) : OtaPalImageState := otaPalGetPlatformImageState s.eSavedAgentState

def set (s : ImageState) (eState : OtaImageState) : OtaPalMainStatus × OtaImageState → ImageState
  | (.success, saved) => ⟨saved, s.commitFailed && eState ≠ .accepted, some eState, false⟩
  | (_, saved) =>
      { s with
        eSavedAgentState := saved
        commitFailed := s.commitFailed || eState = .accepted }

def next (s : ImageState) : ImageEvent → ImageState
  | .createFileForRx pFileContext opened erased =>
      match Ota.createFileForRx pFileContext opened erased s.eSavedAgentState with
      | none => s
      | some (eResult, saved) =>
          -- a created file is another image
          { s with
            eSavedAgentState := saved
            commitFailed := s.commitFailed && eResult ≠ .success }
  | .closeFile pFileContext checked updated =>
      { s with
        eSavedAgentState := (Ota.closeFile pFileContext checked updated s.eSavedAgentState).2 }
  | .setPlatformImageState eState erased =>
      s.set eState (otaPalSetPlatformImageState s.eSavedAgentState eState erased)
  | .getPlatformImageState => s
  | .reset => { s with eSavedAgentState := .unknown, resetSince := true }

/-- What the state reported after a step has to be. -/
structure Conforms (s : ImageState) (e : ImageEvent) : Prop where
  commit : (s.next e).commitFailed = true → (s.next e).report ≠ .valid
  testing : (s.next e).lastSet = some .testing → (s.next e).resetSince = true →
    (s.next e).report = .pendingCommit
  failure : ∀ eState erased, e = .setPlatformImageState eState erased →
    (otaPalSetPlatformImageState s.eSavedAgentState eState erased).1 ≠ .success →
    (s.next e).report = s.report

/-- No reset while the image is in its self test, a commit only then and with an erase that
succeeds, and a value that is refused only where it would not be noticed. -/
def StepOk (s : ImageState) : ImageEvent → Prop
  | .createFileForRx .. => True
  | .closeFile .. => True
  | .setPlatformImageState .accepted erased => s.eSavedAgentState = .testing ∧ erased = true
  | .setPlatformImageState .unknown _ =>
      s.eSavedAgentState = .unknown ∨ s.eSavedAgentState = .accepted
  | .setPlatformImageState (.other _) _ =>
      s.eSavedAgentState ≠ .unknown ∧ s.eSavedAgentState ≠ .testing ∧
        s.eSavedAgentState ≠ .accepted
  | .setPlatformImageState _ _ => True
  | .getPlatformImageState => True
  | .reset => s.lastSet ≠ some .testing

/-- What the condition keeps up. -/
structure Sound (s : ImageState) : Prop where
  committed : s.commitFailed = false
  settled : s.resetSince = true → s.lastSet ≠ some .testing

section steps

variable {s : ImageState} {e : ImageEvent} {saved eState : OtaImageState}

theorem report_eq_valid (saved : OtaImageState) :
    otaPalGetPlatformImageState saved = .valid ↔ saved = .unknown ∨ saved = .accepted := by
  cases saved <;> simp [otaPalGetPlatformImageState]

theorem report_eq_invalid (saved : OtaImageState) :
    otaPalGetPlatformImageState saved = .invalid ↔
      saved ≠ .unknown ∧ saved ≠ .testing ∧ saved ≠ .accepted := by
  cases saved <;> simp [otaPalGetPlatformImageState]

/-- A refused value is saved too, and what it means reported. -/
theorem report_set (s : ImageState) (eState saved : OtaImageState) (r : OtaPalMainStatus) :
    (s.set eState (r, saved)).report = otaPalGetPlatformImageState saved := by
  cases r <;> rfl

theorem commitFailed_set_of_ne {r : OtaPalMainStatus} (hr : r ≠ .success) :
    (s.set eState (r, saved)).commitFailed = (s.commitFailed || eState = .accepted) := by
  cases r <;> first | rfl | exact absurd rfl hr

/-- A commit succeeds only in the self test and with the erase. -/
theorem setResult_accepted (saved : OtaImageState) (erased : Bool) :
    setPlatformImageStateResult saved .accepted erased = .success ↔
      saved = .testing ∧ erased = true := by
  by_cases hsaved : saved = .testing
  · cases erased <;> simp [setPlatformImageStateResult, hsaved]
  · simp [setPlatformImageStateResult, hsaved]

theorem setResult_unknown (saved : OtaImageState) (erased : Bool) :
    setPlatformImageStateResult saved .unknown erased ≠ .success := by
  by_cases hsaved : saved = .testing <;> simp [setPlatformImageStateResult, hsaved]

theorem setResult_other (saved : OtaImageState) (n : Nat) (erased : Bool) :
    setPlatformImageStateResult saved (.other n) erased ≠ .success := by
  by_cases hsaved : saved = .testing <;> simp [setPlatformImageStateResult, hsaved]

theorem setResult_success (saved : OtaImageState) (erased : Bool)
    (h : eState = .testing ∨ eState = .rejected ∨ eState = .aborted) :
    setPlatformImageStateResult saved eState erased = .success := by
  by_cases hsaved : saved = .testing <;> obtain rfl | rfl | rfl := h <;>
    simp [setPlatformImageStateResult, hsaved]

theorem Conforms.stepOk (h : s.Conforms e) : s.StepOk e := by
  cases e with
  | createFileForRx => trivial
  | closeFile => trivial
  | getPlatformImageState => trivial
  | reset =>
    intro htesting
    have hpending : OtaPalImageState.valid = .pendingCommit := h.testing htesting rfl
    cases hpending
  | setPlatformImageState eState erased =>
    have hfail : setPlatformImageStateResult s.eSavedAgentState eState erased ≠ .success →
        otaPalGetPlatformImageState eState = s.report := by
      intro hr
      rw [← h.failure eState erased rfl hr]
      exact (report_set ..).symm
    cases eState with
    | testing => trivial
    | rejected => trivial
    | aborted => trivial
    | accepted =>
      by_contra hnot
      have hr : setPlatformImageStateResult s.eSavedAgentState .accepted erased ≠ .success :=
        fun hsuccess => hnot ((setResult_accepted _ _).mp hsuccess)
      have hcommit : (s.next (.setPlatformImageState .accepted erased)).commitFailed = true := by
        show (s.set _ (_, _)).commitFailed = true
        rw [commitFailed_set_of_ne hr]
        exact Bool.or_true _
      exact h.commit hcommit (report_set ..)
    | unknown =>
      have hreport := hfail (setResult_unknown _ _)
      exact (report_eq_valid _).mp hreport.symm
    | other n =>
      have hreport := hfail (setResult_other _ n _)
      exact (report_eq_invalid _).mp hreport.symm

theorem Sound.set (h : s.Sound) (hr : setPlatformImageStateResult s.eSavedAgentState eState
    erased = .success) : (s.next (.setPlatformImageState eState erased)).Sound := by
  show (s.set eState (setPlatformImageStateResult s.eSavedAgentState eState erased, eState)).Sound
  rw [hr]
  refine ⟨?_, fun hreset => absurd hreset Bool.false_ne_true⟩
  show (s.commitFailed && _) = false
  rw [h.committed]
  exact Bool.false_and _

theorem Sound.refused (h : s.Sound) (hr : setPlatformImageStateResult s.eSavedAgentState eState
    erased ≠ .success) (hne : eState ≠ .accepted) :
    (s.next (.setPlatformImageState eState erased)).Sound := by
  show (s.set eState (_, eState)).Sound
  constructor
  · rw [commitFailed_set_of_ne hr, h.committed]
    simp [hne]
  · cases hcase : setPlatformImageStateResult s.eSavedAgentState eState erased <;>
      first | exact absurd hcase hr | exact h.settled

theorem Sound.next (h : s.Sound) (hok : s.StepOk e) : (s.next e).Sound := by
  cases e with
  | createFileForRx pFileContext opened erased =>
    rw [ImageState.next]
    split
    · exact h
    · refine ⟨?_, h.settled⟩
      show (s.commitFailed && _) = false
      rw [h.committed]
      exact Bool.false_and _
  | closeFile => exact ⟨h.committed, h.settled⟩
  | getPlatformImageState => exact h
  | reset => exact ⟨h.committed, fun _ => hok⟩
  | setPlatformImageState eState erased =>
    cases eState with
    | testing => exact h.set (setResult_success _ _ (.inl rfl))
    | rejected => exact h.set (setResult_success _ _ (.inr (.inl rfl)))
    | aborted => exact h.set (setResult_success _ _ (.inr (.inr rfl)))
    | accepted => exact h.set ((setResult_accepted _ _).mpr hok)
    | unknown => exact h.refused (setResult_unknown _ _) (by decide)
    | other n => exact h.refused (setResult_other _ n _) (by simp)

theorem StepOk.failure {erased : Bool} (hok : s.StepOk (.setPlatformImageState eState erased))
    (hr : setPlatformImageStateResult s.eSavedAgentState eState erased ≠ .success) :
    (s.next (.setPlatformImageState eState erased)).report = s.report := by
  show (s.set eState (_, eState)).report = s.report
  rw [report_set]
  cases eState with
  | testing => exact absurd (setResult_success _ _ (.inl rfl)) hr
  | rejected => exact absurd (setResult_success _ _ (.inr (.inl rfl))) hr
  | aborted => exact absurd (setResult_success _ _ (.inr (.inr rfl))) hr
  | accepted => exact absurd ((setResult_accepted _ _).mpr hok) hr
  | unknown => exact ((report_eq_valid _).mpr hok).symm
  | other n => exact ((report_eq_invalid _).mpr hok).symm

theorem Sound.conforms (h : s.Sound) (hok : s.StepOk e) : s.Conforms e := by
  have hnext := h.next hok
  constructor
  · intro hcommit
    rw [hnext.committed] at hcommit
    cases hcommit
  · intro htesting hreset
    exact absurd htesting (hnext.settled hreset)
  · intro eState erased heq hr
    subst heq
    exact hok.failure hr

end steps

/-- The reported state is right after every step of a run exactly when each step meets the
condition. -/
theorem imageState_run (events : List ImageEvent) :
    Admits Conforms next start events ↔ Admits StepOk next start events := by
  constructor
  · intro h
    exact h.mono fun _ _ hconforms => hconforms.stepOk
  · intro h
    have hstart : start.Sound := ⟨rfl, fun hreset => absurd hreset Bool.false_ne_true⟩
    exact h.mono_of_invariant Sound (fun _ _ hs hok => ⟨hs.conforms hok, hs.next hok⟩) hstart

/-- The self test begins with a reset, after which the image counts as valid. -/
theorem not_imageState_selfTest :
    ¬ Admits Conforms next start [.setPlatformImageState .testing true, .reset] := by
  intro h
  have hpending := h.2.1.testing rfl rfl
  exact absurd hpending (by decide)

end ImageState

end RenesasDemo.Ota
