import RenesasDemo.Framework.Printf
import RenesasDemo.Framework.Runs

namespace RenesasDemo.Shadow

open Framework

def shadowexampleInvalidPoweronState : UInt32 := 2

/-- `"%06lu"` for a client token, which is less than 10^6. -/
def tokenText (ulClientToken : UInt32) : List UInt8 := decimalDigits 6 ulClientToken.toNat

/-- A publish on one of the two topics, with what the JSON library finds in it. -/
structure ShadowMessage where
  /-- It is on `/update/accepted`. -/
  accepted : Bool
  /-- `JSON_Validate` succeeds. -/
  valid : Bool
  clientToken : Option (List UInt8)
  powerOn : Option (List UInt8)
  deriving DecidableEq

/-- A report that was made, and its place among the reports. -/
structure Report where
  seq : Nat
  ulClientToken : UInt32
  deriving DecidableEq

/-- A message and the report that was outstanding when it arrived. -/
structure Arrival where
  message : ShadowMessage
  outstanding : Option Report
  deriving DecidableEq

/-- The message arrived while a report was outstanding, and it carries the token of that report. -/
def Arrival.Answers (m : Arrival) : Prop :=
  ∃ report ∈ m.outstanding, m.message.clientToken = some (tokenText report.ulClientToken)

instance (m : Arrival) : Decidable m.Answers :=
  inferInstanceAs (Decidable (∃ report ∈ m.outstanding, _))

/-- Where the callback of a message is; the MQTT agent runs one at a time. -/
inductive CallbackPc where
  | idle
  /-- Before the tokens are compared. -/
  | received (m : Arrival) (ulReceivedToken : UInt32)
  /-- An accepted message, before its state is saved. -/
  | matched (m : Arrival)
  /-- Before `xTaskNotifyGive`. -/
  | notifying (m : Arrival)
  deriving DecidableEq

def CallbackPc.isReceived : CallbackPc → Bool
  | .received _ _ => true
  | _ => false

def CallbackPc.isMatched : CallbackPc → Bool
  | .matched _ => true
  | _ => false

def CallbackPc.isNotifying : CallbackPc → Bool
  | .notifying _ => true
  | _ => false

/-- The message's token does not have this value, or the message answers a report. -/
def CallbackPc.ComparesAnswer (value : UInt32) : CallbackPc → Prop
  | .received m _ => m.message.clientToken.map strtoul = some value → m.Answers
  | _ => True

instance (value : UInt32) (pc : CallbackPc) : Decidable (pc.ComparesAnswer value) := by
  cases pc <;> unfold CallbackPc.ComparesAnswer <;> infer_instance

/-- Where `vShadowDeviceTask` is in its loop. -/
inductive ShadowTaskPc where
  | checking
  /-- The token is chosen and the report not published. -/
  | reporting
  /-- In `ulTaskNotifyTake`. -/
  | waiting
  | timedOut
  /-- Before the token is cleared. -/
  | clearing
  | sleeping
  deriving DecidableEq

/-- `ShadowDeviceCtx_t`, the task with its notifications, and the callback at work. -/
structure ShadowDevice where
  ulCurrentPowerOnState : UInt32
  ulReportedPowerOnState : UInt32
  ulClientToken : UInt32
  /-- The notifications that were given and not taken, each with its message. -/
  notifications : List Arrival
  task : ShadowTaskPc
  callback : CallbackPc
  /-- The last report that was made, with the number of its tick. -/
  report : Report
  /-- A callback has notified the task since that report was made. -/
  answered : Bool
  deriving DecidableEq

inductive ShadowEvent where
  /-- `prvIncomingPublishUpdateDeltaCallback` with a new state. -/
  | delta (ulNewState : UInt32)
  | receive (message : ShadowMessage)
  | compareTokens
  | setReported
  | notifyGive
  /-- The loop begins, at this tick. -/
  | check (xTickCount : UInt32)
  | publish (added : Bool)
  | notifyTake
  | timeOut
  | invalidate
  | clearToken
  | delay

namespace ShadowDevice

def start : ShadowDevice := ⟨0, 0, 0, [], .checking, .idle, ⟨0, 0⟩, false⟩

/-- The report that was published and is waited for. -/
def outstanding (s : ShadowDevice) : Option Report :=
  if s.task = .waiting then some s.report else none

/-- What `JSON_Search` finds for `clientToken` in a valid document. -/
def foundToken (message : ShadowMessage) : Option (List UInt8) :=
  if message.valid then message.clientToken else none

def Enabled (s : ShadowDevice) : ShadowEvent → Prop
  | .delta _ => s.callback = .idle
  | .receive _ => s.callback = .idle
  | .compareTokens => s.callback.isReceived = true
  | .setReported => s.callback.isMatched = true
  | .notifyGive => s.callback.isNotifying = true
  | .check _ => s.task = .checking
  | .publish _ => s.task = .reporting
  | .notifyTake => s.task = .waiting ∧ s.notifications ≠ []
  | .timeOut => s.task = .waiting ∧ s.notifications = []
  | .invalidate => s.task = .timedOut
  | .clearToken => s.task = .clearing
  | .delay => s.task = .sleeping

def next (s : ShadowDevice) : ShadowEvent → ShadowDevice
  | .delta ulNewState => { s with ulCurrentPowerOnState := ulNewState }
  | .receive message =>
      match foundToken message with
      | none => s
      | some pcOutValue =>
          { s with callback := .received ⟨message, s.outstanding⟩ (strtoul pcOutValue) }
  | .compareTokens =>
      match s.callback with
      | .received m ulReceivedToken =>
          if ulReceivedToken ≠ s.ulClientToken then { s with callback := .idle }
          else { s with callback := if m.message.accepted then .matched m else .notifying m }
      | _ => s
  | .setReported =>
      match s.callback with
      | .matched m =>
          match m.message.powerOn with
          | none => { s with callback := .notifying m }
          | some pcOutValue =>
              { s with ulReportedPowerOnState := strtoul pcOutValue, callback := .notifying m }
      | _ => s
  | .notifyGive =>
      match s.callback with
      | .notifying m =>
          { s with notifications := s.notifications ++ [m], callback := .idle, answered := true }
      | _ => s
  | .check xTickCount =>
      if s.ulCurrentPowerOnState = s.ulReportedPowerOnState then { s with task := .sleeping }
      else
        { s with
          ulClientToken := xTickCount % 1000000
          report := ⟨s.report.seq + 1, xTickCount % 1000000⟩
          answered := false
          task := .reporting }
  | .publish added => { s with task := if added then .waiting else .clearing }
  | .notifyTake => { s with notifications := s.notifications.tail, task := .clearing }
  | .timeOut => { s with task := .timedOut }
  | .invalidate =>
      { s with ulReportedPowerOnState := shadowexampleInvalidPoweronState, task := .clearing }
  | .clearToken => { s with ulClientToken := 0, task := .sleeping }
  | .delay => { s with task := .checking }

/-- The reported state is set, and the wait ended, by a message that is entitled to. -/
def Attributed (s : ShadowDevice) : ShadowEvent → Prop
  | .setReported => ∀ m, s.callback = .matched m → m.message.powerOn ≠ none → m.Answers
  | .notifyTake => ∀ m ∈ s.notifications.head?, m.outstanding = some s.report ∧ m.Answers
  | _ => True

/-- The number of the report that the task is about, from the choice of its token to the end of the
wait; 0 between two reports. -/
def reportNumber (s : ShadowDevice) : UInt32 :=
  match s.task with
  | .checking => 0
  | .sleeping => 0
  | _ => s.report.ulClientToken

/-- The message arrived while the report was waited for that still is, and no callback has notified
since that report was made. -/
def GivesInTime (s : ShadowDevice) : CallbackPc → Prop
  | .notifying m => s.task = .waiting ∧ s.answered = false ∧ m.outstanding = some s.report
  | _ => True

instance (s : ShadowDevice) (pc : CallbackPc) : Decidable (s.GivesInTime pc) := by
  cases pc <;> unfold GivesInTime <;> infer_instance

/-- A token with the value of the report's number, or with the value 0 between two reports, is
compared only on account of an answer; and a callback notifies in time. -/
def StepOk (s : ShadowDevice) : ShadowEvent → Prop
  | .compareTokens => s.callback.ComparesAnswer s.reportNumber
  | .notifyGive => s.GivesInTime s.callback
  | _ => True

instance (s : ShadowDevice) (e : ShadowEvent) : Decidable (s.Enabled e) := by
  cases e <;> unfold Enabled <;> infer_instance

instance (s : ShadowDevice) (e : ShadowEvent) : Decidable (s.StepOk e) := by
  cases e <;> unfold StepOk <;> infer_instance

/-- The token is the number of the report that the task is about, and the value that a callback
compares is that of its message's token. -/
structure TokenCurrent (s : ShadowDevice) : Prop where
  current : s.ulClientToken = s.reportNumber
  received : ∀ m ulReceivedToken, s.callback = .received m ulReceivedToken →
    m.message.clientToken.map strtoul = some ulReceivedToken

section token

variable {s : ShadowDevice} {e : ShadowEvent}

/-- Callbacks leave the task, its token and its report alone. -/
theorem TokenCurrent.of_callback (h : s.TokenCurrent) {t : ShadowDevice} (htask : t.task = s.task)
    (htoken : t.ulClientToken = s.ulClientToken) (hreport : t.report = s.report)
    (hcallback : t.callback.isReceived = true → t.callback = s.callback) : t.TokenCurrent := by
  constructor
  · rw [htoken, h.current, reportNumber, reportNumber, htask, hreport]
  · intro m ulReceivedToken hreceived
    have hsame := hcallback (by rw [hreceived]; rfl)
    exact h.received m ulReceivedToken (hsame ▸ hreceived)

theorem clientToken_of_foundToken {message : ShadowMessage} {pcOutValue : List UInt8}
    (h : foundToken message = some pcOutValue) : message.clientToken = some pcOutValue := by
  rw [foundToken] at h
  split at h
  · exact h
  · cases h

theorem TokenCurrent.receive (h : s.TokenCurrent) (message : ShadowMessage) :
    (s.next (.receive message)).TokenCurrent := by
  rw [next]
  split
  · exact h
  · next pcOutValue hfound =>
    refine ⟨h.current, ?_⟩
    intro m ulReceivedToken hreceived
    cases hreceived
    show message.clientToken.map strtoul = some (strtoul pcOutValue)
    rw [clientToken_of_foundToken hfound]
    rfl

/-- The task chooses the token, and clears it, together with its place. -/
theorem TokenCurrent.of_task (h : s.TokenCurrent) {t : ShadowDevice}
    (hcallback : t.callback = s.callback) (hcurrent : t.ulClientToken = t.reportNumber) :
    t.TokenCurrent :=
  ⟨hcurrent, fun m ulReceivedToken hreceived =>
    h.received m ulReceivedToken (hcallback ▸ hreceived)⟩

theorem TokenCurrent.next (h : s.TokenCurrent) (henabled : s.Enabled e) :
    (s.next e).TokenCurrent := by
  cases e with
  | delta => exact h.of_callback rfl rfl rfl fun _ => rfl
  | receive message => exact h.receive message
  | compareTokens =>
    rw [ShadowDevice.next]
    split
    · next m ulReceivedToken hcallback =>
      split
      · exact h.of_callback rfl rfl rfl (by simp [CallbackPc.isReceived])
      · refine h.of_callback rfl rfl rfl ?_
        cases m.message.accepted <;> simp [CallbackPc.isReceived]
    · exact h
  | setReported =>
    rw [ShadowDevice.next]
    split
    · split <;> exact h.of_callback rfl rfl rfl (by simp [CallbackPc.isReceived])
    · exact h
  | notifyGive =>
    rw [ShadowDevice.next]
    split
    · exact h.of_callback rfl rfl rfl (by simp [CallbackPc.isReceived])
    · exact h
  | check xTickCount =>
    have htask : s.task = .checking := henabled
    have hcurrent : s.ulClientToken = 0 := by rw [h.current, reportNumber, htask]
    rw [ShadowDevice.next]
    split
    · exact h.of_task rfl hcurrent
    · exact h.of_task rfl rfl
  | publish added =>
    have htask : s.task = .reporting := henabled
    have hcurrent : s.ulClientToken = s.report.ulClientToken := by
      rw [h.current, reportNumber, htask]
    refine h.of_task rfl ?_
    cases added <;> exact hcurrent
  | notifyTake =>
    have hcurrent : s.ulClientToken = s.report.ulClientToken := by
      rw [h.current, reportNumber, henabled.1]
    exact h.of_task rfl hcurrent
  | timeOut =>
    have hcurrent : s.ulClientToken = s.report.ulClientToken := by
      rw [h.current, reportNumber, henabled.1]
    exact h.of_task rfl hcurrent
  | invalidate =>
    have htask : s.task = .timedOut := henabled
    have hcurrent : s.ulClientToken = s.report.ulClientToken := by
      rw [h.current, reportNumber, htask]
    exact h.of_task rfl hcurrent
  | clearToken => exact h.of_task rfl rfl
  | delay =>
    have htask : s.task = .sleeping := henabled
    have hcurrent : s.ulClientToken = 0 := by rw [h.current, reportNumber, htask]
    exact h.of_task rfl hcurrent

/-- What a callback finds equal to `ulClientToken` is an answer. -/
theorem TokenCurrent.answer_found (h : s.TokenCurrent) (hok : s.StepOk .compareTokens) {m : Arrival}
    (hcallback : s.callback = .received m s.ulClientToken) : m.Answers := by
  have hok : s.callback.ComparesAnswer s.reportNumber := hok
  rw [hcallback] at hok
  apply hok
  rw [h.received m _ hcallback, h.current]

end token

/-- What the condition keeps up. -/
structure Matched (s : ShadowDevice) : Prop where
  callback : ∀ m, s.callback = .matched m ∨ s.callback = .notifying m → m.Answers
  pending : ∀ m ∈ s.notifications, m.outstanding = some s.report ∧ m.Answers
  waiting : s.notifications ≠ [] → s.task = .waiting
  given : s.notifications ≠ [] → s.answered = true
  single : s.notifications.length ≤ 1

section steps

variable {s : ShadowDevice} {e : ShadowEvent}

theorem Matched.of_none (h : s.Matched) {t : ShadowDevice} (hcallback : t.callback = s.callback)
    (hnotifications : t.notifications = []) : t.Matched := by
  have hnone : t.notifications ≠ [] → False := fun hne => hne hnotifications
  refine ⟨?_, ?_, fun hne => absurd hne hnone, fun hne => absurd hne hnone, ?_⟩
  · rw [hcallback]
    exact h.callback
  · intro m hm
    rw [hnotifications] at hm
    cases hm
  · rw [hnotifications]
    exact Nat.zero_le 1

theorem Matched.of_callback (h : s.Matched) {pc : CallbackPc} {current reported : UInt32}
    (hpc : ∀ m, pc = .matched m ∨ pc = .notifying m → m.Answers) :
    Matched { s with
      ulCurrentPowerOnState := current, ulReportedPowerOnState := reported, callback := pc } :=
  ⟨hpc, h.pending, h.waiting, h.given, h.single⟩

theorem Matched.not_waiting (h : s.Matched) (htask : s.task ≠ .waiting) : s.notifications = [] := by
  by_contra hne
  exact htask (h.waiting hne)

theorem Matched.compareTokens (h : s.Matched) (htoken : s.TokenCurrent)
    (hok : s.StepOk .compareTokens) : (s.next .compareTokens).Matched := by
  rw [next]
  split
  · next m t hcallback =>
    split
    · apply h.of_callback
      intro m' hm'
      obtain hm' | hm' := hm' <;> cases hm'
    · next hne =>
      have heq : t = s.ulClientToken := not_not.mp hne
      have hanswers : m.Answers := htoken.answer_found hok (heq ▸ hcallback)
      apply h.of_callback
      intro m' hm'
      split at hm' <;> obtain hm' | hm' := hm' <;> cases hm' <;> exact hanswers
  · exact h

theorem Matched.setReported (h : s.Matched) : (s.next .setReported).Matched := by
  rw [next]
  split
  · next m hcallback =>
    have hanswers : m.Answers := h.callback m (.inl hcallback)
    have hpc : ∀ m', CallbackPc.notifying m = .matched m' ∨
        CallbackPc.notifying m = .notifying m' → m'.Answers := by
      intro m' hm'
      obtain hm' | hm' := hm'
      · cases hm'
      · cases hm'
        exact hanswers
    split
    · exact h.of_callback hpc
    · exact h.of_callback hpc
  · exact h

theorem Matched.notifyGive (h : s.Matched) (hok : s.StepOk .notifyGive) :
    (s.next .notifyGive).Matched := by
  rw [next]
  split
  · next m hcallback =>
    have hok : s.GivesInTime s.callback := hok
    rw [hcallback] at hok
    obtain ⟨htask, hunanswered, houtstanding⟩ := hok
    have hanswers : m.Answers := h.callback m (.inr hcallback)
    have hnone : s.notifications = [] := by
      by_contra hne
      exact absurd (h.given hne) (by simp [hunanswered])
    rw [hnone, List.nil_append]
    refine ⟨?_, ?_, fun _ => htask, fun _ => rfl, Nat.le_refl 1⟩
    · intro m' hm'
      obtain hm' | hm' := hm' <;> cases hm'
    · intro m' hm'
      rw [List.mem_singleton.mp hm']
      exact ⟨houtstanding, hanswers⟩
  · exact h

theorem Matched.receive (h : s.Matched) (message : ShadowMessage) :
    (s.next (.receive message)).Matched := by
  rw [next]
  split
  · exact h
  · apply h.of_callback
    intro m hm
    obtain hm | hm := hm <;> cases hm

theorem Matched.check (h : s.Matched) (htask : s.task = .checking) (xTickCount : UInt32) :
    (s.next (.check xTickCount)).Matched := by
  have hnone : s.notifications = [] := h.not_waiting (by simp [htask])
  rw [next]
  split
  · exact h.of_none rfl hnone
  · exact h.of_none rfl hnone

theorem Matched.next (h : s.Matched) (htoken : s.TokenCurrent) (henabled : s.Enabled e)
    (hok : s.StepOk e) : (s.next e).Matched := by
  cases e with
  | delta ulNewState => exact h.of_callback h.callback
  | receive message => exact h.receive message
  | compareTokens => exact h.compareTokens htoken hok
  | setReported => exact h.setReported
  | notifyGive => exact h.notifyGive hok
  | check xTickCount => exact h.check henabled xTickCount
  | publish added =>
    have htask : s.task = .reporting := henabled
    exact h.of_none rfl (h.not_waiting (by simp [htask]))
  | notifyTake =>
    have htail : s.notifications.tail = [] := by
      apply List.eq_nil_of_length_eq_zero
      rw [List.length_tail]
      exact Nat.sub_eq_zero_of_le h.single
    exact h.of_none rfl htail
  | timeOut => exact h.of_none rfl henabled.2
  | invalidate =>
    have htask : s.task = .timedOut := henabled
    exact h.of_none rfl (h.not_waiting (by simp [htask]))
  | clearToken =>
    have htask : s.task = .clearing := henabled
    exact h.of_none rfl (h.not_waiting (by simp [htask]))
  | delay =>
    have htask : s.task = .sleeping := henabled
    exact h.of_none rfl (h.not_waiting (by simp [htask]))

theorem Matched.attributed (h : s.Matched) (e : ShadowEvent) : s.Attributed e := by
  cases e with
  | setReported => exact fun m hm _ => h.callback m (.inl hm)
  | notifyTake => exact fun m hm => h.pending m (List.mem_of_mem_head? hm)
  | _ => trivial

end steps

/-- In a run whose steps meet the condition, the reported state is set and the wait ended only on
account of an answer to the report. -/
theorem shadowMatching_run {events : List ShadowEvent}
    (h : Admits (fun s e => s.Enabled e ∧ s.StepOk e) next start events) :
    Admits Attributed next start events := by
  have htoken : start.TokenCurrent := ⟨rfl, fun _ _ hreceived => by cases hreceived⟩
  have hstart : start.Matched := by
    refine ⟨?_, ?_, fun hne => absurd rfl hne, fun hne => absurd rfl hne, Nat.zero_le 1⟩
    · intro m hm
      obtain hm | hm := hm <;> cases hm
    · intro m hm
      cases hm
  refine h.mono_of_invariant (fun s => s.TokenCurrent ∧ s.Matched) ?_ ⟨htoken, hstart⟩
  intro s e hs he
  exact ⟨hs.2.attributed e, hs.1.next he.1, hs.2.next hs.1 he.1 he.2⟩

/-- A report at tick 7, and its answer. -/
def answeredReport : List ShadowEvent :=
  [.delta 1, .check 7, .publish true,
    .receive ⟨true, true, some (tokenText 7), some [0x31]⟩, .compareTokens, .setReported,
    .notifyGive, .notifyTake, .clearToken]

theorem shadowMatching_run_answered : Admits Attributed next start answeredReport :=
  shadowMatching_run (by decide +kernel)

/-- While nothing is waited for, a token that is no number is found equal. -/
def strayMessage : List ShadowEvent :=
  [.receive ⟨true, true, some [0x61], some [0x31]⟩, .compareTokens, .setReported]

theorem not_shadowMatching_stray :
    Admits Enabled next start strayMessage ∧ ¬ Admits Attributed next start strayMessage := by
  refine ⟨by decide +kernel, ?_⟩
  intro h
  have hanswers := h.2.2.1 ⟨⟨true, true, some [0x61], some [0x31]⟩, none⟩ (by decide +kernel)
    (by decide)
  exact absurd hanswers (by decide)

end ShadowDevice

end RenesasDemo.Shadow
