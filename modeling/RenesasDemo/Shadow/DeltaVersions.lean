import RenesasDemo.Framework.CString
import RenesasDemo.Framework.Newest
import RenesasDemo.Shadow.ShadowDevice

namespace RenesasDemo.Shadow

open Framework

/-- The JSON library. A value that is found is the payload from its first character on. -/
structure JsonLibrary where
  jsonValidate : (payload : List UInt8) → Bool
  jsonSearch : (payload query : List UInt8) → Option (List UInt8)

inductive GpioPinState where
  | gpioPinReset
  | gpioPinSet
  deriving DecidableEq

/-- What the callback keeps: its static variable, its part of `ShadowDeviceCtx_t`, the red LED. -/
structure DeltaState where
  ulCurrentVersion : UInt32
  ulCurrentPowerOnState : UInt32
  ledRedPin : GpioPinState
  deriving DecidableEq

/-- The LED is on where the pin is low. -/
def ledPin (ulNewState : UInt32) : GpioPinState :=
  if ulNewState = 1 then .gpioPinReset else .gpioPinSet

def prvIncomingPublishUpdateDeltaCallback (json : JsonLibrary) (s : DeltaState)
    (pPayload : List UInt8) : DeltaState :=
  if json.jsonValidate pPayload = false then s
  else match json.jsonSearch pPayload (ascii "version") with
    | none => s
    | some pcOutValue =>
        let ulVersion := strtoul pcOutValue
        if ulVersion ≤ s.ulCurrentVersion then s
        else
          let s := { s with ulCurrentVersion := ulVersion }
          match json.jsonSearch pPayload (ascii "state.powerOn") with
          | none => s
          | some pcOutValue =>
              let ulNewState := strtoul pcOutValue
              { s with ulCurrentPowerOnState := ulNewState, ledRedPin := ledPin ulNewState }

def DeltaState.start (ulCurrentPowerOnState : UInt32) (ledRedPin : GpioPinState) : DeltaState :=
  ⟨0, ulCurrentPowerOnState, ledRedPin⟩

/-- The version of a valid message that has one. -/
def deltaVersion (json : JsonLibrary) (pPayload : List UInt8) : Option Nat :=
  if json.jsonValidate pPayload then
    (json.jsonSearch pPayload (ascii "version")).map fun s => (strtoul s).toNat
  else none

/-- The state that a message asks for. -/
def deltaPowerOn (json : JsonLibrary) (pPayload : List UInt8) : Option UInt32 :=
  (json.jsonSearch pPayload (ascii "state.powerOn")).map strtoul

section deltas

variable (json : JsonLibrary) (s : DeltaState) (pPayload : List UInt8)
  (payloads : List (List UInt8))

/-- The callback discards what is not above the version it remembers. -/
theorem callback_applyNewer :
    ((prvIncomingPublishUpdateDeltaCallback json s pPayload).ulCurrentVersion.toNat,
      (prvIncomingPublishUpdateDeltaCallback json s pPayload).ulCurrentPowerOnState) =
      applyNewer (deltaVersion json) (deltaPowerOn json)
        (s.ulCurrentVersion.toNat, s.ulCurrentPowerOnState) pPayload := by
  unfold prvIncomingPublishUpdateDeltaCallback applyNewer deltaVersion deltaPowerOn
  cases json.jsonValidate pPayload with
  | false => rfl
  | true =>
    cases json.jsonSearch pPayload (ascii "version") with
    | none => rfl
    | some pcOutValue =>
      simp only [Bool.true_eq_false, if_false, if_true, Option.map_some, ← UInt32.le_iff_toNat_le]
      split
      · rfl
      · cases json.jsonSearch pPayload (ascii "state.powerOn") <;> rfl

theorem run_applyNewer :
    ((payloads.foldl (prvIncomingPublishUpdateDeltaCallback json) s).ulCurrentVersion.toNat,
      (payloads.foldl (prvIncomingPublishUpdateDeltaCallback json) s).ulCurrentPowerOnState) =
      payloads.foldl (applyNewer (deltaVersion json) (deltaPowerOn json))
        (s.ulCurrentVersion.toNat, s.ulCurrentPowerOnState) := by
  induction payloads generalizing s with
  | nil => rfl
  | cons pPayload payloads ih =>
    rw [List.foldl_cons, ih, callback_applyNewer]
    rfl

/-- A message whose version is not above the remembered one changes nothing, the LED neither. -/
theorem callback_of_not_lt
    (h : ∀ v ∈ deltaVersion json pPayload, v ≤ s.ulCurrentVersion.toNat) :
    prvIncomingPublishUpdateDeltaCallback json s pPayload = s := by
  unfold prvIncomingPublishUpdateDeltaCallback
  unfold deltaVersion at h
  cases hvalid : json.jsonValidate pPayload with
  | false => rfl
  | true =>
    rw [hvalid] at h
    cases hsearch : json.jsonSearch pPayload (ascii "version") with
    | none => rfl
    | some pcOutValue =>
      rw [hsearch] at h
      have hle : strtoul pcOutValue ≤ s.ulCurrentVersion := UInt32.le_iff_toNat_le.mpr (h _ rfl)
      simp only [Bool.true_eq_false, if_false]
      rw [if_pos hle]

/-- The LED shows the state, once it did. -/
theorem ledRedPin_callback (h : s.ledRedPin = ledPin s.ulCurrentPowerOnState) :
    (prvIncomingPublishUpdateDeltaCallback json s pPayload).ledRedPin =
      ledPin (prvIncomingPublishUpdateDeltaCallback json s pPayload).ulCurrentPowerOnState := by
  fun_cases prvIncomingPublishUpdateDeltaCallback json s pPayload <;> first | exact h | rfl

theorem ledRedPin_run (h : s.ledRedPin = ledPin s.ulCurrentPowerOnState) :
    (payloads.foldl (prvIncomingPublishUpdateDeltaCallback json) s).ledRedPin =
      ledPin
        (payloads.foldl (prvIncomingPublishUpdateDeltaCallback json) s).ulCurrentPowerOnState := by
  induction payloads generalizing s with
  | nil => exact h
  | cons pPayload payloads ih => exact ih _ (ledRedPin_callback json s pPayload h)

/-- What a message does to the task's context. -/
def deltaEvents : List ShadowEvent :=
  if (deltaVersion json pPayload).any (s.ulCurrentVersion.toNat < ·) then
    ((deltaPowerOn json pPayload).map ShadowEvent.delta).toList
  else []

/-- The callback is a step of the device that takes a new state, or none. -/
theorem deltaEvents_next (d : ShadowDevice)
    (h : d.ulCurrentPowerOnState = s.ulCurrentPowerOnState) :
    (deltaEvents json s pPayload).foldl ShadowDevice.next d =
      { d with ulCurrentPowerOnState :=
          (prvIncomingPublishUpdateDeltaCallback json s pPayload).ulCurrentPowerOnState } := by
  have hstep := congrArg Prod.snd (callback_applyNewer json s pPayload)
  have hnext : (prvIncomingPublishUpdateDeltaCallback json s pPayload).ulCurrentPowerOnState =
      (applyNewer (deltaVersion json) (deltaPowerOn json)
        (s.ulCurrentVersion.toNat, s.ulCurrentPowerOnState) pPayload).2 := hstep
  rw [hnext, deltaEvents, applyNewer]
  cases deltaVersion json pPayload with
  | none =>
    rw [← h]
    rfl
  | some v =>
    by_cases hle : v ≤ s.ulCurrentVersion.toNat
    · simp [hle, not_lt.mpr hle, ← h]
    · have hlt : s.ulCurrentVersion.toNat < v := not_le.mp hle
      cases deltaPowerOn json pPayload <;> simp [hle, hlt, ← h, ShadowDevice.next]

/-- After every message, the version is the largest of all and the state is the last one that came
with a version above 0 and above all before it; a message without such a version changes nothing. -/
theorem deltas_in_version_order (ulCurrentPowerOnState : UInt32) (ledRedPin : GpioPinState) :
    let s := payloads.foldl (prvIncomingPublishUpdateDeltaCallback json)
      (.start ulCurrentPowerOnState ledRedPin)
    s.ulCurrentVersion.toNat = newest (deltaVersion json) 0 payloads ∧
      s.ulCurrentPowerOnState =
        (picked (deltaPowerOn json) (Newer (deltaVersion json) 0) payloads).getLast?.getD
          ulCurrentPowerOnState ∧
      ∀ pPayload, ¬ Newer (deltaVersion json) 0 payloads pPayload →
        prvIncomingPublishUpdateDeltaCallback json s pPayload = s := by
  intro s
  have hrun : (s.ulCurrentVersion.toNat, s.ulCurrentPowerOnState) =
      (newest (deltaVersion json) 0 payloads,
        (picked (deltaPowerOn json) (Newer (deltaVersion json) 0) payloads).getLast?.getD
          ulCurrentPowerOnState) := by
    rw [run_applyNewer]
    exact foldl_applyNewer payloads ulCurrentPowerOnState
  have hversion : s.ulCurrentVersion.toNat = newest (deltaVersion json) 0 payloads :=
    congrArg Prod.fst hrun
  refine ⟨hversion, congrArg Prod.snd hrun, ?_⟩
  intro pPayload hnewer
  apply callback_of_not_lt
  intro v hv
  rw [hversion]
  exact not_lt.mp fun hlt => hnewer (newer_iff.mpr ⟨v, hv, hlt⟩)

end deltas

/-- A delta with version 0. -/
def versionZero : List UInt8 :=
  ascii "\x7b\"version\":0,\"state\":\x7b\"powerOn\":1\x7d\x7d"

/-- What the JSON library finds in it. -/
def versionZeroJson : JsonLibrary where
  jsonValidate pPayload := pPayload = versionZero
  jsonSearch pPayload query :=
    if query = ascii "version" then some (pPayload.drop 11)
    else if query = ascii "state.powerOn" then some (pPayload.drop 32)
    else none

/-- The first message exceeds every earlier one, as there is none, and it is discarded with version
0. -/
theorem version_zero_discarded :
    ¬ ∀ (json : JsonLibrary) (payloads : List (List UInt8)) (ulCurrentPowerOnState : UInt32)
      (ledRedPin : GpioPinState),
      (payloads.foldl (prvIncomingPublishUpdateDeltaCallback json)
        (.start ulCurrentPowerOnState ledRedPin)).ulCurrentPowerOnState =
        (picked (deltaPowerOn json) (Exceeds (deltaVersion json)) payloads).getLast?.getD
          ulCurrentPowerOnState := by
  intro h
  have hzero := h versionZeroJson [versionZero] 0 .gpioPinSet
  revert hzero
  decide +kernel

end RenesasDemo.Shadow
