import RenesasDemo.Framework.Printf
import RenesasDemo.Framework.Mailbox
import RenesasDemo.Mqtt.SubscribeSync

namespace RenesasDemo.Sensors

open Framework Mqtt

def mqttPublishMaxLen : Nat := 200

def mqttPublichTopicStrLen : Nat := 256

/-- `BSP_MOTION_SENSOR_Axes_t`. -/
structure Axes where
  x : Int32
  y : Int32
  z : Int32
  deriving DecidableEq

/-- What the sensors answer in one pass of the loop. -/
structure Readings where
  xAccelero : Axes
  xGyro : Axes
  xMagneto : Axes
  deriving DecidableEq

/-- `{"x": %ld,"y": %ld,"z": %ld}` -/
def axesText (a : Axes) : List UInt8 :=
  ascii "\x7b\"x\": " ++ (integerText a.x.toInt ++ (ascii ",\"y\": " ++ (integerText a.y.toInt ++
    (ascii ",\"z\": " ++ (integerText a.z.toInt ++ ascii "\x7d")))))

def payloadText (r : Readings) : List UInt8 :=
  ascii "\x7b\"acceleration_mG\":" ++ (axesText r.xAccelero ++
    (ascii ",\"gyro_mDPS\":" ++ (axesText r.xGyro ++
      (ascii ",\"magnetometer_mGauss\":" ++ (axesText r.xMagneto ++ ascii "\x7d")))))

/-- `pcTopicString`, zero at first. -/
def topicBuffer : Buffer UInt8 mqttPublichTopicStrLen := 
  ⟨List.replicate mqttPublichTopicStrLen 0, List.length_replicate⟩

def topicSuffix : List UInt8 := ascii "/motion_sensor_data"

/-- The topic that the loop publishes to; `none` where the task gives up. -/
def topicString (pcDeviceId : Option CString) : Option CString :=
  match pcDeviceId with
  | none => none
  | some id =>
      let text := id.bytes ++ topicSuffix
      let lTopicLen := printfResult text.length
      if lTopicLen ≤ 0 ∨ lTopicLen > mqttPublichTopicStrLen then none
      else (snprintf topicBuffer 0 mqttPublichTopicStrLen text).map fun b => .ofBytes b.bytes

/-- The answers of the sensors for the three axes, in the order of the calls. -/
structure BspErrors where
  gyro : Int32
  accelero : Int32
  magneto : Int32

/-- One pass of the loop: what is handed to `prvPublishAndWaitForAck`, the first `lbytesWritten`
bytes of the payload's buffer. -/
def sensorsPass (e : BspErrors) (r : Readings) (xIsMqttAgentConnected : Bool)
    (pcPayloadBuf : Buffer UInt8 mqttPublishMaxLen) : Option (List UInt8) :=
  let lBspError := e.gyro ||| e.accelero ||| e.magneto
  if lBspError = 0 then
    let lbytesWritten := printfResult (payloadText r).length
    if lbytesWritten < mqttPublishMaxLen ∧ xIsMqttAgentConnected = true then
      (snprintf pcPayloadBuf 0 mqttPublishMaxLen (payloadText r)).map fun b =>
        b.bytes.take lbytesWritten.toNat
    else none
  else none

/-- The topic and the payload of one pass of the task. -/
def vMotionSensorsPublish (pcDeviceId : Option CString) (e : BspErrors) (r : Readings)
    (xIsMqttAgentConnected : Bool) (pcPayloadBuf : Buffer UInt8 mqttPublishMaxLen) :
    Option (CString × List UInt8) :=
  match topicString pcDeviceId with
  | none => none
  | some pcTopicString =>
      (sensorsPass e r xIsMqttAgentConnected pcPayloadBuf).map fun payload =>
        (pcTopicString, payload)

/-- What the call returns, from the agent's answer and what the wait gave. -/
def prvPublishAndWaitForAck (xPublish : MQTTStatus) (xWait : Mailbox Nat) : Bool :=
  let xStatus :=
    if xPublish = .mqttSuccess then
      if xWait.pending then MQTTStatus.ofValue xWait.value else xPublish
    else xPublish
  xStatus = .mqttSuccess

section payload

theorem axesText_append_inj {a b : Axes} {s t : List UInt8}
    (h : axesText a ++ s = axesText b ++ t) : a = b ∧ s = t := by
  have hy : EndsNumber (ascii ",\"y\": ") := by decide
  have hz : EndsNumber (ascii ",\"z\": ") := by decide
  have hend : EndsNumber (ascii "\x7d") := by decide
  simp only [axesText, List.append_assoc] at h
  obtain ⟨hx, h⟩ := integerText_append_inj (hy.append (by decide) _)
    (hy.append (by decide) _) (List.append_cancel_left h)
  obtain ⟨hy, h⟩ := integerText_append_inj (hz.append (by decide) _)
    (hz.append (by decide) _) (List.append_cancel_left h)
  obtain ⟨hz, h⟩ := integerText_append_inj (hend.append (by decide) _)
    (hend.append (by decide) _) (List.append_cancel_left h)
  refine ⟨?_, List.append_cancel_left h⟩
  cases a
  cases b
  rw [Axes.mk.injEq]
  exact ⟨Int32.toInt_inj.mp hx, Int32.toInt_inj.mp hy, Int32.toInt_inj.mp hz⟩

theorem payloadText_injective : Function.Injective payloadText := by
  intro r r' h
  obtain ⟨haccelero, h⟩ := axesText_append_inj (List.append_cancel_left h)
  obtain ⟨hgyro, h⟩ := axesText_append_inj (List.append_cancel_left h)
  obtain ⟨hmagneto, -⟩ := axesText_append_inj (List.append_cancel_left h)
  cases r
  cases r'
  rw [Readings.mk.injEq]
  exact ⟨haccelero, hgyro, hmagneto⟩

def Axes.width (a : Axes) : Nat :=
  (integerText a.x.toInt).length + (integerText a.y.toInt).length + (integerText a.z.toInt).length

def Readings.width (r : Readings) : Nat := r.xAccelero.width + r.xGyro.width + r.xMagneto.width

theorem length_axesText (a : Axes) : (axesText a).length = 19 + a.width := by
  have hx : (ascii "\x7b\"x\": ").length = 6 := by decide
  have hy : (ascii ",\"y\": ").length = 6 := by decide
  have hz : (ascii ",\"z\": ").length = 6 := by decide
  have hend : (ascii "\x7d").length = 1 := by decide
  simp only [axesText, List.length_append, hx, hy, hz, hend, Axes.width]
  omega

theorem length_payloadText (r : Readings) : (payloadText r).length = 113 + r.width := by
  have haccelero : (ascii "\x7b\"acceleration_mG\":").length = 19 := by decide
  have hgyro : (ascii ",\"gyro_mDPS\":").length = 13 := by decide
  have hmagneto : (ascii ",\"magnetometer_mGauss\":").length = 23 := by decide
  have hend : (ascii "\x7d").length = 1 := by decide
  simp only [payloadText, List.length_append, length_axesText, haccelero, hgyro, hmagneto, hend,
    Readings.width]
  omega

theorem Axes.width_le (a : Axes) : a.width ≤ 33 := by
  have hx := length_integerText a.x
  have hy := length_integerText a.y
  have hz := length_integerText a.z
  rw [Axes.width]
  omega

theorem length_payloadText_le (r : Readings) : (payloadText r).length ≤ 212 := by
  have haccelero := r.xAccelero.width_le
  have hgyro := r.xGyro.width_le
  have hmagneto := r.xMagneto.width_le
  rw [length_payloadText, Readings.width]
  omega

theorem sensorsPass_eq (e : BspErrors) (r : Readings) (xIsMqttAgentConnected : Bool)
    (pcPayloadBuf : Buffer UInt8 mqttPublishMaxLen) :
    sensorsPass e r xIsMqttAgentConnected pcPayloadBuf =
      if (e.gyro = 0 ∧ e.accelero = 0 ∧ e.magneto = 0) ∧
          (payloadText r).length < mqttPublishMaxLen ∧ xIsMqttAgentConnected = true
      then some (payloadText r) else none := by
  have herror : e.gyro ||| e.accelero ||| e.magneto = 0 ↔
      e.gyro = 0 ∧ e.accelero = 0 ∧ e.magneto = 0 := by
    rw [Int32.or_eq_zero_iff, Int32.or_eq_zero_iff, and_assoc]
  have hlength : (payloadText r).length < 2 ^ 31 := by
    have hle := length_payloadText_le r
    omega
  have hresult : printfResult (payloadText r).length = (payloadText r).length := if_pos hlength
  simp only [sensorsPass, herror, hresult]
  split
  · next hgood =>
    rw [if_congr (and_iff_right hgood) rfl rfl]
    split
    · next hgo =>
      have hfits : (payloadText r).length < mqttPublishMaxLen := by
        have hlt := hgo.1
        omega
      obtain ⟨b', hb', hbytes, -⟩ := snprintf_start pcPayloadBuf mqttPublishMaxLen
        (payloadText r) (by decide) (Nat.le_refl _)
      rw [List.take_of_length_le (Nat.le_sub_one_of_lt hfits)] at hbytes
      rw [if_pos ⟨hfits, hgo.2⟩, hb', Option.map_some, Int.toNat_natCast, hbytes]
    · next hno =>
      rw [if_neg]
      exact fun hgo => hno ⟨Int.ofNat_lt.mpr hgo.1, hgo.2⟩
  · next hbad => exact (if_neg fun h => hbad h.1).symm

end payload

section topic

/-- The length that the check lets through although the topic's last character is cut. -/
def cutIdLength : Nat := 237

theorem length_topicSuffix : topicSuffix.length = 19 := by decide

theorem topicString_eq_some {pcDeviceId : Option CString} {t : CString} :
    topicString pcDeviceId = some t ↔
      ∃ id, pcDeviceId = some id ∧ id.length ≤ cutIdLength ∧
        t.bytes = (id.bytes ++ topicSuffix).take (mqttPublichTopicStrLen - 1) := by
  cases pcDeviceId with
  | none => simp [topicString]
  | some id =>
    have hlen : (id.bytes ++ topicSuffix).length = id.length + 19 := by
      rw [List.length_append, length_topicSuffix, CString.length]
    have hnul : 0 ∉ id.bytes ++ topicSuffix := by
      rw [List.mem_append, not_or]
      exact ⟨id.noNul, by decide⟩
    obtain ⟨b', hb', -, htext⟩ := snprintf_start topicBuffer mqttPublichTopicStrLen
      (id.bytes ++ topicSuffix) (by decide) (Nat.le_refl _)
    have hcheck : (printfResult (id.bytes ++ topicSuffix).length ≤ 0 ∨
        printfResult (id.bytes ++ topicSuffix).length > mqttPublichTopicStrLen) ↔
        cutIdLength < id.length := by
      rw [hlen, printfResult, mqttPublichTopicStrLen, cutIdLength]
      split <;> omega
    simp only [topicString, if_congr hcheck rfl rfl, hb', Option.map_some, Option.some.injEq,
      exists_eq_left']
    split
    · next hlong =>
      simp only [reduceCtorEq, false_iff, not_and]
      exact fun hle => absurd hlong (Nat.not_lt_of_le hle)
    · next hshort =>
      rw [Option.some.injEq, CString.ext_iff, htext hnul, eq_comm]
      exact (and_iff_right (Nat.le_of_not_lt hshort)).symm

end topic

/-- A pass publishes all or nothing of its readings, and they can be told from the payload. Only the
topic of a device whose name has 237 characters is cut. -/
theorem vMotionSensorsPublish_right (pcDeviceId : Option CString) (e : BspErrors) (r : Readings)
    (xIsMqttAgentConnected : Bool) (pcPayloadBuf : Buffer UInt8 mqttPublishMaxLen) :
    (∀ t payload, vMotionSensorsPublish pcDeviceId e r xIsMqttAgentConnected pcPayloadBuf =
        some (t, payload) ↔
      ((e.gyro = 0 ∧ e.accelero = 0 ∧ e.magneto = 0) ∧ r.width < 87 ∧
        xIsMqttAgentConnected = true) ∧
      payload = payloadText r ∧ ∃ id, pcDeviceId = some id ∧ id.length ≤ cutIdLength ∧
        t.bytes = if id.length = cutIdLength then id.bytes ++ topicSuffix.dropLast
          else id.bytes ++ topicSuffix) ∧
    ∀ r', payloadText r' = payloadText r → r' = r := by
  refine ⟨fun t payload => ?_, fun r' h => payloadText_injective h⟩
  have htopic : ∀ id : CString, id.length ≤ cutIdLength →
      (id.bytes ++ topicSuffix).take (mqttPublichTopicStrLen - 1) =
        if id.length = cutIdLength then id.bytes ++ topicSuffix.dropLast
        else id.bytes ++ topicSuffix := by
    intro id hle
    rw [CString.length, cutIdLength] at hle
    split
    · next heq =>
      rw [CString.length, cutIdLength] at heq
      rw [List.take_append, List.take_of_length_le (by rw [mqttPublichTopicStrLen]; omega), heq]
      rfl
    · next hne =>
      rw [CString.length, cutIdLength] at hne
      apply List.take_of_length_le
      rw [List.length_append, length_topicSuffix, mqttPublichTopicStrLen]
      omega
  have hwidth : (payloadText r).length < mqttPublishMaxLen ↔ r.width < 87 := by
    rw [length_payloadText, mqttPublishMaxLen]
    omega
  have hid : (∃ id, pcDeviceId = some id ∧ id.length ≤ cutIdLength ∧
      t.bytes = if id.length = cutIdLength then id.bytes ++ topicSuffix.dropLast
        else id.bytes ++ topicSuffix) ↔ topicString pcDeviceId = some t := by
    rw [topicString_eq_some]
    refine exists_congr fun id => and_congr_right fun _ => and_congr_right fun hle => ?_
    rw [htopic id hle]
  rw [hid, ← hwidth, vMotionSensorsPublish, sensorsPass_eq]
  cases topicString pcDeviceId with
  | none => simp
  | some t' =>
    simp only [Option.map_eq_some_iff, Option.ite_none_right_eq_some, Option.some.injEq,
      Prod.mk.injEq]
    constructor
    · rintro ⟨p, ⟨hgo, rfl⟩, rfl, rfl⟩
      exact ⟨hgo, rfl, rfl⟩
    · rintro ⟨hgo, rfl, rfl⟩
      exact ⟨_, ⟨hgo, rfl⟩, rfl, rfl⟩

/-- The value that `prvPublishCommandCallback` notifies the task of. -/
def prvPublishCommandCallback (returnCode : MQTTStatus) : Nat := returnCode.value

/-- The state is cleared before the publish, and all bits of the value on entry to the wait. -/
def sensorsWait : WaitPolicy := ⟨true, true⟩

/-- The sensors' task and the agent; `returnCode n` is what publish `n` is completed with. -/
def SensorsStep (returnCode : Nat → MQTTStatus) : Caller Nat → CallEvent → Caller Nat → Prop :=
  Caller.Step sensorsWait 0 fun n => prvPublishCommandCallback (returnCode n)

def SensorsInTime (returnCode : Nat → MQTTStatus) :
    Caller Nat → CallEvent → Caller Nat → Prop :=
  Caller.InTime sensorsWait 0 fun n => prvPublishCommandCallback (returnCode n)

section wait

variable {returnCode : Nat → MQTTStatus} {es : List CallEvent} {s : Caller Nat}

/-- A wait that times out counts as success; any other returns the answer to this publish or an
earlier one, and only to this one just when no earlier one is to be completed. -/
theorem prvPublishAndWaitForAck_run (h : Run (SensorsStep returnCode) (.init 0) es s) :
    (∀ n, s.pc = .waiting n →
      (s.box.pending = false → prvPublishAndWaitForAck .mqttSuccess s.box = true) ∧
      (s.box.pending = true → s.source ≤ n ∧ prvPublishAndWaitForAck .mqttSuccess s.box =
        decide (returnCode s.source = .mqttSuccess))) ∧
    (s.pc = .idle →
      ((∀ es' t, Run (SensorsInTime returnCode) s es' t → t.TakesOwn) ↔
        s.outstanding = [] ∧ s.delivering = none)) := by
  have hknown := Caller.known_init.run h
  refine ⟨fun n hn => ⟨fun hno => ?_, fun hpending => ?_⟩, fun hidle => ?_⟩
  · simp [prvPublishAndWaitForAck, hno]
  · obtain ⟨hlt, hvalue⟩ := hknown.pending hpending
    have hmade := hknown.calling n (.inr (.inr hn))
    refine ⟨by omega, ?_⟩
    rw [prvPublishAndWaitForAck, if_pos rfl, if_pos hpending, hvalue, prvPublishCommandCallback,
      MQTTStatus.ofValue_value]
  · rw [SensorsInTime, Caller.takesOwn_iff hknown hidle]
    exact and_iff_left (.inl rfl)

/-- The answer to a publish that timed out can be taken for the next. -/
theorem prvPublishAndWaitForAck_late :
    ¬∀ es t, Run (SensorsInTime fun _ => .mqttSuccess)
      ⟨⟨0, false⟩, 0, true, [0], none, .idle, 1⟩ es t → t.TakesOwn := by
  have hrun : Run (SensorsStep fun _ => .mqttSuccess) (.init 0)
      [.start, .accept, .enter, .timeOut] ⟨⟨0, false⟩, 0, true, [0], none, .idle, 1⟩ := by
    refine Caller.run_ofAdmits ?_
    simp [Admits, Caller.Enabled, Caller.next, Caller.init, sensorsWait]
  have h := (prvPublishAndWaitForAck_run hrun).2 rfl
  rw [h]
  decide

end wait

end RenesasDemo.Sensors
