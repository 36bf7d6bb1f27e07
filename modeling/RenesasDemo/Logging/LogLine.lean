import RenesasDemo.Framework.Printf

namespace RenesasDemo.Logging

open Framework

def cliOutputEolLen : Nat := 2
def dlMaxPrintStringLength : Nat := 2048 - cliOutputEolLen
def dlMaxLogLineLength : Nat := dlMaxPrintStringLength + cliOutputEolLen

inductive SchedulerState where
  | notStarted
  | running
  | suspended
  deriving DecidableEq

/-- The arguments of `vLoggingPrintf`, with what the format makes of its own, and what it asks the
kernel for. -/
structure LogCall where
  pcLogLevel : CString
  pcFileName : Option CString
  ulLineNumber : Nat
  message : CString
  scheduler : SchedulerState
  /-- `pcTaskGetName( NULL )`, used once the scheduler has been started. -/
  taskName : CString
  /-- `xTaskGetTickCount() / portTICK_PERIOD_MS`. -/
  ticks : Nat

namespace LogCall

variable (c : LogCall)

def pcTaskName : List UInt8 :=
  if c.scheduler = .notStarted then ascii "None" else c.taskName.bytes

/-- `"<%-3.3s> %8lu [%-10.10s] "`. -/
def header : List UInt8 :=
  ascii "<" ++ padRight 3 (c.pcLogLevel.bytes.take 3) ++ ascii "> " ++
    padLeft 8 (decimalText (c.ticks % 2 ^ 24)) ++ ascii " [" ++
    padRight 10 (c.pcTaskName.take 10) ++ ascii "] "

/-- `" (%s:%lu)"`, when there is a file and a line. -/
def trailer : Option (List UInt8) :=
  match c.pcFileName with
  | some pcFileName =>
    if 0 < c.ulLineNumber then
      some (ascii " (" ++ pcFileName.bytes ++ ascii ":" ++ decimalText c.ulLineNumber ++ ascii ")")
    else none
  | none => none

end LogCall

inductive LogFault where
  /-- A `configASSERT` that stops the device. -/
  | assertFailed
  | outOfBounds
  deriving DecidableEq

structure LogState where
  pcPrintBuff : Buffer UInt8 dlMaxLogLineLength
  ulLenTotal : Nat

namespace LogState

/-- One of the three stages: printf behind the line so far, in what is left of `limit` characters,
and the length of the line with the returned length, or the limit. -/
def printPart (limit : Nat) (s : LogState) (text : List UInt8) : Except LogFault LogState :=
  match snprintf s.pcPrintBuff s.ulLenTotal (limit - s.ulLenTotal) text with
  | some pcPrintBuff =>
    let lLenPart := printfResult text.length
    if 0 < lLenPart then
      .ok ⟨pcPrintBuff, if lLenPart.toNat + s.ulLenTotal < limit then s.ulLenTotal + lLenPart.toNat
        else limit⟩
    else .error .assertFailed
  | none => .error .outOfBounds

def isStripped (c : UInt8) : Bool := c = 0x0D || c = 0x0A || c = 0x00

/-- The loop, with the number of characters of the line. -/
def stripLoop : Nat → Buffer UInt8 dlMaxLogLineLength → LogState
  | 0, b => ⟨b, 0⟩
  | k + 1, b => if b.bytes[k]?.any isStripped then stripLoop k (b.set k 0) else ⟨b, k + 1⟩

end LogState

/-- What goes to the platform: early output before the scheduler runs. -/
inductive Sent where
  | vPlatformLoggingWriteEarly (buffer : List UInt8)
  | vPlatformLoggingWrite (buffer : List UInt8)
  deriving DecidableEq

def Sent.bytes : Sent → List UInt8
  | .vPlatformLoggingWriteEarly buffer => buffer
  | .vPlatformLoggingWrite buffer => buffer

def vSendLogMessage (scheduler : SchedulerState) (s : LogState) : Sent :=
  if scheduler = .notStarted then
    .vPlatformLoggingWriteEarly (s.pcPrintBuff.bytes.take s.ulLenTotal)
  else .vPlatformLoggingWrite (s.pcPrintBuff.bytes.take s.ulLenTotal)

def vLoggingPrintf (c : LogCall) (pcPrintBuff : Buffer UInt8 dlMaxLogLineLength) :
    Except LogFault Sent := do
  let s ← LogState.printPart dlMaxPrintStringLength ⟨pcPrintBuff.set 0 0, 0⟩ c.header
  let s ← if s.ulLenTotal < dlMaxPrintStringLength then
      s.printPart dlMaxPrintStringLength c.message.bytes
    else pure s
  let s := LogState.stripLoop s.ulLenTotal s.pcPrintBuff
  let s ← match c.trailer with
    | some trailer =>
      if s.ulLenTotal < dlMaxLogLineLength then s.printPart dlMaxLogLineLength trailer else pure s
    | none => pure s
  return vSendLogMessage c.scheduler s

def isLineEnd (c : UInt8) : Bool := c = 0x0D || c = 0x0A

namespace LogCall

variable (c : LogCall)

/-- Header and message as far as they fit with a terminator, without line endings behind them. -/
def text : List UInt8 :=
  ((c.header ++ c.message.bytes).take (dlMaxPrintStringLength - 1)).rdropWhile isLineEnd

/-- The text with as much of the trailer as fits. -/
def line : List UInt8 :=
  c.text ++ (c.trailer.getD []).take (dlMaxLogLineLength - c.text.length)

/-- A sent line is the right one. -/
structure LineRight (sent : Sent) : Prop where
  fits : sent.bytes.length ≤ dlMaxLogLineLength
  noNul : 0 ∉ sent.bytes
  line : sent.bytes = c.line

/-- A message that is not empty, and a trailer that leaves room for its terminator. -/
structure Printable : Prop where
  message : 0 < c.message.length
  /-- An int can express it. -/
  short : c.message.length < 2 ^ 31
  trailer : ∀ t ∈ c.trailer, c.text.length + t.length < dlMaxLogLineLength

end LogCall

/-- The buffer starts with the line. -/
structure Holds (s : LogState) (line : List UInt8) : Prop where
  length : s.ulLenTotal = line.length
  stored : s.pcPrintBuff.bytes.take line.length = line

namespace LogState

variable {s : LogState} {line text : List UInt8} {limit : Nat}

/-- A line with a part behind it, in `limit` characters: a part that does not fit leaves its
terminator in the last one. -/
def appended (limit : Nat) (line text : List UInt8) : List UInt8 :=
  if line.length + text.length < limit then line ++ text
  else line ++ text.take (limit - line.length - 1) ++ [0]

theorem length_appended (h : line.length < limit) :
    (appended limit line text).length =
      if line.length + text.length < limit then line.length + text.length else limit := by
  rw [appended]
  split
  · exact List.length_append
  · simp only [List.length_append, List.length_take, List.length_singleton]
    omega

theorem printPart_of_ok (h : Holds s line) (hline : line.length < limit)
    (hlimit : limit ≤ dlMaxLogLineLength) (hpos : 0 < text.length) (hint : text.length < 2 ^ 31) :
    ∃ t, s.printPart limit text = .ok t ∧ Holds t (appended limit line text) := by
  obtain ⟨b, hb, hbytes⟩ := snprintf_spec s.pcPrintBuff text
    (show 0 < limit - s.ulLenTotal by rw [h.length]; omega)
    (show s.ulLenTotal + (limit - s.ulLenTotal) ≤ dlMaxLogLineLength by rw [h.length]; omega)
  rw [h.length, h.stored] at hbytes
  have hres : printfResult text.length = text.length := if_pos hint
  have hret : 0 < printfResult text.length := (printfResult_pos_iff _).mpr ⟨hpos, hint⟩
  refine ⟨_, by rw [printPart, hb]; exact if_pos hret, ?_, ?_⟩
  · simp only [hres, Int.toNat_natCast, h.length, length_appended hline,
      Nat.add_comm text.length]
  · change b.bytes.take (appended limit line text).length = appended limit line text
    by_cases hfits : line.length + text.length < limit
    · have htake : text.take (limit - line.length - 1) = text :=
        List.take_of_length_le (by omega)
      have happ : appended limit line text = line ++ text := if_pos hfits
      rw [htake] at hbytes
      have hpart := congrArg (List.take (line.length + text.length)) hbytes
      rw [List.take_take, Nat.min_eq_left (Nat.le_succ _), List.take_left' (by simp)] at hpart
      rw [happ, List.length_append, hpart]
    · have happ : appended limit line text =
          line ++ text.take (limit - line.length - 1) ++ [0] := if_neg hfits
      rw [happ, List.length_append, List.length_append, List.length_singleton, hbytes]

theorem printPart_of_not (h : Holds s line) (hline : line.length < limit)
    (hlimit : limit ≤ dlMaxLogLineLength) (hbad : ¬ (0 < text.length ∧ text.length < 2 ^ 31)) :
    s.printPart limit text = .error .assertFailed := by
  obtain ⟨b, hb, -⟩ := snprintf_spec s.pcPrintBuff text
    (show 0 < limit - s.ulLenTotal by rw [h.length]; omega)
    (show s.ulLenTotal + (limit - s.ulLenTotal) ≤ dlMaxLogLineLength by rw [h.length]; omega)
  have hret : ¬ 0 < printfResult text.length := fun hp => hbad ((printfResult_pos_iff _).mp hp)
  rw [printPart, hb]
  exact if_neg hret

theorem stripLoop_spec (b : Buffer UInt8 dlMaxLogLineLength) (line : List UInt8)
    (h : b.bytes.take line.length = line) :
    Holds (stripLoop line.length b) (line.rdropWhile isStripped) := by
  induction line using List.reverseRecOn generalizing b with
  | nil => exact ⟨rfl, rfl⟩
  | append_singleton line c ih =>
    rw [List.length_append, List.length_singleton] at h ⊢
    have hlt : line.length < b.bytes.length := by
      have hlen := congrArg List.length h
      rw [List.length_take, List.length_append, List.length_singleton] at hlen
      omega
    rw [List.take_succ_eq_append_getElem hlt] at h
    obtain ⟨htake, hc⟩ := List.append_inj h (by rw [List.length_take]; omega)
    have hget : b.bytes[line.length]? = some c := by
      rw [List.getElem?_eq_getElem hlt, List.singleton_inj.mp hc]
    rw [stripLoop, hget, Option.any_some]
    by_cases hs : isStripped c = true
    · rw [if_pos hs, List.rdropWhile_concat_pos _ _ _ hs]
      refine ih _ ?_
      exact (List.take_set_of_le (Nat.le_refl _)).trans htake
    · rw [if_neg hs, List.rdropWhile_concat_neg _ _ _ hs]
      refine ⟨by simp, ?_⟩
      rw [List.length_append, List.length_singleton]
      exact (List.take_succ_eq_append_getElem hlt).trans h

end LogState

theorem rdropWhile_isStripped {line : List UInt8} (h : 0 ∉ line) :
    line.rdropWhile LogState.isStripped = line.rdropWhile isLineEnd := by
  induction line using List.reverseRecOn with
  | nil => rfl
  | append_singleton line c ih =>
    rw [List.mem_append, List.mem_singleton, not_or] at h
    have hc : LogState.isStripped c = isLineEnd c := by
      have hz : ¬ c = 0 := fun he => h.2 he.symm
      simp [LogState.isStripped, isLineEnd, hz]
    rw [List.rdropWhile_concat, List.rdropWhile_concat, ih h.1, hc]

namespace LogCall

variable (c : LogCall)

theorem noNul_pcTaskName : 0 ∉ c.pcTaskName := by
  rw [pcTaskName]
  split
  · decide
  · exact c.taskName.noNul

theorem noNul_take {l : List UInt8} (h : 0 ∉ l) (k : Nat) : 0 ∉ l.take k :=
  fun hm => h (List.mem_of_mem_take hm)

theorem noNul_header : 0 ∉ c.header := by
  simp only [header, List.mem_append, not_or]
  exact ⟨⟨⟨⟨⟨⟨by decide, noNul_padRight (noNul_take c.pcLogLevel.noNul 3)⟩, by decide⟩,
    noNul_padLeft (noNul_decimalText _)⟩, by decide⟩,
    noNul_padRight (noNul_take c.noNul_pcTaskName 10)⟩, by decide⟩

theorem length_header : c.header.length = 28 := by
  have hticks : c.ticks % 2 ^ 24 < 10 ^ 8 :=
    Nat.lt_trans (Nat.mod_lt _ (by decide)) (by decide)
  have hlevel := length_padRight (List.length_take_le 3 c.pcLogLevel.bytes)
  have hname := length_padRight (List.length_take_le 10 c.pcTaskName)
  have hnumber := length_padLeft (length_decimalText_le (k := 8) (by decide) hticks)
  simp only [header, List.length_append, hlevel, hname, hnumber]
  rfl

theorem noNul_trailer : ∀ t ∈ c.trailer, 0 ∉ t := by
  intro t ht
  rw [trailer] at ht
  split at ht
  · next pcFileName _ =>
    split at ht
    · cases ht
      simp only [List.mem_append, not_or]
      exact ⟨⟨⟨⟨by decide, pcFileName.noNul⟩, by decide⟩, noNul_decimalText _⟩, by decide⟩
    · cases ht
  · cases ht

theorem length_trailer_pos : ∀ t ∈ c.trailer, 0 < t.length := by
  intro t ht
  rw [trailer] at ht
  split at ht
  · split at ht
    · cases ht
      simp only [List.length_append]
      exact Nat.add_pos_right _ (by decide)
    · cases ht
  · cases ht

theorem text_prefix : c.text <+: (c.header ++ c.message.bytes).take (dlMaxPrintStringLength - 1) :=
  List.rdropWhile_prefix _ _

theorem length_text_lt : c.text.length < dlMaxPrintStringLength := by
  have h := c.text_prefix.length_le
  have hle := List.length_take_le (dlMaxPrintStringLength - 1) (c.header ++ c.message.bytes)
  exact Nat.lt_of_le_of_lt (Nat.le_trans h hle) (by decide)

theorem noNul_text : 0 ∉ c.text := by
  intro hm
  have hmem := List.mem_of_mem_take (c.text_prefix.subset hm)
  rw [List.mem_append] at hmem
  exact hmem.elim c.noNul_header c.message.noNul

/-- Header and message in the buffer, with the terminator of a message that does not fit, are the
text once they are stripped. -/
theorem stripped_appended :
    (LogState.appended dlMaxPrintStringLength c.header c.message.bytes).rdropWhile
      LogState.isStripped = c.text := by
  have hheader := c.length_header
  have hnul : 0 ∉ (c.header ++ c.message.bytes).take (dlMaxPrintStringLength - 1) := by
    refine noNul_take ?_ _
    rw [List.mem_append, not_or]
    exact ⟨c.noNul_header, c.message.noNul⟩
  rw [text, ← rdropWhile_isStripped hnul, LogState.appended]
  split
  · next hfits =>
    rw [List.take_of_length_le]
    rw [List.length_append]
    omega
  · rw [List.rdropWhile_concat_pos _ _ _ (by decide), List.take_append, hheader,
      List.take_of_length_le (l := c.header) (by rw [hheader]; decide)]
    rfl

theorem header_printed (pcPrintBuff : Buffer UInt8 dlMaxLogLineLength) :
    ∃ s, LogState.printPart dlMaxPrintStringLength ⟨pcPrintBuff.set 0 0, 0⟩ c.header = .ok s ∧
      Holds s c.header := by
  have hheader := c.length_header
  have hstart : Holds ⟨pcPrintBuff.set 0 0, 0⟩ [] := ⟨rfl, rfl⟩
  have hroom : ([] : List UInt8).length < dlMaxPrintStringLength := by decide
  obtain ⟨s, hs, hholds⟩ := LogState.printPart_of_ok hstart hroom (by decide)
    (show 0 < c.header.length by rw [hheader]; decide) (by rw [hheader]; decide)
  have happ : LogState.appended dlMaxPrintStringLength [] c.header = c.header := by
    rw [LogState.appended, if_pos (by rw [hheader]; decide), List.nil_append]
  exact ⟨s, hs, happ ▸ hholds⟩

theorem vLoggingPrintf_eq (pcPrintBuff : Buffer UInt8 dlMaxLogLineLength) :
    if 0 < c.message.length ∧ c.message.length < 2 ^ 31 then
      ∃ s, Holds s c.text ∧ vLoggingPrintf c pcPrintBuff =
        (match c.trailer with
          | some trailer => s.printPart dlMaxLogLineLength trailer
          | none => .ok s).map (vSendLogMessage c.scheduler)
    else vLoggingPrintf c pcPrintBuff = .error .assertFailed := by
  obtain ⟨s1, hs1, h1⟩ := c.header_printed pcPrintBuff
  have hlen1 : s1.ulLenTotal < dlMaxPrintStringLength := by
    rw [h1.length, c.length_header]
    decide
  have hheader : c.header.length < dlMaxPrintStringLength := by
    rw [c.length_header]
    decide
  split
  · next hmsg =>
    obtain ⟨s2, hs2, h2⟩ := LogState.printPart_of_ok h1 hheader (by decide) hmsg.1 hmsg.2
    have hstrip := LogState.stripLoop_spec s2.pcPrintBuff _ h2.stored
    rw [← h2.length, c.stripped_appended] at hstrip
    refine ⟨_, hstrip, ?_⟩
    have hlt : (LogState.stripLoop s2.ulLenTotal s2.pcPrintBuff).ulLenTotal <
        dlMaxLogLineLength := by
      rw [hstrip.length]
      exact Nat.lt_trans c.length_text_lt (by decide)
    simp only [vLoggingPrintf, hs1, bind, Except.bind, hlen1, if_true, hs2, pure, Except.pure]
    cases c.trailer with
    | none => rfl
    | some trailer =>
      simp only [hlt, if_true]
      cases LogState.printPart dlMaxLogLineLength
        (LogState.stripLoop s2.ulLenTotal s2.pcPrintBuff) trailer <;> rfl
  · next hmsg =>
    have hs2 := LogState.printPart_of_not h1 hheader (by decide) hmsg
    simp only [vLoggingPrintf, hs1, bind, Except.bind, hlen1, if_true, hs2]

theorem bytes_vSendLogMessage {s : LogState} {line : List UInt8} (h : Holds s line) :
    (vSendLogMessage c.scheduler s).bytes = line := by
  rw [vSendLogMessage]
  split
  · exact (congrArg (fun n => s.pcPrintBuff.bytes.take n) h.length).trans h.stored
  · exact (congrArg (fun n => s.pcPrintBuff.bytes.take n) h.length).trans h.stored

/-- A log line is sent as it should be exactly when its message is not empty (nor longer than an int
can express) and its trailer leaves room for its terminator. -/
theorem vLoggingPrintf_right_iff (pcPrintBuff : Buffer UInt8 dlMaxLogLineLength) :
    (∃ sent, vLoggingPrintf c pcPrintBuff = .ok sent ∧ c.LineRight sent) ↔ c.Printable := by
  have hrun := c.vLoggingPrintf_eq pcPrintBuff
  by_cases hmsg : 0 < c.message.length ∧ c.message.length < 2 ^ 31
  swap
  · rw [if_neg hmsg] at hrun
    constructor
    · rintro ⟨sent, hsent, -⟩
      rw [hrun] at hsent
      cases hsent
    · exact fun hp => absurd ⟨hp.message, hp.short⟩ hmsg
  rw [if_pos hmsg] at hrun
  obtain ⟨s, hs, hcall⟩ := hrun
  have htext : c.text.length < dlMaxLogLineLength :=
    Nat.lt_trans c.length_text_lt (by decide)
  cases ht : c.trailer with
  | none =>
    rw [ht] at hcall
    have hbytes := c.bytes_vSendLogMessage hs
    have hline : c.line = c.text := by rw [line, ht]; simp
    constructor
    · exact fun _ => ⟨hmsg.1, hmsg.2, by simp [ht]⟩
    · exact fun _ => ⟨_, hcall, by rw [hbytes]; exact htext.le, by rw [hbytes]; exact c.noNul_text,
        by rw [hbytes, hline]⟩
  | some trailer =>
    rw [ht] at hcall
    simp only [] at hcall
    have hpos := c.length_trailer_pos trailer ht
    constructor
    · rintro ⟨sent, hsent, hright⟩
      refine ⟨hmsg.1, hmsg.2, fun t htr => ?_⟩
      obtain rfl : trailer = t := Option.some.inj (ht.symm.trans htr)
      by_contra hfull
      by_cases hint : trailer.length < 2 ^ 31
      · obtain ⟨s', hs', h'⟩ := LogState.printPart_of_ok hs htext (Nat.le_refl _) hpos hint
        rw [hcall, hs'] at hsent
        cases hsent
        have hnul := hright.noNul
        rw [c.bytes_vSendLogMessage h', LogState.appended, if_neg hfull] at hnul
        simp at hnul
      · have hbad := LogState.printPart_of_not hs htext (Nat.le_refl _) (fun hp => hint hp.2)
        rw [hcall, hbad] at hsent
        cases hsent
    · intro hp
      have hroom := hp.trailer trailer ht
      have hint : trailer.length < 2 ^ 31 :=
        Nat.lt_trans (Nat.lt_of_le_of_lt (Nat.le_add_left _ _) hroom) (by decide)
      obtain ⟨s', hs', h'⟩ := LogState.printPart_of_ok hs htext (Nat.le_refl _) hpos hint
      rw [LogState.appended, if_pos hroom] at h'
      have hbytes := c.bytes_vSendLogMessage h'
      have hline : c.line = c.text ++ trailer := by
        rw [line, ht, Option.getD_some, List.take_of_length_le (by omega)]
      refine ⟨_, by rw [hcall, hs']; rfl, ?_, ?_, ?_⟩
      · rw [hbytes, List.length_append]
        exact hroom.le
      · rw [hbytes, List.mem_append, not_or]
        exact ⟨c.noNul_text, c.noNul_trailer trailer ht⟩
      · rw [hbytes, hline]

def emptyMessage : LogCall where
  pcLogLevel := ⟨ascii "ERR", by decide⟩
  pcFileName := none
  ulLineNumber := 0
  message := ⟨[], by decide⟩
  scheduler := .running
  taskName := ⟨ascii "CLI", by decide⟩
  ticks := 0

theorem emptyMessage_assertFails :
    ¬ ∀ (c : LogCall) (pcPrintBuff : Buffer UInt8 dlMaxLogLineLength),
    ∃ sent, vLoggingPrintf c pcPrintBuff = .ok sent ∧ c.LineRight sent := by
  intro h
  obtain ⟨sent, hsent, -⟩ := h emptyMessage ⟨List.replicate 2048 0, List.length_replicate⟩
  have hrun := emptyMessage.vLoggingPrintf_eq ⟨List.replicate 2048 0, List.length_replicate⟩
  rw [if_neg (by decide), hsent] at hrun
  cases hrun

end LogCall

end RenesasDemo.Logging
