import RenesasDemo.Cli.PemImport

namespace RenesasDemo.Cli

open Framework

def IsBoundary (start : List UInt8) (line : CString) : Prop :=
  start <+: line.bytes ∧ pemMetaSuffix <:+: line.bytes.drop start.length

instance (start : List UInt8) (line : CString) : Decidable (IsBoundary start line) :=
  inferInstanceAs (Decidable (_ ∧ _))

inductive LineVerdict where
  | header
  | body (der : List UInt8)
  | footer
  | rejected
  deriving DecidableEq

/-- A line that is too long, or behind which the buffer could not take as many bytes again. -/
def TooLong (n : Nat) (line : CString) : Prop :=
  pemLineBuffLen < line.length ∨ pemCertMaxLen ≤ n + line.length + pemLineEndingLen

instance (n : Nat) (line : CString) : Decidable (TooLong n line) :=
  inferInstanceAs (Decidable (_ ∨ _))

/-- What a line is in a text of which `n` bytes are decoded. -/
def lineVerdict (codec : Base64.Codec) (begun : Bool) (n : Nat) (line : CString) : LineVerdict :=
  if line.length = 0 ∨ TooLong n line then .rejected
  else if begun then
    if pemEnd <+: line.bytes then if IsBoundary pemEnd line then .footer else .rejected
    else match codec.decode (pemCertMaxLen - n) line.bytes with
      | some der => .body der
      | none => .rejected
  else if IsBoundary pemBegin line then .header
  else .rejected

/-- How far the lines take a text: its bytes with the lines behind the footer, or the first line
that is none of it with what was decoded before and the lines behind it. -/
inductive PemReading where
  | incomplete
  | complete (der : List UInt8) (unread : List CString)
  | rejected (begun : Bool) (n : Nat) (line : CString) (unread : List CString)
  deriving DecidableEq

def readPem (codec : Base64.Codec) : Bool → List UInt8 → List CString → PemReading
  | _, _, [] => .incomplete
  | begun, der, line :: lines =>
    match lineVerdict codec begun der.length line with
    | .header => readPem codec true der lines
    | .body bytes => readPem codec begun (der ++ bytes) lines
    | .footer => .complete der lines
    | .rejected => .rejected begun der.length line lines

/-- The lines that a reader must leave to the next one. -/
def PemReading.unread : PemReading → Option (List CString)
  | .incomplete => none
  | .complete _ unread => some unread
  | .rejected _ _ _ unread => some unread

def FillsBuffer (codec : Base64.Codec) (n : Nat) (line : CString) : Prop :=
  ∃ bytes ∈ codec.decode (pemCertMaxLen - n) line.bytes, n + bytes.length = pemCertMaxLen

instance (codec : Base64.Codec) (n : Nat) (line : CString) : Decidable (FillsBuffer codec n line) :=
  inferInstanceAs (Decidable (∃ bytes ∈ codec.decode _ _, _))

/-- A line of a text that has begun is refused for its length and fills the buffer. -/
def Overfills (codec : Base64.Codec) (begun : Bool) (n : Nat) (line : CString) : Prop :=
  begun = true ∧ 0 < line.length ∧ TooLong n line ∧ FillsBuffer codec n line

instance (codec : Base64.Codec) (begun : Bool) (n : Nat) (line : CString) :
    Decidable (Overfills codec begun n line) :=
  inferInstanceAs (Decidable (_ ∧ _))

/-- The loop stands in a text of which `der` is decoded. -/
structure Reads (s : PemState) (begun : Bool) (der : List UInt8) : Prop where
  begun : s.xBeginFound = begun
  notEnded : s.xEndFound = false
  noError : s.xErrorFlag = false
  length : s.uxDerDataLen = der.length
  room : der.length < pemCertMaxLen
  stored : ∃ b, s.pucDerBuffer = some b ∧ b.bytes.take der.length = der
  frees : s.frees = 0

namespace PemState

variable {codec : Base64.Codec} {s : PemState} {begun : Bool} {der : List UInt8} {line : CString}

theorem decodeLine_of_notBegun (h : s.xBeginFound = false) :
    s.decodeLine codec line = .ok s := by
  rw [decodeLine, h, Bool.false_and]
  rfl

/-- Decoding a line in state `s`, when nothing but the error flag and the printed texts has
changed since the loop test. -/
theorem decodeLine_of_none (hb : s.xBeginFound = true) (he : s.xEndFound = false)
    (hd : codec.decode (pemCertMaxLen - s.uxDerDataLen) line.bytes = none) :
    s.decodeLine codec line = .ok { s with xErrorFlag := true } := by
  rw [decodeLine, hb, he, hd]
  rfl

theorem decodeLine_of_some {b : Buffer UInt8 pemCertMaxLen} {bytes : List UInt8}
    (hb : s.xBeginFound = true) (he : s.xEndFound = false) (hbuf : s.pucDerBuffer = some b)
    (hlen : s.uxDerDataLen = der.length) (hroom : der.length ≤ pemCertMaxLen)
    (hstored : b.bytes.take der.length = der)
    (hd : codec.decode (pemCertMaxLen - s.uxDerDataLen) line.bytes = some bytes) :
    if der.length + bytes.length < pemCertMaxLen then
      ∃ b', s.decodeLine codec line = .ok { s with
          pucDerBuffer := some b', uxDerDataLen := (der ++ bytes).length } ∧
        b'.bytes.take (der ++ bytes).length = der ++ bytes
    else s.decodeLine codec line = .error .assertFailed := by
  have hfits := codec.fits_of_decode hd
  rw [hlen] at hfits
  obtain ⟨b', hb', hbytes⟩ := b.memcpy_of_le der.length bytes (by omega)
  have hstep : s.decodeLine codec line =
      if der.length + bytes.length < pemCertMaxLen then
        .ok { s with pucDerBuffer := some b', uxDerDataLen := der.length + bytes.length }
      else .error .assertFailed := by
    rw [decodeLine, hb, he, hd, hbuf, hlen]
    simp only [Bool.not_false, Bool.and_self, if_true, Option.bind_some, hb']
  split
  · next hlt =>
    refine ⟨b', ?_, ?_⟩
    · rw [hstep, if_pos hlt, List.length_append]
    · rw [hbytes, hstored, List.take_left']
      rw [List.length_append]
  · next hge => rw [hstep, if_neg hge]

theorem decodeLine_error (h : Reads s begun der) (pcString : String) :
    if begun = true ∧ FillsBuffer codec der.length line then
      (s.error pcString).decodeLine codec line = .error .assertFailed
    else ∃ t, (s.error pcString).decodeLine codec line = .ok t ∧ t.xErrorFlag = true ∧
      t.frees = 0 := by
  have hdec : codec.decode (pemCertMaxLen - (s.error pcString).uxDerDataLen) line.bytes =
      codec.decode (pemCertMaxLen - der.length) line.bytes := by
    rw [← h.length]
    rfl
  cases begun with
  | false =>
    rw [if_neg (by simp), decodeLine_of_notBegun (s := s.error pcString) h.begun]
    exact ⟨_, rfl, rfl, h.frees⟩
  | true =>
    obtain ⟨b, hbuf, hstored⟩ := h.stored
    cases hd : codec.decode (pemCertMaxLen - der.length) line.bytes with
    | none =>
      rw [if_neg (by simp [FillsBuffer, hd]),
        decodeLine_of_none (s := s.error pcString) h.begun h.notEnded (hdec.trans hd)]
      exact ⟨_, rfl, rfl, h.frees⟩
    | some bytes =>
      have hfits := codec.fits_of_decode hd
      have hroom := h.room
      have hstep := decodeLine_of_some (s := s.error pcString) h.begun h.notEnded hbuf h.length
        hroom.le hstored (hdec.trans hd)
      by_cases hlt : der.length + bytes.length < pemCertMaxLen
      · rw [if_pos hlt] at hstep
        obtain ⟨b', hok, -⟩ := hstep
        rw [if_neg (by simp [FillsBuffer, hd]; omega), hok]
        exact ⟨_, rfl, rfl, h.frees⟩
      · rw [if_neg hlt] at hstep
        rw [if_pos ⟨rfl, bytes, hd, by omega⟩]
        exact hstep

end PemState

theorem isBoundary_iff (start : List UInt8) (hs : 0 ∉ start) (line : CString) :
    IsBoundary start line ↔ strncmp start line.bytes start.length = 0 ∧
      (strnstr (line.bytes.drop start.length) pemMetaSuffix
        (line.length - start.length)).isSome = true := by
  have hlen : line.length - start.length = (line.bytes.drop start.length).length := by
    rw [List.length_drop, CString.length]
  rw [IsBoundary, isSome_strnstr_iff, hlen, List.take_length]
  exact and_congr_left' (strncmp_length_eq_zero ⟨start, hs⟩ line).symm

theorem isPrefix_iff (start : List UInt8) (hs : 0 ∉ start) (line : CString) :
    start <+: line.bytes ↔ strncmp start line.bytes start.length = 0 :=
  (strncmp_length_eq_zero ⟨start, hs⟩ line).symm

namespace PemState

variable {codec : Base64.Codec} {s : PemState} {begun : Bool} {der : List UInt8} {line : CString}

/-- What the checks say of a line that is not empty. -/
inductive Checked (s : PemState) (n : Nat) (line : CString) : Bool → PemState × Bool → Prop where
  | tooLong {begun : Bool} (pcString : String) (h : TooLong n line) :
      Checked s n line begun (s.error pcString, false)
  | header (h : ¬ TooLong n line) (hline : IsBoundary pemBegin line) :
      Checked s n line false ({ s with xBeginFound := true }, true)
  | noHeader (pcString : String) (h : ¬ TooLong n line) (hline : ¬ IsBoundary pemBegin line) :
      Checked s n line false (s.error pcString, false)
  | footer (h : ¬ TooLong n line) (hstart : pemEnd <+: line.bytes)
      (hline : IsBoundary pemEnd line) :
      Checked s n line true ({ s with xEndFound := true }, false)
  | noFooter (pcString : String) (h : ¬ TooLong n line) (hstart : pemEnd <+: line.bytes)
      (hline : ¬ IsBoundary pemEnd line) :
      Checked s n line true (s.error pcString, false)
  | body (h : ¬ TooLong n line) (hstart : ¬ pemEnd <+: line.bytes) :
      Checked s n line true (s, false)

theorem checkLine_checked (h : Reads s begun der) (hne : 0 < line.length) :
    Checked s der.length line begun (s.checkLine line) := by
  by_cases hlong : 64 < line.length
  · rw [checkLine, if_pos hlong]
    exact .tooLong _ (.inl hlong)
  by_cases hroom : pemCertMaxLen ≤ der.length + line.length + pemLineEndingLen
  · rw [checkLine, if_neg hlong, if_pos (by simp [h.noError, h.length, hne, hroom])]
    exact .tooLong _ (.inr hroom)
  have hfits : ¬ TooLong der.length line := not_or.mpr ⟨hlong, hroom⟩
  rw [checkLine, if_neg hlong, if_neg (by simp [h.length, hroom])]
  cases begun with
  | false =>
    have hiff := isBoundary_iff pemBegin (by decide) line
    rw [if_pos (by simp [h.begun])]
    split
    · next hcmp =>
      split
      · next hnone =>
        rw [hnone] at hiff
        exact .noHeader _ hfits fun hb => by simpa using (hiff.mp hb).2
      · next hsome => exact .header hfits (hiff.mpr ⟨hcmp, by rw [hsome]; rfl⟩)
    · next hcmp => exact .noHeader _ hfits fun hb => hcmp (hiff.mp hb).1
  | true =>
    have hiff := isBoundary_iff pemEnd (by decide) line
    have hstart := isPrefix_iff pemEnd (by decide) line
    rw [if_neg (by simp [h.begun]), if_pos (by simp [h.notEnded])]
    split
    · next hcmp =>
      split
      · next hnone =>
        rw [hnone] at hiff
        exact .noFooter _ hfits (hstart.mpr hcmp) fun hb => by simpa using (hiff.mp hb).2
      · next hsome =>
        exact .footer hfits (hstart.mpr hcmp) (hiff.mpr ⟨hcmp, by rw [hsome]; rfl⟩)
    · next hcmp => exact .body hfits fun hp => hcmp (hstart.mp hp)

theorem room_of_not_tooLong {n : Nat} (h : ¬ TooLong n line) :
    n + line.length + pemLineEndingLen < pemCertMaxLen := by
  rw [TooLong, not_or] at h
  exact Nat.lt_of_not_le h.2

theorem not_fillsBuffer {n : Nat} (h : ¬ TooLong n line) : ¬ FillsBuffer codec n line := by
  rintro ⟨bytes, hd, hfull⟩
  have hroom := room_of_not_tooLong h
  have hlen : bytes.length ≤ line.length := codec.length_of_decode hd
  omega

theorem lineVerdict_of_fits (codec : Base64.Codec) {n : Nat} (hne : 0 < line.length)
    (h : ¬ TooLong n line) :
    lineVerdict codec begun n line =
      if begun then
        if pemEnd <+: line.bytes then if IsBoundary pemEnd line then .footer else .rejected
        else match codec.decode (pemCertMaxLen - n) line.bytes with
          | some der => .body der
          | none => .rejected
      else if IsBoundary pemBegin line then .header
      else .rejected :=
  if_neg (not_or.mpr ⟨hne.ne', h⟩)

/-- What the checks leave behind decides what the loop body makes of a line. -/
theorem readLine_of_checked {t : PemState} {skip : Bool} (hne : 0 < line.length)
    (h : s.checkLine line = (t, skip)) :
    s.readLine codec line = if skip then .ok t else t.decodeLine codec line := by
  rw [readLine, if_pos hne, h]

theorem readLine_of_error (h : Reads s begun der) (hne : 0 < line.length) {pcString : String}
    (hc : s.checkLine line = (s.error pcString, false))
    (hfull : TooLong der.length line ∨ ¬ FillsBuffer codec der.length line) :
    if Overfills codec begun der.length line then
      s.readLine codec line = .error .assertFailed
    else ∃ t, s.readLine codec line = .ok t ∧ t.xErrorFlag = true ∧ t.frees = 0 := by
  have hstep : if begun = true ∧ FillsBuffer codec der.length line then
      (s.error pcString).decodeLine codec line = .error .assertFailed
    else ∃ t, (s.error pcString).decodeLine codec line = .ok t ∧ t.xErrorFlag = true ∧
      t.frees = 0 := decodeLine_error h pcString
  have hiff : Overfills codec begun der.length line ↔
      begun = true ∧ FillsBuffer codec der.length line := by
    constructor
    · exact fun ho => ⟨ho.1, ho.2.2.2⟩
    · exact fun ho => ⟨ho.1, hne, hfull.resolve_right fun hn => hn ho.2, ho.2⟩
  rw [readLine_of_checked hne hc, if_neg Bool.false_ne_true]
  simpa only [hiff] using hstep

/-- What the loop body makes of the next line. -/
theorem readLine_spec (codec : Base64.Codec) (h : Reads s begun der) (line : CString) :
    match lineVerdict codec begun der.length line with
    | .header => ∃ t, s.readLine codec line = .ok t ∧ Reads t true der
    | .body bytes => ∃ t, s.readLine codec line = .ok t ∧ Reads t begun (der ++ bytes)
    | .footer => s.readLine codec line = .ok { s with xEndFound := true }
    | .rejected =>
      if Overfills codec begun der.length line then
        s.readLine codec line = .error .assertFailed
      else ∃ t, s.readLine codec line = .ok t ∧ t.xErrorFlag = true ∧ t.frees = 0 := by
  by_cases hne : 0 < line.length
  swap
  · have hz : line.length = 0 := Nat.eq_zero_of_not_pos hne
    rw [lineVerdict, if_pos (.inl hz), readLine, if_neg hne]
    simp only []
    rw [if_neg fun ho => hne ho.2.1]
    exact ⟨_, rfl, rfl, h.frees⟩
  have hchecked := checkLine_checked h hne
  generalize hc : s.checkLine line = checked at hchecked
  cases hchecked with
  | tooLong pcString hlong =>
    rw [lineVerdict, if_pos (.inr hlong)]
    exact readLine_of_error h hne hc (.inl hlong)
  | header hfits hline =>
    rw [lineVerdict_of_fits codec hne hfits, if_neg Bool.false_ne_true, if_pos hline]
    exact ⟨_, readLine_of_checked hne hc, { h with begun := rfl }⟩
  | noHeader pcString hfits hline =>
    rw [lineVerdict_of_fits codec hne hfits, if_neg Bool.false_ne_true, if_neg hline]
    exact readLine_of_error h hne hc (.inr (not_fillsBuffer hfits))
  | footer hfits hstart hline =>
    rw [lineVerdict_of_fits codec hne hfits, if_pos rfl, if_pos hstart, if_pos hline]
    simp only []
    rw [readLine_of_checked hne hc, if_neg Bool.false_ne_true, decodeLine, h.begun]
    rfl
  | noFooter pcString hfits hstart hline =>
    rw [lineVerdict_of_fits codec hne hfits, if_pos rfl, if_pos hstart, if_neg hline]
    exact readLine_of_error h hne hc (.inr (not_fillsBuffer hfits))
  | body hfits hstart =>
    rw [lineVerdict_of_fits codec hne hfits, if_pos rfl, if_neg hstart,
      readLine_of_checked hne hc, if_neg Bool.false_ne_true]
    cases hd : codec.decode (pemCertMaxLen - der.length) line.bytes with
    | none =>
      simp only []
      rw [if_neg fun ho => not_fillsBuffer hfits ho.2.2.2,
        decodeLine_of_none h.begun h.notEnded (by rw [h.length, hd])]
      exact ⟨_, rfl, rfl, h.frees⟩
    | some bytes =>
      have hroom := room_of_not_tooLong hfits
      have hlen : bytes.length ≤ line.length := codec.length_of_decode hd
      obtain ⟨b, hbuf, hstored⟩ := h.stored
      have hstep := decodeLine_of_some h.begun h.notEnded hbuf h.length h.room.le hstored
        (by rw [h.length, hd])
      rw [if_pos (by omega)] at hstep
      obtain ⟨b', hok, hstored'⟩ := hstep
      refine ⟨_, hok, ⟨h.begun, h.notEnded, h.noError, rfl, ?_, ⟨b', rfl, hstored'⟩, h.frees⟩⟩
      rw [List.length_append]
      omega

end PemState

/-- How the loop leaves a buffer with a complete text. -/
structure Completed (t : PemState) (der : List UInt8) : Prop where
  noError : t.xErrorFlag = false
  length : t.uxDerDataLen = der.length
  stored : ∃ b, t.pucDerBuffer = some b ∧ b.bytes.take der.length = der
  frees : t.frees = 0

/-- The loop follows the text to its footer or to the first line that is none of it. -/
theorem readPemLoop_spec (codec : Base64.Codec) {s : PemState} {begun : Bool} {der : List UInt8}
    (h : Reads s begun der) (lines : List CString) :
    match readPem codec begun der lines with
    | .incomplete => readPemLoop codec s lines = .ok .waiting
    | .complete der' unread =>
      ∃ t, readPemLoop codec s lines = .ok (.returned t unread) ∧ Completed t der'
    | .rejected begun' n line unread =>
      if Overfills codec begun' n line then readPemLoop codec s lines = .error .assertFailed
      else ∃ t, readPemLoop codec s lines = .ok (.returned t unread) ∧ t.pucDerBuffer = none ∧
        t.frees = 1 := by
  induction lines generalizing s begun der with
  | nil =>
    have hgo : s.goesOn = true := by simp [PemState.goesOn, h.length, h.room, h.notEnded]
    rw [readPem, readPemLoop, if_pos hgo]
  | cons line lines ih =>
    have hgo : s.goesOn = true := by simp [PemState.goesOn, h.length, h.room, h.notEnded]
    have hstep := PemState.readLine_spec codec h line
    rw [readPem, readPemLoop, if_pos hgo]
    cases hv : lineVerdict codec begun der.length line with
    | header =>
      rw [hv] at hstep
      obtain ⟨t, ht, hreads⟩ := hstep
      simp only [ht, Except.bind, hreads.noError, if_false, Bool.false_eq_true]
      exact ih hreads
    | body bytes =>
      rw [hv] at hstep
      obtain ⟨t, ht, hreads⟩ := hstep
      simp only [ht, Except.bind, hreads.noError, if_false, Bool.false_eq_true]
      exact ih hreads
    | footer =>
      rw [hv] at hstep
      have hleave : readPemLoop codec { s with xEndFound := true } lines =
          .ok (.returned { s with xEndFound := true } lines) := by
        cases lines <;> simp [readPemLoop, PemState.goesOn]
      simp only [hstep, Except.bind, h.noError, if_false, Bool.false_eq_true]
      rw [h.noError] at hleave
      exact ⟨_, hleave, rfl, h.length, h.stored, h.frees⟩
    | rejected =>
      rw [hv] at hstep
      simp only []
      split
      · next ho =>
        simp only [if_pos ho] at hstep
        rw [hstep]
        rfl
      · next ho =>
        simp only [if_neg ho] at hstep
        obtain ⟨t, ht, herr, hfrees⟩ := hstep
        refine ⟨t.release, ?_, rfl, by rw [PemState.release, hfrees]⟩
        rw [ht]
        simp only [Except.bind, herr, if_true]

theorem reads_pemStart : Reads (pemStart true) false [] where
  begun := rfl
  notEnded := rfl
  noError := rfl
  length := rfl
  room := by decide
  stored := ⟨_, rfl, rfl⟩
  frees := rfl

/-- What `xReadPemFromCliAsDer` returns for a text. -/
theorem xReadPemFromCliAsDer_spec (codec : Base64.Codec) (output : PemOutput)
    (lines : List CString) :
    match readPem codec false [] lines with
    | .incomplete => xReadPemFromCliAsDer codec true output lines = .ok .waiting
    | .complete der unread =>
      ∃ r b, xReadPemFromCliAsDer codec true output lines = .ok (.returned r unread) ∧
        r.xResult = true ∧ r.output = ⟨some b, der.length⟩ ∧ b.bytes.take der.length = der ∧
        r.frees = 0
    | .rejected begun n line unread =>
      if Overfills codec begun n line then
        xReadPemFromCliAsDer codec true output lines = .error .assertFailed
      else ∃ r, xReadPemFromCliAsDer codec true output lines = .ok (.returned r unread) ∧
        r.xResult = false ∧ r.output = output ∧ r.frees = 1 := by
  have hloop := readPemLoop_spec codec reads_pemStart lines
  rw [xReadPemFromCliAsDer, if_pos rfl]
  cases hr : readPem codec false [] lines with
  | incomplete =>
    rw [hr] at hloop
    simp only [hloop, Except.map]
  | complete der unread =>
    rw [hr] at hloop
    obtain ⟨t, ht, hdone⟩ := hloop
    obtain ⟨b, hbuf, hstored⟩ := hdone.stored
    refine ⟨t.result output, b, by rw [ht]; rfl, ?_⟩
    rw [PemState.result, hbuf]
    exact ⟨by rw [hdone.noError]; rfl, by rw [hdone.length], hstored, hdone.frees⟩
  | rejected begun n line unread =>
    rw [hr] at hloop
    simp only [] at hloop ⊢
    split
    · next ho =>
      rw [if_pos ho] at hloop
      rw [hloop]
      rfl
    · next ho =>
      rw [if_neg ho] at hloop
      obtain ⟨t, ht, hnull, hfrees⟩ := hloop
      refine ⟨t.result output, by rw [ht]; rfl, ?_⟩
      rw [PemState.result, hnull]
      exact ⟨rfl, rfl, hfrees⟩

end RenesasDemo.Cli
