import RenesasDemo.Cli.Console
import RenesasDemo.Framework.Segments

namespace RenesasDemo.Cli

open Framework

def isEol (c : UInt8) : Bool := c = 0x0A || c = 0x0D || c = 0x00
def isErase (c : UInt8) : Bool := c = 0x08 || c = 0x7F
def isInterrupt (c : UInt8) : Bool := c = 0x03

def cliPromptStr : List UInt8 := ascii "> "

/-- `pcInputBuffer` and the variables of `uart_readline`, with what it wrote to the terminal. -/
structure ReadlineState where
  pcInputBuffer : Buffer UInt8 cliInputLineLenMax
  ulInBufferIdx : Nat
  lBytesWritten : Nat
  xFoundEOL : Bool
  written : List UInt8

namespace ReadlineState

def start (pcInputBuffer : Buffer UInt8 cliInputLineLenMax) : ReadlineState where
  pcInputBuffer := pcInputBuffer.set (cliInputLineLenMax - 1) 0
  ulInBufferIdx := 0
  lBytesWritten := 0
  xFoundEOL := false
  written := cliPromptStr

def goesOn (s : ReadlineState) : Bool := s.ulInBufferIdx < cliInputLineLenMax && !s.xFoundEOL

def edit (s : ReadlineState) (c : UInt8) : ReadlineState :=
  if isEol c then
    if 0 < s.ulInBufferIdx then
      { s with
        pcInputBuffer := s.pcInputBuffer.set s.ulInBufferIdx 0
        lBytesWritten := s.ulInBufferIdx
        xFoundEOL := true
        written := s.written ++ cliOutputEol }
    else
      { s with
        pcInputBuffer := s.pcInputBuffer.set s.ulInBufferIdx 0
        ulInBufferIdx := 0 }
  else if isErase c then
    if 0 < s.ulInBufferIdx then
      { s with
        pcInputBuffer := (s.pcInputBuffer.set s.ulInBufferIdx 0).set (s.ulInBufferIdx - 1) 0
        ulInBufferIdx := s.ulInBufferIdx - 1
        written := s.written ++ ascii "\x08 \x08" }
    else s
  else if isInterrupt c then
    { s with ulInBufferIdx := 0, written := s.written ++ cliOutputEol ++ cliPromptStr }
  else
    { s with ulInBufferIdx := s.ulInBufferIdx + 1, written := s.written ++ [c] }

/-- The loop body for a received byte: it lands in the slot behind the line, whatever it means. -/
def receive (s : ReadlineState) (c : UInt8) : ReadlineState :=
  { s with pcInputBuffer := s.pcInputBuffer.set s.ulInBufferIdx c }.edit c

end ReadlineState

/-- The loop of `uart_readline`, with the bytes that it leaves to later calls; none while it waits
for a byte. -/
def readlineLoop : ReadlineState → List UInt8 → Option (ReadlineState × List UInt8)
  | s, [] => if s.goesOn then none else some (s, [])
  | s, c :: cs => if s.goesOn then readlineLoop (s.receive c) cs else some (s, c :: cs)

def uartReadline (pcInputBuffer : Buffer UInt8 cliInputLineLenMax) (bytes : List UInt8) :
    Option (ReadlineState × List UInt8) :=
  readlineLoop (.start pcInputBuffer) bytes

theorem length_of_readlineLoop {s t : ReadlineState} {bytes rest : List UInt8}
    (h : readlineLoop s bytes = some (t, rest)) : rest.length ≤ bytes.length := by
  induction bytes generalizing s with
  | nil =>
    rw [readlineLoop] at h
    split at h
    · cases h
    · cases h
      exact Nat.le_refl _
  | cons c cs ih =>
    rw [readlineLoop] at h
    split at h
    · exact Nat.le_succ_of_le (ih h)
    · cases h
      exact Nat.le_refl _

theorem goesOn_start (pcInputBuffer : Buffer UInt8 cliInputLineLenMax) :
    (ReadlineState.start pcInputBuffer).goesOn = true := rfl

theorem length_of_uartReadline {b : Buffer UInt8 cliInputLineLenMax} {t : ReadlineState}
    {bytes rest : List UInt8} (h : uartReadline b bytes = some (t, rest)) :
    rest.length < bytes.length := by
  cases bytes with
  | nil =>
    rw [uartReadline, readlineLoop, goesOn_start] at h
    cases h
  | cons c cs =>
    rw [uartReadline, readlineLoop, goesOn_start] at h
    exact Nat.lt_succ_of_le (length_of_readlineLoop h)

/-- What a call returned: a length, and the buffer as it was then. -/
structure ReadLine where
  lLen : Nat
  pcCommandBuffer : Buffer UInt8 cliInputLineLenMax

/-- The string that a command is made of. -/
def ReadLine.text (r : ReadLine) : List UInt8 := r.pcCommandBuffer.bytes.take r.lLen

/-- The loop of `Task_CLI`: the lines that it processes, until a call waits for more bytes. -/
def taskCli (pcInputBuffer : Buffer UInt8 cliInputLineLenMax) (bytes : List UInt8) :
    List ReadLine :=
  match _h : uartReadline pcInputBuffer bytes with
  | none => []
  | some (t, rest) =>
    if 0 < t.lBytesWritten then ⟨t.lBytesWritten, t.pcInputBuffer⟩ :: taskCli t.pcInputBuffer rest
    else taskCli t.pcInputBuffer rest
termination_by bytes.length
decreasing_by all_goals exact length_of_uartReadline _h

/-- A line editor without a limit. -/
structure Editor where
  line : List UInt8
  /-- The line had more characters than a buffer can take. -/
  overlong : Bool
  deriving DecidableEq

def Editor.empty : Editor := ⟨[], false⟩

/-- What a byte makes of the line being typed, and the line that it ends. -/
def Editor.type (e : Editor) (c : UInt8) : Editor × Option (List UInt8) :=
  if isEol c then (.empty, if e.line ≠ [] ∧ !e.overlong then some e.line else none)
  else if isErase c then ({ e with line := e.line.dropLast }, none)
  else if isInterrupt c then (.empty, none)
  else (⟨e.line ++ [c], e.overlong || decide (cliInputLineLenMax - 1 < e.line.length + 1)⟩, none)

/-- The non-empty lines that were never too long. -/
def Editor.lines : Editor → List UInt8 → List (List UInt8)
  | _, [] => []
  | e, c :: cs => (e.type c).2.toList ++ (e.type c).1.lines cs

/-- An editor that starts again with an empty line when its buffer is full. -/
def typeClipped (line : List UInt8) (c : UInt8) : List UInt8 × Option (List UInt8) :=
  if isEol c then ([], if line ≠ [] then some line else none)
  else if isErase c then (line.dropLast, none)
  else if isInterrupt c then ([], none)
  else (if line.length + 1 < cliInputLineLenMax then line ++ [c] else [], none)

def clippedLines : List UInt8 → List UInt8 → List (List UInt8)
  | _, [] => []
  | line, c :: cs => (typeClipped line c).2.toList ++ clippedLines (typeClipped line c).1 cs

/-- When a line ends that was too long, all that came behind what filled the buffer has been erased
again; `rest` is what is left of it. -/
def DroppedWhole : Editor → List UInt8 → List UInt8 → Prop
  | _, _, [] => True
  | e, rest, c :: cs =>
    (isEol c = true → e.overlong = true → rest = []) ∧
      DroppedWhole (e.type c).1 (typeClipped rest c).1 cs

/-- The string ends inside the buffer, at its first NUL. -/
structure ReadLine.Terminated (r : ReadLine) : Prop where
  inside : r.lLen < cliInputLineLenMax
  nul : r.pcCommandBuffer.bytes[r.lLen]? = some 0
  strlen : strlen r.pcCommandBuffer.bytes = r.lLen

/-- A call is at `line`. -/
structure Typing (s : ReadlineState) (line : List UInt8) : Prop where
  noEol : s.xFoundEOL = false
  nothing : s.lBytesWritten = 0
  idx : s.ulInBufferIdx = line.length
  fits : line.length < cliInputLineLenMax
  stored : s.pcInputBuffer.bytes.take line.length = line
  noNul : 0 ∉ line

theorem typing_start (b : Buffer UInt8 cliInputLineLenMax) : Typing (.start b) [] where
  noEol := rfl
  nothing := rfl
  idx := rfl
  fits := by decide
  stored := rfl
  noNul := List.not_mem_nil

/-- The lines from the middle of a call on. -/
def linesFrom (s : ReadlineState) (bytes : List UInt8) : List ReadLine :=
  match readlineLoop s bytes with
  | none => []
  | some (t, rest) =>
    if 0 < t.lBytesWritten then ⟨t.lBytesWritten, t.pcInputBuffer⟩ :: taskCli t.pcInputBuffer rest
    else taskCli t.pcInputBuffer rest

theorem taskCli_eq (b : Buffer UInt8 cliInputLineLenMax) (bytes : List UInt8) :
    taskCli b bytes = linesFrom (.start b) bytes := by
  rw [taskCli, linesFrom]
  change (match _h : readlineLoop (.start b) bytes with | none => _ | some (t, rest) => _) = _
  cases readlineLoop (.start b) bytes with
  | none => rfl
  | some p => rfl

namespace Typing

variable {s : ReadlineState} {line : List UInt8} {c : UInt8}

theorem goesOn (h : Typing s line) : s.goesOn = true := by
  simp [ReadlineState.goesOn, h.idx, h.fits, h.noEol]

theorem linesFrom_nil (h : Typing s line) : linesFrom s [] = [] := by
  rw [linesFrom, readlineLoop, if_pos h.goesOn]

theorem linesFrom_cons (h : Typing s line) (cs : List UInt8) :
    linesFrom s (c :: cs) = linesFrom (s.receive c) cs := by
  rw [linesFrom, readlineLoop, if_pos h.goesOn, linesFrom]

end Typing

theorem linesFrom_of_returned {t : ReadlineState} (h : t.goesOn = false) (cs : List UInt8) :
    linesFrom t cs = (if 0 < t.lBytesWritten then [⟨t.lBytesWritten, t.pcInputBuffer⟩] else []) ++
      linesFrom (.start t.pcInputBuffer) cs := by
  have hloop : readlineLoop t cs = some (t, cs) := by
    cases cs <;> rw [readlineLoop, h, if_neg Bool.false_ne_true]
  rw [linesFrom, hloop, ← taskCli_eq]
  simp only []
  split <;> simp

section receive

variable {s : ReadlineState} {line : List UInt8} {c : UInt8}

/-- The line ends, and the call returns it. -/
theorem Typing.receive_eol (h : Typing s line) (hc : isEol c = true) (hne : line ≠ [])
    (cs : List UInt8) :
    ∃ r b, linesFrom s (c :: cs) = r :: linesFrom (.start b) cs ∧ r.text = line ∧
      r.Terminated := by
  have hpos : 0 < line.length := List.length_pos_iff.mpr hne
  obtain ⟨t, ht⟩ : ∃ t, s.receive c = t := ⟨_, rfl⟩
  have hfields : t = { s with
      pcInputBuffer := (s.pcInputBuffer.set line.length c).set line.length 0
      lBytesWritten := line.length
      xFoundEOL := true
      written := s.written ++ cliOutputEol } := by
    simp only [← ht, ReadlineState.receive, ReadlineState.edit, hc, if_true, h.idx, if_pos hpos]
  have hover : t.goesOn = false := by simp [hfields, ReadlineState.goesOn]
  have hwritten : t.lBytesWritten = line.length := by rw [hfields]
  have hbuf : t.pcInputBuffer.bytes = s.pcInputBuffer.bytes.set line.length 0 := by
    rw [hfields]
    exact List.set_set ..
  have htake : t.pcInputBuffer.bytes.take line.length = line := by
    rw [hbuf, List.take_set_of_le (Nat.le_refl _), h.stored]
  have hnul : t.pcInputBuffer.bytes[line.length]? = some 0 := by
    rw [hbuf, List.getElem?_set_self]
    rw [s.pcInputBuffer.length_bytes]
    exact h.fits
  refine ⟨⟨line.length, t.pcInputBuffer⟩, t.pcInputBuffer, ?_, htake, h.fits, hnul, ?_⟩
  · rw [h.linesFrom_cons, ht, linesFrom_of_returned hover, hwritten, if_pos hpos]
    rfl
  · refine strlen_of_nul hnul ?_
    rw [htake]
    exact h.noNul

/-- Line endings before the first character are skipped. -/
theorem Typing.receive_eol_nil (h : Typing s []) (hc : isEol c = true) :
    Typing (s.receive c) [] := by
  have hidx : ¬ 0 < s.ulInBufferIdx := by simp [h.idx]
  have hfields : s.receive c = { s with
      pcInputBuffer := (s.pcInputBuffer.set s.ulInBufferIdx c).set s.ulInBufferIdx 0
      ulInBufferIdx := 0 } := by
    simp only [ReadlineState.receive, ReadlineState.edit, hc, if_true, if_neg hidx]
  rw [hfields]
  exact ⟨h.noEol, h.nothing, rfl, h.fits, rfl, h.noNul⟩

theorem Typing.receive_erase (h : Typing s line) (he : isEol c = false) (hc : isErase c = true) :
    Typing (s.receive c) line.dropLast := by
  have hlen : line.dropLast.length = line.length - 1 := List.length_dropLast
  have hfits := h.fits
  have hnoNul : 0 ∉ line.dropLast := fun hm => h.noNul (List.dropLast_subset _ hm)
  by_cases hpos : 0 < line.length
  · have hfields : s.receive c = { s with
        pcInputBuffer :=
          ((s.pcInputBuffer.set line.length c).set line.length 0).set (line.length - 1) 0
        ulInBufferIdx := line.length - 1
        written := s.written ++ ascii "\x08 \x08" } := by
      simp only [ReadlineState.receive, ReadlineState.edit, he, hc, Bool.false_eq_true, if_false,
        if_true, h.idx, if_pos hpos]
    rw [hfields]
    refine ⟨h.noEol, h.nothing, hlen.symm, by omega, ?_, hnoNul⟩
    change (((s.pcInputBuffer.bytes.set line.length c).set line.length 0).set
      (line.length - 1) 0).take line.dropLast.length = line.dropLast
    rw [hlen, List.take_set_of_le (Nat.le_refl _), List.take_set_of_le (Nat.sub_le _ _),
      List.take_set_of_le (Nat.sub_le _ _), List.dropLast_eq_take, ← h.stored, List.take_take,
      h.stored]
    congr 1
    omega
  · have hnil : line = [] := List.eq_nil_of_length_eq_zero (Nat.eq_zero_of_not_pos hpos)
    have hfields : s.receive c = { s with
        pcInputBuffer := s.pcInputBuffer.set line.length c } := by
      simp only [ReadlineState.receive, ReadlineState.edit, he, hc, Bool.false_eq_true, if_false,
        if_true, h.idx, if_neg hpos]
    rw [hfields, hnil]
    exact ⟨h.noEol, h.nothing, h.idx.trans (congrArg List.length hnil), by decide, rfl,
      List.not_mem_nil⟩

theorem Typing.receive_interrupt (h : Typing s line) (he : isEol c = false)
    (hd : isErase c = false) (hc : isInterrupt c = true) : Typing (s.receive c) [] := by
  have hfields : s.receive c = { s with
      pcInputBuffer := s.pcInputBuffer.set s.ulInBufferIdx c
      ulInBufferIdx := 0
      written := s.written ++ cliOutputEol ++ cliPromptStr } := by
    simp only [ReadlineState.receive, ReadlineState.edit, he, hd, hc, Bool.false_eq_true, if_false,
      if_true]
  rw [hfields]
  exact ⟨h.noEol, h.nothing, rfl, by decide, rfl, List.not_mem_nil⟩

theorem receive_char (he : isEol c = false) (hd : isErase c = false) (hi : isInterrupt c = false) :
    s.receive c = { s with
      pcInputBuffer := s.pcInputBuffer.set s.ulInBufferIdx c
      ulInBufferIdx := s.ulInBufferIdx + 1
      written := s.written ++ [c] } := by
  simp only [ReadlineState.receive, ReadlineState.edit, he, hd, hi, Bool.false_eq_true, if_false]

theorem Typing.receive_char_of_room (h : Typing s line) (he : isEol c = false)
    (hd : isErase c = false) (hi : isInterrupt c = false)
    (hroom : line.length + 1 < cliInputLineLenMax) : Typing (s.receive c) (line ++ [c]) := by
  have hlen : (line ++ [c]).length = line.length + 1 := List.length_append
  have hin : line.length < s.pcInputBuffer.bytes.length := by
    rw [s.pcInputBuffer.length_bytes]
    exact h.fits
  have hc : (0 : UInt8) ≠ c := by
    rintro rfl
    exact absurd he (by decide)
  rw [receive_char he hd hi]
  refine ⟨h.noEol, h.nothing, ?_, ?_, ?_, ?_⟩
  · rw [hlen, h.idx]
  · rw [hlen]
    exact hroom
  · change (s.pcInputBuffer.bytes.set s.ulInBufferIdx c).take (line ++ [c]).length = _
    rw [hlen, h.idx, List.take_succ_eq_append_getElem (by simpa using hin), List.getElem_set_self,
      List.take_set_of_le (Nat.le_refl _), h.stored]
  · simp only [List.mem_append, List.mem_singleton, not_or]
    exact ⟨h.noNul, hc⟩

/-- The character that fills the buffer ends the call without a line. -/
theorem Typing.receive_char_of_full (h : Typing s line) (he : isEol c = false)
    (hd : isErase c = false) (hi : isInterrupt c = false)
    (hfull : ¬ line.length + 1 < cliInputLineLenMax) (cs : List UInt8) :
    ∃ b, linesFrom s (c :: cs) = linesFrom (.start b) cs := by
  obtain ⟨t, ht⟩ : ∃ t, s.receive c = t := ⟨_, rfl⟩
  have hfields : t = _ := ht.symm.trans (receive_char he hd hi)
  have hover : t.goesOn = false := by
    simp only [hfields, ReadlineState.goesOn, h.idx, decide_eq_false hfull, Bool.false_and]
  have hnothing : t.lBytesWritten = 0 := by rw [hfields, h.nothing]
  refine ⟨t.pcInputBuffer, ?_⟩
  rw [h.linesFrom_cons, ht, linesFrom_of_returned hover, hnothing, if_neg (Nat.lt_irrefl 0),
    List.nil_append]

end receive

/-- The calls of `uart_readline` are an editor that starts again when its buffer is full. -/
theorem linesFrom_eq_clippedLines {s : ReadlineState} {line : List UInt8} (h : Typing s line)
    (bytes : List UInt8) :
    (linesFrom s bytes).map ReadLine.text = clippedLines line bytes ∧
      ∀ r ∈ linesFrom s bytes, r.Terminated := by
  induction bytes generalizing s line with
  | nil =>
    rw [h.linesFrom_nil]
    exact ⟨rfl, fun r hr => absurd hr List.not_mem_nil⟩
  | cons c cs ih =>
    rw [clippedLines, typeClipped]
    by_cases he : isEol c = true
    · rw [if_pos he]
      by_cases hne : line = []
      · subst hne
        rw [if_neg (not_not.mpr rfl), h.linesFrom_cons]
        exact ih (h.receive_eol_nil he)
      · obtain ⟨r, b, hlines, htext, hterm⟩ := h.receive_eol he hne cs
        obtain ⟨hmap, hall⟩ := ih (typing_start b)
        rw [if_pos hne, hlines, List.map_cons, hmap, htext]
        exact ⟨rfl, List.forall_mem_cons.mpr ⟨hterm, hall⟩⟩
    rw [if_neg he]
    have he := Bool.eq_false_iff.mpr he
    by_cases hd : isErase c = true
    · rw [if_pos hd, h.linesFrom_cons]
      exact ih (h.receive_erase he hd)
    rw [if_neg hd]
    have hd := Bool.eq_false_iff.mpr hd
    by_cases hi : isInterrupt c = true
    · rw [if_pos hi, h.linesFrom_cons]
      exact ih (h.receive_interrupt he hd hi)
    rw [if_neg hi]
    have hi := Bool.eq_false_iff.mpr hi
    by_cases hroom : line.length + 1 < cliInputLineLenMax
    · rw [if_pos hroom, h.linesFrom_cons]
      exact ih (h.receive_char_of_room he hd hi hroom)
    · obtain ⟨b, hlines⟩ := h.receive_char_of_full he hd hi hroom cs
      rw [if_neg hroom, hlines]
      exact ih (typing_start b)

/-- How the two editors stand to each other: they differ only in a line that is too long. -/
structure Follows (e : Editor) (rest : List UInt8) : Prop where
  same : e.overlong = false → rest = e.line
  fits : e.overlong = false → e.line.length < cliInputLineLenMax

theorem follows_empty : Follows .empty [] := ⟨fun _ => rfl, fun _ => by decide⟩

theorem Follows.type {e : Editor} {rest : List UInt8} (h : Follows e rest) (c : UInt8) :
    Follows (e.type c).1 (typeClipped rest c).1 := by
  rw [Editor.type, typeClipped]
  split
  · exact follows_empty
  split
  · refine ⟨fun ho => congrArg List.dropLast (h.same ho), fun ho => ?_⟩
    exact Nat.lt_of_le_of_lt (by simp) (h.fits ho)
  split
  · exact follows_empty
  · refine ⟨fun ho => ?_, fun ho => ?_⟩
    · obtain ⟨hshort, hlen⟩ := Bool.or_eq_false_iff.mp ho
      have hroom : e.line.length + 1 < cliInputLineLenMax := by
        have hlen := of_decide_eq_false hlen
        simp only [cliInputLineLenMax] at hlen ⊢
        omega
      simp only [h.same hshort, if_pos hroom]
    · obtain ⟨-, hlen⟩ := Bool.or_eq_false_iff.mp ho
      have hlen := of_decide_eq_false hlen
      simp only [List.length_append, List.length_singleton, cliInputLineLenMax] at hlen ⊢
      omega

theorem Follows.returned {e : Editor} {rest : List UInt8} (h : Follows e rest) (c : UInt8) :
    (typeClipped rest c).2 = (e.type c).2 ∨
      ((e.type c).2 = none ∧ (typeClipped rest c).2 = some rest ∧ isEol c = true ∧
        e.overlong = true ∧ rest ≠ []) := by
  rw [Editor.type, typeClipped]
  split
  · next hc =>
    cases ho : e.overlong with
    | false =>
      left
      simp [h.same ho]
    | true =>
      by_cases hr : rest = []
      · left
        simp [hr]
      · right
        simp [hr, hc]
  · left
    split
    · rfl
    · split <;> rfl

/-- The clipping editor returns the lines of the other one, and more exactly when it is left with
the rest of a line that was too long. -/
theorem Follows.lines {e : Editor} {rest : List UInt8} (h : Follows e rest) (bytes : List UInt8) :
    (e.lines bytes).length ≤ (clippedLines rest bytes).length ∧
      (clippedLines rest bytes = e.lines bytes ↔ DroppedWhole e rest bytes) := by
  induction bytes generalizing e rest with
  | nil => exact ⟨Nat.le_refl _, fun _ => trivial, fun _ => rfl⟩
  | cons c cs ih =>
    obtain ⟨hlen, hiff⟩ := ih (h.type c)
    rw [clippedLines, Editor.lines, DroppedWhole]
    obtain hsame | ⟨hnone, hsome, hc, ho, hr⟩ := h.returned c
    · have hdrop : isEol c = true → e.overlong = true → rest = [] := by
        intro hc ho
        rw [Editor.type, typeClipped, if_pos hc, if_pos hc, ho] at hsame
        by_contra hr
        simp [hr] at hsame
      rw [hsame]
      constructor
      · simpa using hlen
      · rw [List.append_cancel_left_eq, hiff]
        exact ⟨fun hd => ⟨hdrop, hd⟩, fun hd => hd.2⟩
    · have hlonger : (Editor.lines (e.type c).1 cs).length <
          ((some rest).toList ++ clippedLines (typeClipped rest c).1 cs).length := by
        rw [Option.toList_some, List.length_append, List.length_singleton]
        omega
      rw [hnone, hsome]
      constructor
      · exact Nat.le_of_lt hlonger
      · constructor
        · intro heq
          rw [heq] at hlonger
          exact absurd hlonger (Nat.lt_irrefl _)
        · intro hd
          exact absurd (hd.1 hc ho) hr

/-- The lines that `Task_CLI` processes are well terminated strings, and they are those of a line
editor exactly when no line that is too long has something left behind its first 128 characters. -/
theorem taskCli_lines_iff (b : Buffer UInt8 cliInputLineLenMax) (bytes : List UInt8) :
    ((taskCli b bytes).map ReadLine.text = Editor.empty.lines bytes ∧
        ∀ r ∈ taskCli b bytes, r.Terminated) ↔
      DroppedWhole .empty [] bytes := by
  obtain ⟨hmap, hterm⟩ := linesFrom_eq_clippedLines (typing_start b) bytes
  obtain ⟨-, hiff⟩ := follows_empty.lines bytes
  rw [taskCli_eq, hmap, ← hiff]
  exact ⟨fun h => h.1, fun h => ⟨h, hterm⟩⟩

/-- 128 characters, one more, and the end of the line. -/
def overlongInput : List UInt8 := List.replicate 128 0x61 ++ [0x62, 0x0D]

theorem overlongInput_rest_returned : ¬ ∀ (b : Buffer UInt8 cliInputLineLenMax)
    (bytes : List UInt8), (taskCli b bytes).map ReadLine.text = Editor.empty.lines bytes ∧
      ∀ r ∈ taskCli b bytes, r.Terminated := by
  intro h
  have hlines := (h ⟨List.replicate 128 0, List.length_replicate⟩ overlongInput).1
  rw [taskCli_eq, (linesFrom_eq_clippedLines (typing_start _) _).1] at hlines
  revert hlines
  decide +kernel

end RenesasDemo.Cli
