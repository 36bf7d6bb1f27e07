import RenesasDemo.Framework.LittleEndian
import RenesasDemo.Framework.Segments
import Mathlib.Data.UInt

namespace RenesasDemo.Entropy

open Framework

/-- The error flags of the generator's status register, for seed and clock. -/
structure RngFlags where
  secs : Bool
  cecs : Bool
  deriving DecidableEq

def rngFlagSecs : RngFlags := ⟨true, false⟩

def rngFlagErrors : RngFlags := ⟨true, true⟩

/-- What the hardware does in one round of the loop. -/
structure RngRound where
  /-- The ticks since the time was looked at before. -/
  elapsed : Nat
  /-- `HAL_RNG_GenerateRandomNumber_IT` returns `HAL_OK`. -/
  started : Bool
  /-- An interrupt came before the time was over. -/
  notified : Bool
  status : RngFlags
  /-- `HAL_RNG_ReadLastRandomNumber` -/
  word : UInt32
  deriving DecidableEq

inductive RngRecovery where
  /-- `RNG_RecoverSeedError` -/
  | seedError
  /-- The generator's clock is switched off and on, and it is reset. -/
  | clockReset
  deriving DecidableEq

/-- Why the poll has no result. -/
inductive Unfinished where
  /-- A copy behind the end of the buffer, which C leaves undefined. -/
  | overrun
  /-- It is still in the loop after all the rounds. -/
  | running
  deriving DecidableEq

def mbedtlsEntropyTimeoutMs : Nat := 100

def mbedtlsErrEntropySourceFailed : Int := -0x3C

/-- What the poll calls outside: `__HAL_RNG_GET_FLAG`, and `xTaskCheckForTimeOut` of the kernel with
the rest of the time to wait, if any is left of it. -/
structure RngPort where
  halRngGetFlag : (status flag : RngFlags) → Bool
  xTaskCheckForTimeOut : (xTicksToWait elapsed : Nat) → Option Nat
  inTime : ∀ {xTicksToWait elapsed}, elapsed < xTicksToWait →
    xTaskCheckForTimeOut xTicksToWait elapsed = some (xTicksToWait - elapsed)
  tooLate : ∀ {xTicksToWait elapsed}, xTicksToWait ≤ elapsed →
    xTaskCheckForTimeOut xTicksToWait elapsed = none

structure PollState (uxBufferLen : Nat) where
  lError : Int
  xTicksToWait : Nat
  uxBytesWritten : Nat
  uxBytesRemaining : Nat
  pucOutputBuffer : Buffer UInt8 uxBufferLen
  recovered : List RngRecovery

def RngRound.bytes (r : RngRound) : List UInt8 := toBytes 4 r.word.toNat

section poll

variable {uxBufferLen : Nat} (port : RngPort)

def storeWord (s : PollState uxBufferLen) (r : RngRound) :
    Except Unfinished (PollState uxBufferLen) :=
  if 4 < s.uxBytesRemaining then
    match s.pucOutputBuffer.memcpy s.uxBytesWritten r.bytes with
    | none => .error .overrun
    | some b =>
        .ok { s with
          pucOutputBuffer := b
          uxBytesWritten := s.uxBytesWritten + 4
          uxBytesRemaining := s.uxBytesRemaining - 4 }
  else if 0 < s.uxBytesRemaining then
    match s.pucOutputBuffer.memcpy s.uxBytesWritten (r.bytes.take s.uxBytesRemaining) with
    | none => .error .overrun
    | some b =>
        .ok { s with
          pucOutputBuffer := b
          uxBytesWritten := uxBufferLen
          uxBytesRemaining := 0 }
  else .ok { s with uxBytesRemaining := 0 }

/-- The loop, with what the hardware does in its rounds. -/
def pollLoop : List RngRound → PollState uxBufferLen → Except Unfinished (PollState uxBufferLen)
  | [], s => if 0 < s.uxBytesRemaining then .error .running else .ok s
  | r :: rounds, s =>
      if 0 < s.uxBytesRemaining then
        match port.xTaskCheckForTimeOut s.xTicksToWait r.elapsed with
        | none => .ok { s with xTicksToWait := 0 }
        | some xTicksToWait =>
            let s := { s with xTicksToWait := xTicksToWait }
            if r.started = false then
              pollLoop rounds { s with lError := mbedtlsErrEntropySourceFailed }
            else if r.notified then
              if port.halRngGetFlag r.status rngFlagErrors then
                let recovery :=
                  if port.halRngGetFlag r.status rngFlagSecs then RngRecovery.seedError
                  else RngRecovery.clockReset
                pollLoop rounds { s with recovered := s.recovered ++ [recovery] }
              else (storeWord s r).bind (pollLoop rounds)
            else .ok { s with uxBytesRemaining := 0 }
      else .ok s

/-- The generator, its mutex and what happens while the poll runs. -/
structure RngEnvironment where
  /-- `pxHndlRng` is not NULL. -/
  pxHndlRng : Bool
  /-- The mutex was created before. -/
  xRngMutex : Bool
  /-- `xSemaphoreCreateMutex` succeeds. -/
  mutexCreated : Bool
  /-- `xSemaphoreTake` gets the mutex in time. -/
  taken : Bool
  rounds : List RngRound

/-- What is returned, what is behind the pointers, how often the mutex was taken and given. -/
structure PollResult (uxBufferLen : Nat) where
  lError : Int
  pucOutputBuffer : Option (Buffer UInt8 uxBufferLen)
  puxBytesWritten : Option Nat
  mutexTaken : Nat
  mutexGiven : Nat

def RngEnvironment.mutex (env : RngEnvironment) : Bool :=
  env.xRngMutex || (env.pxHndlRng && env.mutexCreated)

/-- `none` is NULL. -/
def mbedtlsHardwarePoll (env : RngEnvironment) (pucOutputBuffer : Option (Buffer UInt8 uxBufferLen))
    (puxBytesWritten : Option Nat) : Except Unfinished (PollResult uxBufferLen) :=
  match pucOutputBuffer, puxBytesWritten with
  | some b, some _ =>
      if env.mutex = false ∨ uxBufferLen = 0 ∨ env.pxHndlRng = false then
        .ok ⟨-1, pucOutputBuffer, puxBytesWritten, 0, 0⟩
      else if env.taken then
        (pollLoop port env.rounds
          ⟨0, mbedtlsEntropyTimeoutMs, 0, uxBufferLen, b, []⟩).map fun s =>
            ⟨s.lError, some s.pucOutputBuffer, some s.uxBytesWritten, 1, 1⟩
      else .ok ⟨0, some b, some 0, 0, 0⟩
  | _, _ => .ok ⟨-1, pucOutputBuffer, puxBytesWritten, 0, 0⟩

def RngRound.reads (r : RngRound) : Bool :=
  r.started && r.notified && !port.halRngGetFlag r.status rngFlagErrors

def RngRound.clean (r : RngRound) : Bool := !r.status.secs && !r.status.cecs

/-- The rounds that are gone through while `missing` words are missing. -/
def roundsRun : (xTicksToWait missing : Nat) → List RngRound → List RngRound
  | _, _, [] => []
  | xTicksToWait, missing, r :: rounds =>
      if missing = 0 then []
      else
        match port.xTaskCheckForTimeOut xTicksToWait r.elapsed with
        | none => []
        | some xTicksToWait =>
            r :: if r.started && !r.notified then []
              else roundsRun xTicksToWait
                (if r.reads port then missing - 1 else missing) rounds

def wordCount (n : Nat) : Nat := (n + 3) / 4

def readBytes (run : List RngRound) : List UInt8 :=
  (run.filter (RngRound.reads port)).flatMap RngRound.bytes

/-- What the rounds of `run` have made of the state. -/
structure Polled (s s' : PollState uxBufferLen) (run : List RngRound) : Prop where
  written : s'.uxBytesWritten =
    s.uxBytesWritten + ((readBytes port run).take s.uxBytesRemaining).length
  bytes : s'.pucOutputBuffer.bytes.take s'.uxBytesWritten =
    s.pucOutputBuffer.bytes.take s.uxBytesWritten ++
      (readBytes port run).take s.uxBytesRemaining
  lError : s'.lError =
    if run.all RngRound.started then s.lError else mbedtlsErrEntropySourceFailed

variable {port} {s s' : PollState uxBufferLen} {r : RngRound} {run rounds : List RngRound}

theorem take_memcpy {b b' : Buffer UInt8 uxBufferLen} {i : Nat} {src : List UInt8}
    (h : b.memcpy i src = some b') :
    b'.bytes.take (i + src.length) = b.bytes.take i ++ src := by
  obtain ⟨hle, hbytes⟩ := Buffer.memcpy_eq_some h
  have hi : (b.bytes.take i).length = i := by
    rw [List.length_take, b.length_bytes]
    omega
  rw [hbytes]
  exact List.take_left' (by rw [List.length_append, hi])

@[simp] theorem RngRound.length_bytes (r : RngRound) : r.bytes.length = 4 := toBytes_length 4 _

/-- A word is stored behind what was stored before, the last one cut to fit. -/
theorem storeWord_spec (r : RngRound)
    (hsum : s.uxBytesWritten + s.uxBytesRemaining = uxBufferLen) (hrem : 0 < s.uxBytesRemaining) :
    ∃ s', storeWord s r = .ok s' ∧ s'.lError = s.lError ∧ s'.xTicksToWait = s.xTicksToWait ∧
      s'.uxBytesWritten = s.uxBytesWritten + (r.bytes.take s.uxBytesRemaining).length ∧
      s'.uxBytesRemaining = s.uxBytesRemaining - 4 ∧
      s'.pucOutputBuffer.bytes.take s'.uxBytesWritten =
        s.pucOutputBuffer.bytes.take s.uxBytesWritten ++ r.bytes.take s.uxBytesRemaining := by
  have hfits : (r.bytes.take s.uxBytesRemaining).length = min s.uxBytesRemaining 4 := by
    rw [List.length_take, r.length_bytes]
  obtain ⟨b, hb, -⟩ := s.pucOutputBuffer.memcpy_of_le s.uxBytesWritten
    (r.bytes.take s.uxBytesRemaining) (by omega)
  have hstored := take_memcpy hb
  by_cases hlong : 4 < s.uxBytesRemaining
  · have hwhole : r.bytes.take s.uxBytesRemaining = r.bytes :=
      List.take_of_length_le (by rw [r.length_bytes]; omega)
    rw [hwhole] at hb hstored ⊢
    rw [r.length_bytes] at hstored ⊢
    refine ⟨{ s with
      pucOutputBuffer := b
      uxBytesWritten := s.uxBytesWritten + 4
      uxBytesRemaining := s.uxBytesRemaining - 4 }, ?_, rfl, rfl, rfl, rfl, hstored⟩
    rw [storeWord, if_pos hlong, hb]
  · have hend : s.uxBytesWritten + (r.bytes.take s.uxBytesRemaining).length = uxBufferLen := by
      omega
    rw [hend] at hstored ⊢
    refine ⟨{ s with
      pucOutputBuffer := b
      uxBytesWritten := uxBufferLen
      uxBytesRemaining := 0 }, ?_, rfl, rfl, rfl,
      (Nat.sub_eq_zero_of_le (Nat.le_of_not_lt hlong)).symm, hstored⟩
    rw [storeWord, if_neg hlong, if_pos hrem, hb]

theorem wordCount_sub {n : Nat} : wordCount (n - 4) = wordCount n - 1 := by
  unfold wordCount
  omega

theorem Polled.cons (hreads : r.reads port = false)
    (h : Polled port s s' run) {s0 : PollState uxBufferLen}
    (hwritten : s.uxBytesWritten = s0.uxBytesWritten)
    (hremaining : s.uxBytesRemaining = s0.uxBytesRemaining)
    (hbuffer : s.pucOutputBuffer = s0.pucOutputBuffer)
    (hlError : s.lError = if r.started then s0.lError else mbedtlsErrEntropySourceFailed) :
    Polled port s0 s' (r :: run) := by
  have hsame : readBytes port (r :: run) = readBytes port run := by
    rw [readBytes, List.filter_cons_of_neg (by simp [hreads]), readBytes]
  refine ⟨?_, ?_, ?_⟩
  · rw [hsame, ← hwritten, ← hremaining, h.written]
  · rw [hsame, ← hwritten, ← hremaining, ← hbuffer, h.bytes]
  · rw [h.lError, hlError, List.all_cons]
    cases r.started with
    | false => simp
    | true => simp

theorem Polled.consWord (hreads : r.reads port = true)
    (h : Polled port s s' run) {s0 : PollState uxBufferLen}
    (hwritten : s.uxBytesWritten =
      s0.uxBytesWritten + (r.bytes.take s0.uxBytesRemaining).length)
    (hremaining : s.uxBytesRemaining = s0.uxBytesRemaining - 4)
    (hbytes : s.pucOutputBuffer.bytes.take s.uxBytesWritten =
      s0.pucOutputBuffer.bytes.take s0.uxBytesWritten ++ r.bytes.take s0.uxBytesRemaining)
    (hlError : s.lError = s0.lError) : Polled port s0 s' (r :: run) := by
  have hstarted : r.started = true := by
    rw [RngRound.reads, Bool.and_eq_true, Bool.and_eq_true] at hreads
    exact hreads.1.1
  have hfirst : (readBytes port (r :: run)).take s0.uxBytesRemaining =
      r.bytes.take s0.uxBytesRemaining ++
        (readBytes port run).take s.uxBytesRemaining := by
    rw [readBytes, List.filter_cons_of_pos hreads, List.flatMap_cons, List.take_append,
      r.length_bytes, hremaining, readBytes]
  refine ⟨?_, ?_, ?_⟩
  · rw [h.written, hwritten, hfirst, List.length_append, Nat.add_assoc]
  · rw [h.bytes, hbytes, hfirst, List.append_assoc]
  · rw [h.lError, hlError, List.all_cons, hstarted, Bool.true_and]

/-- The error stays where it was set: it is gone only if no start failed. -/
theorem Polled.lError_eq_zero_iff (h : Polled port s s' run) (hzero : s.lError = 0) :
    s'.lError = 0 ↔ ∀ r ∈ run, r.started = true := by
  rw [← List.all_eq_true, h.lError, hzero]
  cases run.all RngRound.started with
  | false => simp [mbedtlsErrEntropySourceFailed]
  | true => simp

variable (port)

/-- A round in time, unless its interrupt stays out: the loop goes on with one word less missing if
the round reads one. -/
theorem pollLoop_round (rounds : List RngRound)
    (hsum : s.uxBytesWritten + s.uxBytesRemaining = uxBufferLen) (hrem : 0 < s.uxBytesRemaining)
    (hintime : r.elapsed < s.xTicksToWait) (hgoes : (r.started && !r.notified) = false) :
    ∃ s1, pollLoop port (r :: rounds) s = pollLoop port rounds s1 ∧
      s1.xTicksToWait = s.xTicksToWait - r.elapsed ∧
      s1.uxBytesWritten + s1.uxBytesRemaining = uxBufferLen ∧
      wordCount s1.uxBytesRemaining = (if r.reads port then
        wordCount s.uxBytesRemaining - 1 else wordCount s.uxBytesRemaining) ∧
      ∀ {s' run}, Polled port s1 s' run → Polled port s s' (r :: run) := by
  rw [pollLoop, if_pos hrem, port.inTime hintime]
  simp only
  cases hstarted : r.started with
  | false =>
    have hreads : r.reads port = false := by
      rw [RngRound.reads, hstarted]
      rfl
    rw [if_pos rfl, hreads]
    refine ⟨_, rfl, rfl, hsum, rfl, fun h => h.cons hreads rfl rfl rfl ?_⟩
    rw [hstarted]
    rfl
  | true =>
    have hnotified : r.notified = true := by
      rwa [hstarted, Bool.true_and, Bool.not_eq_false'] at hgoes
    rw [if_neg Bool.true_eq_false_eq_False, if_pos hnotified]
    by_cases hflag : port.halRngGetFlag r.status rngFlagErrors = true
    · have hreads : r.reads port = false := by
        rw [RngRound.reads, hflag, Bool.not_true, Bool.and_false]
      rw [if_pos hflag, hreads]
      refine ⟨_, rfl, rfl, hsum, rfl, fun h => h.cons hreads rfl rfl rfl ?_⟩
      rw [hstarted, if_pos rfl]
    · have hreads : r.reads port = true := by
        rw [RngRound.reads, hstarted, hnotified, Bool.eq_false_iff.mpr hflag]
        rfl
      rw [if_neg hflag, hreads]
      obtain ⟨s1, hstore, herror, hticks, hwritten, hremaining, hbytes⟩ := storeWord_spec
        (s := { s with xTicksToWait := s.xTicksToWait - r.elapsed }) r hsum hrem
      rw [hstore]
      refine ⟨s1, rfl, hticks, ?_, ?_,
        fun h => h.consWord hreads hwritten hremaining hbytes herror⟩
      · have hlength : (r.bytes.take s.uxBytesRemaining).length = min s.uxBytesRemaining 4 := by
          rw [List.length_take, r.length_bytes]
        simp only [hwritten, hremaining]
        omega
      · rw [hremaining, wordCount_sub, if_pos rfl]

/-- The loop ends before the time is over, and it stores what is read in the rounds it goes
through. -/
theorem pollLoop_spec (rounds : List RngRound) (s : PollState uxBufferLen)
    (hsum : s.uxBytesWritten + s.uxBytesRemaining = uxBufferLen) (hticks : 0 < s.xTicksToWait) :
    (pollLoop port rounds s = .error .running ∧
      (rounds.map RngRound.elapsed).sum < s.xTicksToWait) ∨
    ∃ s', pollLoop port rounds s = .ok s' ∧
      Polled port s s'
        (roundsRun port s.xTicksToWait (wordCount s.uxBytesRemaining) rounds) := by
  induction rounds generalizing s with
  | nil =>
    by_cases hrem : 0 < s.uxBytesRemaining
    · exact .inl ⟨by rw [pollLoop, if_pos hrem], hticks⟩
    · refine .inr ⟨s, by rw [pollLoop, if_neg hrem], ?_⟩
      constructor <;> simp [roundsRun, readBytes]
  | cons r rounds ih =>
    by_cases hrem : 0 < s.uxBytesRemaining
    case neg =>
      have hnone : wordCount s.uxBytesRemaining = 0 := by
        unfold wordCount
        omega
      refine .inr ⟨s, by rw [pollLoop, if_neg hrem], ?_⟩
      constructor <;> simp [roundsRun, hnone, readBytes]
    have hmissing : wordCount s.uxBytesRemaining ≠ 0 := by
      unfold wordCount
      omega
    rw [roundsRun, if_neg hmissing]
    by_cases hintime : r.elapsed < s.xTicksToWait
    case neg =>
      rw [pollLoop, if_pos hrem, port.tooLate (Nat.le_of_not_lt hintime)]
      refine .inr ⟨{ s with xTicksToWait := 0 }, rfl, ?_⟩
      constructor <;> simp [readBytes]
    cases hgoes : r.started && !r.notified with
    | true =>
      -- The interrupt stays out: the loop is left, the rest of the buffer is not asked for.
      obtain ⟨hstarted, hnotified⟩ := Bool.and_eq_true_iff.mp hgoes
      rw [Bool.not_eq_true'] at hnotified
      have hreads : r.reads port = false := by
        rw [RngRound.reads, hstarted, hnotified]
        rfl
      rw [pollLoop, if_pos hrem, port.inTime hintime]
      simp only [hstarted, hnotified]
      refine .inr ⟨{ s with
        xTicksToWait := s.xTicksToWait - r.elapsed
        uxBytesRemaining := 0 }, rfl, ?_⟩
      constructor <;> simp [readBytes, hreads, hstarted]
    | false =>
      obtain ⟨s1, hround, hticks1, hsum1, hwords, hpolled⟩ :=
        pollLoop_round port rounds hsum hrem hintime hgoes
      have hih := ih s1 hsum1 (hticks1 ▸ Nat.sub_pos_of_lt hintime)
      rw [hticks1, hwords] at hih
      rw [hround, port.inTime hintime]
      obtain ⟨hrun, hlt⟩ | ⟨s', hrun, h⟩ := hih
      · refine .inl ⟨hrun, ?_⟩
        rw [List.map_cons, List.sum_cons]
        omega
      · exact .inr ⟨s', hrun, hpolled h⟩

theorem length_reads_le (xTicksToWait missing : Nat) (rounds : List RngRound) :
    ((roundsRun port xTicksToWait missing rounds).filter
      (RngRound.reads port)).length ≤ missing := by
  induction rounds generalizing xTicksToWait missing with
  | nil => simp [roundsRun]
  | cons r rounds ih =>
    rw [roundsRun]
    split
    · exact Nat.zero_le _
    · next hmissing =>
      split
      · exact Nat.zero_le _
      · next rest _ =>
        cases hreads : r.reads port with
        | false =>
          rw [List.filter_cons_of_neg (by simp [hreads])]
          split
          · exact Nat.zero_le _
          · exact ih rest missing
        | true =>
          rw [List.filter_cons_of_pos hreads, List.length_cons]
          split
          · simp only [List.filter_nil, List.length_nil]
            omega
          · have hrest := ih rest (missing - 1)
            rw [if_pos rfl]
            omega

theorem length_flatMap_bytes (l : List RngRound) :
    (l.flatMap RngRound.bytes).length = 4 * l.length := by
  induction l with
  | nil => rfl
  | cons r l ih =>
    rw [List.flatMap_cons, List.length_append, r.length_bytes, ih, List.length_cons]
    omega

/-- To leave words out makes fewer bytes, as no more words are read than there is room for. -/
theorem take_filter_eq_iff {l : List RngRound} (hl : l.length ≤ wordCount uxBufferLen)
    (p : RngRound → Bool) :
    (l.flatMap RngRound.bytes).take uxBufferLen =
        ((l.filter p).flatMap RngRound.bytes).take uxBufferLen ↔ ∀ r ∈ l, p r = true := by
  constructor
  · intro heq
    have hlength := congrArg List.length heq
    rw [List.length_take, List.length_take, length_flatMap_bytes, length_flatMap_bytes] at hlength
    unfold wordCount at hl
    have hle := List.length_filter_le p l
    exact List.length_filter_eq_length_iff.mp (by omega)
  · intro hall
    rw [List.filter_eq_self.mpr hall]

end poll

section result

variable {uxBufferLen : Nat} (port : RngPort)
  (env : RngEnvironment)

def RngEnvironment.run (uxBufferLen : Nat) : List RngRound :=
  if env.mutex && env.pxHndlRng && env.taken then
    roundsRun port mbedtlsEntropyTimeoutMs (wordCount uxBufferLen) env.rounds
  else []

/-- The words that a call of the poll reads while no error flag is set, as bytes. -/
def RngEnvironment.errorFree (uxBufferLen : Nat) : List UInt8 :=
  (((env.run port uxBufferLen).filter (RngRound.reads port)).filter
    RngRound.clean).flatMap RngRound.bytes

/-- The poll returns, without a copy behind the buffer; its count is that of the bytes of the words
read without error, which begin the buffer; a full buffer is no error; the mutex is given back. -/
def PollRight (pucOutputBuffer : Buffer UInt8 uxBufferLen) (bytesWritten : Nat) : Prop :=
  ∃ result b w, mbedtlsHardwarePoll port env (some pucOutputBuffer) (some bytesWritten) =
      .ok result ∧ result.pucOutputBuffer = some b ∧ result.puxBytesWritten = some w ∧
    w ≤ uxBufferLen ∧ b.bytes.take w = (env.errorFree port uxBufferLen).take uxBufferLen ∧
    (w = uxBufferLen → result.lError = 0) ∧ result.mutexGiven = result.mutexTaken

variable {port env} {b : Buffer UInt8 uxBufferLen} {bytesWritten : Nat}

theorem pollRight_refused_iff (hn : 0 < uxBufferLen) (h : (env.mutex && env.pxHndlRng) = false) :
    PollRight port env b bytesWritten ↔ bytesWritten = 0 := by
  have hrefused : env.mutex = false ∨ uxBufferLen = 0 ∨ env.pxHndlRng = false := by
    rw [Bool.and_eq_false_iff] at h
    tauto
  have hcall : mbedtlsHardwarePoll port env (some b) (some bytesWritten) =
      .ok ⟨-1, some b, some bytesWritten, 0, 0⟩ := by
    rw [mbedtlsHardwarePoll, if_pos hrefused]
  have hfree : env.errorFree port uxBufferLen = [] := by
    rw [RngEnvironment.errorFree, RngEnvironment.run, h]
    rfl
  rw [PollRight, hcall, hfree, List.take_nil]
  constructor
  · rintro ⟨_, _, w, ⟨rfl⟩, ⟨rfl⟩, ⟨rfl⟩, hle, hbytes, -⟩
    have hlength := congrArg List.length hbytes
    rw [List.length_take, b.length_bytes, List.length_nil] at hlength
    omega
  · rintro rfl
    refine ⟨_, b, 0, rfl, rfl, rfl, Nat.zero_le _, List.take_zero, ?_, rfl⟩
    intro hzero
    omega

theorem RngEnvironment.ready (env : RngEnvironment) (hn : 0 < uxBufferLen)
    (h : (env.mutex && env.pxHndlRng) = true) :
    ¬ (env.mutex = false ∨ uxBufferLen = 0 ∨ env.pxHndlRng = false) := by
  obtain ⟨hmutex, hhandle⟩ := Bool.and_eq_true_iff.mp h
  rw [hmutex, hhandle]
  simp only [Bool.true_eq_false, or_false, false_or]
  exact Nat.ne_of_gt hn

theorem pollRight_of_not_taken (hn : 0 < uxBufferLen)
    (h : (env.mutex && env.pxHndlRng) = true) (htaken : env.taken = false) :
    PollRight port env b bytesWritten := by
  refine ⟨⟨0, some b, some 0, 0, 0⟩, b, 0, ?_, rfl, rfl, Nat.zero_le _, ?_, fun _ => rfl, rfl⟩
  · rw [mbedtlsHardwarePoll, if_neg (env.ready hn h), htaken]
    rfl
  · rw [RngEnvironment.errorFree, RngEnvironment.run, htaken, Bool.and_false]
    exact List.take_nil.symm

/-- With the mutex the poll returns before the time is over, and all is right unless a word is read
with an error flag set, or the buffer is filled after a failed start. -/
theorem pollRight_taken_iff (hn : 0 < uxBufferLen)
    (h : (env.mutex && env.pxHndlRng) = true) (htaken : env.taken = true) :
    (mbedtlsHardwarePoll port env (some b) (some bytesWritten) = .error .running ∧
      (env.rounds.map RngRound.elapsed).sum < mbedtlsEntropyTimeoutMs) ∨
    (PollRight port env b bytesWritten ↔
      (∀ r ∈ env.run port uxBufferLen, r.reads port → r.clean) ∧
      (((env.run port uxBufferLen).filter (RngRound.reads port)).length =
          wordCount uxBufferLen →
        ∀ r ∈ env.run port uxBufferLen, r.started)) := by
  have hrunall : env.run port uxBufferLen =
      roundsRun port mbedtlsEntropyTimeoutMs (wordCount uxBufferLen) env.rounds := by
    rw [RngEnvironment.run, h, htaken]
    rfl
  have hfree : env.errorFree port uxBufferLen =
      (((env.run port uxBufferLen).filter (RngRound.reads port)).filter
        RngRound.clean).flatMap RngRound.bytes := rfl
  have hpoll : mbedtlsHardwarePoll port env (some b) (some bytesWritten) =
      (pollLoop port env.rounds ⟨0, mbedtlsEntropyTimeoutMs, 0, uxBufferLen, b, []⟩).map
        fun s => ⟨s.lError, some s.pucOutputBuffer, some s.uxBytesWritten, 1, 1⟩ := by
    rw [mbedtlsHardwarePoll, if_neg (env.ready hn h), htaken]
    rfl
  obtain ⟨hrun, hlt⟩ | ⟨s, hrun, hpolled⟩ := pollLoop_spec port env.rounds
    ⟨0, mbedtlsEntropyTimeoutMs, 0, uxBufferLen, b, []⟩ (Nat.zero_add _) (Nat.zero_lt_succ 99)
  · left
    rw [hpoll, hrun]
    exact ⟨rfl, hlt⟩
  right
  rw [← hrunall] at hpolled
  have hcount := length_reads_le port mbedtlsEntropyTimeoutMs (wordCount uxBufferLen)
    env.rounds
  rw [← hrunall] at hcount
  generalize env.run port uxBufferLen = run at *
  have hbytes : s.pucOutputBuffer.bytes.take s.uxBytesWritten =
      (readBytes port run).take uxBufferLen := by
    rw [hpolled.bytes]
    rfl
  have hwritten : s.uxBytesWritten = min uxBufferLen
      (4 * (run.filter (RngRound.reads port)).length) := by
    rw [hpolled.written, Nat.zero_add, List.length_take, readBytes, length_flatMap_bytes]
  have hfull : s.uxBytesWritten = uxBufferLen ↔
      (run.filter (RngRound.reads port)).length = wordCount uxBufferLen := by
    rw [hwritten]
    unfold wordCount at *
    omega
  have hright : PollRight port env b bytesWritten ↔
      (readBytes port run).take uxBufferLen =
        (env.errorFree port uxBufferLen).take uxBufferLen ∧
      (s.uxBytesWritten = uxBufferLen → s.lError = 0) := by
    rw [PollRight, hpoll, hrun]
    constructor
    · rintro ⟨_, _, _, ⟨rfl⟩, ⟨rfl⟩, ⟨rfl⟩, -, hsame, hzero, -⟩
      exact ⟨hbytes.symm.trans hsame, hzero⟩
    · rintro ⟨hsame, hzero⟩
      refine ⟨_, _, _, rfl, rfl, rfl, ?_, hbytes.trans hsame, hzero, rfl⟩
      rw [hwritten]
      exact Nat.min_le_left _ _
  rw [hright, hfree, readBytes, take_filter_eq_iff hcount, hfull,
    hpolled.lError_eq_zero_iff rfl]
  simp only [List.mem_filter, and_imp]

/-- A poll returns before its time is over, and all is right exactly if the count was 0 before where
there is no mutex or generator, no word is read with an error flag set, and no start failed where
the last word is read. -/
theorem pollRight_iff (hn : 0 < uxBufferLen) (port : RngPort)
    (env : RngEnvironment) (b : Buffer UInt8 uxBufferLen) (bytesWritten : Nat) :
    (mbedtlsHardwarePoll port env (some b) (some bytesWritten) = .error .running ∧
      (env.rounds.map RngRound.elapsed).sum < mbedtlsEntropyTimeoutMs) ∨
    (PollRight port env b bytesWritten ↔
      ((env.mutex && env.pxHndlRng) = false → bytesWritten = 0) ∧
      (∀ r ∈ env.run port uxBufferLen, r.reads port → r.clean) ∧
      (((env.run port uxBufferLen).filter (RngRound.reads port)).length =
          wordCount uxBufferLen →
        ∀ r ∈ env.run port uxBufferLen, r.started)) := by
  cases h : (env.mutex && env.pxHndlRng) with
  | false =>
    right
    have hnone : env.run port uxBufferLen = [] := by
      rw [RngEnvironment.run, h]
      rfl
    rw [pollRight_refused_iff hn h, hnone]
    simp
  | true =>
    cases htaken : env.taken with
    | false =>
      right
      have hnone : env.run port uxBufferLen = [] := by
        rw [RngEnvironment.run, htaken, Bool.and_false]
        rfl
      rw [hnone]
      refine iff_of_true (pollRight_of_not_taken hn h htaken) ?_
      simp
    | true =>
      obtain hrunning | hright := pollRight_taken_iff hn h htaken
      · exact .inl hrunning
      · right
        rw [hright]
        simp

end result

/-- A mask is reported when all its flags are set. -/
def flagsPort : RngPort where
  halRngGetFlag status flag := (!flag.secs || status.secs) && (!flag.cecs || status.cecs)
  xTaskCheckForTimeOut xTicksToWait elapsed :=
    if elapsed < xTicksToWait then some (xTicksToWait - elapsed) else none
  inTime h := if_pos h
  tooLate h := if_neg (Nat.not_lt.mpr h)

/-- The first start fails in so many rounds, and a word is read in the next. -/
def startFails (failures : List Nat) : RngEnvironment where
  pxHndlRng := true
  xRngMutex := true
  mutexCreated := false
  taken := true
  rounds := failures.map (⟨·, false, false, ⟨false, false⟩, 0⟩) ++
    [⟨1, true, true, ⟨false, false⟩, 0x04030201⟩]

def emptyBuffer : Buffer UInt8 4 := ⟨List.replicate 4 0, rfl⟩

theorem pollRight_four :
    (mbedtlsHardwarePoll flagsPort (startFails []) (some emptyBuffer) (some 0) =
        .error .running ∧
      ((startFails []).rounds.map RngRound.elapsed).sum < mbedtlsEntropyTimeoutMs) ∨
    (PollRight flagsPort (startFails []) emptyBuffer 0 ↔
      (((startFails []).mutex && (startFails []).pxHndlRng) = false → (0 : Nat) = 0) ∧
      (∀ r ∈ (startFails []).run flagsPort 4, r.reads flagsPort → r.clean) ∧
      ((((startFails []).run flagsPort 4).filter (RngRound.reads flagsPort)).length =
          wordCount 4 →
        ∀ r ∈ (startFails []).run flagsPort 4, r.started)) :=
  pollRight_iff (by decide) flagsPort (startFails []) emptyBuffer 0

/-- After one failed start the buffer is filled, and the error is returned all the same. -/
theorem poll_not_right : ¬ PollRight flagsPort (startFails [1]) emptyBuffer 0 := by
  rintro ⟨result, b, w, hcall, -, hw, -, -, hzero, -⟩
  have hfailed : (mbedtlsHardwarePoll flagsPort (startFails [1]) (some emptyBuffer)
      (some 0)).map (fun r => (r.lError, r.puxBytesWritten)) = .ok (-60, some 4) := by
    rfl
  rw [hcall] at hfailed
  obtain ⟨herror, hcount⟩ := Prod.mk.inj (Except.ok.inj hfailed)
  rw [hw] at hcount
  rw [hzero (Option.some.inj hcount)] at herror
  exact absurd herror (by decide)

end RenesasDemo.Entropy
