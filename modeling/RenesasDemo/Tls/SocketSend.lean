import Mathlib.Algebra.BigOperators.Group.List.Basic
import Mathlib.Algebra.GroupWithZero.Nat

namespace RenesasDemo.Tls

/-- The values of `errno.h` that the loop tells apart; EAGAIN and EWOULDBLOCK may be the same. -/
structure ErrnoValues where
  EINTR : Int
  EAGAIN : Int
  EWOULDBLOCK : Int
  EPIPE : Int
  ECONNRESET : Int
  eintr_pos : 0 < EINTR
  eagain_pos : 0 < EAGAIN
  ewouldblock_pos : 0 < EWOULDBLOCK

def ErrnoValues.newlib : ErrnoValues :=
  ⟨4, 11, 11, 32, 104, by decide, by decide, by decide⟩

def mbedtlsErrNetSocketFailed : Int := -0x0042

def mbedtlsErrNetSendFailed : Int := -0x004E

def mbedtlsErrNetConnReset : Int := -0x0050

/-- `ssize_t` has 32 bits. -/
abbrev ssizeMax : Nat := 2 ^ 31 - 1

/-- What `sock_send` does when it is offered `uxLen` bytes. -/
inductive SendOutcome (uxLen : Nat) where
  | sent (count : Nat) (pos : 0 < count) (fits : count ≤ min uxLen ssizeMax)
  | error (errno : Int)

/-- The variables of `mbedtls_ssl_send`, what the socket has accepted, and the errors so far. -/
structure SendState where
  lError : Int
  uxBytesSent : Nat
  ulBackofftimeMs : Nat
  accepted : List UInt8
  errnos : List Int

section send

variable (errno : ErrnoValues) (pcBuf : List UInt8) (uxLen : Nat)

/-- `lError` behind the switch. -/
def prvSendError (lError : Int) : Int :=
  if lError = errno.EAGAIN ∨ lError = errno.EINTR ∨ lError = errno.EWOULDBLOCK then lError
  else if lError = errno.EPIPE ∨ lError = errno.ECONNRESET then mbedtlsErrNetConnReset
  else mbedtlsErrNetSendFailed

/-- One pass of the loop: the socket is offered the buffer from its beginning. -/
def sendPass (s : SendState) : SendOutcome uxLen → SendState
  | .sent count _ _ =>
      { s with
        uxBytesSent := (s.uxBytesSent + count) % 2 ^ 32
        accepted := s.accepted ++ pcBuf.take count }
  | .error e =>
      let s := { s with errnos := s.errnos ++ [e] }
      if prvSendError errno e = errno.EWOULDBLOCK then
        { s with lError := 0, ulBackofftimeMs := s.ulBackofftimeMs * 2 % 2 ^ 32 }
      else { s with lError := prvSendError errno e }

/-- The loop; none if it still goes on after the outcomes. -/
def sendLoop : List (SendOutcome uxLen) → SendState → Option SendState
  | [], s => if s.uxBytesSent < uxLen ∧ s.lError = 0 then none else some s
  | o :: outcomes, s =>
      if s.uxBytesSent < uxLen ∧ s.lError = 0 then
        sendLoop outcomes (sendPass errno pcBuf uxLen s o)
      else some s

/-- The conversion of a `size_t` to `int`. -/
def sizeToInt (x : Nat) : Int := (x + 2 ^ 31) % 2 ^ 32 - 2 ^ 31

structure SendResult where
  value : Int
  accepted : List UInt8
  errnos : List Int
  deriving DecidableEq

/-- `pxSockHandle` is none for NULL. -/
def mbedtlsSslSend (pxSockHandle : Option Int) (outcomes : List (SendOutcome uxLen)) :
    Option SendResult :=
  let init : SendState := ⟨0, 0, 1, [], []⟩
  let final :=
    if pxSockHandle.all (· < 0) then some { init with lError := mbedtlsErrNetSocketFailed }
    else sendLoop errno pcBuf uxLen outcomes init
  final.map fun s =>
    ⟨if s.lError < 0 then s.lError else sizeToInt s.uxBytesSent, s.accepted, s.errnos⟩

end send

/-- Neither would-block nor interrupted. -/
def ErrnoValues.Fatal (errno : ErrnoValues) (e : Int) : Prop :=
  e ≠ errno.EAGAIN ∧ e ≠ errno.EINTR ∧ e ≠ errno.EWOULDBLOCK

instance (errno : ErrnoValues) (e : Int) : Decidable (errno.Fatal e) :=
  inferInstanceAs (Decidable (_ ∧ _ ∧ _))

/-- Whatever is in the buffer: the socket accepted its bytes up to the value returned, in order;
the value is negative only for want of a socket or after a fatal error. -/
def DeliversInOrder (errno : ErrnoValues) (pxSockHandle : Option Int) (uxLen : Nat)
    (outcomes : List (SendOutcome uxLen)) : Prop :=
  ∀ pcBuf : List UInt8, pcBuf.length = uxLen → ∀ r,
    mbedtlsSslSend errno pcBuf uxLen pxSockHandle outcomes = some r →
      (0 ≤ r.value → r.value ≤ uxLen ∧ r.accepted = pcBuf.take r.value.toNat) ∧
      (r.value < 0 → pxSockHandle.all (· < 0) = true ∨ ∃ e ∈ r.errnos, errno.Fatal e)

/-- The outcomes up to the end of a call: how much the socket took each time, and whether a fatal
error was the end. -/
structure SendEnding where
  counts : List Nat
  fatal : Bool
  deriving DecidableEq

/-- The call ends when the counts add up to the length, or with an error other than would-block;
none if it does not end. -/
def sendEnding (errno : ErrnoValues) {uxLen : Nat} :
    List (SendOutcome uxLen) → Nat → Option SendEnding
  | [], sum => if sum < uxLen then none else some ⟨[], false⟩
  | .sent count _ _ :: outcomes, sum =>
      if sum < uxLen then
        (sendEnding errno outcomes ((sum + count) % 2 ^ 32)).map fun e =>
          ⟨count :: e.counts, e.fatal⟩
      else some ⟨[], false⟩
  | .error e :: outcomes, sum =>
      if sum < uxLen then
        if e = errno.EWOULDBLOCK then sendEnding errno outcomes sum
        else some ⟨[], decide (errno.Fatal e)⟩
      else some ⟨[], false⟩

/-- A call on a socket that does not end with a fatal error has bytes accepted at most once. -/
def SentAtOnce (errno : ErrnoValues) (pxSockHandle : Option Int) {uxLen : Nat}
    (outcomes : List (SendOutcome uxLen)) : Prop :=
  pxSockHandle.all (· < 0) = false → ∀ e, sendEnding errno outcomes 0 = some e →
    e.fatal = false → e.counts.length ≤ 1

section loop

variable {errno : ErrnoValues} {pcBuf : List UInt8} {uxLen : Nat}

theorem prvSendError_fatal {e : Int} (h : errno.Fatal e) : prvSendError errno e < 0 := by
  obtain ⟨ha, hi, hw⟩ := h
  have hnot : ¬ (e = errno.EAGAIN ∨ e = errno.EINTR ∨ e = errno.EWOULDBLOCK) := by
    intro h
    obtain h | h | h := h
    · exact ha h
    · exact hi h
    · exact hw h
  rw [prvSendError, if_neg hnot]
  split <;> decide

theorem prvSendError_notFatal {e : Int} (h : ¬ errno.Fatal e) :
    prvSendError errno e = e ∧ 0 < e := by
  have hor : e = errno.EAGAIN ∨ e = errno.EINTR ∨ e = errno.EWOULDBLOCK := by
    by_contra hnot
    exact h ⟨fun h => hnot (.inl h), fun h => hnot (.inr (.inl h)), fun h => hnot (.inr (.inr h))⟩
  rw [prvSendError, if_pos hor]
  refine ⟨rfl, ?_⟩
  obtain rfl | rfl | rfl := hor
  · exact errno.eagain_pos
  · exact errno.eintr_pos
  · exact errno.ewouldblock_pos

/-- What the loop has done when it ends, read from the outcomes alone. -/
structure EndsAs (errno : ErrnoValues) (pcBuf : List UInt8) (s t : SendState)
    (e : SendEnding) : Prop where
  accepted : t.accepted = s.accepted ++ e.counts.flatMap fun count => pcBuf.take count
  bytesSent : t.uxBytesSent = (s.uxBytesSent + e.counts.sum) % 2 ^ 32
  fatal : t.lError < 0 ↔ e.fatal = true
  errnos : ∃ later, t.errnos = s.errnos ++ later ∧
    ((∃ x ∈ later, errno.Fatal x) ↔ e.fatal = true)

theorem EndsAs.refl {s : SendState} (h0 : s.lError = 0) (hsum : s.uxBytesSent < 2 ^ 32) :
    EndsAs errno pcBuf s s ⟨[], false⟩ where
  accepted := (List.append_nil _).symm
  bytesSent := (Nat.mod_eq_of_lt hsum).symm
  fatal := by simp [h0]
  errnos := ⟨[], (List.append_nil _).symm, by simp⟩

/-- An error code other than would-block stays in `lError`. -/
theorem prvSendError_stops {x : Int} (h : x ≠ errno.EWOULDBLOCK) :
    prvSendError errno x ≠ errno.EWOULDBLOCK ∧ prvSendError errno x ≠ 0 ∧
      (prvSendError errno x < 0 ↔ errno.Fatal x) := by
  by_cases hf : errno.Fatal x
  · have hneg := prvSendError_fatal hf
    have hpos := errno.ewouldblock_pos
    exact ⟨by omega, by omega, iff_of_true hneg hf⟩
  · obtain ⟨hcode, hpos⟩ := prvSendError_notFatal hf
    rw [hcode]
    exact ⟨h, by omega, iff_of_false (by omega) hf⟩

theorem sendPass_wouldBlock (s : SendState) :
    sendPass errno pcBuf uxLen s (.error errno.EWOULDBLOCK) =
      { s with
        lError := 0
        ulBackofftimeMs := s.ulBackofftimeMs * 2 % 2 ^ 32
        errnos := s.errnos ++ [errno.EWOULDBLOCK] } := by
  have hcode : prvSendError errno errno.EWOULDBLOCK = errno.EWOULDBLOCK :=
    if_pos (.inr (.inr rfl))
  exact if_pos hcode

theorem sendPass_stops (s : SendState) {x : Int} (h : x ≠ errno.EWOULDBLOCK) :
    sendPass errno pcBuf uxLen s (.error x) =
      { s with lError := prvSendError errno x, errnos := s.errnos ++ [x] } :=
  if_neg (prvSendError_stops h).1

theorem EndsAs.sent {s t : SendState} {e : SendEnding} {count : Nat} {hpos : 0 < count}
    {hfits : count ≤ min uxLen ssizeMax}
    (h : EndsAs errno pcBuf (sendPass errno pcBuf uxLen s (.sent count hpos hfits)) t e) :
    EndsAs errno pcBuf s t ⟨count :: e.counts, e.fatal⟩ := by
  refine ⟨?_, ?_, h.fatal, h.errnos⟩
  · rw [h.accepted, List.flatMap_cons, ← List.append_assoc]
    rfl
  · rw [h.bytesSent, List.sum_cons]
    simp only [sendPass]
    omega

theorem EndsAs.wouldBlock {s t : SendState} {e : SendEnding}
    (h : EndsAs errno pcBuf (sendPass errno pcBuf uxLen s (.error errno.EWOULDBLOCK)) t e) :
    EndsAs errno pcBuf s t e := by
  rw [sendPass_wouldBlock] at h
  obtain ⟨later, hlater, hfatal⟩ := h.errnos
  have hnot : ¬ errno.Fatal errno.EWOULDBLOCK := fun hf => hf.2.2 rfl
  refine ⟨h.accepted, h.bytesSent, h.fatal, errno.EWOULDBLOCK :: later, ?_, ?_⟩
  · rw [hlater, List.append_assoc]
    rfl
  · rw [← hfatal, List.exists_mem_cons_iff]
    exact or_iff_right hnot

theorem EndsAs.stopped {s : SendState} (hsum : s.uxBytesSent < 2 ^ 32) {x : Int}
    (h : x ≠ errno.EWOULDBLOCK) :
    EndsAs errno pcBuf s (sendPass errno pcBuf uxLen s (.error x))
      ⟨[], decide (errno.Fatal x)⟩ := by
  rw [sendPass_stops s h]
  refine ⟨(List.append_nil _).symm, (Nat.mod_eq_of_lt hsum).symm, ?_, [x], rfl, ?_⟩
  · rw [decide_eq_true_eq]
    exact (prvSendError_stops h).2.2
  · simp

theorem sendLoop_stop (outcomes : List (SendOutcome uxLen)) {s : SendState}
    (h : ¬ (s.uxBytesSent < uxLen ∧ s.lError = 0)) :
    sendLoop errno pcBuf uxLen outcomes s = some s := by
  cases outcomes <;> exact if_neg h

theorem sendEnding_stop (outcomes : List (SendOutcome uxLen)) {sum : Nat} (h : ¬ sum < uxLen) :
    sendEnding errno outcomes sum = some ⟨[], false⟩ := by
  match outcomes with
  | [] => exact if_neg h
  | .sent _ _ _ :: _ => exact if_neg h
  | .error _ :: _ => exact if_neg h

theorem rel_map {α β γ : Type} {R : α → β → Prop} {R' : γ → β → Prop} {f : α → γ}
    {a : Option α} {b : Option β} (h : Option.Rel R a b) (himp : ∀ a b, R a b → R' (f a) b) :
    Option.Rel R' (a.map f) b := by
  cases h with
  | some hr => exact .some (himp _ _ hr)
  | none => exact .none

/-- The loop comes to the end that the outcomes give it. -/
theorem sendLoop_ends (errno : ErrnoValues) (pcBuf : List UInt8)
    (outcomes : List (SendOutcome uxLen)) {s : SendState} (h0 : s.lError = 0)
    (hsum : s.uxBytesSent < 2 ^ 32) :
    Option.Rel (fun e t => EndsAs errno pcBuf s t e) (sendEnding errno outcomes s.uxBytesSent)
      (sendLoop errno pcBuf uxLen outcomes s) := by
  induction outcomes generalizing s with
  | nil =>
    by_cases hlt : s.uxBytesSent < uxLen
    · rw [sendEnding, sendLoop, if_pos hlt, if_pos ⟨hlt, h0⟩]
      exact .none
    · rw [sendEnding_stop [] hlt, sendLoop_stop [] fun h => hlt h.1]
      exact .some (.refl h0 hsum)
  | cons o outcomes ih =>
    by_cases hlt : s.uxBytesSent < uxLen
    · rw [sendLoop, if_pos ⟨hlt, h0⟩]
      cases o with
      | sent count hpos hfits =>
        have hnext := ih (s := sendPass errno pcBuf uxLen s (.sent count hpos hfits)) h0
          (Nat.mod_lt _ (by decide))
        rw [sendEnding, if_pos hlt]
        exact rel_map hnext fun _ _ => EndsAs.sent
      | error x =>
        rw [sendEnding, if_pos hlt]
        by_cases hwould : x = errno.EWOULDBLOCK
        · subst hwould
          have hsent : (sendPass errno pcBuf uxLen s (.error errno.EWOULDBLOCK)).uxBytesSent =
              s.uxBytesSent := by rw [sendPass_wouldBlock]
          have hnext := ih (s := sendPass errno pcBuf uxLen s (.error errno.EWOULDBLOCK))
            (by rw [sendPass_wouldBlock]) (hsent ▸ hsum)
          rw [hsent] at hnext
          rw [if_pos rfl,
            ← Option.map_id_apply (x := sendEnding errno outcomes s.uxBytesSent)]
          exact rel_map hnext fun _ _ => EndsAs.wouldBlock
        · rw [if_neg hwould, sendLoop_stop]
          · exact .some (.stopped hsum hwould)
          · rw [sendPass_stops s hwould]
            exact fun h => (prvSendError_stops hwould).2.1 h.2
    · rw [sendEnding_stop (o :: outcomes) hlt, sendLoop_stop (o :: outcomes) fun h => hlt h.1]
      exact .some (.refl h0 hsum)

/-- Each count is what one send can take, and a second one follows only on a partial one. -/
theorem sendEnding_counts {outcomes : List (SendOutcome uxLen)} {sum : Nat} {e : SendEnding}
    (h : sendEnding errno outcomes sum = some e) :
    (∀ count ∈ e.counts, 0 < count ∧ count ≤ min uxLen ssizeMax) ∧
      ∀ c c' rest, e.counts = c :: c' :: rest → (sum + c) % 2 ^ 32 < uxLen := by
  induction outcomes generalizing sum e with
  | nil =>
    rw [sendEnding] at h
    split at h
    · cases h
    · rw [← Option.some.inj h]
      exact ⟨fun _ hc => absurd hc List.not_mem_nil, fun _ _ _ hc => by cases hc⟩
  | cons o outcomes ih =>
    have hempty : ∀ e' : SendEnding, e'.counts = [] →
        (∀ count ∈ e'.counts, 0 < count ∧ count ≤ min uxLen ssizeMax) ∧
          ∀ c c' rest, e'.counts = c :: c' :: rest → (sum + c) % 2 ^ 32 < uxLen := by
      intro e' he'
      rw [he']
      exact ⟨fun _ hc => absurd hc List.not_mem_nil, fun _ _ _ hc => by cases hc⟩
    cases o with
    | sent count pos fits =>
      rw [sendEnding] at h
      split at h
      · obtain ⟨e', he', rfl⟩ := Option.map_eq_some_iff.mp h
        obtain ⟨hall, -⟩ := ih he'
        refine ⟨List.forall_mem_cons.mpr ⟨⟨pos, fits⟩, hall⟩, ?_⟩
        intro c c' rest hc
        obtain ⟨rfl, hrest⟩ := List.cons.inj hc
        -- the rest of the outcomes ended with a count, so the loop went on
        by_contra hge
        rw [sendEnding_stop outcomes hge] at he'
        rw [← Option.some.inj he'] at hrest
        cases hrest
      · rw [← Option.some.inj h]
        exact hempty _ rfl
    | error x =>
      rw [sendEnding] at h
      split at h
      · split at h
        · exact ih h
        · rw [← Option.some.inj h]
          exact hempty _ rfl
      · rw [← Option.some.inj h]
        exact hempty _ rfl

end loop

section delivery

variable {errno : ErrnoValues} {pcBuf : List UInt8} {uxLen : Nat} {pxSockHandle : Option Int}

theorem mbedtlsSslSend_ends (errno : ErrnoValues) (pcBuf : List UInt8)
    (hsock : pxSockHandle.all (· < 0) = false)
    (outcomes : List (SendOutcome uxLen)) :
    (sendEnding errno outcomes 0 = none →
      mbedtlsSslSend errno pcBuf uxLen pxSockHandle outcomes = none) ∧
    ∀ e, sendEnding errno outcomes 0 = some e → ∃ r,
      mbedtlsSslSend errno pcBuf uxLen pxSockHandle outcomes = some r ∧
        r.accepted = e.counts.flatMap (fun count => pcBuf.take count) ∧
        ((∃ x ∈ r.errnos, errno.Fatal x) ↔ e.fatal = true) ∧
        (e.fatal = true → r.value < 0) ∧
        (e.fatal = false → r.value = sizeToInt (e.counts.sum % 2 ^ 32)) := by
  have hends : Option.Rel (fun e t => EndsAs errno pcBuf ⟨0, 0, 1, [], []⟩ t e)
      (sendEnding errno outcomes 0) (sendLoop errno pcBuf uxLen outcomes ⟨0, 0, 1, [], []⟩) :=
    sendLoop_ends errno pcBuf outcomes rfl (by decide)
  have hsend : mbedtlsSslSend errno pcBuf uxLen pxSockHandle outcomes =
      (sendLoop errno pcBuf uxLen outcomes ⟨0, 0, 1, [], []⟩).map fun s =>
        ⟨if s.lError < 0 then s.lError else sizeToInt s.uxBytesSent, s.accepted, s.errnos⟩ := by
    rw [mbedtlsSslSend, if_neg (by rw [hsock]; decide)]
  rw [hsend]
  generalize sendEnding errno outcomes 0 = ending at hends ⊢
  generalize sendLoop errno pcBuf uxLen outcomes ⟨0, 0, 1, [], []⟩ = loop at hends ⊢
  cases hends with
  | none => exact ⟨fun _ => rfl, fun e he => (by cases he)⟩
  | @some _ t hloop =>
    refine ⟨fun h => (by cases h), ?_⟩
    intro e he
    obtain rfl := Option.some.inj he
    obtain ⟨haccepted, hsent, hfatal, later, hlater, herrnos⟩ := hloop
    refine ⟨_, rfl, haccepted, ?_, ?_, ?_⟩
    · rw [← herrnos]
      simp only [hlater, List.nil_append]
    · intro hf
      have hneg := hfatal.mpr hf
      simp only [if_pos hneg]
      exact hneg
    · intro hf
      have hnot : ¬ t.lError < 0 := fun h => by
        rw [hfatal.mp h] at hf
        cases hf
      simp only [if_neg hnot, hsent, Nat.zero_add]

/-- A second send has the beginning of the buffer accepted again. -/
theorem accepted_ne_take {counts : List Nat} {c c' r : Nat} (hc : 0 < c) (hc' : 0 < c')
    (hlt : c < uxLen) :
    (c :: c' :: counts).flatMap (fun count =>
        (1 :: List.replicate (uxLen - 1) (0 : UInt8)).take count) ≠
      (1 :: List.replicate (uxLen - 1) (0 : UInt8)).take r := by
  intro h
  have hat := congrArg (·[c]?) h
  have hlen : ((1 :: List.replicate (uxLen - 1) (0 : UInt8)).take c).length = c := by
    rw [List.length_take, List.length_cons, List.length_replicate]
    omega
  have hleft : ((c :: c' :: counts).flatMap (fun count =>
      (1 :: List.replicate (uxLen - 1) (0 : UInt8)).take count))[c]? = some 1 := by
    rw [List.flatMap_cons, List.getElem?_append_right (by omega), hlen, Nat.sub_self,
      List.flatMap_cons]
    obtain ⟨m, rfl⟩ := Nat.exists_eq_succ_of_ne_zero (Nat.ne_of_gt hc')
    rfl
  rw [hleft, List.getElem?_take] at hat
  split at hat
  · obtain ⟨m, rfl⟩ := Nat.exists_eq_succ_of_ne_zero (Nat.ne_of_gt hc)
    rw [Nat.succ_eq_add_one, List.getElem?_cons_succ, List.getElem?_replicate] at hat
    split at hat
    · exact absurd (Option.some.inj hat) (by decide)
    · cases hat
  · cases hat

/-- A send delivers its buffer exactly when the socket takes bytes at most once, or a fatal error
ends the call. -/
theorem deliversInOrder_iff (errno : ErrnoValues) (pxSockHandle : Option Int) (uxLen : Nat)
    (outcomes : List (SendOutcome uxLen)) :
    DeliversInOrder errno pxSockHandle uxLen outcomes ↔
      SentAtOnce errno pxSockHandle outcomes := by
  constructor
  · intro h hsock e he hf
    by_contra hmany
    obtain ⟨hall, hpartial⟩ := sendEnding_counts he
    match hcounts : e.counts with
    | [] => simp [hcounts] at hmany
    | [c] => simp [hcounts] at hmany
    | c :: c' :: rest =>
      have hc := hall c (by simp [hcounts])
      have hc' := hall c' (by simp [hcounts])
      have hlt : c < uxLen := by
        have hmod := hpartial c c' rest hcounts
        simp only [ssizeMax] at hc
        omega
      have hlen : (1 :: List.replicate (uxLen - 1) (0 : UInt8)).length = uxLen := by
        rw [List.length_cons, List.length_replicate]
        omega
      obtain ⟨r, hr, haccepted, herrnos, -, hvalue⟩ := (mbedtlsSslSend_ends errno
        (1 :: List.replicate (uxLen - 1) (0 : UInt8)) hsock outcomes).2 e he
      obtain ⟨hpos, hneg⟩ := h _ hlen r hr
      by_cases hsign : 0 ≤ r.value
      · have htake := (hpos hsign).2
        rw [haccepted, hcounts] at htake
        exact accepted_ne_take hc.1 hc'.1 hlt htake
      · obtain hbad | hbad := hneg (Int.not_le.mp hsign)
        · rw [hsock] at hbad
          cases hbad
        · rw [herrnos.mp hbad] at hf
          cases hf
  · intro h pcBuf hlen r hr
    by_cases hsock : pxSockHandle.all (· < 0) = true
    · have hvalue : r.value = mbedtlsErrNetSocketFailed := by
        rw [mbedtlsSslSend, if_pos hsock] at hr
        rw [← Option.some.inj hr]
        rfl
      refine ⟨?_, fun _ => .inl hsock⟩
      intro hpos
      rw [hvalue] at hpos
      exact absurd hpos (by decide)
    · have hsock' : pxSockHandle.all (· < 0) = false := Bool.eq_false_iff.mpr hsock
      obtain ⟨hnone, hsome⟩ := mbedtlsSslSend_ends errno pcBuf hsock' outcomes
      cases he : sendEnding errno outcomes 0 with
      | none =>
        rw [hnone he] at hr
        cases hr
      | some e =>
        obtain ⟨r', hr', haccepted, herrnos, hfatal, hvalue⟩ := hsome e he
        obtain rfl := Option.some.inj (hr.symm.trans hr')
        cases hf : e.fatal with
        | true =>
          have hneg := hfatal hf
          exact ⟨fun hpos => absurd hneg (Int.not_lt.mpr hpos),
            fun _ => .inr (herrnos.mpr hf)⟩
        | false =>
          have hval := hvalue hf
          have hcount := h hsock' e he hf
          match hcounts : e.counts with
          | [] =>
            rw [hcounts] at haccepted hval
            have hzero : r.value = 0 := hval
            rw [hzero, haccepted]
            exact ⟨fun _ => ⟨Int.natCast_nonneg _, rfl⟩, fun hneg => absurd hneg (by decide)⟩
          | [c] =>
            have hc := (sendEnding_counts he).1 c (by simp [hcounts])
            have hval' : r.value = c := by
              rw [hval, hcounts]
              simp only [List.sum_cons, List.sum_nil, Nat.add_zero, sizeToInt]
              simp only [ssizeMax] at hc
              omega
            rw [hcounts] at haccepted
            rw [hval', haccepted, Int.toNat_natCast]
            refine ⟨fun _ => ⟨by omega, by simp⟩, ?_⟩
            intro hneg
            omega
          | c :: c' :: rest => simp [hcounts] at hcount

/-- The socket takes one byte and then the other: it has taken the first one twice. -/
theorem not_deliversInOrder_partial :
    ¬ DeliversInOrder .newlib (some 3) 2
      [.sent 1 (by decide) (by decide), .sent 1 (by decide) (by decide)] := by
  intro h
  have hsend := (h [1, 2] rfl ⟨2, [1, 1], []⟩ (by decide)).1 (by decide)
  exact absurd hsend.2 (by decide)

end delivery

end RenesasDemo.Tls
