import RenesasDemo.Framework.Runs

namespace RenesasDemo.Framework

/-- One notification of a task: its value, and whether it is pending. -/
structure Mailbox (α : Type*) where
  value : α
  pending : Bool
  deriving DecidableEq

/-- How a task waits: whether it clears the state before its call, and the value on entry. -/
structure WaitPolicy where
  clears : Bool
  clearsOnEntry : Bool

/-- Where a task is in a call that it makes and waits for. -/
inductive CallPc where
  | idle
  | calling (n : Nat)
  | called (n : Nat)
  | waiting (n : Nat)
  deriving DecidableEq

inductive CallEvent where
  | start
  | refuse
  | accept
  /-- The callback for call `m` begins. -/
  | complete (m : Nat)
  | notify
  | enter
  | take
  | timeOut
  /-- Callbacks that begin from now on are dropped. -/
  | close
  deriving DecidableEq

/-- A task that numbers its calls, the agent that completes them, and the notification between. -/
structure Caller (α : Type*) where
  box : Mailbox α
  /-- The call that the value is about. -/
  source : Nat
  listening : Bool
  /-- Calls that were accepted and whose callback did not begin. -/
  outstanding : List Nat
  delivering : Option Nat
  pc : CallPc
  made : Nat
  deriving DecidableEq

namespace Caller

variable {α : Type*} (p : WaitPolicy) (zero : α) (status : Nat → α) {s t : Caller α}

def init : Caller α := ⟨⟨zero, false⟩, 0, false, [], none, .idle, 0⟩

def Enabled (s : Caller α) : CallEvent → Prop
  | .start => s.pc = .idle
  | .refuse => ∃ n, s.pc = .calling n
  | .accept => ∃ n, s.pc = .calling n
  | .complete m => m ∈ s.outstanding ∧ s.delivering = none
  | .notify => s.delivering ≠ none
  | .enter => ∃ n, s.pc = .called n
  | .take => (∃ n, s.pc = .waiting n) ∧ s.box.pending = true
  | .timeOut => (∃ n, s.pc = .waiting n) ∧ s.box.pending = false
  | .close => s.pc = .idle

def next (s : Caller α) : CallEvent → Caller α
  | .start =>
      { s with
        box := if p.clears then { s.box with pending := false } else s.box
        listening := true
        pc := .calling s.made
        made := s.made + 1 }
  | .refuse => { s with pc := .idle }
  | .accept =>
      match s.pc with
      | .calling n => { s with outstanding := n :: s.outstanding, pc := .called n }
      | _ => s
  | .complete m =>
      { s with
        outstanding := s.outstanding.erase m
        delivering := if s.listening then some m else none }
  | .notify =>
      match s.delivering with
      | some m => { s with box := ⟨status m, true⟩, source := m, delivering := none }
      | none => s
  | .enter =>
      match s.pc with
      | .called n =>
          { s with
            box := if p.clearsOnEntry && !s.box.pending then ⟨zero, false⟩ else s.box
            pc := .waiting n }
      | _ => s
  | .take => { s with box := ⟨zero, false⟩, pc := .idle }
  | .timeOut => { s with pc := .idle }
  | .close => { s with listening := false }

def Step (s : Caller α) (e : CallEvent) (t : Caller α) : Prop :=
  s.Enabled e ∧ t = s.next p zero status e

/-- What is in the mailbox, or on its way there, is about a call that was made. -/
structure Known (s : Caller α) : Prop where
  outstanding : ∀ m ∈ s.outstanding, m < s.made
  delivering : ∀ m ∈ s.delivering, m < s.made
  pending : s.box.pending = true → s.source < s.made ∧ s.box.value = status s.source
  calling : ∀ n, s.pc = .calling n ∨ s.pc = .called n ∨ s.pc = .waiting n → n + 1 = s.made

/-- No callback of an earlier call is to come. -/
def Settled (s : Caller α) : Prop := s.outstanding = [] ∧ s.delivering = none

/-- The completion of call `n` is in one place. -/
def Awaits (s : Caller α) (n : Nat) : Prop :=
  (s.outstanding = [n] ∧ s.delivering = none ∧ s.box.pending = false) ∨
    (s.outstanding = [] ∧ s.delivering = some n ∧ s.box.pending = false) ∨
    (s.outstanding = [] ∧ s.delivering = none ∧ s.box.pending = true ∧ s.source = n)

/-- The next call finds nothing of an earlier one. -/
def Ready (s : Caller α) : Prop := s.Settled ∧ (p.clears = true ∨ s.box.pending = false)

/-- Only the completion of the call at work is on its way. -/
def Own (s : Caller α) : Prop :=
  match s.pc with
  | .idle => s.Ready p
  | .calling _ => s.Settled ∧ s.box.pending = false ∧ s.listening = true
  | .called n => s.Awaits n ∧ s.listening = true
  | .waiting n => s.Awaits n ∧ s.listening = true

variable {p zero status}

theorem known_init : (init zero).Known status where
  outstanding := by simp [init]
  delivering := by simp [init]
  pending := by simp [init]
  calling := by simp [init]

theorem Known.step {e : CallEvent} (h : s.Known status) (hs : Step p zero status s e t) :
    t.Known status := by
  obtain ⟨he, rfl⟩ := hs
  cases e with
  | start =>
    have hbox : (s.next p zero status .start).box.pending = true → s.box.pending = true ∧
        (s.next p zero status .start).box.value = s.box.value := by
      unfold next
      cases p.clears <;> simp
    refine ⟨fun m hm => Nat.lt_succ_of_lt (h.outstanding m hm),
      fun m hm => Nat.lt_succ_of_lt (h.delivering m hm), fun hpending => ?_, ?_⟩
    · obtain ⟨hbefore, hvalue⟩ := hbox hpending
      obtain ⟨hlt, hstatus⟩ := h.pending hbefore
      exact ⟨Nat.lt_succ_of_lt hlt, hvalue.trans hstatus⟩
    · simp [next]
  | refuse => exact ⟨h.outstanding, h.delivering, h.pending, by simp [next]⟩
  | accept =>
    obtain ⟨n, hn⟩ := he
    have hmade := h.calling n (.inl hn)
    simp only [next, hn]
    refine ⟨?_, h.delivering, h.pending, ?_⟩
    · rintro m (_ | ⟨_, hm⟩)
      · exact Nat.lt_of_succ_le (Nat.le_of_eq hmade)
      · exact h.outstanding m hm
    · simp [hmade]
  | complete m =>
    refine ⟨fun k hk => h.outstanding k (List.mem_of_mem_erase hk), ?_, h.pending, h.calling⟩
    intro k hk
    simp only [next] at hk
    split at hk
    · obtain rfl : m = k := Option.some.inj hk
      exact h.outstanding m he.1
    · cases hk
  | notify =>
    obtain ⟨m, hm⟩ := Option.ne_none_iff_exists'.mp he
    simp only [next, hm]
    exact ⟨h.outstanding, by simp, fun _ => ⟨h.delivering m hm, rfl⟩, h.calling⟩
  | enter =>
    obtain ⟨n, hn⟩ := he
    have hmade := h.calling n (.inr (.inl hn))
    simp only [next, hn]
    refine ⟨h.outstanding, h.delivering, ?_, by simp [hmade]⟩
    split
    · simp
    · exact h.pending
  | take => exact ⟨h.outstanding, h.delivering, by simp [next], by simp [next]⟩
  | timeOut => exact ⟨h.outstanding, h.delivering, h.pending, by simp [next]⟩
  | close => exact ⟨h.outstanding, h.delivering, h.pending, h.calling⟩

theorem Known.run {es : List CallEvent} (h : Run (Step p zero status) s es t)
    (hs : s.Known status) : t.Known status :=
  h.invariant hs fun _ _ _ hk hstep => hk.step hstep

/-- Where no state is cleared, a value that is not pending was taken. -/
theorem value_step {e : CallEvent} (hp : p.clears = false)
    (h : s.box.pending = false → s.box.value = zero) (hs : Step p zero status s e t) :
    t.box.pending = false → t.box.value = zero := by
  obtain ⟨he, rfl⟩ := hs
  cases e with
  | start =>
    simp only [next, hp, Bool.false_eq_true, if_false]
    exact h
  | accept =>
    obtain ⟨n, hn⟩ := he
    simp only [next, hn]
    exact h
  | notify =>
    obtain ⟨m, hm⟩ := Option.ne_none_iff_exists'.mp he
    simp [next, hm]
  | enter =>
    obtain ⟨n, hn⟩ := he
    simp only [next, hn]
    split
    · exact fun _ => rfl
    · exact h
  | take => exact fun _ => rfl
  | refuse => exact h
  | complete m => exact h
  | timeOut => exact h
  | close => exact h

variable (p zero status) in
theorem Awaits.complete {n m : Nat} (h : s.Awaits n) (hl : s.listening = true)
    (he : s.Enabled (.complete m)) : (s.next p zero status (.complete m)).Awaits n := by
  obtain ⟨hm, hnone⟩ := he
  rcases h with ⟨ho, -, hpending⟩ | ⟨ho, -⟩ | ⟨ho, -⟩
  · obtain rfl : m = n := by simpa [ho] using hm
    exact .inr (.inl ⟨by simp [next, ho], by simp [next, hl], hpending⟩)
  · simp [ho] at hm
  · simp [ho] at hm

variable (p zero status) in
theorem Awaits.notify {n : Nat} (h : s.Awaits n) (he : s.Enabled .notify) :
    (s.next p zero status .notify).Awaits n := by
  rcases h with ⟨-, hd, -⟩ | ⟨ho, hd, -⟩ | ⟨-, hd, -⟩
  · exact absurd hd he
  · exact .inr (.inr ⟨by simp [next, hd, ho], by simp [next, hd], by simp [next, hd],
      by simp [next, hd]⟩)
  · exact absurd hd he

/-- A step that no wait ends without an answer in. -/
theorem Own.step {e : CallEvent} (h : s.Own p) (hs : Step p zero status s e t)
    (htime : e ≠ .timeOut) : t.Own p := by
  obtain ⟨he, rfl⟩ := hs
  cases e with
  | start =>
    simp only [Enabled] at he
    simp only [Own, he] at h
    refine ⟨h.1, ?_, rfl⟩
    cases hc : p.clears <;> simp_all [next, Ready]
  | refuse =>
    obtain ⟨n, hn⟩ := he
    simp only [Own, hn] at h
    exact ⟨h.1, .inr h.2.1⟩
  | accept =>
    obtain ⟨n, hn⟩ := he
    simp only [Own, hn] at h
    obtain ⟨⟨ho, hd⟩, hpending, hl⟩ := h
    simp only [next, hn, Own]
    exact ⟨.inl ⟨by rw [ho], hd, hpending⟩, hl⟩
  | complete m =>
    cases hpc : s.pc with
    | idle =>
      simp only [Own, hpc] at h
      simp [Enabled, h.1.1] at he
    | calling n =>
      simp only [Own, hpc] at h
      simp [Enabled, h.1.1] at he
    | called n =>
      simp only [Own, hpc] at h
      simp only [Own, next, hpc]
      exact ⟨h.1.complete p zero status h.2 he, h.2⟩
    | waiting n =>
      simp only [Own, hpc] at h
      simp only [Own, next, hpc]
      exact ⟨h.1.complete p zero status h.2 he, h.2⟩
  | notify =>
    obtain ⟨m, hm⟩ := Option.ne_none_iff_exists'.mp he
    cases hpc : s.pc with
    | idle =>
      simp only [Own, hpc] at h
      exact absurd h.1.2 he
    | calling n =>
      simp only [Own, hpc] at h
      exact absurd h.1.2 he
    | called n =>
      simp only [Own, hpc] at h
      have hnext := h.1.notify p zero status he
      simp only [next, hm] at hnext
      simp only [Own, next, hm, hpc]
      exact ⟨hnext, h.2⟩
    | waiting n =>
      simp only [Own, hpc] at h
      have hnext := h.1.notify p zero status he
      simp only [next, hm] at hnext
      simp only [Own, next, hm, hpc]
      exact ⟨hnext, h.2⟩
  | enter =>
    obtain ⟨n, hn⟩ := he
    simp only [Own, hn] at h
    simp only [Own, next, hn]
    refine ⟨?_, h.2⟩
    have hbox : (if p.clearsOnEntry && !s.box.pending then ⟨zero, false⟩ else s.box).pending =
        s.box.pending := by
      cases p.clearsOnEntry <;> cases hb : s.box.pending <;> simp [hb]
    simpa only [Awaits, hbox] using h.1
  | take =>
    obtain ⟨⟨n, hn⟩, hpending⟩ := he
    simp only [Own, hn] at h
    rcases h.1 with ⟨-, -, hno⟩ | ⟨-, -, hno⟩ | ⟨ho, hd, -⟩
    · rw [hpending] at hno
      cases hno
    · rw [hpending] at hno
      cases hno
    · exact ⟨⟨ho, hd⟩, .inr rfl⟩
  | timeOut => exact absurd rfl htime
  | close =>
    simp only [Enabled] at he
    simp only [Own, he] at h
    simp only [Own, next, he]
    exact h

/-- What a wait takes is the answer to its own call. -/
def TakesOwn (s : Caller α) : Prop := ∀ n, s.pc = .waiting n → s.box.pending = true → s.source = n

theorem Own.takesOwn (h : s.Own p) : s.TakesOwn := by
  intro n hn hpending
  simp only [Own, hn] at h
  rcases h.1 with ⟨-, -, hno⟩ | ⟨-, -, hno⟩ | ⟨-, -, -, hsource⟩
  · rw [hpending] at hno
    cases hno
  · rw [hpending] at hno
    cases hno
  · exact hsource

/-- A call that is to be completed, or whose callback is at work, has not returned: what is on its
stack is there for the callback. -/
theorem Own.at_work (h : s.Own p) {m : Nat} (hm : m ∈ s.outstanding ∨ s.delivering = some m) :
    s.pc = .called m ∨ s.pc = .waiting m := by
  have hawaits : ∀ n, s.Awaits n → m = n := by
    rintro n (⟨ho, hd, -⟩ | ⟨ho, hd, -⟩ | ⟨ho, hd, -⟩)
    · simpa [ho, hd] using hm
    · simpa [ho, hd, eq_comm] using hm
    · simp [ho, hd] at hm
  cases hpc : s.pc with
  | idle =>
    simp only [Own, hpc] at h
    simp [h.1.1, h.1.2] at hm
  | calling n =>
    simp only [Own, hpc] at h
    simp [h.1.1, h.1.2] at hm
  | called n =>
    simp only [Own, hpc] at h
    exact .inl (by rw [hawaits n h.1])
  | waiting n =>
    simp only [Own, hpc] at h
    exact .inr (by rw [hawaits n h.1])

variable (p zero status) in
/-- Runs in which no wait times out. -/
def InTime : Caller α → CallEvent → Caller α → Prop :=
  Guarded (fun _ e => e ≠ .timeOut) (Step p zero status)

theorem Own.run {es : List CallEvent} (h : s.Own p) (hr : Run (InTime p zero status) s es t) :
    t.Own p :=
  hr.invariant h fun _ _ _ ho hstep => ho.step hstep.2 hstep.1

theorem run_ofAdmits {es : List CallEvent} (h : Admits Enabled (next p zero status) s es) :
    Run (Step p zero status) s es (es.foldl (next p zero status) s) :=
  Run.ofAdmits Enabled (fun _ _ he => ⟨he, rfl⟩) h

/-- What is left of an earlier call can be taken by the next. -/
theorem exists_takesOther (hk : s.Known status) (hidle : s.pc = .idle) (h : ¬s.Ready p) :
    ∃ es t, Run (InTime p zero status) s es t ∧ ¬t.TakesOwn := by
  have hstep : ∀ (u : Caller α) (e : CallEvent), u.Enabled e ∧ e ≠ .timeOut →
      InTime p zero status u e (u.next p zero status e) := fun u e he => ⟨he.2, he.1, rfl⟩
  cases hd : s.delivering with
  | some m =>
    have hlt := hk.delivering m hd
    refine ⟨[.start, .accept, .notify, .enter], _, Run.ofAdmits _ hstep ?_, fun hown => ?_⟩
    · simp [Admits, Enabled, next, hidle, hd]
    · have hsource := hown s.made (by simp [next, hd]) (by simp [next, hd])
      simp only [List.foldl_cons, List.foldl_nil, next, hd] at hsource
      omega
  | none =>
    cases ho : s.outstanding with
    | cons m rest =>
      have hlt := hk.outstanding m (by simp [ho])
      refine ⟨[.start, .accept, .complete m, .notify, .enter], _, Run.ofAdmits _ hstep ?_,
        fun hown => ?_⟩
      · simp [Admits, Enabled, next, hidle, hd, ho]
      · have hsource := hown s.made (by simp [next]) (by simp [next])
        simp only [List.foldl_cons, List.foldl_nil, next, if_true] at hsource
        omega
    | nil =>
      obtain ⟨hclears, hpending⟩ : p.clears = false ∧ s.box.pending = true := by
        simpa [Ready, Settled, ho, hd] using h
      have hlt := (hk.pending hpending).1
      refine ⟨[.start, .accept, .enter], _, Run.ofAdmits _ hstep ?_, fun hown => ?_⟩
      · simp [Admits, Enabled, next, hidle]
      · have hsource := hown s.made (by simp [next]) (by simp [next, hclears, hpending])
        simp only [List.foldl_cons, List.foldl_nil, next] at hsource
        omega

/-- Every wait from here on, until one times out, takes its own answer just when nothing is left of
an earlier call. -/
theorem takesOwn_iff (hk : s.Known status) (hidle : s.pc = .idle) :
    (∀ es t, Run (InTime p zero status) s es t → t.TakesOwn) ↔ s.Ready p := by
  constructor
  · intro h
    by_contra hready
    obtain ⟨es, t, hr, hother⟩ := exists_takesOther hk hidle hready
    exact hother (h es t hr)
  · intro hready es t hr
    have hown : s.Own p := by
      rw [Own, hidle]
      exact hready
    exact (hown.run hr).takesOwn

end Caller

end RenesasDemo.Framework
