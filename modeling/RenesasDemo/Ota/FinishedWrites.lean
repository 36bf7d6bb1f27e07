import RenesasDemo.Ota.FlashingTask

namespace RenesasDemo.Ota.FlashingSystem

open Framework

def inFlight (s : FlashingSystem) : List FlashBlock :=
  s.flashWrite.toList.flatMap FlashWrite.packets

/-- Every packet accepted is written, in the flash driver, with the task or in the queue. -/
def Accounted (s : FlashingSystem) : Prop :=
  s.accepted = s.written ++ (s.inFlight ++ (s.task.unwritten ++ s.xQueue))

/-- The packets that have gone through the task, and the fragments, are counted. -/
def Counted (s : FlashingSystem) : Prop :=
  ∃ done, s.accepted = done ++ (s.task.uncounted ++ s.xQueue) ∧
    s.totalImageLength = UInt32.ofNat (totalLength done + totalLength s.flushed)

/-- Who may start the next write. Once the callback that gives the semaphore does not come, nobody
may any more. -/
inductive Permit (s : FlashingSystem) : Prop
  | free (semaphore : s.xSemaphoreFlashig = true) (agent : ¬ s.agent.Holds)
      (idle : s.flashWrite = none) (task : ∀ p, s.task ≠ .writing p) (accounted : s.Accounted)
  | task (p : FlashBlock) (semaphore : s.xSemaphoreFlashig = false) (agent : ¬ s.agent.Holds)
      (idle : s.flashWrite = none) (task : s.task = .writing p) (accounted : s.Accounted)
  | flash (p : FlashBlock) (semaphore : s.xSemaphoreFlashig = false) (agent : ¬ s.agent.Holds)
      (busy : s.flashWrite = some (.packet p)) (callback : s.callback = .otaFlashingCallback)
      (task : ∀ p, s.task ≠ .writing p) (accounted : s.Accounted)
  | agent (semaphore : s.xSemaphoreFlashig = false) (agent : s.agent.Holds)
      (task : s.task = .receiving) (queue : s.xQueue = [])
      (settled : s.flashWrite = none ∨
        (∃ tmp next, s.agent = .waiting tmp next) ∧ (∃ tmp, s.flashWrite = some (.page tmp)) ∧
          s.callback = .otaHeaderFlashingCallback ∧ s.gsHeaderFlashingTask = false)
      (accounted : s.Accounted)
  | lost (semaphore : s.xSemaphoreFlashig = false) (agent : ¬ s.agent.Holds)
      (task : ∀ p, s.task ≠ .writing p)
      (silent : s.flashWrite = none ∨ s.callback = .otaHeaderFlashingCallback)

/-- While the agent hashes, the semaphore is free and the task waits for packets. -/
structure Synchronised (s : FlashingSystem) : Prop where
  permit : s.Permit
  hashing : s.agent = .hashing →
    s.xSemaphoreFlashig = true ∧ s.task = .receiving ∧ s.xQueue = []

section steps

variable {s s' : FlashingSystem} {e : FlashingEvent}

theorem Counted.step (h : s.Counted) (ht : s.Transition e s') : s'.Counted := by
  obtain ⟨done, haccepted, htotal⟩ := h
  cases ht with
  | sent packet =>
    refine ⟨done, ?_, htotal⟩
    show s.accepted ++ [packet] = done ++ (s.task.uncounted ++ (s.xQueue ++ [packet]))
    rw [haccepted]
    simp only [List.append_assoc]
  | refused => exact ⟨done, haccepted, htotal⟩
  | closeFile => exact ⟨done, haccepted, htotal⟩
  | agentTakes => exact ⟨done, haccepted, htotal⟩
  | agentWrites => exact ⟨done, haccepted, htotal⟩
  | agentWaited tmp =>
    refine ⟨done, haccepted, ?_⟩
    show s.totalImageLength + _ = UInt32.ofNat (totalLength done + totalLength (s.flushed ++ [tmp]))
    rw [htotal, totalLength_append, totalLength_cons, totalLength_nil, ← UInt32.ofNat_add]
    congr 1
    omega
  | agentGives => exact ⟨done, haccepted, htotal⟩
  | agentVerified => exact ⟨done, haccepted, htotal⟩
  | taskReceives p xQueue htask hqueue =>
    refine ⟨done, ?_, htotal⟩
    rw [htask, hqueue] at haccepted
    exact haccepted
  | taskTakes p htask =>
    refine ⟨done, ?_, htotal⟩
    rw [htask] at haccepted
    exact haccepted
  | taskWrites started p w htask =>
    refine ⟨done, ?_, htotal⟩
    rw [htask] at haccepted
    exact haccepted
  | taskCounts p htask =>
    refine ⟨done ++ [p], ?_, ?_⟩
    · rw [htask] at haccepted
      show s.accepted = (done ++ [p]) ++ ([] ++ s.xQueue)
      rw [haccepted, List.append_assoc]
      rfl
    · show s.totalImageLength + _ = UInt32.ofNat (totalLength (done ++ [p]) + totalLength s.flushed)
      rw [htotal, totalLength_append, totalLength_cons, totalLength_nil, ← UInt32.ofNat_add]
      congr 1
      omega
  | gives => exact ⟨done, haccepted, htotal⟩
  | completes => exact ⟨done, haccepted, htotal⟩

theorem Accounted.send (h : s.Accounted) (packet : FlashBlock) :
    s.accepted ++ [packet] =
      s.written ++ (s.inFlight ++ (s.task.unwritten ++ (s.xQueue ++ [packet]))) := by
  rw [h]
  simp only [List.append_assoc]

/-- Whatever else holds, a free semaphore is the only permit. -/
theorem Permit.of_free (h : s.Permit) (hfree : s.xSemaphoreFlashig = true) :
    ¬ s.agent.Holds ∧ s.flashWrite = none ∧ (∀ p, s.task ≠ .writing p) ∧ s.Accounted := by
  cases h with
  | free _ hagent hidle htask hacc => exact ⟨hagent, hidle, htask, hacc⟩
  | task _ hsem => exact absurd (hsem.symm.trans hfree) Bool.false_ne_true
  | flash _ hsem => exact absurd (hsem.symm.trans hfree) Bool.false_ne_true
  | agent hsem => exact absurd (hsem.symm.trans hfree) Bool.false_ne_true
  | lost hsem => exact absurd (hsem.symm.trans hfree) Bool.false_ne_true

/-- Between its take and its give the agent has the permit. -/
theorem Permit.of_holds (h : s.Permit) (hholds : s.agent.Holds) :
    s.xSemaphoreFlashig = false ∧ s.task = .receiving ∧ s.xQueue = [] ∧
      (s.flashWrite = none ∨
        (∃ tmp next, s.agent = .waiting tmp next) ∧ (∃ tmp, s.flashWrite = some (.page tmp)) ∧
          s.callback = .otaHeaderFlashingCallback ∧ s.gsHeaderFlashingTask = false) ∧
      s.Accounted := by
  cases h with
  | free _ hagent => exact absurd hholds hagent
  | task _ _ hagent => exact absurd hholds hagent
  | flash _ _ hagent => exact absurd hholds hagent
  | agent hsem _ htask hqueue hsettled hacc => exact ⟨hsem, htask, hqueue, hsettled, hacc⟩
  | lost _ hagent => exact absurd hholds hagent

/-- Between its take and the start of the write the flashing task has the permit. -/
theorem Permit.of_writing {p : FlashBlock} (h : s.Permit) (htask : s.task = .writing p) :
    s.xSemaphoreFlashig = false ∧ ¬ s.agent.Holds ∧ s.flashWrite = none ∧ s.Accounted := by
  cases h with
  | free _ _ _ hnot => exact absurd htask (hnot p)
  | task _ hsem hagent hidle _ hacc => exact ⟨hsem, hagent, hidle, hacc⟩
  | flash _ _ _ _ _ hnot => exact absurd htask (hnot p)
  | agent _ _ hreceiving => cases hreceiving.symm.trans htask
  | lost _ _ hnot => exact absurd htask (hnot p)

theorem Permit.moveAgent (h : s.Permit) (hbefore : ¬ s.agent.Holds) {pc : AgentPc}
    (hafter : ¬ pc.Holds) : Permit { s with agent := pc } := by
  cases h with
  | free hsem _ hidle htask hacc => exact .free hsem hafter hidle htask hacc
  | task p hsem _ hidle htask hacc => exact .task p hsem hafter hidle htask hacc
  | flash p hsem _ hbusy hcallback htask hacc =>
    exact .flash p hsem hafter hbusy hcallback htask hacc
  | agent _ hholds => exact absurd hholds hbefore
  | lost hsem _ htask hsilent => exact .lost hsem hafter htask hsilent

/-- A write by the agent or by the task starts only when none is carried out. -/
theorem startWrite_eq {w : FlashWrite} {started : Bool} {r : Option FlashWrite}
    (h : s.startWrite w started = some r) (hidle : s.flashWrite = none) :
    r = if started then some w else none := by
  cases started with
  | true =>
    rw [startWrite, if_pos rfl, if_pos hidle] at h
    exact (Option.some.inj h).symm
  | false =>
    rw [startWrite, if_neg Bool.false_ne_true, hidle] at h
    exact (Option.some.inj h).symm

theorem Permit.send (h : s.Permit) (hagent : ¬ s.agent.Holds) (packet : FlashBlock) :
    Permit { s with xQueue := s.xQueue ++ [packet], accepted := s.accepted ++ [packet] } := by
  cases h with
  | free hsem _ hidle htask hacc => exact .free hsem hagent hidle htask (hacc.send packet)
  | task p hsem _ hidle htask hacc => exact .task p hsem hagent hidle htask (hacc.send packet)
  | flash p hsem _ hbusy hcallback htask hacc =>
    exact .flash p hsem hagent hbusy hcallback htask (hacc.send packet)
  | agent _ hholds => exact absurd hholds hagent
  | lost hsem _ htask hsilent => exact .lost hsem hagent htask hsilent

/-- The semaphore is free and the agent runs: the task waits for packets. -/
theorem receiving_of_blocked (hblocked : s.taskBlocked = true)
    (hfree : s.xSemaphoreFlashig = true) : s.task = .receiving ∧ s.xQueue = [] := by
  rw [taskBlocked, hfree] at hblocked
  cases htask : s.task with
  | receiving =>
    rw [htask] at hblocked
    exact ⟨rfl, List.isEmpty_iff.mp hblocked⟩
  | taking => simp [htask] at hblocked
  | writing => simp [htask] at hblocked
  | counting => simp [htask] at hblocked

theorem Permit.agentWrites {tmp : FlashBlock} {next : List FlashBlock} {w : Option FlashWrite}
    {started : Bool} (h : s.Permit) (hagent : s.agent = .holding (tmp :: next))
    (hstart : s.startWrite (.page tmp) started = some w) :
    Permit { s with
      callback := .otaHeaderFlashingCallback
      gsHeaderFlashingTask := false
      flashWrite := w
      agent := .waiting tmp next } := by
  have hholds : s.agent.Holds := by
    rw [hagent]
    trivial
  obtain ⟨hsem, htask, hqueue, hsettled, hacc⟩ := h.of_holds hholds
  have hidle : s.flashWrite = none := by
    obtain hidle | ⟨⟨_, _, hwaiting⟩, -⟩ := hsettled
    · exact hidle
    · cases hagent.symm.trans hwaiting
  obtain rfl := startWrite_eq hstart hidle
  have hin : s.inFlight = [] := by
    rw [inFlight, hidle]
    rfl
  rw [Accounted, hin] at hacc
  cases started with
  | true =>
    exact .agent hsem trivial htask hqueue (.inr ⟨⟨tmp, next, rfl⟩, ⟨tmp, rfl⟩, rfl, rfl⟩) hacc
  | false => exact .agent hsem trivial htask hqueue (.inl rfl) hacc

theorem Permit.give (h : s.Permit) (hholds : s.agent.Holds)
    (hsettled : (∃ tmp next, s.agent = .waiting tmp next) → s.gsHeaderFlashingTask = true)
    {pc : AgentPc} (hpc : ¬ pc.Holds) (total : UInt32) (flushed : List FlashBlock) :
    Permit { s with
      xSemaphoreFlashig := true, totalImageLength := total, agent := pc, flushed := flushed } := by
  obtain ⟨-, htask, -, hidle | ⟨hwaiting, -, -, hcomplete⟩, hacc⟩ := h.of_holds hholds
  · refine .free rfl hpc hidle ?_ hacc
    intro p hp
    cases htask.symm.trans hp
  · rw [hsettled hwaiting] at hcomplete
    cases hcomplete

/-- The task goes on where it neither starts a write nor has started one, with a packet of its own:
the semaphore is held as before. -/
theorem Permit.taskMoves {pc : FlashingTaskPc} {xQueue : List FlashBlock} {total : UInt32}
    (h : s.Permit) (hfrom : ∀ q, s.task ≠ .writing q)
    (hpacket : s.task = .receiving → s.xQueue ≠ []) (hto : ∀ q, pc ≠ .writing q)
    (hmove : s.Accounted →
      Accounted { s with xQueue := xQueue, totalImageLength := total, task := pc }) :
    Permit { s with xQueue := xQueue, totalImageLength := total, task := pc } := by
  cases h with
  | free hsem hagent hidle _ hacc => exact .free hsem hagent hidle hto (hmove hacc)
  | task q _ _ _ hwriting => exact absurd hwriting (hfrom q)
  | flash q hsem hagent hbusy hcallback _ hacc =>
    exact .flash q hsem hagent hbusy hcallback hto (hmove hacc)
  | agent _ _ hreceiving hempty => exact absurd hempty (hpacket hreceiving)
  | lost hsem hagent _ hsilent => exact .lost hsem hagent hto hsilent

theorem Permit.taskReceives {p : FlashBlock} {xQueue : List FlashBlock} (h : s.Permit)
    (htask : s.task = .receiving) (hqueue : s.xQueue = p :: xQueue) :
    Permit { s with xQueue := xQueue, task := .taking p } := by
  apply h.taskMoves
  · simp [htask]
  · simp [hqueue]
  · simp
  · intro hacc
    rw [Accounted, htask, hqueue] at hacc
    exact hacc

theorem Permit.taskWrites {p : FlashBlock} {w : Option FlashWrite} {started : Bool} (h : s.Permit)
    (htask : s.task = .writing p) (hstart : s.startWrite (.packet p) started = some w) :
    Permit { s with flashWrite := w, task := .counting p } := by
  obtain ⟨hsem, hagent, hidle, hacc⟩ := h.of_writing htask
  obtain rfl := startWrite_eq hstart hidle
  have hnot : ∀ q, FlashingTaskPc.counting p ≠ .writing q := by
    intro q hq
    cases hq
  cases started with
  | false => exact .lost hsem hagent hnot (.inl rfl)
  | true =>
    cases s.callback with
    | otaHeaderFlashingCallback => exact .lost hsem hagent hnot (.inr rfl)
    | otaFlashingCallback =>
      have hin : s.inFlight = [] := by
        rw [inFlight, hidle]
        rfl
      rw [Accounted, hin, htask] at hacc
      exact .flash p hsem hagent rfl rfl hnot hacc

theorem Permit.taskCounts {p : FlashBlock} (h : s.Permit) (htask : s.task = .counting p)
    (total : UInt32) : Permit { s with totalImageLength := total, task := .receiving } := by
  apply h.taskMoves
  · simp [htask]
  · simp [htask]
  · simp
  · intro hacc
    rw [Accounted, htask] at hacc
    exact hacc

/-- The callback of `ota_flashing_task`'s writes gives the semaphore. -/
theorem Permit.gives {w : FlashWrite} (h : s.Permit) (hbusy : s.flashWrite = some w)
    (hcallback : s.callback = .otaFlashingCallback) :
    Permit { s with
      flashWrite := none, written := s.written ++ w.packets, xSemaphoreFlashig := true } := by
  cases h with
  | free _ _ hidle => cases hbusy.symm.trans hidle
  | task _ _ _ hidle => cases hbusy.symm.trans hidle
  | flash p _ hagent hpacket _ htask hacc =>
    refine .free rfl hagent rfl htask ?_
    have hin : s.inFlight = w.packets := by
      rw [inFlight, hbusy]
      exact List.append_nil _
    rw [Accounted, hin, ← List.append_assoc] at hacc
    exact hacc
  | agent _ _ _ _ hsettled =>
    obtain hidle | ⟨-, -, hheader, -⟩ := hsettled
    · cases hbusy.symm.trans hidle
    · cases hcallback.symm.trans hheader
  | lost _ _ _ hsilent =>
    obtain hidle | hheader := hsilent
    · cases hbusy.symm.trans hidle
    · cases hcallback.symm.trans hheader

theorem Permit.completes {w : FlashWrite} (h : s.Permit) (hbusy : s.flashWrite = some w)
    (hcallback : s.callback = .otaHeaderFlashingCallback) :
    Permit { s with
      flashWrite := none, written := s.written ++ w.packets, gsHeaderFlashingTask := true } := by
  cases h with
  | free _ _ hidle => cases hbusy.symm.trans hidle
  | task _ _ _ hidle => cases hbusy.symm.trans hidle
  | flash _ _ _ _ hflashing => cases hcallback.symm.trans hflashing
  | agent hsem hholds htask hqueue hsettled hacc =>
    refine .agent hsem hholds htask hqueue (.inl rfl) ?_
    obtain hidle | ⟨-, ⟨tmp, hpage⟩, -⟩ := hsettled
    · cases hbusy.symm.trans hidle
    · obtain rfl : w = .page tmp := Option.some.inj (hbusy.symm.trans hpage)
      rw [Accounted, inFlight, hbusy] at hacc
      show s.accepted = (s.written ++ []) ++ _
      rw [List.append_nil]
      exact hacc
  | lost hsem hagent htask => exact .lost hsem hagent htask (.inl rfl)

theorem Synchronised.step (h : s.Synchronised) (ht : s.Transition e s') : s'.Synchronised := by
  have hhashing := h.hashing
  cases ht with
  | sent packet hagent =>
    refine ⟨h.permit.send (by rw [hagent]; exact id) packet, ?_⟩
    intro hpc
    cases hagent.symm.trans hpc
  | refused => exact h
  | closeFile fragments hagent =>
    refine ⟨h.permit.moveAgent (by rw [hagent]; exact id) id, ?_⟩
    intro hpc
    cases hpc
  | agentTakes fragments hblocked hagent hfree =>
    obtain ⟨htask, hqueue⟩ := receiving_of_blocked hblocked hfree
    obtain ⟨-, hidle, -, hacc⟩ := h.permit.of_free hfree
    refine ⟨.agent rfl trivial htask hqueue (.inl hidle) hacc, ?_⟩
    intro hpc
    cases hpc
  | agentWrites started tmp next w hagent hstart =>
    refine ⟨h.permit.agentWrites hagent hstart, ?_⟩
    intro hpc
    cases hpc
  | agentWaited tmp next hagent hcomplete =>
    have hholds : s.agent.Holds := by
      rw [hagent]
      trivial
    obtain ⟨-, htask, hqueue, -⟩ := h.permit.of_holds hholds
    refine ⟨h.permit.give hholds (fun _ => hcomplete) ?_ _ _, fun _ => ⟨rfl, htask, hqueue⟩⟩
    split <;> exact id
  | agentGives hagent =>
    have hholds : s.agent.Holds := by
      rw [hagent]
      trivial
    obtain ⟨-, htask, hqueue, -⟩ := h.permit.of_holds hholds
    refine ⟨h.permit.give hholds ?_ id _ _, fun _ => ⟨rfl, htask, hqueue⟩⟩
    intro hwaiting
    obtain ⟨tmp, next, hwaiting⟩ := hwaiting
    cases hagent.symm.trans hwaiting
  | agentVerified passed hagent =>
    refine ⟨h.permit.moveAgent (by rw [hagent]; exact id) ?_, ?_⟩
    · cases passed <;> exact id
    · intro hpc
      cases passed <;> cases hpc
  | taskReceives p xQueue htask hqueue =>
    refine ⟨h.permit.taskReceives htask hqueue, ?_⟩
    intro hpc
    cases hqueue.symm.trans (hhashing hpc).2.2
  | taskTakes p htask hfree =>
    obtain ⟨hagent, hidle, -, hacc⟩ := h.permit.of_free hfree
    refine ⟨.task p rfl hagent hidle rfl ?_, ?_⟩
    · rw [Accounted, htask] at hacc
      exact hacc
    · intro hpc
      cases htask.symm.trans (hhashing hpc).2.1
  | taskWrites started p w htask hstart =>
    refine ⟨h.permit.taskWrites htask hstart, ?_⟩
    intro hpc
    cases htask.symm.trans (hhashing hpc).2.1
  | taskCounts p htask =>
    refine ⟨h.permit.taskCounts htask _, ?_⟩
    intro hpc
    cases htask.symm.trans (hhashing hpc).2.1
  | gives w hbusy hcallback =>
    refine ⟨h.permit.gives hbusy hcallback, ?_⟩
    intro hpc
    exact ⟨rfl, (hhashing hpc).2⟩
  | completes w hbusy hcallback => exact ⟨h.permit.completes hbusy hcallback, hhashing⟩

end steps

def Step (s : FlashingSystem) (e : FlashingEvent) (s' : FlashingSystem) : Prop := s.step e = some s'

/-- What has to be finished before the verification. -/
structure Finished (s : FlashingSystem) : Prop where
  queue : s.xQueue = []
  idle : s.flashWrite = none
  written : s.written = s.accepted
  counted : s.totalImageLength = UInt32.ofNat (totalLength s.accepted + totalLength s.flushed)

/-- Whenever the agent hashes the image, every write is finished. -/
theorem finishedWrites_run {events : List FlashingEvent} {s : FlashingSystem}
    (hrun : Run Step start events s) (hhashing : s.agent = .hashing) : s.Finished := by
  have hinv : s.Synchronised ∧ s.Counted := by
    apply hrun.invariant (P := fun s => s.Synchronised ∧ s.Counted)
    · refine ⟨⟨.free rfl id rfl ?_ rfl, ?_⟩, [], rfl, rfl⟩
      · intro p hp
        cases hp
      · intro hpc
        cases hpc
    · intro s e s' hs hstep
      have ht := step_transition hstep
      exact ⟨hs.1.step ht, hs.2.step ht⟩
  obtain ⟨hsync, done, haccepted, htotal⟩ := hinv
  obtain ⟨hfree, htask, hqueue⟩ := hsync.hashing hhashing
  obtain ⟨-, hidle, -, hacc⟩ := hsync.permit.of_free hfree
  rw [htask, hqueue] at haccepted
  obtain rfl : s.accepted = done := haccepted.trans (List.append_nil done)
  rw [Accounted, inFlight, hidle, htask, hqueue] at hacc
  exact ⟨hqueue, hidle, (hacc.trans (List.append_nil s.written)).symm, htotal⟩

def next (s : FlashingSystem) (e : FlashingEvent) : FlashingSystem := (s.step e).getD s

/-- Two packets, the second sent while the first is written, and a fragment. -/
def twoPackets : List FlashingEvent :=
  [.writeBlock ⟨0, [1, 2]⟩, .taskReceives, .taskTakes, .taskWrites true, .taskCounts,
    .writeBlock ⟨2, [3, 4]⟩, .taskReceives, .closeFile [⟨4, [5]⟩], .writeComplete, .taskTakes,
    .taskWrites true, .writeComplete, .taskCounts, .agentTakes, .agentWrites true, .writeComplete,
    .agentWaited]

theorem finishedWrites_run_twoPackets : (twoPackets.foldl next start).Finished := by
  have hrun : Run Step start twoPackets (twoPackets.foldl next start) := by
    apply Run.ofAdmits (fun s e => (s.step e).isSome = true)
    · intro s e h
      obtain ⟨t, ht⟩ := Option.isSome_iff_exists.mp h
      rw [Step, next, ht]
      rfl
    · decide +kernel
  exact finishedWrites_run hrun (by decide +kernel)

end RenesasDemo.Ota.FlashingSystem
