import RenesasDemo.Framework.Runs
import RenesasDemo.Ota.WriteBlock

namespace RenesasDemo.Ota

open Framework

/-- What the flash driver calls when it has carried out an operation. -/
inductive FlashCallback where
  | otaFlashingCallback
  | otaHeaderFlashingCallback
  deriving DecidableEq

/-- A write that the flash driver is carrying out. -/
inductive FlashWrite where
  /-- A packet of `ota_flashing_task`. -/
  | packet (p : FlashBlock)
  /-- The page with a fragment of `otaPal_CheckFileSignature`. -/
  | page (tmp : FlashBlock)
  deriving DecidableEq

def FlashWrite.packets : FlashWrite → List FlashBlock
  | .packet p => [p]
  | .page _ => []

/-- Where `ota_flashing_task` is. -/
inductive FlashingTaskPc where
  /-- In `xQueueReceive`. -/
  | receiving
  /-- In `xSemaphoreTake` with a packet. -/
  | taking (p : FlashBlock)
  /-- Before `R_FLASH_Write`. -/
  | writing (p : FlashBlock)
  /-- Behind `R_FLASH_Write`. -/
  | counting (p : FlashBlock)
  deriving DecidableEq

/-- The packet that is received and not counted. -/
def FlashingTaskPc.uncounted : FlashingTaskPc → List FlashBlock
  | .receiving => []
  | .taking p => [p]
  | .writing p => [p]
  | .counting p => [p]

/-- The packet that is received and not handed to the flash driver. -/
def FlashingTaskPc.unwritten : FlashingTaskPc → List FlashBlock
  | .receiving => []
  | .taking p => [p]
  | .writing p => [p]
  | .counting _ => []

/-- Where the OTA agent is. -/
inductive AgentPc where
  /-- Outside, or in `otaPal_WriteBlock`. -/
  | writingBlocks
  /-- In `xSemaphoreTake` of `otaPal_CheckFileSignature`, with the fragments that are left. -/
  | taking (fragments : List FlashBlock)
  | holding (fragments : List FlashBlock)
  /-- In the busy wait behind the write of a fragment's page. -/
  | waiting (tmp : FlashBlock) (next : List FlashBlock)
  | hashing
  /-- The signature was right: the task, the queue and the semaphores are deleted. -/
  | closed
  deriving DecidableEq

/-- The agent is between its take and its give. -/
def AgentPc.Holds : AgentPc → Prop
  | .holding _ => True
  | .waiting _ _ => True
  | _ => False

/-- What the agent's task, the flashing task and the flash interrupt share. -/
structure FlashingSystem where
  xQueue : List FlashBlock
  xSemaphoreFlashig : Bool
  callback : FlashCallback
  /-- `gs_header_flashing_task` is `OTA_FLASHING_COMPLETE`. -/
  gsHeaderFlashingTask : Bool
  totalImageLength : UInt32
  flashWrite : Option FlashWrite
  task : FlashingTaskPc
  agent : AgentPc
  /-- The packets that `xQueueSend` took so far. -/
  accepted : List FlashBlock
  /-- The packets whose writes were completed so far. -/
  written : List FlashBlock
  /-- The fragments that `otaPal_CheckFileSignature` flashed so far. -/
  flushed : List FlashBlock

inductive FlashingEvent where
  /-- `otaPal_WriteBlock` sends a block or an assembled page. -/
  | writeBlock (packet : FlashBlock)
  /-- `otaPal_CloseFile` calls `otaPal_CheckFileSignature`, which finds these fragments. -/
  | closeFile (fragments : List FlashBlock)
  | agentTakes
  /-- The agent calls `R_FLASH_Write`, which may fail. -/
  | agentWrites (started : Bool)
  /-- The busy wait is over. -/
  | agentWaited
  /-- There are no fragments. -/
  | agentGives
  /-- The hashing is over and the signature right or wrong. -/
  | agentVerified (passed : Bool)
  | taskReceives
  | taskTakes
  /-- The task calls `R_FLASH_Write`, which may fail. -/
  | taskWrites (started : Bool)
  | taskCounts
  /-- The flash driver calls back. -/
  | writeComplete

namespace FlashingSystem

/-- After `otaPal_CreateFileForRx`. -/
def start : FlashingSystem :=
  ⟨[], true, .otaFlashingCallback, true, 0, none, .receiving, .writingBlocks, [], [], []⟩

/-- The flashing task has the highest priority: the agent runs only while that is blocked. -/
def taskBlocked (s : FlashingSystem) : Bool :=
  match s.task with
  | .receiving => s.xQueue.isEmpty
  | .taking _ => !s.xSemaphoreFlashig
  | .writing _ => false
  | .counting _ => false

/-- A write is started only while none is carried out. -/
def startWrite (s : FlashingSystem) (w : FlashWrite) (started : Bool) :
    Option (Option FlashWrite) :=
  if started then if s.flashWrite = none then some (some w) else none else some s.flashWrite

def agentStep (s : FlashingSystem) : FlashingEvent → Option FlashingSystem
  | .writeBlock packet =>
      match s.agent with
      | .writingBlocks =>
          if s.xQueue.length < otaconfigMaxNumBlocksRequest then
            some { s with xQueue := s.xQueue ++ [packet], accepted := s.accepted ++ [packet] }
          else some s
      | _ => none
  | .closeFile fragments =>
      match s.agent with
      | .writingBlocks => some { s with agent := .taking fragments }
      | _ => none
  | .agentTakes =>
      match s.agent with
      | .taking fragments =>
          if s.xSemaphoreFlashig then
            some { s with xSemaphoreFlashig := false, agent := .holding fragments }
          else none
      | _ => none
  | .agentWrites started =>
      match s.agent with
      | .holding (tmp :: next) =>
          (s.startWrite (.page tmp) started).map fun w =>
            { s with
              callback := .otaHeaderFlashingCallback
              gsHeaderFlashingTask := false
              flashWrite := w
              agent := .waiting tmp next }
      | _ => none
  | .agentWaited =>
      match s.agent with
      | .waiting tmp next =>
          if s.gsHeaderFlashingTask then
            some { s with
              xSemaphoreFlashig := true
              totalImageLength := s.totalImageLength + UInt32.ofNat tmp.length
              agent := if next = [] then .hashing else .taking next
              flushed := s.flushed ++ [tmp] }
          else none
      | _ => none
  | .agentGives =>
      match s.agent with
      | .holding [] => some { s with xSemaphoreFlashig := true, agent := .hashing }
      | _ => none
  | .agentVerified passed =>
      match s.agent with
      | .hashing => some { s with agent := if passed then .closed else .writingBlocks }
      | _ => none
  | _ => none

def taskStep (s : FlashingSystem) : FlashingEvent → Option FlashingSystem
  | .taskReceives =>
      match s.task, s.xQueue with
      | .receiving, p :: xQueue => some { s with xQueue := xQueue, task := .taking p }
      | _, _ => none
  | .taskTakes =>
      match s.task with
      | .taking p =>
          if s.xSemaphoreFlashig then
            some { s with xSemaphoreFlashig := false, task := .writing p }
          else none
      | _ => none
  | .taskWrites started =>
      match s.task with
      | .writing p =>
          (s.startWrite (.packet p) started).map fun w =>
            { s with flashWrite := w, task := .counting p }
      | _ => none
  | .taskCounts =>
      match s.task with
      | .counting p =>
          some { s with
            totalImageLength := s.totalImageLength + UInt32.ofNat p.length
            task := .receiving }
      | _ => none
  | _ => none

/-- The callback gives the semaphore or sets `gs_header_flashing_task`. -/
def flashStep (s : FlashingSystem) : Option FlashingSystem :=
  s.flashWrite.map fun w =>
    let s' := { s with flashWrite := none, written := s.written ++ w.packets }
    match s.callback with
    | .otaFlashingCallback => { s' with xSemaphoreFlashig := true }
    | .otaHeaderFlashingCallback => { s' with gsHeaderFlashingTask := true }

/-- No state where the event cannot happen. -/
def step (s : FlashingSystem) (e : FlashingEvent) : Option FlashingSystem :=
  match e with
  | .writeComplete => s.flashStep
  | .taskReceives => s.taskStep e
  | .taskTakes => s.taskStep e
  | .taskWrites _ => s.taskStep e
  | .taskCounts => s.taskStep e
  | _ => if s.taskBlocked then s.agentStep e else none

/-- What can happen. -/
inductive Transition (s : FlashingSystem) : FlashingEvent → FlashingSystem → Prop
  | sent (packet : FlashBlock) (agent : s.agent = .writingBlocks) :
      Transition s (.writeBlock packet)
        { s with xQueue := s.xQueue ++ [packet], accepted := s.accepted ++ [packet] }
  | refused (packet : FlashBlock) : Transition s (.writeBlock packet) s
  | closeFile (fragments : List FlashBlock) (agent : s.agent = .writingBlocks) :
      Transition s (.closeFile fragments) { s with agent := .taking fragments }
  | agentTakes (fragments : List FlashBlock) (blocked : s.taskBlocked = true)
      (agent : s.agent = .taking fragments) (free : s.xSemaphoreFlashig = true) :
      Transition s .agentTakes
        { s with xSemaphoreFlashig := false, agent := .holding fragments }
  | agentWrites (started : Bool) (tmp : FlashBlock) (next : List FlashBlock)
      (w : Option FlashWrite) (agent : s.agent = .holding (tmp :: next))
      (start : s.startWrite (.page tmp) started = some w) :
      Transition s (.agentWrites started)
        { s with
          callback := .otaHeaderFlashingCallback
          gsHeaderFlashingTask := false
          flashWrite := w
          agent := .waiting tmp next }
  | agentWaited (tmp : FlashBlock) (next : List FlashBlock) (agent : s.agent = .waiting tmp next)
      (complete : s.gsHeaderFlashingTask = true) :
      Transition s .agentWaited
        { s with
          xSemaphoreFlashig := true
          totalImageLength := s.totalImageLength + UInt32.ofNat tmp.length
          agent := if next = [] then .hashing else .taking next
          flushed := s.flushed ++ [tmp] }
  | agentGives (agent : s.agent = .holding []) :
      Transition s .agentGives { s with xSemaphoreFlashig := true, agent := .hashing }
  | agentVerified (passed : Bool) (agent : s.agent = .hashing) :
      Transition s (.agentVerified passed)
        { s with agent := if passed then .closed else .writingBlocks }
  | taskReceives (p : FlashBlock) (xQueue : List FlashBlock) (task : s.task = .receiving)
      (queue : s.xQueue = p :: xQueue) :
      Transition s .taskReceives { s with xQueue := xQueue, task := .taking p }
  | taskTakes (p : FlashBlock) (task : s.task = .taking p) (free : s.xSemaphoreFlashig = true) :
      Transition s .taskTakes { s with xSemaphoreFlashig := false, task := .writing p }
  | taskWrites (started : Bool) (p : FlashBlock) (w : Option FlashWrite)
      (task : s.task = .writing p) (start : s.startWrite (.packet p) started = some w) :
      Transition s (.taskWrites started) { s with flashWrite := w, task := .counting p }
  | taskCounts (p : FlashBlock) (task : s.task = .counting p) :
      Transition s .taskCounts
        { s with
          totalImageLength := s.totalImageLength + UInt32.ofNat p.length
          task := .receiving }
  | gives (w : FlashWrite) (busy : s.flashWrite = some w)
      (callback : s.callback = .otaFlashingCallback) :
      Transition s .writeComplete
        { s with flashWrite := none, written := s.written ++ w.packets, xSemaphoreFlashig := true }
  | completes (w : FlashWrite) (busy : s.flashWrite = some w)
      (callback : s.callback = .otaHeaderFlashingCallback) :
      Transition s .writeComplete
        { s with
          flashWrite := none, written := s.written ++ w.packets, gsHeaderFlashingTask := true }

section transition

variable {s s' : FlashingSystem} {e : FlashingEvent}

theorem agentStep_transition (hblocked : s.taskBlocked = true) (h : s.agentStep e = some s') :
    s.Transition e s' := by
  cases e with
  | writeBlock packet =>
    rw [agentStep] at h
    split at h
    · next hagent =>
      split at h
      · obtain rfl := Option.some.inj h
        exact .sent packet hagent
      · obtain rfl := Option.some.inj h
        exact .refused packet
    · cases h
  | closeFile fragments =>
    rw [agentStep] at h
    split at h
    · next hagent =>
      obtain rfl := Option.some.inj h
      exact .closeFile fragments hagent
    · cases h
  | agentTakes =>
    rw [agentStep] at h
    split at h
    · next fragments hagent =>
      split at h
      · next hfree =>
        obtain rfl := Option.some.inj h
        exact .agentTakes fragments hblocked hagent hfree
      · cases h
    · cases h
  | agentWrites started =>
    rw [agentStep] at h
    split at h
    · next tmp next hagent =>
      obtain ⟨w, hstart, rfl⟩ := Option.map_eq_some_iff.mp h
      exact .agentWrites started tmp next w hagent hstart
    · cases h
  | agentWaited =>
    rw [agentStep] at h
    split at h
    · next tmp next hagent =>
      split at h
      · next hcomplete =>
        obtain rfl := Option.some.inj h
        exact .agentWaited tmp next hagent hcomplete
      · cases h
    · cases h
  | agentGives =>
    rw [agentStep] at h
    split at h
    · next hagent =>
      obtain rfl := Option.some.inj h
      exact .agentGives hagent
    · cases h
  | agentVerified passed =>
    rw [agentStep] at h
    split at h
    · next hagent =>
      obtain rfl := Option.some.inj h
      exact .agentVerified passed hagent
    · cases h
  | taskReceives => cases h
  | taskTakes => cases h
  | taskWrites => cases h
  | taskCounts => cases h
  | writeComplete => cases h

theorem taskStep_transition (h : s.taskStep e = some s') : s.Transition e s' := by
  cases e with
  | taskReceives =>
    rw [taskStep] at h
    split at h
    · next p xQueue htask hqueue =>
      obtain rfl := Option.some.inj h
      exact .taskReceives p xQueue htask hqueue
    · cases h
  | taskTakes =>
    rw [taskStep] at h
    split at h
    · next p htask =>
      split at h
      · next hfree =>
        obtain rfl := Option.some.inj h
        exact .taskTakes p htask hfree
      · cases h
    · cases h
  | taskWrites started =>
    rw [taskStep] at h
    split at h
    · next p htask =>
      obtain ⟨w, hstart, rfl⟩ := Option.map_eq_some_iff.mp h
      exact .taskWrites started p w htask hstart
    · cases h
  | taskCounts =>
    rw [taskStep] at h
    split at h
    · next p htask =>
      obtain rfl := Option.some.inj h
      exact .taskCounts p htask
    · cases h
  | _ => cases h

theorem flashStep_transition (h : s.flashStep = some s') : s.Transition .writeComplete s' := by
  obtain ⟨w, hbusy, rfl⟩ := Option.map_eq_some_iff.mp h
  simp only
  split
  · next hcallback => exact .gives w hbusy hcallback
  · next hcallback => exact .completes w hbusy hcallback

theorem step_transition (h : s.step e = some s') : s.Transition e s' := by
  have hagent : (if s.taskBlocked then s.agentStep e else none) = some s' → s.Transition e s' := by
    intro hstep
    split at hstep
    · next hblocked => exact agentStep_transition hblocked hstep
    · cases hstep
  cases e with
  | writeComplete => exact flashStep_transition h
  | taskReceives => exact taskStep_transition h
  | taskTakes => exact taskStep_transition h
  | taskWrites => exact taskStep_transition h
  | taskCounts => exact taskStep_transition h
  | writeBlock => exact hagent h
  | closeFile => exact hagent h
  | agentTakes => exact hagent h
  | agentWrites => exact hagent h
  | agentWaited => exact hagent h
  | agentGives => exact hagent h
  | agentVerified => exact hagent h

end transition

end FlashingSystem

end RenesasDemo.Ota
