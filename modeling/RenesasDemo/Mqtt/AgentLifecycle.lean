import RenesasDemo.Framework.Custody
import RenesasDemo.Framework.Runs

namespace RenesasDemo.Mqtt

open Framework

/-- What `vMQTTAgentTask` takes. -/
inductive AgentResource where
  | pucNetworkBuffer
  | pxNetworkContext
  | pxCtx
  | pClientIdentifier
  | xQueue
  | pcMqttEndpoint
  | xMutex
  | xCommandPoolQueue
  deriving DecidableEq

/-- The calls of `vMQTTAgentTask` in their order: `prvConfigureAgentTaskCtx` from `readIdentifier`
to `createMutex`, `prvFreeAgentTaskCtx` from `freeQueue` to `freeCtx`. -/
inductive AgentStage where
  | allocBuffer
  | allocTransport
  | configureTransport
  | allocCtx
  | readIdentifier
  | createQueue
  | readEndpoint
  | readPort
  | createMutex
  /-- `Agent_InitializePool`, called for the first time. -/
  | initPool
  | initAgent
  | setInitBit
  | setHandle
  | setRecvCallback
  | reconnectLoop
  | freeQueue
  | freeIdentifier
  | freeEndpoint
  | freeMutex
  | freeCtx
  | disconnect
  | freeTransport
  | clearBits
  | deleted
  deriving DecidableEq

inductive CallAnswer where
  | ok
  | refused
  /-- The call returns something that the agent does not accept: an empty or too long string. -/
  | unusable
  deriving DecidableEq

namespace AgentStage

def acquires : AgentStage → Option AgentResource
  | allocBuffer => some .pucNetworkBuffer
  | allocTransport => some .pxNetworkContext
  | allocCtx => some .pxCtx
  | readIdentifier => some .pClientIdentifier
  | createQueue => some .xQueue
  | readEndpoint => some .pcMqttEndpoint
  | createMutex => some .xMutex
  | initPool => some .xCommandPoolQueue
  | _ => none

def releases : AgentStage → Option AgentResource
  | freeQueue => some .xQueue
  | freeIdentifier => some .pClientIdentifier
  | freeEndpoint => some .pcMqttEndpoint
  | freeMutex => some .xMutex
  | freeCtx => some .pxCtx
  | freeTransport => some .pxNetworkContext
  | _ => none

/-- What the call goes into. -/
def needs : AgentStage → List AgentResource
  | allocBuffer | allocTransport | allocCtx | initPool | clearBits | deleted | setInitBit => []
  | configureTransport | disconnect | freeTransport => [.pxNetworkContext]
  | setRecvCallback => [.pxNetworkContext, .pxCtx]
  | initAgent => [.pxCtx, .pucNetworkBuffer, .pxNetworkContext]
  | reconnectLoop =>
      [.pucNetworkBuffer, .pxNetworkContext, .pxCtx, .pClientIdentifier, .xQueue, .pcMqttEndpoint,
        .xMutex, .xCommandPoolQueue]
  | _ => [.pxCtx]

/-- The result of the call is written through without a check. -/
def fills : AgentStage → Bool
  | initPool => true
  | _ => false

/-- The next call; `ok` of the loop is one more pass. -/
def after : AgentStage → CallAnswer → AgentStage
  | allocBuffer, .ok => allocTransport
  | allocBuffer, _ => clearBits
  | allocTransport, .ok => configureTransport
  | allocTransport, _ => clearBits
  | configureTransport, .ok => allocCtx
  | configureTransport, _ => disconnect
  | allocCtx, .ok => readIdentifier
  | allocCtx, _ => disconnect
  | readIdentifier, .ok => createQueue
  | readIdentifier, _ => freeQueue
  | createQueue, .ok => readEndpoint
  | createQueue, _ => freeQueue
  | readEndpoint, .ok => readPort
  | readEndpoint, _ => freeQueue
  | readPort, .ok => createMutex
  | readPort, _ => freeQueue
  | createMutex, .ok => initPool
  | createMutex, _ => freeQueue
  | initPool, .ok => initAgent
  | initPool, _ => freeQueue
  | initAgent, .ok => setInitBit
  | initAgent, _ => freeQueue
  | setInitBit, _ => setHandle
  | setHandle, _ => setRecvCallback
  | setRecvCallback, .ok => reconnectLoop
  | setRecvCallback, _ => freeQueue
  | reconnectLoop, .ok => reconnectLoop
  | reconnectLoop, _ => freeQueue
  | freeQueue, _ => freeIdentifier
  | freeIdentifier, _ => freeEndpoint
  | freeEndpoint, _ => freeMutex
  | freeMutex, _ => freeCtx
  | freeCtx, _ => disconnect
  | disconnect, _ => freeTransport
  | freeTransport, _ => clearBits
  | clearBits, _ => deleted
  | deleted, _ => deleted

/-- Only these calls return something that is then not accepted. -/
def mayBeUnusable : AgentStage → Bool
  | readIdentifier | readEndpoint => true
  | _ => false

end AgentStage

/-- A task that uses the agent: `vSleepUntilMQTTAgentReady`, then calls with the handle. -/
inductive AgentClientPc where
  | idle
  | awaitingBit
  | pollingHandle
  | holding
  deriving DecidableEq

/-- The agent's task and its clients. -/
structure AgentSystem (ι : Type*) where
  stage : AgentStage
  /-- Pointers that are not NULL. -/
  field : AgentResource → Bool
  live : AgentResource → Bool
  /-- `EVT_MASK_MQTT_INIT`. -/
  initBit : Bool
  /-- `xDefaultInstanceHandle` is not NULL. -/
  handle : Bool
  client : ι → AgentClientPc

inductive AgentSystemEvent (ι : Type*) where
  | agent (answer : CallAnswer)
  | sleep (i : ι)
  | bitSeen (i : ι)
  | poll (i : ι)
  | use (i : ι)

namespace AgentSystem

variable {ι : Type*} [DecidableEq ι]

def start : AgentSystem ι :=
  ⟨.allocBuffer, fun _ => false, fun _ => false, false, false, fun _ => .idle⟩

def Enabled (s : AgentSystem ι) : AgentSystemEvent ι → Prop
  | .agent answer => s.stage ≠ .deleted ∧ (answer = .unusable → s.stage.mayBeUnusable = true)
  | .sleep i => s.client i = .idle
  | .bitSeen i => s.client i = .awaitingBit ∧ s.initBit = true
  | .poll i => s.client i = .pollingHandle
  | .use i => s.client i = .holding

def acquire (s : AgentSystem ι) (r : AgentResource) : AgentSystem ι :=
  { s with field := Function.update s.field r true, live := Function.update s.live r true }

/-- `none` where something is freed that is not there. -/
def release (s : AgentSystem ι) (r : AgentResource) : Option (AgentSystem ι) :=
  if s.field r then
    if s.live r then some { s with live := Function.update s.live r false } else none
  else some s

/-- What a call takes or gives back; `none` where it writes to what it was not given. -/
def effect (s : AgentSystem ι) (answer : CallAnswer) : Option (AgentSystem ι) :=
  match s.stage.acquires, s.stage.releases with
  | some r, _ =>
      if answer = .refused then (if s.stage.fills then none else some s) else some (s.acquire r)
  | none, some r => s.release r
  | none, none => some s

def moveOn (s : AgentSystem ι) (answer : CallAnswer) : AgentSystem ι :=
  { s with
    stage := s.stage.after answer
    initBit := (s.initBit || s.stage == .setInitBit) && s.stage != .clearBits
    handle := s.handle || s.stage == .setHandle }

def setClient (s : AgentSystem ι) (i : ι) (pc : AgentClientPc) : AgentSystem ι :=
  { s with client := Function.update s.client i pc }

/-- `none` where something is used or freed that is not there. -/
def next (s : AgentSystem ι) : AgentSystemEvent ι → Option (AgentSystem ι)
  | .agent answer =>
      if s.stage.needs.all s.live then (s.effect answer).map (·.moveOn answer) else none
  | .sleep i => some (s.setClient i .awaitingBit)
  | .bitSeen i => some (s.setClient i .pollingHandle)
  | .poll i => some (s.setClient i (if s.handle then .holding else .pollingHandle))
  | .use _ => if s.live .pxCtx && s.live .xQueue then some s else none

def Step (s : AgentSystem ι) (e : AgentSystemEvent ι) (t : AgentSystem ι) : Prop :=
  s.Enabled e ∧ s.next e = some t

end AgentSystem

namespace AgentStage

def setUp : AgentStage → Bool
  | freeQueue | freeIdentifier | freeEndpoint | freeMutex | freeCtx | disconnect | freeTransport
  | clearBits | deleted => false
  | _ => true

def returned : AgentStage → List AgentResource
  | freeIdentifier => [.xQueue]
  | freeEndpoint => [.xQueue, .pClientIdentifier]
  | freeMutex => [.xQueue, .pClientIdentifier, .pcMqttEndpoint]
  | freeCtx => [.xQueue, .pClientIdentifier, .pcMqttEndpoint, .xMutex]
  | disconnect | freeTransport =>
      [.xQueue, .pClientIdentifier, .pcMqttEndpoint, .xMutex, .pxCtx]
  | clearBits | deleted =>
      [.xQueue, .pClientIdentifier, .pcMqttEndpoint, .xMutex, .pxCtx, .pxNetworkContext]
  | _ => []

def allResources : List AgentResource :=
  [.pucNetworkBuffer, .pxNetworkContext, .pxCtx, .pClientIdentifier, .xQueue, .pcMqttEndpoint,
    .xMutex, .xCommandPoolQueue]

/-- What is there at least, if the handle was set or not. -/
def must (handle : Bool) : AgentStage → List AgentResource
  | allocBuffer | clearBits | deleted => []
  | allocTransport => [.pucNetworkBuffer]
  | configureTransport | allocCtx | disconnect | freeTransport =>
      [.pucNetworkBuffer, .pxNetworkContext]
  | readIdentifier | freeIdentifier | freeEndpoint | freeMutex | freeCtx =>
      [.pucNetworkBuffer, .pxNetworkContext, .pxCtx]
  | freeQueue =>
      if handle then allResources else [.pucNetworkBuffer, .pxNetworkContext, .pxCtx]
  | createQueue => [.pucNetworkBuffer, .pxNetworkContext, .pxCtx, .pClientIdentifier]
  | readEndpoint => [.pucNetworkBuffer, .pxNetworkContext, .pxCtx, .pClientIdentifier, .xQueue]
  | readPort | createMutex =>
      [.pucNetworkBuffer, .pxNetworkContext, .pxCtx, .pClientIdentifier, .xQueue, .pcMqttEndpoint]
  | initPool =>
      [.pucNetworkBuffer, .pxNetworkContext, .pxCtx, .pClientIdentifier, .xQueue, .pcMqttEndpoint,
        .xMutex]
  | initAgent | setInitBit | setHandle | setRecvCallback | reconnectLoop => allResources

/-- What is there at most. -/
def may (stage : AgentStage) : List AgentResource :=
  if stage.setUp then stage.must false else allResources.filter (· ∉ stage.returned)

def published : AgentStage → Bool
  | setRecvCallback | reconnectLoop => true
  | stage => !stage.setUp

/-- `prvFreeAgentTaskCtx` has deleted the queue. -/
def tornDown : AgentStage → Bool
  | freeIdentifier | freeEndpoint | freeMutex | freeCtx | disconnect | freeTransport | clearBits
  | deleted => true
  | _ => false

section tables

variable (stage : AgentStage) (answer : CallAnswer) (handle : Bool)

theorem table_quiet (hacquires : stage.acquires = none ∨ answer = .refused)
    (hreleases : stage.releases = none) (hhandle : handle = true → stage.published = true) :
    (stage.after answer).must (handle || stage == .setHandle) ⊆ stage.must handle ∧
      stage.may ⊆ (stage.after answer).may ∧ stage.returned ⊆ (stage.after answer).returned := by
  revert hacquires hreleases hhandle
  cases stage <;> cases answer <;> cases handle <;> decide

theorem table_acquires {r : AgentResource} (hacquires : stage.acquires = some r)
    (hanswer : answer = .ok ∨ answer = .unusable ∧ stage.mayBeUnusable = true)
    (hhandle : handle = true → stage.published = true) :
    (stage.after answer).must (handle || stage == .setHandle) ⊆ r :: stage.must handle ∧
      r :: stage.may ⊆ (stage.after answer).may ∧
      stage.returned ⊆ (stage.after answer).returned := by
  revert hacquires hanswer hhandle
  cases stage <;> cases answer <;> cases handle <;> cases r <;> decide

theorem table_releases {r : AgentResource} (hreleases : stage.releases = some r)
    (hhandle : handle = true → stage.published = true) :
    (stage.after answer).must (handle || stage == .setHandle) ⊆
        (stage.must handle).filter (· ≠ r) ∧
      stage.may.filter (· ≠ r) ⊆ (stage.after answer).may ∧
      r :: stage.returned ⊆ (stage.after answer).returned := by
  revert hreleases hhandle
  cases stage <;> cases answer <;> cases handle <;> cases r <;> decide

theorem table_published (hhandle : handle = true → stage.published = true)
    (hset : (handle || stage == .setHandle) = true) : (stage.after answer).published = true := by
  revert hhandle hset
  cases stage <;> cases answer <;> cases handle <;> decide

/-- A handle is good until the queue is deleted. -/
theorem table_tornDown (hpublished : stage.published = true) :
    (stage.tornDown = false → .pxCtx ∈ stage.must true ∧ .xQueue ∈ stage.must true) ∧
      (stage.tornDown = true → .xQueue ∉ stage.may) := by
  revert hpublished
  cases stage <;> decide

theorem table_needs : stage.needs ⊆ stage.must handle := by
  cases stage <;> cases handle <;> decide

/-- What a call gives back it has not given back before. -/
theorem table_releases_notMem {r : AgentResource} (hreleases : stage.releases = some r) :
    r ∉ stage.returned := by
  revert hreleases
  cases stage <;> cases r <;> decide

end tables

end AgentStage

namespace AgentSystem

variable {ι : Type*}

structure Sound (s : AgentSystem ι) : Prop where
  within : Within s.live (s.stage.must s.handle) s.stage.may
  fields : ∀ r, s.live r = true → s.field r = true
  held : ∀ r, s.field r = true → s.live r = true ∨ r ∈ s.stage.returned
  handle : s.handle = true → s.stage.published = true
  client : ∀ i, s.client i = .holding → s.handle = true

section steps

variable {s t : AgentSystem ι} {answer : CallAnswer}

theorem sound_start : (start : AgentSystem ι).Sound where
  within := ⟨nofun, nofun⟩
  fields := nofun
  held := nofun
  handle := nofun
  client := nofun

theorem Sound.moveOn (h : s.Sound) {u : AgentSystem ι} (hstage : u.stage = s.stage)
    (hhandle : u.handle = s.handle) (hclient : u.client = s.client)
    (hwithin : Within u.live ((s.stage.after answer).must (s.handle || s.stage == .setHandle))
      (s.stage.after answer).may)
    (hfields : ∀ r, u.live r = true → u.field r = true)
    (hheld : ∀ r, u.field r = true → u.live r = true ∨ r ∈ (s.stage.after answer).returned) :
    (u.moveOn answer).Sound := by
  rw [AgentSystem.moveOn, hstage, hhandle]
  constructor
  · exact hwithin
  · exact hfields
  · exact hheld
  · exact AgentStage.table_published s.stage answer s.handle h.handle
  · intro i hi
    have hset := h.client i (hclient ▸ hi)
    exact Bool.or_eq_true_iff.mpr (.inl hset)

theorem Sound.acquire (h : s.Sound) {r : AgentResource} (hacquires : s.stage.acquires = some r)
    (hanswer : answer = .ok ∨ answer = .unusable ∧ s.stage.mayBeUnusable = true) :
    ((s.acquire r).moveOn answer).Sound := by
  obtain ⟨hmust, hmay, hreturned⟩ :=
    AgentStage.table_acquires s.stage answer s.handle hacquires hanswer h.handle
  refine h.moveOn rfl rfl rfl ((h.within.acquire r).mono hmust hmay) ?_ ?_
  · intro q hq
    by_cases hqr : q = r
    · exact hqr ▸ Function.update_self ..
    · have hq' : Function.update s.live r true q = true := hq
      rw [Function.update_of_ne hqr] at hq'
      exact (Function.update_of_ne hqr ..).trans (h.fields q hq')
  · intro q hq
    by_cases hqr : q = r
    · exact .inl (hqr ▸ Function.update_self ..)
    · have hq' : Function.update s.field r true q = true := hq
      rw [Function.update_of_ne hqr] at hq'
      obtain hlive | hback := h.held q hq'
      · exact .inl ((Function.update_of_ne hqr ..).trans hlive)
      · exact .inr (hreturned hback)

theorem Sound.quiet (h : s.Sound) (hacquires : s.stage.acquires = none ∨ answer = .refused)
    (hreleases : s.stage.releases = none) : (s.moveOn answer).Sound := by
  obtain ⟨hmust, hmay, hreturned⟩ :=
    AgentStage.table_quiet s.stage answer s.handle hacquires hreleases h.handle
  exact h.moveOn rfl rfl rfl (h.within.mono hmust hmay) h.fields fun q hq =>
    (h.held q hq).imp_right fun hback => hreturned hback

/-- A pointer that is not NULL is freed once. -/
theorem Sound.release (h : s.Sound) {r : AgentResource} (hreleases : s.stage.releases = some r)
    (answer : CallAnswer) : ∃ u, s.release r = some u ∧ (u.moveOn answer).Sound := by
  obtain ⟨hmust, hmay, hreturned⟩ :=
    AgentStage.table_releases s.stage answer s.handle hreleases h.handle
  have hkept : ∀ q, q ∈ s.stage.returned → q ∈ (s.stage.after answer).returned :=
    fun q hq => hreturned (List.mem_cons_of_mem r hq)
  cases hfield : s.field r with
  | false =>
    have hdead : s.live r = false := Bool.eq_false_iff.mpr fun hlive => by
      rw [h.fields r hlive] at hfield
      cases hfield
    refine ⟨s, by rw [AgentSystem.release, hfield]; rfl, ?_⟩
    exact h.moveOn rfl rfl rfl ((h.within.skip hdead).mono hmust hmay) h.fields fun q hq =>
      (h.held q hq).imp_right (hkept q)
  | true =>
    have hlive : s.live r = true := by
      obtain hlive | hback := h.held r hfield
      · exact hlive
      · exact absurd hback (AgentStage.table_releases_notMem s.stage hreleases)
    refine ⟨{ s with live := Function.update s.live r false }, ?_, ?_⟩
    · rw [AgentSystem.release, hfield, hlive]
      rfl
    refine h.moveOn rfl rfl rfl ((h.within.release r).mono hmust hmay) ?_ ?_
    · intro q hq
      by_cases hqr : q = r
      · exact hqr ▸ hfield
      · have hq' : Function.update s.live r false q = true := hq
        rw [Function.update_of_ne hqr] at hq'
        exact h.fields q hq'
    · intro q hq
      by_cases hqr : q = r
      · exact .inr (hreturned (hqr ▸ List.mem_cons_self))
      · obtain hq' | hback := h.held q hq
        · exact .inl ((Function.update_of_ne hqr ..).trans hq')
        · exact .inr (hkept q hback)

variable [DecidableEq ι]

/-- The agent uses and frees only what is there, and fills the pool's queue if it was made. -/
theorem Sound.agent (h : s.Sound)
    (hanswer : answer = .unusable → s.stage.mayBeUnusable = true)
    (hfills : answer = .refused → s.stage.fills = false) :
    ∃ t, s.next (.agent answer) = some t ∧ t.Sound := by
  have hneeds : s.stage.needs.all s.live = true :=
    List.all_eq_true.mpr fun r hr =>
      h.within.must r (AgentStage.table_needs s.stage s.handle hr)
  rw [next, if_pos hneeds]
  cases hacquires : s.stage.acquires with
  | some r =>
    have hreleases : s.stage.releases = none := by
      revert hacquires
      cases s.stage <;> simp [AgentStage.acquires, AgentStage.releases]
    rw [effect, hacquires]
    by_cases hrefused : answer = .refused
    · have heffect : (if answer = .refused then (if s.stage.fills then none else some s)
          else some (s.acquire r)) = some s := by
        rw [if_pos hrefused, hfills hrefused, if_neg Bool.false_ne_true]
      exact ⟨_, congrArg (Option.map _) heffect, h.quiet (.inr hrefused) hreleases⟩
    · refine ⟨_, congrArg (Option.map _) (if_neg hrefused), h.acquire hacquires ?_⟩
      cases answer with
      | ok => exact .inl rfl
      | refused => exact absurd rfl hrefused
      | unusable => exact .inr ⟨rfl, hanswer rfl⟩
  | none =>
    cases hreleases : s.stage.releases with
    | some r =>
      obtain ⟨u, hu, hsound⟩ := h.release hreleases answer
      rw [effect, hacquires, hreleases]
      exact ⟨u.moveOn answer, congrArg (Option.map _) hu, hsound⟩
    | none =>
      rw [effect, hacquires, hreleases]
      exact ⟨s.moveOn answer, rfl, h.quiet (.inl hacquires) hreleases⟩

/-- The pool's queue is filled although it could not be made. -/
theorem next_of_fills (hrefused : answer = .refused) (hfills : s.stage.fills = true) :
    s.next (.agent answer) = none := by
  obtain ⟨stage, field, live, initBit, handle, client⟩ := s
  subst hrefused
  cases stage <;> cases hfills
  rfl

theorem Sound.setClient (h : s.Sound) (i : ι) {pc : AgentClientPc}
    (hpc : pc = .holding → s.handle = true) : (s.setClient i pc).Sound := by
  refine ⟨h.within, h.fields, h.held, h.handle, fun j hj => ?_⟩
  have hj' : Function.update s.client i pc j = .holding := hj
  by_cases hji : j = i
  · rw [hji, Function.update_self] at hj'
    exact hpc hj'
  · rw [Function.update_of_ne hji] at hj'
    exact h.client j hj'

theorem Sound.step {e : AgentSystemEvent ι} (h : s.Sound) (hs : s.Step e t) : t.Sound := by
  obtain ⟨he, hnext⟩ := hs
  cases e with
  | agent answer =>
    have hfills : answer = .refused → s.stage.fills = false := by
      intro hrefused
      by_contra hfill
      rw [next_of_fills hrefused ((Bool.not_eq_false _).mp hfill)] at hnext
      cases hnext
    obtain ⟨u, hu, hsound⟩ := h.agent he.2 hfills
    obtain rfl := Option.some.inj (hu.symm.trans hnext)
    exact hsound
  | sleep i =>
    obtain rfl := Option.some.inj hnext
    exact h.setClient i nofun
  | bitSeen i =>
    obtain rfl := Option.some.inj hnext
    exact h.setClient i nofun
  | poll i =>
    obtain rfl := Option.some.inj hnext
    refine h.setClient i fun hpc => ?_
    by_contra hhandle
    rw [if_neg hhandle] at hpc
    cases hpc
  | use i =>
    rw [next, Option.ite_none_right_eq_some] at hnext
    obtain rfl := Option.some.inj hnext.2
    exact h

/-- A call with the handle goes well as long as the queue is there. -/
theorem Sound.use (h : s.Sound) {i : ι} (hi : s.client i = .holding) :
    (s.stage.tornDown = false → s.next (.use i) = some s) ∧
      (s.stage.tornDown = true → s.next (.use i) = none) := by
  have hhandle := h.client i hi
  obtain ⟨hgood, hgone⟩ := AgentStage.table_tornDown s.stage (h.handle hhandle)
  have hwithin := h.within
  rw [hhandle] at hwithin
  refine ⟨fun htorn => ?_, fun htorn => ?_⟩
  · obtain ⟨hctx, hqueue⟩ := hgood htorn
    rw [next, hwithin.must _ hctx, hwithin.must _ hqueue]
    rfl
  · rw [next, hwithin.dead (hgone htorn), Bool.and_false]
    rfl

end steps

variable [DecidableEq ι] {s : AgentSystem ι} {es : List (AgentSystemEvent ι)}

end AgentSystem

end RenesasDemo.Mqtt
