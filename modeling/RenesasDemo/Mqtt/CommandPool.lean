import Mathlib.Data.List.Nodup
import Mathlib.Data.List.Perm.Basic
import RenesasDemo.Framework.Runs

namespace RenesasDemo.Mqtt

open Framework

/-- Where the array `commandStructurePool` lies in memory. -/
structure PoolLayout where
  commandStructurePool : Nat
  sizeofMQTTAgentCommand : Nat
  mqttCommandContextsPoolSize : Nat
  pool_pos : 0 < commandStructurePool
  sizeof_pos : 0 < sizeofMQTTAgentCommand

namespace PoolLayout

def element (L : PoolLayout) (ulIdx : Nat) : Nat :=
  L.commandStructurePool + ulIdx * L.sizeofMQTTAgentCommand

def elements (L : PoolLayout) : List Nat :=
  (List.range L.mqttCommandContextsPoolSize).map L.element

/-- What the range check of `Agent_ReleaseCommand` lets through. -/
def InRange (L : PoolLayout) (p : Nat) : Prop :=
  ¬ (p < L.commandStructurePool ∨ L.element L.mqttCommandContextsPoolSize < p)

instance (L : PoolLayout) (p : Nat) : Decidable (L.InRange p) :=
  inferInstanceAs (Decidable (¬ _))

theorem element_injective (L : PoolLayout) : Function.Injective L.element := by
  intro i j h
  have hmul : i * L.sizeofMQTTAgentCommand = j * L.sizeofMQTTAgentCommand :=
    Nat.add_left_cancel h
  exact Nat.eq_of_mul_eq_mul_right L.sizeof_pos hmul

theorem elements_nodup (L : PoolLayout) : L.elements.Nodup :=
  List.nodup_range.map L.element_injective

end PoolLayout

/-- `xQueueSend` without waiting to a queue of `uxQueueLength` items. -/
def xQueueSend (uxQueueLength : Nat) (q : List Nat) (p : Nat) : Bool × List Nat :=
  if q.length < uxQueueLength then (true, q ++ [p]) else (false, q)

/-- The queue of free structures, none before it is created, and the pointers handed out by
`Agent_GetCommand` and not taken back since. Pointers are addresses, NULL is 0. -/
structure CommandPool where
  xCommandPoolQueue : Option (List Nat)
  outstanding : List Nat

inductive PoolEvent where
  | initializePool
  | getCommand
  | releaseCommand (pCommandToRelease : Nat)

namespace CommandPool

def start : CommandPool := ⟨none, []⟩

/-- The queue is created unless it exists. -/
def agentInitializePool (L : PoolLayout) (s : CommandPool) : CommandPool :=
  match s.xCommandPoolQueue with
  | some _ => s
  | none =>
      { s with
        xCommandPoolQueue := some ((List.range L.mqttCommandContextsPoolSize).foldl
          (fun q ulIdx => (xQueueSend L.mqttCommandContextsPoolSize q (L.element ulIdx)).2) []) }

def agentGetCommand (s : CommandPool) : Nat × CommandPool :=
  match s.xCommandPoolQueue with
  | some (p :: q) => (p, ⟨some q, p :: s.outstanding⟩)
  | some [] => (0, s)
  | none => (0, s)

def agentReleaseCommand (L : PoolLayout) (s : CommandPool) (pCommandToRelease : Nat) :
    Bool × CommandPool :=
  match s.xCommandPoolQueue with
  | none => (false, s)
  | some q =>
      if pCommandToRelease < L.commandStructurePool ∨
          L.element L.mqttCommandContextsPoolSize < pCommandToRelease then (false, s)
      else
        match xQueueSend L.mqttCommandContextsPoolSize q pCommandToRelease with
        | (true, q') => (true, ⟨some q', s.outstanding.erase pCommandToRelease⟩)
        | (false, _) => (false, s)

def next (L : PoolLayout) (s : CommandPool) : PoolEvent → CommandPool
  | .initializePool => s.agentInitializePool L
  | .getCommand => s.agentGetCommand.2
  | .releaseCommand p => (s.agentReleaseCommand L p).2

/-- A structure is handed out only while it is free, and taken back only while it is not. -/
def Exclusive (L : PoolLayout) (s : CommandPool) : PoolEvent → Prop
  | .initializePool => True
  | .getCommand => s.agentGetCommand.1 ≠ 0 →
      s.agentGetCommand.1 ∈ L.elements ∧ s.agentGetCommand.1 ∉ s.outstanding
  | .releaseCommand p => (s.agentReleaseCommand L p).1 = true →
      p ∈ L.elements ∧ p ∈ s.outstanding

/-- A pointer from the first structure to one past the last, given back while a structure is
missing from the queue, is one that is handed out. -/
def ReleaseOk (L : PoolLayout) (s : CommandPool) : PoolEvent → Prop
  | .initializePool => True
  | .getCommand => True
  | .releaseCommand p => L.InRange p →
      (∃ q ∈ s.xCommandPoolQueue, q.length < L.mqttCommandContextsPoolSize) → p ∈ s.outstanding

instance (L : PoolLayout) (s : CommandPool) (e : PoolEvent) : Decidable (s.Exclusive L e) := by
  cases e <;> unfold Exclusive <;> infer_instance

/-- The free structures and those handed out are the structures of the pool. -/
structure Accounted (L : PoolLayout) (s : CommandPool) : Prop where
  created : ∀ q ∈ s.xCommandPoolQueue, (q ++ s.outstanding).Perm L.elements
  initial : s.xCommandPoolQueue = none → s.outstanding = []

section accounted

variable {L : PoolLayout} {s : CommandPool} {p : Nat} {q : List Nat}

theorem foldl_xQueueSend (L : PoolLayout) {n : Nat} (hn : n ≤ L.mqttCommandContextsPoolSize) :
    (List.range n).foldl
      (fun q ulIdx => (xQueueSend L.mqttCommandContextsPoolSize q (L.element ulIdx)).2) [] =
      (List.range n).map L.element := by
  induction n with
  | zero => rfl
  | succ n ih =>
    have hlen : ((List.range n).map L.element).length < L.mqttCommandContextsPoolSize := by
      rw [List.length_map, List.length_range]
      exact hn
    rw [List.range_succ, List.foldl_append, ih (Nat.le_of_succ_le hn), List.foldl_cons,
      List.foldl_nil, xQueueSend, if_pos hlen, List.map_append]
    rfl

theorem Accounted.nodup (h : s.Accounted L) (hq : s.xCommandPoolQueue = some q) :
    (q ++ s.outstanding).Nodup :=
  (h.created q hq).nodup_iff.mpr L.elements_nodup

theorem Accounted.mem_elements (h : s.Accounted L) (hp : p ∈ s.outstanding) :
    p ∈ L.elements := by
  cases hq : s.xCommandPoolQueue with
  | none =>
    rw [h.initial hq] at hp
    cases hp
  | some q => exact (h.created q hq).subset (List.mem_append_right q hp)

theorem Accounted.initializePool (h : s.Accounted L) : (s.agentInitializePool L).Accounted L := by
  rw [agentInitializePool]
  split
  · exact h
  · next hnone =>
    constructor
    · intro q hq
      obtain rfl := Option.some.inj hq
      rw [foldl_xQueueSend L (Nat.le_refl _), h.initial hnone, List.append_nil]
      exact .refl _
    · intro hq
      cases hq

theorem Accounted.getCommand (h : s.Accounted L) :
    s.Exclusive L .getCommand ∧ s.agentGetCommand.2.Accounted L := by
  rw [Exclusive, agentGetCommand]
  split
  · next p q hq =>
    have hnd := h.nodup hq
    have hperm := h.created _ hq
    refine ⟨fun _ => ⟨hperm.subset (by simp), ?_⟩, ?_, ?_⟩
    · intro hp
      exact (List.nodup_append.mp hnd).2.2 p List.mem_cons_self p hp rfl
    · intro q' hq'
      obtain rfl := Option.some.inj hq'
      exact List.perm_middle.trans hperm
    · intro hq'
      cases hq'
  · exact ⟨fun hne => absurd rfl hne, h⟩
  · exact ⟨fun hne => absurd rfl hne, h⟩

/-- A release either changes nothing and fails, or puts the pointer at the end of the queue. -/
theorem agentReleaseCommand_cases (L : PoolLayout) (s : CommandPool) (p : Nat) :
    s.agentReleaseCommand L p = (false, s) ∨
      ∃ q, s.xCommandPoolQueue = some q ∧ L.InRange p ∧
        q.length < L.mqttCommandContextsPoolSize ∧
        s.agentReleaseCommand L p = (true, ⟨some (q ++ [p]), s.outstanding.erase p⟩) := by
  rw [agentReleaseCommand]
  cases hq : s.xCommandPoolQueue with
  | none => exact .inl rfl
  | some q =>
    simp only [xQueueSend]
    by_cases hrange : p < L.commandStructurePool ∨ L.element L.mqttCommandContextsPoolSize < p
    · rw [if_pos hrange]
      exact .inl rfl
    · rw [if_neg hrange]
      by_cases hlen : q.length < L.mqttCommandContextsPoolSize
      · rw [if_pos hlen]
        exact .inr ⟨q, rfl, hrange, hlen, rfl⟩
      · rw [if_neg hlen]
        exact .inl rfl

theorem Accounted.releaseCommand (h : s.Accounted L) (hok : s.ReleaseOk L (.releaseCommand p)) :
    s.Exclusive L (.releaseCommand p) ∧ (s.agentReleaseCommand L p).2.Accounted L := by
  obtain hres | ⟨q, hq, hrange, hlen, hres⟩ := agentReleaseCommand_cases L s p
  · rw [Exclusive, hres]
    refine ⟨?_, h⟩
    intro htrue
    cases htrue
  · have hp : p ∈ s.outstanding := hok hrange ⟨q, hq, hlen⟩
    rw [Exclusive, hres]
    refine ⟨fun _ => ⟨h.mem_elements hp, hp⟩, ?_, ?_⟩
    · intro q' hq'
      obtain rfl := Option.some.inj hq'
      have hback : (p :: s.outstanding.erase p).Perm s.outstanding :=
        (List.perm_cons_erase hp).symm
      rw [List.append_assoc, List.singleton_append]
      exact (hback.append_left q).trans (h.created q hq)
    · intro hnone
      cases hnone

theorem Accounted.step {e : PoolEvent} (h : s.Accounted L) (hok : s.ReleaseOk L e) :
    s.Exclusive L e ∧ (s.next L e).Accounted L := by
  cases e with
  | initializePool => exact ⟨trivial, h.initializePool⟩
  | getCommand => exact h.getCommand
  | releaseCommand p => exact h.releaseCommand hok

theorem Exclusive.releaseOk {e : PoolEvent} (h : s.Exclusive L e) : s.ReleaseOk L e := by
  cases e with
  | initializePool => trivial
  | getCommand => trivial
  | releaseCommand p =>
    intro hrange hspace
    obtain ⟨q, hq, hlen⟩ := hspace
    have hsent : (s.agentReleaseCommand L p).1 = true := by
      have hout : ¬ (p < L.commandStructurePool ∨
        L.element L.mqttCommandContextsPoolSize < p) := hrange
      rw [agentReleaseCommand, Option.mem_def.mp hq]
      simp only [xQueueSend, if_neg hout, if_pos hlen]
    exact (h hsent).2

end accounted

/-- Calls in any order are exclusive exactly when each release is in order. -/
theorem exclusive_run (L : PoolLayout) (events : List PoolEvent) :
    Admits (Exclusive L) (next L) start events ↔ Admits (ReleaseOk L) (next L) start events := by
  constructor
  · intro h
    exact h.mono fun _ _ hex => hex.releaseOk
  · intro h
    have hstart : start.Accounted L := ⟨fun _ hq => absurd hq (by simp [start]), fun _ => rfl⟩
    exact h.mono_of_invariant (Accounted L) (fun _ _ hs hok => hs.step hok) hstart

/-- The pointer just past the end is taken for a structure of the pool. -/
theorem not_exclusive_pastEnd :
    ¬ Admits (Exclusive ⟨4096, 64, 2, by decide, by decide⟩)
      (next ⟨4096, 64, 2, by decide, by decide⟩) start
      [.initializePool, .getCommand, .releaseCommand 4224] := by
  decide +kernel

end CommandPool

end RenesasDemo.Mqtt
