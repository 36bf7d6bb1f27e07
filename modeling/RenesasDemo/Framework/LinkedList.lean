import Mathlib.Data.List.Basic
import Mathlib.Data.List.Nodup
import Mathlib.Logic.Function.Basic

namespace RenesasDemo.Framework

/-! Linked lists in memory: nodes at addresses, each with the address of the one behind it. -/

/-- What the node holds, and the address of the next one, 0 for none. -/
structure Node (α : Type*) where
  content : α
  next : Nat
  deriving DecidableEq

section leads

variable {α : Type*} {m m' : Nat → Option (Node α)} {p q r a b : Nat} {y : α}
  {l l1 l2 : List (Nat × α)}

/-- From the address `p` on the nodes at these addresses, with these contents, lead to `q`. -/
def Leads (m : Nat → Option (Node α)) : Nat → List (Nat × α) → Nat → Prop
  | p, [], q => p = q
  | p, (a, x) :: l, q => p = a ∧ a ≠ 0 ∧ ∃ next, m a = some ⟨x, next⟩ ∧ Leads m next l q

theorem leads_append : Leads m p (l1 ++ l2) q ↔ ∃ r, Leads m p l1 r ∧ Leads m r l2 q := by
  induction l1 generalizing p with
  | nil => simp [Leads]
  | cons e l1 ih =>
    constructor
    · rintro ⟨hp, ha, next, hm, h⟩
      obtain ⟨r, h1, h2⟩ := ih.mp h
      exact ⟨r, ⟨hp, ha, next, hm, h1⟩, h2⟩
    · rintro ⟨r, ⟨hp, ha, next, hm, h1⟩, h2⟩
      exact ⟨hp, ha, next, hm, ih.mpr ⟨r, h1, h2⟩⟩

/-- A list depends on its own nodes only. -/
theorem Leads.congr (h : Leads m p l q) (hm : ∀ a ∈ l.map Prod.fst, m' a = m a) :
    Leads m' p l q := by
  induction l generalizing p with
  | nil => exact h
  | cons e l ih =>
    obtain ⟨hp, ha, next, hnode, h⟩ := h
    refine ⟨hp, ha, next, ?_, ih h fun a ha => hm a (List.mem_cons_of_mem _ ha)⟩
    rw [hm e.1 List.mem_cons_self, hnode]

theorem Leads.live (h : Leads m p l q) (ha : a ∈ l.map Prod.fst) : m a ≠ none := by
  induction l generalizing p with
  | nil => cases ha
  | cons e l ih =>
    obtain ⟨hp, -, next, hnode, h⟩ := h
    obtain rfl | ha := List.mem_cons.mp ha
    · rw [hnode]
      exact Option.some_ne_none _
    · exact ih h ha

theorem Leads.of_zero (h : Leads m 0 l q) : l = [] := by
  cases l with
  | nil => rfl
  | cons e l =>
    obtain ⟨hp, ha, -⟩ := h
    exact absurd hp.symm ha

/-- An address is the head of one list at most. -/
theorem Leads.unique (h1 : Leads m p l1 0) (h2 : Leads m p l2 0) : l1 = l2 := by
  induction l1 generalizing p l2 with
  | nil =>
    have hp : p = 0 := h1
    subst hp
    exact h2.of_zero.symm
  | cons e l1 ih =>
    obtain ⟨rfl, ha, next, hnode, h1⟩ := h1
    cases l2 with
    | nil => exact absurd h2 ha
    | cons e2 l2 =>
      obtain ⟨he, -, next2, hnode2, h2⟩ := h2
      rw [he, hnode2] at hnode
      obtain ⟨hx, hnext⟩ := Node.mk.inj (Option.some.inj hnode)
      subst hnext
      rw [ih h1 h2, Prod.ext he hx.symm]

/-- No node comes twice, as the nodes behind it would be a list of two lengths. -/
theorem Leads.nodup (h : Leads m p l 0) : (l.map Prod.fst).Nodup := by
  induction l generalizing p with
  | nil => exact List.nodup_nil
  | cons e l ih =>
    have hwhole := h
    obtain ⟨rfl, -, next, -, hrest⟩ := h
    refine List.nodup_cons.mpr ⟨?_, ih hrest⟩
    intro hmem
    obtain ⟨e2, he2, hfst⟩ := List.mem_map.mp hmem
    obtain ⟨l1, l2, rfl⟩ := List.append_of_mem he2
    obtain ⟨r, -, hsecond⟩ := leads_append.mp hrest
    have hr : r = e.1 := hsecond.1.trans hfst
    rw [hr] at hsecond
    have hlength := congrArg List.length (hwhole.unique hsecond)
    rw [List.length_cons, List.length_append, List.length_cons] at hlength
    omega

/-- A node of a list is made to lead to another list, whatever stood behind it. -/
theorem Leads.relink (h : Leads m p (l1 ++ (b, y) :: l2) q) (hb : m' b = some ⟨y, r⟩)
    (hfront : ∀ a ∈ l1.map Prod.fst, m' a = m a) (hrest : Leads m' r l q) :
    Leads m' p (l1 ++ (b, y) :: l) q := by
  obtain ⟨s, h1, hs, hzero, -⟩ := leads_append.mp h
  exact leads_append.mpr ⟨s, h1.congr hfront, hs, hzero, r, hb, hrest⟩

/-- What stands around a node is elsewhere. -/
theorem Leads.ne_of_mem (h : Leads m p (l1 ++ (b, y) :: l2) 0)
    (ha : a ∈ (l1 ++ l2).map Prod.fst) : a ≠ b := by
  have hnodup := h.nodup
  rw [List.map_append, List.map_cons, List.nodup_middle, ← List.map_append] at hnodup
  exact ne_of_mem_of_not_mem ha (List.nodup_cons.mp hnodup).1

/-- A new node is linked in behind another: the other leads to it, and it to what was there. -/
theorem Leads.insertBehind {x : α} (h : Leads m p (l1 ++ (b, y) :: l2) 0) (hback : Leads m r l2 0)
    (ha : a ≠ 0) (hnew : ∀ c ∈ (l1 ++ (b, y) :: l2).map Prod.fst, c ≠ a) :
    Leads (Function.update (Function.update m b (some ⟨y, a⟩)) a (some ⟨x, r⟩)) p
      (l1 ++ (b, y) :: (a, x) :: l2) 0 := by
  have hkept : ∀ c ∈ (l1 ++ l2).map Prod.fst,
      Function.update (Function.update m b (some ⟨y, a⟩)) a (some ⟨x, r⟩) c = m c := by
    intro c hc
    have hca : c ≠ a := by
      apply hnew
      simp only [List.map_append, List.map_cons, List.mem_append, List.mem_cons] at hc ⊢
      tauto
    rw [Function.update_of_ne hca, Function.update_of_ne (h.ne_of_mem hc)]
  refine h.relink ?_ ?_ ⟨rfl, ha, r, Function.update_self .., ?_⟩
  · rw [Function.update_of_ne (hnew b (by simp)), Function.update_self]
  · exact fun c hc => hkept c (by simp [hc])
  · exact hback.congr fun c hc => hkept c (by simp [hc])

/-- The node behind another is taken out: the other leads to what was behind both. -/
theorem Leads.removeBehind {x : α} (h : Leads m p (l1 ++ (b, y) :: (a, x) :: l2) 0)
    (hback : Leads m r l2 0) :
    Leads (Function.update (Function.update m b (some ⟨y, r⟩)) a none) p
      (l1 ++ (b, y) :: l2) 0 := by
  have hsecond : Leads m p ((l1 ++ [(b, y)]) ++ (a, x) :: l2) 0 := by
    rwa [List.append_assoc, List.singleton_append]
  have hba : b ≠ a := hsecond.ne_of_mem (by simp)
  have hkept : ∀ c ∈ (l1 ++ l2).map Prod.fst,
      Function.update (Function.update m b (some ⟨y, r⟩)) a none c = m c := by
    intro c hc
    have hcb : c ≠ b := by
      apply h.ne_of_mem
      simp only [List.map_append, List.map_cons, List.mem_append, List.mem_cons] at hc ⊢
      tauto
    have hca : c ≠ a := by
      apply hsecond.ne_of_mem
      simp only [List.map_append, List.mem_append] at hc ⊢
      tauto
    rw [Function.update_of_ne hca, Function.update_of_ne hcb]
  refine h.relink (r := r) ?_ ?_ ?_
  · rw [Function.update_of_ne hba, Function.update_self]
  · exact fun c hc => hkept c (by simp [hc])
  · exact hback.congr fun c hc => hkept c (by simp [hc])

end leads

end RenesasDemo.Framework
