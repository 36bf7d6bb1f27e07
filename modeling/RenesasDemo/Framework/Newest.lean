import Mathlib.Data.List.Basic
import Mathlib.Data.List.Induction
import Mathlib.Order.Lattice

namespace RenesasDemo.Framework

/-! Items that arrive in any order with versions, of which only those count that are newer than all
before them. -/

section newest

variable {α β ν : Type*} [LinearOrder ν] (version : α → Option ν) (value : α → Option β) (least : ν)

def newest (as : List α) : ν := (as.filterMap version).foldl max least

/-- The item has a version, and it exceeds that of every item before. -/
def Exceeds (before : List α) (a : α) : Prop :=
  ∃ v ∈ version a, ∀ b ∈ before, ∀ w ∈ version b, w < v

/-- Its version exceeds `least` as well. -/
def Newer (before : List α) (a : α) : Prop :=
  (∃ v ∈ version a, least < v) ∧ Exceeds version before a

instance (before : List α) (a : α) : Decidable (Exceeds version before a) :=
  inferInstanceAs (Decidable (∃ v ∈ version a, _))

instance (before : List α) (a : α) : Decidable (Newer version least before a) :=
  inferInstanceAs (Decidable (_ ∧ _))

/-- What the items carry that `P` picks by the items before them, in order. -/
def picked (P : List α → α → Prop) [∀ before a, Decidable (P before a)] (as : List α) : List β :=
  (List.range as.length).filterMap fun i =>
    as[i]?.bind fun a => if P (as.take i) a then value a else none

/-- One item of a process that remembers the largest version and discards what is not above it. -/
def applyNewer (s : ν × β) (a : α) : ν × β :=
  match version a with
  | none => s
  | some v => if v ≤ s.1 then s else (v, (value a).getD s.2)

variable {version value least} {before as : List α} {a : α}

theorem newest_concat :
    newest version least (as ++ [a]) = ((version a).map (max (newest version least as))).getD
      (newest version least as) := by
  rw [newest, List.filterMap_append, List.foldl_append]
  cases hv : version a with
  | none =>
    rw [List.filterMap_cons_none hv]
    rfl
  | some v =>
    rw [List.filterMap_cons_some hv]
    rfl

theorem newest_lt_iff {v : ν} :
    newest version least as < v ↔ least < v ∧ ∀ b ∈ as, ∀ w ∈ version b, w < v := by
  induction as using List.reverseRecOn with
  | nil => simp [newest]
  | append_singleton as a ih =>
    rw [newest_concat]
    cases hv : version a with
    | none => simp [ih, hv, or_imp, forall_and]
    | some w => simp [ih, hv, or_imp, forall_and, and_assoc]

/-- To exceed the versions before is to exceed the largest of them. -/
theorem newer_iff :
    Newer version least before a ↔ ∃ v ∈ version a, newest version least before < v := by
  rw [Newer, Exceeds]
  cases version a with
  | none => simp
  | some v => simp [newest_lt_iff]

theorem picked_concat (P : List α → α → Prop) [∀ before a, Decidable (P before a)] :
    picked value P (as ++ [a]) =
      picked value P as ++ (if P as a then value a else none).toList := by
  have hfront : ∀ i ∈ List.range as.length,
      ((as ++ [a])[i]?.bind fun b => if P ((as ++ [a]).take i) b then value b else none) =
        as[i]?.bind fun b => if P (as.take i) b then value b else none := by
    intro i hi
    have hlt : i < as.length := List.mem_range.mp hi
    rw [List.getElem?_append_left hlt, List.take_append_of_le_length hlt.le]
  rw [picked, List.length_append, List.length_singleton, List.range_succ, List.filterMap_append,
    List.filterMap_congr hfront, picked]
  congr 1
  rw [List.filterMap_cons, List.getElem?_concat_length, List.take_left' rfl]
  cases hp : (if P as a then value a else none) with
  | none => simp [hp]
  | some b => simp [hp]

theorem applyNewer_of_not_newer {b : β} (h : ¬ Newer version least before a) :
    applyNewer version value (newest version least before, b) a =
      (newest version least before, b) := by
  rw [newer_iff] at h
  cases hv : version a with
  | none => simp only [applyNewer, hv]
  | some v =>
    have hle : v ≤ newest version least before := not_lt.mp fun hlt => h ⟨v, hv, hlt⟩
    simp only [applyNewer, hv]
    rw [if_pos hle]

/-- The process remembers the largest version, and it holds what the last item carried that was
newer than all before it. -/
theorem foldl_applyNewer (as : List α) (b : β) :
    as.foldl (applyNewer version value) (least, b) =
      (newest version least as, (picked value (Newer version least) as).getLast?.getD b) := by
  induction as using List.reverseRecOn with
  | nil => rfl
  | append_singleton as a ih =>
    rw [List.foldl_append, ih, List.foldl_cons, List.foldl_nil, picked_concat, List.getLast?_append]
    by_cases hnewer : Newer version least as a
    · obtain ⟨v, hv, hlt⟩ := newer_iff.mp hnewer
      have hversion : version a = some v := hv
      rw [newest_concat, if_pos hnewer]
      simp only [applyNewer, hversion]
      rw [if_neg (not_le.mpr hlt)]
      refine Prod.ext (max_eq_right hlt.le).symm ?_
      cases value a <;> rfl
    · have hnewest : newest version least (as ++ [a]) = newest version least as := by
        rw [newest_concat]
        cases hv : version a with
        | none => rfl
        | some v => exact max_eq_left (not_lt.mp fun hlt => hnewer (newer_iff.mpr ⟨v, hv, hlt⟩))
      rw [applyNewer_of_not_newer hnewer, hnewest, if_neg hnewer]
      rfl

end newest

end RenesasDemo.Framework
