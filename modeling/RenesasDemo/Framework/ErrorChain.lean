import Mathlib.Data.UInt
import Mathlib.Data.List.Basic

namespace RenesasDemo.Framework

/-- What a sequence of library calls leaves behind: the status variable, in which 0 says that there
was no error, and the calls with the status each of them returned. -/
@[ext] structure Outcome (κ : Type*) where
  xError : UInt32
  calls : List (κ × UInt32)
  deriving DecidableEq

namespace Outcome

variable {κ : Type*} {o next : Outcome κ}

/-- `xError = 0`, with nothing called yet. -/
def start : Outcome κ := ⟨0, []⟩

/-- One library call that returns `error`. -/
def call (c : κ) (error : UInt32) : Outcome κ := ⟨error, [(c, error)]⟩

/-- A status without a call. -/
def fail (error : UInt32) : Outcome κ := ⟨error, []⟩

/-- `xError = next`. -/
def assign (o next : Outcome κ) : Outcome κ := ⟨next.xError, o.calls ++ next.calls⟩

/-- `xError |= next`. -/
def orAssign (o next : Outcome κ) : Outcome κ := ⟨o.xError ||| next.xError, o.calls ++ next.calls⟩

/-- `if( xError == 0 ) { xError = next }`. -/
def ifOk (o next : Outcome κ) : Outcome κ := if o.xError = 0 then o.assign next else o

def AllOk (o : Outcome κ) : Prop := ∀ c ∈ o.calls, c.2 = 0

instance : Decidable o.AllOk := inferInstanceAs (Decidable (∀ c ∈ o.calls, c.2 = 0))

/-- The status is 0 just when no call returned an error. -/
def Honest (o : Outcome κ) : Prop := o.xError = 0 ↔ o.AllOk

def made (o : Outcome κ) : List κ := o.calls.map Prod.fst

@[simp] theorem made_start : (start : Outcome κ).made = [] := rfl
@[simp] theorem made_fail (error : UInt32) : (fail error : Outcome κ).made = [] := rfl
@[simp] theorem made_call (c : κ) (error : UInt32) : (call c error).made = [c] := rfl

@[simp] theorem made_assign : (o.assign next).made = o.made ++ next.made :=
  List.map_append

@[simp] theorem made_orAssign : (o.orAssign next).made = o.made ++ next.made :=
  List.map_append

@[simp] theorem allOk_call {c : κ} {error : UInt32} : (call c error).AllOk ↔ error = 0 := by
  simp [AllOk, call]

@[simp] theorem allOk_assign : (o.assign next).AllOk ↔ o.AllOk ∧ next.AllOk := by
  simp only [AllOk, assign, List.mem_append, or_imp, forall_and]

@[simp] theorem allOk_orAssign : (o.orAssign next).AllOk ↔ o.AllOk ∧ next.AllOk := by
  simp only [AllOk, orAssign, List.mem_append, or_imp, forall_and]

@[simp] theorem xError_call (c : κ) (error : UInt32) : (call c error).xError = error := rfl
@[simp] theorem xError_fail (error : UInt32) : (fail error : Outcome κ).xError = error := rfl
@[simp] theorem xError_assign : (o.assign next).xError = next.xError := rfl

@[simp] theorem xError_orAssign_eq_zero :
    (o.orAssign next).xError = 0 ↔ o.xError = 0 ∧ next.xError = 0 :=
  UInt32.or_eq_zero_iff

theorem ifOk_of_ok (h : o.xError = 0) : o.ifOk next = o.assign next := if_pos h
theorem ifOk_of_error (h : o.xError ≠ 0) : o.ifOk next = o := if_neg h

@[simp] theorem xError_ifOk_eq_zero :
    (o.ifOk next).xError = 0 ↔ o.xError = 0 ∧ next.xError = 0 := by
  by_cases h : o.xError = 0
  · simp [ifOk_of_ok h, h]
  · simp [ifOk_of_error h, h]

theorem made_ifOk (h : o.xError = 0) : (o.ifOk next).made = o.made ++ next.made := by
  rw [ifOk_of_ok h, made_assign]

theorem allOk_ifOk (h : o.xError = 0) : (o.ifOk next).AllOk ↔ o.AllOk ∧ next.AllOk := by
  rw [ifOk_of_ok h, allOk_assign]

theorem forall_made_ifOk {P : κ → Prop} (ho : ∀ c ∈ o.made, P c) (hnext : ∀ c ∈ next.made, P c) :
    ∀ c ∈ (o.ifOk next).made, P c := by
  by_cases h : o.xError = 0
  · rw [made_ifOk h, List.forall_mem_append]
    exact ⟨ho, hnext⟩
  · rw [ifOk_of_error h]
    exact ho

theorem honest_call (c : κ) (error : UInt32) : (call c error).Honest :=
  allOk_call.symm

theorem Honest.orAssign (ho : o.Honest) (hnext : next.Honest) : (o.orAssign next).Honest := by
  rw [Honest, xError_orAssign_eq_zero, allOk_orAssign]
  exact and_congr ho hnext

theorem Honest.ifOk (ho : o.Honest) (hnext : next.Honest) : (o.ifOk next).Honest := by
  by_cases h : o.xError = 0
  · have hall : o.AllOk := ho.mp h
    rw [ifOk_of_ok h, Honest, xError_assign, allOk_assign, and_iff_right hall]
    exact hnext
  · rw [ifOk_of_error h]
    exact ho

theorem AllOk.of_ifOk (h : (o.ifOk next).AllOk) : o.AllOk := by
  by_cases hz : o.xError = 0
  · rw [ifOk_of_ok hz, allOk_assign] at h
    exact h.1
  · rwa [ifOk_of_error hz] at h

/-- The loop that assigns each round's status over the one before. -/
def assignAll {β : Type*} (round : β → Outcome κ) (l : List β) : Outcome κ :=
  l.foldl (fun o b => o.assign (round b)) start

section assignAll

variable {β : Type*} (round : β → Outcome κ)

theorem calls_foldl_assign (l : List β) (o : Outcome κ) :
    (l.foldl (fun o b => o.assign (round b)) o).calls
      = o.calls ++ l.flatMap fun b => (round b).calls := by
  induction l generalizing o with
  | nil => simp
  | cons b l ih =>
    rw [List.foldl_cons, ih]
    simp [assign, List.append_assoc]

theorem calls_assignAll (l : List β) :
    (assignAll round l).calls = l.flatMap fun b => (round b).calls := by
  rw [assignAll, calls_foldl_assign]
  simp [start]

@[simp] theorem made_assignAll (l : List β) :
    (assignAll round l).made = l.flatMap fun b => (round b).made := by
  rw [made, calls_assignAll, List.map_flatMap]
  rfl

theorem allOk_assignAll {l : List β} :
    (assignAll round l).AllOk ↔ ∀ b ∈ l, (round b).AllOk := by
  simp only [AllOk, calls_assignAll, List.mem_flatMap, forall_exists_index, and_imp]
  exact ⟨fun h b hb c hc => h c b hb hc, fun h c b hb hc => h b hb c hc⟩

/-- Only the last round decides. -/
theorem xError_assignAll {l : List β} (hne : l ≠ []) :
    (assignAll round l).xError = (round (l.getLast hne)).xError := by
  rw [assignAll]
  conv_lhs => rw [← List.dropLast_append_getLast hne, List.foldl_append]
  rfl

end assignAll
end Outcome
end RenesasDemo.Framework
