import Mathlib.Logic.Function.Basic
import Mathlib.Data.List.Basic

namespace RenesasDemo.Framework

/-- What is held lies between two lists: all of the first, and nothing outside the second. -/
structure Within {ρ : Type*} (live : ρ → Bool) (must may : List ρ) : Prop where
  must : ∀ r ∈ must, live r = true
  may : ∀ r, live r = true → r ∈ may

namespace Within

variable {ρ : Type*} {live : ρ → Bool} {must may must' may' : List ρ} {r : ρ}

theorem mono (h : Within live must may) (hmust : must' ⊆ must) (hmay : may ⊆ may') :
    Within live must' may' :=
  ⟨fun r hr => h.must r (hmust hr), fun r hr => hmay (h.may r hr)⟩

theorem dead (h : Within live must may) (hr : r ∉ may) : live r = false :=
  Bool.eq_false_iff.mpr fun hlive => hr (h.may r hlive)

variable [DecidableEq ρ]

theorem acquire (h : Within live must may) (r : ρ) :
    Within (Function.update live r true) (r :: must) (r :: may) := by
  constructor
  · intro q hq
    by_cases hqr : q = r
    · rw [hqr, Function.update_self]
    · rw [Function.update_of_ne hqr]
      exact h.must q (List.mem_of_ne_of_mem hqr hq)
  · intro q hq
    by_cases hqr : q = r
    · exact hqr ▸ List.mem_cons_self
    · rw [Function.update_of_ne hqr] at hq
      exact List.mem_cons_of_mem r (h.may q hq)

theorem release (h : Within live must may) (r : ρ) :
    Within (Function.update live r false) (must.filter (· ≠ r)) (may.filter (· ≠ r)) := by
  constructor
  · intro q hq
    obtain ⟨hmem, hqr⟩ := List.mem_filter.mp hq
    rw [Function.update_of_ne (of_decide_eq_true hqr)]
    exact h.must q hmem
  · intro q hq
    by_cases hqr : q = r
    · rw [hqr, Function.update_self] at hq
      cases hq
    · rw [Function.update_of_ne hqr] at hq
      exact List.mem_filter.mpr ⟨h.may q hq, decide_eq_true hqr⟩

theorem skip (h : Within live must may) (hr : live r = false) :
    Within live (must.filter (· ≠ r)) (may.filter (· ≠ r)) := by
  constructor
  · intro q hq
    exact h.must q (List.mem_filter.mp hq).1
  · intro q hq
    refine List.mem_filter.mpr ⟨h.may q hq, decide_eq_true ?_⟩
    rintro rfl
    rw [hr] at hq
    cases hq

end Within

end RenesasDemo.Framework
