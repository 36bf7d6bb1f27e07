import Mathlib.Data.List.Basic

namespace RenesasDemo.Framework

variable {σ α : Type*}

/-- `Run step s as t`: taking the labels `as` in order leads from `s` to `t`. -/
inductive Run (step : σ → α → σ → Prop) : σ → List α → σ → Prop where
  | refl (s : σ) : Run step s [] s
  | tail {s t u : σ} {as : List α} {a : α} :
      Run step s as t → step t a u → Run step s (as ++ [a]) u

/-- The steps of `step` that meet the condition `ok` in the state before them. -/
def Guarded (ok : σ → α → Prop) (step : σ → α → σ → Prop) : σ → α → σ → Prop :=
  fun s a t => ok s a ∧ step s a t

namespace Run

variable {step : σ → α → σ → Prop} {s t u : σ} {as bs : List α}

/-- One-step preservation carries an invariant along every run. -/
theorem invariant {P : σ → Prop} (h : Run step s as t) (h0 : P s)
    (hstep : ∀ s a t, P s → step s a t → P t) : P t := by
  induction h with
  | refl => exact h0
  | tail _ hs ih => exact hstep _ _ _ ih hs

/-- Where every label that counts takes from a measure, and no other adds to it, a run has no more
of them than the measure it starts with. -/
theorem countP_add_le {P : σ → Prop} (counts : α → Bool) (μ : σ → Nat) (h : Run step s as t)
    (h0 : P s) (hstep : ∀ s a t, P s → step s a t → P t ∧ (counts a).toNat + μ t ≤ μ s) :
    as.countP counts + μ t ≤ μ s := by
  have hboth : P t ∧ as.countP counts + μ t ≤ μ s := by
    induction h with
    | refl => exact ⟨h0, by simp⟩
    | @tail t u as a _ hs ih =>
      obtain ⟨ht, hle⟩ := ih
      obtain ⟨hu, hdec⟩ := hstep _ _ _ ht hs
      refine ⟨hu, ?_⟩
      have hcount : (as ++ [a]).countP counts = as.countP counts + (counts a).toNat := by
        cases ha : counts a <;> simp [List.countP_append, ha]
      omega
  exact hboth.2

theorem mono {step' : σ → α → σ → Prop} (himp : ∀ s a t, step s a t → step' s a t)
    (h : Run step s as t) : Run step' s as t := by
  induction h with
  | refl => exact .refl _
  | tail _ hs ih => exact .tail ih (himp _ _ _ hs)

theorem single {a : α} (h : step s a t) : Run step s [a] t := by
  simpa using Run.tail (.refl s) h

theorem append (h1 : Run step s as t) (h2 : Run step t bs u) : Run step s (as ++ bs) u := by
  induction h2 with
  | refl => simpa using h1
  | tail _ hs ih => simpa [List.append_assoc] using Run.tail ih hs

theorem cons {a : α} (h : step s a t) (hr : Run step t as u) : Run step s (a :: as) u := by
  simpa using (single h).append hr

theorem nil_inv (h : Run step s [] t) : s = t := by
  generalize hlabels : [] = labels at h
  cases h with
  | refl => rfl
  | tail => simp at hlabels

theorem cons_inv {a : α} (h : Run step s (a :: as) u) : ∃ t, step s a t ∧ Run step t as u := by
  generalize hlabels : a :: as = labels at h
  induction h generalizing as with
  | refl => cases hlabels
  | @tail t u labels b hr hs ih =>
    cases labels with
    | nil =>
      obtain ⟨rfl, rfl⟩ := List.cons_eq_cons.mp hlabels
      obtain rfl := nil_inv hr
      exact ⟨u, hs, .refl u⟩
    | cons a' as' =>
      obtain ⟨rfl, rfl⟩ := List.cons_eq_cons.mp hlabels
      obtain ⟨v, hv, hrest⟩ := ih rfl
      exact ⟨v, hv, hrest.tail hs⟩

/-- A run can be cut at any of its states. -/
theorem append_inv (h : Run step s (as ++ bs) u) : ∃ t, Run step s as t ∧ Run step t bs u := by
  induction as generalizing s with
  | nil => exact ⟨s, .refl s, h⟩
  | cons a as ih =>
    obtain ⟨v, hv, hrest⟩ := cons_inv h
    obtain ⟨t, has, hbs⟩ := ih hrest
    exact ⟨t, .cons hv has, hbs⟩

end Run

/-- Each label is enabled in the state in which `next` meets it. -/
def Admits (enabled : σ → α → Prop) (next : σ → α → σ) : σ → List α → Prop
  | _, [] => True
  | s, a :: as => enabled s a ∧ Admits enabled next (next s a) as

instance Admits.decidable (enabled : σ → α → Prop) [∀ s a, Decidable (enabled s a)]
    (next : σ → α → σ) : ∀ s as, Decidable (Admits enabled next s as)
  | _, [] => inferInstanceAs (Decidable True)
  | s, a :: as =>
      have := Admits.decidable enabled next (next s a) as
      inferInstanceAs (Decidable (enabled s a ∧ _))

section admits

variable {ok good : σ → α → Prop} {next : σ → α → σ} {s : σ} {as : List α}

/-- Labels that meet one condition meet another, given an invariant that the first preserves. -/
theorem Admits.mono_of_invariant (P : σ → Prop)
    (hstep : ∀ s a, P s → ok s a → good s a ∧ P (next s a)) (h0 : P s)
    (h : Admits ok next s as) : Admits good next s as := by
  induction as generalizing s with
  | nil => exact h
  | cons a as ih =>
    obtain ⟨hgood, hnext⟩ := hstep s a h0 h.1
    exact ⟨hgood, ih hnext h.2⟩

theorem Admits.mono (himp : ∀ s a, ok s a → good s a) (h : Admits ok next s as) :
    Admits good next s as :=
  h.mono_of_invariant (fun _ => True) (fun s a _ hok => ⟨himp s a hok, trivial⟩) trivial

theorem Admits.congr (hiff : ∀ s a, ok s a ↔ good s a) :
    Admits ok next s as ↔ Admits good next s as :=
  ⟨Admits.mono fun s a => (hiff s a).mp, Admits.mono fun s a => (hiff s a).mpr⟩

end admits

/-- A history kept beside the state changes nothing for it. -/
theorem Admits.map {τ : Type*} (ok : σ → α → Prop) {next : σ → α → σ} (f : τ → σ)
    {next' : τ → α → τ} (hf : ∀ t a, f (next' t a) = next (f t) a) (t : τ) (as : List α) :
    Admits (fun t a => ok (f t) a) next' t as ↔ Admits ok next (f t) as := by
  induction as generalizing t with
  | nil => exact Iff.rfl
  | cons a as ih =>
    have hrest := ih (next' t a)
    rw [hf] at hrest
    exact and_congr Iff.rfl hrest

/-- A deterministic step, folded over labels that are enabled, is a run. -/
theorem Run.ofAdmits (enabled : σ → α → Prop) {step : σ → α → σ → Prop} {next : σ → α → σ}
    (hstep : ∀ s a, enabled s a → step s a (next s a)) {s : σ} {as : List α}
    (h : Admits enabled next s as) : Run step s as (as.foldl next s) := by
  induction as generalizing s with
  | nil => exact .refl s
  | cons a as ih =>
    have hrest := ih h.2
    exact .cons (hstep s a h.1) hrest

section loop

variable {ε : Type*} {f : σ → α → Except ε σ} {s t : σ} {as : List α}

theorem foldlM_cons_ok {a : α} (h : (a :: as).foldlM f s = .ok t) :
    ∃ u, f s a = .ok u ∧ as.foldlM f u = .ok t := by
  rw [List.foldlM_cons] at h
  cases hfa : f s a with
  | error e =>
    rw [hfa] at h
    cases h
  | ok u =>
    rw [hfa] at h
    exact ⟨u, rfl, h⟩

/-- A loop that came to its end: `P` holds of the elements to come and the state. -/
theorem foldlM_rule {P : List α → σ → Prop}
    (hstep : ∀ a as s t, P (a :: as) s → f s a = .ok t → P as t) (h0 : P as s)
    (h : as.foldlM f s = .ok t) : P [] t := by
  induction as generalizing s with
  | nil =>
    obtain rfl : s = t := Except.ok.inj h
    exact h0
  | cons a as ih =>
    obtain ⟨u, hfa, hrest⟩ := foldlM_cons_ok h
    exact ih (hstep a as s u h0 hfa) hrest

theorem foldlM_total (f : σ → α → Except ε σ) (as : List α) (s : σ) {P : List α → σ → Prop}
    (hstep : ∀ a as s, P (a :: as) s → ∃ t, f s a = .ok t ∧ P as t) (h0 : P as s) :
    ∃ t, as.foldlM f s = .ok t ∧ P [] t := by
  induction as generalizing s with
  | nil => exact ⟨s, rfl, h0⟩
  | cons a as ih =>
    obtain ⟨u, hfa, hu⟩ := hstep a as s h0
    rw [List.foldlM_cons, hfa]
    exact ih u hu

/-- A loop that came to its end is a run of its passes. -/
theorem Run.ofFoldlM (ok : σ → α → Prop) (hok : ∀ a ∈ as, ∀ s, ok s a)
    (h : as.foldlM f s = .ok t) : Run (Guarded ok fun s a t => f s a = .ok t) s as t := by
  induction as generalizing s with
  | nil =>
    obtain rfl : s = t := Except.ok.inj h
    exact .refl s
  | cons a as ih =>
    obtain ⟨u, hfa, hrest⟩ := foldlM_cons_ok h
    have hrun := ih (fun b hb => hok b (List.mem_cons_of_mem a hb)) hrest
    exact .cons ⟨hok a List.mem_cons_self s, hfa⟩ hrun

/-- The computation returns, and what it returns passes the test. -/
def returns (p : σ → Bool) : Except ε σ → Bool
  | .ok s => p s
  | .error _ => false

theorem exists_of_returns {p : σ → Bool} {x : Except ε σ} (h : returns p x = true) :
    ∃ s, x = .ok s ∧ p s = true := by
  cases x with
  | ok s => exact ⟨s, rfl, h⟩
  | error e => cases h

end loop

end RenesasDemo.Framework
