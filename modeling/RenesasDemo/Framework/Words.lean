import Mathlib.Data.List.TakeWhile

namespace RenesasDemo.Framework

/-- A part of a text, and where it starts. -/
structure Span (α : Type*) where
  start : Nat
  text : List α
  deriving DecidableEq

section words

variable {α : Type*} (sep : α → Bool)

/-- What stands at a place where a word can end: nothing, or a separator. -/
def Breaks (s : List α) : Prop := ∀ c ∈ s.head?, sep c = true

theorem length_dropWhile_cons_lt {c : α} {s rest : List α} (h : s.dropWhile sep = c :: rest) :
    ((c :: rest).dropWhile fun a => !sep a).length < s.length := by
  have hc : sep c = false := by
    have hhead := List.head?_dropWhile_not sep s
    rw [h] at hhead
    simpa using hhead
  have hle := List.length_dropWhile_le sep s
  have hrest := List.length_dropWhile_le (fun a => !sep a) rest
  rw [h, List.length_cons] at hle
  rw [List.dropWhile_cons, hc, Bool.not_false, if_pos rfl]
  omega

/-- The words of a text that starts at position `i`: its longest parts without a separator. -/
def wordsAt (i : Nat) (s : List α) : List (Span α) :=
  match _h : s.dropWhile sep with
  | [] => []
  | c :: rest =>
    let start := i + (s.takeWhile sep).length
    let word := (c :: rest).takeWhile fun a => !sep a
    ⟨start, word⟩ :: wordsAt (start + word.length) ((c :: rest).dropWhile fun a => !sep a)
termination_by s.length
decreasing_by exact length_dropWhile_cons_lt sep _h

def words (s : List α) : List (Span α) := wordsAt sep 0 s

variable {sep} {i : Nat} {gap word rest : List α}

theorem takeWhile_append_of_stop {p : α → Bool} {l : List α} (hl : ∀ c ∈ l, p c = true)
    (hrest : ∀ c ∈ rest.head?, p c = false) : (l ++ rest).takeWhile p = l := by
  rw [List.takeWhile_append_of_pos hl]
  cases rest with
  | nil => simp
  | cons c rest => simp [hrest c rfl]

theorem dropWhile_append_of_stop {p : α → Bool} {l : List α} (hl : ∀ c ∈ l, p c = true)
    (hrest : ∀ c ∈ rest.head?, p c = false) : (l ++ rest).dropWhile p = rest := by
  rw [List.dropWhile_append_of_pos hl]
  cases rest with
  | nil => rfl
  | cons c rest => simp [hrest c rfl]

theorem word_head (hne : word ≠ []) (hword : ∀ c ∈ word, sep c = false) :
    ∀ c ∈ (word ++ rest).head?, sep c = false := by
  intro c hc
  cases word with
  | nil => exact absurd rfl hne
  | cons a word => exact hword c (Option.mem_some_iff.mp hc ▸ List.mem_cons_self)

/-- Every text is a gap, or a gap with a word behind it that ends where a word can end. -/
theorem gap_or_word (sep : α → Bool) (s : List α) :
    (∀ c ∈ s, sep c = true) ∨
      ∃ gap word rest, s = gap ++ (word ++ rest) ∧ (∀ c ∈ gap, sep c = true) ∧ word ≠ [] ∧
        (∀ c ∈ word, sep c = false) ∧ Breaks sep rest ∧ rest.length < s.length := by
  cases hs : s.dropWhile sep with
  | nil => exact .inl (List.dropWhile_eq_nil_iff.mp hs)
  | cons c rest =>
    right
    have hc : sep c = false := by
      have hhead := List.head?_dropWhile_not sep s
      rw [hs] at hhead
      simpa using hhead
    refine ⟨s.takeWhile sep, (c :: rest).takeWhile fun a => !sep a,
      (c :: rest).dropWhile fun a => !sep a, ?_, fun _ h => List.mem_takeWhile_imp h, ?_, ?_, ?_,
      length_dropWhile_cons_lt sep hs⟩
    · rw [List.takeWhile_append_dropWhile, ← hs, List.takeWhile_append_dropWhile]
    · simp [hc]
    · exact fun a ha => by simpa using List.mem_takeWhile_imp ha
    · intro a ha
      have hhead := List.head?_dropWhile_not (fun a => !sep a) (c :: rest)
      rw [Option.mem_def.mp ha] at hhead
      simpa using hhead

theorem wordsAt_gap (h : ∀ c ∈ gap, sep c = true) : wordsAt sep i gap = [] := by
  have hdrop : gap.dropWhile sep = [] := List.dropWhile_eq_nil_iff.mpr h
  rw [wordsAt]
  split
  · rfl
  · next heq =>
    rw [hdrop] at heq
    cases heq

/-- The first word of a text, behind a gap. -/
theorem wordsAt_append (hgap : ∀ c ∈ gap, sep c = true) (hne : word ≠ [])
    (hword : ∀ c ∈ word, sep c = false) (hrest : Breaks sep rest) :
    wordsAt sep i (gap ++ (word ++ rest)) =
      ⟨i + gap.length, word⟩ :: wordsAt sep (i + gap.length + word.length) rest := by
  have hhead : ∀ c ∈ (word ++ rest).head?, sep c = false := word_head hne hword
  have hword' : ∀ c ∈ word, (fun a => !sep a) c = true := fun c hc => by simp [hword c hc]
  have hrest' : ∀ c ∈ rest.head?, (fun a => !sep a) c = false := fun c hc => by simp [hrest c hc]
  rw [wordsAt]
  split
  · next heq =>
    rw [dropWhile_append_of_stop hgap hhead] at heq
    exact absurd (List.append_eq_nil_iff.mp heq).1 hne
  · next c tail heq =>
    rw [dropWhile_append_of_stop hgap hhead] at heq
    rw [← heq, takeWhile_append_of_stop hgap hhead, takeWhile_append_of_stop hword' hrest',
      dropWhile_append_of_stop hword' hrest']

theorem wordsAt_cons_sep {c : α} (hc : sep c = true) (s : List α) :
    wordsAt sep i (c :: s) = wordsAt sep (i + 1) s := by
  obtain hall | ⟨gap, word, rest, rfl, hg, hne, hw, hr, -⟩ := gap_or_word sep s
  · rw [wordsAt_gap hall, wordsAt_gap (List.forall_mem_cons.mpr ⟨hc, hall⟩)]
  · have hg' : ∀ a ∈ c :: gap, sep a = true := List.forall_mem_cons.mpr ⟨hc, hg⟩
    rw [wordsAt_append hg hne hw hr, ← List.cons_append, wordsAt_append hg' hne hw hr,
      List.length_cons]
    simp only [Nat.add_assoc, Nat.add_comm 1]

/-- Induction over the words of a text. -/
theorem words_induction {P : List α → Prop} (sep : α → Bool)
    (hgap : ∀ gap, (∀ c ∈ gap, sep c = true) → P gap)
    (hword : ∀ gap word rest, (∀ c ∈ gap, sep c = true) → word ≠ [] →
      (∀ c ∈ word, sep c = false) → Breaks sep rest → P rest → P (gap ++ (word ++ rest)))
    (s : List α) : P s := by
  induction hn : s.length using Nat.strong_induction_on generalizing s with
  | _ n ih =>
    obtain hall | ⟨gap, word, rest, rfl, hg, hne, hw, hr, hlt⟩ := gap_or_word sep s
    · exact hgap s hall
    · exact hword gap word rest hg hne hw hr (ih _ (hn ▸ hlt) rest rfl)

theorem length_text_le {s : List α} {w : Span α} (h : w ∈ wordsAt sep i s) :
    w.text.length ≤ s.length := by
  induction s using words_induction sep generalizing i with
  | hgap gap hg =>
    rw [wordsAt_gap hg] at h
    cases h
  | hword gap word rest hg hne hw hr ih =>
    rw [wordsAt_append hg hne hw hr] at h
    rw [List.length_append, List.length_append]
    obtain rfl | hmem := List.mem_cons.mp h
    · exact Nat.le_trans (Nat.le_add_right _ _) (Nat.le_add_left _ _)
    · have hle := ih hmem
      omega

end words

end RenesasDemo.Framework
