import Mathlib.Data.List.GetD
import RenesasDemo.Ota.EventBuffers

namespace RenesasDemo.Ota.TopicMemory

/-- `isMatch`, and the elements of the two strings that were read. -/
structure IdentifierMatch where
  isMatch : Bool
  topicReads : List Nat
  identifierReads : List Nat
  deriving DecidableEq

section identifier

variable (pTopic : Nat → UInt8) (pClientIdentifier : Nat → UInt8) (clientIdentifierLength : Nat)

/-- The loop from `idx` on, for the elements of the topic that remain. -/
def matchLoop (idx matchIdx : Nat) : Nat → IdentifierMatch
  | 0 => ⟨false, [], []⟩
  | remaining + 1 =>
      if matchIdx = clientIdentifierLength then ⟨pTopic idx = 0x2F, [idx], []⟩
      else if pClientIdentifier matchIdx ≠ pTopic idx then ⟨false, [idx], [matchIdx]⟩
      else
        let r := matchLoop (idx + 1) (matchIdx + 1) remaining
        ⟨r.isMatch, idx :: r.topicReads, matchIdx :: r.identifierReads⟩

/-- The strings are the memory that the two pointers lead to. -/
def prvMatchClientIdentifierInTopic (topicNameLength : Nat) : IdentifierMatch :=
  matchLoop pTopic pClientIdentifier clientIdentifierLength otaTopicClientIdentifierStartIdx 0
    (topicNameLength - otaTopicClientIdentifierStartIdx)

/-- The topic has the identifier at its place, with a slash behind it. -/
def HasIdentifier (topicNameLength : Nat) : Prop :=
  otaTopicClientIdentifierStartIdx + clientIdentifierLength < topicNameLength ∧
    (∀ i < clientIdentifierLength,
      pTopic (otaTopicClientIdentifierStartIdx + i) = pClientIdentifier i) ∧
    pTopic (otaTopicClientIdentifierStartIdx + clientIdentifierLength) = 0x2F

variable {pTopic pClientIdentifier clientIdentifierLength} {idx matchIdx remaining : Nat}

/-- The rest of the topic is compared with the rest of the identifier. -/
theorem matchLoop_isMatch (h : matchIdx ≤ clientIdentifierLength) :
    (matchLoop pTopic pClientIdentifier clientIdentifierLength idx matchIdx remaining).isMatch =
        true ↔
      clientIdentifierLength - matchIdx < remaining ∧
        (∀ i, matchIdx + i < clientIdentifierLength →
          pTopic (idx + i) = pClientIdentifier (matchIdx + i)) ∧
        pTopic (idx + (clientIdentifierLength - matchIdx)) = 0x2F := by
  induction remaining generalizing idx matchIdx with
  | zero => simp [matchLoop]
  | succ remaining ih =>
    rw [matchLoop]
    by_cases hend : matchIdx = clientIdentifierLength
    · subst hend
      simp only [if_true, decide_eq_true_eq, Nat.sub_self, Nat.succ_pos, true_and, Nat.add_zero]
      refine ⟨fun hslash => ⟨fun i hi => ?_, hslash⟩, And.right⟩
      exact absurd hi (Nat.not_lt.mpr (Nat.le_add_right matchIdx i))
    · have hlt : matchIdx + 1 ≤ clientIdentifierLength := Nat.lt_of_le_of_ne h hend
      rw [if_neg hend]
      by_cases hsame : pClientIdentifier matchIdx = pTopic idx
      · rw [if_neg (not_not.mpr hsame)]
        simp only [ih hlt]
        have hleft : clientIdentifierLength - matchIdx =
            clientIdentifierLength - (matchIdx + 1) + 1 := by omega
        rw [hleft, Nat.add_lt_add_iff_right, Nat.add_right_comm idx 1, Nat.add_assoc idx]
        refine and_congr_right fun _ => and_congr_left fun _ => ⟨fun hrest i hi => ?_,
          fun hall i hi => ?_⟩
        · cases i with
          | zero => exact hsame.symm
          | succ i =>
            rw [Nat.add_comm i 1, ← Nat.add_assoc, ← Nat.add_assoc]
            exact hrest i (by omega)
        · rw [Nat.add_assoc, Nat.add_assoc]
          exact hall (1 + i) (by omega)
      · rw [if_pos hsame]
        refine iff_of_false Bool.false_ne_true fun hmatch => hsame ?_
        exact (hmatch.2.1 0 hlt).symm

/-- The reads are at the indices that the loop has passed and at the one where it stops. -/
theorem matchLoop_reads (pTopic pClientIdentifier : Nat → UInt8) (idx remaining : Nat)
    (h : matchIdx ≤ clientIdentifierLength) :
    let r := matchLoop pTopic pClientIdentifier clientIdentifierLength idx matchIdx remaining
    (∀ i ∈ r.topicReads, idx ≤ i ∧ i < idx + remaining) ∧
      ∀ i ∈ r.identifierReads, i < clientIdentifierLength := by
  induction remaining generalizing idx matchIdx with
  | zero => simp [matchLoop]
  | succ remaining ih =>
    have hidx : idx ≤ idx ∧ idx < idx + (remaining + 1) := by omega
    rw [matchLoop]
    by_cases hend : matchIdx = clientIdentifierLength
    · rw [if_pos hend]
      exact ⟨List.forall_mem_singleton.mpr hidx, nofun⟩
    · have hlt : matchIdx < clientIdentifierLength := Nat.lt_of_le_of_ne h hend
      rw [if_neg hend]
      split
      · exact ⟨List.forall_mem_singleton.mpr hidx, List.forall_mem_singleton.mpr hlt⟩
      · obtain ⟨htopic, hidentifier⟩ := ih (idx + 1) hlt
        refine ⟨List.forall_mem_cons.mpr ⟨hidx, fun i hi => ?_⟩,
          List.forall_mem_cons.mpr ⟨hlt, hidentifier⟩⟩
        have hi := htopic i hi
        omega

/-- The function finds just the topics of the client, and reads neither string behind its length. -/
theorem prvMatchClientIdentifierInTopic_spec (pTopic pClientIdentifier : Nat → UInt8)
    (topicNameLength clientIdentifierLength : Nat) :
    ((prvMatchClientIdentifierInTopic pTopic pClientIdentifier clientIdentifierLength
        topicNameLength).isMatch = true ↔
      HasIdentifier pTopic pClientIdentifier clientIdentifierLength topicNameLength) ∧
      (∀ i ∈ (prvMatchClientIdentifierInTopic pTopic pClientIdentifier clientIdentifierLength
        topicNameLength).topicReads, i < topicNameLength) ∧
      ∀ i ∈ (prvMatchClientIdentifierInTopic pTopic pClientIdentifier clientIdentifierLength
        topicNameLength).identifierReads, i < clientIdentifierLength := by
  have hreads := matchLoop_reads pTopic pClientIdentifier otaTopicClientIdentifierStartIdx
    (topicNameLength - otaTopicClientIdentifierStartIdx) (Nat.zero_le clientIdentifierLength)
  obtain ⟨htopic, hidentifier⟩ := hreads
  refine ⟨?_, fun i hi => ?_, hidentifier⟩
  · rw [prvMatchClientIdentifierInTopic, matchLoop_isMatch (Nat.zero_le _), HasIdentifier]
    simp only [Nat.sub_zero, Nat.zero_add]
    refine and_congr_left fun _ => ?_
    omega
  · have hi := htopic i hi
    omega

/-- On strings in a list the loop finds what the comparison of the lists finds. -/
theorem matchLoop_eq {pTopic pClientIdentifier : List UInt8}
    (h : matchIdx ≤ pClientIdentifier.length) (hremaining : remaining = pTopic.length - idx) :
    (matchLoop (fun i => pTopic.getD i 0) (fun i => pClientIdentifier.getD i 0)
      pClientIdentifier.length idx matchIdx remaining).isMatch =
        matchClientIdentifier (pTopic.drop idx) (pClientIdentifier.drop matchIdx) := by
  induction remaining generalizing idx matchIdx with
  | zero =>
    rw [List.drop_eq_nil_of_le (show pTopic.length ≤ idx by omega)]
    rfl
  | succ remaining ih =>
    have hidx : idx < pTopic.length := by omega
    rw [matchLoop, List.drop_eq_getElem_cons hidx, List.getD_eq_getElem _ _ hidx]
    by_cases hend : matchIdx = pClientIdentifier.length
    · rw [if_pos hend, List.drop_eq_nil_of_le hend.ge]
      rfl
    · have hlt : matchIdx < pClientIdentifier.length := Nat.lt_of_le_of_ne h hend
      have hrest := ih (Nat.succ_le_of_lt hlt) (show remaining = pTopic.length - (idx + 1) by omega)
      rw [if_neg hend, List.drop_eq_getElem_cons hlt, List.getD_eq_getElem _ _ hlt,
        matchClientIdentifier]
      split
      · rfl
      · exact hrest

theorem prvMatchClientIdentifierInTopic_eq (pTopic pClientIdentifier : List UInt8) :
    (prvMatchClientIdentifierInTopic (fun i => pTopic.getD i 0)
      (fun i => pClientIdentifier.getD i 0) pClientIdentifier.length pTopic.length).isMatch =
        Ota.prvMatchClientIdentifierInTopic pTopic pClientIdentifier :=
  matchLoop_eq (Nat.zero_le _) rfl

end identifier

end RenesasDemo.Ota.TopicMemory
