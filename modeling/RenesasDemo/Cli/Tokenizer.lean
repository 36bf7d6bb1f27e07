import RenesasDemo.Cli.Console
import RenesasDemo.Framework.Words

namespace RenesasDemo.Cli

open Framework

def isBlank (c : UInt8) : Bool := c = 0x20

/-- `CLI_Command_Definition_t` without the callback. -/
structure Command where
  pcCommand : CString
  pcHelpString : CString
  deriving DecidableEq

/-- The input starts with the name of the command, and a space or its end is behind it. -/
def commandMatches (pcCommandInput : CString) (c : Command) : Bool :=
  strncmp pcCommandInput.bytes c.pcCommand.bytes c.pcCommand.length = 0 &&
    (pcCommandInput.bytes[c.pcCommand.length]? = some 0x20 ||
      pcCommandInput.bytes[c.pcCommand.length]? = none)

def prvFindMatchingCommand (xRegisteredCommands : List Command) (pcCommandInput : CString) :
    Option Command :=
  xRegisteredCommands.find? (commandMatches pcCommandInput)

/-- It counts the characters other than spaces before a space or the end. -/
def prvGetNumberOfArgs : List UInt8 → Nat
  | [] => 0
  | c :: cs =>
    (if c ≠ 0x20 ∧ (cs.head? = some 0x20 ∨ cs.head? = none) then 1 else 0) + prvGetNumberOfArgs cs

/-- `FreeRTOS_CLIGetParameter` with `uxWantedParameter` parameters still to find, the string being
`s` from position `i` on: where the parameter starts, and its length. -/
def freeRtosCliGetParameter : Nat → Nat → List UInt8 → Option Nat × Nat
  | 0, _, _ => (none, 0)
  | uxMissing + 1, i, s =>
    -- past the current word and what separates it from the next one
    let wordEnd := i + (s.takeWhile fun c => !isBlank c).length
    let behind := s.dropWhile fun c => !isBlank c
    let start := wordEnd + (behind.takeWhile isBlank).length
    let next := behind.dropWhile isBlank
    if next.isEmpty then (none, 0)
    else if uxMissing = 0 then
      let xParameterStringLength := (next.takeWhile fun c => !isBlank c).length
      (if xParameterStringLength = 0 then none else some start, xParameterStringLength)
    else freeRtosCliGetParameter uxMissing start next

/-- `strtok_r` for a space: from `s`, which is the string or what the last call left in the
context, to a token, the new context and the memory. -/
def strtokR (mem : List UInt8) (s : Option Nat) : Option Nat × Option Nat × List UInt8 :=
  match s with
  | none => (none, none, mem)
  | some s =>
    let token := s + ((mem.drop s).takeWhile isBlank).length
    if strlen (mem.drop token) = 0 then (none, none, mem)
    else
      let behind := token + ((mem.drop token).takeWhile fun c => !isBlank c && c ≠ 0).length
      if mem[behind]? = some 0x20 then (some token, some (behind + 1), mem.set behind 0)
      else (some token, none, mem)

inductive TokenFault where
  /-- A `configASSERT` that stops the device. -/
  | assertFailed
  /-- `pcArgv[ 0 ]` of an array without elements. -/
  | outOfBounds
  deriving DecidableEq

/-- The loop that sets `pcArgv[ 1 ]` and on. -/
def nextArgs : Nat → List UInt8 → Option Nat →
    Except TokenFault (List Nat × Option Nat × List UInt8)
  | 0, mem, pcTokenizerCtx => .ok ([], pcTokenizerCtx, mem)
  | k + 1, mem, pcTokenizerCtx =>
    match strtokR mem pcTokenizerCtx with
    | (some arg, ctx, mem') => (nextArgs k mem' ctx).map fun r => (arg :: r.1, r.2)
    | (none, _, _) => .error .assertFailed

/-- What a command is called with: `pcArgv`, of `ulArgC` elements, in the memory of the tokenized
line. -/
structure CommandCall where
  pxCommand : Command
  pcArgv : List (Option Nat)
  memory : List UInt8

inductive Processed where
  | printed (output : Output)
  | called (call : CommandCall)

/-- `FreeRTOS_CLIProcessCommand` up to the call of the command, for a line at the start of a
buffer. -/
def freeRtosCliProcessCommand (xRegisteredCommands : List Command) (line : CString)
    (beyond : List UInt8) : Except TokenFault Processed :=
  match prvFindMatchingCommand xRegisteredCommands line with
  | some pxCommand =>
    let ulArgC := prvGetNumberOfArgs line.bytes
    if ulArgC = 0 then .error .outOfBounds
    else
      let (arg, ctx, mem) := strtokR (line.bytes ++ 0 :: beyond) (some 0)
      (nextArgs (ulArgC - 1) mem ctx).bind fun (args, ctx', mem') =>
        match strtokR mem' ctx' with
        | (none, _, mem'') => .ok (.called ⟨pxCommand, arg :: args.map some, mem''⟩)
        | (some _, _, _) => .error .assertFailed
  | none =>
    .ok (.printed (.print (.ofBytes (ascii
      "Command not recognized. Enter 'help' to view a list of available commands.\r\n"))))

section count

variable {gap word rest : List UInt8}

theorem isBlank_iff {c : UInt8} : isBlank c = true ↔ c = 0x20 := decide_eq_true_iff

theorem prvGetNumberOfArgs_gap (h : ∀ c ∈ gap, isBlank c = true) (s : List UInt8) :
    prvGetNumberOfArgs (gap ++ s) = prvGetNumberOfArgs s := by
  induction gap with
  | nil => rfl
  | cons c gap ih =>
    obtain ⟨hc, hgap⟩ := List.forall_mem_cons.mp h
    rw [List.cons_append, prvGetNumberOfArgs, if_neg fun hn => hn.1 (isBlank_iff.mp hc), ih hgap,
      Nat.zero_add]

theorem prvGetNumberOfArgs_word (hne : word ≠ []) (h : ∀ c ∈ word, isBlank c = false)
    (hrest : Breaks isBlank rest) :
    prvGetNumberOfArgs (word ++ rest) = prvGetNumberOfArgs rest + 1 := by
  induction word with
  | nil => exact absurd rfl hne
  | cons c word ih =>
    obtain ⟨hc, hword⟩ := List.forall_mem_cons.mp h
    have hc' : c ≠ 0x20 := fun he => by simp [he, isBlank] at hc
    rw [List.cons_append, prvGetNumberOfArgs]
    cases word with
    | nil =>
      have hend : rest.head? = some 0x20 ∨ rest.head? = none := by
        cases rest with
        | nil => exact .inr rfl
        | cons d rest => exact .inl (congrArg some (isBlank_iff.mp (hrest d rfl)))
      rw [List.nil_append, if_pos ⟨hc', hend⟩, Nat.add_comm]
    | cons d word =>
      have hd : d ≠ 0x20 := fun he => by simp [he, isBlank] at hword
      rw [if_neg (by simp [hd]), Nat.zero_add, ih (List.cons_ne_nil _ _) hword]

theorem prvGetNumberOfArgs_eq (i : Nat) (s : List UInt8) :
    prvGetNumberOfArgs s = (wordsAt isBlank i s).length := by
  induction s using words_induction isBlank generalizing i with
  | hgap gap hg =>
    have h := prvGetNumberOfArgs_gap hg []
    rw [List.append_nil] at h
    rw [h, wordsAt_gap hg]
    rfl
  | hword gap word rest hg hne hw hr ih =>
    rw [prvGetNumberOfArgs_gap hg, prvGetNumberOfArgs_word hne hw hr, wordsAt_append hg hne hw hr,
      List.length_cons, ih]

end count

section parameter

variable {n i : Nat} {word word' gap rest : List UInt8}

private theorem stops_of_breaks (h : Breaks isBlank rest) :
    ∀ c ∈ rest.head?, (!isBlank c) = false :=
  fun c hc => by rw [h c hc]; rfl

private theorem all_of_word (h : ∀ c ∈ word, isBlank c = false) :
    ∀ c ∈ word, (!isBlank c) = true :=
  fun c hc => by rw [h c hc]; rfl

private theorem breaks_gap (hg : ∀ c ∈ gap, isBlank c = true) : Breaks isBlank gap :=
  fun c hc => hg c (List.mem_of_mem_head? hc)

theorem freeRtosCliGetParameter_gap (hword : ∀ c ∈ word, isBlank c = false)
    (hg : ∀ c ∈ gap, isBlank c = true) :
    freeRtosCliGetParameter (n + 1) i (word ++ gap) = (none, 0) := by
  have hstop := stops_of_breaks (breaks_gap hg)
  rw [freeRtosCliGetParameter]
  simp only [takeWhile_append_of_stop (all_of_word hword) hstop,
    dropWhile_append_of_stop (all_of_word hword) hstop, List.dropWhile_eq_nil_iff.mpr hg,
    List.isEmpty_nil, if_true]

theorem freeRtosCliGetParameter_next (hword : ∀ c ∈ word, isBlank c = false)
    (hbreak : Breaks isBlank (gap ++ (word' ++ rest))) (hg : ∀ c ∈ gap, isBlank c = true)
    (hne : word' ≠ []) (hword' : ∀ c ∈ word', isBlank c = false) (hrest : Breaks isBlank rest) :
    freeRtosCliGetParameter (n + 1) i (word ++ (gap ++ (word' ++ rest))) =
      if n = 0 then (some (i + word.length + gap.length), word'.length)
      else freeRtosCliGetParameter n (i + word.length + gap.length) (word' ++ rest) := by
  have hstop := stops_of_breaks hbreak
  have hhead : ∀ c ∈ (word' ++ rest).head?, isBlank c = false := word_head hne hword'
  have hlen : word'.length ≠ 0 := fun h => hne (List.eq_nil_of_length_eq_zero h)
  have hnext : (word' ++ rest).isEmpty = false := by simp [hne]
  rw [freeRtosCliGetParameter]
  simp only [takeWhile_append_of_stop (all_of_word hword) hstop,
    dropWhile_append_of_stop (all_of_word hword) hstop, takeWhile_append_of_stop hg hhead,
    dropWhile_append_of_stop hg hhead, hnext, Bool.false_eq_true, if_false,
    takeWhile_append_of_stop (all_of_word hword') (stops_of_breaks hrest), if_neg hlen]

/-- Behind the word where a string starts, its words are the parameters. -/
theorem freeRtosCliGetParameter_eq (hword : ∀ c ∈ word, isBlank c = false)
    (hrest : Breaks isBlank rest) :
    freeRtosCliGetParameter (n + 1) i (word ++ rest) =
      match (wordsAt isBlank (i + word.length) rest)[n]? with
      | some w => (some w.start, w.text.length)
      | none => (none, 0) := by
  induction n generalizing i word rest with
  | zero =>
    obtain hg | ⟨gap, word', rest', rfl, hg, hne, hw, hr, -⟩ := gap_or_word isBlank rest
    · rw [freeRtosCliGetParameter_gap hword hg, wordsAt_gap hg]
      rfl
    · rw [freeRtosCliGetParameter_next hword hrest hg hne hw hr, wordsAt_append hg hne hw hr,
        if_pos rfl]
      rfl
  | succ n ih =>
    obtain hg | ⟨gap, word', rest', rfl, hg, hne, hw, hr, -⟩ := gap_or_word isBlank rest
    · rw [freeRtosCliGetParameter_gap hword hg, wordsAt_gap hg]
      rfl
    · rw [freeRtosCliGetParameter_next hword hrest hg hne hw hr, wordsAt_append hg hne hw hr,
        if_neg (Nat.succ_ne_zero n), ih hw hr, List.getElem?_cons_succ]

end parameter

section strtok

variable {mem s gap word rest beyond : List UInt8} {p : Nat}

/-- The context is at `s`, which stands at `p` with a NUL behind it. -/
def TokenizerAt (mem : List UInt8) : Option Nat → Nat → List UInt8 → Prop
  | some q, p, s => q = p ∧ 0 ∉ s ∧ ∃ beyond, mem.drop p = s ++ 0 :: beyond
  | none, _, s => s = []

private theorem strlen_append_nul (h : 0 ∉ s) : strlen (s ++ 0 :: beyond) = s.length := by
  have hall : ∀ a ∈ s, decide (a ≠ 0) = true :=
    fun a ha => decide_eq_true fun hz => h (hz ▸ ha)
  rw [strlen, List.takeWhile_append_of_pos hall]
  simp

private theorem nul_stops : ∀ c ∈ (0 :: beyond : List UInt8).head?, isBlank c = false := by
  intro c hc
  cases hc
  rfl

theorem strtokR_gap (hg : ∀ c ∈ gap, isBlank c = true) (hmem : mem.drop p = gap ++ 0 :: beyond) :
    strtokR mem (some p) = (none, none, mem) := by
  have hdrop : mem.drop (p + gap.length) = 0 :: beyond := by
    rw [← List.drop_drop, hmem, List.drop_left]
  rw [strtokR]
  simp only [hmem, takeWhile_append_of_stop hg nul_stops, hdrop]
  rfl

theorem strtokR_word (hg : ∀ c ∈ gap, isBlank c = true) (hne : word ≠ [])
    (hw : ∀ c ∈ word, isBlank c = false) (hnul : 0 ∉ word) (hr : Breaks isBlank rest)
    (hmem : mem.drop p = gap ++ (word ++ (rest ++ 0 :: beyond))) :
    strtokR mem (some p) =
      if rest = [] then (some (p + gap.length), none, mem)
      else (some (p + gap.length), some (p + gap.length + word.length + 1),
        mem.set (p + gap.length + word.length) 0) := by
  have hdrop : mem.drop (p + gap.length) = word ++ (rest ++ 0 :: beyond) := by
    rw [← List.drop_drop, hmem, List.drop_left]
  have hbehind : mem[p + gap.length + word.length]? = (rest ++ 0 :: beyond).head? := by
    have hrest : (word ++ (rest ++ 0 :: beyond)).drop word.length = rest ++ 0 :: beyond :=
      List.drop_left
    rw [List.head?_eq_getElem?, ← hrest, ← hdrop, List.drop_drop, List.getElem?_drop, Nat.add_zero]
  have hlen : strlen (mem.drop (p + gap.length)) ≠ 0 := by
    rw [hdrop]
    cases word with
    | nil => exact absurd rfl hne
    | cons c word =>
      have hc : c ≠ 0 := (List.ne_of_not_mem_cons hnul).symm
      simp [strlen, hc]
  have hall : ∀ c ∈ word, (!isBlank c && decide (c ≠ 0)) = true := by
    intro c hc
    have hz : c ≠ 0 := fun hz => hnul (hz ▸ hc)
    simp [hw c hc, hz]
  have hstop : ∀ c ∈ (rest ++ 0 :: beyond).head?, (!isBlank c && decide (c ≠ 0)) = false := by
    intro c hc
    cases rest with
    | nil =>
      cases hc
      rfl
    | cons d rest =>
      cases hc
      rw [hr _ rfl]
      rfl
  rw [strtokR]
  simp only [hmem, takeWhile_append_of_stop hg (word_head hne hw), if_neg hlen]
  rw [hdrop, takeWhile_append_of_stop hall hstop, hbehind]
  cases rest with
  | nil => rfl
  | cons d rest =>
    rw [isBlank_iff.mp (hr d rfl)]
    rfl

/-- A word of the line stands in the memory as a string of its own. -/
structure StringAt (mem : List UInt8) (w : Span UInt8) : Prop where
  noNul : 0 ∉ w.text
  stored : ∃ after, mem.drop w.start = w.text ++ 0 :: after

theorem StringAt.ofBytes {w : Span UInt8} (h : StringAt mem w) :
    (CString.ofBytes (mem.drop w.start)).bytes = w.text := by
  obtain ⟨after, hafter⟩ := h.stored
  rw [hafter]
  exact takeWhile_append_of_stop (fun c hc => decide_eq_true fun hz => h.noNul (hz ▸ hc)) (by simp)

theorem StringAt.of_take {mem' : List UInt8} {w : Span UInt8}
    (h : mem'.take (w.start + w.text.length + 1) = mem.take (w.start + w.text.length + 1))
    (hs : StringAt mem w) : StringAt mem' w := by
  obtain ⟨after, hafter⟩ := hs.stored
  refine ⟨hs.noNul, mem'.drop (w.start + w.text.length + 1), ?_⟩
  have hpart : (mem'.take (w.start + w.text.length + 1)).drop w.start = w.text ++ [0] := by
    rw [h, List.drop_take, hafter, Nat.add_assoc, Nat.add_sub_cancel_left, List.take_append]
    simp
  have hlen : w.start ≤ (mem'.take (w.start + w.text.length + 1)).length := by
    by_contra hgt
    rw [List.drop_eq_nil_of_le (by omega)] at hpart
    simp at hpart
  calc mem'.drop w.start
      = (mem'.take (w.start + w.text.length + 1) ++
          mem'.drop (w.start + w.text.length + 1)).drop w.start := by
        rw [List.take_append_drop]
    _ = w.text ++ 0 :: mem'.drop (w.start + w.text.length + 1) := by
        rw [List.drop_append_of_le_length hlen, hpart, List.append_assoc, List.singleton_append]

/-- What one call of `strtok_r` does at a word. -/
theorem strtokR_step {ctx : Option Nat} {s' : List UInt8} (hat : TokenizerAt mem ctx p s)
    (hs : s = gap ++ (word ++ s')) (hg : ∀ c ∈ gap, isBlank c = true) (hne : word ≠ [])
    (hw : ∀ c ∈ word, isBlank c = false) (hr : Breaks isBlank s') :
    ∃ ctx' mem' rest, strtokR mem ctx = (some (p + gap.length), ctx', mem') ∧
      TokenizerAt mem' ctx' (p + gap.length + word.length + 1) rest ∧
      rest.length ≤ s'.length ∧
      wordsAt isBlank (p + gap.length + word.length) s' =
        wordsAt isBlank (p + gap.length + word.length + 1) rest ∧
      StringAt mem' ⟨p + gap.length, word⟩ ∧ mem'.take p = mem.take p := by
  subst hs
  cases ctx with
  | none => exact absurd (List.append_eq_nil_iff.mp (List.append_eq_nil_iff.mp hat).2).1 hne
  | some q =>
    obtain ⟨rfl, hnul, beyond, hmem⟩ := hat
    simp only [List.mem_append, not_or] at hnul
    obtain ⟨-, hnulWord, hnulRest⟩ := hnul
    simp only [List.append_assoc] at hmem
    have hcall := strtokR_word hg hne hw hnulWord hr hmem
    have hdrop : mem.drop (q + gap.length) = word ++ (s' ++ 0 :: beyond) := by
      rw [← List.drop_drop, hmem, List.drop_left]
    cases s' with
    | nil =>
      rw [if_pos rfl] at hcall
      refine ⟨none, mem, [], hcall, rfl, Nat.le_refl _, ?_, ⟨hnulWord, beyond, hdrop⟩, rfl⟩
      rw [wordsAt_gap (by simp), wordsAt_gap (by simp)]
    | cons c rest =>
      rw [if_neg (List.cons_ne_nil _ _)] at hcall
      have hsplit : (mem.set (q + gap.length + word.length) 0).drop (q + gap.length) =
          word ++ 0 :: (rest ++ 0 :: beyond) := by
        rw [List.drop_set, if_neg (by omega), hdrop, Nat.add_sub_cancel_left,
          List.set_append_right _ _ (Nat.le_refl _), Nat.sub_self]
        rfl
      have hnext : (mem.set (q + gap.length + word.length) 0).drop
          (q + gap.length + word.length + 1) = rest ++ 0 :: beyond := by
        rw [Nat.add_assoc (q + gap.length), ← List.drop_drop, hsplit, ← List.drop_drop,
          List.drop_left]
        rfl
      refine ⟨_, _, rest, hcall, ⟨rfl, List.not_mem_of_not_mem_cons hnulRest, beyond, hnext⟩,
        Nat.le_succ _, wordsAt_cons_sep (hr c rfl) rest, ⟨hnulWord, _, hsplit⟩, ?_⟩
      rw [List.take_set_of_le (by omega)]

/-- As many calls of `strtok_r` as there are words find all of them, and the next one nothing. -/
theorem nextArgs_spec (s : List UInt8) :
    ∀ (mem : List UInt8) (ctx : Option Nat) (p : Nat), TokenizerAt mem ctx p s →
      ∃ ctx' mem', nextArgs (wordsAt isBlank p s).length mem ctx =
          .ok ((wordsAt isBlank p s).map Span.start, ctx', mem') ∧
        strtokR mem' ctx' = (none, none, mem') ∧ mem'.take p = mem.take p ∧
        ∀ w ∈ wordsAt isBlank p s, StringAt mem' w := by
  induction hn : s.length using Nat.strong_induction_on generalizing s with
  | _ n ih =>
    intro mem ctx p hat
    obtain hg | ⟨gap, word, s', hs, hg, hne, hw, hr, hlt⟩ := gap_or_word isBlank s
    · rw [wordsAt_gap hg]
      refine ⟨ctx, mem, rfl, ?_, rfl, by simp⟩
      cases ctx with
      | none => rfl
      | some q =>
        obtain ⟨rfl, -, beyond, hmem⟩ := hat
        exact strtokR_gap hg hmem
    · obtain ⟨ctx1, mem1, rest, hcall, hat1, hle, hwords, hstring, htake⟩ :=
        strtokR_step hat hs hg hne hw hr
      obtain ⟨ctx', mem', hargs, hend, htake', hall⟩ :=
        ih rest.length (by omega) rest rfl mem1 ctx1 _ hat1
      rw [hs, wordsAt_append hg hne hw hr, hwords, List.length_cons, List.map_cons]
      refine ⟨ctx', mem', ?_, hend, ?_, ?_⟩
      · rw [nextArgs, hcall]
        simp only [hargs, Except.map]
      · have hp : p ≤ p + gap.length + word.length + 1 := by omega
        rw [← Nat.min_eq_left hp, ← List.take_take, htake', List.take_take, Nat.min_eq_left hp,
          htake]
      · exact List.forall_mem_cons.mpr ⟨hstring.of_take htake', hall⟩

end strtok

section dispatch

variable {xRegisteredCommands : List Command} {line : CString} {pxCommand : Command}

/-- A line for which a command is found starts with its name, which ends there as a word. -/
theorem line_of_prvFindMatchingCommand
    (h : prvFindMatchingCommand xRegisteredCommands line = some pxCommand) :
    ∃ rest, line.bytes = pxCommand.pcCommand.bytes ++ rest ∧ Breaks isBlank rest := by
  have hmatch := List.find?_some h
  simp only [commandMatches, Bool.and_eq_true, Bool.or_eq_true, decide_eq_true_eq] at hmatch
  obtain ⟨hcmp, hend⟩ := hmatch
  rw [strncmp_eq_zero line.noNul pxCommand.pcCommand.noNul, CString.length, List.take_length]
    at hcmp
  refine ⟨line.bytes.drop pxCommand.pcCommand.bytes.length, ?_, ?_⟩
  · conv_lhs => rw [← List.take_append_drop pxCommand.pcCommand.bytes.length line.bytes, hcmp]
  · intro c hc
    rw [List.head?_drop, Option.mem_def] at hc
    rw [CString.length, hc] at hend
    simpa [isBlank] using hend

theorem nextArgs_succ_ok {k : Nat} {mem mem' : List UInt8} {ctx ctx' : Option Nat}
    {args : List Nat} (h : nextArgs (k + 1) mem ctx = .ok (args, ctx', mem')) :
    ∃ arg ctx1 mem1 args', strtokR mem ctx = (some arg, ctx1, mem1) ∧ args = arg :: args' ∧
      nextArgs k mem1 ctx1 = .ok (args', ctx', mem') := by
  rw [nextArgs] at h
  split at h
  · next arg ctx1 mem1 hcall =>
    cases hnext : nextArgs k mem1 ctx1 with
    | error e =>
      rw [hnext] at h
      cases h
    | ok r =>
      obtain ⟨args', ctx2, mem2⟩ := r
      rw [hnext] at h
      cases h
      exact ⟨arg, ctx1, mem1, args', hcall, rfl, hnext⟩
  · cases h

/-- The command of a line with words is called with all of them. -/
theorem freeRtosCliProcessCommand_spec (beyond : List UInt8)
    (hfind : prvFindMatchingCommand xRegisteredCommands line = some pxCommand)
    (hne : words isBlank line.bytes ≠ []) :
    ∃ call, freeRtosCliProcessCommand xRegisteredCommands line beyond = .ok (.called call) ∧
      call.pxCommand = pxCommand ∧
      call.pcArgv = (words isBlank line.bytes).map (fun w => some w.start) ∧
      ∀ w ∈ words isBlank line.bytes,
        (CString.ofBytes (call.memory.drop w.start)).bytes = w.text := by
  have hat : TokenizerAt (line.bytes ++ 0 :: beyond) (some 0) 0 line.bytes :=
    ⟨rfl, line.noNul, beyond, rfl⟩
  obtain ⟨ctx', mem', hargs, hend, -, hstrings⟩ := nextArgs_spec line.bytes _ _ 0 hat
  change nextArgs (words isBlank line.bytes).length _ _ = _ at hargs
  have hcount : prvGetNumberOfArgs line.bytes = (words isBlank line.bytes).length :=
    prvGetNumberOfArgs_eq 0 line.bytes
  cases hw : words isBlank line.bytes with
  | nil => exact absurd hw hne
  | cons w ws =>
    rw [hw, List.length_cons] at hcount
    rw [hw, List.length_cons] at hargs
    obtain ⟨arg, ctx1, mem1, args', hfirst, hsplit, hothers⟩ := nextArgs_succ_ok hargs
    refine ⟨⟨pxCommand, some arg :: args'.map some, mem'⟩, ?_, rfl, ?_, ?_⟩
    · rw [freeRtosCliProcessCommand, hfind]
      simp only [hcount, if_neg (Nat.succ_ne_zero _), hfirst, Nat.add_sub_cancel, hothers,
        Except.bind, hend]
    · rw [← List.map_cons, ← hsplit, ← hw, words, List.map_map]
      rfl
    · intro w' hw'
      exact (hstrings w' (by rw [← words, hw]; exact hw')).ofBytes

/-- The first word of a line is the name of the command that is found for it. -/
theorem words_of_prvFindMatchingCommand
    (hne : pxCommand.pcCommand.bytes ≠ []) (hspace : 0x20 ∉ pxCommand.pcCommand.bytes)
    (hfind : prvFindMatchingCommand xRegisteredCommands line = some pxCommand) :
    ∃ rest, line.bytes = pxCommand.pcCommand.bytes ++ rest ∧ Breaks isBlank rest ∧
      (∀ c ∈ pxCommand.pcCommand.bytes, isBlank c = false) ∧
      words isBlank line.bytes = ⟨0, pxCommand.pcCommand.bytes⟩ ::
        wordsAt isBlank (0 + pxCommand.pcCommand.bytes.length) rest := by
  obtain ⟨rest, hline, hrest⟩ := line_of_prvFindMatchingCommand hfind
  have hname : ∀ c ∈ pxCommand.pcCommand.bytes, isBlank c = false := by
    intro c hc
    exact decide_eq_false fun he => hspace (he ▸ hc)
  have hgap : ∀ c ∈ ([] : List UInt8), isBlank c = true := fun c hc => by cases hc
  refine ⟨rest, hline, hrest, hname, ?_⟩
  rw [words, hline]
  exact wordsAt_append hgap hne hname hrest

/-- The three tokenizers of a line for which a command is found agree on its words. -/
theorem tokenizers_agree (beyond : List UInt8)
    (hnames : ∀ c ∈ xRegisteredCommands, c.pcCommand.bytes ≠ [] ∧ 0x20 ∉ c.pcCommand.bytes)
    (hfind : prvFindMatchingCommand xRegisteredCommands line = some pxCommand) :
    prvGetNumberOfArgs line.bytes = (words isBlank line.bytes).length ∧
      (∃ call, freeRtosCliProcessCommand xRegisteredCommands line beyond = .ok (.called call) ∧
        call.pxCommand = pxCommand ∧
        call.pcArgv = (words isBlank line.bytes).map (fun w => some w.start) ∧
        (∀ w ∈ words isBlank line.bytes,
          (CString.ofBytes (call.memory.drop w.start)).bytes = w.text) ∧
        (words isBlank line.bytes)[0]? = some ⟨0, pxCommand.pcCommand.bytes⟩) ∧
      (∀ n w, 1 ≤ n → (words isBlank line.bytes)[n]? = some w →
        freeRtosCliGetParameter n 0 line.bytes = (some w.start, w.text.length)) ∧
      ∀ n, (words isBlank line.bytes).length ≤ n →
        freeRtosCliGetParameter n 0 line.bytes = (none, 0) := by
  obtain ⟨hne, hspace⟩ := hnames pxCommand (List.mem_of_find?_eq_some hfind)
  obtain ⟨rest, hline, hrest, hname, hwords⟩ :=
    words_of_prvFindMatchingCommand hne hspace hfind
  have hparam : ∀ n, freeRtosCliGetParameter (n + 1) 0 line.bytes =
      match (words isBlank line.bytes)[n + 1]? with
      | some w => (some w.start, w.text.length)
      | none => (none, 0) := by
    intro n
    rw [hwords, List.getElem?_cons_succ, hline]
    exact freeRtosCliGetParameter_eq hname hrest
  refine ⟨prvGetNumberOfArgs_eq 0 line.bytes, ?_, ?_, ?_⟩
  · obtain ⟨call, hcall, hcmd, hargv, hstrings⟩ :=
      freeRtosCliProcessCommand_spec beyond hfind (by rw [hwords]; exact List.cons_ne_nil _ _)
    exact ⟨call, hcall, hcmd, hargv, hstrings, by rw [hwords]; rfl⟩
  · intro n w hn hw
    obtain ⟨m, rfl⟩ := Nat.exists_eq_add_of_le' hn
    rw [hparam, hw]
  · intro n hn
    rw [hwords] at hn
    obtain ⟨m, rfl⟩ := Nat.exists_eq_add_of_le' (Nat.le_trans (Nat.le_add_left 1 _) hn)
    rw [hparam, hwords, List.getElem?_eq_none hn]

end dispatch

def exampleCommand : Command := ⟨⟨ascii "ps", by decide⟩, ⟨ascii "ps\r\n", by decide⟩⟩

theorem tokenizers_agree_ps :
    prvGetNumberOfArgs (ascii "ps  a ") = (words isBlank (ascii "ps  a ")).length ∧
      (∃ call, freeRtosCliProcessCommand [exampleCommand] ⟨ascii "ps  a ", by decide⟩ [] =
          .ok (.called call) ∧
        call.pxCommand = exampleCommand ∧
        call.pcArgv = (words isBlank (ascii "ps  a ")).map (fun w => some w.start) ∧
        (∀ w ∈ words isBlank (ascii "ps  a "),
          (CString.ofBytes (call.memory.drop w.start)).bytes = w.text) ∧
        (words isBlank (ascii "ps  a "))[0]? = some ⟨0, ascii "ps"⟩) ∧
      (∀ n w, 1 ≤ n → (words isBlank (ascii "ps  a "))[n]? = some w →
        freeRtosCliGetParameter n 0 (ascii "ps  a ") = (some w.start, w.text.length)) ∧
      ∀ n, (words isBlank (ascii "ps  a ")).length ≤ n →
        freeRtosCliGetParameter n 0 (ascii "ps  a ") = (none, 0) :=
  have hnames : ∀ c ∈ [exampleCommand],
      c.pcCommand.bytes ≠ [] ∧ 0x20 ∉ c.pcCommand.bytes := by decide
  have hfind : prvFindMatchingCommand [exampleCommand] ⟨ascii "ps  a ", by decide⟩ =
      some exampleCommand := by decide
  tokenizers_agree [] hnames hfind

end RenesasDemo.Cli
