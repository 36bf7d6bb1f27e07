import RenesasDemo.Cli.PemReading

namespace RenesasDemo.Cli

open Framework

/-- The lines behind the first rejected line, or behind the footer, are left to the next reader;
without a buffer none is read. -/
def StopsAt (codec : Base64.Codec) (calloc : Bool) (lines unread : List CString) : Prop :=
  if calloc then (readPem codec false [] lines).unread = some unread else unread = lines

/-- No assertion fails and nothing is written behind the buffer; a failed call leaves the output
as it was and has freed the buffer that it got once; no line too many is read. -/
structure ImportSafe (codec : Base64.Codec) (parse : List UInt8 → Int) (calloc : Bool)
    (output : PemOutput) (lines : List CString) : Prop where
  asDer : ∃ r, xReadPemFromCliAsDer codec calloc output lines = .ok r ∧
    ∀ res unread, r = .returned res unread →
      (res.xResult = false → res.output = output ∧ res.frees = calloc.toNat) ∧
      StopsAt codec calloc lines unread
  toX509Crt : ∃ r, xReadPemFromCliToX509Crt codec parse calloc lines = .ok r ∧
    ∀ res unread, r = .returned res unread →
      (res.xResult = false → res.frees = calloc.toNat) ∧ StopsAt codec calloc lines unread

/-- No line refused for its length fills the buffer, and something stands before the footer. -/
def PemReading.Harmless (codec : Base64.Codec) : PemReading → Prop
  | .incomplete => True
  | .complete der _ => der ≠ []
  | .rejected begun n line _ => ¬ Overfills codec begun n line

instance (codec : Base64.Codec) (r : PemReading) : Decidable (r.Harmless codec) :=
  match r with
  | .incomplete => inferInstanceAs (Decidable True)
  | .complete der _ => inferInstanceAs (Decidable (der ≠ []))
  | .rejected begun n line _ => inferInstanceAs (Decidable (¬ Overfills codec begun n line))

section calls

variable (codec : Base64.Codec) (parse : List UInt8 → Int) (output : PemOutput)
  (lines : List CString)

theorem xReadPemFromCliToX509Crt_spec :
    match readPem codec false [] lines with
    | .incomplete => xReadPemFromCliToX509Crt codec parse true lines = .ok .waiting
    | .complete der unread =>
      if der = [] then xReadPemFromCliToX509Crt codec parse true lines = .error .assertFailed
      else ∃ r, xReadPemFromCliToX509Crt codec parse true lines = .ok (.returned r unread) ∧
        r.xResult = decide (0 ≤ parse der) ∧ r.frees = if parse der < 0 then 1 else 0
    | .rejected begun n line unread =>
      if Overfills codec begun n line then
        xReadPemFromCliToX509Crt codec parse true lines = .error .assertFailed
      else ∃ r, xReadPemFromCliToX509Crt codec parse true lines = .ok (.returned r unread) ∧
        r.xResult = false ∧ r.frees = 1 := by
  have hder := xReadPemFromCliAsDer_spec codec ⟨none, 0⟩ lines
  rw [xReadPemFromCliToX509Crt]
  cases hr : readPem codec false [] lines with
  | incomplete =>
    rw [hr] at hder
    simp only [hder, Except.bind]
  | complete der unread =>
    rw [hr] at hder
    obtain ⟨r, b, hcall, hres, hout, hstored, hfrees⟩ := hder
    simp only [hcall, Except.bind, hres, hout, Bool.not_true, Bool.false_eq_true, if_false,
      Option.elim_some, hstored, hfrees]
    cases der with
    | nil => simp
    | cons d der =>
      simp only [List.length_cons, Nat.succ_pos, if_true, reduceCtorEq, if_false]
      by_cases hp : parse (d :: der) < 0
      · simp only [hp, if_true, Nat.zero_add]
        exact ⟨_, rfl, (decide_eq_false (Int.not_le.mpr hp)).symm, rfl⟩
      · simp only [hp, if_false]
        exact ⟨_, rfl, (decide_eq_true (Int.not_lt.mp hp)).symm, rfl⟩
  | rejected begun n line unread =>
    rw [hr] at hder
    simp only [] at hder ⊢
    split
    · next ho =>
      rw [if_pos ho] at hder
      rw [hder]
      rfl
    · next ho =>
      rw [if_neg ho] at hder
      obtain ⟨r, hcall, hres, -, hfrees⟩ := hder
      simp only [hcall, Except.bind, hres, Bool.not_false, if_true, hfrees]
      exact ⟨_, rfl, rfl, rfl⟩

theorem importSafe_of_noBuffer : ImportSafe codec parse false output lines where
  asDer := by
    refine ⟨_, rfl, ?_⟩
    intro res unread h
    cases h
    exact ⟨fun _ => ⟨rfl, rfl⟩, rfl⟩
  toX509Crt := by
    refine ⟨_, rfl, ?_⟩
    intro res unread h
    cases h
    exact ⟨fun _ => rfl, rfl⟩

/-- The import of a PEM text is safe exactly when no line that is refused for its length decodes to
the very end of the buffer, and the footer does not come before the first byte. -/
theorem importSafe_iff (calloc : Bool) :
    ImportSafe codec parse calloc output lines ↔
      (calloc = true → (readPem codec false [] lines).Harmless codec) := by
  cases calloc with
  | false =>
    exact ⟨fun _ h => (by cases h), fun _ => importSafe_of_noBuffer codec parse output lines⟩
  | true =>
    have hder := xReadPemFromCliAsDer_spec codec output lines
    have hcrt := xReadPemFromCliToX509Crt_spec codec parse lines
    cases hr : readPem codec false [] lines with
    | incomplete =>
      rw [hr] at hder hcrt
      refine ⟨fun _ _ => trivial, fun _ => ⟨⟨_, hder, ?_⟩, ⟨_, hcrt, ?_⟩⟩⟩
      · intro res unread h
        cases h
      · intro res unread h
        cases h
    | complete der unread =>
      rw [hr] at hder hcrt
      have hstop : StopsAt codec true lines unread := by
        rw [StopsAt, if_pos rfl, hr]
        rfl
      obtain ⟨r, b, hcall, hres, -, -, -⟩ := hder
      simp only [] at hcrt
      constructor
      · intro hsafe _ hnil
        rw [if_pos hnil] at hcrt
        obtain ⟨_, hok, -⟩ := hsafe.toX509Crt
        rw [hcrt] at hok
        cases hok
      · intro hne
        rw [if_neg (hne rfl)] at hcrt
        obtain ⟨c, hcrtCall, hcrtRes, hcrtFrees⟩ := hcrt
        refine ⟨⟨_, hcall, ?_⟩, ⟨_, hcrtCall, ?_⟩⟩
        · intro res unread' h
          cases h
          exact ⟨fun hf => absurd hf (by simp [hres]), hstop⟩
        · intro res unread' h
          cases h
          refine ⟨fun hf => ?_, hstop⟩
          have hneg : parse der < 0 := Int.not_le.mp (of_decide_eq_false (hcrtRes.symm.trans hf))
          rw [hcrtFrees, if_pos hneg]
          rfl
    | rejected begun n line unread =>
      rw [hr] at hder hcrt
      have hstop : StopsAt codec true lines unread := by
        rw [StopsAt, if_pos rfl, hr]
        rfl
      simp only [] at hder hcrt
      constructor
      · intro hsafe _ ho
        rw [if_pos ho] at hder
        obtain ⟨_, hok, -⟩ := hsafe.asDer
        rw [hder] at hok
        cases hok
      · intro hno
        rw [if_neg (hno rfl)] at hder hcrt
        obtain ⟨r, hcall, -, hout, hfrees⟩ := hder
        obtain ⟨c, hcrtCall, -, hcrtFrees⟩ := hcrt
        refine ⟨⟨_, hcall, ?_⟩, ⟨_, hcrtCall, ?_⟩⟩
        · intro res unread' h
          cases h
          exact ⟨fun _ => ⟨hout, hfrees⟩, hstop⟩
        · intro res unread' h
          cases h
          exact ⟨fun _ => hcrtFrees, hstop⟩

end calls

/-- A header with its footer right behind it. -/
def emptyPem : List CString :=
  [.ofBytes (ascii "-----BEGIN CERTIFICATE-----"), .ofBytes (ascii "-----END CERTIFICATE-----")]

theorem emptyPem_not_importSafe : ¬ ∀ (codec : Base64.Codec) (parse : List UInt8 → Int)
    (calloc : Bool) (output : PemOutput) (lines : List CString),
    (∀ line ∈ lines, line.length < cliInputLineLenMax) →
      ImportSafe codec parse calloc output lines := by
  intro h
  obtain ⟨r, hr, -⟩ := (h Base64.rfc4648 (fun _ => 0) true ⟨none, 0⟩ emptyPem (by decide)).toX509Crt
  have hspec := xReadPemFromCliToX509Crt_spec Base64.rfc4648 (fun _ => 0) emptyPem
  have hread : readPem Base64.rfc4648 false [] emptyPem = .complete [] [] := by decide
  rw [hread] at hspec
  simp only [if_true] at hspec
  rw [hspec] at hr
  cases hr

end RenesasDemo.Cli
