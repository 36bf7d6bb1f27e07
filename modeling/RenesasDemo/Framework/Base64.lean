import Mathlib.Data.List.Basic

namespace RenesasDemo.Framework.Base64

def char (v : Nat) : UInt8 :=
  if v < 26 then UInt8.ofNat (65 + v)
  else if v < 52 then UInt8.ofNat (97 + (v - 26))
  else if v < 62 then UInt8.ofNat (48 + (v - 52))
  else if v = 62 then 43 else 47

def value? (c : UInt8) : Option Nat :=
  if 65 ≤ c ∧ c ≤ 90 then some (c.toNat - 65)
  else if 97 ≤ c ∧ c ≤ 122 then some (c.toNat - 97 + 26)
  else if 48 ≤ c ∧ c ≤ 57 then some (c.toNat - 48 + 52)
  else if c = 43 then some 62
  else if c = 47 then some 63
  else none

def pad : UInt8 := 61

/-- Three bytes make four characters; a shorter last group is padded. -/
def encode : List UInt8 → List UInt8
  | [] => []
  | [a] => [char (a.toNat / 4), char (a.toNat % 4 * 16), pad, pad]
  | [a, b] =>
      [char (a.toNat / 4), char (a.toNat % 4 * 16 + b.toNat / 16), char (b.toNat % 16 * 4), pad]
  | a :: b :: c :: rest =>
      char (a.toNat / 4) :: char (a.toNat % 4 * 16 + b.toNat / 16) ::
        char (b.toNat % 16 * 4 + c.toNat / 64) :: char (c.toNat % 64) :: encode rest

def quantum (p q r s : UInt8) : Option (List UInt8) :=
  (value? p).bind fun x => (value? q).bind fun y => (value? r).bind fun z => (value? s).map fun w =>
    [UInt8.ofNat (x * 4 + y / 16), UInt8.ofNat (y * 16 + z / 4), UInt8.ofNat (z * 64 + w)]

/-- The last four characters, of which up to two may be padding. -/
def lastQuantum (p q r s : UInt8) : Option (List UInt8) :=
  if s = pad then
    if r = pad then (value? p).bind fun x => (value? q).map fun y => [UInt8.ofNat (x * 4 + y / 16)]
    else (value? p).bind fun x => (value? q).bind fun y => (value? r).map fun z =>
      [UInt8.ofNat (x * 4 + y / 16), UInt8.ofNat (y * 16 + z / 4)]
  else quantum p q r s

def decode : List UInt8 → Option (List UInt8)
  | [] => some []
  | [p, q, r, s] => lastQuantum p q r s
  | p :: q :: r :: s :: t :: rest =>
      (quantum p q r s).bind fun bs => (decode (t :: rest)).map fun cs => bs ++ cs
  | _ => none

/-- A base64 text has four characters for three bytes, the last group rounded up. -/
def textLength (n : Nat) : Nat := 4 * ((n + 2) / 3)

/-- The letters, digits, '+' and '/', and the padding. -/
def InAlphabet (c : UInt8) : Prop := c = pad ∨ (value? c).isSome = true

theorem value?_char {v : Nat} (hv : v < 64) : value? (char v) = some v := by
  have h : ∀ v : Fin 64, value? (char v) = some v.val := by decide
  exact h ⟨v, hv⟩

theorem inAlphabet_char {v : Nat} (hv : v < 64) : InAlphabet (char v) := by
  right
  rw [value?_char hv]
  rfl

theorem char_ne_pad {v : Nat} (hv : v < 64) : char v ≠ pad := by
  intro h
  have hval := value?_char hv
  rw [h] at hval
  cases hval

theorem length_encode (bs : List UInt8) : (encode bs).length = textLength bs.length := by
  fun_induction encode bs with
  | case1 => rfl
  | case2 a => simp [textLength]
  | case3 a b => simp [textLength]
  | case4 a b c rest ih =>
    simp only [List.length_cons, ih, textLength]
    omega

theorem inAlphabet_of_mem_encode (bs : List UInt8) : ∀ c ∈ encode bs, InAlphabet c := by
  fun_induction encode bs with
  | case1 => simp
  | case2 a =>
    have ha := a.toNat_lt
    have h1 := inAlphabet_char (v := a.toNat / 4) (by omega)
    have h2 := inAlphabet_char (v := a.toNat % 4 * 16) (by omega)
    simp only [List.forall_mem_cons, h1, h2, true_and]
    simp [InAlphabet]
  | case3 a b =>
    have ha := a.toNat_lt
    have hb := b.toNat_lt
    have h1 := inAlphabet_char (v := a.toNat / 4) (by omega)
    have h2 := inAlphabet_char (v := a.toNat % 4 * 16 + b.toNat / 16) (by omega)
    have h3 := inAlphabet_char (v := b.toNat % 16 * 4) (by omega)
    simp only [List.forall_mem_cons, h1, h2, h3, true_and]
    simp [InAlphabet]
  | case4 a b c rest ih =>
    have ha := a.toNat_lt
    have hb := b.toNat_lt
    have hc := c.toNat_lt
    have h1 := inAlphabet_char (v := a.toNat / 4) (by omega)
    have h2 := inAlphabet_char (v := a.toNat % 4 * 16 + b.toNat / 16) (by omega)
    have h3 := inAlphabet_char (v := b.toNat % 16 * 4 + c.toNat / 64) (by omega)
    have h4 := inAlphabet_char (v := c.toNat % 64) (by omega)
    simpa only [List.forall_mem_cons, h1, h2, h3, h4, true_and] using ih

theorem notMem_encode {c : UInt8} (hc : c ≠ pad ∧ value? c = none) (bs : List UInt8) :
    c ∉ encode bs := by
  intro hmem
  obtain hpad | hval := inAlphabet_of_mem_encode bs c hmem
  · exact hc.1 hpad
  · rw [hc.2] at hval
    cases hval

private theorem ofNat_eq {x : Nat} {b : UInt8} (h : x % 256 = b.toNat) : UInt8.ofNat x = b := by
  apply UInt8.toNat_inj.mp
  rw [UInt8.toNat_ofNat']
  exact h

theorem quantum_encode (a b c : UInt8) :
    quantum (char (a.toNat / 4)) (char (a.toNat % 4 * 16 + b.toNat / 16))
      (char (b.toNat % 16 * 4 + c.toNat / 64)) (char (c.toNat % 64)) = some [a, b, c] := by
  have ha := a.toNat_lt
  have hb := b.toNat_lt
  have hc := c.toNat_lt
  rw [quantum, value?_char (by omega), value?_char (by omega), value?_char (by omega),
    value?_char (by omega)]
  simp only [Option.bind_some, Option.map_some]
  rw [ofNat_eq (b := a) (by omega), ofNat_eq (b := b) (by omega), ofNat_eq (b := c) (by omega)]

theorem lastQuantum_encode_one (a : UInt8) :
    lastQuantum (char (a.toNat / 4)) (char (a.toNat % 4 * 16)) pad pad = some [a] := by
  have ha := a.toNat_lt
  rw [lastQuantum, if_pos rfl, if_pos rfl, value?_char (by omega), value?_char (by omega)]
  simp only [Option.bind_some, Option.map_some]
  rw [ofNat_eq (b := a) (by omega)]

theorem lastQuantum_encode_two (a b : UInt8) :
    lastQuantum (char (a.toNat / 4)) (char (a.toNat % 4 * 16 + b.toNat / 16))
      (char (b.toNat % 16 * 4)) pad = some [a, b] := by
  have ha := a.toNat_lt
  have hb := b.toNat_lt
  rw [lastQuantum, if_pos rfl, if_neg (char_ne_pad (by omega)), value?_char (by omega),
    value?_char (by omega), value?_char (by omega)]
  simp only [Option.bind_some, Option.map_some]
  rw [ofNat_eq (b := a) (by omega), ofNat_eq (b := b) (by omega)]

theorem lastQuantum_of_ne_pad {p q r s : UInt8} (hs : s ≠ pad) :
    lastQuantum p q r s = quantum p q r s := if_neg hs

/-- What follows a full group, and whether it is empty, does not change the group. -/
theorem decode_cons {p q r s : UInt8} (hs : s ≠ pad) (rest : List UInt8) :
    decode (p :: q :: r :: s :: rest) =
      (quantum p q r s).bind fun bs => (decode rest).map fun cs => bs ++ cs := by
  cases rest with
  | nil =>
    change lastQuantum p q r s = _
    rw [lastQuantum_of_ne_pad hs]
    cases quantum p q r s with
    | none => rfl
    | some bs => simp [decode]
  | cons t rest => rw [decode]

theorem decode_encode (bs : List UInt8) : decode (encode bs) = some bs := by
  fun_induction encode bs with
  | case1 => rfl
  | case2 a => exact lastQuantum_encode_one a
  | case3 a b => exact lastQuantum_encode_two a b
  | case4 a b c rest ih =>
    have hc := c.toNat_lt
    rw [decode_cons (char_ne_pad (by omega)), quantum_encode, Option.bind_some, ih]
    rfl

theorem length_of_quantum {p q r s : UInt8} {bs : List UInt8} (h : quantum p q r s = some bs) :
    bs.length = 3 := by
  simp only [quantum, Option.bind_eq_some_iff, Option.map_eq_some_iff] at h
  obtain ⟨x, -, y, -, z, -, w, -, rfl⟩ := h
  rfl

theorem length_of_lastQuantum {p q r s : UInt8} {bs : List UInt8}
    (h : lastQuantum p q r s = some bs) : bs.length ≤ 3 := by
  rw [lastQuantum] at h
  split at h
  · split at h
    · simp only [Option.bind_eq_some_iff, Option.map_eq_some_iff] at h
      obtain ⟨x, -, y, -, rfl⟩ := h
      exact Nat.le_of_ble_eq_true rfl
    · simp only [Option.bind_eq_some_iff, Option.map_eq_some_iff] at h
      obtain ⟨x, -, y, -, z, -, rfl⟩ := h
      exact Nat.le_of_ble_eq_true rfl
  · exact Nat.le_of_eq (length_of_quantum h)

theorem length_of_decode {text bs : List UInt8} (h : decode text = some bs) :
    bs.length ≤ text.length := by
  fun_induction decode text generalizing bs with
  | case1 =>
    cases h
    exact Nat.le_refl 0
  | case2 p q r s =>
    have hlen := length_of_lastQuantum h
    simp only [List.length_cons, List.length_nil]
    omega
  | case3 p q r s t rest ih =>
    simp only [Option.bind_eq_some_iff, Option.map_eq_some_iff] at h
    obtain ⟨as, hq, cs, hr, rfl⟩ := h
    have h1 := length_of_quantum hq
    have h2 := ih hr
    simp only [List.length_append, List.length_cons] at h2 ⊢
    omega
  | case4 => cases h

/-- A codec for buffers of a given size: it fails when the result does not fit. The encoder ends
its text with a NUL, for which it needs room as well. -/
structure Codec where
  encode : Nat → List UInt8 → Option (List UInt8)
  decode : Nat → List UInt8 → Option (List UInt8)
  encode_of_fits : ∀ {dlen : Nat} {bs : List UInt8}, textLength bs.length < dlen →
    encode dlen bs = some (Base64.encode bs)
  decode_of_fits : ∀ {dlen : Nat} {bs : List UInt8}, bs.length ≤ dlen →
    decode dlen (Base64.encode bs) = some bs
  fits_of_decode : ∀ {dlen : Nat} {text bs : List UInt8}, decode dlen text = some bs →
    bs.length ≤ dlen
  length_of_decode : ∀ {dlen : Nat} {text bs : List UInt8}, decode dlen text = some bs →
    bs.length ≤ text.length

def rfc4648 : Codec where
  encode dlen bs := if textLength bs.length < dlen then some (encode bs) else none
  decode dlen text := (decode text).filter fun bs => bs.length ≤ dlen
  encode_of_fits h := if_pos h
  decode_of_fits h := by simp [decode_encode, h]
  fits_of_decode h := by simpa using (Option.filter_eq_some_iff.mp h).2
  length_of_decode h := length_of_decode (Option.filter_eq_some_iff.mp h).1

end RenesasDemo.Framework.Base64
