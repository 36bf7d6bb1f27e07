import RenesasDemo.Framework.Printf

namespace RenesasDemo.Tls

open Framework

abbrev serialNumberHexLen : Nat := 41

def upperHexDigit (d : Nat) : UInt8 := UInt8.ofNat (if d < 10 then 0x30 + d else 0x37 + d)

/-- `"%.02X"` of a byte. -/
def hexByte (c : UInt8) : List UInt8 := [upperHexDigit (c.toNat / 16), upperHexDigit (c.toNat % 16)]

/-- The loop from the byte `i` on; undefined where it writes behind the end of the array. -/
def formatSerial (i : Nat) (b : Buffer UInt8 serialNumberHexLen) :
    List UInt8 → Option (Buffer UInt8 serialNumberHexLen)
  | [] => some b
  | c :: serial =>
      if i = 21 then some b
      else (snprintf b (i * 2) 3 (hexByte c)).bind fun b => formatSerial (i + 1) b serial

/-- `pcSerialNumberHex` of `vLogCertInfo`, which is zero at first. -/
def vLogCertInfo (serial : List UInt8) : Option (Buffer UInt8 serialNumberHexLen) :=
  formatSerial 0 ⟨List.replicate serialNumberHexLen 0, List.length_replicate⟩ serial

/-- The array holds the digits of the first 20 bytes and a terminator, and nothing was written
behind it. -/
def SerialShown (serial : List UInt8) : Prop :=
  ∃ b, vLogCertInfo serial = some b ∧ (serial.take 20).flatMap hexByte ++ [0] <+: b.bytes

section serial

variable {i : Nat} {b : Buffer UInt8 serialNumberHexLen} {c : UInt8} {serial text : List UInt8}

/-- A round for one of the first 20 bytes puts its digits in the place of the terminator. -/
theorem snprintf_hexByte (hi : i < 20) (hlen : text.length = i * 2) (h : text ++ [0] <+: b.bytes)
    (c : UInt8) : ∃ b', snprintf b (i * 2) 3 (hexByte c) = some b' ∧
      text ++ hexByte c ++ [0] <+: b'.bytes := by
  have hsize : serialNumberHexLen = 41 := rfl
  obtain ⟨b', hb', htake⟩ := snprintf_spec b (hexByte c) (show 0 < 3 by decide)
    (show i * 2 + 3 ≤ serialNumberHexLen by omega)
  have hall : (hexByte c).take (3 - 1) = hexByte c := rfl
  have hbefore : b.bytes.take (i * 2) = text := by
    rw [← hlen]
    exact (List.prefix_iff_eq_take.mp ((List.prefix_append text [0]).trans h)).symm
  rw [hall, hbefore] at htake
  exact ⟨b', hb', htake ▸ List.take_prefix _ _⟩

theorem formatSerial_fits (hlen : text.length = i * 2) (h : text ++ [0] <+: b.bytes)
    (hfit : i + serial.length ≤ 20) : ∃ b', formatSerial i b serial = some b' ∧
      text ++ serial.flatMap hexByte ++ [0] <+: b'.bytes := by
  induction serial generalizing i b text with
  | nil =>
    refine ⟨b, rfl, ?_⟩
    rw [List.flatMap_nil, List.append_nil]
    exact h
  | cons c serial ih =>
    rw [List.length_cons] at hfit
    obtain ⟨b1, hb1, hpre1⟩ := snprintf_hexByte (by omega) hlen h c
    have hlen1 : (text ++ hexByte c).length = (i + 1) * 2 := by
      rw [List.length_append, hlen, Nat.add_mul]
      rfl
    obtain ⟨b2, hb2, hpre2⟩ := ih hlen1 hpre1 (by omega)
    refine ⟨b2, ?_, ?_⟩
    · rw [formatSerial, if_neg (by omega), hb1]
      exact hb2
    · rw [List.flatMap_cons, ← List.append_assoc]
      exact hpre2

/-- The round for the byte 20 writes two bytes behind the array. -/
theorem formatSerial_overruns (hlen : text.length = i * 2) (h : text ++ [0] <+: b.bytes)
    (hi : i ≤ 20) (hlong : 20 < i + serial.length) : formatSerial i b serial = none := by
  induction serial generalizing i b text with
  | nil =>
    rw [List.length_nil] at hlong
    omega
  | cons c serial ih =>
    rw [List.length_cons] at hlong
    rw [formatSerial, if_neg (by omega)]
    by_cases hlast : i = 20
    · subst hlast
      rfl
    · obtain ⟨b1, hb1, hpre1⟩ := snprintf_hexByte (by omega) hlen h c
      have hlen1 : (text ++ hexByte c).length = (i + 1) * 2 := by
        rw [List.length_append, hlen, Nat.add_mul]
        rfl
      rw [hb1]
      exact ih hlen1 hpre1 (by omega) (by omega)

theorem serialShown_iff (serial : List UInt8) : SerialShown serial ↔ serial.length ≤ 20 := by
  have hstart : ([] : List UInt8) ++ [0] <+: List.replicate serialNumberHexLen 0 := by decide
  constructor
  · rintro ⟨b, hb, -⟩
    by_contra hlong
    have hnone : vLogCertInfo serial = none :=
      formatSerial_overruns (i := 0) rfl hstart (by decide) (by omega)
    rw [hnone] at hb
    cases hb
  · intro hfit
    have hall : 0 + serial.length ≤ 20 := by omega
    obtain ⟨b, hb, hpre⟩ := formatSerial_fits
      (b := ⟨List.replicate serialNumberHexLen 0, List.length_replicate⟩) rfl hstart hall
    rw [SerialShown, List.take_of_length_le hfit]
    exact ⟨b, hb, hpre⟩

end serial

/-- A serial number of 20 bytes that would be negative has a zero in front. -/
theorem not_serialShown_twentyOne : ¬ SerialShown (0 :: List.replicate 20 0xFF) := by
  rintro ⟨b, hb, -⟩
  have hnone : (vLogCertInfo (0 :: List.replicate 20 0xFF)).isSome = false := by decide
  rw [hb] at hnone
  cases hnone

end RenesasDemo.Tls
