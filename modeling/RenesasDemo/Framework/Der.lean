import Mathlib.Data.Nat.Size
import RenesasDemo.Framework.LittleEndian

namespace RenesasDemo.Framework

def bigEndianValue (bs : List UInt8) : Nat := ofBytes bs.reverse

def bigEndianOctets (n x : Nat) : List UInt8 := (toBytes n x).reverse

/-- The bytes of a length that is not short, highest first. -/
def longLength (n : Nat) : List UInt8 := bigEndianOctets ((n.size + 7) / 8) n

def derLengthOctets (n : Nat) : List UInt8 :=
  if n < 128 then [UInt8.ofNat n]
  else UInt8.ofNat (128 + (n.size + 7) / 8) :: longLength n

def derElement (tag : UInt8) (content : List UInt8) : List UInt8 :=
  tag :: (derLengthOctets content.length ++ content)

/-- The fewest bytes that hold `x` and a clear sign bit. -/
def integerContent (x : Nat) : List UInt8 := bigEndianOctets (x.size / 8 + 1) x

/-- The bytes of a number that is not negative, with a clear sign bit. -/
def signedOctets (bs : List UInt8) : List UInt8 := if 0x80 ≤ bs.headD 0 then 0 :: bs else bs

def derIntegerElement (x : Nat) : List UInt8 := derElement 0x02 (integerContent x)

/-- SEQUENCE of the algorithm with its parameters, both OBJECT IDENTIFIERs, and the key as a
BIT STRING -/
def derSubjectPublicKeyInfo (algorithm parameters key : List UInt8) : List UInt8 :=
  derElement 0x30
    (derElement 0x30 (derElement 0x06 algorithm ++ derElement 0x06 parameters) ++
      derElement 0x03 (0 :: key))

/-- The length at the beginning and what follows; a length that is not written with the fewest
bytes is refused. -/
def readLength : List UInt8 → Option (Nat × List UInt8)
  | [] => none
  | b :: bs =>
      let n := if b < 128 then b.toNat else bigEndianValue (bs.take (b.toNat - 128))
      let k := (derLengthOctets n).length
      if (b :: bs).take k = derLengthOctets n then some (n, (b :: bs).drop k) else none

/-- The element at the beginning, its tag and content, and what follows. -/
def readElement : List UInt8 → Option (UInt8 × List UInt8 × List UInt8)
  | [] => none
  | tag :: bs =>
      (readLength bs).bind fun (n, bs) =>
        if n ≤ bs.length then some (tag, bs.take n, bs.drop n) else none

section numbers

variable {x n : Nat} {bs : List UInt8}

theorem bigEndianValue_cons (b : UInt8) (bs : List UInt8) :
    bigEndianValue (b :: bs) = bigEndianValue bs + 256 ^ bs.length * b.toNat := by
  rw [bigEndianValue, List.reverse_cons, ofBytes_append, List.length_reverse]
  simp [ofBytes, bigEndianValue]

theorem bigEndianValue_append (bs cs : List UInt8) :
    bigEndianValue (bs ++ cs) = bigEndianValue cs + 256 ^ cs.length * bigEndianValue bs := by
  rw [bigEndianValue, List.reverse_append, ofBytes_append, List.length_reverse]
  rfl

theorem bigEndianValue_lt (bs : List UInt8) : bigEndianValue bs < 256 ^ bs.length := by
  rw [bigEndianValue, ← List.length_reverse]
  exact ofBytes_lt bs.reverse

@[simp] theorem length_bigEndianOctets (n x : Nat) : (bigEndianOctets n x).length = n := by
  rw [bigEndianOctets, List.length_reverse, toBytes_length]

theorem bigEndianValue_octets (hx : x < 256 ^ n) : bigEndianValue (bigEndianOctets n x) = x := by
  rw [bigEndianValue, bigEndianOctets, List.reverse_reverse, ofBytes_toBytes hx]

theorem bigEndianOctets_value (bs : List UInt8) :
    bigEndianOctets bs.length (bigEndianValue bs) = bs := by
  have h := toBytes_ofBytes bs.reverse
  rw [List.length_reverse] at h
  rw [bigEndianOctets, bigEndianValue, h, List.reverse_reverse]

@[simp] theorem length_integerContent (x : Nat) : (integerContent x).length = x.size / 8 + 1 :=
  length_bigEndianOctets _ x

theorem lt_pow_of_size (h : x.size ≤ 8 * n) : x < 256 ^ n := by
  have hpow : (256 : Nat) ^ n = 2 ^ (8 * n) := by rw [Nat.pow_mul]
  rw [hpow]
  exact Nat.size_le.mp h

/-- Bytes of the right number are the content of the INTEGER for their value. -/
theorem eq_integerContent_iff :
    bs = integerContent (bigEndianValue bs) ↔ bs.length = (bigEndianValue bs).size / 8 + 1 := by
  constructor
  · intro h
    exact (congrArg List.length h).trans (length_integerContent _)
  · intro h
    rw [integerContent, ← h, bigEndianOctets_value]

theorem size_bigEndianValue_le (bs : List UInt8) : (bigEndianValue bs).size ≤ 8 * bs.length := by
  rw [Nat.size_le, Nat.pow_mul]
  exact bigEndianValue_lt bs

/-- The bits of the first byte count from `8 * bs.length` on. -/
theorem lt_size_cons (b : UInt8) (bs : List UInt8) (k : Nat) :
    8 * bs.length + k < (bigEndianValue (b :: bs)).size ↔ 2 ^ k ≤ b.toNat := by
  have hlt := bigEndianValue_lt bs
  have hpow : (2 : Nat) ^ (8 * bs.length + k) = 256 ^ bs.length * 2 ^ k := by
    rw [Nat.pow_add, Nat.pow_mul]
  rw [Nat.lt_size, hpow, bigEndianValue_cons]
  constructor
  · intro h
    by_contra hb
    have hle := Nat.mul_le_mul_left (256 ^ bs.length) (Nat.not_le.mp hb)
    rw [Nat.succ_eq_add_one, Nat.mul_add, Nat.mul_one] at hle
    omega
  · intro h
    exact Nat.le_trans (Nat.mul_le_mul_left _ h) (Nat.le_add_left ..)

/-- The sign octet makes the bytes the content of the INTEGER if they have no octet too many. -/
theorem signedOctets_eq_iff (hne : bs ≠ []) :
    signedOctets bs = integerContent (bigEndianValue bs) ↔
      8 * bs.length ≤ (bigEndianValue bs).size + 8 := by
  have hle := size_bigEndianValue_le bs
  obtain ⟨b, t, rfl⟩ := List.exists_cons_of_ne_nil hne
  have hmsb := lt_size_cons b t 7
  rw [List.length_cons] at hle ⊢
  rw [signedOctets, List.headD_cons]
  by_cases hb : 0x80 ≤ b
  · have hsize := hmsb.mpr (UInt8.le_iff_toNat_le.mp hb)
    have hzero : bigEndianValue (0 :: b :: t) = bigEndianValue (b :: t) := by
      rw [bigEndianValue_cons 0]
      rfl
    rw [if_pos hb, ← hzero, eq_integerContent_iff, hzero, List.length_cons, List.length_cons]
    omega
  · have hsize := hmsb.not.mpr (UInt8.le_iff_toNat_le.not.mp hb)
    rw [if_neg hb, eq_integerContent_iff, List.length_cons]
    omega

/-- The same bound for the number. -/
theorem size_bound_iff (hx : 0 < x) (hn : 0 < n) : 8 * n ≤ x.size + 8 ↔ 256 ^ n ≤ 512 * x := by
  obtain ⟨k, rfl⟩ := Nat.exists_eq_add_of_lt hn
  rw [Nat.zero_add]
  have hpow : (256 : Nat) ^ (k + 1) = 2 ^ (8 * k) * 256 := by rw [Nat.pow_succ, Nat.pow_mul]
  rw [hpow]
  cases k with
  | zero => exact iff_of_true (Nat.le_add_left ..) (by omega)
  | succ k =>
    have hlow : (2 : Nat) ^ (8 * (k + 1)) = 2 ^ (8 * k + 7) * 2 := by
      rw [← Nat.pow_succ]
      congr 1
    have hsize := Nat.lt_size (m := 8 * k + 7) (n := x)
    rw [hlow]
    omega

end numbers

section elements

variable {n : Nat}

theorem length_lt_derElement (tag : UInt8) (content : List UInt8) :
    content.length < (derElement tag content).length := by
  rw [derElement, List.length_cons, List.length_append]
  omega

theorem derElement_short (tag : UInt8) {content : List UInt8} (h : content.length < 128) :
    derElement tag content = tag :: UInt8.ofNat content.length :: content := by
  rw [derElement, derLengthOctets, if_pos h]
  rfl

theorem length_derElement (tag : UInt8) (content : List UInt8) :
    (derElement tag content).length =
      1 + (derLengthOctets content.length).length + content.length := by
  rw [derElement, List.length_cons, List.length_append]
  omega

@[simp] theorem length_longLength (n : Nat) : (longLength n).length = (n.size + 7) / 8 :=
  length_bigEndianOctets _ n

theorem bigEndianValue_longLength (n : Nat) : bigEndianValue (longLength n) = n :=
  bigEndianValue_octets (lt_pow_of_size (by omega))

theorem readLength_append (hn : n < 256 ^ 31) (rest : List UInt8) :
    readLength (derLengthOctets n ++ rest) = some (n, rest) := by
  have hread : ∀ b bs, derLengthOctets n = b :: bs →
      (if b < 128 then b.toNat else bigEndianValue ((bs ++ rest).take (b.toNat - 128))) = n →
      readLength (b :: (bs ++ rest)) = some (n, rest) := by
    intro b bs hocts hvalue
    rw [readLength]
    simp only [hvalue]
    rw [← List.cons_append, ← hocts, List.take_left, List.drop_left, if_pos rfl]
  by_cases hshort : n < 128
  · have hocts : derLengthOctets n = [UInt8.ofNat n] := if_pos hshort
    have hb : (UInt8.ofNat n).toNat = n := by
      rw [UInt8.toNat_ofNat']
      omega
    rw [hocts]
    refine hread _ [] hocts ?_
    rw [if_pos (UInt8.lt_iff_toNat_lt.mpr (hb.symm ▸ hshort)), hb]
  · have hocts : derLengthOctets n = UInt8.ofNat (128 + (n.size + 7) / 8) :: longLength n :=
      if_neg hshort
    have hsize : n.size ≤ 8 * 31 := by
      apply Nat.size_le.mpr
      rwa [Nat.pow_mul]
    have hb : (UInt8.ofNat (128 + (n.size + 7) / 8)).toNat = 128 + (n.size + 7) / 8 := by
      rw [UInt8.toNat_ofNat']
      omega
    have hlong : ¬ UInt8.ofNat (128 + (n.size + 7) / 8) < 128 := by
      rw [UInt8.lt_iff_toNat_lt, hb]
      exact Nat.not_lt.mpr (Nat.le_add_right 128 _)
    rw [hocts]
    refine hread _ _ hocts ?_
    rw [if_neg hlong, hb, Nat.add_sub_cancel_left, List.take_left' (length_longLength n),
      bigEndianValue_longLength]

theorem readElement_append (tag : UInt8) {content : List UInt8} (h : content.length < 256 ^ 31)
    (rest : List UInt8) :
    readElement (derElement tag content ++ rest) = some (tag, content, rest) := by
  have hlen : content.length ≤ (content ++ rest).length := by
    rw [List.length_append]
    exact Nat.le_add_right ..
  rw [derElement, List.cons_append, readElement, List.append_assoc, readLength_append h]
  simp only [Option.bind_some, if_pos hlen, List.take_left, List.drop_left]

/-- What is written is determined by what is read. -/
theorem derElement_append_inj {tag tag' : UInt8} {content content' rest rest' : List UInt8}
    (h : content.length < 256 ^ 31) (h' : content'.length < 256 ^ 31)
    (heq : derElement tag content ++ rest = derElement tag' content' ++ rest') :
    content = content' ∧ rest = rest' := by
  have hread := readElement_append tag h rest
  rw [heq, readElement_append tag' h' rest'] at hread
  obtain ⟨-, hpair⟩ := Prod.mk.inj (Option.some.inj hread)
  obtain ⟨hcontent, hrest⟩ := Prod.mk.inj hpair
  exact ⟨hcontent.symm, hrest.symm⟩

end elements

end RenesasDemo.Framework
