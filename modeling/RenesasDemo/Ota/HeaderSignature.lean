import RenesasDemo.Framework.Der
import RenesasDemo.Ota.FirmwareHeader

namespace RenesasDemo.Ota

open Framework

def derSignature (r s : Nat) : List UInt8 :=
  derElement 0x30 (derIntegerElement r ++ derIntegerElement s)

section der

variable {x r s : Nat}

theorem length_integerContent_le (hx : x < 2 ^ 256) : (integerContent x).length ≤ 33 := by
  have hsize := Nat.size_le.mpr hx
  rw [length_integerContent]
  omega

theorem le_length_integerContent : 32 ≤ (integerContent x).length ↔ 2 ^ 247 ≤ x := by
  rw [← Nat.lt_size, length_integerContent]
  omega

theorem derIntegerElement_eq (hx : x < 2 ^ 256) :
    derIntegerElement x =
      0x02 :: UInt8.ofNat (integerContent x).length :: integerContent x :=
  derElement_short 0x02 (Nat.lt_of_le_of_lt (length_integerContent_le hx) (by decide))

theorem length_derIntegerElement (hx : x < 2 ^ 256) :
    (derIntegerElement x).length = (integerContent x).length + 2 := by
  rw [derIntegerElement_eq hx, List.length_cons, List.length_cons]

theorem derSignature_eq (hr : r < 2 ^ 256) (hs : s < 2 ^ 256) :
    derSignature r s = 0x30 :: UInt8.ofNat (derIntegerElement r ++ derIntegerElement s).length ::
      (derIntegerElement r ++ derIntegerElement s) := by
  have hlr := length_integerContent_le hr
  have hls := length_integerContent_le hs
  refine derElement_short 0x30 ?_
  rw [List.length_append, length_derIntegerElement hr, length_derIntegerElement hs]
  omega

theorem bigEndianValue_integerContent (x : Nat) : bigEndianValue (integerContent x) = x :=
  bigEndianValue_octets (lt_pow_of_size (by omega))

/-- An integer of 32 or 33 bytes. -/
def longInteger (x : Nat) (hlong : 32 ≤ (integerContent x).length) (hx : x < 2 ^ 256) :
    SignatureInteger where
  length := UInt8.ofNat ((integerContent x).length)
  content := integerContent x
  fits := by
    have hle := length_integerContent_le hx
    obtain heq | heq : (integerContent x).length = 32 ∨ (integerContent x).length = 33 := by omega
    · rw [heq]
      rfl
    · rw [heq]
      rfl

theorem half_longInteger (hlong : 32 ≤ (integerContent x).length) (hx : x < 2 ^ 256) :
    (longInteger x hlong hx).half = bigEndianOctets 32 x := by
  have hlen : (integerContent x).length - ((integerContent x).length - 32) = 32 := by omega
  rw [length_integerContent] at hlen hlong
  show (integerContent x).drop ((integerContent x).length - 32) = _
  rw [length_integerContent, integerContent, bigEndianOctets, List.drop_reverse, toBytes_length,
    hlen, take_toBytes x hlong]
  rfl

/-- What the parser takes of an INTEGER: all of it when it has 32 bytes at least. -/
theorem derIntegerElement_prefix {y : SignatureInteger} {more rest : List UInt8}
    (hx : x < 2 ^ 256) (h : derIntegerElement x ++ rest = y.bytes ++ more) :
    (32 ≤ (integerContent x).length ∧ more = rest ∧
        y.bytes.length = (integerContent x).length + 2) ∨
      ((integerContent x).length < 32 ∧ y.content.length = 32 ∧
        integerContent x ++ rest = y.content ++ more) := by
  have hle := length_integerContent_le hx
  rw [derIntegerElement_eq hx] at h
  obtain ⟨-, h⟩ := List.cons.inj h
  obtain ⟨hlength, hcontent⟩ := List.cons.inj h
  have hfits := y.fits
  rw [← hlength] at hfits
  by_cases hlong : 32 ≤ (integerContent x).length
  · have hlen : y.content.length = (integerContent x).length :=
      hfits.trans (longInteger x hlong hx).fits.symm
    have hsame := (List.append_inj hcontent hlen.symm).2
    exact .inl ⟨hlong, hsame.symm, congrArg (· + 2) hlen⟩
  · have hne : UInt8.ofNat (integerContent x).length ≠
        otaSigunatureIncludeNegativeNumberValue := by
      intro heq
      have hmod := congrArg UInt8.toNat heq
      rw [UInt8.toNat_ofNat', Nat.mod_eq_of_lt (by omega)] at hmod
      exact hlong (by rw [hmod]; decide)
    rw [if_neg hne] at hfits
    exact .inr ⟨Nat.lt_of_not_le hlong, hfits, hcontent⟩

end der

/-- The length that the parser computes for the signature. -/
theorem dataLength_derSignature {r s : Nat} (hr : r < 2 ^ 256) (hs : s < 2 ^ 256) :
    (UInt8.ofNat (derIntegerElement r ++ derIntegerElement s).length +
      UInt8.ofNat otaSigunatureSequenceInfoLength).toNat =
        (integerContent r).length + (integerContent s).length + 6 := by
  have hlr := length_integerContent_le hr
  have hls := length_integerContent_le hs
  have hlen : (derIntegerElement r ++ derIntegerElement s).length =
      (integerContent r).length + (integerContent s).length + 4 := by
    rw [List.length_append, length_derIntegerElement hr, length_derIntegerElement hs]
    omega
  rw [hlen, UInt8.toNat_add, UInt8.toNat_ofNat', UInt8.toNat_ofNat',
    otaSigunatureSequenceInfoLength]
  omega

section parse

variable {r s : Nat} {dataLength : UInt8} {signature : Buffer UInt8 256}

/-- With two integers of 32 or 33 bytes the parser has both after two passes. -/
theorem parseLoop_long (hr : r < 2 ^ 256) (hs : s < 2 ^ 256) (hlr : 32 ≤ (integerContent r).length)
    (hls : 32 ≤ (integerContent s).length)
    (hlen : dataLength.toNat = (integerContent r).length + (integerContent s).length + 6)
    (signature : Buffer UInt8 256) :
    ∃ p : Buffer UInt8 256,
      p.bytes = bigEndianOctets 32 r ++ bigEndianOctets 32 s ++ signature.bytes.drop 64 ∧
      parseLoop (derSignature r s) dataLength 2 ⟨2, 0, signature⟩ =
        some (.ok ⟨rOtaErrNone, p⟩) := by
  let x := longInteger r hlr hr
  let y := longInteger s hls hs
  have hx : (derSignature r s).drop 2 = x.bytes ++ derIntegerElement s := by
    rw [derSignature_eq hr hs, derIntegerElement_eq hr]
    rfl
  have hxlen : x.bytes.length = (integerContent r).length + 2 := rfl
  have hylen : y.bytes.length = (integerContent s).length + 2 := rfl
  have hy : (derSignature r s).drop (2 + x.bytes.length) = y.bytes ++ [] := by
    rw [← List.drop_drop, hx, List.drop_left, List.append_nil, derIntegerElement_eq hs]
    rfl
  obtain ⟨p1, hp1, hpass1⟩ := parsePass_integer (d := 0) dataLength signature x hx (by decide)
  obtain ⟨p, hp, hpass⟩ := parsePass_integer (d := 32) dataLength p1 y hy (by decide)
  refine ⟨p, ?_, ?_⟩
  · have hhalf : (bigEndianOctets 32 r).length = 32 := by
      rw [bigEndianOctets, List.length_reverse, toBytes_length]
    have hp1' : p1.bytes = bigEndianOctets 32 r ++ signature.bytes.drop 32 := by
      rw [hp1, half_longInteger]
      rfl
    have hrest : (bigEndianOctets 32 r ++ signature.bytes.drop 32).drop
        (32 + otaSigunatureDataHalfLength) = signature.bytes.drop 64 := by
      rw [← List.drop_drop, List.drop_left' hhalf, List.drop_drop, otaSigunatureDataHalfLength]
    rw [hp, half_longInteger, hp1', List.take_left' hhalf, hrest]
  · have hmore : 2 + x.bytes.length ≠ dataLength.toNat := by omega
    have hend : 2 + x.bytes.length + y.bytes.length = dataLength.toNat := by omega
    rw [parseLoop, hpass1, if_neg hmore]
    simp only [parseLoop]
    rw [show 0 + otaSigunatureDataHalfLength = 32 from rfl, hpass, if_pos hend]

/-- What is copied for `r` with bytes of `s` behind it is a larger number. -/
theorem integerContent_append_ne (hr0 : 0 < r) (hr : r < 2 ^ 256) (hs : s < 2 ^ 256) :
    integerContent r ++ derIntegerElement s ≠ bigEndianOctets 32 r := by
  intro hcontent
  have hvalue := congrArg bigEndianValue hcontent
  rw [bigEndianValue_append, bigEndianValue_integerContent, bigEndianValue_octets hr,
    length_derIntegerElement hs] at hvalue
  have hpow : 256 ≤ 256 ^ ((integerContent s).length + 2) :=
    Nat.le_self_pow (Nat.succ_ne_zero _) 256
  have hmul := Nat.mul_le_mul_right r hpow
  omega

/-- A signature with a shorter integer is not parsed well: either the copy goes beyond the other
one, or both together make up the 32 bytes copied for the first. -/
theorem parseLoop_short {p : Buffer UInt8 256} {passes : Nat} (hr0 : 0 < r) (hr : r < 2 ^ 256)
    (hs : s < 2 ^ 256)
    (hlen : dataLength.toNat = (integerContent r).length + (integerContent s).length + 6)
    (h : parseLoop (derSignature r s) dataLength passes ⟨2, 0, signature⟩ =
      some (.ok ⟨rOtaErrNone, p⟩)) (hp : p.bytes.take 32 = bigEndianOctets 32 r) :
    32 ≤ (integerContent r).length ∧ 32 ≤ (integerContent s).length := by
  have hls := length_integerContent_le hs
  obtain ⟨x, more, p1, hx, hp1, hrest⟩ := parseLoop_none h
  have hx' : derIntegerElement r ++ derIntegerElement s = x.bytes ++ more := by
    rw [derSignature_eq hr hs] at hx
    exact hx
  have hmore : (derSignature r s).drop (2 + x.bytes.length) = more := by
    rw [← List.drop_drop, hx, List.drop_left]
  obtain ⟨hlr, rfl, hxlen⟩ | ⟨hlr, hxlen, hcontent⟩ := derIntegerElement_prefix hr hx'
  · refine ⟨hlr, ?_⟩
    obtain ⟨hend, -⟩ | ⟨-, passes', h'⟩ := hrest
    · omega
    · obtain ⟨y, more', -, hy, -, -⟩ := parseLoop_none h'
      rw [hmore, ← List.append_nil (derIntegerElement s)] at hy
      obtain ⟨hls', -, -⟩ | ⟨-, hylen, hcontent⟩ := derIntegerElement_prefix hs hy
      · exact hls'
      · have hsize := congrArg List.length hcontent
        rw [List.append_nil, List.length_append] at hsize
        omega
  · exfalso
    have hsize := congrArg List.length hcontent
    rw [List.length_append, length_derIntegerElement hs, List.length_append] at hsize
    have hbytes : x.bytes.length = 34 := congrArg (· + 2) hxlen
    obtain ⟨hend, rfl⟩ | ⟨-, passes', h'⟩ := hrest
    · have hhalf : x.half = bigEndianOctets 32 r := by
        rw [← hp, hp1, List.take_zero, List.nil_append]
        exact (List.take_left' x.length_half).symm
      have hwhole : x.half = x.content := by
        rw [SignatureInteger.half, hxlen]
        rfl
      have hnil : more = [] := List.eq_nil_of_length_eq_zero (by omega)
      rw [hnil, List.append_nil, ← hwhole, hhalf] at hcontent
      exact integerContent_append_ne hr0 hr hs hcontent
    · obtain ⟨y, more', -, hy, -, -⟩ := parseLoop_none h'
      rw [hmore] at hy
      have hylen : 32 ≤ y.content.length := by
        have hfits := y.fits
        rw [hfits]
        split <;> decide
      have hytail := congrArg List.length hy
      rw [List.length_append, show y.bytes.length = y.content.length + 2 from rfl] at hytail
      have hlr31 : (integerContent r).length = 31 := by omega
      have hls33 : (integerContent s).length = 33 := by omega
      -- the second pass stands at the length byte of `s`
      have htail := congrArg (List.drop (31 + 1)) hcontent
      rw [List.drop_left' hxlen, ← List.drop_drop, List.drop_left' (by simpa using hlr31), hy,
        derIntegerElement_eq hs, hls33] at htail
      exact absurd (List.cons.inj htail).1 (by decide)

end parse

/-- The header is updated with both numbers as 32 bytes each and zeros behind them. -/
def HeaderSigned (bank0 : FirmwareUpdateControlBlock) (r s : Nat) : Prop :=
  ∃ (passes : Nat) (block : FirmwareUpdateControlBlock),
    otaContextUpdateUserFirmwareHeader bank0 (derSignature r s) passes =
      some (.ok ⟨rOtaErrNone, some block⟩) ∧
    block.signature.bytes = bigEndianOctets 32 r ++ bigEndianOctets 32 s ++ List.replicate 192 0

section header

variable {bank0 : FirmwareUpdateControlBlock} {r s : Nat}

theorem parseSignature_derSignature (hr : r < 2 ^ 256) (hs : s < 2 ^ 256)
    (signature : Buffer UInt8 256) (passes : Nat) :
    parseSignature signature (derSignature r s) passes =
      parseLoop (derSignature r s)
        (UInt8.ofNat (derIntegerElement r ++ derIntegerElement s).length +
          UInt8.ofNat otaSigunatureSequenceInfoLength) passes
        ⟨2, 0, clearSignature signature⟩ := by
  rw [derSignature_eq hr hs]
  rfl

theorem headerSigned_iff_parseLoop (hr : r < 2 ^ 256) (hs : s < 2 ^ 256) :
    HeaderSigned bank0 r s ↔
      ∃ (passes : Nat) (p : Buffer UInt8 256),
        parseLoop (derSignature r s)
          (UInt8.ofNat (derIntegerElement r ++ derIntegerElement s).length +
            UInt8.ofNat otaSigunatureSequenceInfoLength) passes
          ⟨2, 0, clearSignature bank0.signature⟩ = some (.ok ⟨rOtaErrNone, p⟩) ∧
        p.bytes = bigEndianOctets 32 r ++ bigEndianOctets 32 s ++ List.replicate 192 0 := by
  constructor
  · intro h
    obtain ⟨passes, block, h, hbytes⟩ := h
    obtain ⟨result, hresult, hmap⟩ := Option.map_eq_some_iff.mp h
    rw [parseSignature_derSignature hr hs] at hresult
    cases result with
    | error fault => cases hmap
    | ok parsed =>
      obtain ⟨ret, p⟩ := parsed
      have hupdate := Except.ok.inj hmap
      obtain rfl : ret = rOtaErrNone := congrArg HeaderUpdate.ret hupdate
      have hblock := Option.some.inj (congrArg HeaderUpdate.block hupdate)
      exact ⟨passes, p, hresult, (congrArg (fun b => b.signature.bytes) hblock).trans hbytes⟩
  · intro h
    obtain ⟨passes, p, h, hbytes⟩ := h
    have hparse : parseSignature bank0.signature (derSignature r s) passes =
        some (.ok ⟨rOtaErrNone, p⟩) := (parseSignature_derSignature hr hs _ _).trans h
    exact ⟨passes, _, by rw [otaContextUpdateUserFirmwareHeader, hparse]; rfl, hbytes⟩

/-- The header is right exactly when both numbers take 32 bytes at least and the old header has
zeros where the field is neither written nor cleared. -/
theorem headerSigned_iff (bank0 : FirmwareUpdateControlBlock) (hr0 : 0 < r) (hr : r < 2 ^ 256)
    (hs : s < 2 ^ 256) :
    HeaderSigned bank0 r s ↔
      2 ^ 247 ≤ r ∧ 2 ^ 247 ≤ s ∧ bank0.signature.bytes.drop 64 = List.replicate 192 0 := by
  have hlen := dataLength_derSignature hr hs
  have hhalf : ∀ x, (bigEndianOctets 32 x).length = 32 := by
    intro x
    rw [bigEndianOctets, List.length_reverse, toBytes_length]
  have hboth : (bigEndianOctets 32 r ++ bigEndianOctets 32 s).length = 64 := by
    rw [List.length_append, hhalf, hhalf]
  have hkept : (clearSignature bank0.signature).bytes.drop 64 =
      bank0.signature.bytes.drop 64 := by
    show (List.replicate 4 0 ++ _).drop (4 + 60) = _
    rw [← List.drop_drop, List.drop_left' List.length_replicate, List.drop_drop]
    rfl
  rw [headerSigned_iff_parseLoop hr hs, ← le_length_integerContent, ← le_length_integerContent]
  constructor
  · intro h
    obtain ⟨passes, p, h, hbytes⟩ := h
    have hfirst : p.bytes.take 32 = bigEndianOctets 32 r := by
      rw [hbytes, List.append_assoc, List.take_left' (hhalf r)]
    obtain ⟨hlr, hls⟩ := parseLoop_short hr0 hr hs hlen h hfirst
    obtain ⟨q, hq, hloop⟩ := parseLoop_long hr hs hlr hls hlen (clearSignature bank0.signature)
    have hsame := congrArg Parsed.signature (Except.ok.inj (parseLoop_unique h hloop))
    refine ⟨hlr, hls, ?_⟩
    obtain rfl : p = q := hsame
    have hdrop := congrArg (List.drop 64) (hq.symm.trans hbytes)
    rwa [List.drop_left' hboth, List.drop_left' hboth, hkept] at hdrop
  · intro h
    obtain ⟨hlr, hls, hzero⟩ := h
    obtain ⟨q, hq, hloop⟩ := parseLoop_long hr hs hlr hls hlen (clearSignature bank0.signature)
    exact ⟨2, q, hloop, by rw [hq, hkept, hzero]⟩

end header

def clearedHeader : FirmwareUpdateControlBlock :=
  { erasedHeader with signature := ⟨List.replicate 256 0, List.length_replicate⟩ }

theorem headerSigned_long : HeaderSigned clearedHeader (2 ^ 255) (2 ^ 247) :=
  (headerSigned_iff clearedHeader (by decide) (by decide) (by decide)).mpr
    ⟨by decide, by decide, List.drop_replicate⟩

/-- With 31 bytes for `r` the second pass does not stand at the second integer. -/
theorem not_headerSigned_short :
    ¬ ∀ (bank0 : FirmwareUpdateControlBlock) (r s : Nat), 0 < r → r < 2 ^ 256 → 0 < s →
      s < 2 ^ 256 → HeaderSigned bank0 r s := by
  intro h
  have hsigned := h clearedHeader (2 ^ 246) (2 ^ 255) (by decide) (by decide) (by decide)
    (by decide)
  obtain ⟨passes, p, hloop, hbytes⟩ :=
    (headerSigned_iff_parseLoop (by decide) (by decide)).mp hsigned
  have hlen := dataLength_derSignature (r := 2 ^ 246) (s := 2 ^ 255) (by decide) (by decide)
  have hfirst : p.bytes.take 32 = bigEndianOctets 32 (2 ^ 246) := by
    rw [hbytes, List.append_assoc]
    rfl
  have hlong := (parseLoop_short (by decide) (by decide) (by decide) hlen hloop hfirst).1
  exact absurd (le_length_integerContent.mp hlong) (by decide)

end RenesasDemo.Ota
