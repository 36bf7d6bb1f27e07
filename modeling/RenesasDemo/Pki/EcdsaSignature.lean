import RenesasDemo.Pki.Asn1Write
import RenesasDemo.Pki.PsaUtil

namespace RenesasDemo.Pki

open Framework

section encoders

variable (asn1 : Asn1Write)

/-- The octets with a zero in front if the first has its highest bit set; 0 when there is no room
for them. -/
def putOctetStr (pucOctetStr : List UInt8) (c : Asn1Cursor) : Asn1Result :=
  let uxRequiredLen :=
    if 0x7F < pucOctetStr.headD 0 then pucOctetStr.length + 1 else pucOctetStr.length
  if uxRequiredLen ≤ c.front.length then
    let c := c.prepend pucOctetStr
    .ok (uxRequiredLen, if 0x7F < pucOctetStr.headD 0 then c.prepend [0] else c)
  else .error 0

def prvASN1WriteBigIntFromOctetStr (pucOctetStr : List UInt8) (c : Asn1Cursor) : Asn1Result :=
  ((((putOctetStr pucOctetStr c).bind fun s =>
    chkAdd s (asn1.mbedtlsAsn1WriteLen 0 s.1 s.2)).bind fun s =>
      chkAdd s (asn1.mbedtlsAsn1WriteTag 0 mbedtlsAsn1Integer s.2))).bind intResult

def asn1Signature (mbedtlsEcdsaMaxLen : Nat) (r s : List UInt8) : Asn1Result :=
  (((prvASN1WriteBigIntFromOctetStr asn1 s ⟨List.replicate mbedtlsEcdsaMaxLen 0, []⟩).bind fun t =>
    chkAdd t (prvASN1WriteBigIntFromOctetStr asn1 r t.2)).bind fun t =>
      chkAdd t (asn1.mbedtlsAsn1WriteLen 0 t.1 t.2)).bind fun t =>
        chkAdd t (asn1.mbedtlsAsn1WriteTag 0 mbedtlsAsn1Sequence t.2)

/-- The buffer and the length of the signature, or the code that is returned; none when the
assertion on the size of the buffer fails. -/
def prvEcdsaSigToASN1InPlace (ndebug : Bool) (mbedtlsEcdsaMaxLen : Nat) (pucSig : List UInt8)
    (xSigLen : Nat) : Option (Except Int (List UInt8 × Nat)) :=
  if ndebug = false ∧ pucSig.length ≤ xSigLen then none
  else
    let xComponentLen := xSigLen / 2
    some (match asn1Signature asn1 mbedtlsEcdsaMaxLen (pucSig.take xComponentLen)
        ((pucSig.drop xComponentLen).take xComponentLen) with
      | .ok (uxLen, c) =>
          if uxLen ≤ pucSig.length then .ok (copyToStart pucSig c.written uxLen, uxLen)
          else .error (-1)
      | .error _ => .error (-1))

/-- The loop over zeros in front: how many bytes are left. -/
def skipZeros : Nat → Asn1Cursor → Nat × Asn1Cursor
  | 0, c => (0, c)
  | len + 1, ⟨front, 0 :: written⟩ => skipZeros len ⟨front ++ [0], written⟩
  | len + 1, c => (len + 1, c)

def putSignOctet (start : Nat) (s : Nat × Asn1Cursor) : Asn1Result :=
  if 0x80 ≤ s.2.written.headD 0 then
    if s.2.front.length - start < 1 then .error mbedtlsErrAsn1BufTooSmall
    else .ok (s.1 + 1, s.2.prepend [0])
  else .ok s

/-- The octets are moved from `start` to the write pointer. -/
def asn1WriteMpibuf (start nLen : Nat) (c : Asn1Cursor) : Asn1Result :=
  if c.front.length - start < nLen then .error mbedtlsErrAsn1BufTooSmall
  else
    let s := skipZeros nLen (c.prepend ((c.buf.drop start).take nLen))
    if s.1 = 0 then .error mbedtlsErrPlatformHwAccelFailed
    else
      (((putSignOctet start s).bind fun s =>
        chkAdd s (asn1.mbedtlsAsn1WriteLen start s.1 s.2)).bind fun s =>
          chkAdd s (asn1.mbedtlsAsn1WriteTag start mbedtlsAsn1Integer s.2)).bind intResult

/-- The buffer and the length of the signature, or the code that is returned. -/
def pkEcdsaSigAsn1FromPsa (sig : List UInt8) (sigLen : Nat) : Except Int (List UInt8 × Nat) :=
  let rsLen := sigLen / 2
  ((((asn1WriteMpibuf asn1 rsLen rsLen ⟨sig, []⟩).bind fun t =>
    chkAdd t (asn1WriteMpibuf asn1 0 rsLen t.2)).bind fun t =>
      chkAdd t (asn1.mbedtlsAsn1WriteLen 0 t.1 t.2)).bind fun t =>
        chkAdd t (asn1.mbedtlsAsn1WriteTag 0 mbedtlsAsn1Sequence t.2)).map fun (len, c) =>
          (copyToStart c.buf c.written len, len)

end encoders

def derEcdsaSignature (r s : Nat) : List UInt8 :=
  derElement 0x30 (derIntegerElement r ++ derIntegerElement s)

/-- The signature is in the buffer, and its length is set. -/
def Encoded (der : List UInt8) (result : Except Int (List UInt8 × Nat)) : Prop :=
  ∃ sig, result = .ok (sig, der.length) ∧ sig.take der.length = der

section octets

variable {bs t : List UInt8} {b : UInt8} {x : Nat}

theorem length_signedOctets (bs : List UInt8) : (signedOctets bs).length =
    if 0x80 ≤ bs.headD 0 then bs.length + 1 else bs.length := by
  rw [signedOctets]
  split <;> rfl

/-- No octet is too many when the first is not zero. -/
theorem signedOctets_of_ne_zero (hb : b ≠ 0) :
    signedOctets (b :: t) = integerContent (bigEndianValue (b :: t)) := by
  have hpos : 2 ^ 0 ≤ b.toNat :=
    Nat.pos_of_ne_zero fun h => hb (UInt8.toNat_inj.mp h)
  have hsize := (lt_size_cons b t 0).mpr hpos
  rw [signedOctets_eq_iff (List.cons_ne_nil b t), List.length_cons]
  omega

theorem signedOctets_octets {n : Nat} (hn : 0 < n) (hx : 0 < x) (hlt : x < 256 ^ n) :
    signedOctets (bigEndianOctets n x) = integerContent x ↔ 256 ^ n ≤ 512 * x := by
  have hne : bigEndianOctets n x ≠ [] := by
    intro h
    have hlen := congrArg List.length h
    rw [length_bigEndianOctets] at hlen
    exact Nat.ne_of_gt hn hlen
  have hiff := signedOctets_eq_iff hne
  rw [bigEndianValue_octets hlt, length_bigEndianOctets] at hiff
  rw [hiff, size_bound_iff hx hn]

end octets

section pkcs11

open Asn1Cursor

variable (asn1 : Asn1Write) {c : Asn1Cursor} {bs r s : List UInt8} {mbedtlsEcdsaMaxLen : Nat}

theorem putOctetStr_puts (bs : List UInt8) (c : Asn1Cursor) :
    Puts 0 (signedOctets bs) c (putOctetStr bs c) := by
  have hmsb : 0x7F < bs.headD 0 ↔ 0x80 ≤ bs.headD 0 := by
    rw [UInt8.lt_iff_toNat_lt, UInt8.le_iff_toNat_le]
    exact Iff.rfl
  rw [Puts, length_signedOctets, Nat.zero_add, putOctetStr, signedOctets]
  simp only [hmsb]
  by_cases h : 0x80 ≤ bs.headD 0
  · simp only [if_pos h]
    split
    · next hroom =>
      have hfirst : c.Advanced 0 bs (c.prepend bs) := advanced_prepend (by omega)
      have hfront := hfirst.front
      have hroom' : 0 + [(0 : UInt8)].length ≤ (c.prepend bs).front.length := by
        rw [List.length_singleton]
        omega
      exact ⟨_, rfl, hfirst.trans (advanced_prepend hroom')⟩
    · exact ⟨0, Int.le_refl 0, rfl⟩
  · simp only [if_neg h]
    split
    · next hroom => exact ⟨_, rfl, advanced_prepend (by omega)⟩
    · exact ⟨0, Int.le_refl 0, rfl⟩

theorem prvASN1WriteBigInt_puts (bs : List UInt8) (hc : c.front.length < 2 ^ 31) :
    Puts 0 (derElement 0x02 (signedOctets bs)) c (prvASN1WriteBigIntFromOctetStr asn1 bs c) := by
  have helement := (putOctetStr_puts bs c).element asn1 mbedtlsAsn1Integer (by omega)
  exact helement.intResult fun h => by omega

/-- What the encoder for PKCS#11 writes. -/
theorem asn1Signature_puts (hmax : mbedtlsEcdsaMaxLen < 2 ^ 31) :
    Puts 0 (derElement 0x30 (derElement 0x02 (signedOctets r) ++ derElement 0x02 (signedOctets s)))
      ⟨List.replicate mbedtlsEcdsaMaxLen 0, []⟩ (asn1Signature asn1 mbedtlsEcdsaMaxLen r s) := by
  have hc : (List.replicate mbedtlsEcdsaMaxLen (0 : UInt8)).length < 2 ^ 31 := by
    rwa [List.length_replicate]
  have hs := prvASN1WriteBigInt_puts asn1 (c := ⟨List.replicate mbedtlsEcdsaMaxLen 0, []⟩) s hc
  have hboth := hs.chkAdd (f := fun t => prvASN1WriteBigIntFromOctetStr asn1 r t.2)
    fun c' hadv => prvASN1WriteBigInt_puts asn1 r (Nat.lt_of_le_of_lt (by
      rw [← hadv.front]
      exact Nat.le_add_right ..) hc)
  exact hboth.element asn1 mbedtlsAsn1Sequence (Nat.lt_trans hc (by decide))

end pkcs11

section psa

open Asn1Cursor

variable (asn1 : Asn1Write) {c : Asn1Cursor} {start n : Nat} {bs : List UInt8}

/-- The loop stops at the first byte that is not zero. -/
theorem skipZeros_stops (hpos : 0 < bigEndianValue bs) (front rest : List UInt8) :
    ∃ zeros b t, bs.length = zeros.length + (t.length + 1) ∧ b ≠ 0 ∧
      bigEndianValue (b :: t) = bigEndianValue bs ∧
      skipZeros bs.length ⟨front, bs ++ rest⟩ =
        (t.length + 1, ⟨front ++ zeros, b :: (t ++ rest)⟩) := by
  induction bs generalizing front with
  | nil => exact absurd hpos (Nat.lt_irrefl 0)
  | cons b bs ih =>
    by_cases hb : b = 0
    · subst hb
      have hvalue : bigEndianValue (0 :: bs) = bigEndianValue bs := by
        rw [bigEndianValue_cons]
        rfl
      rw [hvalue] at hpos
      obtain ⟨zeros, b, t, hlen, hb, hsame, hskip⟩ := ih hpos (front ++ [0])
      refine ⟨0 :: zeros, b, t, ?_, hb, hsame.trans hvalue.symm, ?_⟩
      · rw [List.length_cons, List.length_cons, hlen]
        omega
      · rw [List.length_cons, List.cons_append, skipZeros, hskip, List.append_assoc]
        rfl
    · refine ⟨[], b, bs, (Nat.zero_add _).symm, hb, rfl, ?_⟩
      rw [List.length_cons, List.cons_append, skipZeros, List.append_nil]
      intro front' written' heq
      obtain ⟨-, hwritten⟩ := Asn1Cursor.mk.inj heq
      exact hb (List.cons.inj hwritten).1

theorem putSignOctet_puts {c' : Asn1Cursor} {b : UInt8} {t : List UInt8}
    (h : c.Advanced start (b :: t) c') (hroom : start + (b :: t).length ≤ c.front.length) :
    Puts start (signedOctets (b :: t)) c (putSignOctet start (t.length + 1, c')) := by
  have hfront := h.front
  have hhead : c'.written.headD 0 = b := by
    rw [h.written]
    rfl
  rw [putSignOctet, signedOctets, hhead, List.headD_cons]
  by_cases hb : 0x80 ≤ b
  · rw [if_pos hb, if_pos hb]
    rw [List.length_cons] at hfront
    by_cases hfull : c'.front.length - start < 1
    · have hlong : ¬ start + (0 :: b :: t).length ≤ c.front.length := by
        rw [List.length_cons, List.length_cons]
        omega
      rw [if_pos hfull, Puts, if_neg hlong]
      exact ⟨_, by decide, rfl⟩
    · have hone : start + [(0 : UInt8)].length ≤ c'.front.length := by
        rw [List.length_singleton]
        omega
      rw [if_neg hfull]
      refine puts_of_ok (h.trans (advanced_prepend hone)) rfl ?_
      show start + (t.length + 1 + 1) ≤ _
      omega
  · rw [if_neg hb, if_neg hb]
    exact puts_of_ok h rfl hroom

/-- One component, where its octets and its element have room. -/
theorem asn1WriteMpibuf_ok (hbs : (c.front.drop start).take n = bs) (hpos : 0 < bigEndianValue bs)
    (hc : c.front.length < 2 ^ 32) (hroom : start + n ≤ c.front.length)
    (hfits : start + (derIntegerElement (bigEndianValue bs)).length ≤ c.front.length)
    (hsmall : (derIntegerElement (bigEndianValue bs)).length < 2 ^ 31) :
    ∃ c', asn1WriteMpibuf asn1 start n c =
        .ok ((derIntegerElement (bigEndianValue bs)).length, c') ∧
      c.Advanced start (derIntegerElement (bigEndianValue bs)) c' := by
  have hlen : bs.length = n := by
    rw [← hbs, List.length_take, List.length_drop]
    omega
  have hsource : (c.buf.drop start).take n = bs := by
    rw [buf, List.drop_append_of_le_length (by omega), List.take_append_of_le_length, hbs]
    rw [List.length_drop]
    omega
  have hmoved : c.Advanced start bs (c.prepend bs) := advanced_prepend (by omega)
  obtain ⟨zeros, b, t, hsplit, hb, hvalue, hskip⟩ :=
    skipZeros_stops hpos (c.prepend bs).front c.written
  have hfront := hmoved.front
  have hstripped : c.Advanced start (b :: t)
      ⟨(c.prepend bs).front ++ zeros, b :: (t ++ c.written)⟩ := by
    refine ⟨rfl, ?_, ?_⟩
    · rw [List.length_append, List.length_cons]
      omega
    · rw [List.take_append_of_le_length (by omega), hmoved.kept]
  have hputs := putSignOctet_puts hstripped (by
    rw [List.length_cons]
    omega)
  rw [signedOctets_of_ne_zero hb, hvalue] at hputs
  have helement := (hputs.element asn1 mbedtlsAsn1Integer hc).intResult fun _ => hsmall
  obtain ⟨c', hok, hadv⟩ := helement.ok hfits
  refine ⟨c', ?_, hadv⟩
  have hstops : skipZeros n (c.prepend bs) =
      (t.length + 1, ⟨(c.prepend bs).front ++ zeros, b :: (t ++ c.written)⟩) := by
    rw [← hlen]
    exact hskip
  rw [asn1WriteMpibuf, if_neg (by omega), hsource]
  simp only [hstops, if_neg (Nat.succ_ne_zero t.length)]
  exact hok

/-- The encoder for PSA, where the second component and its element have room behind the first. -/
theorem pkEcdsaSigAsn1FromPsa_ok {sig r s : List UInt8} {x y : Nat} (hr : sig.take n = r)
    (hs : (sig.drop n).take n = s) (hx : bigEndianValue r = x) (hy : bigEndianValue s = y)
    (hxpos : 0 < x) (hypos : 0 < y) (hsize : sig.length < 2 ^ 32) (hroom : n + n ≤ sig.length)
    (hbehind : n + (derIntegerElement y).length ≤ sig.length)
    (hfits : (derEcdsaSignature x y).length ≤ sig.length)
    (hsmall : (derEcdsaSignature x y).length < 2 ^ 31) :
    Encoded (derEcdsaSignature x y) (pkEcdsaSigAsn1FromPsa asn1 sig (2 * n)) := by
  subst hx hy
  generalize helemR : derIntegerElement (bigEndianValue r) = elemR
  generalize helemS : derIntegerElement (bigEndianValue s) = elemS at hbehind
  rw [derEcdsaSignature, helemR, helemS] at hfits hsmall ⊢
  have htotal := length_derElement 0x30 (elemR ++ elemS)
  rw [List.length_append] at htotal
  obtain ⟨c1, hc1, hadv1⟩ : ∃ c', asn1WriteMpibuf asn1 n n ⟨sig, []⟩ = .ok (elemS.length, c') ∧
      Advanced n elemS ⟨sig, []⟩ c' := by
    rw [← helemS] at hbehind htotal hsmall ⊢
    exact asn1WriteMpibuf_ok asn1 hs hypos hsize hroom hbehind (by omega)
  have hfront : c1.front.length + elemS.length = sig.length := hadv1.front
  have hkept : c1.front.take n = r := hadv1.kept.trans hr
  obtain ⟨c2, hc2, hadv2⟩ : ∃ c', asn1WriteMpibuf asn1 0 n c1 = .ok (elemR.length, c') ∧
      c1.Advanced 0 elemR c' := by
    rw [← helemR] at htotal hsmall hfits ⊢
    exact asn1WriteMpibuf_ok asn1 hkept hxpos (by omega) (by omega) (by omega) (by omega)
  have hboth : Puts 0 (elemR ++ elemS) ⟨sig, []⟩ (.ok (elemS.length + elemR.length, c2)) := by
    refine puts_of_ok ((hadv1.mono (Nat.zero_le n)).trans hadv2) ?_ ?_
    · rw [List.length_append, Nat.add_comm]
    · show 0 + (elemR ++ elemS).length ≤ sig.length
      rw [List.length_append]
      omega
  have hfits0 : 0 + (derElement 0x30 (elemR ++ elemS)).length ≤ sig.length := by
    rwa [Nat.zero_add]
  obtain ⟨c3, hc3, hadv3⟩ := (hboth.element asn1 mbedtlsAsn1Sequence hsize).ok hfits0
  have hwritten : c3.written = derElement 0x30 (elemR ++ elemS) :=
    hadv3.written.trans (List.append_nil _)
  have hhalf : 2 * n / 2 = n := Nat.mul_div_cancel_left n (by decide)
  refine ⟨copyToStart c3.buf c3.written (derElement 0x30 (elemR ++ elemS)).length, ?_, ?_⟩
  · have hsecond : chkAdd (elemS.length, c1) (asn1WriteMpibuf asn1 0 n c1) =
        .ok (elemS.length + elemR.length, c2) := by
      rw [hc2]
      rfl
    rw [pkEcdsaSigAsn1FromPsa]
    simp only [hhalf, hc1, Except.bind] at hc3 ⊢
    simp only [hsecond]
    rw [hc3]
    rfl
  · rw [copyToStart, hwritten, List.take_length, List.take_left]

end psa

/-- What the encoder for PKCS#11 makes of two components. -/
def inPlaceSignature (r s : List UInt8) : List UInt8 :=
  derElement 0x30 (derElement 0x02 (signedOctets r) ++ derElement 0x02 (signedOctets s))

section agreement

open Asn1Cursor

variable (asn1 : Asn1Write) {ndebug : Bool} {mbedtlsEcdsaMaxLen n : Nat}
  {sig r s der : List UInt8}

theorem inPlace_encoded (hmax : mbedtlsEcdsaMaxLen < 2 ^ 31) (hr : sig.take n = r)
    (hs : (sig.drop n).take n = s) (hassert : 2 * n < sig.length)
    (hfits : (inPlaceSignature r s).length ≤ sig.length)
    (hlen : (inPlaceSignature r s).length ≤ mbedtlsEcdsaMaxLen) :
    ∃ result, prvEcdsaSigToASN1InPlace asn1 ndebug mbedtlsEcdsaMaxLen sig (2 * n) = some result ∧
      Encoded (inPlaceSignature r s) result := by
  have hroom : 0 + (inPlaceSignature r s).length ≤
      (List.replicate mbedtlsEcdsaMaxLen (0 : UInt8)).length := by
    rwa [Nat.zero_add, List.length_replicate]
  obtain ⟨c, hc, hadv⟩ := (asn1Signature_puts asn1 hmax (r := r) (s := s)).ok hroom
  have hwritten : c.written = inPlaceSignature r s := hadv.written.trans (List.append_nil _)
  have hhalf : 2 * n / 2 = n := Nat.mul_div_cancel_left n (by decide)
  rw [prvEcdsaSigToASN1InPlace, if_neg fun h => Nat.not_le.mpr hassert h.2]
  simp only [hhalf, hr, hs, hc]
  refine ⟨_, rfl, copyToStart sig c.written (inPlaceSignature r s).length, if_pos hfits, ?_⟩
  rw [copyToStart, hwritten, List.take_length, List.take_left]

theorem inPlace_of_encoded (hmax : mbedtlsEcdsaMaxLen < 2 ^ 31) (hr : sig.take n = r)
    (hs : (sig.drop n).take n = s) {result : Except Int (List UInt8 × Nat)}
    (hresult : prvEcdsaSigToASN1InPlace asn1 ndebug mbedtlsEcdsaMaxLen sig (2 * n) = some result)
    (h : Encoded der result) : inPlaceSignature r s = der := by
  obtain ⟨sig', hsig', htake⟩ := h
  have hhalf : 2 * n / 2 = n := Nat.mul_div_cancel_left n (by decide)
  rw [prvEcdsaSigToASN1InPlace] at hresult
  split at hresult
  · cases hresult
  · simp only [hhalf, hr, hs] at hresult
    split at hresult
    · next uxLen c hc =>
      obtain ⟨hlen, hadv⟩ := (asn1Signature_puts asn1 hmax).of_ok hc
      have hwritten : c.written = inPlaceSignature r s := hadv.written.trans (List.append_nil _)
      have hlen : uxLen = (inPlaceSignature r s).length := hlen
      split at hresult
      · rw [← Option.some.inj hresult] at hsig'
        obtain ⟨hsame, hder⟩ := Prod.mk.inj (Except.ok.inj hsig')
        rw [← hsame, ← hder, copyToStart, hwritten, hlen, List.take_length, List.take_left] at htake
        exact htake
      · rw [← Option.some.inj hresult] at hsig'
        cases hsig'
    · rw [← Option.some.inj hresult] at hsig'
      cases hsig'

theorem short_content (tag : UInt8) {content : List UInt8}
    (h : (derElement tag content).length < 2 ^ 31) : content.length < 256 ^ 31 :=
  Nat.lt_trans (length_lt_derElement tag content) (Nat.lt_of_lt_of_le h (by decide))

theorem inPlaceSignature_eq_iff {x y : Nat} (hlen : (inPlaceSignature r s).length < 2 ^ 31) :
    inPlaceSignature r s = derEcdsaSignature x y ↔
      signedOctets r = integerContent x ∧ signedOctets s = integerContent y := by
  constructor
  · intro h
    have hsame : derElement 0x30 (derElement 0x02 (signedOctets r) ++
        derElement 0x02 (signedOctets s)) ++ [] =
        derElement 0x30 (derIntegerElement x ++ derIntegerElement y) ++ [] :=
      congrArg (· ++ []) h
    have hlen' := hlen
    rw [h] at hlen'
    obtain ⟨hboth, -⟩ := derElement_append_inj (short_content 0x30 hlen)
      (short_content 0x30 hlen') hsame
    have hbound : (derElement 0x02 (signedOctets r) ++ derElement 0x02 (signedOctets s)).length <
        2 ^ 31 := Nat.lt_trans (length_lt_derElement 0x30 _) hlen
    have hbound' := hbound
    rw [hboth] at hbound'
    rw [List.length_append] at hbound hbound'
    have hx : (derElement 0x02 (integerContent x)).length < 2 ^ 31 :=
      Nat.lt_of_le_of_lt (Nat.le_add_right _ _) hbound'
    have hy : (derElement 0x02 (integerContent y)).length < 2 ^ 31 :=
      Nat.lt_of_le_of_lt (Nat.le_add_left _ _) hbound'
    obtain ⟨hr, hrest⟩ := derElement_append_inj (short_content 0x02 (by omega))
      (short_content 0x02 hx) hboth
    have hsame' : derElement 0x02 (signedOctets s) ++ [] = derIntegerElement y ++ [] :=
      congrArg (· ++ []) hrest
    obtain ⟨hs, -⟩ := derElement_append_inj (short_content 0x02 (by omega))
      (short_content 0x02 hy) hsame'
    exact ⟨hr, hs⟩
  · intro h
    rw [inPlaceSignature, h.1, h.2]
    rfl

theorem components_of_take {r s : List UInt8} (hr : r.length = n) (hs : s.length = n)
    (hsig : sig.take (2 * n) = r ++ s) : sig.take n = r ∧ (sig.drop n).take n = s := by
  constructor
  · have htake := congrArg (List.take n) hsig
    rwa [List.take_take, Nat.min_eq_left (by omega), List.take_left' hr] at htake
  · have hdrop := congrArg (List.drop n) hsig
    rw [List.drop_take, List.drop_left' hr] at hdrop
    rwa [show 2 * n - n = n by omega] at hdrop

theorem length_le_of_signedOctets {bs : List UInt8} {z : Nat}
    (h : signedOctets bs = integerContent z) : bs.length ≤ (integerContent z).length := by
  rw [← h, length_signedOctets]
  split
  · exact Nat.le_succ _
  · exact Nat.le_refl _

/-- The encoders agree on the signatures whose components have no octet too many: without its
first nine bits a component is shorter. -/
theorem encodersAgree_iff (hmax : mbedtlsEcdsaMaxLen < 2 ^ 31) (ndebug : Bool) {x y : Nat}
    (hn : 0 < n) (hx : 0 < x ∧ x < 256 ^ n) (hy : 0 < y ∧ y < 256 ^ n)
    (hsig : sig.take (2 * n) = bigEndianOctets n x ++ bigEndianOctets n y)
    (hsize : sig.length < 2 ^ 32) (hfits : (derEcdsaSignature x y).length ≤ sig.length)
    (hlen : (derEcdsaSignature x y).length ≤ mbedtlsEcdsaMaxLen) :
    ((∃ result, prvEcdsaSigToASN1InPlace asn1 ndebug mbedtlsEcdsaMaxLen sig (2 * n) =
        some result ∧ Encoded (derEcdsaSignature x y) result) ∧
      Encoded (derEcdsaSignature x y) (pkEcdsaSigAsn1FromPsa asn1 sig (2 * n))) ↔
    256 ^ n ≤ 512 * x ∧ 256 ^ n ≤ 512 * y := by
  generalize hbx : bigEndianOctets n x = r at hsig
  generalize hby : bigEndianOctets n y = s at hsig
  have hlenr : r.length = n := hbx ▸ length_bigEndianOctets n x
  have hlens : s.length = n := hby ▸ length_bigEndianOctets n y
  have hroom : 2 * n ≤ sig.length := by
    have hlength := congrArg List.length hsig
    rw [List.length_take, List.length_append, hlenr, hlens] at hlength
    omega
  obtain ⟨hr, hs⟩ := components_of_take hlenr hlens hsig
  have hoctetsx := signedOctets_octets hn hx.1 hx.2
  have hoctetsy := signedOctets_octets hn hy.1 hy.2
  rw [hbx] at hoctetsx
  rw [hby] at hoctetsy
  rw [← hoctetsx, ← hoctetsy]
  constructor
  · intro h
    obtain ⟨⟨result, hresult, hencoded⟩, -⟩ := h
    have hsame := inPlace_of_encoded asn1 hmax hr hs hresult hencoded
    refine (inPlaceSignature_eq_iff ?_).mp hsame
    rw [hsame]
    exact Nat.lt_of_le_of_lt hlen hmax
  · intro h
    have hsame : inPlaceSignature r s = derEcdsaSignature x y := by
      rw [inPlaceSignature, h.1, h.2]
      rfl
    have hx' := length_le_of_signedOctets h.1
    have hy' := length_le_of_signedOctets h.2
    have htotal := length_derElement 0x30 (derIntegerElement x ++ derIntegerElement y)
    have helemx : (derIntegerElement x).length = _ := length_derElement 0x02 (integerContent x)
    have helemy : (derIntegerElement y).length = _ := length_derElement 0x02 (integerContent y)
    have hder : (derEcdsaSignature x y).length = _ := htotal
    rw [List.length_append] at hder
    constructor
    · rw [← hsame] at hfits hlen ⊢
      rw [← hsame] at hder
      exact inPlace_encoded asn1 hmax hr hs (by omega) hfits hlen
    · have hvaluex : bigEndianValue r = x := hbx ▸ bigEndianValue_octets hx.2
      have hvaluey : bigEndianValue s = y := hby ▸ bigEndianValue_octets hy.2
      exact pkEcdsaSigAsn1FromPsa_ok asn1 hr hs hvaluex hvaluey hx.1 hy.1 hsize (by omega)
        (by omega) hfits (Nat.lt_of_le_of_lt hlen hmax)

def exampleSig (a b c d : UInt8) : List UInt8 := [a, b, c, d, 0, 0, 0, 0, 0, 0, 0, 0]

theorem encodersAgree_signOctet :
    (∃ result, prvEcdsaSigToASN1InPlace mbedtlsAsn1 false 139 (exampleSig 0 0x80 0x12 0x34)
        (2 * 2) = some result ∧ Encoded (derEcdsaSignature 0x80 0x1234) result) ∧
      Encoded (derEcdsaSignature 0x80 0x1234)
        (pkEcdsaSigAsn1FromPsa mbedtlsAsn1 (exampleSig 0 0x80 0x12 0x34) (2 * 2)) :=
  (encodersAgree_iff mbedtlsAsn1 (by decide) false (by decide) (by decide) (by decide)
    (by decide) (by decide) (by decide) (by decide)).mpr (by decide)

/-- The first component is 1: the encoder for PSA takes the zero in front of it away, the other
leaves it. -/
theorem not_encodersAgree_leadingZero :
    exampleSig 0 1 0x12 0x34 =
        bigEndianOctets 2 1 ++ bigEndianOctets 2 0x1234 ++ List.replicate 8 0 ∧
      Encoded (derEcdsaSignature 1 0x1234)
        (pkEcdsaSigAsn1FromPsa mbedtlsAsn1 (exampleSig 0 1 0x12 0x34) (2 * 2)) ∧
      ¬ ∃ result, prvEcdsaSigToASN1InPlace mbedtlsAsn1 false 139 (exampleSig 0 1 0x12 0x34)
        (2 * 2) = some result ∧ Encoded (derEcdsaSignature 1 0x1234) result := by
  refine ⟨by decide, ?_, ?_⟩
  · exact pkEcdsaSigAsn1FromPsa_ok mbedtlsAsn1 (r := [0, 1]) (s := [0x12, 0x34]) rfl rfl
      (by decide) (by decide) (by decide) (by decide) (by decide) (by decide) (by decide)
      (by decide) (by decide)
  · intro h
    obtain ⟨result, hresult, hencoded⟩ := h
    have hsame := inPlace_of_encoded mbedtlsAsn1 (r := [0, 1]) (s := [0x12, 0x34]) (by decide) rfl
      rfl hresult hencoded
    obtain ⟨hfirst, -⟩ := (inPlaceSignature_eq_iff (by decide)).mp hsame
    exact absurd hfirst (by decide)

end agreement

end RenesasDemo.Pki
