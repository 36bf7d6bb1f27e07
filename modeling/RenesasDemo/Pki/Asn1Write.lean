import RenesasDemo.Framework.Der

namespace RenesasDemo.Pki

open Framework

def mbedtlsErrAsn1BufTooSmall : Int := -0x006C

def mbedtlsErrAsn1InvalidLength : Int := -0x0064

def mbedtlsAsn1Integer : UInt8 := 0x02

def mbedtlsAsn1BitString : UInt8 := 0x03

/-- MBEDTLS_ASN1_CONSTRUCTED | MBEDTLS_ASN1_SEQUENCE -/
def mbedtlsAsn1Sequence : UInt8 := 0x30

/-- A buffer that is written from its end: the bytes before the write pointer, and those from it
on. -/
structure Asn1Cursor where
  front : List UInt8
  written : List UInt8
  deriving DecidableEq

def copyToStart (buffer bs : List UInt8) (len : Nat) : List UInt8 :=
  bs.take len ++ buffer.drop len

namespace Asn1Cursor

def buf (c : Asn1Cursor) : List UInt8 := c.front ++ c.written

/-- The write pointer goes back, and `bs` is copied to where it points then. -/
def prepend (c : Asn1Cursor) (bs : List UInt8) : Asn1Cursor :=
  ⟨c.front.take (c.front.length - bs.length), bs ++ c.written⟩

/-- `bs` was put in front of what was written. Nothing before `start` was touched. -/
structure Advanced (start : Nat) (bs : List UInt8) (c c' : Asn1Cursor) : Prop where
  written : c'.written = bs ++ c.written
  front : c'.front.length + bs.length = c.front.length
  kept : c'.front.take start = c.front.take start

end Asn1Cursor

/-- How many bytes were written and where the write pointer is, or a code that is not positive. -/
abbrev Asn1Result := Except Int (Nat × Asn1Cursor)

/-- A writer puts `bs` between `start` and the write pointer, or fails when there is no room. -/
def Puts (start : Nat) (bs : List UInt8) (c : Asn1Cursor) (r : Asn1Result) : Prop :=
  if start + bs.length ≤ c.front.length then
    ∃ c', r = .ok (bs.length, c') ∧ c.Advanced start bs c'
  else ∃ e ≤ 0, r = .error e

/-- MBEDTLS_ASN1_CHK_ADD, and the same with `lReturn > 0`: the bytes that a writer has written are
added to those before. -/
def chkAdd (s : Nat × Asn1Cursor) (r : Asn1Result) : Asn1Result :=
  r.map fun (k, c) => (s.1 + k, c)

/-- A length as an `int`. -/
def intResult (s : Nat × Asn1Cursor) : Asn1Result :=
  if s.1 < 2 ^ 31 then .ok s else .error (s.1 - 2 ^ 32)

/-- The functions of asn1write.h. Of a length no more than 32 bits are written. -/
structure Asn1Write where
  mbedtlsAsn1WriteLen (start len : Nat) (c : Asn1Cursor) : Asn1Result
  mbedtlsAsn1WriteTag (start : Nat) (tag : UInt8) (c : Asn1Cursor) : Asn1Result
  len_puts : ∀ start len c, len < 2 ^ 32 →
    Puts start (derLengthOctets len) c (mbedtlsAsn1WriteLen start len c)
  tag_puts : ∀ start tag c, Puts start [tag] c (mbedtlsAsn1WriteTag start tag c)

namespace Asn1Cursor

variable {c c' c'' : Asn1Cursor} {start n : Nat} {bs bs' : List UInt8} {r : Asn1Result}

theorem advanced_prepend (h : start + bs.length ≤ c.front.length) :
    c.Advanced start bs (c.prepend bs) := by
  refine ⟨rfl, ?_, ?_⟩
  · rw [prepend, List.length_take]
    omega
  · rw [prepend, List.take_take, Nat.min_eq_left (by omega)]

theorem Advanced.trans (h : c.Advanced start bs c') (h' : c'.Advanced start bs' c'') :
    c.Advanced start (bs' ++ bs) c'' := by
  refine ⟨?_, ?_, h'.kept.trans h.kept⟩
  · rw [h'.written, h.written, List.append_assoc]
  · rw [List.length_append, ← h.front, ← h'.front]
    omega

theorem Advanced.mono (h : c.Advanced start bs c') (hle : n ≤ start) : c.Advanced n bs c' := by
  refine ⟨h.written, h.front, ?_⟩
  have hkept := congrArg (List.take n) h.kept
  rwa [List.take_take, List.take_take, Nat.min_eq_left hle] at hkept

end Asn1Cursor

section writers

open Asn1Cursor

variable {c c' : Asn1Cursor} {start : Nat} {bs bs' : List UInt8} {r : Asn1Result}

theorem Puts.ok (h : Puts start bs c r) (hroom : start + bs.length ≤ c.front.length) :
    ∃ c', r = .ok (bs.length, c') ∧ c.Advanced start bs c' := by
  rwa [Puts, if_pos hroom] at h

theorem puts_of_ok {k : Nat} (h : c.Advanced start bs c') (hk : bs.length = k)
    (hroom : start + bs.length ≤ c.front.length) : Puts start bs c (.ok (k, c')) := by
  rw [Puts, if_pos hroom, ← hk]
  exact ⟨c', rfl, h⟩

theorem Puts.of_ok {k : Nat} (h : Puts start bs c r) (hr : r = .ok (k, c')) :
    k = bs.length ∧ c.Advanced start bs c' := by
  rw [Puts] at h
  split at h
  · obtain ⟨c1, hok, hadv⟩ := h
    rw [hr] at hok
    obtain ⟨rfl, rfl⟩ := Prod.mk.inj (Except.ok.inj hok)
    exact ⟨rfl, hadv⟩
  · obtain ⟨e, -, he⟩ := h
    rw [hr] at he
    cases he

/-- One writer behind another. -/
theorem Puts.chkAdd (h : Puts start bs c r) {f : Nat × Asn1Cursor → Asn1Result}
    (hf : ∀ c', c.Advanced start bs c' → Puts start bs' c' (f (bs.length, c'))) :
    Puts start (bs' ++ bs) c (r.bind fun s => chkAdd s (f s)) := by
  by_cases hroom : start + bs.length ≤ c.front.length
  · obtain ⟨c1, rfl, hadv⟩ := h.ok hroom
    have hnext := hf c1 hadv
    have hfront := hadv.front
    rw [Puts, List.length_append]
    by_cases hroom' : start + bs'.length ≤ c1.front.length
    · obtain ⟨c2, hok, hadv'⟩ := hnext.ok hroom'
      rw [if_pos (by omega)]
      refine ⟨c2, ?_, hadv.trans hadv'⟩
      rw [Except.bind, hok, Nat.add_comm bs'.length]
      rfl
    · rw [Puts, if_neg hroom'] at hnext
      obtain ⟨e, he, hfails⟩ := hnext
      rw [if_neg (by omega)]
      refine ⟨e, he, ?_⟩
      rw [Except.bind, hfails]
      rfl
  · rw [Puts, if_neg hroom] at h
    obtain ⟨e, he, rfl⟩ := h
    rw [Puts, List.length_append, if_neg (by omega)]
    exact ⟨e, he, rfl⟩

theorem Puts.intResult (h : Puts start bs c r)
    (hlen : start + bs.length ≤ c.front.length → bs.length < 2 ^ 31) :
    Puts start bs c (r.bind intResult) := by
  by_cases hroom : start + bs.length ≤ c.front.length
  · obtain ⟨c1, rfl, hadv⟩ := h.ok hroom
    have hok : Pki.intResult (bs.length, c1) = .ok (bs.length, c1) := by
      rw [Pki.intResult, if_pos (hlen hroom)]
    rw [Except.bind, hok]
    exact puts_of_ok hadv rfl hroom
  · rw [Puts, if_neg hroom] at h ⊢
    obtain ⟨e, he, rfl⟩ := h
    exact ⟨e, he, rfl⟩

/-- Length and tag in front of a content. -/
theorem Puts.element (h : Puts start bs c r) (asn1 : Asn1Write) (tag : UInt8)
    (hlen : c.front.length < 2 ^ 32) :
    Puts start (derElement tag bs) c
      ((r.bind fun s => Pki.chkAdd s (asn1.mbedtlsAsn1WriteLen start s.1 s.2)).bind fun s =>
        Pki.chkAdd s (asn1.mbedtlsAsn1WriteTag start tag s.2)) := by
  have hlength := h.chkAdd (f := fun s => asn1.mbedtlsAsn1WriteLen start s.1 s.2)
    fun c' hadv => asn1.len_puts start bs.length c' (by
      have hfront := hadv.front
      omega)
  exact hlength.chkAdd (f := fun s => asn1.mbedtlsAsn1WriteTag start tag s.2)
    fun c' _ => asn1.tag_puts start tag c'

/-- Bytes in front of what was written. -/
def putBytes (start : Nat) (bs : List UInt8) (c : Asn1Cursor) : Asn1Result :=
  if start + bs.length ≤ c.front.length then .ok (bs.length, c.prepend bs)
  else .error mbedtlsErrAsn1BufTooSmall

theorem putBytes_puts (start : Nat) (bs : List UInt8) (c : Asn1Cursor) :
    Puts start bs c (putBytes start bs c) := by
  rw [Puts, putBytes]
  split
  · next hroom => exact ⟨_, rfl, advanced_prepend hroom⟩
  · exact ⟨_, by decide, rfl⟩

/-- The functions as the library has them. -/
def mbedtlsAsn1 : Asn1Write where
  mbedtlsAsn1WriteLen start len c :=
    if len < 2 ^ 32 then putBytes start (derLengthOctets len) c
    else .error mbedtlsErrAsn1InvalidLength
  mbedtlsAsn1WriteTag start tag c := putBytes start [tag] c
  len_puts := by
    intro start len c hlen
    rw [if_pos hlen]
    exact putBytes_puts start (derLengthOctets len) c
  tag_puts := fun start tag c => putBytes_puts start [tag] c

end writers

end RenesasDemo.Pki
