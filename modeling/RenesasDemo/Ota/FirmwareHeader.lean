import RenesasDemo.Framework.Segments
import RenesasDemo.Ota.FileLifecycle

namespace RenesasDemo.Ota

open Framework

def lifecycleStateTesting : UInt8 := 0xfe

def rOtaErrNone : Int := 0

def otaSigunatureSequenceTopValue : UInt8 := 0x30
def otaSigunatureIntegerValue : UInt8 := 0x02
def otaSigunatureIncludeNegativeNumberValue : UInt8 := 0x21
def otaSigunatureDataHalfLength : Nat := 32
def otaSigunatureSequenceInfoLength : Nat := 2
def otaSigunatureSkip : Nat := 2

def sizeofDestinationPointer : Nat := 4

/-- "sig-sha256-ecdsa" in an array of `OTA_FILE_SIG_KEY_STR_MAX_LENGTH` characters. -/
def otaJsonFileSignatureKey : Buffer UInt8 32 where
  bytes :=
    [115, 105, 103, 45, 115, 104, 97, 50, 53, 54, 45, 101, 99, 100, 115, 97] ++ List.replicate 16 0
  length_bytes := rfl

/-- What of it lies within `BOOT_LOADER_USER_FIRMWARE_HEADER_LENGTH` bytes. -/
structure FirmwareUpdateControlBlock where
  magicCode : Buffer UInt8 7
  imageFlag : UInt8
  signatureType : Buffer UInt8 32
  signatureSize : UInt32
  signature : Buffer UInt8 256
  dataflashFlag : UInt32
  dataflashStartAddress : UInt32
  dataflashEndAddress : UInt32
  reserved1 : Buffer UInt8 200

/-- Where the parser leaves the signature it reads or the field it writes. -/
inductive ParseFault where
  | readsBeyond
  | writesBeyond
  deriving DecidableEq

/-- The value of `ret` behind the loop, and the signature field. -/
structure Parsed where
  ret : Int
  signature : Buffer UInt8 256

/-- The pointers are indices into the signature's data and into the field. -/
structure ParseState where
  sourcePointer : Nat
  destinationPointer : Nat
  signature : Buffer UInt8 256

inductive ParsePass where
  | again (s : ParseState)
  | ends (result : Except ParseFault Parsed)

def parsePass (data : List UInt8) (dataLength : UInt8) (s : ParseState) : ParsePass :=
  match data[s.sourcePointer]? with
  | none => .ends (.error .readsBeyond)
  | some tag =>
      if tag = otaSigunatureIntegerValue then
        match data[s.sourcePointer + 1]? with
        | none => .ends (.error .readsBeyond)
        | some length =>
            let sourcePointer := s.sourcePointer + 1 +
              if length = otaSigunatureIncludeNegativeNumberValue then otaSigunatureSkip else 1
            if sourcePointer + otaSigunatureDataHalfLength ≤ data.length then
              match s.signature.memcpy s.destinationPointer
                  ((data.drop sourcePointer).take otaSigunatureDataHalfLength) with
              | none => .ends (.error .writesBeyond)
              | some signature =>
                  if sourcePointer + otaSigunatureDataHalfLength = dataLength.toNat then
                    .ends (.ok ⟨rOtaErrNone, signature⟩)
                  else
                    .again ⟨sourcePointer + otaSigunatureDataHalfLength,
                      s.destinationPointer + otaSigunatureDataHalfLength, signature⟩
            else .ends (.error .readsBeyond)
      else .ends (.ok ⟨rOtaErrInvalidContext, s.signature⟩)

/-- At most `passes` passes of the loop; no result where it needs more. -/
def parseLoop (data : List UInt8) (dataLength : UInt8) :
    Nat → ParseState → Option (Except ParseFault Parsed)
  | 0, _ => none
  | passes + 1, s =>
      match parsePass data dataLength s with
      | .again s' => parseLoop data dataLength passes s'
      | .ends result => some result

def clearSignature (signature : Buffer UInt8 256) : Buffer UInt8 256 where
  bytes :=
    List.replicate sizeofDestinationPointer 0 ++ signature.bytes.drop sizeofDestinationPointer
  length_bytes := by
    rw [List.length_append, List.length_replicate, List.length_drop, signature.length_bytes]
    rfl

def parseSignature (signature : Buffer UInt8 256) (data : List UInt8) (passes : Nat) :
    Option (Except ParseFault Parsed) :=
  match data with
  | top :: length :: _ =>
      let dataLength := length + UInt8.ofNat otaSigunatureSequenceInfoLength
      if top = otaSigunatureSequenceTopValue then
        parseLoop data dataLength passes
          ⟨otaSigunatureSequenceInfoLength, 0, clearSignature signature⟩
      else some (.ok ⟨rOtaErrInvalidContext, clearSignature signature⟩)
  | _ => some (.error .readsBeyond)

/-- What is returned, and the header that is flashed. -/
structure HeaderUpdate where
  ret : Int
  block : Option FirmwareUpdateControlBlock

/-- `bank0` is the header of the running image and `data` the signature's data. -/
def otaContextUpdateUserFirmwareHeader (bank0 : FirmwareUpdateControlBlock) (data : List UInt8)
    (passes : Nat) : Option (Except ParseFault HeaderUpdate) :=
  (parseSignature bank0.signature data passes).map fun result => result.map fun parsed =>
    { ret := parsed.ret
      block :=
        if parsed.ret = rOtaErrNone then
          some { bank0 with
            imageFlag := lifecycleStateTesting
            signatureType := otaJsonFileSignatureKey
            signature := parsed.signature }
        else none }

/-- An integer as the parser takes it: with a length byte of 0x21 it has one byte more. -/
structure SignatureInteger where
  length : UInt8
  content : List UInt8
  fits : content.length =
    if length = otaSigunatureIncludeNegativeNumberValue then otaSigunatureDataHalfLength + 1
    else otaSigunatureDataHalfLength

namespace SignatureInteger

def bytes (x : SignatureInteger) : List UInt8 :=
  otaSigunatureIntegerValue :: x.length :: x.content

def half (x : SignatureInteger) : List UInt8 :=
  x.content.drop (x.content.length - otaSigunatureDataHalfLength)

theorem length_half (x : SignatureInteger) : x.half.length = otaSigunatureDataHalfLength := by
  have hfits := x.fits
  rw [half, List.length_drop]
  split at hfits <;> omega

end SignatureInteger

/-- The bytes between a length byte and the last 32 of an integer. -/
theorem exists_skip (length : UInt8) : ∃ skip,
    (if length = otaSigunatureIncludeNegativeNumberValue then otaSigunatureSkip else 1) =
      skip + 1 ∧
    (if length = otaSigunatureIncludeNegativeNumberValue then otaSigunatureDataHalfLength + 1
      else otaSigunatureDataHalfLength) = skip + otaSigunatureDataHalfLength := by
  by_cases heq : length = otaSigunatureIncludeNegativeNumberValue
  · exact ⟨1, if_pos heq, (if_pos heq).trans (Nat.add_comm ..)⟩
  · exact ⟨0, if_neg heq, (if_neg heq).trans (Nat.zero_add _).symm⟩

section pass

variable {data more : List UInt8} {dataLength : UInt8} {i d : Nat} {signature : Buffer UInt8 256}

theorem parsePass_integer (dataLength : UInt8) (signature : Buffer UInt8 256)
    (x : SignatureInteger) (hdata : data.drop i = x.bytes ++ more)
    (hroom : d + otaSigunatureDataHalfLength ≤ 256) :
    ∃ signature' : Buffer UInt8 256,
      signature'.bytes = signature.bytes.take d ++ x.half ++
        signature.bytes.drop (d + otaSigunatureDataHalfLength) ∧
      parsePass data dataLength ⟨i, d, signature⟩ =
        if i + x.bytes.length = dataLength.toNat then .ends (.ok ⟨rOtaErrNone, signature'⟩)
        else .again ⟨i + x.bytes.length, d + otaSigunatureDataHalfLength, signature'⟩ := by
  have hget : ∀ k, data[i + k]? = (x.bytes ++ more)[k]? := by
    intro k
    rw [← hdata, List.getElem?_drop]
  have htag : data[i]? = some otaSigunatureIntegerValue := hget 0
  have hlength : data[i + 1]? = some x.length := hget 1
  have hcontent : data.drop (i + 2) = x.content ++ more := by
    rw [← List.drop_drop, hdata]
    rfl
  have hsize : x.bytes.length = x.content.length + 2 := rfl
  have hpos : 0 < otaSigunatureDataHalfLength := by decide
  obtain ⟨skip, hskip, hwhole⟩ := exists_skip x.length
  have hcopied := x.fits.trans hwhole
  have hhalf : (data.drop (i + 1 + (skip + 1))).take otaSigunatureDataHalfLength = x.half := by
    have hstart : i + 1 + (skip + 1) = i + 2 + skip := by omega
    have hdrop : x.content.length - otaSigunatureDataHalfLength = skip := by omega
    rw [hstart, ← List.drop_drop, hcontent, List.drop_append_of_le_length (by omega),
      SignatureInteger.half, hdrop, List.take_append_of_le_length (by rw [List.length_drop]; omega),
      List.take_of_length_le (by rw [List.length_drop]; omega)]
  have hbound : i + 1 + (skip + 1) + otaSigunatureDataHalfLength ≤ data.length := by
    have hlen := congrArg List.length hcontent
    rw [List.length_drop, List.length_append] at hlen
    omega
  have hend : i + 1 + (skip + 1) + otaSigunatureDataHalfLength = i + x.bytes.length := by omega
  obtain ⟨signature', hcopy, hbytes⟩ :=
    signature.memcpy_of_le d x.half (by rw [x.length_half]; exact hroom)
  rw [x.length_half] at hbytes
  refine ⟨signature', hbytes, ?_⟩
  rw [hend] at hbound
  simp only [parsePass, htag, if_true, hlength, hskip, hhalf, hcopy, hend, if_pos hbound]

theorem parsePass_other {b : UInt8} (hdata : data.drop i = b :: more)
    (hb : b ≠ otaSigunatureIntegerValue) :
    parsePass data dataLength ⟨i, d, signature⟩ =
      .ends (.ok ⟨rOtaErrInvalidContext, signature⟩) := by
  have hget : data[i]? = some b := by
    rw [← List.head?_drop, hdata]
    rfl
  rw [parsePass, hget]
  exact if_neg hb

/-- A pass that has a tag and a length byte in front of it. -/
theorem parsePass_length {data rest : List UInt8} {length : UInt8} {i : Nat}
    (hdrop : data.drop i = otaSigunatureIntegerValue :: length :: rest) (dataLength : UInt8)
    (d : Nat) (signature : Buffer UInt8 256) :
    (∃ (x : SignatureInteger) (more : List UInt8), data.drop i = x.bytes ++ more ∧
        d + otaSigunatureDataHalfLength ≤ 256) ∨
      ∃ fault, parsePass data dataLength ⟨i, d, signature⟩ = .ends (.error fault) := by
  have hget : ∀ k, data[i + k]? = (data.drop i)[k]? := fun k => List.getElem?_drop.symm
  have htag := hget 0
  have hlength := hget 1
  rw [Nat.add_zero] at htag
  rw [hdrop] at htag hlength
  simp only [List.getElem?_cons_succ, List.getElem?_cons_zero] at hlength htag
  obtain ⟨skip, hskip, hfits⟩ := exists_skip length
  have hsize := congrArg List.length hdrop
  rw [List.length_drop, List.length_cons, List.length_cons] at hsize
  by_cases hbound : i + 1 + (skip + 1) + otaSigunatureDataHalfLength ≤ data.length
  · by_cases hroom : d + otaSigunatureDataHalfLength ≤ 256
    · let x : SignatureInteger :=
        { length
          content := rest.take (skip + otaSigunatureDataHalfLength)
          fits := by
            rw [List.length_take_of_le (by omega), hfits] }
      refine .inl ⟨x, rest.drop (skip + otaSigunatureDataHalfLength), ?_, hroom⟩
      rw [hdrop]
      show _ = _ :: _ :: (_ ++ _)
      rw [List.take_append_drop]
    · refine .inr ⟨.writesBeyond, ?_⟩
      have hcopy : signature.memcpy d ((data.drop (i + 1 + (skip + 1))).take
          otaSigunatureDataHalfLength) = none := by
        apply dif_neg
        rw [List.length_take_of_le (by rw [List.length_drop]; omega)]
        exact hroom
      simp only [parsePass, htag, if_true, hlength, hskip, if_pos hbound, hcopy]
  · refine .inr ⟨.readsBeyond, ?_⟩
    simp only [parsePass, htag, if_true, hlength, hskip, if_neg hbound]

/-- A pass takes an integer, or stands at another byte, or leaves its bounds. -/
theorem parsePass_cases (data : List UInt8) (dataLength : UInt8) (i d : Nat)
    (signature : Buffer UInt8 256) :
    (∃ (x : SignatureInteger) (more : List UInt8), data.drop i = x.bytes ++ more ∧
        d + otaSigunatureDataHalfLength ≤ 256) ∨
      (∃ (b : UInt8) (more : List UInt8), data.drop i = b :: more ∧
        b ≠ otaSigunatureIntegerValue) ∨
      ∃ fault, parsePass data dataLength ⟨i, d, signature⟩ = .ends (.error fault) := by
  have hget : ∀ k, data[i + k]? = (data.drop i)[k]? := fun k => List.getElem?_drop.symm
  have htag := hget 0
  rw [Nat.add_zero] at htag
  match hdrop : data.drop i with
  | [] =>
    rw [hdrop] at htag
    refine .inr (.inr ⟨.readsBeyond, ?_⟩)
    simp only [parsePass, htag, List.getElem?_nil]
  | b :: rest =>
    by_cases hb : b = otaSigunatureIntegerValue
    · subst hb
      match rest with
      | [] =>
        have hlength := hget 1
        rw [hdrop] at htag hlength
        refine .inr (.inr ⟨.readsBeyond, ?_⟩)
        simp [parsePass, htag, hlength]
      | length :: rest =>
        rw [← hdrop]
        exact (parsePass_length hdrop dataLength d signature).imp_right .inr
    · exact .inr (.inl ⟨b, rest, rfl, hb⟩)

end pass

def integersBytes (xs : List SignatureInteger) : List UInt8 := xs.flatMap SignatureInteger.bytes

@[simp] theorem integersBytes_nil : integersBytes [] = [] := rfl

@[simp] theorem integersBytes_cons (x : SignatureInteger) (xs : List SignatureInteger) :
    integersBytes (x :: xs) = x.bytes ++ integersBytes xs := rfl

/-- From `i` on there are no more integers than the field has room for from `d` on, and behind
them the announced length is reached or another byte follows. -/
def Delimited (data : List UInt8) (dataLength : UInt8) (i d : Nat) : Prop :=
  ∃ (xs : List SignatureInteger) (rest : List UInt8),
    data.drop i = integersBytes xs ++ rest ∧
    d + xs.length * otaSigunatureDataHalfLength ≤ 256 ∧
    (xs ≠ [] ∧ i + (integersBytes xs).length = dataLength.toNat ∨
      ∃ b ∈ rest.head?, b ≠ otaSigunatureIntegerValue)

section loop

variable {data : List UInt8} {dataLength : UInt8} {i d : Nat} {signature : Buffer UInt8 256}

/-- More passes do not change the result. -/
theorem parseLoop_unique {p q : Nat} {a b : Except ParseFault Parsed} {s : ParseState}
    (ha : parseLoop data dataLength p s = some a) (hb : parseLoop data dataLength q s = some b) :
    a = b := by
  induction p generalizing q s with
  | zero => cases ha
  | succ p ih =>
    cases q with
    | zero => cases hb
    | succ q =>
      rw [parseLoop] at ha hb
      cases hpass : parsePass data dataLength s with
      | again s' =>
        rw [hpass] at ha hb
        exact ih ha hb
      | ends result =>
        rw [hpass] at ha hb
        exact Option.some.inj (ha.symm.trans hb)

/-- A loop that ends well has taken an integer first. -/
theorem parseLoop_none {passes : Nat} {p : Buffer UInt8 256}
    (h : parseLoop data dataLength passes ⟨i, d, signature⟩ = some (.ok ⟨rOtaErrNone, p⟩)) :
    ∃ (x : SignatureInteger) (more : List UInt8) (signature' : Buffer UInt8 256),
      data.drop i = x.bytes ++ more ∧
      signature'.bytes = signature.bytes.take d ++ x.half ++
        signature.bytes.drop (d + otaSigunatureDataHalfLength) ∧
      (i + x.bytes.length = dataLength.toNat ∧ p = signature' ∨
        i + x.bytes.length ≠ dataLength.toNat ∧
          ∃ passes', parseLoop data dataLength passes'
            ⟨i + x.bytes.length, d + otaSigunatureDataHalfLength, signature'⟩ =
              some (.ok ⟨rOtaErrNone, p⟩)) := by
  cases passes with
  | zero => cases h
  | succ passes =>
    rw [parseLoop] at h
    obtain ⟨x, more, hdata, hroom⟩ | ⟨b, more, hdata, hb⟩ | ⟨fault, hpass⟩ :=
      parsePass_cases data dataLength i d signature
    · obtain ⟨signature', hbytes, hpass⟩ := parsePass_integer dataLength signature x hdata hroom
      refine ⟨x, more, signature', hdata, hbytes, ?_⟩
      by_cases hend : i + x.bytes.length = dataLength.toNat
      · rw [hpass, if_pos hend] at h
        have hparsed := Except.ok.inj (Option.some.inj h)
        exact .inl ⟨hend, (congrArg Parsed.signature hparsed).symm⟩
      · rw [hpass, if_neg hend] at h
        exact .inr ⟨hend, passes, h⟩
    · rw [parsePass_other hdata hb] at h
      have hret : rOtaErrInvalidContext = rOtaErrNone :=
        congrArg Parsed.ret (Except.ok.inj (Option.some.inj h))
      exact absurd hret (by decide)
    · rw [hpass] at h
      cases Option.some.inj h

theorem parseLoop_delimited {passes : Nat} {parsed : Parsed} (hd : d ≤ 256)
    (h : parseLoop data dataLength passes ⟨i, d, signature⟩ = some (.ok parsed)) :
    Delimited data dataLength i d := by
  induction passes generalizing i d signature with
  | zero => cases h
  | succ passes ih =>
    rw [parseLoop] at h
    obtain ⟨x, more, hdata, hroom⟩ | ⟨b, more, hdata, hb⟩ | ⟨fault, hpass⟩ :=
      parsePass_cases data dataLength i d signature
    · obtain ⟨signature', -, hpass⟩ := parsePass_integer dataLength signature x hdata hroom
      by_cases hend : i + x.bytes.length = dataLength.toNat
      · refine ⟨[x], more, ?_, by simpa using hroom, .inl ⟨by simp, ?_⟩⟩
        · rw [hdata, integersBytes_cons, integersBytes_nil, List.append_nil]
        · rw [integersBytes_cons, integersBytes_nil, List.append_nil, hend]
      · rw [hpass, if_neg hend] at h
        obtain ⟨xs, rest, hrest, hfits, hdone⟩ := ih hroom h
        rw [← List.drop_drop, hdata, List.drop_left] at hrest
        refine ⟨x :: xs, rest, ?_, ?_, ?_⟩
        · rw [hdata, hrest, integersBytes_cons, List.append_assoc]
        · rw [List.length_cons, Nat.succ_mul]
          omega
        · obtain ⟨-, hlen⟩ | hother := hdone
          · refine .inl ⟨List.cons_ne_nil x xs, ?_⟩
            rw [integersBytes_cons, List.length_append]
            omega
          · exact .inr hother
    · exact ⟨[], b :: more, hdata, by simpa using hd, .inr ⟨b, rfl, hb⟩⟩
    · rw [hpass] at h
      cases Option.some.inj h

theorem Delimited.parseLoop (signature : Buffer UInt8 256) (h : Delimited data dataLength i d) :
    ∃ passes parsed, parseLoop data dataLength passes ⟨i, d, signature⟩ = some (.ok parsed) := by
  obtain ⟨xs, rest, hdata, hroom, hdone⟩ := h
  induction xs generalizing i d signature with
  | nil =>
    obtain ⟨b, hb, hne⟩ := hdone.resolve_left fun h => h.1 rfl
    obtain ⟨more, rfl⟩ : ∃ more, rest = b :: more := List.head?_eq_some_iff.mp hb
    refine ⟨1, ⟨rOtaErrInvalidContext, signature⟩, ?_⟩
    rw [Ota.parseLoop, parsePass_other hdata hne]
  | cons x xs ih =>
    rw [integersBytes_cons, List.append_assoc] at hdata
    rw [List.length_cons, Nat.succ_mul] at hroom
    have hfirst : d + otaSigunatureDataHalfLength ≤ 256 := by omega
    have hothers : d + otaSigunatureDataHalfLength + xs.length * otaSigunatureDataHalfLength ≤
        256 := by omega
    obtain ⟨signature', -, hpass⟩ := parsePass_integer dataLength signature x hdata hfirst
    by_cases hend : i + x.bytes.length = dataLength.toNat
    · refine ⟨1, ⟨rOtaErrNone, signature'⟩, ?_⟩
      rw [Ota.parseLoop, hpass, if_pos hend]
    · have hrest : data.drop (i + x.bytes.length) = integersBytes xs ++ rest := by
        rw [← List.drop_drop, hdata, List.drop_left]
      obtain ⟨passes, parsed, hloop⟩ := ih signature' hrest hothers (by
        obtain ⟨-, hlen⟩ | hother := hdone
        · rw [integersBytes_cons, List.length_append, ← Nat.add_assoc] at hlen
          refine .inl ⟨?_, hlen⟩
          intro hnil
          rw [hnil] at hlen
          exact hend hlen
        · exact .inr hother)
      refine ⟨passes + 1, parsed, ?_⟩
      rw [Ota.parseLoop, hpass, if_neg hend]
      exact hloop

end loop

def UpdateInBounds (bank0 : FirmwareUpdateControlBlock) (data : List UInt8) : Prop :=
  ∃ passes update, otaContextUpdateUserFirmwareHeader bank0 data passes = some (.ok update)

/-- There is a sequence header, and what follows that of a sequence is delimited. -/
def DelimitedSequence : List UInt8 → Prop
  | top :: length :: body =>
      top = otaSigunatureSequenceTopValue →
        Delimited (top :: length :: body) (length + UInt8.ofNat otaSigunatureSequenceInfoLength)
          otaSigunatureSequenceInfoLength 0
  | _ => False

theorem updateInBounds_iff_parseSignature {bank0 : FirmwareUpdateControlBlock}
    {data : List UInt8} :
    UpdateInBounds bank0 data ↔
      ∃ passes parsed, parseSignature bank0.signature data passes = some (.ok parsed) := by
  constructor
  · intro h
    obtain ⟨passes, update, h⟩ := h
    obtain ⟨result, hresult, hmap⟩ := Option.map_eq_some_iff.mp h
    cases result with
    | error fault => cases hmap
    | ok parsed => exact ⟨passes, parsed, hresult⟩
  · intro h
    obtain ⟨passes, parsed, h⟩ := h
    simp only [UpdateInBounds, otaContextUpdateUserFirmwareHeader]
    exact ⟨passes, _, by rw [h]; rfl⟩

/-- The parser keeps its bounds exactly on what its integers delimit. -/
theorem updateInBounds_iff (bank0 : FirmwareUpdateControlBlock) (data : List UInt8) :
    UpdateInBounds bank0 data ↔ DelimitedSequence data := by
  rw [updateInBounds_iff_parseSignature]
  match data with
  | [] | [top] =>
    constructor
    · intro h
      obtain ⟨passes, parsed, h⟩ := h
      cases Option.some.inj h
    · exact False.elim
  | top :: length :: body =>
    rw [DelimitedSequence]
    by_cases htop : top = otaSigunatureSequenceTopValue
    · simp only [parseSignature, if_pos htop]
      constructor
      · intro h _
        obtain ⟨passes, parsed, h⟩ := h
        exact parseLoop_delimited (Nat.zero_le 256) h
      · intro h
        exact (h htop).parseLoop _
    · simp only [parseSignature, if_neg htop]
      exact iff_of_true ⟨0, _, rfl⟩ fun h => absurd h htop

/-- A header as the flash has it after an erase. -/
def erasedHeader : FirmwareUpdateControlBlock where
  magicCode := ⟨List.replicate 7 0xff, List.length_replicate⟩
  imageFlag := 0xff
  signatureType := ⟨List.replicate 32 0xff, List.length_replicate⟩
  signatureSize := 0xffffffff
  signature := ⟨List.replicate 256 0xff, List.length_replicate⟩
  dataflashFlag := 0xffffffff
  dataflashStartAddress := 0xffffffff
  dataflashEndAddress := 0xffffffff
  reserved1 := ⟨List.replicate 200 0xff, List.length_replicate⟩

/-- The second integer has 31 bytes, and 32 are copied. -/
theorem not_updateInBounds_short : ¬ ∀ bank0 data, UpdateInBounds bank0 data := by
  intro h
  obtain ⟨passes, update, h⟩ := h erasedHeader
    ([0x30, 0x43, 0x02, 0x20] ++ List.replicate 32 0x11 ++ [0x02, 0x1f] ++ List.replicate 31 0x11)
  match passes with
  | 0 => cases h
  | 1 => cases h
  | passes + 2 => cases Option.some.inj h

end RenesasDemo.Ota
