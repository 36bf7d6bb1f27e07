import RenesasDemo.Cli.ConfigureSafety
import RenesasDemo.KVStore.MapLaw

namespace RenesasDemo.Cli

open Framework KVStore

variable {n : Nat} {cfg : KVStoreConfig n}

/-- `conf get` of the key prints the line. -/
def Shows (cfg : KVStoreConfig n) (s : ConfState n) (pcKey : CString) (line : List UInt8) : Prop :=
  ∃ c s', vSubCommandGetConfig cfg s pcKey = .ok (c, s') ∧ c.output.bytes = line

section texts

variable {text m : List UInt8} {b : Scratch} {i : Nat}

theorem ofBytes_of_noNul (hnul : 0 ∉ text) : (CString.ofBytes text).bytes = text :=
  List.takeWhile_eq_self_iff.mpr fun _ hc => decide_eq_true fun hz => hnul (hz ▸ hc)

/-- What stands behind a terminator does not count. -/
theorem ofBytes_of_prefix (h : text ++ [0] <+: m) :
    (CString.ofBytes m).bytes = (CString.ofBytes text).bytes := by
  obtain ⟨rest, rfl⟩ := h
  change (text ++ [0] ++ rest).takeWhile (· ≠ 0) = text.takeWhile (· ≠ 0)
  rw [List.append_assoc, List.takeWhile_append]
  split
  · next hall =>
    rw [(List.takeWhile_prefix _).eq_of_length hall]
    simp
  · rfl

theorem prefix_set (h : text <+: m) (hlt : text.length < m.length) :
    text ++ [0] <+: m.set text.length 0 := by
  obtain ⟨rest, rfl⟩ := h
  rw [List.set_append_right _ _ (Nat.le_refl _), Nat.sub_self]
  cases rest with
  | nil => simp at hlt
  | cons c rest => exact ⟨rest, by simp⟩

/-- The terminator that a response gets cuts what fills the buffer. -/
theorem prefix_terminated (h : text <+: m) (hm : m.length = cliOutputScratchBufLen) :
    text.take (cliOutputScratchBufLen - 1) ++ [0] <+:
      if text.length < cliOutputScratchBufLen then m.set text.length 0
      else m.set (cliOutputScratchBufLen - 1) 0 := by
  split
  · next hlt =>
    rw [List.take_of_length_le (Nat.le_sub_one_of_lt hlt)]
    exact prefix_set h (by omega)
  · next hge =>
    have hlen : (text.take (cliOutputScratchBufLen - 1)).length = cliOutputScratchBufLen - 1 :=
      List.length_take_of_le (by omega)
    have hcut := prefix_set ((List.take_prefix _ _).trans h)
      (show (text.take (cliOutputScratchBufLen - 1)).length < m.length by rw [hlen, hm]; decide)
    rw [hlen] at hcut
    exact hcut

theorem copyScratch_prefix (src : List UInt8) (h : text <+: b.bytes) (hi : i = text.length)
    (hroom : i + src.length ≤ cliOutputScratchBufLen) :
    ∃ b', copyScratch b i src = .ok b' ∧ text ++ src <+: b'.bytes := by
  obtain ⟨b', hb', hbytes⟩ := copyScratch_spec b hroom
  refine ⟨b', hb', ?_⟩
  rw [hbytes, hi, ← List.prefix_iff_eq_take.mp h]
  exact List.prefix_append _ _

theorem length_ofBytes_lt (h : 0 ∈ m) : (CString.ofBytes m).length < m.length := by
  apply Nat.lt_of_le_of_ne (List.takeWhile_prefix _).length_le
  intro heq
  have hall : m.takeWhile (· ≠ 0) = m := (List.takeWhile_prefix _).eq_of_length heq
  have hne := List.takeWhile_eq_self_iff.mp hall 0 h
  simp at hne

theorem noNul_integerText (z : Int) : 0 ∉ integerText z := by
  unfold integerText
  split
  · rw [List.mem_cons, not_or]
    exact ⟨by decide, noNul_decimalText _⟩
  · exact noNul_decimalText _

theorem noNul_numberLine (pcKey : CString) {number : List UInt8} (h : 0 ∉ number) :
    0 ∉ numberLine pcKey number := by
  have hequals : 0 ∉ ascii "=" := by decide
  have heol : 0 ∉ ascii "\r\n" := by decide
  simp only [numberLine, List.mem_append, not_or]
  exact ⟨⟨⟨pcKey.noNul, hequals⟩, h⟩, heol⟩

theorem noNul_stringLine (pcKey pcValue : CString) : 0 ∉ stringLine pcKey pcValue := by
  have hopen : 0 ∉ ascii "=\"" := by decide
  have hclose : 0 ∉ ascii "\"\r\n" := by decide
  simp only [stringLine, List.mem_append, not_or]
  exact ⟨⟨⟨pcKey.noNul, hopen⟩, pcValue.noNul⟩, hclose⟩

end texts

theorem Shows.length_lt {s : ConfState n} {pcKey : CString} {line : List UInt8}
    (h : Shows cfg s pcKey line) : line.length < cliOutputScratchBufLen := by
  obtain ⟨c, s', hget, rfl⟩ := h
  obtain ⟨b, rfl, hnul⟩ := vSubCommandGetConfig_print hget
  have hlt := length_ofBytes_lt hnul
  rw [b.length_bytes] at hlt
  exact hlt

section get

variable {s : ConfState n} {k : Fin n} {number : List UInt8}

/-- A response is shown up to its first terminator, and up to the end of the buffer. -/
theorem shows_of_response {line : List UInt8} {b : Scratch} (pcKey : CString)
    (hresponse : response cfg s pcKey (kvStringToKey cfg pcKey)
      (kvStoreGetType cfg (kvStringToKey cfg pcKey)) = .ok (line.length, b))
    (hline : line <+: b.bytes) (hpos : 0 < line.length) :
    Shows cfg s pcKey (CString.ofBytes (line.take (cliOutputScratchBufLen - 1))).bytes := by
  obtain ⟨b', hb', hterminated⟩ : ∃ b' : Scratch, (if line.length < cliOutputScratchBufLen then
      b.set line.length 0 else b.set (cliOutputScratchBufLen - 1) 0) = b' ∧
      line.take (cliOutputScratchBufLen - 1) ++ [0] <+: b'.bytes := by
    refine ⟨_, rfl, ?_⟩
    have hterminated := prefix_terminated hline b.length_bytes
    split at hterminated
    · next hfit =>
      rw [if_pos hfit]
      exact hterminated
    · next hfull =>
      rw [if_neg hfull]
      exact hterminated
  refine ⟨.print b'.bytes, { s with pcCliScratchBuffer := b' }, ?_, ofBytes_of_prefix hterminated⟩
  unfold vSubCommandGetConfig
  simp only [hresponse, bind, Except.bind, hb', if_pos hpos]
  rfl

theorem numberResponse_ok (pcKey : CString) (b : Scratch) {r : Except Stop (List UInt8)}
    (h : r = .ok number) :
    ∃ b', numberResponse b pcKey r = .ok ((numberLine pcKey number).length, b') ∧
      ((numberLine pcKey number).length < cliOutputScratchBufLen →
        numberLine pcKey number <+: b'.bytes) := by
  obtain ⟨b', hb', hpre⟩ := formatScratch_spec b (numberLine pcKey number)
  refine ⟨b', ?_, fun hfit => ?_⟩
  · subst h
    simp only [numberResponse, Except.mapError, bind, Except.bind, hb']
    rfl
  · rw [List.take_of_length_le (by omega)] at hpre
    exact (List.prefix_append _ _).trans hpre

theorem shows_number {pcKey : CString} {r : Except Stop (List UInt8)}
    (hresponse : response cfg s pcKey (kvStringToKey cfg pcKey)
      (kvStoreGetType cfg (kvStringToKey cfg pcKey)) =
        numberResponse s.pcCliScratchBuffer pcKey r)
    (hr : r = .ok number) (hnul : 0 ∉ number)
    (hfit : (numberLine pcKey number).length < cliOutputScratchBufLen) :
    Shows cfg s pcKey (numberLine pcKey number) := by
  obtain ⟨b, hb, hpre⟩ := numberResponse_ok pcKey s.pcCliScratchBuffer hr
  have hpos : 0 < (numberLine pcKey number).length := by
    rw [length_numberLine]
    omega
  have hshown := shows_of_response pcKey (hresponse.trans hb) (hpre hfit) hpos
  rw [List.take_of_length_le (Nat.le_sub_one_of_lt hfit),
    ofBytes_of_noNul (noNul_numberLine pcKey hnul)] at hshown
  exact hshown

theorem Shows.unique {pcKey : CString} {line line' : List UInt8} (h : Shows cfg s pcKey line)
    (h' : Shows cfg s pcKey line') : line = line' := by
  obtain ⟨c, t, hget, rfl⟩ := h
  obtain ⟨c', t', hget', rfl⟩ := h'
  rw [(Prod.mk.inj (Except.ok.inj (hget.symm.trans hget'))).1]

theorem kvStoreGetType_val (cfg : KVStoreConfig n) (k : Fin n) :
    kvStoreGetType cfg k.val = (cfg.kvStoreDefaults k).type := by
  rw [kvStoreGetType, keyType_val]
  rfl

theorem kvStoreGetType_map (cfg : KVStoreConfig n) (k : Fin n) :
    kvStoreGetType cfg (kvStringToKey cfg (cfg.kvStoreKeyMap k)) =
      (cfg.kvStoreDefaults k).type := by
  rw [kvStringToKey_map, kvStoreGetType_val]

end get

section strings

variable {cache : KVStoreCache n} {k : Fin n} {pcKey pcValue : CString} {key room size : Nat}
  {text : List UInt8}

/-- A read of the string into a buffer of `room` bytes finds the text and reports the size. -/
def ReadsString (cfg : KVStoreConfig n) (cache : KVStoreCache n) (key room size : Nat)
    (text : List UInt8) : Prop :=
  ∀ buf : List UInt8, buf.length = room → ∃ out,
    kvStoreGetString cfg cache key (some buf) = .ok ⟨size, some out⟩ ∧ text <+: out ∧
      out.length = buf.length

/-- What is left of the buffer behind the key, the equals sign and the quote. -/
def stringRoom (pcKey : CString) : Nat := cliOutputScratchBufLen - (pcKey.length + 2)

def stringShown (pcKey : CString) (text : List UInt8) (size : Nat) : List UInt8 :=
  (pcKey.bytes ++ ascii "=\"" ++ text.take (min size (stringRoom pcKey - 3)) ++
    ascii "\"\r\n").take (cliOutputScratchBufLen - 1)

theorem stringShown_value (hfit : (stringLine pcKey pcValue).length < cliOutputScratchBufLen) :
    stringShown pcKey pcValue.bytes pcValue.length = stringLine pcKey pcValue := by
  have hlen := length_stringLine pcKey pcValue
  have hmin : min pcValue.length (stringRoom pcKey - 3) = pcValue.length := by
    rw [stringRoom]
    omega
  have hall : pcValue.bytes.take pcValue.length = pcValue.bytes :=
    List.take_of_length_le (Nat.le_refl _)
  rw [stringShown, hmin, hall]
  exact List.take_of_length_le (Nat.le_sub_one_of_lt hfit)

theorem stringResponseStart_ok {b : Scratch} (hkey : pcKey.bytes <+: b.bytes)
    (hroom : pcKey.length + 2 ≤ cliOutputScratchBufLen) :
    ∃ b', stringResponseStart b pcKey.length = .ok (pcKey.length + 2, b') ∧
      pcKey.bytes ++ ascii "=\"" <+: b'.bytes := by
  have hequals : (ascii "=").length = 1 := rfl
  have hquote : (ascii "\"").length = 1 := rfl
  obtain ⟨b1, hb1, hpre1⟩ := copyScratch_prefix (ascii "=") hkey rfl (by
    rw [hequals]
    exact Nat.le_of_succ_le hroom)
  obtain ⟨b2, hb2, hpre2⟩ := copyScratch_prefix (ascii "\"") (i := pcKey.length + 1) hpre1
    (by rw [List.length_append, hequals, CString.length]) (by rw [hquote]; exact hroom)
  refine ⟨b2, ?_, ?_⟩
  · rw [stringResponseStart, if_pos (by omega)]
    simp only [CString.length] at hb1 hb2 ⊢
    simp only [hb1, hb2, bind, Except.bind]
    rfl
  · rw [List.append_assoc] at hpre2
    exact hpre2

theorem stringResponseValue_ok {b : Scratch} {start : List UInt8}
    (hread : ReadsString cfg cache key room size text) (hstart : start <+: b.bytes)
    (hroom : start.length + room = cliOutputScratchBufLen) (hpos : 0 < room) :
    ∃ b', stringResponseValue cfg cache key b start.length = .ok (start.length + size, b') ∧
      start ++ text <+: b'.bytes := by
  have hlen : (b.bytes.drop start.length).length = room := by
    rw [List.length_drop, b.length_bytes]
    omega
  obtain ⟨out, hget, htext, hout⟩ := hread (b.bytes.drop start.length) hlen
  obtain ⟨b', hb', hpre⟩ := copyScratch_prefix out hstart rfl (by omega)
  refine ⟨b', ?_, ((List.prefix_append_right_inj start).mpr htext).trans hpre⟩
  rw [stringResponseValue, if_pos (by omega)]
  simp only [hget, Except.mapError, bind, Except.bind, Option.getD_some, hb']
  rfl

/-- The end of the string is put where it is or where there still is room for it. -/
theorem stringResponse_ok (hread : ReadsString cfg cache key (stringRoom pcKey) size text)
    (hkey : pcKey.length + 5 ≤ cliOutputScratchBufLen)
    (htext : min size (stringRoom pcKey - 3) ≤ text.length) :
    ∃ l b, stringResponse cfg pcKey cache key = .ok (l, b) ∧
      l = pcKey.length + 2 + min size (stringRoom pcKey - 3) + 3 ∧
      pcKey.bytes ++ ascii "=\"" ++ text.take (min size (stringRoom pcKey - 3)) ++
        ascii "\"\r\n" <+: b.bytes := by
  have hsize : cliOutputScratchBufLen = 512 := rfl
  have hkeylen : pcKey.bytes.length = pcKey.length := rfl
  have hroom : stringRoom pcKey = cliOutputScratchBufLen - (pcKey.length + 2) := rfl
  have hstart : pcKey.bytes <+: (stpncpyScratch pcKey).bytes := by
    have hall : pcKey.bytes.take cliOutputScratchBufLen = pcKey.bytes :=
      List.take_of_length_le (by omega)
    change pcKey.bytes <+: pcKey.bytes.take cliOutputScratchBufLen ++ _
    rw [hall]
    exact List.prefix_append _ _
  obtain ⟨b1, hb1, hpre1⟩ := stringResponseStart_ok hstart (by omega)
  have hlen1 : (pcKey.bytes ++ ascii "=\"").length = pcKey.length + 2 := List.length_append
  obtain ⟨b2, hb2, hpre2⟩ := stringResponseValue_ok hread hpre1 (by omega) (by omega)
  have hpre2' : pcKey.bytes ++ ascii "=\"" ++ text.take (min size (stringRoom pcKey - 3)) <+:
      b2.bytes :=
    ((List.prefix_append_right_inj _).mpr (List.take_prefix _ _)).trans hpre2
  have hclose : (ascii "\"\r\n").length = 3 := rfl
  have hlen2 : pcKey.length + 2 + min size (stringRoom pcKey - 3) =
      (pcKey.bytes ++ ascii "=\"" ++ text.take (min size (stringRoom pcKey - 3))).length := by
    rw [List.length_append, hlen1, List.length_take, Nat.min_eq_left htext]
  obtain ⟨b3, hb3, hpre3⟩ :=
    copyScratch_prefix (ascii "\"\r\n") hpre2' hlen2 (by omega)
  refine ⟨_, b3, ?_, rfl, hpre3⟩
  rw [hlen1] at hb2
  have hmin : min pcKey.length cliOutputScratchBufLen = pcKey.length := Nat.min_eq_left (by omega)
  have hend : (if cliOutputScratchBufLen < pcKey.length + 2 + size + 3 then
      cliOutputScratchBufLen - 3 else pcKey.length + 2 + size) =
        pcKey.length + 2 + min size (stringRoom pcKey - 3) := by
    split <;> omega
  simp only [stringResponse, hmin, hb1, hb2, bind, Except.bind, hend, hb3]
  rfl

theorem get_string {s : ConfState n}
    (htype : (cfg.kvStoreDefaults k).type = .kvTypeString ∨
      (cfg.kvStoreDefaults k).type = .kvTypeBlob)
    (hread : ReadsString cfg s.cache k.val (stringRoom (cfg.kvStoreKeyMap k)) size text)
    (hkey : (cfg.kvStoreKeyMap k).length + 5 ≤ cliOutputScratchBufLen)
    (htext : min size (stringRoom (cfg.kvStoreKeyMap k) - 3) ≤ text.length) :
    Shows cfg s (cfg.kvStoreKeyMap k)
      (CString.ofBytes (stringShown (cfg.kvStoreKeyMap k) text size)).bytes := by
  obtain ⟨l, b, hb, rfl, hpre⟩ := stringResponse_ok hread hkey htext
  have hopen : (ascii "=\"").length = 2 := rfl
  have hclose : (ascii "\"\r\n").length = 3 := rfl
  refine shows_of_response _ ?_ hpre ?_
  · rw [kvStoreGetType_map, kvStringToKey_map]
    simp only [List.length_append, hopen, hclose, List.length_take, Nat.min_eq_left htext]
    obtain htype | htype := htype <;> rw [htype] <;> exact hb
  · simp only [List.length_append, hclose]
    omega

theorem readsString_stored {m : KVMap n} (hrep : Represents cfg cache m)
    (hvalue : m k = some (.string pcValue)) (hroom : pcValue.length < room) :
    ReadsString cfg cache k.val room pcValue.length pcValue.bytes := by
  intro buf hbuf
  obtain ⟨out, hget, hlen, htake⟩ :=
    hrep.getString hvalue (show buf ≠ [] from List.ne_nil_of_length_pos (by omega))
  have hall : pcValue.bytes.take (buf.length - 1) = pcValue.bytes :=
    List.take_of_length_le (Nat.le_sub_one_of_lt (hbuf ▸ hroom))
  rw [hall] at htake
  exact ⟨out, hget, (List.prefix_append _ _).trans (htake ▸ List.take_prefix _ _), hlen⟩

theorem readsString_blob (cache : KVStoreCache n)
    (htype : (cfg.kvStoreDefaults k).type = .kvTypeBlob) :
    ReadsString cfg cache k.val room 0 [] := by
  intro buf _
  have hk : (⟨k.val, k.isLt⟩ : Fin n) = k := rfl
  refine ⟨buf, ?_, List.nil_prefix, rfl⟩
  simp only [kvStoreGetString]
  rw [dif_pos k.isLt, hk, if_neg (by rw [htype]; simp)]

/-- A read behind a NULL pointer is one of the default. -/
theorem kvStoreGetString_null (htype : (cfg.kvStoreDefaults k).type = .kvTypeString)
    (hnull : (pvGetDataReadPtr cache k).isNull = true) {buf : List UInt8} (hbuf : buf ≠ []) :
    kvStoreGetString cfg cache k.val (some buf) =
      (prvCopyDefault (cfg.kvStoreDefaults k) (min buf.length (cfg.kvStoreDefaults k).length)).map
        fun v => ⟨(cfg.kvStoreDefaults k).length - 1,
          some ((copyToBuffer buf v).set (buf.length - 1) 0)⟩ := by
  have hk : (⟨k.val, k.isLt⟩ : Fin n) = k := rfl
  simp only [kvStoreGetString]
  rw [dif_pos k.isLt, hk, if_pos htype, xReadEntryOrDefault_null cfg hnull]
  cases prvCopyDefault (cfg.kvStoreDefaults k) (min buf.length (cfg.kvStoreDefaults k).length) with
  | ok v =>
    simp only [Except.map, bind, Except.bind, if_neg hbuf]
    rfl
  | error e => rfl

theorem readsString_default (htype : (cfg.kvStoreDefaults k).type = .kvTypeString)
    (hnull : (pvGetDataReadPtr cache k).isNull = true) (hroom : 0 < room) {v : List UInt8}
    (hv : prvCopyDefault (cfg.kvStoreDefaults k) (min room (cfg.kvStoreDefaults k).length) =
      .ok v) :
    ReadsString cfg cache k.val room ((cfg.kvStoreDefaults k).length - 1) (v.take (room - 1)) := by
  intro buf hbuf
  have hlen := prvCopyDefault_length hv
  refine ⟨(copyToBuffer buf v).set (buf.length - 1) 0, ?_, ?_, ?_⟩
  · rw [kvStoreGetString_null htype hnull (List.ne_nil_of_length_pos (by omega)), hbuf, hv]
    rfl
  · have hcopied : v.take (room - 1) <+: (copyToBuffer buf v).take (room - 1) :=
      (List.prefix_append v _).take (room - 1)
    rw [hbuf]
    refine hcopied.trans ?_
    rw [← List.take_set_of_le (Nat.le_refl (room - 1))]
    exact List.take_prefix _ _
  · rw [List.length_set, length_copyToBuffer (by omega)]

/-- The default of a string key is shown as the value would be. -/
def DefaultShown (d : KVStoreDefaultEntry) (pcKey pcValue : CString) : Prop :=
  ∃ v, prvCopyDefault d (min (stringRoom pcKey) d.length) = .ok v ∧
    (CString.ofBytes (stringShown pcKey v (d.length - 1))).bytes = stringLine pcKey pcValue

/-- What is shown has been read. -/
theorem read_of_shows {s : ConfState n} {line : List UInt8}
    (htype : (cfg.kvStoreDefaults k).type = .kvTypeString)
    (hkey : (cfg.kvStoreKeyMap k).length + 5 ≤ cliOutputScratchBufLen)
    (hshows : Shows cfg s (cfg.kvStoreKeyMap k) line) : ∃ buf r,
      buf.length = stringRoom (cfg.kvStoreKeyMap k) ∧
        kvStoreGetString cfg s.cache k.val (some buf) = .ok r := by
  obtain ⟨c, s', hget, -⟩ := hshows
  obtain ⟨⟨l, b⟩, hresponse, -⟩ := bind_eq_ok hget
  rw [kvStoreGetType_map, kvStringToKey_map, htype] at hresponse
  have hmin : min (cfg.kvStoreKeyMap k).length cliOutputScratchBufLen =
      (cfg.kvStoreKeyMap k).length := Nat.min_eq_left (by omega)
  obtain ⟨⟨l1, b1⟩, hstart, hrest⟩ := bind_eq_ok hresponse
  obtain ⟨⟨l2, b2⟩, hvalue, -⟩ := bind_eq_ok hrest
  have hl1 : l1 = (cfg.kvStoreKeyMap k).length + 2 := by
    rw [hmin, stringResponseStart, if_pos (by omega)] at hstart
    obtain ⟨b3, -, hstart⟩ := bind_eq_ok hstart
    obtain ⟨b4, -, hstart⟩ := bind_eq_ok hstart
    exact (Prod.mk.inj (Except.ok.inj hstart)).1.symm
  rw [stringResponseValue, if_pos (by omega)] at hvalue
  obtain ⟨r, hr, -⟩ := bind_eq_ok hvalue
  refine ⟨b1.bytes.drop l1, r, ?_, mapError_eq_ok hr⟩
  rw [List.length_drop, b1.length_bytes, hl1]
  rfl

theorem shows_default_iff {s : ConfState n}
    (htype : (cfg.kvStoreDefaults k).type = .kvTypeString)
    (hnull : (pvGetDataReadPtr s.cache k).isNull = true)
    (hfit : (stringLine (cfg.kvStoreKeyMap k) pcValue).length < cliOutputScratchBufLen) :
    Shows cfg s (cfg.kvStoreKeyMap k) (stringLine (cfg.kvStoreKeyMap k) pcValue) ↔
      DefaultShown (cfg.kvStoreDefaults k) (cfg.kvStoreKeyMap k) pcValue := by
  have hline := length_stringLine (cfg.kvStoreKeyMap k) pcValue
  have hroom : stringRoom (cfg.kvStoreKeyMap k) =
    cliOutputScratchBufLen - ((cfg.kvStoreKeyMap k).length + 2) := rfl
  have hshown {v : List UInt8} (hv : prvCopyDefault (cfg.kvStoreDefaults k)
      (min (stringRoom (cfg.kvStoreKeyMap k)) (cfg.kvStoreDefaults k).length) = .ok v) :
      Shows cfg s (cfg.kvStoreKeyMap k) (CString.ofBytes (stringShown (cfg.kvStoreKeyMap k) v
        ((cfg.kvStoreDefaults k).length - 1))).bytes := by
    have hlen := prvCopyDefault_length hv
    have hget := get_string (.inl htype)
      (readsString_default htype hnull (by omega) hv) (by omega)
      (by rw [List.length_take]; omega)
    have htake : (v.take (stringRoom (cfg.kvStoreKeyMap k) - 1)).take
        (min ((cfg.kvStoreDefaults k).length - 1) (stringRoom (cfg.kvStoreKeyMap k) - 3)) =
        v.take (min ((cfg.kvStoreDefaults k).length - 1)
          (stringRoom (cfg.kvStoreKeyMap k) - 3)) := by
      rw [List.take_take, Nat.min_eq_left (by omega)]
    rw [stringShown, htake] at hget
    exact hget
  constructor
  · intro hshows
    obtain ⟨buf, r, hbuf, hr⟩ := read_of_shows htype (by omega) hshows
    rw [kvStoreGetString_null htype hnull (List.ne_nil_of_length_pos (by omega)), hbuf] at hr
    obtain ⟨v, hv, -⟩ := map_eq_ok hr
    exact ⟨v, hv, (hshown hv).unique hshows⟩
  · rintro ⟨v, hv, hline⟩
    exact hline ▸ hshown hv

end strings

end RenesasDemo.Cli
