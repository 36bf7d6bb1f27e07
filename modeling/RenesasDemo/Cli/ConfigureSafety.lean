import RenesasDemo.Cli.Configure
import RenesasDemo.KVStore.Defaults

namespace RenesasDemo.Cli

open Framework KVStore

variable {n : Nat} {cfg : KVStoreConfig n}

/-- Nothing but the store stops it. -/
def Contained {α : Type*} (r : Except ConfFault α) : Prop :=
  ∀ e, r = .error e → ∃ s, e = .stop s

section contained

variable {α β : Type} {r : Except ConfFault α} {f : α → Except ConfFault β}

theorem contained_ok (a : α) : Contained (.ok a : Except ConfFault α) :=
  fun _ h => by cases h

theorem contained_stop (r : Except Stop α) : Contained (r.mapError .stop) := by
  intro e h
  cases r with
  | ok a => cases h
  | error s => exact ⟨s, (Except.error.inj h).symm⟩

theorem Contained.bind (h : Contained r) (hf : ∀ a, r = .ok a → Contained (f a)) :
    Contained (r >>= f) := by
  intro e he
  cases r with
  | ok a => exact hf a rfl e he
  | error e' =>
    obtain rfl := Except.error.inj he
    exact h e' rfl

theorem bind_eq_ok {ε : Type} {r : Except ε α} {f : α → Except ε β} {b : β}
    (h : (r >>= f) = .ok b) : ∃ a, r = .ok a ∧ f a = .ok b := by
  cases r with
  | ok a => exact ⟨a, rfl, h⟩
  | error e => cases h

theorem map_eq_ok {ε : Type} {r : Except ε α} {f : α → β} {b : β} (h : r.map f = .ok b) :
    ∃ a, r = .ok a ∧ f a = b := by
  cases r with
  | ok a => exact ⟨a, rfl, Except.ok.inj h⟩
  | error e => cases h

theorem mapError_eq_ok {r : Except Stop α} {a : α} (h : r.mapError ConfFault.stop = .ok a) :
    r = .ok a := by
  cases r with
  | ok a' => exact congrArg Except.ok (Except.ok.inj h)
  | error e => cases h

end contained

section scratch

variable {b b' : Scratch} {i : Nat} {text src : List UInt8}

/-- Formatting always stays within the buffer and leaves the text, or its first 511 characters, and
a terminator. -/
theorem formatScratch_spec (b : Scratch) (text : List UInt8) :
    ∃ b', formatScratch b text = .ok b' ∧
      text.take (cliOutputScratchBufLen - 1) ++ [0] <+: b'.bytes := by
  have hsize : 0 < cliOutputScratchBufLen := by decide
  obtain ⟨b', hb', htake⟩ := snprintf_spec b text (i := 0) hsize (Nat.zero_add _).le
  refine ⟨b', by rw [formatScratch, hb'], ?_⟩
  rw [List.take_zero, List.nil_append] at htake
  exact htake ▸ List.take_prefix _ _

theorem copyScratch_spec (b : Scratch) (h : i + src.length ≤ cliOutputScratchBufLen) :
    ∃ b', copyScratch b i src = .ok b' ∧
      b'.bytes = b.bytes.take i ++ src ++ b.bytes.drop (i + src.length) := by
  obtain ⟨b', hb', hbytes⟩ := b.memcpy_of_le i src h
  exact ⟨b', by rw [copyScratch, hb'], hbytes⟩

theorem mem_bytes_set (b : Scratch) (hi : i < cliOutputScratchBufLen) : 0 ∈ (b.set i 0).bytes :=
  List.mem_set (by rw [b.length_bytes]; exact hi) 0

theorem contained_copyScratch (b : Scratch) (h : i + src.length ≤ cliOutputScratchBufLen) :
    Contained (copyScratch b i src) := by
  obtain ⟨b', hb', -⟩ := copyScratch_spec b h
  rw [hb']
  exact contained_ok _

theorem contained_formatScratch (b : Scratch) (text : List UInt8) :
    Contained (formatScratch b text) := by
  obtain ⟨b', hb', -⟩ := formatScratch_spec b text
  rw [hb']
  exact contained_ok _

end scratch

section read

variable {s : KVStoreCache n} {k : Fin n} {buf : List UInt8}

theorem length_copyToBuffer {v : List UInt8} (h : v.length ≤ buf.length) :
    (copyToBuffer buf v).length = buf.length := by
  rw [copyToBuffer, List.length_append, List.length_drop]
  omega

theorem length_of_definedOr {len : Nat} {o : Option (List UInt8)} {v : List UInt8}
    (ho : ∀ v, o = some v → v.length ≤ len) (h : definedOr o = .ok v) : v.length ≤ len := by
  cases o with
  | none => cases h
  | some w => exact Except.ok.inj h ▸ ho w rfl

theorem length_readThrough {len : Nat} {p : DataPtr} {v : List UInt8}
    (h : s.readThrough k len p = .ok v) : v.length ≤ len := by
  cases p with
  | inline =>
    refine length_of_definedOr (fun w hw => ?_) h
    split at hw
    · exact Option.some.inj hw ▸ List.length_take_le _ _
    · cases hw
  | block address =>
    refine length_of_definedOr (fun w hw => ?_) h
    obtain ⟨b, -, hb⟩ := Option.bind_eq_some_iff.mp hw
    split at hb
    · exact Option.some.inj hb ▸ List.length_take_le _ _
    · cases hb

theorem length_xprvCopyValueFromCache {r : CacheRead}
    (h : xprvCopyValueFromCache s k buf = .ok r) : r.pvBuffer.length = buf.length := by
  simp only [xprvCopyValueFromCache] at h
  split at h
  · exact Except.ok.inj h ▸ rfl
  · obtain ⟨v, hv, hr⟩ := bind_eq_ok h
    have hlen := length_readThrough hv
    rw [← Except.ok.inj hr]
    exact length_copyToBuffer (by omega)

theorem length_xReadEntryOrDefault {r : EntryRead}
    (h : xReadEntryOrDefault cfg s k buf = .ok r) : r.pvBuffer.length = buf.length := by
  obtain ⟨c, hc, hrest⟩ := bind_eq_ok h
  have hcache := length_xprvCopyValueFromCache hc
  simp only at hrest
  split at hrest
  · obtain ⟨v, hv, hr⟩ := bind_eq_ok hrest
    have hlen := prvCopyDefault_length hv
    rw [← Except.ok.inj hr, ← hcache]
    exact length_copyToBuffer (by omega)
  · rw [← Except.ok.inj hrest]
    exact hcache

theorem length_kvStoreGetString {key : Nat} {r : BufferRead}
    (h : kvStoreGetString cfg s key (some buf) = .ok r) :
    ∃ out, r.pvBuffer = some out ∧ out.length = buf.length := by
  simp only [kvStoreGetString] at h
  split at h
  · next hk =>
    split at h
    · cases hread : xReadEntryOrDefault cfg s ⟨key, hk⟩ buf with
      | error e =>
        rw [hread] at h
        cases h
      | ok e =>
        rw [hread] at h
        simp only [bind, Except.bind] at h
        split at h
        · cases h
        · obtain rfl := Except.ok.inj h
          refine ⟨_, rfl, ?_⟩
          rw [List.length_set, length_xReadEntryOrDefault hread]
    · obtain rfl := Except.ok.inj h
      exact ⟨buf, rfl, rfl⟩
  · obtain rfl := Except.ok.inj h
    exact ⟨buf, rfl, rfl⟩

end read

section get

variable {s : ConfState n} {pcKey : CString} {cache : KVStoreCache n} {xKey : Nat}

theorem contained_numberResponse (b : Scratch) (number : Except Stop (List UInt8)) :
    Contained (numberResponse b pcKey number) :=
  (contained_stop number).bind fun _ _ =>
    (contained_formatScratch _ _).bind fun _ _ => contained_ok _

/-- Behind a key that leaves room for the equals sign and the quote, both are in the buffer. -/
theorem contained_stringResponseStart (b : Scratch) {l : Nat}
    (hl : l + 2 ≤ cliOutputScratchBufLen) :
    Contained (stringResponseStart b l) := by
  rw [stringResponseStart, if_pos (by omega)]
  have hquote : (ascii "\"").length = 1 := rfl
  have hequals : (ascii "=").length = 1 := rfl
  refine (contained_copyScratch b (by omega)).bind fun _ _ => ?_
  exact (contained_copyScratch _ (by omega)).bind fun _ _ => contained_ok _

theorem contained_stringResponseValue (b : Scratch) (l : Nat) :
    Contained (stringResponseValue cfg cache xKey b l) := by
  unfold stringResponseValue
  split
  · next hl =>
    refine (contained_stop _).bind fun r hr => ?_
    obtain ⟨out, hout, hlen⟩ := length_kvStoreGetString (mapError_eq_ok hr)
    rw [List.length_drop, b.length_bytes] at hlen
    rw [hout, Option.getD_some]
    exact (contained_copyScratch b (by omega)).bind fun _ _ => contained_ok _
  · exact contained_ok _

theorem contained_stringResponse (hkey : pcKey.length + 2 ≤ cliOutputScratchBufLen) :
    Contained (stringResponse cfg pcKey cache xKey) := by
  refine (contained_stringResponseStart _ (by omega)).bind fun (l, b) _ => ?_
  refine (contained_stringResponseValue b l).bind fun (l', b') _ => ?_
  have hend : (ascii "\"\r\n").length = 3 := rfl
  have hsize : cliOutputScratchBufLen = 512 := rfl
  refine (contained_copyScratch b' ?_).bind fun _ _ => contained_ok _
  rw [hend]
  split <;> omega

theorem contained_response {xKvType : KVStoreValueType}
    (hkey : xKvType ≠ .kvTypeNone → pcKey.length + 2 ≤ cliOutputScratchBufLen) :
    Contained (response cfg s pcKey xKey xKvType) := by
  cases xKvType with
  | kvTypeNone | other => exact contained_ok _
  | kvTypeString | kvTypeBlob => exact contained_stringResponse (hkey (by simp))
  | kvTypeBaseT | kvTypeUBaseT | kvTypeInt32 | kvTypeUInt32 => exact contained_numberResponse _ _

theorem kvStringToKey_eq (cfg : KVStoreConfig n) (pcKey : CString) :
    (∃ k, cfg.kvStoreKeyMap k = pcKey ∧ kvStringToKey cfg pcKey = k.val) ∨
      (∀ k, cfg.kvStoreKeyMap k ≠ pcKey) ∧ kvStringToKey cfg pcKey = n := by
  unfold kvStringToKey
  cases hfind : (List.finRange n).find? fun i => cfg.kvStoreKeyMap i = pcKey with
  | some k =>
    have hname := List.find?_some hfind
    exact .inl ⟨k, of_decide_eq_true hname, rfl⟩
  | none =>
    refine .inr ⟨fun k hk => ?_, rfl⟩
    have hnone := List.find?_eq_none.mp hfind k (List.mem_finRange k)
    simp [hk] at hnone

theorem kvStringToKey_map (cfg : KVStoreConfig n) (k : Fin n) :
    kvStringToKey cfg (cfg.kvStoreKeyMap k) = k.val := by
  obtain ⟨j, hj, hkey⟩ | ⟨hnone, -⟩ := kvStringToKey_eq cfg (cfg.kvStoreKeyMap k)
  · rw [hkey, cfg.keyMap_injective hj]
  · exact absurd rfl (hnone k)

theorem kvStoreGetType_none {key : Nat} (h : ¬ key < n) : kvStoreGetType cfg key = .kvTypeNone := by
  rw [kvStoreGetType, KVStoreConfig.keyType, dif_neg h]
  rfl

/-- The key names leave room for what is written behind them without a check. -/
def KeysFit (cfg : KVStoreConfig n) : Prop :=
  ∀ k, (cfg.kvStoreKeyMap k).length + 2 ≤ cliOutputScratchBufLen

instance : Decidable (KeysFit cfg) :=
  inferInstanceAs (Decidable (∀ k, (cfg.kvStoreKeyMap k).length + 2 ≤ cliOutputScratchBufLen))

theorem contained_vSubCommandGetConfig (hkeys : KeysFit cfg) (s : ConfState n) (pcKey : CString) :
    Contained (vSubCommandGetConfig cfg s pcKey) := by
  have hkey : kvStoreGetType cfg (kvStringToKey cfg pcKey) ≠ .kvTypeNone →
      pcKey.length + 2 ≤ cliOutputScratchBufLen := by
    intro htype
    obtain ⟨k, rfl, -⟩ | ⟨-, hnone⟩ := kvStringToKey_eq cfg pcKey
    · exact hkeys k
    · exact absurd (kvStoreGetType_none (by omega)) htype
  refine (contained_response hkey).bind fun (l, b) _ => ?_
  simp only
  split
  · exact contained_ok _
  · exact (contained_formatScratch _ _).bind fun _ _ => contained_ok _

theorem vSubCommandGetConfig_print {s s' : ConfState n} {pcKey : CString} {c : ConsoleCall}
    (h : vSubCommandGetConfig cfg s pcKey = .ok (c, s')) :
    ∃ b : Scratch, c = .print b.bytes ∧ 0 ∈ b.bytes := by
  obtain ⟨⟨l, b⟩, -, hrest⟩ := bind_eq_ok h
  simp only at hrest
  split at hrest
  · obtain ⟨rfl, -⟩ := Prod.mk.inj (Except.ok.inj hrest)
    refine ⟨_, rfl, ?_⟩
    split
    · next hl => exact mem_bytes_set b hl
    · exact mem_bytes_set b (by decide)
  · obtain ⟨b', hb', hend⟩ := bind_eq_ok hrest
    obtain ⟨rfl, -⟩ := Prod.mk.inj (Except.ok.inj hend)
    obtain ⟨b'', hb'', hpre⟩ := formatScratch_spec _ _
    obtain rfl := Except.ok.inj (hb'.symm.trans hb'')
    exact ⟨b', rfl, hpre.subset (List.mem_append_right _ (List.mem_singleton.mpr rfl))⟩

end get

/-- A string has its terminator in its array; only the formatted text is written. -/
def ConsoleCall.Sound : ConsoleCall → Prop
  | print memory => 0 ∈ memory
  | write pvBuffer text => pvBuffer <+: text

/-- The command reads no argument it does not have, keeps within the scratch buffer, and hands only
terminated strings and formatted text to the console. -/
def ConfSafe (r : List ConsoleCall × Except ConfFault (ConfState n)) : Prop :=
  (∀ c ∈ r.1, c.Sound) ∧ r.2 ≠ .error .argvBound ∧ r.2 ≠ .error .scratchBound

section command

variable {s : ConfState n} {pcKey pcValue : CString} {ppcArgv : List (Option CString)}
  {lfs : Fin n → LfsWriteAnswers}

theorem confSafe_of_contained {cs : List ConsoleCall} {r : Except ConfFault (ConfState n)}
    (hcs : ∀ c ∈ cs, c.Sound) (hr : Contained r) : ConfSafe (cs, r) := by
  refine ⟨hcs, fun h => ?_, fun h => ?_⟩
  · obtain ⟨_, hstop⟩ := hr _ h
    cases hstop
  · obtain ⟨_, hstop⟩ := hr _ h
    cases hstop

theorem confSafe_atOnce {r : Except ConfFault (List ConsoleCall × ConfState n)}
    (hr : Contained r) (hcs : ∀ cs s', r = .ok (cs, s') → ∀ c ∈ cs, c.Sound) :
    ConfSafe (atOnce r) := by
  cases r with
  | ok p => exact confSafe_of_contained (hcs p.1 p.2 rfl) (contained_ok _)
  | error e =>
    refine confSafe_of_contained (fun c hc => by cases hc) fun e' he' => ?_
    obtain rfl := Except.error.inj he'
    exact hr e rfl

theorem confSafe_get (hkeys : KeysFit cfg) (s : ConfState n) (pcKey : CString) :
    ConfSafe (atOnce ((vSubCommandGetConfig cfg s pcKey).map fun (c, s) => ([c], s))) := by
  have hcontained := contained_vSubCommandGetConfig hkeys s pcKey
  cases hget : vSubCommandGetConfig cfg s pcKey with
  | error e =>
    refine confSafe_atOnce (fun e' he' => ?_) fun cs s' h => by cases h
    obtain rfl := Except.error.inj he'
    exact hcontained e hget
  | ok p =>
    obtain ⟨b, hb, hnul⟩ := vSubCommandGetConfig_print hget
    refine confSafe_of_contained (fun c hc => ?_) (contained_ok _)
    rw [List.mem_singleton.mp hc, hb]
    exact hnul

theorem confSafe_getAll (hkeys : KeysFit cfg) (keys : List (Fin n)) (s : ConfState n) :
    ConfSafe (vSubCommandGetConfigAll cfg s keys) := by
  induction keys generalizing s with
  | nil => exact confSafe_of_contained (fun c hc => by cases hc) (contained_ok _)
  | cons key keys ih =>
    rw [vSubCommandGetConfigAll]
    cases hget : vSubCommandGetConfig cfg s (cfg.kvStoreKeyMap key) with
    | error e =>
      have hcontained := contained_vSubCommandGetConfig hkeys s (cfg.kvStoreKeyMap key)
      refine confSafe_of_contained (fun c hc => by cases hc) fun e' he' => ?_
      obtain rfl := Except.error.inj he'
      exact hcontained e hget
    | ok p =>
      obtain ⟨b, hb, hnul⟩ := vSubCommandGetConfig_print hget
      obtain ⟨hcs, hargv, hscratch⟩ := ih p.2
      refine ⟨List.forall_mem_cons.mpr ⟨?_, hcs⟩, hargv, hscratch⟩
      rw [hb]
      exact hnul

theorem contained_setConfig (cfg : KVStoreConfig n) (s : ConfState n) (pcKey pcValue : CString) :
    Contained (setConfig cfg s pcKey pcValue) :=
  (contained_stop _).bind fun _ _ => (contained_formatScratch _ _).bind fun _ _ => contained_ok _

theorem setConfig_write {s' : ConfState n} {cs : List ConsoleCall}
    (h : setConfig cfg s pcKey pcValue = .ok (cs, s')) :
    ∃ p, parseAndSet cfg s.cache pcKey pcValue (kvStringToKey cfg pcKey)
        (kvStoreGetType cfg (kvStringToKey cfg pcKey)) = .ok p ∧ s'.cache = p.cache ∧
      ∀ text, text = setText pcKey pcValue (kvStringToKey cfg pcKey) p → text ≠ [] →
        text.length < cliOutputScratchBufLen → cs = [.write text text] := by
  obtain ⟨p, hp, hrest⟩ := bind_eq_ok h
  obtain ⟨b, hb, hend⟩ := bind_eq_ok hrest
  obtain ⟨hcs, rfl⟩ := Prod.mk.inj (Except.ok.inj hend)
  refine ⟨p, mapError_eq_ok hp, rfl, ?_⟩
  · rintro text rfl hne hlen
    obtain ⟨b', hb', hpre⟩ := formatScratch_spec s.pcCliScratchBuffer
      (setText pcKey pcValue (kvStringToKey cfg pcKey) p)
    obtain rfl := Except.ok.inj (hb.symm.trans hb')
    rw [List.take_of_length_le (by omega)] at hpre
    have htake := List.prefix_iff_eq_take.mp ((List.prefix_append _ _).trans hpre)
    rw [← hcs, Nat.min_eq_left (by omega), if_pos (List.length_pos_iff.mpr hne), ← htake]

theorem length_unsignedText (x : UInt32) : (decimalText x.toNat).length ≤ 11 := by
  have hlt := x.toNat_lt
  have hdecimal := length_decimalText_le (k := 10) (n := x.toNat) (by decide) (by omega)
  omega

theorem length_numberLine (pcKey : CString) (number : List UInt8) :
    (numberLine pcKey number).length = pcKey.length + number.length + 3 := by
  have hequals : (ascii "=").length = 1 := rfl
  have heol : (ascii "\r\n").length = 2 := rfl
  simp only [numberLine, List.length_append, hequals, heol, CString.length]
  omega

theorem length_stringLine (pcKey pcValue : CString) :
    (stringLine pcKey pcValue).length = pcKey.length + pcValue.length + 5 := by
  have hopen : (ascii "=\"").length = 2 := rfl
  have hclose : (ascii "\"\r\n").length = 3 := rfl
  simp only [stringLine, List.length_append, hopen, hclose, CString.length]
  omega

theorem length_notRecognized (pcKey : CString) :
    (notRecognized pcKey).length = pcKey.length + 34 := by
  have hbefore : (ascii "Error: key: ").length = 12 := rfl
  have hafter : (ascii " was not recognized.\r\n").length = 22 := rfl
  simp only [notRecognized, List.length_append, hbefore, hafter, CString.length]
  omega

theorem length_notValid (pcKey pcValue : CString) :
    (notValid pcKey pcValue).length = pcKey.length + pcValue.length + 39 := by
  have hbefore : (ascii "Error: value: ").length = 14 := rfl
  have hbetween : (ascii " is not valid for key: ").length = 23 := rfl
  have hafter : (ascii "\r\n").length = 2 := rfl
  simp only [notValid, List.length_append, hbefore, hbetween, hafter, CString.length]
  omega

theorem setNumber_text {accepted : Bool} {set : Except Stop (Bool × KVStoreCache n)}
    {number : List UInt8} {cache : KVStoreCache n} {p : Parsed n}
    (h : setNumber cache pcKey accepted set number = .ok p) :
    p.xParseResult = true → p.text = numberLine pcKey number := by
  rw [setNumber] at h
  split at h
  · obtain ⟨r, -, rfl⟩ := map_eq_ok h
    exact fun _ => rfl
  · exact fun hr => by rw [← Except.ok.inj h] at hr; cases hr

theorem parseAndSet_text {cache : KVStoreCache n} {xKey : Nat} {xKvType : KVStoreValueType}
    {p : Parsed n} (h : parseAndSet cfg cache pcKey pcValue xKey xKvType = .ok p)
    (hresult : p.xParseResult = true) :
    (∃ number, number.length ≤ 11 ∧ p.text = numberLine pcKey number) ∨
      p.text = stringLine pcKey pcValue := by
  cases xKvType with
  | kvTypeBaseT | kvTypeInt32 =>
    exact .inl ⟨_, length_integerText _, setNumber_text h hresult⟩
  | kvTypeUBaseT | kvTypeUInt32 =>
    exact .inl ⟨_, length_unsignedText _, setNumber_text h hresult⟩
  | kvTypeString | kvTypeBlob =>
    obtain ⟨r, -, rfl⟩ := map_eq_ok h
    exact .inr rfl
  | kvTypeNone | other =>
    rw [← Except.ok.inj h] at hresult
    cases hresult

theorem length_setText {cache : KVStoreCache n} {xKey : Nat} {xKvType : KVStoreValueType}
    {p : Parsed n} (h : parseAndSet cfg cache pcKey pcValue xKey xKvType = .ok p) :
    0 < (setText pcKey pcValue xKey p : List UInt8).length ∧
      (setText pcKey pcValue xKey p).length ≤ pcKey.length + pcValue.length + 39 := by
  have hstring := length_stringLine pcKey pcValue
  have hkey := length_notRecognized pcKey
  have hvalue := length_notValid pcKey pcValue
  unfold setText
  split
  · next hresult =>
    obtain ⟨number, hnumber, htext⟩ | htext := parseAndSet_text h hresult
    · have hlen := length_numberLine pcKey number
      rw [htext]
      omega
    · rw [htext, hstring]
      omega
  · split
    · rw [hkey]
      omega
    · rw [hvalue]
      omega

theorem readArgv_of_lt {i : Nat} (h : i < ppcArgv.length) :
    readArgv ppcArgv i = .ok (ppcArgv[i]) := by
  rw [readArgv, List.getElem?_eq_getElem h]

/-- The words of a command line, each shorter than the line. -/
def ShortWords (ppcArgv : List (Option CString)) : Prop :=
  ∀ p ∈ ppcArgv, ∃ word, p = some word ∧ word.length < cliInputLineLenMax

theorem confSafe_set (hwords : ShortWords ppcArgv) (hkey : keyArgIdx < ppcArgv.length) :
    ConfSafe (atOnce (vSubCommandSetConfig cfg s ppcArgv)) := by
  obtain ⟨key, hpkey, hlkey⟩ := hwords _ (List.getElem_mem hkey)
  have hset (value : CString) (hvalue : value.length < cliInputLineLenMax) :
      ConfSafe (atOnce (setConfig cfg s key value)) := by
    refine confSafe_atOnce (contained_setConfig cfg s key value) fun cs s' hcs => ?_
    obtain ⟨p, hp, -, hwrite⟩ := setConfig_write hcs
    obtain ⟨hpos, hle⟩ := length_setText hp
    have hmax : cliInputLineLenMax = 128 := rfl
    have hfit : (setText key value (kvStringToKey cfg key) p).length < cliOutputScratchBufLen := by
      have hsize : cliOutputScratchBufLen = 512 := rfl
      omega
    rw [hwrite _ rfl (List.length_pos_iff.mp hpos) hfit]
    intro c hc
    rw [List.mem_singleton.mp hc]
    exact List.prefix_refl _
  have hread : ∃ value : CString, value.length < cliInputLineLenMax ∧
      readValue ppcArgv = .ok (some value) := by
    rw [readValue]
    by_cases hargc : valueArgIdx < ppcArgv.length
    · obtain ⟨value, hpvalue, hlvalue⟩ := hwords _ (List.getElem_mem hargc)
      exact ⟨value, hlvalue, by rw [if_pos hargc, readArgv_of_lt hargc, hpvalue]⟩
    · exact ⟨⟨[], List.not_mem_nil⟩, by decide, if_neg hargc⟩
  obtain ⟨value, hvalue, hread⟩ := hread
  have hrun : vSubCommandSetConfig cfg s ppcArgv = setConfig cfg s key value := by
    unfold vSubCommandSetConfig
    rw [readArgv_of_lt hkey, hpkey, hread]
    rfl
  rw [hrun]
  exact hset value hvalue

/-- Without a word for the key, `ppcArgv` is read behind its end. -/
theorem set_argvBound (h : ppcArgv.length ≤ keyArgIdx) :
    vSubCommandSetConfig cfg s ppcArgv = .error .argvBound := by
  unfold vSubCommandSetConfig
  rw [readArgv, List.getElem?_eq_none h]
  rfl

theorem confSafe_commit : ConfSafe (atOnce (vSubCommandCommitConfig cfg lfs s)) := by
  refine confSafe_atOnce ((contained_stop _).bind fun _ _ => contained_ok _) fun cs s' h => ?_
  obtain ⟨⟨result, files⟩, -, hend⟩ := bind_eq_ok h
  obtain ⟨rfl, -⟩ := Prod.mk.inj (Except.ok.inj hend)
  intro c hc
  rw [List.mem_singleton.mp hc]
  exact List.mem_append_right _ (List.mem_singleton.mpr rfl)

/-- The command is safe unless it is to set a key that is not there. -/
theorem confSafe_iff (hkeys : KeysFit cfg) (hwords : ShortWords ppcArgv) :
    ConfSafe (vCommandConfigure cfg lfs s ppcArgv) ↔
      ¬ (ppcArgv.length = 2 ∧
        ∃ pcMode : CString, ppcArgv[1]? = some (some pcMode) ∧ pcMode.bytes = ascii "set") := by
  have hhelp : ConfSafe (([.print (xCommandDefConf.pcHelpString.bytes ++ [0])], .ok s) :
      List ConsoleCall × Except ConfFault (ConfState n)) := by
    refine confSafe_of_contained (fun c hc => ?_) (contained_ok _)
    rw [List.mem_singleton.mp hc]
    exact List.mem_append_right _ (List.mem_singleton.mpr rfl)
  unfold vCommandConfigure
  by_cases hmode : modeArgIdx < ppcArgv.length
  · obtain ⟨pcMode, hpmode, -⟩ := hwords _ (List.getElem_mem hmode)
    have hread : (readArgv ppcArgv modeArgIdx).bind deref = .ok pcMode := by
      rw [readArgv_of_lt hmode, hpmode]
      rfl
    have hget : ppcArgv[1]? = some (some pcMode) :=
      (List.getElem?_eq_getElem hmode).trans (congrArg some hpmode)
    rw [if_pos hmode, hread]
    simp only [hget, Option.some.injEq, exists_eq_left']
    by_cases hisget : pcMode.bytes = ascii "get"
    · rw [if_pos hisget]
      refine iff_of_true ?_ fun h => absurd (hisget.symm.trans h.2) (by decide)
      split
      · next hkey =>
        obtain ⟨pcKey, hpkey, -⟩ := hwords _ (List.getElem_mem hkey)
        have hderef : (readArgv ppcArgv keyArgIdx).bind deref = .ok pcKey := by
          rw [readArgv_of_lt hkey, hpkey]
          rfl
        rw [hderef]
        exact confSafe_get hkeys s pcKey
      · exact confSafe_getAll hkeys _ s
    · rw [if_neg hisget]
      by_cases hset : pcMode.bytes = ascii "set"
      · rw [if_pos hset, and_iff_left hset]
        by_cases hkey : keyArgIdx < ppcArgv.length
        · refine iff_of_true (confSafe_set hwords hkey) fun h => ?_
          rw [h] at hkey
          exact absurd hkey (by decide)
        · have htwo : ppcArgv.length = 2 := Nat.le_antisymm (Nat.not_lt.mp hkey) hmode
          refine iff_of_false (fun h => h.2.1 ?_) (not_not.mpr htwo)
          rw [set_argvBound (Nat.not_lt.mp hkey)]
          rfl
      · rw [if_neg hset]
        refine iff_of_true ?_ fun h => hset h.2
        split
        · exact confSafe_commit
        · exact hhelp
  · rw [if_neg hmode]
    refine iff_of_true hhelp fun h => hmode ?_
    rw [h.1]
    decide

end command

section line

variable {xRegisteredCommands : List Command} {line : CString} {pxCommand : Command}

/-- The strings of a call are the words of its line. -/
theorem ppcArgv_of_line {call : CommandCall}
    (hargv : call.pcArgv = (words isBlank line.bytes).map fun w => some w.start)
    (hstrings : ∀ w ∈ words isBlank line.bytes,
      (CString.ofBytes (call.memory.drop w.start)).bytes = w.text) :
    call.ppcArgv.map (Option.map CString.bytes) =
      (words isBlank line.bytes).map fun w => some w.text := by
  rw [CommandCall.ppcArgv, hargv, List.map_map, List.map_map]
  apply List.map_congr_left
  intro w hw
  exact congrArg some (hstrings w hw)

theorem shortWords_of_line (hline : line.length < cliInputLineLenMax)
    {ppcArgv : List (Option CString)}
    (h : ppcArgv.map (Option.map CString.bytes) =
      (words isBlank line.bytes).map fun w => some w.text) : ShortWords ppcArgv := by
  intro p hp
  have hmem := List.mem_map_of_mem (f := Option.map CString.bytes) hp
  rw [h] at hmem
  obtain ⟨w, hw, hpw⟩ := List.mem_map.mp hmem
  cases p with
  | none => cases hpw
  | some word =>
    have htext : word.bytes = w.text := (Option.some.inj hpw).symm
    refine ⟨word, rfl, Nat.lt_of_le_of_lt ?_ hline⟩
    rw [CString.length, htext]
    exact length_text_le hw

/-- The arguments of which the second is `set` and the last are those of two words. -/
theorem setWithoutKey_iff {ppcArgv : List (Option CString)} {texts : List (List UInt8)}
    {name : List UInt8} (h : ppcArgv.map (Option.map CString.bytes) = (name :: texts).map some) :
    (ppcArgv.length = 2 ∧
        ∃ pcMode : CString, ppcArgv[1]? = some (some pcMode) ∧ pcMode.bytes = ascii "set") ↔
      name :: texts = [name, ascii "set"] := by
  have hlen := congrArg List.length h
  have hsecond := congrArg (·[1]?) h
  simp only [List.length_map, List.length_cons] at hlen
  simp only [List.getElem?_map, List.getElem?_cons_succ] at hsecond
  rw [List.cons.injEq, and_iff_right rfl]
  constructor
  · rintro ⟨htwo, pcMode, hmode, hset⟩
    obtain ⟨text, rfl⟩ : ∃ text, texts = [text] := List.length_eq_one_iff.mp (by omega)
    rw [hmode, Option.map_some, Option.map_some, hset] at hsecond
    simpa using hsecond.symm
  · rintro rfl
    refine ⟨hlen, ?_⟩
    obtain ⟨p, hp, hpset⟩ := Option.map_eq_some_iff.mp hsecond
    obtain ⟨pcMode, rfl, hset⟩ := Option.map_eq_some_iff.mp hpset
    exact ⟨pcMode, hp, hset⟩

/-- A line that runs the command keeps it within its arguments and its buffer unless it is only the
two words `conf set`. -/
theorem conf_safe_iff (hkeys : KeysFit cfg) (lfs : Fin n → LfsWriteAnswers) (s : ConfState n)
    (line : CString) (beyond : List UInt8) (hline : line.length < cliInputLineLenMax)
    (hfind : prvFindMatchingCommand xRegisteredCommands line = some xCommandDefConf) :
    ∃ call, freeRtosCliProcessCommand xRegisteredCommands line beyond = .ok (.called call) ∧
      call.pxCommand = xCommandDefConf ∧
      (ConfSafe (vCommandConfigure cfg lfs s call.ppcArgv) ↔
        (words isBlank line.bytes).map Span.text ≠ [ascii "conf", ascii "set"]) := by
  obtain ⟨rest, -, -, -, hwords⟩ := words_of_prvFindMatchingCommand (by decide) (by decide) hfind
  have hne : words isBlank line.bytes ≠ [] := by
    rw [hwords]
    exact List.cons_ne_nil _ _
  obtain ⟨call, hcall, hcommand, hargv, hstrings⟩ :=
    freeRtosCliProcessCommand_spec beyond hfind hne
  have hppc := ppcArgv_of_line hargv hstrings
  refine ⟨call, hcall, hcommand, ?_⟩
  rw [confSafe_iff hkeys (shortWords_of_line hline hppc)]
  have hargs : call.ppcArgv.map (Option.map CString.bytes) = (ascii "conf" ::
      (wordsAt isBlank (0 + (ascii "conf").length) rest).map Span.text).map some := by
    rw [hppc, hwords, List.map_cons, List.map_cons, List.map_map]
    rfl
  rw [setWithoutKey_iff hargs, hwords]
  rfl

end line

section runs

/-- The state of the repository's build after power-on. -/
def bootState : ConfState 6 where
  cache := emptyStore
  files := fun _ => none
  pcCliScratchBuffer := ⟨List.replicate cliOutputScratchBufLen 0, List.length_replicate⟩

def lfsOk : LfsWriteAnswers := ⟨true, none, none, true⟩

theorem conf_safe_get :
    ∃ call, freeRtosCliProcessCommand [xHelpCommand, xCommandDefConf]
        ⟨ascii "conf get", by decide⟩ [] = .ok (.called call) ∧ call.pxCommand = xCommandDefConf ∧
      (ConfSafe (vCommandConfigure (kvStoreBuild 0xFFF80010) (fun _ => lfsOk) bootState
          call.ppcArgv) ↔
        (words isBlank (ascii "conf get")).map Span.text ≠ [ascii "conf", ascii "set"]) :=
  conf_safe_iff (show KeysFit (kvStoreBuild 0xFFF80010) by decide) (fun _ => lfsOk) bootState
    ⟨ascii "conf get", by decide⟩ [] (by decide) rfl

/-- `conf set` reads the key behind its two arguments. -/
theorem confSet_not_safe :
    ∃ call, freeRtosCliProcessCommand [xHelpCommand, xCommandDefConf]
        ⟨ascii "conf set", by decide⟩ [] = .ok (.called call) ∧ call.pxCommand = xCommandDefConf ∧
      ¬ ConfSafe (vCommandConfigure (kvStoreBuild 0xFFF80010) (fun _ => lfsOk) bootState
        call.ppcArgv) :=
  ⟨_, rfl, rfl, fun h => h.2.1 rfl⟩

end runs

end RenesasDemo.Cli
