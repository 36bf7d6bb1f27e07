import RenesasDemo.Cli.ConfigureDisplay

namespace RenesasDemo.Cli

open Framework KVStore

variable {n : Nat} {cfg : KVStoreConfig n}

/-- The types whose values are numbers. -/
def IsNumber : KVStoreValueType → Prop
  | .kvTypeBaseT | .kvTypeUBaseT | .kvTypeInt32 | .kvTypeUInt32 => True
  | _ => False

def Representable : KVStoreValueType → Int → Prop
  | .kvTypeBaseT, z | .kvTypeInt32, z => -2 ^ 31 ≤ z ∧ z < 2 ^ 31
  | .kvTypeUBaseT, z | .kvTypeUInt32, z => 0 ≤ z ∧ z < 2 ^ 32
  | _, _ => False

/-- The whole word is a numeral for a value of the type. -/
def ValidNumber (type : KVStoreValueType) (pcValue : CString) : Prop :=
  ∃ z, numeralValue? pcValue.bytes = some z ∧ Representable type z

/-- The line that shows a key with the value of a word. -/
def shownLine (type : KVStoreValueType) (pcKey pcValue : CString) : Option (List UInt8) :=
  match type with
  | .kvTypeBaseT | .kvTypeUBaseT | .kvTypeInt32 | .kvTypeUInt32 =>
    (numeralValue? pcValue.bytes).map fun z => numberLine pcKey (integerText z)
  | .kvTypeString | .kvTypeBlob => some (stringLine pcKey pcValue)
  | .kvTypeNone | .other _ => none

def ErrorPrinted (pcKey pcValue : CString) (cs : List ConsoleCall) : Prop :=
  ∃ b, cs = [.write b (notRecognized pcKey)] ∨ cs = [.write b (notValid pcKey pcValue)]

/-- A word that is no value of a number key is refused, and what is accepted is what is shown. -/
structure ConfSetRight (cfg : KVStoreConfig n) (s : ConfState n) (pcKey pcValue : CString) :
    Prop where
  refuses : ∀ type, cfg.keyType (kvStringToKey cfg pcKey) = some type → IsNumber type →
    ¬ ValidNumber type pcValue → ∃ cs s', setConfig cfg s pcKey pcValue = .ok (cs, s') ∧
      ErrorPrinted pcKey pcValue cs ∧ s'.cache = s.cache
  shows : ∀ cs s', setConfig cfg s pcKey pcValue = .ok (cs, s') →
    ¬ ErrorPrinted pcKey pcValue cs → ∃ type line,
      cfg.keyType (kvStringToKey cfg pcKey) = some type ∧
      shownLine type pcKey pcValue = some line ∧ Shows cfg s' pcKey line

section numbers

theorem integerText_natCast (m : Nat) : integerText m = decimalText m := by
  rw [integerText, if_neg (by omega), Int.natAbs_natCast]

/-- Only 0 has the text of 0. -/
theorem eq_zero_of_integerText {z : Int} (h : integerText z = decimalText 0) : z = 0 := by
  have hzero : decimalText 0 = [0x30] := by
    rw [decimalText]
    rfl
  rw [hzero] at h
  unfold integerText at h
  split at h
  · cases h
  · rw [decimalText] at h
    split at h
    · next hlt =>
      have hval := congrArg UInt8.toNat (List.cons.inj h).1
      rw [UInt8.toNat_ofNat'] at hval
      simp at hval
      omega
    · have hlen := congrArg List.length h
      have hpos := length_decimalText_pos (z.natAbs / 10)
      simp only [List.length_append, List.length_singleton] at hlen
      omega

/-- What the setters of numbers make of a word. -/
def wordValue (type : KVStoreValueType) (v : List UInt8) : Option KVValue :=
  match type with
  | .kvTypeBaseT => some (.base (strtol v))
  | .kvTypeUBaseT => some (.uBase (strtoul v))
  | .kvTypeInt32 => some (.int32 (strtol v))
  | .kvTypeUInt32 => some (.uint32 (strtoul v))
  | _ => none

def wordText : KVValue → List UInt8
  | .base x | .int32 x => integerText x.toInt
  | .uBase x | .uint32 x => decimalText x.toNat
  | .string _ | .blob _ _ => []

variable {cache : KVStoreCache n} {k : Fin n} {pcKey pcValue : CString}
  {type : KVStoreValueType}

theorem represents_none (hvalid : cache.Valid) : Represents cfg cache (fun _ => none) where
  valid := hvalid
  keyType _ _ h := by cases h
  type _ _ h := by cases h
  contents _ _ h := by cases h

theorem target_of_value {call : SetCall} {v : KVValue} (hvalue : call.value = some v)
    (hkey : call.key = k.val) (htype : (cfg.kvStoreDefaults k).type = v.type) :
    call.target cfg = some (k, v) := by
  have hk : (⟨k.val, k.isLt⟩ : Fin n) = k := rfl
  simp only [SetCall.target, hvalue, Option.bind_some, hkey, dif_pos k.isLt, hk, if_pos htype]

theorem set_number (hvalid : cache.Valid) (call : SetCall) {v : KVValue}
    (hvalue : call.value = some v) (hkey : call.key = k.val)
    (htype : (cfg.kvStoreDefaults k).type = v.type) (hlen : v.bytes.length = 4) :
    ∃ cache', call.run cfg cache = .ok (true, cache') ∧
      Represents cfg cache' (Function.update (fun _ => none) k (some v)) := by
  have htarget := target_of_value hvalue hkey htype
  have hserved : call.Served cfg cache := by
    intro k' v' htarget' s1 _ hbig
    obtain ⟨-, rfl⟩ := Prod.mk.inj (Option.some.inj (htarget.symm.trans htarget'))
    exact absurd hbig (by rw [hlen]; decide)
  obtain ⟨cache', hrun, heff⟩ := (represents_none hvalid).accepted htarget hserved
  exact ⟨cache', hrun, (represents_none hvalid).write htype heff⟩

theorem setNumber_accepted {accepted : Bool} (h : accepted = true)
    {set : Except Stop (Bool × KVStoreCache n)} {cache' : KVStoreCache n} {b : Bool}
    (hset : set = .ok (b, cache')) (number : List UInt8) :
    setNumber cache pcKey accepted set number = .ok ⟨true, numberLine pcKey number, cache'⟩ := by
  rw [setNumber, if_pos h, hset]
  rfl

/-- Every word is accepted for a number, and its value is stored. -/
theorem parseAndSet_number (pcKey pcValue : CString) (hvalid : cache.Valid)
    (htype : (cfg.kvStoreDefaults k).type = type) (hnumber : IsNumber type) :
    ∃ v cache', wordValue type pcValue.bytes = some v ∧
      parseAndSet cfg cache pcKey pcValue k.val type =
        .ok ⟨true, numberLine pcKey (wordText v), cache'⟩ ∧
      Represents cfg cache' (Function.update (fun _ => none) k (some v)) := by
  have hsigned : (strtolEnd pcValue.bytes ≠ 0 || strtol pcValue.bytes = 0) = true := by
    simpa using strtol_accepted pcValue.bytes
  have hunsigned : (strtolEnd pcValue.bytes ≠ 0 || strtoul pcValue.bytes = 0) = true := by
    simpa using strtoul_accepted pcValue.bytes
  cases type with
  | kvTypeBaseT =>
    obtain ⟨cache', hrun, hrep⟩ := set_number hvalid
      (.setBase k.val (strtol pcValue.bytes)) rfl rfl htype (toBytes_length _ _)
    exact ⟨_, cache', rfl, setNumber_accepted hsigned hrun _, hrep⟩
  | kvTypeInt32 =>
    obtain ⟨cache', hrun, hrep⟩ := set_number hvalid
      (.setInt32 k.val (strtol pcValue.bytes)) rfl rfl htype (toBytes_length _ _)
    exact ⟨_, cache', rfl, setNumber_accepted hsigned hrun _, hrep⟩
  | kvTypeUBaseT =>
    obtain ⟨cache', hrun, hrep⟩ := set_number hvalid
      (.setUBase k.val (strtoul pcValue.bytes)) rfl rfl htype (toBytes_length _ _)
    exact ⟨_, cache', rfl, setNumber_accepted hunsigned hrun _, hrep⟩
  | kvTypeUInt32 =>
    obtain ⟨cache', hrun, hrep⟩ := set_number hvalid
      (.setUInt32 k.val (strtoul pcValue.bytes)) rfl rfl htype (toBytes_length _ _)
    exact ⟨_, cache', rfl, setNumber_accepted hunsigned hrun _, hrep⟩
  | _ => exact hnumber.elim

/-- The text of a number that a numeral stands for. -/
theorem wordText_of_numeral {z : Int} {v : KVValue} (hz : numeralValue? pcValue.bytes = some z)
    (hrep : Representable type z) (hv : wordValue type pcValue.bytes = some v) :
    wordText v = integerText z := by
  cases type with
  | kvTypeBaseT | kvTypeInt32 =>
    obtain rfl := Option.some.inj hv
    rw [wordText, strtol_of_numeral hz hrep.1 hrep.2]
  | kvTypeUBaseT | kvTypeUInt32 =>
    obtain rfl := Option.some.inj hv
    rw [wordText, ← integerText_natCast, strtoul_of_numeral hz hrep.1 hrep.2]
  | _ => cases hv

/-- What `conf get` shows of a stored number: the number, and 0 for KV_TYPE_UBASE_T. -/
theorem shows_stored {s : ConfState n} {v : KVValue} {word : List UInt8}
    (hv : wordValue type word = some v) (htype : (cfg.kvStoreDefaults k).type = type)
    (hrep : Represents cfg s.cache (Function.update (fun _ => none) k (some v)))
    {number : List UInt8}
    (hnumber : number = if type = .kvTypeUBaseT then decimalText 0 else wordText v)
    (hfit : (numberLine (cfg.kvStoreKeyMap k) number).length < cliOutputScratchBufLen) :
    Shows cfg s (cfg.kvStoreKeyMap k) (numberLine (cfg.kvStoreKeyMap k) number) := by
  have hstored : Function.update (fun _ => none) k (some v) k = some v := Function.update_self ..
  cases type with
  | kvTypeBaseT =>
    obtain rfl := Option.some.inj hv
    refine shows_number (by rw [kvStoreGetType_map, htype]; rfl) ?_ ?_ hfit
    · rw [kvStringToKey_map, kvStoreGetBase, hrep.getWord k.isLt hstored rfl htype, hnumber]
      simp [Except.map, prvSignedWord, wordText]
    · rw [hnumber]
      exact noNul_integerText _
  | kvTypeInt32 =>
    obtain rfl := Option.some.inj hv
    refine shows_number (by rw [kvStoreGetType_map, htype]; rfl) ?_ ?_ hfit
    · rw [kvStringToKey_map, kvStoreGetInt32, hrep.getWord k.isLt hstored rfl htype, hnumber]
      simp [Except.map, prvSignedWord, wordText]
    · rw [hnumber]
      exact noNul_integerText _
  | kvTypeUInt32 =>
    obtain rfl := Option.some.inj hv
    refine shows_number (by rw [kvStoreGetType_map, htype]; rfl) ?_ ?_ hfit
    · rw [kvStringToKey_map, kvStoreGetUInt32, hrep.getWord k.isLt hstored rfl htype, hnumber]
      rfl
    · rw [hnumber]
      exact noNul_decimalText _
  | kvTypeUBaseT =>
    refine shows_number (by rw [kvStoreGetType_map, htype]; rfl) ?_ ?_ hfit
    · have hother : cfg.keyType k.val ≠ some .kvTypeBaseT := by
        rw [keyType_val, htype]
        simp
      rw [kvStringToKey_map, kvStoreGetUBase, prvGetWord_other hother, hnumber]
      rfl
    · rw [hnumber]
      exact noNul_decimalText _
  | _ => cases hv

end numbers

section set

variable {s : ConfState n} {k : Fin n} {pcKey pcValue : CString}

theorem numberLine_ne (pcKey pcValue : CString) {number : List UInt8} (h : number.length ≤ 11) :
    numberLine pcKey number ≠ notRecognized pcKey ∧
      numberLine pcKey number ≠ notValid pcKey pcValue := by
  have hline := length_numberLine pcKey number
  refine ⟨fun heq => ?_, fun heq => ?_⟩
  · rw [heq, length_notRecognized] at hline
    omega
  · rw [heq, length_notValid] at hline
    omega

theorem stringLine_ne (pcKey pcValue : CString) :
    stringLine pcKey pcValue ≠ notRecognized pcKey ∧
      stringLine pcKey pcValue ≠ notValid pcKey pcValue := by
  have hline := length_stringLine pcKey pcValue
  refine ⟨fun heq => ?_, fun heq => ?_⟩
  · -- one ends with the quote, the other with a full stop
    have hsplit : pcKey.bytes ++ ascii "=\"" ++ pcValue.bytes ++ ascii "\"\r\n" =
        ascii "Error: key: " ++ pcKey.bytes ++ ascii " was not recognized" ++ ascii ".\r\n" := by
      rw [List.append_assoc _ (ascii " was not recognized")]
      exact heq
    have hend : ascii "\"\r\n" = ascii ".\r\n" := List.append_inj_right' hsplit rfl
    exact absurd hend (by decide)
  · rw [heq, length_notValid] at hline
    omega

theorem setConfig_ok {p : Parsed n}
    (hp : parseAndSet cfg s.cache pcKey pcValue (kvStringToKey cfg pcKey)
      (kvStoreGetType cfg (kvStringToKey cfg pcKey)) = .ok p) :
    ∃ cs s', setConfig cfg s pcKey pcValue = .ok (cs, s') ∧ s'.cache = p.cache ∧
      (ErrorPrinted pcKey pcValue cs ↔ p.xParseResult = false) := by
  obtain ⟨text, htext⟩ : ∃ text, setText pcKey pcValue (kvStringToKey cfg pcKey) p = text :=
    ⟨_, rfl⟩
  obtain ⟨b, hb, -⟩ := formatScratch_spec s.pcCliScratchBuffer text
  obtain ⟨hpos, -⟩ := length_setText hp
  rw [htext] at hpos
  have hwritten : 0 < min text.length cliOutputScratchBufLen := Nat.lt_min.mpr ⟨hpos, by decide⟩
  refine ⟨[.write (b.bytes.take (min text.length cliOutputScratchBufLen)) text],
    { s with cache := p.cache, pcCliScratchBuffer := b }, ?_, rfl, ?_⟩
  · simp only [setConfig, hp, htext, Except.mapError, bind, Except.bind, hb, if_pos hwritten]
    rfl
  have herror : ErrorPrinted pcKey pcValue
      [.write (b.bytes.take (min text.length cliOutputScratchBufLen)) text] ↔
        text = notRecognized pcKey ∨ text = notValid pcKey pcValue := by
    simp only [ErrorPrinted, List.cons.injEq, and_true, ConsoleCall.write.injEq]
    exact ⟨fun ⟨_, h⟩ => h.imp And.right And.right,
      fun h => ⟨_, h.imp (fun h => ⟨rfl, h⟩) fun h => ⟨rfl, h⟩⟩⟩
  rw [herror, ← htext, setText]
  cases hresult : p.xParseResult with
  | false =>
    rw [if_neg (by decide)]
    refine iff_of_true ?_ rfl
    split
    · exact .inl rfl
    · exact .inr rfl
  | true =>
    rw [if_pos rfl]
    refine iff_of_false (not_or.mpr ?_) (by decide)
    obtain ⟨number, hnumber, hline⟩ | hline := parseAndSet_text hp hresult
    · rw [hline]
      exact numberLine_ne pcKey pcValue hnumber
    · rw [hline]
      exact stringLine_ne pcKey pcValue

/-- With the value parsed, what is left to ask of a set of a key. -/
theorem confSetRight_parsed {p : Parsed n}
    (hp : parseAndSet cfg s.cache (cfg.kvStoreKeyMap k) pcValue k.val
      (cfg.kvStoreDefaults k).type = .ok p) :
    ∃ s' : ConfState n, s'.cache = p.cache ∧
      (ConfSetRight cfg s (cfg.kvStoreKeyMap k) pcValue ↔
        (IsNumber (cfg.kvStoreDefaults k).type →
          ¬ ValidNumber (cfg.kvStoreDefaults k).type pcValue →
            p.xParseResult = false ∧ p.cache = s.cache) ∧
        (p.xParseResult = true → ∃ line,
          shownLine (cfg.kvStoreDefaults k).type (cfg.kvStoreKeyMap k) pcValue = some line ∧
            Shows cfg s' (cfg.kvStoreKeyMap k) line)) := by
  have hkey := kvStringToKey_map cfg k
  rw [← kvStoreGetType_map, ← hkey] at hp
  obtain ⟨cs, s', hset, hcache, herror⟩ := setConfig_ok hp
  have htype : cfg.keyType (kvStringToKey cfg (cfg.kvStoreKeyMap k)) =
      some (cfg.kvStoreDefaults k).type := by
    rw [hkey, keyType_val]
  refine ⟨s', hcache, fun hright => ⟨fun hnumber hvalid => ?_, fun hresult => ?_⟩,
    fun ⟨hrefuses, hshows⟩ => ⟨fun type ht hnumber hvalid => ?_, fun cs' s'' hset' hok => ?_⟩⟩
  · obtain ⟨cs', s'', hset', hprinted, hsame⟩ := hright.refuses _ htype hnumber hvalid
    obtain ⟨rfl, rfl⟩ := Prod.mk.inj (Except.ok.inj (hset.symm.trans hset'))
    exact ⟨herror.mp hprinted, hcache.symm.trans hsame⟩
  · have hok : ¬ ErrorPrinted (cfg.kvStoreKeyMap k) pcValue cs := by
      rw [herror, hresult]
      decide
    obtain ⟨type, line, ht, hline, hshown⟩ := hright.shows cs s' hset hok
    obtain rfl := Option.some.inj (htype.symm.trans ht)
    exact ⟨line, hline, hshown⟩
  · obtain rfl := Option.some.inj (htype.symm.trans ht)
    obtain ⟨hresult, hsame⟩ := hrefuses hnumber hvalid
    exact ⟨cs, s', hset, herror.mpr hresult, hcache.trans hsame⟩
  · obtain ⟨rfl, rfl⟩ := Prod.mk.inj (Except.ok.inj (hset.symm.trans hset'))
    obtain ⟨line, hline, hshown⟩ := hshows (by
      rw [herror] at hok
      simpa using hok)
    exact ⟨_, line, htype, hline, hshown⟩

theorem confSetRight_stopped {e : Stop}
    (hp : parseAndSet cfg s.cache (cfg.kvStoreKeyMap k) pcValue k.val
      (cfg.kvStoreDefaults k).type = .error e)
    (hnumber : ¬ IsNumber (cfg.kvStoreDefaults k).type) :
    ConfSetRight cfg s (cfg.kvStoreKeyMap k) pcValue where
  refuses type ht h := by
    rw [kvStringToKey_map, keyType_val] at ht
    exact absurd (Option.some.inj ht ▸ h) hnumber
  shows cs s' hset := by
    obtain ⟨p, hparsed, -⟩ := setConfig_write hset
    rw [kvStringToKey_map, kvStoreGetType_val, hp] at hparsed
    cases hparsed

theorem confSetRight_unknown (hkey : kvStringToKey cfg pcKey = n) :
    ConfSetRight cfg s pcKey pcValue where
  refuses type ht := by
    rw [hkey, KVStoreConfig.keyType, dif_neg (Nat.lt_irrefl n)] at ht
    cases ht
  shows cs s' hset hok := by
    have hp : parseAndSet cfg s.cache pcKey pcValue (kvStringToKey cfg pcKey)
        (kvStoreGetType cfg (kvStringToKey cfg pcKey)) = .ok ⟨false, [], s.cache⟩ := by
      rw [hkey, kvStoreGetType_none (Nat.lt_irrefl n)]
      rfl
    obtain ⟨cs', s'', hset', -, herror⟩ := setConfig_ok hp
    obtain ⟨rfl, rfl⟩ := Prod.mk.inj (Except.ok.inj (hset.symm.trans hset'))
    exact absurd (herror.mpr rfl) hok

end set

section values

variable {s : ConfState n} {k : Fin n} {pcKey pcValue : CString} {type : KVStoreValueType}

/-- The word is a numeral for the type, of 0 for KV_TYPE_UBASE_T, and its line fits. -/
def NumberOk (type : KVStoreValueType) (pcKey pcValue : CString) : Prop :=
  ∃ z, numeralValue? pcValue.bytes = some z ∧ Representable type z ∧
    (type = .kvTypeUBaseT → z = 0) ∧
    (numberLine pcKey (integerText z)).length < cliOutputScratchBufLen

/-- The line fits, and a block that is refused unnoticed leaves a default with the same line. -/
def StringOk (cfg : KVStoreConfig n) (cache : KVStoreCache n) (k : Fin n) (pcValue : CString) :
    Prop :=
  let served := cache.AllocationSucceeds k .kvTypeString (pcValue.bytes ++ [0])
  (served ∨ cfg.ndebug = true →
    (stringLine (cfg.kvStoreKeyMap k) pcValue).length < cliOutputScratchBufLen) ∧
  (¬ served → cfg.ndebug = true →
    DefaultShown (cfg.kvStoreDefaults k) (cfg.kvStoreKeyMap k) pcValue)

/-- There is nothing to store, or the command is stopped when the block is refused. -/
def BlobOk (cfg : KVStoreConfig n) (cache : KVStoreCache n) (k : Fin n) (pcValue : CString) :
    Prop :=
  pcValue.bytes = [] ∨
    ¬ cache.AllocationSucceeds k .kvTypeBlob pcValue.bytes ∧ cfg.ndebug = false

def ConfSetOk (cfg : KVStoreConfig n) (cache : KVStoreCache n) (pcKey pcValue : CString) : Prop :=
  ∀ k, cfg.kvStoreKeyMap k = pcKey →
    (IsNumber (cfg.kvStoreDefaults k).type →
      NumberOk (cfg.kvStoreDefaults k).type pcKey pcValue) ∧
    ((cfg.kvStoreDefaults k).type = .kvTypeString → StringOk cfg cache k pcValue) ∧
    ((cfg.kvStoreDefaults k).type = .kvTypeBlob → BlobOk cfg cache k pcValue)

theorem numberLine_inj {a b : List UInt8} (h : numberLine pcKey a = numberLine pcKey b) :
    a = b := by
  rw [numberLine, numberLine] at h
  exact List.append_cancel_left (List.append_cancel_right h)

theorem shownLine_number (hnumber : IsNumber type) : shownLine type pcKey pcValue =
    (numeralValue? pcValue.bytes).map fun z => numberLine pcKey (integerText z) := by
  cases type with
  | kvTypeBaseT | kvTypeUBaseT | kvTypeInt32 | kvTypeUInt32 => rfl
  | _ => exact hnumber.elim

theorem confSet_number (pcValue : CString) (hs : s.cache.Valid)
    (hnumber : IsNumber (cfg.kvStoreDefaults k).type) :
    ConfSetRight cfg s (cfg.kvStoreKeyMap k) pcValue ↔
      NumberOk (cfg.kvStoreDefaults k).type (cfg.kvStoreKeyMap k) pcValue := by
  obtain ⟨v, cache', hv, hp, hrep⟩ :=
    parseAndSet_number (cfg.kvStoreKeyMap k) pcValue hs rfl hnumber
  obtain ⟨s', hcache, hright⟩ := confSetRight_parsed hp
  obtain rfl : s'.cache = cache' := hcache
  rw [hright, shownLine_number hnumber]
  -- whatever the word, the number stored is shown in its place
  have hshown {number : List UInt8} (hstored : number =
      if (cfg.kvStoreDefaults k).type = .kvTypeUBaseT then decimalText 0 else wordText v)
      (hfit : (numberLine (cfg.kvStoreKeyMap k) number).length < cliOutputScratchBufLen) :=
    shows_stored hv rfl hrep hstored hfit
  constructor
  · rintro ⟨hrefuses, hshows⟩
    obtain ⟨z, hz, hrange⟩ : ValidNumber (cfg.kvStoreDefaults k).type pcValue := by
      by_contra hvalid
      exact Bool.noConfusion (hrefuses hnumber hvalid).1
    obtain ⟨line, hline, hseen⟩ := hshows rfl
    rw [hz, Option.map_some] at hline
    obtain rfl := Option.some.inj hline
    refine ⟨z, hz, hrange, fun hubase => ?_, hseen.length_lt⟩
    have hpos := length_integerText_pos z
    have hfit := hseen.length_lt
    rw [length_numberLine] at hfit
    have hzero : (decimalText 0).length = 1 := by
      rw [decimalText]
      rfl
    have hother := hshown (if_pos hubase).symm (by rw [length_numberLine, hzero]; omega)
    exact eq_zero_of_integerText (numberLine_inj (hseen.unique hother))
  · rintro ⟨z, hz, hrange, hubase, hfit⟩
    refine ⟨fun _ hvalid => absurd ⟨z, hz, hrange⟩ hvalid, fun _ => ⟨_, by rw [hz]; rfl, ?_⟩⟩
    refine hshown ?_ hfit
    split
    · next htype =>
      rw [hubase htype]
      rfl
    · exact (wordText_of_numeral hz hrange hv).symm

theorem write_cases {t : KVStoreValueType} {v : List UInt8} {cache : KVStoreCache n}
    (hs : cache.Valid) (ndebug : Bool) (ht : t ≠ .kvTypeNone) (hlast : t.toNat < kvTypeLast)
    (hv : 0 < v.length) :
    (cache.AllocationSucceeds k t v ∧ ∃ c, xprvWriteCacheEntry ndebug cache k t v = .ok c ∧
      KVStoreCache.WriteEffect cache c k t v) ∨
    (¬ cache.AllocationSucceeds k t v ∧ ndebug = false ∧
      xprvWriteCacheEntry ndebug cache k t v = .error .assertFailed) ∨
    (¬ cache.AllocationSucceeds k t v ∧ ndebug = true ∧
      ∃ c, xprvWriteCacheEntry ndebug cache k t v = .ok c ∧
        (pvGetDataReadPtr c k).isNull = true) := by
  by_cases hserved : cache.AllocationSucceeds k t v
  · exact .inl ⟨hserved,
      KVStoreCache.xprvWriteCacheEntry_spec ndebug hs ht (.inr hlast) (.inr hv) hserved⟩
  · cases ndebug with
    | false => exact .inr (.inl ⟨hserved, rfl, KVStoreCache.write_refused hs ht hserved⟩)
    | true => exact .inr (.inr ⟨hserved, rfl, KVStoreCache.write_unnoticed hs ht hserved⟩)

/-- A string or a blob that is accepted is to be shown. -/
theorem confSet_accepted {text : List UInt8} {cache' : KVStoreCache n}
    (htype : (cfg.kvStoreDefaults k).type = .kvTypeString ∨
      (cfg.kvStoreDefaults k).type = .kvTypeBlob)
    (hp : parseAndSet cfg s.cache (cfg.kvStoreKeyMap k) pcValue k.val
      (cfg.kvStoreDefaults k).type = .ok ⟨true, text, cache'⟩) :
    ∃ s' : ConfState n, s'.cache = cache' ∧ (ConfSetRight cfg s (cfg.kvStoreKeyMap k) pcValue ↔
      Shows cfg s' (cfg.kvStoreKeyMap k) (stringLine (cfg.kvStoreKeyMap k) pcValue)) := by
  obtain ⟨s', hcache, hright⟩ := confSetRight_parsed hp
  have hline : shownLine (cfg.kvStoreDefaults k).type (cfg.kvStoreKeyMap k) pcValue =
      some (stringLine (cfg.kvStoreKeyMap k) pcValue) := by
    obtain htype | htype := htype <;> rw [htype] <;> rfl
  have hnumber : ¬ IsNumber (cfg.kvStoreDefaults k).type := by
    obtain htype | htype := htype <;> rw [htype] <;> exact id
  refine ⟨s', hcache, ?_⟩
  rw [hright, hline]
  constructor
  · rintro ⟨-, hshows⟩
    obtain ⟨line, hline, hshown⟩ := hshows rfl
    exact Option.some.inj hline ▸ hshown
  · exact fun hshown => ⟨fun h => absurd h hnumber, fun _ => ⟨_, rfl, hshown⟩⟩

theorem not_isNumber_string {t : KVStoreValueType} (h : t = .kvTypeString ∨ t = .kvTypeBlob) :
    ¬ IsNumber t := by
  obtain rfl | rfl := h <;> exact id

theorem confSet_string (hs : s.cache.Valid)
    (htype : (cfg.kvStoreDefaults k).type = .kvTypeString) :
    ConfSetRight cfg s (cfg.kvStoreKeyMap k) pcValue ↔ StringOk cfg s.cache k pcValue := by
  have htarget : (SetCall.setString k.val (some pcValue)).target cfg =
      some (k, .string pcValue) := target_of_value rfl rfl htype
  have hrun : kvStoreSetString cfg s.cache k.val (some pcValue) =
      (xprvWriteCacheEntry cfg.ndebug s.cache k .kvTypeString (pcValue.bytes ++ [0])).map
        fun c => (true, c) := SetCall.run_of_target htarget
  have hparse {r : Except Stop (KVStoreCache n)}
      (hr : xprvWriteCacheEntry cfg.ndebug s.cache k .kvTypeString (pcValue.bytes ++ [0]) = r) :
      parseAndSet cfg s.cache (cfg.kvStoreKeyMap k) pcValue k.val (cfg.kvStoreDefaults k).type =
        r.map fun c => ⟨true, stringLine (cfg.kvStoreKeyMap k) pcValue, c⟩ := by
    rw [htype, parseAndSet, hrun, hr]
    cases r <;> rfl
  obtain ⟨hserved, c, hwrite, heff⟩ | ⟨hrefused, hndebug, hwrite⟩ |
      ⟨hrefused, hndebug, c, hwrite, hnull⟩ :=
    write_cases (k := k) (t := .kvTypeString) (v := pcValue.bytes ++ [0]) hs cfg.ndebug (by simp)
      (by decide) (by simp)
  · obtain ⟨s', rfl, hright⟩ := confSet_accepted (.inl htype) (hparse hwrite)
    have hrep : Represents cfg s'.cache
        (Function.update (fun _ => none) k (some (.string pcValue))) :=
      (represents_none hs).write htype heff
    rw [hright, StringOk]
    constructor
    · exact fun hshown => ⟨fun _ => hshown.length_lt, fun h => absurd hserved h⟩
    · rintro ⟨hfits, -⟩
      have hfit := hfits (.inl hserved)
      have hline := length_stringLine (cfg.kvStoreKeyMap k) pcValue
      have hread := readsString_stored hrep (Function.update_self ..)
        (show pcValue.length < stringRoom (cfg.kvStoreKeyMap k) by rw [stringRoom]; omega)
      have hshown := get_string (.inl htype) hread (by omega) (Nat.min_le_left _ _)
      rw [stringShown_value hfit, ofBytes_of_noNul (noNul_stringLine _ _)] at hshown
      exact hshown
  · refine iff_of_true (confSetRight_stopped (hparse hwrite) (not_isNumber_string (.inl htype))) ?_
    refine ⟨fun h => ?_, fun _ h => ?_⟩
    · rw [hndebug] at h
      exact absurd h (by simpa using hrefused)
    · rw [hndebug] at h
      cases h
  · obtain ⟨s', rfl, hright⟩ := confSet_accepted (.inl htype) (hparse hwrite)
    rw [hright, StringOk]
    constructor
    · exact fun hshown => ⟨fun _ => hshown.length_lt,
        fun _ _ => (shows_default_iff htype hnull hshown.length_lt).mp hshown⟩
    · rintro ⟨hfits, hdefault⟩
      exact (shows_default_iff htype hnull (hfits (.inr hndebug))).mpr (hdefault hrefused hndebug)

theorem blob_not_shown (htype : (cfg.kvStoreDefaults k).type = .kvTypeBlob)
    (hne : pcValue.bytes ≠ []) :
    ¬ Shows cfg s (cfg.kvStoreKeyMap k) (stringLine (cfg.kvStoreKeyMap k) pcValue) := by
  intro hshown
  obtain ⟨nothing, hnothing⟩ : ∃ nothing : CString, nothing.bytes = [] :=
    ⟨⟨[], List.not_mem_nil⟩, rfl⟩
  have hzero : nothing.length = 0 := congrArg List.length hnothing
  have hpos : 0 < pcValue.length := List.length_pos_of_ne_nil hne
  have hlen := length_stringLine (cfg.kvStoreKeyMap k) pcValue
  have hlenNothing := length_stringLine (cfg.kvStoreKeyMap k) nothing
  have hfit := hshown.length_lt
  have hempty := get_string (.inr htype) (readsString_blob s.cache htype) (by omega)
    (Nat.min_le_left _ _)
  have hnone : stringShown (cfg.kvStoreKeyMap k) [] 0 =
      stringLine (cfg.kvStoreKeyMap k) nothing := by
    rw [← hnothing, ← hzero]
    exact stringShown_value (by omega)
  rw [hnone, ofBytes_of_noNul (noNul_stringLine _ _)] at hempty
  rw [hshown.unique hempty] at hlen
  omega

theorem confSet_blob (hs : s.cache.Valid) (htype : (cfg.kvStoreDefaults k).type = .kvTypeBlob) :
    ConfSetRight cfg s (cfg.kvStoreKeyMap k) pcValue ↔ BlobOk cfg s.cache k pcValue := by
  by_cases hempty : pcValue.bytes = []
  · refine iff_of_true ?_ (.inl hempty)
    have hp : parseAndSet cfg s.cache (cfg.kvStoreKeyMap k) pcValue k.val
        (cfg.kvStoreDefaults k).type =
          .ok ⟨false, stringLine (cfg.kvStoreKeyMap k) pcValue, s.cache⟩ := by
      rw [htype, parseAndSet, kvStoreSetBlob, hempty]
      rfl
    obtain ⟨s', -, hright⟩ := confSetRight_parsed hp
    exact hright.mpr ⟨fun h => absurd h (not_isNumber_string (.inr htype)),
      fun h => Bool.noConfusion h⟩
  · have hpos := List.length_pos_of_ne_nil hempty
    have hk : (⟨k.val, k.isLt⟩ : Fin n) = k := rfl
    have hparse {r : Except Stop (KVStoreCache n)}
        (hr : xprvWriteCacheEntry cfg.ndebug s.cache k .kvTypeBlob pcValue.bytes = r) :
        parseAndSet cfg s.cache (cfg.kvStoreKeyMap k) pcValue k.val
          (cfg.kvStoreDefaults k).type =
            r.map fun c => ⟨true, stringLine (cfg.kvStoreKeyMap k) pcValue, c⟩ := by
      rw [htype, parseAndSet, kvStoreSetBlob]
      simp only [if_pos hpos, prvSetValue, dif_pos k.isLt, hk, if_pos htype, hr]
      cases r <;> rfl
    have hlost {c : KVStoreCache n}
        (hwrite : xprvWriteCacheEntry cfg.ndebug s.cache k .kvTypeBlob pcValue.bytes = .ok c) :
        ¬ ConfSetRight cfg s (cfg.kvStoreKeyMap k) pcValue := by
      obtain ⟨s', -, hright⟩ := confSet_accepted (.inr htype) (hparse hwrite)
      rw [hright]
      exact blob_not_shown htype hempty
    rw [BlobOk, or_iff_right hempty]
    obtain ⟨hserved, c, hwrite, -⟩ | ⟨hrefused, hndebug, hwrite⟩ | ⟨-, hndebug, c, hwrite, -⟩ :=
      write_cases (k := k) (t := .kvTypeBlob) (v := pcValue.bytes) hs cfg.ndebug (by simp)
        (by decide) hpos
    · exact iff_of_false (hlost hwrite) fun h => h.1 hserved
    · exact iff_of_true (confSetRight_stopped (hparse hwrite) (not_isNumber_string (.inr htype)))
        ⟨hrefused, hndebug⟩
    · refine iff_of_false (hlost hwrite) fun h => ?_
      rw [hndebug] at h
      exact Bool.noConfusion h.2

/-- A key of no type that can be set refuses every word. -/
theorem confSet_other (hnone : (cfg.kvStoreDefaults k).type = .kvTypeNone ∨
      ∃ raw, (cfg.kvStoreDefaults k).type = .other raw) :
    ConfSetRight cfg s (cfg.kvStoreKeyMap k) pcValue := by
  have hp : parseAndSet cfg s.cache (cfg.kvStoreKeyMap k) pcValue k.val
      (cfg.kvStoreDefaults k).type = .ok ⟨false, [], s.cache⟩ := by
    obtain hnone | ⟨raw, hnone⟩ := hnone <;> rw [hnone] <;> rfl
  have hnumber : ¬ IsNumber (cfg.kvStoreDefaults k).type := by
    obtain hnone | ⟨raw, hnone⟩ := hnone <;> rw [hnone] <;> exact id
  obtain ⟨s', -, hright⟩ := confSetRight_parsed hp
  exact hright.mpr ⟨fun h => absurd h hnumber, fun h => Bool.noConfusion h⟩

/-- A set is right, in its answer and in what a get shows behind it, for just these words. -/
theorem confSet_right_iff (hs : s.cache.Valid) (pcKey pcValue : CString) :
    ConfSetRight cfg s pcKey pcValue ↔ ConfSetOk cfg s.cache pcKey pcValue := by
  obtain ⟨k, rfl, -⟩ | ⟨hnone, hkey⟩ := kvStringToKey_eq cfg pcKey
  · have hok : ConfSetOk cfg s.cache (cfg.kvStoreKeyMap k) pcValue ↔
        (IsNumber (cfg.kvStoreDefaults k).type →
          NumberOk (cfg.kvStoreDefaults k).type (cfg.kvStoreKeyMap k) pcValue) ∧
        ((cfg.kvStoreDefaults k).type = .kvTypeString → StringOk cfg s.cache k pcValue) ∧
        ((cfg.kvStoreDefaults k).type = .kvTypeBlob → BlobOk cfg s.cache k pcValue) := by
      refine ⟨fun h => h k rfl, fun h j hj => ?_⟩
      obtain rfl := cfg.keyMap_injective hj
      exact h
    rw [hok]
    cases htype : (cfg.kvStoreDefaults k).type with
    | kvTypeBaseT | kvTypeUBaseT | kvTypeInt32 | kvTypeUInt32 =>
      have hnumber : IsNumber (cfg.kvStoreDefaults k).type := by
        rw [htype]
        exact trivial
      have hiff := confSet_number pcValue hs hnumber
      rw [htype] at hiff
      simp [hiff, IsNumber]
    | kvTypeString => simp [confSet_string hs htype, IsNumber]
    | kvTypeBlob => simp [confSet_blob hs htype, IsNumber]
    | kvTypeNone => simp [confSet_other (.inl htype), IsNumber]
    | other raw => simp [confSet_other (.inr ⟨raw, htype⟩), IsNumber]
  · exact iff_of_true (confSetRight_unknown hkey) fun k hk => absurd hk (hnone k)

end values

section runs

theorem confSet_right_port : ConfSetRight (kvStoreBuild 0xFFF80010) bootState
    ⟨ascii "mqtt_port", by decide⟩ ⟨ascii "1883", by decide⟩ := by
  refine (confSet_right_iff (KVStoreCache.zeroed_valid _) _ _).mpr fun k hk => ?_
  obtain rfl : k = 2 := (kvStoreBuild 0xFFF80010).keyMap_injective hk
  refine ⟨fun _ => ⟨1883, by decide, ⟨by decide, by decide⟩, nofun, ?_⟩, nofun, nofun⟩
  rw [length_numberLine]
  have hdigits : (integerText 1883).length ≤ 11 := length_integerText 1883
  have hname : (CString.mk (ascii "mqtt_port") (by decide)).length = 9 := rfl
  rw [hname]
  exact Nat.lt_of_le_of_lt (Nat.add_le_add_right (Nat.add_le_add_left hdigits 9) 3) (by decide)

/-- A word that is no numeral sets the port to 0. -/
theorem confSet_not_right : ¬ ConfSetRight (kvStoreBuild 0xFFF80010) bootState
    ⟨ascii "mqtt_port", by decide⟩ ⟨ascii "abc", by decide⟩ := by
  intro h
  obtain ⟨p, hp, hresult⟩ : ∃ p, parseAndSet (kvStoreBuild 0xFFF80010) emptyStore
      ((kvStoreBuild 0xFFF80010).kvStoreKeyMap 2) ⟨ascii "abc", by decide⟩ 2 .kvTypeUInt32 =
        .ok p ∧ p.xParseResult = true := ⟨_, rfl, rfl⟩
  obtain ⟨s', -, hright⟩ := confSetRight_parsed (s := bootState) (k := 2) hp
  have hrefused := (hright.mp h).1 trivial fun ⟨z, hz, _⟩ => nomatch hz
  rw [hresult] at hrefused
  exact Bool.noConfusion hrefused.1

end runs

end RenesasDemo.Cli
