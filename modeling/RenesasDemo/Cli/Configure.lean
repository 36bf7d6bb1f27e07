import RenesasDemo.Cli.Help
import RenesasDemo.Framework.Printf
import RenesasDemo.KVStore.Commit

namespace RenesasDemo.Cli

open Framework KVStore

abbrev cliOutputScratchBufLen : Nat := 512

def modeArgIdx : Nat := 1
def keyArgIdx : Nat := 2
def valueArgIdx : Nat := 3

def xCommandDefConf : Command where
  pcCommand := ⟨ascii "conf", by decide⟩
  pcHelpString := .ofBytes (ascii "conf:\r\n" ++
    ascii "    Get/ Set/ Commit runtime configuration values\r\n" ++
    ascii "    Usage:\r\n" ++
    ascii "    conf get\r\n" ++
    ascii "        Outputs the value of all runtime config options supported by the system.\r\n\n" ++
    ascii "    conf get <key>\r\n" ++
    ascii "        Outputs the current value of a given runtime config item.\r\n\n" ++
    ascii "    conf set <key> <value>\r\n" ++
    ascii "        Set the value of a given runtime config item. This change is staged\r\n" ++
    ascii "        in volatile memory until a commit operation occurs.\r\n\n" ++
    ascii "    conf commit\r\n" ++
    ascii "        Commit staged config changes to nonvolatile memory.\r\n\n")

/-- A call of the console: `print` with what stands from the string's pointer to the end of its
array, `write` with the bytes passed and the text that was formatted for them. -/
inductive ConsoleCall where
  | print (memory : List UInt8)
  | write (pvBuffer text : List UInt8)
  deriving DecidableEq

def ConsoleCall.output : ConsoleCall → Output
  | print memory => .print (.ofBytes memory)
  | write pvBuffer _ => .write pvBuffer

/-- Why the command does not go on. -/
inductive ConfFault where
  /-- It is stopped within the store. -/
  | stop (s : Stop)
  /-- It reads `ppcArgv` at `ulArgc` or behind. -/
  | argvBound
  /-- It writes behind `pcCliScratchBuffer`. -/
  | scratchBound
  deriving DecidableEq

abbrev Scratch := Buffer UInt8 cliOutputScratchBufLen

/-- Values and words are shorter than 2^31 bytes, as objects of the target are. -/
structure ConfState (n : Nat) where
  cache : KVStoreCache n
  files : LfsFiles
  pcCliScratchBuffer : Scratch

variable {n : Nat}

section scratch

def formatScratch (b : Scratch) (text : List UInt8) : Except ConfFault Scratch :=
  match snprintf b 0 cliOutputScratchBufLen text with
  | some b => .ok b
  | none => .error .scratchBound

def copyScratch (b : Scratch) (i : Nat) (src : List UInt8) : Except ConfFault Scratch :=
  match b.memcpy i src with
  | some b => .ok b
  | none => .error .scratchBound

theorem length_stpncpyScratch (s : CString) :
    (s.bytes.take cliOutputScratchBufLen ++
      List.replicate (cliOutputScratchBufLen - s.length) 0).length = cliOutputScratchBufLen := by
  rw [List.length_append, List.length_take, List.length_replicate, CString.length]
  omega

/-- `stpncpy` fills what the string leaves with zeros. -/
def stpncpyScratch (s : CString) : Scratch where
  bytes := s.bytes.take cliOutputScratchBufLen ++
    List.replicate (cliOutputScratchBufLen - s.length) 0
  length_bytes := length_stpncpyScratch s

end scratch

section keys

variable (cfg : KVStoreConfig n)

/-- CS_NUM_KEYS where no key has the name. -/
def kvStringToKey (pcKey : CString) : Nat :=
  ((List.finRange n).find? fun i => cfg.kvStoreKeyMap i = pcKey).elim n Fin.val

def kvStoreGetType (key : Nat) : KVStoreValueType := (cfg.keyType key).getD .kvTypeNone

end keys

/-- `"%s=%ld\r\n"` and its like, for the text of the number. -/
def numberLine (pcKey : CString) (number : List UInt8) : List UInt8 :=
  pcKey.bytes ++ ascii "=" ++ number ++ ascii "\r\n"

def stringLine (pcKey pcValue : CString) : List UInt8 :=
  pcKey.bytes ++ ascii "=\"" ++ pcValue.bytes ++ ascii "\"\r\n"

def notRecognized (pcKey : CString) : List UInt8 :=
  ascii "Error: key: " ++ pcKey.bytes ++ ascii " was not recognized.\r\n"

def notValid (pcKey pcValue : CString) : List UInt8 :=
  ascii "Error: value: " ++ pcValue.bytes ++ ascii " is not valid for key: " ++ pcKey.bytes ++
    ascii "\r\n"

section get

variable (cfg : KVStoreConfig n) (s : ConfState n) (pcKey : CString)

/-- The two ways on which `lResponseLen` and the buffer are made: a number is formatted. -/
def numberResponse (b : Scratch) (pcKey : CString) (number : Except Stop (List UInt8)) :
    Except ConfFault (Nat × Scratch) := do
  let number ← number.mapError .stop
  let b ← formatScratch b (numberLine pcKey number)
  return ((numberLine pcKey number).length, b)

/-- The equals sign and the quote behind the key, if they are written. -/
def stringResponseStart (b : Scratch) (lResponseLen : Nat) : Except ConfFault (Nat × Scratch) :=
  if lResponseLen < cliOutputScratchBufLen then do
    let b ← copyScratch b lResponseLen (ascii "=")
    let b ← copyScratch b (lResponseLen + 1) (ascii "\"")
    return (lResponseLen + 2, b)
  else return (lResponseLen, b)

/-- The value behind them, if there is room. -/
def stringResponseValue (cache : KVStoreCache n) (xKey : Nat) (b : Scratch) (lResponseLen : Nat) :
    Except ConfFault (Nat × Scratch) :=
  if lResponseLen < cliOutputScratchBufLen then do
    let r ← (kvStoreGetString cfg cache xKey (some (b.bytes.drop lResponseLen))).mapError .stop
    let b ← copyScratch b lResponseLen (r.pvBuffer.getD [])
    return (lResponseLen + r.size, b)
  else return (lResponseLen, b)

/-- A string or a blob is put together in the buffer; a text that is too long ends early. -/
def stringResponse (cache : KVStoreCache n) (xKey : Nat) : Except ConfFault (Nat × Scratch) := do
  let lResponseLen := min pcKey.length cliOutputScratchBufLen
  let (lResponseLen, b) ← stringResponseStart (stpncpyScratch pcKey) lResponseLen
  let (lResponseLen, b) ← stringResponseValue cfg cache xKey b lResponseLen
  let lResponseLen :=
    if cliOutputScratchBufLen < lResponseLen + 3 then cliOutputScratchBufLen - 3 else lResponseLen
  let b ← copyScratch b lResponseLen (ascii "\"\r\n")
  return (lResponseLen + 3, b)

def response (xKey : Nat) (xKvType : KVStoreValueType) : Except ConfFault (Nat × Scratch) :=
  match xKvType with
  | .kvTypeBaseT => numberResponse s.pcCliScratchBuffer pcKey
      ((kvStoreGetBase cfg s.cache xKey).map fun r => integerText r.value.toInt)
  | .kvTypeUBaseT => numberResponse s.pcCliScratchBuffer pcKey
      ((kvStoreGetUBase cfg s.cache xKey).map fun r => decimalText r.value.toNat)
  | .kvTypeInt32 => numberResponse s.pcCliScratchBuffer pcKey
      ((kvStoreGetInt32 cfg s.cache xKey).map fun r => integerText r.value.toInt)
  | .kvTypeUInt32 => numberResponse s.pcCliScratchBuffer pcKey
      ((kvStoreGetUInt32 cfg s.cache xKey).map fun r => decimalText r.value.toNat)
  | .kvTypeString | .kvTypeBlob => stringResponse cfg pcKey s.cache xKey
  | .kvTypeNone | .other _ => .ok (0, s.pcCliScratchBuffer)

def vSubCommandGetConfig : Except ConfFault (ConsoleCall × ConfState n) := do
  let xKey := kvStringToKey cfg pcKey
  let xKvType := kvStoreGetType cfg xKey
  let (lResponseLen, b) ← response cfg s pcKey xKey xKvType
  let b := if lResponseLen < cliOutputScratchBufLen then b.set lResponseLen 0
    else b.set (cliOutputScratchBufLen - 1) 0
  if 0 < lResponseLen then
    return (.print b.bytes, { s with pcCliScratchBuffer := b })
  else do
    let b ← formatScratch b (if xKey = n ∨ xKvType = .kvTypeNone then notRecognized pcKey
      else ascii "Error: An unknown error occurred.\r\n")
    return (.print b.bytes, { s with pcCliScratchBuffer := b })

def vSubCommandGetConfigAll : ConfState n → List (Fin n) →
    List ConsoleCall × Except ConfFault (ConfState n)
  | s, [] => ([], .ok s)
  | s, key :: keys =>
    match vSubCommandGetConfig cfg s (cfg.kvStoreKeyMap key) with
    | .ok (c, s') =>
      let (cs, r) := vSubCommandGetConfigAll s' keys
      (c :: cs, r)
    | .error e => ([], .error e)

end get

section set

/-- `xParseResult`, the text that was formatted, and the store behind it. -/
structure Parsed (n : Nat) where
  xParseResult : Bool
  text : List UInt8
  cache : KVStoreCache n

variable (cfg : KVStoreConfig n) (cache : KVStoreCache n) (pcKey pcValue : CString) (xKey : Nat)

/-- A case of the switch for a number: it is let through when something was converted or when it
is 0; the setter's result is not looked at. -/
def setNumber (accepted : Bool) (set : Except Stop (Bool × KVStoreCache n)) (number : List UInt8) :
    Except Stop (Parsed n) :=
  if accepted then set.map fun r => ⟨true, numberLine pcKey number, r.2⟩
  else .ok ⟨false, [], cache⟩

def parseAndSet (xKvType : KVStoreValueType) : Except Stop (Parsed n) :=
  let v := pcValue.bytes
  match xKvType with
  | .kvTypeBaseT =>
    setNumber cache pcKey (strtolEnd v ≠ 0 || strtol v = 0)
      (kvStoreSetBase cfg cache xKey (strtol v)) (integerText (strtol v).toInt)
  | .kvTypeInt32 =>
    setNumber cache pcKey (strtolEnd v ≠ 0 || strtol v = 0)
      (kvStoreSetInt32 cfg cache xKey (strtol v)) (integerText (strtol v).toInt)
  | .kvTypeUBaseT =>
    setNumber cache pcKey (strtolEnd v ≠ 0 || strtoul v = 0)
      (kvStoreSetUBase cfg cache xKey (strtoul v)) (decimalText (strtoul v).toNat)
  | .kvTypeUInt32 =>
    setNumber cache pcKey (strtolEnd v ≠ 0 || strtoul v = 0)
      (kvStoreSetUInt32 cfg cache xKey (strtoul v)) (decimalText (strtoul v).toNat)
  | .kvTypeString =>
    (kvStoreSetString cfg cache xKey (some pcValue)).map fun r =>
      ⟨r.1, stringLine pcKey pcValue, r.2⟩
  | .kvTypeBlob =>
    (kvStoreSetBlob cfg cache xKey (some pcValue.bytes)).map fun r =>
      ⟨r.1, stringLine pcKey pcValue, r.2⟩
  | .kvTypeNone | .other _ => .ok ⟨false, [], cache⟩

def setText (p : Parsed n) : List UInt8 :=
  if p.xParseResult then p.text
  else if xKey = n then notRecognized pcKey
  else notValid pcKey pcValue

/-- `vSubCommand_SetConfig` for the words of a key and a value. -/
def setConfig (s : ConfState n) (pcKey pcValue : CString) :
    Except ConfFault (List ConsoleCall × ConfState n) := do
  let xKey := kvStringToKey cfg pcKey
  let p ← (parseAndSet cfg s.cache pcKey pcValue xKey (kvStoreGetType cfg xKey)).mapError .stop
  let text := setText pcKey pcValue xKey p
  let b ← formatScratch s.pcCliScratchBuffer text
  let lCharsPrinted := min text.length cliOutputScratchBufLen
  return (if 0 < lCharsPrinted then [.write (b.bytes.take lCharsPrinted) text] else [],
    { s with cache := p.cache, pcCliScratchBuffer := b })

end set

section configure

variable (cfg : KVStoreConfig n) (lfs : Fin n → LfsWriteAnswers) (s : ConfState n)
  (ppcArgv : List (Option CString))

/-- `ppcArgv[ i ]`, of `ulArgc` elements. -/
def readArgv (i : Nat) : Except ConfFault (Option CString) :=
  match ppcArgv[i]? with
  | some p => .ok p
  | none => .error .argvBound

def deref : Option CString → Except ConfFault CString
  | some s => .ok s
  | none => .error (.stop .undefinedBehaviour)

/-- `pcValue`: the empty string when there is no such word. -/
def readValue : Except ConfFault (Option CString) :=
  if valueArgIdx < ppcArgv.length then readArgv ppcArgv valueArgIdx
  else .ok (some ⟨[], noNul_nil⟩)

def vSubCommandSetConfig : Except ConfFault (List ConsoleCall × ConfState n) := do
  let pcKey ← readArgv ppcArgv keyArgIdx
  let pcValue ← readValue ppcArgv
  match pcKey with
  | some pcKey => do
    let pcValue ← deref pcValue
    setConfig cfg s pcKey pcValue
  | none => return ([.print (ascii "An unknown error occurred." ++ [0])], s)

def vSubCommandCommitConfig : Except ConfFault (List ConsoleCall × ConfState n) := do
  let (xResult, files) ← (kvStoreCommitChanges cfg s.cache lfs s.files).mapError .stop
  return ([.print ((if xResult then ascii "Configuration saved to NVM.\r\n"
    else ascii "Error: Could not save configuration to NVM.\r\n") ++ [0])], { s with files })

def atOnce (r : Except ConfFault (List ConsoleCall × ConfState n)) :
    List ConsoleCall × Except ConfFault (ConfState n) :=
  match r with
  | .ok (cs, s) => (cs, .ok s)
  | .error e => ([], .error e)

/-- The calls of the console, and how the command ends. -/
def vCommandConfigure : List ConsoleCall × Except ConfFault (ConfState n) :=
  let help := ([.print (xCommandDefConf.pcHelpString.bytes ++ [0])], .ok s)
  if modeArgIdx < ppcArgv.length then
    match (readArgv ppcArgv modeArgIdx).bind deref with
    | .error e => ([], .error e)
    | .ok pcMode =>
      if pcMode.bytes = ascii "get" then
        if keyArgIdx < ppcArgv.length then
          match (readArgv ppcArgv keyArgIdx).bind deref with
          | .error e => ([], .error e)
          | .ok pcKey => atOnce ((vSubCommandGetConfig cfg s pcKey).map fun (c, s) => ([c], s))
        else vSubCommandGetConfigAll cfg s (List.finRange n)
      else if pcMode.bytes = ascii "set" then atOnce (vSubCommandSetConfig cfg s ppcArgv)
      else if pcMode.bytes = ascii "commit" then atOnce (vSubCommandCommitConfig cfg lfs s)
      else help
  else help

end configure

def CommandCall.ppcArgv (call : CommandCall) : List (Option CString) :=
  call.pcArgv.map fun p => p.map fun a => .ofBytes (call.memory.drop a)

end RenesasDemo.Cli
