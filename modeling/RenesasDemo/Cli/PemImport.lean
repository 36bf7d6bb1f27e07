import RenesasDemo.Cli.PemExport
import RenesasDemo.Framework.Segments

namespace RenesasDemo.Cli

open Framework

def pemCertMaxLen : Nat := 2048
def pemLineEndingLen : Nat := 1

inductive PemFault where
  /-- A `configASSERT` that stops the device. -/
  | assertFailed
  /-- A write behind the end of the DER buffer. -/
  | outOfBounds
  deriving DecidableEq

/-- The local variables of `xReadPemFromCliAsDer`, what it printed and how often it freed its
buffer. -/
structure PemState where
  pucDerBuffer : Option (Buffer UInt8 pemCertMaxLen)
  uxDerDataLen : Nat
  xBeginFound : Bool
  xEndFound : Bool
  xErrorFlag : Bool
  printed : List Output
  frees : Nat

namespace PemState

def error (s : PemState) (pcString : String) : PemState :=
  { s with
    printed := s.printed ++ [.print (.ofBytes (ascii pcString))]
    xErrorFlag := true }

def goesOn (s : PemState) : Bool := s.uxDerDataLen < pemCertMaxLen && !s.xEndFound

/-- The last part of the loop body: a line of a text that has begun and not ended is decoded, also
when the checks have found an error in it. -/
def decodeLine (codec : Base64.Codec) (s : PemState) (line : CString) : Except PemFault PemState :=
  if s.xBeginFound && !s.xEndFound then
    match codec.decode (pemCertMaxLen - s.uxDerDataLen) line.bytes with
    | some bytes =>
      match s.pucDerBuffer.bind fun b => b.memcpy s.uxDerDataLen bytes with
      | some b =>
        if s.uxDerDataLen + bytes.length < pemCertMaxLen then
          .ok { s with pucDerBuffer := some b, uxDerDataLen := s.uxDerDataLen + bytes.length }
        else .error .assertFailed
      | none => .error .outOfBounds
    | none => .ok { s with xErrorFlag := true }
  else .ok s

/-- The checks of the loop body, and whether `continue` ends it with them. -/
def checkLine (s : PemState) (line : CString) : PemState × Bool :=
  if 64 < line.length then
    (s.error "Error: Current line exceeds maximum line length for a PEM file.\r\n", false)
  else if !s.xErrorFlag && 0 < line.length &&
      pemCertMaxLen ≤ s.uxDerDataLen + line.length + pemLineEndingLen then
    (s.error "Error: Out of memory to store the given PEM file.\r\n", false)
  else if !s.xBeginFound then
    if strncmp pemBegin line.bytes pemBegin.length = 0 then
      match strnstr (line.bytes.drop pemBegin.length) pemMetaSuffix
          (line.length - pemBegin.length) with
      | none =>
        (s.error "Error: PEM header does not contain the expected ending: '-----'.\r\n", false)
      | some _ => ({ s with xBeginFound := true }, true)
    else
      (s.error "Error: PEM header does not contain the expected text: '-----BEGIN '.\r\n", false)
  else if !s.xEndFound then
    if strncmp pemEnd line.bytes pemEnd.length = 0 then
      match strnstr (line.bytes.drop pemEnd.length) pemMetaSuffix
          (line.length - pemEnd.length) with
      | none =>
        (s.error "Error: PEM footer does not contain the expected ending: '-----'.\r\n", false)
      | some _ => ({ s with xEndFound := true }, false)
    else (s, false)
  else (s, false)

/-- The loop body up to the test of `xErrorFlag`, for the line that readline returned. -/
def readLine (codec : Base64.Codec) (s : PemState) (line : CString) : Except PemFault PemState :=
  if 0 < line.length then
    let (t, skip) := s.checkLine line
    -- `continue` also skips the test of `xErrorFlag`, which is not set there
    if skip then .ok t else t.decodeLine codec line
  else .ok { s with xErrorFlag := true }

def release (s : PemState) : PemState :=
  { s with uxDerDataLen := 0, pucDerBuffer := none, frees := s.frees + 1 }

end PemState

/-- A function that reads lines either waits for the next one or has returned. -/
inductive Reading (α : Type) where
  | waiting
  | returned (a : α) (unread : List CString)

def readPemLoop (codec : Base64.Codec) :
    PemState → List CString → Except PemFault (Reading PemState)
  | s, [] => .ok (if s.goesOn then .waiting else .returned s [])
  | s, line :: lines =>
    if s.goesOn then
      (s.readLine codec line).bind fun t =>
        if t.xErrorFlag then .ok (.returned t.release lines) else readPemLoop codec t lines
    else .ok (.returned s (line :: lines))

structure PemOutput where
  pucDerBuffer : Option (Buffer UInt8 pemCertMaxLen)
  uxDerLen : Nat

structure PemResult where
  xResult : Bool
  output : PemOutput
  printed : List Output
  frees : Nat

def PemState.result (s : PemState) (output : PemOutput) : PemResult :=
  match s.pucDerBuffer with
  | some b => ⟨!s.xErrorFlag, ⟨some b, s.uxDerDataLen⟩, s.printed, s.frees⟩
  | none => ⟨false, output, s.printed, s.frees⟩

/-- The state before the loop, `calloc` being the answer of `mbedtls_calloc`. -/
def pemStart (calloc : Bool) : PemState where
  pucDerBuffer :=
    if calloc then some ⟨List.replicate pemCertMaxLen 0, List.length_replicate⟩ else none
  uxDerDataLen := 0
  xBeginFound := false
  xEndFound := false
  xErrorFlag := false
  printed := []
  frees := 0

def xReadPemFromCliAsDer (codec : Base64.Codec) (calloc : Bool) (output : PemOutput)
    (lines : List CString) : Except PemFault (Reading PemResult) :=
  if calloc then
    (readPemLoop codec (pemStart true) lines).map fun
      | .waiting => .waiting
      | .returned s unread => .returned (s.result output) unread
  else
    .ok (.returned (((pemStart false).error
      "Error: Out of memory to store the given PEM file.\r\n").result output) lines)

structure CertResult where
  xResult : Bool
  printed : List Output
  frees : Nat

/-- `parse` is what `mbedtls_x509_crt_parse_der_nocopy` returns for a DER text. -/
def xReadPemFromCliToX509Crt (codec : Base64.Codec) (parse : List UInt8 → Int) (calloc : Bool)
    (lines : List CString) : Except PemFault (Reading CertResult) :=
  (xReadPemFromCliAsDer codec calloc ⟨none, 0⟩ lines).bind fun
    | .waiting => .ok .waiting
    | .returned r unread =>
      if !r.xResult then .ok (.returned ⟨false, r.printed, r.frees⟩ unread)
      else if 0 < r.output.uxDerLen then
        let der := (r.output.pucDerBuffer.elim [] fun b => b.bytes).take r.output.uxDerLen
        if parse der < 0 then .ok (.returned ⟨false, r.printed, r.frees + 1⟩ unread)
        else .ok (.returned ⟨true, r.printed, r.frees⟩ unread)
      else .error .assertFailed

end RenesasDemo.Cli
