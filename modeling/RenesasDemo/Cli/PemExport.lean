import RenesasDemo.Cli.Console
import RenesasDemo.Framework.Base64

namespace RenesasDemo.Cli

open Framework

def pemBegin : List UInt8 := ascii "-----BEGIN "
def pemEnd : List UInt8 := ascii "-----END "
def pemMetaSuffix : List UInt8 := ascii "-----"

def pemLineBuffLen : Nat := 64
def derBytesPerPemLine : Nat := 3 * pemLineBuffLen / 4

/-- The loop of `vPrintDer`, and whether `lRslt` is 0 behind it. -/
def printDerLines (codec : Base64.Codec) (pucDer : List UInt8) : List Output × Bool :=
  if pucDer.isEmpty then ([], true)
  else match codec.encode (pemLineBuffLen + 1) (pucDer.take derBytesPerPemLine) with
    | some pcLineBuffer =>
      let (outputs, ok) := printDerLines codec (pucDer.drop derBytesPerPemLine)
      (.write (pcLineBuffer ++ cliOutputEol) :: outputs, ok)
    | none => ([.print (.ofBytes (ascii "\r\nERROR\r\n"))], false)
termination_by pucDer.length
decreasing_by
  rename_i h
  have hpos : 0 < pucDer.length := by
    cases pucDer with
    | nil => exact absurd rfl h
    | cons _ _ => exact Nat.succ_pos _
  rw [List.length_drop]
  exact Nat.sub_lt hpos (by decide)

def vPrintDer (codec : Base64.Codec) (pcHeader pcFooter : CString) (pucDer : List UInt8) :
    List Output :=
  let (outputs, ok) := printDerLines codec pucDer
  .print pcHeader :: outputs ++ if ok then [.print pcFooter] else []

/-- The label of a PEM text: what can stand in the middle of a line. -/
structure PemLabel where
  bytes : List UInt8
  noNul : 0 ∉ bytes
  noCr : 0x0D ∉ bytes

namespace PemLabel

def beginLine (label : PemLabel) : CString where
  bytes := pemBegin ++ label.bytes ++ pemMetaSuffix
  noNul := by
    simp only [List.mem_append, not_or]
    exact ⟨⟨by decide, label.noNul⟩, by decide⟩

def endLine (label : PemLabel) : CString where
  bytes := pemEnd ++ label.bytes ++ pemMetaSuffix
  noNul := by
    simp only [List.mem_append, not_or]
    exact ⟨⟨by decide, label.noNul⟩, by decide⟩

theorem noCr_beginLine (label : PemLabel) : 0x0D ∉ label.beginLine.bytes := by
  simp only [beginLine, List.mem_append, not_or]
  exact ⟨⟨by decide, label.noCr⟩, by decide⟩

theorem noCr_endLine (label : PemLabel) : 0x0D ∉ label.endLine.bytes := by
  simp only [endLine, List.mem_append, not_or]
  exact ⟨⟨by decide, label.noCr⟩, by decide⟩

end PemLabel

/-- A line with the line ending that the PEM texts of the source have. -/
def withEol (line : CString) : CString where
  bytes := line.bytes ++ cliOutputEol
  noNul := by
    simp only [List.mem_append, not_or]
    exact ⟨line.noNul, by decide⟩

/-- The PEM text of `der` as it leaves the console. -/
def pemText (codec : Base64.Codec) (label : PemLabel) (der : List UInt8) : List UInt8 :=
  (vPrintDer codec (withEol label.beginLine) (withEol label.endLine) der).flatMap Output.bytes

/-- What base64 makes of `der` in groups of 48 bytes. -/
def bodyLines (der : List UInt8) : List (List UInt8) :=
  if der.isEmpty then []
  else Base64.encode (der.take derBytesPerPemLine) :: bodyLines (der.drop derBytesPerPemLine)
termination_by der.length
decreasing_by
  rename_i h
  have hpos : 0 < der.length := by
    cases der with
    | nil => exact absurd rfl h
    | cons _ _ => exact Nat.succ_pos _
  rw [List.length_drop]
  exact Nat.sub_lt hpos (by decide)

theorem textLength_take_le (der : List UInt8) :
    Base64.textLength (der.take derBytesPerPemLine).length ≤ pemLineBuffLen := by
  have h := List.length_take_le derBytesPerPemLine der
  simp only [Base64.textLength, derBytesPerPemLine, pemLineBuffLen] at h ⊢
  omega

theorem printDerLines_eq (codec : Base64.Codec) (der : List UInt8) :
    printDerLines codec der =
      ((bodyLines der).map fun line => .write (line ++ cliOutputEol), true) := by
  fun_induction bodyLines der with
  | case1 der h => rw [printDerLines, if_pos h, List.map_nil]
  | case2 der h ih =>
    have hroom := Nat.lt_succ_of_le (textLength_take_le der)
    rw [printDerLines, if_neg h, codec.encode_of_fits hroom, ih]
    rfl

theorem pemText_eq (codec : Base64.Codec) (label : PemLabel) (der : List UInt8) :
    pemText codec label der = label.beginLine.bytes ++ cliOutputEol ++
      ((bodyLines der).flatMap (· ++ cliOutputEol) ++ (label.endLine.bytes ++ cliOutputEol)) := by
  have hbody : ((bodyLines der).map fun line => Output.write (line ++ cliOutputEol)).flatMap
      Output.bytes = (bodyLines der).flatMap (· ++ cliOutputEol) := by
    rw [List.flatMap_map]
    rfl
  rw [pemText, vPrintDer, printDerLines_eq]
  simp only [if_true, List.flatMap_cons, List.flatMap_append, List.cons_append, List.flatMap_nil,
    List.append_nil, hbody]
  rfl

theorem noCr_of_mem_bodyLines (der : List UInt8) : ∀ line ∈ bodyLines der, 0x0D ∉ line := by
  fun_induction bodyLines der with
  | case1 der h => simp
  | case2 der h ih =>
    exact List.forall_mem_cons.mpr ⟨Base64.notMem_encode (by decide) _, ih⟩

theorem linesOf_flatMap {lines : List (List UInt8)} (h : ∀ line ∈ lines, 0x0D ∉ line)
    (rest : List UInt8) :
    linesOf (lines.flatMap (· ++ cliOutputEol) ++ rest) = lines ++ linesOf rest := by
  induction lines with
  | nil => rfl
  | cons line lines ih =>
    obtain ⟨hline, hlines⟩ := List.forall_mem_cons.mp h
    rw [List.flatMap_cons, List.append_assoc (line ++ cliOutputEol), linesOf_append hline,
      ih hlines, List.cons_append]

theorem linesOf_pemText (codec : Base64.Codec) (label : PemLabel) (der : List UInt8) :
    linesOf (pemText codec label der) =
      label.beginLine.bytes :: (bodyLines der ++ [label.endLine.bytes]) := by
  have hend : linesOf (label.endLine.bytes ++ cliOutputEol) = [label.endLine.bytes] := by
    have h := linesOf_append label.noCr_endLine []
    rwa [List.append_nil] at h
  rw [pemText_eq, linesOf_append label.noCr_beginLine,
    linesOf_flatMap (noCr_of_mem_bodyLines der), hend]

end RenesasDemo.Cli
