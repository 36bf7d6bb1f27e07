import RenesasDemo.Cli.PemReading

namespace RenesasDemo.Cli

open Framework

/-- What readline returns for a text: its lines without their endings, as strings. -/
def inputLines (text : List UInt8) : List CString := (linesOf text).map CString.ofBytes

theorem isBoundary_line {start : List UInt8} (label : List UInt8) (line : CString)
    (h : line.bytes = start ++ label ++ pemMetaSuffix) : IsBoundary start line := by
  rw [IsBoundary, h, List.append_assoc, List.drop_left]
  exact ⟨List.prefix_append _ _, (List.suffix_append _ _).isInfix⟩

theorem not_tooLong {n : Nat} {line : CString} (hlen : line.length ≤ pemLineBuffLen)
    (hn : n + 65 < pemCertMaxLen) : ¬ TooLong n line := by
  simp only [TooLong, pemLineBuffLen, pemCertMaxLen, pemLineEndingLen] at *
  omega

theorem readPem_beginLine (codec : Base64.Codec) (label : PemLabel)
    (hlen : label.beginLine.length ≤ pemLineBuffLen) (lines : List CString) :
    readPem codec false [] (label.beginLine :: lines) = readPem codec true [] lines := by
  have hpos : 0 < label.beginLine.length := by
    simp only [CString.length, PemLabel.beginLine, List.length_append]
    exact Nat.add_pos_right _ (by decide)
  have hline := isBoundary_line label.bytes label.beginLine rfl
  rw [readPem, PemState.lineVerdict_of_fits codec hpos (not_tooLong hlen (by decide)),
    if_neg Bool.false_ne_true, if_pos hline]

theorem readPem_endLine (codec : Base64.Codec) (label : PemLabel) {der : List UInt8}
    (hlen : label.endLine.length ≤ pemLineBuffLen) (hder : der.length + 65 < pemCertMaxLen)
    (lines : List CString) :
    readPem codec true der (label.endLine :: lines) = .complete der lines := by
  have hpos : 0 < label.endLine.length := by
    simp only [CString.length, PemLabel.endLine, List.length_append]
    exact Nat.add_pos_right _ (by decide)
  have hline := isBoundary_line label.bytes label.endLine rfl
  rw [readPem, PemState.lineVerdict_of_fits codec hpos (not_tooLong hlen hder), if_pos rfl,
    if_pos hline.1, if_pos hline]

theorem readPem_bodyLine (codec : Base64.Codec) {der bytes : List UInt8} (hne : bytes ≠ [])
    (hlen : bytes.length ≤ derBytesPerPemLine)
    (hder : der.length + bytes.length + 65 < pemCertMaxLen) (lines : List CString) :
    readPem codec true der (.ofBytes (Base64.encode bytes) :: lines) =
      readPem codec true (der ++ bytes) lines := by
  have hbytes := CString.ofBytes_of_noNul (Base64.notMem_encode (c := 0) (by decide) bytes)
  have htext : (CString.ofBytes (Base64.encode bytes)).length = Base64.textLength bytes.length := by
    rw [hbytes, CString.length, Base64.length_encode]
  have hn : 0 < bytes.length := List.length_pos_iff.mpr hne
  have hpos : 0 < (CString.ofBytes (Base64.encode bytes)).length := by
    rw [htext, Base64.textLength]
    omega
  have hshort : (CString.ofBytes (Base64.encode bytes)).length ≤ pemLineBuffLen := by
    rw [htext]
    simp only [Base64.textLength, derBytesPerPemLine, pemLineBuffLen] at hlen ⊢
    omega
  have hbody : ¬ pemEnd <+: (CString.ofBytes (Base64.encode bytes)).bytes := by
    intro hp
    rw [hbytes] at hp
    exact Base64.notMem_encode (c := 0x2D) (by decide) bytes (hp.subset (by decide))
  have hdec : codec.decode (pemCertMaxLen - der.length)
      (CString.ofBytes (Base64.encode bytes)).bytes = some bytes := by
    rw [hbytes]
    exact codec.decode_of_fits (by omega)
  rw [readPem, PemState.lineVerdict_of_fits codec hpos (not_tooLong hshort (by omega)), if_pos rfl,
    if_neg hbody, hdec]

theorem readPem_bodyLines (codec : Base64.Codec) (label : PemLabel)
    (hend : label.endLine.length ≤ pemLineBuffLen) (rest : List UInt8) (lines : List CString) :
    ∀ der : List UInt8, der.length + rest.length + 65 < pemCertMaxLen →
      readPem codec true der ((bodyLines rest).map .ofBytes ++ label.endLine :: lines) =
        .complete (der ++ rest) lines := by
  fun_induction bodyLines rest with
  | case1 rest h =>
    intro der hder
    obtain rfl := List.isEmpty_iff.mp h
    rw [List.append_nil]
    exact readPem_endLine codec label hend hder lines
  | case2 rest h ih =>
    intro der hder
    have hne : rest.take derBytesPerPemLine ≠ [] := by
      intro hnil
      rw [List.take_eq_nil_iff] at hnil
      exact hnil.elim (by decide) fun hr => h (List.isEmpty_iff.mpr hr)
    have hsplit := List.take_append_drop derBytesPerPemLine rest
    have hlen := congrArg List.length hsplit
    rw [List.length_append] at hlen
    rw [List.map_cons, List.cons_append, readPem_bodyLine codec hne (List.length_take_le _ _)
      (by omega), ih _ (by rw [List.length_append]; omega), List.append_assoc, hsplit]

/-- Importing the lines that `vPrintDer` writes gives back the bytes, and leaves what comes behind
them unread. -/
theorem pem_round_trip (codec : Base64.Codec) (label : PemLabel) (der : List UInt8)
    (output : PemOutput) (later : List CString) (hder : der.length + 65 < pemCertMaxLen)
    (hbegin : label.beginLine.length ≤ pemLineBuffLen)
    (hend : label.endLine.length ≤ pemLineBuffLen) :
    ∃ r b, xReadPemFromCliAsDer codec true output (inputLines (pemText codec label der) ++ later) =
        .ok (.returned r later) ∧
      r.xResult = true ∧ r.output = ⟨some b, der.length⟩ ∧ b.bytes.take der.length = der := by
  have hlines : inputLines (pemText codec label der) ++ later =
      label.beginLine :: ((bodyLines der).map .ofBytes ++ label.endLine :: later) := by
    rw [inputLines, linesOf_pemText, List.map_cons, List.map_append, List.map_singleton,
      CString.ofBytes_of_noNul label.beginLine.noNul, CString.ofBytes_of_noNul label.endLine.noNul,
      List.cons_append, List.append_assoc, List.singleton_append]
  have hread := readPem_bodyLines codec label hend der later [] (by simpa using hder)
  have hspec := xReadPemFromCliAsDer_spec codec output
    (inputLines (pemText codec label der) ++ later)
  rw [hlines, readPem_beginLine codec label hbegin, hread] at hspec
  obtain ⟨r, b, hcall, hres, hout, hstored, -⟩ := hspec
  rw [hlines]
  exact ⟨r, b, hcall, hres, hout, hstored⟩

def certificateLabel : PemLabel := ⟨ascii "CERTIFICATE", by decide, by decide⟩

theorem pem_round_trip_certificate :
    ∃ r b, xReadPemFromCliAsDer Base64.rfc4648 true ⟨none, 0⟩
        (inputLines (pemText Base64.rfc4648 certificateLabel [0x30, 0x00]) ++ []) =
        .ok (.returned r []) ∧
      r.xResult = true ∧ r.output = ⟨some b, 2⟩ ∧ b.bytes.take 2 = [0x30, 0x00] :=
  pem_round_trip Base64.rfc4648 certificateLabel [0x30, 0x00] ⟨none, 0⟩ [] (by decide) (by decide)
    (by decide)

end RenesasDemo.Cli
