import RenesasDemo.Shadow.ShadowDevice

namespace RenesasDemo.Shadow

open Framework

/-- The format of the report, up to its first number. -/
def reportHead : List UInt8 := ascii "\x7b\"state\":\x7b\"reported\":\x7b\"powerOn\":"

/-- The format between the numbers. -/
def reportMiddle : List UInt8 := ascii "\x7d\x7d,\"clientToken\":\""

def reportTail : List UInt8 := ascii "\"\x7d"

def shadowexampleShadowReportedJson : List UInt8 :=
  reportHead ++ ascii "%1u" ++ reportMiddle ++ ascii "%06lu" ++ reportTail

/-- The size of the format counts its terminator. -/
def shadowexampleShadowReportedJsonLength : Nat :=
  (shadowexampleShadowReportedJson.length + 1) - 2

/-- The complete document, as printf makes it of the format. -/
def reportDocument (ulCurrentPowerOnState ulClientToken : UInt32) : List UInt8 :=
  reportHead ++ decimalText ulCurrentPowerOnState.toNat ++ reportMiddle ++
    tokenText ulClientToken ++ reportTail

def pcUpdateDocument : Buffer UInt8 (shadowexampleShadowReportedJsonLength + 1) where
  bytes := List.replicate (shadowexampleShadowReportedJsonLength + 1) 0
  length_bytes := List.length_replicate

def payloadLength : Nat := shadowexampleShadowReportedJsonLength + 1

def publishReport (ulCurrentPowerOnState ulClientToken : UInt32) : Option (List UInt8) :=
  (snprintf pcUpdateDocument 0 (shadowexampleShadowReportedJsonLength + 1)
    (reportDocument ulCurrentPowerOnState ulClientToken)).map (·.bytes.take payloadLength)

section report

variable (ulCurrentPowerOnState ulClientToken xTickCount : UInt32)

/-- The constant is the length of a document whose state has one digit. -/
theorem length_reportDocument :
    (reportDocument ulCurrentPowerOnState ulClientToken).length + 1 =
      shadowexampleShadowReportedJsonLength + (decimalText ulCurrentPowerOnState.toNat).length := by
  have hhead : reportHead.length = 32 := by decide
  have hmiddle : reportMiddle.length = 18 := by decide
  have htail : reportTail.length = 2 := by decide
  have hlength : shadowexampleShadowReportedJsonLength = 59 := by decide
  have htoken : (tokenText ulClientToken).length = 6 := length_decimalDigits 6 _
  rw [reportDocument]
  simp only [List.length_append, hhead, hmiddle, htail, htoken, hlength]
  omega

theorem length_decimalText_eq_one_iff (n : Nat) : (decimalText n).length = 1 ↔ n < 10 := by
  rw [decimalText]
  split
  · next hn => simp [hn]
  · next hn =>
    have hpos := length_decimalText_pos (n / 10)
    rw [List.length_append, List.length_singleton]
    omega

theorem noNul_reportDocument : 0 ∉ reportDocument ulCurrentPowerOnState ulClientToken := by
  have hhead : 0 ∉ reportHead := by decide
  have hmiddle : 0 ∉ reportMiddle := by decide
  have htail : 0 ∉ reportTail := by decide
  have htoken : 0 ∉ tokenText ulClientToken := noNul_of_isDigit (isDigit_decimalDigits 6 _)
  simp only [reportDocument, List.mem_append, not_or]
  exact ⟨⟨⟨⟨hhead, noNul_decimalText _⟩, hmiddle⟩, htoken⟩, htail⟩

/-- What is published is as much of the document as the constant allows, and a terminator. -/
theorem publishReport_eq :
    publishReport ulCurrentPowerOnState ulClientToken =
      some ((reportDocument ulCurrentPowerOnState ulClientToken).take
        shadowexampleShadowReportedJsonLength ++ [0]) := by
  have hlen := length_reportDocument ulCurrentPowerOnState ulClientToken
  have hpos := length_decimalText_pos ulCurrentPowerOnState.toNat
  obtain ⟨b, hb, htake⟩ := snprintf_spec pcUpdateDocument
    (reportDocument ulCurrentPowerOnState ulClientToken) (Nat.succ_pos _) (Nat.zero_add _).le
  have hmin : min shadowexampleShadowReportedJsonLength
      (reportDocument ulCurrentPowerOnState ulClientToken).length =
        shadowexampleShadowReportedJsonLength := Nat.min_eq_left (by omega)
  simp only [Nat.succ_sub_one, List.length_take, hmin, Nat.zero_add, List.take_zero,
    List.nil_append] at htake
  rw [publishReport, hb, Option.map_some, payloadLength, htake]

/-- The bytes that are published are never the document: a terminator is behind it, and where the
state has more than one digit its end is missing too. -/
theorem publishReport_ne_document :
    publishReport ulCurrentPowerOnState (xTickCount % 1000000) ≠
        some (reportDocument ulCurrentPowerOnState (xTickCount % 1000000)) ∧
      ∃ pPayload, publishReport ulCurrentPowerOnState (xTickCount % 1000000) = some pPayload ∧
        pPayload.getLast? = some 0 ∧
        (reportDocument ulCurrentPowerOnState (xTickCount % 1000000) <+: pPayload ↔
          ulCurrentPowerOnState < 10) := by
  have hlen := length_reportDocument ulCurrentPowerOnState (xTickCount % 1000000)
  have hone := length_decimalText_eq_one_iff ulCurrentPowerOnState.toNat
  have hpos := length_decimalText_pos ulCurrentPowerOnState.toNat
  have hnul := noNul_reportDocument ulCurrentPowerOnState (xTickCount % 1000000)
  have hne : (reportDocument ulCurrentPowerOnState (xTickCount % 1000000)).take
      shadowexampleShadowReportedJsonLength ++ [0] ≠
        reportDocument ulCurrentPowerOnState (xTickCount % 1000000) := by
    intro h
    rw [← h] at hnul
    exact hnul (List.mem_append_right _ (List.mem_singleton_self 0))
  rw [publishReport_eq]
  refine ⟨fun h => hne (Option.some.inj h), _, rfl, List.getLast?_concat, ?_⟩
  rw [UInt32.lt_iff_toNat_lt]
  show _ ↔ ulCurrentPowerOnState.toNat < 10
  rw [← hone]
  constructor
  · intro hpre
    have hle := hpre.length_le
    rw [List.length_append, List.length_take, List.length_singleton] at hle
    by_contra hdigits
    -- A longer state leaves the document at least as long as what is published.
    refine hne (hpre.eq_of_length ?_).symm
    rw [List.length_append, List.length_take, List.length_singleton]
    omega
  · intro hdigit
    rw [List.take_of_length_le (by omega)]
    exact List.prefix_append _ _

end report

theorem publishReport_one :
    publishReport 1 (21909 % 1000000) ≠ some (reportDocument 1 (21909 % 1000000)) ∧
      publishReport 1 (21909 % 1000000) = some (reportDocument 1 (21909 % 1000000) ++ [0]) := by
  decide +kernel

end RenesasDemo.Shadow
