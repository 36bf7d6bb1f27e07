import RenesasDemo.Framework.CString

namespace RenesasDemo.Cli

open Framework

/-- What a command hands to `print` or `write` of its console. -/
inductive Output where
  | print (pcString : CString)
  | write (pvBuffer : List UInt8)
  deriving DecidableEq

def Output.bytes : Output → List UInt8
  | .print pcString => pcString.bytes
  | .write pvBuffer => pvBuffer

def cliOutputEol : List UInt8 := ascii "\r\n"

def cliInputLineLenMax : Nat := 128

/-- The lines of a text that ends every line with CR LF; readline returns them one by one. -/
def linesOf : List UInt8 → List (List UInt8)
  | [] => []
  | [c] => [[c]]
  | c :: d :: rest =>
    if c = 0x0D ∧ d = 0x0A then [] :: linesOf rest
    else match linesOf (d :: rest) with
      | [] => [[c]]
      | line :: lines => (c :: line) :: lines

theorem linesOf_append {line : List UInt8} (h : 0x0D ∉ line) (rest : List UInt8) :
    linesOf (line ++ cliOutputEol ++ rest) = line :: linesOf rest := by
  induction line with
  | nil =>
    change linesOf (0x0D :: 0x0A :: rest) = _
    rw [linesOf, if_pos ⟨rfl, rfl⟩]
  | cons c line ih =>
    have hc : c ≠ 0x0D := (List.ne_of_not_mem_cons h).symm
    have htail := ih (List.not_mem_of_not_mem_cons h)
    obtain ⟨d, ds, hd⟩ : ∃ d ds, line ++ cliOutputEol ++ rest = d :: ds := by
      cases line with
      | nil => exact ⟨_, _, rfl⟩
      | cons d ds => exact ⟨_, _, rfl⟩
    rw [hd] at htail
    rw [List.cons_append, List.cons_append, hd, linesOf, if_neg fun hcd => hc hcd.1, htail]

end RenesasDemo.Cli
