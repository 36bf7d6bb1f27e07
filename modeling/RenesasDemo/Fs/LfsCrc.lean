import Mathlib.Tactic.IntervalCases
import RenesasDemo.Framework.Crc

namespace RenesasDemo.Fs
open Framework

/-- `rtable`, the remainders of the sixteen nibbles. -/
def rtable : List (BitVec 32) :=
  [0x00000000#32, 0x1db71064#32, 0x3b6e20c8#32, 0x26d930ac#32,
   0x76dc4190#32, 0x6b6b51f4#32, 0x4db26158#32, 0x5005713c#32,
   0xedb88320#32, 0xf00f9344#32, 0xd6d6a3e8#32, 0xcb61b38c#32,
   0x9b64c2b0#32, 0x86d3d2d4#32, 0xa00ae278#32, 0xbdbdf21c#32]

/-- One line of the loop: `crc = ( crc >> 4 ) ^ rtable[ ( crc ^ d ) & 0xf ]`. -/
def crcNibble (crc : BitVec 32) (d : UInt8) : BitVec 32 :=
  (crc >>> 4) ^^^ rtable.getD ((crc ^^^ d.toBitVec.setWidth 32) &&& 0xf#32).toNat 0#32

def lfs_crc (crc : BitVec 32) (buffer : List UInt8) : BitVec 32 :=
  buffer.foldl (fun crc (data : UInt8) => crcNibble (crcNibble crc (data >>> 0)) (data >>> 4)) crc

/-- The polynomial of CRC-32, its bits reversed. -/
def crc32Poly : BitVec 32 := 0xedb88320#32

theorem rtable_eq : ∀ i : BitVec 4, rtable.getD i.toNat 0#32 = crcTable crc32Poly 4 i := by
  decide

theorem and_0xf (x : BitVec 32) : (x &&& 0xf#32).toNat = (x.setWidth 4).toNat := by
  rw [BitVec.toNat_and, BitVec.toNat_setWidth]
  exact Nat.and_two_pow_sub_one_eq_mod x.toNat 4

theorem crcNibble_eq (crc : BitVec 32) (d : UInt8) :
    crcNibble crc d = crcBits crc32Poly crc (lsbFirst (d.toBitVec.setWidth 4)) := by
  rw [crcBits_lsbFirst (by decide), crcNibble, and_0xf, rtable_eq, BitVec.setWidth_xor]
  congr 3

theorem lsbFirst_byte (d : UInt8) :
    lsbFirst d.toBitVec =
      lsbFirst ((d >>> 0).toBitVec.setWidth 4) ++ lsbFirst ((d >>> 4).toBitVec.setWidth 4) := by
  have hlow : (d >>> 0).toBitVec = d.toBitVec := by simp
  have hhigh : (d >>> 4).toBitVec = d.toBitVec >>> 4 := by simp
  rw [hlow, hhigh]
  exact lsbFirst_add (m := 4) (n := 4) d.toBitVec

/-- The table of nibbles computes the serial CRC. -/
theorem lfs_crc_eq_crcBits (crc : BitVec 32) (buffer : List UInt8) :
    lfs_crc crc buffer = crcBits crc32Poly crc (streamBits buffer) := by
  induction buffer generalizing crc with
  | nil => rfl
  | cons data buffer ih =>
    have hbyte : crcNibble (crcNibble crc (data >>> 0)) (data >>> 4) =
        crcBits crc32Poly crc (lsbFirst data.toBitVec) := by
      rw [crcNibble_eq, crcNibble_eq, lsbFirst_byte, crcBits_append]
    rw [streamBits, List.flatMap_cons, crcBits_append, ← hbyte]
    exact ih _

/-- A block and its tags, summed piece by piece with the sum so far handed on. -/
theorem lfs_crc_pieces (crc : BitVec 32) (pieces : List (List UInt8)) :
    pieces.foldl lfs_crc crc = crcBits crc32Poly crc (streamBits pieces.flatten) := by
  induction pieces generalizing crc with
  | nil => rfl
  | cons piece pieces ih =>
    rw [List.foldl_cons, ih, lfs_crc_eq_crcBits, List.flatten_cons, streamBits, streamBits,
      streamBits, List.flatMap_append, crcBits_append]

theorem msb_crc32Poly : crc32Poly.msb = true := by decide

/-- Damage within 32 bits in a row always changes the sum. -/
theorem lfs_crc_burst (crc : BitVec 32) {x y : List UInt8} (hlen : x.length = y.length) (k : Nat)
    (hout : ∀ i, i < k ∨ k + 32 ≤ i → (streamBits x)[i]? = (streamBits y)[i]?) (hne : x ≠ y) :
    lfs_crc crc x ≠ lfs_crc crc y := by
  intro h
  rw [lfs_crc_eq_crcBits, lfs_crc_eq_crcBits] at h
  have hbits : (streamBits x).length = (streamBits y).length := by
    rw [length_streamBits, length_streamBits, hlen]
  exact hne (streamBits_injective (eq_of_crcBits_window msb_crc32Poly hbits k hout h))

theorem lfs_crc_burst_last_byte :
    lfs_crc 0xffffffff#32 [1, 2, 3, 4, 5] ≠ lfs_crc 0xffffffff#32 [1, 2, 3, 4, 4] := by
  refine lfs_crc_burst _ rfl 8 ?_ (by decide)
  rintro i (hlow | hhigh)
  · interval_cases i <;> rfl
  · have hend : ∀ data : List UInt8, data.length = 5 → (streamBits data)[i]? = none := by
      intro data hdata
      rw [List.getElem?_eq_none]
      rw [length_streamBits, hdata]
      exact hhigh
    rw [hend _ rfl, hend _ rfl]

/-- The check value of CRC-32. -/
example : lfs_crc 0xffffffff#32 [49, 50, 51, 52, 53, 54, 55, 56, 57] ^^^ 0xffffffff#32 =
    0xcbf43926#32 := by decide

end RenesasDemo.Fs
