import RenesasDemo.Framework.NorFlash
import RenesasDemo.Framework.Runs

namespace RenesasDemo.Fs

open Framework Framework.NorFlash

/-- Where the file system is on the flash. Its addresses are 32 bits wide, and the loop of
`lfs_port_prog` steps past the last one that it writes. -/
structure FlashLayout where
  opiStartAddress : Nat
  mx25lmSectorSz : Nat
  blockCount : Nat
  mx25lmProgramFifoLen : Nat
  fifo_pos : 0 < mx25lmProgramFifoLen
  fifo_dvd : mx25lmProgramFifoLen ∣ mx25lmSectorSz
  start_dvd : mx25lmSectorSz ∣ opiStartAddress
  fits : opiStartAddress + blockCount * mx25lmSectorSz < 0x100000000

/-- The OSPI driver (its code is not here), with the flash in its state. It writes pages and
erases sectors; a command that fails may leave anything in its own. -/
structure OspiDriver (σ : Type) (l : FlashLayout) where
  cells : σ → Nat → UInt8
  ospiReadAddr : σ → Nat → Nat → Bool × List UInt8 × σ
  ospiWriteAddr : σ → Nat → List UInt8 → Bool × σ
  ospiEraseSector : σ → Nat → Bool × σ
  read_cells : ∀ d a n, cells (ospiReadAddr d a n).2.2 = cells d
  read_done : ∀ d a n, (ospiReadAddr d a n).1 = true →
    (ospiReadAddr d a n).2.1 = read (cells d) a n
  write_done : ∀ d a bytes, l.mx25lmProgramFifoLen ∣ a → bytes.length = l.mx25lmProgramFifoLen →
    (ospiWriteAddr d a bytes).1 = true → cells (ospiWriteAddr d a bytes).2 =
      program (cells d) a bytes
  write_frame : ∀ d a bytes, l.mx25lmProgramFifoLen ∣ a → bytes.length = l.mx25lmProgramFifoLen →
    ∀ b, b < a ∨ a + bytes.length ≤ b → cells (ospiWriteAddr d a bytes).2 b = cells d b
  erase_done : ∀ d a, l.mx25lmSectorSz ∣ a → (ospiEraseSector d a).1 = true →
    cells (ospiEraseSector d a).2 = erase (cells d) a l.mx25lmSectorSz
  erase_frame : ∀ d a, l.mx25lmSectorSz ∣ a →
    ∀ b, b < a ∨ a + l.mx25lmSectorSz ≤ b → cells (ospiEraseSector d a).2 b = cells d b

namespace FlashLayout

variable (l : FlashLayout)

def address (block off : Nat) : Nat :=
  (l.opiStartAddress + block * l.mx25lmSectorSz + off) % 0x100000000

/-- What the loop of `lfs_port_prog` hands over in one of its passes. -/
def chunk (bytes : List UInt8) (i : Nat) : List UInt8 :=
  (bytes.drop (i * l.mx25lmProgramFifoLen)).take l.mx25lmProgramFifoLen

section addresses

variable {l} {block block' off off' : Nat}

theorem block_le (h : block < block') :
    block * l.mx25lmSectorSz + l.mx25lmSectorSz ≤ block' * l.mx25lmSectorSz := by
  have hle := Nat.mul_le_mul_right l.mx25lmSectorSz (Nat.succ_le_of_lt h)
  rwa [Nat.succ_mul] at hle

/-- No address of the file system wraps. -/
theorem address_eq (hblock : block < l.blockCount) (hoff : off ≤ l.mx25lmSectorSz) :
    l.address block off = l.opiStartAddress + block * l.mx25lmSectorSz + off := by
  have hle := block_le (l := l) hblock
  have hfits := l.fits
  exact Nat.mod_eq_of_lt (by omega)

theorem address_add_lt (hblock : block < l.blockCount) (hoff : off ≤ l.mx25lmSectorSz) :
    l.address block 0 + off < 0x100000000 := by
  have hle := block_le (l := l) hblock
  have hfits := l.fits
  rw [address_eq hblock (Nat.zero_le _)]
  omega

theorem address_add (hblock : block < l.blockCount) (hoff : off ≤ l.mx25lmSectorSz) :
    l.address block off = l.address block 0 + off := by
  rw [address_eq hblock hoff, address_eq hblock (Nat.zero_le _), Nat.add_zero]

/-- Cells of two blocks are apart. -/
theorem address_ne_block (hblock : block < l.blockCount) (hblock' : block' < l.blockCount)
    (hne : block' ≠ block) (hoff' : off' < l.mx25lmSectorSz) :
    l.address block' off' < l.address block 0 ∨
      l.address block 0 + l.mx25lmSectorSz ≤ l.address block' off' := by
  rw [address_eq hblock (Nat.zero_le _), address_eq hblock' (Nat.le_of_lt hoff')]
  obtain hlt | hlt := Nat.lt_or_gt_of_ne hne
  · have hle := block_le (l := l) hlt
    omega
  · have hle := block_le (l := l) hlt
    omega

theorem sector_dvd_address (hblock : block < l.blockCount) :
    l.mx25lmSectorSz ∣ l.address block 0 := by
  rw [address_eq hblock (Nat.zero_le _), Nat.add_zero]
  exact Nat.dvd_add l.start_dvd (Nat.dvd_mul_left _ _)

theorem fifo_dvd_address (hblock : block < l.blockCount) (hoff : off ≤ l.mx25lmSectorSz)
    (hpage : l.mx25lmProgramFifoLen ∣ off) : l.mx25lmProgramFifoLen ∣ l.address block off := by
  rw [address_add hblock hoff]
  exact Nat.dvd_add (Nat.dvd_trans l.fifo_dvd (sector_dvd_address hblock)) hpage

end addresses

theorem length_chunk {l : FlashLayout} {bytes : List UInt8} {i n : Nat} (hi : i < n)
    (hn : n * l.mx25lmProgramFifoLen = bytes.length) :
    (l.chunk bytes i).length = l.mx25lmProgramFifoLen := by
  have hle := Nat.mul_le_mul_right l.mx25lmProgramFifoLen (Nat.succ_le_of_lt hi)
  rw [Nat.succ_mul, hn] at hle
  rw [chunk, List.length_take, List.length_drop]
  omega

end FlashLayout

namespace OspiDriver

open FlashLayout

variable {σ : Type} {l : FlashLayout} (p : OspiDriver σ l)

def lfsPortRead (d : σ) (block off size : Nat) : Int × List UInt8 × σ :=
  let (done, bytes, d') := p.ospiReadAddr d (l.address block off) size
  (if done then 0 else -1, bytes, d')

def progLoop (bytes : List UInt8) (ulStartAddr ulLastAddr : Nat) :
    Nat → Nat → σ → Option (Int × σ)
  | 0, _, _ => none
  | fuel + 1, ulWriteAddr, d =>
    if ulWriteAddr ≤ ulLastAddr then
      let chunk := (bytes.drop (ulWriteAddr - ulStartAddr)).take l.mx25lmProgramFifoLen
      let (done, d') := p.ospiWriteAddr d ulWriteAddr chunk
      if done then
        progLoop bytes ulStartAddr ulLastAddr fuel
          ((ulWriteAddr + l.mx25lmProgramFifoLen) % 0x100000000) d'
      else some (-1, d')
    else some (0, d)

/-- `none` would be a loop that does not end in one pass for each chunk and one more test. -/
def lfsPortProg (d : σ) (block off : Nat) (bytes : List UInt8) : Option (Int × σ) :=
  let ulStartAddr := l.address block off
  let ulLastAddr := (ulStartAddr + bytes.length - l.mx25lmProgramFifoLen) % 0x100000000
  p.progLoop bytes ulStartAddr ulLastAddr (bytes.length / l.mx25lmProgramFifoLen + 1) ulStartAddr d

def lfsPortErase (d : σ) (block : Nat) : Int × σ :=
  let (done, d') := p.ospiEraseSector d (l.address block 0)
  (if done then 0 else -1, d')

def behindChunks (d : σ) (address : Nat) (bytes : List UInt8) : Nat → σ
  | 0 => d
  | i + 1 => (p.ospiWriteAddr (behindChunks d address bytes i)
      (address + i * l.mx25lmProgramFifoLen) (l.chunk bytes i)).2

def ChunkWritten (d : σ) (address : Nat) (bytes : List UInt8) (i : Nat) : Prop :=
  (p.ospiWriteAddr (p.behindChunks d address bytes i)
    (address + i * l.mx25lmProgramFifoLen) (l.chunk bytes i)).1 = true

section loop

variable {p} {d : σ} {bytes : List UInt8} {address n : Nat}

theorem cells_behindChunks (hn : n * l.mx25lmProgramFifoLen = bytes.length)
    (haddress : l.mx25lmProgramFifoLen ∣ address) {k : Nat} (hk : k ≤ n)
    (hall : ∀ i < k, p.ChunkWritten d address bytes i) :
    p.cells (p.behindChunks d address bytes k) =
      program (p.cells d) address (bytes.take (k * l.mx25lmProgramFifoLen)) := by
  induction k with
  | zero =>
    rw [Nat.zero_mul, List.take_zero]
    funext a
    by_cases ha : a < address
    · exact (program_of_lt ha).symm
    · exact (program_of_le (Nat.le_of_not_lt ha)).symm
  | succ k ih =>
    have hchunk := length_chunk (l := l) hk hn
    have hlen : (bytes.take (k * l.mx25lmProgramFifoLen)).length = k * l.mx25lmProgramFifoLen := by
      have hle := Nat.mul_le_mul_right l.mx25lmProgramFifoLen (Nat.le_of_succ_le hk)
      rw [List.length_take]
      omega
    have happend := program_append (p.cells d) address
      (bytes.take (k * l.mx25lmProgramFifoLen)) (l.chunk bytes k)
    rw [hlen, chunk, ← List.take_add, ← Nat.succ_mul] at happend
    rw [behindChunks, p.write_done _ _ _ (Nat.dvd_add haddress (Nat.dvd_mul_left _ _)) hchunk
      (hall k (Nat.lt_succ_self k)), ih (Nat.le_of_succ_le hk) fun i hi =>
      hall i (Nat.lt_succ_of_lt hi), ← happend, chunk]

theorem cells_behindChunks_frame (hn : n * l.mx25lmProgramFifoLen = bytes.length)
    (haddress : l.mx25lmProgramFifoLen ∣ address) {k : Nat} (hk : k ≤ n) {a : Nat}
    (ha : a < address ∨ address + bytes.length ≤ a) :
    p.cells (p.behindChunks d address bytes k) a = p.cells d a := by
  induction k with
  | zero => rfl
  | succ k ih =>
    have hchunk := length_chunk (l := l) hk hn
    have hle := Nat.mul_le_mul_right l.mx25lmProgramFifoLen hk
    rw [Nat.succ_mul, hn] at hle
    rw [behindChunks, p.write_frame _ _ _ (Nat.dvd_add haddress (Nat.dvd_mul_left _ _)) hchunk a
      (by rw [hchunk]; omega)]
    exact ih (Nat.le_of_succ_le hk)

theorem progLoop_spec (hpos : bytes ≠ []) (hlt : address + bytes.length < 0x100000000)
    (left : Nat) (k : Nat) (hn : (k + left) * l.mx25lmProgramFifoLen = bytes.length) :
    ∃ rv m, p.progLoop bytes address (address + bytes.length - l.mx25lmProgramFifoLen) (left + 1)
        (address + k * l.mx25lmProgramFifoLen) (p.behindChunks d address bytes k) =
          some (rv, p.behindChunks d address bytes m) ∧
      m ≤ k + left ∧ (rv = 0 → m = k + left) ∧
      (rv = 0 ↔ ∀ i, k ≤ i → i < k + left → p.ChunkWritten d address bytes i) := by
  have hfifo := l.fifo_pos
  have hlen := List.length_pos_of_ne_nil hpos
  induction left generalizing k with
  | zero =>
    refine ⟨0, k, ?_, Nat.le_refl k, fun _ => rfl, fun _ i hle hi => ?_, fun _ => rfl⟩
    · rw [Nat.add_zero] at hn
      rw [progLoop, if_neg (by omega)]
    · exact absurd hi (Nat.not_lt.mpr hle)
  | succ left ih =>
    have hle := Nat.mul_le_mul_right l.mx25lmProgramFifoLen
      (show k + 1 ≤ k + (left + 1) by omega)
    rw [Nat.succ_mul, hn] at hle
    rw [progLoop, if_pos (by omega), Nat.add_sub_cancel_left, ← chunk]
    by_cases hwritten : p.ChunkWritten d address bytes k
    · obtain ⟨rv, m, hloop, hm, hend, hrv⟩ := ih (k + 1) (by rw [← hn]; congr 1; omega)
      refine ⟨rv, m, ?_, by omega, fun hzero => by have := hend hzero; omega, ?_⟩
      · rw [Nat.succ_mul, ← Nat.add_assoc] at hloop
        simp only [ChunkWritten] at hwritten
        simp only [hwritten, if_true]
        rw [Nat.mod_eq_of_lt (by omega)]
        exact hloop
      · rw [hrv]
        refine ⟨fun hall i hk hi => ?_, fun hall i hk hi => hall i (by omega) (by omega)⟩
        obtain rfl | hne := Nat.eq_or_lt_of_le hk
        · exact hwritten
        · exact hall i hne (by omega)
    · refine ⟨-1, k + 1, ?_, by omega, nofun, nofun, fun hall => ?_⟩
      · simp only [ChunkWritten] at hwritten
        simp only [hwritten]
        rfl
      · exact absurd (hall k (Nat.le_refl k) (by omega)) hwritten

/-- What a call of `lfs_port_prog` does, with any answers of the driver. -/
theorem lfsPortProg_spec {block off : Nat} (d : σ) (hblock : block < l.blockCount)
    (hpos : bytes ≠ []) (hpage : l.mx25lmProgramFifoLen ∣ off)
    (hchunks : bytes.length % l.mx25lmProgramFifoLen = 0)
    (hroom : off + bytes.length ≤ l.mx25lmSectorSz) :
    ∃ rv d', p.lfsPortProg d block off bytes = some (rv, d') ∧
      (rv = 0 ↔ ∀ i < bytes.length / l.mx25lmProgramFifoLen,
        p.ChunkWritten d (l.address block off) bytes i) ∧
      (rv = 0 → p.cells d' = program (p.cells d) (l.address block off) bytes) ∧
      ∀ a, a < l.address block off ∨ l.address block off + bytes.length ≤ a →
        p.cells d' a = p.cells d a := by
  have hlt : l.address block off + bytes.length < 0x100000000 := by
    have hlt := address_add_lt hblock hroom
    rw [address_add hblock (by omega)]
    omega
  have haddress := fifo_dvd_address hblock (by omega) hpage
  have hn : (0 + bytes.length / l.mx25lmProgramFifoLen) * l.mx25lmProgramFifoLen =
      bytes.length := by
    rw [Nat.zero_add]
    exact Nat.div_mul_cancel (Nat.dvd_of_mod_eq_zero hchunks)
  obtain ⟨rv, m, hloop, hm, hend, hrv⟩ := progLoop_spec (p := p) (d := d) hpos hlt _ 0 hn
  have hlast : (l.address block off + bytes.length - l.mx25lmProgramFifoLen) % 0x100000000 =
      l.address block off + bytes.length - l.mx25lmProgramFifoLen :=
    Nat.mod_eq_of_lt (Nat.lt_of_le_of_lt (Nat.sub_le _ _) hlt)
  rw [Nat.zero_mul, Nat.add_zero] at hloop
  refine ⟨rv, _, by rw [lfsPortProg, hlast]; exact hloop, ?_, fun hzero => ?_, fun a ha => ?_⟩
  · rw [hrv, Nat.zero_add]
    exact ⟨fun h i hi => h i (Nat.zero_le i) hi, fun h i _ hi => h i hi⟩
  · obtain rfl := hend hzero
    rw [cells_behindChunks hn haddress (Nat.le_refl _) fun i hi =>
      hrv.mp hzero i (Nat.zero_le i) hi, hn, List.take_length]
  · exact cells_behindChunks_frame hn haddress hm ha

end loop

section others

variable {p} {d : σ} {block off size : Nat}

theorem cells_lfsPortRead : p.cells (p.lfsPortRead d block off size).2.2 = p.cells d :=
  p.read_cells d _ size

theorem lfsPortRead_of_zero (h : (p.lfsPortRead d block off size).1 = 0) :
    (p.lfsPortRead d block off size).2.1 = read (p.cells d) (l.address block off) size := by
  refine p.read_done d _ size ?_
  by_contra hfailed
  simp [lfsPortRead, hfailed] at h

theorem cells_lfsPortErase_of_zero (hblock : block < l.blockCount)
    (h : (p.lfsPortErase d block).1 = 0) :
    p.cells (p.lfsPortErase d block).2 =
      erase (p.cells d) (l.address block 0) l.mx25lmSectorSz := by
  refine p.erase_done d _ (sector_dvd_address hblock) ?_
  by_contra hfailed
  simp [lfsPortErase, hfailed] at h

end others

end OspiDriver

/-- The flash behind its driver, and what the calls have told of each byte. -/
structure BlockDevice (σ : Type) where
  driver : σ
  known : Nat → Nat → Cell

inductive LfsCall where
  | read (block off size : Nat)
  | prog (block off : Nat) (bytes : List UInt8)
  | erase (block : Nat)

namespace BlockDevice

variable {σ : Type} {l : FlashLayout} (p : OspiDriver σ l)

def start (d : σ) : BlockDevice σ := ⟨d, fun _ _ => .unknown⟩

def learn (known : Nat → Nat → Cell) (block off n : Nat) (cell : Nat → Cell) : Nat → Nat → Cell :=
  fun b o => if b = block ∧ off ≤ o ∧ o < off + n then cell (o - off) else known b o

/-- Calls as littlefs makes them: inside a block, and programming only pages of what was erased. -/
def Enabled (l : FlashLayout) (s : BlockDevice σ) : LfsCall → Prop
  | .read block off size => block < l.blockCount ∧ 0 < size ∧ off + size ≤ l.mx25lmSectorSz
  | .prog block off bytes =>
      block < l.blockCount ∧ bytes ≠ [] ∧ l.mx25lmProgramFifoLen ∣ off ∧
        bytes.length % l.mx25lmProgramFifoLen = 0 ∧ off + bytes.length ≤ l.mx25lmSectorSz ∧
        ∀ i < bytes.length, s.known block (off + i) = .erased
  | .erase block => block < l.blockCount

def afterRead (s : BlockDevice σ) (block off size : Nat) : Int × List UInt8 × σ → BlockDevice σ
  | (rv, bytes, d) =>
      ⟨d, learn s.known block off size fun i =>
        if rv = 0 then (s.known block (off + i)).reported (bytes.getD i 0)
        else s.known block (off + i)⟩

def afterProg (s : BlockDevice σ) (block off : Nat) (bytes : List UInt8) :
    Int × σ → BlockDevice σ
  | (rv, d) =>
      ⟨d, learn s.known block off bytes.length fun i =>
        if rv = 0 then .holds (bytes.getD i 0) else .unknown⟩

def afterErase (l : FlashLayout) (s : BlockDevice σ) (block : Nat) : Int × σ → BlockDevice σ
  | (rv, d) =>
      ⟨d, learn s.known block 0 l.mx25lmSectorSz fun _ => if rv = 0 then .erased else .unknown⟩

def next (s : BlockDevice σ) : LfsCall → Option (BlockDevice σ)
  | .read block off size =>
      some (s.afterRead block off size (p.lfsPortRead s.driver block off size))
  | .prog block off bytes =>
      (p.lfsPortProg s.driver block off bytes).map (s.afterProg block off bytes)
  | .erase block => some (s.afterErase l block (p.lfsPortErase s.driver block))

def Step (s : BlockDevice σ) (e : LfsCall) (t : BlockDevice σ) : Prop :=
  s.Enabled l e ∧ s.next p e = some t

def Sound (s : BlockDevice σ) : Prop :=
  ∀ block off, block < l.blockCount → off < l.mx25lmSectorSz →
    (s.known block off).Allows (p.cells s.driver (l.address block off))

section steps

open FlashLayout OspiDriver

variable {p} {s t : BlockDevice σ} {e : LfsCall} {block off n : Nat}

theorem sound_start (d : σ) : (start d).Sound p := fun _ _ _ _ => trivial

theorem Sound.allows_at (h : s.Sound p) (hblock : block < l.blockCount) {i : Nat}
    (hi : off + i < l.mx25lmSectorSz) :
    (s.known block (off + i)).Allows (p.cells s.driver (l.address block off + i)) := by
  have hknown := h block (off + i) hblock hi
  rwa [address_add hblock (by omega), ← Nat.add_assoc, ← address_add hblock (by omega)] at hknown

/-- A command that keeps to a range of one block, and what is learned of that range. -/
theorem Sound.learn (h : s.Sound p) (hblock : block < l.blockCount)
    (hroom : off + n ≤ l.mx25lmSectorSz) {d : σ} {cell : Nat → Cell}
    (hframe : ∀ a, a < l.address block off ∨ l.address block off + n ≤ a →
      p.cells d a = p.cells s.driver a)
    (hcell : ∀ i < n, (cell i).Allows (p.cells d (l.address block off + i))) :
    Sound p ⟨d, learn s.known block off n cell⟩ := by
  have hle : off ≤ l.mx25lmSectorSz := by omega
  have hbase := address_add hblock hle
  intro b o hb ho
  simp only [BlockDevice.learn]
  split
  · next hin =>
    obtain ⟨rfl, hle, hlt⟩ := hin
    have haddr : l.address b o = l.address b off + (o - off) := by
      rw [hbase, address_add hb (Nat.le_of_lt ho)]
      omega
    rw [haddr]
    exact hcell (o - off) (by omega)
  · next hout =>
    have haway : l.address b o < l.address block off ∨
        l.address block off + n ≤ l.address b o := by
      by_cases hsame : b = block
      · subst hsame
        rw [hbase, address_add hb (Nat.le_of_lt ho)]
        omega
      · have hapart := address_ne_block hblock hb hsame ho
        omega
    have hold := h b o hb ho
    rwa [← hframe _ haway] at hold

/-- A read that reports success agrees with what is known. -/
theorem Sound.read {size : Nat} (h : s.Sound p) (he : s.Enabled l (.read block off size))
    {bytes : List UInt8} {d : σ} (hread : p.lfsPortRead s.driver block off size = (0, bytes, d)) :
    bytes.length = size ∧
      ∀ i (hi : i < bytes.length), (s.known block (off + i)).Allows bytes[i] := by
  have hzero := lfsPortRead_of_zero (congrArg Prod.fst hread)
  rw [hread] at hzero
  obtain rfl : bytes = _ := hzero
  refine ⟨length_read, fun i hi => ?_⟩
  rw [length_read] at hi
  rw [getElem_read]
  exact h.allows_at he.1 (by have := he.2.2; omega)

theorem Sound.afterRead {size : Nat} (h : s.Sound p) (he : s.Enabled l (.read block off size)) :
    (s.afterRead block off size (p.lfsPortRead s.driver block off size)).Sound p := by
  have hcells : p.cells (p.lfsPortRead s.driver block off size).2.2 = p.cells s.driver :=
    cells_lfsPortRead
  generalize hr : p.lfsPortRead s.driver block off size = r at hcells
  obtain ⟨rv, bytes, d⟩ := r
  refine h.learn he.1 he.2.2 (fun a _ => congrFun hcells a) fun i hi => ?_
  have hoff : off + i < l.mx25lmSectorSz := by
    have := he.2.2
    omega
  have hallows := h.allows_at he.1 hoff
  rw [hcells]
  split
  · next hzero =>
    obtain rfl := hzero
    have hbytes := lfsPortRead_of_zero (congrArg Prod.fst hr)
    rw [hr] at hbytes
    obtain rfl : bytes = _ := hbytes
    rw [List.getD_eq_getElem _ _ (by rwa [length_read]), getElem_read]
    exact hallows.reported
  · exact hallows

theorem Sound.prog (h : s.Sound p) {bytes : List UInt8}
    (he : s.Enabled l (.prog block off bytes)) :
    ∃ rv d', p.lfsPortProg s.driver block off bytes = some (rv, d') ∧
      (rv = 0 ↔ ∀ i < bytes.length / l.mx25lmProgramFifoLen,
        p.ChunkWritten s.driver (l.address block off) bytes i) ∧
      (rv = 0 → ∀ i (hi : i < bytes.length),
        p.cells d' (l.address block off + i) = bytes[i]) ∧
      (s.afterProg block off bytes (rv, d')).Sound p := by
  obtain ⟨hblock, hpos, hpage, hchunks, hroom, herased⟩ := he
  obtain ⟨rv, d', hprog, hrv, hcells, hframe⟩ :=
    lfsPortProg_spec (p := p) s.driver hblock hpos hpage hchunks hroom
  have hwritten : rv = 0 → ∀ i (hi : i < bytes.length),
      p.cells d' (l.address block off + i) = bytes[i] := by
    intro hzero i hi
    have hoff : off + i < l.mx25lmSectorSz := by omega
    have hff := h.allows_at hblock hoff
    rw [herased i hi] at hff
    rw [hcells hzero]
    exact program_erased hi hff
  refine ⟨rv, d', hprog, hrv, hwritten, h.learn hblock hroom hframe fun i hi => ?_⟩
  split
  · next hzero =>
    rw [Cell.Allows, hwritten hzero i hi]
    exact (List.getD_eq_getElem _ _ hi).symm
  · trivial

theorem Sound.erase (h : s.Sound p) (hblock : block < l.blockCount) :
    (s.afterErase l block (p.lfsPortErase s.driver block)).Sound p := by
  refine h.learn hblock (Nat.le_of_eq (Nat.zero_add _))
    (p.erase_frame s.driver _ (sector_dvd_address hblock)) fun i hi => ?_
  change (if (p.lfsPortErase s.driver block).1 = 0 then Cell.erased else .unknown).Allows
    (p.cells (p.lfsPortErase s.driver block).2 _)
  by_cases hzero : (p.lfsPortErase s.driver block).1 = 0
  · rw [if_pos hzero, cells_lfsPortErase_of_zero hblock hzero]
    exact erase_of_mem (Nat.le_add_right _ _) (Nat.add_lt_add_left hi _)
  · rw [if_neg hzero]
    trivial

theorem Sound.step (h : s.Sound p) (hs : s.Step p e t) : t.Sound p := by
  obtain ⟨he, hnext⟩ := hs
  cases e with
  | read block off size =>
    obtain rfl := Option.some.inj hnext
    exact h.afterRead he
  | prog block off bytes =>
    obtain ⟨rv, d', hprog, -, -, hsound⟩ := h.prog he
    rw [next, hprog] at hnext
    obtain rfl := Option.some.inj hnext
    exact hsound
  | erase block =>
    obtain rfl := Option.some.inj hnext
    exact h.erase he

end steps

variable {p} {s : BlockDevice σ} {d : σ} {es : List LfsCall}

/-- In every run, with any driver that keeps to its laws: a read that reports success agrees with
all that the calls before it have reported of these bytes; `lfs_port_prog` comes back, with success
exactly if no chunk failed, and then a read of the bytes gives them. -/
theorem blockDevice_run (h : Run (Step p) (start d) es s) :
    (∀ block off size bytes d', s.Enabled l (.read block off size) →
      p.lfsPortRead s.driver block off size = (0, bytes, d') → bytes.length = size ∧
        ∀ i (hi : i < bytes.length), (s.known block (off + i)).Allows bytes[i]) ∧
      ∀ block off bytes, s.Enabled l (.prog block off bytes) →
        ∃ rv d', p.lfsPortProg s.driver block off bytes = some (rv, d') ∧
          (rv = 0 ↔ ∀ i < bytes.length / l.mx25lmProgramFifoLen,
            p.ChunkWritten s.driver (l.address block off) bytes i) ∧
          (rv = 0 → ∀ back d'', p.lfsPortRead d' block off bytes.length = (0, back, d'') →
            back = bytes) := by
  have hs : s.Sound p := h.invariant (sound_start d) fun _ _ _ hu hstep => hu.step hstep
  refine ⟨fun block off size bytes d' he hread => hs.read he hread, fun block off bytes he => ?_⟩
  obtain ⟨rv, d', hprog, hrv, hwritten, -⟩ := hs.prog he
  refine ⟨rv, d', hprog, hrv, fun hzero back d'' hread => ?_⟩
  have hback := OspiDriver.lfsPortRead_of_zero (congrArg Prod.fst hread)
  rw [hread] at hback
  exact hback.trans (read_eq (hwritten hzero))

private def smallFlash : FlashLayout := ⟨16, 4, 2, 2, Nat.two_pos, by decide, by decide, by decide⟩

/-- A driver none of whose commands fails. -/
private def goodDriver : OspiDriver (Nat → UInt8) smallFlash where
  cells d := d
  ospiReadAddr d a n := (true, read d a n, d)
  ospiWriteAddr d a bytes := (true, program d a bytes)
  ospiEraseSector d a := (true, erase d a 4)
  read_cells _ _ _ := rfl
  read_done _ _ _ _ := rfl
  write_done _ _ _ _ _ _ := rfl
  write_frame d a bytes _ _ b hb := by
    obtain hb | hb := hb
    · exact program_of_lt hb
    · exact program_of_le hb
  erase_done _ _ _ _ := rfl
  erase_frame _ _ _ _ hb := erase_of_notMem hb

/-- Two chunks in the second block, which was erased. -/
theorem blockDevice_run_erased : ∃ d' : Nat → UInt8,
    goodDriver.lfsPortProg (fun _ => 0xFF) 1 0 [1, 2, 3, 4] = some (0, d') ∧
      (goodDriver.lfsPortRead d' 1 0 4).2.1 = [1, 2, 3, 4] := by
  have hrun : Run (Step goodDriver) (start fun _ => 0xFF) [.erase 1]
      ⟨fun _ => 0xFF, learn (fun _ _ => .unknown) 1 0 4 fun _ => .erased⟩ := by
    refine .single ⟨Nat.one_lt_two, congrArg some (congrArg₂ BlockDevice.mk ?_ rfl)⟩
    funext a
    exact ite_self _
  obtain ⟨rv, d', hprog, hrv, hback⟩ := (blockDevice_run hrun).2 1 0 [1, 2, 3, 4]
    ⟨Nat.one_lt_two, nofun, Nat.dvd_zero 2, rfl, Nat.le_refl 4, by decide⟩
  obtain rfl : rv = 0 := hrv.mpr fun _ _ => rfl
  exact ⟨d', hprog, hback rfl _ _ rfl⟩

end BlockDevice

end RenesasDemo.Fs
