import Mathlib.Data.List.Nodup
import Mathlib.Data.List.Perm.Subperm
import RenesasDemo.Pki.PsaUtil

namespace RenesasDemo.Tls

open Pki

def mbedtlsErrSslBadInputData : Int := -0x7100

def mbedtlsX509BadcertBadMd : BitVec 32 := 0x4000

def mbedtlsX509BadcertBadPk : BitVec 32 := 0x8000

def mbedtlsX509BadcertBadKey : BitVec 32 := 0x010000

/-- What `xConfigureCAChain` returns. -/
inductive ConfigureStatus where
  | success
  | unknownError
  | invalidParameter
  | insufficientMemory
  | internalError
  | pkiObjectParseFail
  | noValidCaCert
  deriving DecidableEq

def lMbedtlsErrToTransportError (lError : Int) : ConfigureStatus :=
  if lError = 0 then .success
  else if lError = mbedtlsErrX509AllocFailed then .insufficientMemory
  else if lError = mbedtlsErrErrorCorruptionDetected then .internalError
  else if lError = mbedtlsErrSslBadInputData then .invalidParameter
  else if lError = mbedtlsErrX509CertUnknownFormat ∨ lError = mbedtlsErrX509BadInputData ∨
      lError = mbedtlsErrPemBadInputData ∨ lError = mbedtlsErrPemNoHeaderFooterPresent then
    .pkiObjectParseFail
  else if lError < 0 then .unknownError
  else .success

/-- The number that a `PkiStatus_t` is. -/
def pkiStatusValue : PkiStatus → Int
  | .success => 0
  | .err => -1
  | .errArgInvalid => -2
  | .errNomem => -3
  | .errInternal => -6
  | .errNotImplemented => -7
  | .errObj => -0x8000010
  | .errObjNotFound => -0x8000011
  | .errObjParsingFailed => -0x8000012

/-- What the profile is compared with; the bytes tell certificates apart. -/
structure X509Crt where
  raw : List UInt8
  sigMd : Nat
  sigPk : Nat
  pkType : PkType
  pkBitlen : Nat
  groupId : Nat
  deriving DecidableEq

structure CrtProfile where
  allowedMds : BitVec 32
  allowedPks : BitVec 32
  allowedCurves : BitVec 32
  rsaMinBitlen : Nat

/-- What the library is compiled with, and the profile in the TLS context. -/
structure CaConfig where
  mbedtlsRsaC : Bool
  mbedtlsEcpC : Bool
  certProfile : Option CrtProfile

/-- MBEDTLS_X509_ID_FLAG; a parsed certificate has no identifier 0. -/
def x509IdFlag (id : Nat) : BitVec 32 := 1 <<< (id - 1)

def profileFlags (cfg : CaConfig) (p : CrtProfile) (c : X509Crt) : BitVec 32 :=
  (if p.allowedMds &&& x509IdFlag c.sigMd = 0 then mbedtlsX509BadcertBadMd else 0) |||
  (if p.allowedPks &&& x509IdFlag c.sigPk = 0 then mbedtlsX509BadcertBadPk else 0) |||
  (if cfg.mbedtlsRsaC ∧ (c.pkType = .rsa ∨ c.pkType = .rsassaPss) ∧ c.pkBitlen < p.rsaMinBitlen
    then mbedtlsX509BadcertBadKey else 0) |||
  (if cfg.mbedtlsEcpC ∧ (c.pkType = .ecdsa ∨ c.pkType = .eckey ∨ c.pkType = .eckeyDh) ∧
      p.allowedCurves &&& x509IdFlag c.groupId = 0
    then mbedtlsX509BadcertBadKey else 0)

/-- `pxTLSCtx` and `pxCert` may be NULL. -/
def lValidateCertByProfile (pxTLSCtx : Option CaConfig) (pxCert : Option X509Crt) : Int :=
  match pxTLSCtx, pxCert with
  | some cfg, some c =>
      match cfg.certProfile with
      | none => 0
      | some p => (profileFlags cfg p c).toInt
  | _, _ => -1

/-- A certificate object: the one in the TLS context, or a block of the heap. -/
inductive CrtRef where
  | rootCaChain
  | block (i : Nat)
  deriving DecidableEq

structure CrtNode where
  cert : Option X509Crt
  next : Option CrtRef
  deriving DecidableEq

/-- The certificate objects. Blocks are numbered as they are handed out. -/
structure CrtMemory where
  node : CrtRef → CrtNode
  allocated : Nat
  /-- How often a block was freed. -/
  frees : Nat → Nat

namespace CrtMemory

variable (m : CrtMemory) (r : CrtRef)

/-- `mbedtls_calloc` for one more object. -/
def calloc : CrtMemory :=
  { m with
    node := Function.update m.node (.block m.allocated) ⟨none, none⟩
    allocated := m.allocated + 1 }

def set (n : CrtNode) : CrtMemory := { m with node := Function.update m.node r n }

/-- `r->next = next` -/
def setNext (next : CrtRef) : CrtMemory :=
  { m with node := Function.update m.node r { m.node r with next := some next } }

/-- `mbedtls_x509_crt_init` -/
def init : CrtMemory := m.set r ⟨none, none⟩

/-- What reading an object leaves in `r`: its first certificate, and the others in blocks
linked behind it. -/
def fill (m : CrtMemory) (r : CrtRef) : List X509Crt → CrtMemory
  | [] => m
  | [c] => m.set r ⟨some c, none⟩
  | c :: c' :: cs =>
      (m.calloc.set r ⟨some c, some (.block m.allocated)⟩).fill (.block m.allocated) (c' :: cs)

/-- The objects that are met on the way along `next`, `k` steps at most. -/
def follow : Nat → CrtRef → List CrtRef
  | 0, r => [r]
  | k + 1, r => r :: (m.node r).next.elim [] (follow k)

def chain : List CrtRef := m.follow m.allocated r

def certs : List X509Crt := (m.chain r).filterMap fun r => (m.node r).cert

/-- `mbedtls_x509_crt_free`: what is linked behind `r` goes back to the heap. -/
def crtFree : CrtMemory :=
  { m.init r with frees := fun i => m.frees i + (m.chain r).tail.count (.block i) }

/-- `mbedtls_free` -/
def free : CrtMemory :=
  { m with frees := fun i => m.frees i + if r = .block i then 1 else 0 }

end CrtMemory

/-- What becomes of one of `pxRootCaCerts`. -/
structure CaObject where
  /-- `mbedtls_calloc` does not return NULL. -/
  granted : Bool
  /-- What `xPkiReadCertificate` returns, and the certificates it leaves. -/
  xStatus : PkiStatus
  certs : List X509Crt
  parsed : xStatus = .success → certs ≠ []

/-- The variables of `xConfigureCAChain`. -/
structure CaLoop where
  memory : CrtMemory
  pxRootCertIterator : Option CrtRef
  uxValidCertCount : Nat
  lError : Int

section loop

variable (cfg : CaConfig)

/-- `pxTempCaCert`: the first object is part of the context. -/
def CaLoop.tempCaCert (s : CaLoop) (granted : Bool) : Option CrtRef × CrtMemory :=
  match s.pxRootCertIterator with
  | none => (some .rootCaChain, s.memory)
  | some _ =>
      if granted then (some (.block s.memory.allocated), s.memory.calloc) else (none, s.memory)

/-- `lError` once the object was read and its first certificate compared with the profile. -/
def CaObject.lError (o : CaObject) : Int :=
  if pkiStatusValue o.xStatus = 0 then lValidateCertByProfile (some cfg) o.certs.head?
  else pkiStatusValue o.xStatus

/-- What is done with the object that was filled. -/
def CaLoop.settle (s : CaLoop) (r : CrtRef) (m : CrtMemory) (lError : Int) : CaLoop :=
  if lError = 0 then
    { memory :=
        match s.pxRootCertIterator with
        | none => m
        | some it => m.setNext it r
      pxRootCertIterator := some r
      uxValidCertCount := s.uxValidCertCount + 1
      lError }
  else
    { s with
      memory := if s.pxRootCertIterator = none then m.crtFree r else (m.crtFree r).free r
      lError }

def CaLoop.pass (s : CaLoop) (o : CaObject) : CaLoop :=
  match s.tempCaCert o.granted with
  | (none, m) => { s with memory := m, lError := mbedtlsErrX509AllocFailed }
  | (some r, m) => s.settle r ((m.init r).fill r o.certs) (o.lError cfg)

def caLoop : List CaObject → CaLoop → CaLoop
  | [], s => s
  | o :: os, s =>
      let s := s.pass cfg o
      if s.lError = mbedtlsErrX509AllocFailed then s else caLoop os s

def CaLoop.start : CaLoop := ⟨⟨fun _ => ⟨none, none⟩, 0, fun _ => 0⟩, none, 0, 0⟩

/-- The status and the certificate objects that are left; `pxRootCaCerts` is not empty. -/
def xConfigureCAChain (pxRootCaCerts : List CaObject) : ConfigureStatus × CrtMemory :=
  let s := caLoop cfg pxRootCaCerts .start
  (if s.uxValidCertCount = 0 ∧ s.lError ≠ mbedtlsErrX509AllocFailed then .noValidCaCert
    else lMbedtlsErrToTransportError s.lError, s.memory)

def CaObject.Accepted (o : CaObject) : Prop :=
  o.xStatus = .success ∧ lValidateCertByProfile (some cfg) o.certs.head? = 0

instance (o : CaObject) : Decidable (o.Accepted cfg) :=
  inferInstanceAs (Decidable (_ ∧ _))

def accepted (objects : List CaObject) : List CaObject := objects.filter (·.Accepted cfg)

/-- Success is reported if an object is accepted. Then the chain has the certificates of the
accepted objects. A block is part of the chain or was freed once. -/
structure ChainBuilt (objects : List CaObject) (r : ConfigureStatus × CrtMemory) : Prop where
  status : r.1 = .success ↔ ∃ o ∈ objects, o.Accepted cfg
  chain : r.1 = .success →
    r.2.certs .rootCaChain = (accepted cfg objects).flatMap (·.certs)
  freed : ∀ i < r.2.allocated,
    r.2.frees i = if .block i ∈ r.2.chain .rootCaChain then 0 else 1

end loop

namespace CrtMemory

def Linked (m : CrtMemory) : List CrtRef → Prop
  | [] => True
  | r :: rs => (m.node r).next = rs.head? ∧ Linked m rs

def blocks (a k : Nat) : List CrtRef := (List.range' a k).map .block

/-- `m'` is `m` after an object was read into `r`. -/
structure Filled (m m' : CrtMemory) (r : CrtRef) (certs : List X509Crt) : Prop where
  allocated : m'.allocated = m.allocated + (certs.length - 1)
  frees : m'.frees = m.frees
  other : ∀ x, x ≠ r → (∀ i, x = .block i → i < m.allocated) → m'.node x = m.node x
  linked : m'.Linked (r :: blocks m.allocated (certs.length - 1))
  holds : certs ≠ [] →
    (r :: blocks m.allocated (certs.length - 1)).map (fun x => (m'.node x).cert) =
    certs.map some

/-- The objects of the chain, and the blocks that are neither in it nor freed. Every other block
was freed once. -/
structure Kept (m : CrtMemory) (refs lost : List CrtRef) : Prop where
  root : refs.head? = some .rootCaChain
  linked : m.Linked refs
  nodup : refs.Nodup
  below : ∀ i, .block i ∈ refs → i < m.allocated
  lost_notMem : ∀ x ∈ lost, x ∉ refs
  lost_block : ∀ x ∈ lost, ∃ i < m.allocated, x = .block i
  frees : ∀ i < m.allocated, m.frees i = if .block i ∈ refs ∨ .block i ∈ lost then 0 else 1
  fresh : ∀ i, m.allocated ≤ i → m.frees i = 0

section links

variable {m m' : CrtMemory} {r it : CrtRef} {refs before rest lost : List CrtRef}

@[simp] theorem mem_blocks {i a k : Nat} : .block i ∈ blocks a k ↔ a ≤ i ∧ i < a + k := by
  simp [blocks]

theorem rootCaChain_notMem_blocks (a k : Nat) : .rootCaChain ∉ blocks a k := by
  simp [blocks]

theorem nodup_blocks (a k : Nat) : (blocks a k).Nodup := by
  apply List.Nodup.map
  · intro i j h
    exact CrtRef.block.inj h
  · exact List.nodup_range'

theorem Linked.congr (h : m.Linked refs) (hsame : ∀ x ∈ refs, m'.node x = m.node x) :
    m'.Linked refs := by
  induction refs with
  | nil => trivial
  | cons r rs ih =>
    refine ⟨?_, ih h.2 fun x hx => hsame x (List.mem_cons_of_mem r hx)⟩
    rw [hsame r List.mem_cons_self]
    exact h.1

/-- The part of the list behind `it` is replaced. -/
theorem Linked.splice (h : m.Linked (before ++ it :: rest)) (hnew : m'.Linked (r :: refs))
    (hsame : ∀ x ∈ before, m'.node x = m.node x) (hit : (m'.node it).next = some r) :
    m'.Linked (before ++ it :: r :: refs) := by
  induction before with
  | nil => exact ⟨hit, hnew⟩
  | cons b before ih =>
    refine ⟨?_, ih h.2 fun x hx => hsame x (List.mem_cons_of_mem b hx)⟩
    have hb := h.1
    rw [hsame b List.mem_cons_self, hb]
    cases before <;> rfl

theorem Linked.follow (k : Nat) {rs : List CrtRef} (h : m.Linked (r :: rs)) (hk : rs.length ≤ k) :
    m.follow k r = r :: rs := by
  induction k generalizing r rs with
  | zero =>
    have hnil : rs = [] := List.eq_nil_of_length_eq_zero (Nat.le_zero.mp hk)
    rw [hnil]
    rfl
  | succ k ih =>
    cases rs with
    | nil =>
      have hnext : (m.node r).next = none := h.1
      rw [CrtMemory.follow, hnext]
      rfl
    | cons r' rs =>
      have hnext : (m.node r).next = some r' := h.1
      rw [CrtMemory.follow, hnext]
      exact congrArg (r :: ·) (ih h.2 (Nat.le_of_succ_le_succ hk))

theorem fill_filled (certs : List X509Crt) {m : CrtMemory} {r : CrtRef}
    (hr : ∀ i, r = .block i → i < m.allocated) (hnode : m.node r = ⟨none, none⟩) :
    Filled m (m.fill r certs) r certs := by
  induction certs generalizing m r with
  | nil =>
    refine ⟨rfl, rfl, fun _ _ _ => rfl, ⟨?_, trivial⟩, fun h => absurd rfl h⟩
    rw [fill, hnode]
    rfl
  | cons c certs ih =>
    cases certs with
    | nil =>
      refine ⟨rfl, rfl, ?_, ⟨?_, trivial⟩, fun _ => ?_⟩
      · intro x hx _
        exact Function.update_of_ne hx _ _
      · simp [fill, set, blocks]
      · simp [fill, set, blocks]
    | cons c' cs =>
      have hne : r ≠ .block m.allocated := fun h => Nat.lt_irrefl _ (hr _ h)
      have hfilled := @ih (m.calloc.set r ⟨some c, some (.block m.allocated)⟩)
        (.block m.allocated) (fun i hi => by
          rw [← CrtRef.block.inj hi]
          exact Nat.lt_succ_self _) (by simp [set, calloc, Function.update_of_ne hne.symm])
      have hhead : ((m.fill r (c :: c' :: cs)).node r) = ⟨some c, some (.block m.allocated)⟩ := by
        rw [fill, hfilled.other r hne fun i hi => Nat.lt_succ_of_lt (hr i hi)]
        exact Function.update_self ..
      have hblocks : blocks m.allocated ((c :: c' :: cs).length - 1) =
          .block m.allocated :: blocks (m.allocated + 1) ((c' :: cs).length - 1) := rfl
      refine ⟨?_, hfilled.frees, ?_, ?_, fun _ => ?_⟩
      · rw [fill, hfilled.allocated]
        simp only [set, calloc, List.length_cons]
        omega
      · intro x hx hlt
        have hxne : x ≠ .block m.allocated := fun h => Nat.lt_irrefl _ (hlt _ h)
        rw [fill, hfilled.other x hxne fun i hi => Nat.lt_succ_of_lt (hlt i hi)]
        simp [set, calloc, Function.update_of_ne hx, Function.update_of_ne hxne]
      · rw [hblocks]
        exact ⟨congrArg CrtNode.next hhead, hfilled.linked⟩
      · rw [hblocks, List.map_cons, hhead]
        exact congrArg (some c :: ·) (hfilled.holds (List.cons_ne_nil c' cs))

/-- The chain of the context. -/
theorem Kept.chain (h : m.Kept refs lost) : m.chain .rootCaChain = refs := by
  obtain ⟨rs, rfl⟩ : ∃ rs, refs = .rootCaChain :: rs := by
    cases refs with
    | nil => cases h.root
    | cons r rs => exact ⟨rs, congrArg (· :: rs) (Option.some.inj h.root)⟩
  apply h.linked.follow
  have hrs : rs ⊆ blocks 0 m.allocated := by
    intro x hx
    cases x with
    | rootCaChain => exact absurd hx (List.nodup_cons.mp h.nodup).1
    | block i =>
      have hi := h.below i (List.mem_cons_of_mem _ hx)
      exact mem_blocks.mpr ⟨Nat.zero_le i, by omega⟩
  have hlen := (List.subperm_of_subset (List.nodup_cons.mp h.nodup).2 hrs).length_le
  rwa [blocks, List.length_map, List.length_range'] at hlen

/-- Every block is accounted for if none is lost. -/
theorem Kept.freed_iff (h : m.Kept refs lost) :
    (∀ i < m.allocated, m.frees i = if .block i ∈ m.chain .rootCaChain then 0 else 1) ↔
      lost = [] := by
  rw [h.chain]
  constructor
  · intro hfreed
    apply List.eq_nil_iff_forall_not_mem.mpr
    intro x hx
    obtain ⟨i, hi, rfl⟩ := h.lost_block x hx
    have hone := hfreed i hi
    rw [h.frees i hi, if_pos (.inr hx), if_neg (h.lost_notMem _ hx)] at hone
    cases hone
  · intro hnil i hi
    rw [h.frees i hi, hnil]
    simp only [List.not_mem_nil, or_false]

/-- More blocks were handed out and freed; the chain is as before. -/
theorem Kept.discard (h : m.Kept refs lost) (hsame : ∀ x ∈ refs, m'.node x = m.node x)
    (hle : m.allocated ≤ m'.allocated) (hold : ∀ i < m.allocated, m'.frees i = m.frees i)
    (hnew : ∀ i, m.allocated ≤ i → i < m'.allocated → m'.frees i = 1)
    (hfresh : ∀ i, m'.allocated ≤ i → m'.frees i = 0) : m'.Kept refs lost where
  root := h.root
  linked := h.linked.congr hsame
  nodup := h.nodup
  below := fun i hi => Nat.lt_of_lt_of_le (h.below i hi) hle
  lost_notMem := h.lost_notMem
  lost_block := by
    intro x hx
    obtain ⟨i, hi, hxi⟩ := h.lost_block x hx
    exact ⟨i, Nat.lt_of_lt_of_le hi hle, hxi⟩
  frees := by
    intro i hi
    by_cases hlt : i < m.allocated
    · rw [hold i hlt, h.frees i hlt]
    · have hnot : ¬ (.block i ∈ refs ∨ .block i ∈ lost) := by
        intro hmem
        obtain hmem | hmem := hmem
        · exact hlt (h.below i hmem)
        · obtain ⟨j, hj, hij⟩ := h.lost_block _ hmem
          rw [CrtRef.block.inj hij] at hlt
          exact hlt hj
      rw [if_neg hnot, hnew i (Nat.le_of_not_lt hlt) hi]
  fresh := hfresh

/-- The chain has other objects, and nothing was freed. -/
theorem Kept.relink {refs' lost' : List CrtRef} (h : m.Kept refs lost)
    (hle : m.allocated ≤ m'.allocated) (hfrees : m'.frees = m.frees)
    (hroot : refs'.head? = some .rootCaChain) (hlinked : m'.Linked refs') (hnodup : refs'.Nodup)
    (hlost : ∀ x ∈ lost', x ∉ refs')
    (hblock : ∀ i, .block i ∈ refs' ∨ .block i ∈ lost' ↔
      (.block i ∈ refs ∨ .block i ∈ lost) ∨ m.allocated ≤ i ∧ i < m'.allocated) :
    m'.Kept refs' lost' := by
  have hbelow : ∀ i, .block i ∈ refs' ∨ .block i ∈ lost' → i < m'.allocated := by
    intro i hi
    obtain (hi | hi) | hi := (hblock i).mp hi
    · exact Nat.lt_of_lt_of_le (h.below i hi) hle
    · obtain ⟨j, hj, hij⟩ := h.lost_block _ hi
      rw [CrtRef.block.inj hij]
      exact Nat.lt_of_lt_of_le hj hle
    · exact hi.2
  have hhead : .rootCaChain ∈ refs' := List.mem_of_mem_head? hroot
  refine ⟨hroot, hlinked, hnodup, fun i hi => hbelow i (.inl hi), hlost, ?_, ?_, ?_⟩
  · intro x hx
    cases x with
    | rootCaChain => exact absurd hhead (hlost _ hx)
    | block i => exact ⟨i, hbelow i (.inr hx), rfl⟩
  · intro i hi
    rw [hfrees]
    by_cases hlt : i < m.allocated
    · have hsame := (hblock i).trans
        (or_iff_left fun hnew => absurd hlt (Nat.not_lt.mpr hnew.1))
      rw [h.frees i hlt]
      simp only [hsame]
    · rw [h.fresh i (Nat.le_of_not_lt hlt),
        if_pos ((hblock i).mpr (.inr ⟨Nat.le_of_not_lt hlt, hi⟩))]
  · intro i hi
    rw [hfrees]
    exact h.fresh i (Nat.le_trans hle hi)

theorem node_init_self (m : CrtMemory) (r : CrtRef) : (m.init r).node r = ⟨none, none⟩ :=
  Function.update_self ..

theorem node_crtFree_self (m : CrtMemory) (r : CrtRef) :
    (m.crtFree r).node r = ⟨none, none⟩ :=
  Function.update_self ..

theorem node_setNext_self (m : CrtMemory) (r next : CrtRef) :
    (m.setNext r next).node r = ⟨(m.node r).cert, some next⟩ :=
  Function.update_self ..

theorem node_setNext_of_ne {x : CrtRef} (m : CrtMemory) (next : CrtRef) (h : x ≠ r) :
    (m.setNext r next).node x = m.node x :=
  Function.update_of_ne h _ _

theorem read_filled (certs : List X509Crt) (hr : ∀ i, r = .block i → i < m.allocated) :
    Filled m ((m.init r).fill r certs) r certs := by
  have h := fill_filled certs (m := m.init r) hr (node_init_self m r)
  refine ⟨h.allocated, h.frees, ?_, h.linked, h.holds⟩
  intro x hx hlt
  rw [h.other x hx hlt]
  exact Function.update_of_ne hx _ _

/-- What was read into `r` is freed. -/
theorem Filled.crtFree_frees {certs : List X509Crt} (h : Filled m m' r certs) (i : Nat) :
    (m'.crtFree r).frees i =
      m.frees i + if m.allocated ≤ i ∧ i < m'.allocated then 1 else 0 := by
  have hchain : m'.chain r = r :: blocks m.allocated (certs.length - 1) := by
    apply h.linked.follow
    rw [h.allocated, blocks, List.length_map, List.length_range']
    exact Nat.le_add_left ..
  have hcount : (blocks m.allocated (certs.length - 1)).count (.block i) =
      if m.allocated ≤ i ∧ i < m'.allocated then 1 else 0 := by
    rw [h.allocated, List.Nodup.count (nodup_blocks ..)]
    simp only [mem_blocks]
  show m'.frees i + (m'.chain r).tail.count (.block i) = _
  rw [hchain, List.tail_cons, hcount, h.frees]

/-- Reading an object into a new block leaves the chain alone. -/
theorem Kept.apart {certs : List X509Crt} (h : m.Kept refs lost)
    (hread : Filled m.calloc m' (.block m.allocated) certs) (x : CrtRef) (hx : x ∈ refs) :
    m'.node x = m.node x ∧ x ∉ blocks m.allocated (certs.length - 1 + 1) := by
  have hlt : ∀ i, x = .block i → i < m.allocated := fun i hi => h.below i (hi ▸ hx)
  have hne : x ≠ .block m.allocated := fun h => Nat.lt_irrefl _ (hlt _ h)
  constructor
  · rw [hread.other x hne fun i hi => Nat.lt_succ_of_lt (hlt i hi)]
    exact Function.update_of_ne hne _ _
  · cases x with
    | rootCaChain => exact rootCaChain_notMem_blocks _ _
    | block i =>
      intro hmem
      exact absurd (hlt i rfl) (Nat.not_lt.mpr (mem_blocks.mp hmem).1)

/-- The object is linked behind `it`, and what was linked there is lost. -/
theorem Kept.append {certs : List X509Crt} (h : m.Kept (before ++ it :: rest) lost)
    (hread : Filled m.calloc m' (.block m.allocated) certs) :
    (m'.setNext it (.block m.allocated)).Kept
      (before ++ it :: blocks m.allocated (certs.length - 1 + 1)) (lost ++ rest) := by
  have hm : m'.allocated = m.allocated + 1 + (certs.length - 1) := hread.allocated
  have hit := h.apart hread it (List.mem_append_right before List.mem_cons_self)
  obtain ⟨hbefore, hitrest, hdisjoint⟩ := List.nodup_append.mp h.nodup
  obtain ⟨hrest, -⟩ := List.nodup_cons.mp hitrest
  have hfront : ∀ x ∈ before, x ≠ it := fun x hx => hdisjoint x hx it List.mem_cons_self
  have hnew : ∀ x ∈ blocks m.allocated (certs.length - 1 + 1), x ≠ it :=
    fun x hx h => hit.2 (h ▸ hx)
  refine h.relink ?_ hread.frees ?_ ?_ ?_ ?_ ?_
  · show m.allocated ≤ m'.allocated
    omega
  · rw [← h.root]
    cases before <;> rfl
  · refine h.linked.splice (hread.linked.congr fun x hx => ?_) ?_ ?_
    · exact node_setNext_of_ne m' _ (hnew x hx)
    · intro x hx
      rw [node_setNext_of_ne m' _ (hfront x hx)]
      exact (h.apart hread x (List.mem_append_left _ hx)).1
    · rw [node_setNext_self]
  · refine List.nodup_append.mpr ⟨hbefore, List.nodup_cons.mpr ⟨hit.2, nodup_blocks _ _⟩, ?_⟩
    intro x hx y hy hxy
    obtain hy | hy := List.mem_cons.mp hy
    · exact hfront x hx (hxy.trans hy)
    · exact (h.apart hread x (List.mem_append_left _ hx)).2 (hxy ▸ hy)
  · intro x hx hmem
    obtain hx | hx := List.mem_append.mp hx
    · have hnot := h.lost_notMem x hx
      rw [List.mem_append, List.mem_cons] at hmem hnot
      obtain hmem | hmem | hmem := hmem
      · exact hnot (.inl hmem)
      · exact hnot (.inr (.inl hmem))
      · obtain ⟨i, hi, rfl⟩ := h.lost_block x hx
        exact absurd hi (Nat.not_lt.mpr (mem_blocks.mp hmem).1)
    · have hold := List.mem_append_right before (List.mem_cons_of_mem it hx)
      rw [List.mem_append, List.mem_cons] at hmem
      obtain hmem | hmem | hmem := hmem
      · exact hdisjoint x hmem x (List.mem_cons_of_mem it hx) rfl
      · exact hrest (hmem ▸ hx)
      · exact (h.apart hread x hold).2 hmem
  · intro i
    show _ ↔ _ ∨ m.allocated ≤ i ∧ i < m'.allocated
    have hrange : m.allocated ≤ i ∧ i < m'.allocated ↔
        .block i ∈ blocks m.allocated (certs.length - 1 + 1) := by
      rw [mem_blocks, hm]
      omega
    rw [hrange]
    simp only [List.mem_append, List.mem_cons]
    simp only [or_assoc, or_left_comm, or_comm]

end links

end CrtMemory

/-- The loop after objects of which these were accepted, in this order: the chain has the first
certificate of each and all those of the last. -/
inductive CaLoop.After (s : CaLoop) : List CaObject → Prop
  | empty (iterator : s.pxRootCertIterator = none) (count : s.uxValidCertCount = 0)
      (node : s.memory.node .rootCaChain = ⟨none, none⟩)
      (kept : s.memory.Kept [.rootCaChain] []) : After s []
  | linked (acc : List CaObject) (o : CaObject) (before : List CrtRef) (it : CrtRef)
      (rest lost : List CrtRef) (iterator : s.pxRootCertIterator = some it)
      (count : s.uxValidCertCount = acc.length + 1)
      (kept : s.memory.Kept (before ++ it :: rest) lost)
      (firsts : before.map (fun x => (s.memory.node x).cert) = acc.map (·.certs.head?))
      (current : (it :: rest).map (fun x => (s.memory.node x).cert) = o.certs.map some)
      (lost_nil : lost = [] ↔ ∀ o ∈ acc, o.certs.length = 1) : After s (acc ++ [o])

section passes

open CrtMemory

variable {cfg : CaConfig} {s : CaLoop} {acc : List CaObject} {o : CaObject}

theorem CaLoop.start_after : CaLoop.start.After [] := by
  refine .empty rfl rfl rfl ⟨rfl, ⟨rfl, trivial⟩, List.nodup_singleton _, ?_, ?_, ?_, ?_, ?_⟩
  · intro i hi
    cases List.mem_singleton.mp hi
  · intro x hx
    cases hx
  · intro x hx
    cases hx
  · intro i hi
    exact absurd hi (Nat.not_lt_zero i)
  · intro i _
    rfl

theorem pass_first (hit : s.pxRootCertIterator = none) : s.pass cfg o =
    s.settle .rootCaChain ((s.memory.init .rootCaChain).fill .rootCaChain o.certs)
      (o.lError cfg) := by
  rw [CaLoop.pass, CaLoop.tempCaCert, hit]

theorem pass_next {it : CrtRef} (hit : s.pxRootCertIterator = some it)
    (hg : o.granted = true) : s.pass cfg o =
    s.settle (.block s.memory.allocated)
      ((s.memory.calloc.init (.block s.memory.allocated)).fill (.block s.memory.allocated) o.certs)
      (o.lError cfg) := by
  rw [CaLoop.pass, CaLoop.tempCaCert, hit]
  simp only [hg, if_true]

theorem pkiStatusValue_failed {xStatus : PkiStatus} (h : xStatus ≠ .success) :
    pkiStatusValue xStatus < 0 ∧ pkiStatusValue xStatus ≠ mbedtlsErrX509AllocFailed := by
  cases xStatus with
  | success => exact absurd rfl h
  | _ => decide

theorem certs_ne_nil (ho : o.lError cfg = 0) : o.certs ≠ [] := by
  apply o.parsed
  by_contra hne
  have hvalue := Int.ne_of_lt (pkiStatusValue_failed hne).1
  rw [CaObject.lError, if_neg hvalue] at ho
  exact hvalue ho

/-- The first accepted object goes into the context. -/
theorem first_accepted (hit : s.pxRootCertIterator = none) (hcount : s.uxValidCertCount = 0)
    (hkept : s.memory.Kept [.rootCaChain] []) (ho : o.lError cfg = 0) :
    (s.pass cfg o).After ([] ++ [o]) := by
  rw [pass_first hit, CaLoop.settle, if_pos ho, hit]
  have hread := read_filled (m := s.memory) (r := .rootCaChain) o.certs nofun
  generalize ((s.memory.init .rootCaChain).fill .rootCaChain o.certs) = m at hread
  refine .linked [] o [] .rootCaChain (blocks s.memory.allocated (o.certs.length - 1)) [] rfl
    (congrArg (· + 1) hcount) ?_ rfl (hread.holds (certs_ne_nil ho)) ?_
  · refine hkept.relink ?_ hread.frees rfl hread.linked ?_ ?_ ?_
    · rw [hread.allocated]
      exact Nat.le_add_right ..
    · exact List.nodup_cons.mpr ⟨rootCaChain_notMem_blocks _ _, nodup_blocks ..⟩
    · intro x hx
      cases hx
    · intro i
      rw [hread.allocated]
      simp
  · exact iff_of_true rfl fun o' ho' => absurd ho' List.not_mem_nil

/-- What was left in the context is freed again. -/
theorem first_rejected (hit : s.pxRootCertIterator = none) (hcount : s.uxValidCertCount = 0)
    (hnode : s.memory.node .rootCaChain = ⟨none, none⟩)
    (hkept : s.memory.Kept [.rootCaChain] []) (ho : o.lError cfg ≠ 0) :
    (s.pass cfg o).After [] := by
  rw [pass_first hit, CaLoop.settle, if_neg ho, hit, if_pos rfl]
  have hread := read_filled (m := s.memory) (r := .rootCaChain) o.certs nofun
  generalize ((s.memory.init .rootCaChain).fill .rootCaChain o.certs) = m at hread
  have hle : s.memory.allocated ≤ m.allocated := by
    rw [hread.allocated]
    exact Nat.le_add_right ..
  have hroot : (m.crtFree .rootCaChain).node .rootCaChain = ⟨none, none⟩ :=
    node_crtFree_self m _
  refine .empty rfl hcount hroot (hkept.discard ?_ hle ?_ ?_ ?_)
  · intro x hx
    rw [List.mem_singleton.mp hx, hroot, hnode]
  · intro i hi
    rw [hread.crtFree_frees i, if_neg (fun h => absurd hi (Nat.not_lt.mpr h.1))]
    rfl
  · intro i hlow hhigh
    rw [hread.crtFree_frees i, if_pos ⟨hlow, hhigh⟩, hkept.fresh i hlow]
  · intro i hi
    have hi' : m.allocated ≤ i := hi
    rw [hread.crtFree_frees i, if_neg (fun h => absurd h.2 (Nat.not_lt.mpr hi')),
      hkept.fresh i (Nat.le_trans hle hi')]

/-- The object is linked behind the last accepted one. -/
theorem next_accepted {before : List CrtRef} {it : CrtRef} {rest lost : List CrtRef}
    {last : CaObject} (hit : s.pxRootCertIterator = some it)
    (hcount : s.uxValidCertCount = acc.length + 1)
    (hkept : s.memory.Kept (before ++ it :: rest) lost)
    (hfirsts : before.map (fun x => (s.memory.node x).cert) = acc.map (·.certs.head?))
    (hcurrent : (it :: rest).map (fun x => (s.memory.node x).cert) = last.certs.map some)
    (hlost : lost = [] ↔ ∀ o ∈ acc, o.certs.length = 1) (hg : o.granted = true)
    (ho : o.lError cfg = 0) : (s.pass cfg o).After (acc ++ [last] ++ [o]) := by
  rw [pass_next hit hg, CaLoop.settle, if_pos ho, hit]
  have hread := read_filled (m := s.memory.calloc) (r := .block s.memory.allocated) o.certs
    fun i hi => CrtRef.block.inj hi ▸ Nat.lt_succ_self _
  generalize ((s.memory.calloc.init (.block s.memory.allocated)).fill
    (.block s.memory.allocated) o.certs) = m at hread
  have happend := hkept.append hread
  have hnodup := hkept.nodup
  have hfront : ∀ x ∈ before, x ≠ it := fun x hx =>
    (List.nodup_append.mp hnodup).2.2 x hx it List.mem_cons_self
  have hitold := hkept.apart hread it (List.mem_append_right before List.mem_cons_self)
  obtain ⟨c, cs, hcerts⟩ : ∃ c cs, last.certs = c :: cs := by
    cases hc : last.certs with
    | nil =>
      rw [hc] at hcurrent
      cases hcurrent
    | cons c cs => exact ⟨c, cs, rfl⟩
  rw [hcerts] at hcurrent
  obtain ⟨hitcert, hrest⟩ := List.cons.inj hcurrent
  have hitcert : (s.memory.node it).cert = some c := hitcert
  refine .linked (acc ++ [last]) o (before ++ [it]) (.block s.memory.allocated)
    (blocks (s.memory.allocated + 1) (o.certs.length - 1)) (lost ++ rest) rfl ?_ ?_ ?_ ?_ ?_
  · rw [List.length_append]
    exact congrArg (· + 1) hcount
  · rw [List.append_assoc]
    exact happend
  · rw [List.map_append, List.map_append, ← hfirsts]
    congr 1
    · apply List.map_congr_left
      intro x hx
      show ((m.setNext it _).node x).cert = _
      rw [node_setNext_of_ne m _ (hfront x hx),
        (hkept.apart hread x (List.mem_append_left _ hx)).1]
    · show [((m.setNext it _).node it).cert] = [last.certs.head?]
      rw [node_setNext_self, hitold.1, hitcert, hcerts]
      rfl
  · rw [← hread.holds (certs_ne_nil ho)]
    apply List.map_congr_left
    intro x hx
    show ((m.setNext it _).node x).cert = _
    have hne : x ≠ it := by
      intro h
      rw [h] at hx
      exact hitold.2 hx
    rw [node_setNext_of_ne m _ hne]
  · have hlen : rest.length = cs.length := by
      have h := congrArg List.length hrest
      rwa [List.length_map, List.length_map] at h
    rw [List.append_eq_nil_iff, hlost, List.forall_mem_append, List.forall_mem_singleton, hcerts,
      ← List.length_eq_zero_iff, hlen, List.length_cons, Nat.add_eq_right]

/-- The new block and those that were allocated for what was read into it are freed once. -/
theorem discarded_frees {m m' : CrtMemory} {certs : List X509Crt}
    (hread : Filled m.calloc m' (.block m.allocated) certs) (i : Nat) :
    ((m'.crtFree (.block m.allocated)).free (.block m.allocated)).frees i = m.frees i +
      if m.allocated ≤ i ∧ i < m'.allocated then 1 else 0 := by
  have hm : m'.allocated = m.allocated + 1 + (certs.length - 1) := hread.allocated
  show (m'.crtFree _).frees i + (if CrtRef.block m.allocated = .block i then 1 else 0) = _
  rw [hread.crtFree_frees i, Nat.add_assoc]
  apply congrArg (m.frees i + ·)
  show (if m.allocated + 1 ≤ i ∧ i < m'.allocated then 1 else 0) +
    (if CrtRef.block m.allocated = .block i then 1 else 0) = _
  by_cases hi : m.allocated = i
  · rw [if_neg (by omega), if_pos (congrArg _ hi), if_pos (by omega)]
  · have hiff : m.allocated + 1 ≤ i ∧ i < m'.allocated ↔ m.allocated ≤ i ∧ i < m'.allocated := by
      omega
    rw [if_neg fun h => hi (CrtRef.block.inj h), Nat.add_zero]
    simp only [hiff]

/-- The object goes back to the heap with all that was read into it. -/
theorem next_rejected {before : List CrtRef} {it : CrtRef} {rest lost : List CrtRef}
    {last : CaObject} (hit : s.pxRootCertIterator = some it)
    (hcount : s.uxValidCertCount = acc.length + 1)
    (hkept : s.memory.Kept (before ++ it :: rest) lost)
    (hfirsts : before.map (fun x => (s.memory.node x).cert) = acc.map (·.certs.head?))
    (hcurrent : (it :: rest).map (fun x => (s.memory.node x).cert) = last.certs.map some)
    (hlost : lost = [] ↔ ∀ o ∈ acc, o.certs.length = 1) (hg : o.granted = true)
    (ho : o.lError cfg ≠ 0) : (s.pass cfg o).After (acc ++ [last]) := by
  rw [pass_next hit hg, CaLoop.settle, if_neg ho, hit, if_neg (Option.some_ne_none it)]
  have hread := read_filled (m := s.memory.calloc) (r := .block s.memory.allocated) o.certs
    fun i hi => CrtRef.block.inj hi ▸ Nat.lt_succ_self _
  generalize ((s.memory.calloc.init (.block s.memory.allocated)).fill
    (.block s.memory.allocated) o.certs) = m at hread
  let m' := (m.crtFree (.block s.memory.allocated)).free (.block s.memory.allocated)
  have hm : m.allocated = s.memory.allocated + 1 + (o.certs.length - 1) := hread.allocated
  have hfrees : ∀ i, m'.frees i = s.memory.frees i +
      if s.memory.allocated ≤ i ∧ i < m.allocated then 1 else 0 := discarded_frees hread
  have hsame : ∀ x ∈ before ++ it :: rest, m'.node x = s.memory.node x := by
    intro x hx
    have hne : x ≠ .block s.memory.allocated := by
      intro h
      rw [h] at hx
      exact Nat.lt_irrefl _ (hkept.below _ hx)
    exact (Function.update_of_ne hne _ _).trans (hkept.apart hread x hx).1
  refine .linked acc last before it rest lost rfl hcount (hkept.discard hsame ?_ ?_ ?_ ?_) ?_ ?_
    hlost
  · show s.memory.allocated ≤ m.allocated
    omega
  · intro i hi
    exact (hfrees i).trans (by rw [if_neg (by omega), Nat.add_zero])
  · intro i hlow hhigh
    exact (hfrees i).trans (by rw [if_pos ⟨hlow, hhigh⟩, hkept.fresh i hlow])
  · intro i hi
    have hi' : m.allocated ≤ i := hi
    exact (hfrees i).trans (by rw [if_neg (by omega), hkept.fresh i (by omega)])
  · rw [← hfirsts]
    apply List.map_congr_left
    intro x hx
    exact congrArg CrtNode.cert (hsame x (List.mem_append_left _ hx))
  · rw [← hcurrent]
    apply List.map_congr_left
    intro x hx
    exact congrArg CrtNode.cert (hsame x (List.mem_append_right _ hx))

theorem lError_eq_zero : o.lError cfg = 0 ↔ o.Accepted cfg := by
  rw [CaObject.lError, CaObject.Accepted]
  by_cases hs : o.xStatus = .success
  · have hzero : pkiStatusValue o.xStatus = 0 := congrArg pkiStatusValue hs
    rw [if_pos hzero, and_iff_right hs]
  · have hne := Int.ne_of_lt (pkiStatusValue_failed hs).1
    rw [if_neg hne]
    exact iff_of_false hne fun h => hs h.1

theorem pass_after (h : s.After acc) (hg : o.granted = true) :
    (s.pass cfg o).After (acc ++ accepted cfg [o]) := by
  by_cases ho : o.Accepted cfg
  · have hacc : accepted cfg [o] = [o] := List.filter_cons_of_pos (decide_eq_true ho)
    have hzero := lError_eq_zero.mpr ho
    rw [hacc]
    cases h with
    | empty hit hcount hnode hkept => exact first_accepted hit hcount hkept hzero
    | linked acc last before it rest lost hit hcount hkept hfirsts hcurrent hlost =>
      exact next_accepted hit hcount hkept hfirsts hcurrent hlost hg hzero
  · have hacc : accepted cfg [o] = [] :=
      List.filter_cons_of_neg (by rwa [decide_eq_true_iff])
    have hne := lError_eq_zero.not.mpr ho
    rw [hacc, List.append_nil]
    cases h with
    | empty hit hcount hnode hkept => exact first_rejected hit hcount hnode hkept hne
    | linked acc last before it rest lost hit hcount hkept hfirsts hcurrent hlost =>
      exact next_rejected hit hcount hkept hfirsts hcurrent hlost hg hne

theorem settle_lError (r : CrtRef) (m : CrtMemory) (lError : Int) :
    (s.settle r m lError).lError = lError := by
  rw [CaLoop.settle]
  split <;> rfl

theorem pass_lError (hg : o.granted = true) : (s.pass cfg o).lError = o.lError cfg := by
  cases hit : s.pxRootCertIterator with
  | none => rw [pass_first hit, settle_lError]
  | some it => rw [pass_next hit hg, settle_lError]

/-- No flags, or some of the three bits. -/
theorem profileFlags_nonneg (p : CrtProfile) (c : X509Crt) : 0 ≤ (profileFlags cfg p c).toInt := by
  rw [profileFlags]
  split_ifs <;> decide

theorem validate_nonneg {c : X509Crt} : 0 ≤ lValidateCertByProfile (some cfg) (some c) := by
  rw [lValidateCertByProfile]
  split
  · exact Int.le_refl 0
  · exact profileFlags_nonneg _ c

/-- The sign of `lError` tells an object that cannot be read from the others. -/
theorem lError_neg : o.lError cfg < 0 ↔ o.xStatus ≠ .success := by
  rw [CaObject.lError]
  by_cases hs : o.xStatus = .success
  · obtain ⟨c, cs, hcerts⟩ := List.exists_cons_of_ne_nil (o.parsed hs)
    have hzero : pkiStatusValue o.xStatus = 0 := congrArg pkiStatusValue hs
    rw [if_pos hzero, hcerts]
    exact iff_of_false (Int.not_lt.mpr validate_nonneg) fun h => h hs
  · have hneg := (pkiStatusValue_failed hs).1
    rw [if_neg (Int.ne_of_lt hneg)]
    exact iff_of_true hneg hs

/-- `xPkiReadCertificate` does not report the error that ends the loop. -/
theorem lError_ne_allocFailed : o.lError cfg ≠ mbedtlsErrX509AllocFailed := by
  by_cases hs : o.xStatus = .success
  · intro h
    have hneg : o.lError cfg < 0 := by
      rw [h]
      decide
    exact lError_neg.mp hneg hs
  · have hfailed := pkiStatusValue_failed hs
    rw [CaObject.lError, if_neg (Int.ne_of_lt hfailed.1)]
    exact hfailed.2

theorem caLoop_after (cfg : CaConfig) (objects : List CaObject)
    (hg : ∀ o ∈ objects, o.granted = true) {s : CaLoop} {acc : List CaObject} (h : s.After acc) :
    (caLoop cfg objects s).After (acc ++ accepted cfg objects) ∧
      (caLoop cfg objects s).lError = (objects.getLast?.map (·.lError cfg)).getD s.lError := by
  induction objects generalizing s acc with
  | nil => exact ⟨(List.append_nil acc).symm ▸ h, rfl⟩
  | cons o objects ih =>
    obtain ⟨hgo, hg⟩ := List.forall_mem_cons.mp hg
    have hlError : (s.pass cfg o).lError = o.lError cfg := pass_lError hgo
    have hgoes : (s.pass cfg o).lError ≠ mbedtlsErrX509AllocFailed := by
      rw [hlError]
      exact lError_ne_allocFailed
    rw [caLoop]
    simp only [if_neg hgoes]
    obtain ⟨hafter, hlast⟩ := ih hg (pass_after h hgo)
    constructor
    · rwa [List.append_assoc, accepted, accepted, ← List.filter_append] at hafter
    · rw [hlast, hlError]
      cases objects <;> rfl

theorem transportError_success (lError : Int) :
    lMbedtlsErrToTransportError lError = .success ↔ 0 ≤ lError := by
  rw [lMbedtlsErrToTransportError]
  split_ifs with h0 h1 h2 h3 h4 h5
  · exact iff_of_true rfl (Int.le_of_eq h0.symm)
  · subst h1
    decide
  · subst h2
    decide
  · subst h3
    decide
  · obtain rfl | rfl | rfl | rfl := h4 <;> decide
  · exact iff_of_false nofun (Int.not_le.mpr h5)
  · exact iff_of_true rfl (Int.not_lt.mp h5)

end passes

section result

open CrtMemory

variable (cfg : CaConfig) {objects : List CaObject}

theorem filterMap_of_map {α β : Type*} {f : α → Option β} {xs : List α} {ys : List β}
    (h : xs.map f = ys.map some) : xs.filterMap f = ys := by
  have hid : xs.filterMap f = (xs.map f).filterMap id := by
    rw [List.filterMap_map]
    rfl
  rw [hid, h, List.filterMap_map]
  exact List.filterMap_some

theorem heads_of_single (h : ∀ o ∈ objects, o.certs.length = 1) :
    objects.map (·.certs.head?) = (objects.flatMap (·.certs)).map some := by
  induction objects with
  | nil => rfl
  | cons o objects ih =>
    obtain ⟨ho, h⟩ := List.forall_mem_cons.mp h
    obtain ⟨c, hc⟩ := List.length_eq_one_iff.mp ho
    rw [List.map_cons, List.flatMap_cons, ih h, hc]
    rfl

/-- The condition is that the object which decides the status can be read, and that nothing is
linked behind an object of several certificates. -/
theorem chainBuilt_iff (hne : objects ≠ []) (hg : ∀ o ∈ objects, o.granted = true) :
    ChainBuilt cfg objects (xConfigureCAChain cfg objects) ↔
      (accepted cfg objects = [] ∨ (objects.getLast hne).xStatus = .success) ∧
        ∀ o ∈ (accepted cfg objects).dropLast, o.certs.length = 1 := by
  obtain ⟨hafter, hlast⟩ := caLoop_after cfg objects hg CaLoop.start_after
  rw [List.nil_append] at hafter
  rw [List.getLast?_eq_some_getLast hne, Option.map_some, Option.getD_some] at hlast
  have hany : (∃ o ∈ objects, o.Accepted cfg) ↔ accepted cfg objects ≠ [] := by
    rw [accepted, ne_eq, List.filter_eq_nil_iff]
    simp only [decide_eq_true_eq, not_forall, not_not, exists_prop]
  have hresult : xConfigureCAChain cfg objects =
      (if (caLoop cfg objects .start).uxValidCertCount = 0 then .noValidCaCert
        else lMbedtlsErrToTransportError ((objects.getLast hne).lError cfg),
        (caLoop cfg objects .start).memory) := by
    rw [xConfigureCAChain, hlast]
    simp only [ne_eq, lError_ne_allocFailed, not_false_eq_true, and_true]
  rw [hresult]
  generalize caLoop cfg objects .start = s at hafter
  generalize hacc : accepted cfg objects = acc at hafter hany ⊢
  cases hafter with
  | empty hit hcount hnode hkept =>
    refine iff_of_true ⟨?_, ?_, ?_⟩ ⟨.inl rfl, fun o ho => absurd ho List.not_mem_nil⟩
    · rw [if_pos hcount, hany]
      exact iff_of_false nofun fun h => h rfl
    · intro h
      rw [if_pos hcount] at h
      cases h
    · exact hkept.freed_iff.mpr rfl
  | linked acc last before it rest lost hit hcount hkept hfirsts hcurrent hlost =>
    have hsome : acc ++ [last] ≠ [] := List.append_ne_nil_of_right_ne_nil acc (List.cons_ne_nil _ _)
    have hpos : s.uxValidCertCount ≠ 0 := by omega
    have hstatus : lMbedtlsErrToTransportError ((objects.getLast hne).lError cfg) = .success ↔
        (objects.getLast hne).xStatus = .success := by
      rw [transportError_success, ← Int.not_lt, lError_neg, not_not]
    rw [if_neg hpos, or_iff_right hsome, List.dropLast_concat, ← hlost, ← hkept.freed_iff]
    constructor
    · intro h
      exact ⟨hstatus.mp (h.status.mpr (hany.mpr hsome)), h.freed⟩
    · intro h
      obtain ⟨hread, hfreed⟩ := h
      refine ⟨iff_of_true (hstatus.mpr hread) (hany.mpr hsome), fun _ => ?_, hfreed⟩
      have hsingle := hlost.mp (hkept.freed_iff.mp hfreed)
      rw [certs, hkept.chain, List.filterMap_append, filterMap_of_map hcurrent, hacc,
        List.flatMap_append, List.flatMap_singleton]
      congr 1
      apply filterMap_of_map
      rw [hfirsts]
      exact heads_of_single hsingle

/-- RSA keys from 2048 bits on, and no elliptic curves. -/
def exampleCaConfig : CaConfig := ⟨true, true, some ⟨0xFF, 0xFF, 0, 2048⟩⟩

def exampleCert (raw : UInt8) (pkBitlen : Nat) : X509Crt := ⟨[raw], 6, 1, .rsa, pkBitlen, 0⟩

def exampleObject (raw : UInt8) (pkBitlen : Nat) : CaObject :=
  ⟨true, .success, [exampleCert raw pkBitlen], fun _ => List.cons_ne_nil _ _⟩

def unreadableObject : CaObject := ⟨true, .errObjParsingFailed, [], nofun⟩

/-- An unreadable object and one with a short key before two good ones. -/
theorem chainBuilt_goodLast :
    ChainBuilt exampleCaConfig
      [unreadableObject, exampleObject 1 2048, exampleObject 2 1024, exampleObject 3 4096]
      (xConfigureCAChain exampleCaConfig
        [unreadableObject, exampleObject 1 2048, exampleObject 2 1024, exampleObject 3 4096]) :=
  (chainBuilt_iff exampleCaConfig (List.cons_ne_nil _ _) (by decide)).mpr (by decide)

/-- The same objects; the one that cannot be read comes last. -/
theorem not_chainBuilt_badLast :
    ¬ ChainBuilt exampleCaConfig [exampleObject 1 2048, exampleObject 3 4096, unreadableObject]
      (xConfigureCAChain exampleCaConfig
        [exampleObject 1 2048, exampleObject 3 4096, unreadableObject]) := by
  intro h
  have hgood : (exampleObject 1 2048).Accepted exampleCaConfig := by decide
  have hsuccess := h.status.mpr ⟨exampleObject 1 2048, List.mem_cons_self, hgood⟩
  exact absurd hsuccess (by decide)

end result

end RenesasDemo.Tls
