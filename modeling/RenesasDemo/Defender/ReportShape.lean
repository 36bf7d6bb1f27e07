import RenesasDemo.Defender.MetricsCollector
import Mathlib.Data.List.Nodup
import Mathlib.Data.List.Count

namespace RenesasDemo.Defender

open Framework

namespace EncoderCall

def target : EncoderCall → Option Encoder
  | textStringz on _ => some on
  | uint on _ => some on
  | createMap parent _ _ => some parent
  | createArray parent _ _ => some parent
  | closeContainer _ _ => none

def totalValue? : EncoderCall → Option Nat
  | uint .object value => some value
  | _ => none

def finishesEntry : EncoderCall → Bool
  | closeContainer .list _ => true
  | _ => false

end EncoderCall

def received (encoder : Encoder) (cs : List EncoderCall) : Nat :=
  cs.countP fun c => c.target = some encoder

def appended (cs : List EncoderCall) : Nat :=
  cs.countP EncoderCall.finishesEntry

/-- The declared lengths and the total are those of the report. -/
structure WellFormed (cs : List EncoderCall) : Prop where
  map : ∀ parent child n, .createMap parent child n ∈ cs → received child cs = 2 * n
  array : ∀ parent n, .createArray parent .list n ∈ cs → n = appended cs
  total : cs.filterMap EncoderCall.totalValue? = [appended cs]

/-- An error of any call is returned. -/
def ErrorReturned (o : Encoding) : Prop := o.xError = cborNoError → o.AllOk

/-- What was encoded when no error is returned is well formed, and an error of any call is
returned. -/
def SectionRight (o : Encoding) : Prop :=
  (o.xError = cborNoError →
    WellFormed ((o.calls.filter fun c => c.2 = cborNoError).map Prod.fst)) ∧ ErrorReturned o

theorem sectionRight_iff {o : Encoding} :
    SectionRight o ↔ (o.xError = 0 → o.AllOk ∧ WellFormed o.made) := by
  have hmade (hall : o.AllOk) : o.calls.filter (fun c => c.2 = cborNoError) = o.calls :=
    List.filter_eq_self.mpr fun c hc => decide_eq_true (hall c hc)
  simp only [SectionRight, ErrorReturned, cborNoError] at hmade ⊢
  constructor
  · intro h hz
    have hall := h.2 hz
    have hwell := h.1 hz
    rw [hmade hall] at hwell
    exact ⟨hall, hwell⟩
  · intro h
    refine ⟨fun hz => ?_, fun hz => (h hz).1⟩
    rw [hmade (h hz).1]
    exact (h hz).2

/-- A call for entry `k` of the list. -/
def EncoderCall.OfEntry (k : Nat) : EncoderCall → Prop
  | textStringz on _ => on = .entry k
  | uint on _ => on = .entry k
  | createMap parent child _ => parent = .list ∧ child = .entry k
  | createArray _ _ _ => False
  | closeContainer parent child => parent = .list ∧ child = .entry k

/-- What the calls for one entry are like; `clean` says when it is written without an error. -/
structure IsEntry (k : Nat) (o : Encoding) (clean : Prop) : Prop where
  own : ∀ c ∈ o.made, c.OfEntry k
  xError_iff : o.xError = 0 ↔ clean
  allOk : clean → o.AllOk
  complete : clean → appended o.made = 1
  map : clean → ∀ n, .createMap .list (.entry k) n ∈ o.made →
    received (.entry k) o.made = 2 * n
  /-- An entry that is not clean shows it in a call or in its map. -/
  broken : o.AllOk → ¬clean → ∃ n, .createMap .list (.entry k) n ∈ o.made ∧
    received (.entry k) o.made ≠ 2 * n

def PtErrors.Clean (e : PtErrors) (named : Bool) : Prop :=
  e.map = 0 ∧ (named = true → e.ifName.Clean) ∧ e.pt.Clean ∧ e.close = 0

section appendPt

variable (pcNetifNameFound : Option (List UInt8)) (localPort : UInt16) (e : PtErrors) (k : Nat)

theorem appendPt_xError_eq_zero :
    (appendPt pcNetifNameFound localPort e k).xError = 0 ↔ e.Clean pcNetifNameFound.isSome := by
  cases pcNetifNameFound with
  | none => simp [appendPt, PtErrors.Clean, KvErrors.Clean, cborAddKvUint, and_assoc]
  | some name =>
    simp [appendPt, PtErrors.Clean, KvErrors.Clean, cborAddKvUint, cborAddKvStr, and_assoc]

theorem appendPt_own :
    ∀ c ∈ (appendPt pcNetifNameFound localPort e k).made, c.OfEntry k := by
  apply Outcome.forall_made_ifOk
  · apply Outcome.forall_made_ifOk
    · cases pcNetifNameFound with
      | none => simp [EncoderCall.OfEntry]
      | some name =>
        apply Outcome.forall_made_ifOk <;> simp [EncoderCall.OfEntry, cborAddKvStr]
    · simp [EncoderCall.OfEntry, cborAddKvUint]
  · simp [EncoderCall.OfEntry]

theorem appendPt_honest : (appendPt pcNetifNameFound localPort e k).Honest := by
  apply Outcome.Honest.ifOk
  · apply Outcome.Honest.ifOk
    · cases pcNetifNameFound with
      | none => exact Outcome.honest_call _ _
      | some name =>
        exact (Outcome.honest_call _ _).ifOk
          ((Outcome.honest_call _ _).orAssign (Outcome.honest_call _ _))
    · exact (Outcome.honest_call _ _).orAssign (Outcome.honest_call _ _)
  · exact Outcome.honest_call _ _

/-- The calls of an entry that is written without an error. -/
def ptCalls : List EncoderCall :=
  match pcNetifNameFound with
  | some name =>
    [.createMap .list (.entry k) 2, .textStringz (.entry k) (ascii "if"),
      .textStringz (.entry k) name, .textStringz (.entry k) (ascii "pt"),
      .uint (.entry k) localPort.toNat, .closeContainer .list (.entry k)]
  | none =>
    [.createMap .list (.entry k) 1, .textStringz (.entry k) (ascii "pt"),
      .uint (.entry k) localPort.toNat, .closeContainer .list (.entry k)]

theorem appendPt_made (h : e.Clean pcNetifNameFound.isSome) :
    (appendPt pcNetifNameFound localPort e k).made = ptCalls pcNetifNameFound localPort k := by
  obtain ⟨hmap, hif, ⟨hkey, hvalue⟩, -⟩ := h
  cases pcNetifNameFound with
  | none =>
    rw [appendPt, Outcome.made_ifOk (by simp [cborAddKvUint, hmap, hkey, hvalue]),
      Outcome.made_ifOk (by simp [hmap])]
    simp [cborAddKvUint, ptCalls]
  | some name =>
    obtain ⟨hifkey, hifvalue⟩ := hif rfl
    rw [appendPt, Outcome.made_ifOk
        (by simp [cborAddKvUint, cborAddKvStr, hmap, hkey, hvalue, hifkey, hifvalue]),
      Outcome.made_ifOk (by simp [cborAddKvStr, hmap, hifkey, hifvalue]),
      Outcome.made_ifOk (by simp [hmap])]
    simp [cborAddKvUint, cborAddKvStr, ptCalls]

theorem appendPt_isEntry :
    IsEntry k (appendPt pcNetifNameFound localPort e k) (e.Clean pcNetifNameFound.isSome) where
  own := appendPt_own pcNetifNameFound localPort e k
  xError_iff := appendPt_xError_eq_zero pcNetifNameFound localPort e k
  allOk h := (appendPt_honest pcNetifNameFound localPort e k).mp
    ((appendPt_xError_eq_zero pcNetifNameFound localPort e k).mpr h)
  complete h := by
    rw [appendPt_made _ _ _ _ h]
    cases pcNetifNameFound <;> rfl
  map h n hn := by
    rw [appendPt_made _ _ _ _ h] at hn ⊢
    cases pcNetifNameFound with
    | none => simp_all [ptCalls, received, EncoderCall.target]
    | some name => simp_all [ptCalls, received, EncoderCall.target]
  broken hall hclean := by
    have hok := (appendPt_honest pcNetifNameFound localPort e k).mpr hall
    exact absurd ((appendPt_xError_eq_zero pcNetifNameFound localPort e k).mp hok) hclean

end appendPt

section appendConnection

variable {Addr : Type} (lwip : Lwip Addr) (pcb : TcpPcb Addr) (e : ConnErrors) (k : Nat)

/-- The peer's address and the interface have a text, and no call that is made for the entry
fails. -/
def ConnErrors.Clean : Prop :=
  (lwip.xIpAddrPortToString pcb.remoteIp pcb.remotePort).isSome ∧
    (lwip.pcGetNetifName pcb.netifIdx).isSome ∧
    e.map = 0 ∧ e.rad.Clean ∧ e.li.Clean ∧ e.lp.Clean ∧ e.close = 0

theorem appendConnection_xError_eq_zero :
    (lwip.appendConnection pcb e k).xError = 0 ↔ e.Clean lwip pcb := by
  unfold Lwip.appendConnection ConnErrors.Clean
  cases lwip.xIpAddrPortToString pcb.remoteIp pcb.remotePort <;>
    cases lwip.pcGetNetifName pcb.netifIdx <;>
    simp [KvErrors.Clean, cborAddKvUint, cborAddKvStr, cborUnknownError, and_assoc]

theorem appendConnection_own : ∀ c ∈ (lwip.appendConnection pcb e k).made, c.OfEntry k := by
  have hcreate : ∀ c ∈ (Outcome.call (EncoderCall.createMap .list (.entry k) 3) e.map).made,
      c.OfEntry k := by
    simp [EncoderCall.OfEntry]
  unfold Lwip.appendConnection
  apply Outcome.forall_made_ifOk
  · apply Outcome.forall_made_ifOk
    · cases lwip.xIpAddrPortToString pcb.remoteIp pcb.remotePort <;>
        cases lwip.pcGetNetifName pcb.netifIdx
      · simpa using Outcome.forall_made_ifOk hcreate (by simp)
      · exact Outcome.forall_made_ifOk (Outcome.forall_made_ifOk hcreate (by simp))
          (by simp [EncoderCall.OfEntry, cborAddKvStr])
      · simpa using Outcome.forall_made_ifOk hcreate (by simp [EncoderCall.OfEntry, cborAddKvStr])
      · exact Outcome.forall_made_ifOk
          (Outcome.forall_made_ifOk hcreate (by simp [EncoderCall.OfEntry, cborAddKvStr]))
          (by simp [EncoderCall.OfEntry, cborAddKvStr])
    · simp [EncoderCall.OfEntry, cborAddKvUint]
  · simp [EncoderCall.OfEntry]

/-- With both texts the status tells of every call. -/
theorem appendConnection_honest
    (htext : (lwip.xIpAddrPortToString pcb.remoteIp pcb.remotePort).isSome)
    (hname : (lwip.pcGetNetifName pcb.netifIdx).isSome) :
    (lwip.appendConnection pcb e k).Honest := by
  obtain ⟨text, htext⟩ := Option.isSome_iff_exists.mp htext
  obtain ⟨name, hname⟩ := Option.isSome_iff_exists.mp hname
  have hpair (on : Encoder) (key value : List UInt8) (kv : KvErrors) :
      (cborAddKvStr on key value kv).Honest :=
    (Outcome.honest_call _ _).orAssign (Outcome.honest_call _ _)
  simp only [Lwip.appendConnection, htext, hname]
  apply Outcome.Honest.ifOk
  · apply Outcome.Honest.ifOk
    · exact ((Outcome.honest_call _ _).ifOk (hpair _ _ _ _)).ifOk (hpair _ _ _ _)
    · exact (Outcome.honest_call _ _).orAssign (Outcome.honest_call _ _)
  · exact Outcome.honest_call _ _

theorem appendConnection_made (h : e.Clean lwip pcb) :
    ∃ text name, (lwip.appendConnection pcb e k).made =
      [.createMap .list (.entry k) 3, .textStringz (.entry k) (ascii "rad"),
        .textStringz (.entry k) text, .textStringz (.entry k) (ascii "li"),
        .textStringz (.entry k) name, .textStringz (.entry k) (ascii "lp"),
        .uint (.entry k) pcb.localPort.toNat, .closeContainer .list (.entry k)] := by
  obtain ⟨htext, hname, hmap, ⟨hr1, hr2⟩, ⟨hi1, hi2⟩, ⟨hp1, hp2⟩, -⟩ := h
  obtain ⟨text, htext⟩ := Option.isSome_iff_exists.mp htext
  obtain ⟨name, hname⟩ := Option.isSome_iff_exists.mp hname
  refine ⟨text, name, ?_⟩
  simp only [Lwip.appendConnection, htext, hname]
  rw [Outcome.made_ifOk (by simp [cborAddKvUint, cborAddKvStr, *]),
    Outcome.made_ifOk (by simp [cborAddKvStr, *]), Outcome.made_ifOk (by simp [cborAddKvStr, *]),
    Outcome.made_ifOk (by simp [*])]
  simp [cborAddKvUint, cborAddKvStr]

/-- Without one of the texts the map is left with less than its three pairs. -/
theorem appendConnection_broken
    (h : ¬((lwip.xIpAddrPortToString pcb.remoteIp pcb.remotePort).isSome ∧
      (lwip.pcGetNetifName pcb.netifIdx).isSome))
    (hall : (lwip.appendConnection pcb e k).AllOk) :
    .createMap .list (.entry k) 3 ∈ (lwip.appendConnection pcb e k).made ∧
      received (.entry k) (lwip.appendConnection pcb e k).made ≠ 2 * 3 := by
  have hbad : (cborUnknownError : CborError) ≠ 0 := by decide
  unfold Lwip.appendConnection at hall ⊢
  cases htext : lwip.xIpAddrPortToString pcb.remoteIp pcb.remotePort with
  | none =>
    cases hname : lwip.pcGetNetifName pcb.netifIdx with
    | none =>
      simp only [htext, hname] at hall ⊢
      have hcreate := (Outcome.allOk_assign.mp hall.of_ifOk.of_ifOk).1.of_ifOk
      have hmap := Outcome.allOk_call.mp hcreate
      simp [Outcome.ifOk, hmap, hbad, received, EncoderCall.target]
    | some name =>
      simp only [htext, hname] at hall ⊢
      have hcreate := hall.of_ifOk.of_ifOk.of_ifOk.of_ifOk
      have hmap := Outcome.allOk_call.mp hcreate
      simp [Outcome.ifOk, hmap, hbad, received, EncoderCall.target]
  | some text =>
    cases hname : lwip.pcGetNetifName pcb.netifIdx with
    | none =>
      simp only [htext, hname] at hall ⊢
      have hcreate := (Outcome.allOk_assign.mp hall.of_ifOk.of_ifOk).1.of_ifOk
      have hmap := Outcome.allOk_call.mp hcreate
      simp [Outcome.ifOk, hmap, hbad, cborAddKvStr, received, EncoderCall.target]
    | some name => simp [htext, hname] at h

theorem appendConnection_isEntry :
    IsEntry k (lwip.appendConnection pcb e k) (e.Clean lwip pcb) where
  own := appendConnection_own lwip pcb e k
  xError_iff := appendConnection_xError_eq_zero lwip pcb e k
  allOk h := (appendConnection_honest lwip pcb e k h.1 h.2.1).mp
    ((appendConnection_xError_eq_zero lwip pcb e k).mpr h)
  complete h := by
    obtain ⟨text, name, hmade⟩ := appendConnection_made lwip pcb e k h
    rw [hmade]
    rfl
  map h n hn := by
    obtain ⟨text, name, hmade⟩ := appendConnection_made lwip pcb e k h
    rw [hmade] at hn ⊢
    simp_all [received, EncoderCall.target]
  broken hall hclean := by
    by_cases h : (lwip.xIpAddrPortToString pcb.remoteIp pcb.remotePort).isSome ∧
        (lwip.pcGetNetifName pcb.netifIdx).isSome
    · have hok := (appendConnection_honest lwip pcb e k h.1 h.2).mpr hall
      exact absurd ((appendConnection_xError_eq_zero lwip pcb e k).mp hok) hclean
    · exact ⟨3, appendConnection_broken lwip pcb e k h hall⟩

end appendConnection

section list

variable {β : Type*} {bs : List β} {entry : β × Nat → Encoding} {clean : β × Nat → Prop}

def EntriesClean (clean : β × Nat → Prop) (bs : List β) : Prop := ∀ b ∈ bs.zipIdx, clean b

def LastClean (clean : β × Nat → Prop) (bs : List β) : Prop :=
  ∀ b, bs.zipIdx.getLast? = some b → clean b

theorem OfEntry.received_eq_zero {k : Nat} {cs : List EncoderCall} {encoder : Encoder}
    (hown : ∀ c ∈ cs, c.OfEntry k) (hne : encoder ≠ .entry k) (hlist : encoder ≠ .list) :
    received encoder cs = 0 := by
  apply List.countP_eq_zero.mpr
  intro c hc
  have h := hown c hc
  cases c <;> simp_all [EncoderCall.OfEntry, EncoderCall.target, eq_comm]

theorem received_append (encoder : Encoder) (cs ds : List EncoderCall) :
    received encoder (cs ++ ds) = received encoder cs + received encoder ds :=
  List.countP_append

theorem appended_append (cs ds : List EncoderCall) :
    appended (cs ++ ds) = appended cs + appended ds :=
  List.countP_append

theorem received_flatMap_eq_zero {l : List (β × Nat)} {k : Nat}
    (hentry : ∀ b ∈ l, ∀ c ∈ (entry b).made, c.OfEntry b.2) (hk : k ∉ l.map Prod.snd) :
    received (.entry k) (l.flatMap fun b => (entry b).made) = 0 := by
  apply List.countP_eq_zero.mpr
  intro c hc
  obtain ⟨b, hb, hcb⟩ := List.mem_flatMap.mp hc
  have hne : b.2 ≠ k := fun h => hk (h ▸ List.mem_map_of_mem hb)
  have hown := hentry b hb c hcb
  cases c <;> simp_all [EncoderCall.OfEntry, EncoderCall.target]

/-- An entry's encoder receives what that entry's calls give it. -/
theorem received_flatMap {l : List (β × Nat)}
    (hentry : ∀ b ∈ l, ∀ c ∈ (entry b).made, c.OfEntry b.2) (hnodup : (l.map Prod.snd).Nodup)
    {b : β × Nat} (hb : b ∈ l) :
    received (.entry b.2) (l.flatMap fun b => (entry b).made)
      = received (.entry b.2) (entry b).made := by
  induction l with
  | nil => cases hb
  | cons a l ih =>
    rw [List.map_cons, List.nodup_cons] at hnodup
    have hl : ∀ b ∈ l, ∀ c ∈ (entry b).made, c.OfEntry b.2 :=
      fun b hb => hentry b (List.mem_cons_of_mem _ hb)
    rw [List.flatMap_cons, received_append]
    rcases List.mem_cons.mp hb with rfl | hmem
    · rw [received_flatMap_eq_zero hl hnodup.1, Nat.add_zero]
    · have hne : b.2 ≠ a.2 := fun h => hnodup.1 (h ▸ List.mem_map_of_mem hmem)
      rw [OfEntry.received_eq_zero (hentry a List.mem_cons_self) (by simpa using hne) (by simp),
        Nat.zero_add]
      exact ih hl hnodup.2 hmem

/-- Finished entries are counted one by one. -/
theorem appended_flatMap {l : List (β × Nat)} (h : ∀ b ∈ l, appended (entry b).made = 1) :
    appended (l.flatMap fun b => (entry b).made) = l.length := by
  induction l with
  | nil => rfl
  | cons a l ih =>
    rw [List.flatMap_cons, appended_append, h a List.mem_cons_self,
      ih fun b hb => h b (List.mem_cons_of_mem _ hb), List.length_cons, Nat.add_comm]

/-- When no call failed, the maps of the entries tell whether all entries are clean. -/
theorem maps_iff (hentry : ∀ b ∈ bs.zipIdx, IsEntry b.2 (entry b) (clean b))
    (hall : ∀ b ∈ bs.zipIdx, (entry b).AllOk) :
    (∀ k n, .createMap .list (.entry k) n ∈ bs.zipIdx.flatMap (fun b => (entry b).made) →
        received (.entry k) (bs.zipIdx.flatMap fun b => (entry b).made) = 2 * n) ↔
      EntriesClean clean bs := by
  have hown : ∀ b ∈ bs.zipIdx, ∀ c ∈ (entry b).made, c.OfEntry b.2 := fun b hb => (hentry b hb).own
  have hnodup : (bs.zipIdx.map Prod.snd).Nodup := by
    rw [List.zipIdx_map_snd]
    exact List.nodup_range'
  constructor
  · intro hmaps b hb
    by_contra hclean
    obtain ⟨n, hn, hne⟩ := (hentry b hb).broken (hall b hb) hclean
    have hreceived := hmaps b.2 n (List.mem_flatMap.mpr ⟨b, hb, hn⟩)
    rw [received_flatMap hown hnodup hb] at hreceived
    exact hne hreceived
  · intro hclean k n hn
    obtain ⟨b, hb, hmem⟩ := List.mem_flatMap.mp hn
    have hk : k = b.2 := Encoder.entry.inj (hown b hb _ hmem).2
    subst hk
    rw [received_flatMap hown hnodup hb]
    exact (hentry b hb).map (hclean b hb) n hmem

end list

section frame

variable {before after es : List EncoderCall}

/-- A call outside the list: it neither goes to an entry nor makes or finishes one. -/
def EncoderCall.Outside : EncoderCall → Prop
  | textStringz on _ => ∀ k, on ≠ .entry k
  | uint on _ => ∀ k, on ≠ .entry k
  | createMap parent child _ => (∀ k, parent ≠ .entry k ∧ child ≠ .entry k) ∧ child ≠ .list
  | createArray parent _ _ => ∀ k, parent ≠ .entry k
  | closeContainer parent _ => parent ≠ .list

theorem EncoderCall.Outside.received {cs : List EncoderCall} (h : ∀ c ∈ cs, c.Outside) (k : Nat) :
    received (.entry k) cs = 0 := by
  apply List.countP_eq_zero.mpr
  intro c hc
  have hout := h c hc
  cases c <;> simp_all [EncoderCall.Outside, EncoderCall.target]

theorem EncoderCall.Outside.appended {cs : List EncoderCall} (h : ∀ c ∈ cs, c.Outside) :
    appended cs = 0 := by
  apply List.countP_eq_zero.mpr
  intro c hc
  have hout := h c hc
  unfold EncoderCall.finishesEntry
  split
  · exact absurd rfl hout
  · simp

theorem appended_around (hbefore : ∀ c ∈ before, c.Outside) (hafter : ∀ c ∈ after, c.Outside) :
    appended (before ++ es ++ after) = appended es := by
  rw [appended_append, appended_append, EncoderCall.Outside.appended hbefore,
    EncoderCall.Outside.appended hafter, Nat.zero_add, Nat.add_zero]

theorem received_entry_around (hbefore : ∀ c ∈ before, c.Outside)
    (hafter : ∀ c ∈ after, c.Outside) (k : Nat) :
    received (.entry k) (before ++ es ++ after) = received (.entry k) es := by
  rw [received_append, received_append, EncoderCall.Outside.received hbefore,
    EncoderCall.Outside.received hafter, Nat.zero_add, Nat.add_zero]

section entries

variable (hes : ∀ c ∈ es, ∃ k, c.OfEntry k)
include hes

theorem received_around {encoder : Encoder} (hne : ∀ k, encoder ≠ .entry k)
    (hlist : encoder ≠ .list) :
    received encoder (before ++ es ++ after) = received encoder (before ++ after) := by
  have hzero : received encoder es = 0 := by
    apply List.countP_eq_zero.mpr
    intro c hc
    obtain ⟨k, hk⟩ := hes c hc
    cases c <;> simp_all [EncoderCall.OfEntry, EncoderCall.target, eq_comm]
  simp only [received_append, hzero, Nat.add_zero]

theorem totalValue?_around :
    (before ++ es ++ after).filterMap EncoderCall.totalValue?
      = (before ++ after).filterMap EncoderCall.totalValue? := by
  have hnone : es.filterMap EncoderCall.totalValue? = [] := by
    apply List.filterMap_eq_nil_iff.mpr
    intro c hc
    obtain ⟨k, hk⟩ := hes c hc
    unfold EncoderCall.totalValue?
    split
    · cases hk
    · rfl
  simp only [List.filterMap_append, hnone, List.append_nil]

end entries

/-- The shape of a report, told apart for the list and for what stands around it. -/
theorem wellFormed_around_iff (hbefore : ∀ c ∈ before, c.Outside) (hafter : ∀ c ∈ after, c.Outside)
    (hes : ∀ c ∈ es, ∃ k, c.OfEntry k) :
    WellFormed (before ++ es ++ after) ↔
      (∀ k n, .createMap .list (.entry k) n ∈ es → received (.entry k) es = 2 * n) ∧
      (∀ parent child n, .createMap parent child n ∈ before ++ after →
        received child (before ++ after) = 2 * n) ∧
      (∀ parent n, .createArray parent .list n ∈ before ++ after → n = appended es) ∧
      (before ++ after).filterMap EncoderCall.totalValue? = [appended es] := by
  have happended : appended (before ++ es ++ after) = appended es :=
    appended_around hbefore hafter
  have hmem (c : EncoderCall) :
      c ∈ before ++ es ++ after ↔ c ∈ before ++ after ∨ c ∈ es := by
    simp only [List.mem_append]
    tauto
  have hout : ∀ c ∈ before ++ after, c.Outside := List.forall_mem_append.mpr ⟨hbefore, hafter⟩
  constructor
  · rintro ⟨hmap, harray, htotal⟩
    refine ⟨fun k n hn => ?_, fun parent child n hn => ?_, fun parent n hn => ?_, ?_⟩
    · rw [← received_entry_around hbefore hafter]
      exact hmap _ _ _ ((hmem _).mpr (.inr hn))
    · rw [← received_around hes (fun k => ((hout _ hn).1 k).2) (hout _ hn).2]
      exact hmap _ _ _ ((hmem _).mpr (.inl hn))
    · rw [← happended]
      exact harray _ _ ((hmem _).mpr (.inl hn))
    · rw [← totalValue?_around hes, ← happended]
      exact htotal
  · rintro ⟨hmaps, hmap, harray, htotal⟩
    refine ⟨fun parent child n hn => ?_, fun parent n hn => ?_, ?_⟩
    · rcases (hmem _).mp hn with hn | hn
      · rw [received_around hes (fun k => ((hout _ hn).1 k).2) (hout _ hn).2]
        exact hmap _ _ _ hn
      · obtain ⟨k, rfl, rfl⟩ := hes _ hn
        rw [received_entry_around hbefore hafter]
        exact hmaps k n hn
    · rcases (hmem _).mp hn with hn | hn
      · rw [happended]
        exact harray _ _ hn
      · obtain ⟨k, hk⟩ := hes _ hn
        exact hk.elim
    · rw [totalValue?_around hes, happended]
      exact htotal

end frame

end RenesasDemo.Defender
