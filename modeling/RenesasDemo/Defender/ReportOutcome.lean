import RenesasDemo.Defender.ReportShape

namespace RenesasDemo.Defender

open Framework

section addObject

variable {o entries : Encoding} {parent : Encoder} {listName : List UInt8} {count : Nat}
  {e : ObjectErrors}

def ObjectErrors.Clean (e : ObjectErrors) : Prop :=
  e.map = 0 ∧ e.t.Clean ∧ e.listName = 0 ∧ e.array = 0 ∧ e.closeList = 0 ∧ e.close = 0

theorem addObject_empty_honest (ho : o.Honest) :
    (addObject o parent listName 0 entries e).Honest := by
  have ht : (cborAddKvUint .object (ascii "t") 0 e.t).Honest :=
    (Outcome.honest_call _ _).orAssign (Outcome.honest_call _ _)
  exact ((ho.ifOk (Outcome.honest_call _ _)).ifOk ht).ifOk (Outcome.honest_call _ _)

theorem addObject_empty_made (h : (addObject o parent listName 0 entries e).xError = 0) :
    (addObject o parent listName 0 entries e).made = o.made ++
      [.createMap parent .object 1, .textStringz .object (ascii "t"), .uint .object 0,
        .closeContainer parent .object] := by
  obtain ⟨⟨⟨hz, hmap⟩, hkey, hvalue⟩, hclose⟩ : ((o.xError = 0 ∧ e.map = 0) ∧
      e.t.key = 0 ∧ e.t.value = 0) ∧ e.close = 0 := by
    simpa [addObject, cborAddKvUint] using h
  simp [addObject, Outcome.ifOk, hz, hmap, hkey, hvalue, hclose, cborAddKvUint]

theorem addObject_xError_eq_zero (hcount : 0 < count) :
    (addObject o parent listName count entries e).xError = 0 ↔
      o.xError = 0 ∧ e.Clean ∧ entries.xError = 0 := by
  simp only [addObject, hcount, if_true, ObjectErrors.Clean, KvErrors.Clean, cborAddKvUint,
    Outcome.xError_ifOk_eq_zero, Outcome.xError_call, Outcome.xError_orAssign_eq_zero]
  tauto

theorem addObject_made (hcount : 0 < count)
    (h : (addObject o parent listName count entries e).xError = 0) :
    (addObject o parent listName count entries e).made = o.made ++
      [.createMap parent .object 2, .textStringz .object (ascii "t"), .uint .object count,
        .textStringz .object listName, .createArray .object .list count] ++ entries.made ++
      [.closeContainer .object .list, .closeContainer parent .object] := by
  obtain ⟨hz, ⟨hmap, ⟨hkey, hvalue⟩, hname, harray, hlist, hclose⟩, hentries⟩ :=
    (addObject_xError_eq_zero hcount).mp h
  simp [addObject, Outcome.ifOk, hcount, hz, hmap, hkey, hvalue, hname, harray, hlist, hclose,
    hentries, cborAddKvUint]

theorem addObject_allOk (hcount : 0 < count) (ho : o.Honest)
    (h : (addObject o parent listName count entries e).xError = 0) :
    (addObject o parent listName count entries e).AllOk ↔ entries.AllOk := by
  obtain ⟨hz, ⟨hmap, ⟨hkey, hvalue⟩, hname, harray, hlist, hclose⟩, hentries⟩ :=
    (addObject_xError_eq_zero hcount).mp h
  have hall : o.AllOk := ho.mp hz
  simp [addObject, Outcome.ifOk, hcount, hz, hmap, hkey, hvalue, hname, harray, hlist, hclose,
    hentries, hall, cborAddKvUint]

end addObject

section list

variable {β : Type*} {bs : List β} {entry : β × Nat → Encoding} {clean : β × Nat → Prop}

theorem lastClean_iff (hentry : ∀ b ∈ bs.zipIdx, IsEntry b.2 (entry b) (clean b)) (hne : bs ≠ []) :
    (Outcome.assignAll entry bs.zipIdx).xError = 0 ↔ LastClean clean bs := by
  have hne' : bs.zipIdx ≠ [] := by simpa using hne
  rw [Outcome.xError_assignAll _ hne', (hentry _ (List.getLast_mem hne')).xError_iff, LastClean]
  simp [List.getLast?_eq_some_getLast hne']

/-- A section with a list: the status tells of everything but the entries before the last. -/
theorem sectionRight_list_iff {o : Encoding} (before after : List EncoderCall) (count : Nat)
    {others : Prop} (hentry : ∀ b ∈ bs.zipIdx, IsEntry b.2 (entry b) (clean b)) (hne : bs ≠ [])
    (hzero : o.xError = 0 ↔ others ∧ (Outcome.assignAll entry bs.zipIdx).xError = 0)
    (hall : o.xError = 0 → (o.AllOk ↔ (Outcome.assignAll entry bs.zipIdx).AllOk))
    (hmade : o.xError = 0 →
      o.made = before ++ (Outcome.assignAll entry bs.zipIdx).made ++ after)
    (hbefore : ∀ c ∈ before, c.Outside) (hafter : ∀ c ∈ after, c.Outside)
    (hshape : ∀ m, ((∀ parent child n, .createMap parent child n ∈ before ++ after →
        received child (before ++ after) = 2 * n) ∧
      (∀ parent n, .createArray parent .list n ∈ before ++ after → n = m) ∧
      (before ++ after).filterMap EncoderCall.totalValue? = [m]) ↔ count = m) :
    SectionRight o ↔
      (others → LastClean clean bs → EntriesClean clean bs ∧ count = bs.length) := by
  have hown : ∀ c ∈ (Outcome.assignAll entry bs.zipIdx).made, ∃ k, c.OfEntry k := by
    intro c hc
    rw [Outcome.made_assignAll] at hc
    obtain ⟨b, hb, hcb⟩ := List.mem_flatMap.mp hc
    exact ⟨b.2, (hentry b hb).own c hcb⟩
  have hlength (hclean : EntriesClean clean bs) :
      appended (Outcome.assignAll entry bs.zipIdx).made = bs.length := by
    rw [Outcome.made_assignAll, appended_flatMap fun b hb => (hentry b hb).complete (hclean b hb),
      List.length_zipIdx]
  rw [sectionRight_iff, hzero, lastClean_iff hentry hne, and_imp]
  refine imp_congr_right fun hothers => imp_congr_right fun hlast => ?_
  have hz : o.xError = 0 := hzero.mpr ⟨hothers, (lastClean_iff hentry hne).mpr hlast⟩
  rw [hall hz, hmade hz, wellFormed_around_iff hbefore hafter hown, hshape,
    Outcome.allOk_assignAll]
  constructor
  · rintro ⟨hok, hmaps, hcount⟩
    rw [Outcome.made_assignAll] at hmaps
    have hclean := (maps_iff hentry hok).mp hmaps
    exact ⟨hclean, hcount.trans (hlength hclean)⟩
  · rintro ⟨hclean, hcount⟩
    have hok : ∀ b ∈ bs.zipIdx, (entry b).AllOk := fun b hb => (hentry b hb).allOk (hclean b hb)
    refine ⟨hok, ?_, hcount.trans (hlength hclean).symm⟩
    rw [Outcome.made_assignAll]
    exact (maps_iff hentry hok).mpr hclean

end list

section ports

variable (pcName : List UInt8) (e : PortsErrors)

theorem getListeningPorts_empty_right (pts : Encoding) :
    SectionRight (getListeningPorts pcName 0 pts e) := by
  rw [sectionRight_iff]
  intro hz
  refine ⟨(addObject_empty_honest (Outcome.honest_call _ _)).mp hz, ?_⟩
  rw [getListeningPorts, addObject_empty_made hz]
  refine ⟨fun parent child n hn => ?_, by simp, rfl⟩
  obtain ⟨rfl, rfl, rfl⟩ : parent = .metrics ∧ child = .object ∧ n = 1 := by simpa using hn
  rfl

theorem getListeningPorts_right_iff (count : Nat) {β : Type*} {bs : List β}
    {entry : β × Nat → Encoding} {clean : β × Nat → Prop}
    (hentry : ∀ b ∈ bs.zipIdx, IsEntry b.2 (entry b) (clean b))
    (hcount : count ≤ bs.length) :
    SectionRight (getListeningPorts pcName count (Outcome.assignAll entry bs.zipIdx) e) ↔
      (0 < count → e.name = 0 ∧ e.object.Clean → LastClean clean bs →
        EntriesClean clean bs ∧ count = bs.length) := by
  rcases Nat.eq_zero_or_pos count with rfl | hpos
  · exact iff_of_true (getListeningPorts_empty_right _ _ _) (fun h => absurd h (Nat.lt_irrefl 0))
  have hne : bs ≠ [] := by
    rintro rfl
    exact absurd (Nat.lt_of_lt_of_le hpos hcount) (Nat.lt_irrefl 0)
  rw [forall_prop_of_true hpos]
  have hname : (Outcome.call (EncoderCall.textStringz .metrics pcName) e.name).Honest :=
    Outcome.honest_call _ _
  refine sectionRight_list_iff _ _ count hentry hne ?_ (addObject_allOk hpos hname)
    (addObject_made hpos) ?_ ?_ ?_
  · rw [getListeningPorts, addObject_xError_eq_zero hpos, Outcome.xError_call, and_assoc]
  · simp [EncoderCall.Outside]
  · simp [EncoderCall.Outside]
  · intro m
    constructor
    · rintro ⟨-, -, htotal⟩
      exact (List.cons.inj htotal).1
    · rintro rfl
      refine ⟨fun parent child n hn => ?_, by simp, rfl⟩
      obtain ⟨rfl, rfl, rfl⟩ : parent = .metrics ∧ child = .object ∧ n = 2 := by simpa using hn
      rfl

end ports

section connections

variable {e : ConnectionsErrors} {entries : Encoding} {count : Nat}

def tcStart (e : ConnectionsErrors) : Encoding :=
  ((Outcome.call (.textStringz .metrics (ascii "tc")) e.name).ifOk
    (.call (.createMap .metrics .tc 1) e.tc)).ifOk (.call (.textStringz .tc (ascii "ec")) e.ec)

def getConnections (count : Nat) (entries : Encoding) (e : ConnectionsErrors) : Encoding :=
  (addObject (tcStart e) .tc (ascii "cs") count entries e.object).ifOk
    (.call (.closeContainer .metrics .tc) e.close)

theorem tcStart_honest : (tcStart e).Honest :=
  ((Outcome.honest_call _ _).ifOk (Outcome.honest_call _ _)).ifOk (Outcome.honest_call _ _)

theorem tcStart_xError_eq_zero : (tcStart e).xError = 0 ↔ e.name = 0 ∧ e.tc = 0 ∧ e.ec = 0 := by
  simp [tcStart, and_assoc]

theorem tcStart_made (h : (tcStart e).xError = 0) :
    (tcStart e).made = [.textStringz .metrics (ascii "tc"), .createMap .metrics .tc 1,
      .textStringz .tc (ascii "ec")] := by
  obtain ⟨hname, htc, -⟩ := tcStart_xError_eq_zero.mp h
  simp [tcStart, Outcome.ifOk, hname, htc]

theorem getConnections_empty_right : SectionRight (getConnections 0 entries e) := by
  have hhonest : (getConnections 0 entries e).Honest :=
    (addObject_empty_honest tcStart_honest).ifOk (Outcome.honest_call _ _)
  rw [sectionRight_iff]
  intro hz
  refine ⟨hhonest.mp hz, ?_⟩
  obtain ⟨hobject, -⟩ := Outcome.xError_ifOk_eq_zero.mp hz
  have hstart : (tcStart e).xError = 0 := by
    simp only [addObject, Nat.lt_irrefl, if_false, Outcome.xError_ifOk_eq_zero] at hobject
    exact hobject.1.1.1
  rw [getConnections, Outcome.made_ifOk hobject, addObject_empty_made hobject,
    tcStart_made hstart]
  refine ⟨fun parent child n hn => ?_, by simp, rfl⟩
  have hmaps : parent = .metrics ∧ child = .tc ∧ n = 1 ∨
      parent = .tc ∧ child = .object ∧ n = 1 := by
    simpa using hn
  rcases hmaps with ⟨rfl, rfl, rfl⟩ | ⟨rfl, rfl, rfl⟩ <;> rfl

def ConnectionsErrors.Clean (e : ConnectionsErrors) : Prop :=
  e.name = 0 ∧ e.tc = 0 ∧ e.ec = 0 ∧ e.object.Clean ∧ e.close = 0

theorem getConnections_right_iff {β : Type*} {bs : List β} {entry : β × Nat → Encoding}
    {clean : β × Nat → Prop} (hentry : ∀ b ∈ bs.zipIdx, IsEntry b.2 (entry b) (clean b)) :
    SectionRight (getConnections bs.length (Outcome.assignAll entry bs.zipIdx) e) ↔
      (e.Clean → LastClean clean bs → EntriesClean clean bs) := by
  rcases eq_or_ne bs [] with rfl | hne
  · exact iff_of_true getConnections_empty_right fun _ _ b hb => by cases hb
  have hpos : 0 < bs.length := List.length_pos_iff.mpr hne
  have hzero : (getConnections bs.length (Outcome.assignAll entry bs.zipIdx) e).xError = 0 ↔
      e.Clean ∧ (Outcome.assignAll entry bs.zipIdx).xError = 0 := by
    rw [getConnections, Outcome.xError_ifOk_eq_zero, addObject_xError_eq_zero hpos,
      tcStart_xError_eq_zero, Outcome.xError_call, ConnectionsErrors.Clean]
    tauto
  let before : List EncoderCall := [.textStringz .metrics (ascii "tc"), .createMap .metrics .tc 1,
    .textStringz .tc (ascii "ec"), .createMap .tc .object 2, .textStringz .object (ascii "t"),
    .uint .object bs.length, .textStringz .object (ascii "cs"),
    .createArray .object .list bs.length]
  let after : List EncoderCall := [.closeContainer .object .list, .closeContainer .tc .object,
    .closeContainer .metrics .tc]
  rw [sectionRight_list_iff before after bs.length hentry hne hzero]
  · simp only [and_true]
  · intro hz
    obtain ⟨hobject, hclose⟩ := Outcome.xError_ifOk_eq_zero.mp hz
    rw [getConnections, Outcome.allOk_ifOk hobject, addObject_allOk hpos tcStart_honest hobject]
    exact and_iff_left (Outcome.allOk_call.mpr hclose)
  · intro hz
    obtain ⟨hobject, -⟩ := Outcome.xError_ifOk_eq_zero.mp hz
    have hstart := ((addObject_xError_eq_zero hpos).mp hobject).1
    rw [getConnections, Outcome.made_ifOk hobject, addObject_made hpos hobject,
      tcStart_made hstart]
    simp [before, after]
  · simp [before, EncoderCall.Outside]
  · simp [after, EncoderCall.Outside]
  · intro m
    constructor
    · rintro ⟨-, -, htotal⟩
      exact (List.cons.inj htotal).1
    · rintro rfl
      refine ⟨fun parent child n hn => ?_, by simp [before, after], rfl⟩
      have hmaps : parent = .metrics ∧ child = .tc ∧ n = 1 ∨
          parent = .tc ∧ child = .object ∧ n = 2 := by
        simpa [before, after] using hn
      rcases hmaps with ⟨rfl, rfl, rfl⟩ | ⟨rfl, rfl, rfl⟩ <;> rfl

end connections

section stats

variable {Addr : Type} (lwip : Lwip Addr) (e : StatsErrors)

/-- The calls whose errors reach the result of `xGetNetworkStats`. -/
def StatsErrors.OthersClean (e : StatsErrors) : Prop :=
  e.ns = 0 ∧ e.map = 0 ∧ e.bi.Clean ∧ e.bo.Clean ∧ e.close = 0

/-- The errors of the first two pairs are overwritten. -/
theorem addStats_xError_eq_zero (o : Encoding) :
    (lwip.addStats o e).xError = 0 ↔ e.bi.Clean ∧ e.bo.Clean := by
  simp [Lwip.addStats, KvErrors.Clean, cborAddKvUint]

theorem xGetNetworkStats_xError_eq_zero :
    (lwip.xGetNetworkStats (some e)).xError = 0 ↔ e.OthersClean := by
  simp only [Lwip.xGetNetworkStats, Outcome.xError_ifOk_eq_zero, Outcome.xError_call]
  by_cases hstart : e.ns = 0 ∧ e.map = 0
  · rw [if_pos hstart, addStats_xError_eq_zero]
    simp only [StatsErrors.OthersClean, hstart, true_and, and_assoc]
  · rw [if_neg hstart, Outcome.xError_ifOk_eq_zero, Outcome.xError_call, Outcome.xError_call]
    simp only [StatsErrors.OthersClean]
    tauto

theorem xGetNetworkStats_allOk (h : e.OthersClean) :
    (lwip.xGetNetworkStats (some e)).AllOk ↔ e.pi.Clean ∧ e.po.Clean := by
  obtain ⟨hns, hmap, ⟨hbi, hbi'⟩, ⟨hbo, hbo'⟩, hclose⟩ := h
  simp [Lwip.xGetNetworkStats, Lwip.addStats, KvErrors.Clean, Outcome.ifOk,
    cborAddKvUint, hns, hmap, hbi, hbi', hbo, hbo', hclose]

end stats

namespace Lwip

variable {Addr : Type} (lwip : Lwip Addr)

def TcpPtClean (e : PortsErrors) (b : TcpPcbListen × Nat) : Prop :=
  (e.pts b.2).Clean (lwip.pcGetNetifName b.1.netifIdx).isSome

def UdpPtClean (e : PortsErrors) (b : UdpPcb × Nat) : Prop :=
  (e.pts b.2).Clean (lwip.pcGetNetifName b.1.netifIdx).isSome

def ConnClean (e : ConnectionsErrors) (b : TcpPcb Addr × Nat) : Prop :=
  (e.cs b.2).Clean lwip b.1

theorem xGetListeningTcpPorts_right_iff (e : PortsErrors) :
    SectionRight (lwip.xGetListeningTcpPorts (some e)) ↔
      ((∃ pcb ∈ lwip.tcpListenPcbs, pcb.state = .listen) → e.name = 0 ∧ e.object.Clean →
        LastClean (lwip.TcpPtClean e) lwip.tcpListenPcbs →
        EntriesClean (lwip.TcpPtClean e) lwip.tcpListenPcbs ∧
          ∀ pcb ∈ lwip.tcpListenPcbs, pcb.state = .listen) := by
  have hentry : ∀ b ∈ lwip.tcpListenPcbs.zipIdx, IsEntry b.2
      (appendPt (lwip.pcGetNetifName b.1.netifIdx) b.1.localPort (e.pts b.2) b.2)
      (lwip.TcpPtClean e b) := fun b _ => appendPt_isEntry _ _ _ _
  have h := getListeningPorts_right_iff (ascii "tp") e lwip.xCountListeningTcpPorts hentry
    List.countP_le_length
  have hpos : 0 < lwip.xCountListeningTcpPorts ↔
      ∃ pcb ∈ lwip.tcpListenPcbs, pcb.state = .listen := by
    simp [xCountListeningTcpPorts, List.countP_pos_iff]
  have hlength : lwip.xCountListeningTcpPorts = lwip.tcpListenPcbs.length ↔
      ∀ pcb ∈ lwip.tcpListenPcbs, pcb.state = .listen := by
    simp [xCountListeningTcpPorts, List.countP_eq_length]
  rw [hpos, hlength] at h
  exact h

theorem xGetListeningUdpPorts_right_iff (e : PortsErrors) :
    SectionRight (lwip.xGetListeningUdpPorts (some e)) ↔
      (e.name = 0 ∧ e.object.Clean → LastClean (lwip.UdpPtClean e) lwip.udpPcbs →
        EntriesClean (lwip.UdpPtClean e) lwip.udpPcbs) := by
  have hentry : ∀ b ∈ lwip.udpPcbs.zipIdx, IsEntry b.2
      (appendPt (lwip.pcGetNetifName b.1.netifIdx) b.1.localPort (e.pts b.2) b.2)
      (lwip.UdpPtClean e b) := fun b _ => appendPt_isEntry _ _ _ _
  have h := getListeningPorts_right_iff (ascii "up") e lwip.udpPcbs.length hentry (Nat.le_refl _)
  refine Iff.trans h ?_
  rcases eq_or_ne lwip.udpPcbs [] with hnil | hne
  · simp [hnil, EntriesClean]
  · rw [forall_prop_of_true (List.length_pos_iff.mpr hne)]
    simp only [and_true]

theorem xGetEstablishedConnections_right_iff (e : ConnectionsErrors) :
    SectionRight (lwip.xGetEstablishedConnections (some e)) ↔
      (e.Clean → LastClean (lwip.ConnClean e) lwip.tcpActivePcbs →
        EntriesClean (lwip.ConnClean e) lwip.tcpActivePcbs) :=
  getConnections_right_iff fun b _ => appendConnection_isEntry lwip b.1 (e.cs b.2) b.2

theorem xGetNetworkStats_errorReturned_iff (e : StatsErrors) :
    ErrorReturned (lwip.xGetNetworkStats (some e)) ↔
      (e.OthersClean → e.pi.Clean ∧ e.po.Clean) := by
  rw [ErrorReturned, cborNoError, xGetNetworkStats_xError_eq_zero]
  exact imp_congr_right fun h => xGetNetworkStats_allOk lwip e h

theorem sectionRight_fail : SectionRight (.fail cborErrorImproperValue) :=
  sectionRight_iff.mpr fun h => absurd h (by decide)

/-- Each section is right just when nothing but its result's last entry went wrong, and the network
statistics just when nothing but their first two pairs did not. -/
theorem report_right_iff (tp up : Option PortsErrors) (tc : Option ConnectionsErrors)
    (ns : Option StatsErrors) :
    (SectionRight (lwip.xGetListeningTcpPorts tp) ↔
      ∀ e, tp = some e → (∃ pcb ∈ lwip.tcpListenPcbs, pcb.state = .listen) →
        e.name = 0 ∧ e.object.Clean → LastClean (lwip.TcpPtClean e) lwip.tcpListenPcbs →
        EntriesClean (lwip.TcpPtClean e) lwip.tcpListenPcbs ∧
          ∀ pcb ∈ lwip.tcpListenPcbs, pcb.state = .listen) ∧
    (SectionRight (lwip.xGetListeningUdpPorts up) ↔
      ∀ e, up = some e → e.name = 0 ∧ e.object.Clean →
        LastClean (lwip.UdpPtClean e) lwip.udpPcbs →
        EntriesClean (lwip.UdpPtClean e) lwip.udpPcbs) ∧
    (SectionRight (lwip.xGetEstablishedConnections tc) ↔
      ∀ e, tc = some e → e.Clean → LastClean (lwip.ConnClean e) lwip.tcpActivePcbs →
        EntriesClean (lwip.ConnClean e) lwip.tcpActivePcbs) ∧
    (ErrorReturned (lwip.xGetNetworkStats ns) ↔
      ∀ e, ns = some e → e.OthersClean → e.pi.Clean ∧ e.po.Clean) := by
  refine ⟨?_, ?_, ?_, ?_⟩
  · cases tp with
    | none => exact iff_of_true sectionRight_fail (fun e h => by cases h)
    | some e =>
      simpa only [Option.some.injEq, forall_eq'] using lwip.xGetListeningTcpPorts_right_iff e
  · cases up with
    | none => exact iff_of_true sectionRight_fail (fun e h => by cases h)
    | some e =>
      simpa only [Option.some.injEq, forall_eq'] using lwip.xGetListeningUdpPorts_right_iff e
  · cases tc with
    | none => exact iff_of_true sectionRight_fail (fun e h => by cases h)
    | some e =>
      simpa only [Option.some.injEq, forall_eq'] using lwip.xGetEstablishedConnections_right_iff e
  · cases ns with
    | none => exact iff_of_true sectionRight_fail.2 (fun e h => by cases h)
    | some e =>
      simpa only [Option.some.injEq, forall_eq'] using lwip.xGetNetworkStats_errorReturned_iff e

/-- Two UDP ports without an interface of their own; the buffer has no room for the number of the
first port, and just enough for the second entry. -/
theorem firstPort_lost :
    let lwip : Lwip Unit :=
      ⟨[], [⟨0, 49152⟩, ⟨0, 7⟩], [], none, [], fun _ => none, fun _ _ => none, 46⟩
    let outOfMemory : PtErrors := ⟨0, {}, ⟨0, 0x80000000⟩, 0⟩
    ¬SectionRight (lwip.xGetListeningUdpPorts
      (some ⟨0, {}, fun k => if k = 0 then outOfMemory else {}⟩)) := by
  intro lwip outOfMemory h
  have hlost := h.2 (by decide)
  revert hlost
  decide

end Lwip
end RenesasDemo.Defender
