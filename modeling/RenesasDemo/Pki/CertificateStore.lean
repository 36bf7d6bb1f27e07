import RenesasDemo.Framework.Runs
import RenesasDemo.Pki.CertificateObjects

namespace RenesasDemo.Pki

open Framework

/-- A call of one of the functions with its arguments. -/
inductive PkcsCall where
  | writeCertificate (pcLabel : Option CString) (pxCertificateContext : Option (List UInt8))
  | writePubKey (pcLabel : Option CString) (pxPubKeyContext : Option (CkRv × List UInt8))
  | generateKeyPair (pcPrivateKeyLabel pcPublicKeyLabel : CString) (malloc : Bool)
  | readCertificate (call : CertificateCall)

/-- The state of the PKCS#11 module, and for each label the last certificate whose write was a
success. -/
structure CertificateStore (σ : Type) where
  token : σ
  written : List UInt8 → Option (List UInt8)

namespace CertificateStore

variable {σ : Type} (m : Pkcs11Module σ) (n : Nat)

def next (s : CertificateStore σ) : PkcsCall → CertificateStore σ
  | .writeCertificate pcLabel pxCertificateContext =>
      let result := m.xPkcs11WriteCertificate n pcLabel pxCertificateContext s.token
      ⟨result.2, if result.1 = .success then
        Function.update s.written (usedLabel n pcLabel pxCertificateContext.isSome)
          (some (pxCertificateContext.getD []))
        else s.written⟩
  | .writePubKey pcLabel pxPubKeyContext =>
      { s with token := (m.xPkcs11WritePubKey n pcLabel pxPubKeyContext s.token).2 }
  | .generateKeyPair prvLabel pubLabel malloc =>
      { s with token := (m.xPkcs11GenerateKeyPairEC n prvLabel pubLabel malloc s.token).2 }
  | .readCertificate call => { s with token := (m.xPkcs11ReadCertificate n call s.token).2 }

def Step (s : CertificateStore σ) (call : PkcsCall) (t : CertificateStore σ) : Prop :=
  t = s.next m n call

/-- A write of a certificate is a success. -/
def WriteSucceeds (s : CertificateStore σ) : PkcsCall → Prop
  | .writeCertificate pcLabel pxCertificateContext =>
      (m.xPkcs11WriteCertificate n pcLabel pxCertificateContext s.token).1 = .success
  | _ => True

/-- No certificate is there but the last one that was written. -/
structure Sound (s : CertificateStore σ) : Prop where
  objects : (m.objects s.token).Sound
  written : ∀ label v, (m.objects s.token).Holds .certificate label v → s.written label = some v

/-- It is there. -/
structure Exact (s : CertificateStore σ) : Prop extends s.Sound m where
  there : ∀ label v, s.written label = some v → (m.objects s.token).Holds .certificate label v

section run

variable {m n} {s t : CertificateStore σ} {call : PkcsCall} {calls : List PkcsCall}

theorem Sound.of_same {token : σ} (hi : s.Sound m)
    (hc : (m.objects s.token).SameCertificates (m.objects token)) :
    Sound m { s with token := token } :=
  ⟨hc.sound, fun label v hv => hi.written label v (hc.same.mp hv)⟩

theorem Exact.of_same {token : σ} (hi : s.Exact m)
    (hc : (m.objects s.token).SameCertificates (m.objects token)) :
    Exact m { s with token := token } :=
  ⟨hi.toSound.of_same hc, fun label v hv => hc.same.mpr (hi.there label v hv)⟩

section write

variable {pcLabel : Option CString} {cert : Option (List UInt8)}

theorem written_self (hok : s.WriteSucceeds m n (.writeCertificate pcLabel cert)) :
    (s.next m n (.writeCertificate pcLabel cert)).written (usedLabel n pcLabel cert.isSome) =
      some (cert.getD []) :=
  (congrFun (if_pos hok) _).trans (Function.update_self ..)

theorem written_of_failed (hno : ¬ s.WriteSucceeds m n (.writeCertificate pcLabel cert)) :
    (s.next m n (.writeCertificate pcLabel cert)).written = s.written :=
  if_neg hno

theorem written_of_ne {label : List UInt8} (hl : label ≠ usedLabel n pcLabel cert.isSome) :
    (s.next m n (.writeCertificate pcLabel cert)).written label = s.written label := by
  by_cases hok : s.WriteSucceeds m n (.writeCertificate pcLabel cert)
  · exact (congrFun (if_pos hok) _).trans (Function.update_of_ne hl ..)
  · rw [written_of_failed hok]

end write

/-- A call that is not a write of a certificate changes none. -/
theorem same_or_write (hi : s.Sound m) (call : PkcsCall) :
    (∃ token, s.next m n call = { s with token := token } ∧
      (m.objects s.token).SameCertificates (m.objects token)) ∨
      ∃ pcLabel pxCertificateContext, call = .writeCertificate pcLabel pxCertificateContext := by
  cases call with
  | writeCertificate pcLabel pxCertificateContext => exact .inr ⟨_, _, rfl⟩
  | writePubKey pcLabel pxPubKeyContext =>
    exact .inl ⟨_, rfl, m.of_spec _ (m.xPkcs11WritePubKey_spec hi.objects n pcLabel _)⟩
  | generateKeyPair prvLabel pubLabel malloc =>
    exact .inl ⟨_, rfl, m.of_spec _ (m.xPkcs11GenerateKeyPairEC_spec hi.objects n _ _ _)⟩
  | readCertificate call =>
    exact .inl ⟨_, rfl, (m.xPkcs11ReadCertificate_right hi.objects n call).1⟩

theorem Sound.step (hi : s.Sound m) (hs : Step m n s call t) : t.Sound m := by
  obtain rfl : t = s.next m n call := hs
  obtain ⟨token, heq, hsame⟩ | ⟨pcLabel, cert, rfl⟩ := same_or_write (n := n) hi call
  · rw [heq]
    exact hi.of_same hsame
  · have hr := m.of_spec _ (m.xPkcs11WriteCertificate_spec hi.objects n pcLabel cert)
    refine ⟨hr.sound, fun label v hv => ?_⟩
    by_cases hl : label = usedLabel n pcLabel cert.isSome
    · subst hl
      by_cases hok : s.WriteSucceeds m n (.writeCertificate pcLabel cert)
      · rw [written_self hok, (hr.written rfl hok v).mp hv]
      · rw [written_of_failed hok]
        exact hi.written _ _ (hr.failed rfl hok v hv)
    · rw [written_of_ne hl]
      exact hi.written _ _ ((hr.others label v fun h => hl h.2).mp hv)

theorem Exact.step (hi : s.Exact m) (hok : s.WriteSucceeds m n call) (hs : Step m n s call t) :
    t.Exact m := by
  refine ⟨hi.toSound.step hs, ?_⟩
  obtain rfl : t = s.next m n call := hs
  obtain ⟨token, heq, hsame⟩ | ⟨pcLabel, cert, rfl⟩ := same_or_write (n := n) hi.toSound call
  · rw [heq]
    exact (hi.of_same hsame).there
  · have hr := m.of_spec _ (m.xPkcs11WriteCertificate_spec hi.objects n pcLabel cert)
    intro label v hv
    by_cases hl : label = usedLabel n pcLabel cert.isSome
    · subst hl
      rw [written_self hok] at hv
      exact (hr.written rfl hok v).mpr (Option.some.inj hv).symm
    · rw [written_of_ne hl] at hv
      exact (hr.others label v fun h => hl h.2).mpr (hi.there label v hv)

/-- The run starts with the certificates that are there. A read hands no other to the parser than
the last one that was written; it hands one over if its calls answer CKR_OK, and while no write
failed it finds one exactly if one was written. -/
theorem certificates_run (h0 : s.Exact m) (h : Run (Step m n) s calls t) :
    (m.objects t.token).Sound ∧ ∀ call : CertificateCall,
      let label := usedLabel n call.pcLabel true
      let r := (m.xPkcs11ReadCertificate n call t.token).1
      (∀ v, r.parsed = some v → t.written label = some v) ∧
      (∀ a, r.answers = some a → a.functionList.list = true → a.xResult = ckrOk →
        r.parsed.isSome) ∧
      (Run (Guarded (WriteSucceeds m n) (Step m n)) s calls t →
        ∀ a, r.answers = some a → a.find = ckrOk →
          (a.xCertObj ≠ ckInvalidHandle ↔ (t.written label).isSome)) := by
  have hs : t.Sound m := h.invariant h0.toSound fun _ _ _ hi hs => hi.step hs
  refine ⟨hs.objects, fun call => ?_⟩
  obtain ⟨-, hparsed, hreached, hfound⟩ := m.xPkcs11ReadCertificate_right hs.objects n call
  refine ⟨fun v hv => hs.written _ v (hparsed v hv), hreached, fun hok a ha hfind => ?_⟩
  have hexact : t.Exact m := hok.invariant h0 fun _ _ _ hi hs => hi.step hs.1 hs.2
  rw [hfound a ha hfind, Option.isSome_iff_exists]
  exact exists_congr fun v => ⟨hexact.written _ v, hexact.there _ v⟩

end run

/-- A token with a place for one object, at handle 1, that generates no keys. -/
private def slotModule : Pkcs11Module (Option CkObject) where
  objects s h := if h = 1 then s else none
  cGetFunctionList s := (ckrOk, s)
  xInitializePkcs11Session _ s := ((ckrOk, 1), s)
  xFindObjectWithLabelAndClass _ label xClass s :=
    ((ckrOk, if s.any (fun x => decide (x.Named xClass label)) then 1 else ckInvalidHandle), s)
  cDestroyObject _ h s :=
    (if h = 1 then ckrOk else ckrObjectHandleInvalid, if h = 1 then none else s)
  cCreateObject _ x s := if s = none then (ckrOk, some x) else (ckrHostMemory, s)
  cGenerateKeyPair _ _ _ s := ((ckrFunctionFailed, ckInvalidHandle), s)
  cGetAttributeValue _ h s := (if h = 1 then s.elim (ckrObjectHandleInvalid, []) fun x =>
    (ckrOk, x.pValue) else (ckrObjectHandleInvalid, []), s)
  cCloseSession _ s := (ckrOk, s)
  invalid_handle s := rfl
  functionList_spec o s hs := hs
  session_spec o xSession s hs := ⟨hs, fun _ => Nat.one_ne_zero⟩
  find_spec := by
    rintro _ xSession label xClass s rfl
    refine ⟨rfl, fun _ => ?_⟩
    cases s with
    | none => exact .inr ⟨rfl, fun h x hx => absurd hx (by simp)⟩
    | some x =>
      by_cases hname : x.Named xClass label
      · exact .inl ⟨x, by simp [hname], hname⟩
      · refine .inr ⟨by simp [hname], fun h y hy => ?_⟩
        obtain rfl := Option.some.inj (Option.ite_none_right_eq_some.mp hy).2
        exact hname
  destroy_spec := by
    rintro _ xSession h s rfl
    by_cases hh : h = 1
    · refine .inl (funext fun k => ?_)
      by_cases hk : k = 1 <;> simp [hh, hk, Function.update]
    · exact .inr ⟨by simp [hh, ckrOk, ckrObjectHandleInvalid], by simp [hh]⟩
  create_spec := by
    rintro _ xSession x s rfl
    cases s with
    | none =>
      refine .inl ⟨rfl, 1, rfl, funext fun k => ?_⟩
      by_cases hk : k = 1 <;> simp [hk, Function.update]
    | some y => exact .inr ⟨by decide, rfl⟩
  generate_spec o xSession pubLabel prvLabel s hs := .inr ⟨by decide, hs⟩
  value_spec := by
    rintro _ xSession h s rfl
    refine ⟨rfl, fun hok => ?_⟩
    by_cases hh : h = 1
    · cases s with
      | none => simp [hh, ckrOk, ckrObjectHandleInvalid] at hok
      | some x => exact ⟨x, by simp [hh], by simp [hh]⟩
    · simp [hh, ckrOk, ckrObjectHandleInvalid] at hok
  close_spec := by
    rintro _ xSession s rfl
    exact ⟨fun h x hx => hx, fun h x hx _ => hx⟩

private theorem exact_empty : Exact slotModule ⟨none, fun _ => none⟩ where
  objects := ⟨fun hx => absurd hx (by simp [slotModule]),
    fun hx => absurd hx (by simp [slotModule])⟩
  written label v hv := by
    obtain ⟨h, x, hx, -⟩ := hv
    exact absurd hx (by simp [slotModule])
  there label v hv := absurd hv nofun

private def replacingCalls : List PkcsCall :=
  [.writeCertificate (some ⟨[97], by decide⟩) (some [1]),
    .writeCertificate (some ⟨[97], by decide⟩) (some [2])]

/-- The certificate of the label "a" is written and replaced. -/
theorem certificates_run_replaced :
    (slotModule.xPkcs11ReadCertificate 32 ⟨true, some ⟨[97], by decide⟩, 0, true, fun _ => 0⟩
      (replacingCalls.foldl (next slotModule 32) ⟨none, fun _ => none⟩).token).1.parsed =
        some [2] := by
  have hrun : Run (Step slotModule 32) ⟨none, fun _ => none⟩ replacingCalls
      (replacingCalls.foldl (next slotModule 32) ⟨none, fun _ => none⟩) :=
    .cons rfl (.cons rfl (.refl _))
  obtain ⟨hparsed, hreached, -⟩ := (certificates_run exact_empty hrun).2
    ⟨true, some ⟨[97], by decide⟩, 0, true, fun _ => 0⟩
  obtain ⟨v, hv⟩ := Option.isSome_iff_exists.mp (hreached _ rfl rfl rfl)
  rw [hv, ← hparsed v hv]
  rfl

end CertificateStore

end RenesasDemo.Pki
