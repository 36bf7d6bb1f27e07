import RenesasDemo.Pki.Pkcs11Module

namespace RenesasDemo.Pki

open Framework Std.Do

set_option mvcgen.warning false

/-- Class and label tell objects apart, and certificates are objects of the token. -/
structure CkObjects.Sound (o : CkObjects) : Prop where
  unique : ∀ {h h' x x'}, o h = some x → o h' = some x' → x'.Named x.xClass x.label → h = h'
  token : ∀ {h x}, o h = some x → x.xClass = .certificate → x.xToken = true

namespace CkObjects

def Holds (o : CkObjects) (xClass : CkObjectClass) (label pValue : List UInt8) : Prop :=
  ∃ h x, o h = some x ∧ x.Named xClass label ∧ x.pValue = pValue

/-- Nothing comes, and only certificates with the labels of `P` go. -/
structure Drops (P : List UInt8 → Prop) (o o' : CkObjects) : Prop where
  sound : o'.Sound
  subset : ∀ {c l v}, o'.Holds c l v → o.Holds c l v
  kept : ∀ {l v}, ¬ P l → o.Holds .certificate l v → o'.Holds .certificate l v

structure SameCertificates (o o' : CkObjects) : Prop where
  sound : o'.Sound
  same : ∀ {l v}, o'.Holds .certificate l v ↔ o.Holds .certificate l v

/-- What a write does to the certificates. -/
structure Replaced (xClass : CkObjectClass) (label pValue : List UInt8) (done : Prop)
    (o o' : CkObjects) : Prop where
  sound : o'.Sound
  others : ∀ l v, ¬ (xClass = .certificate ∧ l = label) →
    (o'.Holds .certificate l v ↔ o.Holds .certificate l v)
  written : xClass = .certificate → done → ∀ v, o'.Holds .certificate label v ↔ v = pValue
  failed : xClass = .certificate → ¬ done → ∀ v, o'.Holds .certificate label v →
    o.Holds .certificate label v

section objects

variable {o o' o'' : CkObjects} {P : List UInt8 → Prop} {xClass : CkObjectClass}
  {label pValue : List UInt8} {done : Prop} {h : CkHandle} {x : CkObject}

theorem Sound.refl (hs : o.Sound) : o.Drops P o := ⟨hs, id, fun _ => id⟩

theorem of_update_none {k : CkHandle} {y : CkObject} (hk : Function.update o h none k = some y) :
    k ≠ h ∧ o k = some y := by
  by_cases hkh : k = h
  · subst hkh
    rw [Function.update_self] at hk
    cases hk
  · exact ⟨hkh, by rwa [Function.update_of_ne hkh] at hk⟩

/-- The only object with the name is destroyed. -/
theorem Sound.destroy (hs : o.Sound) (hx : o h = some x) (hname : x.Named xClass label) :
    o.Drops (fun l => xClass = .certificate ∧ l = label) (Function.update o h none) ∧
      ∀ v, ¬ Holds (Function.update o h none) xClass label v := by
  refine ⟨⟨⟨?_, ?_⟩, ?_, ?_⟩, ?_⟩
  · exact fun hk hk' hyy => hs.unique (of_update_none hk).2 (of_update_none hk').2 hyy
  · exact fun hk hy => hs.token (of_update_none hk).2 hy
  · rintro c l v ⟨k, y, hk, hy⟩
    exact ⟨k, y, (of_update_none hk).2, hy⟩
  · rintro l v hne ⟨k, y, hk, hy⟩
    refine ⟨k, y, ?_, hy⟩
    rw [Function.update_of_ne, hk]
    rintro rfl
    obtain rfl : x = y := Option.some.inj (hx.symm.trans hk)
    exact hne ⟨hname.1.symm.trans hy.1.1, hy.1.2.symm.trans hname.2⟩
  · rintro v ⟨k, y, hk, hy, -⟩
    refine (of_update_none hk).1 (hs.unique (of_update_none hk).2 hx ?_)
    exact ⟨hname.1.trans hy.1.symm, hname.2.trans hy.2.symm⟩

theorem of_update_some {k : CkHandle} {y : CkObject}
    (hk : Function.update o h (some x) k = some y) : k = h ∧ y = x ∨ o k = some y := by
  by_cases hkh : k = h
  · subst hkh
    rw [Function.update_self] at hk
    exact .inl ⟨rfl, (Option.some.inj hk).symm⟩
  · exact .inr (by rwa [Function.update_of_ne hkh] at hk)

/-- An object is created where there is none with its name. -/
theorem Sound.create (hs : o.Sound) (hfree : o h = none)
    (hnew : ∀ v, ¬ o.Holds x.xClass x.label v)
    (htoken : x.xClass = .certificate → x.xToken = true) :
    Sound (Function.update o h (some x)) ∧
      ∀ c l v, Holds (Function.update o h (some x)) c l v ↔
        o.Holds c l v ∨ x.Named c l ∧ x.pValue = v := by
  refine ⟨⟨?_, ?_⟩, fun c l v => ⟨?_, ?_⟩⟩
  · intro k k' y y' hk hk' hyy
    obtain ⟨hkh, rfl⟩ | hold := of_update_some hk
    · obtain ⟨hkh', -⟩ | hold' := of_update_some hk'
      · rw [hkh, hkh']
      · exact absurd ⟨k', y', hold', hyy, rfl⟩ (hnew y'.pValue)
    · obtain ⟨-, rfl⟩ | hold' := of_update_some hk'
      · exact absurd ⟨k, y, hold, ⟨hyy.1.symm, hyy.2.symm⟩, rfl⟩ (hnew y.pValue)
      · exact hs.unique hold hold' hyy
  · intro k y hk hy
    obtain ⟨rfl, rfl⟩ | hk := of_update_some hk
    · exact htoken hy
    · exact hs.token hk hy
  · rintro ⟨k, y, hk, hy⟩
    obtain ⟨rfl, rfl⟩ | hk := of_update_some hk
    · exact .inr hy
    · exact .inl ⟨k, y, hk, hy⟩
  · rintro (⟨k, y, hk, hy⟩ | hx)
    · refine ⟨k, y, ?_, hy⟩
      rw [Function.update_of_ne, hk]
      rintro rfl
      rw [hfree] at hk
      cases hk
    · exact ⟨h, x, Function.update_self .., hx⟩

theorem Drops.same (hd : o.Drops (fun _ => False) o') : o.SameCertificates o' :=
  ⟨hd.sound, hd.subset, hd.kept id⟩

theorem Replaced.same_of_ne (hr : o.Replaced xClass label pValue done o')
    (hne : xClass ≠ .certificate) : o.SameCertificates o' :=
  ⟨hr.sound, hr.others _ _ fun hl => hne hl.1⟩

theorem SameCertificates.trans (hc : o.SameCertificates o') (hc' : o'.SameCertificates o'') :
    o.SameCertificates o'' :=
  ⟨hc'.sound, hc'.same.trans hc.same⟩

theorem Drops.same_of_ne (hd : o.Drops (fun l => xClass = .certificate ∧ l = label) o')
    (hne : xClass ≠ .certificate) : o.SameCertificates o' :=
  ⟨hd.sound, hd.subset, hd.kept fun hl => hne hl.1⟩

theorem Drops.replaced (hd : o.Drops (fun l => xClass = .certificate ∧ l = label) o')
    (hdone : ¬ done) : o.Replaced xClass label pValue done o' :=
  ⟨hd.sound, fun _ _ hl => ⟨hd.subset, hd.kept hl⟩, fun _ hd => absurd hd hdone,
    fun _ _ _ => hd.subset⟩

theorem Replaced.of_drops (hd : o.Drops (fun l => xClass = .certificate ∧ l = label) o')
    (hr : o'.Replaced xClass label pValue done o'') : o.Replaced xClass label pValue done o'' where
  sound := hr.sound
  others l v hl := (hr.others l v hl).trans ⟨hd.subset, hd.kept hl⟩
  written := hr.written
  failed hc hdone v hv := hd.subset (hr.failed hc hdone v hv)

/-- The session is closed behind the write. -/
theorem Replaced.closed (hr : o.Replaced xClass label pValue done o')
    (hd : o'.Drops (fun _ => False) o'') : o.Replaced xClass label pValue done o'' where
  sound := hd.sound
  others l v hl := Iff.trans ⟨hd.subset, hd.kept id⟩ (hr.others l v hl)
  written hc hdone v := Iff.trans ⟨hd.subset, hd.kept id⟩ (hr.written hc hdone v)
  failed hc hdone v hv := hr.failed hc hdone v (hd.subset hv)

theorem Sound.created (hs : o.Sound) (hfree : o h = none)
    (hnew : ∀ v, ¬ o.Holds xClass label v) (hdone : done) :
    o.Replaced xClass label pValue done
      (Function.update o h (some ⟨xClass, label, pValue, true⟩)) := by
  obtain ⟨hsound, hholds⟩ := hs.create (x := ⟨xClass, label, pValue, true⟩) hfree hnew fun _ => rfl
  refine ⟨hsound, fun l v hl => (hholds _ l v).trans (or_iff_left ?_), ?_, ?_⟩
  · exact fun hx => hl ⟨hx.1.1, hx.1.2.symm⟩
  · rintro rfl - v
    refine (hholds _ _ v).trans ((or_iff_right (hnew v)).trans ?_)
    exact ⟨fun hx => hx.2.symm, fun hv => ⟨⟨rfl, rfl⟩, hv.symm⟩⟩
  · exact fun _ hno => absurd hdone hno

/-- A pair of keys is generated where there are none with their names. -/
theorem Sound.keyPair {h' : CkHandle} {x' : CkObject} {prvLabel pubLabel : List UInt8}
    (hs : o.Sound) (hne : h ≠ h') (hfree : o h = none) (hfree' : o h' = none)
    (hx : x.Named .publicKey pubLabel) (hx' : x'.Named .privateKey prvLabel)
    (hpub : ∀ v, ¬ o.Holds .publicKey pubLabel v) (hprv : ∀ v, ¬ o.Holds .privateKey prvLabel v) :
    o.SameCertificates (Function.update (Function.update o h (some x)) h' (some x')) := by
  obtain ⟨hxc, rfl⟩ := hx
  obtain ⟨hxc', rfl⟩ := hx'
  obtain ⟨hsound, hholds⟩ := hs.create hfree (by rwa [hxc]) (by rw [hxc]; nofun)
  have hnew : ∀ v, ¬ Holds (Function.update o h (some x)) x'.xClass x'.label v := by
    intro v hv
    rw [hxc', hholds] at hv
    obtain hv | hv := hv
    · exact hprv v hv
    · exact absurd (hxc.symm.trans hv.1.1) nofun
  have hfree'' : Function.update o h (some x) h' = none := by
    rwa [Function.update_of_ne hne.symm]
  obtain ⟨hsound', hholds'⟩ := hsound.create hfree'' hnew (by rw [hxc']; nofun)
  refine ⟨hsound', fun {l v} => ?_⟩
  rw [hholds', hholds, or_assoc, or_iff_left]
  rintro (hv | hv)
  · exact absurd (hxc.symm.trans hv.1.1) nofun
  · exact absurd (hxc'.symm.trans hv.1.1) nofun

theorem Sound.close (hs : o.Sound) (hsub : ∀ h x, o' h = some x → o h = some x)
    (htoken : ∀ h x, o h = some x → x.xToken = true → o' h = some x) :
    o.Drops (fun _ => False) o' where
  sound := ⟨fun hk hk' => hs.unique (hsub _ _ hk) (hsub _ _ hk'), fun hk => hs.token (hsub _ _ hk)⟩
  subset := fun ⟨k, y, hk, hy⟩ => ⟨k, y, hsub k y hk, hy⟩
  kept := fun _ ⟨k, y, hk, hy⟩ => ⟨k, y, htoken k y hk (hs.token hk hy.1.1), hy⟩

end objects

end CkObjects

theorem ckAndThen_eq_ok {xResult next : CkRv} :
    ckAndThen xResult next = ckrOk ↔ xResult = ckrOk ∧ next = ckrOk := by
  by_cases h : xResult = ckrOk
  · rw [ckAndThen_ok h, and_iff_right h]
  · rw [ckAndThen_ne h, iff_false_intro h, false_and]

theorem CertificateAnswers.ok_of_xResult {a : CertificateAnswers} (h : a.xResult = ckrOk) :
    a.find = ckrOk ∧ a.size = ckrOk ∧ a.calloc = true ∧ a.value = ckrOk := by
  simp only [CertificateAnswers.xResult, ckAndThen_eq_ok] at h
  obtain ⟨⟨⟨hfind, hsize⟩, hcalloc⟩, hvalue⟩ := h
  refine ⟨hfind, hsize, ?_, hvalue⟩
  by_contra hno
  rw [if_neg hno] at hcalloc
  exact absurd hcalloc (by decide)

/-- What a read hands to the parser is there; where all its calls answer CKR_OK, it hands something
over; and it finds an object if there is one. -/
structure CertificateRead.Right (r : CertificateRead) (o : CkObjects) (label : List UInt8) :
    Prop where
  parsed : ∀ v, r.parsed = some v → o.Holds .certificate label v
  reached : ∀ a, r.answers = some a → a.functionList.list = true → a.xResult = ckrOk →
    r.parsed.isSome
  found : ∀ a, r.answers = some a → a.find = ckrOk →
    (a.xCertObj ≠ ckInvalidHandle ↔ ∃ v, o.Holds .certificate label v)

variable {σ : Type} (m : Pkcs11Module σ)

namespace Pkcs11Module

section specs

variable {o : CkObjects} {xClass : CkObjectClass} {label : List UInt8} {xSession : CkHandle}

@[spec] theorem xPrvDestoryObject_spec (hs : o.Sound) :
    ⦃fun s => ⌜m.objects s = o⌝⦄ m.xPrvDestoryObject xSession xClass label
    ⦃⇓ r s => ⌜o.Drops (fun l => xClass = .certificate ∧ l = label) (m.objects s) ∧
      (r = ckrOk → ∀ v, ¬ (m.objects s).Holds xClass label v)⌝⦄ := by
  mvcgen [xPrvDestoryObject]
  · next hs₀ r hr s hs₁ =>
    subst hs₀
    rw [hs₁]
    exact ⟨hs.refl, fun hok => absurd hok hr⟩
  · next hs₀ _ _ s₁ hs₁ r hfound s₂ hfind _ s₃ =>
    subst hs₀
    intro hdestroyed
    rw [hfind.1, hs₁] at hdestroyed
    rw [hs₁] at hfind
    obtain ⟨x, hx, hname⟩ := (hfind.2 hfound.1).resolve_right fun hno => hfound.2 hno.1
    obtain ⟨hdrops, hgone⟩ := hs.destroy hx hname
    obtain hdestroyed | ⟨hr, hsame⟩ := hdestroyed
    · rw [hdestroyed]
      exact ⟨hdrops, fun _ => hgone⟩
    · rw [hsame]
      exact ⟨hs.refl, fun hok => absurd hok hr⟩
  · next hs₀ _ _ _ hs₁ r hno _ hfind =>
    subst hs₀
    rw [hfind.1, hs₁]
    refine ⟨hs.refl, fun hok v => ?_⟩
    rintro ⟨h, x, hx, hname, -⟩
    rw [hs₁] at hfind
    obtain ⟨y, hy, -⟩ | ⟨-, hnone⟩ := hfind.2 hok
    · rw [not_not.mp fun hne => hno ⟨hok, hne⟩, m.invalid_handle] at hy
      cases hy
    · exact hnone h x hx hname

@[spec] theorem writeObject_spec (hs : o.Sound) (made : CkRv × List UInt8) :
    ⦃fun s => ⌜m.objects s = o⌝⦄ m.writeObject xSession xClass label made
    ⦃⇓ r s => ⌜o.Replaced xClass label made.2 (0 ≤ r) (m.objects s)⌝⦄ := by
  mvcgen [writeObject]
  · next hs₀ =>
    subst hs₀
    exact hs
  · next hs₀ _ _ _ hdrops =>
    subst hs₀
    exact hdrops.1.replaced (by decide)
  · next hs₀ _ hok _ hdrops r _ hcreated =>
    subst hs₀
    obtain ⟨hdrops, hgone⟩ := hdrops
    obtain ⟨rfl, h, hfree, hnew⟩ | ⟨hr, hsame⟩ := hcreated
    · rw [hnew, if_pos rfl]
      have hnone := hgone (not_not.mp fun hne => hok (.inl hne))
      exact .of_drops hdrops (hdrops.sound.created hfree hnone (Int.le_refl 0))
    · rw [hsame, if_neg hr]
      exact hdrops.replaced (by decide)

@[spec] theorem replaceObject_spec (hs : o.Sound) (made : CkRv × List UInt8) :
    ⦃fun s => ⌜m.objects s = o⌝⦄ m.replaceObject xSession xClass label made
    ⦃⇓ r s => ⌜o.Replaced xClass label made.2 (r = .success) (m.objects s)⌝⦄ := by
  mvcgen [replaceObject]
  · next hs₀ =>
    subst hs₀
    exact hs
  · next hs₀ _ hr _ hdrops =>
    subst hs₀
    exact hdrops.1.replaced fun hok => hr ((xPrvCkRvToPkiStatus_success _).mp hok)
  · next hdrops => exact hdrops.1.sound
  · next hs₀ _ _ _ hdrops lRslt _ hreplaced =>
    subst hs₀
    rw [xPrvMbedtlsErrToPkiStatus_success]
    exact hreplaced.of_drops hdrops.1

/-- Only objects of the session go with it. -/
@[spec] theorem closeIfOpen_spec (hs : o.Sound) :
    ⦃fun s => ⌜m.objects s = o⌝⦄ m.closeIfOpen xSession
    ⦃⇓ _ s => ⌜o.Drops (fun _ => False) (m.objects s)⌝⦄ := by
  mvcgen [closeIfOpen]
  · next hs₀ _ _ hclosed =>
    subst hs₀
    exact hs.close hclosed.1 hclosed.2
  · next hs₀ =>
    rw [hs₀]
    exact hs.refl

theorem inSession_spec {α : Type} {failed : CkRv → α} {use : CkHandle → StateM σ α}
    (R : α → CkObjects → Prop) (hfailed : ∀ xResult ≠ ckrOk, R (failed xResult) o)
    (hsound : ∀ {a o'}, R a o' → o'.Sound)
    (hclosed : ∀ {a o' o''}, R a o' → o'.Drops (fun _ => False) o'' → R a o'')
    (huse : ∀ xSession, ⦃fun s => ⌜m.objects s = o⌝⦄ use xSession
      ⦃⇓ a s => ⌜R a (m.objects s)⌝⦄) :
    ⦃fun s => ⌜m.objects s = o⌝⦄ m.inSession failed use ⦃⇓ a s => ⌜R a (m.objects s)⌝⦄ := by
  mvcgen [inSession, huse]
  · next hs₀ r hr _ hs₁ =>
    rw [hs₁, hs₀]
    exact hfailed r hr
  · next hs₀ _ _ _ hs₁ r _ hr _ hs₂ =>
    rw [hs₂.1, hs₁, hs₀]
    exact hsound (hfailed r.1 hr)
  · next hs₀ _ _ _ hs₁ r _ hr _ hs₂ _ _ hdrops =>
    rw [hs₂.1, hs₁, hs₀] at hdrops
    exact hclosed (hfailed r.1 hr) hdrops
  · next hs₀ _ _ _ hs₁ _ _ _ _ hs₂ => exact hs₂.1.trans (hs₁.trans hs₀)
  · next hused => exact hsound hused
  · next hused _ _ hdrops => exact hclosed hused hdrops

@[spec] theorem writeInSession_spec (hs : o.Sound) (made : CkRv × List UInt8) :
    ⦃fun s => ⌜m.objects s = o⌝⦄
    m.inSession xPrvCkRvToPkiStatus fun xSession => m.replaceObject xSession xClass label made
    ⦃⇓ r s => ⌜o.Replaced xClass label made.2 (r = .success) (m.objects s)⌝⦄ := by
  refine m.inSession_spec (fun (r : PkiStatus) o' =>
    o.Replaced xClass label made.2 (r = .success) o') ?_ ?_ ?_ fun _ => m.replaceObject_spec hs made
  · exact fun xResult hr => hs.refl.replaced fun hok => hr ((xPrvCkRvToPkiStatus_success _).mp hok)
  · exact fun hreplaced => hreplaced.sound
  · exact fun hreplaced hdrops => hreplaced.closed hdrops

@[spec] theorem exportAnswers_spec (malloc : Bool) (xPublicKeyHandle : CkHandle) :
    ⦃fun s => ⌜m.objects s = o⌝⦄ m.exportAnswers malloc xSession xPublicKeyHandle
    ⦃⇓ _ s => ⌜m.objects s = o⌝⦄ := by
  mvcgen [exportAnswers]
  · next hs₀ _ _ _ hs₁ => exact hs₁.trans hs₀
  · next hs₀ _ _ _ hs₁ _ _ _ hs₂ => exact hs₂.1.trans (hs₁.trans hs₀)
  · next hs₀ _ _ _ hs₁ _ _ _ hs₂ _ _ hs₃ => exact hs₃.1.trans (hs₂.1.trans (hs₁.trans hs₀))

@[spec] theorem replaceKeyPair_spec (hs : o.Sound) (malloc : Bool)
    (prvLabel pubLabel : List UInt8) :
    ⦃fun s => ⌜m.objects s = o⌝⦄ m.replaceKeyPair malloc prvLabel pubLabel xSession
    ⦃⇓ _ s => ⌜o.SameCertificates (m.objects s)⌝⦄ := by
  mvcgen [replaceKeyPair]
  · next hs₀ =>
    subst hs₀
    exact hs
  · next hs₀ _ _ _ hprv =>
    subst hs₀
    exact hprv.1.same_of_ne nofun
  · next hprv => exact hprv.1.sound
  · next hs₀ _ _ _ hprv _ _ _ hpub =>
    subst hs₀
    exact (hprv.1.same_of_ne nofun).trans (hpub.1.same_of_ne nofun)
  · next hs₀ _ _ _ hprv _ _ _ hpub _ hr _ hgen =>
    subst hs₀
    rw [(hgen.resolve_left fun hok => hr hok.1).2]
    exact (hprv.1.same_of_ne nofun).trans (hpub.1.same_of_ne nofun)
  · next hs₀ r₁ hr₁ _ hprv r₂ hr₂ _ hpub r hr _ hgen _ _ hexport =>
    subst hs₀
    obtain ⟨-, h, x, x', hne, hfree, hfree', hx, hx', hnew⟩ :=
      hgen.resolve_right fun hfailed => hr hfailed.1
    rw [hexport, hnew]
    refine ((hprv.1.same_of_ne nofun).trans (hpub.1.same_of_ne nofun)).trans ?_
    refine hpub.1.sound.keyPair hne hfree hfree' hx hx' (hpub.2 (not_not.mp hr₂)) fun v hv => ?_
    exact hprv.2 (not_not.mp hr₁) v (hpub.1.subset hv)

theorem xPkcs11WriteCertificate_spec (hs : o.Sound) (n : Nat) (pcLabel : Option CString)
    (pxCertificateContext : Option (List UInt8)) :
    ⦃fun s => ⌜m.objects s = o⌝⦄ m.xPkcs11WriteCertificate n pcLabel pxCertificateContext
    ⦃⇓ r s => ⌜o.Replaced .certificate (usedLabel n pcLabel pxCertificateContext.isSome)
      (pxCertificateContext.getD []) (r = .success) (m.objects s)⌝⦄ := by
  mvcgen [xPkcs11WriteCertificate]
  · next hs₀ =>
    rw [hs₀]
    exact hs.refl.replaced nofun
  · exact fun _ _ => hs

theorem xPkcs11WritePubKey_spec (hs : o.Sound) (n : Nat) (pcLabel : Option CString)
    (pxPubKeyContext : Option (CkRv × List UInt8)) :
    ⦃fun s => ⌜m.objects s = o⌝⦄ m.xPkcs11WritePubKey n pcLabel pxPubKeyContext
    ⦃⇓ _ s => ⌜o.SameCertificates (m.objects s)⌝⦄ := by
  mvcgen [xPkcs11WritePubKey]
  · next hs₀ =>
    rw [hs₀]
    exact hs.refl.same
  · next hs₀ _ _ =>
    subst hs₀
    exact fun hreplaced => hreplaced.same_of_ne nofun
  · exact fun _ hs₀ => hs₀ ▸ hs

theorem xPkcs11GenerateKeyPairEC_spec (hs : o.Sound) (n : Nat)
    (pcPrivateKeyLabel pcPublicKeyLabel : CString) (malloc : Bool) :
    ⦃fun s => ⌜m.objects s = o⌝⦄
    m.xPkcs11GenerateKeyPairEC n pcPrivateKeyLabel pcPublicKeyLabel malloc
    ⦃⇓ _ s => ⌜o.SameCertificates (m.objects s)⌝⦄ := by
  mvcgen [xPkcs11GenerateKeyPairEC]
  · next hs₀ =>
    rw [hs₀]
    exact hs.refl.same
  · refine m.inSession_spec (fun _ o' => o.SameCertificates o') ?_ ?_ ?_ ?_
    · exact fun _ _ => hs.refl.same
    · exact fun hc => hc.sound
    · exact fun hc hdrops => hc.trans hdrops.same
    · exact fun _ => m.replaceKeyPair_spec hs malloc _ _

/-- What `xFindObjectWithLabelAndClass` says of the objects with the name. -/
theorem found_iff {s : σ} {h : CkHandle} (hfind : (∃ x, m.objects s h = some x ∧
      x.Named xClass label) ∨ h = ckInvalidHandle ∧
        ∀ h x, m.objects s h = some x → ¬ x.Named xClass label) :
    h ≠ ckInvalidHandle ↔ ∃ v, (m.objects s).Holds xClass label v := by
  obtain ⟨x, hx, hname⟩ | ⟨rfl, hnone⟩ := hfind
  · refine iff_of_true ?_ ⟨x.pValue, h, x, hx, hname, rfl⟩
    rintro rfl
    rw [m.invalid_handle] at hx
    cases hx
  · refine iff_of_false (fun hne => hne rfl) ?_
    rintro ⟨v, h, x, hx, hname, -⟩
    exact hnone h x hx hname

@[spec] theorem readObject_spec (call : CertificateCall) :
    ⦃fun s => ⌜m.objects s = o⌝⦄ m.readObject call label xSession
    ⦃⇓ r s => ⌜m.objects s = o ∧ r.Right o label⌝⦄ := by
  mvcgen [readObject]
  · next hs₀ _ _ _ hs₁ _ hno _ hfind =>
    subst hs₀
    rw [hs₁] at hfind
    refine ⟨hfind.1, nofun, ?_, ?_⟩
    · rintro _ ⟨⟩ hlist hok
      obtain hne | hne := hno
      · exact absurd (CertificateAnswers.ok_of_xResult hok).1 hne
      · exact absurd (of_decide_eq_true hlist) hne
    · rintro _ ⟨⟩ hok
      rw [← hs₁]
      exact m.found_iff (hs₁ ▸ hfind.2 hok)
  · next hs₀ _ _ _ hs₁ _ _ _ hfind _ hno _ hsize =>
    subst hs₀
    rw [hs₁] at hfind
    refine ⟨hsize.1.trans hfind.1, nofun, ?_, ?_⟩
    · rintro _ ⟨⟩ - hok
      obtain ⟨-, hsizeok, hcalloc, -⟩ := CertificateAnswers.ok_of_xResult hok
      obtain hne | hne := hno
      · exact absurd hsizeok hne
      · exact absurd hcalloc (ne_true_of_eq_false hne)
    · rintro _ ⟨⟩ hok
      exact m.found_iff (hfind.2 hok)
  · next hs₀ _ _ _ hs₁ _ hno _ hfind _ _ _ hsize _ _ hvalue =>
    subst hs₀
    rw [hs₁] at hfind
    refine ⟨hvalue.1.trans (hsize.1.trans hfind.1), ?_, ?_, ?_⟩
    · intro v hv
      obtain ⟨hok, hpv⟩ := Option.ite_none_right_eq_some.mp hv
      obtain ⟨x, hx, hxv⟩ := hvalue.2 hok
      rw [hsize.1, hfind.1] at hx
      obtain ⟨y, hy, hname⟩ | ⟨hzero, -⟩ := hfind.2 (not_not.mp fun hne => hno (.inl hne))
      · obtain rfl := Option.some.inj (hy.symm.trans hx)
        exact ⟨_, y, hx, hname, hxv.trans (Option.some.inj hpv)⟩
      · rw [hzero, m.invalid_handle] at hx
        cases hx
    · rintro _ ⟨⟩ - hok
      obtain ⟨-, -, -, hvalueok⟩ := CertificateAnswers.ok_of_xResult hok
      exact Option.isSome_iff_exists.mpr ⟨_, if_pos hvalueok⟩
    · rintro _ ⟨⟩ hok
      exact m.found_iff (hfind.2 hok)

theorem xPkcs11ReadCertificate_spec (hs : o.Sound) (n : Nat) (call : CertificateCall) :
    ⦃fun s => ⌜m.objects s = o⌝⦄ m.xPkcs11ReadCertificate n call
    ⦃⇓ r s => ⌜o.SameCertificates (m.objects s) ∧ r.Right o (usedLabel n call.pcLabel true)⌝⦄ := by
  mvcgen [xPkcs11ReadCertificate]
  · next hs₀ =>
    rw [hs₀]
    exact ⟨hs.refl.same, nofun, nofun, nofun⟩
  · next hs₀ _ _ _ hs₁ =>
    rw [hs₁, hs₀]
    exact ⟨hs.refl.same, nofun, nofun, nofun⟩
  · next hs₀ _ _ _ hs₁ _ _ _ _ hs₂ =>
    rw [hs₂.1, hs₁, hs₀]
    exact hs
  · next hs₀ _ _ _ hs₁ _ _ _ _ hs₂ _ _ hdrops =>
    rw [hs₂.1, hs₁, hs₀] at hdrops
    exact ⟨hdrops.same, nofun, nofun, nofun⟩
  · next hs₀ _ _ _ hs₁ _ _ _ _ hs₂ _ _ hread =>
    rw [hread.1, hs₂.1, hs₁, hs₀]
    exact hs
  · next hs₀ _ _ _ hs₁ _ _ _ _ hs₂ _ _ hread _ _ hdrops =>
    rw [hread.1, hs₂.1, hs₁, hs₀] at hdrops
    rw [hs₂.1, hs₁, hs₀] at hread
    exact ⟨hdrops.same, hread.2⟩

/-- What a triple says of a call. -/
theorem of_spec {α : Type} {x : StateM σ α} {R : α → CkObjects → Prop} (s : σ)
    (h : ⦃fun u => ⌜m.objects u = m.objects s⌝⦄ x ⦃⇓ a u => ⌜R a (m.objects u)⌝⦄) :
    R (x s).1 (m.objects (x s).2) :=
  h s rfl

theorem xPkcs11ReadCertificate_right {s : σ} (hs : (m.objects s).Sound) (n : Nat)
    (call : CertificateCall) :
    (m.objects s).SameCertificates (m.objects (m.xPkcs11ReadCertificate n call s).2) ∧
      (m.xPkcs11ReadCertificate n call s).1.Right (m.objects s)
        (usedLabel n call.pcLabel true) :=
  m.of_spec (R := fun (r : CertificateRead) o' => (m.objects s).SameCertificates o' ∧
    r.Right (m.objects s) (usedLabel n call.pcLabel true)) s
    (m.xPkcs11ReadCertificate_spec hs n call)

end specs

end Pkcs11Module

end RenesasDemo.Pki
