import TransparentCa.Lib.Alone
import TransparentCa.Mbs.TrustPackage

/- Histories of `reload` over storage that may hold anything and fail at any call. A
   snapshot is a view of the storage; reading a complete handle gives the backup of the
   view or fails, and `unseal` and `toCertificate` give a function of the bytes or fail.
   The state is coherent when every loaded bundle is what its backup unseals to; a reload
   keeps it so, and then carrying bundles over is the same as unsealing again (`Loads`
   says what a load without any cached bundle gives). -/
namespace Mbs
open Java Effects AssocList

/-! ## Any storage -/

inductive SelfSignedView where
  | complete (backup : SelfSignedBundleBackup)
  | empty
  | partiallyWritten (missingKeys : List JString)
  | incomplete (missingKeys : List JString)

/-- What a snapshot shows of the storage. -/
structure StorageView where
  selfSigned : Epoch → SelfSignedView
  crossSigned : CrossSignedCertificateId → Option CrossSignedCertificateBackup

/-- The calls a `TrustPackageService` makes. -/
inductive TrustOp where
  | getSnapshot
  | readSelfSigned (backup : SelfSignedBundleBackup)
  | readCrossSigned (backup : CrossSignedCertificateBackup)
  | unsealBackup (backup : SelfSignedBundleBackup)
  | toCertificate (bytes : Bytes)
  | recordLoadEvent (event : LoadEvent)
  | sleep
  | getActiveTrustState
  | setActiveTrustState (state : ActiveTrustState)

abbrev TrustOp.Val : TrustOp → Type
  | .getSnapshot => StorageView
  | .readSelfSigned _ => SelfSignedBundleBackup
  | .readCrossSigned _ => CrossSignedCertificateBackup
  | .unsealBackup _ => SelfSignedBundle
  | .toCertificate _ => X509Certificate
  | .getActiveTrustState => Option ActiveTrustState
  | .recordLoadEvent _ | .sleep | .setActiveTrustState _ => Unit

abbrev TrustProg (α : Type) := Prog TrustOp TrustOp.Val Throwable α

abbrev TrustEvent := Event TrustOp TrustOp.Val Throwable

def trustCall (o : TrustOp) : TrustProg o.Val := Prog.invoke o

/-- The service never writes through a snapshot and never takes the lock. -/
def unsupported {α : Type} : TrustProg α := throw { cls := .unsupportedOperationException }

def StorageView.toSnapshot (view : StorageView) : StorageSnapshot TrustProg where
  getSelfSignedBundleBackupHandle epoch := match view.selfSigned epoch with
    | .complete backup => .complete epoch (trustCall (.readSelfSigned backup))
    | .empty => .empty epoch (fun _ => unsupported)
    | .partiallyWritten missingKeys => .partiallyWritten epoch missingKeys
    | .incomplete missingKeys => .incomplete epoch missingKeys
  getCrossSignedCertificateBackupHandle id := match view.crossSigned id with
    | some backup => .complete id (trustCall (.readCrossSigned backup))
    | none => .empty id (fun _ => unsupported)

def viewStorage : BackupStorage TrustProg where
  acquireLock := unsupported
  releaseLock := unsupported
  getSnapshot := do
    let view ← trustCall .getSnapshot
    return view.toSnapshot

def viewService (order : MapOrder) : TrustPackageService TrustProg where
  storage := viewStorage
  unsealBackup backup := trustCall (.unsealBackup backup)
  toCertificate bytes := trustCall (.toCertificate bytes)
  recordLoadEvent event := trustCall (.recordLoadEvent event)
  sleep := trustCall .sleep
  getActiveTrustState := trustCall .getActiveTrustState
  setActiveTrustState state := trustCall (.setActiveTrustState state)
  mapOrder := order

/-- What `unseal` and `toCertificate` return when they return. -/
structure Decoding where
  unsealed : SelfSignedBundleBackup → Option SelfSignedBundle
  decoded : Bytes → Option X509Certificate

/-- The answer of a call and the active state after it. Counting an event sets a gauge and
cannot fail. -/
def trustStep (d : Decoding) (s : Option ActiveTrustState) (o : TrustOp)
    (r : Except Throwable o.Val) (s' : Option ActiveTrustState) : Prop :=
  match o, r with
  | .readSelfSigned backup, .ok v => v = backup ∧ s' = s
  | .readCrossSigned backup, .ok v => v = backup ∧ s' = s
  | .unsealBackup backup, .ok bundle => d.unsealed backup = some bundle ∧ s' = s
  | .toCertificate bytes, .ok certificate => d.decoded bytes = some certificate ∧ s' = s
  | .recordLoadEvent _, r => r = .ok () ∧ s' = s
  | .getActiveTrustState, r => r = .ok s ∧ s' = s
  | .setActiveTrustState state, r => r = .ok () ∧ s' = some state
  | _, _ => s' = s

/-- The snapshots taken, in order. -/
def viewsOf (tr : List TrustEvent) : List StorageView :=
  tr.filterMap (fun ev => match ev with
    | ⟨.getSnapshot, .ok view⟩ => some view
    | _ => none)

@[simp] theorem viewsOf_nil : viewsOf [] = [] := rfl

@[simp] theorem viewsOf_cons_other {ev : TrustEvent} (tr : List TrustEvent)
    (h : ev.op ≠ .getSnapshot) : viewsOf (ev :: tr) = viewsOf tr := by
  obtain ⟨o, r⟩ := ev
  cases o <;> first
    | rfl
    | exact absurd rfl h

@[simp] theorem viewsOf_append (tr tr' : List TrustEvent) :
    viewsOf (tr ++ tr') = viewsOf tr ++ viewsOf tr' := List.filterMap_append

/-! ## Loading without cached bundles -/

namespace Decoding

variable (d : Decoding)

def bundleAt (view : StorageView) (epoch : Epoch) : Option (Epoch × LoadedSelfSignedBundle) :=
  match view.selfSigned epoch with
  | .complete backup => (d.unsealed backup).map (fun bundle => (epoch, ⟨backup, bundle⟩))
  | _ => none

def certificateAt (view : StorageView) (id : CrossSignedCertificateId) : Option X509Certificate :=
  match view.crossSigned id with
  | some backup => d.decoded backup.certBytes
  | none => none

/-- The entries and certificates a load of this view gives. -/
def Loads (view : StorageView) (config : CertificatesConfig)
    (entries : List (Epoch × LoadedSelfSignedBundle)) (certificates : List X509Certificate) :
    Prop :=
  config.activeEpochs.map (d.bundleAt view) = entries.map some ∧
    config.activeCrossSignedCertificates.map (fun c => d.certificateAt view c.id) =
      certificates.map some

/-- Every loaded bundle is what its backup unseals to. -/
def Coherent (s : Option ActiveTrustState) : Prop :=
  ∀ epoch loaded, TrustPackageService.previouslyLoaded s epoch = some loaded →
    d.unsealed loaded.backup = some loaded.bundle

end Decoding

section
variable {d : Decoding} {order : MapOrder} {s : Option ActiveTrustState} {view : StorageView}

theorem bundleAt_eq_some {epoch : Epoch} {backup : SelfSignedBundleBackup}
    {bundle : SelfSignedBundle} (hview : view.selfSigned epoch = .complete backup)
    (hunsealed : d.unsealed backup = some bundle) :
    d.bundleAt view epoch = some (epoch, ⟨backup, bundle⟩) := by
  simp [Decoding.bundleAt, hview, hunsealed]

theorem unsealed_of_bundleAt {epoch : Epoch} {entry : Epoch × LoadedSelfSignedBundle}
    (h : d.bundleAt view epoch = some entry) :
    d.unsealed entry.2.backup = some entry.2.bundle := by
  unfold Decoding.bundleAt at h
  split at h
  · obtain ⟨bundle, hbundle, rfl⟩ := Option.map_eq_some_iff.mp h
    exact hbundle
  · cases h

/-- The state after a load is coherent again. -/
theorem Decoding.Loads.coherent {config : CertificatesConfig}
    {entries : List (Epoch × LoadedSelfSignedBundle)} {certificates : List X509Certificate}
    (h : d.Loads view config entries certificates) :
    d.Coherent (some ⟨order.copyOf entries, certificates⟩) := by
  intro epoch loaded hlookup
  have hmem : (epoch, loaded) ∈ entries := (order.perm entries).mem_iff.mp (mem_of_lookup hlookup)
  have hsome : some (epoch, loaded) ∈ config.activeEpochs.map (d.bundleAt view) := by
    rw [h.1]
    exact List.mem_map_of_mem hmem
  obtain ⟨epoch', -, hbundle⟩ := List.mem_map.mp hsome
  exact unsealed_of_bundleAt hbundle

theorem Decoding.Loads.unique {config : CertificatesConfig}
    {entries entries' : List (Epoch × LoadedSelfSignedBundle)}
    {certificates certificates' : List X509Certificate}
    (h : d.Loads view config entries certificates)
    (h' : d.Loads view config entries' certificates') :
    entries = entries' ∧ certificates = certificates' :=
  ⟨(Option.some_injective _).list_map (h.1.symm.trans h'.1),
    (Option.some_injective _).list_map (h.2.symm.trans h'.2)⟩

/-! ## One load -/

theorem ensures_trustCall (o : TrustOp)
    {Q : List TrustEvent → Except Throwable o.Val → Option ActiveTrustState → Prop}
    (h : ∀ r s', trustStep d s o r s' → Q [⟨o, r⟩] r s') :
    Ensures (trustStep d) (trustCall o) s Q := Ensures.invoke h

/-- A carried-over bundle is the one its backup unseals to. -/
theorem ensures_useLoadedOrLoad {previous : Option LoadedSelfSignedBundle}
    (hprevious : ∀ loaded, previous = some loaded → d.unsealed loaded.backup = some loaded.bundle)
    (backup : SelfSignedBundleBackup) :
    Ensures (trustStep d) ((viewService order).useLoadedOrLoadSelfSignedBundle previous backup) s
      (fun tr r s' => s' = s ∧ viewsOf tr = [] ∧ ∀ loaded, r = .ok loaded →
        ∃ bundle, d.unsealed backup = some bundle ∧ loaded = ⟨backup, bundle⟩) := by
  have hload : Ensures (trustStep d) (do
      let bundle ← (viewService order).unsealBackup backup
      return (⟨backup, bundle⟩ : LoadedSelfSignedBundle)) s
      (fun tr r s' => s' = s ∧ viewsOf tr = [] ∧ ∀ loaded, r = .ok loaded →
        ∃ bundle, d.unsealed backup = some bundle ∧ loaded = ⟨backup, bundle⟩) := by
    apply Ensures.bind
    refine ensures_trustCall (.unsealBackup backup) ?_
    intro r s' hstep
    cases r with
    | error e => exact ⟨hstep, rfl, fun _ h => by cases h⟩
    | ok bundle =>
      obtain ⟨hbundle, rfl⟩ := hstep
      refine Ensures.ret ⟨rfl, rfl, fun loaded h => ?_⟩
      exact ⟨bundle, hbundle, (Except.ok.inj h).symm⟩
  unfold TrustPackageService.useLoadedOrLoadSelfSignedBundle
  cases previous with
  | none => exact hload
  | some previous =>
    show Ensures _ (if _ then _ else _) _ _
    split
    · next heq =>
      refine Ensures.ret ⟨rfl, rfl, fun loaded h => ?_⟩
      obtain rfl := Except.ok.inj h
      subst heq
      exact ⟨previous.bundle, hprevious previous rfl, rfl⟩
    · exact hload

/-- Only a complete backup can be read. -/
theorem expectComplete_selfSigned (view : StorageView) (epoch : Epoch) :
    (∃ backup, view.selfSigned epoch = .complete backup ∧
      (view.toSnapshot.getSelfSignedBundleBackupHandle epoch).expectComplete =
        .ok (trustCall (.readSelfSigned backup))) ∨
    ∃ e, (view.toSnapshot.getSelfSignedBundleBackupHandle epoch).expectComplete = .error e := by
  cases hview : view.selfSigned epoch with
  | complete backup =>
    exact .inl ⟨backup, rfl, by simp [StorageView.toSnapshot, hview,
      SelfSignedBundleBackupHandle.expectComplete]⟩
  | _ =>
    exact .inr ⟨_, by simp only [StorageView.toSnapshot, hview,
      SelfSignedBundleBackupHandle.expectComplete]; rfl⟩

theorem ensures_loadSelfSignedBundles (hcoherent : d.Coherent s)
    (certs : List SelfSignedCertificate) :
    Ensures (trustStep d) ((viewService order).loadSelfSignedBundles view.toSnapshot s certs) s
      (fun tr r s' => s' = s ∧ viewsOf tr = [] ∧ ∀ entries, r = .ok entries →
        certs.map (fun c => d.bundleAt view c.epochId) = entries.map some) := by
  induction certs with
  | nil => exact Ensures.ret ⟨rfl, rfl, fun entries h => by rw [← Except.ok.inj h]; rfl⟩
  | cons certConfig rest ih =>
    unfold TrustPackageService.loadSelfSignedBundles
    apply Ensures.bind
    apply Ensures.ofExcept
    rcases expectComplete_selfSigned view certConfig.epochId with ⟨backup, hview, hread⟩ | ⟨e, he⟩
    · rw [hread]
      apply Ensures.bind
      refine ensures_trustCall (.readSelfSigned backup) ?_
      intro r s' hstep
      cases r with
      | error e => exact ⟨hstep, rfl, fun _ h => by cases h⟩
      | ok v =>
        obtain ⟨hv, rfl⟩ := hstep
        rw [show v = backup from hv]
        apply Ensures.bind
        apply (ensures_useLoadedOrLoad (fun loaded h => hcoherent _ loaded h) backup).mono
        intro tr r s₁ h
        obtain ⟨rfl, hviews, hloaded⟩ := h
        cases r with
        | error e => exact ⟨rfl, by simp [hviews], fun _ h => by cases h⟩
        | ok loaded =>
          obtain ⟨bundle, hbundle, rfl⟩ := hloaded loaded rfl
          apply Ensures.bind
          apply ih.mono
          intro tr' r s₂ h
          obtain ⟨rfl, hviews', hothers⟩ := h
          cases r with
          | error e => exact ⟨rfl, by simp [hviews, hviews'], fun _ h => by cases h⟩
          | ok others =>
            refine Ensures.ret ⟨rfl, by simp [hviews, hviews'], fun entries h => ?_⟩
            rw [← Except.ok.inj h, List.map_cons, List.map_cons, hothers others rfl,
              bundleAt_eq_some hview hbundle]
    · rw [he]
      exact ⟨rfl, rfl, fun _ h => by cases h⟩

theorem expectComplete_crossSigned (view : StorageView) (id : CrossSignedCertificateId) :
    (∃ backup, view.crossSigned id = some backup ∧
      (view.toSnapshot.getCrossSignedCertificateBackupHandle id).expectComplete =
        .ok (trustCall (.readCrossSigned backup))) ∨
    ∃ e, (view.toSnapshot.getCrossSignedCertificateBackupHandle id).expectComplete = .error e := by
  cases hview : view.crossSigned id with
  | some backup =>
    exact .inl ⟨backup, rfl, by simp [StorageView.toSnapshot, hview,
      CrossSignedCertificateBackupHandle.expectComplete]⟩
  | none =>
    exact .inr ⟨_, by simp only [StorageView.toSnapshot, hview,
      CrossSignedCertificateBackupHandle.expectComplete]; rfl⟩

theorem ensures_decodeCertificate (certBytes : Bytes) :
    Ensures (trustStep d) ((viewService order).decodeCertificate certBytes) s
      (fun tr r s' => s' = s ∧ viewsOf tr = [] ∧ ∀ certificate, r = .ok certificate →
        d.decoded certBytes = some certificate) := by
  unfold TrustPackageService.decodeCertificate
  apply Ensures.handle
  refine ensures_trustCall (.toCertificate certBytes) ?_
  intro r s' hstep
  cases r with
  | ok certificate =>
    obtain ⟨hdecoded, rfl⟩ := hstep
    refine ⟨rfl, by simp, fun _ h => ?_⟩
    rw [← Except.ok.inj h]
    exact hdecoded
  | error e =>
    show Ensures _ (if _ then _ else _) _ _
    split <;> exact Ensures.raise ⟨hstep, by simp, fun _ h => by cases h⟩

theorem ensures_loadCrossSignedCertificates (certs : List CrossSignedCertificate) :
    Ensures (trustStep d) ((viewService order).loadCrossSignedCertificates view.toSnapshot certs) s
      (fun tr r s' => s' = s ∧ viewsOf tr = [] ∧ ∀ certificates, r = .ok certificates →
        certs.map (fun c => d.certificateAt view c.id) = certificates.map some) := by
  induction certs with
  | nil => exact Ensures.ret ⟨rfl, rfl, fun certificates h => by rw [← Except.ok.inj h]; rfl⟩
  | cons crossCertConfig rest ih =>
    unfold TrustPackageService.loadCrossSignedCertificates
    apply Ensures.bind
    apply Ensures.ofExcept
    rcases expectComplete_crossSigned view crossCertConfig.id with ⟨backup, hview, hread⟩ | ⟨e, he⟩
    · rw [hread]
      apply Ensures.bind
      refine ensures_trustCall (.readCrossSigned backup) ?_
      intro r s' hstep
      cases r with
      | error e => exact ⟨hstep, rfl, fun _ h => by cases h⟩
      | ok v =>
        obtain ⟨hv, rfl⟩ := hstep
        rw [show v = backup from hv]
        apply Ensures.bind
        apply (ensures_decodeCertificate backup.certBytes).mono
        intro tr r s₁ h
        obtain ⟨rfl, hviews, hcertificate⟩ := h
        cases r with
        | error e => exact ⟨rfl, by simp [hviews], fun _ h => by cases h⟩
        | ok certificate =>
          have hat : d.certificateAt view crossCertConfig.id = some certificate := by
            simp [Decoding.certificateAt, hview, hcertificate certificate rfl]
          apply Ensures.bind
          apply ih.mono
          intro tr' r s₂ h
          obtain ⟨rfl, hviews', hothers⟩ := h
          cases r with
          | error e => exact ⟨rfl, by simp [hviews, hviews'], fun _ h => by cases h⟩
          | ok others =>
            refine Ensures.ret ⟨rfl, by simp [hviews, hviews'], fun certificates h => ?_⟩
            rw [← Except.ok.inj h, List.map_cons, List.map_cons, hothers others rfl, hat]
    · rw [he]
      exact ⟨rfl, rfl, fun _ h => by cases h⟩

/-- The state after a load, by its outcome: as before when it failed, and what the last
snapshot gives without cached bundles when it succeeded. -/
def Loaded (d : Decoding) (order : MapOrder) (config : CertificatesConfig)
    (s : Option ActiveTrustState) (tr : List TrustEvent) (r : Except Throwable Unit)
    (s' : Option ActiveTrustState) : Prop :=
  match r with
  | .ok _ => ∃ view entries certificates, (viewsOf tr).getLast? = some view ∧
      d.Loads view config entries certificates ∧ s' = some ⟨order.copyOf entries, certificates⟩
  | .error _ => s' = s

theorem Loaded.append {config : CertificatesConfig} {s' : Option ActiveTrustState}
    {tr tr' : List TrustEvent} {r : Except Throwable Unit} (h : Loaded d order config s tr r s')
    (hviews : viewsOf tr' = []) : Loaded d order config s (tr ++ tr') r s' := by
  unfold Loaded at h ⊢
  rw [viewsOf_append, hviews, List.append_nil]
  exact h

theorem Loaded.after {config : CertificatesConfig} {s' : Option ActiveTrustState}
    {tr tr' : List TrustEvent} {r : Except Throwable Unit} (h : Loaded d order config s tr r s') :
    Loaded d order config s (tr' ++ tr) r s' := by
  cases r with
  | error e => exact h
  | ok _ =>
    obtain ⟨view, entries, certificates, hlast, hloads, hs'⟩ := h
    refine ⟨view, entries, certificates, ?_, hloads, hs'⟩
    rw [viewsOf_append, List.getLast?_append, hlast]
    rfl

theorem ensures_loadActiveTrustState (hcoherent : d.Coherent s) (config : CertificatesConfig) :
    Ensures (trustStep d) ((viewService order).loadActiveTrustState config) s
      (Loaded d order config s) := by
  unfold TrustPackageService.loadActiveTrustState
  apply Ensures.bind
  apply Ensures.bind
  refine ensures_trustCall .getSnapshot ?_
  intro r s₁ hstep
  match r, hstep with
  | .error e, hs₁ => exact hs₁
  | .ok view, hs₁ =>
  obtain rfl : s₁ = s := hs₁
  apply Ensures.ret
  apply Ensures.bind
  apply Ensures.bind
  refine ensures_trustCall .getActiveTrustState ?_
  intro r s₂ hstep
  obtain ⟨rfl, rfl⟩ := hstep
  apply (ensures_loadSelfSignedBundles hcoherent config.activeSelfSignedCertificates).mono
  intro tr₃ r₃ s₃ h₃
  obtain ⟨rfl, hviews₃, hentries⟩ := h₃
  cases r₃ with
  | error e => exact rfl
  | ok entries =>
  apply Ensures.bind
  apply (ensures_loadCrossSignedCertificates config.activeCrossSignedCertificates).mono
  intro tr₄ r₄ s₄ h₄
  obtain ⟨rfl, hviews₄, hcertificates⟩ := h₄
  cases r₄ with
  | error e => exact rfl
  | ok certificates =>
  refine ensures_trustCall (.setActiveTrustState ⟨order.copyOf entries, certificates⟩) ?_
  intro r s₅ hstep
  obtain ⟨rfl, rfl⟩ := hstep
  have hloads : d.Loads view config entries certificates := by
    refine ⟨?_, hcertificates certificates rfl⟩
    rw [← hentries entries rfl, ← config.map_epochId_active, List.map_map]
    rfl
  refine ⟨view, entries, certificates, ?_, hloads, rfl⟩
  simp only [viewsOf_append, hviews₃, hviews₄]
  rfl

/-- A second attempt starts from the state of the first, which changed nothing when it failed. -/
theorem ensures_reloadWithRetry (hcoherent : d.Coherent s) (config : CertificatesConfig) :
    Ensures (trustStep d)
      ((viewService order).reloadTrustPackageWithRetryOnTransientError config) s
      (Loaded d order config s) := by
  unfold TrustPackageService.reloadTrustPackageWithRetryOnTransientError
  apply Ensures.handle
  apply (ensures_loadActiveTrustState hcoherent config).mono
  intro tr r s' h
  cases r with
  | ok _ => exact h
  | error e =>
    obtain rfl : s' = s := h
    show Ensures _ (if _ then _ else _) _ _
    split
    · apply Ensures.bind
      refine ensures_trustCall .sleep ?_
      intro r s₁ hstep
      cases r with
      | error e => exact hstep
      | ok _ =>
        obtain rfl : s₁ = s' := hstep
        apply (ensures_loadActiveTrustState hcoherent config).mono
        intro tr' r' s₂ h'
        exact h'.after.after
    · exact Ensures.raise rfl

theorem ensures_reload (hcoherent : d.Coherent s) (config : CertificatesConfig) :
    Ensures (trustStep d) ((viewService order).reload config) s (Loaded d order config s) := by
  unfold TrustPackageService.reload
  apply Ensures.handle
  apply Ensures.bind
  apply (ensures_reloadWithRetry hcoherent config).mono
  intro tr r s' h
  cases r with
  | ok _ =>
    refine ensures_trustCall (.recordLoadEvent .success) ?_
    intro r s₁ hstep
    obtain ⟨rfl, rfl⟩ := hstep
    exact h.append (by simp)
  | error e =>
    obtain rfl : s' = s := h
    show Ensures _ (if _ then _ else _) _ _
    split
    · apply Ensures.bind
      refine ensures_trustCall (.recordLoadEvent _) ?_
      intro r s₁ hstep
      obtain ⟨rfl, rfl⟩ := hstep
      exact Ensures.raise rfl
    · exact Ensures.raise rfl

/-! ## A load that meets no failure -/

/-- Storage that shows `view` and answers every call. -/
def serveView (d : Decoding) (view : StorageView) (s : Option ActiveTrustState) (o : TrustOp) :
    Except Throwable o.Val × Option ActiveTrustState :=
  match o with
  | .getSnapshot => (.ok view, s)
  | .readSelfSigned backup => (.ok backup, s)
  | .readCrossSigned backup => (.ok backup, s)
  | .unsealBackup backup => (match d.unsealed backup with
    | some bundle => .ok bundle
    | none => .error { cls := .backupCorruptedException }, s)
  | .toCertificate bytes => (match d.decoded bytes with
    | some certificate => .ok certificate
    | none => .error { cls := .illegalArgumentException }, s)
  | .recordLoadEvent _ => (.ok (), s)
  | .sleep => (.ok (), s)
  | .getActiveTrustState => (.ok s, s)
  | .setActiveTrustState state => (.ok (), some state)

theorem trustStep_serveView (d : Decoding) (view : StorageView) (s : Option ActiveTrustState)
    (o : TrustOp) : trustStep d s o (serveView d view s o).1 (serveView d view s o).2 := by
  cases o with
  | unsealBackup backup =>
    cases h : d.unsealed backup with
    | none =>
      simp only [serveView, h]
      rfl
    | some bundle =>
      simp only [serveView, h]
      exact ⟨h, rfl⟩
  | toCertificate bytes =>
    cases h : d.decoded bytes with
    | none =>
      simp only [serveView, h]
      rfl
    | some certificate =>
      simp only [serveView, h]
      exact ⟨h, rfl⟩
  | getSnapshot => rfl
  | sleep => rfl
  | _ => exact ⟨rfl, rfl⟩

theorem drive_trustCall (o : TrustOp) : drive (serveView d view) (trustCall o) s =
    ((serveView d view s o).1, [⟨o, (serveView d view s o).1⟩], (serveView d view s o).2) :=
  drive_invoke o s

/-- An entry of a load: the epoch is complete and its backup unseals. -/
theorem complete_of_bundleAt {epoch : Epoch} {entry : Epoch × LoadedSelfSignedBundle}
    (h : d.bundleAt view epoch = some entry) :
    ∃ backup bundle, view.selfSigned epoch = .complete backup ∧ d.unsealed backup = some bundle ∧
      entry = (epoch, ⟨backup, bundle⟩) := by
  unfold Decoding.bundleAt at h
  split at h
  · next backup hview =>
    obtain ⟨bundle, hbundle, rfl⟩ := Option.map_eq_some_iff.mp h
    exact ⟨backup, bundle, hview, hbundle, rfl⟩
  · cases h

variable (order s) in
theorem drive_loadSelfSignedBundles {certs : List SelfSignedCertificate}
    {entries : List (Epoch × LoadedSelfSignedBundle)}
    (h : certs.map (fun c => d.bundleAt view c.epochId) = entries.map some) :
    ∃ tr, drive (serveView d view)
        ((viewService order).loadSelfSignedBundles view.toSnapshot none certs) s =
      (.ok entries, tr, s) ∧ viewsOf tr = [] := by
  induction certs generalizing entries with
  | nil =>
    obtain rfl : entries = [] := by simpa using h.symm
    exact ⟨[], rfl, rfl⟩
  | cons certConfig rest ih =>
    cases entries with
    | nil => cases h
    | cons entry others =>
      rw [List.map_cons, List.map_cons, List.cons.injEq] at h
      obtain ⟨hentry, hothers⟩ := h
      obtain ⟨tr, hdrive, hviews⟩ := ih hothers
      obtain ⟨backup, bundle, hview, hunsealed, rfl⟩ := complete_of_bundleAt hentry
      have hread : (view.toSnapshot.getSelfSignedBundleBackupHandle
          certConfig.epochId).expectComplete = .ok (trustCall (.readSelfSigned backup)) := by
        simp [StorageView.toSnapshot, hview, SelfSignedBundleBackupHandle.expectComplete]
      have hload : drive (serveView d view) ((viewService order).useLoadedOrLoadSelfSignedBundle
          (TrustPackageService.previouslyLoaded none certConfig.epochId) backup) s =
          (.ok ⟨backup, bundle⟩, [⟨.unsealBackup backup, .ok bundle⟩], s) := by
        have hcall : drive (serveView d view) ((viewService order).unsealBackup backup) s =
            (.ok bundle, [⟨.unsealBackup backup, .ok bundle⟩], s) := by
          refine (drive_trustCall (.unsealBackup backup)).trans ?_
          simp only [serveView, hunsealed]
        exact (drive_bind hcall).trans rfl
      refine ⟨⟨.readSelfSigned backup, .ok backup⟩ :: ⟨.unsealBackup backup, .ok bundle⟩ :: tr, ?_,
        by simp [hviews]⟩
      unfold TrustPackageService.loadSelfSignedBundles
      rw [hread]
      have hcall : drive (serveView d view) (trustCall (.readSelfSigned backup)) s =
          (.ok backup, [⟨.readSelfSigned backup, .ok backup⟩], s) := drive_trustCall _
      refine (drive_bind hcall).trans ?_
      simp only [Prog.bind_eq, Prog.pure_eq, drive_bind hload, drive_bind hdrive, drive_ret]
      simp

variable (order s) in
theorem drive_loadCrossSignedCertificates {certs : List CrossSignedCertificate}
    {certificates : List X509Certificate}
    (h : certs.map (fun c => d.certificateAt view c.id) = certificates.map some) :
    ∃ tr, drive (serveView d view)
        ((viewService order).loadCrossSignedCertificates view.toSnapshot certs) s =
      (.ok certificates, tr, s) ∧ viewsOf tr = [] := by
  induction certs generalizing certificates with
  | nil =>
    obtain rfl : certificates = [] := by simpa using h.symm
    exact ⟨[], rfl, rfl⟩
  | cons crossCertConfig rest ih =>
    cases certificates with
    | nil => cases h
    | cons certificate others =>
      rw [List.map_cons, List.map_cons, List.cons.injEq] at h
      obtain ⟨hcertificate, hothers⟩ := h
      obtain ⟨tr, hdrive, hviews⟩ := ih hothers
      unfold Decoding.certificateAt at hcertificate
      split at hcertificate
      · next backup hview =>
        have hread : (view.toSnapshot.getCrossSignedCertificateBackupHandle
            crossCertConfig.id).expectComplete = .ok (trustCall (.readCrossSigned backup)) := by
          simp [StorageView.toSnapshot, hview, CrossSignedCertificateBackupHandle.expectComplete]
        have hdecode : drive (serveView d view)
            ((viewService order).decodeCertificate backup.certBytes) s =
            (.ok certificate, [⟨.toCertificate backup.certBytes, .ok certificate⟩], s) := by
          apply drive_handle
          refine (drive_trustCall (.toCertificate backup.certBytes)).trans ?_
          simp only [serveView, hcertificate]
        have hcall : drive (serveView d view) (trustCall (.readCrossSigned backup)) s =
            (.ok backup, [⟨.readCrossSigned backup, .ok backup⟩], s) := drive_trustCall _
        refine ⟨⟨.readCrossSigned backup, .ok backup⟩ ::
          ⟨.toCertificate backup.certBytes, .ok certificate⟩ :: tr, ?_, by simp [hviews]⟩
        unfold TrustPackageService.loadCrossSignedCertificates
        rw [hread]
        refine (drive_bind hcall).trans ?_
        simp only [Prog.bind_eq, Prog.pure_eq, drive_bind hdecode, drive_bind hdrive, drive_ret]
        simp
      · cases hcertificate

variable (order) in
/-- A fresh service whose calls all succeed loads the view. -/
theorem drive_reload {config : CertificatesConfig}
    {entries : List (Epoch × LoadedSelfSignedBundle)} {certificates : List X509Certificate}
    (h : d.Loads view config entries certificates) :
    ∃ tr, drive (serveView d view) ((viewService order).reload config) none =
      (.ok (), tr, some ⟨order.copyOf entries, certificates⟩) ∧ viewsOf tr = [view] := by
  obtain ⟨hentries, hcertificates⟩ := h
  rw [← config.map_epochId_active, List.map_map] at hentries
  obtain ⟨tr₁, hbundles, hviews₁⟩ := drive_loadSelfSignedBundles order none hentries
  obtain ⟨tr₂, hcross, hviews₂⟩ := drive_loadCrossSignedCertificates order none hcertificates
  let state : ActiveTrustState := ⟨order.copyOf entries, certificates⟩
  have hsnapshot : drive (serveView d view) (viewService order).storage.getSnapshot none =
      (.ok view.toSnapshot, [⟨.getSnapshot, .ok view⟩], none) := rfl
  have hactive : drive (serveView d view)
      ((viewService order).loadActiveSelfSignedBundles view.toSnapshot config) none =
      (.ok entries, ⟨.getActiveTrustState, .ok none⟩ :: tr₁, none) := by
    have hget : drive (serveView d view) (viewService order).getActiveTrustState none =
        (.ok none, [⟨.getActiveTrustState, .ok none⟩], none) := rfl
    refine (drive_bind hget).trans ?_
    rw [hbundles]
    rfl
  have hset : drive (serveView d view) ((viewService order).setActiveTrustState
      ⟨(viewService order).mapOrder.copyOf entries, certificates⟩) none =
      (.ok (), [⟨.setActiveTrustState state, .ok ()⟩], some state) := rfl
  have hload : drive (serveView d view) ((viewService order).loadActiveTrustState config) none =
      (.ok (), [⟨.getSnapshot, .ok view⟩, ⟨.getActiveTrustState, .ok none⟩] ++
        (tr₁ ++ (tr₂ ++ [⟨.setActiveTrustState state, .ok ()⟩])), some state) := by
    unfold TrustPackageService.loadActiveTrustState
      TrustPackageService.loadActiveCrossSignedCertificates
    refine (drive_bind hsnapshot).trans ?_
    simp only [Prog.bind_eq, drive_bind hactive, drive_bind hcross, hset]
    simp
  have hretry := drive_handle (g := fun transientState =>
    if transientState.instanceOf .backupPartiallyWrittenException then do
      (viewService order).sleep
      (viewService order).loadActiveTrustState config
    else throw transientState) hload
  have hrecord : drive (serveView d view) ((viewService order).recordLoadEvent .success)
      (some state) = (.ok (), [⟨.recordLoadEvent .success, .ok ()⟩], some state) := rfl
  refine ⟨_, drive_handle ((drive_bind hretry).trans (by rw [hrecord])), ?_⟩
  simp only [viewsOf_append, hviews₁, hviews₂]
  rfl

/-! ## Histories -/

structure ReloadCall where
  config : CertificatesConfig
  trace : List TrustEvent
  outcome : Except Throwable Unit

/-- The calls of `reload` so far, newest first, and the active state after them. `reload` is
synchronized, so no two overlap. -/
inductive History (d : Decoding) (order : MapOrder) :
    List ReloadCall → Option ActiveTrustState → Prop where
  | init : History d order [] none
  | reload {calls : List ReloadCall} {s s' : Option ActiveTrustState} (h : History d order calls s)
      (call : ReloadCall)
      (hr : ((viewService order).reload call.config).Runs call.trace call.outcome)
      (hs : Served (trustStep d) s call.trace s') : History d order (call :: calls) s'

def lastSuccess (calls : List ReloadCall) : Option ReloadCall :=
  calls.find? (fun call => match call.outcome with
    | .ok _ => true
    | .error _ => false)

theorem coherent_none (d : Decoding) : d.Coherent none := by
  intro epoch loaded h
  cases h

/-- The state is coherent, and it is what the last successful call loads. -/
theorem History.state {calls : List ReloadCall} (h : History d order calls s) :
    d.Coherent s ∧ match lastSuccess calls with
      | none => s = none
      | some call => ∃ view entries certificates, (viewsOf call.trace).getLast? = some view ∧
          d.Loads view call.config entries certificates ∧
          s = some ⟨order.copyOf entries, certificates⟩ := by
  induction h with
  | init => exact ⟨coherent_none d, rfl⟩
  | reload _ call hr hs ih =>
    have hloaded := (ensures_reload ih.1 call.config).of_runs _ _ _ hr hs
    obtain ⟨config, trace, outcome⟩ := call
    cases outcome with
    | error e =>
      obtain rfl := hloaded
      exact ih
    | ok _ =>
      obtain ⟨view, entries, certificates, hlast, hloads, rfl⟩ := hloaded
      exact ⟨hloads.coherent, view, entries, certificates, hlast, hloads, rfl⟩

/-- A fresh service, whose map iterates as `order` says, ends a successful reload over the
one snapshot `view` in this state. -/
def FreshlyLoads (d : Decoding) (order : MapOrder) (config : CertificatesConfig)
    (view : StorageView) (state : ActiveTrustState) : Prop :=
  ∃ tr, ((viewService order).reload config).Runs tr (.ok ()) ∧
    Served (trustStep d) none tr (some state) ∧ viewsOf tr = [view]

/-- The same bundles by epoch, in whatever order, and the same certificates. -/
def SameTrust (state state' : ActiveTrustState) : Prop :=
  state.selfSignedBundlesByEpoch.Perm state'.selfSignedBundlesByEpoch ∧
    state.crossSignedCertificates = state'.crossSignedCertificates

theorem Decoding.Loads.freshlyLoads {config : CertificatesConfig}
    {entries : List (Epoch × LoadedSelfSignedBundle)} {certificates : List X509Certificate}
    (h : d.Loads view config entries certificates) :
    FreshlyLoads d order config view ⟨order.copyOf entries, certificates⟩ := by
  obtain ⟨tr, hdrive, hviews⟩ := drive_reload order h
  have hruns := runs_drive (serveView d view) ((viewService order).reload config) none
  have hserved := served_drive id (trustStep_serveView d view)
    ((viewService order).reload config) none
  rw [hdrive] at hruns hserved
  exact ⟨tr, hruns, hserved, hviews⟩

theorem FreshlyLoads.loads {config : CertificatesConfig} {state : ActiveTrustState}
    (h : FreshlyLoads d order config view state) :
    ∃ entries certificates, d.Loads view config entries certificates ∧
      state = ⟨order.copyOf entries, certificates⟩ := by
  obtain ⟨tr, hruns, hserved, hviews⟩ := h
  obtain ⟨view', entries, certificates, hlast, hloads, hstate⟩ :=
    (ensures_reload (coherent_none d) config).of_runs _ _ _ hruns hserved
  rw [hviews] at hlast
  obtain rfl : view = view' := Option.some.inj hlast
  exact ⟨entries, certificates, hloads, Option.some.inj hstate⟩

/-- After every history: the state is unset if no call succeeded; else a fresh service can
load the last successful call's snapshot and config, and whenever it does it holds the same
bundles and certificates. And a call that fails leaves the state as it was. -/
theorem reload_history {calls : List ReloadCall} (h : History d order calls s) :
    (match lastSuccess calls with
      | none => s = none
      | some call => ∃ view state, (viewsOf call.trace).getLast? = some view ∧ s = some state ∧
          ∀ freshOrder, (∃ fresh, FreshlyLoads d freshOrder call.config view fresh) ∧
            ∀ fresh, FreshlyLoads d freshOrder call.config view fresh → SameTrust fresh state) ∧
    ∀ config tr e s', ((viewService order).reload config).Runs tr (.error e) →
      Served (trustStep d) s tr s' → s' = s := by
  obtain ⟨hcoherent, hstate⟩ := h.state
  refine ⟨?_, fun config tr e s' hr hs => ?_⟩
  · cases hlast : lastSuccess calls with
    | none =>
      rw [hlast] at hstate
      exact hstate
    | some call =>
      rw [hlast] at hstate
      obtain ⟨view, entries, certificates, hview, hloads, rfl⟩ := hstate
      refine ⟨view, _, hview, rfl, fun freshOrder => ⟨⟨_, hloads.freshlyLoads⟩, ?_⟩⟩
      intro fresh hfresh
      obtain ⟨entries', certificates', hloads', rfl⟩ := hfresh.loads
      obtain ⟨rfl, rfl⟩ := hloads.unique hloads'
      exact ⟨(freshOrder.perm entries).trans (order.perm entries).symm, rfl⟩
  · exact (ensures_reload hcoherent config).of_runs _ _ _ hr hs

end
/-! Two epochs in storage, a reload of them, and one that cannot list the bucket. -/

namespace Sample

def backupOf (n : UInt8) : SelfSignedBundleBackup :=
  ⟨.one n, .one n, .one n, .one n⟩

def bundleOf (backup : SelfSignedBundleBackup) : SelfSignedBundle :=
  ⟨⟨backup.certBytes, ⟨u "RSA", backup.certBytes⟩, u "SHA256withRSA", .ok none⟩,
    ⟨u "RSA", backup.aeadEncryptedPrivateKey⟩, ⟨u ""⟩⟩

def decoding : Decoding where
  unsealed backup := some (bundleOf backup)
  decoded bytes := some ⟨bytes, ⟨u "RSA", bytes⟩, u "SHA256withRSA", .ok none⟩

def twoBackups : StorageView where
  selfSigned epoch := if epoch = 0 then .complete (backupOf 1)
    else if epoch = 1 then .complete (backupOf 2) else .empty
  crossSigned _ := none

def validity : ValidityPeriod :=
  (defaultConfig.selfSignedCertificates.head defaultConfig_nonempty).2.validityPeriod

def twoEpochs : CertificatesConfig where
  selfSignedCertificates := [(0, ⟨0, validity⟩), (1, ⟨1, validity⟩)]
  crossSignedCertificates := []
  activeSelfSignedCertificateIds := [1, 0]
  activeCrossSignedCertificateIds := []
  acceptableSelfSignedCertificateIds := []
  selfSigned_nodup := by decide
  crossSigned_nodup := List.nodup_nil
  active_nodup := by decide
  activeCross_nodup := List.nodup_nil
  acceptable_nodup := List.nodup_nil
  selfSigned_key := by simp
  crossSigned_key := crossSigned_key_nil
  crossSigned_private := by simp
  crossSigned_public := by simp
  active_nonempty := by decide
  active_defined := by simp
  acceptable_defined := by simp
  activeCross_defined := activeCross_defined_nil

def entries : List (Epoch × LoadedSelfSignedBundle) :=
  [(0, ⟨backupOf 1, bundleOf (backupOf 1)⟩), (1, ⟨backupOf 2, bundleOf (backupOf 2)⟩)]

theorem loads_twoBackups : decoding.Loads twoBackups twoEpochs entries [] := ⟨by decide, by decide⟩

/-- Maps that iterate in the order of insertion. -/
def insertionOrder : MapOrder := ⟨id, fun _ => .refl _⟩

def listFailure : Throwable := { cls := .backupAccessFailedException }

def failedReload : ReloadCall where
  config := defaultConfig
  trace := [⟨.getSnapshot, .error listFailure⟩, ⟨.recordLoadEvent .s3OperationFailed, .ok ()⟩]
  outcome := .error { cls := .runtimeException, message := u "Failed to reload trust package" }

theorem runs_failedReload : ((viewService insertionOrder).reload failedReload.config).Runs
    failedReload.trace failedReload.outcome := .call _ _ _ (.call _ _ _ (.raise _))

end Sample

/-- After a reload of both epochs and a failed reload of epoch 0 alone, the state is what a
fresh service loads for both epochs. -/
theorem reload_history_after_failure :
    ∃ call state, History Sample.decoding Sample.insertionOrder [Sample.failedReload, call]
        (some state) ∧
      ∀ fresh, FreshlyLoads Sample.decoding Sample.insertionOrder Sample.twoEpochs
        Sample.twoBackups fresh → SameTrust fresh state := by
  have hload : FreshlyLoads Sample.decoding Sample.insertionOrder Sample.twoEpochs
      Sample.twoBackups _ := Sample.loads_twoBackups.freshlyLoads
  obtain ⟨tr, hruns, hserved, hviews⟩ := hload
  have hfailed : ∀ s, Served (trustStep Sample.decoding) s Sample.failedReload.trace s :=
    fun s => .cons rfl (.cons ⟨rfl, rfl⟩ (.nil s))
  have hhistory := (History.init.reload ⟨Sample.twoEpochs, tr, .ok ()⟩ hruns hserved).reload
    Sample.failedReload Sample.runs_failedReload (hfailed _)
  obtain ⟨view, state, hview, hstate, hfresh⟩ := (reload_history hhistory).1
  rw [hviews] at hview
  obtain rfl : Sample.twoBackups = view := Option.some.inj hview
  rw [← Option.some.inj hstate] at hfresh
  exact ⟨_, _, hhistory, (hfresh Sample.insertionOrder).2⟩

end Mbs
