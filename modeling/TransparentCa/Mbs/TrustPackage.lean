import TransparentCa.Mbs.Storage

/- `TrustPackageService`: the active trust state, its reload from a storage snapshot, and
   the trust package read from it. Bundles whose backup did not change are carried over
   from the previous state. `Map.copyOf` of the loaded bundles iterates in an order of the
   JDK's choosing (`MapOrder`). -/
namespace Mbs
open Java Effects

/-- The order in which a JDK iterates the copy of a map, from the order of insertion. -/
structure MapOrder where
  copyOf : List (Epoch × LoadedSelfSignedBundle) → List (Epoch × LoadedSelfSignedBundle)
  perm : ∀ m, (copyOf m).Perm m

structure TrustPackageService (P : Type → Type) where
  storage : BackupStorage P
  /-- `backupSealer.unseal`. -/
  unsealBackup : SelfSignedBundleBackup → P SelfSignedBundle
  toCertificate : Bytes → P X509Certificate
  recordLoadEvent : LoadEvent → P Unit
  /-- `Thread.sleep(retryBackoff)`. -/
  sleep : P Unit
  getActiveTrustState : P (Option ActiveTrustState)
  setActiveTrustState : ActiveTrustState → P Unit
  mapOrder : MapOrder

namespace TrustPackageService

def mapFailureToEvent (failure : Throwable) : LoadEvent :=
  if failure.instanceOf .backupNotFoundException then .backupNotFound
  else if failure.instanceOf .backupAccessFailedException then .s3OperationFailed
  else if failure.instanceOf .kmsException then .kmsOperationFailed
  else if failure.instanceOf .backupCorruptedException ||
      failure.instanceOf .backupIncompleteException ||
      failure.instanceOf .backupPartiallyWrittenException then .storedBackupCorrupted
  else .generalFailure

/-- The bundles of a state in the order its map iterates, and its certificates. -/
def trustPackageOf (state : ActiveTrustState) : TrustPackage :=
  ⟨state.selfSignedBundlesByEpoch.map (fun entry => entry.2.bundle), state.crossSignedCertificates⟩

/-- `previouslyLoaded.get(epochId)`. -/
def previouslyLoaded (previousState : Option ActiveTrustState) (epochId : Epoch) :
    Option LoadedSelfSignedBundle :=
  match previousState with
  | some state => state.selfSignedBundlesByEpoch.lookup epochId
  | none => none

variable {Op : Type} {Val : Op → Type} (service : TrustPackageService (Prog Op Val Throwable))

def getActiveTrustPackage : Prog Op Val Throwable TrustPackage := do
  let state ← service.getActiveTrustState
  match state with
  | none => throw { cls := .illegalStateException,
                    message := u "Trust package has not been initialized yet" }
  | some state => return trustPackageOf state

def useLoadedOrLoadSelfSignedBundle (previous : Option LoadedSelfSignedBundle)
    (backup : SelfSignedBundleBackup) : Prog Op Val Throwable LoadedSelfSignedBundle :=
  let load := do
    let bundle ← service.unsealBackup backup
    return ⟨backup, bundle⟩
  match previous with
  | some previous => if previous.backup = backup then return previous else load
  | none => load

/-- The loop over the active certificates; the entries in the order they are put. -/
def loadSelfSignedBundles (snapshot : StorageSnapshot (Prog Op Val Throwable))
    (previousState : Option ActiveTrustState) :
    List SelfSignedCertificate → Prog Op Val Throwable (List (Epoch × LoadedSelfSignedBundle))
  | [] => return []
  | certConfig :: rest => do
    let read ← Prog.ofExcept
      (snapshot.getSelfSignedBundleBackupHandle certConfig.epochId).expectComplete
    let backup ← read
    let loaded ← service.useLoadedOrLoadSelfSignedBundle
      (previouslyLoaded previousState certConfig.epochId) backup
    let others ← loadSelfSignedBundles snapshot previousState rest
    return (certConfig.epochId, loaded) :: others

def loadActiveSelfSignedBundles (snapshot : StorageSnapshot (Prog Op Val Throwable))
    (config : CertificatesConfig) :
    Prog Op Val Throwable (List (Epoch × LoadedSelfSignedBundle)) := do
  let previousState ← service.getActiveTrustState
  service.loadSelfSignedBundles snapshot previousState config.activeSelfSignedCertificates

def decodeCertificate (certBytes : Bytes) : Prog Op Val Throwable X509Certificate :=
  (service.toCertificate certBytes).handle (fun e =>
    if e.instanceOf .illegalArgumentException then
      throw { cls := .backupCorruptedException, message := u "Certificate could not be decoded" }
    else throw e)

def loadCrossSignedCertificates (snapshot : StorageSnapshot (Prog Op Val Throwable)) :
    List CrossSignedCertificate → Prog Op Val Throwable (List X509Certificate)
  | [] => return []
  | crossCertConfig :: rest => do
    let read ← Prog.ofExcept
      (snapshot.getCrossSignedCertificateBackupHandle crossCertConfig.id).expectComplete
    let backup ← read
    let certificate ← service.decodeCertificate backup.certBytes
    let others ← loadCrossSignedCertificates snapshot rest
    return certificate :: others

def loadActiveCrossSignedCertificates (snapshot : StorageSnapshot (Prog Op Val Throwable))
    (config : CertificatesConfig) : Prog Op Val Throwable (List X509Certificate) :=
  service.loadCrossSignedCertificates snapshot config.activeCrossSignedCertificates

def loadActiveTrustState (config : CertificatesConfig) : Prog Op Val Throwable Unit := do
  let snapshot ← service.storage.getSnapshot
  let nextBundles ← service.loadActiveSelfSignedBundles snapshot config
  let nextCrossSigned ← service.loadActiveCrossSignedCertificates snapshot config
  service.setActiveTrustState ⟨service.mapOrder.copyOf nextBundles, nextCrossSigned⟩

def reloadTrustPackageWithRetryOnTransientError (config : CertificatesConfig) :
    Prog Op Val Throwable Unit :=
  (service.loadActiveTrustState config).handle (fun transientState =>
    if transientState.instanceOf .backupPartiallyWrittenException then do
      service.sleep
      service.loadActiveTrustState config
    else throw transientState)

/-- The interrupt status that a caught `InterruptedException` sets again is left out. -/
def reload (config : CertificatesConfig) : Prog Op Val Throwable Unit :=
  Prog.handle (do
      service.reloadTrustPackageWithRetryOnTransientError config
      service.recordLoadEvent .success)
    (fun failure =>
      if failure.instanceOf .exception then do
        service.recordLoadEvent (mapFailureToEvent failure)
        throw { cls := .runtimeException, message := u "Failed to reload trust package" }
      else throw failure)

/-! ## What a load returns -/

/-- One entry for each active certificate, in the same order. -/
theorem keys_of_loadSelfSignedBundles {snapshot : StorageSnapshot (Prog Op Val Throwable)}
    {previousState : Option ActiveTrustState} (certs : List SelfSignedCertificate)
    {tr : List (Event Op Val Throwable)} {entries : List (Epoch × LoadedSelfSignedBundle)}
    (h : (service.loadSelfSignedBundles snapshot previousState certs).Runs tr (.ok entries)) :
    entries.map Prod.fst = certs.map SelfSignedCertificate.epochId := by
  induction certs generalizing tr entries with
  | nil =>
    obtain ⟨-, h⟩ := Prog.runs_ret.mp h
    rw [Except.ok.inj h]
    rfl
  | cons certConfig rest ih =>
    obtain ⟨read, -, h⟩ := Prog.runs_ofExcept_bind.mp h
    obtain ⟨backup, -, t₁, -, -, h⟩ := Prog.runs_bind_ok.mp h
    obtain ⟨loaded, -, t₂, -, -, h⟩ := Prog.runs_bind_ok.mp h
    obtain ⟨others, t₃, t₄, -, hothers, h⟩ := Prog.runs_bind_ok.mp h
    obtain ⟨-, h⟩ := Prog.runs_ret.mp h
    rw [Except.ok.inj h, List.map_cons, List.map_cons, ih hothers]

theorem length_of_loadCrossSignedCertificates
    {snapshot : StorageSnapshot (Prog Op Val Throwable)} (certs : List CrossSignedCertificate)
    {tr : List (Event Op Val Throwable)} {certificates : List X509Certificate}
    (h : (service.loadCrossSignedCertificates snapshot certs).Runs tr (.ok certificates)) :
    certificates.length = certs.length := by
  induction certs generalizing tr certificates with
  | nil =>
    obtain ⟨-, h⟩ := Prog.runs_ret.mp h
    rw [Except.ok.inj h]
    rfl
  | cons crossCertConfig rest ih =>
    obtain ⟨read, -, h⟩ := Prog.runs_ofExcept_bind.mp h
    obtain ⟨backup, -, t₁, -, -, h⟩ := Prog.runs_bind_ok.mp h
    obtain ⟨certificate, -, t₂, -, -, h⟩ := Prog.runs_bind_ok.mp h
    obtain ⟨others, t₃, t₄, -, hothers, h⟩ := Prog.runs_bind_ok.mp h
    obtain ⟨-, h⟩ := Prog.runs_ret.mp h
    rw [Except.ok.inj h, List.length_cons, List.length_cons, ih hothers]

/-! ## The calls of a load -/

/-- The reads of the snapshot make only calls of `N`. -/
structure ReadsUse (N : Op → Prop) (snapshot : StorageSnapshot (Prog Op Val Throwable)) : Prop where
  selfSigned : ∀ epoch read,
    (snapshot.getSelfSignedBundleBackupHandle epoch).expectComplete = .ok read → read.Uses N
  crossSigned : ∀ id read,
    (snapshot.getCrossSignedCertificateBackupHandle id).expectComplete = .ok read → read.Uses N

theorem uses_ofExcept_bind {N : Op → Prop} {α β : Type} {x : Except Throwable α}
    {f : α → Prog Op Val Throwable β} (h : ∀ a, x = .ok a → (f a).Uses N) :
    ((Prog.ofExcept x).bind f).Uses N := by
  cases x with
  | ok a => exact h a rfl
  | error e => trivial

theorem uses_loadSelfSignedBundles {N : Op → Prop}
    {snapshot : StorageSnapshot (Prog Op Val Throwable)} (hreads : ReadsUse N snapshot)
    (hunseal : ∀ backup, (service.unsealBackup backup).Uses N)
    (previousState : Option ActiveTrustState) (certs : List SelfSignedCertificate) :
    (service.loadSelfSignedBundles snapshot previousState certs).Uses N := by
  have hload : ∀ backup, (do
      let bundle ← service.unsealBackup backup
      return (⟨backup, bundle⟩ : LoadedSelfSignedBundle)).Uses N :=
    fun backup => Prog.Uses.bind (hunseal backup) (fun _ => trivial)
  induction certs with
  | nil => trivial
  | cons certConfig rest ih =>
    refine uses_ofExcept_bind (fun read hread => ?_)
    refine Prog.Uses.bind (hreads.selfSigned _ read hread) (fun backup => ?_)
    refine Prog.Uses.bind ?_ (fun loaded => Prog.Uses.bind ih (fun _ => trivial))
    unfold useLoadedOrLoadSelfSignedBundle
    split
    · split
      · trivial
      · exact hload backup
    · exact hload backup

theorem uses_loadCrossSignedCertificates {N : Op → Prop}
    {snapshot : StorageSnapshot (Prog Op Val Throwable)} (hreads : ReadsUse N snapshot)
    (hdecode : ∀ bytes, (service.toCertificate bytes).Uses N) (certs : List CrossSignedCertificate) :
    (service.loadCrossSignedCertificates snapshot certs).Uses N := by
  induction certs with
  | nil => trivial
  | cons crossCertConfig rest ih =>
    refine uses_ofExcept_bind (fun read hread => ?_)
    refine Prog.Uses.bind (hreads.crossSigned _ read hread) (fun backup => ?_)
    refine Prog.Uses.bind (Prog.Uses.handle (hdecode _) (fun e => ?_))
      (fun _ => Prog.Uses.bind ih (fun _ => trivial))
    split <;> trivial

end TrustPackageService
end Mbs
