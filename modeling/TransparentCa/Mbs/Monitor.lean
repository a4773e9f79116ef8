import TransparentCa.Lib.Alone
import TransparentCa.Mbs.Buckets
import TransparentCa.Mbs.TrustPackage

/- `ScheduledCertificateMonitor` as `MbsCoreModule` wires it: the certificates config comes
   from S3, and where it cannot be had `DefaultingCertificatesConfigProvider` puts a
   hardcoded config of epoch 0 in its place; with the config the monitor generates the
   missing backups and reloads the trust package. What an iteration may write and load
   follows from the config it works with alone (`WritesFor`, `LoadedFor`), whatever S3 and
   the other instances do in between. -/
namespace Mbs
open Java Effects

structure ScheduledCertificateMonitor (P : Type → Type) where
  generateCertificates : CertificatesConfig → P Unit
  reloadTrustPackage : CertificatesConfig → P Unit
  getCertificatesConfig : P CertificatesConfig
  recordEvent : MbsEvent → P Unit

namespace ScheduledCertificateMonitor

variable {Op : Type} {Val : Op → Type}
  (monitor : ScheduledCertificateMonitor (Prog Op Val Throwable))

def fetchConfig : Prog Op Val Throwable (Option CertificatesConfig) :=
  Prog.handle (do
      let config ← monitor.getCertificatesConfig
      return some config)
    (fun e => if e.instanceOf .exception then return none else throw e)

def generate (config : CertificatesConfig) : Prog Op Val Throwable Bool :=
  Prog.handle (do
      monitor.generateCertificates config
      return true)
    (fun e => if e.instanceOf .exception then return false else throw e)

def reload (config : CertificatesConfig) : Prog Op Val Throwable Bool :=
  Prog.handle (do
      monitor.reloadTrustPackage config
      return true)
    (fun e => if e.instanceOf .exception then return false else throw e)

/-- The iteration once the config was looked for. -/
def iterate (config : Option CertificatesConfig) : Prog Op Val Throwable Unit := do
  let generationSucceeded ← match config with
    | some config => monitor.generate config
    | none => pure false
  let reloadSucceeded ← match config with
    | some config => monitor.reload config
    | none => pure false
  monitor.recordEvent (if generationSucceeded && reloadSucceeded then .success else .failure)

def runOneIteration : Prog Op Val Throwable Unit := do
  let config ← monitor.fetchConfig
  monitor.iterate config

end ScheduledCertificateMonitor

/-! ## The config from S3 -/

structure S3CertificatesConfigProvider where
  bucketName : JString
  configFileName : JString
  /-- `ResponseBytes.asUtf8String`. -/
  asUtf8String : Bytes → Except Throwable JString
  /-- `CertificatesConfigMapper.fromTextProto`. -/
  fromTextProto : JString → Except Throwable CertificatesConfig

namespace S3CertificatesConfigProvider

variable (provider : S3CertificatesConfigProvider)

def fetch : MbsProg Bytes :=
  (call (.getObject provider.bucketName provider.configFileName)).handle (fun e =>
    if e.caughtBy [.noSuchKeyException, .noSuchBucketException] then do
      call (.recordConfigEvent .couldNotFetchConfigurationFile)
      throw { cls := .invalidCertificatesConfigException,
              message := u "Certificates config file not found at " ++ provider.bucketName ++
                u "/" ++ provider.configFileName }
    else if e.instanceOf .sdkException then do
      call (.recordConfigEvent .couldNotFetchConfigurationFile)
      throw { cls := .invalidCertificatesConfigException,
              message := u "Failed to fetch certificates config from S3 bucket '" ++
                provider.bucketName ++ u "', key '" ++ provider.configFileName ++ u "'" }
    else throw e)

def parse (textProto : JString) : MbsProg CertificatesConfig :=
  Prog.handle (do
      let config ← Prog.ofExcept (provider.fromTextProto textProto)
      call (.recordConfigEvent .success)
      return config)
    (fun e =>
      if e.instanceOf .invalidCertificatesConfigException then do
        call (.recordConfigEvent .invalidConfigurationFile)
        throw e
      else throw e)

def fetchAndParse : MbsProg CertificatesConfig := do
  let responseBytes ← provider.fetch
  let textProto ← Prog.ofExcept (provider.asUtf8String responseBytes)
  provider.parse textProto

def getCertificatesConfig : MbsProg CertificatesConfig :=
  provider.fetchAndParse.handle (fun e =>
    if e.instanceOf .runtimeException then do
      call (.recordConfigEvent .generalFailure)
      throw e
    else throw e)

/-- The config that a get of the config file yields. -/
def configOf (answer : Except Throwable Bytes) : Except Throwable CertificatesConfig := do
  let bytes ← answer
  let textProto ← provider.asUtf8String bytes
  provider.fromTextProto textProto

end S3CertificatesConfigProvider

namespace DefaultingCertificatesConfigProvider

def getCertificatesConfig (delegate : MbsProg CertificatesConfig) : MbsProg CertificatesConfig :=
  delegate.handle (fun e => if e.instanceOf .exception then return defaultConfig else throw e)

end DefaultingCertificatesConfigProvider

/-! ## The wiring -/

structure MbsCore where
  writer : S3BackupWriter
  mapOrder : MapOrder
  asUtf8String : Bytes → Except Throwable JString
  fromTextProto : JString → Except Throwable CertificatesConfig

namespace MbsCore

variable (core : MbsCore)

/-- The config lies in the public backup bucket. -/
def configProvider : S3CertificatesConfigProvider where
  bucketName := core.writer.bucketProperties.publicBucketName
  configFileName := S3BackupPaths.certificatesConfigFilePath
  asUtf8String := core.asUtf8String
  fromTextProto := core.fromTextProto

def trustPackageService : TrustPackageService MbsProg where
  storage := S3BackupStorage.storage core.writer
  unsealBackup backup := call (.unsealBackup backup)
  toCertificate bytes := call (.toCertificate bytes)
  recordLoadEvent event := call (.recordLoadEvent event)
  sleep := call .sleep
  getActiveTrustState := call .getActiveTrustState
  setActiveTrustState state := call (.setActiveTrustState state)
  mapOrder := core.mapOrder

/-- The backup buckets. -/
def names : BucketNames := core.writer.names

def monitor : ScheduledCertificateMonitor MbsProg where
  generateCertificates := (s3Generator core.writer).generateCertificates
  reloadTrustPackage := core.trustPackageService.reload
  getCertificatesConfig :=
    DefaultingCertificatesConfigProvider.getCertificatesConfig
      core.configProvider.getCertificatesConfig
  recordEvent event := call (.recordEvent event)

end MbsCore

/-! ## What generating calls -/

theorem MbsCore.writer_on (core : MbsCore) : core.writer.On core.names := core.writer.on_names

/-- What generating for this config may call: it writes the lock and, if absent, artifacts of
configured epochs; of these it deletes the lock only. -/
def GeneratesFor (names : BucketNames) (config : CertificatesConfig) : MbsOp → Prop
  | .putObject bucket key _ _ =>
    (bucket = names.privateBucket ∧ key = S3BackupPaths.lockPath) ∨
      ∃ epoch ∈ config.selfSignedCertificates.map Prod.fst, ∃ element,
        bucket = names.of element ∧ key = elementPath element epoch
  | .deleteObject bucket key => bucket = names.privateBucket ∧ key = S3BackupPaths.lockPath
  | .setActiveTrustState _ => False
  | _ => True

section
variable {names : BucketNames} {config : CertificatesConfig} {writer : S3BackupWriter}

theorem uses_writeSelfSignedBundleBackup (hw : writer.On names) {epoch : Epoch}
    (hepoch : epoch ∈ config.selfSignedCertificates.map Prod.fst) (backup : SelfSignedBundleBackup) :
    (writer.writeSelfSignedBundleBackup epoch backup).Uses (GeneratesFor names config) := by
  rw [writeSelfSignedBundleBackup_eq hw]
  generalize writeOrder = rest
  induction rest with
  | nil => trivial
  | cons element rest ih =>
    refine Prog.Uses.bind (uses_putIfAbsent ?_) (fun _ => ih)
    exact .inr ⟨epoch, hepoch, element, rfl, rfl⟩

/-- The missing backups are of configured epochs. -/
theorem epoch_of_mem_findMissing {snapshot : S3StorageSnapshot} {empty : EmptyHandle MbsProg}
    (h : empty ∈ DefaultCertificateGenerator.findMissingSelfSignedBundleBackups config
      (snapshot.toStorageSnapshot writer)) :
    empty.epoch ∈ config.selfSignedCertificates.map Prod.fst := by
  obtain ⟨certConfig, hcert, hempty⟩ := List.mem_filterMap.mp h
  have hconfigured : certConfig.epochId ∈ config.selfSignedCertificates.map Prod.fst := by
    obtain ⟨entry, hentry, rfl⟩ := List.mem_map.mp ((List.mem_insertionSort _).mp hcert)
    exact List.mem_map.mpr ⟨entry, hentry, config.selfSigned_key entry hentry⟩
  simp only [S3StorageSnapshot.toStorageSnapshot,
    S3StorageSnapshot.getSelfSignedBundleBackupHandle] at hempty
  split at hempty
  · next epoch write hhandle =>
    split at hhandle <;> cases hhandle
    rw [← Option.some.inj hempty]
    exact hconfigured
  · cases hempty

theorem uses_generateAndWriteAll (hw : writer.On names) (missing : List (EmptyHandle MbsProg))
    (hmissing : ∀ empty ∈ missing,
      empty = ⟨empty.epoch, writer.writeSelfSignedBundleBackup empty.epoch⟩ ∧
        empty.epoch ∈ config.selfSignedCertificates.map Prod.fst) :
    ((s3Generator writer).generateAndWriteAll config missing).Uses (GeneratesFor names config) := by
  induction missing with
  | nil => trivial
  | cons empty rest ih =>
    obtain ⟨hempty, hepoch⟩ := hmissing empty List.mem_cons_self
    refine Prog.Uses.bind ?_ (fun _ => ih (fun e he => hmissing e (List.mem_cons_of_mem empty he)))
    unfold DefaultCertificateGenerator.generateAndWrite
    split
    · trivial
    · refine Prog.Uses.bind (Prog.Uses.invoke trivial) (fun backup => ?_)
      rw [hempty]
      exact uses_writeSelfSignedBundleBackup hw hepoch backup

theorem uses_generateCertificates (hw : writer.On names) :
    ((s3Generator writer).generateCertificates config).Uses (GeneratesFor names config) := by
  have hsnapshot : (S3BackupStorage.takeSnapshot writer).Uses (GeneratesFor names config) :=
    uses_takeSnapshot (fun _ _ => trivial) (fun _ _ => trivial)
  have hlocked : ((s3Generator writer).generateUnderLock config).Uses (GeneratesFor names config) := by
    refine Prog.Uses.bind (uses_acquireLock (fun _ _ => .inl ⟨hw.2, rfl⟩)) (fun _ => ?_)
    show Prog.Uses _ (Prog.bind (S3BackupStorage.getSnapshot writer) _)
    rw [getSnapshot_bind]
    refine Prog.Uses.bind hsnapshot (fun snapshot => ?_)
    refine Prog.Uses.bind (uses_generateAndWriteAll hw _ (fun empty hempty => ?_))
      (fun _ => uses_releaseLock ⟨hw.2, rfl⟩)
    exact ⟨mem_findMissing_s3 hempty, epoch_of_mem_findMissing hempty⟩
  have hattempt : ((s3Generator writer).generateMissingSelfSignedBundleBackups config).Uses
      (GeneratesFor names config) := by
    show Prog.Uses _ (Prog.bind (S3BackupStorage.getSnapshot writer) _)
    rw [getSnapshot_bind]
    refine Prog.Uses.bind hsnapshot (fun snapshot => ?_)
    split
    · trivial
    · exact hlocked
  refine Prog.Uses.handle (Prog.Uses.bind (Prog.Uses.handle hattempt (fun e => ?_))
    (fun _ => Prog.Uses.invoke trivial)) (fun e => ?_)
  · split
    · exact Prog.Uses.bind (Prog.Uses.invoke trivial) (fun _ => hattempt)
    · trivial
  · split
    · exact Prog.Uses.bind (Prog.Uses.invoke trivial) (fun _ => trivial)
    · trivial

/-! ## What a reload calls -/

/-- The calls that change neither the buckets nor the active trust state. -/
def MbsOp.isRead : MbsOp → Bool
  | .putObject _ _ _ _ | .deleteObject _ _ | .setActiveTrustState _ => false
  | _ => true

theorem not_isWrite_of_isRead {o : MbsOp} (h : o.isRead = true) : o.isWrite = false := by
  cases o <;> first
    | rfl
    | cases h

section
variable {N : MbsOp → Prop} (hN : ∀ o : MbsOp, o.isRead = true → N o)
include hN

theorem uses_withMonitor {α : Type} {handle : HandleRef} {p : MbsProg α} (hp : p.Uses N) :
    (withMonitor handle p).Uses N := by
  refine Prog.Uses.bind (Prog.Uses.invoke (hN _ rfl)) (fun _ => ?_)
  refine Prog.Uses.bind (Prog.Uses.handle (Prog.Uses.bind hp (fun _ => trivial))
    (fun _ => trivial)) (fun r => ?_)
  exact Prog.Uses.bind (Prog.Uses.invoke (hN _ rfl)) (fun _ => Prog.Uses.ofExcept r)

theorem uses_readSelfSignedHandle (bucketProperties : BackupBucketProperties) (generation : Nat)
    (epoch : Epoch) : (readSelfSignedHandle bucketProperties generation epoch).Uses N := by
  apply uses_withMonitor hN
  refine Prog.Uses.bind (Prog.Uses.invoke (hN _ rfl)) (fun cached => ?_)
  match cached with
  | some backup => trivial
  | none =>
    exact Prog.Uses.bind (uses_readSelfSignedBundleBackup (fun _ _ => hN _ rfl) _ _) (fun backup =>
      Prog.Uses.bind (Prog.Uses.invoke (hN _ rfl)) (fun _ => trivial))

theorem uses_readCrossSignedHandle (bucketProperties : BackupBucketProperties) (generation : Nat)
    (id : CrossSignedCertificateId) :
    (readCrossSignedHandle bucketProperties generation id).Uses N := by
  apply uses_withMonitor hN
  refine Prog.Uses.bind (Prog.Uses.invoke (hN _ rfl)) (fun cached => ?_)
  match cached with
  | some backup => trivial
  | none =>
    exact Prog.Uses.bind (uses_readCrossSignedCertificateBackup (fun _ _ => hN _ rfl) _ _)
      (fun backup => Prog.Uses.bind (Prog.Uses.invoke (hN _ rfl)) (fun _ => trivial))

theorem readsUse_s3 (snapshot : S3StorageSnapshot) :
    TrustPackageService.ReadsUse N (snapshot.toStorageSnapshot writer) where
  selfSigned epoch read h := by
    simp only [S3StorageSnapshot.toStorageSnapshot,
      S3StorageSnapshot.getSelfSignedBundleBackupHandle] at h
    split at h
    · next generation epoch' _ _ =>
      rw [← Except.ok.inj h]
      exact uses_readSelfSignedHandle hN _ _ _
    · cases h
    · cases h
    · cases h
  crossSigned id read h := by
    simp only [S3StorageSnapshot.toStorageSnapshot,
      S3StorageSnapshot.getCrossSignedCertificateBackupHandle] at h
    split at h
    · rw [← Except.ok.inj h]
      exact uses_readCrossSignedHandle hN _ _ _
    · cases h

theorem uses_takeSnapshot_read : (S3BackupStorage.takeSnapshot writer).Uses N :=
  uses_takeSnapshot (fun _ _ => hN _ rfl) (fun _ _ => hN _ rfl)

end
/-! ## What an iteration loads -/

/-- The active trust state across a call. What S3, KMS and the other instances do is left
open; counting an event sets a gauge and cannot fail. -/
def activeStep (s : Option ActiveTrustState) (o : MbsOp) (r : Except Throwable o.Val)
    (s' : Option ActiveTrustState) : Prop :=
  match o, r with
  | .getActiveTrustState, r => r = .ok s ∧ s' = s
  | .setActiveTrustState state, r => r = .ok () ∧ s' = some state
  | .recordGenerationEvent _, r => r = .ok () ∧ s' = s
  | .recordLoadEvent _, r => r = .ok () ∧ s' = s
  | .recordConfigEvent _, r => r = .ok () ∧ s' = s
  | .recordEvent _, r => r = .ok () ∧ s' = s
  | _, _ => s' = s

theorem activeStep_of_not_set {s s' : Option ActiveTrustState} {o : MbsOp}
    {r : Except Throwable o.Val} (h : activeStep s o r s')
    (ho : ∀ state, o ≠ .setActiveTrustState state) : s' = s := by
  cases o <;> first
    | exact h
    | exact h.2
    | exact absurd rfl (ho _)

theorem not_set_of_isRead {o : MbsOp} (h : o.isRead = true) (state : ActiveTrustState) :
    o ≠ .setActiveTrustState state := by
  intro heq
  rw [heq] at h
  cases h

/-- One bundle for each active epoch, one certificate for each active id. -/
def LoadedFor (config : CertificatesConfig) (s : Option ActiveTrustState) : Prop :=
  ∃ state, s = some state ∧
    (state.selfSignedBundlesByEpoch.map Prod.fst).Perm config.activeEpochs ∧
    state.crossSignedCertificates.length = config.activeCrossSignedCertificates.length

theorem ensures_call (o : MbsOp) {s : Option ActiveTrustState}
    {Q : List (Event MbsOp MbsOp.Val Throwable) → Except Throwable o.Val →
      Option ActiveTrustState → Prop}
    (h : ∀ r s', activeStep s o r s' → Q [⟨o, r⟩] r s') : Ensures activeStep (call o) s Q :=
  Ensures.invoke h

theorem ensures_unchanged {α : Type} {p : MbsProg α} (s : Option ActiveTrustState)
    (hp : p.Uses (fun o => ∀ state, o ≠ .setActiveTrustState state)) :
    Ensures activeStep p s (fun _ _ s' => s' = s) :=
  Ensures.of_uses hp (fun _ ho _ _ hstep => activeStep_of_not_set hstep ho)

section
variable (core : MbsCore) (config : CertificatesConfig) (s : Option ActiveTrustState)

theorem ensures_loadActiveTrustState_s3 :
    Ensures activeStep (core.trustPackageService.loadActiveTrustState config) s
      (fun _ _ s' => s' = s ∨ LoadedFor config s') := by
  have hread : ∀ o : MbsOp, o.isRead = true → ∀ state, o ≠ .setActiveTrustState state :=
    fun o ho => not_set_of_isRead ho
  show Ensures _ (Prog.bind (S3BackupStorage.getSnapshot core.writer) _) _ _
  rw [getSnapshot_bind]
  apply Ensures.bind
  apply (ensures_unchanged s (uses_takeSnapshot_read hread)).mono
  intro tr₁ r₁ s₁ hs₁
  subst hs₁
  cases r₁ with
  | error e => exact .inl rfl
  | ok snapshot =>
  apply Ensures.bind
  have hbundles : Prog.Uses (fun o => ∀ state, o ≠ .setActiveTrustState state)
      (core.trustPackageService.loadActiveSelfSignedBundles
        (snapshot.toStorageSnapshot core.writer) config) := by
    refine Prog.Uses.bind (Prog.Uses.invoke (hread _ rfl)) (fun previousState => ?_)
    exact TrustPackageService.uses_loadSelfSignedBundles _ (readsUse_s3 hread snapshot)
      (fun _ => Prog.Uses.invoke (hread _ rfl)) previousState _
  apply (ensures_unchanged s₁ hbundles).with_runs.mono
  intro tr₂ r₂ s₂ h₂
  obtain ⟨rfl, hruns₂⟩ := h₂
  cases r₂ with
  | error e => exact .inl rfl
  | ok entries =>
  apply Ensures.bind
  have hcross : Prog.Uses (fun o => ∀ state, o ≠ .setActiveTrustState state)
      (core.trustPackageService.loadActiveCrossSignedCertificates
        (snapshot.toStorageSnapshot core.writer) config) :=
    TrustPackageService.uses_loadCrossSignedCertificates _ (readsUse_s3 hread snapshot)
      (fun _ => Prog.Uses.invoke (hread _ rfl)) _
  apply (ensures_unchanged s₂ hcross).with_runs.mono
  intro tr₃ r₃ s₃ h₃
  obtain ⟨rfl, hruns₃⟩ := h₃
  cases r₃ with
  | error e => exact .inl rfl
  | ok certificates =>
  refine ensures_call (.setActiveTrustState ⟨core.mapOrder.copyOf entries, certificates⟩) ?_
  intro r s₄ hstep
  obtain ⟨-, rfl⟩ := hstep
  refine .inr ⟨_, rfl, ?_, TrustPackageService.length_of_loadCrossSignedCertificates _ _ hruns₃⟩
  obtain ⟨previousState, t₁, t₂, -, -, hload⟩ := Prog.runs_bind_ok.mp hruns₂
  have hkeys := TrustPackageService.keys_of_loadSelfSignedBundles _ _ hload
  rw [config.map_epochId_active] at hkeys
  rw [← hkeys]
  exact (core.mapOrder.perm entries).map Prod.fst

/-- Either nothing was loaded since `s`, or what the config asks for was. -/
def UnchangedOrLoaded (s' : Option ActiveTrustState) : Prop := s' = s ∨ LoadedFor config s'

variable {s config}

theorem keeps_unchanged {α : Type} {p : MbsProg α}
    (hp : p.Uses (fun o => ∀ state, o ≠ .setActiveTrustState state)) :
    Keeps activeStep (UnchangedOrLoaded config s) p :=
  Keeps.of_uses hp (fun _ ho _ _ _ hstep => activeStep_of_not_set hstep ho)

theorem keeps_call {o : MbsOp} (ho : o.isRead = true) :
    Keeps activeStep (UnchangedOrLoaded config s) (call o) :=
  keeps_unchanged (Prog.Uses.invoke (not_set_of_isRead ho))

theorem keeps_reload :
    Keeps activeStep (UnchangedOrLoaded config s) (core.trustPackageService.reload config) := by
  have hload : Keeps activeStep (UnchangedOrLoaded config s)
      (core.trustPackageService.loadActiveTrustState config) := by
    intro s₁ hs₁
    apply (ensures_loadActiveTrustState_s3 core config s₁).mono
    intro tr r s₂ hs₂
    rcases hs₂ with rfl | hloaded
    · exact hs₁
    · exact .inr hloaded
  have hrecord : ∀ event, Keeps activeStep (UnchangedOrLoaded config s)
      (core.trustPackageService.recordLoadEvent event) := fun _ => keeps_call rfl
  refine Keeps.handle (Keeps.bind (Keeps.handle hload (fun e => ?_)) (fun _ => hrecord .success))
    (fun e => ?_)
  · split
    · exact Keeps.bind (keeps_call rfl) (fun _ => hload)
    · exact Keeps.raise e
  · split
    · exact Keeps.bind (hrecord _) (fun _ => Keeps.raise _)
    · exact Keeps.raise e

theorem keeps_generateCertificates :
    Keeps activeStep (UnchangedOrLoaded config s)
      ((s3Generator core.writer).generateCertificates config) := by
  apply keeps_unchanged
  apply (uses_generateCertificates core.writer_on).mono
  intro o ho state heq
  rw [heq] at ho
  exact ho

/-- With a config, an iteration loads what the config asks for or nothing. -/
theorem keeps_iterate :
    Keeps activeStep (UnchangedOrLoaded config s) (core.monitor.iterate (some config)) := by
  have hswallow : ∀ {p : MbsProg Unit}, Keeps activeStep (UnchangedOrLoaded config s) p →
      Keeps activeStep (UnchangedOrLoaded config s) (Prog.handle (do
          p
          return true)
        (fun e => if e.instanceOf .exception then return false else throw e)) := by
    intro p hp
    refine Keeps.handle (Keeps.bind hp (fun _ => Keeps.ret true)) (fun e => ?_)
    split
    · exact Keeps.ret false
    · exact Keeps.raise e
  refine Keeps.bind (hswallow (keeps_generateCertificates core)) (fun generated => ?_)
  refine Keeps.bind (hswallow (keeps_reload core)) (fun reloaded => ?_)
  exact keeps_call rfl

end

/-- If the call writes to S3, it is one that generating for this config makes. -/
def WritesFor (names : BucketNames) (config : CertificatesConfig) (o : MbsOp) : Prop :=
  o.isWrite = true → GeneratesFor names config o

theorem uses_reload (core : MbsCore) :
    (core.trustPackageService.reload config).Uses (fun o => o.isWrite = false) := by
  have hread : ∀ o : MbsOp, o.isRead = true → o.isWrite = false :=
    fun o ho => not_isWrite_of_isRead ho
  have hunseal : ∀ backup, (core.trustPackageService.unsealBackup backup).Uses
      (fun o => o.isWrite = false) := fun backup => Prog.Uses.invoke (o := MbsOp.unsealBackup backup) rfl
  have hdecode : ∀ bytes, (core.trustPackageService.toCertificate bytes).Uses
      (fun o => o.isWrite = false) := fun bytes => Prog.Uses.invoke (o := MbsOp.toCertificate bytes) rfl
  have hload : (core.trustPackageService.loadActiveTrustState config).Uses
      (fun o => o.isWrite = false) := by
    show Prog.Uses _ (Prog.bind (S3BackupStorage.getSnapshot core.writer) _)
    rw [getSnapshot_bind]
    refine Prog.Uses.bind (uses_takeSnapshot_read hread) (fun snapshot => ?_)
    refine Prog.Uses.bind (Prog.Uses.bind (Prog.Uses.invoke rfl) (fun previousState => ?_))
      (fun entries => Prog.Uses.bind ?_ (fun certificates => Prog.Uses.invoke rfl))
    · exact TrustPackageService.uses_loadSelfSignedBundles _ (readsUse_s3 hread snapshot)
        hunseal previousState _
    · exact TrustPackageService.uses_loadCrossSignedCertificates _ (readsUse_s3 hread snapshot)
        hdecode _
  refine Prog.Uses.handle (Prog.Uses.bind (Prog.Uses.handle hload (fun e => ?_))
    (fun _ => Prog.Uses.invoke rfl)) (fun e => ?_)
  · split
    · exact Prog.Uses.bind (Prog.Uses.invoke rfl) (fun _ => hload)
    · trivial
  · split
    · exact Prog.Uses.bind (Prog.Uses.invoke rfl) (fun _ => trivial)
    · trivial

theorem uses_iterate (core : MbsCore) :
    (core.monitor.iterate (some config)).Uses (WritesFor core.names config) := by
  have hswallow : ∀ {p : MbsProg Unit}, p.Uses (WritesFor core.names config) →
      Prog.Uses (WritesFor core.names config) (Prog.handle (do
          p
          return true)
        (fun e => if e.instanceOf .exception then return false else throw e)) := by
    intro p hp
    refine Prog.Uses.handle (Prog.Uses.bind hp (fun _ => trivial)) (fun e => ?_)
    split <;> trivial
  have hgenerate : ((s3Generator core.writer).generateCertificates config).Uses
      (WritesFor core.names config) :=
    (uses_generateCertificates core.writer_on).mono (fun _ ho _ => ho)
  have hreload : (core.trustPackageService.reload config).Uses (WritesFor core.names config) := by
    apply (uses_reload core).mono
    intro o ho hwrite
    rw [ho] at hwrite
    cases hwrite
  refine Prog.Uses.bind (hswallow hgenerate) (fun generated => ?_)
  refine Prog.Uses.bind (hswallow hreload) (fun reloaded => ?_)
  exact Prog.Uses.invoke (fun hwrite => by cases hwrite)

end
end Mbs
