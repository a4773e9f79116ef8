import TransparentCa.Mbs.Storage

/- `DefaultCertificateGenerator`, over the storage, the backup generator, the metrics and
   the clock that its constructor injects. -/
namespace Mbs
open Java Effects

structure DefaultCertificateGenerator (P : Type → Type) where
  storage : BackupStorage P
  /-- `SelfSignedBundleBackupGenerator.generate`. -/
  generate : SelfSignedCertificate → P SelfSignedBundleBackup
  recordGenerationEvent : GenerationEvent → P Unit
  /-- `Thread.sleep(retryBackoff)`. -/
  sleep : P Unit

/-- `SelfSignedBundleBackupHandle.Empty`: its epoch and its `write`. -/
structure EmptyHandle (P : Type → Type) where
  epoch : Epoch
  write : SelfSignedBundleBackup → P Unit

namespace DefaultCertificateGenerator

def findMissingSelfSignedBundleBackups {P : Type → Type} (config : CertificatesConfig)
    (snapshot : StorageSnapshot P) : List (EmptyHandle P) :=
  config.getSelfSignedCertificates.filterMap (fun certConfig =>
    match snapshot.getSelfSignedBundleBackupHandle certConfig.epochId with
    | .empty epoch write => some ⟨epoch, write⟩
    | _ => none)

def mapFailureToEvent (failure : Throwable) : GenerationEvent :=
  if failure.instanceOf .backupStorageAlreadyLockedException then .waitingForMbsLock
  else if failure.instanceOf .backupAccessFailedException then .s3OperationFailed
  else if failure.instanceOf .kmsException then .kmsOperationFailed
  else .generalFailure

variable {Op : Type} {Val : Op → Type}
  (generator : DefaultCertificateGenerator (Prog Op Val Throwable))

/-- The body of the loop under the lock. -/
def generateAndWrite (config : CertificatesConfig) (empty : EmptyHandle (Prog Op Val Throwable)) :
    Prog Op Val Throwable Unit :=
  match config.selfSignedCertificates.lookup empty.epoch with
  | none => throw { cls := .nullPointerException }
  | some certConfig => do
    let backup ← generator.generate certConfig
    empty.write backup

def generateAndWriteAll (config : CertificatesConfig) :
    List (EmptyHandle (Prog Op Val Throwable)) → Prog Op Val Throwable Unit
  | [] => return ()
  | empty :: rest => do
    generator.generateAndWrite config empty
    generateAndWriteAll config rest

/-- The part of `generateMissingSelfSignedBundleBackups` from `acquireLock` on. A failure in
it leaves the lock behind on purpose. -/
def generateUnderLock (config : CertificatesConfig) : Prog Op Val Throwable Unit := do
  generator.storage.acquireLock
  let snapshot ← generator.storage.getSnapshot
  generator.generateAndWriteAll config (findMissingSelfSignedBundleBackups config snapshot)
  generator.storage.releaseLock

def generateMissingSelfSignedBundleBackups (config : CertificatesConfig) :
    Prog Op Val Throwable Unit := do
  let snapshot ← generator.storage.getSnapshot
  if (findMissingSelfSignedBundleBackups config snapshot).isEmpty then return ()
  else generator.generateUnderLock config

def generateMissingSelfSignedBundleBackupsWithRetryOnTransientError (config : CertificatesConfig) :
    Prog Op Val Throwable Unit :=
  (generator.generateMissingSelfSignedBundleBackups config).handle (fun e =>
    if e.instanceOf .backupStorageAlreadyLockedException then do
      generator.sleep
      generator.generateMissingSelfSignedBundleBackups config
    else throw e)

def generateCertificates (config : CertificatesConfig) : Prog Op Val Throwable Unit :=
  Prog.handle (do
      generator.generateMissingSelfSignedBundleBackupsWithRetryOnTransientError config
      generator.recordGenerationEvent .success)
    (fun failure =>
      if failure.instanceOf .exception then do
        generator.recordGenerationEvent (mapFailureToEvent failure)
        throw { cls := .runtimeException, message := u "Failed to generate certificate" }
      else throw failure)

end DefaultCertificateGenerator

/-- The generator as the module wires it, over S3. -/
def s3Generator (writer : S3BackupWriter) : DefaultCertificateGenerator MbsProg where
  storage := S3BackupStorage.storage writer
  generate certConfig := call (.generate certConfig)
  recordGenerationEvent event := call (.recordGenerationEvent event)
  sleep := call .sleep

/-! ## Over S3 -/

section
variable {writer : S3BackupWriter}

theorem getSnapshot_bind {α : Type} (f : StorageSnapshot MbsProg → MbsProg α) :
    (S3BackupStorage.getSnapshot writer).bind f =
      (S3BackupStorage.takeSnapshot writer).bind (fun updated =>
        f (updated.toStorageSnapshot writer)) := by
  simp only [S3BackupStorage.getSnapshot, Prog.bind_eq, Prog.pure_eq, Prog.bind_assoc,
    Prog.bind_ret]

/-- What is missing of a snapshot over S3 is written by the writer. -/
theorem mem_findMissing_s3 {config : CertificatesConfig} {snapshot : S3StorageSnapshot}
    {empty : EmptyHandle MbsProg} (h : empty ∈
      DefaultCertificateGenerator.findMissingSelfSignedBundleBackups config
        (snapshot.toStorageSnapshot writer)) :
    empty = ⟨empty.epoch, writer.writeSelfSignedBundleBackup empty.epoch⟩ := by
  obtain ⟨certConfig, -, hempty⟩ := List.mem_filterMap.mp h
  simp only [S3StorageSnapshot.toStorageSnapshot,
    S3StorageSnapshot.getSelfSignedBundleBackupHandle] at hempty
  split at hempty
  · next epoch write hhandle =>
    split at hhandle <;> cases hhandle
    rw [← Option.some.inj hempty]
  · cases hempty

theorem uses_putIfAbsent {N : MbsOp → Prop} {bucket key cacheControl : JString} {content : Bytes}
    (h : N (.putObject bucket key content cacheControl)) :
    (S3BackupWriter.putIfAbsent bucket key content cacheControl).Uses N :=
  Prog.Uses.handle (Prog.Uses.invoke h) (fun _ => trivial)

theorem uses_acquireLock {N : MbsOp → Prop} (h : ∀ content cacheControl, N (.putObject
      writer.bucketProperties.privateBucketName S3BackupPaths.lockPath content cacheControl)) :
    writer.acquireLock.Uses N := by
  refine Prog.Uses.handle (uses_putIfAbsent (h _ _)) (fun e => ?_)
  split <;> trivial

theorem uses_releaseLock {N : MbsOp → Prop}
    (h : N (.deleteObject writer.bucketProperties.privateBucketName S3BackupPaths.lockPath)) :
    writer.releaseLock.Uses N := by
  refine Prog.Uses.handle (Prog.Uses.invoke h) (fun e => ?_)
  split <;> trivial

theorem uses_tryGetS3Object {N : MbsOp → Prop} {bucket key : JString} (h : N (.getObject bucket key)) :
    (S3BackupReader.tryGetS3Object bucket key).Uses N := by
  refine Prog.Uses.handle (Prog.Uses.bind (Prog.Uses.invoke h) (fun _ => trivial)) (fun e => ?_)
  split
  · trivial
  · split <;> trivial

theorem uses_readSelfSignedBundleBackup {N : MbsOp → Prop}
    (h : ∀ bucket key, N (.getObject bucket key)) (bucketProperties : BackupBucketProperties)
    (epoch : Epoch) : (S3BackupReader.readSelfSignedBundleBackup bucketProperties epoch).Uses N := by
  refine Prog.Uses.bind (uses_tryGetS3Object (h _ _)) (fun _ => ?_)
  refine Prog.Uses.bind (uses_tryGetS3Object (h _ _)) (fun _ => ?_)
  refine Prog.Uses.bind (uses_tryGetS3Object (h _ _)) (fun _ => ?_)
  exact Prog.Uses.bind (uses_tryGetS3Object (h _ _)) (fun _ => Prog.Uses.ofExcept _)

theorem uses_readCrossSignedCertificateBackup {N : MbsOp → Prop}
    (h : ∀ bucket key, N (.getObject bucket key)) (bucketProperties : BackupBucketProperties)
    (id : CrossSignedCertificateId) :
    (S3BackupReader.readCrossSignedCertificateBackup bucketProperties id).Uses N := by
  refine Prog.Uses.bind (uses_tryGetS3Object (h _ _)) (fun found => ?_)
  cases found <;> trivial

theorem uses_takeSnapshot {N : MbsOp → Prop} (hlist : ∀ bucket keyPrefix,
      N (.listObjectsV2 bucket keyPrefix))
    (hupdate : ∀ eTagsByEpoch eTagsByCrossSignedId,
      N (.updateCachedSnapshot eTagsByEpoch eTagsByCrossSignedId)) :
    (S3BackupStorage.takeSnapshot writer).Uses N := by
  have hbucket : ∀ bucket keyPrefix, (S3BackupStorage.listBucket bucket keyPrefix).Uses N := by
    intro bucket keyPrefix
    refine Prog.Uses.handle (Prog.Uses.invoke (hlist bucket keyPrefix)) (fun e => ?_)
    split <;> trivial
  refine Prog.Uses.bind (hbucket _ _) (fun publicObjects => ?_)
  refine Prog.Uses.bind (hbucket _ _) (fun privateObjects => ?_)
  exact Prog.Uses.invoke (hupdate _ _)

end
end Mbs
