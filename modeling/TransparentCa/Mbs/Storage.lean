import TransparentCa.Lib.Prog
import TransparentCa.Mbs.Paths

/- Backup storage: the port (`BackupStorage`, `StorageSnapshot` and the handles, each a
   record of programs), every call Measurement Bound Storage makes outside itself
   (`MbsOp`), and the adapter over S3: `S3BackupWriter`, `S3BackupReader` and
   `S3BackupStorage`. An object of the heap is named by a reference; its fields and its
   monitor are reached by calls, so that threads may interleave between them. -/
namespace Mbs
open Java Effects

/-! ## The port -/

/-- `List.toString()` of a list of strings. -/
def listToString (l : List JString) : JString :=
  u "[" ++ List.intercalate (u ", ") l ++ u "]"

/-- What a listing saw of one epoch, with the operations that state permits. -/
inductive SelfSignedBundleBackupHandle (P : Type → Type) where
  | complete (epoch : Epoch) (read : P SelfSignedBundleBackup)
  | empty (epoch : Epoch) (write : SelfSignedBundleBackup → P Unit)
  | partiallyWritten (epoch : Epoch) (missingKeys : List JString)
  | incomplete (epoch : Epoch) (missingKeys : List JString)

inductive CrossSignedCertificateBackupHandle (P : Type → Type) where
  | complete (id : CrossSignedCertificateId) (read : P CrossSignedCertificateBackup)
  | empty (id : CrossSignedCertificateId) (write : CrossSignedCertificateBackup → P Unit)

structure StorageSnapshot (P : Type → Type) where
  getSelfSignedBundleBackupHandle : Epoch → SelfSignedBundleBackupHandle P
  getCrossSignedCertificateBackupHandle :
    CrossSignedCertificateId → CrossSignedCertificateBackupHandle P

structure BackupStorage (P : Type → Type) where
  acquireLock : P Unit
  releaseLock : P Unit
  getSnapshot : P (StorageSnapshot P)

section
variable {P : Type → Type}

def SelfSignedBundleBackupHandle.asException : SelfSignedBundleBackupHandle P → Throwable
  | .complete epoch _ =>
    { cls := .backupAlreadyExistsException,
      message := u "Self-signed bundle backup already complete for epoch " ++ intToString epoch }
  | .empty epoch _ =>
    { cls := .backupNotFoundException,
      message := u "Self-signed bundle backup absent for epoch " ++ intToString epoch }
  | .partiallyWritten epoch missingKeys =>
    { cls := .backupPartiallyWrittenException,
      message := u "Self-signed bundle backup partially written for epoch " ++
        intToString epoch ++ u ", missing " ++ listToString missingKeys }
  | .incomplete epoch missingKeys =>
    { cls := .backupIncompleteException,
      message := u "Self-signed bundle backup incomplete for epoch " ++ intToString epoch ++
        u ", missing " ++ listToString missingKeys }

/-- `expect(Complete.class)`: the `read` of a complete handle. -/
def SelfSignedBundleBackupHandle.expectComplete :
    SelfSignedBundleBackupHandle P → Except Throwable (P SelfSignedBundleBackup)
  | .complete _ read => .ok read
  | handle => .error handle.asException

def CrossSignedCertificateBackupHandle.asException :
    CrossSignedCertificateBackupHandle P → Throwable
  | .complete id _ =>
    { cls := .backupAlreadyExistsException,
      message := u "Cross-signed certificate already exists for " ++ id.toKeyString }
  | .empty id _ =>
    { cls := .backupNotFoundException,
      message := u "Cross-signed certificate absent for " ++ id.toKeyString }

def CrossSignedCertificateBackupHandle.expectComplete :
    CrossSignedCertificateBackupHandle P → Except Throwable (P CrossSignedCertificateBackup)
  | .complete _ read => .ok read
  | handle => .error handle.asException

end

/-! ## Calls -/

/-- A handle object that memoizes what it read. Handles are created by
`cachedSnapshot.updateAndGet`, so the number of that update and the item name one. -/
inductive HandleRef where
  | selfSigned (generation : Nat) (epoch : Epoch)
  | crossSigned (generation : Nat) (id : CrossSignedCertificateId)
  deriving DecidableEq

/-- A stored handle: `S3CompleteSelfSignedBundleBackupHandle`, which has an ETag for every
element, or one of the two records for a backup that lacks artifacts. -/
inductive S3SelfSignedHandle where
  | complete (generation : Nat) (epoch : Epoch)
      (elementETags : SelfSignedBundleBackupElement → JString)
  | partiallyWritten (epoch : Epoch) (missingKeys : List JString)
  | incomplete (epoch : Epoch) (missingKeys : List JString)

def S3SelfSignedHandle.epoch : S3SelfSignedHandle → Epoch
  | .complete _ epoch _ | .partiallyWritten epoch _ | .incomplete epoch _ => epoch

/-- `S3CompleteCrossSignedCertificateBackupHandle`. -/
structure S3CrossSignedHandle where
  generation : Nat
  id : CrossSignedCertificateId
  eTag : JString

/-- The two handle maps; a handle is stored under what it describes. -/
structure S3StorageSnapshot where
  selfSignedBundleBackupHandles : Epoch → Option S3SelfSignedHandle
  crossSignedCertificateBackupHandles : CrossSignedCertificateId → Option S3CrossSignedHandle
  epoch_eq : ∀ epoch handle, selfSignedBundleBackupHandles epoch = some handle →
    handle.epoch = epoch
  id_eq : ∀ id handle, crossSignedCertificateBackupHandles id = some handle → handle.id = id

/-- `new S3StorageSnapshot(Map.of(), Map.of(), writer)`. -/
def S3StorageSnapshot.empty : S3StorageSnapshot where
  selfSignedBundleBackupHandles _ := none
  crossSignedCertificateBackupHandles _ := none
  epoch_eq := by simp
  id_eq := by simp

structure LoadedSelfSignedBundle where
  backup : SelfSignedBundleBackup
  bundle : SelfSignedBundle
  deriving DecidableEq

/-- The loaded bundles by epoch, in the order the map iterates, and the certificates. -/
structure ActiveTrustState where
  selfSignedBundlesByEpoch : List (Epoch × LoadedSelfSignedBundle)
  crossSignedCertificates : List X509Certificate
  deriving DecidableEq

inductive GenerationEvent where
  | success
  | waitingForMbsLock
  | s3OperationFailed
  | kmsOperationFailed
  | generalFailure
  deriving DecidableEq, Repr

inductive LoadEvent where
  | success
  | backupNotFound
  | s3OperationFailed
  | kmsOperationFailed
  | storedBackupCorrupted
  | generalFailure
  deriving DecidableEq, Repr

inductive ConfigEvent where
  | success
  | couldNotFetchConfigurationFile
  | invalidConfigurationFile
  | generalFailure
  deriving DecidableEq, Repr

inductive MbsEvent where
  | success
  | failure
  deriving DecidableEq, Repr

/-- The calls of S3, of the fields shared between threads, of the collaborators, and of the
clock. Puts carry `If-None-Match: *`. -/
inductive MbsOp where
  | getObject (bucket key : JString)
  | putObject (bucket key : JString) (content : Bytes) (cacheControl : JString)
  | deleteObject (bucket key : JString)
  | listObjectsV2 (bucket keyPrefix : JString)
  | updateCachedSnapshot (eTagsByEpoch : ETagsByEpoch)
      (eTagsByCrossSignedId : ETagsByCrossSignedId)
  | monitorEnter (handle : HandleRef)
  | monitorExit (handle : HandleRef)
  | getCachedBackup (generation : Nat) (epoch : Epoch)
  | setCachedBackup (generation : Nat) (epoch : Epoch) (backup : SelfSignedBundleBackup)
  | getCachedCrossSigned (generation : Nat) (id : CrossSignedCertificateId)
  | setCachedCrossSigned (generation : Nat) (id : CrossSignedCertificateId)
      (backup : CrossSignedCertificateBackup)
  | getActiveTrustState
  | setActiveTrustState (state : ActiveTrustState)
  | generate (certConfig : SelfSignedCertificate)
  | unsealBackup (backup : SelfSignedBundleBackup)
  | toCertificate (bytes : Bytes)
  | sleep
  | recordGenerationEvent (event : GenerationEvent)
  | recordLoadEvent (event : LoadEvent)
  | recordConfigEvent (event : ConfigEvent)
  | recordEvent (event : MbsEvent)

abbrev MbsOp.Val : MbsOp → Type
  | .getObject _ _ => Bytes
  | .listObjectsV2 _ _ => List S3ObjectSummary
  | .updateCachedSnapshot _ _ => S3StorageSnapshot
  | .getCachedBackup _ _ => Option SelfSignedBundleBackup
  | .getCachedCrossSigned _ _ => Option CrossSignedCertificateBackup
  | .getActiveTrustState => Option ActiveTrustState
  | .generate _ => SelfSignedBundleBackup
  | .unsealBackup _ => SelfSignedBundle
  | .toCertificate _ => X509Certificate
  | .putObject _ _ _ _ | .deleteObject _ _ | .monitorEnter _ | .monitorExit _
  | .setCachedBackup _ _ _ | .setCachedCrossSigned _ _ _ | .setActiveTrustState _ | .sleep
  | .recordGenerationEvent _ | .recordLoadEvent _ | .recordConfigEvent _ | .recordEvent _ => Unit

abbrev MbsProg (α : Type) := Prog MbsOp MbsOp.Val Throwable α

def call (o : MbsOp) : MbsProg o.Val := Prog.invoke o

/-! ## S3BackupWriter -/

structure BackupBucketProperties where
  publicBucketName : JString
  privateBucketName : JString
  cacheControl : JString

/-- A unit with the case mappings that reach an ASCII letter applied. -/
def foldCase (c : UInt16) : UInt16 :=
  if ch 'A' ≤ c ∧ c ≤ ch 'Z' then c + 32
  else if c = 0x0130 ∨ c = 0x0131 then ch 'i'
  else if c = 0x017F then ch 's'
  else if c = 0x212A then ch 'k'
  else c

/-- `String.equalsIgnoreCase` against an ASCII literal. -/
def equalsIgnoreCase (literal s : JString) : Bool := literal.map foldCase = s.map foldCase

def isPreconditionFailed (e : Throwable) : Bool :=
  e.statusCode = 412 ||
    (match e.awsErrorCode with
      | some errorCode => equalsIgnoreCase (u "PreconditionFailed") errorCode
      | none => false)

structure S3BackupWriter where
  bucketProperties : BackupBucketProperties
  /-- `instanceId.getBytes(UTF_8)`. -/
  instanceId : Bytes

namespace S3BackupWriter

variable (writer : S3BackupWriter)

/-- What `putIfAbsent` throws in place of an exception of the client. -/
def putFailure (bucket key : JString) (e : Throwable) : Throwable :=
  if e.instanceOf .sdkException then
    if e.instanceOf .s3Exception && isPreconditionFailed e then
      { cls := .backupAlreadyExistsException,
        message := u "Object already exists: " ++ key ++ u " in bucket: " ++ bucket }
    else
      { cls := .backupAccessFailedException,
        message := u "Failed to put object: " ++ key ++ u " in bucket: " ++ bucket }
  else e

def putIfAbsent (bucket key : JString) (content : Bytes) (cacheControl : JString) : MbsProg Unit :=
  (call (.putObject bucket key content cacheControl)).handle
    (fun e => throw (putFailure bucket key e))

def putS3Object (bucket key : JString) (content : Bytes) : MbsProg Unit :=
  putIfAbsent bucket key content writer.bucketProperties.cacheControl

def acquireLock : MbsProg Unit :=
  (putIfAbsent writer.bucketProperties.privateBucketName S3BackupPaths.lockPath writer.instanceId
    (u "no-cache")).handle (fun e =>
      if e.instanceOf .backupAlreadyExistsException then
        throw { cls := .backupStorageAlreadyLockedException,
                message := u "Generation lock present at " ++ S3BackupPaths.lockPath }
      else throw e)

def releaseLock : MbsProg Unit :=
  (call (.deleteObject writer.bucketProperties.privateBucketName S3BackupPaths.lockPath)).handle
    (fun e =>
      if e.instanceOf .sdkException then
        throw { cls := .backupAccessFailedException,
                message := u "Failed to delete S3 generation lock file" }
      else throw e)

def writeSelfSignedBundleBackup (epoch : Epoch) (backup : SelfSignedBundleBackup) :
    MbsProg Unit := do
  writer.putS3Object writer.bucketProperties.privateBucketName
    (S3BackupPaths.getAesEncryptedPrivateKeyPath epoch) backup.aeadEncryptedPrivateKey
  writer.putS3Object writer.bucketProperties.privateBucketName
    (S3BackupPaths.getKmsEncryptedDataKeyPath epoch) backup.kmsEncryptedDataKey
  writer.putS3Object writer.bucketProperties.publicBucketName
    (S3BackupPaths.getAttestationDocPath epoch) backup.attestationDocBytes
  -- Written last, as the completion sentinel readers rely on.
  writer.putS3Object writer.bucketProperties.publicBucketName
    (S3BackupPaths.getRootCertPath epoch) backup.certBytes

def writeCrossSignedCertificateBackup (id : CrossSignedCertificateId)
    (backup : CrossSignedCertificateBackup) : MbsProg Unit :=
  writer.putS3Object writer.bucketProperties.publicBucketName
    (S3BackupPaths.getCrossSignedCertificatePath id) backup.certBytes

end S3BackupWriter

/-! ## S3BackupReader -/

namespace S3BackupReader

variable (bucketProperties : BackupBucketProperties)

def tryGetS3Object (bucket key : JString) : MbsProg (Option Bytes) :=
  (do let bytes ← call (.getObject bucket key)
      return some bytes : MbsProg (Option Bytes)).handle (fun e =>
    if e.instanceOf .noSuchKeyException then return none
    else if e.instanceOf .sdkException then
      throw { cls := .backupAccessFailedException,
              message := u "Failed to read object: " ++ key ++ u " from bucket: " ++ bucket }
    else throw e)

/-- The names of the artifacts that were not found, in the order the reader checks them. -/
def missingFiles (certBytes kmsEncryptedDataKey aeadEncryptedPrivateKey attestationDocBytes :
    Option Bytes) : List JString :=
  (if certBytes.isNone then [S3BackupPaths.rootCertFile] else []) ++
  (if kmsEncryptedDataKey.isNone then [S3BackupPaths.kmsEncryptedDataKeyFile] else []) ++
  (if aeadEncryptedPrivateKey.isNone then [S3BackupPaths.aesEncryptedPrivateKeyFile] else []) ++
  (if attestationDocBytes.isNone then [S3BackupPaths.attestationDocFile] else [])

/-- The backup, or the exception that says what is missing. -/
def assemble (epoch : Epoch) (certBytes kmsEncryptedDataKey aeadEncryptedPrivateKey
    attestationDocBytes : Option Bytes) : Except Throwable SelfSignedBundleBackup :=
  match certBytes, kmsEncryptedDataKey, aeadEncryptedPrivateKey, attestationDocBytes with
  | some cert, some kms, some aead, some doc => .ok ⟨cert, kms, aead, doc⟩
  | certBytes, kmsEncryptedDataKey, aeadEncryptedPrivateKey, attestationDocBytes =>
    let missing := missingFiles certBytes kmsEncryptedDataKey aeadEncryptedPrivateKey
      attestationDocBytes
    if missing.length = 4 then .error
      { cls := .backupNotFoundException,
        message := u "Self-signed bundle backup absent for epoch " ++ intToString epoch }
    else if certBytes.isNone then .error
      { cls := .backupPartiallyWrittenException,
        message := u "Self-signed bundle backup partially written for epoch " ++
          intToString epoch ++ u ", missing " ++ listToString missing }
    else .error
      { cls := .backupIncompleteException,
        message := u "Self-signed bundle backup incomplete, missing " ++ listToString missing }

def readSelfSignedBundleBackup (epoch : Epoch) : MbsProg SelfSignedBundleBackup := do
  let certBytes ← tryGetS3Object bucketProperties.publicBucketName
    (S3BackupPaths.getRootCertPath epoch)
  let kmsEncryptedDataKey ← tryGetS3Object bucketProperties.privateBucketName
    (S3BackupPaths.getKmsEncryptedDataKeyPath epoch)
  let aeadEncryptedPrivateKey ← tryGetS3Object bucketProperties.privateBucketName
    (S3BackupPaths.getAesEncryptedPrivateKeyPath epoch)
  let attestationDocBytes ← tryGetS3Object bucketProperties.publicBucketName
    (S3BackupPaths.getAttestationDocPath epoch)
  Prog.ofExcept (assemble epoch certBytes kmsEncryptedDataKey aeadEncryptedPrivateKey
    attestationDocBytes)

def readCrossSignedCertificateBackup (id : CrossSignedCertificateId) :
    MbsProg CrossSignedCertificateBackup := do
  let certBytes ← tryGetS3Object bucketProperties.publicBucketName
    (S3BackupPaths.getCrossSignedCertificatePath id)
  match certBytes with
  | some cert => return ⟨cert⟩
  | none => throw { cls := .backupNotFoundException,
                    message := u "Cross-signed certificate absent for " ++ id.toKeyString }

end S3BackupReader

/-! ## Handles over S3 -/

/-- `synchronized` on the handle around `p`. -/
def withMonitor {α : Type} (handle : HandleRef) (p : MbsProg α) : MbsProg α := do
  call (.monitorEnter handle)
  p.finallyDo (call (.monitorExit handle))

/-- `S3CompleteSelfSignedBundleBackupHandle.read`. -/
def readSelfSignedHandle (bucketProperties : BackupBucketProperties) (generation : Nat)
    (epoch : Epoch) : MbsProg SelfSignedBundleBackup :=
  withMonitor (.selfSigned generation epoch) (do
    let cachedBackup : Option SelfSignedBundleBackup ← call (.getCachedBackup generation epoch)
    match cachedBackup with
    | some backup => return backup
    | none => do
      let backup ← S3BackupReader.readSelfSignedBundleBackup bucketProperties epoch
      call (.setCachedBackup generation epoch backup)
      return backup)

/-- `S3CompleteCrossSignedCertificateBackupHandle.read`. -/
def readCrossSignedHandle (bucketProperties : BackupBucketProperties) (generation : Nat)
    (id : CrossSignedCertificateId) : MbsProg CrossSignedCertificateBackup :=
  withMonitor (.crossSigned generation id) (do
    let cachedBackup : Option CrossSignedCertificateBackup ←
      call (.getCachedCrossSigned generation id)
    match cachedBackup with
    | some backup => return backup
    | none => do
      let backup ← S3BackupReader.readCrossSignedCertificateBackup bucketProperties id
      call (.setCachedCrossSigned generation id backup)
      return backup)

namespace S3StorageSnapshot

variable (writer : S3BackupWriter) (snapshot : S3StorageSnapshot)

def getSelfSignedBundleBackupHandle (epoch : Epoch) : SelfSignedBundleBackupHandle MbsProg :=
  match snapshot.selfSignedBundleBackupHandles epoch with
  | some (.complete generation epoch _) =>
    .complete epoch (readSelfSignedHandle writer.bucketProperties generation epoch)
  | some (.partiallyWritten epoch missingKeys) => .partiallyWritten epoch missingKeys
  | some (.incomplete epoch missingKeys) => .incomplete epoch missingKeys
  | none => .empty epoch (writer.writeSelfSignedBundleBackup epoch)

def getCrossSignedCertificateBackupHandle (id : CrossSignedCertificateId) :
    CrossSignedCertificateBackupHandle MbsProg :=
  match snapshot.crossSignedCertificateBackupHandles id with
  | some handle =>
    .complete handle.id (readCrossSignedHandle writer.bucketProperties handle.generation handle.id)
  | none => .empty id (writer.writeCrossSignedCertificateBackup id)

/-- The snapshot as its callers see it. -/
def toStorageSnapshot : StorageSnapshot MbsProg where
  getSelfSignedBundleBackupHandle := getSelfSignedBundleBackupHandle writer snapshot
  getCrossSignedCertificateBackupHandle := getCrossSignedCertificateBackupHandle writer snapshot

end S3StorageSnapshot

/-! ## S3BackupStorage -/

namespace S3BackupStorage

/-- `EnumSet.complementOf(presentElements)` as file names. -/
def missingFileNames (present : SelfSignedBundleBackupElement → Option JString) : List JString :=
  (SelfSignedBundleBackupElement.values.filter (fun element => (present element).isNone)).map
    S3BackupPaths.getFileName

def createSelfSignedBundleBackupHandle (generation : Nat) (epoch : Epoch)
    (present : SelfSignedBundleBackupElement → Option JString) : S3SelfSignedHandle :=
  if SelfSignedBundleBackupElement.values.all (fun element => (present element).isSome) then
    .complete generation epoch (fun element => (present element).getD [])
  -- The certificate is written last, so treat a backup lacking it as never completed.
  else if (present .cert).isSome then .incomplete epoch (missingFileNames present)
  else .partiallyWritten epoch (missingFileNames present)

/-- `elementETags.equals(present)`. -/
def sameETags (elementETags : SelfSignedBundleBackupElement → JString)
    (present : SelfSignedBundleBackupElement → Option JString) : Bool :=
  SelfSignedBundleBackupElement.values.all
    (fun element => some (elementETags element) = present element)

def reuseCachedSelfSignedBundleBackupHandleOrCreateNew (generation : Nat) (epoch : Epoch)
    (present : SelfSignedBundleBackupElement → Option JString) :
    Option S3SelfSignedHandle → S3SelfSignedHandle
  | some (.complete cached cachedEpoch elementETags) =>
    if sameETags elementETags present then .complete cached cachedEpoch elementETags
    else createSelfSignedBundleBackupHandle generation epoch present
  | _ => createSelfSignedBundleBackupHandle generation epoch present

def reuseCachedCrossSignedCertificateBackupHandleOrCreateNew (generation : Nat)
    (id : CrossSignedCertificateId) (eTag : JString) :
    Option S3CrossSignedHandle → S3CrossSignedHandle
  | some cached => if cached.eTag = eTag then cached else ⟨generation, id, eTag⟩
  | none => ⟨generation, id, eTag⟩

theorem epoch_createSelfSignedBundleBackupHandle (generation : Nat) (epoch : Epoch)
    (present : SelfSignedBundleBackupElement → Option JString) :
    (createSelfSignedBundleBackupHandle generation epoch present).epoch = epoch := by
  unfold createSelfSignedBundleBackupHandle
  split
  · rfl
  · split <;> rfl

theorem epoch_reuseOrCreate (generation : Nat) (epoch : Epoch)
    (present : SelfSignedBundleBackupElement → Option JString) (cached : Option S3SelfSignedHandle)
    (h : ∀ handle, cached = some handle → handle.epoch = epoch) :
    (reuseCachedSelfSignedBundleBackupHandleOrCreateNew generation epoch present cached).epoch =
      epoch := by
  unfold reuseCachedSelfSignedBundleBackupHandleOrCreateNew
  split
  · split
    · exact h _ rfl
    · exact epoch_createSelfSignedBundleBackupHandle generation epoch present
  · exact epoch_createSelfSignedBundleBackupHandle generation epoch present

/-- The new snapshot that `getSnapshot` computes inside `updateAndGet`; the handles it
creates belong to `generation`. -/
def nextSnapshot (generation : Nat) (eTagsByEpoch : ETagsByEpoch)
    (eTagsByCrossSignedId : ETagsByCrossSignedId) (previous : S3StorageSnapshot) :
    S3StorageSnapshot where
  selfSignedBundleBackupHandles epoch :=
    if SelfSignedBundleBackupElement.values.any
        (fun element => (eTagsByEpoch (epoch, element)).isSome) then
      some (reuseCachedSelfSignedBundleBackupHandleOrCreateNew generation epoch
        (fun element => eTagsByEpoch (epoch, element))
        (previous.selfSignedBundleBackupHandles epoch))
    else none
  crossSignedCertificateBackupHandles id :=
    (eTagsByCrossSignedId id).map (fun eTag =>
      reuseCachedCrossSignedCertificateBackupHandleOrCreateNew generation id eTag
        (previous.crossSignedCertificateBackupHandles id))
  epoch_eq := by
    intro epoch handle h
    split at h
    · rw [← Option.some.inj h]
      exact epoch_reuseOrCreate _ _ _ _ (previous.epoch_eq epoch)
    · cases h
  id_eq := by
    intro id handle h
    obtain ⟨eTag, -, rfl⟩ := Option.map_eq_some_iff.mp h
    unfold reuseCachedCrossSignedCertificateBackupHandleOrCreateNew
    split
    · next cached hcached =>
      split
      · exact previous.id_eq id cached hcached
      · rfl
    · rfl

/-- A complete handle has the ETags that were listed; it is new, or the previous one. -/
def FromListing (generation : Nat) (eTagsByEpoch : ETagsByEpoch) (previous : S3StorageSnapshot)
    (epoch : Epoch) (cached : Nat) (elementETags : SelfSignedBundleBackupElement → JString) :
    Prop :=
  (∀ element, eTagsByEpoch (epoch, element) = some (elementETags element)) ∧
    (cached = generation ∨
      previous.selfSignedBundleBackupHandles epoch = some (.complete cached epoch elementETags))

theorem mem_values (element : SelfSignedBundleBackupElement) :
    element ∈ SelfSignedBundleBackupElement.values := by
  cases element <;> decide

theorem createSelfSignedBundleBackupHandle_cases (generation : Nat) (epoch : Epoch)
    (present : SelfSignedBundleBackupElement → Option JString) :
    (∃ elementETags, createSelfSignedBundleBackupHandle generation epoch present =
      .complete generation epoch elementETags ∧
      ∀ element, present element = some (elementETags element)) ∨
    (∃ missingKeys, createSelfSignedBundleBackupHandle generation epoch present =
      .incomplete epoch missingKeys ∧ present .cert ≠ none ∧ ∃ element, present element = none) ∨
    (∃ missingKeys, createSelfSignedBundleBackupHandle generation epoch present =
      .partiallyWritten epoch missingKeys ∧ present .cert = none) := by
  unfold createSelfSignedBundleBackupHandle
  split
  · next hall =>
    refine .inl ⟨_, rfl, fun element => ?_⟩
    have hsome := List.all_eq_true.mp hall element (mem_values element)
    obtain ⟨eTag, heTag⟩ := Option.isSome_iff_exists.mp hsome
    rw [heTag]
    rfl
  · next hall =>
    split
    · next hcert =>
      refine .inr (.inl ⟨_, rfl, Option.isSome_iff_ne_none.mp hcert, ?_⟩)
      by_contra hnone
      apply hall
      rw [List.all_eq_true]
      intro element _
      exact Option.isSome_iff_ne_none.mpr (fun h => hnone ⟨element, h⟩)
    · next hcert => exact .inr (.inr ⟨_, rfl, by simpa using hcert⟩)

/-- What the handle of an epoch says about the ETags that were listed. -/
theorem nextSnapshot_cases (generation : Nat) (eTagsByEpoch : ETagsByEpoch)
    (eTagsByCrossSignedId : ETagsByCrossSignedId) (previous : S3StorageSnapshot) (epoch : Epoch) :
    let handle := (nextSnapshot generation eTagsByEpoch eTagsByCrossSignedId
      previous).selfSignedBundleBackupHandles epoch
    (handle = none ∧ ∀ element, eTagsByEpoch (epoch, element) = none) ∨
    (∃ cached elementETags, handle = some (.complete cached epoch elementETags) ∧
      FromListing generation eTagsByEpoch previous epoch cached elementETags) ∨
    (∃ missingKeys, handle = some (.incomplete epoch missingKeys) ∧
      eTagsByEpoch (epoch, .cert) ≠ none ∧ ∃ element, eTagsByEpoch (epoch, element) = none) ∨
    (∃ missingKeys, handle = some (.partiallyWritten epoch missingKeys) ∧
      eTagsByEpoch (epoch, .cert) = none) := by
  intro handle
  have hcreate := createSelfSignedBundleBackupHandle_cases generation epoch
    (fun element => eTagsByEpoch (epoch, element))
  simp only [handle, nextSnapshot]
  split
  · right
    unfold reuseCachedSelfSignedBundleBackupHandleOrCreateNew
    split
    · next cached cachedEpoch elementETags hprevious =>
      have hepoch : cachedEpoch = epoch := previous.epoch_eq epoch _ hprevious
      subst hepoch
      split
      · next hsame =>
        refine .inl ⟨cached, elementETags, rfl, fun element => ?_, .inr hprevious⟩
        exact (of_decide_eq_true (List.all_eq_true.mp hsame element (mem_values element))).symm
      · rcases hcreate with ⟨eTags, h, hpresent⟩ | ⟨keys, h, hpresent⟩ | ⟨keys, h, hpresent⟩
        · exact .inl ⟨generation, eTags, by rw [h], hpresent, .inl rfl⟩
        · exact .inr (.inl ⟨keys, by rw [h], hpresent⟩)
        · exact .inr (.inr ⟨keys, by rw [h], hpresent⟩)
    · rcases hcreate with ⟨eTags, h, hpresent⟩ | ⟨keys, h, hpresent⟩ | ⟨keys, h, hpresent⟩
      · exact .inl ⟨generation, eTags, by rw [h], hpresent, .inl rfl⟩
      · exact .inr (.inl ⟨keys, by rw [h], hpresent⟩)
      · exact .inr (.inr ⟨keys, by rw [h], hpresent⟩)
  · next hnone =>
    refine .inl ⟨rfl, fun element => ?_⟩
    by_contra hsome
    apply hnone
    rw [List.any_eq_true]
    exact ⟨element, mem_values element, Option.isSome_iff_ne_none.mpr hsome⟩

theorem nextSnapshot_complete {generation : Nat} {eTagsByEpoch : ETagsByEpoch}
    {eTagsByCrossSignedId : ETagsByCrossSignedId} {previous : S3StorageSnapshot}
    {epoch epoch' : Epoch} {cached : Nat} {elementETags : SelfSignedBundleBackupElement → JString}
    (h : (nextSnapshot generation eTagsByEpoch eTagsByCrossSignedId
      previous).selfSignedBundleBackupHandles epoch = some (.complete cached epoch' elementETags)) :
    FromListing generation eTagsByEpoch previous epoch cached elementETags := by
  rcases nextSnapshot_cases generation eTagsByEpoch eTagsByCrossSignedId previous epoch with
    ⟨hnone, -⟩ | ⟨cached', eTags, hcomplete, hlisting⟩ | ⟨keys, hincomplete, -⟩ | ⟨keys, hlacking, -⟩
  · rw [hnone] at h
    cases h
  · rw [hcomplete] at h
    cases h
    exact hlisting
  · rw [hincomplete] at h
    cases h
  · rw [hlacking] at h
    cases h

/-- The handle has the ETag that was listed; it is new, or the previous one. -/
theorem nextSnapshot_crossSigned {generation : Nat} {eTagsByEpoch : ETagsByEpoch}
    {eTagsByCrossSignedId : ETagsByCrossSignedId} {previous : S3StorageSnapshot}
    {id : CrossSignedCertificateId} {handle : S3CrossSignedHandle}
    (h : (nextSnapshot generation eTagsByEpoch eTagsByCrossSignedId
      previous).crossSignedCertificateBackupHandles id = some handle) :
    eTagsByCrossSignedId id = some handle.eTag ∧
      (handle.generation = generation ∨
        previous.crossSignedCertificateBackupHandles id = some handle) := by
  obtain ⟨eTag, heTag, hreuse⟩ := Option.map_eq_some_iff.mp h
  unfold reuseCachedCrossSignedCertificateBackupHandleOrCreateNew at hreuse
  split at hreuse
  · next cached hcached =>
    split at hreuse
    · next hsame =>
      subst hreuse
      exact ⟨hsame ▸ heTag, .inr hcached⟩
    · subst hreuse
      exact ⟨heTag, .inl rfl⟩
  · subst hreuse
    exact ⟨heTag, .inl rfl⟩

def listBucket (bucket keyPrefix : JString) : MbsProg (List S3ObjectSummary) :=
  (call (.listObjectsV2 bucket keyPrefix)).handle (fun e =>
    if e.instanceOf .sdkException then
      throw { cls := .backupAccessFailedException,
              message := u "Failed to list prefix: " ++ keyPrefix ++ u " of bucket: " ++ bucket }
    else throw e)

/-- What the two listings record. -/
def recordPublic (objects : List S3ObjectSummary) : ETagsByEpoch × ETagsByCrossSignedId :=
  (objects.foldl (recordSelfSignedBundleBackupElement publicElements) (fun _ => none),
   objects.foldl recordCrossSignedCertificate (fun _ => none))

def recordPrivate (eTagsByEpoch : ETagsByEpoch) (objects : List S3ObjectSummary) : ETagsByEpoch :=
  objects.foldl (recordSelfSignedBundleBackupElement privateElements) eTagsByEpoch

variable (writer : S3BackupWriter)

/-- `getSnapshot`, up to the copy handed to the caller. -/
def takeSnapshot : MbsProg S3StorageSnapshot := do
  let publicObjects ← listBucket writer.bucketProperties.publicBucketName
    S3BackupPaths.publicPrefix
  let (eTagsByEpoch, eTagsByCrossSignedId) := recordPublic publicObjects
  let privateObjects ← listBucket writer.bucketProperties.privateBucketName
    S3BackupPaths.privatePrefix
  let eTagsByEpoch := recordPrivate eTagsByEpoch privateObjects
  call (.updateCachedSnapshot eTagsByEpoch eTagsByCrossSignedId)

def getSnapshot : MbsProg (StorageSnapshot MbsProg) := do
  let updated ← takeSnapshot writer
  return updated.toStorageSnapshot writer

def storage : BackupStorage MbsProg where
  acquireLock := writer.acquireLock
  releaseLock := writer.releaseLock
  getSnapshot := getSnapshot writer

end S3BackupStorage
end Mbs
