import TransparentCa.Mbs.WriterSafety

/- Handles that outlive their snapshot. One `S3BackupStorage` keeps the snapshot of its last
   `getSnapshot` and hands its complete handles out again as long as the listed ETags are
   those the handle was made with. A handle keeps what its first `read` got. Threads take
   snapshots and read handles in any interleaving while the buckets change from outside.

   The ETags are those of the listing, the bytes those of the first read, so the two fit
   together iff the read still finds what was listed (`FindsRecorded`). In runs where it
   does, what a handle keeps is the content of its ETags (`Memoized`), and a read is as good
   as a fresh one. -/
namespace Mbs
open Java Effects AssocList

/-! ## The storage and its handles -/

/-- The buckets, and the memory of one `S3BackupStorage`: the handles are those that some
update of the snapshot created, each with its ETags, what it keeps, and its monitor. -/
structure S3StorageState (I : Type) where
  buckets : Buckets
  generation : Nat
  cachedSnapshot : S3StorageSnapshot
  elementETags : Nat → Epoch → Option (SelfSignedBundleBackupElement → JString)
  crossSignedETag : Nat → CrossSignedCertificateId → Option JString
  cachedBackup : Nat → Epoch → Option SelfSignedBundleBackup
  cachedCrossSigned : Nat → CrossSignedCertificateId → Option CrossSignedCertificateBackup
  monitor : HandleRef → Option I

namespace S3StorageState

variable {I : Type}

/-- A new `S3BackupStorage`. -/
def fresh (buckets : Buckets) : S3StorageState I where
  buckets := buckets
  generation := 0
  cachedSnapshot := .empty
  elementETags _ _ := none
  crossSignedETag _ _ := none
  cachedBackup _ _ := none
  cachedCrossSigned _ _ := none
  monitor _ := none

/-- `cachedSnapshot.updateAndGet`: the handles of the new snapshot that are not reused come
into being, with nothing read yet. -/
def update (s : S3StorageState I) (eTagsByEpoch : ETagsByEpoch)
    (eTagsByCrossSignedId : ETagsByCrossSignedId) : S3StorageState I :=
  let next := S3BackupStorage.nextSnapshot s.generation eTagsByEpoch eTagsByCrossSignedId
    s.cachedSnapshot
  { s with
    generation := s.generation + 1
    cachedSnapshot := next
    elementETags := fun generation epoch =>
      if generation = s.generation then
        match next.selfSignedBundleBackupHandles epoch with
        | some (.complete created _ eTags) => if created = s.generation then some eTags else none
        | _ => none
      else s.elementETags generation epoch
    crossSignedETag := fun generation id =>
      if generation = s.generation then
        match next.crossSignedCertificateBackupHandles id with
        | some handle => if handle.generation = s.generation then some handle.eTag else none
        | none => none
      else s.crossSignedETag generation id }

def setMonitor (s : S3StorageState I) (handle : HandleRef) (owner : Option I) : S3StorageState I :=
  { s with monitor := Function.update s.monitor handle owner }

def setCachedBackup (s : S3StorageState I) (generation : Nat) (epoch : Epoch)
    (backup : SelfSignedBundleBackup) : S3StorageState I :=
  { s with
    cachedBackup := fun g e =>
      if g = generation ∧ e = epoch then some backup else s.cachedBackup g e }

def setCachedCrossSigned (s : S3StorageState I) (generation : Nat) (id : CrossSignedCertificateId)
    (backup : CrossSignedCertificateBackup) : S3StorageState I :=
  { s with
    cachedCrossSigned := fun g i =>
      if g = generation ∧ i = id then some backup else s.cachedCrossSigned g i }

/-- There is such a handle. -/
def Exists (s : S3StorageState I) : HandleRef → Prop
  | .selfSigned generation epoch => ∃ eTags, s.elementETags generation epoch = some eTags
  | .crossSigned generation id => ∃ eTag, s.crossSignedETag generation id = some eTag

end S3StorageState

/-- A call of thread `i`. A monitor is entered when it is free and left by its owner. -/
def storageStep {I : Type} (i : I) (s : S3StorageState I) (o : MbsOp) (r : Except Throwable o.Val)
    (s' : S3StorageState I) : Prop :=
  match o, r with
  | .getObject bucket key, r => S3Reads.atomic.get s.buckets bucket key r ∧ s' = s
  | .listObjectsV2 bucket keyPrefix, r => S3Reads.atomic.list s.buckets bucket keyPrefix r ∧ s' = s
  | .updateCachedSnapshot eTagsByEpoch eTagsByCrossSignedId, r =>
    r = .ok (s.update eTagsByEpoch eTagsByCrossSignedId).cachedSnapshot ∧
      s' = s.update eTagsByEpoch eTagsByCrossSignedId
  | .monitorEnter handle, r => s.Exists handle ∧ s.monitor handle = none ∧ r = .ok () ∧
      s' = s.setMonitor handle (some i)
  | .monitorExit handle, r => s.monitor handle = some i ∧ r = .ok () ∧
      s' = s.setMonitor handle none
  | .getCachedBackup generation epoch, r => r = .ok (s.cachedBackup generation epoch) ∧ s' = s
  | .setCachedBackup generation epoch backup, r => r = .ok () ∧
      s' = s.setCachedBackup generation epoch backup
  | .getCachedCrossSigned generation id, r =>
    r = .ok (s.cachedCrossSigned generation id) ∧ s' = s
  | .setCachedCrossSigned generation id backup, r => r = .ok () ∧
      s' = s.setCachedCrossSigned generation id backup
  | _, _ => s' = s

/-! ## Threads -/

inductive StorageTask where
  | getSnapshot
  | readSelfSigned (generation : Nat) (epoch : Epoch)
  | readCrossSigned (generation : Nat) (id : CrossSignedCertificateId)

inductive StorageOutcome where
  | snapshot (snapshot : S3StorageSnapshot)
  | selfSigned (backup : SelfSignedBundleBackup)
  | crossSigned (backup : CrossSignedCertificateBackup)

def StorageTask.program (writer : S3BackupWriter) : StorageTask → MbsProg StorageOutcome
  | .getSnapshot => do
    let snapshot ← S3BackupStorage.takeSnapshot writer
    return .snapshot snapshot
  | .readSelfSigned generation epoch => do
    let backup ← readSelfSignedHandle writer.bucketProperties generation epoch
    return .selfSigned backup
  | .readCrossSigned generation id => do
    let backup ← readCrossSignedHandle writer.bucketProperties generation id
    return .crossSigned backup

/-- Equal ETags mean equal contents. -/
def ETagsDetermine (contentOf : JString → Bytes) (s : Buckets) : Prop :=
  ∀ bucket key o, s bucket key = some o → o.content = contentOf o.eTag

/-- A get made inside the read of a handle finds, if anything, an object with the ETag that
the handle was made with. -/
def FindsRecorded {I : Type} (names : BucketNames) (i : I) (s : S3StorageState I) : MbsOp → Prop
  | .getObject bucket key =>
    (∀ generation epoch eTags element, s.monitor (.selfSigned generation epoch) = some i →
      s.elementETags generation epoch = some eTags → bucket = names.of element →
      key = elementPath element epoch → ∀ o, s.buckets bucket key = some o →
      o.eTag = eTags element) ∧
    (∀ generation id eTag, s.monitor (.crossSigned generation id) = some i →
      s.crossSignedETag generation id = some eTag → bucket = names.publicBucket →
      key = S3BackupPaths.getCrossSignedCertificatePath id → ∀ o, s.buckets bucket key = some o →
      o.eTag = eTag)
  | _ => True

section
variable {I : Type} [DecidableEq I] (writer : S3BackupWriter) (contentOf : JString → Bytes)
  (task : I → StorageTask)

/-- Each thread runs its task, any number of times, on handles that exist; the buckets change
in any way. -/
def storageSystem : System I (S3StorageState I) MbsOp MbsOp.Val Throwable StorageOutcome where
  init s := s = .fresh s.buckets ∧ ETagsDetermine contentOf s.buckets
  runs i p := p = (task i).program writer
  step := storageStep
  env s s' := s' = { s with buckets := s'.buckets } ∧ ETagsDetermine contentOf s'.buckets

/-- The runs in which every read finds what was listed. -/
def recordedSystem : System I (S3StorageState I) MbsOp MbsOp.Val Throwable StorageOutcome :=
  { storageSystem writer contentOf task with
    step := fun i s o r s' => storageStep i s o r s' ∧ FindsRecorded writer.names i s o }

end

/-! ## What the handles keep -/

/-- What a thread inside a handle's monitor knows of it. -/
inductive HeldHandle where
  | selfSigned (generation : Nat) (epoch : Epoch)
      (eTags : SelfSignedBundleBackupElement → JString)
  | crossSigned (generation : Nat) (id : CrossSignedCertificateId) (eTag : JString)

def HeldHandle.handle : HeldHandle → HandleRef
  | .selfSigned generation epoch _ => .selfSigned generation epoch
  | .crossSigned generation id _ => .crossSigned generation id

section
variable {I : Type}

def HeldHandle.In (s : S3StorageState I) : HeldHandle → Prop
  | .selfSigned generation epoch eTags => s.elementETags generation epoch = some eTags
  | .crossSigned generation id eTag => s.crossSignedETag generation id = some eTag

/-- The handles of the snapshot exist, and what a handle keeps is the content of its ETags. -/
structure Memoized (contentOf : JString → Bytes) (s : S3StorageState I) (ls : I → Option HeldHandle) :
    Prop where
  determine : ETagsDetermine contentOf s.buckets
  selfSigned_lt : ∀ generation epoch eTags, s.elementETags generation epoch = some eTags →
    generation < s.generation
  crossSigned_lt : ∀ generation id eTag, s.crossSignedETag generation id = some eTag →
    generation < s.generation
  selfSigned : ∀ epoch generation epoch' eTags,
    s.cachedSnapshot.selfSignedBundleBackupHandles epoch = some (.complete generation epoch' eTags) →
    s.elementETags generation epoch = some eTags
  crossSigned : ∀ id handle, s.cachedSnapshot.crossSignedCertificateBackupHandles id = some handle →
    s.crossSignedETag handle.generation id = some handle.eTag
  cachedBackup : ∀ generation epoch backup, s.cachedBackup generation epoch = some backup →
    ∃ eTags, s.elementETags generation epoch = some eTags ∧
      ∀ element, backup.part element = contentOf (eTags element)
  cachedCrossSigned : ∀ generation id backup, s.cachedCrossSigned generation id = some backup →
    ∃ eTag, s.crossSignedETag generation id = some eTag ∧ backup.certBytes = contentOf eTag
  inside : ∀ i x, ls i = some x → s.monitor x.handle = some i ∧ x.In s

/-- Handles stay, with their ETags. -/
structure HandlesKept (s s' : S3StorageState I) : Prop where
  selfSigned : ∀ generation epoch eTags, s.elementETags generation epoch = some eTags →
    s'.elementETags generation epoch = some eTags
  crossSigned : ∀ generation id eTag, s.crossSignedETag generation id = some eTag →
    s'.crossSignedETag generation id = some eTag

theorem HandlesKept.refl (s : S3StorageState I) : HandlesKept s s :=
  ⟨fun _ _ _ h => h, fun _ _ _ h => h⟩

theorem HandlesKept.trans {s s' s'' : S3StorageState I} (h : HandlesKept s s')
    (h' : HandlesKept s' s'') : HandlesKept s s'' :=
  ⟨fun g epoch eTags he => h'.selfSigned g epoch eTags (h.selfSigned g epoch eTags he),
    fun g id eTag he => h'.crossSigned g id eTag (h.crossSigned g id eTag he)⟩

theorem HandlesKept.in {s s' : S3StorageState I} (h : HandlesKept s s') {x : HeldHandle}
    (hx : x.In s) : x.In s' := by
  cases x with
  | selfSigned g epoch eTags => exact h.selfSigned g epoch eTags hx
  | crossSigned g id eTag => exact h.crossSigned g id eTag hx

section
variable {contentOf : JString → Bytes} {s : S3StorageState I} {ls : I → Option HeldHandle}

/-! ## Steps -/

theorem Memoized.kept_update (h : Memoized contentOf s ls) (eTagsByEpoch : ETagsByEpoch)
    (eTagsByCrossSignedId : ETagsByCrossSignedId) :
    HandlesKept s (s.update eTagsByEpoch eTagsByCrossSignedId) where
  selfSigned g epoch eTags he := by
    have hne : g ≠ s.generation := Nat.ne_of_lt (h.selfSigned_lt g epoch eTags he)
    simp only [S3StorageState.update, if_neg hne]
    exact he
  crossSigned g id eTag he := by
    have hne : g ≠ s.generation := Nat.ne_of_lt (h.crossSigned_lt g id eTag he)
    simp only [S3StorageState.update, if_neg hne]
    exact he

theorem Memoized.update (h : Memoized contentOf s ls) (eTagsByEpoch : ETagsByEpoch)
    (eTagsByCrossSignedId : ETagsByCrossSignedId) :
    Memoized contentOf (s.update eTagsByEpoch eTagsByCrossSignedId) ls := by
  have hkept := h.kept_update eTagsByEpoch eTagsByCrossSignedId
  refine ⟨h.determine, fun g epoch eTags he => ?_, fun g id eTag he => ?_,
    fun epoch g epoch' eTags hhandle => ?_, fun id handle hhandle => ?_,
    fun g epoch backup hcached => ?_, fun g id backup hcached => ?_, fun i x hx => ?_⟩
  · show g < s.generation + 1
    simp only [S3StorageState.update] at he
    split at he
    · omega
    · exact Nat.lt_succ_of_lt (h.selfSigned_lt g epoch eTags he)
  · show g < s.generation + 1
    simp only [S3StorageState.update] at he
    split at he
    · omega
    · exact Nat.lt_succ_of_lt (h.crossSigned_lt g id eTag he)
  · -- A handle of the new snapshot was created for it, or was in the previous one.
    simp only [S3StorageState.update] at hhandle
    rcases (S3BackupStorage.nextSnapshot_complete hhandle).2 with rfl | hprevious
    · simp only [S3StorageState.update, if_true, hhandle]
    · exact hkept.selfSigned g epoch eTags (h.selfSigned epoch g epoch eTags hprevious)
  · simp only [S3StorageState.update] at hhandle
    rcases (S3BackupStorage.nextSnapshot_crossSigned hhandle).2 with hnew | hprevious
    · simp only [S3StorageState.update, hnew, if_true, hhandle]
    · exact hkept.crossSigned _ id _ (h.crossSigned id handle hprevious)
  · obtain ⟨eTags, he, hparts⟩ := h.cachedBackup g epoch backup hcached
    exact ⟨eTags, hkept.selfSigned g epoch eTags he, hparts⟩
  · obtain ⟨eTag, he, hcert⟩ := h.cachedCrossSigned g id backup hcached
    exact ⟨eTag, hkept.crossSigned g id eTag he, hcert⟩
  · exact ⟨(h.inside i x hx).1, hkept.in (h.inside i x hx).2⟩

theorem Memoized.setCachedBackup (h : Memoized contentOf s ls) {generation : Nat} {epoch : Epoch}
    {eTags : SelfSignedBundleBackupElement → JString}
    (he : s.elementETags generation epoch = some eTags) {backup : SelfSignedBundleBackup}
    (hparts : ∀ element, backup.part element = contentOf (eTags element)) :
    Memoized contentOf (s.setCachedBackup generation epoch backup) ls :=
  { h with
    cachedBackup := by
      intro g epoch' backup' hcached
      simp only [S3StorageState.setCachedBackup] at hcached
      split at hcached
      · next hsame =>
        obtain ⟨rfl, rfl⟩ := hsame
        obtain rfl := Option.some.inj hcached
        exact ⟨eTags, he, hparts⟩
      · exact h.cachedBackup g epoch' backup' hcached }

theorem Memoized.setCachedCrossSigned (h : Memoized contentOf s ls) {generation : Nat}
    {id : CrossSignedCertificateId} {eTag : JString}
    (he : s.crossSignedETag generation id = some eTag) {backup : CrossSignedCertificateBackup}
    (hcert : backup.certBytes = contentOf eTag) :
    Memoized contentOf (s.setCachedCrossSigned generation id backup) ls :=
  { h with
    cachedCrossSigned := by
      intro g id' backup' hcached
      simp only [S3StorageState.setCachedCrossSigned] at hcached
      split at hcached
      · next hsame =>
        obtain ⟨rfl, rfl⟩ := hsame
        obtain rfl := Option.some.inj hcached
        exact ⟨eTag, he, hcert⟩
      · exact h.cachedCrossSigned g id' backup' hcached }

variable [DecidableEq I] {i : I}

/-- A thread forgets where it is. -/
theorem Memoized.forget (h : Memoized contentOf s ls) :
    Memoized contentOf s (Function.update ls i none) :=
  { h with
    inside := by
      intro j x hx
      rcases update_cases hx with ⟨-, hnone⟩ | ⟨-, hx⟩
      · cases hnone
      · exact h.inside j x hx }

theorem Memoized.enter (h : Memoized contentOf s ls) {x : HeldHandle} (hx : x.In s)
    (hfree : s.monitor x.handle = none) :
    Memoized contentOf (s.setMonitor x.handle (some i)) (Function.update ls i (some x)) :=
  { h with
    inside := by
      intro j y hy
      rcases update_cases hy with ⟨rfl, hxy⟩ | ⟨-, hy⟩
      · obtain rfl := Option.some.inj hxy
        exact ⟨Function.update_self .., hx⟩
      · obtain ⟨howner, hin⟩ := h.inside j y hy
        have hne : y.handle ≠ x.handle := by
          intro heq
          rw [heq, hfree] at howner
          cases howner
        exact ⟨(Function.update_of_ne hne ..).trans howner, hin⟩ }

theorem Memoized.exit (h : Memoized contentOf s ls) {handle : HandleRef}
    (hown : s.monitor handle = some i) :
    Memoized contentOf (s.setMonitor handle none) (Function.update ls i none) :=
  { h with
    inside := by
      intro j y hy
      rcases update_cases hy with ⟨-, hnone⟩ | ⟨hji, hy⟩
      · cases hnone
      · obtain ⟨howner, hin⟩ := h.inside j y hy
        have hne : y.handle ≠ handle := by
          intro heq
          rw [heq, hown] at howner
          exact hji (Option.some.inj howner).symm
        exact ⟨(Function.update_of_ne hne ..).trans howner, hin⟩ }

end

/-! ## Programs -/

variable [DecidableEq I]

def memoOutline (contentOf : JString → Bytes) :
    Outline I (S3StorageState I) MbsOp MbsOp.Val Throwable StorageOutcome (Option HeldHandle) where
  inv s _ ls := Memoized contentOf s ls
  idle _ := True
  guar := HandlesKept

variable {writer : S3BackupWriter} {contentOf : JString → Bytes} {task : I → StorageTask} {i : I}
  {l : Option HeldHandle}

/-- A get that finds the recorded ETag returns its content. -/
theorem memo_ok_tryGet {bucket key eTag : JString}
    (hrecorded : ∀ s ls, Memoized contentOf s ls → ls i = l →
      FindsRecorded writer.names i s (.getObject bucket key) →
      ∀ o, s.buckets bucket key = some o → o.eTag = eTag) :
    (memoOutline contentOf).Ok (recordedSystem writer contentOf task) i l
      (S3BackupReader.tryGetS3Object bucket key)
      (fun l' r => l' = l ∧ ∀ bytes, r = .ok (some bytes) → bytes = contentOf eTag) := by
  apply Outline.Ok.handle
  apply Outline.Ok.bind
  apply Outline.Ok.invoke_keep
  intro s log ls hinv hl r s' hstep
  obtain ⟨⟨hget, rfl⟩, hfinds⟩ := hstep
  refine ⟨.refl _, hinv, ?_⟩
  cases r with
  | ok bytes =>
    obtain ⟨eTag', hfound⟩ := hget
    refine ⟨rfl, fun bytes' hbytes => ?_⟩
    obtain rfl : bytes = bytes' := by simpa using hbytes
    rw [← hrecorded _ ls hinv hl hfinds _ hfound]
    exact hinv.determine bucket key _ hfound
  | error e =>
    show Outline.Ok _ _ i l (if _ then _ else _) _
    split
    · exact ⟨rfl, fun b hb => by cases hb⟩
    · split
      · exact ⟨rfl, fun b hb => by cases hb⟩
      · exact ⟨rfl, fun b hb => by cases hb⟩

theorem assemble_eq_ok {epoch : Epoch} {cert kms aead doc : Option Bytes}
    {backup : SelfSignedBundleBackup}
    (h : S3BackupReader.assemble epoch cert kms aead doc = .ok backup) :
    cert = some backup.certBytes ∧ kms = some backup.kmsEncryptedDataKey ∧
      aead = some backup.aeadEncryptedPrivateKey ∧ doc = some backup.attestationDocBytes := by
  unfold S3BackupReader.assemble at h
  split at h
  · obtain rfl := Except.ok.inj h
    exact ⟨rfl, rfl, rfl, rfl⟩
  · simp only at h
    split at h
    · cases h
    · split at h <;> cases h

theorem memo_ok_readSelfSignedBundleBackup {generation : Nat} {epoch : Epoch}
    {eTags : SelfSignedBundleBackupElement → JString} :
    (memoOutline contentOf).Ok (recordedSystem writer contentOf task) i
      (some (.selfSigned generation epoch eTags))
      (S3BackupReader.readSelfSignedBundleBackup writer.bucketProperties epoch)
      (fun l' r => l' = some (.selfSigned generation epoch eTags) ∧
        ∀ backup, r = .ok backup → ∀ element, backup.part element = contentOf (eTags element)) := by
  have hget : ∀ element, (memoOutline contentOf).Ok (recordedSystem writer contentOf task) i
      (some (.selfSigned generation epoch eTags)) (getArtifact writer.names epoch element)
      (fun l' r => l' = some (.selfSigned generation epoch eTags) ∧
        ∀ bytes, r = .ok (some bytes) → bytes = contentOf (eTags element)) := by
    intro element
    apply memo_ok_tryGet
    intro s ls hinv hl hfinds o ho
    obtain ⟨howner, hin⟩ := hinv.inside i _ hl
    exact hfinds.1 generation epoch eTags element howner hin rfl rfl o ho
  rw [readSelfSignedBundleBackup_eq writer.on_names]
  refine Outline.Ok.seq (hget .cert) (fun _ cert ⟨hkept, hcert⟩ => ?_) (fun _ _ h => ⟨h.1, nofun⟩)
  subst hkept
  refine Outline.Ok.seq (hget .kmsDataKey) (fun _ kms ⟨hkept, hkms⟩ => ?_)
    (fun _ _ h => ⟨h.1, nofun⟩)
  subst hkept
  refine Outline.Ok.seq (hget .privateKey) (fun _ aead ⟨hkept, haead⟩ => ?_)
    (fun _ _ h => ⟨h.1, nofun⟩)
  subst hkept
  refine Outline.Ok.seq (hget .attestationDoc) (fun _ doc ⟨hkept, hdoc⟩ => ?_)
    (fun _ _ h => ⟨h.1, nofun⟩)
  subst hkept
  apply Outline.Ok.ofExcept
  refine ⟨rfl, fun backup hbackup element => ?_⟩
  obtain ⟨rfl, rfl, rfl, rfl⟩ := assemble_eq_ok hbackup
  cases element with
  | cert => exact hcert _ rfl
  | attestationDoc => exact hdoc _ rfl
  | kmsDataKey => exact hkms _ rfl
  | privateKey => exact haead _ rfl

theorem memo_ok_readCrossSignedCertificateBackup {generation : Nat}
    {id : CrossSignedCertificateId} {eTag : JString} :
    (memoOutline contentOf).Ok (recordedSystem writer contentOf task) i
      (some (.crossSigned generation id eTag))
      (S3BackupReader.readCrossSignedCertificateBackup writer.bucketProperties id)
      (fun l' r => l' = some (.crossSigned generation id eTag) ∧
        ∀ backup, r = .ok backup → backup.certBytes = contentOf eTag) := by
  have hget : (memoOutline contentOf).Ok (recordedSystem writer contentOf task) i
      (some (.crossSigned generation id eTag))
      (S3BackupReader.tryGetS3Object writer.bucketProperties.publicBucketName
        (S3BackupPaths.getCrossSignedCertificatePath id))
      (fun l' r => l' = some (.crossSigned generation id eTag) ∧
        ∀ bytes, r = .ok (some bytes) → bytes = contentOf eTag) := by
    apply memo_ok_tryGet
    intro s ls hinv hl hfinds o ho
    obtain ⟨howner, hin⟩ := hinv.inside i _ hl
    exact hfinds.2 generation id eTag howner hin rfl rfl o ho
  refine Outline.Ok.seq hget (fun _ found ⟨hkept, hcert⟩ => ?_) (fun _ _ h => ⟨h.1, nofun⟩)
  subst hkept
  cases found with
  | none => exact ⟨rfl, nofun⟩
  | some cert =>
    refine ⟨rfl, fun backup hbackup => ?_⟩
    obtain rfl := Except.ok.inj hbackup
    exact hcert cert rfl

/-- A program that works inside the monitor of its handle. -/
theorem memo_ok_withMonitor {α : Type} {handle : HandleRef} {p : MbsProg α}
    (hp : ∀ x : HeldHandle, x.handle = handle →
      (memoOutline contentOf).Ok (recordedSystem writer contentOf task) i (some x) p
        (fun l' _ => l' = some x)) :
    (memoOutline contentOf).Anywhere (recordedSystem writer contentOf task) i
      (withMonitor handle p) := by
  intro l
  apply Outline.Ok.bind
  apply Outline.Ok.invoke
  intro s log ls hinv hl r s' hstep
  obtain ⟨⟨hexists, hfree, rfl, rfl⟩, -⟩ := hstep
  have hheld : ∃ x : HeldHandle, x.handle = handle ∧ x.In s := by
    cases handle with
    | selfSigned g epoch =>
      obtain ⟨eTags, he⟩ := hexists
      exact ⟨.selfSigned g epoch eTags, rfl, he⟩
    | crossSigned g id =>
      obtain ⟨eTag, he⟩ := hexists
      exact ⟨.crossSigned g id eTag, rfl, he⟩
  obtain ⟨x, rfl, hx⟩ := hheld
  refine ⟨⟨fun _ _ _ h => h, fun _ _ _ h => h⟩, some x, hinv.enter hx hfree, ?_⟩
  apply Outline.Ok.bind
  apply Outline.Ok.handle
  apply Outline.Ok.bind
  apply (hp x rfl).mono
  intro l₁ r₁ hl₁
  subst hl₁
  -- Whatever the outcome, the monitor is left.
  have hexit : ∀ r₁ : Except Throwable α, (memoOutline contentOf).Ok
      (recordedSystem writer contentOf task) i (some x)
      ((call (.monitorExit x.handle)).bind (fun _ => Prog.ofExcept r₁)) (fun _ _ => True) := by
    intro r₁
    apply Outline.Ok.bind
    apply Outline.Ok.invoke
    intro s log ls hinv hl r s' hstep
    obtain ⟨⟨howner, rfl, rfl⟩, -⟩ := hstep
    refine ⟨⟨fun _ _ _ h => h, fun _ _ _ h => h⟩, none, hinv.exit howner, ?_⟩
    exact Outline.Ok.ofExcept trivial
  cases r₁ with
  | ok a => exact hexit (.ok a)
  | error e => exact hexit (.error e)

/-- What the two kinds of handle have in common. -/
def memoRead {α : Type} (handle : HandleRef) (cached : MbsProg (Option α)) (read : MbsProg α)
    (set : α → MbsProg Unit) : MbsProg α :=
  withMonitor handle (cached.bind (fun found => match found with
    | some backup => .ret backup
    | none => read.bind (fun backup => (set backup).bind (fun _ => .ret backup))))

theorem readSelfSignedHandle_eq (bucketProperties : BackupBucketProperties) (generation : Nat)
    (epoch : Epoch) : readSelfSignedHandle bucketProperties generation epoch =
      memoRead (.selfSigned generation epoch) (call (.getCachedBackup generation epoch))
        (S3BackupReader.readSelfSignedBundleBackup bucketProperties epoch)
        (fun backup => call (.setCachedBackup generation epoch backup)) := by
  refine congrArg (fun f => withMonitor _ (Prog.bind _ f)) ?_
  funext found
  cases found <;> rfl

theorem readCrossSignedHandle_eq (bucketProperties : BackupBucketProperties) (generation : Nat)
    (id : CrossSignedCertificateId) : readCrossSignedHandle bucketProperties generation id =
      memoRead (.crossSigned generation id) (call (.getCachedCrossSigned generation id))
        (S3BackupReader.readCrossSignedCertificateBackup bucketProperties id)
        (fun backup => call (.setCachedCrossSigned generation id backup)) := by
  refine congrArg (fun f => withMonitor _ (Prog.bind _ f)) ?_
  funext found
  cases found <;> rfl

/-- What is read may be kept. -/
theorem memo_anywhere_memoRead {α : Type} {handle : HandleRef} {cached : MbsProg (Option α)}
    {read : MbsProg α} {set : α → MbsProg Unit} {G : HeldHandle → α → Prop}
    (hcached : ∀ x : HeldHandle, x.handle = handle →
      (memoOutline contentOf).Ok (recordedSystem writer contentOf task) i (some x) cached
        (fun l' _ => l' = some x))
    (hread : ∀ x : HeldHandle, x.handle = handle →
      (memoOutline contentOf).Ok (recordedSystem writer contentOf task) i (some x) read
        (fun l' r => l' = some x ∧ ∀ a, r = .ok a → G x a))
    (hset : ∀ x a, x.handle = handle → G x a →
      (memoOutline contentOf).Ok (recordedSystem writer contentOf task) i (some x) (set a)
        (fun l' _ => l' = some x)) :
    (memoOutline contentOf).Anywhere (recordedSystem writer contentOf task) i
      (memoRead handle cached read set) := by
  apply memo_ok_withMonitor
  intro x hx
  refine Outline.Ok.seq (hcached x hx) (fun _ found hkept => ?_) (fun _ _ hkept => hkept)
  subst hkept
  cases found with
  | some backup => exact rfl
  | none =>
    refine Outline.Ok.seq (hread x hx) (fun _ a ⟨hkept, hgood⟩ => ?_) (fun _ _ h => h.1)
    subst hkept
    exact Outline.Ok.seq (hset x a hx (hgood a rfl)) (fun _ _ hkept => hkept)
      (fun _ _ hkept => hkept)

theorem memo_anywhere_readSelfSignedHandle (generation : Nat) (epoch : Epoch) :
    (memoOutline contentOf).Anywhere (recordedSystem writer contentOf task) i
      (readSelfSignedHandle writer.bucketProperties generation epoch) := by
  have hheld : ∀ x : HeldHandle, x.handle = .selfSigned generation epoch →
      ∃ eTags, x = .selfSigned generation epoch eTags := by
    intro x hx
    cases x with
    | selfSigned g e eTags =>
      cases hx
      exact ⟨eTags, rfl⟩
    | crossSigned => cases hx
  rw [readSelfSignedHandle_eq]
  apply memo_anywhere_memoRead (G := fun x backup => ∀ eTags, x = .selfSigned generation epoch eTags →
    ∀ element, backup.part element = contentOf (eTags element))
  · intro x _
    apply Outline.Ok.invoke_keep
    intro s log ls hinv hl r s' hstep
    obtain ⟨⟨-, rfl⟩, -⟩ := hstep
    exact ⟨.refl _, hinv, rfl⟩
  · intro x hx
    obtain ⟨eTags, rfl⟩ := hheld x hx
    apply memo_ok_readSelfSignedBundleBackup.mono
    intro l r ⟨hl, hparts⟩
    refine ⟨hl, fun backup hbackup eTags' heq => ?_⟩
    cases heq
    exact hparts backup hbackup
  · intro x backup hx hgood
    obtain ⟨eTags, rfl⟩ := hheld x hx
    apply Outline.Ok.invoke_keep
    intro s log ls hinv hl r s' hstep
    obtain ⟨⟨-, rfl⟩, -⟩ := hstep
    obtain ⟨-, hin⟩ := hinv.inside i _ hl
    exact ⟨⟨fun _ _ _ h => h, fun _ _ _ h => h⟩, hinv.setCachedBackup hin (hgood eTags rfl), rfl⟩

theorem memo_anywhere_readCrossSignedHandle (generation : Nat) (id : CrossSignedCertificateId) :
    (memoOutline contentOf).Anywhere (recordedSystem writer contentOf task) i
      (readCrossSignedHandle writer.bucketProperties generation id) := by
  have hheld : ∀ x : HeldHandle, x.handle = .crossSigned generation id →
      ∃ eTag, x = .crossSigned generation id eTag := by
    intro x hx
    cases x with
    | selfSigned => cases hx
    | crossSigned g i eTag =>
      cases hx
      exact ⟨eTag, rfl⟩
  rw [readCrossSignedHandle_eq]
  apply memo_anywhere_memoRead (G := fun x backup => ∀ eTag, x = .crossSigned generation id eTag →
    backup.certBytes = contentOf eTag)
  · intro x _
    apply Outline.Ok.invoke_keep
    intro s log ls hinv hl r s' hstep
    obtain ⟨⟨-, rfl⟩, -⟩ := hstep
    exact ⟨.refl _, hinv, rfl⟩
  · intro x hx
    obtain ⟨eTag, rfl⟩ := hheld x hx
    apply memo_ok_readCrossSignedCertificateBackup.mono
    intro l r ⟨hl, hcert⟩
    refine ⟨hl, fun backup hbackup eTag' heq => ?_⟩
    cases heq
    exact hcert backup hbackup
  · intro x backup hx hgood
    obtain ⟨eTag, rfl⟩ := hheld x hx
    apply Outline.Ok.invoke_keep
    intro s log ls hinv hl r s' hstep
    obtain ⟨⟨-, rfl⟩, -⟩ := hstep
    obtain ⟨-, hin⟩ := hinv.inside i _ hl
    exact ⟨⟨fun _ _ _ h => h, fun _ _ _ h => h⟩, hinv.setCachedCrossSigned hin (hgood eTag rfl),
      rfl⟩

theorem memo_anywhere_takeSnapshot :
    (memoOutline contentOf).Anywhere (recordedSystem writer contentOf task) i
      (S3BackupStorage.takeSnapshot writer) := by
  apply Outline.Anywhere.of_uses (N := fun o => (∃ bucket keyPrefix,
      o = .listObjectsV2 bucket keyPrefix) ∨ ∃ a c, o = .updateCachedSnapshot a c)
  · exact uses_takeSnapshot (fun bucket keyPrefix => .inl ⟨bucket, keyPrefix, rfl⟩)
      (fun a c => .inr ⟨a, c, rfl⟩)
  · intro o ho s log ls hinv r s' hstep
    rcases ho with ⟨bucket, keyPrefix, rfl⟩ | ⟨a, c, rfl⟩
    · obtain ⟨⟨-, rfl⟩, -⟩ := hstep
      exact ⟨.refl _, hinv⟩
    · obtain ⟨⟨-, rfl⟩, -⟩ := hstep
      exact ⟨hinv.kept_update a c, hinv.update a c⟩

theorem memo_anywhere_program (t : StorageTask) :
    (memoOutline contentOf).Anywhere (recordedSystem writer contentOf task) i
      (t.program writer) := by
  cases t with
  | getSnapshot =>
    exact Outline.Anywhere.bind memo_anywhere_takeSnapshot (fun _ _ => trivial)
  | readSelfSigned generation epoch =>
    exact Outline.Anywhere.bind (memo_anywhere_readSelfSignedHandle generation epoch)
      (fun _ _ => trivial)
  | readCrossSigned generation id =>
    exact Outline.Anywhere.bind (memo_anywhere_readCrossSignedHandle generation id)
      (fun _ _ => trivial)

omit [DecidableEq I] in
theorem memoized_fresh {buckets : Buckets} (h : ETagsDetermine contentOf buckets) :
    Memoized contentOf (S3StorageState.fresh buckets : S3StorageState I) (fun _ => none) where
  determine := h
  selfSigned_lt _ _ _ he := by cases he
  crossSigned_lt _ _ _ he := by cases he
  selfSigned _ _ _ _ he := by cases he
  crossSigned _ _ he := by cases he
  cachedBackup _ _ _ he := by cases he
  cachedCrossSigned _ _ _ he := by cases he
  inside _ _ he := by cases he

variable (writer contentOf task) in
theorem memoOutline_valid : (memoOutline contentOf).Valid (recordedSystem writer contentOf task) where
  guar_refl := HandlesKept.refl
  init s hs := by
    obtain ⟨hfresh, hdetermine⟩ := hs
    refine ⟨fun _ => none, ?_, fun _ => trivial⟩
    rw [hfresh]
    exact memoized_fresh hdetermine
  start i p s log ls hp hinv _ := by
    obtain rfl : p = (task i).program writer := hp
    refine ⟨none, Memoized.forget hinv, (memo_anywhere_program (task i) none).mono ?_⟩
    intro l out _ s log ls hinv _
    exact ⟨none, trivial, Memoized.forget hinv⟩
  stop i s log ls hinv := ⟨none, trivial, Memoized.forget hinv⟩
  env s s' log ls hinv henv := by
    obtain ⟨hsame, hdetermine⟩ := henv
    rw [hsame]
    exact { hinv with determine := hdetermine }

variable {w : State I (S3StorageState I) MbsOp MbsOp.Val Throwable StorageOutcome}

theorem memoized_of_reachable (hw : (recordedSystem writer contentOf task).Reachable w) :
    ∃ ls, Memoized contentOf w.store ls := by
  obtain ⟨ls, hinv, -⟩ := (memoOutline_valid writer contentOf task).reachable hw
  exact ⟨ls, hinv⟩

theorem handlesKept_of_steps {w' : State I (S3StorageState I) MbsOp MbsOp.Val Throwable StorageOutcome}
    (hw : (recordedSystem writer contentOf task).Reachable w)
    (h : (recordedSystem writer contentOf task).Steps w w') : HandlesKept w.store w'.store := by
  refine (memoOutline_valid writer contentOf task).steps_guar (fun s s' henv => ?_)
    (fun _ _ _ h h' => h.trans h') hw h
  rw [henv.1]
  exact ⟨fun _ _ _ h => h, fun _ _ _ h => h⟩

/-! ## Runs -/

omit [DecidableEq I] in
/-- No call of the storage changes the buckets. -/
theorem storageStep_buckets {s s' : S3StorageState I} {o : MbsOp} {r : Except Throwable o.Val}
    (h : storageStep i s o r s') : s'.buckets = s.buckets := by
  cases o with
  | monitorEnter handle =>
    rw [h.2.2.2]
    rfl
  | monitorExit handle =>
    rw [h.2.2]
    rfl
  | updateCachedSnapshot a c => exact (congrArg S3StorageState.buckets h.2).trans rfl
  | setCachedBackup g epoch backup => exact (congrArg S3StorageState.buckets h.2).trans rfl
  | setCachedCrossSigned g id backup => exact (congrArg S3StorageState.buckets h.2).trans rfl
  | _ => first
    | exact congrArg S3StorageState.buckets h
    | exact congrArg S3StorageState.buckets h.2

/-- A snapshot was made from the listings of the run that returned it. -/
theorem runs_snapshot {t : StorageTask} {tr : List (Event MbsOp MbsOp.Val Throwable)}
    {snapshot : S3StorageSnapshot} (h : (t.program writer).Runs tr (.ok (.snapshot snapshot))) :
    ∃ publicObjects privateObjects,
      tr = [⟨.listObjectsV2 writer.bucketProperties.publicBucketName S3BackupPaths.publicPrefix,
          .ok publicObjects⟩,
        ⟨.listObjectsV2 writer.bucketProperties.privateBucketName S3BackupPaths.privatePrefix,
          .ok privateObjects⟩,
        ⟨.updateCachedSnapshot (S3BackupStorage.recordPrivate
            (S3BackupStorage.recordPublic publicObjects).1 privateObjects)
          (S3BackupStorage.recordPublic publicObjects).2, .ok snapshot⟩] := by
  have hlist : ∀ {bucket keyPrefix objects t}, (S3BackupStorage.listBucket bucket keyPrefix).Runs t
      (.ok objects) → t = [⟨.listObjectsV2 bucket keyPrefix, .ok objects⟩] := by
    intro bucket keyPrefix objects t ht
    unfold S3BackupStorage.listBucket at ht
    rw [Prog.runs_handle_ok, call, Prog.runs_invoke] at ht
    · exact ht
    · intro e t' a hthrow
      split at hthrow <;> simp at hthrow
  cases t with
  | getSnapshot =>
    obtain ⟨updated, t₁, t₂, rfl, htake, hret⟩ := Prog.runs_bind_ok.mp h
    obtain ⟨rfl, heq⟩ := Prog.runs_ret.mp hret
    obtain rfl : snapshot = updated := by simpa using heq
    obtain ⟨publicObjects, t₃, t₄, rfl, hpublic, htake⟩ := Prog.runs_bind_ok.mp htake
    obtain ⟨privateObjects, t₅, t₆, rfl, hprivate, htake⟩ := Prog.runs_bind_ok.mp htake
    have hupdate := Prog.runs_invoke.mp htake
    refine ⟨publicObjects, privateObjects, ?_⟩
    rw [hlist hpublic, hlist hprivate, hupdate]
    rfl
  | readSelfSigned generation epoch =>
    obtain ⟨backup, t₁, t₂, -, -, hret⟩ := Prog.runs_bind_ok.mp h
    simp at hret
  | readCrossSigned generation id =>
    obtain ⟨backup, t₁, t₂, -, -, hret⟩ := Prog.runs_bind_ok.mp h
    simp at hret

theorem runs_withMonitor {α : Type} {handle : HandleRef} {p : MbsProg α}
    {tr : List (Event MbsOp MbsOp.Val Throwable)} {out : Except Throwable α}
    (h : (withMonitor handle p).Runs tr out)
    (henter : ∀ ans, ⟨.monitorEnter handle, ans⟩ ∈ tr → ans = .ok ())
    (hexit : ∀ ans, ⟨.monitorExit handle, ans⟩ ∈ tr → ans = .ok ()) :
    ∃ t, (∀ ev ∈ t, ev ∈ tr) ∧ p.Runs t out := by
  obtain ⟨r, t₁, t₂, rfl, h₁, h₂⟩ := Prog.runs_bind_inv h
  obtain rfl := Prog.runs_invoke.mp h₁
  obtain rfl := henter r (by simp)
  obtain ⟨r', t₃, t₄, rfl, h₃, h₄⟩ := Prog.runs_finallyDo_inv h₂
  obtain ⟨r'', t₅, t₆, rfl, h₅, h₆⟩ := Prog.runs_bind_inv h₄
  obtain rfl := Prog.runs_invoke.mp h₅
  obtain rfl := hexit r'' (by simp)
  obtain ⟨-, rfl⟩ := Prog.runs_ofExcept.mp h₆
  exact ⟨t₃, fun ev hmem => by simp [hmem], h₃⟩

/-- When what is kept and what is read are one value, that is what the handle returns. -/
theorem runs_memoRead {α : Type} {handle : HandleRef} {cached : MbsProg (Option α)}
    {read : MbsProg α} {set : α → MbsProg Unit} {tr : List (Event MbsOp MbsOp.Val Throwable)}
    {out : Except Throwable α} {a : α} (h : (memoRead handle cached read set).Runs tr out)
    (henter : ∀ ans, ⟨.monitorEnter handle, ans⟩ ∈ tr → ans = .ok ())
    (hexit : ∀ ans, ⟨.monitorExit handle, ans⟩ ∈ tr → ans = .ok ())
    (hcached : ∀ t r, cached.Runs t r → (∀ ev ∈ t, ev ∈ tr) → r = .ok none ∨ r = .ok (some a))
    (hread : ∀ t r, read.Runs t r → (∀ ev ∈ t, ev ∈ tr) → r = .ok a)
    (hset : ∀ t r, (set a).Runs t r → (∀ ev ∈ t, ev ∈ tr) → r = .ok ()) : out = .ok a := by
  obtain ⟨t, hsub, hmemo⟩ := runs_withMonitor h henter hexit
  obtain ⟨r₁, t₁, t₂, rfl, h₁, h₂⟩ := Prog.runs_bind_inv hmemo
  rcases hcached t₁ r₁ h₁ (fun ev hmem => hsub ev (by simp [hmem])) with rfl | rfl
  · obtain ⟨r₃, t₃, t₄, rfl, h₃, h₄⟩ := Prog.runs_bind_inv h₂
    obtain rfl := hread t₃ r₃ h₃ (fun ev hmem => hsub ev (by simp [hmem]))
    obtain ⟨r₅, t₅, t₆, rfl, h₅, h₆⟩ := Prog.runs_bind_inv h₄
    obtain rfl := hset t₅ r₅ h₅ (fun ev hmem => hsub ev (by simp [hmem]))
    exact (Prog.runs_ret.mp h₆).2
  · exact (Prog.runs_ret.mp h₂).2

/-! ## Reads of a snapshot that is up to date -/

/-- The newest entry is the end of a read by `j` that began after a `getSnapshot` had returned
this snapshot. Nothing changed in the buckets since the first listing of that `getSnapshot`,
and S3 answered the gets of the read. -/
def ReadsSnapshot (writer : S3BackupWriter)
    (log : List (Entry I MbsOp MbsOp.Val Throwable StorageOutcome)) (snapshot : S3StorageSnapshot)
    (j : I) (out : Except Throwable StorageOutcome) : Prop :=
  ∃ i run later listing before answer,
    log = .finish j out :: (run ++ .start j :: (later ++ .finish i (.ok (.snapshot snapshot)) ::
      (listing ++ .call i ⟨.listObjectsV2 writer.bucketProperties.publicBucketName
        S3BackupPaths.publicPrefix, answer⟩ :: before))) ∧
    .start j ∉ run ∧ .start i ∉ listing ∧ .env ∉ run ∧ .env ∉ later ∧ .env ∉ listing ∧
    ∀ ev, .call j ev ∈ run → Answered ev

/-- What this program reads from the buckets when S3 answers. -/
def ReadsFrom {α : Type} (s : Buckets) (p : MbsProg α) (out : Except Throwable α) : Prop :=
  ∃ tr s', p.Runs tr out ∧ Served (s3Step .atomic) s tr s' ∧ ∀ ev ∈ tr, Answered ev

/-- A read of a complete handle of such a snapshot returned what `S3BackupReader` reads from
the buckets now. -/
def ReadsAfresh (writer : S3BackupWriter) (task : I → StorageTask)
    (w : State I (S3StorageState I) MbsOp MbsOp.Val Throwable StorageOutcome) : Prop :=
  ∀ snapshot j out, ReadsSnapshot writer w.log snapshot j out →
    (∀ generation epoch epoch' eTags, task j = .readSelfSigned generation epoch →
      snapshot.selfSignedBundleBackupHandles epoch = some (.complete generation epoch' eTags) →
      ∀ fresh, ReadsFrom w.store.buckets
        (S3BackupReader.readSelfSignedBundleBackup writer.bucketProperties epoch) fresh →
      out = fresh.map .selfSigned) ∧
    (∀ id handle, task j = .readCrossSigned handle.generation id →
      snapshot.crossSignedCertificateBackupHandles id = some handle →
      ∀ fresh, ReadsFrom w.store.buckets
        (S3BackupReader.readCrossSignedCertificateBackup writer.bucketProperties id) fresh →
      out = fresh.map .crossSigned)

/-- A state since which the buckets did not change. -/
structure Earlier (contentOf : JString → Bytes) (s now : S3StorageState I) : Prop where
  buckets : s.buckets = now.buckets
  memoized : ∃ ls, Memoized contentOf s ls
  kept : HandlesKept s now

/-- The calls in a piece of log since which nothing came from outside. -/
theorem answered_earlier (hw : (recordedSystem writer contentOf task).Reachable w)
    {later piece before : List (Entry I MbsOp MbsOp.Val Throwable StorageOutcome)}
    (hlog : w.log = later ++ (piece ++ before)) (hlater : .env ∉ later) (hpiece : .env ∉ piece)
    {ev : Event MbsOp MbsOp.Val Throwable} (hev : .call i ev ∈ piece) :
    ∃ s s', storageStep i s ev.op ev.ans s' ∧ Earlier contentOf s w.store ∧
      Earlier contentOf s' w.store := by
  obtain ⟨piece₁, piece₂, rfl⟩ := List.append_of_mem hev
  have hlog' : w.log = (later ++ piece₁) ++ .call i ev :: (piece₂ ++ before) := by
    rw [hlog]
    simp
  simp only [List.mem_append, not_or] at hpiece
  have hview : ∀ j s o r s', (recordedSystem writer contentOf task).step j s o r s' →
      s'.buckets = s.buckets := fun _ _ _ _ _ hstep => storageStep_buckets hstep.1
  obtain ⟨w₀, w₁, hw₀, hstep, hsteps, hans, hsame⟩ :=
    hw.answered_view hview hlog' (by simp [hlater, hpiece.1])
  refine ⟨w₀.store, w₁.store, hans.1, ⟨hsame, memoized_of_reachable hw₀, ?_⟩,
    ⟨(storageStep_buckets hans.1).trans hsame, memoized_of_reachable (hw₀.step hstep), ?_⟩⟩
  · exact handlesKept_of_steps hw₀ ((System.Steps.single hstep).trans hsteps)
  · exact handlesKept_of_steps (hw₀.step hstep) hsteps

/-- A handle of the snapshot has the ETags that are stored now. -/
theorem listed_of_snapshot (hw : (recordedSystem writer contentOf task).Reachable w) {i : I}
    {snapshot : S3StorageSnapshot} {answer : Except Throwable (List S3ObjectSummary)}
    {later listing before : List (Entry I MbsOp MbsOp.Val Throwable StorageOutcome)}
    (hlog : w.log = later ++ .finish i (.ok (.snapshot snapshot)) ::
      (listing ++ .call i ⟨.listObjectsV2 writer.bucketProperties.publicBucketName
        S3BackupPaths.publicPrefix, answer⟩ :: before))
    (hstart : .start i ∉ listing) (hlater : .env ∉ later) (hlisting : .env ∉ listing) :
    (∀ epoch generation epoch' eTags,
      snapshot.selfSignedBundleBackupHandles epoch = some (.complete generation epoch' eTags) →
      w.store.elementETags generation epoch = some eTags ∧
        ∀ element, (artifact writer.names w.store.buckets epoch element).map S3Object.eTag =
          some (eTags element)) ∧
    (∀ id handle, snapshot.crossSignedCertificateBackupHandles id = some handle →
      w.store.crossSignedETag handle.generation id = some handle.eTag ∧
        (crossSignedObject writer.names w.store.buckets id).map S3Object.eTag =
          some handle.eTag) := by
  -- The calls of the run were the two listings and the update.
  obtain ⟨p, tr, rfl, hruns⟩ := hw.finished_since hlog hstart
  obtain ⟨publicObjects, privateObjects, htr⟩ := runs_snapshot hruns
  have hcalls : tr = [] ∧ answer = .ok publicObjects ∧ System.callsOf i listing =
      [⟨.listObjectsV2 writer.bucketProperties.privateBucketName S3BackupPaths.privatePrefix,
          .ok privateObjects⟩,
        ⟨.updateCachedSnapshot (S3BackupStorage.recordPrivate
            (S3BackupStorage.recordPublic publicObjects).1 privateObjects)
          (S3BackupStorage.recordPublic publicObjects).2, .ok snapshot⟩] := by
    match tr, htr with
    | [], htr =>
      simp only [List.nil_append, List.cons.injEq, Event.mk.injEq, heq_eq_eq, true_and] at htr
      exact ⟨rfl, htr⟩
    | [_], htr =>
      simp only [List.cons_append, List.nil_append, List.cons.injEq, Event.mk.injEq,
        MbsOp.listObjectsV2.injEq] at htr
      exact absurd htr.2.1.1.2 (by decide)
    | [_, _], htr => simp at htr
    | _ :: _ :: _ :: _, htr => simp at htr
  obtain ⟨-, rfl, hcalls⟩ := hcalls
  have hearlier : ∀ ev, .call i ev ∈ listing ++ [.call i ⟨.listObjectsV2
        writer.bucketProperties.publicBucketName S3BackupPaths.publicPrefix, .ok publicObjects⟩] →
      ∃ s s', storageStep i s ev.op ev.ans s' ∧ Earlier contentOf s w.store ∧
        Earlier contentOf s' w.store := by
    intro ev hev
    have hlog' : w.log = (later ++ [.finish i (.ok (.snapshot snapshot))]) ++
        ((listing ++ [.call i ⟨.listObjectsV2 writer.bucketProperties.publicBucketName
          S3BackupPaths.publicPrefix, .ok publicObjects⟩]) ++ before) := by
      rw [hlog]
      simp
    exact answered_earlier hw hlog' (by simp [hlater]) (by simp [hlisting]) hev
  have hpublic : Listing w.store.buckets writer.names.publicBucket S3BackupPaths.publicPrefix
      publicObjects := by
    obtain ⟨s, s', ⟨hlist, -⟩, hs, -⟩ := hearlier ⟨.listObjectsV2 _ _, .ok publicObjects⟩ (by simp)
    rw [← hs.buckets]
    exact hlist
  have hprivate : Listing w.store.buckets writer.names.privateBucket S3BackupPaths.privatePrefix
      privateObjects := by
    have hmem := System.mem_callsOf.mp (hcalls ▸ List.mem_cons_self)
    obtain ⟨s, s', ⟨hlist, -⟩, hs, -⟩ := hearlier _ (List.mem_append_left _ hmem)
    rw [← hs.buckets]
    exact hlist
  have hupdate := System.mem_callsOf.mp (hcalls ▸ List.mem_cons_of_mem _ List.mem_cons_self)
  obtain ⟨s, s', ⟨hsnapshot, rfl⟩, -, hs'⟩ := hearlier _ (List.mem_append_left _ hupdate)
  obtain rfl := Except.ok.inj hsnapshot
  obtain ⟨ls, hmemoized⟩ := hs'.memoized
  refine ⟨fun epoch generation epoch' eTags hhandle => ⟨?_, fun element => ?_⟩,
    fun id handle hhandle => ⟨?_, ?_⟩⟩
  · exact hs'.kept.selfSigned _ _ _ (hmemoized.selfSigned epoch generation epoch' eTags hhandle)
  · have hlisted := (S3BackupStorage.nextSnapshot_complete hhandle).1 element
    rw [recordPrivate_recordPublic hpublic hprivate] at hlisted
    cases element <;> exact hlisted
  · exact hs'.kept.crossSigned _ _ _ (hmemoized.crossSigned id handle hhandle)
  · have hlisted := (S3BackupStorage.nextSnapshot_crossSigned hhandle).1
    rw [recordPublic_crossSigned hpublic] at hlisted
    exact hlisted

/-- An object that is stored is what an answered get returns. -/
theorem get_stored {s : Buckets} {bucket key : JString} {ans : Except Throwable Bytes}
    {o : S3Object} (hget : S3Reads.atomic.get s bucket key ans)
    (hanswered : Answered ⟨.getObject bucket key, ans⟩) (ho : s bucket key = some o) :
    ans = .ok o.content := by
  cases ans with
  | error e =>
    have hnone : s bucket key = none := hget (hanswered e rfl)
    rw [hnone] at ho
    cases ho
  | ok bytes =>
    obtain ⟨eTag, hfound⟩ := hget
    rw [Option.some.inj (ho.symm.trans hfound)]

/-- The gets of a fresh read return what is stored. -/
theorem readsFrom_gets {α : Type} {s s' : Buckets} {p : MbsProg α}
    (hp : p.Uses (fun o => o.isWrite = false)) {tr : List (Event MbsOp MbsOp.Val Throwable)}
    {out : Except Throwable α} (hruns : p.Runs tr out) (hserved : Served (s3Step .atomic) s tr s')
    (hanswered : ∀ ev ∈ tr, Answered ev) {bucket key : JString} {ans : Except Throwable Bytes}
    (hmem : ⟨.getObject bucket key, ans⟩ ∈ tr) {o : S3Object} (ho : s bucket key = some o) :
    ans = .ok o.content := by
  obtain ⟨hget, -⟩ := hserved.step_of_mem
    (fun _ ho _ _ hstep => s3Step_of_not_write hstep ho) (hp.of_runs hruns) hmem
  exact get_stored hget (hanswered _ hmem) ho

section
variable {j : I} {out : Except Throwable StorageOutcome}
  {run before : List (Entry I MbsOp MbsOp.Val Throwable StorageOutcome)}

omit [DecidableEq I] in
/-- The outcome of a read whose calls were all answered since the buckets last changed. -/
theorem outcome_of_memoRead {α : Type} {handle : HandleRef} {cached : MbsProg (Option α)}
    {read : MbsProg α} {set : α → MbsProg Unit} {wrap : α → StorageOutcome} {a : α}
    {tr : List (Event MbsOp MbsOp.Val Throwable)}
    (hruns : ((memoRead handle cached read set).bind (fun b => .ret (wrap b))).Runs tr out)
    (hearlier : ∀ ev ∈ tr, ∃ s s', storageStep j s ev.op ev.ans s' ∧
      Earlier contentOf s w.store ∧ Earlier contentOf s' w.store)
    (hcached : ∀ t r, cached.Runs t r → (∀ ev ∈ t, ev ∈ tr) → r = .ok none ∨ r = .ok (some a))
    (hread : ∀ t r, read.Runs t r → (∀ ev ∈ t, ev ∈ tr) → r = .ok a)
    (hset : ∀ t r, (set a).Runs t r → (∀ ev ∈ t, ev ∈ tr) → r = .ok ()) :
    out = .ok (wrap a) := by
  obtain ⟨r, t₁, t₂, rfl, h₁, h₂⟩ := Prog.runs_bind_inv hruns
  have henter : ∀ ans, ⟨.monitorEnter handle, ans⟩ ∈ t₁ → ans = .ok () := by
    intro ans hmem
    obtain ⟨s, s', ⟨-, -, hok, -⟩, -⟩ := hearlier _ (List.mem_append_left t₂ hmem)
    exact hok
  have hexit : ∀ ans, ⟨.monitorExit handle, ans⟩ ∈ t₁ → ans = .ok () := by
    intro ans hmem
    obtain ⟨s, s', ⟨-, hok, -⟩, -⟩ := hearlier _ (List.mem_append_left t₂ hmem)
    exact hok
  have hmem : ∀ u : List (Event MbsOp MbsOp.Val Throwable), (∀ ev ∈ u, ev ∈ t₁) →
      ∀ ev ∈ u, ev ∈ t₁ ++ t₂ := fun u hu ev hev => List.mem_append_left t₂ (hu ev hev)
  obtain rfl := runs_memoRead h₁ henter hexit (fun u r hr hu => hcached u r hr (hmem u hu))
    (fun u r hr hu => hread u r hr (hmem u hu)) (fun u r hr hu => hset u r hr (hmem u hu))
  exact (Prog.runs_ret.mp h₂).2

/-- The read of a self-signed handle whose ETags are those of the stored artifacts. -/
theorem read_selfSigned_stored (hw : (recordedSystem writer contentOf task).Reachable w)
    (hlog : w.log = [.finish j out] ++ (run ++ .start j :: before)) (hstart : .start j ∉ run)
    (henv : .env ∉ run) (hanswered : ∀ ev, .call j ev ∈ run → Answered ev) {generation : Nat}
    {epoch : Epoch} (htask : task j = .readSelfSigned generation epoch)
    {eTags : SelfSignedBundleBackupElement → JString}
    (he : w.store.elementETags generation epoch = some eTags) {backup : SelfSignedBundleBackup}
    (hstored : ∀ element, artifact writer.names w.store.buckets epoch element =
      some ⟨backup.part element, eTags element⟩) : out = .ok (.selfSigned backup) := by
  obtain ⟨ls, hnow⟩ := memoized_of_reachable hw
  have hearlier : ∀ ev ∈ System.callsOf j run, ∃ s s', storageStep j s ev.op ev.ans s' ∧
      Earlier contentOf s w.store ∧ Earlier contentOf s' w.store :=
    fun ev hev => answered_earlier hw hlog (by simp) henv (System.mem_callsOf.mp hev)
  have hfinished : w.log = [] ++ .finish j out :: (run ++ .start j :: before) := hlog
  obtain ⟨p, rfl, hruns⟩ := hw.finished hfinished hstart
  rw [htask, StorageTask.program, readSelfSignedHandle_eq] at hruns
  refine outcome_of_memoRead hruns hearlier ?_ ?_ ?_
  · intro t r hr ht
    obtain rfl := Prog.runs_invoke.mp hr
    obtain ⟨s, s', ⟨rfl, -⟩, hs, -⟩ := hearlier _ (ht _ List.mem_cons_self)
    cases hcached : s.cachedBackup generation epoch with
    | none => exact .inl rfl
    | some kept =>
      obtain ⟨ls', hmemoized⟩ := hs.memoized
      obtain ⟨eTags', he', hparts⟩ := hmemoized.cachedBackup generation epoch kept hcached
      have hsame : eTags' = eTags :=
        Option.some.inj ((hs.kept.selfSigned _ _ _ he').symm.trans he)
      have hpart : ∀ element, kept.part element = backup.part element := by
        intro element
        rw [hparts element, hsame]
        exact (hnow.determine _ _ _ (hstored element)).symm
      rw [part_injective hpart]
      exact .inr rfl
  · intro t r hr ht
    refine runs_readSelfSignedBundleBackup writer.on_names hr (fun element ans hmem => ?_)
    obtain ⟨s, s', ⟨hget, -⟩, hs, -⟩ := hearlier _ (ht _ hmem)
    rw [hs.buckets] at hget
    exact get_stored hget (hanswered _ (System.mem_callsOf.mp (ht _ hmem))) (hstored element)
  · intro t r hr ht
    obtain rfl := Prog.runs_invoke.mp hr
    obtain ⟨s, s', ⟨hok, -⟩, -⟩ := hearlier _ (ht _ List.mem_cons_self)
    exact hok

/-- The read of a cross-signed handle whose ETag is that of the stored certificate. -/
theorem read_crossSigned_stored (hw : (recordedSystem writer contentOf task).Reachable w)
    (hlog : w.log = [.finish j out] ++ (run ++ .start j :: before)) (hstart : .start j ∉ run)
    (henv : .env ∉ run) (hanswered : ∀ ev, .call j ev ∈ run → Answered ev) {generation : Nat}
    {id : CrossSignedCertificateId} (htask : task j = .readCrossSigned generation id)
    {eTag : JString} (he : w.store.crossSignedETag generation id = some eTag)
    {backup : CrossSignedCertificateBackup}
    (hstored : crossSignedObject writer.names w.store.buckets id =
      some ⟨backup.certBytes, eTag⟩) : out = .ok (.crossSigned backup) := by
  obtain ⟨ls, hnow⟩ := memoized_of_reachable hw
  have hearlier : ∀ ev ∈ System.callsOf j run, ∃ s s', storageStep j s ev.op ev.ans s' ∧
      Earlier contentOf s w.store ∧ Earlier contentOf s' w.store :=
    fun ev hev => answered_earlier hw hlog (by simp) henv (System.mem_callsOf.mp hev)
  have hfinished : w.log = [] ++ .finish j out :: (run ++ .start j :: before) := hlog
  obtain ⟨p, rfl, hruns⟩ := hw.finished hfinished hstart
  rw [htask, StorageTask.program, readCrossSignedHandle_eq] at hruns
  refine outcome_of_memoRead hruns hearlier ?_ ?_ ?_
  · intro t r hr ht
    obtain rfl := Prog.runs_invoke.mp hr
    obtain ⟨s, s', ⟨rfl, -⟩, hs, -⟩ := hearlier _ (ht _ List.mem_cons_self)
    cases hcached : s.cachedCrossSigned generation id with
    | none => exact .inl rfl
    | some kept =>
      obtain ⟨ls', hmemoized⟩ := hs.memoized
      obtain ⟨eTag', he', hcert⟩ := hmemoized.cachedCrossSigned generation id kept hcached
      have hsame : eTag' = eTag :=
        Option.some.inj ((hs.kept.crossSigned _ _ _ he').symm.trans he)
      have hbytes : kept.certBytes = backup.certBytes := by
        rw [hcert, hsame]
        exact (hnow.determine _ _ _ hstored).symm
      obtain ⟨certBytes⟩ := kept
      obtain rfl : certBytes = backup.certBytes := hbytes
      exact .inr rfl
  · intro t r hr ht
    refine runs_readCrossSignedCertificateBackup hr (fun ans hmem => ?_)
    obtain ⟨s, s', ⟨hget, -⟩, hs, -⟩ := hearlier _ (ht _ hmem)
    rw [hs.buckets] at hget
    exact get_stored hget (hanswered _ (System.mem_callsOf.mp (ht _ hmem))) hstored
  · intro t r hr ht
    obtain rfl := Prog.runs_invoke.mp hr
    obtain ⟨s, s', ⟨hok, -⟩, -⟩ := hearlier _ (ht _ List.mem_cons_self)
    exact hok

end

/-- In every run in which the gets inside reads find what was listed, a read of a snapshot
that is up to date returns what a fresh read does. -/
theorem reads_afresh_of_recorded (hw : (recordedSystem writer contentOf task).Reachable w) :
    ReadsAfresh writer task w := by
  intro snapshot j out hread
  obtain ⟨i, run, later, listing, before, answer, hlog, hstart, hlisting, henv, hlater, henv',
    hanswered⟩ := hread
  have hlog' : w.log = (.finish j out :: (run ++ .start j :: later)) ++
      .finish i (.ok (.snapshot snapshot)) :: (listing ++ .call i ⟨.listObjectsV2
        writer.bucketProperties.publicBucketName S3BackupPaths.publicPrefix, answer⟩ :: before) := by
    rw [hlog]
    simp
  obtain ⟨hselfSigned, hcrossSigned⟩ := listed_of_snapshot hw hlog' hlisting
    (by simp [henv, hlater]) henv'
  refine ⟨fun generation epoch epoch' eTags htask hhandle fresh hfresh => ?_,
    fun id handle htask hhandle fresh hfresh => ?_⟩
  · obtain ⟨he, hstored⟩ := hselfSigned epoch generation epoch' eTags hhandle
    choose o ho heTag using fun element => Option.map_eq_some_iff.mp (hstored element)
    obtain ⟨backup, hpart⟩ := exists_part (fun element => (o element).content)
    have hartifact : ∀ element, artifact writer.names w.store.buckets epoch element =
        some ⟨backup.part element, eTags element⟩ := by
      intro element
      rw [ho element, hpart element, ← heTag element]
    rw [read_selfSigned_stored hw hlog hstart henv hanswered htask he hartifact]
    obtain ⟨tr, s', hruns, hserved, hgets⟩ := hfresh
    have huses := uses_readSelfSignedBundleBackup (N := fun o => o.isWrite = false)
      (fun _ _ => rfl) writer.bucketProperties epoch
    rw [runs_readSelfSignedBundleBackup writer.on_names hruns (fun element ans hmem =>
      readsFrom_gets huses hruns hserved hgets hmem (hartifact element))]
    rfl
  · obtain ⟨he, hstored⟩ := hcrossSigned id handle hhandle
    obtain ⟨o, ho, heTag⟩ := Option.map_eq_some_iff.mp hstored
    have hobject : crossSignedObject writer.names w.store.buckets id =
        some ⟨(⟨o.content⟩ : CrossSignedCertificateBackup).certBytes, handle.eTag⟩ := by
      rw [ho, ← heTag]
    rw [read_crossSigned_stored hw hlog hstart henv hanswered htask he hobject]
    obtain ⟨tr, s', hruns, hserved, hgets⟩ := hfresh
    have huses := uses_readCrossSignedCertificateBackup (N := fun o => o.isWrite = false)
      (fun _ _ => rfl) writer.bucketProperties id
    rw [runs_readCrossSignedCertificateBackup hruns (fun ans hmem =>
      readsFrom_gets huses hruns hserved hgets hmem hobject)]
    rfl

end
/-! A storage of one thread that takes snapshots and one that reads the first handle of
epoch 0, with S3 in memory. -/

namespace Sample

structure LocalStorage where
  s3 : LocalS3
  memory : S3StorageState Nat

namespace LocalStorage

def state (t : LocalStorage) : S3StorageState Nat := { t.memory with buckets := t.s3.buckets }

def serve (i : Nat) (t : LocalStorage) (o : MbsOp) : Except Throwable o.Val × LocalStorage :=
  match o with
  | .updateCachedSnapshot a c =>
    (.ok (t.memory.update a c).cachedSnapshot, { t with memory := t.memory.update a c })
  | .monitorEnter handle => (.ok (), { t with memory := t.memory.setMonitor handle (some i) })
  | .monitorExit handle => (.ok (), { t with memory := t.memory.setMonitor handle none })
  | .getCachedBackup generation epoch => (.ok (t.memory.cachedBackup generation epoch), t)
  | .setCachedBackup generation epoch backup =>
    (.ok (), { t with memory := t.memory.setCachedBackup generation epoch backup })
  | .getCachedCrossSigned generation id => (.ok (t.memory.cachedCrossSigned generation id), t)
  | .setCachedCrossSigned generation id backup =>
    (.ok (), { t with memory := t.memory.setCachedCrossSigned generation id backup })
  | .getObject bucket key => ((t.s3.serve (.getObject bucket key)).1, t)
  | o => ((t.s3.serve o).1, t)

/-- Monitors are entered when they are free and left by their owner. -/
def Allowed (i : Nat) (t : LocalStorage) : MbsOp → Prop
  | .monitorEnter handle => t.state.Exists handle ∧ t.state.monitor handle = none
  | .monitorExit handle => t.state.monitor handle = some i
  | _ => True

theorem storageStep_serve (i : Nat) (t : LocalStorage) (o : MbsOp) (h : Allowed i t o) :
    storageStep i t.state o (t.serve i o).1 (t.serve i o).2.state := by
  cases o with
  | getObject bucket key => exact ⟨(t.s3.s3Step_serve (.getObject bucket key)).1, rfl⟩
  | listObjectsV2 bucket keyPrefix => exact ⟨(t.s3.s3Step_serve (.listObjectsV2 bucket keyPrefix)).1, rfl⟩
  | updateCachedSnapshot a c => exact ⟨rfl, rfl⟩
  | monitorEnter handle => exact ⟨h.1, h.2, rfl, rfl⟩
  | monitorExit handle => exact ⟨h, rfl, rfl⟩
  | getCachedBackup generation epoch => exact ⟨rfl, rfl⟩
  | setCachedBackup generation epoch backup => exact ⟨rfl, rfl⟩
  | getCachedCrossSigned generation id => exact ⟨rfl, rfl⟩
  | setCachedCrossSigned generation id backup => exact ⟨rfl, rfl⟩
  | _ => rfl

end LocalStorage

/-- Epoch 0 is stored, each artifact as this byte. -/
def storing (n : UInt8) : LocalS3 :=
  { LocalS3.fresh none true with objects := SelfSignedBundleBackupElement.values.map (fun element =>
      ((names.of element, elementPath element 0), ⟨.one n, [n.toUInt16]⟩)) }

def contentOf (eTag : JString) : Bytes := .one (eTag.headD 0).toUInt8

theorem determine_storing (n : UInt8) : ETagsDetermine contentOf (storing n).buckets := by
  intro bucket key o ho
  obtain ⟨element, -, heq⟩ := List.mem_map.mp (mem_of_lookup ho)
  rw [← (Prod.mk.inj heq).2]
  simp [contentOf, Bytes.one]

def storageTask : Nat → StorageTask
  | 0 => .getSnapshot
  | _ => .readSelfSigned 0 0

def storageRun (i : Nat) (t : LocalStorage) :
    Except Throwable StorageOutcome × List (Event MbsOp MbsOp.Val Throwable) × LocalStorage :=
  drive (LocalStorage.serve i) ((storageTask i).program writer) t

theorem storageRun_steps
    {sys : System Nat (S3StorageState Nat) MbsOp MbsOp.Val Throwable StorageOutcome} {i : Nat}
    {t : LocalStorage} {ok : LocalStorage → MbsOp → Prop}
    (hruns : sys.runs i ((storageTask i).program writer))
    (hserve : ∀ (t : LocalStorage) o, ok t o →
      sys.step i t.state o (t.serve i o).1 (t.serve i o).2.state)
    (hall : DriveAll (LocalStorage.serve i) ok ((storageTask i).program writer) t)
    (log : List (Entry Nat MbsOp MbsOp.Val Throwable StorageOutcome)) :
    sys.Steps ⟨t.state, fun _ => none, log⟩
      ⟨(storageRun i t).2.2.state, fun _ => none, .finish i (storageRun i t).1 ::
        (((storageRun i t).2.1.map (.call i)).reverse ++ .start i :: log)⟩ :=
  System.Steps.run hruns (runs_drive (LocalStorage.serve i) _ t)
    (served_driveAll LocalStorage.state hserve hall) rfl log

/-- Other objects take the place of the stored ones. -/
theorem replace_steps (t : LocalStorage) (n : UInt8)
    (log : List (Entry Nat MbsOp MbsOp.Val Throwable StorageOutcome)) :
    (storageSystem writer contentOf storageTask).Steps ⟨t.state, fun _ => none, log⟩
      ⟨(⟨storing n, t.memory⟩ : LocalStorage).state, fun _ => none, .env :: log⟩ :=
  .single (.env _ _ ⟨rfl, determine_storing n⟩)

def begun : LocalStorage := ⟨storing 1, .fresh (storing 1).buckets⟩
def firstListed : LocalStorage := (storageRun 0 begun).2.2
def replaced : LocalStorage := ⟨storing 2, firstListed.memory⟩
def memoized : LocalStorage := (storageRun 1 replaced).2.2
def restored : LocalStorage := ⟨storing 1, memoized.memory⟩
def relisted : LocalStorage := (storageRun 0 restored).2.2

def storedBackup (n : UInt8) : SelfSignedBundleBackup :=
  ⟨.one n, .one n, .one n, .one n⟩

/-- A fresh read of what is stored. -/
theorem readsFrom_storing (n : UInt8) : ReadsFrom (storing n).buckets
    (S3BackupReader.readSelfSignedBundleBackup writer.bucketProperties 0) (.ok (storedBackup n)) := by
  let read := drive LocalS3.serve
    (S3BackupReader.readSelfSignedBundleBackup writer.bucketProperties 0) (storing n)
  have hruns := runs_drive LocalS3.serve
    (S3BackupReader.readSelfSignedBundleBackup writer.bucketProperties 0) (storing n)
  exact ⟨read.2.1, _, hruns, served_drive LocalS3.buckets LocalS3.s3Step_serve _ (storing n),
    answered_of_all_ok rfl⟩

/-- A `getSnapshot` and a read, one right after the other. -/
theorem readsSnapshot_of_runs {snapshot : S3StorageSnapshot} {answer : Except Throwable
      (List S3ObjectSummary)} {rest tr : List (Event MbsOp MbsOp.Val Throwable)}
    {out : Except Throwable StorageOutcome} (hanswered : ∀ ev ∈ tr, Answered ev)
    (before : List (Entry Nat MbsOp MbsOp.Val Throwable StorageOutcome)) :
    ReadsSnapshot writer (.finish 1 out :: ((tr.map (.call 1)).reverse ++ .start 1 ::
      .finish 0 (.ok (.snapshot snapshot)) :: (((⟨.listObjectsV2
        writer.bucketProperties.publicBucketName S3BackupPaths.publicPrefix, answer⟩ ::
          rest).map (.call 0)).reverse ++ .start 0 :: before))) snapshot 1 out := by
  refine ⟨0, (tr.map (.call 1)).reverse, [], (rest.map (.call 0)).reverse, .start 0 :: before,
    answer, by simp, by simp, by simp, by simp, by simp, by simp, fun ev hev => ?_⟩
  exact hanswered ev (by simpa using hev)

/-- The handle was made for the first listing, keeps what the second content was, and is used
again for the third listing. -/
theorem relisted_reads : ∃ w snapshot eTags,
    (storageSystem writer contentOf storageTask).Reachable w ∧
      w.store.buckets = (storing 1).buckets ∧ w.store.cachedSnapshot = snapshot ∧
      snapshot.selfSignedBundleBackupHandles 0 = some (.complete 0 0 eTags) ∧
      ReadsSnapshot writer w.log snapshot 1 (.ok (.selfSigned (storedBackup 2))) := by
  have hlist : DriveAll (LocalStorage.serve 0) (LocalStorage.Allowed 0)
      ((storageTask 0).program writer) begun := ⟨trivial, trivial, trivial, trivial⟩
  have hread : DriveAll (LocalStorage.serve 1) (LocalStorage.Allowed 1)
      ((storageTask 1).program writer) replaced :=
    ⟨⟨⟨_, rfl⟩, rfl⟩, trivial, trivial, trivial, trivial, trivial, trivial, rfl, trivial⟩
  have hrelist : DriveAll (LocalStorage.serve 0) (LocalStorage.Allowed 0)
      ((storageTask 0).program writer) restored := ⟨trivial, trivial, trivial, trivial⟩
  have hreread : DriveAll (LocalStorage.serve 1) (LocalStorage.Allowed 1)
      ((storageTask 1).program writer) relisted := ⟨⟨⟨_, rfl⟩, rfl⟩, trivial, rfl, trivial⟩
  have hrun : ∀ {i t}, DriveAll (LocalStorage.serve i) (LocalStorage.Allowed i)
      ((storageTask i).program writer) t → ∀ log,
      (storageSystem writer contentOf storageTask).Steps ⟨t.state, fun _ => none, log⟩ _ :=
    fun hall => storageRun_steps rfl (LocalStorage.storageStep_serve _) hall
  have hsteps := ((((hrun hlist []).trans (replace_steps firstListed 2 _)).trans
    (hrun hread _)).trans (replace_steps memoized 1 _)).trans ((hrun hrelist _).trans (hrun hreread _))
  have hreach := hsteps.reachable (.init _ ⟨rfl, determine_storing 1⟩)
  refine ⟨_, relisted.memory.cachedSnapshot, _, hreach, rfl, rfl, rfl, ?_⟩
  have hanswered : ∀ ev ∈ (storageRun 1 relisted).2.1, Answered ev := answered_of_all_ok rfl
  exact readsSnapshot_of_runs hanswered _

/-- The reading thread inside its handle, with the buckets as they were listed. -/
def entered : LocalStorage :=
  ⟨firstListed.s3, firstListed.memory.setMonitor (.selfSigned 0 0) (some 1)⟩

theorem findsRecorded_entered (o : MbsOp) : FindsRecorded writer.names 1 entered.state o := by
  have hentered : ∀ handle, entered.state.monitor handle = some 1 → handle = .selfSigned 0 0 := by
    intro handle howner
    by_contra hne
    have hnone : entered.state.monitor handle = none := Function.update_of_ne hne ..
    rw [hnone] at howner
    cases howner
  cases o with
  | getObject bucket key =>
    refine ⟨fun generation epoch eTags element howner heTags hbucket hkey o ho => ?_,
      fun generation id eTag howner => ?_⟩
    · obtain ⟨rfl, rfl⟩ := HandleRef.selfSigned.inj (hentered _ howner)
      obtain rfl := Option.some.inj heTags
      subst hbucket hkey
      cases element <;> rw [← Option.some.inj ho] <;> rfl
    · cases hentered _ howner
  | _ => trivial

/-- A read right after the listing. -/
theorem firstListed_reads : ∃ w snapshot eTags,
    (recordedSystem writer contentOf storageTask).Reachable w ∧
      w.store.buckets = (storing 1).buckets ∧
      snapshot.selfSignedBundleBackupHandles 0 = some (.complete 0 0 eTags) ∧
      ReadsSnapshot writer w.log snapshot 1 (.ok (.selfSigned (storedBackup 1))) := by
  have hserve : ∀ i (t : LocalStorage) o,
      t.Allowed i o ∧ FindsRecorded writer.names i t.state o →
      (recordedSystem writer contentOf storageTask).step i t.state o (t.serve i o).1
        (t.serve i o).2.state := fun i t o h => ⟨t.storageStep_serve i o h.1, h.2⟩
  have hlist : DriveAll (LocalStorage.serve 0)
      (fun t o => t.Allowed 0 o ∧ FindsRecorded writer.names 0 t.state o)
      ((storageTask 0).program writer) begun :=
    ⟨⟨trivial, trivial⟩, ⟨trivial, trivial⟩, ⟨trivial, trivial⟩, trivial⟩
  have hget : ∀ o, entered.Allowed 1 o →
      entered.Allowed 1 o ∧ FindsRecorded writer.names 1 entered.state o :=
    fun o ho => ⟨ho, findsRecorded_entered o⟩
  have hread : DriveAll (LocalStorage.serve 1)
      (fun t o => t.Allowed 1 o ∧ FindsRecorded writer.names 1 t.state o)
      ((storageTask 1).program writer) firstListed :=
    ⟨⟨⟨⟨_, rfl⟩, rfl⟩, trivial⟩, hget _ trivial, hget _ trivial, hget _ trivial, hget _ trivial,
      hget _ trivial, hget _ trivial, ⟨rfl, trivial⟩, trivial⟩
  have hsteps : (recordedSystem writer contentOf storageTask).Steps _ _ :=
    (storageRun_steps rfl (hserve 0) hlist []).trans (storageRun_steps rfl (hserve 1) hread _)
  have hreach := hsteps.reachable (.init _ ⟨rfl, determine_storing 1⟩)
  have hanswered : ∀ ev ∈ (storageRun 1 firstListed).2.1, Answered ev := answered_of_all_ok rfl
  exact ⟨_, firstListed.memory.cachedSnapshot, _, hreach, rfl, rfl,
    readsSnapshot_of_runs hanswered _⟩

end Sample

/-- The read returned what a fresh one returns. -/
theorem firstListed_read_afresh :
    ∃ w snapshot, (recordedSystem Sample.writer Sample.contentOf Sample.storageTask).Reachable w ∧
      ReadsSnapshot Sample.writer w.log snapshot 1 (.ok (.selfSigned (Sample.storedBackup 1))) ∧
      ReadsFrom w.store.buckets (S3BackupReader.readSelfSignedBundleBackup
        Sample.writer.bucketProperties 0) (.ok (Sample.storedBackup 1)) ∧
      ∀ fresh, ReadsFrom w.store.buckets (S3BackupReader.readSelfSignedBundleBackup
        Sample.writer.bucketProperties 0) fresh →
        .ok (.selfSigned (Sample.storedBackup 1)) = fresh.map StorageOutcome.selfSigned := by
  obtain ⟨w, snapshot, eTags, hreach, hbuckets, hhandle, hread⟩ := Sample.firstListed_reads
  have hafresh := (reads_afresh_of_recorded hreach snapshot 1 _ hread).1 0 0 0 eTags rfl hhandle
  refine ⟨w, snapshot, hreach, hread, ?_, hafresh⟩
  rw [hbuckets]
  exact Sample.readsFrom_storing 1

/-- The second read of the handle returns what is not stored any more. -/
theorem reused_handle_not_afresh :
    ∃ w snapshot eTags,
      (storageSystem Sample.writer Sample.contentOf Sample.storageTask).Reachable w ∧
        w.store.cachedSnapshot = snapshot ∧
        snapshot.selfSignedBundleBackupHandles 0 = some (.complete 0 0 eTags) ∧
        ReadsSnapshot Sample.writer w.log snapshot 1 (.ok (.selfSigned (Sample.storedBackup 2))) ∧
        ReadsFrom w.store.buckets (S3BackupReader.readSelfSignedBundleBackup
          Sample.writer.bucketProperties 0) (.ok (Sample.storedBackup 1)) ∧
        ¬ ReadsAfresh Sample.writer Sample.storageTask w := by
  obtain ⟨w, snapshot, eTags, hreach, hbuckets, hcached, hhandle, hread⟩ := Sample.relisted_reads
  have hfresh : ReadsFrom w.store.buckets (S3BackupReader.readSelfSignedBundleBackup
      Sample.writer.bucketProperties 0) (.ok (Sample.storedBackup 1)) := by
    rw [hbuckets]
    exact Sample.readsFrom_storing 1
  refine ⟨w, snapshot, eTags, hreach, hcached, hhandle, hread, hfresh, fun hafresh => ?_⟩
  have hsame := (hafresh snapshot 1 _ hread).1 0 0 0 eTags rfl hhandle _ hfresh
  cases hsame

end Mbs
