import TransparentCa.Mbs.ConfigFallback
import TransparentCa.Mbs.Generation
import TransparentCa.Mbs.KeyLayout

/- What an iteration achieves when it is let alone: nobody else touches the buckets, and no
   call fails without need (`Calm`). Whether it generates and whether it loads is then decided
   by what is stored when it begins (`CanGenerate`, `CanLoad`): the lock must be free if an
   epoch is missing, and no active epoch may have some artifacts but not all. -/
namespace Mbs
open Java Effects AssocList

/-- Gets fail for what is absent and puts for what is there; nothing else fails. -/
def Calm (s : Buckets) (o : MbsOp) (r : Except Throwable o.Val) : Prop :=
  match o, r with
  | .getObject _ _, .error e => e.instanceOf .noSuchKeyException = true
  | .putObject bucket key _ _, .error e =>
    s bucket key ≠ none ∧ e.instanceOf .s3Exception = true ∧ isPreconditionFailed e = true
  | _, .error _ => False
  | _, .ok _ => True

def calmStep (s : MonitorState) (o : MbsOp) (r : Except Throwable o.Val) (s' : MonitorState) :
    Prop :=
  monitorStep s o r s' ∧ Calm s.buckets o r

/-! ## The calls -/

section
variable {s s' : MonitorState} {o : MbsOp} {r : Except Throwable o.Val}

theorem not_alreadyLocked_of_s3 {e : Throwable} (h : e.instanceOf .s3Exception = true) :
    ¬ IsAlreadyLocked e := by
  obtain ⟨cls, message, statusCode, awsErrorCode⟩ := e
  cases cls <;> first
    | exact Bool.false_ne_true
    | cases h

theorem not_alreadyLocked_of_noSuchKey {e : Throwable}
    (h : e.instanceOf .noSuchKeyException = true) : ¬ IsAlreadyLocked e := by
  obtain ⟨cls, message, statusCode, awsErrorCode⟩ := e
  cases cls <;> first
    | exact Bool.false_ne_true
    | cases h

/-- What is known of runs that have the buckets to themselves applies. -/
theorem aloneStep_of_calm (h : calmStep s o r s') : aloneStep s.buckets o r s'.buckets := by
  refine ⟨h.1.1, fun e he => ?_⟩
  subst he
  obtain ⟨-, hcalm⟩ := h
  cases o <;> first
    | exact not_alreadyLocked_of_noSuchKey hcalm
    | exact not_alreadyLocked_of_s3 hcalm.2.1
    | exact hcalm.elim

theorem same_of_isRead (h : calmStep s o r s') (ho : o.isRead = true) : s' = s := by
  have hbuckets : s'.buckets = s.buckets := s3Step_of_not_write h.1.1 (not_isWrite_of_isRead ho)
  have hactive : s'.active = s.active := activeStep_of_not_set h.1.2 (not_set_of_isRead ho)
  cases s
  cases s'
  cases hbuckets
  cases hactive
  rfl

/-- The calls that are answered in a calm run. -/
def Answers : MbsOp → Prop
  | .getObject _ _ | .putObject _ _ _ _ => False
  | _ => True

theorem answered_of_calm (h : calmStep s o r s') (ho : Answers o) : ∃ v, r = .ok v := by
  obtain ⟨-, hcalm⟩ := h
  cases r with
  | ok v => exact ⟨v, rfl⟩
  | error e => cases o <;> first
    | exact hcalm.elim
    | exact ho.elim

end

/-- A read that is answered. -/
theorem calm_read {o : MbsOp} (hread : o.isRead = true) (hanswers : Answers o) (s : MonitorState) :
    Ensures calmStep (call o) s
      (fun _ out s' => s' = s ∧ ∃ v, out = .ok v ∧ calmStep s o (.ok v) s) := by
  apply Ensures.invoke
  intro r s' hstep
  obtain rfl := same_of_isRead hstep hread
  obtain ⟨v, rfl⟩ := answered_of_calm hstep hanswers
  exact ⟨rfl, v, rfl, hstep⟩

/-- A record before the rest. -/
theorem calm_read_bind {o : MbsOp} (hread : o.isRead = true) (hanswers : Answers o)
    {s : MonitorState} {β : Type} {f : o.Val → MbsProg β}
    {Q : List (Event MbsOp MbsOp.Val Throwable) → Except Throwable β → MonitorState → Prop}
    (h : ∀ v, calmStep s o (.ok v) s → Ensures calmStep (f v) s (fun tr out s' => Q (⟨o, .ok v⟩ :: tr) out s')) :
    Ensures calmStep (Prog.bind (α := no_index o.Val) (call o) f) s Q := by
  apply Ensures.bind
  apply Ensures.invoke
  intro r s' hstep
  obtain rfl := same_of_isRead hstep hread
  obtain ⟨v, rfl⟩ := answered_of_calm hstep hanswers
  exact h v hstep

/-- What a run that has the buckets to itself does, a calm one does. -/
theorem calm_of_alone {α : Type} {p : MbsProg α} {s : MonitorState}
    {Q : List (Event MbsOp MbsOp.Val Throwable) → Except Throwable α → Buckets → Prop}
    (h : Ensures aloneStep p s.buckets Q) :
    Ensures calmStep p s (fun tr out s' => Q tr out s'.buckets) :=
  Ensures.of_view MonitorState.buckets (fun _ _ _ _ hstep => aloneStep_of_calm hstep) h

/-- A program that does not set the active trust state leaves it as it is. -/
theorem calm_active {α : Type} {p : MbsProg α}
    (hp : p.Uses (fun o => ∀ state, o ≠ .setActiveTrustState state)) (s : MonitorState) :
    Ensures calmStep p s (fun _ _ s' => s'.active = s.active) :=
  Ensures.of_view MonitorState.active (fun _ _ _ _ hstep => hstep.1.2)
    (ensures_unchanged s.active hp)

/-! ## Generating -/

section
variable {names : BucketNames} {writer : S3BackupWriter} {s : MonitorState}

theorem calm_putIfAbsent {bucket key cacheControl : JString} {content : Bytes}
    (habsent : s.buckets bucket key = none) :
    Ensures calmStep (S3BackupWriter.putIfAbsent bucket key content cacheControl) s
      (fun _ out s' => out = .ok () ∧ Created s.buckets bucket key content s'.buckets) := by
  apply Ensures.handle
  apply Ensures.invoke
  rintro r s' ⟨⟨hs3, -⟩, hcalm⟩
  cases r with
  | ok v => exact ⟨rfl, hs3⟩
  | error e => exact absurd habsent hcalm.1

theorem calm_putIfAbsent_present {bucket key cacheControl : JString} {content : Bytes}
    (hpresent : s.buckets bucket key ≠ none) :
    Ensures calmStep (S3BackupWriter.putIfAbsent bucket key content cacheControl) s
      (fun _ out s' => s'.buckets = s.buckets ∧ ∃ e, out = .error e ∧
        e.instanceOf .backupAlreadyExistsException = true) := by
  apply Ensures.handle
  apply Ensures.invoke
  rintro r s' ⟨⟨hs3, -⟩, hcalm⟩
  cases r with
  | ok v => exact absurd hs3.1 hpresent
  | error e =>
    -- S3 reports the object that is there, and the writer turns this into its own exception.
    obtain ⟨-, hcls, hfailed⟩ := hcalm
    have hsdk : e.instanceOf .sdkException = true := by
      obtain ⟨cls, message, statusCode, awsErrorCode⟩ := e
      cases cls <;> first
        | rfl
        | cases hcls
    have hs : s'.buckets = s.buckets := by
      rcases hs3 with h | h
      · exact h
      · exact absurd h.1 hpresent
    refine Ensures.raise ⟨hs, _, rfl, ?_⟩
    rw [S3BackupWriter.putFailure, hsdk, hcls, hfailed]
    rfl

/-- By induction on what is left of the write order. -/
theorem calm_putArtifacts {epoch : Epoch} {backup : SelfSignedBundleBackup}
    (rest : List SelfSignedBundleBackupElement) (hnodup : rest.Nodup) (s : MonitorState)
    (habsent : ∀ element ∈ rest, artifact names s.buckets epoch element = none) :
    Ensures calmStep (writer.putArtifacts names epoch backup rest) s
      (fun _ out _ => out = .ok ()) := by
  induction rest generalizing s with
  | nil => exact Ensures.ret rfl
  | cons element rest ih =>
    apply Ensures.bind
    apply (calm_putIfAbsent (habsent element List.mem_cons_self)).mono
    rintro _ _ s₁ ⟨rfl, hcreated⟩
    apply ih (List.nodup_cons.mp hnodup).2
    intro element' hmem
    obtain ⟨-, eTag, heq⟩ := hcreated
    have hne : ¬ (epoch = epoch ∧ element' = element) := by
      rintro ⟨-, rfl⟩
      exact (List.nodup_cons.mp hnodup).1 hmem
    rw [heq, artifact_set, if_neg hne]
    exact habsent element' (List.mem_cons_of_mem element hmem)

theorem calm_generateAndWrite (hw : writer.On names) {config : CertificatesConfig}
    {certConfig : SelfSignedCertificate}
    (hlookup : config.selfSignedCertificates.lookup certConfig.epochId = some certConfig)
    (hnone : NoArtifact names s.buckets certConfig.epochId) :
    Ensures calmStep ((s3Generator writer).generateAndWrite config (emptyHandle writer certConfig)) s
      (fun _ out _ => out = .ok ()) := by
  unfold DefaultCertificateGenerator.generateAndWrite emptyHandle
  rw [hlookup]
  refine calm_read_bind (o := .generate certConfig) rfl trivial (fun backup _ => ?_)
  show Ensures calmStep (writer.writeSelfSignedBundleBackup certConfig.epochId backup) s _
  rw [writeSelfSignedBundleBackup_eq hw]
  exact calm_putArtifacts writeOrder (by decide) s (fun element _ => noArtifact_iff.mp hnone element)

/-- By induction on the epochs that are left: the ones after a filled epoch are still empty. -/
theorem calm_generateAndWriteAll (hw : writer.On names) {config : CertificatesConfig}
    (certs : List SelfSignedCertificate) (hlookup : ∀ certConfig ∈ certs,
      config.selfSignedCertificates.lookup certConfig.epochId = some certConfig)
    (hnodup : (certs.map SelfSignedCertificate.epochId).Nodup) (s : MonitorState)
    (hnone : ∀ certConfig ∈ certs, NoArtifact names s.buckets certConfig.epochId) :
    Ensures calmStep
      ((s3Generator writer).generateAndWriteAll config (certs.map (emptyHandle writer))) s
      (fun _ out _ => out = .ok ()) := by
  induction certs generalizing s with
  | nil => exact Ensures.ret rfl
  | cons certConfig certs ih =>
    have hfirst := hlookup certConfig List.mem_cons_self
    apply Ensures.bind
    apply ((calm_generateAndWrite hw hfirst (hnone certConfig List.mem_cons_self)).and
      (calm_of_alone (ensures_generateAndWrite hw hfirst s.buckets))).mono
    rintro _ _ s₁ ⟨rfl, hfills, -⟩
    refine ih (fun c hc => hlookup c (List.mem_cons_of_mem certConfig hc))
      (List.nodup_cons.mp hnodup).2 s₁ (fun c hc => ?_)
    refine (hnone c (List.mem_cons_of_mem certConfig hc)).of_onlyFills hfills (fun hmem => ?_)
    rw [List.mem_singleton] at hmem
    apply (List.nodup_cons.mp hnodup).1
    rw [← hmem]
    exact List.mem_map_of_mem hc

/-- A snapshot taken of these buckets. -/
def SnapshotOf (names : BucketNames) (s : Buckets) (snapshot : S3StorageSnapshot) : Prop :=
  ∃ generation previous, snapshot = S3BackupStorage.nextSnapshot generation (eTagsAt names s s)
    (fun id => (crossSignedObject names s id).map S3Object.eTag) previous

theorem SnapshotOf.none_iff {buckets : Buckets} {snapshot : S3StorageSnapshot}
    (h : SnapshotOf names buckets snapshot) (epoch : Epoch) :
    snapshot.selfSignedBundleBackupHandles epoch = none ↔ NoArtifact names buckets epoch := by
  obtain ⟨generation, previous, rfl⟩ := h
  exact nextSnapshot_eq_none_iff.trans eTagsAt_eq_none_iff

theorem SnapshotOf.crossSigned_none_iff {buckets : Buckets} {snapshot : S3StorageSnapshot}
    (h : SnapshotOf names buckets snapshot) (id : CrossSignedCertificateId) :
    snapshot.crossSignedCertificateBackupHandles id = none ↔
      crossSignedObject names buckets id = none := by
  obtain ⟨generation, previous, rfl⟩ := h
  exact Option.map_eq_none_iff.trans Option.map_eq_none_iff

theorem calm_listBucket (bucket keyPrefix : JString) (s : MonitorState) :
    Ensures calmStep (S3BackupStorage.listBucket bucket keyPrefix) s (fun _ out s' => s' = s ∧
      ∃ objects, out = .ok objects ∧ Listing s.buckets bucket keyPrefix objects) := by
  apply Ensures.handle
  apply (calm_read (o := .listObjectsV2 bucket keyPrefix) rfl trivial s).mono
  rintro _ _ _ ⟨rfl, objects, rfl, hstep⟩
  exact ⟨rfl, objects, rfl, hstep.1.1.1⟩

theorem calm_takeSnapshot (hw : writer.On names) (s : MonitorState) :
    Ensures calmStep (S3BackupStorage.takeSnapshot writer) s (fun _ out s' => s' = s ∧
      ∃ snapshot, out = .ok snapshot ∧ SnapshotOf names s.buckets snapshot) := by
  obtain ⟨hpublic, hprivate⟩ := hw
  unfold S3BackupStorage.takeSnapshot
  rw [hpublic, hprivate]
  apply Ensures.bind
  apply (calm_listBucket _ _ s).mono
  rintro _ _ _ ⟨rfl, publicObjects, rfl, hfirst⟩
  apply Ensures.bind
  apply (calm_listBucket _ _ _).mono
  rintro _ _ s₁ ⟨rfl, privateObjects, rfl, hsecond⟩
  apply (calm_read (o := .updateCachedSnapshot _ _) rfl trivial s₁).mono
  rintro _ _ s' ⟨rfl, snapshot, rfl, hstep⟩
  -- Both listings are of these buckets, so together they list what is stored.
  obtain ⟨generation, previous, rfl⟩ := hstep.1.1.1
  refine ⟨rfl, _, rfl, generation, previous, ?_⟩
  have hcross : (S3BackupStorage.recordPublic publicObjects).2 =
      fun id => (crossSignedObject names s'.buckets id).map S3Object.eTag :=
    funext (recordPublic_crossSigned hfirst)
  rw [← recordPrivate_recordPublic hfirst hsecond, ← hcross]
  rfl

theorem calm_acquireLock (hw : writer.On names) (hfree : lockObject names s.buckets = none) :
    Ensures calmStep writer.acquireLock s
      (fun _ out s' => out = .ok () ∧ TookLock names s.buckets s'.buckets) := by
  unfold S3BackupWriter.acquireLock
  rw [hw.2]
  apply Ensures.handle
  apply (calm_putIfAbsent hfree).mono
  rintro _ _ s' ⟨rfl, hcreated⟩
  exact ⟨rfl, _, hcreated⟩

theorem calm_acquireLock_held (hw : writer.On names) (hheld : lockObject names s.buckets ≠ none) :
    Ensures calmStep writer.acquireLock s (fun _ out s' => s'.buckets = s.buckets ∧
      ∃ e, out = .error e ∧ IsAlreadyLocked e) := by
  unfold S3BackupWriter.acquireLock
  rw [hw.2]
  apply Ensures.handle
  apply (calm_putIfAbsent_present hheld).mono
  rintro _ _ s' ⟨hs, e, rfl, he⟩
  show Ensures calmStep (ite _ _ _) s' _
  rw [if_pos he]
  exact Ensures.raise ⟨hs, _, rfl, rfl⟩

theorem calm_releaseLock (s : MonitorState) :
    Ensures calmStep writer.releaseLock s (fun _ out _ => out = .ok ()) := by
  apply Ensures.handle
  apply Ensures.invoke
  intro r s' hstep
  obtain ⟨v, rfl⟩ := answered_of_calm hstep trivial
  rfl

/-- The epochs of the missing certificates are distinct. -/
theorem nodup_missing (config : CertificatesConfig) (buckets : Buckets) :
    ((missingCertificates names config buckets).map SelfSignedCertificate.epochId).Nodup := by
  have hkeys : (config.selfSignedCertificates.map Prod.snd).map SelfSignedCertificate.epochId =
      config.selfSignedCertificates.map Prod.fst := by
    rw [List.map_map]
    exact List.map_congr_left (fun entry hentry => (config.selfSigned_key entry hentry).symm)
  have hsorted : (config.getSelfSignedCertificates.map SelfSignedCertificate.epochId).Nodup := by
    have hperm : (config.getSelfSignedCertificates.map SelfSignedCertificate.epochId).Perm
        (config.selfSignedCertificates.map Prod.fst) := by
      rw [← hkeys]
      exact (List.perm_insertionSort _ _).map _
    exact hperm.nodup_iff.mpr config.selfSigned_nodup
  exact hsorted.sublist (List.filter_sublist.map _)

/-- Generating has nothing to do, or the lock is free. -/
def CanGenerate (names : BucketNames) (config : CertificatesConfig) (s : Buckets) : Prop :=
  missingCertificates names config s = [] ∨ lockObject names s = none

theorem calm_generateUnderLock (hw : writer.On names) (config : CertificatesConfig)
    (hfree : lockObject names s.buckets = none) :
    Ensures calmStep ((s3Generator writer).generateUnderLock config) s
      (fun _ out _ => out = .ok ()) := by
  apply Ensures.bind
  apply (calm_acquireLock hw hfree).mono
  rintro _ _ s₁ ⟨rfl, hlock⟩
  show Ensures calmStep (Prog.bind (S3BackupStorage.getSnapshot writer) _) s₁ _
  rw [getSnapshot_bind]
  apply Ensures.bind
  apply (calm_takeSnapshot hw s₁).mono
  rintro _ _ s₂ ⟨rfl, snapshot, rfl, hsnapshot⟩
  -- The snapshot is taken again under the lock, and what is missing is read off this one.
  have hmissing : DefaultCertificateGenerator.findMissingSelfSignedBundleBackups config
      (snapshot.toStorageSnapshot writer) = _ := findMissing_eq hsnapshot.none_iff
  show Ensures calmStep (Prog.bind _ _) s₂ _
  rw [hmissing]
  apply Ensures.bind
  apply (calm_generateAndWriteAll hw _ lookup_of_mem_missing (nodup_missing config _) s₂
    (fun certConfig hmem => (mem_missingCertificates.mp hmem).2)).mono
  rintro _ _ s₃ rfl
  exact calm_releaseLock s₃

/-- One attempt: it returns if it can generate, and otherwise finds the lock held. -/
theorem calm_attempt (hw : writer.On names) (config : CertificatesConfig) (s : MonitorState) :
    Ensures calmStep ((s3Generator writer).generateMissingSelfSignedBundleBackups config) s
      (fun _ out s' => match out with
        | .ok _ => CanGenerate names config s.buckets
        | .error e => ¬ CanGenerate names config s.buckets ∧ s'.buckets = s.buckets ∧
            IsAlreadyLocked e) := by
  show Ensures calmStep (Prog.bind (S3BackupStorage.getSnapshot writer) _) s _
  rw [getSnapshot_bind]
  apply Ensures.bind
  apply (calm_takeSnapshot hw s).mono
  rintro _ _ s ⟨rfl, snapshot, rfl, hsnapshot⟩
  have hmissing : DefaultCertificateGenerator.findMissingSelfSignedBundleBackups config
      (snapshot.toStorageSnapshot writer) = _ := findMissing_eq hsnapshot.none_iff
  show Ensures calmStep (ite _ _ _) _ _
  rw [hmissing]
  split
  · next hempty =>
    rw [List.isEmpty_iff, List.map_eq_nil_iff] at hempty
    exact Ensures.ret (.inl hempty)
  · next hnonempty =>
    rw [List.isEmpty_iff, List.map_eq_nil_iff] at hnonempty
    by_cases hfree : lockObject names s.buckets = none
    · apply (calm_generateUnderLock hw config hfree).mono
      rintro _ _ _ rfl
      exact .inr hfree
    · apply Ensures.bind
      apply (calm_acquireLock_held hw hfree).mono
      rintro _ _ s' ⟨hs, e, rfl, he⟩
      exact ⟨fun hcan => hcan.elim hnonempty hfree, hs, he⟩

theorem exception_of_alreadyLocked {e : Throwable} (h : IsAlreadyLocked e) :
    e.instanceOf .exception = true := by
  obtain ⟨cls, message, statusCode, awsErrorCode⟩ := e
  cases cls <;> first
    | rfl
    | cases h

theorem calm_retry (hw : writer.On names) (config : CertificatesConfig) (s : MonitorState) :
    Ensures calmStep
      ((s3Generator writer).generateMissingSelfSignedBundleBackupsWithRetryOnTransientError config) s
      (fun _ out s' => match out with
        | .ok _ => CanGenerate names config s.buckets
        | .error e => ¬ CanGenerate names config s.buckets ∧ s'.buckets = s.buckets ∧
            IsAlreadyLocked e) := by
  apply Ensures.handle
  apply (calm_attempt hw config s).mono
  intro _ r s₁ hfirst
  cases r with
  | ok _ => exact hfirst
  | error e =>
    obtain ⟨-, hs₁, hlocked⟩ := hfirst
    show Ensures calmStep (ite _ _ _) s₁ _
    rw [if_pos (show e.instanceOf .backupStorageAlreadyLockedException = true from hlocked)]
    -- The lock is as it was, so the second attempt finds it held too.
    refine calm_read_bind (o := .sleep) rfl trivial (fun _ _ => ?_)
    rw [← hs₁]
    exact calm_attempt hw config s₁

theorem calm_generateCertificates (hw : writer.On names) (config : CertificatesConfig)
    (s : MonitorState) :
    Ensures calmStep ((s3Generator writer).generateCertificates config) s (fun tr out s' =>
      match out with
      | .ok _ => CanGenerate names config s.buckets ∧
          FillsAll names (missingCertificates names config s.buckets) s.buckets tr s'.buckets
      | .error e => ¬ CanGenerate names config s.buckets ∧ s'.buckets = s.buckets ∧
          e.instanceOf .exception = true) := by
  have hends : Ensures calmStep ((s3Generator writer).generateCertificates config) s
      (fun _ out s' => match out with
        | .ok _ => CanGenerate names config s.buckets
        | .error e => ¬ CanGenerate names config s.buckets ∧ s'.buckets = s.buckets ∧
            e.instanceOf .exception = true) := by
    apply Ensures.handle
    apply Ensures.bind
    apply (calm_retry hw config s).mono
    intro _ r s₁ hattempts
    cases r with
    | ok _ =>
      apply (calm_read (o := .recordGenerationEvent .success) rfl trivial s₁).mono
      rintro _ _ s₂ ⟨rfl, v, rfl, -⟩
      exact hattempts
    | error e =>
      obtain ⟨hcannot, hs₁, hlocked⟩ := hattempts
      show Ensures calmStep (ite _ _ _) s₁ _
      rw [if_pos (exception_of_alreadyLocked hlocked)]
      refine calm_read_bind (o := .recordGenerationEvent _) rfl trivial (fun _ _ => ?_)
      exact Ensures.raise ⟨hcannot, hs₁, rfl⟩
  apply (hends.and (calm_of_alone (ensures_generateCertificates hw config s.buckets))).mono
  rintro tr out s' ⟨hout, heffect⟩
  cases out with
  | ok _ => exact ⟨hout, heffect.1⟩
  | error e => exact hout

end

/-! ## Loading -/

section
variable {core : MbsCore} {names : BucketNames}

/-- A value if `P` holds, and otherwise an exception that the monitor catches. -/
def Decides {α : Type} (P : Prop) : Except Throwable α → Prop
  | .ok _ => P
  | .error e => ¬ P ∧ e.instanceOf .exception = true

/-- The four artifacts of the epoch are stored. -/
def Complete (names : BucketNames) (s : Buckets) (epoch : Epoch) : Prop :=
  ∀ element, artifact names s epoch element ≠ none

theorem calm_tryGet {bucket key : JString} {s : MonitorState} (h : s.buckets bucket key ≠ none) :
    Ensures calmStep (S3BackupReader.tryGetS3Object bucket key) s
      (fun _ out s' => s' = s ∧ ∃ bytes, out = .ok (some bytes)) := by
  apply Ensures.handle
  apply Ensures.bind
  apply Ensures.invoke
  intro r s' hstep
  obtain rfl := same_of_isRead hstep rfl
  cases r with
  | ok bytes => exact Ensures.ret ⟨rfl, bytes, rfl⟩
  | error e => exact absurd (hstep.1.1.1 hstep.2) h

/-- A read of a complete backup. -/
theorem calm_readSelfSigned {bucketProperties : BackupBucketProperties}
    (ho : bucketProperties.On names) {epoch : Epoch} {s : MonitorState}
    (hcomplete : Complete names s.buckets epoch) :
    Ensures calmStep (S3BackupReader.readSelfSignedBundleBackup bucketProperties epoch) s
      (fun _ out s' => s' = s ∧ ∃ backup, out = .ok backup) := by
  rw [readSelfSignedBundleBackup_eq ho]
  apply Ensures.bind
  apply (calm_tryGet (hcomplete .cert)).mono
  rintro _ _ _ ⟨rfl, cert, rfl⟩
  apply Ensures.bind
  apply (calm_tryGet (hcomplete .kmsDataKey)).mono
  rintro _ _ _ ⟨rfl, kms, rfl⟩
  apply Ensures.bind
  apply (calm_tryGet (hcomplete .privateKey)).mono
  rintro _ _ _ ⟨rfl, aead, rfl⟩
  apply Ensures.bind
  apply (calm_tryGet (hcomplete .attestationDoc)).mono
  rintro _ _ s ⟨rfl, doc, rfl⟩
  exact Ensures.ret ⟨rfl, _, rfl⟩

theorem calm_withMonitor {α : Type} {handle : HandleRef} {p : MbsProg α} {s : MonitorState}
    (hp : Ensures calmStep p s (fun _ out s' => s' = s ∧ ∃ a, out = .ok a)) :
    Ensures calmStep (withMonitor handle p) s (fun _ out s' => s' = s ∧ ∃ a, out = .ok a) := by
  refine calm_read_bind (o := .monitorEnter handle) rfl trivial (fun _ _ => ?_)
  apply Ensures.finallyDo
  apply hp.mono
  rintro _ _ _ ⟨rfl, a, rfl⟩
  exact calm_read_bind (o := .monitorExit handle) rfl trivial (fun _ _ => Ensures.ret ⟨rfl, a, rfl⟩)

theorem calm_readSelfSignedHandle {bucketProperties : BackupBucketProperties}
    (ho : bucketProperties.On names) (generation : Nat) {epoch : Epoch} {s : MonitorState}
    (hcomplete : Complete names s.buckets epoch) :
    Ensures calmStep (readSelfSignedHandle bucketProperties generation epoch) s
      (fun _ out s' => s' = s ∧ ∃ backup, out = .ok backup) := by
  apply calm_withMonitor
  refine calm_read_bind (o := .getCachedBackup generation epoch) rfl trivial (fun cached _ => ?_)
  match cached with
  | some backup => exact Ensures.ret ⟨rfl, backup, rfl⟩
  | none =>
    apply Ensures.bind
    apply (calm_readSelfSigned ho hcomplete).mono
    rintro _ _ _ ⟨rfl, backup, rfl⟩
    exact calm_read_bind (o := .setCachedBackup generation epoch backup) rfl trivial
      (fun _ _ => Ensures.ret ⟨rfl, backup, rfl⟩)

theorem calm_readCrossSignedHandle {bucketProperties : BackupBucketProperties}
    (ho : bucketProperties.On names) (generation : Nat) {id : CrossSignedCertificateId}
    {s : MonitorState} (hstored : crossSignedObject names s.buckets id ≠ none) :
    Ensures calmStep (readCrossSignedHandle bucketProperties generation id) s
      (fun _ out s' => s' = s ∧ ∃ backup, out = .ok backup) := by
  apply calm_withMonitor
  refine calm_read_bind (o := .getCachedCrossSigned generation id) rfl trivial (fun cached _ => ?_)
  match cached with
  | some backup => exact Ensures.ret ⟨rfl, backup, rfl⟩
  | none =>
    unfold S3BackupReader.readCrossSignedCertificateBackup
    rw [ho.1]
    apply Ensures.bind
    apply Ensures.bind
    apply (calm_tryGet hstored).mono
    rintro _ _ _ ⟨rfl, bytes, rfl⟩
    apply Ensures.ret
    exact calm_read_bind (o := .setCachedCrossSigned generation id ⟨bytes⟩) rfl trivial
      (fun _ _ => Ensures.ret ⟨rfl, ⟨bytes⟩, rfl⟩)

theorem eTagsAt_ne_none_iff {buckets : Buckets} {epoch : Epoch}
    {element : SelfSignedBundleBackupElement} :
    eTagsAt names buckets buckets (epoch, element) ≠ none ↔
      artifact names buckets epoch element ≠ none := by
  cases element <;> exact not_congr Option.map_eq_none_iff

/-- What a snapshot of the buckets lets be read of an epoch. -/
theorem expectComplete_of_snapshot (core : MbsCore) {buckets : Buckets}
    {snapshot : S3StorageSnapshot} (h : SnapshotOf names buckets snapshot) (epoch : Epoch) :
    (Complete names buckets epoch → ∃ generation,
      ((snapshot.toStorageSnapshot core.writer).getSelfSignedBundleBackupHandle
        epoch).expectComplete =
          .ok (readSelfSignedHandle core.writer.bucketProperties generation epoch)) ∧
    (¬ Complete names buckets epoch → ∃ e,
      ((snapshot.toStorageSnapshot core.writer).getSelfSignedBundleBackupHandle
        epoch).expectComplete = .error e ∧ e.instanceOf .exception = true) := by
  obtain ⟨generation, previous, rfl⟩ := h
  simp only [S3StorageSnapshot.toStorageSnapshot, S3StorageSnapshot.getSelfSignedBundleBackupHandle]
  rcases S3BackupStorage.nextSnapshot_cases generation (eTagsAt names buckets buckets)
      (fun id => (crossSignedObject names buckets id).map S3Object.eTag) previous epoch with
    ⟨hhandle, hnone⟩ | ⟨cached, eTags, hhandle, hlisting⟩ | ⟨keys, hhandle, -, element, hnone⟩ |
    ⟨keys, hhandle, hnone⟩
  · rw [hhandle]
    refine ⟨fun hcomplete => ?_, fun _ => ⟨_, rfl, rfl⟩⟩
    exact absurd (hnone .cert) (eTagsAt_ne_none_iff.mpr (hcomplete .cert))
  · rw [hhandle]
    refine ⟨fun _ => ⟨cached, rfl⟩, fun hnot => absurd (fun element => ?_) hnot⟩
    apply eTagsAt_ne_none_iff.mp
    rw [hlisting.1 element]
    exact Option.some_ne_none _
  · rw [hhandle]
    refine ⟨fun hcomplete => ?_, fun _ => ⟨_, rfl, rfl⟩⟩
    exact absurd hnone (eTagsAt_ne_none_iff.mpr (hcomplete element))
  · rw [hhandle]
    refine ⟨fun hcomplete => ?_, fun _ => ⟨_, rfl, rfl⟩⟩
    exact absurd hnone (eTagsAt_ne_none_iff.mpr (hcomplete .cert))

theorem calm_useLoadedOrLoad (previous : Option LoadedSelfSignedBundle)
    (backup : SelfSignedBundleBackup) (s : MonitorState) :
    Ensures calmStep (core.trustPackageService.useLoadedOrLoadSelfSignedBundle previous backup) s
      (fun _ out s' => s' = s ∧ ∃ loaded, out = .ok loaded) := by
  have hload : Ensures calmStep (do
      let bundle ← core.trustPackageService.unsealBackup backup
      return (⟨backup, bundle⟩ : LoadedSelfSignedBundle)) s
      (fun _ out s' => s' = s ∧ ∃ loaded, out = .ok loaded) :=
    calm_read_bind (o := .unsealBackup backup) rfl trivial
      (fun bundle _ => Ensures.ret ⟨rfl, ⟨backup, bundle⟩, rfl⟩)
  unfold TrustPackageService.useLoadedOrLoadSelfSignedBundle
  split
  · split
    · exact Ensures.ret ⟨rfl, _, rfl⟩
    · exact hload
  · exact hload

/-- By induction on the certificates that are left. -/
theorem calm_loadSelfSignedBundles (hw : core.writer.On names) {snapshot : S3StorageSnapshot}
    {s : MonitorState} (hsnapshot : SnapshotOf names s.buckets snapshot)
    (previousState : Option ActiveTrustState) (certs : List SelfSignedCertificate) :
    Ensures calmStep (core.trustPackageService.loadSelfSignedBundles
        (snapshot.toStorageSnapshot core.writer) previousState certs) s
      (fun _ out s' => s' = s ∧
        Decides (∀ c ∈ certs, Complete names s.buckets c.epochId) out) := by
  induction certs with
  | nil => exact Ensures.ret ⟨rfl, fun c hc => by cases hc⟩
  | cons certConfig rest ih =>
    unfold TrustPackageService.loadSelfSignedBundles
    rw [List.forall_mem_cons]
    obtain ⟨hyes, hno⟩ := expectComplete_of_snapshot core hsnapshot certConfig.epochId
    -- An epoch that is not complete ends the load here, whatever the rest of them are.
    by_cases hcomplete : Complete names s.buckets certConfig.epochId
    · obtain ⟨generation, hread⟩ := hyes hcomplete
      rw [hread, and_iff_right hcomplete]
      show Ensures calmStep (Prog.bind (readSelfSignedHandle _ _ _) _) s _
      apply Ensures.bind
      apply (calm_readSelfSignedHandle hw generation hcomplete).mono
      rintro _ _ _ ⟨rfl, backup, rfl⟩
      apply Ensures.bind
      apply (calm_useLoadedOrLoad _ backup _).mono
      rintro _ _ _ ⟨rfl, loaded, rfl⟩
      apply Ensures.bind
      apply ih.mono
      rintro _ out s ⟨rfl, hout⟩
      cases out with
      | ok entries => exact Ensures.ret ⟨rfl, hout⟩
      | error e => exact ⟨rfl, hout⟩
    · obtain ⟨e, he, hcls⟩ := hno hcomplete
      rw [he]
      exact Ensures.raise ⟨rfl, fun hall => hcomplete hall.1, hcls⟩

/-- By induction on the certificates that are left. -/
theorem calm_loadCrossSignedCertificates (hw : core.writer.On names) {snapshot : S3StorageSnapshot}
    {s : MonitorState} (hsnapshot : SnapshotOf names s.buckets snapshot)
    (certs : List CrossSignedCertificate) :
    Ensures calmStep (core.trustPackageService.loadCrossSignedCertificates
        (snapshot.toStorageSnapshot core.writer) certs) s
      (fun _ out s' => s' = s ∧
        Decides (∀ c ∈ certs, crossSignedObject names s.buckets c.id ≠ none) out) := by
  induction certs with
  | nil => exact Ensures.ret ⟨rfl, fun c hc => by cases hc⟩
  | cons crossCertConfig rest ih =>
    have hiff := hsnapshot.crossSigned_none_iff crossCertConfig.id
    unfold TrustPackageService.loadCrossSignedCertificates
    simp only [S3StorageSnapshot.toStorageSnapshot,
      S3StorageSnapshot.getCrossSignedCertificateBackupHandle]
    rw [List.forall_mem_cons]
    cases hfound : snapshot.crossSignedCertificateBackupHandles crossCertConfig.id with
    | none => exact Ensures.raise ⟨rfl, fun hall => hall.1 (hiff.mp hfound), rfl⟩
    | some handle =>
      have hid : handle.id = crossCertConfig.id := snapshot.id_eq _ _ hfound
      have hpresent : crossSignedObject names s.buckets crossCertConfig.id ≠ none := by
        intro hnone
        rw [hiff.mpr hnone] at hfound
        cases hfound
      show Ensures calmStep (Prog.bind (readCrossSignedHandle _ _ _) _) s _
      rw [hid, and_iff_right hpresent]
      apply Ensures.bind
      apply (calm_readCrossSignedHandle hw handle.generation hpresent).mono
      rintro _ _ _ ⟨rfl, backup, rfl⟩
      apply Ensures.bind
      apply Ensures.handle
      apply (calm_read (o := .toCertificate backup.certBytes) rfl trivial _).mono
      rintro _ _ _ ⟨rfl, certificate, rfl, -⟩
      apply Ensures.bind
      apply ih.mono
      rintro _ out s ⟨rfl, hout⟩
      cases out with
      | ok certificates => exact Ensures.ret ⟨rfl, hout⟩
      | error e => exact ⟨rfl, hout⟩

/-- Whatever is active is stored. -/
structure CanLoad (names : BucketNames) (config : CertificatesConfig) (s : Buckets) : Prop where
  selfSigned : ∀ c ∈ config.activeSelfSignedCertificates, Complete names s c.epochId
  crossSigned : ∀ c ∈ config.activeCrossSignedCertificates, crossSignedObject names s c.id ≠ none

/-- A load that can load does so, and another one throws and changes nothing. -/
def LoadEnds (names : BucketNames) (config : CertificatesConfig) (s : MonitorState)
    (out : Except Throwable Unit) (s' : MonitorState) : Prop :=
  s'.buckets = s.buckets ∧ match out with
    | .ok _ => CanLoad names config s.buckets ∧ LoadedFor config s'.active
    | .error e => ¬ CanLoad names config s.buckets ∧ s'.active = s.active ∧
        e.instanceOf .exception = true

theorem calm_loadActiveTrustState (hw : core.writer.On names) (config : CertificatesConfig)
    (s : MonitorState) :
    Ensures calmStep (core.trustPackageService.loadActiveTrustState config) s
      (fun _ out s' => LoadEnds names config s out s') := by
  show Ensures calmStep (Prog.bind (S3BackupStorage.getSnapshot core.writer) _) s _
  rw [getSnapshot_bind]
  apply Ensures.bind
  apply (calm_takeSnapshot hw s).mono
  rintro _ _ s ⟨rfl, snapshot, rfl, hsnapshot⟩
  apply Ensures.bind
  refine calm_read_bind (o := .getActiveTrustState) rfl trivial (fun previousState _ => ?_)
  apply (calm_loadSelfSignedBundles hw hsnapshot previousState
    config.activeSelfSignedCertificates).with_runs.mono
  rintro _ r s ⟨⟨rfl, hselfSigned⟩, hloads⟩
  cases r with
  | error e => exact ⟨rfl, fun hcan => hselfSigned.1 hcan.selfSigned, rfl, hselfSigned.2⟩
  | ok entries =>
  apply Ensures.bind
  apply (calm_loadCrossSignedCertificates hw hsnapshot
    config.activeCrossSignedCertificates).with_runs.mono
  rintro _ r s ⟨⟨rfl, hcrossSigned⟩, hcertificates⟩
  cases r with
  | error e => exact ⟨rfl, fun hcan => hcrossSigned.1 hcan.crossSigned, rfl, hcrossSigned.2⟩
  | ok certificates =>
  apply Ensures.invoke
    (o := MbsOp.setActiveTrustState ⟨core.mapOrder.copyOf entries, certificates⟩)
  rintro r s' ⟨⟨hs3, rfl, hactive⟩, -⟩
  refine ⟨hs3, ⟨hselfSigned, hcrossSigned⟩, _, hactive, ?_, ?_⟩
  · have hkeys := TrustPackageService.keys_of_loadSelfSignedBundles _ _ hloads
    rw [config.map_epochId_active] at hkeys
    rw [← hkeys]
    exact (core.mapOrder.perm entries).map Prod.fst
  · exact TrustPackageService.length_of_loadCrossSignedCertificates _ _ hcertificates

/-- The retry finds the same buckets, so it ends as the first attempt did. -/
theorem calm_reload (hw : core.writer.On names) (config : CertificatesConfig) (s : MonitorState) :
    Ensures calmStep (core.trustPackageService.reload config) s
      (fun _ out s' => LoadEnds names config s out s') := by
  have hretry : Ensures calmStep
      (core.trustPackageService.reloadTrustPackageWithRetryOnTransientError config) s
      (fun _ out s' => LoadEnds names config s out s') := by
    apply Ensures.handle
    apply (calm_loadActiveTrustState hw config s).mono
    rintro _ r s₁ ⟨hs₁, hfirst⟩
    cases r with
    | ok _ => exact ⟨hs₁, hfirst⟩
    | error e =>
      show Ensures calmStep (ite _ _ _) s₁ _
      split
      · refine calm_read_bind (o := .sleep) rfl trivial (fun _ _ => ?_)
        apply (calm_loadActiveTrustState hw config s₁).mono
        intro _ out s' hsecond
        unfold LoadEnds at hsecond ⊢
        rw [hs₁] at hsecond
        rw [← hfirst.2.1]
        exact hsecond
      · exact Ensures.raise ⟨hs₁, hfirst⟩
  apply Ensures.handle
  apply Ensures.bind
  apply hretry.mono
  rintro _ r s₁ ⟨hs₁, hends⟩
  cases r with
  | ok _ =>
    apply (calm_read (o := .recordLoadEvent .success) rfl trivial s₁).mono
    rintro _ _ s₂ ⟨rfl, v, rfl, -⟩
    exact ⟨hs₁, hends⟩
  | error e =>
    obtain ⟨hcannot, hactive, hcls⟩ := hends
    show Ensures calmStep (ite _ _ _) s₁ _
    rw [if_pos hcls]
    refine calm_read_bind (o := .recordLoadEvent _) rfl trivial (fun _ _ => ?_)
    exact Ensures.raise ⟨hs₁, hcannot, hactive, rfl⟩

end

/-! ## The config -/

/-- The config that the provider makes of the buckets: the one in the config file, or the
hardcoded one when there is no such file or it does not parse. -/
def MbsCore.ConfigIn (core : MbsCore) (s : Buckets) (config : CertificatesConfig) : Prop :=
  match s core.names.publicBucket S3BackupPaths.certificatesConfigFilePath with
  | none => config = defaultConfig
  | some o => match core.configProvider.configOf (.ok o.content) with
    | .ok parsed => config = parsed
    | .error e => config = defaultConfig ∧ e.instanceOf .exception = true

section
variable {core : MbsCore} {s : MonitorState}

theorem calm_parse (provider : S3CertificatesConfigProvider) (textProto : JString)
    (s : MonitorState) :
    Ensures calmStep (provider.parse textProto) s
      (fun _ out s' => s' = s ∧ out = provider.fromTextProto textProto) := by
  apply Ensures.handle
  apply Ensures.bind
  apply Ensures.ofExcept
  cases provider.fromTextProto textProto with
  | ok config =>
    exact calm_read_bind (o := .recordConfigEvent .success) rfl trivial
      (fun _ _ => Ensures.ret ⟨rfl, rfl⟩)
  | error e =>
    show Ensures calmStep (ite _ _ _) s _
    split
    · exact calm_read_bind (o := .recordConfigEvent .invalidConfigurationFile) rfl trivial
        (fun _ _ => Ensures.raise ⟨rfl, rfl⟩)
    · exact Ensures.raise ⟨rfl, rfl⟩

/-- A get that finds the config file. -/
theorem calm_fetchAndParse (provider : S3CertificatesConfigProvider) {o : S3Object}
    (ho : s.buckets provider.bucketName provider.configFileName = some o) :
    Ensures calmStep provider.fetchAndParse s
      (fun _ out s' => s' = s ∧ out = provider.configOf (.ok o.content)) := by
  apply Ensures.bind
  apply Ensures.handle
  apply Ensures.invoke
  intro r s' hstep
  obtain rfl := same_of_isRead hstep rfl
  cases r with
  | error e =>
    have habsent : s'.buckets provider.bucketName provider.configFileName = none :=
      hstep.1.1.1 hstep.2
    rw [ho] at habsent
    cases habsent
  | ok bytes =>
    obtain ⟨eTag, hobject⟩ := hstep.1.1.1
    rw [ho] at hobject
    obtain rfl := Option.some.inj hobject
    show Ensures calmStep (Prog.bind (Prog.ofExcept (provider.asUtf8String bytes))
      (fun textProto => provider.parse textProto)) s' (fun _ out s'' => s'' = s' ∧
        out = provider.asUtf8String bytes >>= fun textProto => provider.fromTextProto textProto)
    apply Ensures.bind
    apply Ensures.ofExcept
    cases provider.asUtf8String bytes with
    | error e => exact ⟨rfl, rfl⟩
    | ok textProto => exact calm_parse provider textProto s'

/-- A get that finds none. -/
theorem calm_fetchAndParse_absent (provider : S3CertificatesConfigProvider)
    (hnone : s.buckets provider.bucketName provider.configFileName = none) :
    Ensures calmStep provider.fetchAndParse s
      (fun _ out s' => s' = s ∧ ∃ e, out = .error e ∧ e.instanceOf .exception = true) := by
  apply Ensures.bind
  apply Ensures.handle
  apply Ensures.invoke
  intro r s' hstep
  obtain rfl := same_of_isRead hstep rfl
  cases r with
  | ok bytes =>
    obtain ⟨eTag, hobject⟩ := hstep.1.1.1
    rw [hnone] at hobject
    cases hobject
  | error e =>
    have hcaught : e.caughtBy [.noSuchKeyException, .noSuchBucketException] = true := by
      rw [Throwable.caughtBy, List.any_cons, show e.instanceOf .noSuchKeyException = true from hstep.2]
      rfl
    show Ensures calmStep (ite _ _ _) s' _
    rw [if_pos hcaught]
    exact calm_read_bind (o := .recordConfigEvent .couldNotFetchConfigurationFile) rfl trivial
      (fun _ _ => Ensures.raise ⟨rfl, _, rfl, rfl⟩)

/-- The provider passes every exception on, recording those it did not expect. -/
theorem calm_getCertificatesConfig (provider : S3CertificatesConfigProvider)
    {P : Except Throwable CertificatesConfig → Prop}
    (h : Ensures calmStep provider.fetchAndParse s (fun _ out s' => s' = s ∧ P out)) :
    Ensures calmStep provider.getCertificatesConfig s (fun _ out s' => s' = s ∧ P out) := by
  apply Ensures.handle
  apply h.mono
  rintro _ out s ⟨rfl, hout⟩
  cases out with
  | ok config => exact ⟨rfl, hout⟩
  | error e =>
    show Ensures calmStep (ite _ _ _) s _
    split
    · exact calm_read_bind (o := .recordConfigEvent .generalFailure) rfl trivial
        (fun _ _ => Ensures.raise ⟨rfl, hout⟩)
    · exact Ensures.raise ⟨rfl, hout⟩

/-- Where there is no config, every exception on the way ends in the hardcoded one. -/
theorem calm_fetchConfig {config : CertificatesConfig} (hconfig : core.ConfigIn s.buckets config) :
    Ensures calmStep core.monitor.fetchConfig s
      (fun _ out s' => s' = s ∧ out = .ok (some config)) := by
  have hfetch : Ensures calmStep core.configProvider.fetchAndParse s (fun _ out s' => s' = s ∧
      (out = .ok config ∨ config = defaultConfig ∧
        ∃ e, out = .error e ∧ e.instanceOf .exception = true)) := by
    unfold MbsCore.ConfigIn at hconfig
    split at hconfig
    · next hnone =>
      apply (calm_fetchAndParse_absent core.configProvider hnone).mono
      rintro _ out _ ⟨rfl, hthrows⟩
      exact ⟨rfl, .inr ⟨hconfig, hthrows⟩⟩
    · next o ho =>
      apply (calm_fetchAndParse core.configProvider ho).mono
      rintro _ out _ ⟨rfl, rfl⟩
      split at hconfig
      · next parsed hparsed => exact ⟨rfl, .inl (by rw [hparsed, hconfig])⟩
      · next e he => exact ⟨rfl, .inr ⟨hconfig.1, e, he, hconfig.2⟩⟩
  apply Ensures.handle
  apply Ensures.bind
  apply Ensures.handle
  apply (calm_getCertificatesConfig core.configProvider hfetch).mono
  rintro _ out s ⟨rfl, hfound⟩
  rcases hfound with rfl | ⟨rfl, e, rfl, he⟩
  · exact Ensures.ret ⟨rfl, rfl⟩
  · show Ensures calmStep (ite _ _ _) s _
    rw [if_pos he]
    exact Ensures.ret (Ensures.ret ⟨rfl, rfl⟩)

end

/-! ## The iteration -/

/-- Whatever is active is stored, or will be once the missing epochs are generated. -/
structure WillLoad (names : BucketNames) (config : CertificatesConfig) (s : Buckets) : Prop where
  selfSigned : ∀ c ∈ config.activeSelfSignedCertificates, Complete names s c.epochId ∨
    NoArtifact names s c.epochId ∧ lockObject names s = none
  crossSigned : ∀ c ∈ config.activeCrossSignedCertificates, crossSignedObject names s c.id ≠ none

/-- Every missing epoch has the artifacts of some backup, and nothing else changed. -/
structure Filled (names : BucketNames) (config : CertificatesConfig) (s s' : Buckets) : Prop where
  stored : ∀ c ∈ missingCertificates names config s, ∃ backup, StoredAs names s' c.epochId backup
  onlyFills : OnlyFills names
    ((missingCertificates names config s).map SelfSignedCertificate.epochId) s s'

section
variable {names : BucketNames} {config : CertificatesConfig} {s s' : Buckets} {epoch : Epoch}

theorem FillsAll.filled {tr : List (Event MbsOp MbsOp.Val Throwable)}
    (h : FillsAll names (missingCertificates names config s) s tr s') :
    Filled names config s s' where
  stored c hc := by
    obtain ⟨i, hi, rfl⟩ := List.mem_iff_get.mp hc
    have hlen := h.stored.length_eq
    obtain ⟨backup, -, hstored⟩ := (List.forall₂_iff_get.mp h.stored).2 i i.isLt (hlen ▸ i.isLt)
    exact ⟨backup, hstored⟩
  onlyFills := h.onlyFills

theorem StoredAs.complete {backup : SelfSignedBundleBackup} (h : StoredAs names s epoch backup) :
    Complete names s epoch := by
  intro element hnone
  obtain ⟨eTag, hartifact⟩ := h element
  rw [hnone] at hartifact
  cases hartifact

theorem Complete.of_onlyFills (h : Complete names s epoch) {epochs : List Epoch}
    (hfills : OnlyFills names epochs s s') : Complete names s' epoch := by
  intro element
  obtain ⟨o, ho⟩ := Option.ne_none_iff_exists'.mp (h element)
  rw [show artifact names s' epoch element = some o from hfills.kept ho]
  exact Option.some_ne_none o

/-- An active certificate is a configured one. -/
theorem configured_of_active {c : SelfSignedCertificate}
    (hc : c ∈ config.activeSelfSignedCertificates) :
    c ∈ config.selfSignedCertificates.map Prod.snd := by
  obtain ⟨e, -, hlookup⟩ := List.mem_filterMap.mp hc
  exact List.mem_map_of_mem (mem_of_lookup hlookup)

/-- No cross-signed certificate is an artifact of an epoch. -/
theorem OnlyFills.crossSigned_eq {epochs : List Epoch} (h : OnlyFills names epochs s s')
    (id : CrossSignedCertificateId) :
    crossSignedObject names s' id = crossSignedObject names s id := by
  rcases h names.publicBucket (S3BackupPaths.getCrossSignedCertificatePath id) with
    heq | ⟨-, epoch, -, element, -, hkey⟩
  · exact heq
  · exact absurd hkey (crossSignedPath_ne_elementPath id element epoch)

/-- Nor is the config file. -/
theorem OnlyFills.configIn {core : MbsCore} {epochs : List Epoch}
    (h : OnlyFills core.names epochs s s') (hconfig : core.ConfigIn s config) :
    core.ConfigIn s' config := by
  have hkept : s' core.names.publicBucket S3BackupPaths.certificatesConfigFilePath =
      s core.names.publicBucket S3BackupPaths.certificatesConfigFilePath := by
    rcases h core.names.publicBucket S3BackupPaths.certificatesConfigFilePath with
      heq | ⟨-, epoch, -, element, -, hkey⟩
    · exact heq
    · exact absurd hkey.symm (elementPath_ne_certificatesConfigFilePath element epoch)
  unfold MbsCore.ConfigIn
  rw [hkept]
  exact hconfig

theorem Filled.canLoad_iff (h : Filled names config s s') (hcan : CanGenerate names config s) :
    CanLoad names config s' ↔ WillLoad names config s := by
  constructor
  · rintro ⟨hself, hcross⟩
    refine ⟨fun c hc => ?_, fun c hc => ?_⟩
    · by_cases hnone : NoArtifact names s c.epochId
      · have hmissing : c ∈ missingCertificates names config s :=
          mem_missingCertificates.mpr ⟨configured_of_active hc, hnone⟩
        exact .inr ⟨hnone, hcan.resolve_left (List.ne_nil_of_mem hmissing)⟩
      · refine .inl (fun element => ?_)
        -- It is not one of the filled epochs, so it was complete before.
        have hother : c.epochId ∉
            (missingCertificates names config s).map SelfSignedCertificate.epochId := by
          intro hmem
          obtain ⟨filled, hfilled, heq⟩ := List.mem_map.mp hmem
          rw [← heq] at hnone
          exact hnone (mem_missingCertificates.mp hfilled).2
        rw [← h.onlyFills.artifact_eq hother]
        exact hself c hc element
    · rw [← h.onlyFills.crossSigned_eq]
      exact hcross c hc
  · rintro ⟨hself, hcross⟩
    refine ⟨fun c hc => ?_, fun c hc => ?_⟩
    · rcases hself c hc with hcomplete | ⟨hnone, -⟩
      · exact hcomplete.of_onlyFills h.onlyFills
      · obtain ⟨backup, hstored⟩ := h.stored c
          (mem_missingCertificates.mpr ⟨configured_of_active hc, hnone⟩)
        exact hstored.complete
    · rw [h.onlyFills.crossSigned_eq]
      exact hcross c hc

/-- With the lock held and an epoch missing, nothing will be generated. -/
theorem canLoad_iff_of_cannotGenerate (hcannot : ¬ CanGenerate names config s) :
    CanLoad names config s ↔ WillLoad names config s := by
  constructor
  · exact fun h => ⟨fun c hc => .inl (h.selfSigned c hc), h.crossSigned⟩
  · refine fun h => ⟨fun c hc => (h.selfSigned c hc).resolve_right ?_, h.crossSigned⟩
    exact fun hfree => hcannot (.inr hfree.2)

end

/-- The monitor's `generate` and `reload` turn an exception into `false`. -/
theorem calm_swallow {p : MbsProg Unit} {s : MonitorState} {A B : MonitorState → Prop}
    (hp : Ensures calmStep p s (fun _ out s' => match out with
      | .ok _ => A s'
      | .error e => B s' ∧ e.instanceOf .exception = true)) :
    Ensures calmStep (Prog.handle (do
        p
        return true)
      (fun e => if e.instanceOf .exception then return false else throw e)) s
      (fun _ out s' => out = .ok true ∧ A s' ∨ out = .ok false ∧ B s') := by
  apply Ensures.handle
  apply Ensures.bind
  apply hp.mono
  intro _ out s' hout
  cases out with
  | ok _ => exact Ensures.ret (.inl ⟨rfl, hout⟩)
  | error e =>
    show Ensures calmStep (ite _ _ _) s' _
    rw [if_pos hout.2]
    exact Ensures.ret (.inr ⟨rfl, hout.1⟩)

/-- What an iteration does to the buckets and the active trust state of its instance. -/
structure IterationEffect (names : BucketNames) (config : CertificatesConfig)
    (s s' : MonitorState) : Prop where
  generated : CanGenerate names config s.buckets → Filled names config s.buckets s'.buckets
  waits : ¬ CanGenerate names config s.buckets → s'.buckets = s.buckets
  loaded : WillLoad names config s.buckets → LoadedFor config s'.active
  keeps : ¬ WillLoad names config s.buckets → s'.active = s.active

/-- The last call records how it went. -/
def Records (P : Prop) (tr : List (Event MbsOp MbsOp.Val Throwable)) : Prop :=
  ∃ event, tr.getLast? = some ⟨.recordEvent event, .ok ()⟩ ∧ (event = .success ↔ P)

theorem calm_generate (core : MbsCore) (config : CertificatesConfig) (s : MonitorState) :
    Ensures calmStep (core.monitor.generate config) s (fun _ out s₁ => s₁.active = s.active ∧
      (out = .ok true ∧ CanGenerate core.names config s.buckets ∧
          Filled core.names config s.buckets s₁.buckets ∨
        out = .ok false ∧ ¬ CanGenerate core.names config s.buckets ∧
          s₁.buckets = s.buckets)) := by
  refine Ensures.and (calm_active ?_ s) (calm_swallow ?_)
  · refine Prog.Uses.handle (Prog.Uses.bind ?_ (fun _ => trivial)) (fun e => ?_)
    · apply (uses_generateCertificates core.writer_on).mono
      intro o ho state heq
      rw [heq] at ho
      exact ho
    · split <;> trivial
  · apply (calm_generateCertificates core.writer_on config s).mono
    intro tr out s₁ hout
    cases out with
    | ok _ => exact ⟨hout.1, hout.2.filled⟩
    | error e => exact ⟨⟨hout.1, hout.2.1⟩, hout.2.2⟩

theorem calm_monitorReload (core : MbsCore) (config : CertificatesConfig) (s : MonitorState) :
    Ensures calmStep (core.monitor.reload config) s (fun _ out s' =>
      out = .ok true ∧ s'.buckets = s.buckets ∧ CanLoad core.names config s.buckets ∧
          LoadedFor config s'.active ∨
        out = .ok false ∧ s'.buckets = s.buckets ∧ ¬ CanLoad core.names config s.buckets ∧
          s'.active = s.active) := by
  apply calm_swallow
  apply (calm_reload core.writer_on config s).mono
  rintro _ out s' ⟨hs, hout⟩
  cases out with
  | ok _ => exact ⟨hs, hout⟩
  | error e => exact ⟨⟨hs, hout.1, hout.2.1⟩, hout.2.2⟩

theorem calm_iterate (core : MbsCore) (config : CertificatesConfig) (s : MonitorState) :
    Ensures calmStep (core.monitor.iterate (some config)) s (fun tr out s' => out = .ok () ∧
      Records (CanGenerate core.names config s.buckets ∧ WillLoad core.names config s.buckets) tr ∧
      IterationEffect core.names config s s') := by
  apply Ensures.bind
  apply (calm_generate core config s).mono
  rintro t₁ r s₁ ⟨hactive, hgenerated⟩
  -- Whether it generated decides what the load finds, so both are settled before it.
  obtain ⟨generated, rfl, hgenerate, heffect, hwill⟩ : ∃ generated, r = .ok generated ∧
      (generated = true ↔ CanGenerate core.names config s.buckets) ∧
      (if generated then Filled core.names config s.buckets s₁.buckets
        else s₁.buckets = s.buckets) ∧
      (CanLoad core.names config s₁.buckets ↔ WillLoad core.names config s.buckets) := by
    rcases hgenerated with ⟨rfl, hcan, hfilled⟩ | ⟨rfl, hcannot, hs₁⟩
    · exact ⟨true, rfl, by simp [hcan], hfilled, hfilled.canLoad_iff hcan⟩
    · refine ⟨false, rfl, by simp [hcannot], hs₁, ?_⟩
      rw [hs₁]
      exact canLoad_iff_of_cannotGenerate hcannot
  apply Ensures.bind
  apply (calm_monitorReload core config s₁).mono
  intro t₂ r s₂ hreloaded
  obtain ⟨reloaded, rfl, hs₂, hreload, hstate⟩ : ∃ reloaded, r = .ok reloaded ∧
      s₂.buckets = s₁.buckets ∧ (reloaded = true ↔ WillLoad core.names config s.buckets) ∧
      (if reloaded then LoadedFor config s₂.active else s₂.active = s.active) := by
    rw [← hwill]
    rcases hreloaded with ⟨rfl, hs₂, hcan, hloaded⟩ | ⟨rfl, hs₂, hcannot, hkept⟩
    · exact ⟨true, rfl, hs₂, by simp [hcan], hloaded⟩
    · exact ⟨false, rfl, hs₂, by simp [hcannot], hkept.trans hactive⟩
  refine Ensures.invoke
    (o := MbsOp.recordEvent (if generated && reloaded then .success else .failure)) ?_
  intro r s' hstep
  obtain rfl := same_of_isRead hstep rfl
  obtain ⟨v, rfl⟩ := answered_of_calm hstep trivial
  refine ⟨rfl, ⟨if generated && reloaded then .success else .failure, ?_, ?_⟩, ?_⟩
  · rw [← List.append_assoc]
    exact List.getLast?_concat
  · rw [← hgenerate, ← hreload]
    cases generated <;> cases reloaded <;> simp
  · refine ⟨fun hcan => ?_, fun hcannot => ?_, fun hcan => ?_, fun hcannot => ?_⟩
    · rw [if_pos (hgenerate.mpr hcan)] at heffect
      rw [hs₂]
      exact heffect
    · rw [if_neg (mt hgenerate.mp hcannot)] at heffect
      exact hs₂.trans heffect
    · rw [if_pos (hreload.mpr hcan)] at hstate
      exact hstate
    · rw [if_neg (mt hreload.mp hcannot)] at hstate
      exact hstate

theorem Records.append {P : Prop} {tr tr' : List (Event MbsOp MbsOp.Val Throwable)}
    (h : Records P tr') : Records P (tr ++ tr') := by
  obtain ⟨event, hlast, hevent⟩ := h
  exact ⟨event, by rw [List.getLast?_append, hlast]; rfl, hevent⟩

/-- A whole iteration. -/
theorem calm_runOneIteration {core : MbsCore} {config : CertificatesConfig} {s : MonitorState}
    (hconfig : core.ConfigIn s.buckets config) :
    Ensures calmStep core.monitor.runOneIteration s (fun tr out s' => out = .ok () ∧
      Records (CanGenerate core.names config s.buckets ∧ WillLoad core.names config s.buckets) tr ∧
      IterationEffect core.names config s s') := by
  apply Ensures.bind
  apply (calm_fetchConfig hconfig).mono
  rintro t₁ _ s ⟨rfl, rfl⟩
  apply (calm_iterate core config s).mono
  rintro t₂ out s' ⟨hout, hrecords, heffect⟩
  exact ⟨hout, hrecords.append, heffect⟩

end Mbs
