import TransparentCa.Mbs.WriterSafety

/- The certificate as the completion sentinel. Processes write backups, take snapshots and
   read backups in any interleaving; nothing is deleted. A writer puts the certificate
   last, so the certificate of an epoch is never stored without the other three artifacts
   (`CertLast`). A snapshot lists the public bucket first and a read gets the certificate
   first, so whoever saw a certificate knows that the other artifacts were there already;
   the private state of a process is what it knows to be stored. -/
namespace Mbs
open Java Effects

inductive BackupTask where
  | write (writer : S3BackupWriter) (epoch : Epoch) (backup : SelfSignedBundleBackup)
  | snapshot (writer : S3BackupWriter)
  | read (bucketProperties : BackupBucketProperties) (epoch : Epoch)

inductive BackupOutcome where
  | written
  | snapshot (snapshot : StorageSnapshot MbsProg)
  | backup (backup : SelfSignedBundleBackup)

namespace BackupTask

def program : BackupTask → MbsProg BackupOutcome
  | .write writer epoch backup => do
    writer.writeSelfSignedBundleBackup epoch backup
    return .written
  | .snapshot writer => do
    let snapshot ← S3BackupStorage.getSnapshot writer
    return .snapshot snapshot
  | .read bucketProperties epoch => do
    let backup ← S3BackupReader.readSelfSignedBundleBackup bucketProperties epoch
    return .backup backup

def bucketProperties : BackupTask → BackupBucketProperties
  | .write writer _ _ | .snapshot writer => writer.bucketProperties
  | .read bucketProperties _ => bucketProperties

/-- The task works on these buckets. -/
def On (task : BackupTask) (names : BucketNames) : Prop :=
  task.bucketProperties.On names

end BackupTask

/-- No epoch has its certificate without the other artifacts. -/
def CertLast (names : BucketNames) (s : Buckets) : Prop :=
  ∀ epoch, artifact names s epoch .cert ≠ none → ∀ element, artifact names s epoch element ≠ none

/-- Every object of `s` is still there. -/
def Kept (s s' : Buckets) : Prop :=
  ∀ bucket key o, s bucket key = some o → s' bucket key = some o

/-- `BackupIncompleteException` is this program's own; the client of S3 does not throw it. -/
def IsIncomplete (e : Throwable) : Prop := e.cls = .backupIncompleteException

section
variable {I : Type} [DecidableEq I] (names : BucketNames) (task : I → BackupTask)

/-- Each process runs its task, any number of times. -/
def backupSystem : System I Buckets MbsOp MbsOp.Val Throwable BackupOutcome where
  init := CertLast names
  runs i p := (task i).On names ∧ p = (task i).program
  step _ s o r s' := s3Step .atomic s o r s' ∧ ∀ e, r = .error e → ¬ IsIncomplete e
  env _ _ := False

/-- No epoch of the snapshot is incomplete, and one that is complete is stored. -/
def SoundSnapshot (s : Buckets) (snapshot : StorageSnapshot MbsProg) : Prop :=
  ∀ epoch,
    (∀ epoch' missingKeys,
      snapshot.getSelfSignedBundleBackupHandle epoch ≠ .incomplete epoch' missingKeys) ∧
    (∀ epoch' read, snapshot.getSelfSignedBundleBackupHandle epoch = .complete epoch' read →
      ∀ element, artifact names s epoch element ≠ none)

def SoundOutcome (s : Buckets) : Except Throwable BackupOutcome → Prop
  | .ok (.snapshot snapshot) => SoundSnapshot names s snapshot
  | .ok _ => True
  | .error e => ¬ IsIncomplete e

/-- What a process knows to be stored. -/
abbrev Knowledge := Epoch → SelfSignedBundleBackupElement → Prop

structure Sentinel (s : Buckets) (log : List (Entry I MbsOp MbsOp.Val Throwable BackupOutcome))
    (ls : I → Knowledge) : Prop where
  certLast : CertLast names s
  known : ∀ i epoch element, ls i epoch element → artifact names s epoch element ≠ none
  outcomes : ∀ i out, .finish i out ∈ log → SoundOutcome names s out

def sentinelOutline : Outline I Buckets MbsOp MbsOp.Val Throwable BackupOutcome Knowledge where
  inv := Sentinel names
  idle _ := True
  guar := Kept

end

section
variable {I : Type} [DecidableEq I] {names : BucketNames} {task : I → BackupTask}
  {s s' : Buckets} {log : List (Entry I MbsOp MbsOp.Val Throwable BackupOutcome)}
  {ls : I → Knowledge} {i : I} {l : Knowledge}

/-! ## Steps -/

theorem Kept.artifact_ne_none (h : Kept s s') {epoch : Epoch}
    {element : SelfSignedBundleBackupElement} (ho : artifact names s epoch element ≠ none) :
    artifact names s' epoch element ≠ none := by
  obtain ⟨o, ho⟩ := Option.ne_none_iff_exists'.mp ho
  have hstill : artifact names s' epoch element = some o := h _ _ o ho
  rw [hstill]
  exact Option.some_ne_none o

theorem SoundOutcome.kept {out : Except Throwable BackupOutcome} (h : SoundOutcome names s out)
    (hkept : Kept s s') : SoundOutcome names s' out := by
  unfold SoundOutcome at h ⊢
  split at h
  · intro epoch
    refine ⟨(h epoch).1, fun epoch' read hread element => ?_⟩
    exact hkept.artifact_ne_none ((h epoch).2 epoch' read hread element)
  · trivial
  · exact h

/-- What one step of process `i` keeps. -/
theorem Sentinel.step (h : Sentinel names s log ls) (hkept : Kept s s')
    (hcert : CertLast names s') (hl : ∀ epoch element, l epoch element →
      artifact names s' epoch element ≠ none)
    {entry : Entry I MbsOp MbsOp.Val Throwable BackupOutcome}
    (hentry : ∀ j out, entry = .finish j out → SoundOutcome names s' out) :
    Sentinel names s' (entry :: log) (Function.update ls i l) where
  certLast := hcert
  known j epoch element hj := by
    by_cases hji : j = i
    · subst hji
      rw [Function.update_self] at hj
      exact hl epoch element hj
    · rw [Function.update_of_ne hji] at hj
      exact hkept.artifact_ne_none (h.known j epoch element hj)
  outcomes j out hmem := by
    rcases List.mem_cons.mp hmem with hfinish | hmem
    · exact hentry j out hfinish.symm
    · exact (h.outcomes j out hmem).kept hkept

theorem Sentinel.call (h : Sentinel names s log ls) (hkept : Kept s s')
    (hcert : CertLast names s') (hl : ∀ epoch element, l epoch element →
      artifact names s' epoch element ≠ none) (ev : Event MbsOp MbsOp.Val Throwable) :
    Sentinel names s' (.call i ev :: log) (Function.update ls i l) :=
  h.step hkept hcert hl (fun _ _ heq => by cases heq)

/-- A call that writes nothing may add to what is known. -/
theorem Sentinel.read (h : Sentinel names s log ls) (hl : ∀ epoch element, l epoch element →
      artifact names s epoch element ≠ none) (ev : Event MbsOp MbsOp.Val Throwable) :
    Sentinel names s (.call i ev :: log) (Function.update ls i l) :=
  h.call (fun _ _ _ ho => ho) h.certLast hl ev

/-- Setting an absent artifact keeps the rest, and `CertLast` too unless the certificate
comes before another artifact. -/
theorem CertLast.created (h : CertLast names s) {epoch : Epoch}
    {element : SelfSignedBundleBackupElement} (o : S3Object)
    (hothers : element = .cert → ∀ element', element' ≠ .cert →
      artifact names s epoch element' ≠ none) :
    CertLast names (s.set (names.of element) (elementPath element epoch) (some o)) := by
  intro epoch' hcert element'
  rw [artifact_set] at hcert ⊢
  split
  · exact Option.some_ne_none o
  · next hother =>
    split at hcert
    · next hnew =>
      obtain ⟨rfl, rfl⟩ := hnew
      exact hothers rfl element' (fun heq => hother ⟨rfl, heq⟩)
    · exact h epoch' hcert element'

theorem kept_created {bucket key : JString} {o : S3Object} (hnone : s bucket key = none) :
    Kept s (s.set bucket key (some o)) := by
  intro bucket' key' o' ho'
  rw [Buckets.set_apply, if_neg]
  · exact ho'
  · intro hboth
    rw [hboth.1, hboth.2, hnone] at ho'
    cases ho'

/-! ## Writing -/

/-- The outcome is not the exception for a backup that lacks artifacts. -/
def NotIncomplete {α : Type} (r : Except Throwable α) : Prop := ∀ e, r = .error e → ¬ IsIncomplete e

theorem notIncomplete_ok {α : Type} (a : α) : NotIncomplete (.ok a) := by
  intro e h
  cases h

theorem notIncomplete_error {α : Type} {e : Throwable} (h : ¬ IsIncomplete e) :
    NotIncomplete (.error e : Except Throwable α) := by
  intro e' heq
  cases heq
  exact h

theorem putFailure_not_incomplete {bucket key : JString} {e : Throwable} (h : ¬ IsIncomplete e) :
    ¬ IsIncomplete (S3BackupWriter.putFailure bucket key e) := by
  unfold S3BackupWriter.putFailure
  split
  · split <;> exact fun hcls => by cases hcls
  · exact h

/-- The artifacts before `rest` are stored, and the certificate comes last. -/
theorem sentinel_ok_putArtifacts {writer : S3BackupWriter} {epoch : Epoch}
    {backup : SelfSignedBundleBackup} (rest : List SelfSignedBundleBackupElement)
    (hknown : ∀ element, element ∉ rest → l epoch element)
    (hlast : ∀ front tail, rest = front ++ .cert :: tail → tail = []) :
    (sentinelOutline names).Ok (backupSystem names task) i l
      (writer.putArtifacts names epoch backup rest) (fun _ r => NotIncomplete r) := by
  induction rest generalizing l with
  | nil => exact notIncomplete_ok ()
  | cons element rest ih =>
    apply Outline.Ok.bind
    apply Outline.Ok.handle
    apply Outline.Ok.invoke
    intro s log ls hinv hi r s' hstep
    obtain ⟨hstep, hclient⟩ := hstep
    have hstored : ∀ epoch element, l epoch element → artifact names s epoch element ≠ none := by
      rw [← hi]
      exact hinv.known i
    have hothers : element = .cert → ∀ element', element' ≠ .cert →
        artifact names s epoch element' ≠ none := by
      intro hcert element' hne
      subst hcert
      obtain rfl := hlast [] rest rfl
      exact hstored epoch element' (hknown element' (by simpa using hne))
    have hafter : Kept s s' ∧ CertLast names s' := by
      rcases s3Step_put hstep with ⟨rfl, -⟩ | ⟨hnone, eTag, rfl⟩
      · exact ⟨fun _ _ _ ho => ho, hinv.certLast⟩
      · exact ⟨kept_created hnone, hinv.certLast.created _ hothers⟩
    obtain ⟨hkept, hcert⟩ := hafter
    cases r with
    | error e =>
      refine ⟨hkept, l, hinv.call hkept hcert (fun epoch element hl => ?_) _, ?_⟩
      · exact hkept.artifact_ne_none (hstored epoch element hl)
      · exact notIncomplete_error (putFailure_not_incomplete (hclient e rfl))
    | ok _ =>
      obtain ⟨-, eTag, rfl⟩ := hstep
      refine ⟨hkept, fun epoch' element' => l epoch' element' ∨ (epoch' = epoch ∧ element' = element),
        hinv.call hkept hcert (fun epoch' element' hl => ?_) _, ?_⟩
      · rcases hl with hl | ⟨rfl, rfl⟩
        · exact hkept.artifact_ne_none (hstored epoch' element' hl)
        · rw [artifact_set, if_pos ⟨rfl, rfl⟩]
          exact Option.some_ne_none _
      · apply ih
        · intro element' hnotin
          by_cases heq : element' = element
          · exact .inr ⟨rfl, heq⟩
          · exact .inl (hknown element' (by simp [heq, hnotin]))
        · intro front tail hrest
          exact hlast (element :: front) tail (by rw [hrest]; rfl)

theorem certLast_writeOrder (front tail : List SelfSignedBundleBackupElement)
    (h : writeOrder = front ++ .cert :: tail) : tail = [] := by
  have hlen := congrArg List.length h
  simp only [writeOrder, List.length_append, List.length_cons, List.length_nil] at hlen
  have hget : writeOrder[front.length]? = some .cert := by
    rw [h]
    simp
  have hfront : front.length < 4 := by omega
  generalize front.length = i at hget hfront hlen
  have hi : i = 3 := by
    interval_cases i
    · cases hget
    · cases hget
    · cases hget
    · rfl
  have htail : tail.length = 0 := by omega
  exact List.length_eq_zero_iff.mp htail

theorem sentinel_ok_write {writer : S3BackupWriter} (hw : writer.On names) (epoch : Epoch)
    (backup : SelfSignedBundleBackup) :
    (sentinelOutline names).Ok (backupSystem names task) i l
      (writer.writeSelfSignedBundleBackup epoch backup) (fun _ r => NotIncomplete r) := by
  rw [writeSelfSignedBundleBackup_eq hw]
  apply sentinel_ok_putArtifacts
  · intro element hnotin
    exact absurd (by cases element <;> decide) hnotin
  · exact certLast_writeOrder

/-! ## Reading -/

/-- A get of an artifact: the certificate vouches for the others, and what is known to be
stored is found. -/
theorem sentinel_ok_tryGet (epoch : Epoch) (element : SelfSignedBundleBackupElement) :
    (sentinelOutline names).Ok (backupSystem names task) i l
      (getArtifact names epoch element) (fun l' r => (∀ element', l epoch element' → l' epoch element') ∧ match r with
        | .ok (some _) => element = .cert → ∀ element', l' epoch element'
        | .ok none => ¬ l epoch element
        | .error e => ¬ IsIncomplete e) := by
  unfold getArtifact S3BackupReader.tryGetS3Object
  apply Outline.Ok.handle
  apply Outline.Ok.bind
  apply Outline.Ok.invoke
  intro s log ls hinv hi r s' hstep
  obtain ⟨⟨hget, rfl⟩, hclient⟩ := hstep
  have hstored : ∀ epoch element, l epoch element → artifact names s' epoch element ≠ none := by
    rw [← hi]
    exact hinv.known i
  cases r with
  | ok bytes =>
    obtain ⟨eTag, hfound⟩ := hget
    refine ⟨fun _ _ _ ho => ho, fun epoch' element' => l epoch' element' ∨
      (element = .cert ∧ epoch' = epoch), hinv.read (fun epoch' element' hl => ?_) _, ?_⟩
    · rcases hl with hl | ⟨rfl, rfl⟩
      · exact hstored epoch' element' hl
      · apply hinv.certLast epoch'
        rw [show artifact names s' epoch' .cert = _ from hfound]
        exact Option.some_ne_none _
    · exact ⟨fun element' hl => .inl hl, fun hcert _ => .inr ⟨hcert, rfl⟩⟩
  | error e =>
    refine ⟨fun _ _ _ ho => ho, l, hinv.read hstored _, ?_⟩
    show Outline.Ok _ _ _ _ (if _ then _ else _) _
    split
    · next hmissing => exact ⟨fun _ hl => hl, fun hl => hstored epoch element hl (hget hmissing)⟩
    · split
      · exact ⟨fun _ hl => hl, fun hcls => by cases hcls⟩
      · exact ⟨fun _ hl => hl, hclient e rfl⟩

theorem assemble_no_cert (epoch : Epoch) (kms aead doc : Option Bytes) :
    NotIncomplete (S3BackupReader.assemble epoch none kms aead doc) := by
  simp only [S3BackupReader.assemble, Option.isNone_none, if_true]
  split <;> exact notIncomplete_error (fun hcls => by cases hcls)

/-- Once the certificate was found the other three are found too. -/
theorem sentinel_ok_readSelfSignedBundleBackup {bucketProperties : BackupBucketProperties}
    (h : bucketProperties.On names) (epoch : Epoch) :
    (sentinelOutline names).Ok (backupSystem names task) i l
      (S3BackupReader.readSelfSignedBundleBackup bucketProperties epoch)
      (fun _ r => NotIncomplete r) := by
  rw [readSelfSignedBundleBackup_eq h]
  refine Outline.Ok.seq (sentinel_ok_tryGet epoch .cert) (fun l₁ cert ⟨_, hcert⟩ => ?_)
    (fun _ _ h => notIncomplete_error h.2)
  refine Outline.Ok.seq (sentinel_ok_tryGet epoch .kmsDataKey) (fun l₂ kms ⟨hkeep₂, hkms⟩ => ?_)
    (fun _ _ h => notIncomplete_error h.2)
  refine Outline.Ok.seq (sentinel_ok_tryGet epoch .privateKey) (fun l₃ aead ⟨hkeep₃, haead⟩ => ?_)
    (fun _ _ h => notIncomplete_error h.2)
  refine Outline.Ok.seq (sentinel_ok_tryGet epoch .attestationDoc) (fun l₄ doc ⟨_, hdoc⟩ => ?_)
    (fun _ _ h => notIncomplete_error h.2)
  apply Outline.Ok.ofExcept
  cases cert with
  | none => exact assemble_no_cert epoch kms aead doc
  | some c =>
    -- The certificate is stored last: the gets after it find what was stored before.
    have hall : ∀ element, l₁ epoch element := hcert rfl
    match kms, aead, doc with
    | none, _, _ => exact absurd (hall _) hkms
    | some k, none, _ => exact absurd (hkeep₂ _ (hall _)) haead
    | some k, some a, none => exact absurd (hkeep₃ _ (hkeep₂ _ (hall _))) hdoc
    | some k, some a, some d => exact notIncomplete_ok _

/-! ## Taking a snapshot -/

/-- A listing that may add to what is known. -/
theorem sentinel_ok_listBucket {bucket keyPrefix : JString}
    {Q : Knowledge → List S3ObjectSummary → Prop}
    (hlist : ∀ s, CertLast names s →
      (∀ epoch element, l epoch element → artifact names s epoch element ≠ none) →
      ∀ objects, Listing s bucket keyPrefix objects →
        ∃ l', (∀ epoch element, l' epoch element → artifact names s epoch element ≠ none) ∧
          Q l' objects) :
    (sentinelOutline names).Ok (backupSystem names task) i l
      (S3BackupStorage.listBucket bucket keyPrefix) (fun l' r => match r with
        | .ok objects => Q l' objects
        | .error e => ¬ IsIncomplete e) := by
  unfold S3BackupStorage.listBucket
  apply Outline.Ok.handle
  apply Outline.Ok.invoke
  intro s log ls hinv hi r s' hstep
  obtain ⟨⟨hr, rfl⟩, hclient⟩ := hstep
  have hstored : ∀ epoch element, l epoch element → artifact names s' epoch element ≠ none := by
    rw [← hi]
    exact hinv.known i
  cases r with
  | ok objects =>
    obtain ⟨l', hl', hQ⟩ := hlist s' hinv.certLast hstored objects hr
    exact ⟨fun _ _ _ ho => ho, l', hinv.read hl' _, hQ⟩
  | error e =>
    refine ⟨fun _ _ _ ho => ho, l, hinv.read hstored _, ?_⟩
    show Outline.Ok _ _ _ _ (if _ then _ else _) _
    split
    · exact fun hcls => by cases hcls
    · exact hclient e rfl

/-- An epoch whose certificate the public listing showed has its other artifacts stored. -/
theorem sentinel_ok_listPublic :
    (sentinelOutline names).Ok (backupSystem names task) i l
      (S3BackupStorage.listBucket names.publicBucket S3BackupPaths.publicPrefix)
      (fun l' r => match r with
        | .ok objects => ∃ s₁, Listing s₁ names.publicBucket S3BackupPaths.publicPrefix objects ∧
            CertLast names s₁ ∧
            ∀ epoch, artifact names s₁ epoch .cert ≠ none → ∀ element, l' epoch element
        | .error e => ¬ IsIncomplete e) := by
  apply sentinel_ok_listBucket
  intro s hcertLast _ objects hlisting
  refine ⟨fun epoch _ => artifact names s epoch .cert ≠ none, fun epoch element hcert => ?_,
    s, hlisting, hcertLast, fun epoch hcert _ => hcert⟩
  exact hcertLast epoch hcert element

theorem sentinel_ok_listPrivate :
    (sentinelOutline names).Ok (backupSystem names task) i l
      (S3BackupStorage.listBucket names.privateBucket S3BackupPaths.privatePrefix)
      (fun l' r => match r with
        | .ok objects => ∃ s₂, Listing s₂ names.privateBucket S3BackupPaths.privatePrefix objects ∧
            l' = l ∧ ∀ epoch element, l epoch element → artifact names s₂ epoch element ≠ none
        | .error e => ¬ IsIncomplete e) := by
  apply sentinel_ok_listBucket
  intro s _ hstored objects hlisting
  exact ⟨l, hstored, s, hlisting, rfl, hstored⟩

/-- With the certificate listed everything is, so no handle is incomplete. -/
theorem soundSnapshot_nextSnapshot {writer : S3BackupWriter} {generation : Nat}
    {eTagsByEpoch : ETagsByEpoch} {eTagsByCrossSignedId : ETagsByCrossSignedId}
    {previous : S3StorageSnapshot}
    (hall : ∀ epoch, eTagsByEpoch (epoch, .cert) ≠ none →
      ∀ element, eTagsByEpoch (epoch, element) ≠ none)
    (hstored : ∀ epoch, eTagsByEpoch (epoch, .cert) ≠ none →
      ∀ element, artifact names s epoch element ≠ none) :
    SoundSnapshot names s ((S3BackupStorage.nextSnapshot generation eTagsByEpoch
      eTagsByCrossSignedId previous).toStorageSnapshot writer) := by
  intro epoch
  have hcases := S3BackupStorage.nextSnapshot_cases generation eTagsByEpoch eTagsByCrossSignedId
    previous epoch
  simp only [S3StorageSnapshot.toStorageSnapshot,
    S3StorageSnapshot.getSelfSignedBundleBackupHandle]
  rcases hcases with ⟨h, -⟩ | ⟨cached, eTags, h, hlisted, -⟩ | ⟨keys, h, hcert, element, hnone⟩ |
    ⟨keys, h, -⟩
  · rw [h]
    simp
  · rw [h]
    refine ⟨by simp, fun _ _ _ => hstored epoch ?_⟩
    rw [hlisted]
    exact Option.some_ne_none _
  · exact absurd hnone (hall epoch hcert element)
  · rw [h]
    simp

/-- The certificates were listed first, so every artifact that counts was there. -/
theorem eTagsAt_ne_none {s₁ s₂ : Buckets} (h₁ : CertLast names s₁)
    (h₂ : ∀ epoch, artifact names s₁ epoch .cert ≠ none →
      ∀ element, artifact names s₂ epoch element ≠ none) (epoch : Epoch)
    (hcert : eTagsAt names s₁ s₂ (epoch, .cert) ≠ none) (element : SelfSignedBundleBackupElement) :
    eTagsAt names s₁ s₂ (epoch, element) ≠ none := by
  have hstored : artifact names s₁ epoch .cert ≠ none := by
    intro hnone
    exact hcert (by simp [eTagsAt, hnone])
  cases element <;> simp only [eTagsAt, ne_eq, Option.map_eq_none_iff]
  · exact h₁ epoch hstored .cert
  · exact h₁ epoch hstored .attestationDoc
  · exact h₂ epoch hstored .kmsDataKey
  · exact h₂ epoch hstored .privateKey

theorem sentinel_ok_getSnapshot {writer : S3BackupWriter} (hw : writer.On names) :
    (sentinelOutline names).Ok (backupSystem names task) i l (S3BackupStorage.getSnapshot writer)
      (fun l' r => match r with
        | .ok snapshot => ∀ s, (∀ epoch element, l' epoch element →
            artifact names s epoch element ≠ none) → SoundSnapshot names s snapshot
        | .error e => ¬ IsIncomplete e) := by
  unfold S3BackupStorage.getSnapshot S3BackupStorage.takeSnapshot
  rw [hw.1, hw.2]
  apply Outline.Ok.bind
  refine Outline.Ok.seq sentinel_ok_listPublic
    (fun l₁ publicObjects ⟨s₁, hlisting₁, hcertLast, hl₁⟩ => ?_) (fun _ _ he => he)
  refine Outline.Ok.seq sentinel_ok_listPrivate
    (fun l₂ privateObjects ⟨s₂, hlisting₂, hsame, hl₂⟩ => ?_) (fun _ _ he => he)
  subst hsame
  apply Outline.Ok.invoke
  intro s log ls hinv hi r s' hstep
  obtain ⟨hstep, hclient⟩ := hstep
  have hstored : ∀ epoch element, l₂ epoch element → artifact names s epoch element ≠ none := by
    rw [← hi]
    exact hinv.known i
  cases r with
  | error e =>
    obtain rfl : s' = s := hstep
    exact ⟨fun _ _ _ ho => ho, l₂, hinv.read hstored _, hclient e rfl⟩
  | ok updated =>
    obtain ⟨⟨generation, previous, rfl⟩, rfl⟩ := hstep
    refine ⟨fun _ _ _ ho => ho, l₂, hinv.read hstored _, ?_⟩
    intro s hs
    have heTags := recordPrivate_recordPublic hlisting₁ hlisting₂
    simp only [S3BackupStorage.recordPublic] at heTags
    rw [heTags]
    have hseen : ∀ epoch, eTagsAt names s₁ s₂ (epoch, .cert) ≠ none →
        artifact names s₁ epoch .cert ≠ none := by
      intro epoch hcert hnone
      exact hcert (by simp [eTagsAt, hnone])
    apply soundSnapshot_nextSnapshot
    · exact eTagsAt_ne_none hcertLast
        (fun epoch hcert element => hl₂ epoch element (hl₁ epoch hcert element))
    · exact fun epoch hcert element => hs epoch element (hl₁ epoch (hseen epoch hcert) element)

/-! ## Whole executions -/

theorem sentinel_ends {out : Except Throwable BackupOutcome}
    (h : ∀ s, (∀ epoch element, l epoch element → artifact names s epoch element ≠ none) →
      SoundOutcome names s out) : (sentinelOutline names).Ends i l out := by
  intro s log ls hinv hi
  have hstored : ∀ epoch element, l epoch element → artifact names s epoch element ≠ none := by
    rw [← hi]
    exact hinv.known i
  refine ⟨l, trivial, hinv.step (fun _ _ _ ho => ho) hinv.certLast hstored ?_⟩
  intro j out' heq
  cases heq
  exact h s hstored

theorem sentinel_ok_program (ho : (task i).On names) :
    (sentinelOutline names).Ok (backupSystem names task) i l (task i).program
      ((sentinelOutline names).Ends i) := by
  have herror : ∀ {l : Knowledge} {e : Throwable}, ¬ IsIncomplete e →
      (sentinelOutline names).Ends i l (.error e) := fun he => sentinel_ends (fun _ _ => he)
  unfold BackupTask.program
  generalize task i = t at ho
  cases t with
  | write writer epoch backup =>
    exact Outline.Ok.seq (sentinel_ok_write ho epoch backup)
      (fun _ _ _ => sentinel_ends (fun _ _ => trivial)) (fun _ e hr => herror (hr e rfl))
  | snapshot writer =>
    exact Outline.Ok.seq (sentinel_ok_getSnapshot ho) (fun _ _ hr => sentinel_ends hr)
      (fun _ _ hr => herror hr)
  | read bucketProperties epoch =>
    exact Outline.Ok.seq (sentinel_ok_readSelfSignedBundleBackup ho epoch)
      (fun _ _ _ => sentinel_ends (fun _ _ => trivial)) (fun _ e hr => herror (hr e rfl))

theorem sentinelOutline_valid (names : BucketNames) (task : I → BackupTask) :
    (sentinelOutline names).Valid (backupSystem names task) where
  guar_refl _ _ _ _ ho := ho
  init s hs := by
    refine ⟨fun _ _ _ => False, ⟨hs, fun _ _ _ h => h.elim, ?_⟩, fun _ => trivial⟩
    intro i out h
    cases h
  start i p s log ls hp hinv _ := by
    obtain ⟨ho, rfl⟩ := hp
    refine ⟨ls i, ?_, sentinel_ok_program ho⟩
    exact hinv.step (fun _ _ _ ho => ho) hinv.certLast (hinv.known i) (fun _ _ heq => by cases heq)
  stop i s log ls hinv := by
    refine ⟨ls i, trivial, ?_⟩
    exact hinv.step (fun _ _ _ ho => ho) hinv.certLast (hinv.known i) (fun _ _ heq => by cases heq)
  env _ _ _ _ _ henv := henv.elim

variable {w w' : State I Buckets MbsOp MbsOp.Val Throwable BackupOutcome}

theorem kept_of_steps (hw : (backupSystem names task).Reachable w)
    (h : (backupSystem names task).Steps w w') : Kept w.store w'.store := by
  refine (sentinelOutline_valid names task).steps_guar ?_ ?_ hw h
  · exact fun _ _ henv => henv.elim
  · exact fun _ _ _ h₁ h₂ bucket key o ho => h₂ bucket key o (h₁ bucket key o ho)

theorem outcomes_of_reachable (hw : (backupSystem names task).Reachable w) (i : I)
    (out : Except Throwable BackupOutcome) (h : .finish i out ∈ w.log) :
    SoundOutcome names w.store out := by
  obtain ⟨ls, hinv, -⟩ := (sentinelOutline_valid names task).reachable hw
  exact hinv.outcomes i out h

/-- The snapshot showed the epoch as complete. -/
def ShowsComplete (snapshot : StorageSnapshot MbsProg) (epoch : Epoch) : Prop :=
  ∃ epoch' read, snapshot.getSelfSignedBundleBackupHandle epoch = .complete epoch' read

/-- A get answered after a snapshot showed the epoch complete returned what is stored. -/
theorem get_after_complete (hw : (backupSystem names task).Reachable w) {epoch : Epoch}
    {i j : I} {snapshot : StorageSnapshot MbsProg} (hshows : ShowsComplete snapshot epoch)
    {later earlier : List (Entry I MbsOp MbsOp.Val Throwable BackupOutcome)}
    {element : SelfSignedBundleBackupElement} {ans : Except Throwable Bytes}
    (hlog : w.log = later ++ .call j ⟨.getObject (names.of element) (elementPath element epoch),
      ans⟩ :: earlier)
    (hsnapshot : .finish i (.ok (.snapshot snapshot)) ∈ earlier)
    (hanswered : Answered ⟨.getObject (names.of element) (elementPath element epoch), ans⟩)
    {o : S3Object} (ho : artifact names w.store epoch element = some o) : ans = .ok o.content := by
  obtain ⟨w₀, w₁, hw₀, hlog₀, hstep, hsteps, ⟨hget, -⟩, -⟩ := hw.answered hlog
  rw [← hlog₀] at hsnapshot
  obtain ⟨epoch', read, hcomplete⟩ := hshows
  have hsound : SoundSnapshot names w₀.store snapshot := outcomes_of_reachable hw₀ i _ hsnapshot
  have hthen := (hsound epoch).2 epoch' read hcomplete element
  have hkept : Kept w₀.store w.store :=
    kept_of_steps hw₀ ((System.Steps.single hstep).trans hsteps)
  cases ans with
  | error e => exact absurd (hget (hanswered e rfl)) hthen
  | ok bytes =>
    obtain ⟨eTag, hfound⟩ := hget
    have hnow : artifact names w.store epoch element = some ⟨bytes, eTag⟩ := hkept _ _ _ hfound
    rw [Option.some.inj (ho.symm.trans hnow)]

/-- In every reachable state: no snapshot shows an epoch as incomplete, and the epochs it
shows as complete are stored; nothing ends with `BackupIncompleteException`; and a read of
an epoch that started after a snapshot showed it as complete, and whose gets were
answered, returned the stored backup. -/
theorem sentinel_safety (hw : (backupSystem names task).Reachable w) :
    (∀ i snapshot, .finish i (.ok (.snapshot snapshot)) ∈ w.log →
      SoundSnapshot names w.store snapshot) ∧
    (∀ i e, .finish i (.error e) ∈ w.log → ¬ IsIncomplete e) ∧
    (∀ later run before j out bucketProperties epoch i snapshot,
      task j = .read bucketProperties epoch →
      w.log = later ++ .finish j out :: (run ++ .start j :: before) → .start j ∉ run →
      .finish i (.ok (.snapshot snapshot)) ∈ before → ShowsComplete snapshot epoch →
      (∀ ev, .call j ev ∈ run → Answered ev) →
      ∃ backup, out = .ok (.backup backup) ∧
        ∀ element, (artifact names w.store epoch element).map S3Object.content =
          some (backup.part element)) := by
  refine ⟨fun i snapshot h => outcomes_of_reachable hw i _ h,
    fun i e h => outcomes_of_reachable hw i _ h, ?_⟩
  intro later run before j out bucketProperties epoch i snapshot htask hlog hrun hsnapshot hshows
    hanswered
  obtain ⟨p, ⟨hon, rfl⟩, hruns⟩ := hw.finished hlog hrun
  rw [htask] at hon hruns
  have hmem : .finish i (.ok (.snapshot snapshot)) ∈ w.log := by
    rw [hlog]
    simp [hsnapshot]
  have hsound : SoundSnapshot names w.store snapshot := outcomes_of_reachable hw i _ hmem
  obtain ⟨epoch', read, hcomplete⟩ := hshows
  have hstored := (hsound epoch).2 epoch' read hcomplete
  choose o ho using fun element => Option.ne_none_iff_exists'.mp (hstored element)
  obtain ⟨backup, hpart⟩ := exists_part (fun element => (o element).content)
  refine ⟨backup, ?_, fun element => by rw [ho element, hpart element]; rfl⟩
  obtain ⟨r, t₁, t₂, htr, hread, hrest⟩ := Prog.runs_bind_inv hruns
  have hr : r = .ok backup := by
    apply runs_readSelfSignedBundleBackup hon hread
    intro element ans hmem
    have hcall : .call j ⟨_, ans⟩ ∈ run := System.mem_callsOf.mp (by rw [htr]; simp [hmem])
    obtain ⟨run₁, run₂, hsplit⟩ := List.append_of_mem hcall
    have hlog' : w.log = (later ++ .finish j out :: run₁) ++
        .call j ⟨.getObject (names.of element) (elementPath element epoch), ans⟩ ::
          (run₂ ++ .start j :: before) := by
      rw [hlog, hsplit]
      simp
    have hsnapshot' : .finish i (.ok (.snapshot snapshot)) ∈ run₂ ++ .start j :: before := by
      simp [hsnapshot]
    rw [hpart element]
    exact get_after_complete hw ⟨epoch', read, hcomplete⟩ hlog' hsnapshot' (hanswered _ hcall)
      (ho element)
  subst hr
  exact (Prog.runs_ret.mp hrest).2

end
/-! A write, a snapshot and a read, one after the other. -/

namespace Sample

def task : Nat → BackupTask
  | 0 => .write writer 0 backup
  | 1 => .snapshot writer
  | _ => .read writer.bucketProperties 0

theorem task_on (i : Nat) : (task i).On names := by
  unfold task
  split <;> exact ⟨rfl, rfl⟩

theorem serve_client (t : LocalS3) (o : MbsOp) (e : Throwable) (h : (t.serve o).1 = .error e) :
    ¬ IsIncomplete e := by
  intro hcls
  cases o <;> simp only [LocalS3.serve] at h <;> (try split at h) <;> cases h <;> cases hcls

def taskRun (i : Nat) (t : LocalS3) :
    Except Throwable BackupOutcome × List (Event MbsOp MbsOp.Val Throwable) × LocalS3 :=
  drive LocalS3.serve (task i).program t

theorem taskRun_steps (i : Nat) (t : LocalS3)
    (log : List (Entry Nat MbsOp MbsOp.Val Throwable BackupOutcome)) :
    (backupSystem names task).Steps ⟨t.buckets, fun _ => none, log⟩
      ⟨(taskRun i t).2.2.buckets, fun _ => none, .finish i (taskRun i t).1 ::
        (((taskRun i t).2.1.map (.call i)).reverse ++ .start i :: log)⟩ := by
  have hserve : ∀ (t : LocalS3) (o : MbsOp),
      (backupSystem names task).step i t.buckets o (t.serve o).1 (t.serve o).2.buckets :=
    fun t o => ⟨t.s3Step_serve o, serve_client t o⟩
  exact System.Steps.drive LocalS3.serve hserve ⟨task_on i, rfl⟩ t rfl log

def written : LocalS3 := (taskRun 0 (.fresh none true)).2.2
def listed : LocalS3 := (taskRun 1 written).2.2

theorem snapshot_complete : ∃ snapshot, (taskRun 1 written).1 = .ok (.snapshot snapshot) ∧
    ShowsComplete snapshot 0 := ⟨_, rfl, _, _, rfl⟩

theorem read_answered : ∀ ev ∈ (taskRun 2 listed).2.1, Answered ev :=
  answered_of_all_ok (by decide)

end Sample

/-- The read returned the backup that was written. -/
theorem sample_sentinel_safety :
    ∃ w, (backupSystem Sample.names Sample.task).Reachable w ∧
      ∃ backup, .finish 2 (.ok (.backup backup)) ∈ w.log ∧
        ∀ element, (artifact Sample.names w.store 0 element).map S3Object.content =
          some (backup.part element) := by
  have hempty : CertLast Sample.names (LocalS3.buckets (.fresh none true)) :=
    fun _ hcert => absurd rfl hcert
  have hsteps := ((Sample.taskRun_steps 0 (.fresh none true) []).trans
    (Sample.taskRun_steps 1 Sample.written _)).trans (Sample.taskRun_steps 2 Sample.listed _)
  have hreach := hsteps.reachable (.init _ hempty)
  obtain ⟨snapshot, hsnapshot, hshows⟩ := Sample.snapshot_complete
  rw [hsnapshot] at hreach
  obtain ⟨backup, hout, hstored⟩ := (sentinel_safety hreach).2.2 [] _ _ 2 _ _ 0 1 snapshot rfl rfl
    (by simp) (by simp) hshows (fun ev hmem => Sample.read_answered ev (by simpa using hmem))
  refine ⟨_, hreach, backup, ?_, hstored⟩
  rw [← hout]
  exact List.mem_cons_self

end Mbs
