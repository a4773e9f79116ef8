import TransparentCa.Lib.Alone
import TransparentCa.Mbs.LockSafety

/- What one run of the generator leaves in the buckets when nobody else touches them. The
   loop under the lock writes the missing epochs in ascending order and stops at the first
   failure. A run that returns therefore filled all of them, and a run that failed while it
   generated or wrote an epoch filled the ones before and left the ones after empty, with
   the lock in place. Everything else is as it was before. -/
namespace Mbs
open Java Effects AssocList

/-- `BackupStorageAlreadyLockedException` is a checked exception of this program: neither
the client of S3 nor the generator declares it. -/
def IsAlreadyLocked (e : Throwable) : Prop :=
  e.instanceOf .backupStorageAlreadyLockedException = true

/-- One call of a run that has the buckets to itself. -/
def aloneStep (s : Buckets) (o : MbsOp) (r : Except Throwable o.Val) (s' : Buckets) : Prop :=
  s3Step .atomic s o r s' ∧ ∀ e, r = .error e → ¬ IsAlreadyLocked e

/-! ## The epochs in the buckets -/

/-- Nothing of the epoch is stored. -/
def NoArtifact (names : BucketNames) (s : Buckets) (epoch : Epoch) : Prop :=
  ∀ element ∈ SelfSignedBundleBackupElement.values, artifact names s epoch element = none

instance (names : BucketNames) (s : Buckets) (epoch : Epoch) :
    Decidable (NoArtifact names s epoch) :=
  inferInstanceAs (Decidable (∀ element ∈ SelfSignedBundleBackupElement.values, _))

/-- The four artifacts of the epoch are those of `backup`. -/
def StoredAs (names : BucketNames) (s : Buckets) (epoch : Epoch)
    (backup : SelfSignedBundleBackup) : Prop :=
  ∀ element, ∃ eTag, artifact names s epoch element = some ⟨backup.part element, eTag⟩

/-- The configured certificates of whose epochs nothing is stored, by ascending epoch. -/
def missingCertificates (names : BucketNames) (config : CertificatesConfig) (s : Buckets) :
    List SelfSignedCertificate :=
  config.getSelfSignedCertificates.filter (fun certConfig => NoArtifact names s certConfig.epochId)

/-- Every object is as it was, except that artifacts of these epochs may have been created. -/
def OnlyFills (names : BucketNames) (epochs : List Epoch) (s s' : Buckets) : Prop :=
  ∀ bucket key, s' bucket key = s bucket key ∨
    (s bucket key = none ∧ ∃ epoch ∈ epochs, ∃ element,
      bucket = names.of element ∧ key = elementPath element epoch)

/-! ## The calls for an epoch -/

/-- Generating the backup of the epoch, or putting one of its artifacts. -/
def WorksOn (epoch : Epoch) : MbsOp → Prop
  | .generate certConfig => certConfig.epochId = epoch
  | .putObject _ key _ _ => ∃ element, key = elementPath element epoch
  | _ => False

/-- A call for the epoch threw. -/
def FailsAt (epoch : Epoch) (tr : List (Event MbsOp MbsOp.Val Throwable)) : Prop :=
  ∃ ev ∈ tr, WorksOn epoch ev.op ∧ ∃ e, ev.ans = .error e

def MbsOp.isGenerate : MbsOp → Bool
  | .generate _ => true
  | _ => false

/-- The calls of the generator, with what they returned. -/
def generatorCalls (tr : List (Event MbsOp MbsOp.Val Throwable)) :
    List (Event MbsOp MbsOp.Val Throwable) :=
  tr.filter (fun ev => ev.op.isGenerate)

/-- The call is for no epoch at all. -/
def Aside (o : MbsOp) : Prop := ∀ epoch, ¬ WorksOn epoch o

section
variable {names : BucketNames} {s s₁ s' : Buckets} {epoch : Epoch} {epochs epochs' : List Epoch}
  {tr tr' : List (Event MbsOp MbsOp.Val Throwable)}

theorem OnlyFills.refl (s : Buckets) : OnlyFills names epochs s s := fun _ _ => .inl rfl

theorem OnlyFills.trans (h : OnlyFills names epochs s s₁) (h' : OnlyFills names epochs' s₁ s') :
    OnlyFills names (epochs ++ epochs') s s' := by
  intro bucket key
  rcases h' bucket key with heq | ⟨hnone, epoch, hepoch, helement⟩
  · rcases h bucket key with heq' | ⟨hnone, epoch, hepoch, helement⟩
    · exact .inl (heq.trans heq')
    · exact .inr ⟨hnone, epoch, List.mem_append_left _ hepoch, helement⟩
  · refine .inr ⟨?_, epoch, List.mem_append_right _ hepoch, helement⟩
    rcases h bucket key with heq' | ⟨hnone', -⟩
    · rw [← heq', hnone]
    · exact hnone'

/-- Two fillings of one epoch are a filling of it. -/
theorem OnlyFills.trans_self (h : OnlyFills names epochs s s₁) (h' : OnlyFills names epochs s₁ s') :
    OnlyFills names epochs s s' := by
  intro bucket key
  rcases h.trans h' bucket key with heq | ⟨hnone, epoch, hepoch, helement⟩
  · exact .inl heq
  · rw [List.mem_append, or_self] at hepoch
    exact .inr ⟨hnone, epoch, hepoch, helement⟩

/-- What exists stays as it is. -/
theorem OnlyFills.kept (h : OnlyFills names epochs s s') {bucket key : JString} {o : S3Object}
    (ho : s bucket key = some o) : s' bucket key = some o := by
  rcases h bucket key with heq | ⟨hnone, -⟩
  · rw [heq, ho]
  · rw [hnone] at ho
    cases ho

theorem onlyFills_created {element : SelfSignedBundleBackupElement} {content : Bytes}
    (h : Created s (names.of element) (elementPath element epoch) content s') :
    OnlyFills names [epoch] s s' := by
  obtain ⟨hnone, eTag, rfl⟩ := h
  intro bucket key
  rw [Buckets.set_apply]
  split
  · next hkey =>
    obtain ⟨rfl, rfl⟩ := hkey
    exact .inr ⟨hnone, epoch, List.mem_singleton.mpr rfl, element, rfl, rfl⟩
  · exact .inl rfl

theorem StoredAs.kept {backup : SelfSignedBundleBackup} (h : StoredAs names s epoch backup)
    (hfills : OnlyFills names epochs s s') : StoredAs names s' epoch backup := by
  intro element
  obtain ⟨eTag, hartifact⟩ := h element
  exact ⟨eTag, hfills.kept hartifact⟩

/-- The epochs that are not filled keep their artifacts. -/
theorem OnlyFills.artifact_eq (h : OnlyFills names epochs s s') (hepoch : epoch ∉ epochs)
    (element : SelfSignedBundleBackupElement) :
    artifact names s' epoch element = artifact names s epoch element := by
  rcases h (names.of element) (elementPath element epoch) with heq | ⟨-, epoch', hmem, element', -, hkey⟩
  · exact heq
  · obtain ⟨-, rfl⟩ := elementPath_injective hkey
    exact absurd hmem hepoch

theorem NoArtifact.of_onlyFills (h : NoArtifact names s epoch) (hfills : OnlyFills names epochs s s')
    (hepoch : epoch ∉ epochs) : NoArtifact names s' epoch := by
  intro element helement
  rw [hfills.artifact_eq hepoch]
  exact h element helement

/-- The lock is no artifact. -/
theorem OnlyFills.lockObject_eq (h : OnlyFills names epochs s s') :
    lockObject names s' = lockObject names s := by
  rcases h names.privateBucket S3BackupPaths.lockPath with heq | ⟨-, epoch, -, element, -, hkey⟩
  · exact heq
  · exact absurd hkey.symm (elementPath_ne_lockPath element epoch)

theorem failsAt_append : FailsAt epoch (tr ++ tr') ↔ FailsAt epoch tr ∨ FailsAt epoch tr' := by
  unfold FailsAt
  constructor
  · rintro ⟨ev, hev, h⟩
    rcases List.mem_append.mp hev with hev | hev
    · exact .inl ⟨ev, hev, h⟩
    · exact .inr ⟨ev, hev, h⟩
  · rintro (⟨ev, hev, h⟩ | ⟨ev, hev, h⟩)
    · exact ⟨ev, List.mem_append_left _ hev, h⟩
    · exact ⟨ev, List.mem_append_right _ hev, h⟩

theorem generatorCalls_append :
    generatorCalls (tr ++ tr') = generatorCalls tr ++ generatorCalls tr' := List.filter_append ..

theorem not_failsAt_of_aside (h : ∀ ev ∈ tr, Aside ev.op) : ¬ FailsAt epoch tr := by
  rintro ⟨ev, hev, hworks, -⟩
  exact h ev hev epoch hworks

theorem isGenerate_of_aside {o : MbsOp} (h : Aside o) : o.isGenerate = false := by
  cases o with
  | generate certConfig => exact absurd rfl (h certConfig.epochId)
  | _ => rfl

theorem generatorCalls_of_aside (h : ∀ ev ∈ tr, Aside ev.op) : generatorCalls tr = [] := by
  apply List.filter_eq_nil_iff.mpr
  intro ev hev
  rw [isGenerate_of_aside (h ev hev)]
  exact Bool.false_ne_true

end

/-! ## One epoch -/

theorem noArtifact_iff {names : BucketNames} {s : Buckets} {epoch : Epoch} :
    NoArtifact names s epoch ↔ ∀ element, artifact names s epoch element = none :=
  ⟨fun h element => h element (S3BackupStorage.mem_values element), fun h element _ => h element⟩

theorem putFailure_not_alreadyLocked {bucket key : JString} {e : Throwable}
    (h : ¬ IsAlreadyLocked e) : ¬ IsAlreadyLocked (S3BackupWriter.putFailure bucket key e) := by
  unfold S3BackupWriter.putFailure
  split
  · split <;> exact Bool.false_ne_true
  · exact h

section
variable {names : BucketNames} {writer : S3BackupWriter} {s : Buckets}

theorem ensures_putIfAbsent {bucket key cacheControl : JString} {content : Bytes} :
    Ensures aloneStep (S3BackupWriter.putIfAbsent bucket key content cacheControl) s
      (fun tr out s' => match out with
        | .ok _ => Created s bucket key content s' ∧ ∀ ev ∈ tr, ∃ v, ev.ans = .ok v
        | .error e => (s' = s ∨ Created s bucket key content s') ∧
            ∃ cause, ¬ IsAlreadyLocked cause ∧ e = S3BackupWriter.putFailure bucket key cause) := by
  apply Ensures.handle
  apply Ensures.invoke
  rintro r s' ⟨hstep, hthrows⟩
  cases r with
  | ok v =>
    refine ⟨hstep, fun ev hev => ?_⟩
    rw [List.mem_singleton.mp hev]
    exact ⟨v, rfl⟩
  | error cause => exact Ensures.raise ⟨hstep, cause, hthrows cause rfl, rfl⟩

/-- By induction on what is left of the write order. -/
theorem ensures_putArtifacts {epoch : Epoch} {backup : SelfSignedBundleBackup}
    (rest : List SelfSignedBundleBackupElement) (s : Buckets) :
    Ensures aloneStep (writer.putArtifacts names epoch backup rest) s (fun tr out s' =>
      OnlyFills names [epoch] s s' ∧ match out with
        | .ok _ => (∀ ev ∈ tr, ∃ v, ev.ans = .ok v) ∧
            ∀ element ∈ rest, ∃ eTag,
              artifact names s' epoch element = some ⟨backup.part element, eTag⟩
        | .error e => ¬ IsAlreadyLocked e) := by
  induction rest generalizing s with
  | nil => exact Ensures.ret ⟨.refl s, by simp, by simp⟩
  | cons element rest ih =>
    apply Ensures.bind
    apply ensures_putIfAbsent.mono
    rintro tr r s₁ h
    cases r with
    | error e =>
      obtain ⟨hs, cause, hcause, rfl⟩ := h
      refine ⟨?_, putFailure_not_alreadyLocked hcause⟩
      rcases hs with rfl | hcreated
      · exact .refl _
      · exact onlyFills_created hcreated
    | ok _ =>
      obtain ⟨hcreated, hok⟩ := h
      apply (ih s₁).mono
      rintro tr' out s' ⟨hfills, hrest⟩
      refine ⟨(onlyFills_created hcreated).trans_self hfills, ?_⟩
      cases out with
      | error e => exact hrest
      | ok _ =>
        obtain ⟨hok', hstored⟩ := hrest
        refine ⟨fun ev hev => (List.mem_append.mp hev).elim (hok ev) (hok' ev), ?_⟩
        intro element' helement'
        rcases List.mem_cons.mp helement' with rfl | helement'
        · obtain ⟨-, eTag, rfl⟩ := hcreated
          exact ⟨eTag, hfills.kept (Buckets.set_self s _ _ _)⟩
        · exact hstored element' helement'

/-- Calls for this epoch, or for none. -/
def OnlyFor (epoch : Epoch) (o : MbsOp) : Prop := ∀ epoch', WorksOn epoch' o → epoch' = epoch

theorem uses_putArtifacts {epoch : Epoch} {backup : SelfSignedBundleBackup}
    (rest : List SelfSignedBundleBackupElement) :
    (writer.putArtifacts names epoch backup rest).Uses
      (fun o => o.isGenerate = false ∧ OnlyFor epoch o) := by
  induction rest with
  | nil => trivial
  | cons element rest ih =>
    refine Prog.Uses.bind (uses_putIfAbsent ⟨rfl, ?_⟩) (fun _ => ih)
    rintro epoch' ⟨element', hkey⟩
    exact (elementPath_injective hkey).2.symm

theorem failsAt_eq {epoch epoch' : Epoch} {tr : List (Event MbsOp MbsOp.Val Throwable)}
    (h : ∀ ev ∈ tr, OnlyFor epoch ev.op) (hfails : FailsAt epoch' tr) : epoch' = epoch := by
  obtain ⟨ev, hev, hworks, -⟩ := hfails
  exact h ev hev epoch' hworks

theorem not_failsAt_of_ok {epoch : Epoch} {tr : List (Event MbsOp MbsOp.Val Throwable)}
    (h : ∀ ev ∈ tr, ∃ v, ev.ans = .ok v) : ¬ FailsAt epoch tr := by
  rintro ⟨ev, hev, -, e, he⟩
  obtain ⟨v, hv⟩ := h ev hev
  rw [hv] at he
  cases he

/-- The body of the loop: one call of the generator and the four puts. -/
theorem ensures_generateAndWrite (hw : writer.On names) {config : CertificatesConfig}
    {certConfig : SelfSignedCertificate}
    (hlookup : config.selfSignedCertificates.lookup certConfig.epochId = some certConfig)
    (s : Buckets) :
    Ensures aloneStep ((s3Generator writer).generateAndWrite config
        ⟨certConfig.epochId, writer.writeSelfSignedBundleBackup certConfig.epochId⟩) s
      (fun tr out s' => OnlyFills names [certConfig.epochId] s s' ∧ match out with
        | .ok _ => (∀ epoch, ¬ FailsAt epoch tr) ∧ ∃ backup,
            generatorCalls tr = [⟨.generate certConfig, .ok backup⟩] ∧
              StoredAs names s' certConfig.epochId backup
        | .error e => ¬ IsAlreadyLocked e ∧
            ∀ epoch, FailsAt epoch tr → epoch = certConfig.epochId) := by
  unfold DefaultCertificateGenerator.generateAndWrite
  rw [hlookup]
  apply Ensures.bind
  apply Ensures.invoke
  rintro r s₁ ⟨hstep, hthrows⟩
  obtain rfl : s₁ = s := s3Step_of_not_write hstep rfl
  have honly : ∀ r : Except Throwable SelfSignedBundleBackup, ∀ ev : Event MbsOp MbsOp.Val Throwable,
      ev ∈ [⟨.generate certConfig, r⟩] → OnlyFor certConfig.epochId ev.op := by
    intro r ev hev
    rw [List.mem_singleton.mp hev]
    exact fun epoch hworks => hworks.symm
  cases r with
  | error e => exact ⟨.refl _, hthrows e rfl, fun epoch => failsAt_eq (honly _)⟩
  | ok backup =>
    show Ensures aloneStep (writer.writeSelfSignedBundleBackup certConfig.epochId backup) s₁ _
    rw [writeSelfSignedBundleBackup_eq hw]
    apply ((ensures_putArtifacts writeOrder s₁).with_uses (uses_putArtifacts writeOrder)).mono
    rintro tr out s' ⟨⟨hfills, hrest⟩, huses⟩
    refine ⟨hfills, ?_⟩
    cases out with
    | error e =>
      refine ⟨hrest, fun epoch => failsAt_eq (fun ev hev => ?_)⟩
      rcases List.mem_append.mp hev with hev | hev
      · exact honly _ ev hev
      · exact (huses ev hev).2
    | ok _ =>
      obtain ⟨hok, hstored⟩ := hrest
      refine ⟨fun epoch => not_failsAt_of_ok (fun ev hev => ?_), backup, ?_, fun element => ?_⟩
      · rcases List.mem_append.mp hev with hev | hev
        · rw [List.mem_singleton.mp hev]
          exact ⟨backup, rfl⟩
        · exact hok ev hev
      · have hnone : generatorCalls tr = [] := by
          apply List.filter_eq_nil_iff.mpr
          intro ev hev
          rw [(huses ev hev).1]
          exact Bool.false_ne_true
        rw [generatorCalls_append, hnone]
        rfl
      · have hmem : element ∈ writeOrder := by cases element <;> decide
        exact hstored element hmem

/-! ## The loop -/

/-- Each of `certs` has the artifacts that the one call of the generator for it returned, and
nothing else changed. -/
structure FillsAll (names : BucketNames) (certs : List SelfSignedCertificate) (s : Buckets)
    (tr : List (Event MbsOp MbsOp.Val Throwable)) (s' : Buckets) : Prop where
  stored : List.Forall₂ (fun certConfig ev => ∃ backup, ev = ⟨.generate certConfig, .ok backup⟩ ∧
    StoredAs names s' certConfig.epochId backup) certs (generatorCalls tr)
  onlyFills : OnlyFills names (certs.map SelfSignedCertificate.epochId) s s'

/-- Each of `before` has the artifacts that a call of the generator for it returned; apart
from these only `certConfig` may have got artifacts, and only its calls may have failed. -/
structure StopsAt (names : BucketNames) (before : List SelfSignedCertificate)
    (certConfig : SelfSignedCertificate) (s : Buckets)
    (tr : List (Event MbsOp MbsOp.Val Throwable)) (s' : Buckets) : Prop where
  stored : ∀ done ∈ before, ∃ backup, ⟨.generate done, .ok backup⟩ ∈ tr ∧
    StoredAs names s' done.epochId backup
  onlyFills : OnlyFills names ((before ++ [certConfig]).map SelfSignedCertificate.epochId) s s'
  fails : ∀ epoch, FailsAt epoch tr → epoch = certConfig.epochId

theorem FillsAll.cons {certConfig : SelfSignedCertificate} {certs : List SelfSignedCertificate}
    {s₁ s' : Buckets} {tr tr' : List (Event MbsOp MbsOp.Val Throwable)}
    {backup : SelfSignedBundleBackup}
    (hcalls : generatorCalls tr = [⟨.generate certConfig, .ok backup⟩])
    (hstored : StoredAs names s₁ certConfig.epochId backup)
    (hfills : OnlyFills names [certConfig.epochId] s s₁) (h : FillsAll names certs s₁ tr' s') :
    FillsAll names (certConfig :: certs) s (tr ++ tr') s' where
  stored := by
    rw [generatorCalls_append, hcalls]
    exact .cons ⟨backup, rfl, hstored.kept h.onlyFills⟩ h.stored
  onlyFills := hfills.trans h.onlyFills

theorem StopsAt.cons {done certConfig : SelfSignedCertificate} {before : List SelfSignedCertificate}
    {s₁ s' : Buckets} {tr tr' : List (Event MbsOp MbsOp.Val Throwable)}
    {backup : SelfSignedBundleBackup}
    (hcalls : generatorCalls tr = [⟨.generate done, .ok backup⟩])
    (hstored : StoredAs names s₁ done.epochId backup)
    (hfills : OnlyFills names [done.epochId] s s₁) (hok : ∀ epoch, ¬ FailsAt epoch tr)
    (h : StopsAt names before certConfig s₁ tr' s') :
    StopsAt names (done :: before) certConfig s (tr ++ tr') s' where
  stored := by
    have hrest : OnlyFills names ((before ++ [certConfig]).map SelfSignedCertificate.epochId) s₁ s' :=
      h.onlyFills
    intro certConfig' hmem
    rcases List.mem_cons.mp hmem with rfl | hmem
    · have hcall : ⟨.generate certConfig', .ok backup⟩ ∈ generatorCalls tr := by
        rw [hcalls]
        exact List.mem_singleton_self _
      exact ⟨backup, List.mem_append_left _ (List.mem_of_mem_filter hcall), hstored.kept hrest⟩
    · obtain ⟨backup', hcall, hstored'⟩ := h.stored certConfig' hmem
      exact ⟨backup', List.mem_append_right _ hcall, hstored'⟩
  onlyFills := hfills.trans h.onlyFills
  fails := by
    intro epoch hfails
    rcases failsAt_append.mp hfails with hfails | hfails
    · exact absurd hfails (hok epoch)
    · exact h.fails epoch hfails

/-- The handle of a missing epoch. -/
def emptyHandle (writer : S3BackupWriter) (certConfig : SelfSignedCertificate) :
    EmptyHandle MbsProg :=
  ⟨certConfig.epochId, writer.writeSelfSignedBundleBackup certConfig.epochId⟩

/-- By induction on the epochs that are left. -/
theorem ensures_generateAndWriteAll (hw : writer.On names) {config : CertificatesConfig}
    (certs : List SelfSignedCertificate) (hlookup : ∀ certConfig ∈ certs,
      config.selfSignedCertificates.lookup certConfig.epochId = some certConfig) (s : Buckets) :
    Ensures aloneStep
      ((s3Generator writer).generateAndWriteAll config (certs.map (emptyHandle writer))) s
      (fun tr out s' => match out with
        | .ok _ => FillsAll names certs s tr s' ∧ ∀ epoch, ¬ FailsAt epoch tr
        | .error e => ¬ IsAlreadyLocked e ∧ ∃ before certConfig after,
            certs = before ++ certConfig :: after ∧ StopsAt names before certConfig s tr s') := by
  induction certs generalizing s with
  | nil => exact Ensures.ret ⟨⟨.nil, .refl s⟩, fun epoch => not_failsAt_of_ok (by simp)⟩
  | cons certConfig certs ih =>
    apply Ensures.bind
    apply (ensures_generateAndWrite hw (hlookup certConfig List.mem_cons_self) s).mono
    rintro tr r s₁ ⟨hfills, hfirst⟩
    cases r with
    | error e =>
      obtain ⟨hcls, hfails⟩ := hfirst
      exact ⟨hcls, [], certConfig, certs, rfl, by simp, hfills, hfails⟩
    | ok _ =>
      obtain ⟨hok, backup, hcalls, hstored⟩ := hfirst
      apply (ih (fun c hc => hlookup c (List.mem_cons_of_mem certConfig hc)) s₁).mono
      intro tr' out s' hrest
      cases out with
      | ok _ =>
        obtain ⟨hall, hok'⟩ := hrest
        refine ⟨.cons hcalls hstored hfills hall, fun epoch hfails => ?_⟩
        rcases failsAt_append.mp hfails with hfails | hfails
        · exact hok epoch hfails
        · exact hok' epoch hfails
      | error e =>
        obtain ⟨hcls, before, certConfig', after, rfl, hstops⟩ := hrest
        exact ⟨hcls, certConfig :: before, certConfig', after, rfl,
          .cons hcalls hstored hfills hok hstops⟩

/-! ## What a snapshot shows -/

/-- A listing sees the buckets as they are. -/
theorem ensures_listBucket {bucket keyPrefix : JString} :
    Ensures aloneStep (S3BackupStorage.listBucket bucket keyPrefix) s (fun _ out s' =>
      s' = s ∧ match out with
        | .ok objects => Listing s bucket keyPrefix objects
        | .error e => ¬ IsAlreadyLocked e) := by
  apply Ensures.handle
  apply Ensures.invoke
  rintro r s' ⟨⟨hlist, rfl⟩, hthrows⟩
  cases r with
  | ok objects => exact ⟨rfl, hlist⟩
  | error e =>
    show Ensures aloneStep (ite _ _ _) s' _
    split
    · exact Ensures.raise ⟨rfl, Bool.false_ne_true⟩
    · exact Ensures.raise ⟨rfl, hthrows e rfl⟩

/-- A snapshot has no handle for exactly the epochs of which nothing was listed. -/
theorem nextSnapshot_eq_none_iff {generation : Nat} {eTagsByEpoch : ETagsByEpoch}
    {eTagsByCrossSignedId : ETagsByCrossSignedId} {previous : S3StorageSnapshot} {epoch : Epoch} :
    (S3BackupStorage.nextSnapshot generation eTagsByEpoch eTagsByCrossSignedId
      previous).selfSignedBundleBackupHandles epoch = none ↔
      ∀ element, eTagsByEpoch (epoch, element) = none := by
  simp only [S3BackupStorage.nextSnapshot, ite_eq_right_iff, reduceCtorEq, imp_false,
    Bool.not_eq_true, List.any_eq_false, Option.isSome_eq_false_iff, Option.isNone_iff_eq_none]
  exact ⟨fun h element => h element (S3BackupStorage.mem_values element), fun h element _ => h element⟩

theorem eTagsAt_eq_none_iff {epoch : Epoch} :
    (∀ element, eTagsAt names s s (epoch, element) = none) ↔ NoArtifact names s epoch := by
  rw [noArtifact_iff]
  refine forall_congr' (fun element => ?_)
  cases element <;> exact Option.map_eq_none_iff

theorem ensures_takeSnapshot (hw : writer.On names) :
    Ensures aloneStep (S3BackupStorage.takeSnapshot writer) s (fun _ out s' =>
      s' = s ∧ match out with
        | .ok snapshot => ∀ epoch,
            snapshot.selfSignedBundleBackupHandles epoch = none ↔ NoArtifact names s epoch
        | .error e => ¬ IsAlreadyLocked e) := by
  obtain ⟨hpublic, hprivate⟩ := hw
  unfold S3BackupStorage.takeSnapshot
  rw [hpublic, hprivate]
  apply Ensures.bind
  apply ensures_listBucket.mono
  rintro _ r s₁ ⟨rfl, hfirst⟩
  cases r with
  | error e => exact ⟨rfl, hfirst⟩
  | ok publicObjects =>
    apply Ensures.bind
    apply ensures_listBucket.mono
    rintro _ r s₂ ⟨rfl, hsecond⟩
    cases r with
    | error e => exact ⟨rfl, hsecond⟩
    | ok privateObjects =>
      apply Ensures.invoke
      rintro r s' ⟨hstep, hthrows⟩
      obtain rfl := s3Step_of_not_write hstep rfl
      cases r with
      | error e => exact ⟨rfl, hthrows e rfl⟩
      | ok snapshot =>
        obtain ⟨⟨generation, previous, rfl⟩, -⟩ := hstep
        refine ⟨rfl, fun epoch => ?_⟩
        have hlisted := recordPrivate_recordPublic hfirst hsecond
        rw [nextSnapshot_eq_none_iff, ← eTagsAt_eq_none_iff, ← hlisted]
        rfl

theorem uses_takeSnapshot_aside : (S3BackupStorage.takeSnapshot writer).Uses Aside :=
  uses_takeSnapshot (fun _ _ _ h => h) (fun _ _ _ h => h)

/-- What is missing of such a snapshot. -/
theorem findMissing_eq {config : CertificatesConfig} {snapshot : S3StorageSnapshot}
    (h : ∀ epoch, snapshot.selfSignedBundleBackupHandles epoch = none ↔ NoArtifact names s epoch) :
    DefaultCertificateGenerator.findMissingSelfSignedBundleBackups config
        (snapshot.toStorageSnapshot writer) =
      (missingCertificates names config s).map (emptyHandle writer) := by
  unfold DefaultCertificateGenerator.findMissingSelfSignedBundleBackups missingCertificates
  induction config.getSelfSignedCertificates with
  | nil => rfl
  | cons certConfig certs ih =>
    have hhandle := h certConfig.epochId
    rw [List.filterMap_cons, List.filter_cons, ih]
    simp only [S3StorageSnapshot.toStorageSnapshot,
      S3StorageSnapshot.getSelfSignedBundleBackupHandle]
    by_cases hmissing : NoArtifact names s certConfig.epochId
    · rw [hhandle.mpr hmissing]
      simp [hmissing, emptyHandle]
    · have hsome := mt hhandle.mp hmissing
      cases hfound : snapshot.selfSignedBundleBackupHandles certConfig.epochId with
      | none => exact absurd hfound hsome
      | some handle => cases handle <;> simp [hmissing]

theorem mem_missingCertificates {config : CertificatesConfig} {certConfig : SelfSignedCertificate} :
    certConfig ∈ missingCertificates names config s ↔
      certConfig ∈ config.selfSignedCertificates.map Prod.snd ∧
        NoArtifact names s certConfig.epochId := by
  rw [missingCertificates, List.mem_filter, decide_eq_true_iff]
  exact and_congr_left' (List.mem_insertionSort _)

/-- The config has a missing certificate under its own epoch. -/
theorem lookup_of_mem_missing {config : CertificatesConfig} :
    ∀ certConfig ∈ missingCertificates names config s,
      config.selfSignedCertificates.lookup certConfig.epochId = some certConfig := by
  intro certConfig hmem
  obtain ⟨entry, hentry, rfl⟩ := List.mem_map.mp (mem_missingCertificates.mp hmem).1
  have hkey : entry.1 = entry.2.epochId := config.selfSigned_key entry hentry
  obtain ⟨found, hfound⟩ := lookup_of_mem_keys (List.mem_map_of_mem (f := Prod.fst) hentry)
  rw [← hkey, hfound]
  have hsame := List.inj_on_of_nodup_map config.selfSigned_nodup (mem_of_lookup hfound) hentry rfl
  rw [← hsame]

/-! ## Under the lock -/

/-- The lock was absent and is now held. -/
def TookLock (names : BucketNames) (s s' : Buckets) : Prop :=
  ∃ content, Created s names.privateBucket S3BackupPaths.lockPath content s'

theorem TookLock.before {s' : Buckets} (h : TookLock names s s') : lockObject names s = none :=
  h.choose_spec.1

theorem TookLock.after {s' : Buckets} (h : TookLock names s s') : lockObject names s' ≠ none := by
  obtain ⟨content, -, eTag, rfl⟩ := h
  rw [lockObject, Buckets.set_self]
  exact Option.some_ne_none _

theorem TookLock.eq_of_ne {s' : Buckets} (h : TookLock names s s') {bucket key : JString}
    (hne : ¬ (bucket = names.privateBucket ∧ key = S3BackupPaths.lockPath)) :
    s' bucket key = s bucket key := by
  obtain ⟨content, -, eTag, rfl⟩ := h
  rw [Buckets.set_apply, if_neg hne]

theorem TookLock.artifact_eq {s' : Buckets} (h : TookLock names s s') (epoch : Epoch)
    (element : SelfSignedBundleBackupElement) :
    artifact names s' epoch element = artifact names s epoch element :=
  h.eq_of_ne (fun heq => elementPath_ne_lockPath element epoch heq.2)

theorem TookLock.missing_eq {s' : Buckets} (h : TookLock names s s') (config : CertificatesConfig) :
    missingCertificates names config s' = missingCertificates names config s := by
  have hiff : ∀ epoch, NoArtifact names s' epoch ↔ NoArtifact names s epoch := by
    intro epoch
    simp only [NoArtifact, h.artifact_eq]
  simp only [missingCertificates, hiff]

/-- The lock is removed again when the epochs are filled. -/
theorem FillsAll.unlock {certs : List SelfSignedCertificate} {s₁ s₂ : Buckets}
    {tr : List (Event MbsOp MbsOp.Val Throwable)} (hlock : TookLock names s s₁)
    (h : FillsAll names certs s₁ tr s₂) :
    FillsAll names certs s tr (s₂.set names.privateBucket S3BackupPaths.lockPath none) where
  stored := by
    refine h.stored.imp ?_
    rintro certConfig ev ⟨backup, hev, hstored⟩
    refine ⟨backup, hev, fun element => ?_⟩
    rw [artifact_set_of_ne (elementPath_ne_lockPath element certConfig.epochId)]
    exact hstored element
  onlyFills := by
    intro bucket key
    rw [Buckets.set_apply]
    split
    · next hkey =>
      obtain ⟨rfl, rfl⟩ := hkey
      exact .inl hlock.before.symm
    · next hkey =>
      have heq : s₁ bucket key = s bucket key := hlock.eq_of_ne hkey
      rw [← heq]
      exact h.onlyFills bucket key

theorem FillsAll.of_calls {certs : List SelfSignedCertificate} {s' : Buckets}
    {tr tr' : List (Event MbsOp MbsOp.Val Throwable)} (h : FillsAll names certs s tr s')
    (hcalls : generatorCalls tr' = generatorCalls tr) : FillsAll names certs s tr' s' :=
  ⟨hcalls ▸ h.stored, h.onlyFills⟩

theorem aside_put_lock (bucket : JString) (content : Bytes) (cacheControl : JString) :
    Aside (.putObject bucket S3BackupPaths.lockPath content cacheControl) := by
  rintro epoch ⟨element, hkey⟩
  exact elementPath_ne_lockPath element epoch hkey.symm

theorem ensures_acquireLock (hw : writer.On names) :
    Ensures aloneStep writer.acquireLock s (fun tr out s' =>
      (match out with
        | .ok _ => TookLock names s s'
        | .error _ => s' = s ∨ TookLock names s s') ∧ ∀ ev ∈ tr, Aside ev.op) := by
  refine Ensures.with_uses ?_ (uses_acquireLock (aside_put_lock _))
  unfold S3BackupWriter.acquireLock
  rw [hw.2]
  apply Ensures.handle
  apply ensures_putIfAbsent.mono
  intro tr r s' h
  cases r with
  | ok _ => exact ⟨_, h.1⟩
  | error e =>
    have hs : s' = s ∨ TookLock names s s' := h.1.imp_right (fun hcreated => ⟨_, hcreated⟩)
    show Ensures aloneStep (ite _ _ _) s' _
    split <;> exact Ensures.raise hs

theorem ensures_releaseLock (hw : writer.On names) :
    Ensures aloneStep writer.releaseLock s (fun tr out s' =>
      (match out with
        | .ok _ => s' = s.set names.privateBucket S3BackupPaths.lockPath none
        | .error e => ¬ IsAlreadyLocked e) ∧ ∀ ev ∈ tr, Aside ev.op) := by
  refine Ensures.with_uses ?_ (uses_releaseLock (fun _ h => h))
  unfold S3BackupWriter.releaseLock
  rw [hw.2]
  apply Ensures.handle
  apply Ensures.invoke
  rintro r s' ⟨hstep, hthrows⟩
  cases r with
  | ok _ => exact hstep
  | error e =>
    show Ensures aloneStep (ite _ _ _) s' _
    split
    · exact Ensures.raise Bool.false_ne_true
    · exact Ensures.raise (hthrows e rfl)

/-- The lock was taken, and the loop stopped at one of the missing epochs. -/
def StopsUnderLock (names : BucketNames) (config : CertificatesConfig) (s : Buckets)
    (tr : List (Event MbsOp MbsOp.Val Throwable)) (s' : Buckets) : Prop :=
  ∃ s₁, TookLock names s s₁ ∧ ∃ before certConfig after,
    missingCertificates names config s = before ++ certConfig :: after ∧
      StopsAt names before certConfig s₁ tr s'

/-- Calls for no epoch may stand before and after. -/
theorem StopsUnderLock.widen {config : CertificatesConfig} {s' : Buckets}
    {tr tr' : List (Event MbsOp MbsOp.Val Throwable)} (h : StopsUnderLock names config s tr s')
    (hsub : tr ⊆ tr') (hfails : ∀ epoch, FailsAt epoch tr' → FailsAt epoch tr) :
    StopsUnderLock names config s tr' s' := by
  obtain ⟨s₁, hlock, before, certConfig, after, hsplit, hstops⟩ := h
  refine ⟨s₁, hlock, before, certConfig, after, hsplit, ?_, hstops.onlyFills, ?_⟩
  · intro done hdone
    obtain ⟨backup, hcall, hstored⟩ := hstops.stored done hdone
    exact ⟨backup, hsub hcall, hstored⟩
  · exact fun epoch hepoch => hstops.fails epoch (hfails epoch hepoch)

/-- The part from `acquireLock` on. Either it did not come past the lock, or it does not end
with the exception that is retried. -/
theorem ensures_generateUnderLock (hw : writer.On names) (config : CertificatesConfig)
    (s : Buckets) :
    Ensures aloneStep ((s3Generator writer).generateUnderLock config) s (fun tr out s' =>
      match out with
        | .ok _ => FillsAll names (missingCertificates names config s) s tr s' ∧
            lockObject names s = none ∧ ∀ epoch, ¬ FailsAt epoch tr
        | .error e => ((∀ ev ∈ tr, Aside ev.op) ∧ (s' = s ∨ TookLock names s s')) ∨
            (¬ IsAlreadyLocked e ∧
              ∀ epoch, FailsAt epoch tr → StopsUnderLock names config s tr s')) := by
  show Ensures aloneStep (writer.acquireLock.bind (fun _ =>
    (S3BackupStorage.getSnapshot writer).bind _)) s _
  apply Ensures.bind
  apply (ensures_acquireLock hw).mono
  rintro t₁ r s₁ ⟨hlock, haside₁⟩
  cases r with
  | error e => exact .inl ⟨haside₁, hlock⟩
  | ok _ =>
    have hlock : TookLock names s s₁ := hlock
    show Ensures aloneStep ((S3BackupStorage.getSnapshot writer).bind _) s₁ _
    rw [getSnapshot_bind]
    apply Ensures.bind
    apply ((ensures_takeSnapshot hw).with_uses uses_takeSnapshot_aside).mono
    rintro t₂ r s₂ ⟨⟨rfl, hsnapshot⟩, haside₂⟩
    have haside : ∀ ev ∈ t₁ ++ t₂, Aside ev.op :=
      fun ev hev => (List.mem_append.mp hev).elim (haside₁ ev) (haside₂ ev)
    cases r with
    | error e => exact .inr ⟨hsnapshot, fun epoch hfails => absurd hfails (not_failsAt_of_aside haside)⟩
    | ok snapshot =>
      show Ensures aloneStep (((s3Generator writer).generateAndWriteAll config
        (DefaultCertificateGenerator.findMissingSelfSignedBundleBackups config
          (snapshot.toStorageSnapshot writer))).bind (fun _ => writer.releaseLock)) s₂ _
      rw [findMissing_eq hsnapshot, hlock.missing_eq]
      apply Ensures.bind
      apply (ensures_generateAndWriteAll hw _ lookup_of_mem_missing s₂).mono
      intro t₃ r s₃ hloop
      cases r with
      | error e =>
        -- The loop stops, and the lock stays.
        obtain ⟨hcls, before, certConfig, after, hsplit, hstops⟩ := hloop
        refine .inr ⟨hcls, fun _ _ => ?_⟩
        have hunder : StopsUnderLock names config s t₃ s₃ :=
          ⟨s₂, hlock, before, certConfig, after, hsplit, hstops⟩
        rw [← List.append_assoc]
        refine hunder.widen (List.subset_append_right _ _) (fun epoch hepoch => ?_)
        exact (failsAt_append.mp hepoch).resolve_left (not_failsAt_of_aside haside)
      | ok _ =>
        obtain ⟨hfills, hok⟩ := hloop
        apply (ensures_releaseLock hw).mono
        rintro t₄ out s' ⟨hrelease, haside₄⟩
        have hnever : ∀ epoch, ¬ FailsAt epoch (t₁ ++ (t₂ ++ (t₃ ++ t₄))) := by
          intro epoch hfails
          rw [← List.append_assoc] at hfails
          rcases failsAt_append.mp hfails with hfails | hfails
          · exact not_failsAt_of_aside haside hfails
          · exact (failsAt_append.mp hfails).elim (hok epoch) (not_failsAt_of_aside haside₄)
        cases out with
        | error e => exact .inr ⟨hrelease, fun epoch hfails => absurd hfails (hnever epoch)⟩
        | ok _ =>
          obtain rfl : s' = s₃.set names.privateBucket S3BackupPaths.lockPath none := hrelease
          refine ⟨(hfills.unlock hlock).of_calls ?_, hlock.before, hnever⟩
          simp only [generatorCalls_append, generatorCalls_of_aside haside₁,
            generatorCalls_of_aside haside₂, generatorCalls_of_aside haside₄, List.nil_append,
            List.append_nil]

/-- One attempt: it returns with nothing missing, or goes under the lock. -/
theorem ensures_attempt (hw : writer.On names) (config : CertificatesConfig) (s : Buckets) :
    Ensures aloneStep ((s3Generator writer).generateMissingSelfSignedBundleBackups config) s
      (fun tr out s' => match out with
        | .ok _ => FillsAll names (missingCertificates names config s) s tr s' ∧
            (missingCertificates names config s ≠ [] → lockObject names s = none) ∧
            ∀ epoch, ¬ FailsAt epoch tr
        | .error e => ((∀ ev ∈ tr, Aside ev.op) ∧ missingCertificates names config s ≠ [] ∧
            (s' = s ∨ TookLock names s s')) ∨
            (¬ IsAlreadyLocked e ∧
              ∀ epoch, FailsAt epoch tr → StopsUnderLock names config s tr s')) := by
  show Ensures aloneStep ((S3BackupStorage.getSnapshot writer).bind _) s _
  rw [getSnapshot_bind]
  apply Ensures.bind
  apply ((ensures_takeSnapshot hw).with_uses uses_takeSnapshot_aside).mono
  rintro t₁ r s₁ ⟨⟨rfl, hsnapshot⟩, haside⟩
  have hquiet : ∀ epoch, ¬ FailsAt epoch t₁ := fun epoch => not_failsAt_of_aside haside
  cases r with
  | error e => exact .inr ⟨hsnapshot, fun epoch hfails => absurd hfails (hquiet epoch)⟩
  | ok snapshot =>
    show Ensures aloneStep (ite _ _ _) s₁ _
    rw [findMissing_eq hsnapshot]
    by_cases hempty : missingCertificates names config s₁ = []
    · rw [if_pos (by rw [hempty]; rfl)]
      apply Ensures.ret
      rw [List.append_nil, hempty]
      refine ⟨⟨?_, .refl s₁⟩, fun hne => absurd rfl hne, hquiet⟩
      rw [generatorCalls_of_aside haside]
      exact .nil
    · rw [if_neg (by rwa [List.isEmpty_iff, List.map_eq_nil_iff])]
      apply (ensures_generateUnderLock hw config s₁).mono
      intro t₂ out s' hlocked
      cases out with
      | ok _ =>
        obtain ⟨hfills, hfree, hok⟩ := hlocked
        refine ⟨hfills.of_calls ?_, fun _ => hfree, fun epoch hfails => ?_⟩
        · rw [generatorCalls_append, generatorCalls_of_aside haside, List.nil_append]
        · exact (failsAt_append.mp hfails).elim (hquiet epoch) (hok epoch)
      | error e =>
        rcases hlocked with ⟨haside₂, hs⟩ | ⟨hcls, hstops⟩
        · exact .inl ⟨fun ev hev => (List.mem_append.mp hev).elim (haside ev) (haside₂ ev), hempty, hs⟩
        · refine .inr ⟨hcls, fun epoch hfails => ?_⟩
          have hfront : ∀ epoch, FailsAt epoch (t₁ ++ t₂) → FailsAt epoch t₂ :=
            fun epoch hfails => (failsAt_append.mp hfails).resolve_left (hquiet epoch)
          exact (hstops epoch (hfront epoch hfails)).widen (List.subset_append_right _ _) hfront

/-! ## The whole run -/

/-- What a run made of the missing epochs. -/
def RunEffect (names : BucketNames) (config : CertificatesConfig) (s : Buckets)
    (tr : List (Event MbsOp MbsOp.Val Throwable)) (out : Except Throwable Unit) (s' : Buckets) :
    Prop :=
  match out with
  | .ok _ => FillsAll names (missingCertificates names config s) s tr s' ∧
      ∀ epoch, ¬ FailsAt epoch tr
  | .error _ => ∀ epoch, FailsAt epoch tr → StopsUnderLock names config s tr s'

theorem aside_singleton {o : MbsOp} {r : Except Throwable o.Val} (ho : Aside o) :
    ∀ ev : Event MbsOp MbsOp.Val Throwable, ev ∈ [⟨o, r⟩] → Aside ev.op := by
  intro ev hev
  rw [List.mem_singleton.mp hev]
  exact ho

/-- A second attempt is made only when the first one came no further than the lock. If it
left the lock behind, the second one does not get past it. -/
theorem ensures_retry (hw : writer.On names) (config : CertificatesConfig) (s : Buckets) :
    Ensures aloneStep
      ((s3Generator writer).generateMissingSelfSignedBundleBackupsWithRetryOnTransientError config)
      s (RunEffect names config s) := by
  apply Ensures.handle
  apply (ensures_attempt hw config s).mono
  intro t₁ r s₁ hfirst
  cases r with
  | ok _ => exact ⟨hfirst.1, hfirst.2.2⟩
  | error e =>
    show Ensures aloneStep (ite _ _ _) s₁ _
    split
    · next hlocked =>
      -- Of the failures of an attempt, only those of the lock are of the class that is retried.
      obtain ⟨haside₁, hmissing, hs⟩ := hfirst.resolve_right (fun h => h.1 hlocked)
      apply Ensures.bind
      apply Ensures.invoke
      rintro r s₂ ⟨hstep, -⟩
      obtain rfl := s3Step_of_not_write hstep rfl
      have hsleep : Aside .sleep := fun _ h => h
      have haside : ∀ ev ∈ t₁ ++ [⟨.sleep, r⟩], Aside ev.op := by
        intro ev hev
        rcases List.mem_append.mp hev with hev | hev
        · exact haside₁ ev hev
        · exact aside_singleton hsleep ev hev
      have hquiet : ∀ epoch, ¬ FailsAt epoch (t₁ ++ [⟨.sleep, r⟩]) :=
        fun epoch => not_failsAt_of_aside haside
      cases r with
      | error e => exact fun epoch hfails => absurd hfails (hquiet epoch)
      | ok _ =>
        apply (ensures_attempt hw config s₂).mono
        intro t₂ out s' hsecond
        rw [← List.append_assoc]
        have hback : ∀ epoch, FailsAt epoch ((t₁ ++ [⟨.sleep, .ok ()⟩]) ++ t₂) → FailsAt epoch t₂ :=
          fun epoch hfails => (failsAt_append.mp hfails).resolve_left (hquiet epoch)
        rcases hs with rfl | hlock
        · -- The first attempt left everything as it was.
          cases out with
          | ok _ =>
            refine ⟨hsecond.1.of_calls ?_, fun epoch hfails => hsecond.2.2 epoch (hback epoch hfails)⟩
            rw [generatorCalls_append, generatorCalls_of_aside haside, List.nil_append]
          | error e =>
            intro epoch hfails
            rcases hsecond with ⟨haside₂, -⟩ | ⟨-, hstops⟩
            · exact absurd (hback epoch hfails) (not_failsAt_of_aside haside₂)
            · exact (hstops epoch (hback epoch hfails)).widen (List.subset_append_right _ _) hback
        · -- The first attempt took the lock and was told that it had not.
          rw [hlock.missing_eq] at hsecond
          cases out with
          | ok _ => exact absurd (hsecond.2.1 hmissing) hlock.after
          | error e =>
            intro epoch hfails
            rcases hsecond with ⟨haside₂, -⟩ | ⟨-, hstops⟩
            · exact absurd (hback epoch hfails) (not_failsAt_of_aside haside₂)
            · obtain ⟨s₃, hagain, -⟩ := hstops epoch (hback epoch hfails)
              exact absurd hagain.before hlock.after
    · rcases hfirst with ⟨haside, -⟩ | ⟨-, hstops⟩
      · apply Ensures.raise
        rw [List.append_nil]
        exact fun epoch hfails => absurd hfails (not_failsAt_of_aside haside)
      · apply Ensures.raise
        rwa [List.append_nil]

/-- What comes after the attempts changes nothing. -/
theorem RunEffect.append_aside {config : CertificatesConfig} {s' : Buckets}
    {tr tr' : List (Event MbsOp MbsOp.Val Throwable)} {out : Except Throwable Unit} {e : Throwable}
    (h : RunEffect names config s tr out s') (haside : ∀ ev ∈ tr', Aside ev.op) :
    RunEffect names config s (tr ++ tr') (.error e) s' := by
  have hfront : ∀ epoch, FailsAt epoch (tr ++ tr') → FailsAt epoch tr :=
    fun epoch hfails => (failsAt_append.mp hfails).resolve_right (not_failsAt_of_aside haside)
  intro epoch hfails
  cases out with
  | ok _ => exact absurd (hfront epoch hfails) (h.2 epoch)
  | error e => exact (h epoch (hfront epoch hfails)).widen (List.subset_append_left _ _) hfront

/-- The failure is recorded as an event and replaced, unless it is an error. -/
theorem ensures_recordFailure {config : CertificatesConfig} {s₁ : Buckets}
    {tr t : List (Event MbsOp MbsOp.Val Throwable)} {out : Except Throwable Unit}
    (h : RunEffect names config s tr out s₁) (e : Throwable) (ht : ∀ ev ∈ t, Aside ev.op) :
    Ensures aloneStep (if e.instanceOf .exception then
        (s3Generator writer).recordGenerationEvent
          (DefaultCertificateGenerator.mapFailureToEvent e) >>= fun _ =>
          throw { cls := .runtimeException, message := u "Failed to generate certificate" }
      else throw e) s₁ (fun tr' out s' => RunEffect names config s (tr ++ t ++ tr') out s') := by
  have hrecord : ∀ event, Aside (.recordGenerationEvent event) := fun _ _ hworks => hworks
  split
  · apply Ensures.bind
    apply Ensures.invoke
    rintro r s₂ ⟨hstep, -⟩
    obtain rfl := s3Step_of_not_write hstep rfl
    have haside : ∀ ev ∈ t ++ [⟨.recordGenerationEvent _, r⟩], Aside ev.op := by
      intro ev hev
      rcases List.mem_append.mp hev with hev | hev
      · exact ht ev hev
      · exact aside_singleton (hrecord _) ev hev
    cases r with
    | error e' =>
      rw [List.append_assoc]
      exact h.append_aside haside
    | ok _ =>
      apply Ensures.raise
      rw [List.append_nil, List.append_assoc]
      exact h.append_aside haside
  · apply Ensures.raise
    rw [List.append_nil]
    exact h.append_aside ht

theorem ensures_generateCertificates (hw : writer.On names) (config : CertificatesConfig)
    (s : Buckets) :
    Ensures aloneStep ((s3Generator writer).generateCertificates config) s
      (RunEffect names config s) := by
  apply Ensures.handle
  apply Ensures.bind
  apply (ensures_retry hw config s).mono
  intro t₁ r s₁ hattempts
  cases r with
  | error e =>
    rw [← List.append_nil t₁]
    exact ensures_recordFailure hattempts e (by simp)
  | ok _ =>
    apply Ensures.invoke
    rintro r s₂ ⟨hstep, -⟩
    obtain rfl := s3Step_of_not_write hstep rfl
    have hrecord : Aside (.recordGenerationEvent .success) := fun _ hworks => hworks
    have haside := aside_singleton (r := r) hrecord
    cases r with
    | error e =>
      -- The `catch` clause covers the recording of the success too.
      exact ensures_recordFailure hattempts e haside
    | ok _ =>
      obtain ⟨hfills, hok⟩ := hattempts
      refine ⟨hfills.of_calls ?_, fun epoch hfails => ?_⟩
      · rw [generatorCalls_append, generatorCalls_of_aside haside, List.append_nil]
      · rcases failsAt_append.mp hfails with hfails | hfails
        · exact hok epoch hfails
        · exact not_failsAt_of_aside haside hfails

theorem missing_sorted (config : CertificatesConfig) :
    (missingCertificates names config s).Pairwise
      (fun a b => a.epochId.toInt ≤ b.epochId.toInt) :=
  (List.pairwise_insertionSort _ _).sublist List.filter_sublist

/-- Of a run that stopped: the epochs before are filled, the ones after are empty. -/
theorem StopsUnderLock.effect {config : CertificatesConfig} {s' : Buckets}
    {tr : List (Event MbsOp MbsOp.Val Throwable)} (h : StopsUnderLock names config s tr s')
    {epoch : Epoch} (hfails : FailsAt epoch tr) :
    (∃ certConfig ∈ missingCertificates names config s, certConfig.epochId = epoch) ∧
    (∀ certConfig ∈ missingCertificates names config s, certConfig.epochId.toInt < epoch.toInt →
      ∃ backup, ⟨.generate certConfig, .ok backup⟩ ∈ tr ∧
        StoredAs names s' certConfig.epochId backup) ∧
    (∀ certConfig ∈ missingCertificates names config s, epoch.toInt < certConfig.epochId.toInt →
      NoArtifact names s' certConfig.epochId) ∧
    (lockObject names s').isSome := by
  obtain ⟨s₁, hlock, before, stopped, after, hsplit, hstops⟩ := h
  obtain rfl := hstops.fails epoch hfails
  have hsorted : (missingCertificates names config s).Pairwise _ := missing_sorted config
  rw [hsplit, List.pairwise_append] at hsorted
  obtain ⟨-, hlast, hcross⟩ := hsorted
  have hbefore : ∀ done ∈ before, done.epochId.toInt ≤ stopped.epochId.toInt :=
    fun done hdone => hcross done hdone stopped List.mem_cons_self
  have hafter : ∀ later ∈ after, stopped.epochId.toInt ≤ later.epochId.toInt :=
    (List.pairwise_cons.mp hlast).1
  refine ⟨⟨stopped, by simp [hsplit], rfl⟩, fun certConfig hmem hlt => ?_,
    fun certConfig hmem hlt => ?_, ?_⟩
  · rw [hsplit, List.mem_append, List.mem_cons] at hmem
    rcases hmem with hmem | rfl | hmem
    · exact hstops.stored certConfig hmem
    · omega
    · have := hafter certConfig hmem
      omega
  · have hempty : NoArtifact names s₁ certConfig.epochId := by
      intro element helement
      rw [hlock.artifact_eq]
      exact (mem_missingCertificates.mp hmem).2 element helement
    apply hempty.of_onlyFills hstops.onlyFills
    intro hfilled
    obtain ⟨filled, hfilled, heq⟩ := List.mem_map.mp hfilled
    rcases List.mem_append.mp hfilled with hfilled | hfilled
    · have := hbefore filled hfilled
      rw [heq] at this
      omega
    · rw [← heq, List.mem_singleton.mp hfilled] at hlt
      omega
  · rw [hstops.onlyFills.lockObject_eq]
    exact Option.isSome_iff_ne_none.mpr hlock.after

end

/-- A run that returns filled every configured epoch that had no artifact, each from the one
call of the generator for its certificate, changed nothing else and left the lock as it
was. A run in which a call for an epoch failed has thrown; it filled the missing epochs
before that one, left the ones after it empty, and holds the lock. -/
theorem generateCertificates_alone {writer : S3BackupWriter} {config : CertificatesConfig}
    {s s' : Buckets} {tr : List (Event MbsOp MbsOp.Val Throwable)} {out : Except Throwable Unit}
    (hruns : ((s3Generator writer).generateCertificates config).Runs tr out)
    (hserved : Served aloneStep s tr s') :
    (out = .ok () →
      FillsAll writer.names (missingCertificates writer.names config s) s tr s' ∧
      ((lockObject writer.names s').isSome ↔ (lockObject writer.names s).isSome)) ∧
    (∀ epoch, FailsAt epoch tr →
      (∃ e, out = .error e) ∧
      (∃ certConfig ∈ missingCertificates writer.names config s, certConfig.epochId = epoch) ∧
      (∀ certConfig ∈ missingCertificates writer.names config s,
        certConfig.epochId.toInt < epoch.toInt →
          ∃ backup, ⟨.generate certConfig, .ok backup⟩ ∈ tr ∧
            StoredAs writer.names s' certConfig.epochId backup) ∧
      (∀ certConfig ∈ missingCertificates writer.names config s,
        epoch.toInt < certConfig.epochId.toInt →
          NoArtifact writer.names s' certConfig.epochId) ∧
      (lockObject writer.names s').isSome) := by
  have heffect := (ensures_generateCertificates writer.on_names config s).of_runs tr out s' hruns
    hserved
  refine ⟨?_, fun epoch hfails => ?_⟩
  · rintro rfl
    refine ⟨heffect.1, ?_⟩
    rw [heffect.1.onlyFills.lockObject_eq]
  · cases out with
    | ok _ => exact absurd hfails (heffect.2 epoch)
    | error e => exact ⟨⟨e, rfl⟩, (heffect epoch hfails).effect hfails⟩

/-! Three epochs: a run that fills them all, and one that fails to generate the second. -/

namespace Sample

def threeCertificates : List (Epoch × SelfSignedCertificate) :=
  [(0, certConfig), (1, ⟨1, certConfig.validityPeriod⟩), (2, ⟨2, certConfig.validityPeriod⟩)]

theorem threeCertificates_key : ∀ entry ∈ threeCertificates, entry.1 = entry.2.epochId := by
  intro entry hentry
  simp only [threeCertificates, List.mem_cons, List.not_mem_nil, or_false] at hentry
  rcases hentry with rfl | rfl | rfl <;> rfl

theorem mem_threeCertificates :
    ∀ epoch ∈ [(0 : Epoch), 1], epoch ∈ threeCertificates.map Prod.fst := by
  intro epoch hepoch
  rcases List.mem_pair.mp hepoch with rfl | rfl
  · exact List.mem_cons_self
  · exact List.mem_cons_of_mem _ List.mem_cons_self

def threeEpochs : CertificatesConfig where
  selfSignedCertificates := threeCertificates
  crossSignedCertificates := []
  activeSelfSignedCertificateIds := [0, 1]
  activeCrossSignedCertificateIds := []
  acceptableSelfSignedCertificateIds := [0, 1]
  selfSigned_nodup := by decide
  crossSigned_nodup := List.nodup_nil
  active_nodup := by decide
  activeCross_nodup := List.nodup_nil
  acceptable_nodup := by decide
  selfSigned_key := threeCertificates_key
  crossSigned_key := crossSigned_key_nil
  crossSigned_private := by simp
  crossSigned_public := by simp
  active_nonempty := by decide
  active_defined := mem_threeCertificates
  acceptable_defined := mem_threeCertificates
  activeCross_defined := activeCross_defined_nil

/-- KMS fails when the certificate of one epoch is generated. -/
def serveFailing (failing : Option Epoch) (t : LocalS3) :
    (o : MbsOp) → Except Throwable o.Val × LocalS3
  | .generate certConfig =>
    if some certConfig.epochId = failing then (.error { cls := .kmsException }, t)
    else t.serve (.generate certConfig)
  | o => t.serve o

theorem serve_not_alreadyLocked (t : LocalS3) (o : MbsOp) (e : Throwable)
    (h : (t.serve o).1 = .error e) : ¬ IsAlreadyLocked e := by
  cases o <;> simp only [LocalS3.serve] at h <;> (try split at h) <;> cases h <;>
    exact Bool.false_ne_true

theorem aloneStep_serveFailing (failing : Option Epoch) (t : LocalS3) (o : MbsOp) :
    aloneStep t.buckets o (serveFailing failing t o).1 (serveFailing failing t o).2.buckets := by
  have hserve : aloneStep t.buckets o (t.serve o).1 (t.serve o).2.buckets :=
    ⟨t.s3Step_serve o, serve_not_alreadyLocked t o⟩
  cases o with
  | generate certConfig =>
    by_cases hfails : some certConfig.epochId = failing
    · simp only [serveFailing, hfails, if_true]
      refine ⟨rfl, fun e he => ?_⟩
      cases he
      exact Bool.false_ne_true
    · simp only [serveFailing, hfails, if_false]
      exact hserve
  | _ => exact hserve

def threeRun (failing : Option Epoch) :
    Except Throwable Unit × List (Event MbsOp MbsOp.Val Throwable) × LocalS3 :=
  drive (serveFailing failing) ((s3Generator writer).generateCertificates threeEpochs)
    (.fresh (some backup) true)

theorem threeRun_runs (failing : Option Epoch) :
    ((s3Generator writer).generateCertificates threeEpochs).Runs (threeRun failing).2.1
      (threeRun failing).1 := runs_drive (serveFailing failing) _ _

theorem threeRun_served (failing : Option Epoch) :
    Served aloneStep (LocalS3.fresh (some backup) true).buckets (threeRun failing).2.1
      (threeRun failing).2.2.buckets :=
  served_drive LocalS3.buckets (aloneStep_serveFailing failing) _ _

theorem threeRun_returns : (threeRun none).1 = .ok () := by rfl

theorem threeRun_failsAt : FailsAt 1 (threeRun (some 1)).2.1 :=
  ⟨⟨.generate ⟨1, certConfig.validityPeriod⟩, .error { cls := .kmsException }⟩,
    List.mem_of_getElem? (i := 12) rfl, rfl, _, rfl⟩

theorem missing_three : missingCertificates writer.names threeEpochs
    (LocalS3.fresh (some backup) true).buckets =
      [certConfig, ⟨1, certConfig.validityPeriod⟩, ⟨2, certConfig.validityPeriod⟩] := by rfl

end Sample

theorem generateCertificates_alone_three :
    FillsAll Sample.names
      [Sample.certConfig, ⟨1, Sample.certConfig.validityPeriod⟩,
        ⟨2, Sample.certConfig.validityPeriod⟩]
      (LocalS3.fresh (some Sample.backup) true).buckets (Sample.threeRun none).2.1
      (Sample.threeRun none).2.2.buckets ∧
    (∃ backup, ⟨.generate Sample.certConfig, .ok backup⟩ ∈ (Sample.threeRun (some 1)).2.1 ∧
      StoredAs Sample.names (Sample.threeRun (some 1)).2.2.buckets 0 backup) ∧
    NoArtifact Sample.names (Sample.threeRun (some 1)).2.2.buckets 2 ∧
    (lockObject Sample.names (Sample.threeRun (some 1)).2.2.buckets).isSome := by
  have hfilled := generateCertificates_alone (Sample.threeRun_runs none)
    (Sample.threeRun_served none)
  have hfailed := generateCertificates_alone (Sample.threeRun_runs (some 1))
    (Sample.threeRun_served (some 1))
  rw [Sample.missing_three] at hfilled hfailed
  obtain ⟨-, -, hbefore, hafter, hlocked⟩ := hfailed.2 1 Sample.threeRun_failsAt
  exact ⟨(hfilled.1 Sample.threeRun_returns).1, hbefore Sample.certConfig (by simp) (by decide),
    hafter ⟨2, Sample.certConfig.validityPeriod⟩ (by simp) (by decide), hlocked⟩

end Mbs
