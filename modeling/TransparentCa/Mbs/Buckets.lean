import TransparentCa.Lib.Interleave
import TransparentCa.Mbs.Generator

/- S3 behind the calls. The buckets are one shared store; `s3Step` says what one call may
   do to it and answer. A put with `If-None-Match: *` creates the object iff the key is
   absent, and a put or a delete may report a failure after it took effect. What gets and
   listings may answer is a parameter (`S3Reads`), since some results need nothing of it.
   The calls that are not S3's answer anything, except that a snapshot is computed by
   `nextSnapshot` from some earlier one. -/
namespace Mbs
open Java Effects AssocList

structure S3Object where
  content : Bytes
  eTag : JString
  deriving DecidableEq

/-- The objects by bucket and key. -/
abbrev Buckets := JString → JString → Option S3Object

def Buckets.set (s : Buckets) (bucket key : JString) (o : Option S3Object) : Buckets :=
  Function.update s bucket (Function.update (s bucket) key o)

theorem Buckets.set_apply (s : Buckets) (bucket key bucket' key' : JString) (o : Option S3Object) :
    s.set bucket key o bucket' key' =
      if bucket' = bucket ∧ key' = key then o else s bucket' key' := by
  unfold Buckets.set
  by_cases hb : bucket' = bucket
  · subst hb
    by_cases hk : key' = key
    · subst hk; simp
    · simp [hk]
  · simp [hb]

@[simp] theorem Buckets.set_self (s : Buckets) (bucket key : JString) (o : Option S3Object) :
    s.set bucket key o bucket key = o := by
  rw [set_apply, if_pos ⟨rfl, rfl⟩]

theorem Buckets.set_of_key_ne {s : Buckets} {bucket key bucket' key' : JString}
    {o : Option S3Object} (h : key' ≠ key) : s.set bucket key o bucket' key' = s bucket' key' := by
  rw [set_apply, if_neg (fun hboth => h hboth.2)]

/-- What gets and listings may answer. -/
structure S3Reads where
  get : Buckets → JString → JString → Except Throwable Bytes → Prop
  list : Buckets → JString → JString → Except Throwable (List S3ObjectSummary) → Prop

/-- Anything. -/
def S3Reads.any : S3Reads := ⟨fun _ _ _ _ => True, fun _ _ _ _ => True⟩

/-- The objects of a bucket under a prefix, as of one instant. -/
def Listing (s : Buckets) (bucket keyPrefix : JString) (objects : List S3ObjectSummary) : Prop :=
  ∀ o : S3ObjectSummary, o ∈ objects ↔
    keyPrefix <+: o.key ∧ ∃ content, s bucket o.key = some ⟨content, o.eTag⟩

/-- A get sees its object and a listing its keys as of one instant; `NoSuchKey` is thrown
only for an absent key, and other failures may come at any time. -/
def S3Reads.atomic : S3Reads where
  get s bucket key r := match r with
    | .ok bytes => ∃ eTag, s bucket key = some ⟨bytes, eTag⟩
    | .error e => e.instanceOf .noSuchKeyException → s bucket key = none
  list s bucket keyPrefix r := match r with
    | .ok objects => Listing s bucket keyPrefix objects
    | .error _ => True

/-- `s'` is `s` with a new object under a key that was absent. -/
def Created (s : Buckets) (bucket key : JString) (content : Bytes) (s' : Buckets) : Prop :=
  s bucket key = none ∧ ∃ eTag, s' = s.set bucket key (some ⟨content, eTag⟩)

/-- What the call `o` may answer in `s`, and the buckets after it. -/
def s3Step (reads : S3Reads) (s : Buckets) (o : MbsOp) (r : Except Throwable o.Val)
    (s' : Buckets) : Prop :=
  match o, r with
  | .putObject bucket key content _, .ok _ => Created s bucket key content s'
  | .putObject bucket key content _, .error _ => s' = s ∨ Created s bucket key content s'
  | .deleteObject bucket key, .ok _ => s' = s.set bucket key none
  | .deleteObject bucket key, .error _ => s' = s ∨ s' = s.set bucket key none
  | .getObject bucket key, r => reads.get s bucket key r ∧ s' = s
  | .listObjectsV2 bucket keyPrefix, r => reads.list s bucket keyPrefix r ∧ s' = s
  | .updateCachedSnapshot eTagsByEpoch eTagsByCrossSignedId, .ok snapshot =>
    (∃ generation previous, snapshot =
      S3BackupStorage.nextSnapshot generation eTagsByEpoch eTagsByCrossSignedId previous) ∧ s' = s
  | _, _ => s' = s

/-- The calls that cannot change the buckets. -/
def MbsOp.isWrite : MbsOp → Bool
  | .putObject _ _ _ _ | .deleteObject _ _ => true
  | _ => false

theorem s3Step_of_not_write {reads : S3Reads} {s s' : Buckets} {o : MbsOp}
    {r : Except Throwable o.Val} (h : s3Step reads s o r s') (ho : o.isWrite = false) : s' = s := by
  cases o <;> cases r <;> first
    | exact h
    | exact h.2
    | cases ho

theorem s3Step_put {reads : S3Reads} {s s' : Buckets} {bucket key : JString} {content : Bytes}
    {cacheControl : JString} {r : Except Throwable Unit}
    (h : s3Step reads s (.putObject bucket key content cacheControl) r s') :
    (s' = s ∧ ∃ e, r = .error e) ∨ Created s bucket key content s' := by
  cases r with
  | ok _ => exact .inr h
  | error e =>
    rcases h with h | h
    · exact .inl ⟨h, e, rfl⟩
    · exact .inr h

/-! ## The artifacts of an epoch -/

/-- The names of the two backup buckets; they may be one and the same. -/
structure BucketNames where
  publicBucket : JString
  privateBucket : JString

/-- The properties name these buckets. -/
def BackupBucketProperties.On (bucketProperties : BackupBucketProperties) (names : BucketNames) :
    Prop :=
  bucketProperties.publicBucketName = names.publicBucket ∧
    bucketProperties.privateBucketName = names.privateBucket

/-- The writer works on these buckets. -/
def S3BackupWriter.On (writer : S3BackupWriter) (names : BucketNames) : Prop :=
  writer.bucketProperties.On names

def S3BackupWriter.names (writer : S3BackupWriter) : BucketNames :=
  ⟨writer.bucketProperties.publicBucketName, writer.bucketProperties.privateBucketName⟩

theorem S3BackupWriter.on_names (writer : S3BackupWriter) : writer.On writer.names := ⟨rfl, rfl⟩

def BucketNames.of (names : BucketNames) : SelfSignedBundleBackupElement → JString
  | .cert | .attestationDoc => names.publicBucket
  | .kmsDataKey | .privateKey => names.privateBucket

def SelfSignedBundleBackup.part (backup : SelfSignedBundleBackup) :
    SelfSignedBundleBackupElement → Bytes
  | .cert => backup.certBytes
  | .attestationDoc => backup.attestationDocBytes
  | .kmsDataKey => backup.kmsEncryptedDataKey
  | .privateKey => backup.aeadEncryptedPrivateKey

theorem part_injective {backup backup' : SelfSignedBundleBackup}
    (h : ∀ element, backup.part element = backup'.part element) : backup = backup' := by
  obtain ⟨cert, kms, aead, doc⟩ := backup
  obtain ⟨cert', kms', aead', doc'⟩ := backup'
  obtain rfl : cert = cert' := h .cert
  obtain rfl : kms = kms' := h .kmsDataKey
  obtain rfl : aead = aead' := h .privateKey
  obtain rfl : doc = doc' := h .attestationDoc
  rfl

theorem exists_part (parts : SelfSignedBundleBackupElement → Bytes) :
    ∃ backup : SelfSignedBundleBackup, ∀ element, backup.part element = parts element := by
  refine ⟨⟨parts .cert, parts .kmsDataKey, parts .privateKey, parts .attestationDoc⟩, ?_⟩
  intro element
  cases element <;> rfl

/-- The stored artifact of an epoch. -/
def artifact (names : BucketNames) (s : Buckets) (epoch : Epoch)
    (element : SelfSignedBundleBackupElement) : Option S3Object :=
  s (names.of element) (elementPath element epoch)

section
variable {names : BucketNames} {s : Buckets}

/-- Setting one artifact changes that one only. -/
theorem artifact_set (epoch epoch' : Epoch) (element element' : SelfSignedBundleBackupElement)
    (o : Option S3Object) :
    artifact names (s.set (names.of element) (elementPath element epoch) o) epoch' element' =
      if epoch' = epoch ∧ element' = element then o else artifact names s epoch' element' := by
  by_cases h : epoch' = epoch ∧ element' = element
  · obtain ⟨rfl, rfl⟩ := h
    simp [artifact]
  · rw [if_neg h]
    apply Buckets.set_of_key_ne
    intro hkey
    obtain ⟨he, hep⟩ := elementPath_injective hkey
    exact h ⟨hep, he⟩

theorem artifact_set_of_ne {bucket key : JString} {o : Option S3Object} {epoch : Epoch}
    {element : SelfSignedBundleBackupElement} (h : elementPath element epoch ≠ key) :
    artifact names (s.set bucket key o) epoch element = artifact names s epoch element :=
  Buckets.set_of_key_ne h

end

/-! ## What the listings record -/

section
variable {names : BucketNames} {s : Buckets} {objects : List S3ObjectSummary}

/-- Where a key under the prefix is parsed back to what it was made from, a listing records
the ETags of the objects that exist. -/
theorem foldl_recordETag_listing {K : Type} [DecidableEq K] {parse : JString → Option K}
    {path : K → JString} {bucket keyPrefix : JString}
    (hlist : Listing s bucket keyPrefix objects) (m : K → Option JString) (k : K)
    (hpath : parse (path k) = some k) (hunder : keyPrefix <+: path k)
    (hkey : ∀ key, keyPrefix <+: key → parse key = some k → key = path k) :
    objects.foldl (recordETag parse) m k =
      match s bucket (path k) with
      | some o => some o.eTag
      | none => m k := by
  cases hstored : s bucket (path k) with
  | none =>
    apply foldl_recordETag_none
    intro o ho hparse
    obtain ⟨hpre, content, hobject⟩ := (hlist o).mp ho
    rw [hkey o.key hpre hparse, hstored] at hobject
    cases hobject
  | some object =>
    have hmem : (⟨path k, object.eTag⟩ : S3ObjectSummary) ∈ objects :=
      (hlist _).mpr ⟨hunder, object.content, hstored⟩
    obtain ⟨o, ho, hparse, hfold⟩ := foldl_recordETag_some objects m hmem hpath
    obtain ⟨hpre, content, hobject⟩ := (hlist o).mp ho
    rw [hkey o.key hpre hparse, hstored] at hobject
    refine hfold.trans ?_
    rw [Option.some.inj hobject]

/-- A listing of its bucket records an artifact that exists, with its ETag. -/
theorem record_listed (element : SelfSignedBundleBackupElement)
    (hlist : Listing s (names.of element) (elementPrefix element) objects) (m : ETagsByEpoch)
    (epoch : Epoch) :
    objects.foldl (recordSelfSignedBundleBackupElement (elementsBeside element)) m
        (epoch, element) =
      match artifact names s epoch element with
      | some o => some o.eTag
      | none => m (epoch, element) := by
  have hunder : elementPrefix element <+: elementPath element epoch := by
    rw [elementPath_eq, List.append_assoc, List.append_assoc]
    exact List.prefix_append _ _
  let path : Epoch × SelfSignedBundleBackupElement → JString := fun k => elementPath element k.1
  have hpath : parseElementKey (elementsBeside element) (path (epoch, element)) =
      some (epoch, element) := parseElementKey_elementPath element epoch
  exact foldl_recordETag_listing hlist m (epoch, element) hpath hunder
    (fun _ hpre h => eq_elementPath_of_parse hpre h)

/-- The stored cross-signed certificate. -/
def crossSignedObject (names : BucketNames) (s : Buckets) (id : CrossSignedCertificateId) :
    Option S3Object :=
  s names.publicBucket (S3BackupPaths.getCrossSignedCertificatePath id)

/-- What `getSnapshot` gathers about the cross-signed certificates. -/
theorem recordPublic_crossSigned
    (hlist : Listing s names.publicBucket S3BackupPaths.publicPrefix objects)
    (id : CrossSignedCertificateId) :
    (S3BackupStorage.recordPublic objects).2 id =
      (crossSignedObject names s id).map S3Object.eTag := by
  have hunder : S3BackupPaths.publicPrefix <+: S3BackupPaths.getCrossSignedCertificatePath id := by
    rw [getCrossSignedCertificatePath_eq]
    exact (show S3BackupPaths.publicPrefix <+: S3BackupPaths.crossSignedPrefix by decide).trans
      (List.prefix_append _ _)
  refine (foldl_recordETag_listing hlist (fun _ => none) id (parseCrossSignedKey_path id) hunder
    (fun _ _ h => eq_path_of_parseCrossSignedKey h)).trans ?_
  unfold crossSignedObject
  cases s names.publicBucket (S3BackupPaths.getCrossSignedCertificatePath id) <;> rfl

/-- The listing of the other bucket leaves an artifact alone. -/
theorem record_other (element element' : SelfSignedBundleBackupElement)
    (h : element ∉ (elementsBeside element').map Prod.snd) (m : ETagsByEpoch) (epoch : Epoch) :
    objects.foldl (recordSelfSignedBundleBackupElement (elementsBeside element')) m
      (epoch, element) = m (epoch, element) := by
  apply foldl_recordETag_none
  intro o _ hparse
  unfold parseElementKey at hparse
  split at hparse
  · split at hparse
    · cases hparse
    · next found hfound =>
      split at hparse
      · cases hparse
      · split at hparse
        · cases hparse
        · obtain ⟨-, rfl⟩ := Prod.mk.inj (Option.some.inj hparse)
          exact h (List.mem_map_of_mem (mem_of_lookup hfound))
  · cases hparse

/-- The ETags of the artifacts that the public bucket had at `s₁` and the private one at
`s₂`. -/
def eTagsAt (names : BucketNames) (s₁ s₂ : Buckets) : ETagsByEpoch := fun (epoch, element) =>
  match element with
  | .cert | .attestationDoc => (artifact names s₁ epoch element).map S3Object.eTag
  | .kmsDataKey | .privateKey => (artifact names s₂ epoch element).map S3Object.eTag

/-- What `getSnapshot` gathers about the self-signed backups. -/
theorem recordPrivate_recordPublic {s₁ s₂ : Buckets} {publicObjects privateObjects :
      List S3ObjectSummary}
    (hpublic : Listing s₁ names.publicBucket S3BackupPaths.publicPrefix publicObjects)
    (hprivate : Listing s₂ names.privateBucket S3BackupPaths.privatePrefix privateObjects) :
    S3BackupStorage.recordPrivate (S3BackupStorage.recordPublic publicObjects).1 privateObjects =
      eTagsAt names s₁ s₂ := by
  funext ⟨epoch, element⟩
  cases element with
  | cert =>
    refine (record_other _ .kmsDataKey (by decide) _ epoch).trans ?_
    refine (record_listed .cert hpublic _ epoch).trans ?_
    cases h : artifact names s₁ epoch .cert <;> simp [eTagsAt, h]
  | attestationDoc =>
    refine (record_other _ .kmsDataKey (by decide) _ epoch).trans ?_
    refine (record_listed .attestationDoc hpublic _ epoch).trans ?_
    cases h : artifact names s₁ epoch .attestationDoc <;> simp [eTagsAt, h]
  | kmsDataKey =>
    refine (record_listed .kmsDataKey hprivate _ epoch).trans ?_
    have hnone : (S3BackupStorage.recordPublic publicObjects).1 (epoch, .kmsDataKey) = none :=
      record_other .kmsDataKey .cert (by decide) (fun _ => none) epoch
    cases h : artifact names s₂ epoch .kmsDataKey with
    | none => simpa [eTagsAt, h] using hnone
    | some o => simp [eTagsAt, h]
  | privateKey =>
    refine (record_listed .privateKey hprivate _ epoch).trans ?_
    have hnone : (S3BackupStorage.recordPublic publicObjects).1 (epoch, .privateKey) = none :=
      record_other .privateKey .cert (by decide) (fun _ => none) epoch
    cases h : artifact names s₂ epoch .privateKey with
    | none => simpa [eTagsAt, h] using hnone
    | some o => simp [eTagsAt, h]

end

/-! ## The writer, artifact by artifact -/

/-- The order in which `writeSelfSignedBundleBackup` puts the artifacts. -/
def writeOrder : List SelfSignedBundleBackupElement :=
  [.privateKey, .kmsDataKey, .attestationDoc, .cert]

def S3BackupWriter.putArtifact (writer : S3BackupWriter) (names : BucketNames) (epoch : Epoch)
    (backup : SelfSignedBundleBackup) (element : SelfSignedBundleBackupElement) : MbsProg Unit :=
  writer.putS3Object (names.of element) (elementPath element epoch) (backup.part element)

def S3BackupWriter.putArtifacts (writer : S3BackupWriter) (names : BucketNames) (epoch : Epoch)
    (backup : SelfSignedBundleBackup) : List SelfSignedBundleBackupElement → MbsProg Unit
  | [] => return ()
  | element :: rest => do
    writer.putArtifact names epoch backup element
    putArtifacts writer names epoch backup rest

theorem bind_ret_unit {Op : Type} {Val : Op → Type} {ε : Type} (p : Prog Op Val ε Unit) :
    p.bind (fun _ => .ret ()) = p := p.bind_pure_self

theorem writeSelfSignedBundleBackup_eq {writer : S3BackupWriter} {names : BucketNames}
    (hw : writer.On names) (epoch : Epoch) (backup : SelfSignedBundleBackup) :
    writer.writeSelfSignedBundleBackup epoch backup =
      writer.putArtifacts names epoch backup writeOrder := by
  obtain ⟨hpub, hpriv⟩ := hw
  simp only [S3BackupWriter.writeSelfSignedBundleBackup, S3BackupWriter.putArtifacts,
    S3BackupWriter.putArtifact, writeOrder, elementPath, BucketNames.of,
    SelfSignedBundleBackup.part, Prog.bind_eq, Prog.pure_eq, bind_ret_unit, hpub, hpriv]

/-! ## The reader, artifact by artifact -/

def getArtifact (names : BucketNames) (epoch : Epoch) (element : SelfSignedBundleBackupElement) :
    MbsProg (Option Bytes) :=
  S3BackupReader.tryGetS3Object (names.of element) (elementPath element epoch)

theorem readSelfSignedBundleBackup_eq {bucketProperties : BackupBucketProperties}
    {names : BucketNames} (h : bucketProperties.On names) (epoch : Epoch) :
    S3BackupReader.readSelfSignedBundleBackup bucketProperties epoch =
      (getArtifact names epoch .cert).bind (fun certBytes =>
      (getArtifact names epoch .kmsDataKey).bind (fun kmsEncryptedDataKey =>
      (getArtifact names epoch .privateKey).bind (fun aeadEncryptedPrivateKey =>
      (getArtifact names epoch .attestationDoc).bind (fun attestationDocBytes =>
        Prog.ofExcept (S3BackupReader.assemble epoch certBytes kmsEncryptedDataKey
          aeadEncryptedPrivateKey attestationDocBytes))))) := by
  obtain ⟨hpub, hpriv⟩ := h
  simp only [S3BackupReader.readSelfSignedBundleBackup, getArtifact, BucketNames.of, elementPath,
    Prog.bind_eq, hpub, hpriv]

/-- A get that finds its object hands the content on. -/
theorem runs_tryGet_bind {bucket key : JString} {α : Type} {f : Option Bytes → MbsProg α}
    {tr : List (Event MbsOp MbsOp.Val Throwable)} {out : Except Throwable α} {content : Bytes}
    (h : ((S3BackupReader.tryGetS3Object bucket key).bind f).Runs tr out)
    (hev : ∀ ans, ⟨.getObject bucket key, ans⟩ ∈ tr → ans = .ok content) :
    ∃ t, (∀ ev ∈ t, ev ∈ tr) ∧ (f (some content)).Runs t out := by
  obtain ⟨r, t₁, t₂, rfl, h₁, h₂⟩ := Prog.runs_bind_inv h
  have hfirst : r = .ok (some content) := by
    rcases Prog.runs_handle.mp h₁ with ⟨found, rfl, h⟩ | ⟨e, t, t', rfl, h, -⟩
    · obtain ⟨bytes, t, rfl, hret⟩ := Prog.runs_invoke_bind.mp h
      obtain ⟨rfl, hfound⟩ := Prog.runs_ret.mp hret
      have hans := hev (.ok bytes) (by simp)
      rw [hfound, Except.ok.inj hans]
    · rcases Prog.runs_bind_error.mp h with h | ⟨bytes, t₃, t₄, rfl, -, h⟩
      · rw [call, Prog.runs_invoke] at h
        subst h
        exact absurd (hev (.error e) (by simp)) (fun heq => by cases heq)
      · cases h
  subst hfirst
  exact ⟨t₂, fun ev hmem => List.mem_append_right t₁ hmem, h₂⟩

/-- A read all of whose gets find their object returns the contents. -/
theorem runs_readSelfSignedBundleBackup {bucketProperties : BackupBucketProperties}
    {names : BucketNames} (ho : bucketProperties.On names) {epoch : Epoch} {tr : List (Event MbsOp MbsOp.Val Throwable)}
    {out : Except Throwable SelfSignedBundleBackup} {backup : SelfSignedBundleBackup}
    (h : (S3BackupReader.readSelfSignedBundleBackup bucketProperties epoch).Runs tr out)
    (hev : ∀ element ans, ⟨.getObject (names.of element) (elementPath element epoch), ans⟩ ∈ tr →
      ans = .ok (backup.part element)) : out = .ok backup := by
  rw [readSelfSignedBundleBackup_eq ho] at h
  obtain ⟨t₁, hsub₁, h⟩ := runs_tryGet_bind h (hev .cert)
  obtain ⟨t₂, hsub₂, h⟩ := runs_tryGet_bind h (fun ans hmem => hev .kmsDataKey ans
    (hsub₁ _ hmem))
  obtain ⟨t₃, hsub₃, h⟩ := runs_tryGet_bind h (fun ans hmem => hev .privateKey ans
    (hsub₁ _ (hsub₂ _ hmem)))
  obtain ⟨t₄, -, h⟩ := runs_tryGet_bind h (fun ans hmem => hev .attestationDoc ans
    (hsub₁ _ (hsub₂ _ (hsub₃ _ hmem))))
  exact (Prog.runs_ofExcept.mp h).2

/-- A read that finds its object returns the content. -/
theorem runs_readCrossSignedCertificateBackup {bucketProperties : BackupBucketProperties}
    {id : CrossSignedCertificateId} {tr : List (Event MbsOp MbsOp.Val Throwable)}
    {out : Except Throwable CrossSignedCertificateBackup} {backup : CrossSignedCertificateBackup}
    (h : (S3BackupReader.readCrossSignedCertificateBackup bucketProperties id).Runs tr out)
    (hev : ∀ ans, ⟨.getObject bucketProperties.publicBucketName
      (S3BackupPaths.getCrossSignedCertificatePath id), ans⟩ ∈ tr → ans = .ok backup.certBytes) :
    out = .ok backup := by
  obtain ⟨t, -, h⟩ := runs_tryGet_bind h hev
  exact (Prog.runs_ret.mp h).2

/-- The call was answered: it gave a value, or found that there is no such object. -/
def Answered (ev : Event MbsOp MbsOp.Val Throwable) : Prop :=
  ∀ e, ev.ans = .error e → e.instanceOf .noSuchKeyException = true

theorem answered_of_all_ok {tr : List (Event MbsOp MbsOp.Val Throwable)}
    (h : tr.all (fun ev => match ev.ans with
      | .ok _ => true
      | .error _ => false) = true) : ∀ ev ∈ tr, Answered ev := by
  intro ev hmem e he
  have hev := List.all_eq_true.mp h ev hmem
  rw [he] at hev
  cases hev

/-! ## Whole runs of the generator -/

/-- Around the attempts, `generateCertificates` only sleeps and counts. -/
theorem anywhere_generateCertificates {I S L : Type} [DecidableEq I]
    {sys : System I S MbsOp MbsOp.Val Throwable Unit}
    {P : Outline I S MbsOp MbsOp.Val Throwable Unit L} {i : I} {writer : S3BackupWriter}
    {config : CertificatesConfig}
    (hattempt : P.Anywhere sys i
      ((s3Generator writer).generateMissingSelfSignedBundleBackups config))
    (hsleep : P.Anywhere sys i (call .sleep))
    (hrecord : ∀ event, P.Anywhere sys i (call (.recordGenerationEvent event))) :
    P.Anywhere sys i ((s3Generator writer).generateCertificates config) := by
  have hraise : ∀ e : Throwable, P.Anywhere sys i (.raise e : MbsProg Unit) := fun _ _ => trivial
  apply Outline.Anywhere.handle
  · apply Outline.Anywhere.bind
    · apply Outline.Anywhere.handle hattempt
      intro e
      split
      · exact Outline.Anywhere.bind hsleep (fun _ => hattempt)
      · exact hraise e
    · intro _
      exact hrecord .success
  · intro failure
    split
    · exact Outline.Anywhere.bind (hrecord _) (fun _ => hraise _)
    · exact hraise failure

/-! ## A server for S3

An S3 in memory that does what it is asked, to run programs against; with `deleteReports`
false a delete takes effect and reports a failure. -/

structure LocalS3 where
  objects : List ((JString × JString) × S3Object)
  generation : Nat
  snapshot : S3StorageSnapshot
  /-- What the generator returns; `none` for a KMS failure. -/
  backup : Option SelfSignedBundleBackup
  deleteReports : Bool

namespace LocalS3

def buckets (t : LocalS3) : Buckets := fun bucket key => t.objects.lookup (bucket, key)

/-- An ETag that determines the content. -/
def eTagOf (content : Bytes) : JString := content.val.map UInt8.toUInt16

def noSuchKey : Throwable := { cls := .noSuchKeyException, statusCode := 404 }
def preconditionFailed : Throwable := { cls := .s3Exception, statusCode := 412 }
def sdkFailure : Throwable := { cls := .sdkException }

def list (t : LocalS3) (bucket keyPrefix : JString) : List S3ObjectSummary :=
  t.objects.filterMap (fun entry =>
    if entry.1.1 = bucket ∧ keyPrefix.isPrefixOf entry.1.2 ∧
        t.objects.lookup entry.1 = some entry.2 then some ⟨entry.1.2, entry.2.eTag⟩
    else none)

def serve (t : LocalS3) (o : MbsOp) : Except Throwable o.Val × LocalS3 :=
  match o with
  | .getObject bucket key => match t.buckets bucket key with
    | some o => (.ok o.content, t)
    | none => (.error noSuchKey, t)
  | .putObject bucket key content _ => match t.buckets bucket key with
    | some _ => (.error preconditionFailed, t)
    | none => (.ok (), { t with objects := ((bucket, key), ⟨content, eTagOf content⟩) :: t.objects })
  | .deleteObject bucket key =>
    (if t.deleteReports then .ok () else .error sdkFailure,
      { t with objects := t.objects.filter (fun entry => entry.1 ≠ (bucket, key)) })
  | .listObjectsV2 bucket keyPrefix => (.ok (t.list bucket keyPrefix), t)
  | .updateCachedSnapshot eTagsByEpoch eTagsByCrossSignedId =>
    let next := S3BackupStorage.nextSnapshot t.generation eTagsByEpoch eTagsByCrossSignedId
      t.snapshot
    (.ok next, { t with generation := t.generation + 1, snapshot := next })
  | .getCachedBackup _ _ => (.ok none, t)
  | .getCachedCrossSigned _ _ => (.ok none, t)
  | .getActiveTrustState => (.ok none, t)
  | .generate _ => match t.backup with
    | some backup => (.ok backup, t)
    | none => (.error { cls := .kmsException }, t)
  | .unsealBackup _ => (.error { cls := .kmsException }, t)
  | .toCertificate _ => (.error { cls := .illegalArgumentException }, t)
  | .monitorEnter _ => (.ok (), t)
  | .monitorExit _ => (.ok (), t)
  | .setCachedBackup _ _ _ => (.ok (), t)
  | .setCachedCrossSigned _ _ _ => (.ok (), t)
  | .setActiveTrustState _ => (.ok (), t)
  | .sleep => (.ok (), t)
  | .recordGenerationEvent _ => (.ok (), t)
  | .recordLoadEvent _ => (.ok (), t)
  | .recordConfigEvent _ => (.ok (), t)
  | .recordEvent _ => (.ok (), t)

theorem buckets_cons (t : LocalS3) (bucket key : JString) (o : S3Object) :
    buckets { t with objects := ((bucket, key), o) :: t.objects } =
      t.buckets.set bucket key (some o) := by
  funext bucket' key'
  rw [Buckets.set_apply, buckets, List.lookup_cons]
  by_cases h : bucket' = bucket ∧ key' = key
  · rw [if_pos h, h.1, h.2]
    simp
  · rw [if_neg h]
    have hne : ((bucket', key') == (bucket, key)) = false := by
      rw [beq_eq_false_iff_ne, ne_eq, Prod.mk.injEq]
      exact h
    rw [hne]
    rfl

theorem buckets_filter (t : LocalS3) (bucket key : JString) :
    buckets { t with objects := t.objects.filter (fun entry => entry.1 ≠ (bucket, key)) } =
      t.buckets.set bucket key none := by
  funext bucket' key'
  rw [Buckets.set_apply]
  unfold buckets
  generalize t.objects = objects
  induction objects with
  | nil => simp
  | cons entry objects ih =>
    by_cases hentry : entry.1 = (bucket, key)
    · rw [List.filter_cons_of_neg (by simp [hentry]), ih]
      by_cases h : bucket' = bucket ∧ key' = key
      · rw [if_pos h, if_pos h]
      · have hne : ((bucket', key') == entry.1) = false := by
          rw [beq_eq_false_iff_ne, hentry, ne_eq, Prod.mk.injEq]
          exact h
        rw [if_neg h, if_neg h, List.lookup_cons, hne]
    · rw [List.filter_cons_of_pos (by simp [hentry]), List.lookup_cons, List.lookup_cons, ih]
      by_cases h : bucket' = bucket ∧ key' = key
      · have hne : ((bucket', key') == entry.1) = false := by
          rw [beq_eq_false_iff_ne, h.1, h.2]
          exact fun heq => hentry heq.symm
        rw [if_pos h, if_pos h, hne]
      · rw [if_neg h, if_neg h]

theorem mem_list {t : LocalS3} {bucket keyPrefix : JString} {o : S3ObjectSummary} :
    o ∈ t.list bucket keyPrefix ↔ keyPrefix <+: o.key ∧
      ∃ content, t.buckets bucket o.key = some ⟨content, o.eTag⟩ := by
  unfold list
  rw [List.mem_filterMap]
  refine ⟨fun h => ?_, fun h => ?_⟩
  · obtain ⟨⟨⟨b, k⟩, object⟩, -, hif⟩ := h
    split at hif
    · next hcond =>
      obtain ⟨rfl, hpre, hlookup⟩ := hcond
      obtain rfl := Option.some.inj hif
      exact ⟨List.isPrefixOf_iff_prefix.mp hpre, object.content, hlookup⟩
    · cases hif
  · obtain ⟨hpre, content, hlookup⟩ := h
    refine ⟨((bucket, o.key), ⟨content, o.eTag⟩), mem_of_lookup hlookup, ?_⟩
    rw [if_pos ⟨rfl, List.isPrefixOf_iff_prefix.mpr hpre, hlookup⟩]

/-- The server does only what S3 may do. -/
theorem s3Step_serve (t : LocalS3) (o : MbsOp) :
    s3Step .atomic t.buckets o (t.serve o).1 (t.serve o).2.buckets := by
  cases o with
  | getObject bucket key =>
    cases h : t.buckets bucket key with
    | none =>
      simp only [serve, h]
      exact ⟨fun _ => h, rfl⟩
    | some o =>
      simp only [serve, h]
      exact ⟨⟨o.eTag, h⟩, rfl⟩
  | putObject bucket key content cacheControl =>
    cases h : t.buckets bucket key with
    | some o =>
      simp only [serve, h]
      exact .inl rfl
    | none =>
      simp only [serve, h]
      exact ⟨h, eTagOf content, buckets_cons t bucket key _⟩
  | deleteObject bucket key =>
    have hset : (t.serve (.deleteObject bucket key)).2.buckets = t.buckets.set bucket key none :=
      buckets_filter t bucket key
    cases h : t.deleteReports with
    | true =>
      simp only [serve, h, if_true] at hset ⊢
      exact hset
    | false =>
      simp only [serve, h] at hset ⊢
      exact .inr hset
  | listObjectsV2 bucket keyPrefix => exact ⟨fun o => mem_list, rfl⟩
  | updateCachedSnapshot a c => exact ⟨⟨t.generation, t.snapshot, rfl⟩, rfl⟩
  | generate certConfig =>
    cases h : t.backup <;> simp only [serve, h] <;> rfl
  | _ => rfl

/-- Empty buckets. -/
def fresh (backup : Option SelfSignedBundleBackup) (deleteReports : Bool) : LocalS3 :=
  ⟨[], 0, .empty, backup, deleteReports⟩

end LocalS3

theorem s3Step_any_of_atomic {s s' : Buckets} {o : MbsOp} {r : Except Throwable o.Val}
    (h : s3Step .atomic s o r s') : s3Step .any s o r s' := by
  cases o <;> cases r <;> first
    | exact h
    | exact ⟨trivial, h.2⟩

end Mbs
