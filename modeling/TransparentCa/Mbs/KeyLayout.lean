import TransparentCa.Mbs.Buckets

/- The keys of the backup buckets name what is stored under them. `getSnapshot` reads the keys
   of its two listings back; what it makes of a key is exactly the item whose path the key is,
   so that a listing records every item under one key, and no key as two items. -/
namespace Mbs
open Java Effects S3BackupPaths AssocList

/-- What the buckets store. -/
inductive StoredItem where
  | selfSigned (epoch : Epoch) (element : SelfSignedBundleBackupElement)
  | crossSigned (id : CrossSignedCertificateId)
  deriving DecidableEq

def StoredItem.path : StoredItem → JString
  | .selfSigned epoch element => elementPath element epoch
  | .crossSigned id => getCrossSignedCertificatePath id

/-- The two listings of `getSnapshot`. -/
inductive Directory where
  | publicKeys
  | privateKeys
  deriving DecidableEq

namespace Directory

def keyPrefix : Directory → JString
  | publicKeys => publicPrefix
  | privateKeys => privatePrefix

/-- The items that a listed key is recorded as. -/
def recordedAs : Directory → JString → List StoredItem
  | publicKeys, key =>
    ((parseElementKey publicElements key).map (fun k => .selfSigned k.1 k.2)).toList ++
      ((parseCrossSignedKey key).map .crossSigned).toList
  | privateKeys, key =>
    ((parseElementKey privateElements key).map (fun k => .selfSigned k.1 k.2)).toList

end Directory

/-- The listing an item shows up in. -/
def StoredItem.directory : StoredItem → Directory
  | .selfSigned _ .cert => .publicKeys
  | .selfSigned _ .attestationDoc => .publicKeys
  | .selfSigned _ .kmsDataKey => .privateKeys
  | .selfSigned _ .privateKey => .privateKeys
  | .crossSigned _ => .publicKeys

/-! ## Keys of the two kinds -/

/-- What a key is recorded as is one of the listed elements. -/
theorem parseElementKey_allowed {allowed : List (JString × SelfSignedBundleBackupElement)}
    {key : JString} {epoch : Epoch} {element : SelfSignedBundleBackupElement}
    (h : parseElementKey allowed key = some (epoch, element)) :
    ∃ file, (file, element) ∈ allowed := by
  unfold parseElementKey at h
  split at h
  · split at h
    · cases h
    · next found hfound =>
      split at h
      · cases h
      · split at h
        · cases h
        · obtain ⟨-, rfl⟩ := Prod.mk.inj (Option.some.inj h)
          exact ⟨_, mem_of_lookup hfound⟩
  · cases h

theorem crossSignedPath_segments (id : CrossSignedCertificateId) :
    split (ch '/') (getCrossSignedCertificatePath id) =
      [u "public", u "cross-signed", id.toKeyString, crossSignedCertificateFile] := by
  have hpath : getCrossSignedCertificatePath id = u "public" ++ ch '/' ::
      (u "cross-signed" ++ ch '/' :: (id.toKeyString ++ ch '/' :: crossSignedCertificateFile)) := by
    rw [getCrossSignedCertificatePath_eq]
    simp [crossSignedPrefix, publicPrefix, u]
  rw [hpath, split_append_cons (by decide), split_append_cons (by decide),
    split_append_cons id.slash_not_mem_toKeyString, split_self (by decide)]

/-- A cross-signed path has one segment more than an element's. -/
theorem crossSignedPath_ne_elementPath (id : CrossSignedCertificateId)
    (element : SelfSignedBundleBackupElement) (epoch : Epoch) :
    getCrossSignedCertificatePath id ≠ elementPath element epoch := by
  intro h
  have hsegments := congrArg (split (ch '/')) h
  rw [crossSignedPath_segments, split_elementPath] at hsegments
  simpa using congrArg List.length hsegments

theorem crossSignedPath_injective {id id' : CrossSignedCertificateId}
    (h : getCrossSignedCertificatePath id = getCrossSignedCertificatePath id') : id = id' := by
  have hparse := parseCrossSignedKey_path id
  rw [h, parseCrossSignedKey_path] at hparse
  exact (Option.some.inj hparse).symm

theorem StoredItem.path_injective : Function.Injective StoredItem.path := by
  intro item item' h
  cases item with
  | selfSigned epoch element =>
    cases item' with
    | selfSigned epoch' element' =>
      obtain ⟨rfl, rfl⟩ := elementPath_injective h
      rfl
    | crossSigned id => exact absurd h.symm (crossSignedPath_ne_elementPath id element epoch)
  | crossSigned id =>
    cases item' with
    | selfSigned epoch element => exact absurd h (crossSignedPath_ne_elementPath id element epoch)
    | crossSigned id' => rw [crossSignedPath_injective h]

theorem StoredItem.keyPrefix_path (item : StoredItem) :
    item.directory.keyPrefix <+: item.path := by
  cases item with
  | selfSigned epoch element =>
    have hkeys : (StoredItem.selfSigned epoch element).directory.keyPrefix = elementPrefix element := by
      cases element <;> rfl
    rw [hkeys]
    show elementPrefix element <+: elementPath element epoch
    rw [elementPath_eq, List.append_assoc, List.append_assoc]
    exact List.prefix_append _ _
  | crossSigned id =>
    show publicPrefix <+: getCrossSignedCertificatePath id
    rw [getCrossSignedCertificatePath_eq, crossSignedPrefix, List.append_assoc]
    exact List.prefix_append _ _

/-! ## Recorded keys -/

/-- A key that is recorded is the path of what it is recorded as. -/
theorem Directory.eq_path_of_recorded {dir : Directory} {key : JString} {item : StoredItem}
    (hpre : dir.keyPrefix <+: key) (h : item ∈ dir.recordedAs key) :
    key = item.path ∧ item.directory = dir := by
  have helement : ∀ {allowed : List (JString × SelfSignedBundleBackupElement)},
      (∀ file element, (file, element) ∈ allowed → elementsBeside element = allowed ∧
        elementPrefix element = dir.keyPrefix ∧
        ∀ epoch, (StoredItem.selfSigned epoch element).directory = dir) →
      item ∈ ((parseElementKey allowed key).map
        (fun k => StoredItem.selfSigned k.1 k.2)).toList →
      key = item.path ∧ item.directory = dir := by
    intro allowed hallowed hmem
    obtain ⟨⟨epoch, element⟩, hparse, rfl⟩ := Option.map_eq_some_iff.mp (Option.mem_toList.mp hmem)
    obtain ⟨file, hfile⟩ := parseElementKey_allowed hparse
    obtain ⟨hbeside, hkeys, hdir⟩ := hallowed file element hfile
    rw [← hbeside] at hparse
    exact ⟨eq_elementPath_of_parse (hkeys ▸ hpre) hparse, hdir epoch⟩
  cases dir with
  | publicKeys =>
    rcases List.mem_append.mp h with h | h
    · refine helement (fun file element hfile => ?_) h
      simp only [publicElements, List.mem_cons, List.not_mem_nil, or_false, Prod.mk.injEq] at hfile
      rcases hfile with ⟨-, rfl⟩ | ⟨-, rfl⟩
      · exact ⟨rfl, rfl, fun _ => rfl⟩
      · exact ⟨rfl, rfl, fun _ => rfl⟩
    · obtain ⟨id, hparse, rfl⟩ := Option.map_eq_some_iff.mp (Option.mem_toList.mp h)
      exact ⟨eq_path_of_parseCrossSignedKey hparse, rfl⟩
  | privateKeys =>
    refine helement (fun file element hfile => ?_) h
    simp only [privateElements, List.mem_cons, List.not_mem_nil, or_false, Prod.mk.injEq] at hfile
    rcases hfile with ⟨-, rfl⟩ | ⟨-, rfl⟩
    · exact ⟨rfl, rfl, fun _ => rfl⟩
    · exact ⟨rfl, rfl, fun _ => rfl⟩

theorem mem_selfSigned_of_parse {allowed : List (JString × SelfSignedBundleBackupElement)}
    {key : JString} {epoch : Epoch} {element : SelfSignedBundleBackupElement}
    (h : parseElementKey allowed key = some (epoch, element)) :
    StoredItem.selfSigned epoch element ∈
      ((parseElementKey allowed key).map (fun k => StoredItem.selfSigned k.1 k.2)).toList := by
  rw [h]
  exact List.mem_singleton_self _

/-- A path is recorded. -/
theorem StoredItem.recorded (item : StoredItem) : item ∈ item.directory.recordedAs item.path := by
  cases item with
  | selfSigned epoch element =>
    have hparse := parseElementKey_elementPath element epoch
    cases element with
    | cert => exact List.mem_append_left _ (mem_selfSigned_of_parse hparse)
    | attestationDoc => exact List.mem_append_left _ (mem_selfSigned_of_parse hparse)
    | kmsDataKey => exact mem_selfSigned_of_parse hparse
    | privateKey => exact mem_selfSigned_of_parse hparse
  | crossSigned id =>
    refine List.mem_append_right _ ?_
    show StoredItem.crossSigned id ∈
      ((parseCrossSignedKey (getCrossSignedCertificatePath id)).map StoredItem.crossSigned).toList
    rw [parseCrossSignedKey_path]
    exact List.mem_singleton_self _

/-- A key is recorded as at most one item. -/
theorem Directory.recordedAs_eq {dir : Directory} {key : JString} {item : StoredItem}
    (hpre : dir.keyPrefix <+: key) (h : item ∈ dir.recordedAs key) :
    dir.recordedAs key = [item] := by
  have hsame : ∀ item' ∈ dir.recordedAs key, item' = item := by
    intro item' h'
    apply StoredItem.path_injective
    rw [← (eq_path_of_recorded hpre h').1, ← (eq_path_of_recorded hpre h).1]
  have hone : (dir.recordedAs key).length ≤ 1 := by
    cases dir with
    | publicKeys =>
      -- A key of both kinds would be recorded as two items.
      cases helement : parseElementKey publicElements key with
      | none =>
        simp only [recordedAs, helement, Option.map_none, Option.toList_none, List.nil_append]
        cases parseCrossSignedKey key <;> simp
      | some k =>
        cases hcross : parseCrossSignedKey key with
        | none => simp [recordedAs, helement, hcross]
        | some id =>
          have h₁ := hsame (.selfSigned k.1 k.2) (by simp [recordedAs, helement])
          have h₂ := hsame (.crossSigned id) (by simp [recordedAs, hcross])
          rw [← h₂] at h₁
          cases h₁
    | privateKeys =>
      simp only [recordedAs]
      cases parseElementKey privateElements key <;> simp
  obtain ⟨item', heq⟩ := List.length_eq_one_iff.mp
    (le_antisymm hone (List.length_pos_of_mem h))
  rw [heq] at h
  rw [heq, List.mem_singleton.mp h]

/-! ## What the listings record -/

section
variable {K : Type} [DecidableEq K] {parse : JString → Option K} {path : K → JString}
  {objects : List S3ObjectSummary}

/-- Over a listing of distinct keys, the map holds the ETag of the object under the item's
path. -/
theorem foldl_recordETag_iff (hnodup : (objects.map S3ObjectSummary.key).Nodup)
    {m : K → Option JString} {k : K} (hm : m k = none) (hpath : parse (path k) = some k)
    (hkey : ∀ o ∈ objects, parse o.key = some k → o.key = path k) (eTag : JString) :
    objects.foldl (recordETag parse) m k = some eTag ↔ ⟨path k, eTag⟩ ∈ objects := by
  by_cases hlisted : ∃ o ∈ objects, parse o.key = some k
  · obtain ⟨o, ho, hparse⟩ := hlisted
    obtain ⟨o', ho', hparse', hfold⟩ := foldl_recordETag_some objects m ho hparse
    rw [hfold]
    have hpath' := hkey o' ho' hparse'
    refine ⟨fun heq => ?_, fun hmem => ?_⟩
    · rw [← hpath', ← Option.some.inj heq]
      exact ho'
    · have hsame : o' = ⟨path k, eTag⟩ := List.inj_on_of_nodup_map hnodup ho' hmem hpath'
      rw [hsame]
  · rw [foldl_recordETag_none objects m (fun o ho hparse => hlisted ⟨o, ho, hparse⟩), hm]
    exact ⟨fun heq => (by cases heq), fun hmem => absurd ⟨⟨path k, eTag⟩, hmem, hpath⟩ hlisted⟩

end

/-- The objects of one listing: distinct keys under its prefix. -/
structure Directory.Lists (dir : Directory) (objects : List S3ObjectSummary) : Prop where
  nodup : (objects.map S3ObjectSummary.key).Nodup
  under : ∀ o ∈ objects, dir.keyPrefix <+: o.key

section
variable {publicObjects privateObjects : List S3ObjectSummary}

/-- The listing that shows the item. -/
def StoredItem.listing (publicObjects privateObjects : List S3ObjectSummary) (item : StoredItem) :
    List S3ObjectSummary :=
  match item.directory with
  | .publicKeys => publicObjects
  | .privateKeys => privateObjects

theorem record_lists (element : SelfSignedBundleBackupElement) {objects : List S3ObjectSummary}
    {dir : Directory} (hdir : dir.keyPrefix = elementPrefix element) (hlists : dir.Lists objects)
    (m : ETagsByEpoch) {epoch : Epoch} (hm : m (epoch, element) = none) (eTag : JString) :
    objects.foldl (recordSelfSignedBundleBackupElement (elementsBeside element)) m
      (epoch, element) = some eTag ↔ ⟨elementPath element epoch, eTag⟩ ∈ objects := by
  let path : Epoch × SelfSignedBundleBackupElement → JString := fun k => elementPath k.2 k.1
  have hpath : parseElementKey (elementsBeside element) (path (epoch, element)) =
      some (epoch, element) := parseElementKey_elementPath element epoch
  exact foldl_recordETag_iff hlists.nodup hm hpath
    (fun o ho h => eq_elementPath_of_parse (hdir ▸ hlists.under o ho) h) eTag

/-- What `getSnapshot` gathers from its listings: an item is there, with its ETag, iff an
object is listed under its path. -/
theorem recorded_selfSigned_iff (hpublic : Directory.publicKeys.Lists publicObjects)
    (hprivate : Directory.privateKeys.Lists privateObjects) (epoch : Epoch)
    (element : SelfSignedBundleBackupElement) (eTag : JString) :
    S3BackupStorage.recordPrivate (S3BackupStorage.recordPublic publicObjects).1 privateObjects
        (epoch, element) = some eTag ↔
      ⟨elementPath element epoch, eTag⟩ ∈
        (StoredItem.selfSigned epoch element).listing publicObjects privateObjects := by
  have hother : ∀ element, element ∉ privateElements.map Prod.snd →
      S3BackupStorage.recordPrivate (S3BackupStorage.recordPublic publicObjects).1 privateObjects
        (epoch, element) = (S3BackupStorage.recordPublic publicObjects).1 (epoch, element) :=
    fun element h => record_other element .kmsDataKey h _ epoch
  cases element with
  | cert =>
    rw [hother .cert (by decide)]
    exact record_lists .cert rfl hpublic (fun _ => none) rfl eTag
  | attestationDoc =>
    rw [hother .attestationDoc (by decide)]
    exact record_lists .attestationDoc rfl hpublic (fun _ => none) rfl eTag
  | kmsDataKey =>
    exact record_lists .kmsDataKey rfl hprivate _
      (record_other .kmsDataKey .cert (by decide) (fun _ => none) epoch) eTag
  | privateKey =>
    exact record_lists .privateKey rfl hprivate _
      (record_other .privateKey .cert (by decide) (fun _ => none) epoch) eTag

theorem recorded_crossSigned_iff (hpublic : Directory.publicKeys.Lists publicObjects)
    (id : CrossSignedCertificateId) (eTag : JString) :
    (S3BackupStorage.recordPublic publicObjects).2 id = some eTag ↔
      ⟨getCrossSignedCertificatePath id, eTag⟩ ∈ publicObjects :=
  foldl_recordETag_iff hpublic.nodup rfl (parseCrossSignedKey_path id)
    (fun _ _ h => eq_path_of_parseCrossSignedKey h) eTag

end

/-! ## What the writer writes -/

/-- Every object is put under the path of an item, with the content for it. -/
def PutsAt (items : List (StoredItem × Bytes)) : MbsOp → Prop
  | .putObject _ key content _ => ∃ entry ∈ items, key = entry.1.path ∧ content = entry.2
  | _ => True

theorem uses_putS3Object (writer : S3BackupWriter) {items : List (StoredItem × Bytes)}
    {item : StoredItem} {content : Bytes} (hitem : (item, content) ∈ items) (bucket : JString) :
    (writer.putS3Object bucket item.path content).Uses (PutsAt items) :=
  Prog.Uses.handle (Prog.Uses.invoke ⟨(item, content), hitem, rfl, rfl⟩) (fun _ => trivial)

/-- The artifacts of an epoch. -/
def epochItems (epoch : Epoch) (backup : SelfSignedBundleBackup) : List (StoredItem × Bytes) :=
  SelfSignedBundleBackupElement.values.map
    (fun element => (.selfSigned epoch element, backup.part element))

theorem puts_writeSelfSignedBundleBackup (writer : S3BackupWriter) (epoch : Epoch)
    (backup : SelfSignedBundleBackup) :
    (writer.writeSelfSignedBundleBackup epoch backup).Uses (PutsAt (epochItems epoch backup)) := by
  have hitem : ∀ element, (StoredItem.selfSigned epoch element, backup.part element) ∈
      epochItems epoch backup := by
    intro element
    refine List.mem_map.mpr ⟨element, ?_, rfl⟩
    cases element <;> decide
  refine Prog.Uses.bind (uses_putS3Object writer (hitem .privateKey) _) (fun _ => ?_)
  refine Prog.Uses.bind (uses_putS3Object writer (hitem .kmsDataKey) _) (fun _ => ?_)
  refine Prog.Uses.bind (uses_putS3Object writer (hitem .attestationDoc) _) (fun _ => ?_)
  exact uses_putS3Object writer (hitem .cert) _

/-! ## The layout -/

/-- Items and recognised keys correspond one to one: every path the writer writes is recorded
as exactly the item it was made from, every recorded key is the path of its item, and the maps
that `getSnapshot` builds from two listings hold exactly the listed paths. -/
theorem key_layout :
    (∀ writer epoch backup tr out bucket key content cacheControl ans,
      (S3BackupWriter.writeSelfSignedBundleBackup writer epoch backup).Runs tr out →
      ⟨.putObject bucket key content cacheControl, ans⟩ ∈ tr →
      ∃ element, key = elementPath element epoch ∧ content = backup.part element) ∧
    (∀ item : StoredItem, item.directory.keyPrefix <+: item.path ∧
      item.directory.recordedAs item.path = [item]) ∧
    (∀ id : CrossSignedCertificateId,
      CrossSignedCertificateId.fromKeyString id.toKeyString = .ok id) ∧
    (∀ (dir : Directory) (key : JString), dir.keyPrefix <+: key →
      (∀ item ∈ dir.recordedAs key, key = item.path ∧ dir = item.directory) ∧
      (dir.recordedAs key).length ≤ 1) ∧
    (∀ publicObjects privateObjects, Directory.publicKeys.Lists publicObjects →
      Directory.privateKeys.Lists privateObjects →
      (∀ epoch element eTag,
        S3BackupStorage.recordPrivate (S3BackupStorage.recordPublic publicObjects).1 privateObjects
            (epoch, element) = some eTag ↔
          ⟨elementPath element epoch, eTag⟩ ∈
            (StoredItem.selfSigned epoch element).listing publicObjects privateObjects) ∧
      ∀ id eTag, (S3BackupStorage.recordPublic publicObjects).2 id = some eTag ↔
        ⟨getCrossSignedCertificatePath id, eTag⟩ ∈ publicObjects) := by
  refine ⟨fun writer epoch backup tr out bucket key content cacheControl ans hrun hput => ?_,
    fun item => ⟨item.keyPrefix_path, Directory.recordedAs_eq item.keyPrefix_path item.recorded⟩,
    CrossSignedCertificateId.fromKeyString_toKeyString, fun dir key hpre => ⟨fun item h => ?_, ?_⟩,
    fun publicObjects privateObjects hpublic hprivate =>
      ⟨recorded_selfSigned_iff hpublic hprivate, recorded_crossSigned_iff hpublic⟩⟩
  · obtain ⟨entry, hentry, rfl, rfl⟩ :=
      (puts_writeSelfSignedBundleBackup writer epoch backup).of_runs hrun _ hput
    obtain ⟨element, -, rfl⟩ := List.mem_map.mp hentry
    exact ⟨element, rfl, rfl⟩
  · obtain ⟨hkey, hdir⟩ := Directory.eq_path_of_recorded hpre h
    exact ⟨hkey, hdir.symm⟩
  · cases hrecorded : dir.recordedAs key with
    | nil => simp
    | cons item rest =>
      have hmem : item ∈ dir.recordedAs key := by
        rw [hrecorded]
        exact List.mem_cons_self
      rw [← hrecorded, Directory.recordedAs_eq hpre hmem]
      simp

end Mbs
