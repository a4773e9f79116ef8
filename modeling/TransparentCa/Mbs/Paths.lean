import TransparentCa.Mbs.Config

/- The layout of the backup buckets: `S3BackupPaths`, and the two functions of
   `S3BackupStorage` that read a listed key back. A key counts for an epoch only in the
   spelling the paths use, so a path is recorded as exactly the epoch and element it was
   made from, and nothing else is recorded as them. -/
namespace Mbs
open Java AssocList

inductive SelfSignedBundleBackupElement where
  | cert
  | attestationDoc
  | kmsDataKey
  | privateKey
  deriving DecidableEq, Repr

/-- `SelfSignedBundleBackupElement.values()`. -/
def SelfSignedBundleBackupElement.values : List SelfSignedBundleBackupElement :=
  [.cert, .attestationDoc, .kmsDataKey, .privateKey]

namespace S3BackupPaths

def privatePrefix : JString := u "private/"
def publicPrefix : JString := u "public/"
def crossSignedPrefix : JString := publicPrefix ++ u "cross-signed/"
def kmsEncryptedDataKeyFile : JString := u "root_data_key.kms"
def aesEncryptedPrivateKeyFile : JString := u "root_private_key.aes"
def rootCertFile : JString := u "root_certificate.pem"
def crossSignedCertificateFile : JString := u "cross_signed_certificate.pem"
def attestationDocFile : JString := u "attestation_doc.base64"
def lockPath : JString := privatePrefix ++ u "root_generation.lock"
def certificatesConfigFilePath : JString := u "certificates_config.textproto"

def getFileName : SelfSignedBundleBackupElement → JString
  | .cert => rootCertFile
  | .attestationDoc => attestationDocFile
  | .kmsDataKey => kmsEncryptedDataKeyFile
  | .privateKey => aesEncryptedPrivateKeyFile

def getKmsEncryptedDataKeyPath (epoch : Epoch) : JString :=
  privatePrefix ++ intToString epoch ++ u "/" ++ kmsEncryptedDataKeyFile

def getAesEncryptedPrivateKeyPath (epoch : Epoch) : JString :=
  privatePrefix ++ intToString epoch ++ u "/" ++ aesEncryptedPrivateKeyFile

def getRootCertPath (epoch : Epoch) : JString :=
  publicPrefix ++ intToString epoch ++ u "/" ++ rootCertFile

def getAttestationDocPath (epoch : Epoch) : JString :=
  publicPrefix ++ intToString epoch ++ u "/" ++ attestationDocFile

def getCrossSignedCertificatePath (id : CrossSignedCertificateId) : JString :=
  crossSignedPrefix ++ id.toKeyString ++ u "/" ++ crossSignedCertificateFile

end S3BackupPaths
open S3BackupPaths

/-! ## Reading keys back -/

/-- `CrossSignedCertificateId.fromKeyString`. -/
def CrossSignedCertificateId.fromKeyString (keyString : JString) :
    Except Throwable CrossSignedCertificateId :=
  match split (ch '_') keyString with
  | [first, second] =>
    match parseInt first, parseInt second with
    | some privateKeyEpochId, some publicKeyEpochId =>
      if h : privateKeyEpochId ≠ publicKeyEpochId then
        let id : CrossSignedCertificateId := ⟨privateKeyEpochId, publicKeyEpochId, h⟩
        if id.toKeyString = keyString then .ok id
        else .error
          { cls := .illegalArgumentException,
            message := u "Non-canonical cross-signed key '" ++ keyString ++ u "': expected '" ++
              id.toKeyString ++ u "'" }
      else .error
        { cls := .illegalArgumentException,
          message := u "privateKeyEpochId (" ++ intToString privateKeyEpochId ++
            u ") must not equal publicKeyEpochId (" ++ intToString publicKeyEpochId ++ u ")" }
    | _, _ => .error
        { cls := .illegalArgumentException,
          message := u "Non-integer epoch in cross-signed key '" ++ keyString ++ u "'" }
  | _ => .error
      { cls := .illegalArgumentException,
        message := u "Invalid CrossSignedCertificateId key string: " ++ keyString }

/-- An object as a listing shows it. -/
structure S3ObjectSummary where
  key : JString
  eTag : JString
  deriving DecidableEq

/-- `Map<Integer, EnumMap<SelfSignedBundleBackupElement, String>>`; an epoch is a key of the
map iff it has an element. -/
abbrev ETagsByEpoch := Epoch × SelfSignedBundleBackupElement → Option JString

abbrev ETagsByCrossSignedId := CrossSignedCertificateId → Option JString

/-- Put the object's ETag under what its key parses to; other keys are ignored. -/
def recordETag {K : Type} [DecidableEq K] (parse : JString → Option K) (eTags : K → Option JString)
    (s3Object : S3ObjectSummary) : K → Option JString :=
  match parse s3Object.key with
  | none => eTags
  | some k => Function.update eTags k (some s3Object.eTag)

def publicElements : List (JString × SelfSignedBundleBackupElement) :=
  [(getFileName .cert, .cert), (getFileName .attestationDoc, .attestationDoc)]

def privateElements : List (JString × SelfSignedBundleBackupElement) :=
  [(getFileName .kmsDataKey, .kmsDataKey), (getFileName .privateKey, .privateKey)]

/-- The epoch and element a key stands for. -/
def parseElementKey (allowedElements : List (JString × SelfSignedBundleBackupElement))
    (key : JString) : Option (Epoch × SelfSignedBundleBackupElement) :=
  match split (ch '/') key with
  | [_, segment, file] =>
    match allowedElements.lookup file with
    | none => none
    | some element =>
      match parseInt segment with
      | none => none
      | some epoch => if intToString epoch ≠ segment then none else some (epoch, element)
  | _ => none

def recordSelfSignedBundleBackupElement
    (allowedElements : List (JString × SelfSignedBundleBackupElement)) :
    ETagsByEpoch → S3ObjectSummary → ETagsByEpoch :=
  recordETag (parseElementKey allowedElements)

/-- The group of `CROSS_SIGNED_CERT_KEY_PATTERN`. -/
def crossSignedGroup (key : JString) : Option JString :=
  if crossSignedPrefix.isPrefixOf key then
    match split (ch '/') (key.drop crossSignedPrefix.length) with
    | [group, file] => if group ≠ [] ∧ file = crossSignedCertificateFile then some group else none
    | _ => none
  else none

def parseCrossSignedKey (key : JString) : Option CrossSignedCertificateId :=
  match crossSignedGroup key with
  | none => none
  | some group =>
    match CrossSignedCertificateId.fromKeyString group with
    | .ok id => some id
    | .error _ => none

def recordCrossSignedCertificate :
    ETagsByCrossSignedId → S3ObjectSummary → ETagsByCrossSignedId :=
  recordETag parseCrossSignedKey

/-! ## What a listing records -/

section
variable {K : Type} [DecidableEq K] {parse : JString → Option K}

theorem foldl_recordETag_none {k : K} (objects : List S3ObjectSummary) (m : K → Option JString)
    (h : ∀ o ∈ objects, parse o.key ≠ some k) :
    objects.foldl (recordETag parse) m k = m k := by
  induction objects generalizing m with
  | nil => rfl
  | cons o objects ih =>
    rw [List.foldl_cons, ih _ (fun o' ho' => h o' (List.mem_cons_of_mem o ho'))]
    unfold recordETag
    cases ho : parse o.key with
    | none => rfl
    | some k' =>
      have hne : k ≠ k' := by
        intro heq
        exact h o List.mem_cons_self (by rw [ho, heq])
      simp only [Function.update_of_ne hne]

theorem foldl_recordETag_some {k : K} (objects : List S3ObjectSummary) (m : K → Option JString)
    {o : S3ObjectSummary} (ho : o ∈ objects) (hk : parse o.key = some k) :
    ∃ o' ∈ objects, parse o'.key = some k ∧
      objects.foldl (recordETag parse) m k = some o'.eTag := by
  induction objects generalizing m o with
  | nil => simp at ho
  | cons x objects ih =>
    rw [List.foldl_cons]
    by_cases hlater : ∃ o' ∈ objects, parse o'.key = some k
    · obtain ⟨o', ho', hk'⟩ := hlater
      obtain ⟨z, hz, hzk, hfold⟩ := ih (recordETag parse m x) ho' hk'
      exact ⟨z, List.mem_cons_of_mem x hz, hzk, hfold⟩
    · obtain rfl : o = x := by
        rcases List.mem_cons.mp ho with rfl | hmem
        · rfl
        · exact absurd ⟨o, hmem, hk⟩ hlater
      refine ⟨o, List.mem_cons_self, hk, ?_⟩
      rw [foldl_recordETag_none objects _ (fun o' ho' h => hlater ⟨o', ho', h⟩)]
      simp only [recordETag, hk, Function.update_self]

end

/-! ## Paths and keys -/

def elementPath : SelfSignedBundleBackupElement → Epoch → JString
  | .cert => getRootCertPath
  | .attestationDoc => getAttestationDocPath
  | .kmsDataKey => getKmsEncryptedDataKeyPath
  | .privateKey => getAesEncryptedPrivateKeyPath

/-- The first segment of an element's path, with the slash. -/
def elementPrefix : SelfSignedBundleBackupElement → JString
  | .cert | .attestationDoc => publicPrefix
  | .kmsDataKey | .privateKey => privatePrefix

/-- The elements a listing of the element's bucket may record. -/
def elementsBeside : SelfSignedBundleBackupElement → List (JString × SelfSignedBundleBackupElement)
  | .cert | .attestationDoc => publicElements
  | .kmsDataKey | .privateKey => privateElements

theorem elementPath_eq (element : SelfSignedBundleBackupElement) (epoch : Epoch) :
    elementPath element epoch = elementPrefix element ++ intToString epoch ++ u "/" ++
      getFileName element := by
  cases element <;> rfl

theorem slash_not_mem_intToString (epoch : Epoch) : ch '/' ∉ intToString epoch :=
  not_mem_intToString (by intro d hd; interval_cases d <;> decide) (by decide)

theorem slash_not_mem_getFileName (element : SelfSignedBundleBackupElement) :
    ch '/' ∉ getFileName element := by
  cases element <;> decide

/-- `public` or `private`. -/
def elementDirectory : SelfSignedBundleBackupElement → JString
  | .cert | .attestationDoc => u "public"
  | .kmsDataKey | .privateKey => u "private"

theorem elementPrefix_eq (element : SelfSignedBundleBackupElement) :
    elementPrefix element = elementDirectory element ++ [ch '/'] := by
  cases element <;> decide

theorem elementPath_segments (element : SelfSignedBundleBackupElement) (epoch : Epoch) :
    elementPath element epoch = elementDirectory element ++ ch '/' ::
      (intToString epoch ++ ch '/' :: getFileName element) := by
  rw [elementPath_eq, elementPrefix_eq]
  simp [u]

theorem split_elementPath (element : SelfSignedBundleBackupElement) (epoch : Epoch) :
    split (ch '/') (elementPath element epoch) =
      [elementDirectory element, intToString epoch, getFileName element] := by
  rw [elementPath_segments]
  apply split_three
  · cases element <;> decide
  · exact slash_not_mem_intToString epoch
  · exact slash_not_mem_getFileName element

theorem getFileName_injective : Function.Injective getFileName := by
  intro a b h
  cases a <;> cases b <;> first | rfl | exact absurd h (by decide)

theorem elementPath_injective {a b : SelfSignedBundleBackupElement} {e e' : Epoch}
    (h : elementPath a e = elementPath b e') : a = b ∧ e = e' := by
  have hs := congrArg (split (ch '/')) h
  rw [split_elementPath, split_elementPath] at hs
  simp only [List.cons.injEq, and_true] at hs
  exact ⟨getFileName_injective hs.2.2, intToString_injective hs.2.1⟩

theorem elementPath_ne_lockPath (element : SelfSignedBundleBackupElement) (epoch : Epoch) :
    elementPath element epoch ≠ lockPath := by
  intro h
  have hs := congrArg (split (ch '/')) h
  rw [split_elementPath, show split (ch '/') lockPath = [u "private", u "root_generation.lock"] by
    decide] at hs
  simp at hs

theorem elementPath_ne_certificatesConfigFilePath (element : SelfSignedBundleBackupElement)
    (epoch : Epoch) : elementPath element epoch ≠ certificatesConfigFilePath := by
  intro h
  have hs := congrArg (split (ch '/')) h
  rw [split_elementPath, show split (ch '/') certificatesConfigFilePath =
    [u "certificates_config.textproto"] by decide] at hs
  simp at hs

/-- A path is recorded as what it was made from. -/
theorem parseElementKey_elementPath (element : SelfSignedBundleBackupElement) (epoch : Epoch) :
    parseElementKey (elementsBeside element) (elementPath element epoch) =
      some (epoch, element) := by
  have hlookup : (elementsBeside element).lookup (getFileName element) = some element := by
    cases element <;> decide
  simp only [parseElementKey, split_elementPath, hlookup, parseInt_intToString, ne_eq, not_true,
    if_false]

/-- What a key under the element's prefix is recorded as determines the key. -/
theorem eq_elementPath_of_parse {element : SelfSignedBundleBackupElement} {epoch : Epoch}
    {key : JString} (hpre : elementPrefix element <+: key)
    (h : parseElementKey (elementsBeside element) key = some (epoch, element)) :
    key = elementPath element epoch := by
  unfold parseElementKey at h
  split at h
  · next first segment file hsplit =>
    split at h
    · cases h
    · next element' hfile =>
      split at h
      · cases h
      · next epoch' hparse =>
        split at h
        · cases h
        · next hcanonical =>
          simp only [Option.some.injEq, Prod.mk.injEq] at h
          obtain ⟨rfl, rfl⟩ := h
          have hname : file = getFileName element' := by
            have hmem := mem_of_lookup hfile
            cases element' <;> simp [elementsBeside, publicElements, privateElements] at hmem <;>
              exact hmem
          have hkey := split_eq_three hsplit
          have hfirst : first = elementDirectory element' := by
            obtain ⟨rest, rfl⟩ := hpre
            rw [elementPrefix_eq, List.append_assoc, List.singleton_append,
              split_append_cons (by cases element' <;> decide)] at hsplit
            exact (List.cons.inj hsplit).1.symm
          rw [hkey, elementPath_segments, hfirst, hname, not_not.mp hcanonical]
  · cases h

/-! ## Cross-signed certificates -/

theorem CrossSignedCertificateId.toKeyString_eq (id : CrossSignedCertificateId) :
    id.toKeyString = intToString id.privateKeyEpochId ++ ch '_' ::
      intToString id.publicKeyEpochId := by
  simp [toKeyString, u]

theorem CrossSignedCertificateId.fromKeyString_toKeyString (id : CrossSignedCertificateId) :
    fromKeyString id.toKeyString = .ok id := by
  have hsep : ∀ epoch : Epoch, ch '_' ∉ intToString epoch := fun epoch =>
    not_mem_intToString (by intro d hd; interval_cases d <;> decide) (by decide)
  have hsplit : split (ch '_') id.toKeyString =
      [intToString id.privateKeyEpochId, intToString id.publicKeyEpochId] := by
    rw [toKeyString_eq, split_append_cons (hsep _), split_self (hsep _)]
  unfold fromKeyString
  simp only [hsplit, parseInt_intToString]
  rw [dif_pos id.distinct, if_pos trivial]

theorem CrossSignedCertificateId.toKeyString_of_fromKeyString {keyString : JString}
    {id : CrossSignedCertificateId} (h : fromKeyString keyString = .ok id) :
    id.toKeyString = keyString := by
  unfold fromKeyString at h
  split at h
  · split at h
    · split at h
      · simp only at h
        split at h
        · next heq =>
          rw [← Except.ok.inj h]
          exact heq
        · cases h
      · cases h
    · cases h
  · cases h

theorem CrossSignedCertificateId.slash_not_mem_toKeyString (id : CrossSignedCertificateId) :
    ch '/' ∉ id.toKeyString := by
  rw [toKeyString_eq]
  simp only [List.mem_append, List.mem_cons, not_or]
  exact ⟨slash_not_mem_intToString _, by decide, slash_not_mem_intToString _⟩

theorem getCrossSignedCertificatePath_eq (id : CrossSignedCertificateId) :
    getCrossSignedCertificatePath id = crossSignedPrefix ++
      (id.toKeyString ++ ch '/' :: crossSignedCertificateFile) := by
  simp [getCrossSignedCertificatePath, u]

theorem crossSignedGroup_path (id : CrossSignedCertificateId) :
    crossSignedGroup (getCrossSignedCertificatePath id) = some id.toKeyString := by
  have hpre : crossSignedPrefix.isPrefixOf (getCrossSignedCertificatePath id) = true := by
    rw [getCrossSignedCertificatePath_eq, List.isPrefixOf_iff_prefix]
    exact List.prefix_append _ _
  have hne : id.toKeyString ≠ [] := by
    rw [CrossSignedCertificateId.toKeyString_eq]
    simp
  have hsplit : split (ch '/') ((getCrossSignedCertificatePath id).drop crossSignedPrefix.length) =
      [id.toKeyString, crossSignedCertificateFile] := by
    rw [getCrossSignedCertificatePath_eq, List.drop_left,
      split_append_cons id.slash_not_mem_toKeyString, split_self (by decide)]
  unfold crossSignedGroup
  rw [if_pos hpre]
  simp only [hsplit]
  rw [if_pos ⟨hne, trivial⟩]

theorem parseCrossSignedKey_path (id : CrossSignedCertificateId) :
    parseCrossSignedKey (getCrossSignedCertificatePath id) = some id := by
  simp only [parseCrossSignedKey, crossSignedGroup_path,
    CrossSignedCertificateId.fromKeyString_toKeyString]

theorem eq_path_of_parseCrossSignedKey {key : JString} {id : CrossSignedCertificateId}
    (h : parseCrossSignedKey key = some id) : key = getCrossSignedCertificatePath id := by
  unfold parseCrossSignedKey at h
  split at h
  · cases h
  · next group hgroup =>
    split at h
    · next id' hid =>
      obtain rfl := Option.some.inj h
      have hkey := CrossSignedCertificateId.toKeyString_of_fromKeyString hid
      unfold crossSignedGroup at hgroup
      split at hgroup
      · next hpre =>
        obtain ⟨rest, rfl⟩ := List.isPrefixOf_iff_prefix.mp hpre
        rw [List.drop_left] at hgroup
        split at hgroup
        · next first file hsplit =>
          split at hgroup
          · next hfile =>
            obtain rfl := Option.some.inj hgroup
            rw [getCrossSignedCertificatePath_eq, hkey, split_eq_two hsplit, hfile.2]
          · cases hgroup
        · cases hgroup
      · cases hgroup
    · cases h

end Mbs
