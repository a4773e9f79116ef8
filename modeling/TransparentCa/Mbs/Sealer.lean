import TransparentCa.Lib.Base64
import TransparentCa.Lib.BigEndian
import TransparentCa.Mbs.Domain

/- `AeadSelfSignedBundleBackupSealer`. A private key is encrypted under a fresh data key,
   with the certificate and the attestation document as associated data, so that a backup
   in which either was exchanged does not decrypt. The associated data carries both
   lengths and a version, so it determines both parts and is never empty; the second try
   of `decryptPrivateKey`, with empty associated data, opens legacy backups only.

   KMS, the AEAD, the PEM and PKCS#8 codecs and the signatures are parameters
   (`SealerLibraries`); `SealerLibraries.Lawful` is what is relied on. -/
namespace Mbs
open Java BigEndian

/-! ## Attestation tokens -/

namespace AttestationToken

/-- The longest array `Base64.Encoder` makes has an `int` length. -/
def fromBytes (bytes : Bytes) : Except Throwable AttestationToken :=
  if 4 * ((bytes.val.length + 2) / 3) < 2^31 then .ok ⟨Base64.encode bytes.val⟩
  else .error { cls := .outOfMemoryError, message := u "Encoded size is too large" }

def getBytes (token : AttestationToken) : Except Throwable Bytes :=
  match Base64.decode token.tokenBase64 with
  | none => .error { cls := .illegalArgumentException }
  | some l =>
    if h : l.length < 2^31 then .ok ⟨l, h⟩
    else .error { cls := .outOfMemoryError }

theorem getBytes_of_fromBytes {bytes : Bytes} {token : AttestationToken}
    (h : fromBytes bytes = .ok token) : token.getBytes = .ok bytes := by
  unfold fromBytes at h
  split at h
  · rw [← Except.ok.inj h]
    simp only [getBytes, Base64.decode_encode, dif_pos bytes.property]
  · cases h

end AttestationToken

/-! ## The sealer -/

structure KmsGeneratedKey where
  plaintext : Bytes
  ciphertext : Bytes

/-- What the sealer calls of other libraries. Of the calls that draw random numbers this is
what one run gets. -/
structure SealerLibraries where
  /-- `PemWriter.writeObject` of a certificate's DER form. -/
  writePem : Bytes → Bytes
  generateCertificate : Bytes → Except Throwable X509Certificate
  /-- `KeyFactory.getInstance(algorithm).generatePrivate`. -/
  generatePrivate : JString → Bytes → Except Throwable PrivateKey
  sign : JString → PrivateKey → List UInt8 → Except Throwable Bytes
  verify : JString → PublicKey → List UInt8 → Bytes → Except Throwable Bool
  /-- `kmsClient.generateDataKey` and `kmsClient.decrypt`. -/
  generateDataKey : JString → Except Throwable KmsGeneratedKey
  decryptDataKey : Bytes → JString → Except Throwable Bytes
  /-- `Aead.encrypt` and `Aead.decrypt` under an AES-256-GCM key. -/
  encrypt : Bytes → Bytes → Bytes → Except Throwable Bytes
  decrypt : Bytes → Bytes → Bytes → Except Throwable Bytes

namespace PemCertificateCodec

def toBytes (lib : SealerLibraries) (certificate : X509Certificate) : Bytes :=
  lib.writePem certificate.encoded

def toCertificate (lib : SealerLibraries) (certBytes : Bytes) : Except Throwable X509Certificate :=
  tryCatch (lib.generateCertificate certBytes) (fun e =>
    if e.instanceOf .certificateException then
      .error { cls := .illegalArgumentException, message := u "Failed to parse X.509 certificate" }
    else .error e)

end PemCertificateCodec

structure AeadSelfSignedBundleBackupSealer where
  lib : SealerLibraries
  kmsKeyArn : JString

namespace AeadSelfSignedBundleBackupSealer

def associatedDataVersion : Nat := 1

/-- The bytes put into the buffer. -/
def associatedData (certBytes attestationDocBytes : Bytes) : List UInt8 :=
  be 4 associatedDataVersion ++ be 4 certBytes.val.length ++ certBytes.val ++
    be 4 attestationDocBytes.val.length ++ attestationDocBytes.val

theorem length_associatedData (certBytes attestationDocBytes : Bytes) :
    (associatedData certBytes attestationDocBytes).length =
      12 + certBytes.val.length + attestationDocBytes.val.length := by
  simp only [associatedData, List.length_append, length_be]
  omega

/-- The capacity is computed in an `int`: from `2^31` on it is negative, and from `2^32` on
it is too small for what is put. -/
def buildAssociatedData (certBytes attestationDocBytes : Bytes) : Except Throwable Bytes :=
  if h : (associatedData certBytes attestationDocBytes).length < 2^31 then
    .ok ⟨associatedData certBytes attestationDocBytes, h⟩
  else if (associatedData certBytes attestationDocBytes).length < 2^32 then
    .error { cls := .illegalArgumentException }
  else .error { cls := .bufferOverflowException }

/-- The AEAD of a key is named by the key. -/
def getAead (key : Bytes) : Except Throwable Bytes :=
  if key.val.length ≠ 32 then .error
    { cls := .generalSecurityException,
      message := u "Invalid key size. Expected 32 bytes for AES-256-GCM." }
  else .ok key

variable (sealer : AeadSelfSignedBundleBackupSealer)

/-- `seal`. -/
def sealBundle (bundle : SelfSignedBundle) : Except Throwable SelfSignedBundleBackup := do
  let certBytes := PemCertificateCodec.toBytes sealer.lib bundle.certificate
  let attestationDocBytes ← bundle.attestationToken.getBytes
  let dataKey ← sealer.lib.generateDataKey sealer.kmsKeyArn
  let aeadEncryptedPrivateKey ← tryCatch (do
      let aead ← getAead dataKey.plaintext
      let associatedData ← buildAssociatedData certBytes attestationDocBytes
      sealer.lib.encrypt aead bundle.privateKey.encoded associatedData)
    (fun e =>
      if e.instanceOf .generalSecurityException then
        .error { cls := .illegalStateException, message := u "Failed to encrypt private key" }
      else .error e)
  return ⟨certBytes, dataKey.ciphertext, aeadEncryptedPrivateKey, attestationDocBytes⟩

def decryptPrivateKey (backup : SelfSignedBundleBackup) (dataKey : Bytes) :
    Except Throwable Bytes := do
  let aead ← getAead dataKey
  let expectedAssociatedData ← buildAssociatedData backup.certBytes backup.attestationDocBytes
  tryCatch (sealer.lib.decrypt aead backup.aeadEncryptedPrivateKey expectedAssociatedData) (fun e =>
    if e.instanceOf .generalSecurityException then
      sealer.lib.decrypt aead backup.aeadEncryptedPrivateKey Bytes.empty
    else .error e)

def probe : List UInt8 := "mbs-key-certificate-consistency-check".toList.map (fun c => c.toNat.toUInt8)

def isKeyMatchingCertificate (certificate : X509Certificate) (privateKey : PrivateKey) :
    Except Throwable Bool :=
  tryCatch (do
      let signature ← sealer.lib.sign certificate.sigAlgName privateKey probe
      sealer.lib.verify certificate.sigAlgName certificate.publicKey probe signature)
    (fun e => if e.instanceOf .generalSecurityException then .ok false else .error e)

def decodeKeyMaterial (backup : SelfSignedBundleBackup) (dataKey : Bytes) :
    Except Throwable (X509Certificate × PrivateKey) := do
  let decryptedPrivateKeyBytes ← sealer.decryptPrivateKey backup dataKey
  let certificate ← PemCertificateCodec.toCertificate sealer.lib backup.certBytes
  let privateKey ← sealer.lib.generatePrivate certificate.publicKey.algorithm decryptedPrivateKeyBytes
  return (certificate, privateKey)

/-- `unseal`. -/
def unsealBackup (backup : SelfSignedBundleBackup) : Except Throwable SelfSignedBundle := do
  let dataKey ← sealer.lib.decryptDataKey backup.kmsEncryptedDataKey sealer.kmsKeyArn
  let token ← AttestationToken.fromBytes backup.attestationDocBytes
  let (certificate, privateKey) ← tryCatch (sealer.decodeKeyMaterial backup dataKey) (fun e =>
    if e.caughtBy [.generalSecurityException, .illegalArgumentException] then
      .error { cls := .backupCorruptedException, message := u "Key material could not be decoded" }
    else .error e)
  let matching ← sealer.isKeyMatchingCertificate certificate privateKey
  if !matching then
    throw { cls := .backupCorruptedException, message := u "Private key does not match certificate" }
  return ⟨certificate, privateKey, token⟩

end AeadSelfSignedBundleBackupSealer

/-! ## What is relied on -/

/-- An AES-GCM ciphertext decrypts exactly with the key and the associated data it was made
with, and KMS gives a data key back. -/
structure SealerLibraries.Lawful (lib : SealerLibraries) : Prop where
  decrypt_same : ∀ key plaintext associatedData ciphertext,
    lib.encrypt key plaintext associatedData = .ok ciphertext →
    lib.decrypt key ciphertext associatedData = .ok plaintext
  decrypt_other : ∀ key plaintext associatedData ciphertext,
    lib.encrypt key plaintext associatedData = .ok ciphertext →
    ∀ other, other ≠ associatedData → ∃ e, lib.decrypt key ciphertext other = .error e ∧
      e.instanceOf .generalSecurityException = true
  decryptDataKey : ∀ arn key, lib.generateDataKey arn = .ok key →
    lib.decryptDataKey key.ciphertext arn = .ok key.plaintext

/-- The PEM and PKCS#8 codecs read back what they wrote of this bundle. -/
structure SealerLibraries.RoundTrips (lib : SealerLibraries) (bundle : SelfSignedBundle) : Prop where
  pem : lib.generateCertificate (lib.writePem bundle.certificate.encoded) = .ok bundle.certificate
  pkcs8 : lib.generatePrivate bundle.certificate.publicKey.algorithm bundle.privateKey.encoded =
    .ok bundle.privateKey

namespace AeadSelfSignedBundleBackupSealer

/-! ## The associated data -/

theorem associatedData_injective {certBytes certBytes' docBytes docBytes' : Bytes}
    (h : associatedData certBytes docBytes = associatedData certBytes' docBytes') :
    certBytes = certBytes' ∧ docBytes = docBytes' := by
  have hbound : ∀ bytes : Bytes, bytes.val.length < 256^4 :=
    fun bytes => Nat.lt_trans bytes.property (by decide)
  simp only [associatedData, List.append_assoc] at h
  obtain ⟨-, h⟩ := List.append_inj h (by simp)
  obtain ⟨hlength, h⟩ := List.append_inj h (by simp)
  obtain ⟨hcert, h⟩ := List.append_inj h (be_injective (hbound _) (hbound _) hlength)
  obtain ⟨-, hdoc⟩ := List.append_inj h (by simp)
  exact ⟨Subtype.ext hcert, Subtype.ext hdoc⟩

theorem buildAssociatedData_eq_ok {certBytes docBytes data : Bytes}
    (h : buildAssociatedData certBytes docBytes = .ok data) :
    data.val = associatedData certBytes docBytes := by
  unfold buildAssociatedData at h
  split at h
  · rw [← Except.ok.inj h]
  · split at h <;> cases h

theorem buildAssociatedData_ne_empty {certBytes docBytes data : Bytes}
    (h : buildAssociatedData certBytes docBytes = .ok data) : Bytes.empty ≠ data := by
  intro heq
  have hlength := length_associatedData certBytes docBytes
  rw [← buildAssociatedData_eq_ok h, ← heq] at hlength
  simp only [Bytes.empty, List.length_nil] at hlength
  omega

section
variable {sealer : AeadSelfSignedBundleBackupSealer} {bundle : SelfSignedBundle}
  {backup : SelfSignedBundleBackup}

/-! ## Sealing and unsealing -/

/-- What went into a backup. -/
theorem sealBundle_eq_ok (h : sealer.sealBundle bundle = .ok backup) :
    ∃ docBytes dataKey data ciphertext, bundle.attestationToken.getBytes = .ok docBytes ∧
      sealer.lib.generateDataKey sealer.kmsKeyArn = .ok dataKey ∧
      getAead dataKey.plaintext = .ok dataKey.plaintext ∧
      buildAssociatedData (sealer.lib.writePem bundle.certificate.encoded) docBytes = .ok data ∧
      sealer.lib.encrypt dataKey.plaintext bundle.privateKey.encoded data = .ok ciphertext ∧
      backup = ⟨sealer.lib.writePem bundle.certificate.encoded, dataKey.ciphertext, ciphertext,
        docBytes⟩ := by
  obtain ⟨docBytes, hdoc, h⟩ := except_bind_eq_ok.mp h
  obtain ⟨dataKey, hkey, h⟩ := except_bind_eq_ok.mp h
  obtain ⟨ciphertext, hcipher, h⟩ := except_bind_eq_ok.mp h
  rw [except_tryCatch_eq_ok (fun e => by split <;> exact nofun)] at hcipher
  obtain ⟨aead, haead, hcipher⟩ := except_bind_eq_ok.mp hcipher
  obtain ⟨data, hdata, hcipher⟩ := except_bind_eq_ok.mp hcipher
  obtain rfl : aead = dataKey.plaintext := by
    unfold getAead at haead
    split at haead
    · cases haead
    · exact (Except.ok.inj haead).symm
  exact ⟨docBytes, dataKey, data, ciphertext, hdoc, hkey, haead, hdata, hcipher,
    (Except.ok.inj h).symm⟩

/-- A backup is opened to what was sealed, if the private key belongs to the certificate and
the token is one that `AttestationToken.fromBytes` makes. -/
theorem unsealBackup_sealBundle (hlib : sealer.lib.Lawful) (hround : sealer.lib.RoundTrips bundle)
    (hmatch : sealer.isKeyMatchingCertificate bundle.certificate bundle.privateKey = .ok true)
    {token : Bytes} (htoken : AttestationToken.fromBytes token = .ok bundle.attestationToken)
    (h : sealer.sealBundle bundle = .ok backup) : sealer.unsealBackup backup = .ok bundle := by
  obtain ⟨docBytes, dataKey, data, ciphertext, hdoc, hkey, haead, hdata, hcipher, rfl⟩ :=
    sealBundle_eq_ok h
  obtain rfl : token = docBytes :=
    Except.ok.inj ((AttestationToken.getBytes_of_fromBytes htoken).symm.trans hdoc)
  have hdecrypt := hlib.decrypt_same _ _ _ _ hcipher
  simp only [unsealBackup, decodeKeyMaterial, decryptPrivateKey, PemCertificateCodec.toCertificate,
    hlib.decryptDataKey _ _ hkey, htoken, haead, hdata, hdecrypt, hround.pem, hround.pkcs8, hmatch,
    bind, Except.bind, pure, Except.pure, tryCatch, tryCatchThe, MonadExceptOf.tryCatch,
    Except.tryCatch, Bool.not_true, Bool.false_eq_true, if_false]

/-- The capacity fits, or it is negative, when the document is not longer than what
`AttestationToken.fromBytes` takes. -/
theorem buildAssociatedData_cases (certBytes : Bytes) {docBytes : Bytes}
    (hsize : 4 * ((docBytes.val.length + 2) / 3) < 2^31) :
    (∃ data, buildAssociatedData certBytes docBytes = .ok data) ∨
      buildAssociatedData certBytes docBytes = .error { cls := .illegalArgumentException } := by
  have hcert : certBytes.val.length < 2^31 := certBytes.property
  have hlength := length_associatedData certBytes docBytes
  unfold buildAssociatedData
  split
  · exact .inl ⟨_, rfl⟩
  · split
    · exact .inr rfl
    · omega

/-- With other bytes in the place of the certificate or the document the private key does not
decrypt, and neither does it with empty associated data. -/
theorem decryptPrivateKey_exchanged (hlib : sealer.lib.Lawful) {key plaintext data ciphertext : Bytes}
    (haead : getAead key = .ok key) {certBytes certBytes' docBytes docBytes' : Bytes}
    (hdata : buildAssociatedData certBytes docBytes = .ok data)
    (hcipher : sealer.lib.encrypt key plaintext data = .ok ciphertext)
    (hother : (certBytes', docBytes') ≠ (certBytes, docBytes))
    (hsize : 4 * ((docBytes'.val.length + 2) / 3) < 2^31) (kmsEncryptedDataKey : Bytes) :
    ∃ e, sealer.decryptPrivateKey ⟨certBytes', kmsEncryptedDataKey, ciphertext, docBytes'⟩ key =
        .error e ∧ e.caughtBy [.generalSecurityException, .illegalArgumentException] = true := by
  rcases buildAssociatedData_cases certBytes' hsize with ⟨data', hdata'⟩ | hnegative
  · have hne : data' ≠ data := by
      intro heq
      have hsame : associatedData certBytes' docBytes' = associatedData certBytes docBytes := by
        rw [← buildAssociatedData_eq_ok hdata', heq, buildAssociatedData_eq_ok hdata]
      obtain ⟨rfl, rfl⟩ := associatedData_injective hsame
      exact hother rfl
    obtain ⟨e, hfirst, he⟩ := hlib.decrypt_other _ _ _ _ hcipher data' hne
    obtain ⟨e', hsecond, he'⟩ :=
      hlib.decrypt_other _ _ _ _ hcipher Bytes.empty (buildAssociatedData_ne_empty hdata)
    refine ⟨e', ?_, by simp [Throwable.caughtBy, he']⟩
    simp only [decryptPrivateKey, haead, hdata', hfirst, hsecond, he, bind, Except.bind, tryCatch,
      tryCatchThe, MonadExceptOf.tryCatch, Except.tryCatch, if_true]
  · refine ⟨{ cls := .illegalArgumentException }, ?_, by decide⟩
    simp only [decryptPrivateKey, haead, hnegative, bind, Except.bind]

/-- A backup in which the certificate or the document was exchanged is not opened. -/
theorem unsealBackup_exchanged (hlib : sealer.lib.Lawful) (h : sealer.sealBundle bundle = .ok backup)
    {certBytes docBytes : Bytes}
    (hother : (certBytes, docBytes) ≠ (backup.certBytes, backup.attestationDocBytes))
    (hsize : 4 * ((docBytes.val.length + 2) / 3) < 2^31) :
    sealer.unsealBackup { backup with certBytes := certBytes, attestationDocBytes := docBytes } =
      .error { cls := .backupCorruptedException, message := u "Key material could not be decoded" } := by
  obtain ⟨docBytes', dataKey, data, ciphertext, hdoc, hkey, haead, hdata, hcipher, rfl⟩ :=
    sealBundle_eq_ok h
  obtain ⟨e, hdecrypt, he⟩ := decryptPrivateKey_exchanged hlib haead hdata hcipher hother hsize
    dataKey.ciphertext
  simp only [unsealBackup, decodeKeyMaterial, hlib.decryptDataKey _ _ hkey,
    AttestationToken.fromBytes, hsize, hdecrypt, he, bind, Except.bind, tryCatch, tryCatchThe,
    MonadExceptOf.tryCatch, Except.tryCatch, if_true]

end
end AeadSelfSignedBundleBackupSealer

/-- For a private key that belongs to the certificate and a token that
`AttestationToken.fromBytes` makes, unsealing gives back what was sealed; and with any other
certificate bytes or document bytes, as long as the document can be encoded at all, it fails. -/
theorem seal_roundTrip_and_binding {sealer : AeadSelfSignedBundleBackupSealer}
    (hlib : sealer.lib.Lawful) :
    (∀ bundle token backup, sealer.lib.RoundTrips bundle →
      sealer.isKeyMatchingCertificate bundle.certificate bundle.privateKey = .ok true →
      AttestationToken.fromBytes token = .ok bundle.attestationToken →
      sealer.sealBundle bundle = .ok backup → sealer.unsealBackup backup = .ok bundle) ∧
    (∀ bundle backup certBytes docBytes, sealer.sealBundle bundle = .ok backup →
      (certBytes, docBytes) ≠ (backup.certBytes, backup.attestationDocBytes) →
      4 * ((docBytes.val.length + 2) / 3) < 2^31 →
      sealer.unsealBackup { backup with certBytes := certBytes, attestationDocBytes := docBytes } =
        .error { cls := .backupCorruptedException,
                 message := u "Key material could not be decoded" }) := by
  refine ⟨fun bundle token backup hround hmatch htoken h => ?_,
    fun bundle backup certBytes docBytes h hother hsize => ?_⟩
  · exact AeadSelfSignedBundleBackupSealer.unsealBackup_sealBundle hlib hround hmatch htoken h
  · exact AeadSelfSignedBundleBackupSealer.unsealBackup_exchanged hlib h hother hsize

/-! A sealer whose ciphertexts carry what they were made of. -/

namespace Sample

def certificateOf (der : Bytes) : X509Certificate :=
  ⟨der, ⟨u "RSA", der⟩, u "SHA256withRSA", .ok none⟩

def dataKey : KmsGeneratedKey := ⟨⟨List.replicate 32 9, by decide⟩, ⟨[7], by decide⟩⟩

def securityException : Throwable := { cls := .generalSecurityException }

def sealerLib : SealerLibraries where
  writePem := id
  generateCertificate bytes := .ok (certificateOf bytes)
  generatePrivate algorithm bytes := .ok ⟨algorithm, bytes⟩
  sign _ privateKey _ := .ok privateKey.encoded
  verify _ publicKey _ signature := .ok (publicKey.encoded = signature)
  generateDataKey _ := .ok dataKey
  decryptDataKey ciphertext _ :=
    if ciphertext = dataKey.ciphertext then .ok dataKey.plaintext else .error { cls := .kmsException }
  encrypt _ plaintext associatedData :=
    if h : (be 4 plaintext.val.length ++ (plaintext.val ++ associatedData.val)).length < 2^31 then
      .ok ⟨be 4 plaintext.val.length ++ (plaintext.val ++ associatedData.val), h⟩
    else .error securityException
  decrypt _ ciphertext associatedData :=
    let length := ofBe (ciphertext.val.take 4)
    if ((ciphertext.val.drop 4).drop length) = associatedData.val then
      .ok ⟨(ciphertext.val.drop 4).take length, by
        have hlength := ciphertext.property
        rw [List.length_take, List.length_drop]
        omega⟩
    else .error securityException

theorem sealerLib_lawful : sealerLib.Lawful := by
  have hopened : ∀ key plaintext associatedData ciphertext other,
      sealerLib.encrypt key plaintext associatedData = .ok ciphertext →
      sealerLib.decrypt key ciphertext other =
        if associatedData = other then .ok plaintext else .error securityException := by
    intro key plaintext associatedData ciphertext other h
    simp only [sealerLib] at h
    split at h
    · obtain rfl := Except.ok.inj h
      have hlength : ofBe ((be 4 plaintext.val.length ++
          (plaintext.val ++ associatedData.val)).take 4) = plaintext.val.length := by
        rw [List.take_append_of_le_length (by simp), List.take_of_length_le (by simp)]
        exact ofBe_be (Nat.lt_trans plaintext.property (by decide))
      have hdrop : (be 4 plaintext.val.length ++ (plaintext.val ++ associatedData.val)).drop 4 =
          plaintext.val ++ associatedData.val := List.drop_left' (length_be 4 _)
      simp only [sealerLib, hlength, hdrop, List.drop_left, List.take_left, ← Subtype.ext_iff]
    · cases h
  refine ⟨fun key plaintext data ciphertext h => ?_, fun key plaintext data ciphertext h other hne => ?_,
    fun arn key h => ?_⟩
  · rw [hopened key plaintext data ciphertext data h, if_pos rfl]
  · refine ⟨securityException, ?_, by decide⟩
    rw [hopened key plaintext data ciphertext other h, if_neg (fun heq => hne heq.symm)]
  · obtain rfl := Except.ok.inj h
    rfl

def sealer : AeadSelfSignedBundleBackupSealer := ⟨sealerLib, u "arn:aws:kms:key"⟩

/-- A bundle with this key and this token. -/
def bundleWith (key : UInt8) (token : JString) : SelfSignedBundle :=
  ⟨certificateOf (.one 1), ⟨u "RSA", .one key⟩, ⟨token⟩⟩

/-- Its backup, sealed with this certificate and this document. -/
def sealedAs (key : UInt8) (docBytes : Bytes) : SelfSignedBundleBackup :=
  ⟨⟨[1], by decide⟩, dataKey.ciphertext, ⟨be 4 1 ++ ([key] ++
    AeadSelfSignedBundleBackupSealer.associatedData ⟨[1], by decide⟩ ⟨[65], by decide⟩), by
      simp [AeadSelfSignedBundleBackupSealer.length_associatedData]⟩, docBytes⟩

theorem sealBundle_bundleWith (key : UInt8) (token : JString)
    (h : Base64.decode token = some [65]) :
    sealer.sealBundle (bundleWith key token) = .ok (sealedAs key ⟨[65], by decide⟩) := by
  have hbytes : (bundleWith key token).attestationToken.getBytes = .ok ⟨[65], by decide⟩ := by
    simp only [AttestationToken.getBytes, bundleWith, h]
    rfl
  simp only [AeadSelfSignedBundleBackupSealer.sealBundle, hbytes]
  rfl

/-- So long that its Base64 form has no array. -/
def hugeDocument : Bytes := ⟨List.replicate 1610612734 0, by rw [List.length_replicate]; decide⟩

end Sample

theorem sample_seal_roundTrip :
    Sample.sealer.sealBundle (Sample.bundleWith 1 (u "QQ==")) =
        .ok (Sample.sealedAs 1 ⟨[65], by decide⟩) ∧
      Sample.sealer.unsealBackup (Sample.sealedAs 1 ⟨[65], by decide⟩) =
        .ok (Sample.bundleWith 1 (u "QQ==")) ∧
      Sample.sealer.unsealBackup (Sample.sealedAs 1 ⟨[66], by decide⟩) =
        .error { cls := .backupCorruptedException,
                 message := u "Key material could not be decoded" } := by
  have hseal := Sample.sealBundle_bundleWith 1 (u "QQ==") (by decide)
  obtain ⟨hround, hbinding⟩ := @seal_roundTrip_and_binding Sample.sealer Sample.sealerLib_lawful
  refine ⟨hseal, ?_, ?_⟩
  · exact hround _ ⟨[65], by decide⟩ _ ⟨rfl, rfl⟩ rfl (by decide) hseal
  · exact hbinding _ _ ⟨[1], by decide⟩ ⟨[66], by decide⟩ hseal (by decide) (by decide)

/-- What is sealed does not come back if the private key is not the certificate's, or if the
token is not written as the encoder writes it; and a document that cannot be encoded ends
with an error that is no `BackupCorruptedException`. -/
theorem seal_not_roundTrip :
    Sample.sealer.lib.Lawful ∧
      (Sample.sealer.sealBundle (Sample.bundleWith 2 (u "QQ==")) =
          .ok (Sample.sealedAs 2 ⟨[65], by decide⟩) ∧
        Sample.sealer.unsealBackup (Sample.sealedAs 2 ⟨[65], by decide⟩) =
          .error { cls := .backupCorruptedException,
                   message := u "Private key does not match certificate" }) ∧
      (Sample.sealer.sealBundle (Sample.bundleWith 1 (u "QQ")) =
          .ok (Sample.sealedAs 1 ⟨[65], by decide⟩) ∧
        Sample.sealer.unsealBackup (Sample.sealedAs 1 ⟨[65], by decide⟩) =
          .ok (Sample.bundleWith 1 (u "QQ==")) ∧
        Sample.bundleWith 1 (u "QQ==") ≠ Sample.bundleWith 1 (u "QQ")) ∧
      Sample.sealer.unsealBackup (Sample.sealedAs 1 Sample.hugeDocument) =
        .error { cls := .outOfMemoryError, message := u "Encoded size is too large" } := by
  refine ⟨Sample.sealerLib_lawful, ⟨Sample.sealBundle_bundleWith 2 (u "QQ==") (by decide), by decide⟩,
    ⟨Sample.sealBundle_bundleWith 1 (u "QQ") (by decide), by decide, by decide⟩, ?_⟩
  have hsize : ¬ 4 * ((Sample.hugeDocument.val.length + 2) / 3) < 2^31 := by
    simp only [Sample.hugeDocument, List.length_replicate]
    decide
  have htoken : AttestationToken.fromBytes Sample.hugeDocument =
      .error { cls := .outOfMemoryError, message := u "Encoded size is too large" } := if_neg hsize
  simp only [AeadSelfSignedBundleBackupSealer.unsealBackup, Sample.sealedAs, htoken]
  rfl

end Mbs
