import TransparentCa.Mbs.AwsKms
import TransparentCa.Mbs.Config

/- `SelfSignedBundleBackupGenerator` with the certificate factory, the attestation collector
   and the sealer that the modules wire into it. `MbsConfiguration` is what all runs share,
   `MbsRun` what one run gets of other libraries, random numbers included; `Compatible` says
   what is relied on between the run that sealed a backup and the one that opens it. -/
namespace Mbs
open Java

/-! ## MbsCertificateFactory -/

structure X500Name where
  rdns : Nat
  encoded : Bytes
  deriving DecidableEq

inductive CertificateExtension where
  | basicConstraints (ca : Bool)
  | keyUsage (mask : Int32)
  | subjectKeyIdentifier (value : Bytes)
  | subjectAlternativeName (names : Bytes)
  deriving DecidableEq

/-- The builder as it is handed to the content signer: the subject is the issuer, and each
extension goes with whether it is critical. -/
structure SelfSignedContents where
  subject : X500Name
  serial : Nat
  notBefore : Int
  notAfter : Int
  publicKey : PublicKey
  extensions : List (CertificateExtension × Bool)
  deriving DecidableEq

structure CertSignatureSpec where
  keyAlgorithm : JString
  keySize : Int32
  signatureAlgorithm : JString

/-- What one run of the factory gets. -/
structure FactoryLibraries where
  generateKeyPair : JString → Int32 → Except Throwable KeyPair
  /-- `new BigInteger(159, secureRandom)`. -/
  serial : Nat
  serial_lt : serial < 2^159
  createSubjectKeyIdentifier : PublicKey → Except Throwable Bytes
  /-- The content signer for the algorithm and the key, `build` and the converter. -/
  build : SelfSignedContents → JString → PrivateKey → Except Throwable X509Certificate

structure X509CertificateAndPrivateKey where
  certificate : X509Certificate
  privateKey : PrivateKey

/-- The arguments of `createSelfSignedCertificatesFactory`. -/
structure MbsCertificateFactory where
  certSignatureSpec : CertSignatureSpec
  subjectName : X500Name
  subjectAlternativeNames : Option Bytes
  keyUsageMask : Int32

namespace MbsCertificateFactory

/-- `KeyUsage.keyCertSign`. -/
def keyCertSign : Int32 := 4

variable (factory : MbsCertificateFactory) (lib : FactoryLibraries)

def isCa : Bool := factory.keyUsageMask &&& keyCertSign ≠ 0

/-- RFC 5280 requires the names to be critical if the subject is empty. -/
def extensions (subjectKeyIdentifier : Bytes) : List (CertificateExtension × Bool) :=
  [(.basicConstraints factory.isCa, true), (.keyUsage factory.keyUsageMask, true),
    (.subjectKeyIdentifier subjectKeyIdentifier, false)] ++
  (match factory.subjectAlternativeNames with
    | some names => [(.subjectAlternativeName names, factory.subjectName.rdns = 0)]
    | none => [])

def generateCertificate (keyPair : KeyPair) (validityPeriod : ValidityPeriod) :
    Except Throwable X509Certificate := do
  let notBefore ← Date.from validityPeriod.notBefore
  let notAfter ← Date.from validityPeriod.notAfter
  let subjectKeyIdentifier ← tryCatch (lib.createSubjectKeyIdentifier keyPair.publicKey) (fun e =>
    if e.instanceOf .noSuchAlgorithmException then .error
      { cls := .certificateException, message := u "Failed to add key identifiers" }
    else .error e)
  lib.build
    { subject := factory.subjectName
      serial := lib.serial
      notBefore := notBefore
      notAfter := notAfter
      publicKey := keyPair.publicKey
      extensions := factory.extensions subjectKeyIdentifier }
    factory.certSignatureSpec.signatureAlgorithm keyPair.privateKey

/-- `MbsCertificateFactoryException` is a `RuntimeException`; nothing catches it by its own
name. -/
def generate (params : SelfSignedCertificate) : Except Throwable X509CertificateAndPrivateKey :=
  tryCatch (do
      let keyPair ← lib.generateKeyPair factory.certSignatureSpec.keyAlgorithm
        factory.certSignatureSpec.keySize
      let cert ← generateCertificate factory lib keyPair params.validityPeriod
      return ⟨cert, keyPair.privateKey⟩)
    (fun e =>
      if e.instanceOf .exception then .error
        { cls := .runtimeException, message := u "Failed to generate self-signed certificate" }
      else .error e)

/-- The certificate is built from the key pair and the validity of the config. -/
structure Builds (params : SelfSignedCertificate) (keyPair : KeyPair)
    (certificate : X509Certificate) : Prop where
  generated : lib.generateKeyPair factory.certSignatureSpec.keyAlgorithm
    factory.certSignatureSpec.keySize = .ok keyPair
  built : ∃ contents, lib.build contents factory.certSignatureSpec.signatureAlgorithm
      keyPair.privateKey = .ok certificate ∧
    contents.subject = factory.subjectName ∧ contents.publicKey = keyPair.publicKey ∧
    Date.from params.validityPeriod.notBefore = .ok contents.notBefore ∧
    Date.from params.validityPeriod.notAfter = .ok contents.notAfter ∧
    (.basicConstraints factory.isCa, true) ∈ contents.extensions

variable {factory lib}

theorem generateCertificate_eq_ok {keyPair : KeyPair} {validityPeriod : ValidityPeriod}
    {certificate : X509Certificate}
    (h : generateCertificate factory lib keyPair validityPeriod = .ok certificate) :
    ∃ contents, lib.build contents factory.certSignatureSpec.signatureAlgorithm
        keyPair.privateKey = .ok certificate ∧
      contents.subject = factory.subjectName ∧ contents.publicKey = keyPair.publicKey ∧
      Date.from validityPeriod.notBefore = .ok contents.notBefore ∧
      Date.from validityPeriod.notAfter = .ok contents.notAfter ∧
      (.basicConstraints factory.isCa, true) ∈ contents.extensions := by
  obtain ⟨notBefore, hnotBefore, h⟩ := except_bind_eq_ok.mp h
  obtain ⟨notAfter, hnotAfter, h⟩ := except_bind_eq_ok.mp h
  obtain ⟨subjectKeyIdentifier, -, h⟩ := except_bind_eq_ok.mp h
  exact ⟨_, h, rfl, rfl, hnotBefore, hnotAfter, List.mem_cons_self⟩

theorem generate_eq_ok {params : SelfSignedCertificate}
    {certAndKey : X509CertificateAndPrivateKey} (h : generate factory lib params = .ok certAndKey) :
    ∃ keyPair, Builds factory lib params keyPair certAndKey.certificate ∧
      certAndKey.privateKey = keyPair.privateKey := by
  unfold generate at h
  rw [except_tryCatch_eq_ok (fun e => by split <;> exact nofun)] at h
  obtain ⟨keyPair, hkey, h⟩ := except_bind_eq_ok.mp h
  obtain ⟨certificate, hcert, h⟩ := except_bind_eq_ok.mp h
  obtain rfl := Except.ok.inj h
  exact ⟨keyPair, ⟨hkey, generateCertificate_eq_ok hcert⟩, rfl⟩

end MbsCertificateFactory

/-! ## The generator -/

/-- What the sealer calls of libraries other than KMS; see `SealerLibraries`. -/
structure CryptoLibraries where
  writePem : Bytes → Bytes
  generateCertificate : Bytes → Except Throwable X509Certificate
  generatePrivate : JString → Bytes → Except Throwable PrivateKey
  sign : JString → PrivateKey → List UInt8 → Except Throwable Bytes
  verify : JString → PublicKey → List UInt8 → Bytes → Except Throwable Bool
  encrypt : Bytes → Bytes → Bytes → Except Throwable Bytes
  decrypt : Bytes → Bytes → Bytes → Except Throwable Bytes

structure MbsRun where
  factory : FactoryLibraries
  /-- libnsm, as the attestation collector finds it. -/
  libnsm : Libnsm
  aws : AwsRun
  crypto : CryptoLibraries

structure MbsConfiguration where
  certificateFactory : MbsCertificateFactory
  userDataBoundToAttestation : Bytes
  kmsKeyArn : JString

/-- The sealer over the AWS client. -/
def MbsConfiguration.backupSealer (config : MbsConfiguration) (run : MbsRun) :
    AeadSelfSignedBundleBackupSealer where
  lib :=
    { writePem := run.crypto.writePem
      generateCertificate := run.crypto.generateCertificate
      generatePrivate := run.crypto.generatePrivate
      sign := run.crypto.sign
      verify := run.crypto.verify
      generateDataKey := AwsKmsClient.generateDataKey run.aws
      decryptDataKey := AwsKmsClient.decrypt run.aws
      encrypt := run.crypto.encrypt
      decrypt := run.crypto.decrypt }
  kmsKeyArn := config.kmsKeyArn

namespace SelfSignedBundleBackupGenerator

variable (config : MbsConfiguration) (run : MbsRun)

def generate (certConfig : SelfSignedCertificate) : Except Throwable SelfSignedBundleBackup := do
  let certAndKey ← config.certificateFactory.generate run.factory certConfig
  let token ← AwsAttestationCollector.collectBoundToPubkey run.libnsm
    certAndKey.certificate.publicKey config.userDataBoundToAttestation
  (config.backupSealer run).sealBundle ⟨certAndKey.certificate, certAndKey.privateKey, token⟩

/-- The identity that a run makes for an epoch: the certificate is built for the run's key pair,
the private key is the other half, and the token is a document of the module over the
certificate's public key and the user data. -/
structure Makes (certConfig : SelfSignedCertificate) (bundle : SelfSignedBundle) : Prop where
  keyPair : ∃ keyPair, config.certificateFactory.Builds run.factory certConfig keyPair
      bundle.certificate ∧ bundle.privateKey = keyPair.privateKey
  attested : ∃ fd doc, run.libnsm.nsmGetAttestationDoc fd (some config.userDataBoundToAttestation)
      none (some bundle.certificate.publicKey.encoded) = (NsmJniResult.success, doc) ∧
    AttestationToken.fromBytes doc = .ok bundle.attestationToken

variable {config run}

theorem generate_eq_ok {certConfig : SelfSignedCertificate} {backup : SelfSignedBundleBackup}
    (h : generate config run certConfig = .ok backup) :
    ∃ bundle, Makes config run certConfig bundle ∧
      (config.backupSealer run).sealBundle bundle = .ok backup := by
  obtain ⟨certAndKey, hcert, h⟩ := except_bind_eq_ok.mp h
  obtain ⟨token, htoken, h⟩ := except_bind_eq_ok.mp h
  exact ⟨_, ⟨MbsCertificateFactory.generate_eq_ok hcert,
    AwsAttestationCollector.collectBoundToPubkey_eq_ok htoken⟩, h⟩

end SelfSignedBundleBackupGenerator

/-! ## What another run opens -/

/-- Of a run that seals and one that opens: an AES-GCM ciphertext decrypts, if at all, to what
was encrypted, and a certificate or a private key that is read back from what was written of
it is that certificate or key. -/
structure MbsRun.Compatible (sealing opening : MbsRun) : Prop where
  decrypt : ∀ key plaintext associatedData ciphertext other opened,
    sealing.crypto.encrypt key plaintext associatedData = .ok ciphertext →
    opening.crypto.decrypt key ciphertext other = .ok opened → opened = plaintext
  pem : ∀ contents algorithm key certificate certificate',
    sealing.factory.build contents algorithm key = .ok certificate →
    opening.crypto.generateCertificate (sealing.crypto.writePem certificate.encoded) =
      .ok certificate' → certificate' = certificate
  pkcs8 : ∀ algorithm size keyPair algorithm' privateKey,
    sealing.factory.generateKeyPair algorithm size = .ok keyPair →
    opening.crypto.generatePrivate algorithm' keyPair.privateKey.encoded = .ok privateKey →
    privateKey = keyPair.privateKey

namespace AeadSelfSignedBundleBackupSealer

/-- What is decrypted under the expected or under the legacy associated data. -/
theorem decryptPrivateKey_eq_ok {sealer : AeadSelfSignedBundleBackupSealer}
    {backup : SelfSignedBundleBackup} {dataKey decrypted : Bytes}
    (h : sealer.decryptPrivateKey backup dataKey = .ok decrypted) :
    ∃ associatedData, sealer.lib.decrypt dataKey backup.aeadEncryptedPrivateKey associatedData =
      .ok decrypted := by
  obtain ⟨aead, haead, hrest⟩ := except_bind_eq_ok.mp h
  obtain ⟨expectedAssociatedData, -, hopen⟩ := except_bind_eq_ok.mp hrest
  obtain rfl : aead = dataKey := by
    unfold getAead at haead
    split at haead
    · cases haead
    · exact (Except.ok.inj haead).symm
  cases hfirst : sealer.lib.decrypt aead backup.aeadEncryptedPrivateKey expectedAssociatedData with
  | ok opened =>
    rw [hfirst] at hopen
    obtain rfl := Except.ok.inj hopen
    exact ⟨_, hfirst⟩
  | error e =>
    rw [hfirst] at hopen
    simp only [tryCatch, tryCatchThe, MonadExceptOf.tryCatch, Except.tryCatch] at hopen
    split at hopen
    · exact ⟨_, hopen⟩
    · cases hopen

theorem unsealBackup_eq_ok {sealer : AeadSelfSignedBundleBackupSealer}
    {backup : SelfSignedBundleBackup} {bundle : SelfSignedBundle}
    (h : sealer.unsealBackup backup = .ok bundle) :
    ∃ dataKey associatedData decrypted,
      sealer.lib.decryptDataKey backup.kmsEncryptedDataKey sealer.kmsKeyArn = .ok dataKey ∧
      AttestationToken.fromBytes backup.attestationDocBytes = .ok bundle.attestationToken ∧
      sealer.lib.decrypt dataKey backup.aeadEncryptedPrivateKey associatedData = .ok decrypted ∧
      sealer.lib.generateCertificate backup.certBytes = .ok bundle.certificate ∧
      sealer.lib.generatePrivate bundle.certificate.publicKey.algorithm decrypted =
        .ok bundle.privateKey := by
  obtain ⟨dataKey, hkey, h⟩ := except_bind_eq_ok.mp h
  obtain ⟨token, htoken, h⟩ := except_bind_eq_ok.mp h
  obtain ⟨⟨certificate, privateKey⟩, hdecode, h⟩ := except_bind_eq_ok.mp h
  rw [except_tryCatch_eq_ok (fun e => by split <;> exact nofun)] at hdecode
  obtain ⟨decrypted, hdecrypt, hdecode⟩ := except_bind_eq_ok.mp hdecode
  obtain ⟨certificate', hcert, hdecode⟩ := except_bind_eq_ok.mp hdecode
  obtain ⟨privateKey', hprivate, hdecode⟩ := except_bind_eq_ok.mp hdecode
  obtain ⟨rfl, rfl⟩ := Prod.mk.inj (Except.ok.inj hdecode)
  obtain ⟨matching, -, h⟩ := except_bind_eq_ok.mp h
  obtain ⟨associatedData, hopened⟩ := decryptPrivateKey_eq_ok hdecrypt
  have hparsed : sealer.lib.generateCertificate backup.certBytes = .ok certificate' := by
    unfold PemCertificateCodec.toCertificate at hcert
    rwa [except_tryCatch_eq_ok (fun e => by split <;> exact nofun)] at hcert
  split at h
  · cases h
  · obtain rfl := Except.ok.inj h
    exact ⟨dataKey, associatedData, decrypted, hkey, htoken, hopened, hparsed, hprivate⟩

end AeadSelfSignedBundleBackupSealer

namespace SelfSignedBundleBackupGenerator

/-- Whatever run opens a generated backup gets the identity that was made. -/
theorem unsealBackup_generate {config : MbsConfiguration} {sealing : MbsRun} {kms : AwsKms}
    (hsealing : sealing.aws.Serves kms) {certConfig : SelfSignedCertificate}
    {backup : SelfSignedBundleBackup} (hgenerate : generate config sealing certConfig = .ok backup) :
    ∃ made, Makes config sealing certConfig made ∧ ∀ opening bundle,
      sealing.Compatible opening → opening.aws.Serves kms →
      (config.backupSealer opening).unsealBackup backup = .ok bundle → bundle = made := by
  obtain ⟨made, hmakes, hseal⟩ := generate_eq_ok hgenerate
  refine ⟨made, hmakes, fun opening bundle hcompatible hopening hunseal => ?_⟩
  obtain ⟨docBytes, dataKey, data, ciphertext, hdoc, hkey, -, -, hcipher, rfl⟩ :=
    AeadSelfSignedBundleBackupSealer.sealBundle_eq_ok hseal
  obtain ⟨openedKey, associatedData, decrypted, hopenedKey, htoken, hdecrypt, hcert, hprivate⟩ :=
    AeadSelfSignedBundleBackupSealer.unsealBackup_eq_ok hunseal
  obtain ⟨keyPair, ⟨hkeyPair, contents, hbuilt, -⟩, hmadeKey⟩ := hmakes.keyPair
  obtain ⟨-, doc, -, hmadeToken⟩ := hmakes.attested
  obtain rfl : openedKey = dataKey.plaintext :=
    AwsKmsClient.decrypt_generateDataKey hsealing hopening hkey hopenedKey
  obtain rfl : decrypted = made.privateKey.encoded :=
    hcompatible.decrypt _ _ _ _ _ _ hcipher hdecrypt
  have hcertificate : bundle.certificate = made.certificate :=
    hcompatible.pem _ _ _ _ _ hbuilt hcert
  have hprivateKey : bundle.privateKey = made.privateKey := by
    rw [hmadeKey] at hprivate ⊢
    exact hcompatible.pkcs8 _ _ _ _ _ hkeyPair hprivate
  have htokens : bundle.attestationToken = made.attestationToken := by
    obtain rfl : doc = docBytes :=
      Except.ok.inj ((AttestationToken.getBytes_of_fromBytes hmadeToken).symm.trans hdoc)
    exact Except.ok.inj (htoken.symm.trans hmadeToken)
  obtain ⟨certificate, privateKey, token⟩ := bundle
  obtain ⟨certificate', privateKey', token'⟩ := made
  simp only at hcertificate hprivateKey htokens
  rw [hcertificate, hprivateKey, htokens]

end SelfSignedBundleBackupGenerator
/-! Libraries in which a key pair is named by one byte and an envelope is the public key with
the plaintext after it. -/

namespace Sample

def keyPair (d : UInt8) : KeyPair := ⟨⟨u "RSA", .one d⟩, ⟨u "RSA", .one d⟩⟩

def attestingModule : Libnsm where
  nsmLibInit := 3
  nsmGetAttestationDoc _ _ _ publicKey := (NsmJniResult.success, publicKey.getD Bytes.empty)
  calloc := true
  newByteArray := true

/-- The envelope of the data key. -/
def envelopeFor (publicKey : Bytes) : Except Throwable Bytes :=
  if h : (publicKey.val ++ dataKey.plaintext.val).length < 2^31 then
    .ok ⟨publicKey.val ++ dataKey.plaintext.val, h⟩
  else .error { cls := .sdkException }

def awsRun (d : UInt8) : AwsRun where
  libnsm := attestingModule
  keyPair := .ok (keyPair d)
  generateDataKey request := (envelopeFor request.recipient.attestationDocument).map
    (fun envelope => ⟨some envelope, some dataKey.ciphertext⟩)
  decrypt request :=
    if request.ciphertextBlob = dataKey.ciphertext then
      (envelopeFor request.recipient.attestationDocument).map (fun envelope => ⟨some envelope⟩)
    else .error { cls := .sdkException }
  getContent ciphertext privateKey :=
    if ciphertext.val.take privateKey.encoded.val.length = privateKey.encoded.val then
      .ok ⟨ciphertext.val.drop privateKey.encoded.val.length, by
        have hlength := ciphertext.property
        rw [List.length_drop]
        omega⟩
    else .error { cls := .generalSecurityException }

def mbsRun (d : UInt8) : MbsRun where
  factory :=
    { generateKeyPair := fun _ _ => .ok (keyPair d)
      serial := d.toNat
      serial_lt := Nat.lt_trans d.toNat_lt (by decide)
      createSubjectKeyIdentifier := fun publicKey => .ok publicKey.encoded
      build := fun contents _ _ => .ok (certificateOf contents.publicKey.encoded) }
  libnsm := attestingModule
  aws := awsRun d
  crypto :=
    { writePem := id
      generateCertificate := fun bytes => .ok (certificateOf bytes)
      generatePrivate := fun _ bytes => .ok ⟨u "RSA", bytes⟩
      sign := sealerLib.sign
      verify := sealerLib.verify
      encrypt := sealerLib.encrypt
      decrypt := sealerLib.decrypt }

def attestingKms : AwsKms where
  attestedKey := some
  plaintextOf _ ciphertext :=
    if ciphertext = dataKey.ciphertext then some dataKey.plaintext else none
  IsEnvelope publicKey ciphertext plaintext := ciphertext.val = publicKey.val ++ plaintext.val

theorem envelopeFor_eq_ok {publicKey envelope : Bytes} (h : envelopeFor publicKey = .ok envelope) :
    attestingKms.IsEnvelope publicKey envelope dataKey.plaintext := by
  unfold envelopeFor at h
  split at h
  · rw [← Except.ok.inj h]
    rfl
  · cases h

theorem awsRun_serves (d : UInt8) : (awsRun d).Serves attestingKms where
  attested fd userData nonce publicKey doc h := by
    rw [← (Prod.mk.inj h).2]
    rfl
  generated request response ciphertext blob h hciphertext hblob := by
    simp only [awsRun, Except.map] at h
    split at h
    · cases h
    · next envelope henvelope =>
      obtain rfl := Except.ok.inj h
      obtain rfl := Option.some.inj hciphertext
      obtain rfl := Option.some.inj hblob
      have hplain : attestingKms.plaintextOf request.keyId dataKey.ciphertext =
          some dataKey.plaintext := by simp [attestingKms]
      exact ⟨dataKey.plaintext, _, hplain, rfl, envelopeFor_eq_ok henvelope⟩
  decrypted request response ciphertext h hciphertext := by
    simp only [awsRun, Except.map] at h
    split at h
    · next hblob =>
      split at h
      · cases h
      · next envelope henvelope =>
        obtain rfl := Except.ok.inj h
        obtain rfl := Option.some.inj hciphertext
        exact ⟨dataKey.plaintext, _, if_pos hblob, rfl, envelopeFor_eq_ok henvelope⟩
    · cases h
  content pair ciphertext plaintext content hpair henvelope h := by
    obtain rfl : keyPair d = pair := Except.ok.inj hpair
    have henvelope : ciphertext.val = (keyPair d).privateKey.encoded.val ++ plaintext.val :=
      henvelope
    simp only [awsRun] at h
    split at h
    · rw [← Except.ok.inj h]
      apply Subtype.ext
      simp only [henvelope, List.drop_left]
    · cases h

theorem mbsRun_compatible (d d' : UInt8) : (mbsRun d).Compatible (mbsRun d') where
  decrypt key plaintext associatedData ciphertext other opened hencrypt hdecrypt := by
    have hencrypt : sealerLib.encrypt key plaintext associatedData = .ok ciphertext := hencrypt
    have hdecrypt : sealerLib.decrypt key ciphertext other = .ok opened := hdecrypt
    by_cases hother : other = associatedData
    · subst hother
      rw [sealerLib_lawful.decrypt_same _ _ _ _ hencrypt] at hdecrypt
      exact (Except.ok.inj hdecrypt).symm
    · obtain ⟨e, herror, -⟩ := sealerLib_lawful.decrypt_other _ _ _ _ hencrypt other hother
      rw [herror] at hdecrypt
      cases hdecrypt
  pem contents algorithm key certificate certificate' hbuild hparse := by
    obtain rfl := Except.ok.inj hbuild
    exact (Except.ok.inj hparse).symm
  pkcs8 algorithm size pair algorithm' privateKey hpair hprivate := by
    obtain rfl := Except.ok.inj hpair
    exact (Except.ok.inj hprivate).symm

def mbsConfiguration : MbsConfiguration where
  certificateFactory := ⟨⟨u "RSA", 4096, u "SHA256withRSA"⟩, ⟨3, .one 7⟩, none, 4⟩
  userDataBoundToAttestation := .one 5
  kmsKeyArn := u "arn:aws:kms:key"

end Sample
end Mbs
