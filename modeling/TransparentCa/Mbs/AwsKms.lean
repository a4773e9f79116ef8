import TransparentCa.Mbs.Sealer

/- The AWS adapters of Measurement Bound Storage: the Nitro Secure Module behind JNI,
   `AwsAttestationCollector` and `AwsKmsClient`. KMS hands a data key out encrypted to the
   ephemeral public key that the attestation document of the request carries, so each run
   of `generateDataKey` and of `decrypt` opens an envelope made for a key pair of its own.
   A run of these functions is a pure one: `AwsRun` holds what its calls of libnsm, of KMS and
   of BouncyCastle get, and `AwsRun.Serves` what is relied on between two runs. -/
namespace Mbs
open Java

structure KeyPair where
  publicKey : PublicKey
  privateKey : PrivateKey
  deriving DecidableEq

/-! ## NitroSecurityModule -/

/-- libnsm, and the allocations of `nsm_jni.c`: whether `calloc` and `NewByteArray` succeed.
`nsm_get_attestation_doc` takes the user data, the nonce and the public key, and returns its
result and what it wrote. -/
structure Libnsm where
  nsmLibInit : Int32
  nsmGetAttestationDoc : Int32 → Option Bytes → Option Bytes → Option Bytes → Int32 × Bytes
  calloc : Bool
  newByteArray : Bool

/-- `NsmJniResult`: `attestationDoc` is `none` for `null`. -/
structure NsmJniResult where
  attestationDoc : Option Bytes
  statusCode : Int32

namespace NsmJniResult

def success : Int32 := 0
def jniObjectAllocationError : Int32 := -2

def ofDoc (attestationDoc : Bytes) : NsmJniResult := ⟨some attestationDoc, 0⟩
def ofError (errorCode : Int32) : NsmJniResult := ⟨none, errorCode⟩

end NsmJniResult

/-- `NitroSecurityModuleException` is a `RuntimeException`; nothing catches it by its own name. -/
def nsmException (message : JString) : Throwable := { cls := .runtimeException, message := message }

namespace NitroSecurityModule

variable (libnsm : Libnsm)

/-- The constructor: the file descriptor. -/
def create : Except Throwable Int32 :=
  let fd := libnsm.nsmLibInit
  if fd < 0 then .error
    (nsmException (u "Failed to initialize NSM library, fd: " ++ intToString fd))
  else .ok fd

/-- `Java_com_google_mbs_adapters_nsm_NitroSecurityModule_getAttestationDoc`, where its class
and constructors are found. -/
def getAttestationDoc (fd : Int32) (userData nonce publicKey : Option Bytes) : NsmJniResult :=
  if libnsm.calloc then
    let (result, attestationDoc) := libnsm.nsmGetAttestationDoc fd userData nonce publicKey
    if result = NsmJniResult.success then
      if libnsm.newByteArray then .ofDoc attestationDoc
      else .ofError NsmJniResult.jniObjectAllocationError
    else .ofError result
  else .ofError NsmJniResult.jniObjectAllocationError

/-- A document of a successful result is never `null`. -/
def getAttestationDocument (fd : Int32) (userData nonce publicKey : Option Bytes) :
    Except Throwable Bytes :=
  let attestationResult := getAttestationDoc libnsm fd userData nonce publicKey
  match attestationResult.attestationDoc with
  | some attestationDoc =>
    if attestationResult.statusCode = NsmJniResult.success then .ok attestationDoc
    else .error (nsmException (u "Failed to get attestation document, status_code: " ++
      intToString attestationResult.statusCode))
  | none => .error (nsmException (u "Failed to get attestation document, status_code: " ++
      intToString attestationResult.statusCode))

theorem getAttestationDoc_eq_some {libnsm : Libnsm} {fd : Int32}
    {userData nonce publicKey : Option Bytes} {doc : Bytes}
    (h : (getAttestationDoc libnsm fd userData nonce publicKey).attestationDoc = some doc) :
    libnsm.nsmGetAttestationDoc fd userData nonce publicKey = (NsmJniResult.success, doc) := by
  unfold getAttestationDoc at h
  split at h
  · simp only at h
    split at h
    · next hresult =>
      split at h
      · exact Prod.ext hresult (Option.some.inj h)
      · cases h
    · cases h
  · cases h

theorem getAttestationDocument_eq_ok {libnsm : Libnsm} {fd : Int32}
    {userData nonce publicKey : Option Bytes} {doc : Bytes}
    (h : getAttestationDocument libnsm fd userData nonce publicKey = .ok doc) :
    libnsm.nsmGetAttestationDoc fd userData nonce publicKey = (NsmJniResult.success, doc) := by
  unfold getAttestationDocument at h
  simp only at h
  split at h
  · next doc' hdoc =>
    split at h
    · obtain rfl := Except.ok.inj h
      exact getAttestationDoc_eq_some hdoc
    · cases h
  · cases h

end NitroSecurityModule

/-! ## AwsAttestationCollector -/

namespace AwsAttestationCollector

def maxUserDataSize : Nat := 1024

def validateSize (data : Bytes) (description : JString) : Except Throwable Unit :=
  if data.val.length > maxUserDataSize then .error
    { cls := .illegalArgumentException,
      message := description ++ u " exceeds maximum size of " ++ natToString maxUserDataSize ++
        u " bytes" }
  else .ok ()

/-- `collectBoundToPubkey(publicKey, userData)`; closing the module changes nothing of it. -/
def collectBoundToPubkey (libnsm : Libnsm) (publicKey : PublicKey) (userData : Bytes) :
    Except Throwable AttestationToken := do
  let pubkey := publicKey.encoded
  validateSize pubkey (u "Public key")
  validateSize userData (u "User data")
  let fd ← NitroSecurityModule.create libnsm
  let doc ← NitroSecurityModule.getAttestationDocument libnsm fd (some userData) none (some pubkey)
  AttestationToken.fromBytes doc

/-- The token is made of the document that attests this public key and this user data. -/
theorem collectBoundToPubkey_eq_ok {libnsm : Libnsm} {publicKey : PublicKey} {userData : Bytes}
    {token : AttestationToken} (h : collectBoundToPubkey libnsm publicKey userData = .ok token) :
    ∃ fd doc, libnsm.nsmGetAttestationDoc fd (some userData) none (some publicKey.encoded) =
        (NsmJniResult.success, doc) ∧ AttestationToken.fromBytes doc = .ok token := by
  obtain ⟨_, -, h⟩ := except_bind_eq_ok.mp h
  obtain ⟨_, -, h⟩ := except_bind_eq_ok.mp h
  obtain ⟨fd, -, h⟩ := except_bind_eq_ok.mp h
  obtain ⟨doc, hdoc, htoken⟩ := except_bind_eq_ok.mp h
  exact ⟨fd, doc, NitroSecurityModule.getAttestationDocument_eq_ok hdoc, htoken⟩

end AwsAttestationCollector

/-! ## AwsKmsClient -/

structure RecipientInfo where
  attestationDocument : Bytes
  keyEncryptionAlgorithm : JString

structure GenerateDataKeyRequest where
  keyId : JString
  keySpec : JString
  recipient : RecipientInfo

structure DecryptRequest where
  ciphertextBlob : Bytes
  keyId : JString
  recipient : RecipientInfo

/-- A field is `none` where the response lacks it. -/
structure GenerateDataKeyResponse where
  ciphertextForRecipient : Option Bytes
  ciphertextBlob : Option Bytes

structure DecryptResponse where
  ciphertextForRecipient : Option Bytes

/-- What one run of the client gets: its ephemeral key pair, the answers of libnsm and of KMS,
and what BouncyCastle reads from an envelope. -/
structure AwsRun where
  libnsm : Libnsm
  /-- `generateEphemeralKeyPair`. -/
  keyPair : Except Throwable KeyPair
  generateDataKey : GenerateDataKeyRequest → Except Throwable GenerateDataKeyResponse
  decrypt : DecryptRequest → Except Throwable DecryptResponse
  /-- `decryptCiphertextForRecipient`. -/
  getContent : Bytes → PrivateKey → Except Throwable Bytes

namespace AwsKmsClient

variable (run : AwsRun)

/-- The key pair, and the recipient that attests its public key. -/
def attestedRecipient : Except Throwable (KeyPair × RecipientInfo) := do
  let fd ← NitroSecurityModule.create run.libnsm
  let keyPair ← run.keyPair
  let attestationDoc ← NitroSecurityModule.getAttestationDocument run.libnsm fd none none
    (some keyPair.publicKey.encoded)
  return (keyPair, ⟨attestationDoc, u "RSAES_OAEP_SHA_256"⟩)

/-- The check of `ciphertextForRecipient`, and its decryption. -/
def openForRecipient (ciphertextForRecipient : Option Bytes) (keyPair : KeyPair) :
    Except Throwable Bytes :=
  match ciphertextForRecipient with
  | none => .error missing
  | some ciphertext =>
    if ciphertext.val.length = 0 then .error missing
    else run.getContent ciphertext keyPair.privateKey
where
  missing : Throwable :=
    { cls := .kmsException,
      message := u "KMS response missing expected ciphertextForRecipient in attested flow" }

/-- `catch (Exception e) { throw new KmsException(message, e); }`. -/
def wrapping {α : Type} (message : JString) (body : Except Throwable α) : Except Throwable α :=
  tryCatch body (fun e =>
    if e.instanceOf .exception then .error { cls := .kmsException, message := message }
    else .error e)

def generateDataKey (keyId : JString) : Except Throwable KmsGeneratedKey :=
  wrapping (u "Failed to generate data key from AWS KMS with NSM") (do
    let (keyPair, recipientInfo) ← attestedRecipient run
    let response ← run.generateDataKey ⟨keyId, u "AES_256", recipientInfo⟩
    let plaintext ← openForRecipient run response.ciphertextForRecipient keyPair
    match response.ciphertextBlob with
    | none => .error { cls := .nullPointerException }
    | some ciphertextBlob => .ok ⟨plaintext, ciphertextBlob⟩)

def decrypt (ciphertext : Bytes) (keyId : JString) : Except Throwable Bytes :=
  wrapping (u "Failed to decrypt ciphertext using AWS KMS with NSM") (do
    let (keyPair, recipientInfo) ← attestedRecipient run
    let response ← run.decrypt ⟨ciphertext, keyId, recipientInfo⟩
    openForRecipient run response.ciphertextForRecipient keyPair)

end AwsKmsClient

/-! ## Between two runs -/

/-- KMS as the client relies on it: the public key inside an attestation document, the
plaintext of a ciphertext under a key, and which bytes are an envelope of a plaintext for a
public key. -/
structure AwsKms where
  attestedKey : Bytes → Option Bytes
  plaintextOf : JString → Bytes → Option Bytes
  IsEnvelope : Bytes → Bytes → Bytes → Prop

/-- Of one run: a document attests the public key it was asked for; KMS answers with an
envelope for the attested key, of the new key or of what the ciphertext holds; and BouncyCastle
reads from an envelope for the run's public key what was put into it. -/
structure AwsRun.Serves (run : AwsRun) (kms : AwsKms) : Prop where
  attested : ∀ fd userData nonce publicKey doc,
    run.libnsm.nsmGetAttestationDoc fd userData nonce (some publicKey) =
      (NsmJniResult.success, doc) → kms.attestedKey doc = some publicKey
  generated : ∀ request response ciphertext blob, run.generateDataKey request = .ok response →
    response.ciphertextForRecipient = some ciphertext → response.ciphertextBlob = some blob →
    ∃ plaintext publicKey, kms.plaintextOf request.keyId blob = some plaintext ∧
      kms.attestedKey request.recipient.attestationDocument = some publicKey ∧
      kms.IsEnvelope publicKey ciphertext plaintext
  decrypted : ∀ request response ciphertext, run.decrypt request = .ok response →
    response.ciphertextForRecipient = some ciphertext →
    ∃ plaintext publicKey, kms.plaintextOf request.keyId request.ciphertextBlob = some plaintext ∧
      kms.attestedKey request.recipient.attestationDocument = some publicKey ∧
      kms.IsEnvelope publicKey ciphertext plaintext
  content : ∀ keyPair ciphertext plaintext content, run.keyPair = .ok keyPair →
    kms.IsEnvelope keyPair.publicKey.encoded ciphertext plaintext →
    run.getContent ciphertext keyPair.privateKey = .ok content → content = plaintext

namespace AwsKmsClient

section
variable {run : AwsRun} {kms : AwsKms}

theorem wrapping_eq_ok {α : Type} {message : JString} {body : Except Throwable α} {a : α} :
    wrapping message body = .ok a ↔ body = .ok a := by
  unfold wrapping
  rw [except_tryCatch_eq_ok (fun e => by split <;> exact nofun)]

/-- The recipient attests the public key of the run's key pair. -/
theorem attestedRecipient_eq_ok (hrun : run.Serves kms) {keyPair : KeyPair}
    {recipientInfo : RecipientInfo} (h : attestedRecipient run = .ok (keyPair, recipientInfo)) :
    run.keyPair = .ok keyPair ∧
      kms.attestedKey recipientInfo.attestationDocument = some keyPair.publicKey.encoded := by
  obtain ⟨fd, -, h⟩ := except_bind_eq_ok.mp h
  obtain ⟨keyPair', hkey, h⟩ := except_bind_eq_ok.mp h
  obtain ⟨doc, hdoc, h⟩ := except_bind_eq_ok.mp h
  obtain ⟨rfl, rfl⟩ := Prod.mk.inj (Except.ok.inj h)
  exact ⟨hkey, hrun.attested _ _ _ _ _ (NitroSecurityModule.getAttestationDocument_eq_ok hdoc)⟩

/-- What is opened is what the envelope for the attested key holds. -/
theorem openForRecipient_eq_ok (hrun : run.Serves kms) {keyPair : KeyPair}
    {recipientInfo : RecipientInfo} {ciphertextForRecipient : Option Bytes} {content : Bytes}
    (hrecipient : attestedRecipient run = .ok (keyPair, recipientInfo))
    (h : openForRecipient run ciphertextForRecipient keyPair = .ok content) :
    ∃ ciphertext, ciphertextForRecipient = some ciphertext ∧
      ∀ plaintext publicKey,
        kms.attestedKey recipientInfo.attestationDocument = some publicKey →
        kms.IsEnvelope publicKey ciphertext plaintext → content = plaintext := by
  obtain ⟨hkey, hattested⟩ := attestedRecipient_eq_ok hrun hrecipient
  unfold openForRecipient at h
  split at h
  · cases h
  · next ciphertext =>
    split at h
    · cases h
    · refine ⟨ciphertext, rfl, fun plaintext publicKey hpublic henvelope => ?_⟩
      obtain rfl := Option.some.inj (hattested.symm.trans hpublic)
      exact hrun.content keyPair ciphertext plaintext content hkey henvelope h

theorem plaintextOf_generateDataKey (hrun : run.Serves kms) {keyId : JString}
    {key : KmsGeneratedKey} (h : generateDataKey run keyId = .ok key) :
    kms.plaintextOf keyId key.ciphertext = some key.plaintext := by
  obtain ⟨⟨keyPair, recipientInfo⟩, hrecipient, h⟩ := except_bind_eq_ok.mp (wrapping_eq_ok.mp h)
  obtain ⟨response, hresponse, h⟩ := except_bind_eq_ok.mp h
  obtain ⟨content, hopen, h⟩ := except_bind_eq_ok.mp h
  obtain ⟨ciphertext, hciphertext, hcontent⟩ := openForRecipient_eq_ok hrun hrecipient hopen
  split at h
  · cases h
  · next blob hblob =>
    obtain rfl := Except.ok.inj h
    obtain ⟨plaintext, publicKey, hplain, hpublic, henvelope⟩ :=
      hrun.generated _ response ciphertext blob hresponse hciphertext hblob
    rw [hcontent plaintext publicKey hpublic henvelope]
    exact hplain

theorem plaintextOf_decrypt (hrun : run.Serves kms) {ciphertext : Bytes} {keyId : JString}
    {plaintext : Bytes} (h : decrypt run ciphertext keyId = .ok plaintext) :
    kms.plaintextOf keyId ciphertext = some plaintext := by
  obtain ⟨⟨keyPair, recipientInfo⟩, hrecipient, h⟩ := except_bind_eq_ok.mp (wrapping_eq_ok.mp h)
  obtain ⟨response, hresponse, hopen⟩ := except_bind_eq_ok.mp h
  obtain ⟨envelope, henvelope, hcontent⟩ := openForRecipient_eq_ok hrun hrecipient hopen
  obtain ⟨plaintext', publicKey, hplain, hpublic, hsealed⟩ :=
    hrun.decrypted _ response envelope hresponse henvelope
  rw [hcontent plaintext' publicKey hpublic hsealed]
  exact hplain

/-- A data key that any run decrypts is the one that was generated. -/
theorem decrypt_generateDataKey {run' : AwsRun} (hrun : run.Serves kms) (hrun' : run'.Serves kms)
    {keyId : JString} {key : KmsGeneratedKey} {plaintext : Bytes}
    (hkey : generateDataKey run keyId = .ok key)
    (h : decrypt run' key.ciphertext keyId = .ok plaintext) : plaintext = key.plaintext :=
  Option.some.inj ((plaintextOf_decrypt hrun' h).symm.trans (plaintextOf_generateDataKey hrun hkey))

end
end AwsKmsClient
end Mbs
