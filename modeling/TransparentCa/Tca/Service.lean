import TransparentCa.Lib.Prog
import TransparentCa.Tca.Domain

/- `TransparentCaService.issueCertificate`, its trust domain extractor, and the
   implementations of the verifier provider and of the modifiers creator. The service is
   written over its ten collaborators as the constructor injects them
   (`TransparentCaService`), each a program that may throw; `openService` leaves every one
   of them open, so that a run of it is a run against any collaborators whatever. -/
namespace Tca
open Java Mbs Effects

/-! ## TrustDomainExtractor -/

namespace TrustDomainExtractor

/-- `GeneralName.uniformResourceIdentifier`. -/
def uniformResourceIdentifier : Int := 6

def isUriSan : List SanItem → Bool
  | .integer tag :: _ :: _ => tag = uniformResourceIdentifier
  | _ => false

def extractTrustDomainFromHost (host : JString) : Except Throwable JString :=
  if (u "tca.").isPrefixOf host then .ok host
  else .error
    { cls := .illegalArgumentException,
      message := u "SPIFFE ID trust domain does not start with expected prefix. Expected prefix: 'tca.', Actual host/trust domain: '" ++ host ++ u "'" }

def extractTrustDomainFromSpiffeId (lib : Platform) (spiffeId : JString) :
    Except Throwable JString :=
  if (u "spiffe://").isPrefixOf spiffeId then
    (lib.uriHost spiffeId).bind (fun host => match host with
      | some (c :: rest) => extractTrustDomainFromHost (c :: rest)
      | _ => .error
          { cls := .illegalArgumentException,
            message := u "SPIFFE ID URI does not contain a valid host/trust domain. Actual SPIFFE ID: '" ++ spiffeId ++ u "'" })
  else .error
    { cls := .illegalArgumentException,
      message := u "SPIFFE ID URI does not start with expected scheme. Expected prefix: 'spiffe://', Actual URI: '" ++ spiffeId ++ u "'" }

def className : SanItem → JString
  | .integer _ => u "java.lang.Integer"
  | .string _ => u "java.lang.String"
  | .null => u "null"
  | .object name => name

/-- The second item of `san`; it has one, since `isUriSan` holds of it. -/
def tryParseTrustDomain (lib : Platform) (san : List SanItem) : Except Throwable JString :=
  match san.getD 1 .null with
  | .string spiffeId => extractTrustDomainFromSpiffeId lib spiffeId
  | value => .error
      { cls := .illegalArgumentException,
        message := u "URI SAN value is not a String. Expected: String, Actual: " ++
          className value }

/-- The trust domain of the first URI among the certificate's alternative names. -/
def extract (lib : Platform) (rootCertificate : X509Certificate) : Except Throwable JString :=
  rootCertificate.subjectAlternativeNames.bind (fun sans =>
    match (sans.getD []).find? isUriSan with
    | some san => tryParseTrustDomain lib san
    | none => .error
        { cls := .illegalArgumentException,
          message := u "Root certificate SAN does not contain a valid SPIFFE ID trust domain." })

end TrustDomainExtractor

/-! ## AttestationVerifierProviderImpl -/

/-- The classes a verifier may be registered for. -/
inductive EvidenceClass where
  | attestationEvidence
  | aws
  | gcp
  | oak
  deriving DecidableEq, Repr

def EvidenceClass.isAssignableFrom : EvidenceClass → AttestationEvidence → Bool
  | .attestationEvidence, _ => true
  | .aws, .aws _ => true
  | .gcp, .gcp _ => true
  | .oak, .oak _ _ _ => true
  | _, _ => false

/-- The verifier of the first entry, in iteration order, whose class the evidence has.
Verifiers are named by `V`. -/
def AttestationVerifierProviderImpl.getVerifier {V : Type} (verifiers : List (EvidenceClass × V))
    (evidence : AttestationEvidence) : Option V :=
  (verifiers.find? (fun entry => entry.1.isAssignableFrom evidence)).map Prod.snd

/-! ## CertificateModifiersCreatorImpl -/

def CertificateModifiersCreatorImpl.create (policy : Policy) (trustDomain : JString) :
    List CertificateModifier :=
  let extensions := policy.certificateAttributes.extensions
  (match extensions.nameConstraints with
    | some constraints => [.nameConstraints constraints.permittedSubtrees trustDomain]
    | none => []) ++
  (match extensions.basicConstraints with
    | some constraints => [.basicConstraints constraints, .keyUsage constraints]
    | none => []) ++
  [.subjectAlternativeName policy trustDomain]

/-! ## TransparentCaService -/

/-- The arguments of `signCsr`. -/
structure SignCsr where
  csrBytes : Bytes
  issuerCert : X509Certificate
  issuerPrivateKey : PrivateKey
  notBefore : Instant
  notAfter : Instant
  modifiers : List CertificateModifier
  subject : Bytes
  deriving DecidableEq

section
variable (Op : Type) (Val : Op → Type)

abbrev CaProg (α : Type) := Prog Op Val Throwable α

/-- `AttestationVerifier.verify`. -/
abbrev AttestationVerifier :=
  AttestationEvidence → PublicKey → ReferenceValues → CaProg Op Val Bool

structure TransparentCaService where
  getActiveTrustPackage : CaProg Op Val TrustPackage
  getVerifier : AttestationEvidence → CaProg Op Val (Option (AttestationVerifier Op Val))
  signCsr : SignCsr → CaProg Op Val X509Certificate
  decodeRawPublicKey : Bytes → CaProg Op Val PublicKey
  getPolicy : CallerIdentity → JString → JString → CaProg Op Val (Option Policy)
  now : CaProg Op Val Instant
  getAnnotations : Bytes → CaProg Op Val EndorsementAnnotations
  getValidity : Bytes → CaProg Op Val Validity
  createModifiers : Policy → JString → CaProg Op Val (List CertificateModifier)
  validateAudience : PublicKey → CallerIdentity → JString → CaProg Op Val Unit
  startIssuanceTimer : CaProg Op Val Unit
  recordSubOperationAndResetTimer : IssuanceSubOperation → CaProg Op Val Unit
  incrementProcessingCounter : ProcessingStatus → CaProg Op Val Unit
  incrementCertificateIssuanceCounter : JString → CaProg Op Val Unit
end

section
variable {Op : Type} {Val : Op → Type}

/-- `Stream.anyMatch`: the first element that matches ends the search. -/
def anyMatch {α : Type} (p : α → CaProg Op Val Bool) : List α → CaProg Op Val Bool
  | [] => return false
  | x :: xs => do
    let matched ← p x
    if matched then return true else anyMatch p xs

/-- `selfSignedBundles().get(0)`. -/
def headBundle (trustPackage : TrustPackage) : CaProg Op Val SelfSignedBundle :=
  match trustPackage.selfSignedBundles with
  | rootBundle :: _ => return rootBundle
  | [] => throw { cls := .indexOutOfBoundsException,
                  message := u "Index 0 out of bounds for length 0" }

variable (svc : TransparentCaService Op Val) (lib : Platform)

def extractPublicKey (request : CertificateIssuanceRequest) : CaProg Op Val PublicKey := do
  let csrPublicKeyBytes ←
    Prog.ofExcept (lib.subjectPublicKeyInfo request.certificateSigningRequest)
  svc.decodeRawPublicKey csrPublicKeyBytes

/-- `catch (cs e) { metrics.incrementProcessingCounter(status); throw e'; }` around `p`. -/
def countFailure {α : Type} (cs : List ThrowableClass) (status : ProcessingStatus)
    (rethrow : Throwable → Throwable) (p : CaProg Op Val α) : CaProg Op Val α :=
  p.handle (fun e =>
    if e.caughtBy cs then do
      svc.incrementProcessingCounter status
      throw (rethrow e)
    else throw e)

/-- `if (failed) { metrics.incrementProcessingCounter(status); throw e; }`. -/
def failIf (failed : Prop) [Decidable failed] (status : ProcessingStatus) (e : Throwable) :
    CaProg Op Val Unit :=
  if failed then do
    svc.incrementProcessingCounter status
    throw e
  else return ()

/-- `if (opt.isEmpty()) { metrics.incrementProcessingCounter(status); throw e; }`, then
`opt.get()`. -/
def getOrFail {α : Type} (opt : Option α) (status : ProcessingStatus) (e : Throwable) :
    CaProg Op Val α :=
  match opt with
  | some a => return a
  | none => do
    svc.incrementProcessingCounter status
    throw e

def createSubjectPrincipal (subject : X500NameAttributes) : CaProg Op Val Bytes :=
  Prog.ofExcept (lib.x500Principal subject.attributes)

def missingPolicyMessage (callerIdentity : CallerIdentity) (annotations : EndorsementAnnotations) :
    JString :=
  u "No policy supports requested workload: \x7bclientId = " ++ callerIdentity.getClientId ++
    u ", publisherId = " ++ annotations.publisherId ++
    u ", workloadId = " ++ annotations.workloadId ++ u "\x7d"

def issueCertificate (request : CertificateIssuanceRequest) (callerIdentity : CallerIdentity) :
    CaProg Op Val (List X509Certificate) := do
  svc.startIssuanceTimer
  let csrPublicKey ←
    (countFailure svc [.ioException] .invalidCsr id (extractPublicKey svc lib request)).finallyDo
      (svc.recordSubOperationAndResetTimer .extractPublicKey)
  let trustPackage ← svc.getActiveTrustPackage
  let rootBundle ← headBundle trustPackage
  let rootCertificate := rootBundle.certificate
  let privateKey := rootBundle.privateKey
  let trustDomain ← countFailure svc
    [.certificateException, .uriSyntaxException, .illegalArgumentException] .signingError
    (fun _ => { cls := .certificateException,
                message := u "Failed to extract trust domain from root certificate" })
    (Prog.ofExcept (TrustDomainExtractor.extract lib rootCertificate))
  (countFailure svc [.audienceValidationException] .audienceMismatch id
    (svc.validateAudience csrPublicKey callerIdentity trustDomain)).finallyDo
      (svc.recordSubOperationAndResetTimer .validateAudience)
  let evidence := request.attestationEvidence
  let endorsement ← Prog.ofExcept (evidence.getRawBinaryEndorsement lib)
  let annotations ← svc.getAnnotations endorsement
  let endorsement ← Prog.ofExcept (evidence.getRawBinaryEndorsement lib)
  let validity ← svc.getValidity endorsement
  svc.recordSubOperationAndResetTimer .endorsementMetadataParsing
  let policyOpt ← svc.getPolicy callerIdentity annotations.publisherId annotations.workloadId
  let policy ← getOrFail svc policyOpt .missingPolicy
    { cls := .illegalArgumentException,
      message := missingPolicyMessage callerIdentity annotations }
  svc.recordSubOperationAndResetTimer .policyResolution
  let verifierOpt ← svc.getVerifier evidence
  let verifier ← getOrFail svc verifierOpt .missingVerifier
    { cls := .illegalArgumentException, message := u "Unsupported attestation platform" }
  svc.recordSubOperationAndResetTimer .verifierResolution
  let hasBeenVerified ← anyMatch (fun rv => verifier evidence csrPublicKey rv)
    (policy.referenceValuesList.filter (fun rv => rv.type = evidence.getReferenceValuesType))
  svc.recordSubOperationAndResetTimer .verifyAttestation
  failIf svc (hasBeenVerified = false) .invalidAttestationToken
    { cls := .illegalArgumentException, message := u "Attestation token is not valid" }
  let now ← svc.now
  let expiration ← Prog.ofExcept (now.plus policy.certificateAttributes.maxCertificateValidity)
  let certificateValidityEnd := min expiration validity.notAfter
  let certificateValidityStart := max now validity.notBefore
  failIf svc (certificateValidityStart > certificateValidityEnd) .incorrectCertificateValidity
    { cls := .illegalArgumentException, message := u "Incorrect certificate validity" }
  let modifiers ← svc.createModifiers policy trustDomain
  let signedCertificate ← (countFailure svc [.certificateException] .signingError id (do
      -- Java evaluates the arguments first: a bad subject never reaches the signer.
      let subject ← createSubjectPrincipal lib policy.certificateAttributes.certificateSubject
      svc.signCsr
        { csrBytes := request.certificateSigningRequest
          issuerCert := rootCertificate
          issuerPrivateKey := privateKey
          notBefore := certificateValidityStart
          notAfter := certificateValidityEnd
          modifiers := modifiers
          subject := subject })).finallyDo
    (svc.recordSubOperationAndResetTimer .signCertificate)
  svc.incrementProcessingCounter .success
  svc.incrementCertificateIssuanceCounter callerIdentity.getClientId
  return signedCertificate :: trustPackage.crossSignedCertificates ++ [rootCertificate]

end

/-! ## Which calls the parts make

Besides the calls of what they are given, the parts only count failures. -/

section
variable {Op : Type} {Val : Op → Type} {α : Type} {P : Op → Prop}
  {svc : TransparentCaService Op Val}
open Prog

theorem uses_failureHandler {cs : List ThrowableClass} {status : ProcessingStatus}
    {rethrow : Throwable → Throwable} (hcount : (svc.incrementProcessingCounter status).Uses P)
    (e : Throwable) :
    (if e.caughtBy cs then do
        svc.incrementProcessingCounter status
        throw (rethrow e)
      else throw e : CaProg Op Val α).Uses P := by
  split
  · exact Uses.bind hcount (fun _ => trivial)
  · trivial

theorem uses_countFailure {cs : List ThrowableClass} {status : ProcessingStatus}
    {rethrow : Throwable → Throwable} {p : CaProg Op Val α}
    (hcount : (svc.incrementProcessingCounter status).Uses P) (hp : p.Uses P) :
    (countFailure svc cs status rethrow p).Uses P :=
  Uses.handle hp (uses_failureHandler hcount)

theorem uses_failIf (failed : Prop) [Decidable failed] {status : ProcessingStatus} (e : Throwable)
    (hcount : (svc.incrementProcessingCounter status).Uses P) :
    (failIf svc failed status e).Uses P := by
  unfold failIf
  split
  · exact Uses.bind hcount (fun _ => trivial)
  · trivial

theorem uses_getOrFail (opt : Option α) {status : ProcessingStatus} (e : Throwable)
    (hcount : (svc.incrementProcessingCounter status).Uses P) :
    (getOrFail svc opt status e).Uses P := by
  cases opt with
  | some a => trivial
  | none => exact Uses.bind hcount (fun _ => trivial)

theorem returns_getOrFail (opt : Option α) (status : ProcessingStatus) (e : Throwable) :
    (getOrFail svc opt status e).Returns (fun a => opt = some a) := by
  cases opt with
  | some a => rfl
  | none => exact returns_bind.mpr ((returns_true _).mono (fun _ _ => trivial))

theorem uses_headBundle (trustPackage : TrustPackage) :
    (headBundle trustPackage : CaProg Op Val SelfSignedBundle).Uses P := by
  unfold headBundle
  split <;> trivial

theorem uses_anyMatch {p : α → CaProg Op Val Bool} (hp : ∀ a, (p a).Uses P) (as : List α) :
    (anyMatch p as).Uses P := by
  induction as with
  | nil => trivial
  | cons a as ih =>
    refine Uses.bind (hp a) (fun matched => ?_)
    cases matched with
    | true => trivial
    | false => exact ih

end

/-! ## Any collaborators -/

/-- One call of a collaborator. Verifiers are named by numbers. -/
inductive CaOp where
  | getActiveTrustPackage
  | getVerifier (evidence : AttestationEvidence)
  | verify (verifier : Nat) (evidence : AttestationEvidence) (claimedPublicKey : PublicKey)
      (referenceValues : ReferenceValues)
  | signCsr (args : SignCsr)
  | decodeRawPublicKey (keyBytes : Bytes)
  | getPolicy (identity : CallerIdentity) (publisherId workloadId : JString)
  | now
  | getAnnotations (statementBytes : Bytes)
  | getValidity (statementBytes : Bytes)
  | createModifiers (policy : Policy) (trustDomain : JString)
  | validateAudience (csrPublicKey : PublicKey) (callerIdentity : CallerIdentity)
      (trustDomain : JString)
  | startIssuanceTimer
  | recordSubOperationAndResetTimer (operation : IssuanceSubOperation)
  | incrementProcessingCounter (status : ProcessingStatus)
  | incrementCertificateIssuanceCounter (clientId : JString)
  deriving DecidableEq

abbrev CaOp.Val : CaOp → Type
  | .getActiveTrustPackage => TrustPackage
  | .getVerifier _ => Option Nat
  | .verify _ _ _ _ => Bool
  | .signCsr _ => X509Certificate
  | .decodeRawPublicKey _ => PublicKey
  | .getPolicy _ _ _ => Option Policy
  | .now => Instant
  | .getAnnotations _ => EndorsementAnnotations
  | .getValidity _ => Validity
  | .createModifiers _ _ => List CertificateModifier
  | .validateAudience _ _ _ => Unit
  | .startIssuanceTimer => Unit
  | .recordSubOperationAndResetTimer _ => Unit
  | .incrementProcessingCounter _ => Unit
  | .incrementCertificateIssuanceCounter _ => Unit

/-- The call, answered by whoever the collaborator is. -/
def ask (o : CaOp) : CaProg CaOp CaOp.Val o.Val := Prog.invoke o

def openService : TransparentCaService CaOp CaOp.Val where
  getActiveTrustPackage := ask .getActiveTrustPackage
  getVerifier evidence := do
    let v : Option Nat ← ask (.getVerifier evidence)
    return v.map (fun v evidence key rv => ask (.verify v evidence key rv))
  signCsr args := ask (.signCsr args)
  decodeRawPublicKey keyBytes := ask (.decodeRawPublicKey keyBytes)
  getPolicy identity publisherId workloadId :=
    ask (.getPolicy identity publisherId workloadId)
  now := ask .now
  getAnnotations statementBytes := ask (.getAnnotations statementBytes)
  getValidity statementBytes := ask (.getValidity statementBytes)
  createModifiers policy trustDomain := ask (.createModifiers policy trustDomain)
  validateAudience key identity trustDomain :=
    ask (.validateAudience key identity trustDomain)
  startIssuanceTimer := ask .startIssuanceTimer
  recordSubOperationAndResetTimer operation :=
    ask (.recordSubOperationAndResetTimer operation)
  incrementProcessingCounter status := ask (.incrementProcessingCounter status)
  incrementCertificateIssuanceCounter clientId :=
    ask (.incrementCertificateIssuanceCounter clientId)

/-- A verifier of the open service asks the collaborator of some number. -/
theorem returns_getVerifier (evidence : AttestationEvidence) :
    (openService.getVerifier evidence).Returns (fun verifierOpt =>
      ∀ verifier, verifierOpt = some verifier →
        ∃ v, verifier = fun evidence key rv => ask (.verify v evidence key rv)) := by
  refine Prog.returns_bind.mpr (Prog.returns_invoke.mpr (fun v => ?_))
  intro verifier h
  obtain ⟨v, -, rfl⟩ := Option.map_eq_some_iff.mp h
  exact ⟨v, rfl⟩

end Tca
