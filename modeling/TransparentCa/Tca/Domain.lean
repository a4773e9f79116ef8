import TransparentCa.Mbs.Domain

/- The domain of the certificate authority: the caller and its request, attestation
   evidence of the three platforms, policies, and what the certificate builder is told to
   add. -/
namespace Tca
open Java Mbs

/-! ## Callers, evidence and requests -/

structure CallerIdentity where
  issuer : JString
  subject : JString
  audiences : List JString
  deriving DecidableEq

/-- Alphanumeric, hyphen, and period; `_` is the escape character. -/
def isSafe (c : UInt16) : Bool :=
  (ch 'a' ≤ c && c ≤ ch 'z') || (ch 'A' ≤ c && c ≤ ch 'Z') || (ch '0' ≤ c && c ≤ ch '9') ||
    c == ch '-' || c == ch '.'

def hexDigit (n : Nat) : UInt16 :=
  if n < 10 then ch '0' + n.toUInt16 else ch 'a' + (n - 10).toUInt16

theorem hexDigit_injective {m n : Nat} (hm : m < 16) (hn : n < 16)
    (h : hexDigit m = hexDigit n) : m = n := by
  interval_cases m <;> interval_cases n <;> first | rfl | exact absurd h (by decide)

/-- `String.format("_%04x", (int) c)`. -/
def escapeUnit (c : UInt16) : JString :=
  [ch '_', hexDigit (c.toNat / 4096 % 16), hexDigit (c.toNat / 256 % 16),
    hexDigit (c.toNat / 16 % 16), hexDigit (c.toNat % 16)]

def escape (s : JString) : JString := s.flatMap (fun c => if isSafe c then [c] else escapeUnit c)

def CallerIdentity.getClientId (c : CallerIdentity) : JString :=
  escape c.issuer ++ u "/" ++ escape c.subject

inductive ReferenceValuesType where
  | oak
  | gcp
  | aws
  deriving DecidableEq, Repr

structure ReferenceValues where
  type : ReferenceValuesType
  raw : Bytes
  deriving DecidableEq

/-- An endorsement event: its id and its serialized value. -/
structure Variant where
  id : Bytes
  value : Bytes
  deriving DecidableEq

/-- The three implementations of `AttestationEvidence`. -/
inductive AttestationEvidence where
  | aws (attestationToken : Bytes)
  | gcp (attestationToken : Bytes)
  | oak (evidence : Bytes) (endorsements : List Variant) (signedPublicKey : Bytes)
  deriving DecidableEq

/-- Oak's hardcoded id of container endorsements. -/
def containerEndorsementId : Bytes :=
  ⟨[0x72, 0x97, 0xa5, 0x1f, 0xa0, 0x5d, 0x49, 0xa1, 0xaf, 0xdb, 0x64, 0xcd, 0xee, 0x07, 0x86,
    0x2d], by decide⟩

structure CertificateIssuanceRequest where
  attestationEvidence : AttestationEvidence
  certificateSigningRequest : Bytes
  deriving DecidableEq

structure EndorsementAnnotations where
  publisherId : JString
  workloadId : JString
  deriving DecidableEq

structure Validity where
  notBefore : Instant
  notAfter : Instant
  deriving DecidableEq

/-- What the service relies on of the JDK and of BouncyCastle and protobuf: the host of a
URI (`none` for `null`), the encoded `SubjectPublicKeyInfo` of a PKCS#10 request, the
encoded X.500 name of a list of attributes, and the endorsement inside a serialized
container endorsement. Each may throw. -/
structure Platform where
  uriHost : JString → Except Throwable (Option JString)
  subjectPublicKeyInfo : Bytes → Except Throwable Bytes
  x500Principal : List (JString × JString) → Except Throwable Bytes
  containerEndorsementBinary : Bytes → Except Throwable Bytes

namespace AttestationEvidence

def getReferenceValuesType : AttestationEvidence → ReferenceValuesType
  | .aws _ => .aws
  | .gcp _ => .gcp
  | .oak _ _ _ => .oak

def getRawBinaryEndorsement (lib : Platform) : AttestationEvidence → Except Throwable Bytes
  | .aws _ => .error
      { cls := .unsupportedOperationException,
        message := u "In-toto endorsements properties extraction not supported for AWS yet" }
  | .gcp _ => .error
      { cls := .unsupportedOperationException,
        message := u "In-toto endorsements properties extraction not supported for GCP yet" }
  | .oak _ endorsements _ =>
    let events := endorsements.filter (fun event => event.id = containerEndorsementId)
    match events with
    | [containerVariant] =>
      match lib.containerEndorsementBinary containerVariant.value with
      | .ok serialized => .ok serialized
      | .error e =>
        if e.instanceOf .invalidProtocolBufferException then .error
          { cls := .incorrectEndorsementFormatException,
            message := u "Failed to parse container endorsement" }
        else .error e
    | _ => .error
        { cls := .incorrectEndorsementFormatException,
          message := u "There should be exactly 1 container endorsement, got " ++
            natToString events.length }

end AttestationEvidence

/-! ## Policies -/

inductive BasicConstraintsType where
  | ca
  | leaf
  deriving DecidableEq, Repr

structure BasicConstraints where
  type : BasicConstraintsType
  pathLenConstraint : Int32
  deriving DecidableEq

inductive NameConstraint where
  | uri (domain : JString)
  | uriInTrustDomain (domain : JString)
  | dnsInTrustDomain (domain : JString)
  deriving DecidableEq

structure NameConstraints where
  permittedSubtrees : List NameConstraint
  deriving DecidableEq

structure X509Extensions where
  basicConstraints : Option BasicConstraints
  nameConstraints : Option NameConstraints
  deriving DecidableEq

/-- The attributes in the order the map iterates over them. -/
structure X500NameAttributes where
  attributes : List (JString × JString)
  deriving DecidableEq

structure X509CertificateAttributes where
  maxCertificateValidity : Duration
  extensions : X509Extensions
  certificateSubject : X500NameAttributes
  deriving DecidableEq

structure Policy where
  publisherId : JString
  workloadId : JString
  operatorDomain : JString
  operatorRole : JString
  referenceValuesList : List ReferenceValues
  certificateAttributes : X509CertificateAttributes
  deriving DecidableEq

/-- `Policies`: the identity a policy file is for and its policies by key. -/
structure Policies where
  issuer : JString
  subject : JString
  policiesMap : List (JString × Policy)

def Policies.get (p : Policies) (key : JString) : Option Policy := p.policiesMap.lookup key

/-- The certificate modifiers, each with what its constructor was given. -/
inductive CertificateModifier where
  | nameConstraints (permitted : List NameConstraint) (trustDomain : JString)
  | basicConstraints (constraints : BasicConstraints)
  | keyUsage (constraints : BasicConstraints)
  | subjectAlternativeName (policy : Policy) (tcaTrustDomain : JString)
  deriving DecidableEq

/-! ## Metrics -/

inductive IssuanceSubOperation where
  | extractPublicKey
  | validateAudience
  | endorsementMetadataParsing
  | policyResolution
  | verifierResolution
  | verifyAttestation
  | signCertificate
  deriving DecidableEq, Repr

inductive ProcessingStatus where
  | missingPolicy
  | missingVerifier
  | invalidAttestationToken
  | incorrectCertificateValidity
  | success
  | invalidCsr
  | audienceMismatch
  | signingError
  | invalidEvidence
  | policyIdentityMismatch
  deriving DecidableEq, Repr

end Tca
