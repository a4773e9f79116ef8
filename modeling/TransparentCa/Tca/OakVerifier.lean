import TransparentCa.Lib.JavaCollections
import TransparentCa.Tca.Service

/- `OakAttestationVerifier`, down to the native library: the Java class that checks the binding
   of the key, `OakEvidenceVerifier`, and the Rust function behind it, which chooses one of
   Oak's verifiers by the platform of the evidence's root layer. Oak's verifiers, the
   protobuf codecs of both sides and the JDK's signatures are parameters. The checked
   `AttestationVerificationException` never leaves the class; `verify_true_iff` says exactly
   when `verify` is true. -/
namespace Tca
open Java Mbs Effects Effects.Prog

/-! ## Messages -/

inductive AttestationResults.Status where
  | unspecified
  | success
  | genericFailure
  deriving DecidableEq, Repr

/-- What the verification of one event brought to light, by name. -/
structure EventAttestationResults where
  artifacts : JMap JString Bytes
  deriving DecidableEq

structure AttestationResults where
  status : AttestationResults.Status := .unspecified
  reason : JString := []
  eventAttestationResults : List EventAttestationResults := []
  deriving DecidableEq

inductive TeePlatform where
  | unspecified
  | amdSevSnp
  | intelTdx
  | none
  deriving DecidableEq, Repr

/-- The text of an `anyhow::Error`. -/
abbrev RustError := JString

/-- The messages of `oak.attestation.v1` as prost decodes them, and Oak's verifiers, each made
for the millisecond its clock is fixed at and for the reference values. -/
structure OakLibrary where
  Evidence : Type
  Endorsements : Type
  ReferenceValues : Type
  decodeEvidence : Bytes → Except RustError Evidence
  decodeEndorsements : Bytes → Except RustError Endorsements
  decodeReferenceValues : Bytes → Except RustError ReferenceValues
  rootLayerPlatform : Evidence → Option TeePlatform
  createAmdVerifier : Int64 → ReferenceValues →
    Except RustError (Evidence → Endorsements → Except RustError AttestationResults)
  createIntelTdxVerifier : Int64 → ReferenceValues →
    Except RustError (Evidence → Endorsements → Except RustError AttestationResults)
  createInsecureVerifier : Int64 → ReferenceValues →
    Except RustError (Evidence → Endorsements → Except RustError AttestationResults)
  unsupportedPlatform : TeePlatform → RustError
  encodeToVec : AttestationResults → Bytes

/-- The Java side: `Endorsements.toByteArray`, `AttestationResults.parseFrom`, Tink's
`EllipticCurves.getEcPublicKey` for an uncompressed point of P-256, and
`SHA256withECDSAinP1363Format` over `data`. -/
structure OakPlatform where
  endorsementsToByteArray : List Variant → Bytes
  parseFrom : Bytes → Except Throwable AttestationResults
  getEcPublicKey : Bytes → Except Throwable PublicKey
  verifySignature : (key : PublicKey) → (data signature : Bytes) → Except Throwable Bool

/-! ## interface.rs -/

namespace OakLibrary

variable (oak : OakLibrary)

/-- The verifier for this platform. -/
def createVerifier (platform : TeePlatform) (nowUtcMillis : Int64)
    (referenceValues : oak.ReferenceValues) :
    Except RustError (oak.Evidence → oak.Endorsements → Except RustError AttestationResults) :=
  match platform with
  | .amdSevSnp => oak.createAmdVerifier nowUtcMillis referenceValues
  | .intelTdx => oak.createIntelTdxVerifier nowUtcMillis referenceValues
  | .none => oak.createInsecureVerifier nowUtcMillis referenceValues
  | .unspecified => .error (oak.unsupportedPlatform .unspecified)

def verifyAttestationInner (nowUtcMillis : Int64)
    (evidenceBytes endorsementsBytes referenceValuesBytes : Bytes) :
    Except RustError AttestationResults := do
  let evidence ← oak.decodeEvidence evidenceBytes
  let endorsements ← oak.decodeEndorsements endorsementsBytes
  let referenceValues ← oak.decodeReferenceValues referenceValuesBytes
  match oak.rootLayerPlatform evidence with
  | none => .error (u "extracting root layer from evidence")
  | some platform => do
    let verifier ← oak.createVerifier platform nowUtcMillis referenceValues
    verifier evidence endorsements

/-- Of the results only those of the events are handed on. -/
def attestationResults (nowUtcMillis : Int64)
    (evidenceBytes endorsementsBytes referenceValuesBytes : Bytes) : AttestationResults :=
  match oak.verifyAttestationInner nowUtcMillis evidenceBytes endorsementsBytes
      referenceValuesBytes with
  | .ok results =>
    { status := .success, eventAttestationResults := results.eventAttestationResults }
  | .error err => { status := .genericFailure, reason := err }

def verifyAttestation (nowUtcMillis : Int64)
    (evidenceBytes endorsementsBytes referenceValuesBytes : Bytes) : Bytes :=
  oak.encodeToVec (oak.attestationResults nowUtcMillis evidenceBytes endorsementsBytes
    referenceValuesBytes)

end OakLibrary

/-- What the Rust side of the bridge encodes, the Java side parses. -/
def OakPlatform.Parses (java : OakPlatform) (oak : OakLibrary) : Prop :=
  ∀ nowUtcMillis evidenceBytes endorsementsBytes referenceValuesBytes,
    java.parseFrom (oak.verifyAttestation nowUtcMillis evidenceBytes endorsementsBytes
        referenceValuesBytes) =
      .ok (oak.attestationResults nowUtcMillis evidenceBytes endorsementsBytes
        referenceValuesBytes)

/-! ## OakEvidenceVerifier -/

/-- What the Java side may throw: its own checked exception, or any other. -/
inductive OakException where
  | attestationVerification (message : JString)
  | other (e : Throwable)
  deriving DecidableEq

section
variable (java : OakPlatform) (oak : OakLibrary)

/-- An exception of the JDK or of protobuf. -/
def orOther {α : Type} : Except Throwable α → Except OakException α
  | .ok a => .ok a
  | .error e => .error (.other e)

namespace OakEvidenceVerifier

def verify (nowUtcMillis : Int64) (evidenceBytes endorsementsBytes referenceValuesBytes : Bytes) :
    Except OakException AttestationResults :=
  match java.parseFrom
    (oak.verifyAttestation nowUtcMillis evidenceBytes endorsementsBytes referenceValuesBytes) with
  | .ok attestationResults =>
    if attestationResults.status = .success then .ok attestationResults
    else .error (.attestationVerification attestationResults.reason)
  | .error e =>
    if e.instanceOf .invalidProtocolBufferException then .error (.attestationVerification
      (u "Failed to parse AttestationResults protobuf: " ++ e.message))
    else .error (.other e)

end OakEvidenceVerifier

/-! ## OakAttestationVerifier -/

namespace OakAttestationVerifier

def oakSigningPublicKeyEcdsaP256 : JString := u "oak-signing-public-key:ecdsa-p256"

/-- The signing keys among the artifacts of all events. -/
def instanceSigningKeys (results : List EventAttestationResults) : List Bytes :=
  results.flatMap (fun ear =>
    (ear.artifacts.val.filter (fun entry => entry.1 = oakSigningPublicKeyEcdsaP256)).map Prod.snd)

def verifyBinding (results : AttestationResults) (signedPublicKey : Bytes)
    (claimedPublicKey : PublicKey) : Except OakException Unit :=
  match instanceSigningKeys results.eventAttestationResults with
  | [keyBytes] => do
    let instanceSigningKey ← orOther (java.getEcPublicKey keyBytes)
    let valid ← orOther
      (java.verifySignature instanceSigningKey claimedPublicKey.encoded signedPublicKey)
    if valid then .ok () else .error (.attestationVerification
      (u "CSR public key binding verification failed: Invalid signature."))
  | keys => .error (.attestationVerification
      (u "Attestation results must contain exactly one signing public key, but found " ++
        natToString keys.length))

/-- The body of the `try`, at this millisecond. -/
def verifyAt (nowUtcMillis : Int64) (evidence : Bytes) (endorsements : List Variant)
    (signedPublicKey : Bytes) (claimedPublicKey : PublicKey) (referenceValues : ReferenceValues) :
    Except OakException Unit := do
  let results ← OakEvidenceVerifier.verify java oak nowUtcMillis evidence
    (java.endorsementsToByteArray endorsements) referenceValues.raw
  verifyBinding java results signedPublicKey claimedPublicKey

variable {Op : Type} {Val : Op → Type}

/-- The clause `catch (AttestationVerificationException | GeneralSecurityException e)`. -/
def outcome : Except OakException Unit → CaProg Op Val Bool
  | .ok _ => return true
  | .error (.attestationVerification _) => return false
  | .error (.other e) => if e.instanceOf .generalSecurityException then return false else throw e

/-- The cast of the evidence fails for another kind of it. -/
def verify (currentTimeMillis : CaProg Op Val Int64) (evidence : AttestationEvidence)
    (claimedPublicKey : PublicKey) (referenceValues : ReferenceValues) : CaProg Op Val Bool :=
  match evidence with
  | .oak evidence endorsements signedPublicKey => do
    let nowUtcMillis ← currentTimeMillis
    outcome (verifyAt java oak nowUtcMillis evidence endorsements signedPublicKey
      claimedPublicKey referenceValues)
  | _ => throw { cls := .runtimeException, message := u "ClassCastException" }

end OakAttestationVerifier
end

/-! ## When the evidence attests the key -/

/-- Everything decodes, and the verifier for the platform of the root layer accepts. -/
def OakLibrary.Accepts (oak : OakLibrary) (nowUtcMillis : Int64)
    (evidenceBytes endorsementsBytes referenceValuesBytes : Bytes) (results : AttestationResults) :
    Prop :=
  ∃ evidence endorsements referenceValues platform verifier,
    oak.decodeEvidence evidenceBytes = .ok evidence ∧
    oak.decodeEndorsements endorsementsBytes = .ok endorsements ∧
    oak.decodeReferenceValues referenceValuesBytes = .ok referenceValues ∧
    oak.rootLayerPlatform evidence = some platform ∧
    oak.createVerifier platform nowUtcMillis referenceValues = .ok verifier ∧
    verifier evidence endorsements = .ok results

/-- All events together name one signing key, and it signed the claimed key. -/
def OakPlatform.Binds (java : OakPlatform) (results : List EventAttestationResults)
    (signedPublicKey : Bytes) (claimedPublicKey : PublicKey) : Prop :=
  ∃ keyBytes instanceSigningKey,
    OakAttestationVerifier.instanceSigningKeys results = [keyBytes] ∧
    java.getEcPublicKey keyBytes = .ok instanceSigningKey ∧
    java.verifySignature instanceSigningKey claimedPublicKey.encoded signedPublicKey = .ok true

/-- The evidence, checked against these reference values at this millisecond, attests the key. -/
def OakAttests (java : OakPlatform) (oak : OakLibrary) (nowUtcMillis : Int64) (evidence : Bytes)
    (endorsements : List Variant) (signedPublicKey : Bytes) (claimedPublicKey : PublicKey)
    (referenceValues : ReferenceValues) : Prop :=
  ∃ results, oak.Accepts nowUtcMillis evidence (java.endorsementsToByteArray endorsements)
      referenceValues.raw results ∧
    java.Binds results.eventAttestationResults signedPublicKey claimedPublicKey

section
variable {java : OakPlatform} {oak : OakLibrary} {nowUtcMillis : Int64}

theorem result_bind_eq_ok {ε α β : Type} {x : Except ε α} {f : α → Except ε β} {b : β} :
    (x >>= f) = .ok b ↔ ∃ a, x = .ok a ∧ f a = .ok b := by
  cases x <;> simp [Bind.bind, Except.bind]

theorem orOther_eq_ok {α : Type} {x : Except Throwable α} {a : α} :
    orOther x = .ok a ↔ x = .ok a := by
  cases x <;> simp [orOther]

theorem verifyAttestationInner_eq_ok
    {evidenceBytes endorsementsBytes referenceValuesBytes : Bytes} {results : AttestationResults} :
    oak.verifyAttestationInner nowUtcMillis evidenceBytes endorsementsBytes referenceValuesBytes =
        .ok results ↔
      oak.Accepts nowUtcMillis evidenceBytes endorsementsBytes referenceValuesBytes results := by
  simp only [OakLibrary.verifyAttestationInner, result_bind_eq_ok]
  refine ⟨fun h => ?_, fun h => ?_⟩
  · obtain ⟨evidence, hevidence, endorsements, hendorsements, referenceValues, hvalues, h⟩ := h
    cases hplatform : oak.rootLayerPlatform evidence with
    | none => simp [hplatform] at h
    | some platform =>
      simp only [hplatform, result_bind_eq_ok] at h
      obtain ⟨verifier, hverifier, haccept⟩ := h
      exact ⟨evidence, endorsements, referenceValues, platform, verifier, hevidence, hendorsements,
        hvalues, hplatform, hverifier, haccept⟩
  · obtain ⟨evidence, endorsements, referenceValues, platform, verifier, hevidence, hendorsements,
      hvalues, hplatform, hverifier, haccept⟩ := h
    refine ⟨evidence, hevidence, endorsements, hendorsements, referenceValues, hvalues, ?_⟩
    simp only [hplatform, result_bind_eq_ok]
    exact ⟨verifier, hverifier, haccept⟩

/-- Across the bridge, success means that Oak's verifier accepted, and the events' results are
its own. -/
theorem evidenceVerifier_eq_ok (hparse : java.Parses oak)
    {evidenceBytes endorsementsBytes referenceValuesBytes : Bytes} {results : AttestationResults} :
    OakEvidenceVerifier.verify java oak nowUtcMillis evidenceBytes endorsementsBytes
        referenceValuesBytes = .ok results ↔
      ∃ accepted, oak.Accepts nowUtcMillis evidenceBytes endorsementsBytes referenceValuesBytes
          accepted ∧
        results = { status := .success
                    eventAttestationResults := accepted.eventAttestationResults } := by
  simp only [OakEvidenceVerifier.verify, hparse nowUtcMillis, ← verifyAttestationInner_eq_ok]
  cases hinner : oak.verifyAttestationInner nowUtcMillis evidenceBytes endorsementsBytes
    referenceValuesBytes with
  | error err => simp [OakLibrary.attestationResults, hinner]
  | ok accepted => simp [OakLibrary.attestationResults, hinner, eq_comm]

theorem verifyBinding_eq_ok {results : AttestationResults} {signedPublicKey : Bytes}
    {claimedPublicKey : PublicKey} :
    OakAttestationVerifier.verifyBinding java results signedPublicKey claimedPublicKey = .ok () ↔
      java.Binds results.eventAttestationResults signedPublicKey claimedPublicKey := by
  unfold OakAttestationVerifier.verifyBinding OakPlatform.Binds
  split
  · rename_i keyBytes hkeys
    simp only [result_bind_eq_ok, orOther_eq_ok]
    refine ⟨fun h => ?_, fun h => ?_⟩
    · obtain ⟨signingKey, hkey, valid, hvalid, h⟩ := h
      cases valid with
      | true => exact ⟨keyBytes, signingKey, hkeys, hkey, hvalid⟩
      | false => simp at h
    · obtain ⟨keyBytes', signingKey, hkeys', hkey, hvalid⟩ := h
      obtain rfl := (List.cons.inj (hkeys.symm.trans hkeys')).1
      exact ⟨signingKey, hkey, true, hvalid, rfl⟩
  · rename_i hkeys
    refine ⟨fun h => by simp at h, fun h => ?_⟩
    obtain ⟨keyBytes, -, hone, -⟩ := h
    exact absurd hone (hkeys keyBytes)

theorem verifyAt_eq_ok (hparse : java.Parses oak) {evidence : Bytes} {endorsements : List Variant}
    {signedPublicKey : Bytes} {claimedPublicKey : PublicKey} {referenceValues : ReferenceValues} :
    OakAttestationVerifier.verifyAt java oak nowUtcMillis evidence endorsements signedPublicKey
        claimedPublicKey referenceValues = .ok () ↔
      OakAttests java oak nowUtcMillis evidence endorsements signedPublicKey claimedPublicKey
        referenceValues := by
  simp only [OakAttestationVerifier.verifyAt, result_bind_eq_ok, evidenceVerifier_eq_ok hparse,
    verifyBinding_eq_ok]
  refine ⟨fun h => ?_, fun h => ?_⟩
  · obtain ⟨_, ⟨accepted, haccepts, rfl⟩, hbinds⟩ := h
    exact ⟨accepted, haccepts, hbinds⟩
  · obtain ⟨accepted, haccepts, hbinds⟩ := h
    exact ⟨_, ⟨accepted, haccepts, rfl⟩, hbinds⟩

variable {Op : Type} {Val : Op → Type} {tr : List (Event Op Val Throwable)}

theorem runs_outcome_true {result : Except OakException Unit} :
    Runs (OakAttestationVerifier.outcome result) tr (.ok true) ↔ tr = [] ∧ result = .ok () := by
  cases result with
  | ok _ => simp [OakAttestationVerifier.outcome]
  | error e =>
    cases e with
    | attestationVerification message => simp [OakAttestationVerifier.outcome]
    | other e =>
      by_cases he : e.instanceOf .generalSecurityException <;>
        simp [OakAttestationVerifier.outcome, he]

theorem uses_outcome {P : Op → Prop} (result : Except OakException Unit) :
    (OakAttestationVerifier.outcome result : CaProg Op Val Bool).Uses P := by
  cases result with
  | ok _ => trivial
  | error e =>
    cases e with
    | attestationVerification message => trivial
    | other e =>
      simp only [OakAttestationVerifier.outcome]
      split <;> trivial

/-- The clock is all that `verify` asks. -/
theorem uses_verify {P : Op → Prop} {currentTimeMillis : CaProg Op Val Int64}
    (hclock : currentTimeMillis.Uses P) (evidence : AttestationEvidence)
    (claimedPublicKey : PublicKey) (referenceValues : ReferenceValues) :
    (OakAttestationVerifier.verify java oak currentTimeMillis evidence claimedPublicKey
      referenceValues).Uses P := by
  cases evidence with
  | aws token => trivial
  | gcp token => trivial
  | oak evidenceBytes endorsements signedPublicKey =>
    exact Uses.bind hclock (fun _ => uses_outcome _)

/-- `verify` is true when the evidence attests the key at the time that was read. -/
theorem verify_true_iff (hparse : java.Parses oak) {currentTimeMillis : CaProg Op Val Int64}
    {evidence : AttestationEvidence} {claimedPublicKey : PublicKey}
    {referenceValues : ReferenceValues} :
    Runs (OakAttestationVerifier.verify java oak currentTimeMillis evidence claimedPublicKey
        referenceValues) tr (.ok true) ↔
      ∃ evidenceBytes endorsements signedPublicKey nowUtcMillis,
        evidence = .oak evidenceBytes endorsements signedPublicKey ∧
        Runs currentTimeMillis tr (.ok nowUtcMillis) ∧
        OakAttests java oak nowUtcMillis evidenceBytes endorsements signedPublicKey
          claimedPublicKey referenceValues := by
  cases evidence with
  | aws token => simp [OakAttestationVerifier.verify]
  | gcp token => simp [OakAttestationVerifier.verify]
  | oak evidenceBytes endorsements signedPublicKey =>
    simp only [OakAttestationVerifier.verify, bind_eq, runs_bind_ok, runs_outcome_true,
      verifyAt_eq_ok hparse]
    refine ⟨fun h => ?_, fun h => ?_⟩
    · obtain ⟨nowUtcMillis, t, _, rfl, hnow, rfl, hattests⟩ := h
      exact ⟨evidenceBytes, endorsements, signedPublicKey, nowUtcMillis, rfl,
        by rwa [List.append_nil], hattests⟩
    · obtain ⟨_, _, _, nowUtcMillis, heq, hnow, hattests⟩ := h
      cases heq
      exact ⟨nowUtcMillis, tr, [], (List.append_nil tr).symm, hnow, rfl, hattests⟩

end

/-! ## PublicKeyDecoder -/

/-- `decodeRawPublicKey`, with `KeyFactory.getInstance("RSA").generatePublic` a parameter. -/
def PublicKeyDecoder.decodeRawPublicKey (generatePublic : Bytes → Except Throwable PublicKey)
    (keyBytes : Bytes) : Except Throwable PublicKey :=
  if keyBytes.val.length = 0 then .error
    { cls := .illegalArgumentException, message := u "Public key bytes cannot be null or empty." }
  else tryCatch (generatePublic keyBytes) (fun e =>
    if e.caughtBy [.invalidKeySpecException, .noSuchAlgorithmException] then .error
      { cls := .illegalArgumentException, message := u "Failed to decode public key as RSA." }
    else .error e)

end Tca
