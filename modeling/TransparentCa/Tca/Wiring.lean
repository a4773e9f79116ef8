import TransparentCa.Tca.AudienceBinding
import TransparentCa.Tca.CallEnding
import TransparentCa.Tca.Endorsement
import TransparentCa.Tca.OakVerifier
import TransparentCa.Tca.PolicyProvider
import TransparentCa.Tca.Signer

/- The service as `TransparentCaModule` wires it. Each call of a collaborator is answered by the
   class that is bound for it; what stays open is what lies outside: the trust package, the
   policy bucket, the clock, the two verifiers that ask for tokens of other clouds, the
   metrics, the certificate builder, and for a whole call the token parser and the two ends
   of the call. One spec lemma for each collaborator says what its runs look like, and
   `runs_wiredService` puts them together along the trace of a returned chain. -/
namespace Tca
open Java Mbs Effects Effects.Prog

/-! ## What is open -/

inductive WiredOp where
  | call (o : CallOp)
  | currentTimeMillis
  | verifyGcp (attestationToken : Bytes) (claimedPublicKey : PublicKey)
  | verifyAws (attestationToken : Bytes) (claimedPublicKey : PublicKey)
  | fetchFile (clientId : JString)
  | allowMetricsForClientId (clientId : JString)
  | build (builder : X509v3CertificateBuilder) (issuerPrivateKey : PrivateKey)
  deriving DecidableEq

abbrev WiredOp.Val : WiredOp → Type
  | .call o => o.Val
  | .currentTimeMillis => Int64
  | .verifyGcp _ _ => Bool
  | .verifyAws _ _ => Bool
  | .fetchFile _ => Option Bytes
  | .allowMetricsForClientId _ => Unit
  | .build _ _ => X509Certificate

abbrev WiredProg (α : Type) := Prog WiredOp WiredOp.Val Throwable α

abbrev WiredEvent := Event WiredOp WiredOp.Val Throwable

/-- A collaborator's call that is passed on. -/
def passOn (o : CaOp) : WiredProg o.Val := Prog.invoke (WiredOp.call (.ca o))

/-- The libraries under the classes. -/
structure TcaLibraries where
  platform : Platform
  signer : SignerPlatform
  policyFile : PolicyFileFormat
  jackson : JacksonReader
  java : OakPlatform
  oak : OakLibrary
  generatePublic : Bytes → Except Throwable PublicKey
  sha256 : Bytes → List.Vector UInt8 32
  metadata : AwsInstanceMetadata

/-! ## TransparentCaModule -/

namespace TransparentCaModule

/-- `provideVerifiers`: GCP, AWS and Oak, in the order of the map. -/
def verifiers : List (EvidenceClass × Nat) := [(.gcp, 0), (.aws, 1), (.oak, 2)]

section
variable (lib : TcaLibraries)

/-- The verifier of this place in the map; the cast of the evidence comes first in each. -/
def verify (verifier : Nat) (evidence : AttestationEvidence) (claimedPublicKey : PublicKey)
    (referenceValues : ReferenceValues) : WiredProg Bool :=
  match verifier, evidence with
  | 0, .gcp token => Prog.invoke (WiredOp.verifyGcp token claimedPublicKey)
  | 1, .aws token => Prog.invoke (WiredOp.verifyAws token claimedPublicKey)
  | 2, evidence => OakAttestationVerifier.verify lib.java lib.oak
      (Prog.invoke WiredOp.currentTimeMillis) evidence claimedPublicKey referenceValues
  | _, _ => throw { cls := .runtimeException, message := u "ClassCastException" }

/-- What the policy provider calls: the fetcher of the policy bucket and the service's metrics. -/
def answerPolicy : (o : FileSourcedPolicyProvider.PolicyOp) → WiredProg o.Val
  | .fetchFile clientId => Prog.invoke (WiredOp.fetchFile clientId)
  | .incrementProcessingCounter status => passOn (.incrementProcessingCounter status)
  | .allowMetricsForClientId clientId => Prog.invoke (WiredOp.allowMetricsForClientId clientId)

def build (builder : X509v3CertificateBuilder) (issuerPrivateKey : PrivateKey) :
    WiredProg X509Certificate :=
  Prog.invoke (WiredOp.build builder issuerPrivateKey)

/-- The class that answers each call of the service. -/
def bindings : (o : CaOp) → WiredProg o.Val
  | .getVerifier evidence => return AttestationVerifierProviderImpl.getVerifier verifiers evidence
  | .verify verifier evidence key rv => verify lib verifier evidence key rv
  | .signCsr args =>
    CertificateSignerImpl.signCsr lib.platform lib.signer (passOn .now) build args
  | .decodeRawPublicKey keyBytes =>
    Prog.ofExcept (PublicKeyDecoder.decodeRawPublicKey lib.generatePublic keyBytes)
  | .getPolicy identity publisherId workloadId =>
    (FileSourcedPolicyProvider.getPolicy FileSourcedPolicyProvider.openProvider lib.policyFile
      identity publisherId workloadId).interp answerPolicy
  | .getAnnotations statementBytes =>
    Prog.ofExcept (JsonIntotoEndorsementMetadataProvider.getAnnotations lib.jackson statementBytes)
  | .getValidity statementBytes =>
    Prog.ofExcept (JsonIntotoEndorsementMetadataProvider.getValidity lib.jackson statementBytes)
  | .createModifiers policy trustDomain =>
    return CertificateModifiersCreatorImpl.create policy trustDomain
  | .validateAudience key identity trustDomain =>
    Prog.ofExcept (OidcAudienceBindingValidator.validate lib.sha256 lib.metadata key identity
      trustDomain)
  | o => passOn o

/-- The same for everything that a call meets on its way through the server. -/
def serverBindings : (o : CallOp) → WiredProg o.Val
  | .ca o => bindings lib o
  | o => Prog.invoke (WiredOp.call o)

/-- The server with its bindings, for a call with this header and this message. -/
def wiredCall (authHeader : Option JString) (request : IssueCertificateRequest) : WiredProg Unit :=
  (handleCall lib.platform authHeader request).interp (serverBindings lib)

end

/-! ## What the collaborators' runs look like -/

section
variable {lib : TcaLibraries} {tr : List WiredEvent}

/-- GCP and AWS evidence has the first two verifiers, Oak's the third. -/
theorem getVerifier_oak (evidence : Bytes) (endorsements : List Variant) (signedPublicKey : Bytes) :
    AttestationVerifierProviderImpl.getVerifier verifiers
      (.oak evidence endorsements signedPublicKey) = some 2 := rfl

theorem runs_decodeRawPublicKey {keyBytes : Bytes} {key : PublicKey}
    (h : Runs (bindings lib (.decodeRawPublicKey keyBytes)) tr (.ok key)) :
    PublicKeyDecoder.decodeRawPublicKey lib.generatePublic keyBytes = .ok key :=
  (runs_ofExcept.mp h).2.symm

theorem runs_getAnnotations {statementBytes : Bytes} {annotations : EndorsementAnnotations}
    (h : Runs (bindings lib (.getAnnotations statementBytes)) tr (.ok annotations)) :
    JsonIntotoEndorsementMetadataProvider.getAnnotations lib.jackson statementBytes =
      .ok annotations :=
  (runs_ofExcept.mp h).2.symm

theorem runs_getValidity {statementBytes : Bytes} {validity : Validity}
    (h : Runs (bindings lib (.getValidity statementBytes)) tr (.ok validity)) :
    JsonIntotoEndorsementMetadataProvider.getValidity lib.jackson statementBytes = .ok validity :=
  (runs_ofExcept.mp h).2.symm

theorem runs_validateAudience {key : PublicKey} {identity : CallerIdentity} {trustDomain : JString}
    (h : Runs (bindings lib (.validateAudience key identity trustDomain)) tr (.ok ())) :
    OidcAudienceBindingValidator.validate lib.sha256 lib.metadata key identity trustDomain =
      .ok () :=
  (runs_ofExcept.mp h).2.symm

theorem runs_createModifiers {policy : Policy} {trustDomain : JString}
    {modifiers : List CertificateModifier}
    (h : Runs (bindings lib (.createModifiers policy trustDomain)) tr (.ok modifiers)) :
    modifiers = CertificateModifiersCreatorImpl.create policy trustDomain :=
  Except.ok.inj (runs_ret.mp h).2

theorem runs_getVerifier {evidence : AttestationEvidence} {v : Option Nat}
    (h : Runs (bindings lib (.getVerifier evidence)) tr (.ok v)) :
    v = AttestationVerifierProviderImpl.getVerifier verifiers evidence :=
  Except.ok.inj (runs_ret.mp h).2

/-- Oak's verifier reads the clock once, and says yes to what attests the key at that time. -/
theorem runs_verify_oak (hparse : lib.java.Parses lib.oak) {evidence : Bytes}
    {endorsements : List Variant} {signedPublicKey : Bytes} {key : PublicKey}
    {referenceValues : ReferenceValues}
    (h : Runs (bindings lib (.verify 2 (.oak evidence endorsements signedPublicKey) key
      referenceValues)) tr (.ok true)) :
    ∃ nowUtcMillis : Int64, tr = [⟨.currentTimeMillis, .ok nowUtcMillis⟩] ∧
      OakAttests lib.java lib.oak nowUtcMillis evidence endorsements signedPublicKey key
        referenceValues := by
  have hverify : Runs (OakAttestationVerifier.verify lib.java lib.oak
      (Prog.invoke WiredOp.currentTimeMillis) (.oak evidence endorsements signedPublicKey) key
      referenceValues) tr (.ok true) := h
  obtain ⟨_, _, _, nowUtcMillis, heq, hnow, hattests⟩ := (verify_true_iff hparse).mp hverify
  cases heq
  exact ⟨nowUtcMillis, runs_invoke.mp hnow, hattests⟩

/-- The policy stands under the ids in a file of the bucket, fetched under the caller's client id
and made out to the caller. -/
theorem runs_getPolicy {identity : CallerIdentity} {publisherId workloadId : JString}
    {policy : Policy}
    (h : Runs (bindings lib (.getPolicy identity publisherId workloadId)) tr (.ok (some policy))) :
    ∃ rawFile policies,
      (⟨.fetchFile identity.getClientId, .ok (some rawFile)⟩ : WiredEvent) ∈ tr ∧
      FileSourcedPolicyProvider.parsePolicies (lib.policyFile.toStringUtf8 rawFile)
        (FileSourcedPolicyProvider.parsers lib.policyFile) = .ok policies ∧
      policies.issuer = identity.issuer ∧ policies.subject = identity.subject ∧
      policies.get (FileSourcedPolicyProvider.policyKey publisherId workloadId) = some policy := by
  obtain ⟨tr₀, hrun, hexp⟩ := runs_interp h
  obtain ⟨rawFile, policies, rfl, hparse, hissuer, hsubject, hget⟩ :=
    FileSourcedPolicyProvider.runs_getPolicy_some.mp hrun
  obtain ⟨t, hfetch, hpart⟩ := hexp.of_mem List.mem_cons_self
  refine ⟨rawFile, policies, hpart.subset ?_, hparse, hissuer, hsubject, hget⟩
  rw [runs_invoke.mp hfetch]
  exact List.mem_singleton_self _

theorem runs_signCsr {args : SignCsr} {certificate : X509Certificate}
    (h : Runs (bindings lib (.signCsr args)) tr (.ok certificate)) :
    ∃ csrPublicKeyInfo clock serial builder,
      lib.platform.subjectPublicKeyInfo args.csrBytes = .ok csrPublicKeyInfo ∧
      clock.toEpochMilli = .ok serial ∧
      CertificateSignerImpl.certBuilder lib.signer args csrPublicKeyInfo serial = .ok builder ∧
      tr = [⟨.call (.ca .now), .ok clock⟩,
        ⟨.build builder args.issuerPrivateKey, .ok certificate⟩] := by
  have hbody := (runs_handle_ok (by simp)).mp h
  simp only [bind_eq, passOn, build, runs_ofExcept_bind, runs_invoke_bind] at hbody
  obtain ⟨info, hinfo, clock, t, rfl, serial, hserial, builder, hbuilder, hbuild⟩ := hbody
  exact ⟨info, clock, serial, builder, hinfo, hserial, hbuilder, by rw [runs_invoke.mp hbuild]⟩

/-! ## Which calls each collaborator makes -/

/-- What lies behind a collaborator. -/
def Reaches : CaOp → WiredOp → Prop
  | .signCsr _, .call (.ca .now) => True
  | .signCsr _, .build _ _ => True
  | .verify _ _ _ _, .currentTimeMillis => True
  | .verify _ _ _ _, .verifyGcp _ _ => True
  | .verify _ _ _ _, .verifyAws _ _ => True
  | .getPolicy _ _ _, .fetchFile _ => True
  | .getPolicy _ _ _, .allowMetricsForClientId _ => True
  | .getPolicy _ _ _, .call (.ca (.incrementProcessingCounter _)) => True
  | o, .call (.ca o') => o = o'
  | _, _ => False

theorem uses_bindings (o : CaOp) : (bindings lib o).Uses (Reaches o) := by
  cases o with
  | signCsr args =>
    refine Uses.handle ?_ (fun e => trivial)
    exact Uses.bind (Uses.ofExcept _) (fun info => Uses.bind (Uses.invoke trivial) (fun clock =>
      Uses.bind (Uses.ofExcept _) (fun serial => Uses.bind (Uses.ofExcept _) (fun builder =>
        Uses.invoke trivial))))
  | verify verifier evidence key referenceValues =>
    show (verify lib verifier evidence key referenceValues).Uses _
    unfold verify
    split
    · exact Uses.invoke trivial
    · exact Uses.invoke trivial
    · exact uses_verify (Uses.invoke trivial) _ _ _
    · trivial
  | getPolicy identity publisherId workloadId =>
    refine uses_interp (uses_true _) (fun o _ => ?_)
    cases o <;> exact Uses.invoke trivial
  | decodeRawPublicKey keyBytes => exact Uses.ofExcept _
  | getAnnotations statementBytes => exact Uses.ofExcept _
  | getValidity statementBytes => exact Uses.ofExcept _
  | validateAudience key identity trustDomain => exact Uses.ofExcept _
  | getVerifier evidence => trivial
  | createModifiers policy trustDomain => trivial
  | _ => exact Uses.invoke rfl

/-- The certificates that were built, each with what the builder held and the key that signed. -/
def builds (tr : List WiredEvent) : List (X509v3CertificateBuilder × PrivateKey) :=
  tr.filterMap (fun ev => match ev.op with
    | .build builder issuerPrivateKey => some (builder, issuerPrivateKey)
    | _ => none)

@[simp] theorem builds_append (tr tr' : List WiredEvent) :
    builds (tr ++ tr') = builds tr ++ builds tr' := List.filterMap_append

/-- Only the signer builds. -/
theorem builds_eq_nil {tr₀ : List CaEvent} (hexp : Expands (bindings lib) tr₀ tr)
    (h : ∀ ev ∈ tr₀, ∀ args, ev.op ≠ .signCsr args) : builds tr = [] := by
  refine List.filterMap_eq_nil_iff.mpr (fun ev hev => ?_)
  obtain ⟨ev₀, hev₀, hreaches⟩ := hexp.reaches uses_bindings hev
  have hnot := h ev₀ hev₀
  generalize ev.op = o at hreaches
  generalize ev₀.op = o₀ at hreaches hnot
  cases o with
  | build builder issuerPrivateKey =>
    cases o₀ <;> first | exact absurd rfl (hnot _) | exact hreaches.elim
  | _ => rfl

end
end TransparentCaModule
end Tca
