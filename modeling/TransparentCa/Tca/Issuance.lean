import TransparentCa.Tca.Service

/- What a returned chain says. `issueCertificate` has a dozen exits; a run that returns has
   passed all of them, and `runs_issueCertificate` reads off its whole trace: which calls
   were made, with which arguments and answers. The guarantee for the caller follows from
   the trace: one root, its own key, the policy and the reference value this evidence was
   checked against, and one call of the signer. -/
namespace Tca
open Java Mbs Effects Effects.Prog

abbrev CaEvent := Event CaOp CaOp.Val Throwable

/-- The call `o` with the answer `v`. -/
def returned (o : CaOp) (v : o.Val) : CaEvent := ⟨o, .ok v⟩

/-! ## Spec lemmas, one for each step -/

section
variable {α β : Type} {tr : List CaEvent} {b : β} {svc : TransparentCaService CaOp CaOp.Val}

theorem runs_ask_bind {o : CaOp} {f : o.Val → CaProg CaOp CaOp.Val β} :
    Runs (Prog.bind (α := no_index o.Val) (ask o) f) tr (.ok b) ↔
      ∃ v t, tr = returned o v :: t ∧ Runs (f v) t (.ok b) :=
  runs_invoke_bind

theorem runs_headBundle_bind {trustPackage : TrustPackage}
    {f : SelfSignedBundle → CaProg CaOp CaOp.Val β} :
    Runs ((headBundle trustPackage).bind f) tr (.ok b) ↔
      ∃ root, trustPackage.selfSignedBundles.head? = some root ∧ Runs (f root) tr (.ok b) := by
  unfold headBundle
  cases trustPackage.selfSignedBundles <;> simp

theorem runs_getOrFail_bind {opt : Option α} {status : ProcessingStatus} {e : Throwable}
    {f : α → CaProg CaOp CaOp.Val β} :
    Runs ((getOrFail svc opt status e).bind f) tr (.ok b) ↔
      ∃ a, opt = some a ∧ Runs (f a) tr (.ok b) := by
  cases opt with
  | some a => simp [getOrFail]
  | none => simp [getOrFail, bind_assoc, not_runs_bind_raise]

theorem runs_failIf_bind {failed : Prop} [Decidable failed] {status : ProcessingStatus}
    {e : Throwable} {f : Unit → CaProg CaOp CaOp.Val β} :
    Runs ((failIf svc failed status e).bind f) tr (.ok b) ↔
      ¬ failed ∧ Runs (f ()) tr (.ok b) := by
  by_cases hf : failed <;> simp [failIf, hf, bind_assoc, not_runs_bind_raise]

theorem runs_countFailure_bind {cs : List ThrowableClass} {status : ProcessingStatus}
    {rethrow : Throwable → Throwable} {p : CaProg CaOp CaOp.Val α}
    {f : α → CaProg CaOp CaOp.Val β} :
    Runs ((countFailure svc cs status rethrow p).bind f) tr (.ok b) ↔
      Runs (p.bind f) tr (.ok b) := by
  apply runs_handle_bind
  intro e t a
  by_cases he : e.caughtBy cs
  · simp [he, not_runs_bind_raise]
  · simp [he]

/-- The calls of a search that asked about `rejected` in vain and then found `rv`. -/
def verifications (v : Nat) (evidence : AttestationEvidence) (key : PublicKey)
    (rejected : List ReferenceValues) (rv : ReferenceValues) : List CaEvent :=
  rejected.map (fun r => returned (.verify v evidence key r) false) ++
    [returned (.verify v evidence key rv) true]

/-- A search that found something asked about a prefix of the list in vain and then found
the next element. -/
theorem runs_anyMatch_true {v : Nat} {evidence : AttestationEvidence} {key : PublicKey}
    (rvs : List ReferenceValues) {tr : List CaEvent}
    (h : Runs (anyMatch (fun rv => ask (.verify v evidence key rv)) rvs) tr (.ok true)) :
    ∃ rejected, ∃ rv ∈ rvs, tr = verifications v evidence key rejected rv := by
  induction rvs generalizing tr with
  | nil => simp [anyMatch] at h
  | cons rv rvs ih =>
    simp only [anyMatch, bind_eq, pure_eq, runs_ask_bind] at h
    obtain ⟨answer, t, rfl, h⟩ := h
    cases answer with
    | true =>
      simp only [if_true, runs_ret] at h
      exact ⟨[], rv, List.mem_cons_self, by rw [h.1]; rfl⟩
    | false =>
      obtain ⟨rejected, rv', hmem, rfl⟩ := ih (by simpa using h)
      exact ⟨rv :: rejected, rv', List.mem_cons_of_mem rv hmem, rfl⟩

end

/-! ## The trace of a successful issuance -/

/-- The values a run that returns has passed along. -/
structure Issuance where
  csrPublicKeyBytes : Bytes
  csrPublicKey : PublicKey
  trustPackage : TrustPackage
  rootBundle : SelfSignedBundle
  trustDomain : JString
  endorsement : Bytes
  annotations : EndorsementAnnotations
  validity : Validity
  policy : Policy
  verifier : Nat
  rejected : List ReferenceValues
  referenceValues : ReferenceValues
  now : Instant
  expiration : Instant
  modifiers : List CertificateModifier
  subject : Bytes
  signedCertificate : X509Certificate

namespace Issuance

variable (x : Issuance) (request : CertificateIssuanceRequest) (caller : CallerIdentity)

def signCsr : SignCsr where
  csrBytes := request.certificateSigningRequest
  issuerCert := x.rootBundle.certificate
  issuerPrivateKey := x.rootBundle.privateKey
  notBefore := max x.now x.validity.notBefore
  notAfter := min x.expiration x.validity.notAfter
  modifiers := x.modifiers
  subject := x.subject

def trace : List CaEvent :=
  [returned .startIssuanceTimer (),
   returned (.decodeRawPublicKey x.csrPublicKeyBytes) x.csrPublicKey,
   returned (.recordSubOperationAndResetTimer .extractPublicKey) (),
   returned .getActiveTrustPackage x.trustPackage,
   returned (.validateAudience x.csrPublicKey caller x.trustDomain) (),
   returned (.recordSubOperationAndResetTimer .validateAudience) (),
   returned (.getAnnotations x.endorsement) x.annotations,
   returned (.getValidity x.endorsement) x.validity,
   returned (.recordSubOperationAndResetTimer .endorsementMetadataParsing) (),
   returned (.getPolicy caller x.annotations.publisherId x.annotations.workloadId)
     (some x.policy),
   returned (.recordSubOperationAndResetTimer .policyResolution) (),
   returned (.getVerifier request.attestationEvidence) (some x.verifier),
   returned (.recordSubOperationAndResetTimer .verifierResolution) ()] ++
  verifications x.verifier request.attestationEvidence x.csrPublicKey x.rejected
    x.referenceValues ++
  [returned (.recordSubOperationAndResetTimer .verifyAttestation) (),
   returned .now x.now,
   returned (.createModifiers x.policy x.trustDomain) x.modifiers,
   returned (.signCsr (x.signCsr request)) x.signedCertificate,
   returned (.recordSubOperationAndResetTimer .signCertificate) (),
   returned (.incrementProcessingCounter .success) (),
   returned (.incrementCertificateIssuanceCounter caller.getClientId) ()]

def chain : List X509Certificate :=
  x.signedCertificate :: x.trustPackage.crossSignedCertificates ++ [x.rootBundle.certificate]

/-- The checks the service makes itself, between the calls. -/
structure Checked (lib : Platform) : Prop where
  csrKey : lib.subjectPublicKeyInfo request.certificateSigningRequest = .ok x.csrPublicKeyBytes
  root : x.trustPackage.selfSignedBundles.head? = some x.rootBundle
  trustDomain : TrustDomainExtractor.extract lib x.rootBundle.certificate = .ok x.trustDomain
  endorsement : request.attestationEvidence.getRawBinaryEndorsement lib = .ok x.endorsement
  referenceValues_mem : x.referenceValues ∈ x.policy.referenceValuesList
  referenceValues_type :
    x.referenceValues.type = request.attestationEvidence.getReferenceValuesType
  expiration : x.now.plus x.policy.certificateAttributes.maxCertificateValidity = .ok x.expiration
  validity : (x.signCsr request).notBefore ≤ (x.signCsr request).notAfter
  subject : lib.x500Principal x.policy.certificateAttributes.certificateSubject.attributes =
    .ok x.subject

end Issuance

/-! ## What a returned chain guarantees -/

section
variable {lib : Platform} {request : CertificateIssuanceRequest} {caller : CallerIdentity}
  {tr : List CaEvent} {chain : List X509Certificate}

/-- A run that returns passed every check and made exactly the calls of `Issuance.trace`. -/
theorem runs_issueCertificate
    (h : Runs (issueCertificate openService lib request caller) tr (.ok chain)) :
    ∃ x : Issuance, x.Checked request lib ∧ tr = x.trace request caller ∧ chain = x.chain := by
  -- Walk the program forward: every step of it has one way to go on.
  simp only [issueCertificate, openService, extractPublicKey, createSubjectPrincipal, bind_eq,
    pure_eq, Prog.bind_assoc, bind_ret, runs_ask_bind, runs_countFailure_bind,
    runs_finallyDo_bind, runs_headBundle_bind, runs_getOrFail_bind, runs_ofExcept_bind] at h
  obtain ⟨⟨⟩, t, rfl, keyBytes, hkeyBytes, key, t, rfl, ⟨⟩, t, rfl, trustPackage, t, rfl,
    root, hroot, trustDomain, htrustDomain, ⟨⟩, t, rfl, ⟨⟩, t, rfl, h⟩ := h
  obtain ⟨endorsement, hendorsement, annotations, t, rfl, endorsement', hendorsement', validity,
    t, rfl, ⟨⟩, t, rfl, policyOpt, t, rfl, policy, rfl, ⟨⟩, t, rfl, h⟩ := h
  obtain rfl : endorsement = endorsement' := by
    rw [hendorsement] at hendorsement'
    exact Except.ok.inj hendorsement'
  obtain ⟨verifierOpt, t, rfl, verify, hverifier, ⟨⟩, t, rfl, h⟩ := h
  obtain ⟨verifier, rfl, rfl⟩ := Option.map_eq_some_iff.mp hverifier
  obtain ⟨verified, t₁, t₂, rfl, hsearch, h⟩ := runs_bind_ok.mp h
  simp only [runs_ask_bind, runs_failIf_bind, runs_ofExcept_bind, Prog.bind_assoc,
    runs_finallyDo_bind, runs_countFailure_bind, runs_ret, Bool.not_eq_false, not_lt, gt_iff_lt]
    at h
  obtain ⟨⟨⟩, t, rfl, rfl, now, t, rfl, expiration, hexpiration, hvalid, modifiers, t, rfl,
    subject, hsubject, leaf, t, rfl, ⟨⟩, t, rfl, ⟨⟩, t, rfl, ⟨⟩, t, rfl, rfl, hchain⟩ := h
  obtain ⟨rejected, rv, hrv, rfl⟩ := runs_anyMatch_true _ hsearch
  obtain ⟨hmem, htype⟩ := List.mem_filter.mp hrv
  refine ⟨⟨keyBytes, key, trustPackage, root, trustDomain, endorsement, annotations, validity,
    policy, verifier, rejected, rv, now, expiration, modifiers, subject, leaf⟩, ?_, ?_, ?_⟩
  · exact ⟨hkeyBytes, hroot, htrustDomain, hendorsement, hmem, of_decide_eq_true htype,
      hexpiration, hvalid, hsubject⟩
  · simp [Issuance.trace, Issuance.signCsr]
  · exact Except.ok.inj hchain

def isSignCsr (ev : CaEvent) : Bool :=
  match ev.op with
  | .signCsr _ => true
  | _ => false

def isGetActiveTrustPackage (ev : CaEvent) : Bool :=
  match ev.op with
  | .getActiveTrustPackage => true
  | _ => false

/-- The guarantee behind a returned chain: what the collaborators were asked and answered,
and how the one call of the signer was put together. -/
structure Issuance.Justified (x : Issuance) (lib : Platform)
    (request : CertificateIssuanceRequest) (caller : CallerIdentity) (tr : List CaEvent)
    (chain : List X509Certificate) : Prop where
  csrKey : lib.subjectPublicKeyInfo request.certificateSigningRequest = .ok x.csrPublicKeyBytes
  csrKey_decoded : returned (.decodeRawPublicKey x.csrPublicKeyBytes) x.csrPublicKey ∈ tr
  package_read_once :
    tr.filter isGetActiveTrustPackage = [returned .getActiveTrustPackage x.trustPackage]
  root : x.trustPackage.selfSignedBundles.head? = some x.rootBundle
  trustDomain : TrustDomainExtractor.extract lib x.rootBundle.certificate = .ok x.trustDomain
  audience : returned (.validateAudience x.csrPublicKey caller x.trustDomain) () ∈ tr
  endorsement : request.attestationEvidence.getRawBinaryEndorsement lib = .ok x.endorsement
  annotations : returned (.getAnnotations x.endorsement) x.annotations ∈ tr
  validity : returned (.getValidity x.endorsement) x.validity ∈ tr
  policy : returned (.getPolicy caller x.annotations.publisherId x.annotations.workloadId)
    (some x.policy) ∈ tr
  verifier : returned (.getVerifier request.attestationEvidence) (some x.verifier) ∈ tr
  /-- With the repository's provider the verifier is one registered for the evidence. -/
  verifier_registered : ∀ verifiers : List (EvidenceClass × Nat),
    AttestationVerifierProviderImpl.getVerifier verifiers request.attestationEvidence =
      some x.verifier →
    ∃ c, (c, x.verifier) ∈ verifiers ∧ c.isAssignableFrom request.attestationEvidence
  referenceValues_mem : x.referenceValues ∈ x.policy.referenceValuesList
  referenceValues_type :
    x.referenceValues.type = request.attestationEvidence.getReferenceValuesType
  verified : returned (.verify x.verifier request.attestationEvidence x.csrPublicKey
    x.referenceValues) true ∈ tr
  now : returned .now x.now ∈ tr
  expiration : x.now.plus x.policy.certificateAttributes.maxCertificateValidity = .ok x.expiration
  modifiers : returned (.createModifiers x.policy x.trustDomain) x.modifiers ∈ tr
  subject : lib.x500Principal x.policy.certificateAttributes.certificateSubject.attributes =
    .ok x.subject
  signed_once : tr.filter isSignCsr =
    [returned (.signCsr
      { csrBytes := request.certificateSigningRequest
        issuerCert := x.rootBundle.certificate
        issuerPrivateKey := x.rootBundle.privateKey
        notBefore := max x.now x.validity.notBefore
        notAfter := min x.expiration x.validity.notAfter
        modifiers := x.modifiers
        subject := x.subject }) x.signedCertificate]
  window : max x.now x.validity.notBefore ≤ min x.expiration x.validity.notAfter
  chain_eq : chain =
    x.signedCertificate :: x.trustPackage.crossSignedCertificates ++ [x.rootBundle.certificate]

theorem getVerifier_registered {V : Type} {verifiers : List (EvidenceClass × V)}
    {evidence : AttestationEvidence} {v : V}
    (h : AttestationVerifierProviderImpl.getVerifier verifiers evidence = some v) :
    ∃ c, (c, v) ∈ verifiers ∧ c.isAssignableFrom evidence := by
  obtain ⟨entry, hfind, rfl⟩ := Option.map_eq_some_iff.mp h
  exact ⟨entry.1, List.mem_of_find?_eq_some hfind, by simpa using List.find?_some hfind⟩

theorem filter_verifications {p : CaEvent → Bool} {v : Nat} {evidence : AttestationEvidence}
    {key : PublicKey} {rejected : List ReferenceValues} {rv : ReferenceValues}
    (hp : ∀ r b, p (returned (.verify v evidence key r) b) = false) :
    (verifications v evidence key rejected rv).filter p = [] := by
  rw [List.filter_eq_nil_iff]
  intro ev hev
  rcases List.mem_append.mp hev with hev | hev
  · obtain ⟨r, _, rfl⟩ := List.mem_map.mp hev
    rw [hp]; decide
  · rw [List.mem_singleton.mp hev, hp]; decide

theorem filter_isSignCsr_trace (x : Issuance) (request : CertificateIssuanceRequest)
    (caller : CallerIdentity) :
    (x.trace request caller).filter isSignCsr =
      [returned (.signCsr (x.signCsr request)) x.signedCertificate] := by
  have hsign : (verifications x.verifier request.attestationEvidence x.csrPublicKey x.rejected
      x.referenceValues).filter isSignCsr = [] := filter_verifications (fun _ _ => rfl)
  simp only [Issuance.trace, List.filter_append, hsign]
  rfl

/-- Whatever the collaborators do, a returned chain is justified. -/
theorem issueCertificate_justified
    (h : Runs (issueCertificate openService lib request caller) tr (.ok chain)) :
    ∃ x : Issuance, x.Justified lib request caller tr chain := by
  obtain ⟨x, hx, rfl, rfl⟩ := runs_issueCertificate h
  have hpackage : (verifications x.verifier request.attestationEvidence x.csrPublicKey x.rejected
      x.referenceValues).filter isGetActiveTrustPackage = [] :=
    filter_verifications (fun _ _ => rfl)
  exact ⟨x,
    { csrKey := hx.csrKey
      csrKey_decoded := by simp [Issuance.trace]
      package_read_once := by
        simp only [Issuance.trace, List.filter_append, hpackage]
        rfl
      root := hx.root
      trustDomain := hx.trustDomain
      audience := by simp [Issuance.trace]
      endorsement := hx.endorsement
      annotations := by simp [Issuance.trace]
      validity := by simp [Issuance.trace]
      policy := by simp [Issuance.trace]
      verifier := by simp [Issuance.trace]
      verifier_registered := fun _ => getVerifier_registered
      referenceValues_mem := hx.referenceValues_mem
      referenceValues_type := hx.referenceValues_type
      verified := by simp [Issuance.trace, verifications]
      now := by simp [Issuance.trace]
      expiration := hx.expiration
      modifiers := by simp [Issuance.trace]
      subject := hx.subject
      signed_once := filter_isSignCsr_trace x request caller
      window := hx.validity
      chain_eq := rfl }⟩

end

/-! A run with a key, a root and a policy for one workload, attested by Oak evidence. -/

namespace Sample

def csrKeyBytes : Bytes :=
  ⟨[0x30, 0x0b, 0x30, 0x05, 0x06, 0x03, 0x2b, 0x65, 0x70, 0x03, 0x02, 0x00, 0x01], by decide⟩

/-- A PKCS#10 request for `csrKeyBytes` with an empty subject. -/
def csr : Bytes :=
  ⟨[0x30, 0x21, 0x30, 0x14, 0x02, 0x01, 0x00, 0x30, 0x00] ++ csrKeyBytes.val ++
    [0xa0, 0x00, 0x30, 0x05, 0x06, 0x03, 0x2b, 0x65, 0x70, 0x03, 0x02, 0x00, 0x01], by decide⟩

def csrKey : PublicKey := ⟨u "Ed25519", csrKeyBytes⟩

/-- The DER of the empty name. -/
def emptyName : Bytes := ⟨[0x30, 0x00], by decide⟩

def request : CertificateIssuanceRequest :=
  ⟨.oak Bytes.empty [⟨containerEndorsementId, Bytes.empty⟩] Bytes.empty, csr⟩

def caller : CallerIdentity := ⟨u "https://issuer", u "workload", [u "aud"]⟩

/-- The libraries on the inputs of this run: the host of the root's URI, the key of `csr`,
the empty name, and the endorsement of an empty container endorsement. -/
def platform : Platform where
  uriHost _ := .ok (some (u "tca.example"))
  subjectPublicKeyInfo _ := .ok csrKeyBytes
  x500Principal _ := .ok emptyName
  containerEndorsementBinary _ := .ok Bytes.empty

def certificate (name : JString) : X509Certificate :=
  ⟨Bytes.empty, csrKey, u "Ed25519", .ok (some [[.integer 6, .string name]])⟩

def root : SelfSignedBundle :=
  ⟨certificate (u "spiffe://tca.example"), ⟨u "Ed25519", Bytes.empty⟩, ⟨[]⟩⟩

def leaf : X509Certificate := certificate (u "spiffe://operator.example")

def referenceValues : ReferenceValues := ⟨.oak, Bytes.empty⟩

def policy : Policy :=
  ⟨u "publisher", u "workload", u "operator.example", u "role", [referenceValues],
    ⟨3600 * nanosPerSecond, ⟨none, none⟩, ⟨[]⟩⟩⟩

def instant (seconds : Nat) (h : seconds < 10^10) : Instant :=
  ⟨seconds * nanosPerSecond, by unfold instantMin instantMax nanosPerSecond; omega⟩

def answer (_ : List CaEvent) : (o : CaOp) → Except Throwable o.Val
  | .getActiveTrustPackage => .ok ⟨[root], []⟩
  | .getVerifier _ => .ok (some 0)
  | .verify _ _ _ _ => .ok true
  | .signCsr _ => .ok leaf
  | .decodeRawPublicKey _ => .ok csrKey
  | .getPolicy _ _ _ => .ok (some policy)
  | .now => .ok (instant 1800000000 (by decide))
  | .getAnnotations _ => .ok ⟨u "publisher", u "workload"⟩
  | .getValidity _ =>
    .ok ⟨instant 1700000000 (by decide), instant 1900000000 (by decide)⟩
  | .createModifiers policy trustDomain =>
    .ok (CertificateModifiersCreatorImpl.create policy trustDomain)
  | .validateAudience _ _ _ => .ok ()
  | .startIssuanceTimer => .ok ()
  | .recordSubOperationAndResetTimer _ => .ok ()
  | .incrementProcessingCounter _ => .ok ()
  | .incrementCertificateIssuanceCounter _ => .ok ()

def run : Except Throwable (List X509Certificate) × List CaEvent :=
  exec answer (issueCertificate openService platform request caller) []

end Sample

theorem issueCertificate_sample_justified :
    Sample.run.1 = .ok [Sample.leaf, Sample.root.certificate] ∧
    ∃ x : Issuance, x.Justified Sample.platform Sample.request Sample.caller Sample.run.2
      [Sample.leaf, Sample.root.certificate] := by
  have hrun : Sample.run.1 = .ok [Sample.leaf, Sample.root.certificate] := by decide
  refine ⟨hrun, issueCertificate_justified ?_⟩
  rw [← hrun]
  exact runs_exec Sample.answer _ []

end Tca
