import TransparentCa.Tca.CertificateContents
import TransparentCa.Tca.Wiring

/- What a chain means once the service is wired. The trace of a run that returns says which
   collaborators answered what; with the classes in place of the collaborators it says what
   those checked. A chain is only returned for Oak evidence (the other two kinds are refused
   before any policy is read): a file of the policy bucket made out to the caller has a policy
   for the endorsed workload, one of the policy's reference values accepts the evidence, and
   the key whose encoding the attested workload signed is the key of the certificate. -/
namespace Tca
open Java Mbs Effects Effects.Prog TransparentCaModule

section
variable {lib : TcaLibraries} {request : CertificateIssuanceRequest} {caller : CallerIdentity}
  {tr : List WiredEvent} {chain : List X509Certificate}

/-! ## The trace of a wired run -/

/-- The evidence is Oak's, and Oak's verifier was asked. -/
theorem oak_of_checked {x : Issuance} (hx : x.Checked request lib.platform)
    (hexp : Expands (bindings lib) (x.trace request caller) tr) :
    ∃ evidence endorsements signedPublicKey,
      request.attestationEvidence = .oak evidence endorsements signedPublicKey ∧
      x.verifier = 2 := by
  have hget : returned (.getVerifier request.attestationEvidence) (some x.verifier) ∈
      x.trace request caller := by simp [Issuance.trace]
  obtain ⟨t, hrun, -⟩ := hexp.of_mem hget
  have hverifier := runs_getVerifier hrun
  have hendorsement := hx.endorsement
  cases hevidence : request.attestationEvidence with
  | aws token => simp [hevidence, AttestationEvidence.getRawBinaryEndorsement] at hendorsement
  | gcp token => simp [hevidence, AttestationEvidence.getRawBinaryEndorsement] at hendorsement
  | oak evidence endorsements signedPublicKey =>
    rw [hevidence, getVerifier_oak] at hverifier
    exact ⟨evidence, endorsements, signedPublicKey, rfl, Option.some.inj hverifier⟩

theorem ne_signCsr_of_not_isSignCsr {ev : CaEvent} (h : ¬ isSignCsr ev = true) (args : SignCsr) :
    ev.op ≠ .signCsr args := by
  intro heq
  apply h
  simp only [isSignCsr, heq]

/-- One certificate is built, out of what the signer was given. -/
theorem builds_of_expands {x : Issuance}
    (hexp : Expands (bindings lib) (x.trace request caller) tr) :
    ∃ csrPublicKeyInfo serial builder,
      lib.platform.subjectPublicKeyInfo request.certificateSigningRequest = .ok csrPublicKeyInfo ∧
      CertificateSignerImpl.certBuilder lib.signer (x.signCsr request) csrPublicKeyInfo serial =
        .ok builder ∧
      builds tr = [(builder, x.rootBundle.privateKey)] ∧
      (⟨.build builder x.rootBundle.privateKey, .ok x.signedCertificate⟩ : WiredEvent) ∈ tr := by
  obtain ⟨before, after, htrace, hbefore, -, hafter⟩ :=
    List.filter_eq_cons_iff.mp (filter_isSignCsr_trace x request caller)
  rw [htrace] at hexp
  obtain ⟨t₁, t₂, rfl, h₁, h₂⟩ := hexp.of_append
  cases h₂ with
  | @cons _ _ t _ rest hsign hrest =>
    obtain ⟨info, clock, serial, builder, hinfo, -, hbuilder, rfl⟩ := TransparentCaModule.runs_signCsr hsign
    have hnil₁ := builds_eq_nil h₁ (fun ev hev => ne_signCsr_of_not_isSignCsr (hbefore ev hev))
    have hnil₂ := builds_eq_nil hrest (fun ev hev =>
      ne_signCsr_of_not_isSignCsr (List.filter_eq_nil_iff.mp hafter ev hev))
    refine ⟨info, serial, builder, hinfo, hbuilder, ?_, by simp [Issuance.signCsr]⟩
    rw [builds_append, builds_append, hnil₁, hnil₂]
    rfl

end

/-! ## The endorsed workload -/

/-- The statement in a container endorsement, and the workload that it names. -/
structure EndorsedWorkload where
  container : Variant
  statementBytes : Bytes
  node : StatementNode
  annotations : EndorsementAnnotations

/-- There is one container endorsement, a statement whose ids are these; the default ids where
it has none. -/
structure EndorsedWorkload.Holds (w : EndorsedWorkload) (lib : TcaLibraries)
    (endorsements : List Variant) : Prop where
  container_eq : endorsements.filter (fun event => event.id = containerEndorsementId) =
    [w.container]
  statement : lib.platform.containerEndorsementBinary w.container.value = .ok w.statementBytes
  document : lib.jackson.readTree w.statementBytes = .ok (some w.node)
  wellFormed : w.node.WellFormed
  ids : w.node.Endorses w.annotations.publisherId w.annotations.workloadId ∨
    (¬ ∃ publisherId workloadId, w.node.Endorses publisherId workloadId) ∧
      w.annotations = JsonIntotoEndorsementMetadataProvider.defaultAnnotations

section
variable {lib : TcaLibraries} {request : CertificateIssuanceRequest} {caller : CallerIdentity}
  {tr : List WiredEvent}

/-- An endorsement is found only in Oak evidence with one container endorsement. -/
theorem getRawBinaryEndorsement_eq_ok {platform : Platform} {evidence : AttestationEvidence}
    {statementBytes : Bytes} (h : evidence.getRawBinaryEndorsement platform = .ok statementBytes) :
    ∃ evidenceBytes endorsements signedPublicKey container,
      evidence = .oak evidenceBytes endorsements signedPublicKey ∧
      endorsements.filter (fun event => event.id = containerEndorsementId) = [container] ∧
      platform.containerEndorsementBinary container.value = .ok statementBytes := by
  cases evidence with
  | aws token => cases h
  | gcp token => cases h
  | oak evidenceBytes endorsements signedPublicKey =>
    simp only [AttestationEvidence.getRawBinaryEndorsement] at h
    split at h
    · rename_i container hcontainer
      split at h
      · rename_i serialized hserialized
        rw [Except.ok.inj h] at hserialized
        exact ⟨evidenceBytes, endorsements, signedPublicKey, container, rfl, hcontainer, hserialized⟩
      · split at h <;> cases h
    · cases h

/-- The ids that the provider gives for a statement that is read. -/
theorem ids_of_getAnnotations {reader : JacksonReader} {statementBytes : Bytes}
    {node : StatementNode} {annotations : EndorsementAnnotations}
    (htree : reader.readTree statementBytes = .ok (some node)) (hwf : node.WellFormed)
    (h : JsonIntotoEndorsementMetadataProvider.getAnnotations reader statementBytes =
      .ok annotations) :
    node.Endorses annotations.publisherId annotations.workloadId ∨
      (¬ ∃ publisherId workloadId, node.Endorses publisherId workloadId) ∧
        annotations = JsonIntotoEndorsementMetadataProvider.defaultAnnotations := by
  have hendorsed : ∀ publisherId workloadId,
      JsonIntotoEndorsementMetadataProvider.Endorsed reader statementBytes publisherId workloadId ↔
        node.Endorses publisherId workloadId := by
    intro publisherId workloadId
    refine ⟨fun hnode => ?_, fun hendorses => ⟨node, htree, hwf, hendorses⟩⟩
    obtain ⟨node', htree', -, hendorses⟩ := hnode
    rw [htree] at htree'
    obtain rfl := Option.some.inj (Except.ok.inj htree')
    exact hendorses
  have hread : JsonIntotoEndorsementMetadataProvider.ThrowsException
      (reader.readTree statementBytes) := by
    intro e he
    rw [htree] at he
    cases he
  have heq := (JsonIntotoEndorsementMetadataProvider.getAnnotations_eq_ok hread).mp h
  simpa only [hendorsed] using heq

/-- The statement behind a checked issuance: its ids and its period are those that the service
went by. -/
theorem exists_endorsedWorkload {x : Issuance} (hx : x.Checked request lib.platform)
    (hexp : Expands (bindings lib) (x.trace request caller) tr) :
    ∃ (w : EndorsedWorkload) (evidence : Bytes) (endorsements : List Variant)
      (signedPublicKey : Bytes),
      request.attestationEvidence = .oak evidence endorsements signedPublicKey ∧
      w.Holds lib endorsements ∧ w.annotations = x.annotations ∧
      w.node.Covers lib.jackson x.validity := by
  obtain ⟨evidence, endorsements, signedPublicKey, container, hevidence, hcontainer, hstatement⟩ :=
    getRawBinaryEndorsement_eq_ok hx.endorsement
  have hannotationsEvent : returned (.getAnnotations x.endorsement) x.annotations ∈
      x.trace request caller := by simp [Issuance.trace]
  have hvalidityEvent : returned (.getValidity x.endorsement) x.validity ∈
      x.trace request caller := by simp [Issuance.trace]
  obtain ⟨t₁, hannotations, -⟩ := hexp.of_mem hannotationsEvent
  obtain ⟨t₂, hvalidity, -⟩ := hexp.of_mem hvalidityEvent
  obtain ⟨node, htree, hwf, hcovers⟩ :=
    JsonIntotoEndorsementMetadataProvider.getValidity_eq_ok.mp (runs_getValidity hvalidity)
  refine ⟨⟨container, x.endorsement, node, x.annotations⟩, evidence, endorsements, signedPublicKey,
    hevidence, ?_, rfl, hcovers⟩
  exact
    { container_eq := hcontainer
      statement := hstatement
      document := htree
      wellFormed := hwf
      ids := ids_of_getAnnotations htree hwf (runs_getAnnotations hannotations) }

end

/-! ## Attestation -/

/-- What a returned chain goes back to. -/
structure Attestation where
  evidence : Bytes
  endorsements : List Variant
  signedPublicKey : Bytes
  csrPublicKeyInfo : Bytes
  claimedPublicKey : PublicKey
  workload : EndorsedWorkload
  rawFile : Bytes
  policies : Policies
  policy : Policy
  referenceValues : ReferenceValues
  nowUtcMillis : Int64
  rootCertificate : X509Certificate
  trustDomain : JString
  san : JString
  builder : X509v3CertificateBuilder
  issuerPrivateKey : PrivateKey
  leaf : X509Certificate

/-- The endorsement, the policy file, the evidence, the keys and the certificate fit together. -/
structure Attestation.Holds (a : Attestation) (lib : TcaLibraries)
    (request : CertificateIssuanceRequest) (caller : CallerIdentity) (tr : List WiredEvent)
    (chain : List X509Certificate) : Prop where
  evidence_eq : request.attestationEvidence = .oak a.evidence a.endorsements a.signedPublicKey
  csr : lib.platform.subjectPublicKeyInfo request.certificateSigningRequest =
    .ok a.csrPublicKeyInfo
  claimed : PublicKeyDecoder.decodeRawPublicKey lib.generatePublic a.csrPublicKeyInfo =
    .ok a.claimedPublicKey
  /-- The endorsement is one of those that the verifier accepts below. -/
  endorsed : a.workload.Holds lib a.endorsements
  fetched : (⟨.fetchFile caller.getClientId, .ok (some a.rawFile)⟩ : WiredEvent) ∈ tr
  parsed : FileSourcedPolicyProvider.parsePolicies (lib.policyFile.toStringUtf8 a.rawFile)
    (FileSourcedPolicyProvider.parsers lib.policyFile) = .ok a.policies
  issuer : a.policies.issuer = caller.issuer
  subject : a.policies.subject = caller.subject
  policy_eq : a.policies.get (FileSourcedPolicyProvider.policyKey
    a.workload.annotations.publisherId a.workload.annotations.workloadId) = some a.policy
  referenceValues_mem : a.referenceValues ∈ a.policy.referenceValuesList
  referenceValues_type : a.referenceValues.type = .oak
  clock : (⟨.currentTimeMillis, .ok a.nowUtcMillis⟩ : WiredEvent) ∈ tr
  attests : OakAttests lib.java lib.oak a.nowUtcMillis a.evidence a.endorsements
    a.signedPublicKey a.claimedPublicKey a.referenceValues
  trustDomain_eq : TrustDomainExtractor.extract lib.platform a.rootCertificate = .ok a.trustDomain
  /-- The caller's token was made out to a host of this authority for the attested key. -/
  audience : ∃ host ∈ OidcAudienceBindingValidator.hostnames lib.metadata a.trustDomain,
    OidcAudienceBindingValidator.audience host
      (OidcAudienceBindingValidator.getExpectedDigest lib.sha256 a.claimedPublicKey) ∈
        caller.audiences
  san_eq : SubjectAlternativeNameModifier.san a.policy a.trustDomain = .ok a.san
  /-- The certified key is decoded from the same bytes as the key that was attested. -/
  certified : lib.signer.getPublicKey a.csrPublicKeyInfo = .ok a.builder.publicKey
  extensions : ∃ aki ski, a.builder.extensions = [(.authorityKeyIdentifier aki, false),
    (.subjectKeyIdentifier ski, false)] ++ policyExtensions a.policy a.trustDomain a.san
  built_once : builds tr = [(a.builder, a.issuerPrivateKey)]
  built : (⟨.build a.builder a.issuerPrivateKey, .ok a.leaf⟩ : WiredEvent) ∈ tr
  chain_eq : chain.head? = some a.leaf ∧ chain.getLast? = some a.rootCertificate

section
variable {lib : TcaLibraries} {request : CertificateIssuanceRequest} {caller : CallerIdentity}
  {tr : List WiredEvent} {chain : List X509Certificate}

theorem mem_verifications (v : Nat) (evidence : AttestationEvidence) (key : PublicKey)
    (rejected : List ReferenceValues) (rv : ReferenceValues) :
    returned (.verify v evidence key rv) true ∈ verifications v evidence key rejected rv :=
  List.mem_append_right _ (List.mem_singleton_self _)

/-- Whoever gets a chain has evidence that the policy of its endorsed workload accepts, for the
very key that is certified. -/
theorem exists_attestation (hparse : lib.java.Parses lib.oak) {x : Issuance}
    (hx : x.Checked request lib.platform)
    (hexp : Expands (bindings lib) (x.trace request caller) tr) :
    ∃ a : Attestation, a.Holds lib request caller tr x.chain := by
  obtain ⟨w, evidence, endorsements, signedPublicKey, hevidence, hendorsed, hannotations, -⟩ :=
    exists_endorsedWorkload hx hexp
  have hverifier : x.verifier = 2 := by
    obtain ⟨_, _, _, -, h⟩ := oak_of_checked hx hexp
    exact h
  obtain ⟨info, serial, builder, hinfo, hbuilder, hbuilds, hbuilt⟩ := builds_of_expands hexp
  obtain rfl : info = x.csrPublicKeyBytes := Except.ok.inj (hinfo.symm.trans hx.csrKey)
  -- What each collaborator was asked, by its event in the trace.
  have hkeyEvent : returned (.decodeRawPublicKey x.csrPublicKeyBytes) x.csrPublicKey ∈
      x.trace request caller := by simp [Issuance.trace]
  have haudienceEvent : returned (.validateAudience x.csrPublicKey caller x.trustDomain) () ∈
      x.trace request caller := by simp [Issuance.trace]
  have hpolicyEvent : returned (.getPolicy caller x.annotations.publisherId
      x.annotations.workloadId) (some x.policy) ∈ x.trace request caller := by
    simp [Issuance.trace]
  have hverifyEvent : returned (.verify 2 (.oak evidence endorsements signedPublicKey)
      x.csrPublicKey x.referenceValues) true ∈ x.trace request caller := by
    have hmem := mem_verifications x.verifier request.attestationEvidence x.csrPublicKey x.rejected
      x.referenceValues
    rw [hverifier, hevidence] at hmem
    simp [Issuance.trace, hverifier, hevidence, hmem]
  have hmodifiersEvent : returned (.createModifiers x.policy x.trustDomain) x.modifiers ∈
      x.trace request caller := by simp [Issuance.trace]
  obtain ⟨t₁, hkey, -⟩ := hexp.of_mem hkeyEvent
  obtain ⟨_, haudience, -⟩ := hexp.of_mem haudienceEvent
  obtain ⟨host, hhost, -, -, hbound⟩ :=
    OidcAudienceBindingValidator.validate_eq_ok.mp (runs_validateAudience haudience)
  obtain ⟨t₂, hpolicy, hpart₂⟩ := hexp.of_mem hpolicyEvent
  obtain ⟨t₃, hverify, hpart₃⟩ := hexp.of_mem hverifyEvent
  obtain ⟨t₄, hmodifiers, -⟩ := hexp.of_mem hmodifiersEvent
  obtain ⟨rawFile, policies, hfetched, hparsed, hissuer, hsubject, hget⟩ := runs_getPolicy hpolicy
  obtain ⟨nowUtcMillis, rfl, hattests⟩ := runs_verify_oak hparse hverify
  have hcreate : (x.signCsr request).modifiers =
      CertificateModifiersCreatorImpl.create x.policy x.trustDomain :=
    runs_createModifiers hmodifiers
  obtain ⟨_, _, publicKey, aki, ski, san, -, -, hpublicKey, -, -, -, hsan, -, hcontents⟩ :=
    (certBuilder_eq_ok_iff hcreate).mp hbuilder
  refine ⟨⟨evidence, endorsements, signedPublicKey, x.csrPublicKeyBytes, x.csrPublicKey, w, rawFile,
    policies, x.policy, x.referenceValues, nowUtcMillis, x.rootBundle.certificate, x.trustDomain,
    san, builder, x.rootBundle.privateKey, x.signedCertificate⟩, ?_⟩
  exact
    { evidence_eq := hevidence
      csr := hx.csrKey
      claimed := runs_decodeRawPublicKey hkey
      endorsed := hendorsed
      fetched := hpart₂.subset hfetched
      parsed := hparsed
      issuer := hissuer
      subject := hsubject
      policy_eq := by rw [hannotations]; exact hget
      referenceValues_mem := hx.referenceValues_mem
      referenceValues_type := by rw [hx.referenceValues_type, hevidence]; rfl
      clock := hpart₃.subset (List.mem_singleton_self _)
      attests := hattests
      trustDomain_eq := hx.trustDomain
      audience := ⟨host, hhost, hbound⟩
      san_eq := hsan
      certified := by rw [hcontents]; exact hpublicKey
      extensions := ⟨aki, ski, by rw [hcontents]⟩
      built_once := hbuilds
      built := hbuilt
      chain_eq := ⟨rfl, List.getLast?_concat⟩ }

end

/-! ## Endorsement -/

/-- What the period of a returned chain goes back to, and the policy that was used. -/
structure Endorsement where
  workload : EndorsedWorkload
  validity : Validity
  rawFile : Bytes
  policies : Policies
  policy : Policy
  now : Instant
  expiration : Instant
  certificateNotBefore : Instant
  certificateNotAfter : Instant
  builder : X509v3CertificateBuilder
  issuerPrivateKey : PrivateKey

/-- The one container endorsement of the evidence is a statement that has not expired. The period
of the certificate, before it is encoded, is inside the statement's, and the policy is the one
for the workload it claims, or for the default workload where it claims none. -/
structure Endorsement.Holds (e : Endorsement) (lib : TcaLibraries)
    (request : CertificateIssuanceRequest) (caller : CallerIdentity) (tr : List WiredEvent) :
    Prop where
  endorsed : ∃ evidence endorsements signedPublicKey,
    request.attestationEvidence = .oak evidence endorsements signedPublicKey ∧
    e.workload.Holds lib endorsements
  covers : e.workload.node.Covers lib.jackson e.validity
  fetched : (⟨.fetchFile caller.getClientId, .ok (some e.rawFile)⟩ : WiredEvent) ∈ tr
  parsed : FileSourcedPolicyProvider.parsePolicies (lib.policyFile.toStringUtf8 e.rawFile)
    (FileSourcedPolicyProvider.parsers lib.policyFile) = .ok e.policies
  issuer : e.policies.issuer = caller.issuer
  subject : e.policies.subject = caller.subject
  policy_eq : e.policies.get (FileSourcedPolicyProvider.policyKey
    e.workload.annotations.publisherId e.workload.annotations.workloadId) = some e.policy
  clock : (⟨.call (.ca .now), .ok e.now⟩ : WiredEvent) ∈ tr
  expiration_eq :
    e.now.plus e.policy.certificateAttributes.maxCertificateValidity = .ok e.expiration
  certificateNotBefore_eq : e.certificateNotBefore = max e.now e.validity.notBefore
  certificateNotAfter_eq : e.certificateNotAfter = min e.expiration e.validity.notAfter
  notExpired : e.now ≤ e.validity.notAfter
  inside : e.validity.notBefore ≤ e.certificateNotBefore ∧
    e.certificateNotBefore ≤ e.certificateNotAfter ∧ e.certificateNotAfter ≤ e.validity.notAfter
  notBefore : Date.from e.certificateNotBefore = .ok e.builder.notBefore
  notAfter : Date.from e.certificateNotAfter = .ok e.builder.notAfter
  built_once : builds tr = [(e.builder, e.issuerPrivateKey)]

section
variable {lib : TcaLibraries} {request : CertificateIssuanceRequest} {caller : CallerIdentity}
  {tr : List WiredEvent}

theorem exists_endorsement {x : Issuance} (hx : x.Checked request lib.platform)
    (hexp : Expands (bindings lib) (x.trace request caller) tr) :
    ∃ e : Endorsement, e.Holds lib request caller tr := by
  obtain ⟨w, evidence, endorsements, signedPublicKey, hevidence, hendorsed, hannotations, hcovers⟩ :=
    exists_endorsedWorkload hx hexp
  obtain ⟨info, serial, builder, -, hbuilder, hbuilds, -⟩ := builds_of_expands hexp
  obtain ⟨-, hnotBefore, hnotAfter⟩ := CertificateSignerImpl.certBuilder_fields hbuilder
  have hpolicyEvent : returned (.getPolicy caller x.annotations.publisherId
      x.annotations.workloadId) (some x.policy) ∈ x.trace request caller := by
    simp [Issuance.trace]
  have hnowEvent : returned .now x.now ∈ x.trace request caller := by simp [Issuance.trace]
  obtain ⟨t₁, hpolicy, hpart₁⟩ := hexp.of_mem hpolicyEvent
  obtain ⟨t₂, hnow, hpart₂⟩ := hexp.of_mem hnowEvent
  obtain ⟨rawFile, policies, hfetched, hparsed, hissuer, hsubject, hget⟩ := runs_getPolicy hpolicy
  have hclock : t₂ = [⟨.call (.ca .now), .ok x.now⟩] := runs_invoke.mp hnow
  refine ⟨⟨w, x.validity, rawFile, policies, x.policy, x.now, x.expiration,
    max x.now x.validity.notBefore, min x.expiration x.validity.notAfter, builder,
    x.rootBundle.privateKey⟩, ?_⟩
  exact
    { endorsed := ⟨evidence, endorsements, signedPublicKey, hevidence, hendorsed⟩
      covers := hcovers
      fetched := hpart₁.subset hfetched
      parsed := hparsed
      issuer := hissuer
      subject := hsubject
      policy_eq := by rw [hannotations]; exact hget
      clock := hpart₂.subset (by rw [hclock]; exact List.mem_singleton_self _)
      expiration_eq := hx.expiration
      certificateNotBefore_eq := rfl
      certificateNotAfter_eq := rfl
      notExpired := (le_max_left _ _).trans (hx.validity.trans (min_le_right _ _))
      inside := ⟨le_max_right _ _, hx.validity, min_le_right _ _⟩
      notBefore := hnotBefore
      notAfter := hnotAfter
      built_once := hbuilds }

end
end Tca
