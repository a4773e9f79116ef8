import TransparentCa.Tca.AttestedIssuance

/- Calls that are answered with a chain. The only way to `onNext` leads through the token, the
   caller's identity in it, the request's evidence and a run of the service that returned
   (`runs_handleCall_onNext`); with the server's bindings in place that run is one of the wired
   service, and what holds of its chain holds of the answer. -/
namespace Tca
open Java Mbs Effects Effects.Prog TransparentCaModule

/-! ## The way to the answer -/

def IsAnswer : CallOp → Prop
  | .onNext _ => True
  | _ => False

section
variable {lib : Platform} {authHeader : Option JString} {request : IssueCertificateRequest}
  {tr : List CallEvent}

theorem uses_interceptCall (authHeader : Option JString) :
    (JwtInterceptor.interceptCall authHeader).Uses (fun o => ¬ IsAnswer o) := by
  have hrefuse : ∀ description,
      (JwtInterceptor.unauthenticated description).Uses (fun o => ¬ IsAnswer o) := by
    intro description
    refine (JwtInterceptor.uses_unauthenticated description).mono (fun o ho => ?_)
    cases o <;> first | exact ho.elim | exact id
  unfold JwtInterceptor.interceptCall
  split
  · exact hrefuse _
  · rename_i header _
    refine Uses.handle ?_ (fun e => ?_)
    · refine (JwtInterceptor.uses_authenticate _).mono (fun o ho => ?_)
      cases o <;> first | exact ho.elim | exact id
    · split
      · exact hrefuse _
      · trivial

/-- The call goes on with the claims of the token that the header bears. -/
theorem runs_interceptCall_some {context : CallContext}
    (h : Runs (JwtInterceptor.interceptCall authHeader) tr (.ok (some context))) :
    ∃ token claims, authHeader = some (JwtInterceptor.bearer ++ token) ∧
      tr = JwtInterceptor.acceptance token claims ∧ context = JwtInterceptor.contextOf claims := by
  unfold JwtInterceptor.interceptCall at h
  cases hheader : authHeader.filter JwtInterceptor.bearer.isPrefixOf with
  | none =>
    rw [hheader] at h
    obtain ⟨hnone, -⟩ := JwtInterceptor.runs_unauthenticated h
    cases hnone
  | some header =>
    rw [hheader] at h
    simp only [tryCatch_eq] at h
    obtain ⟨hsome, hprefix⟩ := Option.filter_eq_some_iff.mp hheader
    obtain ⟨token, rfl⟩ := List.isPrefixOf_iff_prefix.mp hprefix
    rw [List.drop_left] at h
    rcases runs_handle.mp h with ⟨_, heq, hbody⟩ | ⟨e, t₁, t₂, rfl, -, hcatch⟩
    · obtain ⟨claims, hcontext, rfl⟩ := JwtInterceptor.runs_authenticate hbody
      rw [← Except.ok.inj heq] at hcontext
      exact ⟨token, claims, hsome, rfl, Option.some.inj hcontext⟩
    · split at hcatch
      · obtain ⟨hnone, -⟩ := JwtInterceptor.runs_unauthenticated hcatch
        cases hnone
      · exact absurd (runs_raise.mp hcatch).2 (by simp)

theorem uses_callService (lib : Platform) (domainRequest : CertificateIssuanceRequest)
    (caller : CallerIdentity) :
    (TransparentCertificateAuthorityGrpcHandler.callService lib domainRequest caller).Uses
      (fun o => ¬ IsAnswer o) :=
  uses_interp (uses_true _) (fun _ _ => Uses.invoke id)

/-- The answer is the chain of a run of the service, encoded. -/
theorem runs_respond_answer {domainRequest : CertificateIssuanceRequest} {caller : CallerIdentity}
    {out : Except Throwable Unit} {ev : CallEvent}
    (h : Runs (TransparentCertificateAuthorityGrpcHandler.respond lib domainRequest caller) tr out)
    (hev : ev ∈ tr) (hanswer : IsAnswer ev.op) :
    ∃ chain t₁ t₂, tr = t₁ ++ t₂ ∧
      Runs (TransparentCertificateAuthorityGrpcHandler.callService lib domainRequest caller) t₁
        (.ok chain) ∧
      ev.op = .onNext (chain.map X509Certificate.encoded) := by
  unfold TransparentCertificateAuthorityGrpcHandler.respond at h
  rw [bind_eq] at h
  obtain ⟨chain, t₁, t₂, rfl, hservice, hrest, hmem⟩ :=
    (uses_callService lib domainRequest caller).runs_bind_mem h hev (not_not.mpr hanswer)
  have huses : ((serverCall (.onNext (chain.map X509Certificate.encoded))) >>= fun _ =>
      serverCall .onCompleted : CallProg Unit).Uses
      (fun o => o = .onNext (chain.map X509Certificate.encoded) ∨ o = .onCompleted) :=
    Uses.bind (Uses.invoke (.inl rfl)) (fun _ => Uses.invoke (.inr rfl))
  rcases huses.of_runs hrest ev hmem with hop | hop
  · exact ⟨chain, t₁, t₂, rfl, hservice, hop⟩
  · rw [hop] at hanswer
    exact hanswer.elim

/-- Who asked, for what, and how the answer came about. -/
structure Answer (lib : Platform) (authHeader : Option JString) (request : IssueCertificateRequest)
    (tr : List CallEvent) (o : CallOp) (token : JString) (claims : Claims) (caller : CallerIdentity)
    (domainRequest : CertificateIssuanceRequest) (chain : List X509Certificate) : Prop where
  header : authHeader = some (JwtInterceptor.bearer ++ token)
  issuer : claims.issuer = some caller.issuer
  subject : claims.subject = some caller.subject
  audiences : caller.audiences = JwtInterceptor.extractAudiences claims.audience
  named : isBlank caller.issuer = false ∧ isBlank caller.subject = false
  evidence : request.attestationEvidence = some domainRequest.attestationEvidence
  csr : request.certificateSigningRequest = domainRequest.certificateSigningRequest
  answer : o = .onNext (chain.map X509Certificate.encoded)
  /-- The token was accepted first, and then the service ran. -/
  ran : ∃ t rest, tr = JwtInterceptor.acceptance token claims ++ (t ++ rest) ∧
    Runs (TransparentCertificateAuthorityGrpcHandler.callService lib domainRequest caller) t
      (.ok chain)

theorem uses_onError (status : StatusCode) (description : JString) :
    (serverCall (.onError status description)).Uses (fun o => ¬ IsAnswer o) := Uses.invoke id

theorem newCallerIdentity_eq_ok {issuer subject : JString} {audiences : List JString}
    {caller : CallerIdentity} (h : CallerIdentity.new issuer subject audiences = .ok caller) :
    (isBlank issuer = false ∧ isBlank subject = false) ∧ caller = ⟨issuer, subject, audiences⟩ := by
  unfold CallerIdentity.new at h
  split_ifs at h with hissuer hsubject
  exact ⟨⟨by simpa using hissuer, by simpa using hsubject⟩, (Except.ok.inj h).symm⟩

theorem toDomain_eq_ok {domainRequest : CertificateIssuanceRequest}
    (h : CertificateIssuanceRequestMapper.toDomain request = .ok domainRequest) :
    request.attestationEvidence = some domainRequest.attestationEvidence ∧
      request.certificateSigningRequest = domainRequest.certificateSigningRequest := by
  obtain ⟨evidence, hevidence, hreturn⟩ := except_bind_eq_ok.mp h
  rw [← Except.ok.inj hreturn]
  refine ⟨?_, rfl⟩
  unfold AttestationEvidenceMapper.toDomain at hevidence
  split at hevidence
  · rename_i hsome
    rw [hsome, Except.ok.inj hevidence]
  · cases hevidence

/-- A call that gets an answer. -/
theorem runs_handleCall_answer {out : Except Throwable Unit} {ev : CallEvent}
    (h : Runs (handleCall lib authHeader request) tr out) (hev : ev ∈ tr)
    (hanswer : IsAnswer ev.op) :
    ∃ token claims caller domainRequest chain,
      Answer lib authHeader request tr ev.op token claims caller domainRequest chain := by
  unfold handleCall at h
  rw [bind_eq] at h
  obtain ⟨context, t₁, t₂, rfl, hintercept, hrest, hmem⟩ :=
    (uses_interceptCall authHeader).runs_bind_mem h hev (not_not.mpr hanswer)
  cases context with
  | none =>
    rw [(runs_ret.mp hrest).1] at hmem
    cases hmem
  | some context =>
    obtain ⟨token, claims, hheader, rfl, rfl⟩ := runs_interceptCall_some hintercept
    simp only [TransparentCertificateAuthorityGrpcHandler.issueCertificate,
      JwtInterceptor.contextOf] at hrest
    split at hrest
    · rename_i issuer subject audiences hissuer hsubject haudiences
      simp only [bind_eq] at hrest
      obtain ⟨caller, hcaller, hrun⟩ := Uses.runs_ofExcept_bind_mem hrest hmem
      split at hrun
      · -- Without evidence there is an error, not an answer.
        rename_i e hdomain
        have huses := (Uses.of_runs hrun (P := fun o => ¬ IsAnswer o) (by
          split
          · exact Uses.bind (Uses.invoke id) (fun _ => uses_onError _ _)
          · trivial)) ev hmem
        exact absurd hanswer huses
      · rename_i domainRequest hdomain
        rw [tryCatch_eq] at hrun
        obtain ⟨r, t₃, t₄, rfl, hrespond, hmem₃⟩ :=
          Uses.runs_handle_mem (P := fun o => ¬ IsAnswer o) (by
            intro e
            split
            · exact uses_onError _ _
            · trivial) hrun hmem (not_not.mpr hanswer)
        obtain ⟨chain, u₁, u₂, rfl, hservice, hop⟩ := runs_respond_answer hrespond hmem₃ hanswer
        obtain ⟨hname, rfl⟩ := newCallerIdentity_eq_ok hcaller
        obtain ⟨hevidence, hcsr⟩ := toDomain_eq_ok hdomain
        exact ⟨token, claims, _, domainRequest, chain,
          { header := hheader
            issuer := hissuer
            subject := hsubject
            audiences := (Option.some.inj haudiences).symm
            named := hname
            evidence := hevidence
            csr := hcsr
            answer := hop
            ran := ⟨u₁, u₂ ++ t₄, by simp, hservice⟩ }⟩
    · exact absurd hanswer ((uses_onError _ _).of_runs hrest ev hmem)

end

/-! ## Evidence without an endorsement -/

/-- The calls of the service that come before the endorsement. -/
def BeforeEndorsement : CaOp → Prop
  | .startIssuanceTimer => True
  | .decodeRawPublicKey _ => True
  | .recordSubOperationAndResetTimer _ => True
  | .getActiveTrustPackage => True
  | .validateAudience _ _ _ => True
  | .incrementProcessingCounter _ => True
  | _ => False

def CallBeforeEndorsement : CallOp → Prop
  | .ca o => BeforeEndorsement o
  | .onNext _ => False
  | .onCompleted => False
  | _ => True

section
variable {lib : Platform} {e : Throwable}

theorem refuses_issueCertificate {domainRequest : CertificateIssuanceRequest}
    (caller : CallerIdentity)
    (h : domainRequest.attestationEvidence.getRawBinaryEndorsement lib = .error e) :
    (issueCertificate openService lib domainRequest caller).Refuses BeforeEndorsement := by
  have hcount : ∀ status,
      (openService.incrementProcessingCounter status).Uses BeforeEndorsement :=
    fun _ => Uses.invoke trivial
  have hrecord : ∀ operation,
      (openService.recordSubOperationAndResetTimer operation).Uses BeforeEndorsement :=
    fun _ => Uses.invoke trivial
  unfold issueCertificate
  refine Refuses.bind (Uses.invoke trivial) (fun _ => ?_)
  refine Refuses.bind (Uses.finallyDo (uses_countFailure (hcount _) ?_) (hrecord _)) (fun key => ?_)
  · exact Uses.bind (Uses.ofExcept _) (fun _ => Uses.invoke trivial)
  refine Refuses.bind (Uses.invoke trivial) (fun trustPackage => ?_)
  refine Refuses.bind (uses_headBundle trustPackage) (fun rootBundle => ?_)
  refine Refuses.bind (uses_countFailure (hcount _) (Uses.ofExcept _)) (fun trustDomain => ?_)
  refine Refuses.bind (Uses.finallyDo (uses_countFailure (hcount _) (Uses.invoke trivial))
    (hrecord _)) (fun _ => ?_)
  -- Here the service asks for the endorsement.
  simp only [h]
  exact Refuses.raise e

theorem uses_handleCall_unendorsed {request : IssueCertificateRequest}
    (authHeader : Option JString)
    (hrequest : ∀ evidence, request.attestationEvidence = some evidence →
      ∃ e, evidence.getRawBinaryEndorsement lib = .error e) :
    (handleCall lib authHeader request).Uses CallBeforeEndorsement := by
  have herror : ∀ status description,
      (serverCall (.onError status description)).Uses CallBeforeEndorsement :=
    fun _ _ => Uses.invoke trivial
  unfold handleCall
  refine Uses.bind ?_ (fun context => ?_)
  · have hrefuse : ∀ description,
        (JwtInterceptor.unauthenticated description).Uses CallBeforeEndorsement := by
      intro description
      refine (JwtInterceptor.uses_unauthenticated description).mono (fun o ho => ?_)
      cases o <;> first | exact ho.elim | trivial
    unfold JwtInterceptor.interceptCall
    split
    · exact hrefuse _
    · refine Uses.handle ?_ (fun e => ?_)
      · refine (JwtInterceptor.uses_authenticate _).mono (fun o ho => ?_)
        cases o <;> first | exact ho.elim | trivial
      · split
        · exact hrefuse _
        · trivial
  cases context with
  | none => trivial
  | some context =>
    simp only [TransparentCertificateAuthorityGrpcHandler.issueCertificate]
    split
    · refine Uses.bind (Uses.ofExcept _) (fun caller => ?_)
      split
      · split
        · exact Uses.bind (Uses.invoke trivial) (fun _ => herror _ _)
        · trivial
      · rename_i domainRequest hdomain
        obtain ⟨e, hunendorsed⟩ := hrequest _ (toDomain_eq_ok hdomain).1
        refine Uses.handle (Refuses.uses_bind ?_) (fun e => ?_)
        · exact (refuses_issueCertificate caller hunendorsed).interp (fun o ho => Uses.invoke ho)
        · split
          · exact herror _ _
          · trivial
    · exact herror _ _

end

/-! ## Answers of the wired server -/

/-- The token and the request behind a run of the service. -/
structure Asked (authHeader : Option JString) (request : IssueCertificateRequest)
    (tr : List WiredEvent) (token : JString) (claims : Claims) (caller : CallerIdentity)
    (domainRequest : CertificateIssuanceRequest) : Prop where
  header : authHeader = some (JwtInterceptor.bearer ++ token)
  accepted : (⟨.call (.parseClaimsJws token), .ok claims⟩ : WiredEvent) ∈ tr
  issuer : claims.issuer = some caller.issuer
  subject : claims.subject = some caller.subject
  audiences : caller.audiences = JwtInterceptor.extractAudiences claims.audience
  named : isBlank caller.issuer = false ∧ isBlank caller.subject = false
  evidence : request.attestationEvidence = some domainRequest.attestationEvidence
  csr : request.certificateSigningRequest = domainRequest.certificateSigningRequest

section
variable {lib : TcaLibraries} {authHeader : Option JString} {request : IssueCertificateRequest}
  {tr : List WiredEvent} {out : Except Throwable Unit} {response : List Bytes}
  {r : Except Throwable Unit}

/-- What lies behind a call on its way through the server. -/
def ServerReaches : CallOp → WiredOp → Prop
  | .ca o, o' => Reaches o o'
  | o, .call o' => o = o'
  | _, _ => False

theorem uses_serverBindings (o : CallOp) : (serverBindings lib o).Uses (ServerReaches o) := by
  cases o with
  | ca o => exact uses_bindings o
  | _ => exact Uses.invoke rfl

/-- An answer of the wired server is one of the open server. -/
theorem isAnswer_of_serverReaches {o : CallOp} (h : ServerReaches o (.call (.onNext response))) :
    o = .onNext response := by
  cases o with
  | ca o => cases o <;> exact h.elim
  | _ => exact h

theorem expands_of_lift {tr₀ : List CaEvent} {tr : List WiredEvent}
    (h : Expands (serverBindings lib)
      (tr₀.map TransparentCertificateAuthorityGrpcHandler.lift) tr) :
    Expands (bindings lib) tr₀ tr := by
  induction tr₀ generalizing tr with
  | nil =>
    cases h
    exact .nil
  | cons ev tr₀ ih =>
    cases h with
    | cons hrun hrest => exact .cons hrun (ih hrest)

/-- Behind an answer there is a run of the wired service that returned the chain. -/
theorem runs_wiredCall_answer (h : Runs (wiredCall lib authHeader request) tr out)
    (hev : (⟨.call (.onNext response), r⟩ : WiredEvent) ∈ tr) :
    ∃ token claims caller domainRequest x served,
      Asked authHeader request tr token claims caller domainRequest ∧
      Issuance.Checked x domainRequest lib.platform ∧
      response = x.chain.map X509Certificate.encoded ∧ served <:+: tr ∧
      Expands (bindings lib) (x.trace domainRequest caller) served := by
  obtain ⟨tr₀, hrun, hexp⟩ := runs_interp h
  obtain ⟨ev₀, hev₀, hreaches⟩ := hexp.reaches uses_serverBindings hev
  have hop := isAnswer_of_serverReaches hreaches
  obtain ⟨token, claims, caller, domainRequest, chain, hanswer⟩ :=
    runs_handleCall_answer hrun hev₀ (by rw [hop]; trivial)
  obtain ⟨t, rest, rfl, hservice⟩ := hanswer.ran
  obtain ⟨tr₁, hissue, hlift⟩ := runs_interp hservice
  obtain rfl := TransparentCertificateAuthorityGrpcHandler.lift_of_expands hlift
  obtain ⟨x, hx, rfl, rfl⟩ := runs_issueCertificate hissue
  have htoken : answered (.parseClaimsJws token) claims ∈
      JwtInterceptor.acceptance token claims ++
        ((x.trace domainRequest caller).map TransparentCertificateAuthorityGrpcHandler.lift ++
          rest) := List.mem_cons_self
  obtain ⟨t, hparse, hpart⟩ := hexp.of_mem htoken
  have hevent : t = [⟨.call (.parseClaimsJws token), .ok claims⟩] := runs_invoke.mp hparse
  obtain ⟨s₁, s₂, rfl, -, hrest⟩ := hexp.of_append
  obtain ⟨served, s₃, rfl, hserved, -⟩ := hrest.of_append
  refine ⟨token, claims, caller, domainRequest, x, served, ?_, hx, ?_, ⟨s₁, s₃, by simp⟩,
    expands_of_lift hserved⟩
  · exact
      { header := hanswer.header
        accepted := hpart.subset (by rw [hevent]; exact List.mem_singleton_self _)
        issuer := hanswer.issuer
        subject := hanswer.subject
        audiences := hanswer.audiences
        named := hanswer.named
        evidence := hanswer.evidence
        csr := hanswer.csr }
  · have hchain := hop.symm.trans hanswer.answer
    cases hchain
    rfl

/-- Whoever is answered has shown a token made out for the key, and evidence for the key that
the policy of its endorsed workload accepts. -/
theorem answered_attested (hparse : lib.java.Parses lib.oak)
    (h : Runs (wiredCall lib authHeader request) tr out)
    (hev : (⟨.call (.onNext response), r⟩ : WiredEvent) ∈ tr) :
    ∃ token claims caller domainRequest chain served a,
      Asked authHeader request tr token claims caller domainRequest ∧
      response = chain.map X509Certificate.encoded ∧ served <:+: tr ∧
      Attestation.Holds a lib domainRequest caller served chain := by
  obtain ⟨token, claims, caller, domainRequest, x, served, hasked, hx, hresponse, hserved, hexp⟩ :=
    runs_wiredCall_answer h hev
  obtain ⟨a, ha⟩ := exists_attestation hparse hx hexp
  exact ⟨token, claims, caller, domainRequest, x.chain, served, a, hasked, hresponse, hserved, ha⟩

/-- Whoever is answered has an endorsement that is not over, of which the period computed for the
certificate is a part, and gets the policy of the workload endorsed there. -/
theorem answered_endorsed (h : Runs (wiredCall lib authHeader request) tr out)
    (hev : (⟨.call (.onNext response), r⟩ : WiredEvent) ∈ tr) :
    ∃ token claims caller domainRequest served e,
      Asked authHeader request tr token claims caller domainRequest ∧ served <:+: tr ∧
      Endorsement.Holds e lib domainRequest caller served := by
  obtain ⟨token, claims, caller, domainRequest, x, served, hasked, hx, -, hserved, hexp⟩ :=
    runs_wiredCall_answer h hev
  obtain ⟨e, he⟩ := exists_endorsement hx hexp
  exact ⟨token, claims, caller, domainRequest, served, e, hasked, hserved, he⟩

/-- What takes an endorsement: the policy bucket and its metrics, the verifiers and their clock,
the certificate builder and its clock, and the answer. -/
def NeedsEndorsement : WiredOp → Prop
  | .fetchFile _ => True
  | .allowMetricsForClientId _ => True
  | .verifyGcp _ _ => True
  | .verifyAws _ _ => True
  | .currentTimeMillis => True
  | .build _ _ => True
  | .call (.ca .now) => True
  | .call (.onNext _) => True
  | .call .onCompleted => True
  | _ => False

theorem not_needsEndorsement_of_reaches {o : CallOp} {o' : WiredOp} (ho : CallBeforeEndorsement o)
    (h : ServerReaches o o') : ¬ NeedsEndorsement o' := by
  intro hneeds
  cases o with
  | ca o =>
    cases o' with
    | call o' =>
      cases o' with
      | ca o' =>
        cases o' <;> first | exact hneeds | (cases o <;> first | exact ho | cases h)
      | _ => first | exact hneeds | (cases o <;> first | exact ho | cases h)
    | _ => cases o <;> first | exact ho | exact h
  | _ =>
    cases o' with
    | call o' =>
      obtain rfl : _ = o' := h
      first | exact ho | exact hneeds
    | _ => exact h

/-- Without an endorsement, as for the tokens of the other clouds, no policy is fetched, no
verifier is asked, and nothing is signed or answered. -/
theorem unendorsed_refused
    (hrequest : ∀ evidence, request.attestationEvidence = some evidence →
      ∃ e, evidence.getRawBinaryEndorsement lib.platform = .error e)
    (h : Runs (wiredCall lib authHeader request) tr out) :
    ∀ ev ∈ tr, ¬ NeedsEndorsement ev.op :=
  (uses_interp (uses_handleCall_unendorsed authHeader hrequest) (fun o ho =>
    (uses_serverBindings o).mono (fun _ hreaches =>
      not_needsEndorsement_of_reaches ho hreaches))).of_runs h

end

/-! A caller with a token for its RSA key, and Oak evidence of that key. -/

namespace Sample

def rsaKeyBytes : Bytes :=
  ⟨[0x30, 0x5c, 0x30, 0x0d, 0x06, 0x09, 0x2a, 0x86, 0x48, 0x86, 0xf7, 0x0d, 0x01, 0x01, 0x01,
    0x05, 0x00, 0x03, 0x4b, 0x00, 0x30, 0x48, 0x02, 0x41, 0x00, 0xc8, 0x3f, 0x22, 0xb1, 0xc3,
    0x3c, 0x55, 0xc0, 0xb3, 0x24, 0xe0, 0x0d, 0x60, 0x2a, 0x2a, 0x7c, 0xc1, 0x80, 0x18, 0x45,
    0x1c, 0x32, 0x3c, 0xae, 0x11, 0xfa, 0x37, 0x27, 0xa1, 0x28, 0x70, 0x55, 0x8f, 0x49, 0x42,
    0x89, 0xaf, 0x69, 0xd5, 0x3d, 0x28, 0x2c, 0x5b, 0x79, 0xb0, 0x8e, 0xd5, 0x23, 0xb8, 0x60,
    0xd2, 0xee, 0xea, 0x70, 0x38, 0xc7, 0xc8, 0x2b, 0x5c, 0x3e, 0x98, 0x2f, 0x86, 0x61, 0x02,
    0x03, 0x01, 0x00, 0x01], by decide⟩

def rsaKey : PublicKey := ⟨u "RSA", rsaKeyBytes⟩

/-- A PKCS#10 request for `rsaKeyBytes` with an empty subject. -/
def rsaCsr : Bytes :=
  ⟨[0x30, 0x81, 0xb9, 0x30, 0x65, 0x02, 0x01, 0x00, 0x30, 0x00] ++ rsaKeyBytes.val ++
    [0xa0, 0x00, 0x30, 0x0d, 0x06, 0x09, 0x2a, 0x86, 0x48, 0x86, 0xf7, 0x0d, 0x01, 0x01, 0x0b,
    0x05, 0x00, 0x03, 0x41, 0x00, 0x23, 0xeb, 0xbf, 0xbe, 0x87, 0x62, 0xd1, 0xb0, 0xdd, 0x8a,
    0xae, 0x98, 0x8f, 0xc1, 0x2e, 0xba, 0xaa, 0xa0, 0x50, 0xd8, 0x7b, 0x51, 0xd9, 0xc8, 0x0e,
    0x85, 0xad, 0xef, 0xe0, 0x46, 0x6e, 0xf3, 0x05, 0x47, 0xdd, 0x0e, 0xee, 0xd6, 0x20, 0x5c,
    0xcd, 0x5d, 0x07, 0xbd, 0x52, 0xaf, 0xc4, 0x20, 0x7e, 0xa6, 0x8a, 0xc5, 0x03, 0xbb, 0xec,
    0xeb, 0xe0, 0x72, 0x22, 0x37, 0xc7, 0x92, 0xe5, 0x26], by decide +kernel⟩

def rsaKeyDigest : List UInt8 :=
  [0x67, 0xd5, 0x4b, 0xd2, 0x46, 0x9d, 0x8d, 0xe3, 0xea, 0x37, 0xaa, 0x3c, 0x09, 0xfb, 0xb0,
   0xd4, 0xc3, 0xbd, 0xfb, 0x0d, 0x20, 0x63, 0xc5, 0xad, 0x9e, 0x55, 0xe0, 0xe6, 0x55, 0xb3,
   0xf7, 0x25]

/-- A point of P-256. -/
def signingPoint : Bytes :=
  ⟨[0x04, 0x65, 0xde, 0x15, 0xfe, 0xcb, 0x7e, 0xc3, 0xcd, 0xfb, 0x57, 0x0f, 0xa8, 0x7a, 0xb7,
    0x1c, 0xe1, 0xf1, 0x8e, 0x89, 0xd5, 0x97, 0x6b, 0x07, 0x05, 0x7c, 0xdb, 0xbf, 0xf5, 0xff,
    0x85, 0xb7, 0x60, 0x67, 0xd8, 0x50, 0x98, 0xb6, 0x90, 0x3b, 0xad, 0x82, 0xbe, 0xb0, 0xc9,
    0x88, 0xf7, 0x9f, 0x1f, 0x29, 0x5e, 0x9c, 0x12, 0x85, 0xc5, 0x80, 0xb1, 0x99, 0x83, 0x61,
    0x20, 0xed, 0x1b, 0xbf, 0x7e], by decide⟩

def instanceKey : PublicKey :=
  ⟨u "EC", ⟨[0x30, 0x59, 0x30, 0x13, 0x06, 0x07, 0x2a, 0x86, 0x48, 0xce, 0x3d, 0x02, 0x01, 0x06,
    0x08, 0x2a, 0x86, 0x48, 0xce, 0x3d, 0x03, 0x01, 0x07, 0x03, 0x42, 0x00] ++ signingPoint.val,
    by decide +kernel⟩⟩

/-- `rsaKeyBytes`, signed by `instanceKey`. -/
def signedKey : Bytes :=
  ⟨[0x6f, 0xb9, 0x49, 0xd7, 0x9b, 0x64, 0xb1, 0x47, 0x1a, 0x9e, 0x09, 0xc7, 0x68, 0x50, 0xbc,
    0xcb, 0xd8, 0x91, 0xfe, 0x47, 0x6d, 0xf0, 0x80, 0xf8, 0x61, 0xa5, 0x0b, 0x1d, 0x3e, 0x89,
    0xc9, 0xa5, 0x51, 0x27, 0x70, 0x97, 0xc3, 0x18, 0x71, 0xd7, 0xee, 0xd1, 0x5b, 0xd6, 0x75,
    0x9c, 0x17, 0xa9, 0xec, 0xa2, 0xed, 0x49, 0xe9, 0xdf, 0xbe, 0x37, 0x58, 0x74, 0xb3, 0xb4,
    0x93, 0x98, 0xb9, 0xb2], by decide⟩

/-- The SHA-1 digest of the key. -/
def rsaKeyIdentifier : Bytes :=
  ⟨[0xc6, 0xbd, 0x96, 0x3a, 0xf3, 0x0f, 0xbb, 0xba, 0x45, 0x13, 0xac, 0xd0, 0x30, 0x94, 0x4b,
    0xec, 0xf5, 0xe6, 0x20, 0xa0], by decide⟩

def policyText : JString :=
  u "issuer:'https://issuer' subject:'workload' policies\x7bkey:'role@publisher.example/workload'" ++
    u " value\x7bpublisher_id:'role@publisher.example' workload_id:'workload'" ++
    u " operator_domain:'operator.example' operator_role:'role'" ++
    u " reference_values\x7boak_reference_values\x7b\x7d\x7d" ++
    u " certificate_attributes\x7bmax_certificate_validity\x7bseconds:3600\x7d\x7d\x7d\x7d"

def policyFile : Bytes := ⟨policyText.map UInt16.toUInt8, by decide +kernel⟩

/-- The message that `policyText` spells. -/
def policyMessage : PolicyV2.Policies :=
  ⟨⟨[(u "role@publisher.example/workload",
      ⟨u "role@publisher.example", u "workload", u "operator.example", u "role",
        [.oakReferenceValues Bytes.empty],
        some ⟨⟨3600, 0⟩, ⟨none, none⟩, ⟨[], List.nodup_nil⟩⟩⟩)], by simp⟩,
    u "https://issuer", u "workload"⟩

def attestationResults : AttestationResults :=
  ⟨.success, [], [⟨⟨[(OakAttestationVerifier.oakSigningPublicKeyEcdsaP256, signingPoint)],
    by simp⟩⟩]⟩

/-- The libraries on the inputs of this run, where Oak accepts the evidence. -/
def libraries : TcaLibraries where
  platform := { platform with
    subjectPublicKeyInfo := fun _ => .ok rsaKeyBytes
    containerEndorsementBinary := fun _ =>
      .ok JsonIntotoEndorsementMetadataProvider.Sample.rawStatement }
  signer := { signerPlatform with
    getPublicKey := fun _ => .ok rsaKey
    createSubjectKeyIdentifier := fun _ => .ok rsaKeyIdentifier }
  policyFile :=
    { toStringUtf8 := fun bytes => bytes.val.map UInt8.toUInt16
      merge := fun content =>
        if content = policyText then .ok policyMessage else .error { cls := .parseException } }
  jackson := JsonIntotoEndorsementMetadataProvider.Sample.jackson
  java :=
    { endorsementsToByteArray := fun _ => Bytes.one 0x0a
      parseFrom := fun _ => .ok attestationResults
      getEcPublicKey := fun _ => .ok instanceKey
      verifySignature := fun key data signature =>
        .ok (key = instanceKey ∧ data = rsaKeyBytes ∧ signature = signedKey) }
  oak :=
    { Evidence := Unit
      Endorsements := Unit
      ReferenceValues := Unit
      decodeEvidence := fun _ => .ok ()
      decodeEndorsements := fun _ => .ok ()
      decodeReferenceValues := fun _ => .ok ()
      rootLayerPlatform := fun _ => some .none
      createAmdVerifier := fun _ _ => .error []
      createIntelTdxVerifier := fun _ _ => .error []
      createInsecureVerifier := fun _ _ => .ok (fun _ _ => .ok attestationResults)
      unsupportedPlatform := fun _ => []
      encodeToVec := fun _ => Bytes.one 0x08 }
  generatePublic keyBytes :=
    if keyBytes = rsaKeyBytes then .ok rsaKey else .error { cls := .invalidKeySpecException }
  sha256 bytes :=
    if bytes = rsaKeyBytes then ⟨rsaKeyDigest, by decide⟩ else List.Vector.replicate 32 0
  metadata := OidcAudienceBindingValidator.Sample.metadata

/-- The token is made out to the regional host for `rsaKey`. -/
def boundClaims : Claims :=
  ⟨some caller.issuer, some caller.subject, .string
    (u "https://us-east-1.tca.prod.example/v1/certificates:issue?pubkey_sha256=" ++
      u "67d54bd2469d8de3ea37aa3c09fbb0d4c3bdfb0d2063c5ad9e55e0e655b3f725")⟩

def wiredAnswer (_ : List WiredEvent) : (o : WiredOp) → Except Throwable o.Val
  | .call (.ca .getActiveTrustPackage) => .ok ⟨[rsaRoot], []⟩
  | .call (.ca o) => answer [] o
  | .call (.parseClaimsJws _) => .ok boundClaims
  | .call (.incrementProcessingCounter _) | .call (.incrementAuthenticationCounter _)
  | .call .recordOidcAuthenticationTime | .call (.startCall _) | .call (.close _ _)
  | .call (.onNext _) | .call .onCompleted | .call (.onError _ _) => .ok ()
  | .currentTimeMillis => .ok 1800000000000
  | .verifyGcp _ _ => .ok false
  | .verifyAws _ _ => .ok false
  | .fetchFile _ => .ok (some policyFile)
  | .allowMetricsForClientId _ => .ok ()
  | .build _ _ => .ok leaf

def header : Option JString := some (u "Bearer token")

def oakRequest : IssueCertificateRequest :=
  ⟨some (.oak (Bytes.one 0x0a) [⟨containerEndorsementId, Bytes.one 0x0a⟩] signedKey), rsaCsr⟩

/-- The same with a token of another cloud. -/
def nitroRequest : IssueCertificateRequest := ⟨some (.aws (Bytes.one 0x0a)), rsaCsr⟩

def wiredRun (request : IssueCertificateRequest) : Except Throwable Unit × List WiredEvent :=
  exec wiredAnswer (wiredCall libraries header request) []

def chain : List X509Certificate := [leaf, rsaRoot.certificate]

theorem answers_oakRequest :
    ∃ r, (⟨.call (.onNext (chain.map X509Certificate.encoded)), r⟩ : WiredEvent) ∈
      (wiredRun oakRequest).2 := by
  have hop : WiredOp.call (.onNext (chain.map X509Certificate.encoded)) ∈
      (wiredRun oakRequest).2.map Event.op := by decide +kernel
  obtain ⟨⟨op, r⟩, hmem, rfl⟩ := List.mem_map.mp hop
  exact ⟨r, hmem⟩

end Sample

theorem oakRequest_attested :
    ∃ token claims caller domainRequest chain served a,
      Asked Sample.header Sample.oakRequest (Sample.wiredRun Sample.oakRequest).2 token claims
        caller domainRequest ∧
      Sample.chain.map X509Certificate.encoded = chain.map X509Certificate.encoded ∧
      served <:+: (Sample.wiredRun Sample.oakRequest).2 ∧
      Attestation.Holds a Sample.libraries domainRequest caller served chain := by
  obtain ⟨r, hev⟩ := Sample.answers_oakRequest
  exact answered_attested (fun _ _ _ _ => rfl) (runs_exec Sample.wiredAnswer _ []) hev

theorem oakRequest_endorsed :
    ∃ token claims caller domainRequest served e,
      Asked Sample.header Sample.oakRequest (Sample.wiredRun Sample.oakRequest).2 token claims
        caller domainRequest ∧
      served <:+: (Sample.wiredRun Sample.oakRequest).2 ∧
      Endorsement.Holds e Sample.libraries domainRequest caller served := by
  obtain ⟨r, hev⟩ := Sample.answers_oakRequest
  exact answered_endorsed (runs_exec Sample.wiredAnswer _ []) hev

theorem nitroRequest_refused :
    Sample.nitroRequest.attestationEvidence = some (.aws (Bytes.one 0x0a)) ∧
      ∀ ev ∈ (Sample.wiredRun Sample.nitroRequest).2, ¬ NeedsEndorsement ev.op := by
  refine ⟨rfl, ?_⟩
  refine unendorsed_refused (fun evidence hevidence => ?_) (runs_exec Sample.wiredAnswer _ [])
  obtain rfl : AttestationEvidence.aws (Bytes.one 0x0a) = evidence := Option.some.inj hevidence
  exact ⟨_, rfl⟩

end Tca
