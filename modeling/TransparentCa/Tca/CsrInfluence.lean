import TransparentCa.Tca.Signer

/- What of the certificate signing request reaches the certificate. The bytes of the
   request go all the way to the signer, but both readers of them, the service and the
   signer, only take the subject public key info out: two requests that agree on it run the
   same program (`issueCertificate_congr`), so that a run of one is a run of the other, and
   a run that returns handed the builder over once, with the same contents. -/
namespace Tca
open Java Mbs Effects Effects.Prog

abbrev TcaEvent := Event TcaOp TcaOp.Val Throwable

/-- The builders handed to the content signer, each with the key that signed. -/
def handed (tr : List TcaEvent) : List (X509v3CertificateBuilder × PrivateKey) :=
  tr.filterMap (fun ev => match ev.op with
    | .build builder issuerPrivateKey => some (builder, issuerPrivateKey)
    | .ca _ => none)

@[simp] theorem handed_append (tr tr' : List TcaEvent) :
    handed (tr ++ tr') = handed tr ++ handed tr' :=
  List.filterMap_append

/-- A call that is not `build`. -/
def IsCa (o : TcaOp) : Prop := ∃ o', o = .ca o'

theorem handed_eq_nil {tr : List TcaEvent} (h : ∀ ev ∈ tr, IsCa ev.op) : handed tr = [] := by
  unfold handed
  rw [List.filterMap_eq_nil_iff]
  intro ev hev
  obtain ⟨o, ho⟩ := h ev hev
  rw [ho]

section
variable {lib : Platform} {sig : SignerPlatform}

/-! ## One builder for one returned chain -/

/-- Every collaborator but the signer leaves the builder alone. -/
theorem uses_implement {o : CaOp} (h : ∀ args, o ≠ .signCsr args) :
    (implement lib sig o).Uses IsCa := by
  cases o with
  | signCsr args => exact absurd rfl (h args)
  | createModifiers policy trustDomain => trivial
  | _ => exact Uses.invoke ⟨_, rfl⟩

theorem uses_implement_of_not {ev : CaEvent} (h : ¬ isSignCsr ev = true) :
    (implement lib sig ev.op).Uses IsCa := by
  apply uses_implement
  intro args hargs
  apply h
  simp only [isSignCsr, hargs]

theorem runs_signCsr {args : SignCsr} {tr : List TcaEvent} {certificate : X509Certificate}
    (h : Runs (CertificateSignerImpl.signCsr lib sig (askCa .now) build args) tr
      (.ok certificate)) :
    ∃ csrPublicKeyInfo clock serial builder,
      lib.subjectPublicKeyInfo args.csrBytes = .ok csrPublicKeyInfo ∧
      clock.toEpochMilli = .ok serial ∧
      CertificateSignerImpl.certBuilder sig args csrPublicKeyInfo serial = .ok builder ∧
      tr = [⟨.ca .now, .ok clock⟩, ⟨.build builder args.issuerPrivateKey, .ok certificate⟩] := by
  have hbody := (runs_handle_ok (by simp)).mp h
  simp only [bind_eq, askCa, build, runs_ofExcept_bind, runs_invoke_bind] at hbody
  obtain ⟨spki, hspki, clock, t, rfl, serial, hserial, builder, hbuilder, hbuild⟩ := hbody
  rw [runs_invoke] at hbuild
  exact ⟨spki, clock, serial, builder, hspki, hserial, hbuilder, by rw [hbuild]⟩

theorem handed_issueCertificate {request : CertificateIssuanceRequest} {caller : CallerIdentity}
    {tr : List TcaEvent} {chain : List X509Certificate}
    (h : Runs (issueCertificate (tcaService lib sig) lib request caller) tr (.ok chain)) :
    ∃ builder issuerPrivateKey, handed tr = [(builder, issuerPrivateKey)] := by
  rw [issueCertificate_tcaService] at h
  obtain ⟨tr₀, hrun, hexp⟩ := runs_interp h
  obtain ⟨x, -, rfl, -⟩ := runs_issueCertificate hrun
  obtain ⟨before, after, htrace, hbefore, -, hafter⟩ :=
    List.filter_eq_cons_iff.mp (filter_isSignCsr_trace x request caller)
  rw [htrace] at hexp
  obtain ⟨t₁, t₂, rfl, h₁, h₂⟩ := hexp.of_append
  cases h₂ with
  | cons hsign hrest =>
    obtain ⟨-, -, -, builder, -, -, -, rfl⟩ := runs_signCsr hsign
    refine ⟨builder, (x.signCsr request).issuerPrivateKey, ?_⟩
    have hnil₁ := handed_eq_nil (h₁.uses (fun ev hev => uses_implement_of_not (hbefore ev hev)))
    have hnil₂ := handed_eq_nil (hrest.uses (fun ev hev =>
      uses_implement_of_not (List.filter_eq_nil_iff.mp hafter ev hev)))
    rw [handed_append, handed_append, hnil₁, hnil₂]
    rfl

/-! ## Two requests with one key -/

/-- The signer reads the request's bytes only for the subject public key info. -/
theorem signCsr_congr {args : SignCsr} {csrBytes : Bytes}
    (h : lib.subjectPublicKeyInfo csrBytes = lib.subjectPublicKeyInfo args.csrBytes) :
    CertificateSignerImpl.signCsr lib sig (askCa .now) build { args with csrBytes := csrBytes } =
      CertificateSignerImpl.signCsr lib sig (askCa .now) build args := by
  unfold CertificateSignerImpl.signCsr
  rw [h]
  rfl

theorem issueCertificate_congr {request request' : CertificateIssuanceRequest}
    (caller : CallerIdentity)
    (hevidence : request'.attestationEvidence = request.attestationEvidence)
    (hcsr : lib.subjectPublicKeyInfo request'.certificateSigningRequest =
      lib.subjectPublicKeyInfo request.certificateSigningRequest) :
    issueCertificate (tcaService lib sig) lib request' caller =
      issueCertificate (tcaService lib sig) lib request caller := by
  have hsign : ∀ issuerCert issuerPrivateKey notBefore notAfter modifiers subject,
      (tcaService lib sig).signCsr ⟨request'.certificateSigningRequest, issuerCert,
        issuerPrivateKey, notBefore, notAfter, modifiers, subject⟩ =
      (tcaService lib sig).signCsr ⟨request.certificateSigningRequest, issuerCert,
        issuerPrivateKey, notBefore, notAfter, modifiers, subject⟩ := by
    intro issuerCert issuerPrivateKey notBefore notAfter modifiers subject
    exact @signCsr_congr lib sig ⟨request.certificateSigningRequest, issuerCert,
      issuerPrivateKey, notBefore, notAfter, modifiers, subject⟩ _ hcsr
  simp only [issueCertificate, extractPublicKey, hevidence, hcsr, hsign]

/-- Whatever the request asks for besides its key, it gets the same certificate. -/
theorem csr_influences_only_by_publicKey {request request' : CertificateIssuanceRequest}
    (caller : CallerIdentity) {csrPublicKeyInfo : Bytes}
    (hevidence : request'.attestationEvidence = request.attestationEvidence)
    (hcsr : lib.subjectPublicKeyInfo request.certificateSigningRequest = .ok csrPublicKeyInfo)
    (hcsr' : lib.subjectPublicKeyInfo request'.certificateSigningRequest = .ok csrPublicKeyInfo)
    (answer : List TcaEvent → (o : TcaOp) → Except Throwable o.Val) (history : List TcaEvent) :
    let issued := exec answer (issueCertificate (tcaService lib sig) lib request caller) history
    let issued' := exec answer (issueCertificate (tcaService lib sig) lib request' caller) history
    handed issued'.2 = handed issued.2 ∧
      ((∃ e e', issued.1 = .error e ∧ issued'.1 = .error e') ∨
        ∃ chain chain' builder issuerPrivateKey,
          issued.1 = .ok chain ∧ issued'.1 = .ok chain' ∧
          handed issued.2 = [(builder, issuerPrivateKey)] ∧
          handed issued'.2 = [(builder, issuerPrivateKey)]) := by
  intro issued issued'
  have hsame : issued' = issued := by
    show exec answer _ history = exec answer _ history
    rw [issueCertificate_congr caller hevidence (hcsr'.trans hcsr.symm)]
  rw [hsame]
  refine ⟨rfl, ?_⟩
  have hrun : Runs _ issued.2 issued.1 := runs_exec answer _ history
  cases hout : issued.1 with
  | error e => exact .inl ⟨e, e, rfl, rfl⟩
  | ok chain =>
    rw [hout] at hrun
    obtain ⟨builder, key, hhanded⟩ := handed_issueCertificate hrun
    exact .inr ⟨chain, chain, builder, key, rfl, rfl, hhanded, hhanded⟩

end

/-! The request of the sample run, and one with a subject name for the same key; the root
has an RSA key and the policy's publisher is in email-like format. -/

namespace Sample

/-- As `csr`, with the subject `CN=x`. -/
def namedCsr : Bytes :=
  ⟨[0x30, 0x2d, 0x30, 0x20, 0x02, 0x01, 0x00, 0x30, 0x0c, 0x31, 0x0a, 0x30, 0x08, 0x06, 0x03,
    0x55, 0x04, 0x03, 0x0c, 0x01, 0x78] ++ csrKeyBytes.val ++
    [0xa0, 0x00, 0x30, 0x05, 0x06, 0x03, 0x2b, 0x65, 0x70, 0x03, 0x02, 0x00, 0x01], by decide⟩

def namedRequest : CertificateIssuanceRequest :=
  { request with certificateSigningRequest := namedCsr }

def rsaRoot : SelfSignedBundle := { root with privateKey := ⟨u "RSA", Bytes.empty⟩ }

def keyIdentifier : Bytes := ⟨[0x01, 0x02], by decide⟩

/-- BouncyCastle on the inputs of this run. -/
def signerPlatform : SignerPlatform where
  getPublicKey _ := .ok csrKey
  getSubjectX500Principal _ := emptyName
  newExtensionUtils := .ok ()
  createSubjectKeyIdentifier _ := .ok keyIdentifier
  subjectKeyIdentifierExtension _ := some ⟨[0x04, 0x04, 0x04, 0x02, 0x01, 0x02], by decide⟩
  parseSubjectKeyIdentifier _ := .ok keyIdentifier
  newContentSigner key :=
    if key.algorithm = u "RSA" then .ok () else .error { cls := .operatorCreationException }
  toString e := e.message

def emailPolicy : Policy := { policy with publisherId := u "role@publisher.example" }

/-- The clock stands at `instant 1800000000`. -/
def tcaAnswer (_ : List TcaEvent) : (o : TcaOp) → Except Throwable o.Val
  | .ca .getActiveTrustPackage => .ok ⟨[rsaRoot], []⟩
  | .ca (.getPolicy _ _ _) => .ok (some emailPolicy)
  | .ca o => answer [] o
  | .build _ _ => .ok leaf

end Sample

theorem named_csr_gets_same_certificate :
    Sample.namedRequest ≠ Sample.request ∧
    let issued := exec Sample.tcaAnswer (issueCertificate
      (tcaService Sample.platform Sample.signerPlatform) Sample.platform Sample.request
      Sample.caller) []
    let issued' := exec Sample.tcaAnswer (issueCertificate
      (tcaService Sample.platform Sample.signerPlatform) Sample.platform Sample.namedRequest
      Sample.caller) []
    issued.1 = .ok [Sample.leaf, Sample.rsaRoot.certificate] ∧
      handed issued'.2 = handed issued.2 := by
  refine ⟨by decide, by decide +kernel, ?_⟩
  exact (csr_influences_only_by_publicKey Sample.caller rfl rfl rfl Sample.tcaAnswer []).1

end Tca
