import TransparentCa.Lib.Interp
import TransparentCa.Tca.Issuance
import TransparentCa.Tca.Modifiers

/- `CertificateSignerImpl.signCsr`. Handing the builder to the content signer is a call
   (`build`), so that a run shows which contents were signed with which key. `tcaService` is the service with the repository's signer and
   modifiers creator in place and everything else open; its runs are runs of the open
   service with each call of the signer spelled out (`issueCertificate_tcaService`). -/
namespace Tca
open Java Mbs Effects Effects.Prog

/-! ## CertificateSignerImpl -/

/-- What the signer relies on of the JDK and of BouncyCastle besides the builder: the
public key of an encoded `SubjectPublicKeyInfo` and its key identifier, the encoded
subject of a certificate and the value of its subject key identifier extension (`none` for
`null`) with the identifier inside, whether a content signer can be made for a key, and the
text of an exception. -/
structure SignerPlatform where
  getPublicKey : Bytes → Except Throwable PublicKey
  getSubjectX500Principal : X509Certificate → Bytes
  newExtensionUtils : Except Throwable Unit
  createSubjectKeyIdentifier : Bytes → Except Throwable Bytes
  subjectKeyIdentifierExtension : X509Certificate → Option Bytes
  parseSubjectKeyIdentifier : Bytes → Except Throwable Bytes
  newContentSigner : PrivateKey → Except Throwable Unit
  toString : Throwable → JString

namespace CertificateSignerImpl

variable {Op : Type} {Val : Op → Type} (lib : Platform) (sig : SignerPlatform)

def createAuthorityKeyIdentifier (issuerCert : X509Certificate) : Except Throwable Bytes :=
  match sig.subjectKeyIdentifierExtension issuerCert with
  | none => .error
      { cls := .certificateException,
        message := u "Issuer certificate is missing Subject Key Identifier (SKI) extension" }
  | some skiExtValue => sig.parseSubjectKeyIdentifier skiExtValue

/-- The builder as it is handed to the content signer. -/
def certBuilder (args : SignCsr) (csrPublicKeyInfo : Bytes) (serial : Int) :
    Except Throwable X509v3CertificateBuilder := do
  let notBefore ← Date.from args.notBefore
  let notAfter ← Date.from args.notAfter
  let publicKey ← sig.getPublicKey csrPublicKeyInfo
  let certBuilder : X509v3CertificateBuilder :=
    { issuer := sig.getSubjectX500Principal args.issuerCert
      serial := serial
      notBefore := notBefore
      notAfter := notAfter
      subject := args.subject
      publicKey := publicKey
      extensions := [] }
  sig.newExtensionUtils
  let aki ← createAuthorityKeyIdentifier sig args.issuerCert
  let ski ← sig.createSubjectKeyIdentifier csrPublicKeyInfo
  let certBuilder ← certBuilder.addExtension (.authorityKeyIdentifier aki) false
  let certBuilder ← certBuilder.addExtension (.subjectKeyIdentifier ski) false
  let certBuilder ← args.modifiers.foldlM (fun builder modifier => modifier.apply builder) certBuilder
  sig.newContentSigner args.issuerPrivateKey
  return certBuilder

/-- `catch (CertificateException e) { throw e; } catch (OperatorCreationException |
GeneralSecurityException e) { throw new CertificateException(e); }`. -/
def rethrow (e : Throwable) : Throwable :=
  if e.instanceOf .certificateException then e
  else if e.caughtBy [.operatorCreationException, .generalSecurityException] then
    { cls := .certificateException, message := sig.toString e }
  else e

/-- The clock and the builder's `build` are calls. -/
def signCsr (now : CaProg Op Val Instant)
    (build : X509v3CertificateBuilder → PrivateKey → CaProg Op Val X509Certificate)
    (args : SignCsr) : CaProg Op Val X509Certificate :=
  tryCatch (do
    let csrPublicKeyInfo ← Prog.ofExcept (lib.subjectPublicKeyInfo args.csrBytes)
    let clock ← now
    let serial ← Prog.ofExcept clock.toEpochMilli
    let builder ← Prog.ofExcept (certBuilder sig args csrPublicKeyInfo serial)
    build builder args.issuerPrivateKey) (fun e => throw (rethrow sig e))

/-- The serial number and the dates are those given. -/
theorem certBuilder_fields {sig : SignerPlatform} {args : SignCsr} {csrPublicKeyInfo : Bytes}
    {serial : Int} {builder : X509v3CertificateBuilder}
    (h : certBuilder sig args csrPublicKeyInfo serial = .ok builder) :
    builder.serial = serial ∧ Date.from args.notBefore = .ok builder.notBefore ∧
      Date.from args.notAfter = .ok builder.notAfter := by
  unfold certBuilder at h
  simp only [except_bind_eq_ok] at h
  obtain ⟨notBefore, hnotBefore, notAfter, hnotAfter, _, -, ⟨⟩, -, _, -, _, -, b₁, h₁, b₂, h₂, b₃,
    h₃, ⟨⟩, -, hret⟩ := h
  have hfields := (foldlM_apply_fields _ h₃).trans
    ((addExtension_fields h₂).trans (addExtension_fields h₁))
  rw [← Except.ok.inj hret]
  simp only [X509v3CertificateBuilder.fields, Prod.mk.injEq] at hfields
  obtain ⟨-, hserial, hfrom, hto, -⟩ := hfields
  exact ⟨hserial, by rw [hfrom, hnotBefore], by rw [hto, hnotAfter]⟩

end CertificateSignerImpl

/-! ## The service with the repository's signer -/

/-- One call of a collaborator, or one certificate built and signed. -/
inductive TcaOp where
  | ca (o : CaOp)
  | build (builder : X509v3CertificateBuilder) (issuerPrivateKey : PrivateKey)
  deriving DecidableEq

abbrev TcaOp.Val : TcaOp → Type
  | .ca o => o.Val
  | .build _ _ => X509Certificate

abbrev TcaProg (α : Type) := CaProg TcaOp TcaOp.Val α

def askCa (o : CaOp) : TcaProg o.Val := Prog.invoke (TcaOp.ca o)

def build (builder : X509v3CertificateBuilder) (issuerPrivateKey : PrivateKey) :
    TcaProg X509Certificate :=
  Prog.invoke (TcaOp.build builder issuerPrivateKey)

section
variable (lib : Platform) (sig : SignerPlatform)

def tcaService : TransparentCaService TcaOp TcaOp.Val where
  getActiveTrustPackage := askCa .getActiveTrustPackage
  getVerifier evidence := do
    let v : Option Nat ← askCa (.getVerifier evidence)
    return v.map (fun v evidence key rv => askCa (.verify v evidence key rv))
  signCsr := CertificateSignerImpl.signCsr lib sig (askCa .now) build
  decodeRawPublicKey keyBytes := askCa (.decodeRawPublicKey keyBytes)
  getPolicy identity publisherId workloadId :=
    askCa (.getPolicy identity publisherId workloadId)
  now := askCa .now
  getAnnotations statementBytes := askCa (.getAnnotations statementBytes)
  getValidity statementBytes := askCa (.getValidity statementBytes)
  createModifiers policy trustDomain :=
    return CertificateModifiersCreatorImpl.create policy trustDomain
  validateAudience key identity trustDomain :=
    askCa (.validateAudience key identity trustDomain)
  startIssuanceTimer := askCa .startIssuanceTimer
  recordSubOperationAndResetTimer operation :=
    askCa (.recordSubOperationAndResetTimer operation)
  incrementProcessingCounter status := askCa (.incrementProcessingCounter status)
  incrementCertificateIssuanceCounter clientId :=
    askCa (.incrementCertificateIssuanceCounter clientId)

/-- How the repository answers the calls of the open service. -/
def implement : (o : CaOp) → TcaProg o.Val
  | .signCsr args => CertificateSignerImpl.signCsr lib sig (askCa .now) build args
  | .createModifiers policy trustDomain =>
    return CertificateModifiersCreatorImpl.create policy trustDomain
  | o => askCa o

theorem anyMatch_tcaService (v : Nat) (evidence : AttestationEvidence) (key : PublicKey)
    (rvs : List ReferenceValues) :
    (anyMatch (fun rv => ask (.verify v evidence key rv)) rvs).interp (implement lib sig) =
      anyMatch (fun rv => askCa (.verify v evidence key rv)) rvs := by
  induction rvs with
  | nil => rfl
  | cons rv rvs ih =>
    simp only [anyMatch, bind_eq, pure_eq, interp_bind, ask, interp_invoke]
    congr 1
    funext matched
    cases matched with
    | true => rfl
    | false => exact ih

section
variable {α : Type}

theorem interp_headBundle (trustPackage : TrustPackage) :
    (headBundle trustPackage).interp (implement lib sig) = headBundle trustPackage := by
  unfold headBundle
  cases trustPackage.selfSignedBundles <;> rfl

theorem interp_countFailure (cs : List ThrowableClass) (status : ProcessingStatus)
    (rethrow : Throwable → Throwable) (p : CaProg CaOp CaOp.Val α) :
    (countFailure openService cs status rethrow p).interp (implement lib sig) =
      countFailure (tcaService lib sig) cs status rethrow (p.interp (implement lib sig)) := by
  unfold countFailure
  rw [interp_handle]
  congr 1
  funext e
  by_cases he : e.caughtBy cs
  · simp only [he, if_true, bind_eq, interp_bind]
    congr 1
    exact interp_invoke _ _
  · simp [he]

theorem interp_failIf (failed : Prop) [Decidable failed] (status : ProcessingStatus)
    (e : Throwable) :
    (failIf openService failed status e).interp (implement lib sig) =
      failIf (tcaService lib sig) failed status e := by
  unfold failIf
  by_cases hf : failed
  · simp only [hf, if_true, bind_eq, interp_bind]
    congr 1
    exact interp_invoke _ _
  · simp [hf]

theorem interp_getOrFail (opt : Option α) (status : ProcessingStatus) (e : Throwable) :
    (getOrFail openService opt status e).interp (implement lib sig) =
      getOrFail (tcaService lib sig) opt status e := by
  cases opt with
  | some a => rfl
  | none =>
    simp only [getOrFail, bind_eq, interp_bind]
    congr 1
    exact interp_invoke _ _

end

/-- The service in place runs the open service, with the repository's answers. -/
theorem issueCertificate_tcaService (request : CertificateIssuanceRequest)
    (caller : CallerIdentity) :
    issueCertificate (tcaService lib sig) lib request caller =
      (issueCertificate openService lib request caller).interp (implement lib sig) := by
  simp only [issueCertificate, extractPublicKey, createSubjectPrincipal, bind_eq, pure_eq,
    interp_bind, interp_finallyDo, interp_countFailure, interp_failIf, interp_getOrFail,
    interp_headBundle, interp_ofExcept, interp_ret]
  simp only [openService, ask, bind_eq, pure_eq, interp_invoke, interp_bind, interp_ret]
  -- Up to the verifier, both sides make the same calls one by one.
  repeat refine bind_congr rfl (fun _ => ?_)
  show (Prog.bind ((askCa (.getVerifier request.attestationEvidence)).bind _) _ : TcaProg _) = _
  rw [bind_assoc, bind_assoc]
  refine bind_congr rfl (fun verifierOpt => ?_)
  cases verifierOpt with
  | none =>
    simp only [pure_eq, bind_ret, Option.map_none, getOrFail, bind_eq, throw_eq, bind_assoc,
      bind_raise]
  | some v =>
    simp only [pure_eq, bind_ret, Option.map_some, getOrFail]
    refine bind_congr rfl (fun _ => ?_)
    refine bind_congr (anyMatch_tcaService lib sig v _ _ _).symm (fun _ => ?_)
    repeat refine bind_congr rfl (fun _ => ?_)
    rfl

end
end Tca
