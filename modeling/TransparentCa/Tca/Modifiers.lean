import TransparentCa.Tca.Service

/- The certificate builder and the four certificate modifiers that write to it. The builder
   is what it has been told so far: the six values of its constructor and the extensions in
   the order they were added. -/
namespace Tca
open Java Mbs

/-! ## The certificate builder -/

inductive GeneralName where
  | uniformResourceIdentifier (name : JString)
  | dNSName (name : JString)
  deriving DecidableEq

/-- The extensions that are added, each with its value. `basicConstraints none` is
`BasicConstraints(false)`, and `keyUsage` has the bits of `KeyUsage`. -/
inductive Extension where
  | authorityKeyIdentifier (keyIdentifier : Bytes)
  | subjectKeyIdentifier (keyIdentifier : Bytes)
  | nameConstraints (permittedSubtrees : List GeneralName)
  | basicConstraints (pathLenConstraint : Option Int32)
  | keyUsage (usage : Nat)
  | subjectAlternativeName (names : List GeneralName)
  deriving DecidableEq

namespace Extension

/-- The object identifier of the extension. -/
def getId : Extension → JString
  | authorityKeyIdentifier _ => u "2.5.29.35"
  | subjectKeyIdentifier _ => u "2.5.29.14"
  | nameConstraints _ => u "2.5.29.30"
  | basicConstraints _ => u "2.5.29.19"
  | keyUsage _ => u "2.5.29.15"
  | subjectAlternativeName _ => u "2.5.29.17"

end Extension

/-- Names are in their encoded form, dates in milliseconds since the epoch; an extension
stands with its critical bit. -/
structure X509v3CertificateBuilder where
  issuer : Bytes
  serial : Int
  notBefore : Int
  notAfter : Int
  subject : Bytes
  publicKey : PublicKey
  extensions : List (Extension × Bool)
  deriving DecidableEq

/-- An extension can be added once. -/
def X509v3CertificateBuilder.addExtension (builder : X509v3CertificateBuilder)
    (extension : Extension) (critical : Bool) : Except Throwable X509v3CertificateBuilder :=
  if builder.extensions.any (fun added => added.1.getId = extension.getId) then
    .error { cls := .illegalArgumentException,
             message := u "extension " ++ extension.getId ++ u " already added" }
  else .ok { builder with extensions := builder.extensions ++ [(extension, critical)] }

/-! ## The modifiers -/

/-- `try { … } catch (Exception e) { throw new RuntimeException(message, e); }`. -/
def orRuntimeException {α : Type} (message : JString) (x : Except Throwable α) :
    Except Throwable α :=
  tryCatch x (fun e =>
    if e.instanceOf .exception then .error { cls := .runtimeException, message := message }
    else .error e)

def NameConstraintsModifier.subtree (trustDomain : JString) : NameConstraint → GeneralName
  | .uri domain => .uniformResourceIdentifier domain
  | .uriInTrustDomain domain => .uniformResourceIdentifier (domain ++ u "." ++ trustDomain)
  | .dnsInTrustDomain domain => .dNSName (domain ++ u "." ++ trustDomain)

def NameConstraintsModifier.apply (permitted : List NameConstraint) (trustDomain : JString)
    (builder : X509v3CertificateBuilder) : Except Throwable X509v3CertificateBuilder :=
  orRuntimeException (u "Failed to assign name constraints")
    (builder.addExtension
      (.nameConstraints (permitted.map (NameConstraintsModifier.subtree trustDomain))) true)

def BasicConstraintsModifier.apply (constraints : BasicConstraints)
    (builder : X509v3CertificateBuilder) : Except Throwable X509v3CertificateBuilder :=
  orRuntimeException (u "Failed to add basic constraints")
    (builder.addExtension (.basicConstraints
      (if constraints.type = .ca then some constraints.pathLenConstraint else none)) true)

namespace KeyUsage
def digitalSignature : Nat := 1 <<< 7
def keyEncipherment : Nat := 1 <<< 5
def keyCertSign : Nat := 1 <<< 2
end KeyUsage

def KeyUsageModifier.apply (constraints : BasicConstraints)
    (builder : X509v3CertificateBuilder) : Except Throwable X509v3CertificateBuilder :=
  orRuntimeException (u "Failed to add key usage")
    (builder.addExtension (.keyUsage
      (if constraints.type = .ca then KeyUsage.keyCertSign
        else KeyUsage.digitalSignature ||| KeyUsage.keyEncipherment)) true)

namespace SubjectAlternativeNameModifier

def toSpiffeIdPublisher (publisherId : JString) : Except Throwable JString :=
  let atIndex := publisherId.idxOf (ch '@')
  if atIndex = publisherId.length then
    .error { cls := .illegalArgumentException,
             message := u "Publisher ID must be in email-like format (role@domain): " ++
               publisherId }
  else
    let role := publisherId.take atIndex
    let domain := publisherId.drop (atIndex + 1)
    .ok (domain ++ u "/" ++ role)

/-- `spiffe://%s/operator/%s/%s/publisher/%s/workload/%s` for these ids. -/
def spiffeId (operatorDomain operatorRole tcaTrustDomain publisherId workloadId : JString) :
    Except Throwable JString := do
  let workloadTrustDomain := operatorDomain ++ u "." ++ tcaTrustDomain
  let publisher ← toSpiffeIdPublisher publisherId
  return u "spiffe://" ++ workloadTrustDomain ++ u "/operator/" ++ operatorDomain ++ u "/" ++
    operatorRole ++ u "/publisher/" ++ publisher ++ u "/workload/" ++ workloadId

/-- The URI that `apply` puts into the certificate. -/
def san (policy : Policy) (tcaTrustDomain : JString) : Except Throwable JString :=
  spiffeId policy.operatorDomain policy.operatorRole tcaTrustDomain policy.publisherId
    policy.workloadId

/-- Only a `CertIOException` is caught here, and adding the extension throws none. -/
def apply (policy : Policy) (tcaTrustDomain : JString) (builder : X509v3CertificateBuilder) :
    Except Throwable X509v3CertificateBuilder := do
  let san ← san policy tcaTrustDomain
  builder.addExtension (.subjectAlternativeName [.uniformResourceIdentifier san]) true

end SubjectAlternativeNameModifier

def CertificateModifier.apply :
    CertificateModifier → X509v3CertificateBuilder → Except Throwable X509v3CertificateBuilder
  | .nameConstraints permitted trustDomain => NameConstraintsModifier.apply permitted trustDomain
  | .basicConstraints constraints => BasicConstraintsModifier.apply constraints
  | .keyUsage constraints => KeyUsageModifier.apply constraints
  | .subjectAlternativeName policy tcaTrustDomain =>
    SubjectAlternativeNameModifier.apply policy tcaTrustDomain

/-! ## What the modifiers leave alone -/

/-- The values of the builder's constructor. -/
def X509v3CertificateBuilder.fields (builder : X509v3CertificateBuilder) :
    Bytes × Int × Int × Int × Bytes × PublicKey :=
  (builder.issuer, builder.serial, builder.notBefore, builder.notAfter, builder.subject,
    builder.publicKey)

theorem addExtension_fields {builder builder' : X509v3CertificateBuilder} {extension : Extension}
    {critical : Bool} (h : builder.addExtension extension critical = .ok builder') :
    builder'.fields = builder.fields := by
  unfold X509v3CertificateBuilder.addExtension at h
  split at h
  · cases h
  · rw [← Except.ok.inj h]
    rfl

theorem orRuntimeException_eq_ok {α : Type} {message : JString} {x : Except Throwable α} {a : α}
    (h : orRuntimeException message x = .ok a) : x = .ok a := by
  refine (except_tryCatch_eq_ok ?_).mp h
  intro e he
  split at he <;> cases he

theorem apply_fields {modifier : CertificateModifier}
    {builder builder' : X509v3CertificateBuilder} (h : modifier.apply builder = .ok builder') :
    builder'.fields = builder.fields := by
  cases modifier with
  | nameConstraints permitted trustDomain =>
    exact addExtension_fields (orRuntimeException_eq_ok h)
  | basicConstraints constraints => exact addExtension_fields (orRuntimeException_eq_ok h)
  | keyUsage constraints => exact addExtension_fields (orRuntimeException_eq_ok h)
  | subjectAlternativeName policy tcaTrustDomain =>
    obtain ⟨san, -, hadd⟩ := except_bind_eq_ok.mp h
    exact addExtension_fields hadd

theorem foldlM_apply_fields (modifiers : List CertificateModifier)
    {builder builder' : X509v3CertificateBuilder}
    (h : modifiers.foldlM (fun builder modifier => modifier.apply builder) builder =
      .ok builder') : builder'.fields = builder.fields := by
  induction modifiers generalizing builder with
  | nil => rw [← Except.ok.inj h]
  | cons modifier modifiers ih =>
    rw [List.foldlM_cons] at h
    obtain ⟨middle, hfirst, hrest⟩ := except_bind_eq_ok.mp h
    rw [ih hrest, apply_fields hfirst]

end Tca
