import TransparentCa.Tca.CsrInfluence

/- What a policy puts into a certificate. The modifiers write one after another into the
   builder, each refusing an extension that is already there; since they all write different
   ones, the builder ends with the two key identifiers and then the extensions of the policy,
   in this order, and signing fails only where a library fails or the policy's publisher has
   no name. -/
namespace Tca
open Java Mbs Effects Effects.Prog

/-- The extensions that a policy asks for, all critical. A CA signs certificates and nothing
else; a leaf does not sign certificates. -/
def policyExtensions (policy : Policy) (trustDomain san : JString) : List (Extension × Bool) :=
  (match policy.certificateAttributes.extensions.nameConstraints with
    | some constraints => [(.nameConstraints (constraints.permittedSubtrees.map
        (NameConstraintsModifier.subtree trustDomain)), true)]
    | none => []) ++
  (match policy.certificateAttributes.extensions.basicConstraints with
    | some constraints => match constraints.type with
      | .ca => [(.basicConstraints (some constraints.pathLenConstraint), true),
          (.keyUsage KeyUsage.keyCertSign, true)]
      | .leaf => [(.basicConstraints none, true),
          (.keyUsage (KeyUsage.digitalSignature ||| KeyUsage.keyEncipherment), true)]
    | none => []) ++
  [(.subjectAlternativeName [.uniformResourceIdentifier san], true)]

theorem addExtension_new {builder : X509v3CertificateBuilder} {extension : Extension}
    (critical : Bool)
    (h : builder.extensions.any (fun added => added.1.getId = extension.getId) = false) :
    builder.addExtension extension critical =
      .ok { builder with extensions := builder.extensions ++ [(extension, critical)] } := by
  simp [X509v3CertificateBuilder.addExtension, h]

/-- A modifier that adds one extension, whatever it wraps around. -/
theorem apply_of_addExtension {builder : X509v3CertificateBuilder} {extension : Extension}
    {message : JString}
    (h : builder.extensions.any (fun added => added.1.getId = extension.getId) = false) :
    orRuntimeException message (builder.addExtension extension true) =
      .ok { builder with extensions := builder.extensions ++ [(extension, true)] } := by
  rw [addExtension_new true h]
  rfl

section
variable {builder : X509v3CertificateBuilder} {policy : Policy} {trustDomain : JString}

/-- The part of `create` for the subject alternative name comes last. -/
theorem apply_subjectAlternativeName
    (h : builder.extensions.any (fun added => added.1.getId = u "2.5.29.17") = false) :
    (CertificateModifier.subjectAlternativeName policy trustDomain).apply builder =
      (SubjectAlternativeNameModifier.san policy trustDomain).map (fun san =>
        { builder with extensions := builder.extensions ++
            [(.subjectAlternativeName [.uniformResourceIdentifier san], true)] }) := by
  simp only [CertificateModifier.apply, SubjectAlternativeNameModifier.apply]
  cases SubjectAlternativeNameModifier.san policy trustDomain with
  | error e => rfl
  | ok san => exact addExtension_new true h

theorem apply_nameConstraints {permitted : List NameConstraint}
    (h : builder.extensions.any (fun added => added.1.getId = u "2.5.29.30") = false) :
    (CertificateModifier.nameConstraints permitted trustDomain).apply builder =
      .ok { builder with extensions := builder.extensions ++
        [(.nameConstraints (permitted.map (NameConstraintsModifier.subtree trustDomain)), true)] } :=
  apply_of_addExtension h

theorem apply_basicConstraints {constraints : BasicConstraints}
    (h : builder.extensions.any (fun added => added.1.getId = u "2.5.29.19") = false) :
    (CertificateModifier.basicConstraints constraints).apply builder =
      .ok { builder with extensions := builder.extensions ++ [(.basicConstraints
        (if constraints.type = .ca then some constraints.pathLenConstraint else none), true)] } :=
  apply_of_addExtension h

theorem apply_keyUsage {constraints : BasicConstraints}
    (h : builder.extensions.any (fun added => added.1.getId = u "2.5.29.15") = false) :
    (CertificateModifier.keyUsage constraints).apply builder =
      .ok { builder with extensions := builder.extensions ++ [(.keyUsage
        (if constraints.type = .ca then KeyUsage.keyCertSign
          else KeyUsage.digitalSignature ||| KeyUsage.keyEncipherment), true)] } :=
  apply_of_addExtension h

theorem except_ok_bind {α β : Type} (a : α) (f : α → Except Throwable β) :
    (Except.ok a >>= f) = f a := rfl

/-- On a builder with the two key identifiers, the modifiers of a policy write its extensions. -/
theorem foldlM_create {aki ski : Bytes}
    (hextensions : builder.extensions =
      [(.authorityKeyIdentifier aki, false), (.subjectKeyIdentifier ski, false)]) :
    (CertificateModifiersCreatorImpl.create policy trustDomain).foldlM
        (fun builder modifier => modifier.apply builder) builder =
      (SubjectAlternativeNameModifier.san policy trustDomain).map (fun san =>
        { builder with extensions :=
            builder.extensions ++ policyExtensions policy trustDomain san }) := by
  obtain ⟨issuer, serial, notBefore, notAfter, subject, publicKey, extensions⟩ := builder
  obtain rfl : extensions = _ := hextensions
  obtain ⟨publisherId, workloadId, operatorDomain, operatorRole, referenceValuesList, validity,
    ⟨basic, names⟩, certificateSubject⟩ := policy
  -- Which of the modifiers there are, and for a CA or for a leaf.
  cases names with
  | none =>
    cases basic with
    | none =>
      simp only [CertificateModifiersCreatorImpl.create, List.append_nil, List.nil_append,
        List.foldlM_cons, List.foldlM_nil, bind_pure]
      rw [apply_subjectAlternativeName rfl]
      rfl
    | some constraints =>
      simp only [CertificateModifiersCreatorImpl.create, List.cons_append, List.nil_append,
        List.foldlM_cons, List.foldlM_nil, bind_pure]
      rw [apply_basicConstraints rfl, except_ok_bind, apply_keyUsage rfl, except_ok_bind,
        apply_subjectAlternativeName rfl]
      obtain ⟨type, pathLenConstraint⟩ := constraints
      cases type <;> rfl
  | some names =>
    cases basic with
    | none =>
      simp only [CertificateModifiersCreatorImpl.create, List.cons_append, List.nil_append,
        List.append_nil, List.foldlM_cons, List.foldlM_nil, bind_pure]
      rw [apply_nameConstraints rfl, except_ok_bind, apply_subjectAlternativeName rfl]
      rfl
    | some constraints =>
      simp only [CertificateModifiersCreatorImpl.create, List.cons_append, List.nil_append,
        List.foldlM_cons, List.foldlM_nil, bind_pure]
      rw [apply_nameConstraints rfl, except_ok_bind, apply_basicConstraints rfl, except_ok_bind,
        apply_keyUsage rfl, except_ok_bind, apply_subjectAlternativeName rfl]
      obtain ⟨type, pathLenConstraint⟩ := constraints
      cases type <;> rfl

end

/-! ## The builder that is signed -/

section
variable {sig : SignerPlatform} {args : SignCsr} {csrPublicKeyInfo : Bytes} {serial : Int}
  {builder : X509v3CertificateBuilder} {policy : Policy} {trustDomain : JString}

theorem except_map_eq_ok {α β : Type} {x : Except Throwable α} {f : α → β} {b : β} :
    x.map f = .ok b ↔ ∃ a, x = .ok a ∧ f a = b := by
  cases x <;> simp [Except.map]

/-- With a policy's modifiers, the certificate that is signed is the one the policy describes,
and there is one exactly where the libraries, the dates and the publisher's id allow it. -/
theorem certBuilder_eq_ok_iff
    (hmodifiers : args.modifiers = CertificateModifiersCreatorImpl.create policy trustDomain) :
    CertificateSignerImpl.certBuilder sig args csrPublicKeyInfo serial = .ok builder ↔
      ∃ notBefore notAfter publicKey aki ski san,
        Date.from args.notBefore = .ok notBefore ∧ Date.from args.notAfter = .ok notAfter ∧
        sig.getPublicKey csrPublicKeyInfo = .ok publicKey ∧ sig.newExtensionUtils = .ok () ∧
        CertificateSignerImpl.createAuthorityKeyIdentifier sig args.issuerCert = .ok aki ∧
        sig.createSubjectKeyIdentifier csrPublicKeyInfo = .ok ski ∧
        SubjectAlternativeNameModifier.san policy trustDomain = .ok san ∧
        sig.newContentSigner args.issuerPrivateKey = .ok () ∧
        builder =
          { issuer := sig.getSubjectX500Principal args.issuerCert
            serial := serial
            notBefore := notBefore
            notAfter := notAfter
            subject := args.subject
            publicKey := publicKey
            extensions := [(.authorityKeyIdentifier aki, false),
              (.subjectKeyIdentifier ski, false)] ++ policyExtensions policy trustDomain san } := by
  unfold CertificateSignerImpl.certBuilder
  rw [hmodifiers]
  simp only [except_bind_eq_ok]
  refine ⟨fun h => ?_, fun h => ?_⟩
  · obtain ⟨notBefore, hnotBefore, notAfter, hnotAfter, publicKey, hpublicKey, ⟨⟩, hutils, aki, haki,
      ski, hski, b₁, h₁, b₂, h₂, b₃, h₃, ⟨⟩, hsigner, hreturn⟩ := h
    rw [addExtension_new false rfl] at h₁
    obtain rfl := Except.ok.inj h₁
    rw [addExtension_new false rfl] at h₂
    obtain rfl := Except.ok.inj h₂
    rw [foldlM_create rfl, except_map_eq_ok] at h₃
    obtain ⟨san, hsan, rfl⟩ := h₃
    exact ⟨notBefore, notAfter, publicKey, aki, ski, san, hnotBefore, hnotAfter, hpublicKey, hutils,
      haki, hski, hsan, hsigner, (Except.ok.inj hreturn).symm⟩
  · obtain ⟨notBefore, notAfter, publicKey, aki, ski, san, hnotBefore, hnotAfter, hpublicKey, hutils,
      haki, hski, hsan, hsigner, rfl⟩ := h
    refine ⟨notBefore, hnotBefore, notAfter, hnotAfter, publicKey, hpublicKey, (), hutils, aki, haki,
      ski, hski, _, addExtension_new false rfl, _, addExtension_new false rfl, _, ?_, (), hsigner, rfl⟩
    rw [foldlM_create rfl, hsan]
    rfl

/-- A run of the signer under a policy that returns: one look at the clock, and then one
certificate, with the contents that the policy describes and the key of the request. -/
theorem signCsr_returns_iff {lib : Platform} {tr : List TcaEvent} {certificate : X509Certificate}
    (hmodifiers : args.modifiers = CertificateModifiersCreatorImpl.create policy trustDomain) :
    Runs (CertificateSignerImpl.signCsr lib sig (askCa .now) build args) tr (.ok certificate) ↔
      ∃ csrPublicKeyInfo clock serial notBefore notAfter publicKey aki ski san,
        lib.subjectPublicKeyInfo args.csrBytes = .ok csrPublicKeyInfo ∧
        Instant.toEpochMilli clock = .ok serial ∧
        Date.from args.notBefore = .ok notBefore ∧ Date.from args.notAfter = .ok notAfter ∧
        sig.getPublicKey csrPublicKeyInfo = .ok publicKey ∧ sig.newExtensionUtils = .ok () ∧
        CertificateSignerImpl.createAuthorityKeyIdentifier sig args.issuerCert = .ok aki ∧
        sig.createSubjectKeyIdentifier csrPublicKeyInfo = .ok ski ∧
        SubjectAlternativeNameModifier.san policy trustDomain = .ok san ∧
        sig.newContentSigner args.issuerPrivateKey = .ok () ∧
        tr = [⟨.ca .now, .ok clock⟩, ⟨.build
          { issuer := sig.getSubjectX500Principal args.issuerCert
            serial := serial
            notBefore := notBefore
            notAfter := notAfter
            subject := args.subject
            publicKey := publicKey
            extensions := [(.authorityKeyIdentifier aki, false),
              (.subjectKeyIdentifier ski, false)] ++ policyExtensions policy trustDomain san }
          args.issuerPrivateKey, .ok certificate⟩] := by
  unfold CertificateSignerImpl.signCsr
  rw [tryCatch_eq, runs_handle_ok (by simp)]
  simp only [bind_eq, askCa, build, runs_ofExcept_bind, runs_invoke_bind, runs_invoke,
    certBuilder_eq_ok_iff hmodifiers]
  refine ⟨fun h => ?_, fun h => ?_⟩
  · obtain ⟨info, hinfo, clock, t, rfl, serial, hserial, builder, ⟨notBefore, notAfter, publicKey,
      aki, ski, san, hnotBefore, hnotAfter, hpublicKey, hutils, haki, hski, hsan, hsigner, rfl⟩,
      rfl⟩ := h
    exact ⟨info, clock, serial, notBefore, notAfter, publicKey, aki, ski, san, hinfo, hserial,
      hnotBefore, hnotAfter, hpublicKey, hutils, haki, hski, hsan, hsigner, rfl⟩
  · obtain ⟨info, clock, serial, notBefore, notAfter, publicKey, aki, ski, san, hinfo, hserial,
      hnotBefore, hnotAfter, hpublicKey, hutils, haki, hski, hsan, hsigner, rfl⟩ := h
    exact ⟨info, hinfo, clock, _, rfl, serial, hserial, _, ⟨notBefore, notAfter, publicKey, aki,
      ski, san, hnotBefore, hnotAfter, hpublicKey, hutils, haki, hski, hsan, hsigner, rfl⟩, rfl⟩

end

/-! The sample request under a policy that asks for a constrained CA. -/

namespace Sample

def caPolicy : Policy :=
  { emailPolicy with certificateAttributes :=
      ⟨3600 * nanosPerSecond,
        ⟨some ⟨.ca, 0⟩, some ⟨[.uri (u "operator.example"), .dnsInTrustDomain (u "operator")]⟩⟩,
        ⟨[]⟩⟩ }

theorem notBefore_lt : 1800000000 < 10 ^ 10 := by decide
theorem notAfter_lt : 1800003600 < 10 ^ 10 := by decide

def signingArgs : SignCsr where
  csrBytes := csr
  issuerCert := rsaRoot.certificate
  issuerPrivateKey := rsaRoot.privateKey
  notBefore := instant 1800000000 notBefore_lt
  notAfter := instant 1800003600 notAfter_lt
  modifiers := CertificateModifiersCreatorImpl.create caPolicy (u "tca.example")
  subject := emptyName

def intermediateName : JString :=
  u "spiffe://operator.example.tca.example/operator/operator.example/role/publisher" ++
    u "/publisher.example/role/workload/workload"

def intermediate : X509Certificate := certificate intermediateName

def intermediateBuilder : X509v3CertificateBuilder where
  issuer := emptyName
  serial := 1800000000000
  notBefore := 1800000000000
  notAfter := 1800003600000
  subject := emptyName
  publicKey := csrKey
  extensions :=
    [(.authorityKeyIdentifier keyIdentifier, false), (.subjectKeyIdentifier keyIdentifier, false),
      (.nameConstraints [.uniformResourceIdentifier (u "operator.example"),
        .dNSName (u "operator.tca.example")], true),
      (.basicConstraints (some 0), true), (.keyUsage KeyUsage.keyCertSign, true),
      (.subjectAlternativeName [.uniformResourceIdentifier intermediateName], true)]

end Sample

theorem signCsr_returns_sample :
    Runs (CertificateSignerImpl.signCsr Sample.platform Sample.signerPlatform (askCa .now) build
        Sample.signingArgs)
      [⟨.ca .now, .ok Sample.signingArgs.notBefore⟩,
        ⟨.build Sample.intermediateBuilder Sample.rsaRoot.privateKey, .ok Sample.intermediate⟩]
      (.ok Sample.intermediate) := by
  have hmodifiers : Sample.signingArgs.modifiers =
      CertificateModifiersCreatorImpl.create Sample.caPolicy (u "tca.example") := rfl
  exact (signCsr_returns_iff hmodifiers).mpr ⟨Sample.csrKeyBytes,
    Sample.signingArgs.notBefore, 1800000000000, 1800000000000, 1800003600000, Sample.csrKey,
    Sample.keyIdentifier, Sample.keyIdentifier, Sample.intermediateName,
    rfl, by decide, by decide, by decide, rfl, rfl, rfl, rfl, by decide, by decide, rfl⟩

end Tca
