import TransparentCa.Tca.Domain

/- Policy files: the messages of `google.tca.policy.v2` as the generated classes expose
   them, and `PolicyV2Mapper`, which turns them into the domain's policies. The text of a
   mapping error ends with the printed message in the source; nothing reads that part and
   it is left out. -/
namespace Tca
open Java

namespace PolicyV2

/-- A `map` field: distinct keys, in iteration order. -/
structure ProtoMap (V : Type) where
  entries : List (JString × V)
  keys_nodup : (entries.map Prod.fst).Nodup

/-- `oneof values`. -/
inductive ReferenceValues where
  | oakReferenceValues (serialized : Bytes)
  | valuesNotSet

/-- `oneof constraint`. -/
inductive BasicConstraints where
  | caCertificate (pathLenConstraint : Int32)
  | leafCertificate
  | constraintNotSet

/-- `oneof name_constraint`. -/
inductive NameConstraint where
  | uri (subdomainInTcaDomain : JString)
  | dns (subdomainInTcaDomain : JString)
  | nameConstraintNotSet

structure NameConstraints where
  permittedSubtrees : List NameConstraint

structure X509Extensions where
  basicConstraints : Option BasicConstraints
  nameConstraints : Option NameConstraints

structure ProtoDuration where
  seconds : Int64
  nanos : Int32

/-- An absent submessage reads as its default, which is the value given here for it. -/
structure X509CertificateAttributes where
  maxCertificateValidity : ProtoDuration
  x509Extensions : X509Extensions
  certificateSubject : ProtoMap JString

structure Policy where
  publisherId : JString
  workloadId : JString
  operatorDomain : JString
  operatorRole : JString
  referenceValues : List ReferenceValues
  certificateAttributes : Option X509CertificateAttributes

structure Policies where
  policies : ProtoMap Policy
  issuer : JString
  subject : JString

end PolicyV2

namespace PolicyV2Mapper

def illegalArgument (message : JString) : Throwable := { cls := .illegalArgumentException, message }

def toReferenceValues : PolicyV2.ReferenceValues → Except Throwable ReferenceValues
  | .oakReferenceValues serialized => .ok ⟨.oak, serialized⟩
  | .valuesNotSet =>
    .error (illegalArgument (u "Unsupported or missing reference values type: "))

def toNameConstraint : PolicyV2.NameConstraint → Except Throwable NameConstraint
  | .uri subdomain => .ok (.uriInTrustDomain subdomain)
  | .dns subdomain => .ok (.dnsInTrustDomain subdomain)
  | .nameConstraintNotSet =>
    .error (illegalArgument (u "Unsupported or missing name constraint type: "))

def toNameConstraints (proto : PolicyV2.NameConstraints) : Except Throwable NameConstraints := do
  let subtrees ← proto.permittedSubtrees.mapM toNameConstraint
  return ⟨subtrees⟩

def toBasicConstraints : PolicyV2.BasicConstraints → Except Throwable BasicConstraints
  | .caCertificate pathLenConstraint => .ok ⟨.ca, pathLenConstraint⟩
  | .leafCertificate => .ok ⟨.leaf, 0⟩
  | .constraintNotSet =>
    .error (illegalArgument (u "Unsupported or missing certificate type: "))

def toX509Extensions (proto : PolicyV2.X509Extensions) : Except Throwable X509Extensions := do
  let basicConstraints ← proto.basicConstraints.mapM toBasicConstraints
  let nameConstraints ← proto.nameConstraints.mapM toNameConstraints
  return ⟨basicConstraints, nameConstraints⟩

def toX500NameAttributes (proto : PolicyV2.ProtoMap JString) : X500NameAttributes :=
  ⟨proto.entries⟩

def toX509CertificateAttributes (proto : PolicyV2.X509CertificateAttributes) :
    Except Throwable X509CertificateAttributes := do
  let maxCertificateValidity ← Duration.ofSeconds proto.maxCertificateValidity.seconds.toInt
    proto.maxCertificateValidity.nanos.toInt
  let extensions ← toX509Extensions proto.x509Extensions
  return ⟨maxCertificateValidity, extensions, toX500NameAttributes proto.certificateSubject⟩

def toPolicy (proto : PolicyV2.Policy) : Except Throwable Policy :=
  match proto.certificateAttributes with
  | none => .error (illegalArgument (u "Missing CertificateAttributes field, proto: "))
  | some attributes =>
    if proto.referenceValues.length < 1 then
      .error (illegalArgument (u "Policy should have at least one Reference Values, proto:\n"))
    else do
      let referenceValuesList ← proto.referenceValues.mapM toReferenceValues
      let certificateAttributes ← toX509CertificateAttributes attributes
      return { publisherId := proto.publisherId
               workloadId := proto.workloadId
               operatorDomain := proto.operatorDomain
               operatorRole := proto.operatorRole
               referenceValuesList
               certificateAttributes }

def toEntry (entry : JString × PolicyV2.Policy) : Except Throwable (JString × Policy) := do
  let policy ← toPolicy entry.2
  return (entry.1, policy)

/-- Every key is kept as the file has it, whatever the policy under it says. -/
def toDomain (proto : PolicyV2.Policies) : Except Throwable Policies :=
  match proto.policies.entries.mapM toEntry with
  | .ok policiesMap => .ok ⟨proto.issuer, proto.subject, policiesMap⟩
  | .error e =>
    if e.instanceOf .illegalArgumentException then
      .error { cls := .invalidPolicyException,
               message := u "Error occurred during policy parsing" }
    else .error e

theorem toPolicy_ids {proto : PolicyV2.Policy} {policy : Policy} (h : toPolicy proto = .ok policy) :
    policy.publisherId = proto.publisherId ∧ policy.workloadId = proto.workloadId := by
  unfold toPolicy at h
  split at h
  · cases h
  · split at h
    · cases h
    · next attributes _ _ =>
      cases hrv : proto.referenceValues.mapM toReferenceValues with
      | error e => simp [hrv, bind, Except.bind] at h
      | ok rvs =>
        cases hattrs : toX509CertificateAttributes attributes with
        | error e => simp [hrv, hattrs, bind, Except.bind] at h
        | ok attrs =>
          simp only [hrv, hattrs, bind, Except.bind, pure, Except.pure, Except.ok.injEq] at h
          rw [← h]
          exact ⟨rfl, rfl⟩

/-- Mapping the entries keeps them in place: same keys, and the ids of each policy. -/
theorem mapM_toEntry {entries : List (JString × PolicyV2.Policy)}
    {policies : List (JString × Policy)} (h : entries.mapM toEntry = .ok policies) :
    policies.map (fun e => (e.1, e.2.publisherId, e.2.workloadId)) =
      entries.map (fun e => (e.1, e.2.publisherId, e.2.workloadId)) := by
  induction entries generalizing policies with
  | nil =>
    simp only [List.mapM_nil, pure, Except.pure, Except.ok.injEq] at h
    rw [← h]; rfl
  | cons entry entries ih =>
    rw [List.mapM_cons] at h
    cases hentry : toPolicy entry.2 with
    | error e => simp [toEntry, hentry, bind, Except.bind] at h
    | ok policy =>
      cases hrest : entries.mapM toEntry with
      | error e => simp [toEntry, hentry, hrest, bind, Except.bind, pure, Except.pure] at h
      | ok rest =>
        simp only [toEntry, hentry, hrest, bind, Except.bind, pure, Except.pure,
          Except.ok.injEq] at h
        obtain ⟨hpublisher, hworkload⟩ := toPolicy_ids hentry
        rw [← h, List.map_cons, List.map_cons, ih hrest, hpublisher, hworkload]

theorem toDomain_ok {proto : PolicyV2.Policies} {policies : Policies}
    (h : toDomain proto = .ok policies) :
    policies.issuer = proto.issuer ∧ policies.subject = proto.subject ∧
      policies.policiesMap.map (fun e => (e.1, e.2.publisherId, e.2.workloadId)) =
        proto.policies.entries.map (fun e => (e.1, e.2.publisherId, e.2.workloadId)) := by
  unfold toDomain at h
  split at h
  · next hmap =>
    simp only [Except.ok.injEq] at h
    rw [← h]
    exact ⟨rfl, rfl, mapM_toEntry hmap⟩
  · split at h <;> cases h

end PolicyV2Mapper
end Tca
