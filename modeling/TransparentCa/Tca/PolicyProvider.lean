import TransparentCa.Lib.AssocList
import TransparentCa.Tca.Modifiers
import TransparentCa.Tca.PolicyV2

/- `FileSourcedPolicyProvider` and the name that ends up in the certificate. A policy is
   looked up under `publisherId + "/" + workloadId`, the name is built from the fields
   inside the policy, and nothing compares the two: whether they agree is decided by the
   file. `getPolicy_names_attested_iff` says for which files they always do. -/
namespace Tca
open Java Effects Effects.Prog AssocList

/-! ## FileSourcedPolicyProvider -/

/-- The collaborators of the provider: the file fetcher and the metrics. -/
structure FileSourcedPolicyProvider (Op : Type) (Val : Op → Type) where
  fetchFile : JString → CaProg Op Val (Option Bytes)
  incrementProcessingCounter : ProcessingStatus → CaProg Op Val Unit
  allowMetricsForClientId : JString → CaProg Op Val Unit

/-- What the provider relies on of protobuf: `ByteString.toStringUtf8` and the text format
parser, which throws `ParseException` on text that is no `Policies` message. -/
structure PolicyFileFormat where
  toStringUtf8 : Bytes → JString
  merge : JString → Except Throwable PolicyV2.Policies

namespace FileSourcedPolicyProvider

def parsers (format : PolicyFileFormat) : List (JString → Except Throwable Policies) :=
  [fun content => (format.merge content).bind PolicyV2Mapper.toDomain]

/-- The first parser that takes the content; a `ParseException` passes it on to the next. -/
def parsePolicies (content : JString) :
    List (JString → Except Throwable Policies) → Except Throwable Policies
  | [] => .error { cls := .illegalArgumentException,
                   message := u "All available parsers failed to parse the policy content." }
  | parser :: rest => match parser content with
    | .ok policies => .ok policies
    | .error e => if e.instanceOf .parseException then parsePolicies content rest else .error e

section
variable {Op : Type} {Val : Op → Type} (provider : FileSourcedPolicyProvider Op Val)
  (format : PolicyFileFormat)

def identityMismatchMessage (policies : Policies) (identity : CallerIdentity) : JString :=
  u "Policy identity mismatch. File for " ++ identity.getClientId ++ u " has issuer: " ++
    policies.issuer ++ u ", subject: " ++ policies.subject ++ u ", but request has issuer: " ++
    identity.issuer ++ u ", subject: " ++ identity.subject

def policyKey (publisherId workloadId : JString) : JString := publisherId ++ u "/" ++ workloadId

/-- The part of `getPolicy` after the file was parsed. -/
def selectPolicy (policies : Policies) (identity : CallerIdentity)
    (publisherId workloadId : JString) : CaProg Op Val (Option Policy) :=
  if policies.issuer ≠ identity.issuer ∨ policies.subject ≠ identity.subject then do
    provider.incrementProcessingCounter .policyIdentityMismatch
    throw { cls := .illegalArgumentException,
            message := identityMismatchMessage policies identity }
  else do
    provider.allowMetricsForClientId identity.getClientId
    return policies.get (policyKey publisherId workloadId)

def getPolicy (identity : CallerIdentity) (publisherId workloadId : JString) :
    CaProg Op Val (Option Policy) := do
  let rawFileOpt ← (provider.fetchFile identity.getClientId).handle (fun e =>
    if e.instanceOf .fileLoadException then return none else throw e)
  match rawFileOpt with
  | none => return none
  | some rawFile =>
    match parsePolicies (format.toStringUtf8 rawFile) (parsers format) with
    | .error e => if e.instanceOf .exception then return none else throw e
    | .ok domainPolicies => selectPolicy provider domainPolicies identity publisherId workloadId

end

/-! ## Any fetcher -/

inductive PolicyOp where
  | fetchFile (clientId : JString)
  | incrementProcessingCounter (status : ProcessingStatus)
  | allowMetricsForClientId (clientId : JString)
  deriving DecidableEq

abbrev PolicyOp.Val : PolicyOp → Type
  | .fetchFile _ => Option Bytes
  | .incrementProcessingCounter _ => Unit
  | .allowMetricsForClientId _ => Unit

abbrev PolicyEvent := Event PolicyOp PolicyOp.Val Throwable

def openProvider : FileSourcedPolicyProvider PolicyOp PolicyOp.Val where
  fetchFile clientId := Prog.invoke (PolicyOp.fetchFile clientId)
  incrementProcessingCounter status :=
    Prog.invoke (PolicyOp.incrementProcessingCounter status)
  allowMetricsForClientId clientId := Prog.invoke (PolicyOp.allowMetricsForClientId clientId)

/-- The fetcher gave `rawFile` for the caller's client id. -/
def fetched (identity : CallerIdentity) (rawFile : Bytes) : PolicyEvent :=
  ⟨.fetchFile identity.getClientId, .ok (some rawFile)⟩

def metricsAllowed (identity : CallerIdentity) : PolicyEvent :=
  ⟨.allowMetricsForClientId identity.getClientId, .ok ()⟩

section
variable {format : PolicyFileFormat} {identity : CallerIdentity}
  {publisherId workloadId : JString} {tr : List PolicyEvent} {p : Policy}

theorem runs_selectPolicy_some {policies : Policies} :
    Runs (selectPolicy openProvider policies identity publisherId workloadId) tr (.ok (some p)) ↔
      policies.issuer = identity.issuer ∧ policies.subject = identity.subject ∧
        policies.get (policyKey publisherId workloadId) = some p ∧
        tr = [metricsAllowed identity] := by
  unfold selectPolicy
  by_cases hid : policies.issuer = identity.issuer ∧ policies.subject = identity.subject
  · have hbranch : ¬ (policies.issuer ≠ identity.issuer ∨ policies.subject ≠ identity.subject) := by
      rintro (h | h)
      · exact h hid.1
      · exact h hid.2
    rw [if_neg hbranch]
    simp only [bind_eq, pure_eq, openProvider, runs_invoke_bind, runs_ret, Except.ok.injEq]
    refine ⟨fun h => ?_, fun h => ?_⟩
    · obtain ⟨⟨⟩, t, rfl, rfl, hget⟩ := h
      exact ⟨hid.1, hid.2, hget.symm, rfl⟩
    · obtain ⟨-, -, hget, rfl⟩ := h
      exact ⟨(), [], rfl, rfl, hget.symm⟩
  · have hbranch : policies.issuer ≠ identity.issuer ∨ policies.subject ≠ identity.subject := by
      by_cases hiss : policies.issuer = identity.issuer
      · exact .inr (fun hsub => hid ⟨hiss, hsub⟩)
      · exact .inl hiss
    rw [if_pos hbranch]
    refine ⟨fun h => ?_, fun h => absurd ⟨h.1, h.2.1⟩ hid⟩
    exact absurd h not_runs_bind_raise

/-- A policy comes out of `getPolicy` only from a fetched file that parses, is for this
caller and has it under this key. -/
theorem runs_getPolicy_some :
    Runs (getPolicy openProvider format identity publisherId workloadId) tr (.ok (some p)) ↔
      ∃ rawFile policies, tr = [fetched identity rawFile, metricsAllowed identity] ∧
        parsePolicies (format.toStringUtf8 rawFile) (parsers format) = .ok policies ∧
        policies.issuer = identity.issuer ∧ policies.subject = identity.subject ∧
        policies.get (policyKey publisherId workloadId) = some p := by
  unfold getPolicy
  rw [bind_eq, runs_bind_ok]
  refine ⟨fun h => ?_, fun h => ?_⟩
  · obtain ⟨rawFileOpt, t₁, t₂, rfl, hfetch, h⟩ := h
    cases rawFileOpt with
    | none => simp at h
    | some rawFile =>
      have hev : t₁ = [fetched identity rawFile] := by
        rcases runs_handle.mp hfetch with ⟨a, ha, hfetch⟩ | ⟨e, u₁, u₂, rfl, -, hcatch⟩
        · cases ha
          exact runs_invoke.mp hfetch
        · split at hcatch <;> simp at hcatch
      cases hparse : parsePolicies (format.toStringUtf8 rawFile) (parsers format) with
      | error e =>
        simp only [hparse] at h
        split at h <;> simp at h
      | ok policies =>
        simp only [hparse] at h
        obtain ⟨hiss, hsub, hget, rfl⟩ := runs_selectPolicy_some.mp h
        exact ⟨rawFile, policies, by rw [hev]; rfl, hparse, hiss, hsub, hget⟩
  · obtain ⟨rawFile, policies, rfl, hparse, hiss, hsub, hget⟩ := h
    refine ⟨some rawFile, [fetched identity rawFile], [metricsAllowed identity], rfl, ?_, ?_⟩
    · exact runs_handle.mpr (.inl ⟨_, rfl, runs_invoke.mpr rfl⟩)
    · simp only [hparse]
      exact runs_selectPolicy_some.mpr ⟨hiss, hsub, hget, rfl⟩

/-! ## Keys and the ids inside the policies -/

/-- The key cannot be looked up at all, or only as the pair of ids in the policy. -/
def KeyNamesPolicy (key publisherId workloadId : JString) : Prop :=
  ch '/' ∉ key ∨ (key.count (ch '/') = 1 ∧ key = policyKey publisherId workloadId)

instance (key publisherId workloadId : JString) :
    Decidable (KeyNamesPolicy key publisherId workloadId) :=
  inferInstanceAs (Decidable (_ ∨ _))

theorem policyKey_eq (publisherId workloadId : JString) :
    policyKey publisherId workloadId = publisherId ++ ch '/' :: workloadId := by
  simp [policyKey, u]

theorem count_policyKey (a b : JString) :
    (policyKey a b).count (ch '/') = a.count (ch '/') + b.count (ch '/') + 1 := by
  rw [policyKey_eq, List.count_append, List.count_cons_self]
  omega

/-- With one separator in it a key has one reading. -/
theorem policyKey_injective {a b c d : JString} (h : policyKey a b = policyKey c d)
    (hcount : (policyKey c d).count (ch '/') = 1) : a = c ∧ b = d := by
  have hc := count_policyKey a b
  rw [h, hcount] at hc
  have ha : ch '/' ∉ a := List.count_eq_zero.mp (by omega)
  have hb : ch '/' ∉ b := List.count_eq_zero.mp (by omega)
  rw [policyKey_eq, policyKey_eq, List.append_cons_inj_of_notMem ha hb] at h
  exact ⟨h.1, h.2.2⟩

theorem keyNamesPolicy_iff {key publisherId workloadId : JString} :
    KeyNamesPolicy key publisherId workloadId ↔
      ∀ a b, policyKey a b = key → publisherId = a ∧ workloadId = b := by
  refine ⟨fun h a b hkey => ?_, fun h => ?_⟩
  · rcases h with h | ⟨hcount, heq⟩
    · rw [← hkey, policyKey_eq] at h
      simp at h
    · rw [heq] at hkey hcount
      obtain ⟨ha, hb⟩ := policyKey_injective hkey hcount
      exact ⟨ha.symm, hb.symm⟩
  · by_cases hmem : ch '/' ∈ key
    · obtain ⟨a, b, hab⟩ := List.append_of_mem hmem
      have hkey : policyKey a b = key := by rw [policyKey_eq, hab]
      obtain ⟨rfl, rfl⟩ := h a b hkey
      -- A second separator on either side would be a second reading of the key.
      have hpub : ch '/' ∉ publisherId := by
        intro hin
        obtain ⟨c, d, rfl⟩ := List.append_of_mem hin
        have hsecond : policyKey c (d ++ ch '/' :: workloadId) = key := by
          rw [policyKey_eq, hab]; simp
        have hlen := congrArg List.length (h _ _ hsecond).1
        simp at hlen
      have hwork : ch '/' ∉ workloadId := by
        intro hin
        obtain ⟨c, d, rfl⟩ := List.append_of_mem hin
        have hsecond : policyKey (publisherId ++ ch '/' :: c) d = key := by
          rw [policyKey_eq, hab]; simp
        have hlen := congrArg List.length (h _ _ hsecond).1
        simp at hlen
      refine .inr ⟨?_, hkey.symm⟩
      rw [← hkey, count_policyKey, List.count_eq_zero.mpr hpub, List.count_eq_zero.mpr hwork]
    · exact .inl hmem

/-- The file is for this caller and the policy is for this workload, and so is the name
that the certificate gets. -/
structure NamesAttested (file : PolicyV2.Policies) (identity : CallerIdentity)
    (publisherId workloadId : JString) (p : Policy) : Prop where
  issuer : file.issuer = identity.issuer
  subject : file.subject = identity.subject
  publisher : p.publisherId = publisherId
  workload : p.workloadId = workloadId
  spiffeId : ∀ tcaTrustDomain, SubjectAlternativeNameModifier.san p tcaTrustDomain =
    SubjectAlternativeNameModifier.spiffeId p.operatorDomain p.operatorRole tcaTrustDomain
      publisherId workloadId

theorem parsePolicies_of_merge {content : JString} {file : PolicyV2.Policies} {policies : Policies}
    (hmerge : format.merge content = .ok file)
    (hmap : PolicyV2Mapper.toDomain file = .ok policies) :
    parsePolicies content (parsers format) = .ok policies := by
  simp [parsePolicies, parsers, hmerge, Except.bind, hmap]

/-- Over all attested pairs: every policy the provider returns from this file is for the
attested workload iff the file is for another caller or its keys name its policies. -/
theorem getPolicy_names_attested_iff {rawFile : Bytes} {file : PolicyV2.Policies}
    {policies : Policies} (hmerge : format.merge (format.toStringUtf8 rawFile) = .ok file)
    (hmap : PolicyV2Mapper.toDomain file = .ok policies) :
    (∀ publisherId workloadId tr p,
      Runs (getPolicy openProvider format identity publisherId workloadId) tr (.ok (some p)) →
      fetched identity rawFile ∈ tr → NamesAttested file identity publisherId workloadId p) ↔
    (file.issuer = identity.issuer → file.subject = identity.subject →
      ∀ entry ∈ file.policies.entries,
        KeyNamesPolicy entry.1 entry.2.publisherId entry.2.workloadId) := by
  obtain ⟨hissuer, hsubject, hentries⟩ := PolicyV2Mapper.toDomain_ok hmap
  have hparse := parsePolicies_of_merge hmerge hmap
  have hkeys : (policies.policiesMap.map Prod.fst).Nodup := by
    have hfst := congrArg (List.map Prod.fst) hentries
    simp only [List.map_map, Function.comp_def] at hfst
    rw [hfst]
    exact file.policies.keys_nodup
  -- The entries of the file and of the parsed map correspond.
  have hcorr : ∀ key pub work, (∃ p : Policy, (key, p) ∈ policies.policiesMap ∧
      p.publisherId = pub ∧ p.workloadId = work) ↔
      ∃ q : PolicyV2.Policy, (key, q) ∈ file.policies.entries ∧
        q.publisherId = pub ∧ q.workloadId = work := by
    intro key pub work
    have hmem : (key, pub, work) ∈ policies.policiesMap.map
        (fun e => (e.1, e.2.publisherId, e.2.workloadId)) ↔ (key, pub, work) ∈
        file.policies.entries.map (fun e => (e.1, e.2.publisherId, e.2.workloadId)) := by
      rw [hentries]
    simpa using hmem
  refine ⟨fun hall hiss hsub entry hentry => ?_, fun hcond publisherId workloadId tr p hrun hin => ?_⟩
  · rw [keyNamesPolicy_iff]
    intro a b hkey
    obtain ⟨p, hp, hpub, hwork⟩ := (hcorr entry.1 _ _).mpr ⟨entry.2, hentry, rfl, rfl⟩
    have hrun := runs_getPolicy_some.mpr ⟨rawFile, policies, rfl, hparse, hissuer.trans hiss,
      hsubject.trans hsub, (lookup_eq_some_iff hkeys).mpr (hkey ▸ hp)⟩
    have hnames := hall a b _ p hrun List.mem_cons_self
    exact ⟨hpub.symm.trans hnames.publisher, hwork.symm.trans hnames.workload⟩
  · obtain ⟨rawFile', policies', rfl, hparse', hiss, hsub, hget⟩ := runs_getPolicy_some.mp hrun
    obtain rfl : rawFile = rawFile' := by
      simpa [fetched, metricsAllowed] using hin
    obtain rfl : policies = policies' := Except.ok.inj (hparse.symm.trans hparse')
    have hp := (lookup_eq_some_iff hkeys).mp hget
    obtain ⟨q, hq, hpub, hwork⟩ := (hcorr _ _ _).mp ⟨p, hp, rfl, rfl⟩
    have hkey := hcond (hissuer ▸ hiss) (hsubject ▸ hsub) _ hq
    obtain ⟨hpub', hwork'⟩ := keyNamesPolicy_iff.mp hkey publisherId workloadId rfl
    have hp₁ : p.publisherId = publisherId := hpub.symm.trans hpub'
    have hp₂ : p.workloadId = workloadId := hwork.symm.trans hwork'
    exact ⟨hissuer ▸ hiss, hsubject ▸ hsub, hp₁, hp₂, fun _ => by
      rw [SubjectAlternativeNameModifier.san, hp₁, hp₂]⟩

end

/-! Two files with one policy each, for `bob@b` and its workload `v`. -/

namespace Sample

def text (key : JString) : JString :=
  u "issuer:'iss' subject:'sub' policies\x7bkey:'" ++ key ++
    u "' value\x7bpublisher_id:'bob@b' workload_id:'v' reference_values\x7boak_reference_values\x7b\x7d\x7d certificate_attributes\x7b\x7d\x7d\x7d"

def policy : PolicyV2.Policy :=
  ⟨u "bob@b", u "v", [], [], [.oakReferenceValues Bytes.empty],
    some ⟨⟨0, 0⟩, ⟨none, none⟩, ⟨[], List.nodup_nil⟩⟩⟩

/-- The message that `text key` spells. -/
def file (key : JString) : PolicyV2.Policies :=
  ⟨⟨[(key, policy)], by simp⟩, u "iss", u "sub"⟩

def bobKey : JString := u "bob@b/v"
def aliceKey : JString := u "alice@a/w"

def bobFile : Bytes := ⟨(text bobKey).map UInt16.toUInt8, by decide +kernel⟩
def aliceFile : Bytes := ⟨(text aliceKey).map UInt16.toUInt8, by decide +kernel⟩

/-- The decoder on ASCII text and the parser on the two files. -/
def format : PolicyFileFormat where
  toStringUtf8 bytes := bytes.val.map UInt8.toUInt16
  merge content :=
    if content = text bobKey then .ok (file bobKey)
    else if content = text aliceKey then .ok (file aliceKey)
    else .error { cls := .parseException }

def identity : CallerIdentity := ⟨u "iss", u "sub", []⟩

def domainPolicy : Policy :=
  ⟨u "bob@b", u "v", [], [], [⟨.oak, Bytes.empty⟩], ⟨0, ⟨none, none⟩, ⟨[]⟩⟩⟩

def policies (key : JString) : Policies := ⟨u "iss", u "sub", [(key, domainPolicy)]⟩

theorem merge_bobFile : format.merge (format.toStringUtf8 bobFile) = .ok (file bobKey) := by
  have htext : format.toStringUtf8 bobFile = text bobKey := by decide +kernel
  rw [htext]
  simp only [format, if_true]

theorem merge_aliceFile : format.merge (format.toStringUtf8 aliceFile) = .ok (file aliceKey) := by
  have htext : format.toStringUtf8 aliceFile = text aliceKey := by decide +kernel
  have hne : text aliceKey ≠ text bobKey := by decide +kernel
  rw [htext]
  simp only [format, hne, if_false, if_true]

end Sample

theorem getPolicy_names_attested_bob :
    PolicyV2Mapper.toDomain (Sample.file Sample.bobKey) = .ok (Sample.policies Sample.bobKey) ∧
    ∀ publisherId workloadId tr p,
      Runs (getPolicy openProvider Sample.format Sample.identity publisherId workloadId) tr
        (.ok (some p)) →
      fetched Sample.identity Sample.bobFile ∈ tr →
      NamesAttested (Sample.file Sample.bobKey) Sample.identity publisherId workloadId p := by
  refine ⟨rfl, (getPolicy_names_attested_iff Sample.merge_bobFile rfl).mpr ?_⟩
  intro _ _ entry hentry
  rw [List.mem_singleton.mp hentry]
  decide

/-- Under Alice's key lies Bob's policy: the provider returns it for Alice's workload, and
the certificate names Bob's. -/
theorem getPolicy_names_other_publisher :
    PolicyV2Mapper.toDomain (Sample.file Sample.aliceKey) = .ok (Sample.policies Sample.aliceKey) ∧
    (∃ tr, Runs (getPolicy openProvider Sample.format Sample.identity (u "alice@a") (u "w"))
        tr (.ok (some Sample.domainPolicy)) ∧
      fetched Sample.identity Sample.aliceFile ∈ tr) ∧
    ¬ NamesAttested (Sample.file Sample.aliceKey) Sample.identity (u "alice@a") (u "w")
      Sample.domainPolicy ∧
    SubjectAlternativeNameModifier.san Sample.domainPolicy (u "tca.example") =
      .ok (u "spiffe://.tca.example/operator///publisher/b/bob/workload/v") := by
  refine ⟨rfl, ⟨_, runs_getPolicy_some.mpr ⟨Sample.aliceFile, Sample.policies Sample.aliceKey, rfl,
    parsePolicies_of_merge Sample.merge_aliceFile rfl, rfl, rfl, by decide⟩,
    List.mem_cons_self⟩, ?_, by decide⟩
  intro h
  exact absurd h.publisher (by decide)

end FileSourcedPolicyProvider
end Tca
