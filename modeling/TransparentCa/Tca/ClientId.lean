import TransparentCa.Lib.PrefixCode
import TransparentCa.Tca.PolicyProvider

/- What a client id identifies. The issuer and the subject are escaped one by one and joined
   by a slash, which no escaped text holds; the escape is a prefix-free code, so both can be
   read back. Policy files are fetched and certificates counted under the client id, so the
   files and the counters of two callers are apart. -/
namespace Tca
open Java Effects Effects.Prog PrefixCode

/-! ## The escape -/

/-- How `escape` writes one unit. -/
def escaped (c : UInt16) : JString := if isSafe c then [c] else escapeUnit c

theorem escape_eq (s : JString) : escape s = s.flatMap escaped := rfl

theorem isSafe_hexDigit {n : Nat} (h : n < 16) : isSafe (hexDigit n) = true := by
  interval_cases n <;> decide

theorem underscore_not_safe : isSafe (ch '_') = false := by decide

theorem slash_not_safe : isSafe (ch '/') = false := by decide

/-- The four digits of an escaped unit say which unit it is. -/
theorem escapeUnit_injective {c d : UInt16} (h : escapeUnit c = escapeUnit d) : c = d := by
  simp only [escapeUnit, List.cons.injEq, true_and, and_true] at h
  obtain ⟨h₃, h₂, h₁, h₀⟩ := h
  have e₃ := hexDigit_injective (by omega) (by omega) h₃
  have e₂ := hexDigit_injective (by omega) (by omega) h₂
  have e₁ := hexDigit_injective (by omega) (by omega) h₁
  have e₀ := hexDigit_injective (by omega) (by omega) h₀
  have hc := c.toNat_lt
  have hd := d.toNat_lt
  apply UInt16.toNat_inj.mp
  omega

theorem escaped_prefixFree : PrefixFree escaped where
  nonempty c := by
    unfold escaped
    split
    · simp
    · simp [escapeUnit]
  eq_of_prefix c d hpre := by
    unfold escaped at hpre
    by_cases hc : isSafe c = true <;> by_cases hd : isSafe d = true
    · simpa [hc, hd] using hpre
    -- A safe unit is not the escape character.
    · simp only [hc, hd, if_true, Bool.false_eq_true, if_false, escapeUnit] at hpre
      have heq : c = ch '_' := (List.cons_prefix_cons.mp hpre).1
      rw [heq, underscore_not_safe] at hc
      cases hc
    · simp only [hc, hd, if_true, Bool.false_eq_true, if_false, escapeUnit] at hpre
      have hlen := hpre.length_le
      simp at hlen
    · simp only [hc, hd, Bool.false_eq_true, if_false] at hpre
      exact escapeUnit_injective (hpre.eq_of_length rfl)

theorem escape_injective : Function.Injective escape := escaped_prefixFree.flatMap_injective

/-- Escaped text holds safe characters and the escape character. -/
theorem mem_escape {s : JString} {x : UInt16} (h : x ∈ escape s) : isSafe x = true ∨ x = ch '_' := by
  rw [escape_eq] at h
  obtain ⟨c, -, hx⟩ := List.mem_flatMap.mp h
  unfold escaped at hx
  split at hx
  · next hc =>
    rw [List.mem_singleton.mp hx]
    exact .inl hc
  · have hdigit : ∀ n : Nat, isSafe (hexDigit (n % 16)) = true :=
      fun n => isSafe_hexDigit (Nat.mod_lt n (by decide))
    simp only [escapeUnit, List.mem_cons, List.not_mem_nil, or_false] at hx
    rcases hx with rfl | rfl | rfl | rfl | rfl
    · exact .inr rfl
    · exact .inl (hdigit _)
    · exact .inl (hdigit _)
    · exact .inl (hdigit _)
    · exact .inl (hdigit _)

theorem slash_not_mem_escape (s : JString) : ch '/' ∉ escape s := by
  intro h
  rcases mem_escape h with hsafe | heq
  · rw [slash_not_safe] at hsafe
    cases hsafe
  · exact absurd heq (by decide)

/-! ## The client id -/

namespace CallerIdentity

theorem getClientId_eq (c : CallerIdentity) :
    c.getClientId = escape c.issuer ++ ch '/' :: escape c.subject := by
  simp [getClientId, u]

theorem getClientId_injective {c c' : CallerIdentity} (h : c.getClientId = c'.getClientId) :
    c.issuer = c'.issuer ∧ c.subject = c'.subject := by
  rw [getClientId_eq, getClientId_eq, List.append_cons_inj_of_notMem (slash_not_mem_escape _)
    (slash_not_mem_escape _)] at h
  exact ⟨escape_injective h.1, escape_injective h.2.2⟩

theorem mem_getClientId {c : CallerIdentity} {x : UInt16} (h : x ∈ c.getClientId) :
    isSafe x = true ∨ x = ch '_' ∨ x = ch '/' := by
  rw [getClientId_eq, List.mem_append, List.mem_cons] at h
  rcases h with h | rfl | h
  · rcases mem_escape h with hsafe | heq
    · exact .inl hsafe
    · exact .inr (.inl heq)
  · exact .inr (.inr rfl)
  · rcases mem_escape h with hsafe | heq
    · exact .inl hsafe
    · exact .inr (.inl heq)

theorem count_slash_getClientId (c : CallerIdentity) : c.getClientId.count (ch '/') = 1 := by
  rw [getClientId_eq, List.count_append, List.count_cons_self,
    List.count_eq_zero.mpr (slash_not_mem_escape _), List.count_eq_zero.mpr (slash_not_mem_escape _)]

end CallerIdentity

/-! ## Policy files -/

/-- A file that `getPolicy` may ask the fetcher for on behalf of the caller. -/
def FetchesFile (caller : CallerIdentity) (key : JString) : Prop :=
  ∃ format publisherId workloadId tr out ans,
    Runs (FileSourcedPolicyProvider.getPolicy FileSourcedPolicyProvider.openProvider format caller
      publisherId workloadId) tr out ∧ ⟨.fetchFile key, ans⟩ ∈ tr

namespace FileSourcedPolicyProvider

/-- A call of the provider that names a client names this one. -/
def ForClient (clientId : JString) : PolicyOp → Prop
  | .fetchFile key => key = clientId
  | .incrementProcessingCounter _ => True
  | .allowMetricsForClientId id => id = clientId

theorem uses_selectPolicy (policies : Policies) (identity : CallerIdentity)
    (publisherId workloadId : JString) :
    (selectPolicy openProvider policies identity publisherId workloadId).Uses
      (ForClient identity.getClientId) := by
  unfold selectPolicy
  split
  · exact Uses.bind (Uses.invoke trivial) (fun _ => trivial)
  · exact Uses.bind (Uses.invoke rfl) (fun _ => trivial)

theorem uses_getPolicy (format : PolicyFileFormat) (identity : CallerIdentity)
    (publisherId workloadId : JString) :
    (getPolicy openProvider format identity publisherId workloadId).Uses
      (ForClient identity.getClientId) := by
  refine Uses.bind (Uses.handle (Uses.invoke rfl) (fun e => ?_)) (fun rawFileOpt => ?_)
  · split <;> trivial
  · cases rawFileOpt with
    | none => trivial
    | some rawFile =>
      dsimp only
      split
      · split <;> trivial
      · exact uses_selectPolicy _ identity publisherId workloadId

end FileSourcedPolicyProvider

theorem FetchesFile.eq_getClientId {caller : CallerIdentity} {key : JString}
    (h : FetchesFile caller key) : key = caller.getClientId := by
  obtain ⟨format, publisherId, workloadId, tr, out, ans, hrun, hmem⟩ := h
  exact (FileSourcedPolicyProvider.uses_getPolicy format caller publisherId workloadId).of_runs hrun
    _ hmem

/-! ## Counters -/

/-- A label that `issueCertificate` may count a certificate of the caller under. -/
def CountsUnder (caller : CallerIdentity) (label : JString) : Prop :=
  ∃ lib request tr out ans, Runs (issueCertificate openService lib request caller) tr out ∧
    ⟨.incrementCertificateIssuanceCounter label, ans⟩ ∈ tr

/-- A certificate is counted under this label only. -/
def CountedAs (label : JString) : CaOp → Prop
  | .incrementCertificateIssuanceCounter id => id = label
  | _ => True

theorem uses_issueCertificate (lib : Platform) (request : CertificateIssuanceRequest)
    (caller : CallerIdentity) :
    (issueCertificate openService lib request caller).Uses (CountedAs caller.getClientId) := by
  have hask : ∀ o : CaOp, (∀ id, o ≠ .incrementCertificateIssuanceCounter id) →
      (ask o).Uses (CountedAs caller.getClientId) := by
    intro o ho
    refine Uses.invoke ?_
    cases o with
    | incrementCertificateIssuanceCounter id => exact absurd rfl (ho id)
    | _ => trivial
  have hcount : ∀ status, (openService.incrementProcessingCounter status).Uses
      (CountedAs caller.getClientId) := fun status => hask _ (by simp)
  refine Uses.bind (hask _ (by simp)) (fun _ => ?_)
  refine Uses.bind (Uses.finallyDo (uses_countFailure (hcount _) (Uses.bind (Uses.ofExcept _)
    (fun _ => hask _ (by simp)))) (hask _ (by simp))) (fun _ => ?_)
  refine Uses.bind (hask _ (by simp)) (fun _ => ?_)
  refine Uses.bind (uses_headBundle _) (fun _ => ?_)
  refine Uses.bind (uses_countFailure (hcount _) (Uses.ofExcept _)) (fun _ => ?_)
  refine Uses.bind (Uses.finallyDo (uses_countFailure (hcount _) (hask _ (by simp))) (hask _ (by simp)))
    (fun _ => ?_)
  refine Uses.bind (Uses.ofExcept _) (fun _ => Uses.bind (hask _ (by simp)) (fun _ => ?_))
  refine Uses.bind (Uses.ofExcept _) (fun _ => Uses.bind (hask _ (by simp)) (fun _ => ?_))
  refine Uses.bind (hask _ (by simp)) (fun _ => Uses.bind (hask _ (by simp)) (fun _ => ?_))
  refine Uses.bind (uses_getOrFail _ _ (hcount _)) (fun _ => Uses.bind (hask _ (by simp)) (fun _ => ?_))
  refine Uses.bind_of_returns (Uses.bind (hask _ (by simp)) (fun _ => trivial))
    (returns_getVerifier _) (fun verifierOpt hverifierOpt => ?_)
  refine Uses.bind_of_returns (uses_getOrFail _ _ (hcount _)) (returns_getOrFail _ _ _)
    (fun verifier hsome => ?_)
  obtain ⟨v, rfl⟩ := hverifierOpt verifier hsome
  refine Uses.bind (hask _ (by simp)) (fun _ => ?_)
  refine Uses.bind (uses_anyMatch (fun rv => hask (.verify v _ _ rv) (by simp)) _) (fun _ => ?_)
  refine Uses.bind (hask _ (by simp)) (fun _ => Uses.bind (uses_failIf _ _ (hcount _)) (fun _ => ?_))
  refine Uses.bind (hask _ (by simp)) (fun _ => Uses.bind (Uses.ofExcept _) (fun _ => ?_))
  refine Uses.bind (uses_failIf _ _ (hcount _)) (fun _ => Uses.bind (hask _ (by simp)) (fun _ => ?_))
  refine Uses.bind (Uses.finallyDo (uses_countFailure (hcount _) (Uses.bind (Uses.ofExcept _)
    (fun _ => hask _ (by simp)))) (hask _ (by simp))) (fun _ => ?_)
  exact Uses.bind (hask _ (by simp)) (fun _ => Uses.bind (Uses.invoke rfl) (fun _ => trivial))

theorem CountsUnder.eq_getClientId {caller : CallerIdentity} {label : JString}
    (h : CountsUnder caller label) : label = caller.getClientId := by
  obtain ⟨lib, request, tr, out, ans, hrun, hmem⟩ := h
  exact (uses_issueCertificate lib request caller).of_runs hrun _ hmem

/-! ## SystemMetrics -/

/-- The counters of issued certificates, by the value of their tag `client_id`. -/
structure SystemMetrics where
  approvedClients : List JString
  issuanceCounters : JString → Option Nat

namespace SystemMetrics

def maxApprovedClients : Nat := 1000

def allowMetricsForClientId (m : SystemMetrics) (clientId : JString) : SystemMetrics :=
  if clientId ∈ m.approvedClients then m
  else if m.approvedClients.length < maxApprovedClients then
    { m with approvedClients := clientId :: m.approvedClients }
  else m

/-- A counter is registered when the first certificate is counted. -/
def incrementCertificateIssuanceCounter (m : SystemMetrics) (clientId : JString) : SystemMetrics :=
  if clientId ∈ m.approvedClients then
    let count := (m.issuanceCounters clientId).getD 0 + 1
    { m with issuanceCounters := Function.update m.issuanceCounters clientId (some count) }
  else m

theorem issuanceCounters_of_ne (m : SystemMetrics) {clientId clientId' : JString}
    (h : clientId ≠ clientId') :
    ((m.allowMetricsForClientId clientId).incrementCertificateIssuanceCounter
      clientId).issuanceCounters clientId' = m.issuanceCounters clientId' := by
  have hallow : (m.allowMetricsForClientId clientId).issuanceCounters = m.issuanceCounters := by
    unfold allowMetricsForClientId
    split
    · rfl
    · split <;> rfl
  unfold incrementCertificateIssuanceCounter
  split
  · show Function.update _ _ _ _ = _
    rw [Function.update_of_ne h.symm, hallow]
  · rw [hallow]

end SystemMetrics

/-- The client id names the issuer and the subject in a plain alphabet, and callers that
differ in one of them share neither a policy file nor a counter. -/
theorem getClientId_identifies (c c' : CallerIdentity) :
    (c.getClientId = c'.getClientId → c.issuer = c'.issuer ∧ c.subject = c'.subject) ∧
    (∀ x ∈ c.getClientId, isSafe x = true ∨ x = ch '_' ∨ x = ch '/') ∧
    c.getClientId.count (ch '/') = 1 ∧
    (c.issuer ≠ c'.issuer ∨ c.subject ≠ c'.subject →
      (∀ key, ¬ (FetchesFile c key ∧ FetchesFile c' key)) ∧
      (∀ label, ¬ (CountsUnder c label ∧ CountsUnder c' label)) ∧
      ∀ m : SystemMetrics, ∀ label, CountsUnder c label →
        ((m.allowMetricsForClientId label).incrementCertificateIssuanceCounter
          label).issuanceCounters c'.getClientId = m.issuanceCounters c'.getClientId) := by
  refine ⟨CallerIdentity.getClientId_injective, fun x => CallerIdentity.mem_getClientId,
    c.count_slash_getClientId, fun hdiffer => ?_⟩
  have hne : c.getClientId ≠ c'.getClientId := by
    intro heq
    obtain ⟨hissuer, hsubject⟩ := CallerIdentity.getClientId_injective heq
    rcases hdiffer with h | h
    · exact h hissuer
    · exact h hsubject
  refine ⟨fun key h => ?_, fun label h => ?_, fun m label h => ?_⟩
  · exact hne (h.1.eq_getClientId.symm.trans h.2.eq_getClientId)
  · exact hne (h.1.eq_getClientId.symm.trans h.2.eq_getClientId)
  · rw [h.eq_getClientId]
    exact m.issuanceCounters_of_ne hne

example : (⟨u "https://a/", u "_x/", []⟩ : CallerIdentity).getClientId =
    u "https_003a_002f_002fa_002f/_005fx_002f" := by decide

end Tca
