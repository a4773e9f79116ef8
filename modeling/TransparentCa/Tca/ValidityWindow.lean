import TransparentCa.Tca.CsrInfluence

/- The validity period as the certificate carries it. The service intersects the
   endorsement's window with the policy's at nanosecond resolution; `Date.from` keeps the
   millisecond of each end and the encoding its second. The end of the window moves back
   and stays inside; the start moves back too, below a `notBefore` with a fraction, and an
   end that shares its second with a later instant can be a second too far from the start.
   `encodedWithin_iff` says exactly when the seconds still fit, and the walk through
   `issueCertificate` brings the builder of any run to it. -/
namespace Tca
open Java Mbs Effects Effects.Prog

/-! ## The encoded period -/

/-- The second the certificate library writes for a date, whose fraction it drops. -/
def encodedSecond (date : Int) : Int := date / 1000

/-- The encoded period lies in the endorsement's validity and is no longer than `maxValidity`. -/
structure EncodedWithin (builder : X509v3CertificateBuilder) (validity : Validity)
    (maxValidity : Duration) : Prop where
  start : validity.notBefore.val ≤ encodedSecond builder.notBefore * nanosPerSecond
  stop : encodedSecond builder.notAfter * nanosPerSecond ≤ validity.notAfter.val
  length : (encodedSecond builder.notAfter - encodedSecond builder.notBefore) * nanosPerSecond ≤
    maxValidity

/-- The fraction of a second in a number of nanoseconds. -/
def fraction (n : Int) : Int := n % nanosPerSecond

/-- The start of the endorsement has no fraction or lies before the current second; and
unless the endorsement has yet to start, the fractions of the clock and of the policy's
duration make up less than a second, or the endorsement ends before the second they make
up together. -/
structure FitsSeconds (now : Instant) (validity : Validity) (maxValidity : Duration) : Prop where
  start : fraction validity.notBefore.val = 0 ∨
    validity.notBefore.val ≤ now.val - fraction now.val
  length : now < validity.notBefore ∨ fraction now.val + fraction maxValidity < nanosPerSecond ∨
    validity.notAfter.val < now.val - fraction now.val + (maxValidity - fraction maxValidity) +
      nanosPerSecond

theorem date_from_ok {t : Instant} {date : Int} (h : Date.from t = .ok date) :
    encodedSecond date = t.val / nanosPerSecond := by
  have hmillis : t.toEpochMilli = .ok date :=
    (except_tryCatch_eq_ok (fun _ heq => by cases heq)).mp h
  unfold Instant.toEpochMilli at hmillis
  split at hmillis
  · rw [← Except.ok.inj hmillis]
    unfold encodedSecond nanosPerSecond
    omega
  · cases hmillis

theorem val_max (t t' : Instant) : (max t t').val = max t.val t'.val := by
  simp only [max_def, Subtype.coe_le_coe]
  split <;> rfl

theorem val_min (t t' : Instant) : (min t t').val = min t.val t'.val := by
  simp only [min_def, Subtype.coe_le_coe]
  split <;> rfl

/-- Two truncations of the intersected window, against the window. -/
theorem encodedWithin_iff {builder : X509v3CertificateBuilder} {now expiration : Instant}
    {validity : Validity} {maxValidity : Duration}
    (hexpiration : now.plus maxValidity = .ok expiration)
    (hstart : Date.from (max now validity.notBefore) = .ok builder.notBefore)
    (hstop : Date.from (min expiration validity.notAfter) = .ok builder.notAfter) :
    EncodedWithin builder validity maxValidity ↔ FitsSeconds now validity maxValidity := by
  have hstart' := date_from_ok hstart
  have hstop' := date_from_ok hstop
  rw [val_max] at hstart'
  rw [val_min, Instant.plus_ok hexpiration] at hstop'
  constructor
  · rintro ⟨h₁, -, h₃⟩
    rw [hstart'] at h₁ h₃
    rw [hstop'] at h₃
    unfold nanosPerSecond at *
    constructor
    · simp only [fraction, nanosPerSecond]
      omega
    · simp only [fraction, nanosPerSecond, ← Subtype.coe_lt_coe]
      omega
  · rintro ⟨h₁, h₂⟩
    simp only [fraction, ← Subtype.coe_lt_coe] at h₁ h₂
    constructor
    · rw [hstart']
      unfold nanosPerSecond at *
      omega
    · rw [hstop']
      unfold nanosPerSecond at *
      omega
    · rw [hstart', hstop']
      unfold nanosPerSecond at *
      omega

/-! ## What a run read -/

def clockEvent : TcaEvent → Option Instant
  | ⟨.ca .now, .ok now⟩ => some now
  | _ => none

def validityEvent : TcaEvent → Option Validity
  | ⟨.ca (.getValidity _), .ok validity⟩ => some validity
  | _ => none

def policyEvent : TcaEvent → Option Policy
  | ⟨.ca (.getPolicy _ _ _), .ok policyOpt⟩ => policyOpt
  | _ => none

/-- The clock, the endorsement's validity and the policy, as the run read them first; the
signer reads the clock again, for the serial number. -/
def readings (tr : List TcaEvent) : Option Instant × Option Validity × Option Policy :=
  (tr.findSome? clockEvent, tr.findSome? validityEvent, tr.findSome? policyEvent)

/-- The calls that neither read one of these nor build. -/
def Quiet : TcaOp → Prop
  | .ca .now | .ca (.getValidity _) | .ca (.getPolicy _ _ _) | .build _ _ => False
  | _ => True

theorem readings_append {t : List TcaEvent} (tr : List TcaEvent) (ht : ∀ ev ∈ t, Quiet ev.op) :
    readings (t ++ tr) = readings tr := by
  have hnone : ∀ {β : Type} (read : TcaEvent → Option β), (∀ ev, Quiet ev.op → read ev = none) →
      (t ++ tr).findSome? read = tr.findSome? read := by
    intro β read hread
    have : t.findSome? read = none :=
      List.findSome?_eq_none_iff.mpr (fun ev hev => hread ev (ht ev hev))
    rw [List.findSome?_append, this, Option.none_or]
  unfold readings
  rw [hnone clockEvent, hnone validityEvent, hnone policyEvent]
  all_goals
    rintro ⟨o, r⟩ hq
    cases o with
    | build => exact False.elim hq
    | ca o =>
      cases o with
      | now => exact False.elim hq
      | getValidity => exact False.elim hq
      | getPolicy => exact False.elim hq
      | _ => rfl

theorem readings_now (now : Instant) (tr : List TcaEvent) :
    readings (⟨.ca .now, .ok now⟩ :: tr) = (some now, (readings tr).2) := rfl

theorem readings_getValidity (statementBytes : Bytes) (validity : Validity) (tr : List TcaEvent) :
    readings (⟨.ca (.getValidity statementBytes), .ok validity⟩ :: tr) =
      ((readings tr).1, some validity, (readings tr).2.2) := rfl

theorem readings_getPolicy (identity : CallerIdentity) (publisherId workloadId : JString)
    (policy : Policy) (tr : List TcaEvent) :
    readings (⟨.ca (.getPolicy identity publisherId workloadId), .ok (some policy)⟩ :: tr) =
      ((readings tr).1, (readings tr).2.1, some policy) := rfl

theorem Quiet.isCa {o : TcaOp} (h : Quiet o) : IsCa o := by
  cases o with
  | ca o => exact ⟨o, rfl⟩
  | build => exact h.elim

section
variable {lib : Platform} {sig : SignerPlatform} {α β : Type}

/-! ## The walk to the builder -/

theorem uses_askCa (o : CaOp) (h : Quiet (.ca o)) : (askCa o).Uses Quiet := Uses.invoke h

theorem uses_extractPublicKey (request : CertificateIssuanceRequest) :
    (extractPublicKey (tcaService lib sig) lib request).Uses Quiet :=
  Uses.bind (Uses.ofExcept _) (fun _ => uses_askCa (.decodeRawPublicKey _) trivial)

theorem uses_getVerifier (evidence : AttestationEvidence) :
    ((tcaService lib sig).getVerifier evidence).Uses Quiet :=
  Uses.bind (uses_askCa (.getVerifier evidence) trivial) (fun _ => True.intro)

/-- The verifiers the provider gives out only verify. -/
theorem returns_tca_getVerifier (evidence : AttestationEvidence) :
    ((tcaService lib sig).getVerifier evidence).Returns (fun verifierOpt =>
      ∀ verifier ∈ verifierOpt, ∀ evidence key rv, (verifier evidence key rv).Uses Quiet) := by
  refine returns_bind.mpr (returns_invoke.mpr (fun v verifier hverifier evidence key rv => ?_))
  obtain ⟨n, -, rfl⟩ := Option.map_eq_some_iff.mp hverifier
  exact uses_askCa (.verify n evidence key rv) trivial

theorem mem_handed {tr : List TcaEvent} {builder : X509v3CertificateBuilder} {key : PrivateKey}
    (h : (builder, key) ∈ handed tr) : ∃ r, ⟨.build builder key, r⟩ ∈ tr := by
  obtain ⟨⟨o, r⟩, hev, hhanded⟩ := List.mem_filterMap.mp h
  cases o with
  | ca o => cases hhanded
  | build builder' key' =>
    cases hhanded
    exact ⟨r, hev⟩

/-- What runs before the builder and reads nothing changes no reading. -/
theorem runs_quiet_bind {p : TcaProg α} {f : α → TcaProg β} {tr : List TcaEvent}
    {out : Except Throwable β} {ev : TcaEvent} (hp : p.Uses Quiet) (h : Runs (p.bind f) tr out)
    (hev : ev ∈ tr) (hbuild : ¬ IsCa ev.op) :
    ∃ a t t', Runs p t (.ok a) ∧ Runs (f a) t' out ∧ ev ∈ t' ∧ readings tr = readings t' := by
  obtain ⟨a, t, t', rfl, hfirst, hrest, hmem⟩ :=
    hp.runs_bind_mem h hev (fun hq => hbuild hq.isCa)
  exact ⟨a, t, t', hfirst, hrest, hmem, readings_append t' (hp.of_runs hfirst)⟩

/-- A call before the builder returned, and the run went on. -/
theorem runs_askCa_bind {o : CaOp} {f : o.Val → TcaProg β} {tr : List TcaEvent}
    {out : Except Throwable β} {ev : TcaEvent} (h : Runs ((askCa o).bind f) tr out)
    (hev : ev ∈ tr) (hbuild : ¬ IsCa ev.op) :
    ∃ v t, tr = ⟨.ca o, .ok v⟩ :: t ∧ Runs (f v) t out ∧ ev ∈ t := by
  have hca : (askCa o).Uses IsCa := Uses.invoke ⟨o, rfl⟩
  obtain ⟨v, t, t', rfl, hcall, hrest, hmem⟩ := hca.runs_bind_mem h hev hbuild
  rw [runs_invoke.mp hcall]
  exact ⟨v, t', rfl, hrest, hmem⟩

/-- The signer hands over the builder it made for its arguments. -/
theorem builder_of_signCsr {args : SignCsr} {tr : List TcaEvent}
    {out : Except Throwable X509Certificate} {builder : X509v3CertificateBuilder}
    {key : PrivateKey} {r : Except Throwable X509Certificate}
    (h : Runs (CertificateSignerImpl.signCsr lib sig (askCa .now) build args) tr out)
    (hev : ⟨.build builder key, r⟩ ∈ tr) :
    Date.from args.notBefore = .ok builder.notBefore ∧
      Date.from args.notAfter = .ok builder.notAfter := by
  have hbuild : ¬ IsCa (TcaOp.build builder key) := fun ⟨o, ho⟩ => by cases ho
  have hrethrow : ∀ e, (Prog.raise (CertificateSignerImpl.rethrow sig e) :
      TcaProg X509Certificate).Uses IsCa := fun _ => trivial
  obtain ⟨r', t, t', rfl, hbody, hev⟩ := Uses.runs_handle_mem hrethrow h hev hbuild
  simp only [bind_eq] at hbody
  obtain ⟨csrPublicKeyInfo, -, hbody⟩ := Uses.runs_ofExcept_bind_mem hbody hev
  obtain ⟨clock, t₁, rfl, hbody, hev⟩ := runs_askCa_bind hbody hev hbuild
  obtain ⟨serial, -, hbody⟩ := Uses.runs_ofExcept_bind_mem hbody hev
  obtain ⟨builder', hmade, hbody⟩ := Uses.runs_ofExcept_bind_mem hbody hev
  rw [runs_invoke.mp hbody, List.mem_singleton] at hev
  cases hev
  exact (CertificateSignerImpl.certBuilder_fields hmade).2

/-- A builder handed over in a run has the dates of the window that the run's readings give. -/
theorem builder_of_issueCertificate {request : CertificateIssuanceRequest}
    {caller : CallerIdentity} {tr : List TcaEvent} {out : Except Throwable (List X509Certificate)}
    {builder : X509v3CertificateBuilder} {key : PrivateKey}
    (h : Runs (issueCertificate (tcaService lib sig) lib request caller) tr out)
    (hbuilder : (builder, key) ∈ handed tr) :
    ∃ now expiration validity policy,
      readings tr = (some now, some validity, some policy) ∧
      now.plus policy.certificateAttributes.maxCertificateValidity = .ok expiration ∧
      Date.from (max now validity.notBefore) = .ok builder.notBefore ∧
      Date.from (min expiration validity.notAfter) = .ok builder.notAfter := by
  obtain ⟨r, hev⟩ := mem_handed hbuilder
  have hbuild : ¬ IsCa (TcaOp.build builder key) := fun ⟨o, ho⟩ => by cases ho
  have hrecord : ∀ operation,
      ((tcaService lib sig).recordSubOperationAndResetTimer operation).Uses Quiet :=
    fun _ => Uses.invoke trivial
  have hcount : ∀ status, ((tcaService lib sig).incrementProcessingCounter status).Uses Quiet :=
    fun _ => Uses.invoke trivial
  unfold issueCertificate at h
  simp only [bind_eq] at h
  obtain ⟨⟨⟩, -, tr₁, -, h, hev, hr₁⟩ := runs_quiet_bind (uses_askCa .startIssuanceTimer trivial) h hev hbuild
  obtain ⟨csrPublicKey, -, tr₂, -, h, hev, hr₂⟩ := runs_quiet_bind (Uses.finallyDo
    (uses_countFailure (hcount _) (uses_extractPublicKey request)) (hrecord _)) h hev hbuild
  obtain ⟨trustPackage, -, tr₃, -, h, hev, hr₃⟩ :=
    runs_quiet_bind (uses_askCa .getActiveTrustPackage trivial) h hev hbuild
  obtain ⟨rootBundle, -, tr₄, -, h, hev, hr₄⟩ := runs_quiet_bind (uses_headBundle _) h hev hbuild
  obtain ⟨trustDomain, -, tr₅, -, h, hev, hr₅⟩ :=
    runs_quiet_bind (uses_countFailure (hcount _) (Uses.ofExcept _)) h hev hbuild
  obtain ⟨⟨⟩, -, tr₆, -, h, hev, hr₆⟩ := runs_quiet_bind (Uses.finallyDo
    (uses_countFailure (hcount _) (uses_askCa (.validateAudience _ _ _) trivial)) (hrecord _)) h hev hbuild
  obtain ⟨endorsement, -, h⟩ := Uses.runs_ofExcept_bind_mem h hev
  obtain ⟨annotations, -, tr₇, -, h, hev, hr₇⟩ :=
    runs_quiet_bind (uses_askCa (.getAnnotations _) trivial) h hev hbuild
  obtain ⟨endorsement', -, h⟩ := Uses.runs_ofExcept_bind_mem h hev
  obtain ⟨validity, tr₈, rfl, h, hev⟩ := runs_askCa_bind h hev hbuild
  obtain ⟨⟨⟩, -, tr₉, -, h, hev, hr₉⟩ := runs_quiet_bind (hrecord _) h hev hbuild
  obtain ⟨policyOpt, tr₁₀, rfl, h, hev⟩ := runs_askCa_bind h hev hbuild
  obtain ⟨policy, t, tr₁₁, hpolicy, h, hev, hr₁₁⟩ := runs_quiet_bind (uses_getOrFail _ _ (hcount _)) h hev hbuild
  obtain ⟨⟨⟩, -, tr₁₂, -, h, hev, hr₁₂⟩ := runs_quiet_bind (hrecord _) h hev hbuild
  obtain ⟨verifierOpt, _, tr₁₃, hget, h, hev, hr₁₃⟩ :=
    runs_quiet_bind (uses_getVerifier _) h hev hbuild
  obtain ⟨verifier, _, tr₁₄, hverifier, h, hev, hr₁₄⟩ :=
    runs_quiet_bind (uses_getOrFail _ _ (hcount _)) h hev hbuild
  obtain ⟨⟨⟩, -, tr₁₅, -, h, hev, hr₁₅⟩ := runs_quiet_bind (hrecord _) h hev hbuild
  have hquiet := (returns_tca_getVerifier _).of_runs hget verifier ((returns_getOrFail _ _ _).of_runs hverifier)
  obtain ⟨hasBeenVerified, -, tr₁₆, -, h, hev, hr₁₆⟩ :=
    runs_quiet_bind (uses_anyMatch (hquiet _ _) _) h hev hbuild
  obtain ⟨⟨⟩, -, tr₁₇, -, h, hev, hr₁₇⟩ := runs_quiet_bind (hrecord _) h hev hbuild
  obtain ⟨⟨⟩, -, tr₁₈, -, h, hev, hr₁₈⟩ := runs_quiet_bind (uses_failIf _ _ (hcount _)) h hev hbuild
  obtain ⟨now, tr₁₉, rfl, h, hev⟩ := runs_askCa_bind h hev hbuild
  obtain ⟨expiration, hexpiration, h⟩ := Uses.runs_ofExcept_bind_mem h hev
  obtain ⟨⟨⟩, -, tr₂₀, -, h, hev, -⟩ := runs_quiet_bind (uses_failIf _ _ (hcount _)) h hev hbuild
  -- All readings are done, and what is left besides the signer only counts and records.
  have hca : ∀ o, (askCa o).Uses IsCa := fun o => Uses.invoke ⟨o, rfl⟩
  obtain ⟨modifiers, _, tr₂₁, rfl, -, h, hev⟩ := (Uses.ret
    (CertificateModifiersCreatorImpl.create policy trustDomain)).runs_bind_mem h hev hbuild
  obtain ⟨_, t₁, _, rfl, h, hev⟩ := Uses.runs_bind_mem_first
    (fun signedCertificate => Uses.bind (hca (.incrementProcessingCounter .success))
      (fun _ => Uses.bind (hca (.incrementCertificateIssuanceCounter _)) (fun _ => Uses.ret _)))
    h hev hbuild
  obtain ⟨_, t₂, _, rfl, h, hev⟩ :=
    Uses.runs_finallyDo_mem (hca (.recordSubOperationAndResetTimer _)) h hev hbuild
  obtain ⟨_, t₃, _, rfl, h, hev⟩ := Uses.runs_handle_mem (uses_failureHandler (hca (.incrementProcessingCounter _))) h hev hbuild
  obtain ⟨subject, -, h⟩ := Uses.runs_ofExcept_bind_mem h hev
  obtain ⟨hstart, hstop⟩ := builder_of_signCsr h hev
  refine ⟨now, expiration, validity, policy, ?_, hexpiration, hstart, hstop⟩
  obtain rfl := (returns_getOrFail _ _ _).of_runs hpolicy
  rw [hr₁, hr₂, hr₃, hr₄, hr₅, hr₆, hr₇, readings_getValidity, hr₉, readings_getPolicy, hr₁₁, hr₁₂,
    hr₁₃, hr₁₄, hr₁₅, hr₁₆, hr₁₇, hr₁₈, readings_now]

/-- Whenever the service hands a builder over, the period the certificate will carry keeps
to the endorsement and to the policy exactly when what the run read fits the seconds. -/
theorem encoded_validity_iff {request : CertificateIssuanceRequest} {caller : CallerIdentity}
    {tr : List TcaEvent} {out : Except Throwable (List X509Certificate)}
    (h : Runs (issueCertificate (tcaService lib sig) lib request caller) tr out)
    {builder : X509v3CertificateBuilder} {key : PrivateKey} (hbuilder : (builder, key) ∈ handed tr) :
    ∃ now validity policy, readings tr = (some now, some validity, some policy) ∧
      (EncodedWithin builder validity policy.certificateAttributes.maxCertificateValidity ↔
        FitsSeconds now validity policy.certificateAttributes.maxCertificateValidity) := by
  obtain ⟨now, expiration, validity, policy, hread, hexpiration, hstart, hstop⟩ :=
    builder_of_issueCertificate h hbuilder
  exact ⟨now, validity, policy, hread, encodedWithin_iff hexpiration hstart hstop⟩

end

/-! An endorsement that starts half a second into a second still to come, and one that
started in time. -/

namespace Sample

/-- A tenth of a second after the second. -/
def notBefore (deciseconds : Nat) (h : deciseconds < 10^11) : Instant :=
  ⟨deciseconds * 10^8, by unfold instantMin instantMax; omega⟩

theorem endorsement_end : 1900000000 < 10^10 := by decide

def endorsedFrom (start : Instant) (history : List TcaEvent) :
    (o : TcaOp) → Except Throwable o.Val
  | .ca (.getValidity _) => .ok ⟨start, instant 1900000000 endorsement_end⟩
  | o => tcaAnswer history o

/-- The run of the sample request when the endorsement starts at `start`. -/
def signed (start : Instant) : Except Throwable (List X509Certificate) × List TcaEvent :=
  exec (endorsedFrom start) (issueCertificate (tcaService platform signerPlatform) platform
    request caller) []

/-- Half past the second 1800000000, which the clock shows. -/
def halfPast : Instant := notBefore 18000000005 (by decide)

/-- The second 1700000000. -/
def longAgo : Instant := notBefore 17000000000 (by decide)

theorem runs_signed (start : Instant) :
    Runs (issueCertificate (tcaService platform signerPlatform) platform request caller)
      (signed start).2 (signed start).1 :=
  runs_exec (endorsedFrom start) _ []

theorem handed_signed (start : Instant)
    (h : (signed start).1 = .ok [leaf, rsaRoot.certificate]) :
    ∃ builder key, (builder, key) ∈ handed (signed start).2 := by
  obtain ⟨builder, key, hhanded⟩ := handed_issueCertificate (h ▸ runs_signed start)
  exact ⟨builder, key, by simp [hhanded]⟩

end Sample

theorem encoded_validity_of_longAgo :
    ∃ builder key validity policy, (builder, key) ∈ handed (Sample.signed Sample.longAgo).2 ∧
      (readings (Sample.signed Sample.longAgo).2).2 = (some validity, some policy) ∧
      EncodedWithin builder validity policy.certificateAttributes.maxCertificateValidity := by
  obtain ⟨builder, key, hbuilder⟩ := Sample.handed_signed Sample.longAgo (by decide +kernel)
  obtain ⟨now, validity, policy, hread, hiff⟩ :=
    encoded_validity_iff (Sample.runs_signed _) hbuilder
  have hvalues : readings (Sample.signed Sample.longAgo).2 =
      (some (Sample.instant 1800000000 (by decide)),
        some ⟨Sample.longAgo, Sample.instant 1900000000 (by decide)⟩, some Sample.emailPolicy) := by
    decide +kernel
  have hsame := hread.symm.trans hvalues
  simp only [Prod.mk.injEq, Option.some.injEq] at hsame
  obtain ⟨rfl, rfl, rfl⟩ := hsame
  refine ⟨builder, key, _, _, hbuilder, congrArg Prod.snd hvalues, hiff.mpr ⟨?_, ?_⟩⟩
  · exact .inl (by decide)
  · exact .inr (.inl (by decide))

/-- The certificate starts half a second before its endorsement. -/
theorem encoded_validity_before_halfPast :
    ∃ builder key validity policy, (builder, key) ∈ handed (Sample.signed Sample.halfPast).2 ∧
      (readings (Sample.signed Sample.halfPast).2).2 = (some validity, some policy) ∧
      ¬ EncodedWithin builder validity policy.certificateAttributes.maxCertificateValidity := by
  obtain ⟨builder, key, hbuilder⟩ := Sample.handed_signed Sample.halfPast (by decide +kernel)
  obtain ⟨now, expiration, validity, policy, hread, hexpiration, hstart, hstop⟩ :=
    builder_of_issueCertificate (Sample.runs_signed _) hbuilder
  have hvalues : readings (Sample.signed Sample.halfPast).2 =
      (some (Sample.instant 1800000000 (by decide)),
        some ⟨Sample.halfPast, Sample.instant 1900000000 (by decide)⟩, some Sample.emailPolicy) := by
    decide +kernel
  have hsame := hread.symm.trans hvalues
  simp only [Prod.mk.injEq, Option.some.injEq] at hsame
  obtain ⟨rfl, rfl, rfl⟩ := hsame
  refine ⟨builder, key, _, _, hbuilder, congrArg Prod.snd hvalues, fun hwithin => ?_⟩
  rcases ((encodedWithin_iff hexpiration hstart hstop).mp hwithin).start with hwhole | hearlier
  · exact absurd hwhole (by decide)
  · exact absurd hearlier (by decide)

end Tca
