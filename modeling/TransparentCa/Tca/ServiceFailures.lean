import TransparentCa.Lib.Failures
import TransparentCa.Tca.Issuance
import TransparentCa.Tca.GrpcHandler

/- How an issuance fails. The service swallows no exception of a collaborator, so it ends with
   the exception of the last call that failed (`unmasked_issueCertificate`). If none failed,
   what it throws comes from one of the computations it makes itself between the calls, and
   `ChecksTaken` says of the calls made which of these computations come into play and that the
   handler has a status for what they throw. -/
namespace Tca
open Java Mbs Effects Effects.Prog

/-! ## Failing calls -/

section
variable {Op : Type} {Val : Op → Type} {α : Type} {svc : TransparentCaService Op Val}

theorem unmasked_failureHandler {cs : List ThrowableClass} {status : ProcessingStatus}
    {rethrow : Throwable → Throwable} (hcount : Unmasked (svc.incrementProcessingCounter status))
    (e : Throwable) :
    Unmasked (if e.caughtBy cs then do
        svc.incrementProcessingCounter status
        throw (rethrow e)
      else throw e : CaProg Op Val α) := by
  split
  · exact Unmasked.bind hcount (fun _ => .raise _)
  · exact .raise e

theorem unmasked_countFailure {cs : List ThrowableClass} {status : ProcessingStatus}
    {p : CaProg Op Val α} (hcount : Unmasked (svc.incrementProcessingCounter status))
    (hsourced : Sourced (svc.incrementProcessingCounter status)) (hp : Unmasked p) :
    Unmasked (countFailure svc cs status id p) := by
  refine Unmasked.handle hp (unmasked_failureHandler hcount) ?_
  intro e tr out hrun hquiet
  split at hrun
  · obtain ⟨r, t₁, t₂, rfl, h₁, h₂⟩ := runs_bind_inv hrun
    rw [failures_append, List.append_eq_nil_iff] at hquiet
    cases r with
    | ok v => exact (runs_raise.mp h₂).2
    | error e' => exact absurd hquiet.1 (hsourced t₁ e' h₁)
  · exact (runs_raise.mp hrun).2

theorem unmasked_failIf (failed : Prop) [Decidable failed] {status : ProcessingStatus}
    (e : Throwable) (hcount : Unmasked (svc.incrementProcessingCounter status)) :
    Unmasked (failIf svc failed status e) := by
  unfold failIf
  split
  · exact Unmasked.bind hcount (fun _ => .raise e)
  · exact .ret ()

theorem unmasked_getOrFail (opt : Option α) {status : ProcessingStatus} (e : Throwable)
    (hcount : Unmasked (svc.incrementProcessingCounter status)) :
    Unmasked (getOrFail svc opt status e) := by
  cases opt with
  | some a => exact .ret a
  | none => exact Unmasked.bind hcount (fun _ => .raise e)

theorem unmasked_headBundle (trustPackage : TrustPackage) :
    Unmasked (headBundle trustPackage : CaProg Op Val SelfSignedBundle) := by
  unfold headBundle
  split
  · exact .ret _
  · exact .raise _

theorem unmasked_anyMatch {p : α → CaProg Op Val Bool} (hp : ∀ a, Unmasked (p a)) (as : List α) :
    Unmasked (anyMatch p as) := by
  induction as with
  | nil => exact .ret false
  | cons a as ih =>
    refine Unmasked.bind (hp a) (fun matched => ?_)
    cases matched with
    | true => exact .ret true
    | false => exact ih

end

theorem unmasked_ask (o : CaOp) : Unmasked (ask o) := .invoke o

theorem unmasked_record (operation : IssuanceSubOperation) :
    Unmasked (ask (.recordSubOperationAndResetTimer operation)) :=
  unmasked_ask (.recordSubOperationAndResetTimer operation)

theorem unmasked_count (status : ProcessingStatus) :
    Unmasked (openService.incrementProcessingCounter status) :=
  unmasked_ask (.incrementProcessingCounter status)

theorem sourced_count (status : ProcessingStatus) :
    Sourced (openService.incrementProcessingCounter status) :=
  sourced_invoke (CaOp.incrementProcessingCounter status)

theorem sourced_record (operation : IssuanceSubOperation) :
    Sourced (openService.recordSubOperationAndResetTimer operation) :=
  sourced_invoke (CaOp.recordSubOperationAndResetTimer operation)

theorem unmasked_getVerifier (evidence : AttestationEvidence) :
    Unmasked (openService.getVerifier evidence) :=
  Unmasked.bind (unmasked_ask (.getVerifier evidence)) (fun _ => .ret _)

/-- The service ends with the exception of the last collaborator that threw one. -/
theorem unmasked_issueCertificate (lib : Platform) (request : CertificateIssuanceRequest)
    (caller : CallerIdentity) :
    Unmasked (issueCertificate openService lib request caller) := by
  unfold issueCertificate
  refine .bind (unmasked_ask .startIssuanceTimer) (fun _ => .bind ?_ (fun csrPublicKey => ?_))
  · refine .finallyDo (unmasked_countFailure (unmasked_count _) (sourced_count _) ?_)
      (unmasked_record .extractPublicKey) (sourced_record _)
    exact .bind (.ofExcept _) (fun keyBytes => unmasked_ask (.decodeRawPublicKey keyBytes))
  refine .bind (unmasked_ask .getActiveTrustPackage) (fun trustPackage => ?_)
  refine .bind (unmasked_headBundle trustPackage) (fun rootBundle => ?_)
  refine .bind (.handle_ofExcept (unmasked_failureHandler (unmasked_count _)))
    (fun trustDomain => ?_)
  refine .bind (.finallyDo (unmasked_countFailure (unmasked_count _) (sourced_count _)
      (unmasked_ask (.validateAudience csrPublicKey caller trustDomain)))
    (unmasked_record .validateAudience) (sourced_record _)) (fun _ => ?_)
  refine .bind (.ofExcept _) (fun endorsement =>
    .bind (unmasked_ask (.getAnnotations endorsement)) (fun annotations => ?_))
  refine .bind (.ofExcept _) (fun endorsement =>
    .bind (unmasked_ask (.getValidity endorsement)) (fun validity => ?_))
  refine .bind (unmasked_record _) (fun _ => .bind
    (unmasked_ask (.getPolicy caller annotations.publisherId annotations.workloadId))
    (fun policyOpt => ?_))
  refine .bind (unmasked_getOrFail policyOpt _ (unmasked_count _)) (fun policy =>
    .bind (unmasked_record _) (fun _ => ?_))
  refine .bind_of_returns (unmasked_getVerifier _) (returns_getVerifier _)
    (fun verifierOpt hverifierOpt => ?_)
  refine .bind_of_returns (unmasked_getOrFail verifierOpt _ (unmasked_count _))
    (returns_getOrFail _ _ _) (fun verifier hsome => ?_)
  obtain ⟨v, rfl⟩ := hverifierOpt verifier hsome
  refine .bind (unmasked_record _) (fun _ => .bind (unmasked_anyMatch
    (fun rv => unmasked_ask (.verify v request.attestationEvidence csrPublicKey rv)) _)
    (fun hasBeenVerified => ?_))
  refine .bind (unmasked_record _) (fun _ =>
    .bind (unmasked_failIf _ _ (unmasked_count _)) (fun _ => ?_))
  refine .bind (unmasked_ask .now) (fun now => .bind (.ofExcept _) (fun expiration => ?_))
  refine .bind (unmasked_failIf _ _ (unmasked_count _)) (fun _ =>
    .bind (unmasked_ask (.createModifiers policy trustDomain)) (fun modifiers => ?_))
  refine .bind (.finallyDo (unmasked_countFailure (unmasked_count _) (sourced_count _) ?_)
    (unmasked_record .signCertificate) (sourced_record _)) (fun signedCertificate => ?_)
  · exact .bind (.ofExcept _) (fun subject => unmasked_ask (.signCsr _))
  exact .bind (unmasked_count .success) (fun _ =>
    .bind (unmasked_ask (.incrementCertificateIssuanceCounter _)) (fun _ => .ret _))

/-! ## The service's own exceptions -/

/-- The handler ends the call with a status when the service throws `e`. -/
def HasStatus (e : Throwable) : Prop :=
  (TransparentCertificateAuthorityGrpcHandler.statusOf e).isSome

section
variable (lib : Platform) (request : CertificateIssuanceRequest)

/-- What the service goes on to compute once `ev` is answered, after the calls `earlier`, throws
nothing but exceptions with a status. -/
def CheckTaken (earlier : List CaEvent) : CaEvent → Prop
  | ⟨.startIssuanceTimer, _⟩ => ∀ e,
    lib.subjectPublicKeyInfo request.certificateSigningRequest = .error e → HasStatus e
  | ⟨.getActiveTrustPackage, .ok trustPackage⟩ =>
    ∃ root, trustPackage.selfSignedBundles.head? = some root ∧
      ∀ e, TrustDomainExtractor.extract lib root.certificate = .error e →
        e.caughtBy [.certificateException, .uriSyntaxException, .illegalArgumentException] ∨
          HasStatus e
  | ⟨.recordSubOperationAndResetTimer .validateAudience, _⟩ => ∀ e,
    request.attestationEvidence.getRawBinaryEndorsement lib = .error e → HasStatus e
  | ⟨.now, .ok now⟩ => ∀ identity publisherId workloadId policy,
    returned (.getPolicy identity publisherId workloadId) (some policy) ∈ earlier → ∀ e,
      now.plus policy.certificateAttributes.maxCertificateValidity = .error e → HasStatus e
  | ⟨.createModifiers policy _, _⟩ => ∀ e,
    lib.x500Principal policy.certificateAttributes.certificateSubject.attributes = .error e →
      HasStatus e
  | _ => True

def ChecksTaken (tr : List CaEvent) : Prop :=
  ∀ earlier ev later, tr = earlier ++ ev :: later → CheckTaken lib request earlier ev

/-- A quiet issuance throws an exception with a status exactly when all its checks are taken. -/
def EndsTaken {α : Type} (tr : List CaEvent) : Except Throwable α → Prop
  | .ok _ => ChecksTaken lib request tr
  | .error e => ChecksTaken lib request tr ↔ HasStatus e

end

section
variable {lib : Platform} {request : CertificateIssuanceRequest}

theorem checksTaken_nil : ChecksTaken lib request [] := forall_split_nil

theorem checksTaken_snoc {tr : List CaEvent} {ev : CaEvent} :
    ChecksTaken lib request (tr ++ [ev]) ↔
      ChecksTaken lib request tr ∧ CheckTaken lib request tr ev := forall_split_snoc

theorem ChecksTaken.snoc {tr : List CaEvent} (h : ChecksTaken lib request tr) {ev : CaEvent}
    (hev : CheckTaken lib request tr ev) : ChecksTaken lib request (tr ++ [ev]) :=
  checksTaken_snoc.mpr ⟨h, hev⟩

/-- A run that ends with what follows `ev`. -/
theorem endsTaken_check {tr : List CaEvent} {ev : CaEvent} {e : Throwable}
    (htaken : ChecksTaken lib request tr) (hcheck : CheckTaken lib request tr ev ↔ HasStatus e) :
    ChecksTaken lib request (tr ++ [ev]) ↔ HasStatus e :=
  checksTaken_snoc.trans ((and_iff_right htaken).trans hcheck)

theorem not_hasStatus_indexOutOfBounds (message : JString) :
    ¬ HasStatus { cls := .indexOutOfBoundsException, message := message } := Bool.false_ne_true

theorem hasStatus_certificate (message : JString) :
    HasStatus { cls := .certificateException, message := message } := rfl

theorem hasStatus_illegalArgument (message : JString) :
    HasStatus { cls := .illegalArgumentException, message := message } := rfl

/-! ### Spec lemmas for quiet runs -/

variable {α β : Type} {hist : List CaEvent} {Q : List CaEvent → Except Throwable β → Prop}

theorem quietly_ask_bind (o : CaOp) {f : o.Val → CaProg CaOp CaOp.Val β}
    (h : ∀ v, Quietly (f v) (hist ++ [returned o v]) Q) : Quietly ((ask o).bind f) hist Q :=
  Quietly.invoke_bind h

theorem quietly_headBundle_bind {trustPackage : TrustPackage}
    {f : SelfSignedBundle → CaProg CaOp CaOp.Val β}
    (herror : trustPackage.selfSignedBundles = [] →
      ∀ message, Q hist (.error { cls := .indexOutOfBoundsException, message := message }))
    (hok : ∀ root, trustPackage.selfSignedBundles.head? = some root → Quietly (f root) hist Q) :
    Quietly ((headBundle trustPackage).bind f) hist Q := by
  unfold headBundle
  cases hbundles : trustPackage.selfSignedBundles with
  | nil => exact Quietly.raise (herror hbundles _)
  | cons root rest => exact hok root (by rw [hbundles]; rfl)

/-- A failure that is counted and thrown. -/
theorem quietly_count_raise_bind {status : ProcessingStatus} {e : Throwable}
    {f : α → CaProg CaOp CaOp.Val β}
    (h : Q (hist ++ [returned (.incrementProcessingCounter status) ()]) (.error e)) :
    Quietly ((Prog.bind (openService.incrementProcessingCounter status)
      (fun _ => .raise e)).bind f) hist Q := by
  rw [Prog.bind_assoc]
  exact quietly_ask_bind (.incrementProcessingCounter status) (fun _ => .raise h)

theorem quietly_getOrFail_bind {opt : Option α} {status : ProcessingStatus} {e : Throwable}
    {f : α → CaProg CaOp CaOp.Val β}
    (herror : opt = none → Q (hist ++ [returned (.incrementProcessingCounter status) ()]) (.error e))
    (hok : ∀ a, opt = some a → Quietly (f a) hist Q) :
    Quietly ((getOrFail openService opt status e).bind f) hist Q := by
  cases opt with
  | some a => exact hok a rfl
  | none => exact quietly_count_raise_bind (herror rfl)

theorem quietly_failIf_bind {failed : Prop} [Decidable failed] {status : ProcessingStatus}
    {e : Throwable} {f : Unit → CaProg CaOp CaOp.Val β}
    (herror : Q (hist ++ [returned (.incrementProcessingCounter status) ()]) (.error e))
    (hok : Quietly (f ()) hist Q) :
    Quietly ((failIf openService failed status e).bind f) hist Q := by
  unfold failIf
  split
  · exact quietly_count_raise_bind herror
  · exact hok

/-- A part that is timed and whose failures are counted. -/
theorem quietly_timed_bind {cs : List ThrowableClass} {status : ProcessingStatus}
    {operation : IssuanceSubOperation} {p : CaProg CaOp CaOp.Val α}
    {f : α → CaProg CaOp CaOp.Val β}
    (hp : Quietly p hist (fun hist' r => match r with
      | .ok a => Quietly (f a) (hist' ++ [returned (.recordSubOperationAndResetTimer operation) ()]) Q
      | .error e => ∀ counted, counted = hist' ∨
          counted = hist' ++ [returned (.incrementProcessingCounter status) ()] →
          Q (counted ++ [returned (.recordSubOperationAndResetTimer operation) ()]) (.error e))) :
    Quietly (((countFailure openService cs status id p).finallyDo
      (openService.recordSubOperationAndResetTimer operation)).bind f) hist Q := by
  refine Quietly.bind (Quietly.finallyDo (Quietly.handle (hp.mono ?_)))
  intro hist' r hr
  cases r with
  | ok a => exact quietly_ask_bind (.recordSubOperationAndResetTimer operation) (fun _ => .ret hr)
  | error e =>
    dsimp only
    split
    · refine quietly_ask_bind (.incrementProcessingCounter status) (fun _ => .raise ?_)
      exact quietly_ask_bind (.recordSubOperationAndResetTimer operation)
        (fun _ => .raise (hr _ (.inr rfl)))
    · refine Quietly.raise ?_
      exact quietly_ask_bind (.recordSubOperationAndResetTimer operation)
        (fun _ => .raise (hr _ (.inl rfl)))

/-- A part without calls whose failures are counted. -/
theorem quietly_counted_bind {cs : List ThrowableClass} {status : ProcessingStatus}
    {rethrow : Throwable → Throwable} {x : Except Throwable α} {f : α → CaProg CaOp CaOp.Val β}
    (hcaught : ∀ e, x = .error e → e.caughtBy cs →
      Q (hist ++ [returned (.incrementProcessingCounter status) ()]) (.error (rethrow e)))
    (hthrown : ∀ e, x = .error e → ¬ e.caughtBy cs → Q hist (.error e))
    (hok : ∀ a, x = .ok a → Quietly (f a) hist Q) :
    Quietly ((countFailure openService cs status rethrow (Prog.ofExcept x)).bind f) hist Q := by
  cases x with
  | ok a => exact hok a rfl
  | error e =>
    unfold countFailure
    rw [Prog.ofExcept, handle_raise]
    split
    · next hcs => exact quietly_count_raise_bind (hcaught e rfl hcs)
    · next hcs => exact Quietly.raise (hthrown e rfl hcs)

/-! ### The walk through a quiet issuance -/

theorem forall_error_iff {x : Except Throwable α} {e : Throwable} (h : x = .error e)
    {P : Throwable → Prop} : (∀ e', x = .error e' → P e') ↔ P e := by
  rw [h]
  refine ⟨fun hall => hall e rfl, fun hp e' he' => ?_⟩
  cases he'
  exact hp

theorem forall_error_of_ok {x : Except Throwable α} {a : α} (h : x = .ok a)
    {P : Throwable → Prop} : ∀ e, x = .error e → P e := by
  intro e he
  rw [h] at he
  cases he

/-- Counting a failure and taking the time add no check. -/
theorem checksTaken_counted {tr counted : List CaEvent} {status : ProcessingStatus}
    {operation : IssuanceSubOperation} (hop : operation ≠ .validateAudience)
    (h : counted = tr ∨ counted = tr ++ [returned (.incrementProcessingCounter status) ()]) :
    ChecksTaken lib request
        (counted ++ [returned (.recordSubOperationAndResetTimer operation) ()]) ↔
      ChecksTaken lib request tr := by
  have hrecord : CheckTaken lib request counted
      (returned (.recordSubOperationAndResetTimer operation) ()) := by
    cases operation with
    | validateAudience => exact absurd rfl hop
    | _ => trivial
  rw [checksTaken_snoc, and_iff_left hrecord]
  rcases h with rfl | rfl
  · rfl
  · exact checksTaken_snoc.trans (and_iff_left trivial)

/-- The checks so far are taken, and `policyOpt` is the policy that was answered, if one was. -/
structure Walked (lib : Platform) (request : CertificateIssuanceRequest) (policyOpt : Option Policy)
    (hist : List CaEvent) : Prop where
  taken : ChecksTaken lib request hist
  policy : ∀ policy, policyOpt = some policy ↔ ∃ identity publisherId workloadId,
    returned (.getPolicy identity publisherId workloadId) (some policy) ∈ hist

/-- A call that is not for the policy, and after which nothing is computed that may throw. -/
def Unchecked (lib : Platform) (request : CertificateIssuanceRequest) (o : CaOp) : Prop :=
  (∀ hist v, CheckTaken lib request hist (returned o v)) ∧
    ∀ identity publisherId workloadId, o ≠ .getPolicy identity publisherId workloadId

variable {policyOpt : Option Policy}

theorem Walked.snoc (h : Walked lib request policyOpt hist) {o : CaOp} {v : o.Val}
    (hcheck : CheckTaken lib request hist (returned o v))
    (ho : ∀ identity publisherId workloadId, o ≠ .getPolicy identity publisherId workloadId) :
    Walked lib request policyOpt (hist ++ [returned o v]) := by
  refine ⟨h.taken.snoc hcheck, fun policy => (h.policy policy).trans ?_⟩
  have hother : ∀ identity publisherId workloadId,
      returned (.getPolicy identity publisherId workloadId) (some policy) ∉ [returned o v] := by
    intro identity publisherId workloadId hmem
    have heq := congrArg Event.op (List.mem_singleton.mp hmem)
    exact ho identity publisherId workloadId heq.symm
  simp only [List.mem_append, hother, or_false]

theorem Walked.getPolicy (h : Walked lib request none hist) (identity : CallerIdentity)
    (publisherId workloadId : JString) (policyOpt : Option Policy) :
    Walked lib request policyOpt
      (hist ++ [returned (.getPolicy identity publisherId workloadId) policyOpt]) := by
  refine ⟨h.taken.snoc trivial, fun policy => ⟨?_, ?_⟩⟩
  · rintro rfl
    exact ⟨identity, publisherId, workloadId, by simp⟩
  · rintro ⟨identity', publisherId', workloadId', hmem⟩
    rcases List.mem_append.mp hmem with hmem | hmem
    · cases (h.policy policy).mpr ⟨_, _, _, hmem⟩
    · cases List.mem_singleton.mp hmem
      rfl

theorem Walked.policy_eq (h : Walked lib request policyOpt hist) {policy policy' : Policy}
    (hpolicy : policyOpt = some policy) {identity : CallerIdentity}
    {publisherId workloadId : JString}
    (hmem : returned (.getPolicy identity publisherId workloadId) (some policy') ∈ hist) :
    policy' = policy := by
  have hsame := (h.policy policy').mpr ⟨identity, publisherId, workloadId, hmem⟩
  rw [hpolicy] at hsame
  exact (Option.some.inj hsame).symm

theorem walked_ask_bind {o : CaOp} (ho : Unchecked lib request o)
    (hw : Walked lib request policyOpt hist) {f : o.Val → CaProg CaOp CaOp.Val β}
    (h : ∀ v hist', Walked lib request policyOpt hist' → Quietly (f v) hist' Q) :
    Quietly ((ask o).bind f) hist Q :=
  quietly_ask_bind o (fun v => h v _ (hw.snoc (ho.1 hist v) ho.2))

/-- The same, last in a part that is timed. -/
theorem walked_timed {o : CaOp} (ho : Unchecked lib request o) {operation : IssuanceSubOperation}
    (hop : Unchecked lib request (.recordSubOperationAndResetTimer operation))
    (hw : Walked lib request policyOpt hist) {f : o.Val → CaProg CaOp CaOp.Val β}
    (h : ∀ v hist', Walked lib request policyOpt hist' → Quietly (f v) hist' Q) (v : o.Val) :
    Quietly (f v) (hist ++ [returned o v] ++
      [returned (.recordSubOperationAndResetTimer operation) ()]) Q :=
  h v _ ((hw.snoc (ho.1 hist v) ho.2).snoc (hop.1 _ ()) hop.2)

/-- The search calls verifiers only. -/
theorem walked_anyMatch (v : Nat) (evidence : AttestationEvidence) (key : PublicKey)
    (rvs : List ReferenceValues) (hw : Walked lib request policyOpt hist)
    {f : Bool → CaProg CaOp CaOp.Val β}
    (h : ∀ b hist', Walked lib request policyOpt hist' → Quietly (f b) hist' Q) :
    Quietly ((anyMatch (fun rv => ask (.verify v evidence key rv)) rvs).bind f) hist Q := by
  induction rvs generalizing hist with
  | nil => exact h false hist hw
  | cons rv rvs ih =>
    unfold anyMatch
    rw [bind_eq, Prog.bind_assoc]
    refine walked_ask_bind (o := .verify v evidence key rv) ⟨fun _ _ => trivial, by simp⟩ hw
      (fun matched hist' hw' => ?_)
    cases matched with
    | true => exact h true hist' hw'
    | false => exact ih hw'

theorem walked_getVerifier (evidence : AttestationEvidence)
    (hw : Walked lib request policyOpt hist)
    {f : Option (AttestationVerifier CaOp CaOp.Val) → CaProg CaOp CaOp.Val β}
    (h : ∀ (v : Option Nat) hist', Walked lib request policyOpt hist' →
      Quietly (f (v.map (fun v evidence key rv => ask (.verify v evidence key rv)))) hist' Q) :
    Quietly ((openService.getVerifier evidence).bind f) hist Q := by
  show Quietly (((ask (.getVerifier evidence)).bind _).bind f) hist Q
  rw [Prog.bind_assoc]
  exact walked_ask_bind (o := .getVerifier evidence) ⟨fun _ _ => trivial, by simp⟩ hw h

theorem unchecked_record {operation : IssuanceSubOperation} (hop : operation ≠ .validateAudience) :
    Unchecked lib request (.recordSubOperationAndResetTimer operation) := by
  refine ⟨fun hist v => ?_, by simp⟩
  cases operation with
  | validateAudience => exact absurd rfl hop
  | _ => trivial

/-! ### The blocks of `issueCertificate` -/

variable {caller : CallerIdentity}

/-- The method begins with the public key of the request. -/
theorem walked_publicKey_bind {f : PublicKey → CaProg CaOp CaOp.Val β}
    (h : ∀ csrPublicKey hist, Walked lib request none hist →
      Quietly (f csrPublicKey) hist (EndsTaken lib request)) :
    Quietly ((ask .startIssuanceTimer).bind (fun _ =>
        ((countFailure openService [.ioException] .invalidCsr id
          (extractPublicKey openService lib request)).finallyDo
            (openService.recordSubOperationAndResetTimer .extractPublicKey)).bind f)) []
      (EndsTaken lib request) := by
  have hw : Walked lib request none [] := ⟨checksTaken_nil, by simp⟩
  refine quietly_ask_bind .startIssuanceTimer (fun _ => ?_)
  refine quietly_timed_bind (Quietly.ofExcept_bind (fun e he => ?_) (fun keyBytes hkeyBytes => ?_))
  · intro counted hcounted
    refine (checksTaken_counted (by simp) hcounted).trans (endsTaken_check hw.taken ?_)
    exact forall_error_iff he
  exact Quietly.invoke (walked_timed (o := .decodeRawPublicKey keyBytes)
    ⟨fun _ _ => trivial, by simp⟩ (unchecked_record (by simp)) (hw.snoc (o := .startIssuanceTimer)
      (v := ()) (forall_error_of_ok hkeyBytes) (by simp)) h)

/-- The root that signs, and its trust domain. -/
theorem walked_trustDomain_bind (hw : Walked lib request policyOpt hist) {message : JString}
    {f : TrustPackage → SelfSignedBundle → JString → CaProg CaOp CaOp.Val β}
    (h : ∀ trustPackage rootBundle trustDomain hist', Walked lib request policyOpt hist' →
      Quietly (f trustPackage rootBundle trustDomain) hist' (EndsTaken lib request)) :
    Quietly ((ask .getActiveTrustPackage).bind (fun trustPackage =>
        (headBundle trustPackage).bind (fun rootBundle =>
          (countFailure openService
            [.certificateException, .uriSyntaxException, .illegalArgumentException] .signingError
            (fun _ => { cls := .certificateException, message := message })
            (Prog.ofExcept (TrustDomainExtractor.extract lib rootBundle.certificate))).bind
              (f trustPackage rootBundle)))) hist (EndsTaken lib request) := by
  refine quietly_ask_bind .getActiveTrustPackage (fun trustPackage => ?_)
  refine quietly_headBundle_bind (fun hempty message => ?_) (fun rootBundle hroot => ?_)
  · refine endsTaken_check hw.taken (iff_of_false ?_ (not_hasStatus_indexOutOfBounds message))
    rintro ⟨root, hroot, -⟩
    rw [hempty] at hroot
    cases hroot
  refine quietly_counted_bind (fun e he hcs => ?_) (fun e he hcs => ?_)
    (fun trustDomain htrustDomain => ?_)
  · refine iff_of_true ((hw.taken.snoc ?_).snoc trivial) (hasStatus_certificate _)
    exact ⟨rootBundle, hroot, (forall_error_iff he).mpr (.inl hcs)⟩
  · refine endsTaken_check hw.taken ⟨?_, fun hstatus => ?_⟩
    · rintro ⟨root, hroot', hall⟩
      obtain rfl := Option.some.inj (hroot.symm.trans hroot')
      exact (hall e he).resolve_left hcs
    · exact ⟨rootBundle, hroot, (forall_error_iff he).mpr (.inr hstatus)⟩
  exact h trustPackage rootBundle trustDomain _
    (hw.snoc (o := .getActiveTrustPackage) (v := trustPackage)
      ⟨rootBundle, hroot, forall_error_of_ok htrustDomain⟩ (by simp))

/-- The audience is checked, and what is computed next is the endorsement. -/
theorem walked_audience_bind (hw : Walked lib request policyOpt hist) {csrPublicKey : PublicKey}
    {trustDomain : JString} {f : Bytes → CaProg CaOp CaOp.Val β}
    (h : ∀ endorsement hist', request.attestationEvidence.getRawBinaryEndorsement lib =
        .ok endorsement → Walked lib request policyOpt hist' →
      Quietly (f endorsement) hist' (EndsTaken lib request)) :
    Quietly (((countFailure openService [.audienceValidationException] .audienceMismatch id
          (openService.validateAudience csrPublicKey caller trustDomain)).finallyDo
            (openService.recordSubOperationAndResetTimer .validateAudience)).bind
        (fun _ => (Prog.ofExcept
          (request.attestationEvidence.getRawBinaryEndorsement lib)).bind f)) hist
      (EndsTaken lib request) := by
  refine quietly_timed_bind (Quietly.invoke (fun _ => ?_))
  replace hw := hw.snoc (o := .validateAudience csrPublicKey caller trustDomain) (v := ()) trivial
    (by simp)
  refine Quietly.ofExcept_bind (fun e he => ?_) (fun endorsement hendorsement => ?_)
  · exact endsTaken_check hw.taken (forall_error_iff he)
  exact h endorsement _ hendorsement
    (hw.snoc (o := .recordSubOperationAndResetTimer .validateAudience) (v := ())
      (forall_error_of_ok hendorsement) (by simp))

/-- The end of the validity that the policy allows. -/
theorem walked_expiration_bind (hw : Walked lib request policyOpt hist) {policy : Policy}
    (hpolicy : policyOpt = some policy) {f : Instant → Instant → CaProg CaOp CaOp.Val β}
    (h : ∀ now expiration hist', Walked lib request policyOpt hist' →
      Quietly (f now expiration) hist' (EndsTaken lib request)) :
    Quietly ((ask .now).bind (fun now => (Prog.ofExcept
        (now.plus policy.certificateAttributes.maxCertificateValidity)).bind (f now))) hist
      (EndsTaken lib request) := by
  refine quietly_ask_bind .now (fun now => ?_)
  refine Quietly.ofExcept_bind (fun e he => ?_) (fun expiration hexpiration => ?_)
  · obtain ⟨identity, publisherId, workloadId, hasked⟩ := (hw.policy policy).mp hpolicy
    refine endsTaken_check hw.taken ⟨fun hall => ?_, fun hstatus => ?_⟩
    · exact hall identity publisherId workloadId policy hasked e he
    · intro _ _ _ policy' hasked'
      obtain rfl := hw.policy_eq hpolicy hasked'
      exact (forall_error_iff he).mpr hstatus
  have hnow : CheckTaken lib request hist (returned .now now) := by
    intro _ _ _ policy' hasked
    obtain rfl := hw.policy_eq hpolicy hasked
    exact forall_error_of_ok hexpiration
  exact h now expiration _ (hw.snoc hnow (by simp))

/-- The certificate is signed, once its subject could be made. -/
theorem walked_signing_bind (hw : Walked lib request policyOpt hist) {policy : Policy}
    {trustDomain : JString} {args : List CertificateModifier → Bytes → SignCsr}
    {f : X509Certificate → CaProg CaOp CaOp.Val β}
    (h : ∀ signedCertificate hist', Walked lib request policyOpt hist' →
      Quietly (f signedCertificate) hist' (EndsTaken lib request)) :
    Quietly ((ask (.createModifiers policy trustDomain)).bind (fun modifiers =>
        ((countFailure openService [.certificateException] .signingError id
          ((createSubjectPrincipal lib policy.certificateAttributes.certificateSubject).bind
            (fun subject => openService.signCsr (args modifiers subject)))).finallyDo
              (openService.recordSubOperationAndResetTimer .signCertificate)).bind f)) hist
      (EndsTaken lib request) := by
  refine quietly_ask_bind (.createModifiers policy trustDomain) (fun modifiers => ?_)
  refine quietly_timed_bind (Quietly.ofExcept_bind (fun e he => ?_) (fun subject hsubject => ?_))
  · intro counted hcounted
    refine (checksTaken_counted (by simp) hcounted).trans (endsTaken_check hw.taken ?_)
    exact forall_error_iff he
  exact Quietly.invoke (walked_timed (o := .signCsr _) ⟨fun _ _ => trivial, by simp⟩
    (unchecked_record (by simp)) (hw.snoc (o := .createModifiers policy trustDomain)
      (v := modifiers) (forall_error_of_ok hsubject) (by simp)) h)

/-- If no call fails, the service throws an exception without a status only where one of the
checks is not taken. -/
theorem quietly_issueCertificate (caller : CallerIdentity) :
    Quietly (issueCertificate openService lib request caller) [] (EndsTaken lib request) := by
  unfold issueCertificate
  refine walked_publicKey_bind (fun csrPublicKey hist hw => ?_)
  refine walked_trustDomain_bind hw (fun trustPackage rootBundle trustDomain hist hw => ?_)
  refine walked_audience_bind hw (fun endorsement hist hendorsement hw => ?_)
  refine walked_ask_bind (o := .getAnnotations endorsement) ⟨fun _ _ => trivial, by simp⟩ hw
    (fun annotations hist hw => ?_)
  refine Quietly.ofExcept_bind (fun e he => ?_) (fun endorsement _ => ?_)
  · -- The second reading of the endorsement cannot fail where the first did not.
    rw [hendorsement] at he
    cases he
  refine walked_ask_bind (o := .getValidity endorsement) ⟨fun _ _ => trivial, by simp⟩ hw
    (fun validity hist hw => ?_)
  refine walked_ask_bind (unchecked_record (by simp)) hw (fun _ hist hw => ?_)
  -- From here on the policy is the one that was answered.
  refine quietly_ask_bind (.getPolicy caller annotations.publisherId annotations.workloadId)
    (fun policyOpt => ?_)
  replace hw := hw.getPolicy caller annotations.publisherId annotations.workloadId policyOpt
  refine quietly_getOrFail_bind (fun _ => ?_) (fun policy hpolicy => ?_)
  · exact iff_of_true (hw.taken.snoc trivial) (hasStatus_illegalArgument _)
  refine walked_ask_bind (unchecked_record (by simp)) hw (fun _ hist hw => ?_)
  refine walked_getVerifier request.attestationEvidence hw (fun verifierOpt hist hw => ?_)
  refine quietly_getOrFail_bind (fun _ => ?_) (fun verifier hverifier => ?_)
  · exact iff_of_true (hw.taken.snoc trivial) (hasStatus_illegalArgument _)
  obtain ⟨v, -, rfl⟩ := Option.map_eq_some_iff.mp hverifier
  refine walked_ask_bind (unchecked_record (by simp)) hw (fun _ hist hw => ?_)
  refine walked_anyMatch v request.attestationEvidence csrPublicKey _ hw
    (fun hasBeenVerified hist hw => ?_)
  refine walked_ask_bind (unchecked_record (by simp)) hw (fun _ hist hw => ?_)
  refine quietly_failIf_bind ?_ ?_
  · exact iff_of_true (hw.taken.snoc trivial) (hasStatus_illegalArgument _)
  refine walked_expiration_bind hw hpolicy (fun now expiration hist hw => ?_)
  refine quietly_failIf_bind ?_ ?_
  · exact iff_of_true (hw.taken.snoc trivial) (hasStatus_illegalArgument _)
  refine walked_signing_bind hw (fun signedCertificate hist hw => ?_)
  refine walked_ask_bind (o := .incrementProcessingCounter .success) ⟨fun _ _ => trivial, by simp⟩
    hw (fun _ hist hw => ?_)
  refine walked_ask_bind (o := .incrementCertificateIssuanceCounter caller.getClientId)
    ⟨fun _ _ => trivial, by simp⟩ hw (fun _ hist hw => ?_)
  exact Quietly.ret hw.taken

end

end Tca
