import TransparentCa.Tca.ServiceFailures

/- How a call ends. Whatever the header, the request and the answers of everything the server
   calls, the call ends exactly once, with a status or a response, if and only if the last
   exception of a collaborator is one that the code around it takes, and, where no collaborator
   threw one, neither does the code itself throw one without a status (`endsOnce_iff`). It does
   so for evidence of two of the three platforms, for blank names in a token, for a trust
   package without a root, and for a failed key lookup. -/
namespace Tca
open Java Mbs Effects Effects.Prog

/-- The call `o` with the answer `v`. -/
def answered (o : CallOp) (v : o.Val) : CallEvent := ⟨o, .ok v⟩

/-! ## Endings -/

def CallOp.ends : CallOp → Bool
  | .close _ _ | .onNext _ | .onCompleted | .onError _ _ => true
  | _ => false

/-- What reached the client, in order. -/
def endings (tr : List CallEvent) : List CallOp :=
  tr.filterMap (fun ev => match ev.ans with
    | .ok _ => if ev.op.ends then some ev.op else none
    | .error _ => none)

/-- No exception escaped, and the call was ended by one status or one response. -/
def EndsOnce (tr : List CallEvent) (out : Except Throwable Unit) : Prop :=
  out = .ok () ∧
    ((∃ status description, endings tr = [.close status description]) ∨
      (∃ status description, endings tr = [.onError status description]) ∨
      ∃ response, endings tr = [.onNext response, .onCompleted])

/-! ## Exceptions that are taken -/

/-- The calls that the service made. -/
def caEvents (tr : List CallEvent) : List CaEvent :=
  tr.filterMap (fun ev => match ev with
    | ⟨.ca o, r⟩ => some ⟨o, r⟩
    | _ => none)

/-- Whether the code takes the exception `e` of `o`, the last call that fails. In the `try` of
the interceptor it has to be the only one. -/
def Taken (authenticating : Prop) : CallOp → Throwable → Prop
  | .ca _, e => HasStatus e
  | .onNext _, e => HasStatus e
  | .parseClaimsJws _, e | .incrementAuthenticationCounter _, e
  | .recordOidcAuthenticationTime, e | .startCall _, e =>
    authenticating ∧ e.instanceOf .jwtException
  | .incrementProcessingCounter _, _ | .close _ _, _ | .onCompleted, _ | .onError _ _, _ => False

/-- The last exception of a call is taken, or none has failed and `self` holds. -/
def TakenOr (self authenticating : Prop) (tr : List CallEvent) : Prop :=
  match lastFailure tr with
  | none => self
  | some (o, e) => Taken authenticating o e

section
variable (lib : Platform) (authHeader : Option JString) (request : IssueCertificateRequest)

/-- There is a token, and no call but one has failed. -/
def Authenticating (tr : List CallEvent) : Prop :=
  (authHeader.filter JwtInterceptor.bearer.isPrefixOf).isSome ∧ (failures tr).length = 1

/-- What the server's own code throws, where no call fails, is taken. -/
structure SelfTaken (tr : List CallEvent) : Prop where
  identity : ∀ token claims rest issuer subject,
    tr = answered (.parseClaimsJws token) claims :: rest → claims.issuer = some issuer →
      claims.subject = some subject → isBlank issuer = false ∧ isBlank subject = false
  service : ∀ domainRequest,
    CertificateIssuanceRequestMapper.toDomain request = .ok domainRequest →
      ChecksTaken lib domainRequest (caEvents tr)

def CallTaken (tr : List CallEvent) : Prop :=
  TakenOr (SelfTaken lib request tr) (Authenticating authHeader tr) tr

end

theorem takenOr_congr {self self' authenticating : Prop} {tr : List CallEvent}
    (h : self ↔ self') : TakenOr self authenticating tr ↔ TakenOr self' authenticating tr := by
  rw [propext h]

theorem takenOr_of_none {self authenticating : Prop} {tr : List CallEvent}
    (h : lastFailure tr = none) : TakenOr self authenticating tr ↔ self := by
  rw [TakenOr, h]

theorem takenOr_of_some {self authenticating : Prop} {tr : List CallEvent} {o : CallOp}
    {e : Throwable} (h : lastFailure tr = some (o, e)) :
    TakenOr self authenticating tr ↔ Taken authenticating o e := by
  rw [TakenOr, h]

@[simp] theorem endings_nil : endings [] = [] := rfl

@[simp] theorem endings_append (t₁ t₂ : List CallEvent) :
    endings (t₁ ++ t₂) = endings t₁ ++ endings t₂ :=
  List.filterMap_append

@[simp] theorem caEvents_append (t₁ t₂ : List CallEvent) :
    caEvents (t₁ ++ t₂) = caEvents t₁ ++ caEvents t₂ :=
  List.filterMap_append

theorem endings_eq_nil {tr : List CallEvent} (h : ∀ ev ∈ tr, ev.op.ends = false) :
    endings tr = [] := by
  refine List.filterMap_eq_nil_iff.mpr (fun ev hev => ?_)
  split
  · simp [h ev hev]
  · rfl

theorem not_endsOnce_error (tr : List CallEvent) (e : Throwable) : ¬ EndsOnce tr (.error e) := by
  rintro ⟨h, -⟩
  cases h

/-! ## The interceptor -/

namespace JwtInterceptor

theorem plain_serverCall (o : CallOp) : Plain (serverCall o) := .invoke o

theorem plain_unauthenticated (description : JString) : Plain (unauthenticated description) :=
  .bind (plain_serverCall (.close _ _)) (fun _ =>
    .bind (plain_serverCall (.incrementAuthenticationCounter _)) (fun _ =>
      .bind (plain_serverCall .recordOidcAuthenticationTime) (fun _ => .ret _)))

theorem plain_authenticate (token : JString) : Plain (authenticate token) :=
  .bind (plain_serverCall (.parseClaimsJws token)) (fun _ =>
    .bind (plain_serverCall (.incrementAuthenticationCounter _)) (fun _ =>
      .bind (plain_serverCall .recordOidcAuthenticationTime) (fun _ =>
        .bind (plain_serverCall (.startCall _)) (fun _ => .ret _))))

/-- A refusal, every call of which returned. -/
def refusal (description : JString) : List CallEvent :=
  [answered (.close .unauthenticated description) (),
    answered (.incrementAuthenticationCounter .failure) (),
    answered .recordOidcAuthenticationTime ()]

/-- A token that was accepted. -/
def acceptance (token : JString) (claims : Claims) : List CallEvent :=
  [answered (.parseClaimsJws token) claims,
    answered (.incrementAuthenticationCounter .success) (),
    answered .recordOidcAuthenticationTime (),
    answered (.startCall (contextOf claims)) ()]

theorem runs_unauthenticated {description : JString} {tr : List CallEvent}
    {context : Option CallContext} (h : Runs (unauthenticated description) tr (.ok context)) :
    context = none ∧ tr = refusal description := by
  simp only [unauthenticated, serverCall, bind_eq, pure_eq, runs_invoke_bind, runs_ret] at h
  obtain ⟨⟨⟩, t, rfl, ⟨⟩, t', rfl, ⟨⟩, t'', rfl, rfl, hout⟩ := h
  exact ⟨Except.ok.inj hout, rfl⟩

theorem runs_authenticate {token : JString} {tr : List CallEvent} {context : Option CallContext}
    (h : Runs (authenticate token) tr (.ok context)) :
    ∃ claims, context = some (contextOf claims) ∧ tr = acceptance token claims := by
  simp only [authenticate, serverCall, bind_eq, pure_eq, runs_invoke_bind, runs_ret] at h
  obtain ⟨claims, t, rfl, ⟨⟩, t', rfl, ⟨⟩, t'', rfl, ⟨⟩, t''', rfl, rfl, hout⟩ := h
  exact ⟨claims, Except.ok.inj hout, rfl⟩

/-- The calls of the `try`. -/
def OfAuthentication : CallOp → Prop
  | .parseClaimsJws _ | .incrementAuthenticationCounter _ | .recordOidcAuthenticationTime
  | .startCall _ => True
  | _ => False

/-- The calls of a refusal. -/
def OfRefusal : CallOp → Prop
  | .incrementAuthenticationCounter _ | .recordOidcAuthenticationTime | .close _ _ => True
  | _ => False

theorem uses_unauthenticated (description : JString) :
    (unauthenticated description).Uses OfRefusal :=
  Uses.bind (Uses.invoke trivial) (fun _ => Uses.bind (Uses.invoke trivial) (fun _ =>
    Uses.bind (Uses.invoke trivial) (fun _ => Uses.ret _)))

theorem uses_authenticate (token : JString) : (authenticate token).Uses OfAuthentication :=
  Uses.bind (Uses.invoke trivial) (fun _ => Uses.bind (Uses.invoke trivial) (fun _ =>
    Uses.bind (Uses.invoke trivial) (fun _ => Uses.bind (Uses.invoke trivial) (fun _ =>
      Uses.ret _))))

theorem taken_iff_of_authentication {o : CallOp} (ho : OfAuthentication o) {authenticating : Prop}
    {e : Throwable} :
    Taken authenticating o e ↔ authenticating ∧ e.instanceOf .jwtException := by
  cases o <;> first | exact ho.elim | rfl

theorem not_taken_of_refusal {o : CallOp} (ho : OfRefusal o) {authenticating : Prop}
    (hnot : ¬ authenticating) {e : Throwable} : ¬ Taken authenticating o e := by
  cases o <;> first | exact ho.elim | exact fun h => hnot h.1 | exact False.elim

/-- The failing call of a refusal. -/
theorem runs_unauthenticated_error {description : JString} {tr : List CallEvent} {e : Throwable}
    (h : Runs (unauthenticated description) tr (.error e)) :
    ∃ o, failures tr = [(o, e)] ∧ OfRefusal o := by
  obtain ⟨o, hfail⟩ := plain_unauthenticated description tr _ h
  have hmem : (⟨o, .error e⟩ : CallEvent) ∈ tr := mem_of_mem_failures (by rw [hfail]; simp)
  exact ⟨o, hfail, (uses_unauthenticated description).of_runs h _ hmem⟩

theorem runs_authenticate_error {token : JString} {tr : List CallEvent} {e : Throwable}
    (h : Runs (authenticate token) tr (.error e)) :
    ∃ o, failures tr = [(o, e)] ∧ OfAuthentication o ∧ endings tr = [] := by
  obtain ⟨o, hfail⟩ := plain_authenticate token tr _ h
  have hmem : (⟨o, .error e⟩ : CallEvent) ∈ tr := mem_of_mem_failures (by rw [hfail]; simp)
  have huses := (uses_authenticate token).of_runs h
  refine ⟨o, hfail, huses _ hmem, endings_eq_nil (fun ev hev => ?_)⟩
  have hev' := huses ev hev
  generalize ev.op = o' at hev'
  cases o' <;> first | exact hev'.elim | rfl

/-- A refused call has ended, with its failures taken; an accepted one goes on; an exception
escapes only where it is not taken. -/
def Intercepted (lib : Platform) (authHeader : Option JString) (request : IssueCertificateRequest)
    (tr : List CallEvent) : Except Throwable (Option CallContext) → Prop
  | .ok none => (∃ description, endings tr = [.close .unauthenticated description]) ∧
      CallTaken lib authHeader request tr
  | .ok (some context) => ∃ token claims, context = contextOf claims ∧ tr = acceptance token claims
  | .error _ => ¬ CallTaken lib authHeader request tr

section
variable {lib : Platform} {authHeader : Option JString} {request : IssueCertificateRequest}

theorem interceptCall_spec {tr : List CallEvent} {out : Except Throwable (Option CallContext)}
    (h : Runs (interceptCall authHeader) tr out) :
    Intercepted lib authHeader request tr out := by
  unfold interceptCall at h
  cases hheader : authHeader.filter bearer.isPrefixOf with
  | none =>
    rw [hheader] at h
    cases out with
    | ok context =>
      obtain ⟨rfl, rfl⟩ := runs_unauthenticated h
      refine ⟨⟨_, rfl⟩, fun _ _ _ _ _ htr => ?_, fun _ _ => checksTaken_nil⟩
      cases (List.cons.inj htr).1
    | error e =>
      obtain ⟨o, hfail, ho⟩ := runs_unauthenticated_error h
      rw [Intercepted, CallTaken, TakenOr, lastFailure, hfail]
      refine not_taken_of_refusal ho (fun hauth => ?_)
      have hsome := hauth.1
      rw [hheader] at hsome
      cases hsome
  | some header =>
    rw [hheader] at h
    simp only [tryCatch_eq] at h
    rcases runs_handle.mp h with ⟨context, rfl, hbody⟩ | ⟨e, t₁, t₂, rfl, hbody, hcatch⟩
    · obtain ⟨claims, rfl, rfl⟩ := runs_authenticate hbody
      exact ⟨_, claims, rfl, rfl⟩
    · obtain ⟨o, hfail, ho, hnone⟩ := runs_authenticate_error hbody
      split at hcatch
      · next hjwt =>
        -- The exception is caught: the call is refused, and that may fail in its turn.
        cases out with
        | ok context =>
          obtain ⟨rfl, rfl⟩ := runs_unauthenticated hcatch
          have hfailures : failures (t₁ ++ refusal (u "Failed to parse JWT token")) = [(o, e)] := by
            rw [failures_append, hfail]
            rfl
          refine ⟨⟨_, by rw [endings_append, hnone]; rfl⟩, ?_⟩
          rw [CallTaken, TakenOr, lastFailure, hfailures]
          refine (taken_iff_of_authentication ho).mpr ⟨⟨by rw [hheader]; rfl, ?_⟩, hjwt⟩
          rw [hfailures]
          rfl
        | error e' =>
          obtain ⟨o', hfail', ho'⟩ := runs_unauthenticated_error hcatch
          have hfailures : failures (t₁ ++ t₂) = [(o, e), (o', e')] := by
            rw [failures_append, hfail, hfail']
            rfl
          rw [Intercepted, CallTaken, TakenOr, lastFailure, hfailures]
          refine not_taken_of_refusal ho' (fun hauth => ?_)
          have hlength := hauth.2
          rw [hfailures] at hlength
          cases hlength
      · next hjwt =>
        obtain ⟨rfl, rfl⟩ := runs_raise.mp hcatch
        rw [List.append_nil, Intercepted, CallTaken, TakenOr, lastFailure, hfail]
        exact fun htaken => hjwt ((taken_iff_of_authentication ho).mp htaken).2

end
end JwtInterceptor
/-! ## The handler -/

namespace TransparentCertificateAuthorityGrpcHandler

def lift (ev : CaEvent) : CallEvent := ⟨.ca ev.op, ev.ans⟩

theorem endings_lift (tr : List CaEvent) : endings (tr.map lift) = [] := by
  refine endings_eq_nil (fun ev hev => ?_)
  obtain ⟨ev, -, rfl⟩ := List.mem_map.mp hev
  rfl

theorem caEvents_lift (tr : List CaEvent) : caEvents (tr.map lift) = tr := by
  induction tr with
  | nil => rfl
  | cons ev tr ih => exact congrArg (ev :: ·) ih

theorem failures_lift (tr : List CaEvent) :
    failures (tr.map lift) = (failures tr).map (fun f => (.ca f.1, f.2)) := by
  induction tr with
  | nil => rfl
  | cons ev tr ih =>
    obtain ⟨o, r⟩ := ev
    cases r with
    | ok v => exact ih
    | error e => exact congrArg (_ :: ·) ih

theorem lift_of_expands {tr₀ : List CaEvent} {tr : List CallEvent}
    (h : Expands (fun o : CaOp => serverCall (.ca o)) tr₀ tr) : tr = tr₀.map lift := by
  induction h with
  | nil => rfl
  | @cons o r t tr₀ tr hrun _ ih =>
    rw [runs_invoke.mp hrun, ih]
    rfl

/-- The service's run is seen through the calls: it reaches no end of the call itself. -/
theorem callService_spec {lib : Platform} {domainRequest : CertificateIssuanceRequest}
    {caller : CallerIdentity} {tr : List CallEvent}
    {out : Except Throwable (List X509Certificate)}
    (h : Runs (callService lib domainRequest caller) tr out) :
    endings tr = [] ∧
      ((failures tr = [] ∧ EndsTaken lib domainRequest (caEvents tr) out) ∨
        ∃ o e, lastFailure tr = some (.ca o, e) ∧ out = .error e) := by
  obtain ⟨tr₀, hrun, hexp⟩ := runs_interp h
  obtain rfl := lift_of_expands hexp
  refine ⟨endings_lift tr₀, ?_⟩
  rw [caEvents_lift, lastFailure, failures_lift, List.getLast?_map]
  cases hlast : lastFailure tr₀ with
  | none =>
    have hquiet := lastFailure_eq_none.mp hlast
    refine .inl ⟨by rw [hquiet]; rfl, ?_⟩
    exact quietly_issueCertificate caller tr₀ out hrun hquiet
  | some f =>
    refine .inr ⟨f.1, f.2, ?_, unmasked_issueCertificate lib domainRequest caller tr₀ out hrun
      f.1 f.2 hlast⟩
    rw [show (failures tr₀).getLast? = some f from hlast]
    rfl

/-- How the second `try` can end before its clauses: with the response; by an exception of the
service or of `onNext`, nothing having been sent; or by one of `onCompleted`. -/
def Responded (lib : Platform) (domainRequest : CertificateIssuanceRequest)
    (tr : List CallEvent) : Except Throwable Unit → Prop
  | .ok _ => failures tr = [] ∧ (∃ response, endings tr = [.onNext response, .onCompleted]) ∧
      ChecksTaken lib domainRequest (caEvents tr)
  | .error e =>
    (endings tr = [] ∧ failures tr = [] ∧
      (ChecksTaken lib domainRequest (caEvents tr) ↔ HasStatus e)) ∨
    (endings tr = [] ∧ ∃ o, lastFailure tr = some (o, e) ∧
      ∀ authenticating, Taken authenticating o e ↔ HasStatus e) ∨
    ((∃ response, endings tr = [.onNext response]) ∧ ∃ o, lastFailure tr = some (o, e) ∧
      ∀ authenticating, ¬ Taken authenticating o e)

theorem respond_spec {lib : Platform} {domainRequest : CertificateIssuanceRequest}
    {caller : CallerIdentity} {tr : List CallEvent} {out : Except Throwable Unit}
    (h : Runs (respond lib domainRequest caller) tr out) :
    Responded lib domainRequest tr out := by
  obtain ⟨r, t₁, t₂, rfl, hservice, hrest⟩ := runs_bind_inv h
  obtain ⟨hnone, hends⟩ := callService_spec hservice
  cases r with
  | error e =>
    obtain ⟨rfl, rfl⟩ := hrest
    rw [List.append_nil]
    rcases hends with ⟨hquiet, hchecks⟩ | ⟨o, e', hlast, he⟩
    · exact .inl ⟨hnone, hquiet, hchecks⟩
    · cases he
      exact .inr (.inl ⟨hnone, .ca o, hlast, fun _ => Iff.rfl⟩)
  | ok chain =>
    rcases hends with ⟨hquiet, hchecks⟩ | ⟨o, e', hlast, he⟩
    · obtain ⟨r, u₁, u₂, rfl, hnext, hcompleted⟩ := runs_bind_inv hrest
      obtain rfl := runs_invoke.mp hnext
      cases r with
      | error e =>
        obtain ⟨rfl, rfl⟩ := hcompleted
        refine .inr (.inl ⟨?_, .onNext (chain.map X509Certificate.encoded), ?_, fun _ => Iff.rfl⟩)
        · rw [endings_append, hnone]
          rfl
        · rw [lastFailure_append]
          rfl
      | ok v =>
        obtain rfl := runs_invoke.mp hcompleted
        cases out with
        | ok v' =>
          refine ⟨?_, ⟨chain.map X509Certificate.encoded, ?_⟩, ?_⟩
          · rw [failures_append, hquiet]
            rfl
          · rw [endings_append, hnone]
            rfl
          · rw [caEvents_append]
            exact (List.append_nil (caEvents t₁)).symm ▸ hchecks
        | error e =>
          refine .inr (.inr ⟨⟨chain.map X509Certificate.encoded, ?_⟩, .onCompleted, ?_, fun _ => id⟩)
          · rw [endings_append, hnone]
            rfl
          · rw [lastFailure_append]
            rfl
    · cases he

section
variable {lib : Platform} {request : IssueCertificateRequest} {claims : Claims}
  {tr : List CallEvent} {out : Except Throwable Unit}

/-- A status with which the handler ends the call without asking the service. -/
theorem onError_spec {status : StatusCode} {description : JString}
    (h : Runs (serverCall (.onError status description)) tr out) {self authenticating : Prop}
    (hself : self) : EndsOnce tr out ↔ TakenOr self authenticating tr := by
  obtain rfl := runs_invoke.mp h
  cases out with
  | ok v => exact iff_of_true ⟨rfl, .inr (.inl ⟨status, description, rfl⟩)⟩ hself
  | error e => exact iff_of_false (not_endsOnce_error _ e) id

theorem after_onError (tr : List CallEvent) (status : StatusCode) (description : JString)
    (v : Unit) :
    lastFailure (tr ++ [⟨.onError status description, .ok v⟩]) = lastFailure tr ∧
      endings (tr ++ [⟨.onError status description, .ok v⟩]) =
        endings tr ++ [.onError status description] ∧
      caEvents (tr ++ [⟨.onError status description, .ok v⟩]) = caEvents tr := by
  refine ⟨?_, endings_append _ _, ?_⟩
  · rw [lastFailure_append]
    rfl
  · rw [caEvents_append]
    exact List.append_nil _

/-- The second `try` with its clauses. -/
theorem catch_spec {domainRequest : CertificateIssuanceRequest} {caller : CallerIdentity}
    (h : Runs ((respond lib domainRequest caller).handle (fun e =>
      match statusOf e with
      | some (status, description) => serverCall (.onError status description)
      | none => .raise e)) tr out) {authenticating : Prop} :
    EndsOnce tr out ↔
      TakenOr (ChecksTaken lib domainRequest (caEvents tr)) authenticating tr := by
  rcases runs_handle.mp h with ⟨⟨⟩, rfl, hbody⟩ | ⟨e, t₁, t₂, rfl, hbody, hcatch⟩
  · obtain ⟨hquiet, hends, hchecks⟩ := respond_spec hbody
    rw [takenOr_of_none (lastFailure_eq_none.mpr hquiet)]
    exact iff_of_true ⟨rfl, .inr (.inr hends)⟩ hchecks
  · have hresponded := respond_spec hbody
    cases hstatus : statusOf e with
    | none =>
      -- No clause takes the exception, which leaves the handler.
      rw [hstatus] at hcatch
      obtain ⟨rfl, rfl⟩ := runs_raise.mp hcatch
      have hnot : ¬ HasStatus e := by simp [HasStatus, hstatus]
      refine iff_of_false (not_endsOnce_error _ e) ?_
      rw [List.append_nil]
      rcases hresponded with ⟨-, hquiet, hchecks⟩ | ⟨-, o, hlast, htaken⟩ | ⟨-, o, hlast, htaken⟩
      · rwa [takenOr_of_none (lastFailure_eq_none.mpr hquiet), hchecks]
      · rwa [takenOr_of_some hlast, htaken]
      · rw [takenOr_of_some hlast]
        exact htaken authenticating
    | some answer =>
      rw [hstatus] at hcatch
      have hsome : HasStatus e := by simp [HasStatus, hstatus]
      obtain rfl := runs_invoke.mp hcatch
      cases out with
      | error e' =>
        refine iff_of_false (not_endsOnce_error _ e') ?_
        rw [takenOr_of_some (o := .onError answer.1 answer.2) (e := e')
          (by rw [lastFailure_append]; rfl)]
        exact id
      | ok v =>
        obtain ⟨hlast, hends, hca⟩ := after_onError t₁ answer.1 answer.2 v
        rw [hca]
        rcases hresponded with ⟨hnone, hquiet, hchecks⟩ | ⟨hnone, o, hfail, htaken⟩ |
          ⟨⟨response, hsent⟩, o, hfail, htaken⟩
        · rw [hnone] at hends
          rw [takenOr_of_none (hlast.trans (lastFailure_eq_none.mpr hquiet))]
          exact iff_of_true ⟨rfl, .inr (.inl ⟨answer.1, answer.2, hends⟩)⟩ (hchecks.mpr hsome)
        · rw [hnone] at hends
          rw [takenOr_of_some (hlast.trans hfail)]
          exact iff_of_true ⟨rfl, .inr (.inl ⟨answer.1, answer.2, hends⟩)⟩ ((htaken _).mpr hsome)
        · -- A response has been sent: the status comes on top of it.
          rw [takenOr_of_some (hlast.trans hfail)]
          refine iff_of_false ?_ (htaken authenticating)
          rintro ⟨-, hshape⟩
          rw [hends, hsent] at hshape
          simp at hshape

theorem toDomain_error {e : Throwable}
    (h : CertificateIssuanceRequestMapper.toDomain request = .error e) :
    e.instanceOf .illegalArgumentException := by
  unfold CertificateIssuanceRequestMapper.toDomain AttestationEvidenceMapper.toDomain at h
  split at h <;> cases h
  rfl

/-- The clause of the first `try`. -/
theorem invalidEvidence_spec {e : Throwable} (he : e.instanceOf .illegalArgumentException)
    (h : Runs (if e.instanceOf .illegalArgumentException then do
        serverCall (.incrementProcessingCounter .invalidEvidence)
        serverCall (.onError .invalidArgument e.message)
      else throw e : CallProg Unit) tr out) {self authenticating : Prop} (hself : self) :
    EndsOnce tr out ↔ TakenOr self authenticating tr := by
  rw [if_pos he] at h
  obtain ⟨r, t₁, t₂, rfl, hcount, hstatus⟩ := runs_bind_inv h
  obtain rfl := runs_invoke.mp hcount
  cases r with
  | ok v => exact onError_spec hstatus hself
  | error e' =>
    obtain ⟨rfl, rfl⟩ := hstatus
    exact iff_of_false (not_endsOnce_error _ e') id

theorem newCallerIdentity_cases (issuer subject : JString) (audiences : List JString) :
    (∃ e, CallerIdentity.new issuer subject audiences = .error e ∧
      ¬ (isBlank issuer = false ∧ isBlank subject = false)) ∨
    ∃ caller, CallerIdentity.new issuer subject audiences = .ok caller ∧
      isBlank issuer = false ∧ isBlank subject = false := by
  unfold CallerIdentity.new
  cases isBlank issuer <;> cases isBlank subject <;> simp

/-- The handler under the context of `claims` ends the call once exactly where its failures are
taken. -/
theorem issueCertificate_spec
    (h : Runs (issueCertificate lib (JwtInterceptor.contextOf claims) request) tr out)
    {authenticating : Prop} :
    EndsOnce tr out ↔ TakenOr
      ((∀ issuer subject, claims.issuer = some issuer → claims.subject = some subject →
          isBlank issuer = false ∧ isBlank subject = false) ∧
        ∀ domainRequest, CertificateIssuanceRequestMapper.toDomain request = .ok domainRequest →
          ChecksTaken lib domainRequest (caEvents tr)) authenticating tr := by
  have hmissing : Runs (serverCall (.onError .unauthenticated (u "Missing JWT token"))) tr out →
      ∀ domainRequest, CertificateIssuanceRequestMapper.toDomain request = .ok domainRequest →
        ChecksTaken lib domainRequest (caEvents tr) := by
    intro hrun _ _
    rw [runs_invoke.mp hrun]
    exact checksTaken_nil
  unfold issueCertificate JwtInterceptor.contextOf at h
  cases hissuer : claims.issuer with
  | none =>
    rw [hissuer] at h
    exact onError_spec h ⟨by simp, hmissing h⟩
  | some issuer =>
    cases hsubject : claims.subject with
    | none =>
      rw [hissuer, hsubject] at h
      exact onError_spec h ⟨by simp, hmissing h⟩
    | some subject =>
      rw [hissuer, hsubject] at h
      dsimp only at h
      rcases newCallerIdentity_cases issuer subject
        (JwtInterceptor.extractAudiences claims.audience) with ⟨e, hnew, hblank⟩ | ⟨caller, hnew, hok⟩
      · -- The constructor's exception is caught nowhere.
        rw [hnew] at h
        obtain ⟨rfl, rfl⟩ := runs_raise.mp h
        refine iff_of_false (not_endsOnce_error _ e) (fun hself => hblank ?_)
        exact hself.1 issuer subject rfl rfl
      · rw [hnew] at h
        have hidentity : ∀ issuer' subject', some issuer = some issuer' →
            some subject = some subject' → isBlank issuer' = false ∧ isBlank subject' = false := by
          intro _ _ hi hs
          rw [← Option.some.inj hi, ← Option.some.inj hs]
          exact hok
        cases hrequest : CertificateIssuanceRequestMapper.toDomain request with
        | error e =>
          rw [hrequest] at h
          refine invalidEvidence_spec (toDomain_error hrequest) h ⟨hidentity, fun _ hok' => ?_⟩
          cases hok'
        | ok domainRequest =>
          rw [hrequest] at h
          refine (catch_spec h).trans (takenOr_congr ⟨fun hchecks => ⟨hidentity, ?_⟩, ?_⟩)
          · intro _ hsame
            rwa [← Except.ok.inj hsame]
          · exact fun hself => hself.2 domainRequest rfl

end

end TransparentCertificateAuthorityGrpcHandler
open JwtInterceptor TransparentCertificateAuthorityGrpcHandler in
/-- Whatever the header, the request and the answers: the call ends exactly once, and no exception
escapes, if and only if the failures of the call are taken. -/
theorem endsOnce_iff {lib : Platform} {authHeader : Option JString}
    {request : IssueCertificateRequest} {tr : List CallEvent} {out : Except Throwable Unit}
    (h : Runs (handleCall lib authHeader request) tr out) :
    EndsOnce tr out ↔ CallTaken lib authHeader request tr := by
  obtain ⟨r, t₁, t₂, rfl, hintercept, hhandle⟩ := runs_bind_inv h
  have hspec : Intercepted lib authHeader request t₁ r := interceptCall_spec hintercept
  cases r with
  | error e =>
    obtain ⟨rfl, rfl⟩ := hhandle
    rw [List.append_nil]
    exact iff_of_false (not_endsOnce_error _ e) hspec
  | ok context =>
    cases context with
    | none =>
      obtain ⟨rfl, rfl⟩ := runs_ret.mp hhandle
      obtain ⟨⟨description, hends⟩, htaken⟩ := hspec
      rw [List.append_nil]
      exact iff_of_true ⟨rfl, .inl ⟨.unauthenticated, description, hends⟩⟩ htaken
    | some context =>
      obtain ⟨token, claims, rfl, rfl⟩ := hspec
      -- Nothing has been sent, and nothing has failed, when the handler begins.
      have hrest : EndsOnce t₂ out ↔ TakenOr _ (Authenticating authHeader
        (acceptance token claims ++ t₂)) t₂ := issueCertificate_spec hhandle
      refine Iff.trans hrest (takenOr_congr ⟨fun hself => ⟨?_, hself.2⟩, fun hself => ⟨?_, ?_⟩⟩)
      · intro token' claims' rest issuer subject htr hissuer hsubject
        cases (List.cons.inj htr).1
        exact hself.1 issuer subject hissuer hsubject
      · intro issuer subject hissuer hsubject
        exact hself.identity token claims _ issuer subject rfl hissuer hsubject
      · exact hself.service

/-! A caller with a token, and collaborators none of which fails. -/

namespace Sample

def claims (issuer : JString) : Claims := ⟨some issuer, some caller.subject, .string (u "aud")⟩

def callAnswer (issuer : JString) (_ : List CallEvent) : (o : CallOp) → Except Throwable o.Val
  | .ca o => answer [] o
  | .parseClaimsJws _ => .ok (claims issuer)
  | .incrementProcessingCounter _ | .incrementAuthenticationCounter _
  | .recordOidcAuthenticationTime | .startCall _ | .close _ _ | .onNext _ | .onCompleted
  | .onError _ _ => .ok ()

/-- The call of a caller whose token names `issuer`, with this evidence. -/
def callOf (issuer : JString) (evidence : AttestationEvidence) :
    Except Throwable Unit × List CallEvent :=
  exec (callAnswer issuer) (handleCall platform (some (u "Bearer token")) ⟨some evidence, csr⟩) []

def oakCall : Except Throwable Unit × List CallEvent :=
  callOf caller.issuer request.attestationEvidence

def awsCall : Except Throwable Unit × List CallEvent := callOf caller.issuer (.aws Bytes.empty)

def blankCall : Except Throwable Unit × List CallEvent :=
  callOf (u " ") request.attestationEvidence

end Sample

/-- With Oak evidence the caller gets its chain, and every failure is taken. -/
theorem endsOnce_oak :
    EndsOnce Sample.oakCall.2 Sample.oakCall.1 ∧
      CallTaken Sample.platform (some (u "Bearer token"))
        ⟨some Sample.request.attestationEvidence, Sample.csr⟩ Sample.oakCall.2 := by
  have hends : EndsOnce Sample.oakCall.2 Sample.oakCall.1 := by
    refine ⟨by decide, .inr (.inr ⟨[Sample.leaf, Sample.root.certificate].map
      X509Certificate.encoded, ?_⟩)⟩
    decide
  exact ⟨hends, (endsOnce_iff (runs_exec (Sample.callAnswer Sample.caller.issuer) _ [])).mp hends⟩

/-- With AWS evidence, or with a blank issuer in the token, an exception escapes. -/
theorem endsOnce_escapes :
    (∃ tr out, Runs (handleCall Sample.platform (some (u "Bearer token"))
        ⟨some (.aws Bytes.empty), Sample.csr⟩) tr out ∧ failures tr = [] ∧ ¬ EndsOnce tr out) ∧
      ∃ tr out, Runs (handleCall Sample.platform (some (u "Bearer token"))
        ⟨some Sample.request.attestationEvidence, Sample.csr⟩) tr out ∧
        answered (.parseClaimsJws (u "token")) (Sample.claims (u " ")) ∈ tr ∧
        failures tr = [] ∧ ¬ EndsOnce tr out := by
  have haws : Sample.awsCall.1 ≠ .ok () := by decide
  have hblank : Sample.blankCall.1 ≠ .ok () := by decide
  refine ⟨⟨Sample.awsCall.2, Sample.awsCall.1, runs_exec _ _ _, by decide, fun h => haws h.1⟩,
    Sample.blankCall.2, Sample.blankCall.1, runs_exec _ _ _, ?_, by decide, fun h => hblank h.1⟩
  exact List.mem_cons_self

end Tca
