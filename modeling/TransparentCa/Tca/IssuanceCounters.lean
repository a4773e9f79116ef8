import TransparentCa.Lib.Alone
import TransparentCa.Tca.ServiceFailures
import TransparentCa.Tca.PolicyProvider

/- How an issuance is counted. The service counts a status before it throws where it expects a
   failure, and `SUCCESS` at the end; the policy provider counts one of its own. A failure at
   any other place leaves through all of this uncounted. `counted_once_iff` says which
   failures those are. -/
namespace Tca
open Java Mbs Effects Effects.Prog

/-! ## The service with its policy provider -/

/-- A call of the service's collaborators, or of the policy provider's. -/
inductive IssuingOp where
  | service (o : CaOp)
  | fetchFile (clientId : JString)
  | allowMetricsForClientId (clientId : JString)
  deriving DecidableEq

abbrev IssuingOp.Val : IssuingOp → Type
  | .service o => o.Val
  | .fetchFile _ => Option Bytes
  | .allowMetricsForClientId _ => Unit

abbrev IssuingProg (α : Type) := CaProg IssuingOp IssuingOp.Val α

abbrev IssuingEvent := Event IssuingOp IssuingOp.Val Throwable

def consult (o : CaOp) : IssuingProg o.Val := Prog.invoke (IssuingOp.service o)

/-- The provider counts with the metrics of the service. -/
def policyProvider : FileSourcedPolicyProvider IssuingOp IssuingOp.Val where
  fetchFile clientId := Prog.invoke (IssuingOp.fetchFile clientId)
  incrementProcessingCounter status := consult (.incrementProcessingCounter status)
  allowMetricsForClientId clientId := Prog.invoke (IssuingOp.allowMetricsForClientId clientId)

/-- The service as it is wired, except that its other collaborators stay open. -/
def issuingService (format : PolicyFileFormat) : TransparentCaService IssuingOp IssuingOp.Val where
  getActiveTrustPackage := consult .getActiveTrustPackage
  getVerifier evidence := do
    let v : Option Nat ← consult (.getVerifier evidence)
    return v.map (fun v evidence key rv => consult (.verify v evidence key rv))
  signCsr args := consult (.signCsr args)
  decodeRawPublicKey keyBytes := consult (.decodeRawPublicKey keyBytes)
  getPolicy := FileSourcedPolicyProvider.getPolicy policyProvider format
  now := consult .now
  getAnnotations statementBytes := consult (.getAnnotations statementBytes)
  getValidity statementBytes := consult (.getValidity statementBytes)
  createModifiers policy trustDomain := consult (.createModifiers policy trustDomain)
  validateAudience key identity trustDomain :=
    consult (.validateAudience key identity trustDomain)
  startIssuanceTimer := consult .startIssuanceTimer
  recordSubOperationAndResetTimer operation :=
    consult (.recordSubOperationAndResetTimer operation)
  incrementProcessingCounter status := consult (.incrementProcessingCounter status)
  incrementCertificateIssuanceCounter clientId :=
    consult (.incrementCertificateIssuanceCounter clientId)

/-! ## What a run counts -/

/-- The processing counters that were incremented. -/
def increments (tr : List IssuingEvent) : List ProcessingStatus :=
  tr.filterMap (fun ev => match ev with
    | ⟨.service (.incrementProcessingCounter status), .ok _⟩ => some status
    | _ => none)

/-- The clients whose issuance counter was incremented. -/
def issuances (tr : List IssuingEvent) : List JString :=
  tr.filterMap (fun ev => match ev with
    | ⟨.service (.incrementCertificateIssuanceCounter clientId), .ok _⟩ => some clientId
    | _ => none)

/-- One counter was incremented, once: `SUCCESS` and the client's own if a chain is returned,
another status if not. -/
def CountedOnce {α : Type} (caller : CallerIdentity) (tr : List IssuingEvent) :
    Except Throwable α → Prop
  | .ok _ => increments tr = [.success] ∧ issuances tr = [caller.getClientId]
  | .error _ => ∃ status, status ≠ .success ∧ increments tr = [status]

/-! ## The failures that are counted -/

/-- The timed parts whose call returned. -/
def finished (tr : List IssuingEvent) : List IssuanceSubOperation :=
  tr.filterMap (fun ev => match ev with
    | ⟨.service (.decodeRawPublicKey _), .ok _⟩ => some .extractPublicKey
    | ⟨.service (.validateAudience _ _ _), .ok _⟩ => some .validateAudience
    | ⟨.service (.signCsr _), .ok _⟩ => some .signCertificate
    | _ => none)

/-- The policy files that were fetched. -/
def fetchedFiles (tr : List IssuingEvent) : List Bytes :=
  tr.filterMap (fun ev => match ev with
    | ⟨.fetchFile _, .ok file⟩ => file
    | _ => none)

/-- What the endorsement was found to say. -/
def annotationsFound (tr : List IssuingEvent) : List EndorsementAnnotations :=
  tr.filterMap (fun ev => match ev with
    | ⟨.service (.getAnnotations _), .ok annotations⟩ => some annotations
    | _ => none)

/-- The parts that are timed in a `finally` clause. -/
def timedParts : List IssuanceSubOperation := [.extractPublicKey, .validateAudience, .signCertificate]

/-- The policy that this file has for what the endorsement says. -/
def policyIn (format : PolicyFileFormat) (file : Bytes) (annotations : EndorsementAnnotations) :
    Option Policy :=
  match FileSourcedPolicyProvider.parsePolicies (format.toStringUtf8 file)
    (FileSourcedPolicyProvider.parsers format) with
  | .ok policies => policies.get
      (FileSourcedPolicyProvider.policyKey annotations.publisherId annotations.workloadId)
  | .error _ => none

section
variable (lib : Platform) (format : PolicyFileFormat) (request : CertificateIssuanceRequest)

/-- Neither the call nor what is computed from its answer, after the calls `earlier`, fails in
a way that goes uncounted. -/
def Guarded (earlier : List IssuingEvent) : IssuingEvent → Prop
  | ⟨.service .startIssuanceTimer, .ok _⟩ => ∀ e,
    lib.subjectPublicKeyInfo request.certificateSigningRequest = .error e →
      e.instanceOf .ioException
  | ⟨.service (.decodeRawPublicKey _), .error e⟩ => e.instanceOf .ioException
  | ⟨.service .getActiveTrustPackage, .ok trustPackage⟩ =>
    ∃ root, trustPackage.selfSignedBundles.head? = some root ∧
      ∀ e, TrustDomainExtractor.extract lib root.certificate = .error e →
        e.caughtBy [.certificateException, .uriSyntaxException, .illegalArgumentException]
  | ⟨.service (.validateAudience _ _ _), .error e⟩ => e.instanceOf .audienceValidationException
  | ⟨.service (.recordSubOperationAndResetTimer .validateAudience), .ok _⟩ =>
    .validateAudience ∈ finished earlier →
      ∀ e, request.attestationEvidence.getRawBinaryEndorsement lib ≠ .error e
  -- The timer is read in a `finally` clause: a failure of it replaces one that was counted.
  | ⟨.service (.recordSubOperationAndResetTimer operation), .error _⟩ =>
    operation ∈ timedParts ∧ operation ∉ finished earlier
  | ⟨.fetchFile _, .ok (some file)⟩ => ∀ e,
    FileSourcedPolicyProvider.parsePolicies (format.toStringUtf8 file)
      (FileSourcedPolicyProvider.parsers format) = .error e → e.instanceOf .exception
  | ⟨.fetchFile _, .error e⟩ => e.instanceOf .fileLoadException
  | ⟨.service .now, .ok now⟩ => ∀ file ∈ fetchedFiles earlier,
    ∀ annotations ∈ annotationsFound earlier, ∀ policy,
      policyIn format file annotations = some policy →
        ∀ e, now.plus policy.certificateAttributes.maxCertificateValidity ≠ .error e
  | ⟨.service (.createModifiers policy _), .ok _⟩ => ∀ e,
    lib.x500Principal policy.certificateAttributes.certificateSubject.attributes = .error e →
      e.instanceOf .certificateException
  | ⟨.service (.signCsr _), .error e⟩ => e.instanceOf .certificateException
  | ⟨_, .ok _⟩ => True
  | ⟨_, .error _⟩ => False

/-- No failure of the run goes uncounted. -/
def AllGuarded (tr : List IssuingEvent) : Prop :=
  ∀ earlier ev later, tr = earlier ++ ev :: later → Guarded lib format request earlier ev

end

/-! ## What a history shows -/

/-- What the counters and the conditions read off the calls made so far. -/
structure Seen where
  counted : List ProcessingStatus
  issued : List JString
  done : List IssuanceSubOperation
  files : List Bytes
  annotations : List EndorsementAnnotations

def Seen.of (tr : List IssuingEvent) : Seen :=
  ⟨increments tr, issuances tr, finished tr, fetchedFiles tr, annotationsFound tr⟩

def Seen.append (x y : Seen) : Seen :=
  ⟨x.counted ++ y.counted, x.issued ++ y.issued, x.done ++ y.done, x.files ++ y.files,
    x.annotations ++ y.annotations⟩

def Seen.nothing : Seen := ⟨[], [], [], [], []⟩

theorem Seen.of_append (tr tr' : List IssuingEvent) :
    Seen.of (tr ++ tr') = (Seen.of tr).append (Seen.of tr') := by
  simp only [Seen.of, Seen.append, increments, issuances, finished, fetchedFiles, annotationsFound,
    List.filterMap_append]

@[simp] theorem Seen.append_nothing (x : Seen) : x.append .nothing = x := by
  simp only [Seen.append, Seen.nothing, List.append_nil]

/-- A call that fails shows nothing. -/
theorem Seen.of_error (o : IssuingOp) (e : Throwable) : Seen.of [⟨o, .error e⟩] = .nothing := by
  cases o with
  | service o => cases o <;> rfl
  | fetchFile clientId => rfl
  | allowMetricsForClientId clientId => rfl

section
variable {lib : Platform} {format : PolicyFileFormat} {request : CertificateIssuanceRequest}
  {caller : CallerIdentity} {α β : Type} {hist : List IssuingEvent} {seen : Seen}

theorem allGuarded_snoc {tr : List IssuingEvent} {ev : IssuingEvent} :
    AllGuarded lib format request (tr ++ [ev]) ↔
      AllGuarded lib format request tr ∧ Guarded lib format request tr ev := forall_split_snoc

/-- The run ends counted exactly when nothing in it failed uncounted. -/
def Settled (lib : Platform) (format : PolicyFileFormat) (request : CertificateIssuanceRequest)
    (caller : CallerIdentity) (tr : List IssuingEvent) (out : Except Throwable α) : Prop :=
  CountedOnce caller tr out ↔ AllGuarded lib format request tr

/-- So far nothing failed uncounted, and nothing was counted. -/
structure Walk (lib : Platform) (format : PolicyFileFormat) (request : CertificateIssuanceRequest)
    (hist : List IssuingEvent) (seen : Seen) : Prop where
  guarded : AllGuarded lib format request hist
  seen_eq : Seen.of hist = seen
  uncounted : seen.counted = []
  unissued : seen.issued = []

theorem walk_nil : Walk lib format request [] .nothing := ⟨forall_split_nil, rfl, rfl, rfl⟩

theorem Walk.snoc (hw : Walk lib format request hist seen) {x : IssuingEvent} {seen' : Seen}
    (hguard : Guarded lib format request hist x) (hseen : Seen.of [x] = seen')
    (huncounted : seen'.counted = []) (hunissued : seen'.issued = []) :
    Walk lib format request (hist ++ [x]) (seen.append seen') where
  guarded := allGuarded_snoc.mpr ⟨hw.guarded, hguard⟩
  seen_eq := by rw [Seen.of_append, hw.seen_eq, hseen]
  uncounted := by rw [Seen.append, hw.uncounted, huncounted, List.append_nil]
  unissued := by rw [Seen.append, hw.unissued, hunissued, List.append_nil]

/-- A call of which nothing is shown. -/
theorem Walk.pass (hw : Walk lib format request hist seen) {x : IssuingEvent}
    (hguard : Guarded lib format request hist x) (hseen : Seen.of [x] = .nothing) :
    Walk lib format request (hist ++ [x]) seen := by
  have hsnoc := hw.snoc hguard hseen rfl rfl
  rwa [Seen.append_nothing] at hsnoc

theorem increments_eq (hw : Walk lib format request hist seen) : increments hist = [] :=
  (congrArg Seen.counted hw.seen_eq).trans hw.uncounted

theorem increments_append (tr tr' : List IssuingEvent) :
    increments (tr ++ tr') = increments tr ++ increments tr' := List.filterMap_append

theorem issuances_eq (hw : Walk lib format request hist seen) : issuances hist = [] :=
  (congrArg Seen.issued hw.seen_eq).trans hw.unissued

theorem issuances_append (tr tr' : List IssuingEvent) :
    issuances (tr ++ tr') = issuances tr ++ issuances tr' := List.filterMap_append

theorem increments_error (o : IssuingOp) (e : Throwable) : increments [⟨o, .error e⟩] = [] :=
  congrArg Seen.counted (Seen.of_error o e)

theorem not_countedOnce {tr : List IssuingEvent} (h : increments tr = []) (e : Throwable) :
    ¬ CountedOnce (α := α) caller tr (.error e) := by
  rintro ⟨status, -, hcount⟩
  rw [h] at hcount
  cases hcount

/-- The run ends uncounted: what failed is not guarded. -/
theorem settled_unguarded (hw : Walk lib format request hist seen) {x : IssuingEvent}
    (hguard : ¬ Guarded lib format request hist x) (hcount : increments [x] = []) (e : Throwable) :
    Settled (α := α) lib format request caller (hist ++ [x]) (.error e) := by
  refine iff_of_false (not_countedOnce ?_ e) (fun hall => hguard (allGuarded_snoc.mp hall).2)
  rw [increments_append, increments_eq hw, hcount]
  rfl

/-- A call that fails where nothing catches it. -/
theorem settled_fail (hw : Walk lib format request hist seen) {o : IssuingOp} (e : Throwable)
    (hguard : ¬ Guarded lib format request hist ⟨o, .error e⟩) (e' : Throwable) :
    Settled (α := α) lib format request caller (hist ++ [⟨o, .error e⟩]) (.error e') :=
  settled_unguarded hw hguard (increments_error o e) e'

/-- The run ends with the failure that it counted. -/
theorem settled_counted (hw : Walk lib format request hist seen) {status : ProcessingStatus}
    (hstatus : status ≠ .success) (e : Throwable) :
    Settled (α := α) lib format request caller
      (hist ++ [⟨.service (.incrementProcessingCounter status), .ok ()⟩]) (.error e) := by
  refine iff_of_true ⟨status, hstatus, ?_⟩ (allGuarded_snoc.mpr ⟨hw.guarded, trivial⟩)
  rw [increments_append, increments_eq hw]
  rfl

/-- A failure that is counted and thrown. -/
theorem settled_count_raise (hw : Walk lib format request hist seen) {status : ProcessingStatus}
    (hstatus : status ≠ .success) (e : Throwable) :
    Tracks ((consult (.incrementProcessingCounter status)).bind (fun _ => .raise e) : IssuingProg α)
      hist (Settled lib format request caller) :=
  Tracks.invoke_bind (fun e' => settled_fail hw e' id e')
    (fun _ => Tracks.raise (settled_counted hw hstatus e))

theorem settled_count_raise_bind (hw : Walk lib format request hist seen)
    {status : ProcessingStatus} (hstatus : status ≠ .success) (e : Throwable)
    {f : α → IssuingProg β} :
    Tracks ((Prog.bind (consult (.incrementProcessingCounter status)) (fun _ => .raise e)).bind f)
      hist (Settled lib format request caller) := by
  rw [Prog.bind_assoc]
  exact settled_count_raise hw hstatus e

/-- A call of which nothing is shown and whose failure nothing catches. -/
theorem settled_consult_bind (hw : Walk lib format request hist seen) {o : CaOp}
    {f : o.Val → IssuingProg β}
    (hfail : ∀ e, ¬ Guarded lib format request hist ⟨.service o, .error e⟩)
    (hpass : ∀ v, Guarded lib format request hist ⟨.service o, .ok v⟩ ∧
      Seen.of [⟨.service o, .ok v⟩] = .nothing)
    (h : ∀ v hist', Walk lib format request hist' seen →
      Tracks (f v) hist' (Settled lib format request caller)) :
    Tracks ((consult o).bind f) hist (Settled lib format request caller) :=
  Tracks.invoke_bind (fun e => settled_fail hw e (hfail e) e)
    (fun v => h v _ (hw.pass (hpass v).1 (hpass v).2))

theorem settled_getOrFail_bind (hw : Walk lib format request hist seen) {opt : Option α}
    {status : ProcessingStatus} (hstatus : status ≠ .success) {e : Throwable}
    {f : α → IssuingProg β}
    (h : ∀ a, opt = some a → Tracks (f a) hist (Settled lib format request caller)) :
    Tracks ((getOrFail (issuingService format) opt status e).bind f) hist
      (Settled lib format request caller) := by
  cases opt with
  | some a => exact h a rfl
  | none => exact settled_count_raise_bind hw hstatus e

theorem settled_failIf_bind (hw : Walk lib format request hist seen) {failed : Prop}
    [Decidable failed] {status : ProcessingStatus} (hstatus : status ≠ .success) {e : Throwable}
    {f : Unit → IssuingProg β} (h : Tracks (f ()) hist (Settled lib format request caller)) :
    Tracks ((failIf (issuingService format) failed status e).bind f) hist
      (Settled lib format request caller) := by
  unfold failIf
  split
  · exact settled_count_raise_bind hw hstatus e
  · exact h

/-! ## Parts of the service -/

theorem finished_append (tr tr' : List IssuingEvent) :
    finished (tr ++ tr') = finished tr ++ finished tr' := List.filterMap_append

theorem finished_error (o : IssuingOp) (e : Throwable) : finished [⟨o, .error e⟩] = [] :=
  congrArg Seen.done (Seen.of_error o e)

theorem finished_eq (hw : Walk lib format request hist seen) : finished hist = seen.done :=
  congrArg Seen.done hw.seen_eq

theorem caughtBy_singleton (e : Throwable) (c : ThrowableClass) :
    e.caughtBy [c] = e.instanceOf c := by
  simp [Throwable.caughtBy]

/-- Reading the timer after a failure of the part changes nothing about how it is counted. -/
theorem settled_record {operation : IssuanceSubOperation} (hop : operation ∈ timedParts)
    (hnot : operation ∉ finished hist)
    (h : ∀ e, Settled (α := β) lib format request caller hist (.error e)) (e : Throwable)
    {Q : List IssuingEvent → Except Throwable α → Prop}
    (hQ : ∀ hist' e, Settled (α := β) lib format request caller hist' (.error e) →
      Q hist' (.error e)) :
    Tracks (((issuingService format).recordSubOperationAndResetTimer operation).bind
        (fun _ => Prog.ofExcept (.error e))) hist Q := by
  have hrecord : ∀ r (e : Throwable), Settled (α := β) lib format request caller
      (hist ++ [⟨.service (.recordSubOperationAndResetTimer operation), r⟩]) (.error e) := by
    intro r e
    have hguard : Guarded lib format request hist
        ⟨.service (.recordSubOperationAndResetTimer operation), r⟩ := by
      cases r with
      | ok _ => cases operation with
        | validateAudience => exact fun hin => absurd hin hnot
        | _ => trivial
      | error e => cases operation <;> exact ⟨hop, hnot⟩
    have hcount : increments
        [⟨.service (.recordSubOperationAndResetTimer operation), r⟩] = [] := by
      cases r <;> rfl
    have hsame : increments (hist ++ [⟨.service (.recordSubOperationAndResetTimer operation), r⟩]) =
        increments hist := by
      rw [increments_append, hcount, List.append_nil]
    unfold Settled CountedOnce
    rw [hsame, allGuarded_snoc, and_iff_left hguard]
    exact h e
  exact Tracks.invoke_bind (fun e' => hQ _ e' (hrecord _ e'))
    (fun _ => Tracks.raise (hQ _ e (hrecord _ e)))

/-- How a timed part may end: with the rest of the method to go on, or with a failure that is
guarded exactly if it is caught. -/
def TimedEnd (lib : Platform) (format : PolicyFileFormat) (request : CertificateIssuanceRequest)
    (caller : CallerIdentity) (cs : List ThrowableClass) (operation : IssuanceSubOperation)
    (f : α → IssuingProg β) (hist : List IssuingEvent) : Except Throwable α → Prop
  | .ok a => ∃ seen, Walk lib format request hist seen ∧ operation ∈ seen.done ∧
      Tracks (f a) (hist ++ [⟨.service (.recordSubOperationAndResetTimer operation), .ok ()⟩])
        (Settled lib format request caller)
  | .error e => increments hist = [] ∧ operation ∉ finished hist ∧
      (AllGuarded lib format request hist ↔ e.caughtBy cs = true)

/-- A part that is timed in a `finally` clause, and whose failures are counted if they are of
the classes `cs`. -/
theorem settled_timed_bind {cs : List ThrowableClass} {status : ProcessingStatus}
    (hstatus : status ≠ .success) {operation : IssuanceSubOperation}
    (hop : operation ∈ timedParts) {p : IssuingProg α} {f : α → IssuingProg β}
    (hp : Tracks p hist (TimedEnd lib format request caller cs operation f)) :
    Tracks (((countFailure (issuingService format) cs status id p).finallyDo
        ((issuingService format).recordSubOperationAndResetTimer operation)).bind f) hist
      (Settled lib format request caller) := by
  refine Tracks.bind (Tracks.finallyDo (Tracks.handle (hp.mono ?_)))
  intro hist' r hr
  cases r with
  | ok a =>
    obtain ⟨seen', hw, hdone, hf⟩ := hr
    refine Tracks.invoke_bind (fun e => settled_fail hw e ?_ e) (fun _ => Tracks.ret hf)
    have hin : operation ∈ finished hist' := finished_eq hw ▸ hdone
    cases operation <;> exact fun hguard => hguard.2 hin
  | error e =>
    obtain ⟨hcount, hnot, hcaught⟩ := hr
    show Tracks (ite _ _ _) hist' _
    split
    · next hcs =>
      have hfinished : ∀ r, operation ∉
          finished (hist' ++ [⟨.service (.incrementProcessingCounter status), r⟩]) := by
        intro r
        have hnothing : finished [⟨.service (.incrementProcessingCounter status), r⟩] = [] := by
          cases r <;> rfl
        rw [finished_append, hnothing, List.append_nil]
        exact hnot
      refine Tracks.invoke_bind (fun e' => ?_) (fun _ => Tracks.raise ?_)
      · refine settled_record (β := β) hop (hfinished _) (fun e'' => ?_) e' (fun _ _ h => h)
        refine iff_of_false (not_countedOnce ?_ e'') (fun hall => (allGuarded_snoc.mp hall).2)
        rw [increments_append, hcount, increments_error]
        rfl
      · refine settled_record (β := β) hop (hfinished _) (fun e'' => ?_) _ (fun _ _ h => h)
        refine iff_of_true ⟨status, hstatus, ?_⟩
          (allGuarded_snoc.mpr ⟨hcaught.mpr hcs, trivial⟩)
        rw [increments_append, hcount]
        rfl
    · next hcs =>
      apply Tracks.raise
      refine settled_record (β := β) hop hnot (fun e'' => ?_) e (fun _ _ h => h)
      exact iff_of_false (not_countedOnce hcount e'') (fun hall => hcs (hcaught.mp hall))

/-- The call at the end of such a part. -/
theorem timed_consult (hw : Walk lib format request hist seen) {o : CaOp} {cs : List ThrowableClass}
    {operation : IssuanceSubOperation} {f : o.Val → IssuingProg β}
    (hnot : operation ∉ seen.done)
    (hfail : ∀ e, Guarded lib format request hist ⟨.service o, .error e⟩ ↔ e.caughtBy cs = true)
    (hpass : ∀ v, Guarded lib format request hist ⟨.service o, .ok v⟩ ∧
      Seen.of [⟨.service o, .ok v⟩] = { Seen.nothing with done := [operation] })
    (h : ∀ v hist', Walk lib format request hist' { seen with done := seen.done ++ [operation] } →
      Tracks (f v) (hist' ++ [⟨.service (.recordSubOperationAndResetTimer operation), .ok ()⟩])
        (Settled lib format request caller)) :
    Tracks (consult o) hist (TimedEnd lib format request caller cs operation f) := by
  apply Tracks.invoke
  intro r
  cases r with
  | ok v =>
    obtain ⟨hguard, hseen⟩ := hpass v
    have hsnoc := hw.snoc hguard hseen rfl rfl
    have hshown : seen.append { Seen.nothing with done := [operation] } =
        { seen with done := seen.done ++ [operation] } := by
      simp only [Seen.append, Seen.nothing, List.append_nil]
    rw [hshown] at hsnoc
    exact ⟨_, hsnoc, by simp, h v _ hsnoc⟩
  | error e =>
    refine ⟨?_, ?_, ?_⟩
    · rw [increments_append, increments_eq hw, increments_error]
      rfl
    · rw [finished_append, finished_error, List.append_nil, finished_eq hw]
      exact hnot
    · rw [allGuarded_snoc, and_iff_right hw.guarded]
      exact hfail e

theorem tracks_headBundle_bind {trustPackage : TrustPackage} {f : SelfSignedBundle → IssuingProg β}
    {Q : List IssuingEvent → Except Throwable β → Prop}
    (hfail : trustPackage.selfSignedBundles = [] →
      ∀ message, Q hist (.error { cls := .indexOutOfBoundsException, message := message }))
    (hok : ∀ root, trustPackage.selfSignedBundles.head? = some root → Tracks (f root) hist Q) :
    Tracks ((headBundle trustPackage).bind f) hist Q := by
  unfold headBundle
  cases hbundles : trustPackage.selfSignedBundles with
  | nil => exact Tracks.raise (hfail hbundles _)
  | cons root rest => exact hok root (by rw [hbundles]; rfl)

/-- A part without calls whose failures are counted. -/
theorem tracks_counted_bind {cs : List ThrowableClass} {status : ProcessingStatus}
    {rethrow : Throwable → Throwable} {x : Except Throwable α} {f : α → IssuingProg β}
    {Q : List IssuingEvent → Except Throwable β → Prop}
    (hcaught : ∀ e, x = .error e → e.caughtBy cs = true →
      Tracks ((consult (.incrementProcessingCounter status)).bind
        (fun _ => .raise (rethrow e)) : IssuingProg β) hist Q)
    (hthrown : ∀ e, x = .error e → ¬ e.caughtBy cs = true → Q hist (.error e))
    (hok : ∀ a, x = .ok a → Tracks (f a) hist Q) :
    Tracks ((countFailure (issuingService format) cs status rethrow (Prog.ofExcept x)).bind f) hist
      Q := by
  cases x with
  | ok a => exact hok a rfl
  | error e =>
    unfold countFailure
    rw [Prog.ofExcept, handle_raise]
    split
    · next hcs =>
      rw [bind_eq, Prog.bind_assoc]
      exact hcaught e rfl hcs
    · next hcs => exact Tracks.raise (hthrown e rfl hcs)

/-- A file that was parsed, with the policy it has for the workload, if it has one. -/
theorem policyIn_eq {file : Bytes} {annotations : EndorsementAnnotations} {policies : Policies}
    (h : FileSourcedPolicyProvider.parsePolicies (format.toStringUtf8 file)
      (FileSourcedPolicyProvider.parsers format) = .ok policies) :
    policyIn format file annotations = policies.get
      (FileSourcedPolicyProvider.policyKey annotations.publisherId annotations.workloadId) := by
  unfold policyIn
  rw [h]

/-- A policy that the provider finds is the one in the one file that was fetched. -/
theorem settled_getPolicy_bind (hw : Walk lib format request hist seen) (hfiles : seen.files = [])
    {annotations : EndorsementAnnotations} {f : Option Policy → IssuingProg β}
    (h : ∀ policyOpt hist' files, Walk lib format request hist' { seen with files := files } →
      (∀ policy, policyOpt = some policy →
        ∃ file, files = [file] ∧ policyIn format file annotations = some policy) →
      Tracks (f policyOpt) hist' (Settled lib format request caller)) :
    Tracks (((issuingService format).getPolicy caller annotations.publisherId
        annotations.workloadId).bind f) hist (Settled lib format request caller) := by
  have hnone : ∀ hist' files, Walk lib format request hist' { seen with files := files } →
      Tracks (f none) hist' (Settled lib format request caller) :=
    fun hist' files hw' => h none hist' files hw' (fun _ hpolicy => by cases hpolicy)
  show Tracks ((Prog.bind (Prog.handle _ _) _).bind f) hist _
  rw [Prog.bind_assoc]
  refine Tracks.bind (Tracks.handle (Tracks.invoke (fun r => ?_)))
  cases r with
  | error e =>
    show Tracks (ite _ _ _) _ _
    split
    · next hload => exact Tracks.ret (hnone _ _ (hw.pass hload rfl))
    · next hload =>
      exact Tracks.raise (settled_fail (o := .fetchFile caller.getClientId) hw e hload e)
  | ok found =>
    cases found with
    | none => exact hnone _ _ (hw.pass trivial rfl)
    | some file =>
      have hseen : Seen.of [⟨.fetchFile caller.getClientId, .ok (some file)⟩] =
          { Seen.nothing with files := [file] } := rfl
      have hshown : seen.append { Seen.nothing with files := [file] } =
          { seen with files := [file] } := by
        simp only [Seen.append, Seen.nothing, List.append_nil, hfiles, List.nil_append]
      show Tracks (Prog.bind _ f) _ _
      dsimp only
      cases hparse : FileSourcedPolicyProvider.parsePolicies (format.toStringUtf8 file)
        (FileSourcedPolicyProvider.parsers format) with
      | error e =>
        dsimp only
        split
        · next hexception =>
          have hguard : Guarded lib format request hist
              ⟨.fetchFile caller.getClientId, .ok (some file)⟩ :=
            (forall_error_iff (P := fun e => e.instanceOf .exception = true) hparse).mpr hexception
          have hfetched := hw.snoc hguard hseen rfl rfl
          rw [hshown] at hfetched
          exact hnone _ _ hfetched
        · next hexception =>
          refine Tracks.raise (settled_unguarded
            (x := ⟨.fetchFile caller.getClientId, .ok (some file)⟩) hw ?_ rfl e)
          exact fun hguard => hexception (hguard e hparse)
      | ok policies =>
        have hfetched := hw.snoc (x := ⟨.fetchFile caller.getClientId, .ok (some file)⟩)
          (forall_error_of_ok hparse) hseen rfl rfl
        rw [hshown] at hfetched
        dsimp only
        unfold FileSourcedPolicyProvider.selectPolicy
        split
        · exact settled_count_raise_bind hfetched (by decide) _
        · rw [bind_eq, Prog.bind_assoc]
          refine Tracks.invoke_bind (fun e => settled_fail
            (o := .allowMetricsForClientId caller.getClientId) hfetched e id e) (fun _ => ?_)
          refine h _ _ [file] (hfetched.pass trivial rfl) (fun policy hpolicy => ?_)
          exact ⟨file, rfl, (policyIn_eq hparse).trans hpolicy⟩

theorem settled_getVerifier_bind (hw : Walk lib format request hist seen)
    (evidence : AttestationEvidence)
    {f : Option (AttestationVerifier IssuingOp IssuingOp.Val) → IssuingProg β}
    (h : ∀ (v : Option Nat) hist', Walk lib format request hist' seen →
      Tracks (f (v.map (fun v evidence key rv => consult (.verify v evidence key rv)))) hist'
        (Settled lib format request caller)) :
    Tracks (((issuingService format).getVerifier evidence).bind f) hist
      (Settled lib format request caller) := by
  show Tracks (((consult (.getVerifier evidence)).bind _).bind f) hist _
  rw [Prog.bind_assoc]
  exact settled_consult_bind (o := .getVerifier evidence) hw (fun _ => id)
    (fun _ => ⟨trivial, rfl⟩) h

/-- The search calls verifiers only. -/
theorem settled_anyMatch_bind (v : Nat) (evidence : AttestationEvidence) (key : PublicKey)
    (rvs : List ReferenceValues) (hw : Walk lib format request hist seen)
    {f : Bool → IssuingProg β}
    (h : ∀ b hist', Walk lib format request hist' seen →
      Tracks (f b) hist' (Settled lib format request caller)) :
    Tracks ((anyMatch (fun rv => consult (.verify v evidence key rv)) rvs).bind f) hist
      (Settled lib format request caller) := by
  induction rvs generalizing hist with
  | nil => exact h false hist hw
  | cons rv rvs ih =>
    unfold anyMatch
    rw [bind_eq, Prog.bind_assoc]
    refine settled_consult_bind (o := .verify v evidence key rv) hw (fun _ => id)
      (fun _ => ⟨trivial, rfl⟩) (fun matched hist' hw' => ?_)
    cases matched with
    | true => exact h true hist' hw'
    | false => exact ih hw'

theorem settled_timer_bind (hw : Walk lib format request hist seen)
    {operation : IssuanceSubOperation} (hop : operation ∉ timedParts) {f : Unit → IssuingProg β}
    (h : ∀ hist', Walk lib format request hist' seen →
      Tracks (f ()) hist' (Settled lib format request caller)) :
    Tracks ((consult (.recordSubOperationAndResetTimer operation)).bind f) hist
      (Settled lib format request caller) := by
  refine settled_consult_bind (o := .recordSubOperationAndResetTimer operation) hw (fun e => ?_)
    (fun _ => ⟨?_, rfl⟩) (fun _ => h)
  · cases operation <;> exact fun hguard => hop hguard.1
  · cases operation with
    | validateAudience => exact absurd (by decide) hop
    | _ => trivial

/-! ## The blocks of `issueCertificate` -/

/-- The method begins with the public key of the request. -/
theorem settled_publicKey_bind {f : PublicKey → IssuingProg β}
    (h : ∀ csrPublicKey hist, Walk lib format request hist ⟨[], [], [.extractPublicKey], [], []⟩ →
      Tracks (f csrPublicKey) hist (Settled lib format request caller)) :
    Tracks ((consult .startIssuanceTimer).bind (fun _ =>
        ((countFailure (issuingService format) [.ioException] .invalidCsr id
          (extractPublicKey (issuingService format) lib request)).finallyDo
            ((issuingService format).recordSubOperationAndResetTimer .extractPublicKey)).bind f)) []
      (Settled lib format request caller) := by
  have hw : Walk lib format request [] .nothing := walk_nil
  refine Tracks.invoke_bind (o := IssuingOp.service .startIssuanceTimer)
    (fun e => settled_fail hw e id e) (fun _ => ?_)
  refine settled_timed_bind (by decide) (by decide) (Tracks.ofExcept_bind (fun e he => ?_)
    (fun keyBytes hkeyBytes => ?_))
  · refine ⟨rfl, by simp [finished], ?_⟩
    rw [caughtBy_singleton]
    refine allGuarded_snoc.trans ((and_iff_right hw.guarded).trans ?_)
    exact forall_error_iff (P := fun e => e.instanceOf .ioException = true) he
  have hstart : Guarded lib format request [] ⟨.service .startIssuanceTimer, .ok ()⟩ :=
    forall_error_of_ok hkeyBytes
  replace hw := hw.pass hstart rfl
  refine timed_consult (o := .decodeRawPublicKey keyBytes) hw (by simp [Seen.nothing])
    (fun e => by rw [caughtBy_singleton]; rfl) (fun _ => ⟨trivial, rfl⟩) ?_
  intro csrPublicKey hist hw
  exact h csrPublicKey _ (hw.pass
    (x := ⟨.service (.recordSubOperationAndResetTimer .extractPublicKey), .ok ()⟩) trivial rfl)

/-- The root that signs, and its trust domain. -/
theorem settled_trustDomain_bind (hw : Walk lib format request hist seen)
    {rethrow : Throwable → Throwable}
    {f : TrustPackage → SelfSignedBundle → JString → IssuingProg β}
    (h : ∀ trustPackage rootBundle trustDomain hist', Walk lib format request hist' seen →
      Tracks (f trustPackage rootBundle trustDomain) hist' (Settled lib format request caller)) :
    Tracks ((consult .getActiveTrustPackage).bind (fun trustPackage =>
        (headBundle trustPackage).bind (fun rootBundle =>
          (countFailure (issuingService format)
            [.certificateException, .uriSyntaxException, .illegalArgumentException] .signingError
            rethrow (Prog.ofExcept (TrustDomainExtractor.extract lib rootBundle.certificate))).bind
              (f trustPackage rootBundle)))) hist
      (Settled lib format request caller) := by
  refine Tracks.invoke_bind (o := IssuingOp.service .getActiveTrustPackage)
    (fun e => settled_fail hw e id e) (fun trustPackage => ?_)
  refine tracks_headBundle_bind (fun hempty message => ?_) (fun rootBundle hroot => ?_)
  · refine settled_unguarded hw ?_ rfl _
    rintro ⟨root, hroot, -⟩
    rw [hempty] at hroot
    cases hroot
  refine tracks_counted_bind (fun e he hcs => ?_) (fun e he hcs => ?_)
    (fun trustDomain htrustDomain => ?_)
  · refine settled_count_raise (hw.pass (x := ⟨.service .getActiveTrustPackage, .ok trustPackage⟩)
      ⟨rootBundle, hroot, fun e' he' => ?_⟩ rfl) (by decide) _
    rw [he] at he'
    cases he'
    exact hcs
  · refine settled_unguarded hw ?_ rfl _
    rintro ⟨root, hroot', hall⟩
    obtain rfl := Option.some.inj (hroot.symm.trans hroot')
    exact hcs (hall e he)
  exact h trustPackage rootBundle trustDomain _ (hw.pass
    (x := ⟨.service .getActiveTrustPackage, .ok trustPackage⟩)
    ⟨rootBundle, hroot, forall_error_of_ok htrustDomain⟩ rfl)

/-- The audience is checked, and what is computed next is the endorsement. -/
theorem settled_audience_bind
    (hw : Walk lib format request hist ⟨[], [], [.extractPublicKey], [], []⟩)
    {csrPublicKey : PublicKey} {trustDomain : JString} {f : Bytes → IssuingProg β}
    (h : ∀ endorsement hist', request.attestationEvidence.getRawBinaryEndorsement lib =
        .ok endorsement →
      Walk lib format request hist' ⟨[], [], [.extractPublicKey, .validateAudience], [], []⟩ →
      Tracks (f endorsement) hist' (Settled lib format request caller)) :
    Tracks (((countFailure (issuingService format) [.audienceValidationException]
          .audienceMismatch id
          ((issuingService format).validateAudience csrPublicKey caller trustDomain)).finallyDo
            ((issuingService format).recordSubOperationAndResetTimer .validateAudience)).bind
        (fun _ => (Prog.ofExcept
          (request.attestationEvidence.getRawBinaryEndorsement lib)).bind f)) hist
      (Settled lib format request caller) := by
  refine settled_timed_bind (by decide) (by decide)
    (timed_consult (o := .validateAudience csrPublicKey caller trustDomain) hw (by decide)
      (fun e => by rw [caughtBy_singleton]; rfl) (fun _ => ⟨trivial, rfl⟩) ?_)
  intro _ hist hw
  refine Tracks.ofExcept_bind (fun e he => ?_) (fun endorsement hendorsement => ?_)
  · refine settled_unguarded hw (fun hguard => ?_) rfl e
    exact hguard (by rw [finished_eq hw]; simp) e he
  exact h endorsement _ hendorsement (hw.pass
    (x := ⟨.service (.recordSubOperationAndResetTimer .validateAudience), .ok ()⟩)
    (fun _ e he => by rw [hendorsement] at he; cases he) rfl)

/-- What the endorsement says of the workload, which is read once more for its validity. -/
theorem settled_annotations_bind {done : List IssuanceSubOperation}
    (hw : Walk lib format request hist ⟨[], [], done, [], []⟩) {endorsement : Bytes}
    (hendorsement : request.attestationEvidence.getRawBinaryEndorsement lib = .ok endorsement)
    {f : EndorsementAnnotations → Bytes → IssuingProg β}
    (h : ∀ annotations hist', Walk lib format request hist' ⟨[], [], done, [], [annotations]⟩ →
      Tracks (f annotations endorsement) hist' (Settled lib format request caller)) :
    Tracks ((consult (.getAnnotations endorsement)).bind (fun annotations =>
        (Prog.ofExcept (request.attestationEvidence.getRawBinaryEndorsement lib)).bind
          (f annotations))) hist
      (Settled lib format request caller) := by
  refine Tracks.invoke_bind (o := IssuingOp.service (.getAnnotations endorsement))
    (fun e => settled_fail hw e id e) (fun annotations => ?_)
  have hseen : Seen.of [⟨.service (.getAnnotations endorsement), .ok annotations⟩] =
      ⟨[], [], [], [], [annotations]⟩ := rfl
  have hguard : Guarded lib format request hist
      ⟨.service (.getAnnotations endorsement), .ok annotations⟩ := trivial
  have hsnoc := hw.snoc hguard hseen rfl rfl
  simp only [Seen.append, List.append_nil, List.nil_append] at hsnoc
  rw [hendorsement]
  exact h annotations _ hsnoc

/-- The end of the validity that the policy allows, after the policy was found in the one file
that was fetched. -/
theorem settled_expiration_bind {done : List IssuanceSubOperation} {file : Bytes}
    {annotations : EndorsementAnnotations} {policy : Policy}
    (hw : Walk lib format request hist ⟨[], [], done, [file], [annotations]⟩)
    (hpolicy : policyIn format file annotations = some policy)
    {f : Instant → Instant → IssuingProg β}
    (h : ∀ now expiration hist',
      Walk lib format request hist' ⟨[], [], done, [file], [annotations]⟩ →
      Tracks (f now expiration) hist' (Settled lib format request caller)) :
    Tracks ((consult .now).bind (fun now => (Prog.ofExcept
        (now.plus policy.certificateAttributes.maxCertificateValidity)).bind (f now))) hist
      (Settled lib format request caller) := by
  refine Tracks.invoke_bind (o := IssuingOp.service .now)
    (fun e => settled_fail hw e id e) (fun now => ?_)
  have hfiles : fetchedFiles hist = [file] := congrArg Seen.files hw.seen_eq
  have hannotations : annotationsFound hist = [annotations] := congrArg Seen.annotations hw.seen_eq
  refine Tracks.ofExcept_bind (fun e he => ?_) (fun expiration hexpiration => ?_)
  · refine settled_unguarded hw (fun hguard => ?_) rfl e
    exact hguard file (by rw [hfiles]; simp) annotations (by rw [hannotations]; simp) policy hpolicy
      e he
  have hnow : Guarded lib format request hist ⟨.service .now, .ok now⟩ := by
    intro file' hfile' annotations' hannotations' policy' hpolicy' e he
    rw [hfiles, List.mem_singleton] at hfile'
    rw [hannotations, List.mem_singleton] at hannotations'
    rw [hfile', hannotations', hpolicy] at hpolicy'
    obtain rfl := Option.some.inj hpolicy'
    rw [hexpiration] at he
    cases he
  exact h now expiration _ (hw.pass hnow rfl)

/-- The certificate is signed, once its subject could be made. -/
theorem settled_signing_bind (hw : Walk lib format request hist seen)
    (hunsigned : IssuanceSubOperation.signCertificate ∉ seen.done) {policy : Policy}
    {trustDomain : JString} {args : List CertificateModifier → Bytes → SignCsr}
    {f : X509Certificate → IssuingProg β}
    (h : ∀ signedCertificate hist' done, Walk lib format request hist' { seen with done := done } →
      Tracks (f signedCertificate) hist' (Settled lib format request caller)) :
    Tracks ((consult (.createModifiers policy trustDomain)).bind (fun modifiers =>
        ((countFailure (issuingService format) [.certificateException] .signingError id
          ((createSubjectPrincipal lib policy.certificateAttributes.certificateSubject).bind
            (fun subject => (issuingService format).signCsr (args modifiers subject)))).finallyDo
              ((issuingService format).recordSubOperationAndResetTimer .signCertificate)).bind f))
      hist (Settled lib format request caller) := by
  refine Tracks.invoke_bind (o := IssuingOp.service (.createModifiers policy trustDomain))
    (fun e => settled_fail hw e id e) (fun modifiers => ?_)
  refine settled_timed_bind (by decide) (by decide) (Tracks.ofExcept_bind (fun e he => ?_)
    (fun subject hsubject => ?_))
  · refine ⟨?_, ?_, ?_⟩
    · rw [increments_append, increments_eq hw]
      rfl
    · rw [finished_append, finished_eq hw]
      simpa [finished] using hunsigned
    · rw [caughtBy_singleton]
      refine allGuarded_snoc.trans ((and_iff_right hw.guarded).trans ?_)
      exact forall_error_iff (P := fun e => e.instanceOf .certificateException = true) he
  replace hw := hw.pass (x := ⟨.service (.createModifiers policy trustDomain), .ok modifiers⟩)
    (forall_error_of_ok hsubject) rfl
  refine timed_consult (o := .signCsr _) hw hunsigned (fun e => by rw [caughtBy_singleton]; rfl)
    (fun _ => ⟨trivial, rfl⟩) ?_
  intro signedCertificate hist hw
  exact h signedCertificate _ _ (hw.pass
    (x := ⟨.service (.recordSubOperationAndResetTimer .signCertificate), .ok ()⟩) trivial rfl)

/-- The two counters of an issuance, last. -/
theorem settled_success (hw : Walk lib format request hist seen)
    (chain : List X509Certificate) :
    Tracks ((consult (.incrementProcessingCounter .success)).bind (fun _ =>
        (consult (.incrementCertificateIssuanceCounter caller.getClientId)).bind
          (fun _ => .ret chain)) : IssuingProg (List X509Certificate)) hist
      (Settled lib format request caller) := by
  refine Tracks.invoke_bind (o := IssuingOp.service (.incrementProcessingCounter .success))
    (fun e => settled_fail hw e id e) (fun _ => ?_)
  refine Tracks.invoke_bind
    (o := IssuingOp.service (.incrementCertificateIssuanceCounter caller.getClientId))
    (fun e => ?_) (fun _ => Tracks.ret ?_)
  · -- The run fails, but what it counted is `SUCCESS`.
    refine iff_of_false ?_ (fun hall => (allGuarded_snoc.mp hall).2)
    rintro ⟨status, hstatus, hcount⟩
    rw [increments_append, increments_append, increments_eq hw, increments_error] at hcount
    exact hstatus (List.cons.inj hcount).1.symm
  · refine iff_of_true ⟨?_, ?_⟩ ?_
    · rw [increments_append, increments_append, increments_eq hw]
      rfl
    · rw [issuances_append, issuances_append, issuances_eq hw]
      rfl
    · exact allGuarded_snoc.mpr ⟨allGuarded_snoc.mpr ⟨hw.guarded, trivial⟩, trivial⟩

/-- Along the whole method. -/
theorem tracks_issueCertificate :
    Tracks (issueCertificate (issuingService format) lib request caller) []
      (Settled lib format request caller) := by
  unfold issueCertificate
  refine settled_publicKey_bind (fun csrPublicKey hist hw => ?_)
  refine settled_trustDomain_bind hw (fun trustPackage rootBundle trustDomain hist hw => ?_)
  refine settled_audience_bind hw (fun endorsement hist hendorsement hw => ?_)
  refine settled_annotations_bind hw hendorsement (fun annotations hist hw => ?_)
  refine settled_consult_bind (o := .getValidity endorsement) hw (fun _ => id)
    (fun _ => ⟨trivial, rfl⟩) (fun validity hist hw => ?_)
  refine settled_timer_bind hw (by decide) (fun hist hw => ?_)
  -- From here on the policy is one of the file that was fetched.
  refine settled_getPolicy_bind hw rfl
    (fun policyOpt hist files hw hfound => ?_)
  refine settled_getOrFail_bind hw (by decide) (fun policy hsome => ?_)
  obtain ⟨file, rfl, hpolicy⟩ := hfound policy hsome
  refine settled_timer_bind hw (by decide) (fun hist hw => ?_)
  refine settled_getVerifier_bind hw request.attestationEvidence (fun verifierOpt hist hw => ?_)
  refine settled_getOrFail_bind hw (by decide) (fun verifier hverifier => ?_)
  obtain ⟨v, -, rfl⟩ := Option.map_eq_some_iff.mp hverifier
  refine settled_timer_bind hw (by decide) (fun hist hw => ?_)
  refine settled_anyMatch_bind v request.attestationEvidence csrPublicKey _ hw
    (fun hasBeenVerified hist hw => ?_)
  refine settled_timer_bind hw (by decide) (fun hist hw => ?_)
  refine settled_failIf_bind hw (by decide) ?_
  refine settled_expiration_bind hw hpolicy (fun now expiration hist hw => ?_)
  refine settled_failIf_bind hw (by decide) ?_
  refine settled_signing_bind hw (by simp) (fun signedCertificate hist done hw => ?_)
  exact settled_success hw _

end

/-- A run is counted as it should be exactly when no failure in it goes uncounted. -/
theorem counted_once_iff {lib : Platform} {format : PolicyFileFormat}
    {request : CertificateIssuanceRequest} {caller : CallerIdentity} {tr : List IssuingEvent}
    {out : Except Throwable (List X509Certificate)}
    (hrun : Runs (issueCertificate (issuingService format) lib request caller) tr out) :
    CountedOnce caller tr out ↔ AllGuarded lib format request tr :=
  tracks_issueCertificate.of_runs hrun

namespace Sample

/-- No policy file is found; the other collaborators do their part. -/
def issuingAnswer (_ : List IssuingEvent) : (o : IssuingOp) → Except Throwable o.Val
  | .service o => answer [] o
  | .fetchFile _ => .ok none
  | .allowMetricsForClientId _ => .ok ()

def policyFormat : PolicyFileFormat := FileSourcedPolicyProvider.Sample.format

def issuingRun (request : CertificateIssuanceRequest) :
    Except Throwable (List X509Certificate) × List IssuingEvent :=
  exec issuingAnswer (issueCertificate (issuingService policyFormat) platform request caller) []

/-- Evidence of a kind whose endorsement cannot be read yet. -/
def awsRequest : CertificateIssuanceRequest := ⟨.aws Bytes.empty, csr⟩

end Sample

/-- A run that ends for want of a policy is counted. -/
theorem counted_once_missing_policy :
    CountedOnce Sample.caller (Sample.issuingRun Sample.request).2
      (Sample.issuingRun Sample.request).1 ∧
    AllGuarded Sample.platform Sample.policyFormat Sample.request
      (Sample.issuingRun Sample.request).2 := by
  have hcounted : CountedOnce Sample.caller (Sample.issuingRun Sample.request).2
      (Sample.issuingRun Sample.request).1 := ⟨.missingPolicy, by decide, rfl⟩
  exact ⟨hcounted, (counted_once_iff (runs_exec Sample.issuingAnswer _ [])).mp hcounted⟩

/-- A run on evidence from AWS ends with no counter incremented. -/
theorem not_counted_aws : ∃ tr out,
    Runs (issueCertificate (issuingService Sample.policyFormat) Sample.platform Sample.awsRequest
      Sample.caller) tr out ∧ increments tr = [] ∧ ¬ CountedOnce Sample.caller tr out := by
  have hnone : increments (Sample.issuingRun Sample.awsRequest).2 = [] := rfl
  have herror : ∃ e, (Sample.issuingRun Sample.awsRequest).1 = .error e := ⟨_, rfl⟩
  obtain ⟨e, he⟩ := herror
  refine ⟨_, _, runs_exec Sample.issuingAnswer _ [], hnone, fun hcounted => ?_⟩
  have hfailed : CountedOnce (α := List X509Certificate) Sample.caller
      (Sample.issuingRun Sample.awsRequest).2 (.error e) := he ▸ hcounted
  exact not_countedOnce hnone e hfailed

end Tca
