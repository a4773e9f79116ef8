import TransparentCa.Lib.Interleave
import TransparentCa.Tca.ClientId

/- The two methods of `SystemMetrics` that callers run from many threads. `ClientId` has each as
   one step; here every access to the set of approved clients, to the counters and to the monitor
   is a step of its own. The limit holds because the set is tested and filled under the monitor;
   the counters have no lock, and lose nothing because registering and incrementing are atomic
   (`metrics_consistent`). -/
namespace Tca
open Java Effects Effects.Prog

/-- The methods that look at the set of approved clients. -/
inductive MetricsMethod where
  | allowMetricsForClientId
  | incrementCertificateIssuanceCounter
  deriving DecidableEq

/-- One access of a method; a client id may be `null`. -/
inductive MetricsOp where
  /-- `approvedClients.contains`, with the method that asks. -/
  | contains (asker : MetricsMethod) (clientId : Option JString)
  | monitorEnter
  | monitorExit
  | size
  | add (clientId : Option JString)
  | warn (clientId : Option JString)
  /-- `issuanceCounters.computeIfAbsent`; a counter is known by its tag. -/
  | computeIfAbsent (clientId : JString)
  | increment (clientId : JString)
  deriving DecidableEq

abbrev MetricsOp.Val : MetricsOp → Type
  | .contains _ _ => Bool
  | .size => Nat
  | _ => Unit

abbrev MetricsProg (α : Type) := Prog MetricsOp MetricsOp.Val Throwable α

abbrev MetricsEvent := Event MetricsOp MetricsOp.Val Throwable

namespace SystemMetrics

def metricsCall (o : MetricsOp) : MetricsProg o.Val := Prog.invoke o

/-- `allowMetricsForClientId`, access by access. -/
def allowing (clientId : Option JString) : MetricsProg Unit := do
  if ← metricsCall (.contains .allowMetricsForClientId clientId) then
    return
  metricsCall .monitorEnter
  Prog.finallyDo (do
      if ← metricsCall (.contains .allowMetricsForClientId clientId) then
        return
      let size ← metricsCall .size
      if size < maxApprovedClients then
        metricsCall (.add clientId)
      else
        metricsCall (.warn clientId))
    (metricsCall .monitorExit)

/-- `incrementCertificateIssuanceCounter`, access by access. -/
def incrementing (clientId : Option JString) : MetricsProg Unit := do
  match clientId with
  | none => return
  | some clientId =>
    if ← metricsCall (.contains .incrementCertificateIssuanceCounter (some clientId)) then
      metricsCall (.computeIfAbsent clientId)
      metricsCall (.increment clientId)

/-! ## What the accesses do -/

/-- `approvedClients.add`. -/
def add (m : SystemMetrics) (clientId : JString) : SystemMetrics :=
  if clientId ∈ m.approvedClients then m
  else { m with approvedClients := clientId :: m.approvedClients }

/-- A counter is registered at 0. -/
def computeIfAbsent (m : SystemMetrics) (clientId : JString) : SystemMetrics :=
  let count := (m.issuanceCounters clientId).getD 0
  { m with issuanceCounters := Function.update m.issuanceCounters clientId (some count) }

def increment (m : SystemMetrics) (clientId : JString) : SystemMetrics :=
  let count := (m.issuanceCounters clientId).map (· + 1)
  { m with issuanceCounters := Function.update m.issuanceCounters clientId count }

theorem increment_computeIfAbsent (m : SystemMetrics) (clientId : JString) :
    (m.computeIfAbsent clientId).increment clientId =
      let count := (m.issuanceCounters clientId).getD 0 + 1
      { m with issuanceCounters := Function.update m.issuanceCounters clientId (some count) } := by
  simp [computeIfAbsent, increment]

/-! ## Threads -/

/-- The metrics and the thread that is in the monitor. -/
structure Shared (I : Type) where
  metrics : SystemMetrics
  monitor : Option I

section
variable {I : Type}

/-- What the thread `i` gets from an access, and what it leaves. -/
def step (i : I) (s : Shared I) : (o : MetricsOp) → Except Throwable o.Val → Shared I → Prop
  | .contains _ none, r, s' => r = .error { cls := .nullPointerException } ∧ s' = s
  | .contains _ (some clientId), r, s' =>
    r = .ok (decide (clientId ∈ s.metrics.approvedClients)) ∧ s' = s
  | .monitorEnter, r, s' =>
    (s.monitor = none ∨ s.monitor = some i) ∧ r = .ok () ∧ s' = { s with monitor := some i }
  | .monitorExit, r, s' => r = .ok () ∧ s' = { s with monitor := none }
  | .size, r, s' => r = .ok s.metrics.approvedClients.length ∧ s' = s
  | .add none, r, s' => r = .error { cls := .nullPointerException } ∧ s' = s
  | .add (some clientId), r, s' =>
    r = .ok () ∧ s' = { s with metrics := s.metrics.add clientId }
  | .warn _, r, s' => r = .ok () ∧ s' = s
  | .computeIfAbsent clientId, r, s' =>
    r = .ok () ∧ s' = { s with metrics := s.metrics.computeIfAbsent clientId }
  | .increment clientId, r, s' =>
    r = .ok () ∧ s' = { s with metrics := s.metrics.increment clientId }

/-- Threads that call the two methods with any client ids, as often as they like. -/
def metricsSystem (I : Type) : System I (Shared I) MetricsOp MetricsOp.Val Throwable Unit where
  init s := s = ⟨⟨[], fun _ => none⟩, none⟩
  runs _ p := (∃ clientId, p = allowing clientId) ∨ ∃ clientId, p = incrementing clientId
  step := step
  env _ _ := False

/-! ### A call by itself

With nothing in between, the methods are those of `ClientId`. -/

theorem ensures_allowing (i : I) (s : Shared I) (hfree : s.monitor = none) (clientId : JString) :
    Ensures (step i) (allowing (some clientId)) s (fun _ out s' =>
      out = .ok () ∧ s' = ⟨s.metrics.allowMetricsForClientId clientId, none⟩) := by
  have hstore : (⟨s.metrics, none⟩ : Shared I) = s := by rw [← hfree]
  unfold allowing SystemMetrics.allowMetricsForClientId
  refine Ensures.bind (Ensures.invoke ?_)
  rintro r s' ⟨rfl, rfl⟩
  by_cases hknown : clientId ∈ s'.metrics.approvedClients
  · simp only [hknown, decide_true, if_true]
    exact Ensures.ret ⟨rfl, hstore.symm⟩
  · simp only [hknown, decide_false, if_false]
    refine Ensures.bind (Ensures.invoke ?_)
    rintro r s'' ⟨-, rfl, rfl⟩
    refine Ensures.finallyDo (Ensures.mono (Q := fun _ r s'' => r = .ok () ∧
      s'' = ⟨(if s'.metrics.approvedClients.length < maxApprovedClients then
        { s'.metrics with approvedClients := clientId :: s'.metrics.approvedClients }
        else s'.metrics), some i⟩) ?_ ?_)
    · refine Ensures.bind (Ensures.invoke ?_)
      rintro r s'' ⟨rfl, rfl⟩
      simp only [hknown, decide_false]
      refine Ensures.bind (Ensures.invoke ?_)
      rintro r s'' ⟨rfl, rfl⟩
      dsimp only
      split_ifs
      · refine Ensures.invoke ?_
        rintro r s'' ⟨rfl, rfl⟩
        refine ⟨rfl, ?_⟩
        show (⟨s'.metrics.add clientId, some i⟩ : Shared I) = _
        rw [add, if_neg hknown]
      · refine Ensures.invoke ?_
        rintro r s'' ⟨rfl, rfl⟩
        exact ⟨rfl, rfl⟩
    · rintro tr r s'' ⟨rfl, rfl⟩
      refine Ensures.bind (Ensures.invoke ?_)
      rintro r s'' ⟨rfl, rfl⟩
      exact Ensures.ofExcept ⟨rfl, rfl⟩

theorem ensures_incrementing (i : I) (s : Shared I) (clientId : JString) :
    Ensures (step i) (incrementing (some clientId)) s (fun _ out s' =>
      out = .ok () ∧ s' = ⟨s.metrics.incrementCertificateIssuanceCounter clientId, s.monitor⟩) := by
  unfold incrementing SystemMetrics.incrementCertificateIssuanceCounter
  refine Ensures.bind (Ensures.invoke ?_)
  rintro r s' ⟨rfl, rfl⟩
  by_cases hknown : clientId ∈ s'.metrics.approvedClients
  · simp only [hknown, decide_true, if_true]
    refine Ensures.bind (Ensures.invoke ?_)
    rintro r s'' ⟨rfl, rfl⟩
    refine Ensures.invoke ?_
    rintro r s'' ⟨rfl, rfl⟩
    refine ⟨rfl, ?_⟩
    rw [← increment_computeIfAbsent]
  · simp only [hknown, decide_false, if_false]
    exact Ensures.ret ⟨rfl, rfl⟩

/-! ## Counting in the log -/

abbrev MetricsEntry (I : Type) := Entry I MetricsOp MetricsOp.Val Throwable Unit

/-- The thread that an entry is about. -/
def thread : MetricsEntry I → Option I
  | .start i => some i
  | .call i _ => some i
  | .finish i _ => some i
  | .stop i => some i
  | .env => none

/-- After this access its thread is about to count a certificate of `clientId`: it has found the
client approved, or has the counter. -/
def Passed (clientId : JString) : MetricsEntry I → Prop
  | .call _ ev =>
    ev = ⟨.contains .incrementCertificateIssuanceCounter (some clientId), .ok true⟩ ∨
      ev = ⟨.computeIfAbsent clientId, .ok ()⟩
  | _ => False

/-- The client was approved. -/
def Approved (clientId : JString) (log : List (MetricsEntry I)) : Prop :=
  ∃ i, .call i ⟨.add (some clientId), .ok ()⟩ ∈ log

/-- The thread `i` is between its check of `clientId` and its increment. -/
def UnderWay [DecidableEq I] (clientId : JString) (i : I) : List (MetricsEntry I) → Prop
  | [] => False
  | entry :: log =>
    if thread entry = some i then Passed clientId entry else UnderWay clientId i log

open Classical in
/-- The increments made for `clientId` after its approval: a call looks at the set first. -/
noncomputable def made (clientId : JString) : List (MetricsEntry I) → Nat
  | [] => 0
  | .call _ ⟨.contains .incrementCertificateIssuanceCounter clientId', _⟩ :: log =>
    made clientId log + if clientId' = some clientId ∧ Approved clientId log then 1 else 0
  | _ :: log => made clientId log

open Classical in
/-- The increments given up, by threads that stopped on the way. -/
noncomputable def givenUp [DecidableEq I] (clientId : JString) : List (MetricsEntry I) → Nat
  | [] => 0
  | .stop i :: log => givenUp clientId log + if UnderWay clientId i log then 1 else 0
  | _ :: log => givenUp clientId log

/-! ## The invariant -/

/-- Where a thread is: in the monitor, there with room for one more client, or on the way to count
a certificate, before or after it has the counter. -/
inductive Doing where
  | nothing
  | entered
  | small
  | counting (clientId : JString)
  | registered (clientId : JString)
  deriving DecidableEq

/-- The set of approved clients and the threads that fill it. -/
structure Bounded (s : Shared I) (ls : I → Doing) : Prop where
  nodup : s.metrics.approvedClients.Nodup
  bound : s.metrics.approvedClients.length ≤ maxApprovedClients
  entered : ∀ i, ls i = .entered ∨ ls i = .small → s.monitor = some i
  small : ∀ i, ls i = .small → s.metrics.approvedClients.length < maxApprovedClients

theorem approved_mono {clientId : JString} {entry : MetricsEntry I} {log : List (MetricsEntry I)}
    (h : Approved clientId log) : Approved clientId (entry :: log) := by
  obtain ⟨j, hj⟩ := h
  exact ⟨j, List.mem_cons_of_mem _ hj⟩

/-- Only `add` approves. -/
theorem approved_cons {clientId : JString} {entry : MetricsEntry I} {log : List (MetricsEntry I)}
    (h : ∀ j, entry ≠ .call j ⟨.add (some clientId), .ok ()⟩) :
    Approved clientId (entry :: log) ↔ Approved clientId log := by
  refine ⟨?_, approved_mono⟩
  rintro ⟨j, hj⟩
  rcases List.mem_cons.mp hj with heq | hj
  · exact absurd heq.symm (h j)
  · exact ⟨j, hj⟩

variable [DecidableEq I]

/-- The counters and the threads that count. -/
structure Counted (m : SystemMetrics) (log : List (MetricsEntry I)) (ls : I → Doing) : Prop where
  approved : ∀ clientId, clientId ∈ m.approvedClients ↔ Approved clientId log
  counters : ∀ clientId, (m.issuanceCounters clientId).isSome → clientId ∈ m.approvedClients
  underWay : ∀ i clientId, UnderWay clientId i log ↔
    ls i = .counting clientId ∨ ls i = .registered clientId
  underWay_approved : ∀ i clientId, UnderWay clientId i log → clientId ∈ m.approvedClients
  registered : ∀ i clientId, ls i = .registered clientId → (m.issuanceCounters clientId).isSome
  finite : ∀ clientId, {i | UnderWay clientId i log}.Finite
  total : ∀ clientId, (m.issuanceCounters clientId).getD 0 + {i | UnderWay clientId i log}.ncard +
    givenUp clientId log = made clientId log

/-! ### The log -/

section
variable {clientId : JString} {i : I} {entry : MetricsEntry I} {log : List (MetricsEntry I)}

theorem underWay_self (h : thread entry = some i) :
    UnderWay clientId i (entry :: log) ↔ Passed clientId entry := by
  rw [UnderWay, if_pos h]

theorem underWay_other (h : thread entry = some i) {j : I} (hj : j ≠ i) :
    UnderWay clientId j (entry :: log) ↔ UnderWay clientId j log := by
  rw [UnderWay, if_neg (fun heq => hj (Option.some.inj (heq.symm.trans h)))]

theorem underWay_finite (h : thread entry = some i)
    (hfinite : {j | UnderWay clientId j log}.Finite) :
    {j | UnderWay clientId j (entry :: log)}.Finite := by
  refine (hfinite.insert i).subset (fun j hj => ?_)
  by_cases hji : j = i
  · exact .inl hji
  · exact .inr ((underWay_other h hji).mp hj)

open Classical in
/-- An entry takes at most its own thread in or out. -/
theorem ncard_underWay (h : thread entry = some i) (hfinite : {j | UnderWay clientId j log}.Finite) :
    {j | UnderWay clientId j (entry :: log)}.ncard + (if UnderWay clientId i log then 1 else 0) =
      {j | UnderWay clientId j log}.ncard + (if Passed clientId entry then 1 else 0) := by
  have hother (j : I) (hj : j ≠ i) :
      UnderWay clientId j (entry :: log) ↔ UnderWay clientId j log := underWay_other h hj
  have hself : UnderWay clientId i (entry :: log) ↔ Passed clientId entry := underWay_self h
  by_cases hpassed : Passed clientId entry
  · have hset : {j | UnderWay clientId j (entry :: log)} = insert i {j | UnderWay clientId j log} := by
      ext j
      by_cases hj : j = i
      · simp [hj, hself, hpassed]
      · simp [hj, hother j hj]
    rw [hset, if_pos hpassed]
    by_cases hwas : UnderWay clientId i log
    · have hmem : i ∈ {j | UnderWay clientId j log} := hwas
      rw [if_pos hwas, Set.insert_eq_of_mem hmem]
    · have hnew : i ∉ {j | UnderWay clientId j log} := hwas
      rw [if_neg hwas, Set.ncard_insert_of_notMem hnew hfinite]
  · have hset : {j | UnderWay clientId j (entry :: log)} = {j | UnderWay clientId j log} \ {i} := by
      ext j
      by_cases hj : j = i
      · simp [hj, hself, hpassed]
      · simp [hj, hother j hj]
    rw [hset, if_neg hpassed]
    by_cases hwas : UnderWay clientId i log
    · have hmem : i ∈ {j | UnderWay clientId j log} := hwas
      rw [if_pos hwas, Set.ncard_sdiff_singleton_add_one hmem hfinite]
      rfl
    · have hnew : i ∉ {j | UnderWay clientId j log} := hwas
      rw [if_neg hwas, Set.sdiff_singleton_eq_self hnew]

end

open Classical in
/-- What an entry of the thread `i` has to keep. -/
theorem Counted.step {m m' : SystemMetrics} {log : List (MetricsEntry I)} {ls : I → Doing}
    (h : Counted m log ls) {i : I} {entry : MetricsEntry I} (hthread : thread entry = some i)
    {l : Doing} (happroved : ∀ clientId, clientId ∈ m'.approvedClients ↔ Approved clientId (entry :: log))
    (hmono : ∀ clientId, clientId ∈ m.approvedClients → clientId ∈ m'.approvedClients)
    (hcounters : ∀ clientId, (m'.issuanceCounters clientId).isSome → clientId ∈ m'.approvedClients)
    (hsome : ∀ clientId, (m.issuanceCounters clientId).isSome →
      (m'.issuanceCounters clientId).isSome)
    (hpassed : ∀ clientId, Passed clientId entry ↔ l = .counting clientId ∨ l = .registered clientId)
    (hallowed : ∀ clientId, Passed clientId entry → clientId ∈ m'.approvedClients)
    (hregistered : ∀ clientId, l = .registered clientId → (m'.issuanceCounters clientId).isSome)
    (htotal : ∀ clientId, (m'.issuanceCounters clientId).getD 0 +
        (if Passed clientId entry then 1 else 0) + givenUp clientId (entry :: log) +
          made clientId log =
      (m.issuanceCounters clientId).getD 0 + (if UnderWay clientId i log then 1 else 0) +
        givenUp clientId log + made clientId (entry :: log)) :
    Counted m' (entry :: log) (Function.update ls i l) where
  approved := happroved
  counters := hcounters
  underWay := by
    intro j clientId
    by_cases hj : j = i
    · rw [hj, Function.update_self, underWay_self hthread]
      exact hpassed clientId
    · rw [Function.update_of_ne hj, underWay_other hthread hj]
      exact h.underWay j clientId
  underWay_approved := by
    intro j clientId hj
    by_cases hji : j = i
    · rw [hji, underWay_self hthread] at hj
      exact hallowed clientId hj
    · exact hmono clientId (h.underWay_approved j clientId ((underWay_other hthread hji).mp hj))
  registered := by
    intro j clientId hj
    rcases update_cases hj with ⟨-, hl⟩ | ⟨-, hj⟩
    · exact hregistered clientId hl
    · exact hsome clientId (h.registered j clientId hj)
  finite := fun clientId => underWay_finite hthread (h.finite clientId)
  total := by
    intro clientId
    have hncard := ncard_underWay hthread (h.finite clientId)
    have hbefore := h.total clientId
    have hstep := htotal clientId
    omega

/-- Where entries count for nothing, and the metrics stay as they are. -/
theorem Counted.quiet {m : SystemMetrics} {log : List (MetricsEntry I)} {ls : I → Doing}
    (h : Counted m log ls) {i : I} {entry : MetricsEntry I} (hthread : thread entry = some i)
    {l : Doing} (hidle : ∀ clientId, ¬ UnderWay clientId i log)
    (hl : ∀ clientId, l ≠ .counting clientId ∧ l ≠ .registered clientId)
    (happroved : ∀ clientId, Approved clientId (entry :: log) ↔ Approved clientId log)
    (hpassed : ∀ clientId, ¬ Passed clientId entry)
    (hmade : ∀ clientId, made clientId (entry :: log) = made clientId log)
    (hgiven : ∀ clientId, givenUp clientId (entry :: log) = givenUp clientId log) :
    Counted m (entry :: log) (Function.update ls i l) := by
  classical
  refine h.step hthread (fun clientId => (h.approved clientId).trans (happroved clientId).symm)
    (fun _ => id) h.counters (fun _ => id) (fun clientId => ?_)
    (fun clientId hp => absurd hp (hpassed clientId)) (fun clientId hl' => absurd hl' (hl clientId).2)
    (fun clientId => ?_)
  · exact iff_of_false (hpassed clientId) (not_or_intro (hl clientId).1 (hl clientId).2)
  · rw [if_neg (hpassed clientId), if_neg (hidle clientId), hmade, hgiven]

/-! ### The accesses -/

/-- A thread that is not on the way to count. -/
def Doing.Apart (l : Doing) : Prop :=
  ∀ clientId, l ≠ .counting clientId ∧ l ≠ .registered clientId

theorem apart_nothing : Doing.nothing.Apart := fun _ => ⟨by simp, by simp⟩

theorem apart_entered : Doing.entered.Apart := fun _ => ⟨by simp, by simp⟩

theorem apart_small : Doing.small.Apart := fun _ => ⟨by simp, by simp⟩

/-- Accesses that neither approve nor count. -/
def Neutral : MetricsOp → Prop
  | .contains .allowMetricsForClientId _ => True
  | .monitorEnter => True
  | .monitorExit => True
  | .size => True
  | .warn _ => True
  | .add none => True
  | _ => False

section
variable {m : SystemMetrics} {log : List (MetricsEntry I)} {ls : I → Doing} {i : I} {l : Doing}

theorem Counted.not_underWay (h : Counted m log ls) (hapart : (ls i).Apart) (clientId : JString) :
    ¬ UnderWay clientId i log := by
  rw [h.underWay]
  exact not_or_intro (hapart clientId).1 (hapart clientId).2

theorem Counted.neutral (h : Counted m log ls) (hapart : (ls i).Apart) (hl : l.Apart)
    {o : MetricsOp} (ho : Neutral o) (r : Except Throwable o.Val) :
    Counted m (.call i ⟨o, r⟩ :: log) (Function.update ls i l) := by
  have hthread : thread (.call i ⟨o, r⟩ : MetricsEntry I) = some i := rfl
  refine h.quiet hthread (h.not_underWay hapart) hl (fun clientId => approved_cons (fun j heq => ?_))
    (fun clientId => ?_) (fun clientId => ?_) (fun _ => rfl)
  · cases heq
    exact ho.elim
  · rintro (hp | hp)
    · cases hp
      exact ho.elim
    · cases hp
      exact ho.elim
  · cases o with
    | contains asker _ =>
      cases asker with
      | allowMetricsForClientId => rfl
      | incrementCertificateIssuanceCounter => exact ho.elim
    | _ => rfl

/-- Entries that are no calls, of a thread that is not on the way. -/
theorem Counted.mark (h : Counted m log ls) (hapart : (ls i).Apart) (hl : l.Apart)
    {entry : MetricsEntry I} (hentry : entry = .start i ∨ ∃ out, entry = .finish i out) :
    Counted m (entry :: log) (Function.update ls i l) := by
  have hthread : thread entry = some i := by
    rcases hentry with rfl | ⟨out, rfl⟩ <;> rfl
  refine h.quiet hthread (h.not_underWay hapart) hl (fun clientId => approved_cons (fun j heq => ?_))
    (fun clientId => ?_) (fun clientId => ?_) (fun clientId => ?_)
  · rcases hentry with rfl | ⟨out, rfl⟩ <;> cases heq
  · rcases hentry with rfl | ⟨out, rfl⟩ <;> exact id
  · rcases hentry with rfl | ⟨out, rfl⟩ <;> rfl
  · rcases hentry with rfl | ⟨out, rfl⟩ <;> rfl

/-- A thread that stops gives up what it was about to count. -/
theorem Counted.stopped (h : Counted m log ls) :
    Counted m (.stop i :: log) (Function.update ls i .nothing) := by
  classical
  have hthread : thread (.stop i : MetricsEntry I) = some i := rfl
  refine h.step hthread (fun clientId => (h.approved clientId).trans
      (approved_cons (fun _ heq => by cases heq)).symm) (fun _ => id) h.counters
    (fun _ => id) (fun clientId => ?_) (fun _ hp => hp.elim) (fun _ hl => by cases hl)
    (fun clientId => ?_)
  · exact iff_of_false id (not_or_intro (by simp) (by simp))
  · have hmade : made clientId (.stop i :: log) = made clientId log := rfl
    have hgiven : givenUp clientId (.stop i :: log) =
        givenUp clientId log + if UnderWay clientId i log then 1 else 0 := rfl
    rw [if_neg (show ¬ Passed clientId (.stop i : MetricsEntry I) from id), hmade, hgiven]
    omega

/-- The check: it is made after the approval exactly when it finds the client. -/
theorem Counted.checked (h : Counted m log ls) (hapart : (ls i).Apart) (clientId : JString) :
    Counted m (.call i ⟨.contains .incrementCertificateIssuanceCounter (some clientId),
        .ok (decide (clientId ∈ m.approvedClients))⟩ :: log)
      (Function.update ls i
        (if clientId ∈ m.approvedClients then .counting clientId else .nothing)) := by
  classical
  have hpassed (clientId' : JString) : Passed clientId' (.call i ⟨.contains
        .incrementCertificateIssuanceCounter (some clientId),
        .ok (decide (clientId ∈ m.approvedClients))⟩ : MetricsEntry I) ↔
      clientId = clientId' ∧ clientId ∈ m.approvedClients := by
    simp [Passed]
  have hthread : thread (.call i ⟨.contains .incrementCertificateIssuanceCounter (some clientId),
      .ok (decide (clientId ∈ m.approvedClients))⟩ : MetricsEntry I) = some i := rfl
  refine h.step hthread (fun clientId => (h.approved clientId).trans
      (approved_cons (fun _ heq => by cases heq)).symm) (fun _ => id) h.counters (fun _ => id)
     (fun clientId' => ?_) (fun clientId' hp => ?_) (fun clientId' hl => ?_)
    (fun clientId' => ?_)
  · rw [hpassed]
    split_ifs with hmem
    · simp [hmem]
    · simp [hmem]
  · obtain ⟨rfl, hmem⟩ := (hpassed clientId').mp hp
    exact hmem
  · split_ifs at hl
  · have hmade : made clientId' (.call i ⟨.contains .incrementCertificateIssuanceCounter
          (some clientId), .ok (decide (clientId ∈ m.approvedClients))⟩ :: log) =
        made clientId' log +
          if some clientId = some clientId' ∧ Approved clientId' log then 1 else 0 := rfl
    have hsame : (some clientId = some clientId' ∧ Approved clientId' log) ↔
        clientId = clientId' ∧ clientId ∈ m.approvedClients := by
      rw [Option.some.injEq]
      refine and_congr_right (fun heq => ?_)
      rw [heq]
      exact (h.approved clientId').symm
    have hgiven : givenUp clientId' (.call i ⟨.contains .incrementCertificateIssuanceCounter
          (some clientId), .ok (decide (clientId ∈ m.approvedClients))⟩ :: log) =
        givenUp clientId' log := rfl
    rw [hmade, hgiven]
    simp only [hpassed, hsame, h.not_underWay hapart, if_false]
    omega

theorem computeIfAbsent_apply (m : SystemMetrics) (clientId clientId' : JString) :
    (m.computeIfAbsent clientId).issuanceCounters clientId' =
      if clientId' = clientId then some ((m.issuanceCounters clientId).getD 0)
      else m.issuanceCounters clientId' :=
  Function.update_apply ..

theorem increment_apply (m : SystemMetrics) (clientId clientId' : JString) :
    (m.increment clientId).issuanceCounters clientId' =
      if clientId' = clientId then (m.issuanceCounters clientId).map (· + 1)
      else m.issuanceCounters clientId' :=
  Function.update_apply ..

theorem Counted.gotCounter (h : Counted m log ls) {clientId : JString}
    (hl : ls i = .counting clientId) :
    Counted (m.computeIfAbsent clientId) (.call i ⟨.computeIfAbsent clientId, .ok ()⟩ :: log)
      (Function.update ls i (.registered clientId)) := by
  classical
  have hthread : thread (.call i ⟨.computeIfAbsent clientId, .ok ()⟩ : MetricsEntry I) = some i := rfl
  have hpassed (clientId' : JString) :
      Passed clientId' (.call i ⟨.computeIfAbsent clientId, .ok ()⟩ : MetricsEntry I) ↔
        clientId' = clientId := by
    simp [Passed, eq_comm]
  have hwas (clientId' : JString) : UnderWay clientId' i log ↔ clientId' = clientId := by
    rw [h.underWay, hl]
    simp [eq_comm]
  have hmem := h.underWay_approved i clientId ((hwas clientId).mpr rfl)
  refine h.step hthread (fun clientId => (h.approved clientId).trans
      (approved_cons (fun _ heq => by cases heq)).symm) (fun _ => id) (fun clientId' hsome => ?_)
    (fun clientId' hsome => ?_) (fun clientId' => ?_) (fun clientId' hp => ?_)
    (fun clientId' hreg => ?_) (fun clientId' => ?_)
  · rw [computeIfAbsent_apply] at hsome
    split_ifs at hsome with heq
    · rw [heq]
      exact hmem
    · exact h.counters clientId' hsome
  · rw [computeIfAbsent_apply]
    split_ifs
    · rfl
    · exact hsome
  · rw [hpassed]
    simp [eq_comm]
  · rw [(hpassed clientId').mp hp]
    exact hmem
  · rw [computeIfAbsent_apply, if_pos (Doing.registered.inj hreg).symm]
    rfl
  · have hcount : ((m.computeIfAbsent clientId).issuanceCounters clientId').getD 0 =
        (m.issuanceCounters clientId').getD 0 := by
      rw [computeIfAbsent_apply]
      split_ifs with heq
      · rw [heq, Option.getD_some]
      · rfl
    rw [hcount]
    simp only [hpassed, hwas]
    rfl

theorem Counted.incremented (h : Counted m log ls) {clientId : JString}
    (hl : ls i = .registered clientId) :
    Counted (m.increment clientId) (.call i ⟨.increment clientId, .ok ()⟩ :: log)
      (Function.update ls i .nothing) := by
  classical
  have hthread : thread (.call i ⟨.increment clientId, .ok ()⟩ : MetricsEntry I) = some i := rfl
  have hpassed (clientId' : JString) :
      ¬ Passed clientId' (.call i ⟨.increment clientId, .ok ()⟩ : MetricsEntry I) := by
    simp [Passed]
  have hwas (clientId' : JString) : UnderWay clientId' i log ↔ clientId' = clientId := by
    rw [h.underWay, hl]
    simp [eq_comm]
  obtain ⟨count, hcount⟩ := Option.isSome_iff_exists.mp (h.registered i clientId hl)
  have hsome (clientId' : JString) : ((m.increment clientId).issuanceCounters clientId').isSome ↔
      (m.issuanceCounters clientId').isSome := by
    rw [increment_apply]
    split_ifs with heq
    · rw [heq, Option.isSome_map]
    · rfl
  refine h.step hthread (fun clientId => (h.approved clientId).trans
      (approved_cons (fun _ heq => by cases heq)).symm) (fun _ => id)
    (fun clientId' => fun hs => h.counters clientId' ((hsome clientId').mp hs))
    (fun clientId' => (hsome clientId').mpr) (fun clientId' => ?_)
    (fun clientId' hp => absurd hp (hpassed clientId')) (fun _ hreg => by cases hreg)
    (fun clientId' => ?_)
  · exact iff_of_false (hpassed clientId') (not_or_intro (by simp) (by simp))
  · have hmade : made clientId' (.call i ⟨.increment clientId, .ok ()⟩ :: log) =
        made clientId' log := rfl
    have hgiven : givenUp clientId' (.call i ⟨.increment clientId, .ok ()⟩ :: log) =
        givenUp clientId' log := rfl
    rw [hmade, hgiven, if_neg (hpassed clientId'), increment_apply]
    simp only [hwas]
    split_ifs with heq
    · rw [heq, hcount]
      rfl
    · rfl

theorem Counted.added (h : Counted m log ls) (hapart : (ls i).Apart) (clientId : JString) :
    Counted (m.add clientId) (.call i ⟨.add (some clientId), .ok ()⟩ :: log)
      (Function.update ls i .entered) := by
  classical
  have hthread : thread (.call i ⟨.add (some clientId), .ok ()⟩ : MetricsEntry I) = some i := rfl
  have hpassed (clientId' : JString) :
      ¬ Passed clientId' (.call i ⟨.add (some clientId), .ok ()⟩ : MetricsEntry I) := by
    simp [Passed]
  have hmem (clientId' : JString) : clientId' ∈ (m.add clientId).approvedClients ↔
      clientId' = clientId ∨ clientId' ∈ m.approvedClients := by
    unfold add
    split_ifs with hin
    · exact ⟨.inr, fun hor => hor.elim (fun heq => heq ▸ hin) id⟩
    · exact List.mem_cons
  have hcounters : (m.add clientId).issuanceCounters = m.issuanceCounters := by
    unfold add
    split_ifs <;> rfl
  refine h.step hthread (fun clientId' => ?_) (fun clientId' hin => (hmem clientId').mpr (.inr hin))
    (fun clientId' hs => ?_) (fun clientId' hs => ?_) (fun clientId' => ?_)
    (fun clientId' hp => absurd hp (hpassed clientId')) (fun _ hreg => by cases hreg)
    (fun clientId' => ?_)
  · rw [hmem, h.approved]
    constructor
    · rintro (rfl | hwas)
      · exact ⟨i, List.mem_cons_self⟩
      · exact approved_mono hwas
    · rintro ⟨j, hj⟩
      rcases List.mem_cons.mp hj with heq | hj
      · cases heq
        exact .inl rfl
      · exact .inr ⟨j, hj⟩
  · rw [hcounters] at hs
    exact (hmem clientId').mpr (.inr (h.counters clientId' hs))
  · rw [hcounters]
    exact hs
  · exact iff_of_false (hpassed clientId') (not_or_intro (by simp) (by simp))
  · rw [hcounters, if_neg (hpassed clientId'), if_neg (h.not_underWay hapart clientId')]
    rfl

end

/-! ## The methods -/

section
variable (I)

def metricsOutline : Outline I (Shared I) MetricsOp MetricsOp.Val Throwable Unit Doing where
  inv s log ls := Bounded s ls ∧ Counted s.metrics log ls
  idle l := l = .nothing
  guar s s' := ∀ clientId ∈ s.metrics.approvedClients, clientId ∈ s'.metrics.approvedClients

/-- The thread `i`, at `l`, can run `p`. -/
abbrev MetricsOk {β : Type} (i : I) (l : Doing) (p : MetricsProg β)
    (Q : Doing → Except Throwable β → Prop) : Prop :=
  (metricsOutline I).Ok (metricsSystem I) i l p Q

end

section
variable {i : I}

/-- Outside of the monitor a thread may be anywhere but there. -/
theorem Bounded.outside {s : Shared I} {ls : I → Doing} (h : Bounded s ls) {l : Doing}
    (hentered : l ≠ .entered) (hsmall : l ≠ .small) : Bounded s (Function.update ls i l) where
  nodup := h.nodup
  bound := h.bound
  entered := by
    intro j hj
    rcases hj with hj | hj
    · rcases update_cases hj with ⟨-, hl⟩ | ⟨-, hj⟩
      · exact absurd hl hentered
      · exact h.entered j (.inl hj)
    · rcases update_cases hj with ⟨-, hl⟩ | ⟨-, hj⟩
      · exact absurd hl hsmall
      · exact h.entered j (.inr hj)
  small := by
    intro j hj
    rcases update_cases hj with ⟨-, hl⟩ | ⟨-, hj⟩
    · exact absurd hl hsmall
    · exact h.small j hj

/-- The thread in the monitor is there alone. -/
theorem Bounded.inside {s : Shared I} {ls : I → Doing} (h : Bounded s ls)
    (hfree : s.monitor = none ∨ s.monitor = some i) {l : Doing}
    (hl : l = .small → s.metrics.approvedClients.length < maxApprovedClients) :
    Bounded { s with monitor := some i } (Function.update ls i l) := by
  have halone (j : I) (hj : s.monitor = some j) : j = i := by
    rcases hfree with hnone | hsome
    · rw [hnone] at hj
      cases hj
    · exact Option.some.inj (hj.symm.trans hsome)
  refine ⟨h.nodup, h.bound, fun j hj => ?_, fun j hj => ?_⟩
  · by_cases hji : j = i
    · rw [hji]
    · rw [Function.update_of_ne hji] at hj
      exact absurd (halone j (h.entered j hj)) hji
  · rcases update_cases hj with ⟨-, heq⟩ | ⟨-, hj⟩
    · exact hl heq
    · exact h.small j hj

theorem Bounded.leave {s : Shared I} {ls : I → Doing} (h : Bounded s ls)
    (hmonitor : s.monitor = some i) :
    Bounded { s with monitor := none } (Function.update ls i .nothing) := by
  have hnone (j : I) (l : Doing) (hl : l = .entered ∨ l = .small)
      (hj : Function.update ls i .nothing j = l) : False := by
    rcases update_cases hj with ⟨-, heq⟩ | ⟨hji, hj⟩
    · rw [← heq] at hl
      exact hl.elim (by simp) (by simp)
    · rw [← hj] at hl
      exact hji (Option.some.inj ((h.entered j hl).symm.trans hmonitor))
  refine ⟨h.nodup, h.bound, fun j hj => ?_, fun j hj => ?_⟩
  · rcases hj with hj | hj
    · exact (hnone j _ (.inl rfl) hj).elim
    · exact (hnone j _ (.inr rfl) hj).elim
  · exact (hnone j _ (.inr rfl) hj).elim

/-- With room for one more, the set is within the limit afterwards. -/
theorem Bounded.added {s : Shared I} {ls : I → Doing} (h : Bounded s ls) (hl : ls i = .small)
    (clientId : JString) :
    Bounded { s with metrics := s.metrics.add clientId } (Function.update ls i .entered) := by
  have hmonitor := h.entered i (.inr hl)
  have halone (j : I) (hj : s.monitor = some j) : j = i :=
    Option.some.inj (hj.symm.trans hmonitor)
  refine ⟨?_, ?_, fun j hj => ?_, fun j hj => ?_⟩
  · show (s.metrics.add clientId).approvedClients.Nodup
    unfold add
    split_ifs with hmem
    · exact h.nodup
    · exact List.nodup_cons.mpr ⟨hmem, h.nodup⟩
  · show (s.metrics.add clientId).approvedClients.length ≤ maxApprovedClients
    unfold add
    split_ifs
    · exact h.bound
    · exact h.small i hl
  · by_cases hji : j = i
    · rw [hji]
      exact hmonitor
    · rw [Function.update_of_ne hji] at hj
      exact h.entered j hj
  · rcases update_cases hj with ⟨-, heq⟩ | ⟨hji, hj⟩
    · cases heq
    · exact absurd (halone j (h.entered j (.inr hj))) hji

theorem ok_ask {l : Doing} (hl : l.Apart) (clientId : Option JString) :
    MetricsOk I i l (metricsCall (.contains .allowMetricsForClientId clientId))
      (fun l' _ => l' = l) := by
  apply Outline.Ok.invoke
  rintro s log ls ⟨hbounded, hcounted⟩ rfl r s' hs
  have hsame : s' = s := by
    cases clientId with
    | none => exact hs.2
    | some clientId => exact hs.2
  subst hsame
  refine ⟨fun _ => id, ls i, ⟨?_, ?_⟩, rfl⟩
  · rw [Function.update_eq_self]
    exact hbounded
  · exact hcounted.neutral (o := .contains .allowMetricsForClientId clientId) hl hl trivial r

theorem ok_enter :
    MetricsOk I i .nothing (metricsCall .monitorEnter)
      (fun l' r => l' = .entered ∧ r = .ok ()) := by
  apply Outline.Ok.invoke
  rintro s log ls ⟨hbounded, hcounted⟩ hl r s' ⟨hfree, rfl, rfl⟩
  refine ⟨fun _ => id, .entered, ⟨?_, ?_⟩, rfl, rfl⟩
  · exact hbounded.inside hfree (by simp)
  · exact hcounted.neutral (o := .monitorEnter) (by rw [hl]; exact apart_nothing) apart_entered
      trivial _

theorem ok_size :
    MetricsOk I i .entered (metricsCall .size) (fun l' r =>
      ∃ size, r = .ok size ∧ l' = if size < maxApprovedClients then .small else .entered) := by
  apply Outline.Ok.invoke
  rintro s log ls ⟨hbounded, hcounted⟩ hl r s' ⟨rfl, rfl⟩
  have hmonitor := hbounded.entered i (.inl hl)
  have hsame : { s' with monitor := some i } = s' := by rw [← hmonitor]
  refine ⟨fun _ => id, _, ⟨?_, ?_⟩, _, rfl, rfl⟩
  · rw [← hsame]
    refine hbounded.inside (.inr hmonitor) (fun hsmall => ?_)
    split_ifs at hsmall with hlt
    exact hlt
  · refine hcounted.neutral (o := .size) (by rw [hl]; exact apart_entered) ?_ trivial _
    split_ifs
    · exact apart_small
    · exact apart_entered

theorem ok_add (clientId : Option JString) :
    MetricsOk I i .small (metricsCall (.add clientId)) (fun l' _ => l' = .entered) := by
  apply Outline.Ok.invoke
  rintro s log ls ⟨hbounded, hcounted⟩ hl r s' hs
  have hapart : (ls i).Apart := by rw [hl]; exact apart_small
  cases clientId with
  | none =>
    obtain ⟨rfl, rfl⟩ := hs
    have hmonitor := hbounded.entered i (.inr hl)
    have hsame : { s' with monitor := some i } = s' := by rw [← hmonitor]
    refine ⟨fun _ => id, .entered, ⟨?_, ?_⟩, rfl⟩
    · rw [← hsame]
      exact hbounded.inside (.inr hmonitor) (by simp)
    · exact hcounted.neutral (o := .add none) hapart apart_entered trivial _
  | some clientId =>
    obtain ⟨rfl, rfl⟩ := hs
    refine ⟨fun clientId' hmem => ?_, .entered, ⟨?_, ?_⟩, rfl⟩
    · show clientId' ∈ (s.metrics.add clientId).approvedClients
      unfold add
      split_ifs
      · exact hmem
      · exact List.mem_cons_of_mem _ hmem
    · exact hbounded.added hl clientId
    · exact hcounted.added hapart clientId

theorem ok_warn (clientId : Option JString) :
    MetricsOk I i .entered (metricsCall (.warn clientId)) (fun l' _ => l' = .entered) := by
  apply Outline.Ok.invoke
  rintro s log ls ⟨hbounded, hcounted⟩ hl r s' ⟨rfl, rfl⟩
  refine ⟨fun _ => id, ls i, ⟨?_, ?_⟩, hl⟩
  · rw [Function.update_eq_self]
    exact hbounded
  · have hapart : (ls i).Apart := by rw [hl]; exact apart_entered
    exact hcounted.neutral (o := .warn clientId) hapart hapart trivial _

theorem ok_exit :
    MetricsOk I i .entered (metricsCall .monitorExit)
      (fun l' r => l' = .nothing ∧ r = .ok ()) := by
  apply Outline.Ok.invoke
  rintro s log ls ⟨hbounded, hcounted⟩ hl r s' ⟨rfl, rfl⟩
  refine ⟨fun _ => id, .nothing, ⟨?_, ?_⟩, rfl, rfl⟩
  · exact hbounded.leave (hbounded.entered i (.inl hl))
  · exact hcounted.neutral (o := .monitorExit) (by rw [hl]; exact apart_entered) apart_nothing
      trivial _

theorem ok_allowing (clientId : Option JString) :
    MetricsOk I i .nothing (allowing clientId) (fun l _ => l = .nothing) := by
  unfold allowing
  refine Outline.Ok.bind ((ok_ask apart_nothing clientId).mono (fun l r hl => ?_))
  subst hl
  cases r with
  | error e => rfl
  | ok known =>
    cases known with
    | true => rfl
    | false =>
      refine Outline.Ok.bind (ok_enter.mono (fun l r hl => ?_))
      obtain ⟨rfl, rfl⟩ := hl
      refine Outline.Ok.finallyDo (Outline.Ok.mono (Q := fun l _ => l = .entered) ?_ ?_)
      · refine Outline.Ok.bind ((ok_ask apart_entered clientId).mono (fun l r hl => ?_))
        subst hl
        cases r with
        | error e => rfl
        | ok known =>
          cases known with
          | true => rfl
          | false =>
            refine Outline.Ok.bind (ok_size.mono (fun l r hl => ?_))
            obtain ⟨size, rfl, rfl⟩ := hl
            dsimp only
            split_ifs
            · exact ok_add clientId
            · exact ok_warn clientId
      · rintro l r rfl
        refine Outline.Ok.bind (ok_exit.mono (fun l' r' hl => ?_))
        obtain ⟨rfl, rfl⟩ := hl
        exact Outline.Ok.ofExcept rfl

theorem ok_check (clientId : JString) :
    MetricsOk I i .nothing
      (metricsCall (.contains .incrementCertificateIssuanceCounter (some clientId)))
      (fun l r => ∃ known, r = .ok known ∧ l = if known then .counting clientId else .nothing) := by
  apply Outline.Ok.invoke
  rintro s log ls ⟨hbounded, hcounted⟩ hl r s' ⟨rfl, rfl⟩
  have hapart : (ls i).Apart := by rw [hl]; exact apart_nothing
  refine ⟨fun _ => id, _, ⟨?_, hcounted.checked hapart clientId⟩, _, rfl, by simp⟩
  apply hbounded.outside
  · split_ifs <;> simp
  · split_ifs <;> simp

theorem ok_counter (clientId : JString) :
    MetricsOk I i (.counting clientId) (metricsCall (.computeIfAbsent clientId))
      (fun l r => r = .ok () ∧ l = .registered clientId) := by
  apply Outline.Ok.invoke
  rintro s log ls ⟨hbounded, hcounted⟩ hl r s' ⟨rfl, rfl⟩
  have hsame := hbounded.outside (i := i) (l := .registered clientId) (by simp) (by simp)
  exact ⟨fun _ => id, _, ⟨⟨hsame.nodup, hsame.bound, hsame.entered, hsame.small⟩,
    hcounted.gotCounter hl⟩, rfl, rfl⟩

theorem ok_increment (clientId : JString) :
    MetricsOk I i (.registered clientId) (metricsCall (.increment clientId))
      (fun l _ => l = .nothing) := by
  apply Outline.Ok.invoke
  rintro s log ls ⟨hbounded, hcounted⟩ hl r s' ⟨rfl, rfl⟩
  have hsame := hbounded.outside (i := i) (l := .nothing) (by simp) (by simp)
  exact ⟨fun _ => id, _, ⟨⟨hsame.nodup, hsame.bound, hsame.entered, hsame.small⟩,
    hcounted.incremented hl⟩, rfl⟩

theorem ok_incrementing (clientId : Option JString) :
    MetricsOk I i .nothing (incrementing clientId) (fun l _ => l = .nothing) := by
  cases clientId with
  | none => rfl
  | some clientId =>
    refine Outline.Ok.bind ((ok_check clientId).mono (fun l r hl => ?_))
    obtain ⟨known, rfl, rfl⟩ := hl
    cases known with
    | false => rfl
    | true =>
      refine Outline.Ok.bind ((ok_counter clientId).mono (fun l r hl => ?_))
      obtain ⟨rfl, rfl⟩ := hl
      exact ok_increment clientId

end

/-! ## All interleavings -/

theorem counted_init : Counted (⟨[], fun _ => none⟩ : SystemMetrics) []
    (fun _ : I => Doing.nothing) where
  approved := by
    intro clientId
    simp [Approved]
  counters := by
    rintro clientId ⟨⟩
  underWay := by
    intro i clientId
    simp [UnderWay]
  underWay_approved := by
    rintro i clientId ⟨⟩
  registered := by
    rintro i clientId ⟨⟩
  finite := fun clientId => Set.finite_empty
  total := by
    intro clientId
    have hnone : {i : I | UnderWay clientId i []} = ∅ := rfl
    rw [hnone, Set.ncard_empty]
    rfl

theorem valid_metricsOutline : (metricsOutline I).Valid (metricsSystem I) where
  guar_refl _ _ := id
  init := by
    rintro s rfl
    refine ⟨fun _ => .nothing, ⟨⟨List.nodup_nil, Nat.zero_le _, ?_, ?_⟩, counted_init⟩, fun _ => rfl⟩
    · rintro i (hi | hi) <;> cases hi
    · rintro i ⟨⟩
  start := by
    rintro i p s log ls hp ⟨hbounded, hcounted⟩ hidle
    have hapart : (ls i).Apart := by rw [show ls i = .nothing from hidle]; exact apart_nothing
    refine ⟨.nothing, ⟨hbounded.outside (by simp) (by simp),
      hcounted.mark hapart apart_nothing (.inl rfl)⟩, ?_⟩
    have hends (l : Doing) (r : Except Throwable Unit) (hl : l = .nothing) :
        (metricsOutline I).Ends i l r := by
      rintro s log ls ⟨hbounded, hcounted⟩ hls
      have hapart : (ls i).Apart := by rw [hls, hl]; exact apart_nothing
      exact ⟨.nothing, rfl, hbounded.outside (by simp) (by simp),
        hcounted.mark hapart apart_nothing (.inr ⟨r, rfl⟩)⟩
    rcases hp with ⟨clientId, rfl⟩ | ⟨clientId, rfl⟩
    · exact (ok_allowing clientId).mono hends
    · exact (ok_incrementing clientId).mono hends
  stop := by
    rintro i s log ls ⟨hbounded, hcounted⟩
    exact ⟨.nothing, rfl, hbounded.outside (by simp) (by simp), hcounted.stopped⟩
  env := fun _ _ _ _ _ h => h.elim

theorem givenUp_eq_zero {log : List (MetricsEntry I)} (h : ∀ i, .stop i ∉ log)
    (clientId : JString) : givenUp clientId log = 0 := by
  induction log with
  | nil => rfl
  | cons entry log ih =>
    have hlog := ih (fun i hi => h i (List.mem_cons_of_mem _ hi))
    cases entry with
    | stop i => exact absurd List.mem_cons_self (h i)
    | _ => exact hlog

/-- However the calls interleave: no more than 1000 clients are approved, and stay so; only they
have a counter; and a client's counter is at the number of increments made for it after its
approval, up to those under way and those given up. -/
theorem metrics_consistent {w : State I (Shared I) MetricsOp MetricsOp.Val Throwable Unit}
    (hw : (metricsSystem I).Reachable w) :
    w.store.metrics.approvedClients.Nodup ∧
    w.store.metrics.approvedClients.length ≤ maxApprovedClients ∧
    (∀ w', (metricsSystem I).Steps w w' → ∀ clientId ∈ w.store.metrics.approvedClients,
      clientId ∈ w'.store.metrics.approvedClients) ∧
    (∀ clientId, (w.store.metrics.issuanceCounters clientId).isSome →
      clientId ∈ w.store.metrics.approvedClients) ∧
    (∀ clientId, {i | UnderWay clientId i w.log}.Finite ∧
      (w.store.metrics.issuanceCounters clientId).getD 0 + {i | UnderWay clientId i w.log}.ncard +
        givenUp clientId w.log = made clientId w.log) ∧
    ((∀ i, w.proc i = none) → (∀ i, .stop i ∉ w.log) → ∀ clientId,
      (w.store.metrics.issuanceCounters clientId).getD 0 = made clientId w.log) := by
  obtain ⟨ls, ⟨hbounded, hcounted⟩, hprocs⟩ := valid_metricsOutline.reachable hw
  refine ⟨hbounded.nodup, hbounded.bound, fun w' hsteps => ?_, hcounted.counters,
    fun clientId => ⟨hcounted.finite clientId, hcounted.total clientId⟩, ?_⟩
  · exact valid_metricsOutline.steps_guar (fun _ _ h => h.elim)
      (fun _ _ _ h h' clientId hmem => h' clientId (h clientId hmem)) hw hsteps
  · intro hended hkept clientId
    have hnone : {i | UnderWay clientId i w.log} = ∅ := by
      rw [Set.eq_empty_iff_forall_notMem]
      intro i hi
      have hidle := hprocs i
      rw [hended i] at hidle
      have hapart : (ls i).Apart := by rw [show ls i = .nothing from hidle]; exact apart_nothing
      exact hcounted.not_underWay hapart clientId hi
    have htotal := hcounted.total clientId
    rw [hnone, Set.ncard_empty, givenUp_eq_zero hkept] at htotal
    exact htotal

end
end SystemMetrics

namespace Sample
open SystemMetrics

/-- One thread approves the client `a`, and another then counts a certificate of it. -/
def approving : List MetricsEvent :=
  [⟨.contains .allowMetricsForClientId (some (u "a")), .ok false⟩, ⟨.monitorEnter, .ok ()⟩,
    ⟨.contains .allowMetricsForClientId (some (u "a")), .ok false⟩, ⟨.size, .ok 0⟩,
    ⟨.add (some (u "a")), .ok ()⟩, ⟨.monitorExit, .ok ()⟩]

def issuing : List MetricsEvent :=
  [⟨.contains .incrementCertificateIssuanceCounter (some (u "a")), .ok true⟩,
    ⟨.computeIfAbsent (u "a"), .ok ()⟩, ⟨.increment (u "a"), .ok ()⟩]

def newMetrics : SystemMetrics := ⟨[], fun _ => none⟩

def countedMetrics : SystemMetrics :=
  ((newMetrics.add (u "a")).computeIfAbsent (u "a")).increment (u "a")

theorem runs_approving : Runs (allowing (some (u "a"))) approving (.ok ()) :=
  .call _ _ _ (.call _ _ _ (.call _ _ _ (.call _ _ _ (.call _ _ _ (.call _ _ _ (.ret ()))))))

theorem runs_issuing : Runs (incrementing (some (u "a"))) issuing (.ok ()) :=
  .call _ _ _ (.call _ _ _ (.call _ _ _ (.ret ())))

theorem serves_approving : (metricsSystem Bool).Serves true ⟨newMetrics, none⟩ approving
    ⟨newMetrics.add (u "a"), none⟩ :=
  .cons ⟨rfl, rfl⟩ (.cons ⟨.inl rfl, rfl, rfl⟩ (.cons ⟨rfl, rfl⟩ (.cons ⟨rfl, rfl⟩
    (.cons ⟨rfl, rfl⟩ (.cons ⟨rfl, rfl⟩ (.nil _))))))

theorem serves_issuing : (metricsSystem Bool).Serves false ⟨newMetrics.add (u "a"), none⟩ issuing
    ⟨countedMetrics, none⟩ :=
  .cons ⟨by decide, rfl⟩ (.cons ⟨rfl, rfl⟩ (.cons ⟨rfl, rfl⟩ (.nil _)))

theorem reachable_counted : ∃ log, (metricsSystem Bool).Reachable
    ⟨⟨countedMetrics, none⟩, fun _ => none, log⟩ ∧ ∀ i, .stop i ∉ log := by
  have hinit : (metricsSystem Bool).Reachable ⟨⟨newMetrics, none⟩, fun _ => none, []⟩ := .init _ rfl
  have hallow : (metricsSystem Bool).runs true (allowing (some (u "a"))) := .inl ⟨_, rfl⟩
  have hcount : (metricsSystem Bool).runs false (incrementing (some (u "a"))) := .inr ⟨_, rfl⟩
  have hfirst : (metricsSystem Bool).Steps ⟨⟨newMetrics, none⟩, fun _ => none, []⟩
      ⟨_, fun _ => none, _⟩ := System.Steps.run hallow runs_approving serves_approving rfl []
  have hsecond : (metricsSystem Bool).Steps ⟨_, fun _ => none, _⟩
      ⟨⟨countedMetrics, none⟩, fun _ => none, _⟩ :=
    System.Steps.run hcount runs_issuing serves_issuing rfl
      (.finish true (.ok ()) :: ((approving.map (.call true)).reverse ++ [.start true]))
  refine ⟨_, (hfirst.trans hsecond).reachable hinit, fun i => ?_⟩
  simp [approving, issuing]

end Sample

namespace SystemMetrics
open Sample

/-- The counter of `a` is at 1, for the one increment made. -/
theorem metrics_consistent_counted :
    ∃ w : State Bool (Shared Bool) MetricsOp MetricsOp.Val Throwable Unit,
      (metricsSystem Bool).Reachable w ∧ w.store.metrics.issuanceCounters (u "a") = some 1 ∧
        w.store.metrics.approvedClients.length ≤ maxApprovedClients ∧ made (u "a") w.log = 1 := by
  obtain ⟨log, hw, hkept⟩ := reachable_counted
  have hcount : countedMetrics.issuanceCounters (u "a") = some 1 := by decide
  obtain ⟨-, hbound, -, -, -, hmade⟩ := metrics_consistent hw
  refine ⟨_, hw, hcount, hbound, ?_⟩
  rw [← hmade (fun _ => rfl) hkept (u "a")]
  show (countedMetrics.issuanceCounters (u "a")).getD 0 = 1
  rw [hcount]
  rfl

end SystemMetrics
end Tca
