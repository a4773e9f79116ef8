import TransparentCa.Lib.Alone

/- Many programs over one shared store. A `System` says which programs each process may
   start, what each call may do to the store and answer (a relation, so a call may fail,
   or fail after its effect), and which changes come from outside. Every call is one
   atomic step; between two steps of a process any other process may step, and a process
   may stop for good or begin again at any point. The log keeps what happened, newest
   entry first.

   The proof rule is an invariant with a private state for each process (`Outline`): the
   invariant speaks of the store, the log and all private states, a process changes only
   its own, so what the invariant ties to a private state is stable under the steps of
   all others. `Ok i l p Q` checks a program step by step from the private state `l`, and
   `Outline.Valid.reachable` carries the invariant to every reachable state. -/
namespace Effects

structure System (I S Op : Type) (Val : Op → Type) (ε α : Type) where
  init : S → Prop
  runs : I → Prog Op Val ε α → Prop
  step : I → S → (o : Op) → Except ε (Val o) → S → Prop
  env : S → S → Prop

inductive Entry (I Op : Type) (Val : Op → Type) (ε α : Type) where
  | start (i : I)
  | call (i : I) (ev : Event Op Val ε)
  | finish (i : I) (out : Except ε α)
  | stop (i : I)
  | env

/-- The store, what is left of each process's current run (`none` between runs), and the
log. -/
structure State (I S Op : Type) (Val : Op → Type) (ε α : Type) where
  store : S
  proc : I → Option (Prog Op Val ε α)
  log : List (Entry I Op Val ε α)

variable {I S Op : Type} {Val : Op → Type} {ε α β L : Type} [DecidableEq I]

/-- What is private to one process after a step of process `i`: its new state, or as before. -/
theorem update_cases {ls : I → L} {i j : I} {l x : L} (h : Function.update ls i l j = x) :
    (j = i ∧ l = x) ∨ (j ≠ i ∧ ls j = x) := by
  by_cases hji : j = i
  · subst hji
    rw [Function.update_self] at h
    exact .inl ⟨rfl, h⟩
  · rw [Function.update_of_ne hji] at h
    exact .inr ⟨hji, h⟩

namespace System

variable (sys : System I S Op Val ε α)

inductive Step : State I S Op Val ε α → State I S Op Val ε α → Prop where
  | start (w : State I S Op Val ε α) (i : I) (p : Prog Op Val ε α) (hp : sys.runs i p)
      (hi : w.proc i = none) :
      Step w ⟨w.store, Function.update w.proc i (some p), .start i :: w.log⟩
  | call (w : State I S Op Val ε α) (i : I) (o : Op) (k : Except ε (Val o) → Prog Op Val ε α)
      (r : Except ε (Val o)) (s' : S) (hi : w.proc i = some (.call o k))
      (hs : sys.step i w.store o r s') :
      Step w ⟨s', Function.update w.proc i (some (k r)), .call i ⟨o, r⟩ :: w.log⟩
  | ret (w : State I S Op Val ε α) (i : I) (a : α) (hi : w.proc i = some (.ret a)) :
      Step w ⟨w.store, Function.update w.proc i none, .finish i (.ok a) :: w.log⟩
  | raise (w : State I S Op Val ε α) (i : I) (e : ε) (hi : w.proc i = some (.raise e)) :
      Step w ⟨w.store, Function.update w.proc i none, .finish i (.error e) :: w.log⟩
  | stop (w : State I S Op Val ε α) (i : I) (p : Prog Op Val ε α) (hi : w.proc i = some p) :
      Step w ⟨w.store, Function.update w.proc i none, .stop i :: w.log⟩
  | env (w : State I S Op Val ε α) (s' : S) (hs : sys.env w.store s') :
      Step w ⟨s', w.proc, .env :: w.log⟩

inductive Reachable : State I S Op Val ε α → Prop where
  | init (s : S) (hs : sys.init s) : Reachable ⟨s, fun _ => none, []⟩
  | step {w w' : State I S Op Val ε α} (hw : Reachable w) (h : sys.Step w w') : Reachable w'

/-- Zero or more steps. -/
inductive Steps : State I S Op Val ε α → State I S Op Val ε α → Prop where
  | refl (w : State I S Op Val ε α) : Steps w w
  | tail {w w' w'' : State I S Op Val ε α} (h : Steps w w') (hs : sys.Step w' w'') : Steps w w''

variable {sys}

theorem Steps.reachable {w w' : State I S Op Val ε α} (h : sys.Steps w w')
    (hw : sys.Reachable w) : sys.Reachable w' := by
  induction h with
  | refl => exact hw
  | tail _ hs ih => exact .step ih hs

/-- A step adds one entry to the log. -/
theorem Step.log_eq {w w' : State I S Op Val ε α} (h : sys.Step w w') :
    ∃ x, w'.log = x :: w.log := by
  cases h <;> exact ⟨_, rfl⟩

theorem Steps.log_suffix {w w' : State I S Op Val ε α} (h : sys.Steps w w') :
    w.log <:+ w'.log := by
  induction h with
  | refl => exact List.suffix_rfl
  | tail _ hs ih =>
    obtain ⟨x, hx⟩ := hs.log_eq
    rw [hx]
    exact ih.trans (List.suffix_cons x _)

/-- The newest entry of a reachable state was added by its last step. -/
theorem Reachable.pred {w : State I S Op Val ε α} (hw : sys.Reachable w)
    {x : Entry I Op Val ε α} {log : List (Entry I Op Val ε α)} (hlog : w.log = x :: log) :
    ∃ w₀, sys.Reachable w₀ ∧ w₀.log = log ∧ sys.Step w₀ w := by
  cases hw with
  | init s hs => cases hlog
  | step hw₀ h =>
    obtain ⟨y, hy⟩ := h.log_eq
    rw [hy, List.cons.injEq] at hlog
    exact ⟨_, hw₀, hlog.2, h⟩

/-- Ending a run does not touch the store. -/
theorem Step.store_eq {w w' : State I S Op Val ε α} (h : sys.Step w w') {i : I}
    {log : List (Entry I Op Val ε α)}
    (hlog : w'.log = .stop i :: log ∨ ∃ out, w'.log = .finish i out :: log) :
    w'.store = w.store := by
  cases h with
  | call => rcases hlog with hlog | ⟨_, hlog⟩ <;> cases hlog
  | env => rcases hlog with hlog | ⟨_, hlog⟩ <;> cases hlog
  | _ => rfl

/-! ## What happened in a run -/

/-- An earlier state of the same execution. -/
theorem Reachable.split {w : State I S Op Val ε α} (hw : sys.Reachable w)
    {later earlier : List (Entry I Op Val ε α)} (hlog : w.log = later ++ earlier) :
    ∃ w₀, sys.Reachable w₀ ∧ w₀.log = earlier ∧ sys.Steps w₀ w := by
  induction later generalizing w with
  | nil => exact ⟨w, hw, hlog, .refl w⟩
  | cons entry later ih =>
    obtain ⟨w₁, hw₁, hlog₁, hstep⟩ := hw.pred hlog
    obtain ⟨w₀, hw₀, hlog₀, hsteps⟩ := ih hw₁ hlog₁
    exact ⟨w₀, hw₀, hlog₀, .tail hsteps hstep⟩

/-- The state in which a logged call was answered. -/
theorem Reachable.answered {w : State I S Op Val ε α} (hw : sys.Reachable w) {i : I}
    {ev : Event Op Val ε} {later earlier : List (Entry I Op Val ε α)}
    (hlog : w.log = later ++ .call i ev :: earlier) :
    ∃ w₀ w₁, sys.Reachable w₀ ∧ w₀.log = earlier ∧ sys.Step w₀ w₁ ∧ sys.Steps w₁ w ∧
      sys.step i w₀.store ev.op ev.ans w₁.store := by
  obtain ⟨w₁, hw₁, hlog₁, hsteps⟩ := hw.split hlog
  obtain ⟨w₀, hw₀, hlog₀, hstep⟩ := hw₁.pred hlog₁
  refine ⟨w₀, w₁, hw₀, hlog₀, hstep, hsteps, ?_⟩
  cases hstep with
  | call j o k r s' hj hs =>
    obtain ⟨rfl, rfl⟩ := Entry.call.inj (List.cons.inj hlog₁).1
    exact hs
  | _ => cases (List.cons.inj hlog₁).1

/-- What no call changes is the same as long as nothing comes from outside. -/
theorem Reachable.split_view {V : Type} {view : S → V}
    (hview : ∀ i s o r s', sys.step i s o r s' → view s' = view s) {w : State I S Op Val ε α}
    (hw : sys.Reachable w) {later earlier : List (Entry I Op Val ε α)}
    (hlog : w.log = later ++ earlier) (henv : .env ∉ later) :
    ∃ w₀, sys.Reachable w₀ ∧ w₀.log = earlier ∧ sys.Steps w₀ w ∧ view w₀.store = view w.store := by
  induction later generalizing w with
  | nil => exact ⟨w, hw, hlog, .refl w, rfl⟩
  | cons entry later ih =>
    rw [List.mem_cons, not_or] at henv
    obtain ⟨w₁, hw₁, hlog₁, hstep⟩ := hw.pred hlog
    obtain ⟨w₀, hw₀, hlog₀, hsteps, heq⟩ := ih hw₁ hlog₁ henv.2
    refine ⟨w₀, hw₀, hlog₀, .tail hsteps hstep, ?_⟩
    rw [heq]
    cases hstep with
    | call i o k r s' hi hs => exact (hview i _ o r s' hs).symm
    | env s' hs => exact absurd (List.cons.inj hlog).1 henv.1
    | _ => rfl

theorem Reachable.answered_view {V : Type} {view : S → V}
    (hview : ∀ i s o r s', sys.step i s o r s' → view s' = view s) {w : State I S Op Val ε α}
    (hw : sys.Reachable w) {i : I} {ev : Event Op Val ε}
    {later earlier : List (Entry I Op Val ε α)} (hlog : w.log = later ++ .call i ev :: earlier)
    (henv : .env ∉ later) :
    ∃ w₀ w₁, sys.Reachable w₀ ∧ sys.Step w₀ w₁ ∧ sys.Steps w₁ w ∧
      sys.step i w₀.store ev.op ev.ans w₁.store ∧ view w₀.store = view w.store := by
  obtain ⟨w₁, hw₁, hlog₁, hsteps, heq⟩ := hw.split_view hview hlog henv
  obtain ⟨w₀, hw₀, hlog₀, hstep⟩ := hw₁.pred hlog₁
  have hans : sys.step i w₀.store ev.op ev.ans w₁.store := by
    cases hstep with
    | call j o k r s' hj hs =>
      obtain ⟨rfl, rfl⟩ := Entry.call.inj (List.cons.inj hlog₁).1
      exact hs
    | _ => cases (List.cons.inj hlog₁).1
  exact ⟨w₀, w₁, hw₀, hstep, hsteps, hans, (hview i _ _ _ _ hans).symm.trans heq⟩

/-- The calls of process `i` in a piece of log, oldest first. -/
def callsOf (i : I) (log : List (Entry I Op Val ε α)) : List (Event Op Val ε) :=
  log.reverse.filterMap (fun entry => match entry with
    | .call j ev => if j = i then some ev else none
    | _ => none)

theorem callsOf_call_self (i : I) (ev : Event Op Val ε) (log : List (Entry I Op Val ε α)) :
    callsOf i (.call i ev :: log) = callsOf i log ++ [ev] := by
  simp [callsOf]

theorem callsOf_append (i : I) (log log' : List (Entry I Op Val ε α)) :
    callsOf i (log ++ log') = callsOf i log' ++ callsOf i log := by
  simp [callsOf]

theorem mem_callsOf {i : I} {ev : Event Op Val ε} {log : List (Entry I Op Val ε α)} :
    ev ∈ callsOf i log ↔ .call i ev ∈ log := by
  unfold callsOf
  rw [List.mem_filterMap]
  refine ⟨fun h => ?_, fun h => ⟨_, List.mem_reverse.mpr h, by simp⟩⟩
  obtain ⟨entry, hmem, hentry⟩ := h
  split at hentry
  · next j ev' =>
    split at hentry
    · next hj =>
      rw [← hj, ← Option.some.inj hentry]
      exact List.mem_reverse.mp hmem
    · cases hentry
  · cases hentry

theorem callsOf_eq_append {i : I} {log : List (Entry I Op Val ε α)} {t₁ t₂ : List (Event Op Val ε)}
    (h : callsOf i log = t₁ ++ t₂) :
    ∃ newer older, log = newer ++ older ∧ callsOf i older = t₁ ∧ callsOf i newer = t₂ := by
  obtain ⟨first, second, hlog, h₁, h₂⟩ := List.filterMap_eq_append_iff.mp h
  refine ⟨second.reverse, first.reverse, ?_, ?_, ?_⟩
  · rw [← List.reverse_append, ← hlog, List.reverse_reverse]
  · rwa [callsOf, List.reverse_reverse]
  · rwa [callsOf, List.reverse_reverse]

/-- What process `i` still has to run, `q`, is what the calls it made since its last start
left of a program it may run. -/
def InRun (sys : System I S Op Val ε α) (i : I) (q : Prog Op Val ε α)
    (log : List (Entry I Op Val ε α)) : Prop :=
  ∃ p run before, log = run ++ .start i :: before ∧ .start i ∉ run ∧ sys.runs i p ∧
    ∀ tr out, q.Runs tr out → p.Runs (callsOf i run ++ tr) out

/-- An entry that is not of process `i` leaves its run where it was. -/
theorem InRun.other {i : I} {q : Prog Op Val ε α} {log : List (Entry I Op Val ε α)}
    (h : InRun sys i q log) {entry : Entry I Op Val ε α} (hstart : entry ≠ .start i)
    (hcall : ∀ ev, entry ≠ .call i ev) : InRun sys i q (entry :: log) := by
  obtain ⟨p, run, before, rfl, hrun, hp, hruns⟩ := h
  refine ⟨p, entry :: run, before, rfl, ?_, hp, ?_⟩
  · rw [List.mem_cons, not_or]
    exact ⟨fun heq => hstart heq.symm, hrun⟩
  · have hsame : callsOf i (entry :: run) = callsOf i run := by
      cases entry with
      | call j ev =>
        have hji : j ≠ i := fun heq => hcall ev (by rw [heq])
        simp [callsOf, hji]
      | _ => simp [callsOf]
    rw [hsame]
    exact hruns

theorem Reachable.inRun {w : State I S Op Val ε α} (hw : sys.Reachable w) {i : I}
    {q : Prog Op Val ε α} (hq : w.proc i = some q) : InRun sys i q w.log := by
  induction hw generalizing q with
  | init s hs => cases hq
  | @step w w' _ h ih =>
    cases h with
    | start j p hp hj =>
      rcases update_cases hq with ⟨rfl, heq⟩ | ⟨hij, hq⟩
      · obtain rfl := Option.some.inj heq
        exact ⟨p, [], w.log, rfl, List.not_mem_nil, hp, fun _ _ hr => hr⟩
      · exact (ih hq).other (fun heq => hij (Entry.start.inj heq).symm) (fun _ heq => by cases heq)
    | call j o k r s' hj hs =>
      rcases update_cases hq with ⟨rfl, heq⟩ | ⟨hij, hq⟩
      · obtain rfl := Option.some.inj heq
        obtain ⟨p, run, before, hlog, hrun, hp, hruns⟩ := ih hj
        refine ⟨p, .call i ⟨o, r⟩ :: run, before, by rw [hlog]; rfl, ?_, hp, ?_⟩
        · rw [List.mem_cons, not_or]
          exact ⟨(by intro heq; cases heq), hrun⟩
        · intro tr out hr
          rw [callsOf_call_self, List.append_assoc]
          exact hruns _ out (.call o k r hr)
      · exact (ih hq).other (fun heq => by cases heq)
          (fun _ heq => hij (Entry.call.inj heq).1.symm)
    | ret j a hj =>
      rcases update_cases hq with ⟨-, hnone⟩ | ⟨-, hq⟩
      · cases hnone
      · exact (ih hq).other (fun heq => by cases heq) (fun _ heq => by cases heq)
    | raise j e hj =>
      rcases update_cases hq with ⟨-, hnone⟩ | ⟨-, hq⟩
      · cases hnone
      · exact (ih hq).other (fun heq => by cases heq) (fun _ heq => by cases heq)
    | stop j p hj =>
      rcases update_cases hq with ⟨-, hnone⟩ | ⟨-, hq⟩
      · cases hnone
      · exact (ih hq).other (fun heq => by cases heq) (fun _ heq => by cases heq)
    | env s' hs =>
      exact (ih hq).other (fun heq => by cases heq) (fun _ heq => by cases heq)

/-- A process that ended made, since its last start, the calls of a run of a program it may
run, and ended as that run does. -/
theorem Reachable.finished {w : State I S Op Val ε α} (hw : sys.Reachable w) {i : I}
    {out : Except ε α} {later run before : List (Entry I Op Val ε α)}
    (hlog : w.log = later ++ .finish i out :: (run ++ .start i :: before))
    (hrun : .start i ∉ run) : ∃ p, sys.runs i p ∧ p.Runs (callsOf i run) out := by
  obtain ⟨w₁, hw₁, hlog₁, -⟩ := hw.split hlog
  obtain ⟨w₀, hw₀, hlog₀, hstep⟩ := hw₁.pred hlog₁
  have hended : ∃ q, w₀.proc i = some q ∧ q.Runs [] out := by
    cases hstep with
    | ret j a hj =>
      obtain ⟨rfl, rfl⟩ := Entry.finish.inj (List.cons.inj hlog₁).1
      exact ⟨_, hj, .ret a⟩
    | raise j e hj =>
      obtain ⟨rfl, rfl⟩ := Entry.finish.inj (List.cons.inj hlog₁).1
      exact ⟨_, hj, .raise e⟩
    | _ => cases (List.cons.inj hlog₁).1
  obtain ⟨q, hq, hqruns⟩ := hended
  obtain ⟨p, run', before', hlog', hrun', hp, hruns⟩ := hw₀.inRun hq
  rw [hlog₀] at hlog'
  obtain rfl : run = run' := by
    rcases List.append_eq_append_iff.mp hlog' with ⟨l, rfl, hl⟩ | ⟨l, rfl, hl⟩
    · cases l with
      | nil => simp
      | cons x l =>
        rw [List.cons_append, List.cons.injEq] at hl
        exact absurd (by rw [← hl.1]; simp) hrun'
    · cases l with
      | nil => simp
      | cons x l =>
        rw [List.cons_append, List.cons.injEq] at hl
        exact absurd (by rw [← hl.1]; simp) hrun
  refine ⟨p, hp, ?_⟩
  have hwhole := hruns [] out hqruns
  rwa [List.append_nil] at hwhole

/-- The same, told from one of its calls on. -/
theorem Reachable.finished_since {w : State I S Op Val ε α} (hw : sys.Reachable w) {i : I}
    {out : Except ε α} {ev : Event Op Val ε} {later since before : List (Entry I Op Val ε α)}
    (hlog : w.log = later ++ .finish i out :: (since ++ .call i ev :: before))
    (hsince : .start i ∉ since) :
    ∃ p tr, sys.runs i p ∧ p.Runs (tr ++ ev :: callsOf i since) out := by
  have hlog' : w.log = (later ++ .finish i out :: since) ++ .call i ev :: before := by
    rw [hlog]
    simp
  obtain ⟨w₁, hw₁, hlog₁, -⟩ := hw.split hlog'
  obtain ⟨w₀, hw₀, hlog₀, hstep⟩ := hw₁.pred hlog₁
  have hproc : ∃ q, w₀.proc i = some q := by
    cases hstep with
    | call j o k r s' hj hs =>
      obtain ⟨rfl, rfl⟩ := Entry.call.inj (List.cons.inj hlog₁).1
      exact ⟨_, hj⟩
    | _ => cases (List.cons.inj hlog₁).1
  obtain ⟨q, hq⟩ := hproc
  obtain ⟨-, run, before', hbefore, hrun, -, -⟩ := hw₀.inRun hq
  rw [hlog₀] at hbefore
  subst hbefore
  have hwhole : w.log = later ++ .finish i out ::
      ((since ++ .call i ev :: run) ++ .start i :: before') := by
    rw [hlog]
    simp
  have hstart : .start i ∉ since ++ .call i ev :: run := by
    simp only [List.mem_append, List.mem_cons, not_or]
    exact ⟨hsince, (by intro heq; cases heq), hrun⟩
  obtain ⟨p, hp, hruns⟩ := hw.finished hwhole hstart
  refine ⟨p, callsOf i run, hp, ?_⟩
  rw [callsOf_append, callsOf_call_self, List.append_assoc, List.singleton_append] at hruns
  exact hruns

/-- Every program runs to an end if whatever it calls answers. -/
theorem exists_runs [Inhabited ε] (p : Prog Op Val ε β) : ∃ tr out, p.Runs tr out := by
  induction p with
  | ret a => exact ⟨[], .ok a, .ret a⟩
  | raise e => exact ⟨[], .error e, .raise e⟩
  | call o k ih =>
    obtain ⟨tr, out, h⟩ := ih (.error default)
    exact ⟨_, out, .call o k _ h⟩

/-- A logged call stands in a run of a program that the process may run, after the calls that
it made since its last start. -/
theorem Reachable.called [Inhabited ε] {w : State I S Op Val ε α} (hw : sys.Reachable w) {i : I}
    {ev : Event Op Val ε} {later earlier : List (Entry I Op Val ε α)}
    (hlog : w.log = later ++ .call i ev :: earlier) :
    ∃ p run before tr out, earlier = run ++ .start i :: before ∧ .start i ∉ run ∧ sys.runs i p ∧
      p.Runs (callsOf i run ++ ev :: tr) out := by
  obtain ⟨w₁, hw₁, hlog₁, -⟩ := hw.split hlog
  obtain ⟨w₀, hw₀, hlog₀, hstep⟩ := hw₁.pred hlog₁
  have hproc : ∃ o k, w₀.proc i = some (.call o k) ∧ ev.op = o := by
    cases hstep with
    | call j o k r s' hj hs =>
      obtain ⟨rfl, rfl⟩ := Entry.call.inj (List.cons.inj hlog₁).1
      exact ⟨o, k, hj, rfl⟩
    | _ => cases (List.cons.inj hlog₁).1
  obtain ⟨o, k, hcall, rfl⟩ := hproc
  obtain ⟨p, run, before, hbefore, hrun, hp, hruns⟩ := hw₀.inRun hcall
  obtain ⟨tr, out, hrest⟩ := exists_runs (k ev.ans)
  exact ⟨p, run, before, tr, out, hlog₀.symm.trans hbefore, hrun, hp,
    hruns _ out (.call ev.op k ev.ans hrest)⟩

/-! ## One process at a time -/

/-- The calls of `tr`, answered for process `i` one after the other. -/
abbrev Serves (sys : System I S Op Val ε α) (i : I) : S → List (Event Op Val ε) → S → Prop :=
  Served (sys.step i)

theorem Steps.trans {w w' w'' : State I S Op Val ε α} (h : sys.Steps w w')
    (h' : sys.Steps w' w'') : sys.Steps w w'' := by
  induction h' with
  | refl => exact h
  | tail _ hs ih => exact .tail ih hs

theorem Steps.single {w w' : State I S Op Val ε α} (h : sys.Step w w') : sys.Steps w w' :=
  .tail (.refl w) h

/-- Process `i` runs on to its end while the others wait. -/
theorem Steps.of_runs {i : I} {p : Prog Op Val ε α} {tr : List (Event Op Val ε)}
    {out : Except ε α} (hr : p.Runs tr out) {s s' : S} (hs : sys.Serves i s tr s')
    (proc : I → Option (Prog Op Val ε α)) (log : List (Entry I Op Val ε α)) :
    sys.Steps ⟨s, Function.update proc i (some p), log⟩
      ⟨s', Function.update proc i none, .finish i out :: ((tr.map (.call i)).reverse ++ log)⟩ := by
  induction hr generalizing s log with
  | ret a =>
    cases hs
    have h : sys.Step ⟨s', Function.update proc i (some (.ret a)), log⟩ _ :=
      .ret _ i a (Function.update_self ..)
    simp only [Function.update_idem] at h
    exact .single h
  | raise e =>
    cases hs
    have h : sys.Step ⟨s', Function.update proc i (some (.raise e)), log⟩ _ :=
      .raise _ i e (Function.update_self ..)
    simp only [Function.update_idem] at h
    exact .single h
  | call o k r _ ih =>
    cases hs with
    | cons hstep hserves =>
      have h : sys.Step ⟨s, Function.update proc i (some (.call o k)), log⟩ _ :=
        .call _ i o k r _ (Function.update_self ..) hstep
      simp only [Function.update_idem] at h
      have hrest := ih hserves (.call i ⟨o, r⟩ :: log)
      simp only [List.map_cons, List.reverse_cons, List.append_assoc, List.singleton_append]
      exact Steps.trans (.single h) hrest

/-- A whole run of process `i`, from its start to its end. -/
theorem Steps.run {i : I} {p : Prog Op Val ε α} (hp : sys.runs i p)
    {tr : List (Event Op Val ε)} {out : Except ε α} (hr : p.Runs tr out) {s s' : S}
    (hs : sys.Serves i s tr s') {proc : I → Option (Prog Op Val ε α)} (hi : proc i = none)
    (log : List (Entry I Op Val ε α)) :
    sys.Steps ⟨s, proc, log⟩
      ⟨s', proc, .finish i out :: ((tr.map (.call i)).reverse ++ .start i :: log)⟩ := by
  have hrun := Steps.of_runs hr hs proc (.start i :: log)
  have hnone : Function.update proc i none = proc := by
    rw [← hi]
    exact Function.update_eq_self i proc
  rw [hnone] at hrun
  exact Steps.trans (.single (.start _ i p hp hi)) hrun

/-- Process `i` makes the calls of `tr` while the others wait, and pauses. -/
theorem Steps.of_leads {i : I} {p q : Prog Op Val ε α} {tr : List (Event Op Val ε)}
    (h : p.Leads tr q) {s s' : S} (hs : sys.Serves i s tr s')
    (proc : I → Option (Prog Op Val ε α)) (log : List (Entry I Op Val ε α)) :
    sys.Steps ⟨s, Function.update proc i (some p), log⟩
      ⟨s', Function.update proc i (some q), (tr.map (.call i)).reverse ++ log⟩ := by
  induction h generalizing s log with
  | nil p =>
    cases hs
    exact .refl _
  | call o k r _ ih =>
    cases hs with
    | cons hstep hserves =>
      have h : sys.Step ⟨s, Function.update proc i (some (.call o k)), log⟩ _ :=
        .call _ i o k r _ (Function.update_self ..) hstep
      simp only [Function.update_idem] at h
      have hrest := ih hserves (.call i ⟨o, r⟩ :: log)
      simp only [List.map_cons, List.reverse_cons, List.append_assoc, List.singleton_append]
      exact Steps.trans (.single h) hrest

/-- Process `i` starts, makes the first calls of a run and pauses. -/
theorem Steps.pause {i : I} {p : Prog Op Val ε α} (hp : sys.runs i p)
    {tr tr' : List (Event Op Val ε)} {out : Except ε α} (hr : p.Runs (tr ++ tr') out) {s s' : S}
    (hs : sys.Serves i s tr s') {proc : I → Option (Prog Op Val ε α)} (hi : proc i = none)
    (log : List (Entry I Op Val ε α)) :
    ∃ q log', q.Runs tr' out ∧
      sys.Steps ⟨s, proc, log⟩ ⟨s', Function.update proc i (some q), log'⟩ := by
  obtain ⟨q, hlead, hrest⟩ := hr.leads
  have hrun := Steps.of_leads hlead hs proc (.start i :: log)
  exact ⟨q, _, hrest, Steps.trans (.single (.start _ i p hp hi)) hrun⟩

/-- A paused process makes its next call. -/
theorem Step.of_paused {i : I} {q : Prog Op Val ε α} {ev : Event Op Val ε}
    {tr : List (Event Op Val ε)} {out : Except ε α} (hr : q.Runs (ev :: tr) out) {s s' : S}
    (hs : sys.step i s ev.op ev.ans s') (proc : I → Option (Prog Op Val ε α))
    (log : List (Entry I Op Val ε α)) :
    ∃ q', q'.Runs tr out ∧ sys.Step ⟨s, Function.update proc i (some q), log⟩
      ⟨s', Function.update proc i (some q'), .call i ev :: log⟩ := by
  cases hr with
  | call o k r hrest =>
    have h : sys.Step ⟨s, Function.update proc i (some (.call o k)), log⟩ _ :=
      .call _ i o k r s' (Function.update_self ..) hs
    simp only [Function.update_idem] at h
    exact ⟨k r, hrest, h⟩

/-- A paused process goes on to its end. -/
theorem Steps.resume {i : I} {q : Prog Op Val ε α} {tr : List (Event Op Val ε)}
    {out : Except ε α} (hr : q.Runs tr out) {s s' : S} (hs : sys.Serves i s tr s')
    {proc : I → Option (Prog Op Val ε α)} (hi : proc i = none)
    (log : List (Entry I Op Val ε α)) :
    ∃ log', sys.Steps ⟨s, Function.update proc i (some q), log⟩ ⟨s', proc, log'⟩ := by
  have hrun := Steps.of_runs hr hs proc log
  have hnone : Function.update proc i none = proc := by
    rw [← hi]
    exact Function.update_eq_self i proc
  rw [hnone] at hrun
  exact ⟨_, hrun⟩

/-- From `w` to `w'` process `i` starts `p`, runs it, and ends as `out`. -/
def Spans (sys : System I S Op Val ε α) (i : I) (p : Prog Op Val ε α) (out : Except ε α)
    (w w' : State I S Op Val ε α) : Prop :=
  ∃ w₁ w₂ run, sys.Step w w₁ ∧ w₁.log = .start i :: w.log ∧ w₁.proc i = some p ∧
    sys.Steps w₁ w₂ ∧ w₂.log = run ++ w₁.log ∧ .start i ∉ run ∧
    sys.Step w₂ w' ∧ w'.log = .finish i out :: w₂.log

theorem Spans.steps {i : I} {p : Prog Op Val ε α} {out : Except ε α}
    {w w' : State I S Op Val ε α} (h : sys.Spans i p out w w') : sys.Steps w w' := by
  obtain ⟨w₁, w₂, run, hstart, -, -, hrun, -, -, hfinish, -⟩ := h
  exact (Steps.trans (.single hstart) hrun).trans (.single hfinish)

/-- The calls made meanwhile are those of a run of a program of process `i`. -/
theorem Spans.runs {i : I} {p : Prog Op Val ε α} {out : Except ε α}
    {w w' : State I S Op Val ε α} (h : sys.Spans i p out w w') (hw : sys.Reachable w) :
    ∃ q run, w'.log = .finish i out :: (run ++ .start i :: w.log) ∧ sys.runs i q ∧
      q.Runs (callsOf i run) out := by
  have hw' := h.steps.reachable hw
  obtain ⟨w₁, w₂, run, -, hlog₁, -, -, hlog₂, hnot, -, hlog⟩ := h
  rw [hlog₂, hlog₁] at hlog
  have hended : w'.log = [] ++ .finish i out :: (run ++ .start i :: w.log) := hlog
  obtain ⟨q, hq, hrun⟩ := hw'.finished hended hnot
  exact ⟨q, run, hlog, hq, hrun⟩

/-- A whole run while the others wait. -/
theorem Spans.of_runs {i : I} {p : Prog Op Val ε α} (hp : sys.runs i p)
    {tr : List (Event Op Val ε)} {out : Except ε α} (hr : p.Runs tr out) {s s' : S}
    (hs : sys.Serves i s tr s') {proc : I → Option (Prog Op Val ε α)} (hi : proc i = none)
    (log : List (Entry I Op Val ε α)) :
    ∃ proc' log', sys.Spans i p out ⟨s, proc, log⟩ ⟨s', proc', log'⟩ := by
  rw [← List.append_nil tr] at hr
  obtain ⟨q, hlead, hrest⟩ := hr.leads
  have hsteps := Steps.of_leads hlead hs proc (.start i :: log)
  have hnot : Entry.start i ∉ (tr.map (Entry.call (α := α) i)).reverse := by
    simp
  have hself : (Function.update proc i (some q)) i = some q := Function.update_self ..
  cases hrest with
  | ret a =>
    exact ⟨_, _, _, _, _, .start _ i p hp hi, rfl, Function.update_self .., hsteps, rfl, hnot,
      .ret _ i a hself, rfl⟩
  | raise e =>
    exact ⟨_, _, _, _, _, .start _ i p hp hi, rfl, Function.update_self .., hsteps, rfl, hnot,
      .raise _ i e hself, rfl⟩

/-- Two whole runs, each in two parts that alternate. -/
theorem Steps.overlap {i j : I} (hij : i ≠ j) {p q : Prog Op Val ε α} (hp : sys.runs i p)
    (hq : sys.runs j q) {tp₁ tp₂ tq₁ tq₂ : List (Event Op Val ε)} {outp outq : Except ε α}
    (hrp : p.Runs (tp₁ ++ tp₂) outp) (hrq : q.Runs (tq₁ ++ tq₂) outq) {s s₁ s₂ s₃ s₄ : S}
    (h₁ : sys.Serves i s tp₁ s₁) (h₂ : sys.Serves j s₁ tq₁ s₂) (h₃ : sys.Serves i s₂ tp₂ s₃)
    (h₄ : sys.Serves j s₃ tq₂ s₄) {proc : I → Option (Prog Op Val ε α)} (hi : proc i = none)
    (hj : proc j = none) (log : List (Entry I Op Val ε α)) :
    ∃ log', sys.Steps ⟨s, proc, log⟩ ⟨s₄, proc, log'⟩ := by
  obtain ⟨p', log₁, hrestp, hfirst⟩ := Steps.pause hp hrp h₁ hi log
  have hjfree : Function.update proc i (some p') j = none := by
    rw [Function.update_of_ne hij.symm, hj]
  obtain ⟨q', log₂, hrestq, hsecond⟩ := Steps.pause hq hrq h₂ hjfree log₁
  rw [Function.update_comm hij] at hsecond
  have hifree : Function.update proc j (some q') i = none := by
    rw [Function.update_of_ne hij, hi]
  obtain ⟨log₃, hthird⟩ := Steps.resume hrestp h₃ hifree log₂
  obtain ⟨log₄, hlast⟩ := Steps.resume hrestq h₄ hj log₃
  exact ⟨log₄, (hfirst.trans hsecond).trans (hthird.trans hlast)⟩

section
variable {T : Type} (serve : T → (o : Op) → Except ε (Val o) × T)

/-- A whole run against a server. -/
theorem Steps.drive {abs : T → S} {i : I}
    (h : ∀ t o, sys.step i (abs t) o (serve t o).1 (abs (serve t o).2)) {p : Prog Op Val ε α}
    (hp : sys.runs i p) (t : T) {proc : I → Option (Prog Op Val ε α)} (hi : proc i = none)
    (log : List (Entry I Op Val ε α)) :
    sys.Steps ⟨abs t, proc, log⟩
      ⟨abs (drive serve p t).2.2, proc, .finish i (drive serve p t).1 ::
        (((drive serve p t).2.1.map (.call i)).reverse ++ .start i :: log)⟩ :=
  Steps.run hp (runs_drive serve p t) (served_drive abs h p t) hi log

end
end System

/-- A proof outline: the invariant, the private states a process may have between runs,
and what a call may do to the store. -/
structure Outline (I S Op : Type) (Val : Op → Type) (ε α L : Type) where
  inv : S → List (Entry I Op Val ε α) → (I → L) → Prop
  idle : L → Prop
  guar : S → S → Prop

namespace Outline

variable (sys : System I S Op Val ε α) (P : Outline I S Op Val ε α L)

/-- From the private state `l`, process `i` can run `p` with the invariant kept at every
call, and ends in a private state that `Q` allows for the outcome. -/
def Ok (i : I) : L → Prog Op Val ε β → (L → Except ε β → Prop) → Prop
  | l, .ret a, Q => Q l (.ok a)
  | l, .raise e, Q => Q l (.error e)
  | l, .call o k, Q => ∀ s log ls, P.inv s log ls → ls i = l → ∀ r s', sys.step i s o r s' →
      P.guar s s' ∧ ∃ l', P.inv s' (.call i ⟨o, r⟩ :: log) (Function.update ls i l') ∧
        Ok i l' (k r) Q

/-- A run of process `i` may end as `out` in the private state `l`. -/
def Ends (i : I) (l : L) (out : Except ε α) : Prop :=
  ∀ s log ls, P.inv s log ls → ls i = l →
    ∃ l', P.idle l' ∧ P.inv s (.finish i out :: log) (Function.update ls i l')

structure Valid : Prop where
  guar_refl : ∀ s, P.guar s s
  init : ∀ s, sys.init s → ∃ ls, P.inv s [] ls ∧ ∀ i, P.idle (ls i)
  start : ∀ i p s log ls, sys.runs i p → P.inv s log ls → P.idle (ls i) →
    ∃ l, P.inv s (.start i :: log) (Function.update ls i l) ∧ P.Ok sys i l p (P.Ends i)
  stop : ∀ i s log ls, P.inv s log ls →
    ∃ l, P.idle l ∧ P.inv s (.stop i :: log) (Function.update ls i l)
  env : ∀ s s' log ls, P.inv s log ls → sys.env s s' → P.inv s' (.env :: log) ls

variable {sys P}

namespace Ok

variable {i : I} {l : L}

theorem mono {p : Prog Op Val ε β} {Q Q' : L → Except ε β → Prop} (hp : P.Ok sys i l p Q)
    (h : ∀ l r, Q l r → Q' l r) : P.Ok sys i l p Q' := by
  induction p generalizing l with
  | ret a => exact h _ _ hp
  | raise e => exact h _ _ hp
  | call o k ih =>
    intro s log ls hinv hl r s' hs
    obtain ⟨hg, l', hinv', hk⟩ := hp s log ls hinv hl r s' hs
    exact ⟨hg, l', hinv', ih r hk⟩

theorem bind {γ : Type} {p : Prog Op Val ε β} {f : β → Prog Op Val ε γ}
    {Q : L → Except ε γ → Prop}
    (hp : P.Ok sys i l p (fun l' r => match r with
      | .ok b => P.Ok sys i l' (f b) Q
      | .error e => Q l' (.error e))) : P.Ok sys i l (p.bind f) Q := by
  induction p generalizing l with
  | ret a => exact hp
  | raise e => exact hp
  | call o k ih =>
    intro s log ls hinv hl r s' hs
    obtain ⟨hg, l', hinv', hk⟩ := hp s log ls hinv hl r s' hs
    exact ⟨hg, l', hinv', ih r hk⟩

/-- The rule of sequence: what comes second starts from what the first leaves. -/
theorem seq {γ : Type} {p : Prog Op Val ε β} {f : β → Prog Op Val ε γ}
    {R : L → Except ε β → Prop} {Q : L → Except ε γ → Prop} (hp : P.Ok sys i l p R)
    (hok : ∀ l' b, R l' (.ok b) → P.Ok sys i l' (f b) Q)
    (herror : ∀ l' e, R l' (.error e) → Q l' (.error e)) : P.Ok sys i l (p.bind f) Q := by
  refine bind (hp.mono (fun l' r hr => ?_))
  cases r with
  | ok b => exact hok l' b hr
  | error e => exact herror l' e hr

theorem handle {p : Prog Op Val ε β} {h : ε → Prog Op Val ε β} {Q : L → Except ε β → Prop}
    (hp : P.Ok sys i l p (fun l' r => match r with
      | .ok b => Q l' (.ok b)
      | .error e => P.Ok sys i l' (h e) Q)) : P.Ok sys i l (p.handle h) Q := by
  induction p generalizing l with
  | ret a => exact hp
  | raise e => exact hp
  | call o k ih =>
    intro s log ls hinv hl r s' hs
    obtain ⟨hg, l', hinv', hk⟩ := hp s log ls hinv hl r s' hs
    exact ⟨hg, l', hinv', ih r hk⟩

theorem ofExcept {x : Except ε β} {Q : L → Except ε β → Prop} (h : Q l x) :
    P.Ok sys i l (Prog.ofExcept x) Q := by
  cases x <;> exact h

theorem finallyDo {p : Prog Op Val ε β} {q : Prog Op Val ε Unit} {Q : L → Except ε β → Prop}
    (hp : P.Ok sys i l p (fun l' r => P.Ok sys i l' (q.bind (fun _ => Prog.ofExcept r)) Q)) :
    P.Ok sys i l (p.finallyDo q) Q := by
  refine bind (handle (bind (hp.mono (fun l' r hr => ?_))))
  cases r with
  | ok b => exact hr
  | error e => exact hr

theorem invoke {o : Op} {Q : L → Except ε (Val o) → Prop}
    (h : ∀ s log ls, P.inv s log ls → ls i = l → ∀ r s', sys.step i s o r s' →
      P.guar s s' ∧ ∃ l', P.inv s' (.call i ⟨o, r⟩ :: log) (Function.update ls i l') ∧ Q l' r) :
    P.Ok sys i l (Prog.invoke o) Q := by
  intro s log ls hinv hl r s' hs
  obtain ⟨hg, l', hinv', hq⟩ := h s log ls hinv hl r s' hs
  refine ⟨hg, l', hinv', ?_⟩
  cases r <;> exact hq

/-- A call that does not move the private state. -/
theorem invoke_keep {o : Op} {Q : L → Except ε (Val o) → Prop}
    (h : ∀ s log ls, P.inv s log ls → ls i = l → ∀ r s', sys.step i s o r s' →
      P.guar s s' ∧ P.inv s' (.call i ⟨o, r⟩ :: log) ls ∧ Q l r) :
    P.Ok sys i l (Prog.invoke o) Q := by
  apply invoke
  intro s log ls hinv hl r s' hs
  obtain ⟨hg, hinv', hq⟩ := h s log ls hinv hl r s' hs
  refine ⟨hg, l, ?_, hq⟩
  rw [← hl, Function.update_eq_self]
  exact hinv'

/-- Calls that keep the invariant without moving the private state can be made in any
number and order. -/
theorem of_uses {N : Op → Prop} {p : Prog Op Val ε β} (hp : p.Uses N)
    (hN : ∀ o, N o → ∀ s log ls, P.inv s log ls → ls i = l → ∀ r s', sys.step i s o r s' →
      P.guar s s' ∧ P.inv s' (.call i ⟨o, r⟩ :: log) ls) :
    P.Ok sys i l p (fun l' _ => l' = l) := by
  induction p with
  | ret a => rfl
  | raise e => rfl
  | call o k ih =>
    intro s log ls hinv hl r s' hs
    obtain ⟨hg, hinv'⟩ := hN o hp.1 s log ls hinv hl r s' hs
    refine ⟨hg, l, ?_, ih r (hp.2 r)⟩
    rw [← hl, Function.update_eq_self]
    exact hinv'

end Ok

/-- From any private state process `i` can run `p`; what it ends in does not matter. -/
def Anywhere (sys : System I S Op Val ε α) (P : Outline I S Op Val ε α L) (i : I)
    (p : Prog Op Val ε β) : Prop :=
  ∀ l, P.Ok sys i l p (fun _ _ => True)

namespace Anywhere

variable {i : I}

theorem of_uses {N : Op → Prop} {p : Prog Op Val ε β} (hp : p.Uses N)
    (hN : ∀ o, N o → ∀ s log ls, P.inv s log ls → ∀ r s', sys.step i s o r s' →
      P.guar s s' ∧ P.inv s' (.call i ⟨o, r⟩ :: log) ls) : P.Anywhere sys i p := by
  intro l
  apply (Ok.of_uses hp ?_).mono (fun _ _ _ => trivial)
  intro o ho s log ls hinv _
  exact hN o ho s log ls hinv

theorem bind {γ : Type} {p : Prog Op Val ε β} {f : β → Prog Op Val ε γ} (hp : P.Anywhere sys i p)
    (hf : ∀ a, P.Anywhere sys i (f a)) : P.Anywhere sys i (p.bind f) := by
  intro l
  apply Ok.bind
  apply (hp l).mono
  intro l' r _
  cases r with
  | ok a => exact hf a l'
  | error e => trivial

theorem handle {p : Prog Op Val ε β} {h : ε → Prog Op Val ε β} (hp : P.Anywhere sys i p)
    (hh : ∀ e, P.Anywhere sys i (h e)) : P.Anywhere sys i (p.handle h) := by
  intro l
  apply Ok.handle
  apply (hp l).mono
  intro l' r _
  cases r with
  | ok a => trivial
  | error e => exact hh e l'

end Anywhere

/-- The invariant holds in every reachable state, and every process can finish its run. -/
theorem Valid.reachable (hv : P.Valid sys) {w : State I S Op Val ε α} (hw : sys.Reachable w) :
    ∃ ls, P.inv w.store w.log ls ∧ ∀ i, match w.proc i with
      | none => P.idle (ls i)
      | some p => P.Ok sys i (ls i) p (P.Ends i) := by
  induction hw with
  | init s hs =>
    obtain ⟨ls, hinv, hidle⟩ := hv.init s hs
    exact ⟨ls, hinv, hidle⟩
  | step _ h ih =>
    obtain ⟨ls, hinv, hprocs⟩ := ih
    -- The stepping process gets the private state `l'`; every other keeps its own.
    have others : ∀ {i : I} {l' : L} {q : Option (Prog Op Val ε α)} {proc : I → Option (Prog Op Val ε α)},
        (∀ j, match proc j with
          | none => P.idle (ls j)
          | some p => P.Ok sys j (ls j) p (P.Ends j)) →
        (match q with
          | none => P.idle l'
          | some p => P.Ok sys i l' p (P.Ends i)) →
        ∀ j, match Function.update proc i q j with
          | none => P.idle (Function.update ls i l' j)
          | some p => P.Ok sys j (Function.update ls i l' j) p (P.Ends j) := by
      intro i l' q proc hproc hq j
      by_cases hj : j = i
      · subst hj
        simpa only [Function.update_self] using hq
      · simpa only [Function.update_of_ne hj] using hproc j
    cases h with
    | start i p hp hi =>
      have hidle := hprocs i
      rw [hi] at hidle
      obtain ⟨l, hinv', hok⟩ := hv.start i p _ _ ls hp hinv hidle
      exact ⟨_, hinv', others (q := some p) hprocs hok⟩
    | call i o k r s' hi hs =>
      have hok := hprocs i
      rw [hi] at hok
      obtain ⟨-, l', hinv', hok'⟩ := hok _ _ ls hinv rfl r s' hs
      exact ⟨_, hinv', others (q := some (k r)) hprocs hok'⟩
    | ret i a hi =>
      have hok := hprocs i
      rw [hi] at hok
      obtain ⟨l', hidle, hinv'⟩ := hok _ _ ls hinv rfl
      exact ⟨_, hinv', others (q := none) hprocs hidle⟩
    | raise i e hi =>
      have hok := hprocs i
      rw [hi] at hok
      obtain ⟨l', hidle, hinv'⟩ := hok _ _ ls hinv rfl
      exact ⟨_, hinv', others (q := none) hprocs hidle⟩
    | stop i p hi =>
      obtain ⟨l', hidle, hinv'⟩ := hv.stop i _ _ ls hinv
      exact ⟨_, hinv', others (q := none) hprocs hidle⟩
    | env s' hs => exact ⟨ls, hv.env _ s' _ ls hinv hs, hprocs⟩

/-- Every step from a reachable state keeps the guarantee, unless it came from outside. -/
theorem Valid.step_guar (hv : P.Valid sys) {w w' : State I S Op Val ε α}
    (hw : sys.Reachable w) (h : sys.Step w w') :
    P.guar w.store w'.store ∨ sys.env w.store w'.store := by
  obtain ⟨ls, hinv, hprocs⟩ := hv.reachable hw
  cases h with
  | call i o k r s' hi hs =>
    have hok := hprocs i
    rw [hi] at hok
    exact .inl (hok _ _ ls hinv rfl r s' hs).1
  | env s' hs => exact .inr hs
  | start i p hp hi => exact .inl (hv.guar_refl _)
  | ret i a hi => exact .inl (hv.guar_refl _)
  | raise i e hi => exact .inl (hv.guar_refl _)
  | stop i p hi => exact .inl (hv.guar_refl _)

/-- What every step keeps, a whole stretch of the execution keeps. -/
theorem Valid.steps_guar (hv : P.Valid sys) (henv : ∀ s s', sys.env s s' → P.guar s s')
    (htrans : ∀ s s' s'', P.guar s s' → P.guar s' s'' → P.guar s s'')
    {w w' : State I S Op Val ε α} (hw : sys.Reachable w) (h : sys.Steps w w') :
    P.guar w.store w'.store := by
  induction h with
  | refl => exact hv.guar_refl _
  | tail h hs ih =>
    apply htrans _ _ _ ih
    rcases hv.step_guar (h.reachable hw) hs with hg | he
    · exact hg
    · exact henv _ _ he

end Outline
end Effects
