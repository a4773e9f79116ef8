import TransparentCa.Mbs.Fleet
import TransparentCa.Mbs.Progress

/- When the failures stop. From any state that the fleet may have come to, let instances run
   their iterations one after the other, with nobody else at the buckets and no needless
   failure. If the first of them can generate and will load (`CanGenerate`, `WillLoad`), it
   fills the missing epochs, none of the others changes the buckets any more, and all of them
   serve the active epochs with the same bundles. -/
namespace Mbs
open Java Effects AssocList

/-- An iteration that is let alone returns, and records a success exactly if it could generate
and load. If the lock was held and an epoch was missing it changed nothing in the buckets, and
if something active was not to be had it kept the active trust state. -/
theorem iteration_alone {core : MbsCore} {config : CertificatesConfig} {s s' : MonitorState}
    {tr : List (Event MbsOp MbsOp.Val Throwable)} {out : Except Throwable Unit}
    (hr : core.monitor.runOneIteration.Runs tr out) (hs : Served calmStep s tr s')
    (hconfig : core.ConfigIn s.buckets config) :
    out = .ok () ∧
    Records (CanGenerate core.names config s.buckets ∧ WillLoad core.names config s.buckets) tr ∧
    IterationEffect core.names config s s' :=
  (calm_runOneIteration hconfig).of_runs tr out s' hr hs

/-! ## Rounds -/

/-- What instance `i` sees of the fleet. -/
def FleetState.view (i : Nat) (s : FleetState) : MonitorState :=
  ⟨s.buckets, (s.memory i).activeTrustState⟩

section
variable {Draw : Type} (config : MbsConfiguration) (run : Draw → MbsRun)

def fleetCalm (i : Nat) (s : FleetState) (o : MbsOp) (r : Except Throwable o.Val)
    (s' : FleetState) : Prop :=
  fleetStep config run i s o r s' ∧ Calm s.buckets o r

/-- The instances of the list run an iteration each, one after the other. The provider of each
made this config of the buckets that the first of them found. -/
inductive CalmRounds (names : BucketNames) (certificatesConfig : CertificatesConfig)
    (first : Buckets) : List Nat → State Nat FleetState MbsOp MbsOp.Val Throwable Unit →
    State Nat FleetState MbsOp MbsOp.Val Throwable Unit → Prop where
  | nil (w) : CalmRounds names certificatesConfig first [] w w
  | cons {i : Nat} {is : List Nat} {w w' : State Nat FleetState MbsOp MbsOp.Val Throwable Unit}
      {s' : FleetState} {core : MbsCore} {tr : List (Event MbsOp MbsOp.Val Throwable)}
      {out : Except Throwable Unit} (hw : core.writer.On names) (hidle : w.proc i = none)
      (hconfig : core.ConfigIn first certificatesConfig)
      (hruns : core.monitor.runOneIteration.Runs tr out)
      (hserved : Served (fleetCalm config run i) w.store tr s')
      (hrest : CalmRounds names certificatesConfig first is
        ⟨s', w.proc, .finish i out :: ((tr.map (.call i)).reverse ++ .start i :: w.log)⟩ w') :
      CalmRounds names certificatesConfig first (i :: is) w w'

end

section
variable {Draw : Type} {config : MbsConfiguration} {run : Draw → MbsRun} {names : BucketNames}
  {certificatesConfig : CertificatesConfig} {i : Nat} {s s' : FleetState}

theorem calmStep_of_fleet {o : MbsOp} {r : Except Throwable o.Val}
    (h : fleetCalm config run i s o r s') : calmStep (s.view i) o r (s'.view i) := by
  obtain ⟨hstep, hcalm⟩ := h
  refine ⟨?_, hcalm⟩
  have hself : ∀ m, (s.setMemory i m).memory i = m := fun m => Function.update_self ..
  have hkept : ∀ m, m.activeTrustState = (s.memory i).activeTrustState →
      ((s.setMemory i m).memory i).activeTrustState = (s.memory i).activeTrustState := by
    intro m hm
    rw [hself]
    exact hm
  have hother : ∀ {s' : FleetState}, s'.memory = s.memory →
      (s'.memory i).activeTrustState = (s.memory i).activeTrustState := fun h => by rw [h]
  cases r with
  -- Only gets and puts fail, and they touch no instance's memory.
  | error e => cases o <;> first
    | exact hcalm.elim
    | exact ⟨hstep.1, hother hstep.2⟩
  | ok v => cases o with
    | updateCachedSnapshot a c =>
      obtain ⟨hv, rfl⟩ := hstep
      obtain rfl := Except.ok.inj hv
      exact ⟨⟨⟨_, _, rfl⟩, rfl⟩, hkept _ rfl⟩
    | setCachedBackup g e b =>
      obtain ⟨-, rfl⟩ := hstep
      exact ⟨rfl, hkept _ rfl⟩
    | setCachedCrossSigned g id b =>
      obtain ⟨-, rfl⟩ := hstep
      exact ⟨rfl, hkept _ rfl⟩
    | setActiveTrustState state =>
      obtain ⟨-, rfl⟩ := hstep
      refine ⟨rfl, rfl, ?_⟩
      show ((s.setMemory i _).memory i).activeTrustState = some state
      rw [hself]
    | getCachedBackup g e =>
      obtain ⟨-, rfl⟩ := hstep
      exact ⟨rfl, rfl⟩
    | getCachedCrossSigned g id =>
      obtain ⟨-, rfl⟩ := hstep
      exact ⟨rfl, rfl⟩
    | getActiveTrustState =>
      obtain ⟨hv, rfl⟩ := hstep
      exact ⟨rfl, hv, rfl⟩
    | generate certConfig =>
      obtain ⟨rfl, -⟩ := hstep
      exact ⟨rfl, rfl⟩
    | unsealBackup backup =>
      obtain ⟨rfl, -⟩ := hstep
      exact ⟨rfl, rfl⟩
    | recordGenerationEvent event => exact ⟨hstep.1, rfl, hother hstep.2⟩
    | recordLoadEvent event => exact ⟨hstep.1, rfl, hother hstep.2⟩
    | recordConfigEvent event => exact ⟨hstep.1, rfl, hother hstep.2⟩
    | recordEvent event => exact ⟨hstep.1, rfl, hother hstep.2⟩
    | _ => exact ⟨hstep.1, hother hstep.2⟩

/-- A call of one instance leaves the memory of the others alone. -/
theorem memory_of_ne {o : MbsOp} {r : Except Throwable o.Val}
    (h : fleetStep config run i s o r s') {j : Nat} (hj : j ≠ i) : s'.memory j = s.memory j := by
  have hset : ∀ m, (s.setMemory i m).memory j = s.memory j := fun m => Function.update_of_ne hj ..
  cases o <;> first
    | exact congrFun h.2 j
    | (rw [h.2]; exact hset _)
    | rw [h.2]
    | rw [h.1]

theorem memory_of_served {tr : List (Event MbsOp MbsOp.Val Throwable)}
    (h : Served (fleetCalm config run i) s tr s') {j : Nat} (hj : j ≠ i) :
    s'.memory j = s.memory j := by
  induction h with
  | nil s => rfl
  | cons hstep _ ih => exact ih.trans (memory_of_ne hstep.1 hj)

theorem names_of_on {writer : S3BackupWriter} (h : writer.On names) : writer.names = names := by
  obtain ⟨hpublic, hprivate⟩ := h
  rw [S3BackupWriter.names, hpublic, hprivate]

/-- Filling leaves the config that a provider makes of the buckets. -/
theorem OnlyFills.configIn_of_on {core : MbsCore} {epochs : List Epoch} {buckets buckets' : Buckets}
    (h : OnlyFills names epochs buckets buckets') (hw : core.writer.On names)
    (hconfig : core.ConfigIn buckets certificatesConfig) :
    core.ConfigIn buckets' certificatesConfig := by
  rw [← names_of_on hw] at h
  exact OnlyFills.configIn h hconfig

theorem round_effect {core : MbsCore} {tr : List (Event MbsOp MbsOp.Val Throwable)}
    {out : Except Throwable Unit} (hw : core.writer.On names)
    (hconfig : core.ConfigIn s.buckets certificatesConfig)
    (hruns : core.monitor.runOneIteration.Runs tr out)
    (hserved : Served (fleetCalm config run i) s tr s') :
    IterationEffect names certificatesConfig (s.view i) (s'.view i) := by
  have heffect := (calm_runOneIteration (s := s.view i) hconfig).of_runs tr out _ hruns
    (hserved.through (FleetState.view i) (fun _ _ _ _ => calmStep_of_fleet))
  rw [show core.names = names from names_of_on hw] at heffect
  exact heffect.2.2

/-- Nothing is left to generate, and what is active is there to load. -/
structure Settled (names : BucketNames) (certificatesConfig : CertificatesConfig) (s : Buckets) :
    Prop where
  none_missing : missingCertificates names certificatesConfig s = []
  canLoad : CanLoad names certificatesConfig s

theorem Settled.canGenerate {buckets : Buckets} (h : Settled names certificatesConfig buckets) :
    CanGenerate names certificatesConfig buckets := .inl h.none_missing

theorem Settled.willLoad {buckets : Buckets} (h : Settled names certificatesConfig buckets) :
    WillLoad names certificatesConfig buckets :=
  ⟨fun c hc => .inl (h.canLoad.selfSigned c hc), h.canLoad.crossSigned⟩

theorem Filled.settled {buckets buckets' : Buckets}
    (h : Filled names certificatesConfig buckets buckets')
    (hcan : CanGenerate names certificatesConfig buckets)
    (hwill : WillLoad names certificatesConfig buckets) :
    Settled names certificatesConfig buckets' := by
  refine ⟨List.eq_nil_iff_forall_not_mem.mpr (fun c hc => ?_), (h.canLoad_iff hcan).mpr hwill⟩
  obtain ⟨hconfigured, hnone⟩ := mem_missingCertificates.mp hc
  by_cases hbefore : NoArtifact names buckets c.epochId
  · obtain ⟨backup, hstored⟩ := h.stored c (mem_missingCertificates.mpr ⟨hconfigured, hbefore⟩)
    exact hstored.complete .cert (noArtifact_iff.mp hnone .cert)
  · apply hbefore
    intro element helement
    rw [← hnone element helement]
    -- What was there before is there now.
    rcases h.onlyFills (names.of element) (elementPath element c.epochId) with heq | ⟨habsent, -⟩
    · exact heq.symm
    · exact habsent.trans (hnone element helement).symm

/-- Nothing more is written. -/
theorem Filled.eq_of_settled {buckets buckets' : Buckets}
    (h : Filled names certificatesConfig buckets buckets')
    (hsettled : Settled names certificatesConfig buckets) : buckets' = buckets := by
  funext bucket key
  rcases h.onlyFills bucket key with heq | ⟨-, epoch, hmem, -⟩
  · exact heq
  · rw [hsettled.none_missing] at hmem
    cases hmem

variable {is : List Nat} {w w' : State Nat FleetState MbsOp MbsOp.Val Throwable Unit}

theorem CalmRounds.steps {first : Buckets}
    (h : CalmRounds config run names certificatesConfig first is w w') :
    (fleetSystem config run names).Steps w w' := by
  induction h with
  | nil w => exact .refl w
  | @cons i is w w' s' core tr out hw hidle hconfig hruns hserved hrest ih =>
    have hserves : (fleetSystem config run names).Serves i w.store tr s' :=
      hserved.through id (fun _ _ _ _ hstep => hstep.1)
    have hprogram : (fleetSystem config run names).runs i core.monitor.runOneIteration :=
      ⟨core, hw, rfl⟩
    have hround := System.Steps.run hprogram hruns hserves hidle w.log
    exact hround.trans ih

/-- By induction on the rounds: from settled buckets on, the buckets stay as they are, and
whoever has loaded the active epochs keeps them or loads them again. -/
theorem CalmRounds.of_settled {first : Buckets} {epochs : List Epoch}
    (h : CalmRounds config run names certificatesConfig first is w w')
    (hfills : OnlyFills names epochs first w.store.buckets)
    (hsettled : Settled names certificatesConfig w.store.buckets) :
    w'.store.buckets = w.store.buckets ∧
    ∀ j, j ∈ is ∨ LoadedFor certificatesConfig (w.store.memory j).activeTrustState →
      LoadedFor certificatesConfig (w'.store.memory j).activeTrustState := by
  induction h with
  | nil w => exact ⟨rfl, fun j hj => hj.resolve_left List.not_mem_nil⟩
  | @cons i is w w' s' core tr out hw hidle hconfig hruns hserved hrest ih =>
    have heffect := round_effect hw (hfills.configIn_of_on hw hconfig) hruns hserved
    have hsame : s'.buckets = w.store.buckets :=
      (heffect.generated hsettled.canGenerate).eq_of_settled hsettled
    have hloaded : LoadedFor certificatesConfig (s'.memory i).activeTrustState :=
      heffect.loaded hsettled.willLoad
    have hfills' : OnlyFills names epochs first s'.buckets := by
      rw [hsame]
      exact hfills
    have hsettled' : Settled names certificatesConfig s'.buckets := by
      rw [hsame]
      exact hsettled
    obtain ⟨hbuckets, hrest'⟩ := ih hfills' hsettled'
    refine ⟨hbuckets.trans hsame, fun j hj => hrest' j ?_⟩
    by_cases hij : j = i
    · subst hij
      exact .inr hloaded
    · rcases hj with hj | hj
      · exact .inl ((List.mem_cons.mp hj).resolve_left hij)
      · refine .inr ?_
        show LoadedFor certificatesConfig (s'.memory j).activeTrustState
        rw [memory_of_served hserved hij]
        exact hj

/-- The first round fills and settles; the others find it so. -/
theorem CalmRounds.converge
    (h : CalmRounds config run names certificatesConfig w.store.buckets is w w') (hne : is ≠ [])
    (hcan : CanGenerate names certificatesConfig w.store.buckets)
    (hwill : WillLoad names certificatesConfig w.store.buckets) :
    Filled names certificatesConfig w.store.buckets w'.store.buckets ∧
    ∀ j ∈ is, LoadedFor certificatesConfig (w'.store.memory j).activeTrustState := by
  cases h with
  | nil => exact absurd rfl hne
  | @cons i is _ _ s' core tr out hw hidle hconfig hruns hserved hrest =>
    have heffect := round_effect hw hconfig hruns hserved
    have hfilled : Filled names certificatesConfig w.store.buckets s'.buckets :=
      heffect.generated hcan
    have hloaded : LoadedFor certificatesConfig (s'.memory i).activeTrustState :=
      heffect.loaded hwill
    obtain ⟨hbuckets, hrest'⟩ := hrest.of_settled hfilled.onlyFills (hfilled.settled hcan hwill)
    rw [hbuckets]
    refine ⟨hfilled, fun j hj => hrest' j ?_⟩
    rcases List.mem_cons.mp hj with rfl | hj
    · exact .inr hloaded
    · exact .inl hj

theorem serves_iff_of_loadedFor (h : LoadedFor certificatesConfig (s.memory i).activeTrustState)
    (epoch : Epoch) :
    (∃ loaded, s.Serves i epoch loaded) ↔ epoch ∈ certificatesConfig.activeEpochs := by
  obtain ⟨state, hactive, hperm, -⟩ := h
  rw [← hperm.mem_iff, List.mem_map]
  constructor
  · rintro ⟨loaded, state', hactive', hmem⟩
    rw [hactive] at hactive'
    obtain rfl := Option.some.inj hactive'
    exact ⟨_, hmem, rfl⟩
  · rintro ⟨⟨epoch', loaded⟩, hmem, rfl⟩
    exact ⟨loaded, state, hactive, hmem⟩

end

/-- Rounds from any state the fleet may have come to: the first fills the missing epochs and
nothing changes the buckets any more, and afterwards each of the instances serves exactly the
active epochs, all with the same bundles. -/
theorem fleet_converges {Draw : Type} {config : MbsConfiguration} {run : Draw → MbsRun}
    {names : BucketNames} {kms : AwsKms} (hcompatible : ∀ d d', (run d).Compatible (run d'))
    (hkms : ∀ d, (run d).aws.Serves kms) {certificatesConfig : CertificatesConfig} {is : List Nat}
    {w w' : State Nat FleetState MbsOp MbsOp.Val Throwable Unit}
    (hw : (fleetSystem config run names).Reachable w)
    (hrounds : CalmRounds config run names certificatesConfig w.store.buckets is w w')
    (hne : is ≠ [])
    (hcan : CanGenerate names certificatesConfig w.store.buckets)
    (hwill : WillLoad names certificatesConfig w.store.buckets) :
    Filled names certificatesConfig w.store.buckets w'.store.buckets ∧
    (∀ i ∈ is, ∀ epoch, (∃ loaded, w'.store.Serves i epoch loaded) ↔
      epoch ∈ certificatesConfig.activeEpochs) ∧
    (∀ i j epoch loaded loaded', w'.store.Serves i epoch loaded → w'.store.Serves j epoch loaded' →
      loaded' = loaded) := by
  obtain ⟨hfilled, hloaded⟩ := hrounds.converge hne hcan hwill
  refine ⟨hfilled, fun i hi epoch => serves_iff_of_loadedFor (hloaded i hi) epoch, ?_⟩
  intro i j epoch loaded loaded' hserves hserves'
  exact loaded_eq_of_serves hcompatible hkms (hrounds.steps.reachable hw) (.refl w') hserves hserves'

/-! An iteration that finds the lock held, and the rounds of both instances once it is gone. -/

namespace Sample

/-- The calls that may find an object absent or there. -/
def finds : MbsOp → Bool
  | .getObject _ _ | .putObject _ _ _ _ => true
  | _ => false

def AnsweredBy (i : Nat) (t : LocalFleet) (o : MbsOp) : Prop :=
  (t.serve i o).1.isOk = true ∨ finds o = true

instance (i : Nat) (t : LocalFleet) (o : MbsOp) : Decidable (AnsweredBy i t o) :=
  inferInstanceAs (Decidable (_ ∨ _))

theorem calm_getObject (t : LocalS3) (bucket key : JString) :
    Calm t.buckets (.getObject bucket key) (t.serve (.getObject bucket key)).1 := by
  cases hobject : t.buckets bucket key with
  | some o =>
    simp only [LocalS3.serve, hobject]
    trivial
  | none =>
    simp only [LocalS3.serve, hobject]
    rfl

theorem calm_putObject (t : LocalS3) (bucket key : JString) (content : Bytes)
    (cacheControl : JString) :
    Calm t.buckets (.putObject bucket key content cacheControl)
      (t.serve (.putObject bucket key content cacheControl)).1 := by
  cases hobject : t.buckets bucket key with
  | some o =>
    simp only [LocalS3.serve, hobject]
    refine ⟨?_, rfl, rfl⟩
    rw [hobject]
    exact Option.some_ne_none o
  | none =>
    simp only [LocalS3.serve, hobject]
    trivial

theorem fleetCalm_serve (i : Nat) (t : LocalFleet) (o : MbsOp) (h : AnsweredBy i t o) :
    fleetCalm mbsConfiguration mbsRun i t.state o (t.serve i o).1 (t.serve i o).2.state := by
  refine ⟨t.fleetStep_serve i o, ?_⟩
  cases o with
  | getObject bucket key => exact calm_getObject t.s3 bucket key
  | putObject bucket key content cacheControl =>
    exact calm_putObject t.s3 bucket key content cacheControl
  | _ =>
    obtain hok | hfinds := h
    · revert hok
      generalize (t.serve i _).1 = r
      intro hok
      cases r with
      | ok v => trivial
      | error e => cases hok
    · cases hfinds

theorem iteration_served {i : Nat} {t : LocalFleet}
    (h : DriveAll (LocalFleet.serve i) (AnsweredBy i) core.monitor.runOneIteration t) :
    Served (fleetCalm mbsConfiguration mbsRun i) t.state (t.iteration i).2.1
      (t.iteration i).2.2.state :=
  served_driveAll LocalFleet.state (fleetCalm_serve i) h

theorem locked_served : Served (fleetCalm mbsConfiguration mbsRun 0) lockedFleet.state
    (lockedFleet.iteration 0).2.1 (lockedFleet.iteration 0).2.2.state :=
  iteration_served (by decide +kernel)

theorem first_served : Served (fleetCalm mbsConfiguration mbsRun 0) freedFleet.state
    (freedFleet.iteration 0).2.1 (freedFleet.iteration 0).2.2.state :=
  iteration_served (by decide +kernel)

theorem second_served : Served (fleetCalm mbsConfiguration mbsRun 1)
    (freedFleet.iteration 0).2.2.state ((freedFleet.iteration 0).2.2.iteration 1).2.1
    servingFleet.state :=
  iteration_served (by decide +kernel)

/-- There is no config in the buckets, so the hardcoded one applies. -/
theorem lockedFleet_configIn : core.ConfigIn lockedFleet.state.buckets defaultConfig := rfl

theorem freedFleet_configIn : core.ConfigIn freedFleet.state.buckets defaultConfig := rfl

theorem lockedFleet_cannotGenerate : ¬ CanGenerate names defaultConfig lockedFleet.state.buckets := by
  rintro (hnone | hfree)
  · cases hnone
  · cases hfree

theorem freedFleet_canGenerate : CanGenerate names defaultConfig freedFleet.state.buckets :=
  .inr rfl

theorem freedFleet_willLoad : WillLoad names defaultConfig freedFleet.state.buckets where
  selfSigned _ _ := .inr ⟨fun _ _ => rfl, rfl⟩
  crossSigned _ hc := nomatch hc

end Sample

theorem iteration_alone_locked :
    ¬ CanGenerate Sample.names defaultConfig Sample.lockedFleet.state.buckets ∧
    (Sample.lockedFleet.iteration 0).1 = .ok () ∧
    Records (CanGenerate Sample.names defaultConfig Sample.lockedFleet.state.buckets ∧
      WillLoad Sample.names defaultConfig Sample.lockedFleet.state.buckets)
      (Sample.lockedFleet.iteration 0).2.1 ∧
    IterationEffect Sample.names defaultConfig (Sample.lockedFleet.state.view 0)
      ((Sample.lockedFleet.iteration 0).2.2.state.view 0) :=
  ⟨Sample.lockedFleet_cannotGenerate,
    iteration_alone (runs_drive _ _ _)
      (Sample.locked_served.through (FleetState.view 0) (fun _ _ _ _ => calmStep_of_fleet))
      Sample.lockedFleet_configIn⟩

theorem fleet_converges_both :
    Filled Sample.names defaultConfig Sample.freedFleet.state.buckets
      Sample.servingFleet.state.buckets ∧
    (∀ i ∈ [0, 1], ∀ epoch, (∃ loaded, Sample.servingFleet.state.Serves i epoch loaded) ↔
      epoch ∈ defaultConfig.activeEpochs) ∧
    (∀ i j epoch loaded loaded', Sample.servingFleet.state.Serves i epoch loaded →
      Sample.servingFleet.state.Serves j epoch loaded' → loaded' = loaded) := by
  obtain ⟨log, hfreed, -⟩ := Sample.freedFleet_reachable
  have hrounds : CalmRounds Sample.mbsConfiguration Sample.mbsRun Sample.names defaultConfig
      Sample.freedFleet.state.buckets [0, 1] ⟨Sample.freedFleet.state, Sample.idle, log⟩ _ :=
    .cons ⟨rfl, rfl⟩ rfl Sample.freedFleet_configIn (runs_drive _ _ _) Sample.first_served
      (.cons ⟨rfl, rfl⟩ rfl Sample.freedFleet_configIn (runs_drive _ _ _) Sample.second_served
        (.nil _))
  exact fleet_converges Sample.mbsRun_compatible Sample.awsRun_serves hfreed hrounds
    (List.cons_ne_nil _ _) Sample.freedFleet_canGenerate Sample.freedFleet_willLoad

end Mbs
