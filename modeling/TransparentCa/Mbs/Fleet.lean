import TransparentCa.Lib.RelyGuarantee
import TransparentCa.Mbs.BundleGenerator
import TransparentCa.Mbs.ConfigFallback
import TransparentCa.Mbs.Generation
import TransparentCa.Mbs.HandleReuse

/- The fleet: any number of instances over the same two buckets. Each runs the iterations of
   its monitor one after the other, in any interleaving with the others, crashes anywhere and
   begins again with an empty memory; calls fail at any point. Two arguments meet here. The
   writers of an epoch leave the artifacts of one generated backup (`writerOutline`, told of
   the fleet's buckets). And no artifact is ever changed, so whatever an instance reads, keeps
   in a handle, unseals and serves is made of artifacts that are still there
   (`fleetContract`). -/
namespace Mbs
open Java Effects AssocList

/-! ## The instances -/

/-- The memory of one instance: the snapshot and the handles of its `S3BackupStorage`, and the
active trust state of its `TrustPackageService`. -/
structure InstanceMemory where
  generation : Nat
  cachedSnapshot : S3StorageSnapshot
  cachedBackup : Nat → Epoch → Option SelfSignedBundleBackup
  cachedCrossSigned : Nat → CrossSignedCertificateId → Option CrossSignedCertificateBackup
  activeTrustState : Option ActiveTrustState

namespace InstanceMemory

def fresh : InstanceMemory := ⟨0, .empty, fun _ _ => none, fun _ _ => none, none⟩

def updateCachedSnapshot (m : InstanceMemory) (eTagsByEpoch : ETagsByEpoch)
    (eTagsByCrossSignedId : ETagsByCrossSignedId) : InstanceMemory :=
  { m with
    generation := m.generation + 1
    cachedSnapshot := S3BackupStorage.nextSnapshot m.generation eTagsByEpoch eTagsByCrossSignedId
      m.cachedSnapshot }

def setCachedBackup (m : InstanceMemory) (generation : Nat) (epoch : Epoch)
    (backup : SelfSignedBundleBackup) : InstanceMemory :=
  { m with cachedBackup := fun g e =>
      if g = generation ∧ e = epoch then some backup else m.cachedBackup g e }

def setCachedCrossSigned (m : InstanceMemory) (generation : Nat) (id : CrossSignedCertificateId)
    (backup : CrossSignedCertificateBackup) : InstanceMemory :=
  { m with cachedCrossSigned := fun g i =>
      if g = generation ∧ i = id then some backup else m.cachedCrossSigned g i }

end InstanceMemory

structure FleetState where
  buckets : Buckets
  memory : Nat → InstanceMemory

def FleetState.setMemory (s : FleetState) (i : Nat) (m : InstanceMemory) : FleetState :=
  { s with memory := Function.update s.memory i m }

section
variable {Draw : Type} (config : MbsConfiguration) (run : Draw → MbsRun)

/-- A call of instance `i`. A generated or an unsealed bundle comes from some run of the
libraries; a decoded certificate and any failure may be anything. -/
def fleetStep (i : Nat) (s : FleetState) (o : MbsOp) (r : Except Throwable o.Val)
    (s' : FleetState) : Prop :=
  match o, r with
  | .updateCachedSnapshot eTagsByEpoch eTagsByCrossSignedId, r =>
    r = .ok ((s.memory i).updateCachedSnapshot eTagsByEpoch eTagsByCrossSignedId).cachedSnapshot ∧
      s' = s.setMemory i ((s.memory i).updateCachedSnapshot eTagsByEpoch eTagsByCrossSignedId)
  | .getCachedBackup generation epoch, r =>
    r = .ok ((s.memory i).cachedBackup generation epoch) ∧ s' = s
  | .setCachedBackup generation epoch backup, r =>
    r = .ok () ∧ s' = s.setMemory i ((s.memory i).setCachedBackup generation epoch backup)
  | .getCachedCrossSigned generation id, r =>
    r = .ok ((s.memory i).cachedCrossSigned generation id) ∧ s' = s
  | .setCachedCrossSigned generation id backup, r =>
    r = .ok () ∧ s' = s.setMemory i ((s.memory i).setCachedCrossSigned generation id backup)
  | .getActiveTrustState, r => r = .ok (s.memory i).activeTrustState ∧ s' = s
  | .setActiveTrustState state, r =>
    r = .ok () ∧ s' = s.setMemory i { s.memory i with activeTrustState := some state }
  | .generate certConfig, r => s' = s ∧ ∀ backup, r = .ok backup →
      ∃ d, SelfSignedBundleBackupGenerator.generate config (run d) certConfig = .ok backup
  | .unsealBackup backup, r => s' = s ∧ ∀ bundle, r = .ok bundle →
      ∃ d, (config.backupSealer (run d)).unsealBackup backup = .ok bundle
  | o, r => s3Step .atomic s.buckets o r s'.buckets ∧ s'.memory = s.memory

/-- Nothing is stored for any epoch at first. From outside, any other object may change, and an
instance may lose its memory. -/
def fleetSystem (names : BucketNames) :
    System Nat FleetState MbsOp MbsOp.Val Throwable Unit where
  init s := (∀ epoch element, artifact names s.buckets epoch element = none) ∧
    ∀ i, s.memory i = .fresh
  runs _ p := ∃ core : MbsCore, core.writer.On names ∧ p = core.monitor.runOneIteration
  step := fleetStep config run
  env s s' := (∀ epoch element, artifact names s'.buckets epoch element =
      artifact names s.buckets epoch element) ∧
    ∀ i, s'.memory i = s.memory i ∨ s'.memory i = .fresh

end

/-- Instance `i` would sign with this bundle for the epoch. -/
def FleetState.Serves (s : FleetState) (i : Nat) (epoch : Epoch) (loaded : LoadedSelfSignedBundle) :
    Prop :=
  ∃ state, (s.memory i).activeTrustState = some state ∧
    (epoch, loaded) ∈ state.selfSignedBundlesByEpoch

/-! ## The writers -/

section
variable {Draw : Type} {config : MbsConfiguration} {run : Draw → MbsRun} {names : BucketNames}
  {i : Nat}

theorem stepsWithin_buckets : StepsWithin (writerSystem names) (fleetSystem config run names)
    FleetState.buckets := by
  intro i s o r s' hstep
  show s3Step .any s.buckets o r s'.buckets
  cases o with
  | updateCachedSnapshot a c =>
    obtain ⟨rfl, rfl⟩ := hstep
    exact ⟨⟨_, _, rfl⟩, rfl⟩
  | getCachedBackup g e => rw [hstep.2]; rfl
  | setCachedBackup g e b => rw [hstep.2]; rfl
  | getCachedCrossSigned g id => rw [hstep.2]; rfl
  | setCachedCrossSigned g id b => rw [hstep.2]; rfl
  | getActiveTrustState => rw [hstep.2]; rfl
  | setActiveTrustState state => rw [hstep.2]; rfl
  | generate certConfig => rw [hstep.1]; cases r <;> rfl
  | unsealBackup backup => rw [hstep.1]; cases r <;> rfl
  | _ => exact s3Step_any_of_atomic hstep.1

theorem neutral_of_not_write {o : MbsOp} (h : o.isWrite = false) : Neutral o := by
  cases o <;> trivial

theorem safe_runOneIteration {core : MbsCore} (hw : core.writer.On names) :
    Safe names i core.monitor.runOneIteration := by
  have hswallow : ∀ {p : MbsProg Unit}, Safe names i p → Safe names i (Prog.handle (do
      p
      return true)
      (fun e => if e.instanceOf .exception then return false else throw e)) := by
    intro p hp
    refine Outline.Anywhere.handle (Outline.Anywhere.bind hp (fun _ _ => trivial)) (fun e => ?_)
    split <;> exact fun _ => trivial
  have hfetch : Safe names i core.monitor.fetchConfig := safe_of_neutral
    (uses_fetchConfig.mono (fun o ho => neutral_of_not_write (not_isWrite_of_isRead ho)))
  have hevent : ∀ event, Safe names i (core.monitor.recordEvent event) :=
    fun event => safe_of_neutral (Prog.Uses.invoke (o := MbsOp.recordEvent event) trivial)
  refine Outline.Anywhere.bind hfetch (fun found => ?_)
  cases found with
  | none => exact hevent _
  | some certificatesConfig =>
    refine Outline.Anywhere.bind (hswallow (safe_generateCertificates hw _)) (fun generated => ?_)
    refine Outline.Anywhere.bind (hswallow (safe_of_neutral ?_)) (fun reloaded => hevent _)
    exact (uses_reload core).mono (fun _ ho => neutral_of_not_write ho)

/-- The writers' outline, told of the fleet. -/
theorem fleet_writers_valid : ((writerOutline names).within FleetState.buckets).Valid
    (fleetSystem config run names) where
  guar_refl s := (writerOutline_valid names).guar_refl s.buckets
  init s hs := (writerOutline_valid names).init s.buckets hs.1
  start i p s log ls hp hinv _ := by
    obtain ⟨core, hw, rfl⟩ := hp
    refine ⟨ls i, ?_, ?_⟩
    · rw [Function.update_eq_self]
      exact OneSource.congr hinv (fun _ _ => rfl) (List.subset_cons_self _ _)
    · have hwithin : StepsWithin (writerSystem names) (fleetSystem config run names)
          FleetState.buckets := stepsWithin_buckets
      have hsafe := (safe_runOneIteration (i := i) hw).within hwithin
      apply (hsafe (ls i)).mono
      intro l r _ s log ls hinv hl
      refine ⟨l, trivial, ?_⟩
      rw [← hl, Function.update_eq_self]
      exact OneSource.congr hinv (fun _ _ => rfl) (List.subset_cons_self _ _)
  stop i s log ls hinv := (writerOutline_valid names).stop i s.buckets log ls hinv
  env s s' log ls hinv henv := (writerOutline_valid names).env s.buckets s'.buckets log ls hinv henv.1

end

/-! ## What is read, kept and served -/

section
variable {Draw : Type} (config : MbsConfiguration) (run : Draw → MbsRun) (names : BucketNames)

/-- The bundle came out of the backup. -/
def Opened (loaded : LoadedSelfSignedBundle) : Prop :=
  ∃ d, (config.backupSealer (run d)).unsealBackup loaded.backup = .ok loaded.bundle

/-- Loaded bundles with the artifacts they were made of. -/
def SoundEntries (s : Buckets) (entries : List (Epoch × LoadedSelfSignedBundle)) : Prop :=
  ∀ entry ∈ entries, StoredAs names s entry.1 entry.2.backup ∧ Opened config run entry.2

structure SoundMemory (s : Buckets) (m : InstanceMemory) : Prop where
  cached : ∀ generation epoch backup, m.cachedBackup generation epoch = some backup →
    StoredAs names s epoch backup
  active : ∀ state, m.activeTrustState = some state →
    SoundEntries config run names s state.selfSignedBundlesByEpoch

def fleetContract : Contract FleetState where
  inv s := ∀ i, SoundMemory config run names s.buckets (s.memory i)
  guar s s' := KeepsArtifacts names s.buckets s'.buckets
  guar_refl _ _ _ _ h := h
  guar_trans _ _ _ h h' epoch element o ho := h' epoch element o (h epoch element o ho)

end

/-- The calls that keep the contract whatever they are given. -/
def Harmless : MbsOp → Prop
  | .deleteObject _ key => ∀ element epoch, elementPath element epoch ≠ key
  | .setCachedBackup _ _ _ | .setActiveTrustState _ => False
  | _ => True

section
variable {Draw : Type} {config : MbsConfiguration} {run : Draw → MbsRun} {names : BucketNames}
  {i : Nat}

theorem StoredAs.of_keeps {s s' : Buckets} {epoch : Epoch} {backup : SelfSignedBundleBackup}
    (h : StoredAs names s epoch backup) (hkeeps : KeepsArtifacts names s s') :
    StoredAs names s' epoch backup := by
  intro element
  obtain ⟨eTag, hartifact⟩ := h element
  exact ⟨eTag, hkeeps epoch element _ hartifact⟩

theorem SoundEntries.of_keeps {s s' : Buckets} {entries : List (Epoch × LoadedSelfSignedBundle)}
    (h : SoundEntries config run names s entries) (hkeeps : KeepsArtifacts names s s') :
    SoundEntries config run names s' entries :=
  fun entry hentry => ⟨(h entry hentry).1.of_keeps hkeeps, (h entry hentry).2⟩

theorem SoundMemory.of_keeps {s s' : Buckets} {m : InstanceMemory}
    (h : SoundMemory config run names s m) (hkeeps : KeepsArtifacts names s s') :
    SoundMemory config run names s' m where
  cached _ _ _ hcached := (h.cached _ _ _ hcached).of_keeps hkeeps
  active state hactive := (h.active state hactive).of_keeps hkeeps

theorem SoundMemory.fresh (s : Buckets) : SoundMemory config run names s .fresh where
  cached _ _ _ h := by cases h
  active _ h := by cases h

/-- One memory changes and the buckets do not. -/
theorem sound_setMemory {s : FleetState} {m : InstanceMemory}
    (h : (fleetContract config run names).inv s)
    (hm : SoundMemory config run names s.buckets m) :
    (fleetContract config run names).inv (s.setMemory i m) := by
  intro j
  show SoundMemory config run names s.buckets (Function.update s.memory i m j)
  by_cases hj : j = i
  · subst hj
    rwa [Function.update_self]
  · rw [Function.update_of_ne hj]
    exact h j

theorem keepsArtifacts_of_step {reads : S3Reads} {s s' : Buckets} {o : MbsOp}
    {r : Except Throwable o.Val} (h : s3Step reads s o r s') (ho : Harmless o) :
    KeepsArtifacts names s s' := by
  intro epoch element x hx
  cases o with
  | putObject bucket key content cacheControl =>
    rcases s3Step_put h with ⟨rfl, -⟩ | ⟨habsent, eTag, rfl⟩
    · exact hx
    · -- What is created was absent, so it is not this artifact.
      unfold artifact at hx ⊢
      rw [Buckets.set_apply, if_neg]
      · exact hx
      · rintro ⟨rfl, rfl⟩
        rw [habsent] at hx
        cases hx
  | deleteObject bucket key =>
    have hs : s' = s ∨ s' = s.set bucket key none := by
      cases r with
      | ok _ => exact .inr h
      | error _ => exact h
    rcases hs with rfl | rfl
    · exact hx
    · rw [artifact_set_of_ne (ho element epoch)]
      exact hx
  | _ =>
    rw [s3Step_of_not_write h rfl]
    exact hx

theorem harmless_keeps {s s' : FleetState} {o : MbsOp} {r : Except Throwable o.Val}
    (ho : Harmless o) (hs : (fleetContract config run names).inv s)
    (hstep : fleetStep config run i s o r s') :
    (fleetContract config run names).inv s' ∧ (fleetContract config run names).guar s s' := by
  have hself : ∀ m, SoundMemory config run names s.buckets m →
      (fleetContract config run names).inv (s.setMemory i m) ∧
      (fleetContract config run names).guar s (s.setMemory i m) :=
    fun m hm => ⟨sound_setMemory hs hm, fun _ _ _ h => h⟩
  have hsame : (fleetContract config run names).guar s s := fun _ _ _ h => h
  cases o with
  | updateCachedSnapshot a c =>
    obtain ⟨rfl, rfl⟩ := hstep
    exact hself _ ⟨(hs i).cached, (hs i).active⟩
  | setCachedCrossSigned g id b =>
    obtain ⟨rfl, rfl⟩ := hstep
    exact hself _ ⟨(hs i).cached, (hs i).active⟩
  | setCachedBackup g e b => exact ho.elim
  | setActiveTrustState state => exact ho.elim
  | getCachedBackup g e => rw [hstep.2]; exact ⟨hs, hsame⟩
  | getCachedCrossSigned g id => rw [hstep.2]; exact ⟨hs, hsame⟩
  | getActiveTrustState => rw [hstep.2]; exact ⟨hs, hsame⟩
  | generate certConfig => rw [hstep.1]; exact ⟨hs, hsame⟩
  | unsealBackup backup => rw [hstep.1]; exact ⟨hs, hsame⟩
  | _ =>
    obtain ⟨hs3, hmemory⟩ := hstep
    have hkeeps : KeepsArtifacts names s.buckets s'.buckets := keepsArtifacts_of_step hs3 ho
    refine ⟨fun j => ?_, hkeeps⟩
    rw [hmemory]
    exact (hs j).of_keeps hkeeps

/-! ## Programs meet the contract -/

/-- Started anywhere, `p` meets the fleet's contract and ends as `Q` says. -/
abbrev FleetMeets (config : MbsConfiguration) (run : Draw → MbsRun) (names : BucketNames) (i : Nat)
    {α : Type} (K : FleetState → Prop) (p : MbsProg α) (Q : Except Throwable α → FleetState → Prop) :
    Prop :=
  (fleetContract config run names).Meets (fleetSystem config run names) i K p Q

theorem meets_of_harmless {α : Type} {p : MbsProg α} {K : FleetState → Prop}
    (hp : p.Uses Harmless) (hK : (fleetContract config run names).Stable K) :
    FleetMeets config run names i K p (fun _ => K) :=
  Contract.Meets.of_uses hp (fun _ ho _ hs _ _ hstep => harmless_keeps ho hs hstep) hK

/-- A harmless call whose answer says something that lasts. -/
theorem meets_call {o : MbsOp} {K : FleetState → Prop} {Q : Except Throwable o.Val → FleetState → Prop}
    (ho : Harmless o) (hQ : ∀ r, (fleetContract config run names).Stable (Q r))
    (h : ∀ s, (fleetContract config run names).inv s → K s → ∀ r s',
      fleetStep config run i s o r s' → Q r s') :
    FleetMeets config run names i K (call o) Q := by
  apply Contract.Meets.invoke hQ
  intro s hs hK r s' hstep
  obtain ⟨hs', hguar⟩ := harmless_keeps ho hs hstep
  exact ⟨hs', hguar, h s hs hK r s' hstep⟩

/-- The artifact has this content. -/
def HasPart (names : BucketNames) (epoch : Epoch) (element : SelfSignedBundleBackupElement)
    (bytes : Bytes) (s : FleetState) : Prop :=
  ∃ eTag, artifact names s.buckets epoch element = some ⟨bytes, eTag⟩

theorem stable_hasPart (epoch : Epoch) (element : SelfSignedBundleBackupElement) (bytes : Bytes) :
    (fleetContract config run names).Stable (HasPart names epoch element bytes) := by
  rintro s s' ⟨eTag, hartifact⟩ hguar
  exact ⟨eTag, hguar epoch element _ hartifact⟩

theorem stable_storedAs (epoch : Epoch) (backup : SelfSignedBundleBackup) :
    (fleetContract config run names).Stable (fun s => StoredAs names s.buckets epoch backup) :=
  fun _ _ h hguar => h.of_keeps hguar

theorem stable_soundEntries (entries : List (Epoch × LoadedSelfSignedBundle)) :
    (fleetContract config run names).Stable
      (fun s => SoundEntries config run names s.buckets entries) :=
  fun _ _ h hguar => h.of_keeps hguar

/-- What a get finds stays there. -/
theorem meets_getArtifact (epoch : Epoch) (element : SelfSignedBundleBackupElement) :
    FleetMeets config run names i (fun _ => True) (getArtifact names epoch element)
      (fun r s => ∀ bytes, r = .ok (some bytes) → HasPart names epoch element bytes s) := by
  have hstable : ∀ r : Except Throwable (Option Bytes), (fleetContract config run names).Stable
      (fun s => ∀ bytes, r = .ok (some bytes) → HasPart names epoch element bytes s) :=
    fun r => Contract.Stable.forall (fun bytes => Contract.Stable.imp (stable_hasPart _ _ bytes))
  apply Contract.Meets.handle (R := fun r s => ∀ bytes, r = .ok (some bytes) →
    HasPart names epoch element bytes s)
  · refine Contract.Meets.seq (R := fun r s => ∀ bytes, r = .ok bytes →
      HasPart names epoch element bytes s) (meets_call trivial ?_ ?_) (fun bytes => ?_) ?_
    · exact fun r => Contract.Stable.forall
        (fun bytes => Contract.Stable.imp (stable_hasPart _ _ bytes))
    · rintro s - - r s' ⟨⟨hget, hbuckets⟩, -⟩ bytes rfl
      obtain ⟨eTag, hobject⟩ := hget
      exact ⟨eTag, by rw [hbuckets]; exact hobject⟩
    · intro s _ hK bytes' heq
      rw [← Option.some.inj (Except.ok.inj heq)]
      exact hK bytes rfl
    · exact fun _ _ _ _ _ heq => by cases heq
  · exact fun _ _ _ h => h
  · intro e
    split
    · exact fun _ _ _ _ heq => by cases heq
    · split <;> exact fun _ _ _ _ heq => by cases heq

theorem meets_readSelfSignedBundleBackup {bucketProperties : BackupBucketProperties}
    (ho : bucketProperties.On names) (epoch : Epoch) :
    FleetMeets config run names i (fun _ => True)
      (S3BackupReader.readSelfSignedBundleBackup bucketProperties epoch)
      (fun r s => ∀ backup, r = .ok backup → StoredAs names s.buckets epoch backup) := by
  rw [readSelfSignedBundleBackup_eq ho]
  have hstable : ∀ (element : SelfSignedBundleBackupElement) (found : Option Bytes),
      (fleetContract config run names).Stable (fun s => ∀ bytes,
        (.ok found : Except Throwable (Option Bytes)) = .ok (some bytes) →
          HasPart names epoch element bytes s) :=
    fun element found => Contract.Stable.forall
      (fun bytes => Contract.Stable.imp (stable_hasPart _ _ bytes))
  have herror : ∀ (e : Throwable) (s : FleetState) (backup : SelfSignedBundleBackup),
      (.error e : Except Throwable SelfSignedBundleBackup) = .ok backup →
      StoredAs names s.buckets epoch backup := fun _ _ _ heq => by cases heq
  refine Contract.Meets.seq (meets_getArtifact epoch .cert) (fun cert => ?_)
    (fun e s _ _ => herror e s)
  refine Contract.Meets.seq_stable (hstable .cert cert) (meets_getArtifact epoch .kmsDataKey)
    (fun kms => ?_) (fun e s _ _ _ => herror e s)
  have h₂ := (hstable .kmsDataKey kms).and (hstable .cert cert)
  refine Contract.Meets.seq_stable h₂ (meets_getArtifact epoch .privateKey)
    (fun aead => ?_) (fun e s _ _ _ => herror e s)
  have h₃ := (hstable .privateKey aead).and h₂
  refine Contract.Meets.seq_stable h₃ (meets_getArtifact epoch .attestationDoc)
    (fun doc => ?_) (fun e s _ _ _ => herror e s)
  apply Contract.Meets.ofExcept
  rintro s - ⟨hdoc, haead, hkms, hcert⟩ backup hbackup element
  obtain ⟨rfl, rfl, rfl, rfl⟩ := assemble_eq_ok hbackup
  cases element with
  | cert => exact hcert _ rfl
  | attestationDoc => exact hdoc _ rfl
  | kmsDataKey => exact hkms _ rfl
  | privateKey => exact haead _ rfl

/-- Around `p`, entering and leaving the monitor change nothing. -/
theorem meets_withMonitor {α : Type} {handle : HandleRef} {p : MbsProg α}
    {Q : Except Throwable α → FleetState → Prop}
    (hQ : ∀ r, (fleetContract config run names).Stable (Q r))
    (herror : ∀ e s, Q (.error e) s) (hp : FleetMeets config run names i (fun _ => True) p Q) :
    FleetMeets config run names i (fun _ => True) (withMonitor handle p) Q := by
  have hcall : ∀ (o : MbsOp) (K : FleetState → Prop), Harmless o →
      (fleetContract config run names).Stable K →
      FleetMeets config run names i K (call o) (fun _ => K) :=
    fun o K ho hK => meets_of_harmless (Prog.Uses.invoke ho) hK
  refine Contract.Meets.seq (hcall (.monitorEnter handle) _ trivial (Contract.stable_const True))
    (fun _ => ?_) (fun e s _ _ => herror e s)
  refine Contract.Meets.finallyDo hp (fun r => ?_)
  refine Contract.Meets.seq (hcall (.monitorExit handle) _ trivial (hQ r)) (fun _ => ?_)
    (fun e s _ _ => herror e s)
  exact Contract.Meets.ofExcept (fun s _ h => h)

/-- What a handle returns, from the bucket or from what it keeps, is stored. -/
theorem meets_readSelfSignedHandle {bucketProperties : BackupBucketProperties}
    (ho : bucketProperties.On names) (generation : Nat) (epoch : Epoch) :
    FleetMeets config run names i (fun _ => True)
      (readSelfSignedHandle bucketProperties generation epoch)
      (fun r s => ∀ backup, r = .ok backup → StoredAs names s.buckets epoch backup) := by
  have hstable : ∀ r : Except Throwable SelfSignedBundleBackup,
      (fleetContract config run names).Stable
        (fun s => ∀ backup, r = .ok backup → StoredAs names s.buckets epoch backup) :=
    fun r => Contract.Stable.forall (fun backup => Contract.Stable.imp (stable_storedAs _ backup))
  have herror : ∀ (e : Throwable) (s : FleetState) (backup : SelfSignedBundleBackup),
      (.error e : Except Throwable SelfSignedBundleBackup) = .ok backup →
      StoredAs names s.buckets epoch backup := fun _ _ _ heq => by cases heq
  refine meets_withMonitor hstable herror ?_
  refine Contract.Meets.seq (R := fun r s => ∀ cached, r = .ok cached → ∀ backup,
    cached = some backup → StoredAs names s.buckets epoch backup) ?_ (fun cached => ?_)
    (fun e s _ _ => herror e s)
  · apply meets_call (o := .getCachedBackup generation epoch) trivial
    · exact fun r => Contract.Stable.forall (fun cached => Contract.Stable.imp
        (Contract.Stable.forall (fun backup => Contract.Stable.imp (stable_storedAs _ backup))))
    · rintro s hs - r s' ⟨rfl, rfl⟩ cached heq backup rfl
      exact (hs i).cached generation epoch backup (Except.ok.inj heq)
  · cases cached with
    | some backup =>
      intro s _ hK backup' heq
      rw [← Except.ok.inj heq]
      exact hK _ rfl backup rfl
    | none =>
      refine Contract.Meets.seq ((meets_readSelfSignedBundleBackup ho epoch).pre
        (fun _ _ _ => trivial)) (fun backup => ?_) (fun e s _ _ => herror e s)
      -- The backup is put into the handle while its artifacts are there.
      refine Contract.Meets.seq (R := fun _ s => StoredAs names s.buckets epoch backup)
        (Contract.Meets.invoke (o := MbsOp.setCachedBackup generation epoch backup)
          (fun _ => stable_storedAs epoch backup) ?_)
        (fun _ s _ hK backup' heq => ?_) (fun e s _ _ => herror e s)
      · rintro s hs hK r s' ⟨-, rfl⟩
        have hstored : StoredAs names s.buckets epoch backup := hK backup rfl
        refine ⟨sound_setMemory hs ⟨fun g e b hcached => ?_, (hs i).active⟩, fun _ _ _ h => h, hstored⟩
        simp only [InstanceMemory.setCachedBackup] at hcached
        split at hcached
        · next hsame =>
          obtain ⟨-, rfl⟩ := hsame
          rw [← Option.some.inj hcached]
          exact hstored
        · exact (hs i).cached g e b hcached
      · rw [← Except.ok.inj heq]
        exact hK

/-! ## A reload -/

section
variable {core : MbsCore}

theorem meets_useLoadedOrLoad {previousState : Option ActiveTrustState} {epoch : Epoch}
    {backup : SelfSignedBundleBackup} :
    FleetMeets config run names i
      (fun s => StoredAs names s.buckets epoch backup ∧ ∀ state, previousState = some state →
        SoundEntries config run names s.buckets state.selfSignedBundlesByEpoch)
      (core.trustPackageService.useLoadedOrLoadSelfSignedBundle
        (TrustPackageService.previouslyLoaded previousState epoch) backup)
      (fun r s => ∀ loaded, r = .ok loaded →
        SoundEntries config run names s.buckets [(epoch, loaded)]) := by
  have hone : ∀ {s : FleetState} {loaded : LoadedSelfSignedBundle},
      StoredAs names s.buckets epoch loaded.backup → Opened config run loaded →
      SoundEntries config run names s.buckets [(epoch, loaded)] := by
    intro s loaded hstored hopened entry hentry
    rw [List.mem_singleton.mp hentry]
    exact ⟨hstored, hopened⟩
  have hload : FleetMeets config run names i
      (fun s => StoredAs names s.buckets epoch backup ∧ ∀ state, previousState = some state →
        SoundEntries config run names s.buckets state.selfSignedBundlesByEpoch)
      (do
        let bundle ← core.trustPackageService.unsealBackup backup
        return (⟨backup, bundle⟩ : LoadedSelfSignedBundle))
      (fun r s => ∀ loaded, r = .ok loaded →
        SoundEntries config run names s.buckets [(epoch, loaded)]) := by
    refine Contract.Meets.seq (R := fun r s => ∀ bundle, r = .ok bundle →
      StoredAs names s.buckets epoch backup ∧ Opened config run ⟨backup, bundle⟩) ?_
      (fun bundle s _ hK loaded heq => ?_) (fun _ _ _ _ _ heq => by cases heq)
    · apply meets_call (o := .unsealBackup backup) trivial
      · exact fun r => Contract.Stable.forall (fun bundle => Contract.Stable.imp
          ((stable_storedAs _ backup).and (Contract.stable_const _)))
      · rintro s - ⟨hstored, -⟩ r s' ⟨rfl, hopens⟩ bundle rfl
        exact ⟨hstored, hopens bundle rfl⟩
    · obtain ⟨hstored, hopened⟩ := hK bundle rfl
      rw [← Except.ok.inj heq]
      exact hone hstored hopened
  unfold TrustPackageService.useLoadedOrLoadSelfSignedBundle
  split
  · next previous hprevious =>
    split
    · next hsame =>
      rintro s - ⟨-, hsound⟩ loaded heq
      rw [← Except.ok.inj heq]
      cases hstate : previousState with
      | none =>
        rw [hstate] at hprevious
        cases hprevious
      | some state =>
        rw [hstate] at hprevious
        obtain ⟨hstored, hopened⟩ := hsound state hstate _ (mem_of_lookup hprevious)
        exact hone hstored hopened
    · exact hload
  · exact hload

/-- By induction on the certificates that are left. -/
theorem meets_loadSelfSignedBundles (hw : core.writer.On names) (snapshot : S3StorageSnapshot)
    (previousState : Option ActiveTrustState) (certs : List SelfSignedCertificate) :
    FleetMeets config run names i
      (fun s => ∀ state, previousState = some state →
        SoundEntries config run names s.buckets state.selfSignedBundlesByEpoch)
      (core.trustPackageService.loadSelfSignedBundles (snapshot.toStorageSnapshot core.writer)
        previousState certs)
      (fun r s => ∀ entries, r = .ok entries → SoundEntries config run names s.buckets entries) := by
  have hprevious : (fleetContract config run names).Stable
      (fun s => ∀ state, previousState = some state →
        SoundEntries config run names s.buckets state.selfSignedBundlesByEpoch) :=
    Contract.Stable.forall (fun state => Contract.Stable.imp (stable_soundEntries _))
  induction certs with
  | nil =>
    intro s _ _ entries heq
    rw [← Except.ok.inj heq]
    exact fun entry hentry => by cases hentry
  | cons certConfig rest ih =>
    unfold TrustPackageService.loadSelfSignedBundles
    cases hhandle : ((snapshot.toStorageSnapshot core.writer).getSelfSignedBundleBackupHandle
        certConfig.epochId).expectComplete with
    | error e => exact fun _ _ _ _ heq => by cases heq
    | ok read =>
      have hread : FleetMeets config run names i (fun _ => True) read
          (fun r s => ∀ backup, r = .ok backup →
            StoredAs names s.buckets certConfig.epochId backup) := by
        simp only [S3StorageSnapshot.toStorageSnapshot,
          S3StorageSnapshot.getSelfSignedBundleBackupHandle] at hhandle
        split at hhandle
        · next generation epoch eTags hfound =>
          have hepoch : epoch = certConfig.epochId := snapshot.epoch_eq _ _ hfound
          rw [← Except.ok.inj hhandle, hepoch]
          exact meets_readSelfSignedHandle hw generation certConfig.epochId
        · cases hhandle
        · cases hhandle
        · cases hhandle
      show FleetMeets config run names i _ (Prog.bind read _) _
      refine Contract.Meets.seq_stable hprevious hread (fun backup => ?_)
        (fun _ _ _ _ _ _ heq => by cases heq)
      refine Contract.Meets.seq (R := fun r s => (∀ loaded, r = .ok loaded →
          SoundEntries config run names s.buckets [(certConfig.epochId, loaded)]) ∧
          ∀ state, previousState = some state →
            SoundEntries config run names s.buckets state.selfSignedBundlesByEpoch) ?_
        (fun loaded => ?_) (fun _ _ _ _ _ heq => by cases heq)
      · refine (Contract.Meets.frame meets_useLoadedOrLoad hprevious).pre ?_
        exact fun s _ hK => ⟨⟨hK.1 backup rfl, hK.2⟩, hK.2⟩
      · have hloaded : (fleetContract config run names).Stable (fun s =>
            SoundEntries config run names s.buckets [(certConfig.epochId, loaded)]) :=
          stable_soundEntries _
        refine Contract.Meets.seq ((Contract.Meets.frame ih hloaded).pre
          (fun s _ hK => ⟨hK.2, hK.1 loaded rfl⟩)) (fun others => ?_)
          (fun _ _ _ _ _ heq => by cases heq)
        rintro s - ⟨hothers, hfirst⟩ entries heq
        rw [← Except.ok.inj heq]
        intro entry hentry
        rcases List.mem_cons.mp hentry with rfl | hentry
        · exact hfirst _ (List.mem_singleton_self _)
        · exact hothers others rfl entry hentry

/-- The contract asks nothing of the outcome. -/
abbrev FleetKeeps (config : MbsConfiguration) (run : Draw → MbsRun) (names : BucketNames) (i : Nat)
    {α : Type} (p : MbsProg α) : Prop :=
  FleetMeets config run names i (fun _ => True) p (fun _ _ => True)

theorem fleetKeeps_of_harmless {α : Type} {p : MbsProg α} (hp : p.Uses Harmless) :
    FleetKeeps config run names i p := meets_of_harmless hp (Contract.stable_const True)

theorem fleetKeeps_bind {α β : Type} {p : MbsProg α} {f : α → MbsProg β}
    (hp : FleetKeeps config run names i p) (hf : ∀ a, FleetKeeps config run names i (f a)) :
    FleetKeeps config run names i (p.bind f) :=
  Contract.Meets.seq hp hf (fun _ _ _ _ => trivial)

theorem fleetKeeps_handle {α : Type} {p : MbsProg α} {h : Throwable → MbsProg α}
    (hp : FleetKeeps config run names i p) (hh : ∀ e, FleetKeeps config run names i (h e)) :
    FleetKeeps config run names i (p.handle h) :=
  Contract.Meets.handle hp (fun _ _ _ _ => trivial) hh

theorem harmless_readCrossSignedHandle (bucketProperties : BackupBucketProperties)
    (generation : Nat) (id : CrossSignedCertificateId) :
    (readCrossSignedHandle bucketProperties generation id).Uses Harmless := by
  refine Prog.Uses.bind (Prog.Uses.invoke trivial) (fun _ => Prog.Uses.finallyDo ?_
    (Prog.Uses.invoke trivial))
  refine Prog.Uses.bind (Prog.Uses.invoke trivial) (fun cached => ?_)
  match cached with
  | some backup => trivial
  | none =>
    exact Prog.Uses.bind (uses_readCrossSignedCertificateBackup (fun _ _ => trivial) _ _)
      (fun backup => Prog.Uses.bind (Prog.Uses.invoke trivial) (fun _ => trivial))

/-- The cross-signed certificates are kept apart from the backups. -/
theorem harmless_loadCrossSignedCertificates (snapshot : S3StorageSnapshot)
    (certs : List CrossSignedCertificate) :
    (core.trustPackageService.loadCrossSignedCertificates
      (snapshot.toStorageSnapshot core.writer) certs).Uses Harmless := by
  induction certs with
  | nil => trivial
  | cons crossCertConfig rest ih =>
    refine TrustPackageService.uses_ofExcept_bind (fun read hread => ?_)
    refine Prog.Uses.bind ?_ (fun backup => Prog.Uses.bind (Prog.Uses.handle
      (Prog.Uses.invoke trivial) (fun e => ?_)) (fun _ => Prog.Uses.bind ih (fun _ => trivial)))
    · simp only [S3StorageSnapshot.toStorageSnapshot,
        S3StorageSnapshot.getCrossSignedCertificateBackupHandle] at hread
      split at hread
      · rw [← Except.ok.inj hread]
        exact harmless_readCrossSignedHandle _ _ _
      · cases hread
    · split <;> trivial

theorem fleetKeeps_loadActiveTrustState (hw : core.writer.On names)
    (certificatesConfig : CertificatesConfig) :
    FleetKeeps config run names i
      (core.trustPackageService.loadActiveTrustState certificatesConfig) := by
  show FleetMeets config run names i _ (Prog.bind (S3BackupStorage.getSnapshot core.writer) _) _
  rw [getSnapshot_bind]
  refine fleetKeeps_bind (fleetKeeps_of_harmless (uses_takeSnapshot (fun _ _ => trivial)
    (fun _ _ => trivial))) (fun snapshot => ?_)
  have hbundles : FleetMeets config run names i (fun _ => True)
      (core.trustPackageService.loadActiveSelfSignedBundles
        (snapshot.toStorageSnapshot core.writer) certificatesConfig)
      (fun r s => ∀ entries, r = .ok entries →
        SoundEntries config run names s.buckets entries) := by
    refine Contract.Meets.seq (R := fun r s => ∀ previousState, r = .ok previousState →
      ∀ state, previousState = some state →
        SoundEntries config run names s.buckets state.selfSignedBundlesByEpoch) ?_
      (fun previousState => ?_) (fun _ _ _ _ _ heq => by cases heq)
    · apply meets_call (o := .getActiveTrustState) trivial
      · exact fun r => Contract.Stable.forall (fun previousState => Contract.Stable.imp
          (Contract.Stable.forall (fun state => Contract.Stable.imp (stable_soundEntries _))))
      · rintro s hs - r s' ⟨rfl, rfl⟩ previousState heq state rfl
        exact (hs i).active state (Except.ok.inj heq)
    · exact (meets_loadSelfSignedBundles hw snapshot previousState _).pre
        (fun _ _ hK => hK previousState rfl)
  refine Contract.Meets.seq hbundles (fun entries => ?_) (fun _ _ _ _ => trivial)
  have hstable : (fleetContract config run names).Stable
      (fun s => SoundEntries config run names s.buckets entries) := stable_soundEntries _
  refine Contract.Meets.seq ((meets_of_harmless ?_ hstable).pre (fun _ _ hK => hK entries rfl))
    (fun certificates => ?_) (fun _ _ _ _ => trivial)
  · exact harmless_loadCrossSignedCertificates snapshot _
  · apply Contract.Meets.invoke
      (o := MbsOp.setActiveTrustState ⟨core.mapOrder.copyOf entries, certificates⟩)
      (fun _ => Contract.stable_const True)
    rintro s hs hentries r s' ⟨-, rfl⟩
    refine ⟨sound_setMemory hs ⟨(hs i).cached, fun state heq => ?_⟩, fun _ _ _ h => h, trivial⟩
    rw [← Option.some.inj heq]
    exact fun entry hentry => hentries entry ((core.mapOrder.perm entries).mem_iff.mp hentry)

theorem fleetKeeps_reload (hw : core.writer.On names) (certificatesConfig : CertificatesConfig) :
    FleetKeeps config run names i (core.trustPackageService.reload certificatesConfig) := by
  have hcall : ∀ o, Harmless o → FleetKeeps config run names i (call o) :=
    fun o ho => fleetKeeps_of_harmless (Prog.Uses.invoke ho)
  have hraise : ∀ e : Throwable, FleetKeeps config run names i (.raise e : MbsProg Unit) :=
    fun _ _ _ _ => trivial
  have hload : FleetKeeps config run names i
      (core.trustPackageService.loadActiveTrustState certificatesConfig) :=
    fleetKeeps_loadActiveTrustState hw certificatesConfig
  refine fleetKeeps_handle (fleetKeeps_bind (fleetKeeps_handle hload (fun e => ?_))
    (fun _ => hcall _ trivial)) (fun e => ?_)
  · split
    · exact fleetKeeps_bind (hcall .sleep trivial) (fun _ => hload)
    · exact hraise e
  · split
    · exact fleetKeeps_bind (hcall (.recordLoadEvent _) trivial) (fun _ => hraise _)
    · exact hraise e

end

/-! ## Generating and fetching -/

theorem harmless_generateAndWriteAll {writer : S3BackupWriter} (hw : writer.On names)
    {certificatesConfig : CertificatesConfig} (missing : List (EmptyHandle MbsProg))
    (hmissing : ∀ empty ∈ missing,
      empty = ⟨empty.epoch, writer.writeSelfSignedBundleBackup empty.epoch⟩) :
    ((s3Generator writer).generateAndWriteAll certificatesConfig missing).Uses Harmless := by
  induction missing with
  | nil => trivial
  | cons empty rest ih =>
    refine Prog.Uses.bind ?_ (fun _ => ih (fun e he => hmissing e (List.mem_cons_of_mem empty he)))
    unfold DefaultCertificateGenerator.generateAndWrite
    split
    · trivial
    · refine Prog.Uses.bind (Prog.Uses.invoke trivial) (fun backup => ?_)
      rw [hmissing empty List.mem_cons_self]
      show (writer.writeSelfSignedBundleBackup empty.epoch backup).Uses Harmless
      rw [writeSelfSignedBundleBackup_eq hw]
      generalize writeOrder = order
      induction order with
      | nil => trivial
      | cons element order ih' => exact Prog.Uses.bind (uses_putIfAbsent trivial) (fun _ => ih')

theorem harmless_generateCertificates {writer : S3BackupWriter} (hw : writer.On names)
    (certificatesConfig : CertificatesConfig) :
    ((s3Generator writer).generateCertificates certificatesConfig).Uses Harmless := by
  have hsnapshot : (S3BackupStorage.takeSnapshot writer).Uses Harmless :=
    uses_takeSnapshot (fun _ _ => trivial) (fun _ _ => trivial)
  have hattempt : ((s3Generator writer).generateMissingSelfSignedBundleBackups
      certificatesConfig).Uses Harmless := by
    show Prog.Uses _ (Prog.bind (S3BackupStorage.getSnapshot writer) _)
    rw [getSnapshot_bind]
    refine Prog.Uses.bind hsnapshot (fun first => ?_)
    split
    · trivial
    · refine Prog.Uses.bind (uses_acquireLock (fun _ _ => trivial)) (fun _ => ?_)
      show Prog.Uses _ (Prog.bind (S3BackupStorage.getSnapshot writer) _)
      rw [getSnapshot_bind]
      refine Prog.Uses.bind hsnapshot (fun second => ?_)
      refine Prog.Uses.bind (harmless_generateAndWriteAll hw _ (fun _ => mem_findMissing_s3))
        (fun _ => uses_releaseLock elementPath_ne_lockPath)
  refine Prog.Uses.handle (Prog.Uses.bind (Prog.Uses.handle hattempt (fun e => ?_))
    (fun _ => Prog.Uses.invoke trivial)) (fun e => ?_)
  · split
    · exact Prog.Uses.bind (Prog.Uses.invoke trivial) (fun _ => hattempt)
    · trivial
  · split
    · exact Prog.Uses.bind (Prog.Uses.invoke trivial) (fun _ => trivial)
    · trivial

theorem harmless_fetchConfig (core : MbsCore) : core.monitor.fetchConfig.Uses Harmless := by
  have hrecord : ∀ event {α : Type} (e : Throwable), Prog.Uses Harmless
      ((call (.recordConfigEvent event)).bind (fun _ => .raise e) : MbsProg α) :=
    fun event _ e => Prog.Uses.bind (Prog.Uses.invoke (o := MbsOp.recordConfigEvent event) trivial)
      (fun _ => trivial)
  have hfetch : core.configProvider.fetch.Uses Harmless := by
    refine Prog.Uses.handle (Prog.Uses.invoke trivial) (fun e => ?_)
    split
    · exact hrecord _ _
    · split
      · exact hrecord _ _
      · trivial
  have hparse : ∀ textProto, (core.configProvider.parse textProto).Uses Harmless := by
    intro textProto
    refine Prog.Uses.handle (Prog.Uses.bind (Prog.Uses.ofExcept _) (fun config =>
      Prog.Uses.bind (Prog.Uses.invoke trivial) (fun _ => trivial))) (fun e => ?_)
    split
    · exact hrecord _ _
    · trivial
  have hdelegate : core.configProvider.getCertificatesConfig.Uses Harmless := by
    refine Prog.Uses.handle (Prog.Uses.bind hfetch (fun bytes =>
      Prog.Uses.bind (Prog.Uses.ofExcept _) (fun textProto => hparse textProto))) (fun e => ?_)
    split
    · exact hrecord _ _
    · trivial
  refine Prog.Uses.handle (Prog.Uses.bind (Prog.Uses.handle hdelegate (fun e => ?_))
    (fun _ => trivial)) (fun e => ?_)
  · split <;> trivial
  · split <;> trivial

theorem fleetKeeps_runOneIteration {core : MbsCore} (hw : core.writer.On names) :
    FleetKeeps config run names i core.monitor.runOneIteration := by
  have hswallow : ∀ {p : MbsProg Unit}, FleetKeeps config run names i p →
      FleetKeeps config run names i (Prog.handle (do
        p
        return true)
        (fun e => if e.instanceOf .exception then return false else throw e)) := by
    intro p hp
    refine fleetKeeps_handle (fleetKeeps_bind hp (fun _ _ _ _ => trivial)) (fun e => ?_)
    split <;> exact fun _ _ _ => trivial
  have hevent : ∀ event, FleetKeeps config run names i (core.monitor.recordEvent event) :=
    fun event => fleetKeeps_of_harmless (Prog.Uses.invoke (o := MbsOp.recordEvent event) trivial)
  refine fleetKeeps_bind (fleetKeeps_of_harmless (harmless_fetchConfig core)) (fun found => ?_)
  cases found with
  | none => exact hevent _
  | some certificatesConfig =>
    refine fleetKeeps_bind (hswallow (fleetKeeps_of_harmless
      (harmless_generateCertificates hw certificatesConfig))) (fun generated => ?_)
    exact fleetKeeps_bind (hswallow (fleetKeeps_reload hw certificatesConfig))
      (fun reloaded => hevent _)

/-! ## Every reachable state -/

theorem fleetContract_valid :
    (fleetContract config run names).Valid (fleetSystem config run names) where
  init s hs i := by
    rw [hs.2 i]
    exact .fresh s.buckets
  runs i p hp := by
    obtain ⟨core, hw, rfl⟩ := hp
    exact fleetKeeps_runOneIteration hw
  env s s' hs henv := by
    have hkeeps : KeepsArtifacts names s.buckets s'.buckets := by
      intro epoch element o ho
      rw [henv.1 epoch element]
      exact ho
    refine ⟨fun i => ?_, hkeeps⟩
    rcases henv.2 i with hsame | hlost
    · rw [hsame]
      exact (hs i).of_keeps hkeeps
    · rw [hlost]
      exact .fresh _

section
variable {w w' : State Nat FleetState MbsOp MbsOp.Val Throwable Unit}

/-- What is served was opened from a stored backup, now and ever after. -/
theorem stored_of_serves (hw : (fleetSystem config run names).Reachable w)
    (hsteps : (fleetSystem config run names).Steps w w') {epoch : Epoch}
    {loaded : LoadedSelfSignedBundle} (hserves : w.store.Serves i epoch loaded) :
    StoredAs names w'.store.buckets epoch loaded.backup ∧ Opened config run loaded := by
  obtain ⟨state, hactive, hmem⟩ := hserves
  obtain ⟨hstored, hopened⟩ := (fleetContract_valid.reachable hw i).active state hactive _ hmem
  exact ⟨hstored.of_keeps (fleetContract_valid.steps hw hsteps), hopened⟩

/-- A stored backup is one that a call of some instance's generator returned. -/
theorem generated_of_stored (hw : (fleetSystem config run names).Reachable w) {epoch : Epoch}
    {backup : SelfSignedBundleBackup} (hstored : StoredAs names w.store.buckets epoch backup) :
    ∃ j certConfig d, certConfig.epochId = epoch ∧
      .call j ⟨.generate certConfig, .ok backup⟩ ∈ w.log ∧
      SelfSignedBundleBackupGenerator.generate config (run d) certConfig = .ok backup := by
  have hvalid : ((writerOutline names).within FleetState.buckets).Valid
      (fleetSystem config run names) := fleet_writers_valid
  obtain ⟨ls, hinv, -⟩ := hvalid.reachable hw
  rcases OneSource.source hinv epoch with hnone | ⟨source, hgenerated, hparts⟩
  · obtain ⟨eTag, hcert⟩ := hstored .cert
    rw [hnone] at hcert
    cases hcert
  · obtain rfl : backup = source := by
      apply part_injective
      intro element
      obtain ⟨eTag, hartifact⟩ := hstored element
      exact hparts element _ hartifact
    obtain ⟨j, certConfig, hepoch, hcall⟩ := hgenerated
    obtain ⟨later, earlier, hlog⟩ := List.append_of_mem hcall
    obtain ⟨w₀, w₁, -, -, -, -, hstep⟩ := hw.answered hlog
    obtain ⟨d, hd⟩ := hstep.2 backup rfl
    exact ⟨j, certConfig, d, hepoch, hcall, hd⟩

/-- All instances serve the same bundle for an epoch, also when the one looks earlier than the
other. -/
theorem loaded_eq_of_serves {kms : AwsKms} (hcompatible : ∀ d d', (run d).Compatible (run d'))
    (hkms : ∀ d, (run d).aws.Serves kms) (hw : (fleetSystem config run names).Reachable w)
    (hsteps : (fleetSystem config run names).Steps w w') {i j : Nat} {epoch : Epoch}
    {loaded loaded' : LoadedSelfSignedBundle} (hserves : w.store.Serves i epoch loaded)
    (hserves' : w'.store.Serves j epoch loaded') : loaded' = loaded := by
  have hw' := hsteps.reachable hw
  obtain ⟨hstored, d, hopened⟩ := stored_of_serves hw hsteps hserves
  obtain ⟨hstored', d', hopened'⟩ := stored_of_serves hw' (.refl w') hserves'
  -- Both are made of the artifacts that are stored now, and these are of one backup.
  have hbackup : loaded'.backup = loaded.backup := by
    apply part_injective
    intro element
    obtain ⟨eTag, hartifact⟩ := hstored element
    obtain ⟨eTag', hartifact'⟩ := hstored' element
    rw [hartifact] at hartifact'
    exact (congrArg S3Object.content (Option.some.inj hartifact')).symm
  obtain ⟨-, certConfig, d₀, -, -, hd₀⟩ := generated_of_stored hw' hstored
  obtain ⟨made, -, hsame⟩ := SelfSignedBundleBackupGenerator.unsealBackup_generate (hkms d₀) hd₀
  rw [hbackup] at hopened'
  have hbundle : loaded'.bundle = loaded.bundle :=
    (hsame (run d') _ (hcompatible d₀ d') (hkms d') hopened').trans
      (hsame (run d) _ (hcompatible d₀ d) (hkms d) hopened).symm
  obtain ⟨backup, bundle⟩ := loaded
  obtain ⟨backup', bundle'⟩ := loaded'
  simp only at hbackup hbundle
  rw [hbackup, hbundle]

end
end

/-- Every bundle that an instance of the fleet serves for an epoch was made by one run of the
generator for that epoch, in some instance: its certificate and private key are that run's key
pair, and its token attests the public key. And all instances serve the same bundle for it, also
when the one looks earlier than the other. -/
theorem fleet_serves_one_identity {Draw : Type} {config : MbsConfiguration} {run : Draw → MbsRun}
    {names : BucketNames} {kms : AwsKms} (hcompatible : ∀ d d', (run d).Compatible (run d'))
    (hkms : ∀ d, (run d).aws.Serves kms) {w w' : State Nat FleetState MbsOp MbsOp.Val Throwable Unit}
    (hw : (fleetSystem config run names).Reachable w)
    (hsteps : (fleetSystem config run names).Steps w w') :
    (∀ i epoch loaded, w.store.Serves i epoch loaded →
      ∃ j certConfig d, certConfig.epochId = epoch ∧
        .call j ⟨.generate certConfig, .ok loaded.backup⟩ ∈ w.log ∧
        SelfSignedBundleBackupGenerator.generate config (run d) certConfig = .ok loaded.backup ∧
        SelfSignedBundleBackupGenerator.Makes config (run d) certConfig loaded.bundle) ∧
    (∀ i j epoch loaded loaded', w.store.Serves i epoch loaded → w'.store.Serves j epoch loaded' →
      loaded' = loaded) := by
  refine ⟨fun i epoch loaded hserves => ?_, fun i j epoch loaded loaded' hserves hserves' => ?_⟩
  · obtain ⟨hstored, d', hopened⟩ := stored_of_serves hw (.refl w) hserves
    obtain ⟨j, certConfig, d, hepoch, hcall, hd⟩ := generated_of_stored hw hstored
    obtain ⟨made, hmakes, hsame⟩ :=
      SelfSignedBundleBackupGenerator.unsealBackup_generate (hkms d) hd
    rw [← hsame (run d') loaded.bundle (hcompatible d d') (hkms d') hopened] at hmakes
    exact ⟨j, certConfig, d, hepoch, hcall, hd, hmakes⟩
  · exact loaded_eq_of_serves hcompatible hkms hw hsteps hserves hserves'

/-! Two instances. KMS fails instance 1 under the lock, and the lock stays behind. Once somebody
has removed it, instance 0 makes the identity of epoch 0, and both load it and serve it. -/

namespace Sample

/-- The instances, with what S3 holds. They seal with the run of key 1 and open with that of
key 2. -/
structure LocalFleet where
  s3 : LocalS3
  memory : Nat → InstanceMemory
  kmsAnswers : Bool

namespace LocalFleet

def state (t : LocalFleet) : FleetState := ⟨t.s3.buckets, t.memory⟩

def setMemory (t : LocalFleet) (i : Nat) (m : InstanceMemory) : LocalFleet :=
  { t with memory := Function.update t.memory i m }

def serve (i : Nat) (t : LocalFleet) (o : MbsOp) : Except Throwable o.Val × LocalFleet :=
  match o with
  | .updateCachedSnapshot eTagsByEpoch eTagsByCrossSignedId =>
    let updated := (t.memory i).updateCachedSnapshot eTagsByEpoch eTagsByCrossSignedId
    (.ok updated.cachedSnapshot, t.setMemory i updated)
  | .getCachedBackup generation epoch => (.ok ((t.memory i).cachedBackup generation epoch), t)
  | .setCachedBackup generation epoch backup =>
    (.ok (), t.setMemory i ((t.memory i).setCachedBackup generation epoch backup))
  | .getCachedCrossSigned generation id =>
    (.ok ((t.memory i).cachedCrossSigned generation id), t)
  | .setCachedCrossSigned generation id backup =>
    (.ok (), t.setMemory i ((t.memory i).setCachedCrossSigned generation id backup))
  | .getActiveTrustState => (.ok (t.memory i).activeTrustState, t)
  | .setActiveTrustState state =>
    (.ok (), t.setMemory i { t.memory i with activeTrustState := some state })
  | .generate certConfig =>
    (if t.kmsAnswers then
      SelfSignedBundleBackupGenerator.generate mbsConfiguration (mbsRun 1) certConfig
    else .error { cls := .kmsException }, t)
  | .unsealBackup backup => ((mbsConfiguration.backupSealer (mbsRun 2)).unsealBackup backup, t)
  | o => ((t.s3.serve o).1, { t with s3 := (t.s3.serve o).2 })

theorem fleetStep_serve (i : Nat) (t : LocalFleet) (o : MbsOp) :
    fleetStep mbsConfiguration mbsRun i t.state o (t.serve i o).1 (t.serve i o).2.state := by
  have hs3 := t.s3.s3Step_serve o
  cases o with
  | generate certConfig =>
    refine ⟨rfl, fun backup h => ⟨1, ?_⟩⟩
    simp only [serve] at h
    split at h
    · exact h
    · cases h
  | unsealBackup backup => exact ⟨rfl, fun bundle h => ⟨2, h⟩⟩
  | updateCachedSnapshot a c => exact ⟨rfl, rfl⟩
  | getCachedBackup g e => exact ⟨rfl, rfl⟩
  | setCachedBackup g e b => exact ⟨rfl, rfl⟩
  | getCachedCrossSigned g id => exact ⟨rfl, rfl⟩
  | setCachedCrossSigned g id b => exact ⟨rfl, rfl⟩
  | getActiveTrustState => exact ⟨rfl, rfl⟩
  | setActiveTrustState state => exact ⟨rfl, rfl⟩
  | _ => exact ⟨hs3, rfl⟩

def iteration (i : Nat) (t : LocalFleet) :
    Except Throwable Unit × List (Event MbsOp MbsOp.Val Throwable) × LocalFleet :=
  drive (serve i) core.monitor.runOneIteration t

end LocalFleet

def newFleet : LocalFleet := ⟨.fresh none true, fun _ => .fresh, false⟩

/-- After the iteration of instance 1 that KMS failed. -/
def lockedFleet : LocalFleet := (newFleet.iteration 1).2.2

/-- The lock is gone and KMS answers again. -/
def freedFleet : LocalFleet where
  s3 := (lockedFleet.s3.serve (.deleteObject names.privateBucket S3BackupPaths.lockPath)).2
  memory := lockedFleet.memory
  kmsAnswers := true

def servingFleet : LocalFleet := ((freedFleet.iteration 0).2.2.iteration 1).2.2

theorem newFleet_init : (fleetSystem mbsConfiguration mbsRun names).init newFleet.state :=
  ⟨fun _ _ => rfl, fun _ => rfl⟩

theorem newFleet_failed : ∃ certConfig e,
    ⟨.generate certConfig, .error e⟩ ∈ (newFleet.iteration 1).2.1 := by
  -- That some call failed to generate is computed; which one it was comes out of the list.
  have hany : (newFleet.iteration 1).2.1.any (fun ev => ev.op.isGenerate && !ev.ans.isOk) = true := by
    rfl
  obtain ⟨⟨o, r⟩, hmem, hfailed⟩ := List.any_eq_true.mp hany
  cases o with
  | generate certConfig => cases r with
    | ok backup => cases hfailed
    | error e => exact ⟨certConfig, e, hmem⟩
  | _ => cases hfailed

/-- The lock is no artifact, so anybody may remove it. -/
theorem freedFleet_env :
    (fleetSystem mbsConfiguration mbsRun names).env lockedFleet.state freedFleet.state := by
  refine ⟨fun epoch element => ?_, fun _ => .inl rfl⟩
  have hdelete : freedFleet.s3.buckets =
      lockedFleet.s3.buckets.set names.privateBucket S3BackupPaths.lockPath none :=
    LocalS3.buckets_filter _ _ _
  show artifact names freedFleet.s3.buckets epoch element = _
  rw [hdelete, artifact_set_of_ne (elementPath_ne_lockPath element epoch)]
  rfl

def idle : Nat → Option (MbsProg Unit) := fun _ => none

theorem iteration_steps (t : LocalFleet) (i : Nat)
    (log : List (Entry Nat MbsOp MbsOp.Val Throwable Unit)) :
    (fleetSystem mbsConfiguration mbsRun names).Steps ⟨t.state, idle, log⟩
      ⟨(t.iteration i).2.2.state, idle, .finish i (t.iteration i).1 ::
        (((t.iteration i).2.1.map (.call i)).reverse ++ .start i :: log)⟩ := by
  have hruns : (fleetSystem mbsConfiguration mbsRun names).runs i core.monitor.runOneIteration :=
    ⟨core, ⟨rfl, rfl⟩, rfl⟩
  exact System.Steps.drive (LocalFleet.serve i) (LocalFleet.fleetStep_serve i) hruns t rfl log

theorem freedFleet_reachable : ∃ log, (fleetSystem mbsConfiguration mbsRun names).Reachable
    ⟨freedFleet.state, idle, log⟩ ∧
    ∃ certConfig e, .call 1 ⟨.generate certConfig, .error e⟩ ∈ log := by
  have hlocked := (iteration_steps newFleet 1 []).reachable (.init _ newFleet_init)
  refine ⟨_, hlocked.step (.env _ _ freedFleet_env), ?_⟩
  obtain ⟨certConfig, e, hmem⟩ := newFleet_failed
  refine ⟨certConfig, e, List.mem_cons_of_mem _ (List.mem_cons_of_mem _ ?_)⟩
  exact List.mem_append_left _ (List.mem_reverse.mpr (List.mem_map_of_mem hmem))

theorem servingFleet_serves : ∀ i ∈ [0, 1], ∃ loaded, servingFleet.state.Serves i 0 loaded := by
  intro i hi
  have hepochs : (servingFleet.memory i).activeTrustState.map
      (fun state => state.selfSignedBundlesByEpoch.map Prod.fst) = some [0] := by
    fin_cases hi <;> rfl
  obtain ⟨state, hactive, hstate⟩ := Option.map_eq_some_iff.mp hepochs
  have hepoch : 0 ∈ state.selfSignedBundlesByEpoch.map Prod.fst := by
    rw [hstate]
    exact List.mem_singleton_self _
  obtain ⟨⟨epoch, loaded⟩, hmem, rfl⟩ := List.mem_map.mp hepoch
  exact ⟨loaded, state, hactive, hmem⟩

end Sample

theorem fleet_serves_epoch_zero :
    ∃ w loaded, (fleetSystem Sample.mbsConfiguration Sample.mbsRun Sample.names).Reachable w ∧
      (∃ certConfig e, .call 1 ⟨.generate certConfig, .error e⟩ ∈ w.log) ∧
      w.store.Serves 0 0 loaded ∧ w.store.Serves 1 0 loaded ∧
      ∃ j certConfig d, certConfig.epochId = 0 ∧
        .call j ⟨.generate certConfig, .ok loaded.backup⟩ ∈ w.log ∧
        SelfSignedBundleBackupGenerator.generate Sample.mbsConfiguration (Sample.mbsRun d)
          certConfig = .ok loaded.backup ∧
        SelfSignedBundleBackupGenerator.Makes Sample.mbsConfiguration (Sample.mbsRun d) certConfig
          loaded.bundle := by
  obtain ⟨log, hfreed, certConfig, e, hfailed⟩ := Sample.freedFleet_reachable
  have hsteps := (Sample.iteration_steps Sample.freedFleet 0 log).trans
    (Sample.iteration_steps (Sample.freedFleet.iteration 0).2.2 1 _)
  have hreach := hsteps.reachable hfreed
  obtain ⟨loaded, hserves⟩ := Sample.servingFleet_serves 0 (by decide)
  obtain ⟨loaded', hserves'⟩ := Sample.servingFleet_serves 1 (by decide)
  obtain ⟨hmade, hsame⟩ := fleet_serves_one_identity Sample.mbsRun_compatible Sample.awsRun_serves
    hreach (.refl _)
  obtain rfl : loaded' = loaded := hsame 0 1 0 loaded loaded' hserves hserves'
  exact ⟨_, loaded', hreach, ⟨certConfig, e, hsteps.log_suffix.subset hfailed⟩, hserves, hserves',
    hmade 0 0 loaded' hserves⟩

end Mbs
