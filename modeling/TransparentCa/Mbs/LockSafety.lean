import TransparentCa.Mbs.WriterSafety

/- The generation lock. Instances run `generateCertificates` any number of times in any
   interleaving, with failures anywhere. A run is inside the section from the put that
   created the lock to its delete; both are read off the log (`Inside`). The invariant is
   that whoever is inside left the lock in its bucket, so the next put of it is refused.
   Nothing in the code checks the lock again: deletes and artifact puts stay inside because
   they come after the put in the same run. -/
namespace Mbs
open Java Effects

section
variable (names : BucketNames)

/-- A put that created the lock. -/
def IsAcquire (ev : Event MbsOp MbsOp.Val Throwable) : Prop :=
  match ev with
  | ⟨.putObject bucket key _ _, .ok _⟩ => bucket = names.privateBucket ∧ key = S3BackupPaths.lockPath
  | _ => False

/-- A delete of the lock, whatever it reported. -/
def IsRelease (ev : Event MbsOp MbsOp.Val Throwable) : Prop :=
  match ev.op with
  | .deleteObject bucket key => bucket = names.privateBucket ∧ key = S3BackupPaths.lockPath
  | _ => False

/-- A put of a self-signed artifact. -/
def IsArtifactPut (ev : Event MbsOp MbsOp.Val Throwable) : Prop :=
  match ev.op with
  | .putObject bucket key _ _ =>
    ∃ element epoch, bucket = names.of element ∧ key = elementPath element epoch
  | _ => False

/-- Process `i` is between its successful `acquireLock` and its `releaseLock`: the last of
its entries that matters is a put that created the lock. -/
def Inside (i : Nat) : List (MbsEntry Unit) → Prop
  | [] => False
  | .call j ev :: log => (j = i ∧ IsAcquire names ev) ∨ (¬ (j = i ∧ IsRelease names ev) ∧ Inside i log)
  | .start j :: log => j ≠ i ∧ Inside i log
  | .finish j _ :: log => j ≠ i ∧ Inside i log
  | .stop j :: log => j ≠ i ∧ Inside i log
  | .env :: log => Inside i log

/-- Every delete of the lock and every put of an artifact was made from inside. -/
def Disciplined : List (MbsEntry Unit) → Prop
  | [] => True
  | entry :: log => (∀ i ev, entry = .call i ev → IsRelease names ev ∨ IsArtifactPut names ev →
      Inside names i log) ∧ Disciplined log

def lockObject (s : Buckets) : Option S3Object := s names.privateBucket S3BackupPaths.lockPath

/-- Instances that run the generator. Nobody else touches the lock. -/
def lockSystem : System Nat Buckets MbsOp MbsOp.Val Throwable Unit where
  init _ := True
  runs _ p := ∃ writer config, S3BackupWriter.On writer names ∧
    p = (s3Generator writer).generateCertificates config
  step _ := s3Step .any
  env s s' := lockObject names s' = lockObject names s

/-- The private state says whether the process is inside. -/
structure Exclusive (s : Buckets) (log : List (MbsEntry Unit)) (ls : Nat → Bool) : Prop where
  inside : ∀ i, ls i = true ↔ Inside names i log
  locked : ∀ i, ls i = true → lockObject names s ≠ none
  unique : ∀ i j, ls i = true → ls j = true → i = j
  disciplined : Disciplined names log

def lockOutline : Outline Nat Buckets MbsOp MbsOp.Val Throwable Unit Bool where
  inv := Exclusive names
  idle l := l = false
  guar _ _ := True

end

section
variable {names : BucketNames} {s s' : Buckets} {log : List (MbsEntry Unit)} {ls : Nat → Bool}
  {i : Nat} {writer : S3BackupWriter}

/-! ## Steps -/

/-- A call that is neither of the lock nor of an artifact leaves everything as it is. -/
theorem Exclusive.call_other (h : Exclusive names s log ls)
    (ev : Event MbsOp MbsOp.Val Throwable) (hs : lockObject names s' = lockObject names s)
    (hacquire : ¬ IsAcquire names ev) (hrelease : ¬ IsRelease names ev)
    (hput : IsArtifactPut names ev → ls i = true) :
    Exclusive names s' (.call i ev :: log) ls where
  inside j := by
    rw [h.inside j]
    simp [Inside, hacquire, hrelease]
  locked j hj := by
    rw [hs]
    exact h.locked j hj
  unique := h.unique
  disciplined := by
    refine ⟨fun j ev' heq hor => ?_, h.disciplined⟩
    cases heq
    rcases hor with hr | hp
    · exact absurd hr hrelease
    · exact (h.inside i).mp (hput hp)

/-- Nobody was inside when the lock was created. -/
theorem Exclusive.acquire (h : Exclusive names s log ls)
    (ev : Event MbsOp MbsOp.Val Throwable) (hacquire : IsAcquire names ev)
    (hput : ¬ IsArtifactPut names ev) (hrelease : ¬ IsRelease names ev)
    (hnone : lockObject names s = none) (hsome : lockObject names s' ≠ none) :
    Exclusive names s' (.call i ev :: log) (Function.update ls i true) := by
  have hout : ∀ j, ls j = false := by
    intro j
    cases hj : ls j with
    | false => rfl
    | true => exact absurd hnone (h.locked j hj)
  have hins : ∀ j, Inside names j log → False := by
    intro j hj
    have := (h.inside j).mpr hj
    rw [hout j] at this
    cases this
  have honly : ∀ j, Function.update ls i true j = true → j = i := by
    intro j hj
    rcases update_cases hj with ⟨hji, -⟩ | ⟨-, hj⟩
    · exact hji
    · rw [hout j] at hj
      cases hj
  exact
    { inside := by
        intro j
        refine ⟨fun hj => .inl ⟨(honly j hj).symm, hacquire⟩, fun hj => ?_⟩
        rcases hj with ⟨rfl, -⟩ | ⟨-, hj⟩
        · exact Function.update_self ..
        · exact absurd hj (hins j)
      locked := fun _ _ => hsome
      unique := fun j k hj hk => (honly j hj).trans (honly k hk).symm
      disciplined := by
        refine ⟨fun j ev' heq hor => ?_, h.disciplined⟩
        cases heq
        rcases hor with hr | hp
        · exact absurd hr hrelease
        · exact absurd hp hput }

/-- The process inside leaves; after that nobody is. -/
theorem Exclusive.release (h : Exclusive names s log ls) (hi : ls i = true)
    (ev : Event MbsOp MbsOp.Val Throwable) (hacquire : ¬ IsAcquire names ev)
    (hrelease : IsRelease names ev) :
    Exclusive names s' (.call i ev :: log) (Function.update ls i false) := by
  have hout : ∀ j, Function.update ls i false j ≠ true := by
    intro j hj
    rcases update_cases hj with ⟨-, hj⟩ | ⟨hji, hj⟩
    · cases hj
    · exact hji (h.unique j i hj hi)
  exact
    { inside := by
        intro j
        refine ⟨fun hj => absurd hj (hout j), fun hj => ?_⟩
        rcases hj with ⟨-, hacq⟩ | ⟨hnot, hj⟩
        · exact absurd hacq hacquire
        · have hji := h.unique j i ((h.inside j).mpr hj) hi
          exact absurd ⟨hji.symm, hrelease⟩ hnot
      locked := fun j hj => absurd hj (hout j)
      unique := fun j _ hj => absurd hj (hout j)
      disciplined := by
        refine ⟨fun j ev' heq _ => ?_, h.disciplined⟩
        cases heq
        exact (h.inside i).mp hi }

/-- A run that begins or ends is not inside. -/
theorem Exclusive.leave (h : Exclusive names s log ls) {entry : MbsEntry Unit}
    (hinside : ∀ j, Inside names j (entry :: log) ↔ i ≠ j ∧ Inside names j log)
    (hcall : ∀ j ev, entry ≠ .call j ev) :
    Exclusive names s (entry :: log) (Function.update ls i false) where
  inside j := by
    rw [hinside]
    refine ⟨fun hj => ?_, fun hj => ?_⟩
    · rcases update_cases hj with ⟨-, hj⟩ | ⟨hji, hj⟩
      · cases hj
      · exact ⟨fun heq => hji heq.symm, (h.inside j).mp hj⟩
    · rw [Function.update_of_ne (fun heq => hj.1 heq.symm)]
      exact (h.inside j).mpr hj.2
  locked j hj := by
    rcases update_cases hj with ⟨-, hj⟩ | ⟨-, hj⟩
    · cases hj
    · exact h.locked j hj
  unique j k hj hk := by
    rcases update_cases hj with ⟨-, hj⟩ | ⟨-, hj⟩
    · cases hj
    · rcases update_cases hk with ⟨-, hk⟩ | ⟨-, hk⟩
      · cases hk
      · exact h.unique j k hj hk
  disciplined := ⟨fun j ev heq => absurd heq (hcall j ev), h.disciplined⟩

/-! ## Programs -/

theorem not_isArtifactPut_lock {bucket : JString} {content : Bytes} {cacheControl : JString}
    {r : Except Throwable Unit} :
    ¬ IsArtifactPut names ⟨.putObject bucket S3BackupPaths.lockPath content cacheControl, r⟩ := by
  intro h
  obtain ⟨element, epoch, -, hkey⟩ := h
  exact elementPath_ne_lockPath element epoch hkey.symm

section
variable {ev : Event MbsOp MbsOp.Val Throwable}

theorem isWrite_of_isAcquire (h : IsAcquire names ev) : ev.op.isWrite = true := by
  obtain ⟨o, r⟩ := ev
  cases o <;> cases r <;> first
    | rfl
    | exact False.elim h

theorem isWrite_of_isRelease (h : IsRelease names ev) : ev.op.isWrite = true := by
  obtain ⟨o, r⟩ := ev
  cases o <;> first
    | rfl
    | exact False.elim h

theorem isWrite_of_isArtifactPut (h : IsArtifactPut names ev) : ev.op.isWrite = true := by
  obtain ⟨o, r⟩ := ev
  cases o <;> first
    | rfl
    | exact False.elim h

end

/-- Calls that write nothing, in any number and order. -/
theorem lock_ok_of_reads {α : Type} {p : MbsProg α} {l : Bool}
    (hp : p.Uses (fun o => o.isWrite = false)) :
    (lockOutline names).Ok (lockSystem names) i l p (fun l' _ => l' = l) := by
  apply Outline.Ok.of_uses hp
  intro o ho s log ls hinv _ r s' hstep
  have hs : s' = s := s3Step_of_not_write hstep ho
  have hread : ¬ o.isWrite = true := by rw [ho]; decide
  refine ⟨trivial, hinv.call_other ⟨o, r⟩ (by rw [hs]) ?_ ?_ ?_⟩
  · exact fun h => hread (isWrite_of_isAcquire h)
  · exact fun h => hread (isWrite_of_isRelease h)
  · exact fun h => absurd (isWrite_of_isArtifactPut h) hread

theorem lock_ok_acquireLock (hw : writer.On names) {l : Bool} :
    (lockOutline names).Ok (lockSystem names) i l writer.acquireLock (fun l' r => match r with
      | .ok _ => l' = true
      | .error _ => True) := by
  have hput : (lockOutline names).Ok (lockSystem names) i l
      (call (.putObject names.privateBucket S3BackupPaths.lockPath writer.instanceId
        (u "no-cache"))) (fun l' r => match r with
          | .ok _ => l' = true
          | .error _ => True) := by
    apply Outline.Ok.invoke
    intro s log ls hinv hi r s' hstep
    cases r with
    | ok _ =>
      obtain ⟨hnone, eTag, rfl⟩ := hstep
      have hacquire : IsAcquire names ⟨.putObject names.privateBucket S3BackupPaths.lockPath
          writer.instanceId (u "no-cache"), .ok ()⟩ := ⟨rfl, rfl⟩
      refine ⟨trivial, true, ?_, rfl⟩
      apply hinv.acquire _ hacquire not_isArtifactPut_lock (fun h => h) hnone
      rw [lockObject, Buckets.set_self]
      exact Option.some_ne_none _
    | error e =>
      refine ⟨trivial, l, ?_, trivial⟩
      rw [← hi, Function.update_eq_self]
      -- The put may have created the lock all the same; then nobody is inside.
      rcases hstep with rfl | ⟨hnone, eTag, rfl⟩
      · exact hinv.call_other _ rfl (fun h => h) (fun h => h)
          (fun h => absurd h not_isArtifactPut_lock)
      · have hout : ∀ j, ls j ≠ true := fun j hj => hinv.locked j hj hnone
        have hsame : Exclusive names s (.call i ⟨.putObject names.privateBucket
            S3BackupPaths.lockPath writer.instanceId (u "no-cache"), .error e⟩ :: log) ls :=
          hinv.call_other _ rfl (fun h => h) (fun h => h)
            (fun h => absurd h not_isArtifactPut_lock)
        exact ⟨hsame.inside, fun j hj => absurd hj (hout j), hsame.unique, hsame.disciplined⟩
  unfold S3BackupWriter.acquireLock S3BackupWriter.putIfAbsent
  rw [hw.2]
  apply Outline.Ok.handle
  apply Outline.Ok.handle
  apply hput.mono
  intro l' r hr
  cases r with
  | ok _ => exact hr
  | error e =>
    show Outline.Ok _ _ _ _ (if _ then _ else _) _
    split <;> trivial

theorem lock_ok_releaseLock (hw : writer.On names) :
    (lockOutline names).Ok (lockSystem names) i true writer.releaseLock (fun _ _ => True) := by
  have hdelete : (lockOutline names).Ok (lockSystem names) i true
      (call (.deleteObject names.privateBucket S3BackupPaths.lockPath)) (fun _ _ => True) := by
    apply Outline.Ok.invoke
    intro s log ls hinv hi r s' _
    refine ⟨trivial, false, ?_, trivial⟩
    exact hinv.release hi _ (fun h => h) ⟨rfl, rfl⟩
  unfold S3BackupWriter.releaseLock
  rw [hw.2]
  apply Outline.Ok.handle
  apply hdelete.mono
  intro l' r _
  cases r with
  | ok _ => trivial
  | error e =>
    show Outline.Ok _ _ _ _ (if _ then _ else _) _
    split <;> trivial

theorem lock_ok_putArtifacts {epoch : Epoch} {backup : SelfSignedBundleBackup}
    (rest : List SelfSignedBundleBackupElement) :
    (lockOutline names).Ok (lockSystem names) i true (writer.putArtifacts names epoch backup rest)
      (fun l _ => l = true) := by
  induction rest with
  | nil => rfl
  | cons element rest ih =>
    apply Outline.Ok.bind
    apply Outline.Ok.handle
    apply Outline.Ok.invoke
    intro s log ls hinv hi r s' hstep
    have hlock : lockObject names s' = lockObject names s := by
      rcases s3Step_put hstep with ⟨rfl, -⟩ | ⟨-, eTag, rfl⟩
      · rfl
      · exact Buckets.set_of_key_ne (elementPath_ne_lockPath element epoch).symm
    have hnot : ¬ IsAcquire names ⟨.putObject (names.of element) (elementPath element epoch)
        (backup.part element) writer.bucketProperties.cacheControl, r⟩ := by
      cases r with
      | ok _ => exact fun h => elementPath_ne_lockPath element epoch h.2
      | error _ => exact fun h => h
    refine ⟨trivial, true, ?_, ?_⟩
    · rw [← hi, Function.update_eq_self]
      exact hinv.call_other _ hlock hnot (fun h => h) (fun _ => hi)
    · cases r with
      | ok _ => exact ih
      | error e => rfl

theorem lock_ok_generateAndWriteAll (hw : writer.On names) (config : CertificatesConfig)
    (missing : List (EmptyHandle MbsProg))
    (hmissing : ∀ empty ∈ missing,
      empty = ⟨empty.epoch, writer.writeSelfSignedBundleBackup empty.epoch⟩) :
    (lockOutline names).Ok (lockSystem names) i true
      ((s3Generator writer).generateAndWriteAll config missing) (fun l _ => l = true) := by
  induction missing with
  | nil => rfl
  | cons empty missing ih =>
    have hone : (lockOutline names).Ok (lockSystem names) i true
        ((s3Generator writer).generateAndWrite config empty) (fun l _ => l = true) := by
      unfold DefaultCertificateGenerator.generateAndWrite
      split
      · rfl
      · refine Outline.Ok.seq (lock_ok_of_reads (Prog.Uses.invoke rfl)) (fun _ backup hkept => ?_)
          (fun _ _ hkept => hkept)
        rw [hkept, hmissing empty List.mem_cons_self]
        show (lockOutline names).Ok _ i true
          (writer.writeSelfSignedBundleBackup empty.epoch backup) _
        rw [writeSelfSignedBundleBackup_eq hw]
        exact lock_ok_putArtifacts writeOrder
    refine Outline.Ok.seq hone (fun _ _ hkept => ?_) (fun _ _ hkept => hkept)
    rw [hkept]
    exact ih (fun e he => hmissing e (List.mem_cons_of_mem empty he))

theorem lock_ok_takeSnapshot {l : Bool} :
    (lockOutline names).Ok (lockSystem names) i l (S3BackupStorage.takeSnapshot writer)
      (fun l' _ => l' = l) :=
  lock_ok_of_reads (uses_takeSnapshot (fun _ _ => rfl) (fun _ _ => rfl))

theorem lock_ok_generateMissing (hw : writer.On names) (config : CertificatesConfig) :
    (lockOutline names).Anywhere (lockSystem names) i
      ((s3Generator writer).generateMissingSelfSignedBundleBackups config) := by
  unfold DefaultCertificateGenerator.generateMissingSelfSignedBundleBackups
  show (lockOutline names).Anywhere _ i ((S3BackupStorage.getSnapshot writer).bind _)
  rw [getSnapshot_bind]
  apply Outline.Anywhere.bind (fun l => lock_ok_takeSnapshot.mono (fun _ _ _ => trivial))
  intro first
  split
  · exact fun _ => trivial
  · intro l
    refine Outline.Ok.seq (lock_ok_acquireLock hw) (fun _ _ hacquired => ?_)
      (fun _ _ _ => trivial)
    rw [show _ = true from hacquired]
    show (lockOutline names).Ok _ i true ((S3BackupStorage.getSnapshot writer).bind _) _
    rw [getSnapshot_bind]
    refine Outline.Ok.seq lock_ok_takeSnapshot (fun _ second hkept => ?_) (fun _ _ _ => trivial)
    rw [hkept]
    refine Outline.Ok.seq
      (lock_ok_generateAndWriteAll hw config _ (fun empty => mem_findMissing_s3))
      (fun _ _ hkept => ?_) (fun _ _ _ => trivial)
    rw [hkept]
    exact lock_ok_releaseLock hw

theorem lock_ok_generateCertificates (hw : writer.On names) (config : CertificatesConfig) :
    (lockOutline names).Anywhere (lockSystem names) i
      ((s3Generator writer).generateCertificates config) := by
  have hcall : ∀ {o : MbsOp}, o.isWrite = false →
      (lockOutline names).Anywhere (lockSystem names) i (call o) :=
    fun ho l => (lock_ok_of_reads (Prog.Uses.invoke ho)).mono (fun _ _ _ => trivial)
  exact anywhere_generateCertificates (lock_ok_generateMissing hw config) (hcall rfl)
    (fun _ => hcall rfl)

theorem lockOutline_valid (names : BucketNames) :
    (lockOutline names).Valid (lockSystem names) where
  guar_refl _ := trivial
  init s _ := by
    refine ⟨fun _ => false, ?_, fun _ => rfl⟩
    exact
      { inside := fun i => by simp [Inside]
        locked := fun _ h => by cases h
        unique := fun _ _ h => by cases h
        disciplined := trivial }
  start i p s log ls hp hinv _ := by
    obtain ⟨writer, config, hw, rfl⟩ := hp
    refine ⟨false, hinv.leave (fun _ => Iff.rfl) (fun _ _ h => by cases h), ?_⟩
    apply (lock_ok_generateCertificates hw config false).mono
    intro l out _ s log ls hinv _
    exact ⟨false, rfl, hinv.leave (fun _ => Iff.rfl) (fun _ _ h => by cases h)⟩
  stop i s log ls hinv :=
    ⟨false, rfl, hinv.leave (fun _ => Iff.rfl) (fun _ _ h => by cases h)⟩
  env s s' log ls hinv henv :=
    { inside := hinv.inside
      locked := fun i hi => by
        rw [show lockObject names s' = lockObject names s from henv]
        exact hinv.locked i hi
      unique := hinv.unique
      disciplined := ⟨fun _ _ h => (by cases h), hinv.disciplined⟩ }

/-! ## Every reachable state -/

section
variable {w w' : State Nat Buckets MbsOp MbsOp.Val Throwable Unit}

theorem exclusive_of_reachable (hw : (lockSystem names).Reachable w) :
    Disciplined names w.log ∧ (∀ i, Inside names i w.log → lockObject names w.store ≠ none) ∧
      ∀ i j, Inside names i w.log → Inside names j w.log → i = j := by
  obtain ⟨ls, hinv, -⟩ := (lockOutline_valid names).reachable hw
  refine ⟨hinv.disciplined, fun i hi => ?_, fun i j hi hj => ?_⟩
  · exact hinv.locked i ((hinv.inside i).mpr hi)
  · exact hinv.unique i j ((hinv.inside i).mpr hi) ((hinv.inside j).mpr hj)

/-- Only a delete takes the lock away. -/
theorem lockObject_kept {o : MbsOp} {r : Except Throwable o.Val} (h : s3Step .any s o r s')
    (hlock : lockObject names s ≠ none) (hrelease : ¬ IsRelease names ⟨o, r⟩) :
    lockObject names s' ≠ none := by
  cases o with
  | putObject bucket key content cacheControl =>
    rcases s3Step_put h with ⟨rfl, -⟩ | ⟨-, eTag, rfl⟩
    · exact hlock
    · rw [lockObject, Buckets.set_apply]
      split
      · exact Option.some_ne_none _
      · exact hlock
  | deleteObject bucket key =>
    have hs : s' = s ∨ s' = s.set bucket key none := by
      cases r with
      | ok _ => exact .inr h
      | error _ => exact h
    rcases hs with rfl | rfl
    · exact hlock
    · have hother : ¬ (names.privateBucket = bucket ∧ S3BackupPaths.lockPath = key) :=
        fun heq => hrelease ⟨heq.1.symm, heq.2.symm⟩
      rw [lockObject, Buckets.set_apply, if_neg hother]
      exact hlock
  | _ => rw [s3Step_of_not_write h rfl]; exact hlock

/-- The lock is there and nobody is inside: nobody will ever get in. -/
def Closed (names : BucketNames) (w : State Nat Buckets MbsOp MbsOp.Val Throwable Unit) : Prop :=
  lockObject names w.store ≠ none ∧ ∀ i, ¬ Inside names i w.log

theorem closed_step (hw : (lockSystem names).Reachable w) (hclosed : Closed names w)
    (h : (lockSystem names).Step w w') :
    Closed names w' ∧ ∃ entry, w'.log = entry :: w.log ∧
      ∀ i ev, entry = .call i ev → ¬ IsArtifactPut names ev := by
  obtain ⟨hlock, hout⟩ := hclosed
  have hdisciplined := (exclusive_of_reachable (hw.step h)).1
  cases h with
  | call i o k r s' hi hs =>
    have hnot : ¬ (IsRelease names ⟨o, r⟩ ∨ IsArtifactPut names ⟨o, r⟩) :=
      fun hor => hout i (hdisciplined.1 i ⟨o, r⟩ rfl hor)
    have hacquire : ¬ IsAcquire names ⟨o, r⟩ := by
      intro hacq
      cases o with
      | putObject bucket key content cacheControl =>
        cases r with
        | ok _ =>
          obtain ⟨rfl, rfl⟩ := hacq
          exact hlock hs.1
        | error _ => exact hacq
      | _ => exact absurd (isWrite_of_isAcquire hacq) (by simp [IsAcquire] at *)
    refine ⟨⟨lockObject_kept hs hlock (fun hr => hnot (.inl hr)), fun j hj => ?_⟩, _, rfl, ?_⟩
    · rcases hj with ⟨-, hacq⟩ | ⟨-, hj⟩
      · exact hacquire hacq
      · exact hout j hj
    · intro j ev heq hput
      cases heq
      exact hnot (.inr hput)
  | start i p hp hi =>
    exact ⟨⟨hlock, fun j hj => hout j hj.2⟩, _, rfl, fun _ _ heq => by cases heq⟩
  | ret i a hi =>
    exact ⟨⟨hlock, fun j hj => hout j hj.2⟩, _, rfl, fun _ _ heq => by cases heq⟩
  | raise i e hi =>
    exact ⟨⟨hlock, fun j hj => hout j hj.2⟩, _, rfl, fun _ _ heq => by cases heq⟩
  | stop i p hi =>
    exact ⟨⟨hlock, fun j hj => hout j hj.2⟩, _, rfl, fun _ _ heq => by cases heq⟩
  | env s' hs =>
    refine ⟨⟨?_, fun j hj => hout j hj⟩, _, rfl, fun _ _ heq => by cases heq⟩
    rw [show lockObject names s' = lockObject names w.store from hs]
    exact hlock

theorem closed_steps (hw : (lockSystem names).Reachable w) (hclosed : Closed names w)
    (h : (lockSystem names).Steps w w') :
    Closed names w' ∧ ∃ later, w'.log = later ++ w.log ∧
      ∀ i ev, .call i ev ∈ later → ¬ IsArtifactPut names ev := by
  induction h with
  | refl => exact ⟨hclosed, [], rfl, fun _ _ hmem => by cases hmem⟩
  | tail hsteps hstep ih =>
    obtain ⟨hclosed', later, hlog, hnone⟩ := ih
    obtain ⟨hclosed'', entry, hentry, hnot⟩ := closed_step (hsteps.reachable hw) hclosed' hstep
    refine ⟨hclosed'', entry :: later, by rw [hentry, hlog]; rfl, fun i ev hmem => ?_⟩
    rcases List.mem_cons.mp hmem with heq | hmem
    · exact hnot i ev heq.symm
    · exact hnone i ev hmem

/-- A run of `i` failed after its `acquireLock` and left the lock behind: it ended or was
stopped while inside, or its delete failed and the lock is still there. -/
def LeftLocked (names : BucketNames) (i : Nat)
    (w : State Nat Buckets MbsOp MbsOp.Val Throwable Unit) : Prop :=
  ∃ log, Inside names i log ∧
    (w.log = .stop i :: log ∨ (∃ e, w.log = .finish i (.error e) :: log) ∨
      ∃ e, w.log = .call i ⟨.deleteObject names.privateBucket S3BackupPaths.lockPath, .error e⟩ ::
          log ∧ lockObject names w.store ≠ none)

theorem LeftLocked.closed (hw : (lockSystem names).Reachable w) (h : LeftLocked names i w) :
    Closed names w := by
  obtain ⟨log, hi, hend⟩ := h
  -- `i` was the only one inside, and is not any more.
  have honly : ∀ x, w.log = x :: log → ∀ j, Inside names j log → j = i := by
    intro x hx j hj
    obtain ⟨w₀, hw₀, rfl, -⟩ := hw.pred hx
    exact (exclusive_of_reachable hw₀).2.2 j i hj hi
  have hended : (w.log = .stop i :: log ∨ ∃ out, w.log = .finish i out :: log) →
      Closed names w := by
    intro hlog
    have hinside : ∀ j, Inside names j w.log → i ≠ j ∧ Inside names j log := by
      intro j hj
      rcases hlog with hlog | ⟨out, hlog⟩ <;> rw [hlog] at hj <;> exact hj
    obtain ⟨x, hx⟩ : ∃ x, w.log = x :: log := by
      rcases hlog with hlog | ⟨out, hlog⟩ <;> exact ⟨_, hlog⟩
    refine ⟨?_, fun j hj => ?_⟩
    · obtain ⟨w₀, hw₀, rfl, hstep⟩ := hw.pred hx
      rw [hstep.store_eq hlog]
      exact (exclusive_of_reachable hw₀).2.1 i hi
    · obtain ⟨hne, hj⟩ := hinside j hj
      exact hne (honly x hx j hj).symm
  rcases hend with hstop | ⟨e, hfinish⟩ | ⟨e, hdelete, hlock⟩
  · exact hended (.inl hstop)
  · exact hended (.inr ⟨_, hfinish⟩)
  · refine ⟨hlock, fun j hj => ?_⟩
    rw [hdelete] at hj
    rcases hj with ⟨-, hacq⟩ | ⟨hnot, hj⟩
    · exact hacq
    · exact hnot ⟨(honly _ hdelete j hj).symm, rfl, rfl⟩

theorem Disciplined.of_append {later : List (MbsEntry Unit)} {j : Nat}
    {ev : Event MbsOp MbsOp.Val Throwable}
    (h : Disciplined names (later ++ .call j ev :: log))
    (hev : IsRelease names ev ∨ IsArtifactPut names ev) : Inside names j log := by
  induction later with
  | nil => exact h.1 j ev rfl hev
  | cons entry later ih => exact ih h.2

/-- At most one run is inside at a time; the lock is deleted only from inside, by the run
that created it; artifacts are put only from inside; and once a run failed inside and left
the lock behind, nobody puts an artifact any more. -/
theorem lock_discipline (hw : (lockSystem names).Reachable w) :
    (∀ i j, Inside names i w.log → Inside names j w.log → i = j) ∧
    (∀ later i ev log, w.log = later ++ .call i ev :: log → IsRelease names ev →
      Inside names i log) ∧
    (∀ later i ev log, w.log = later ++ .call i ev :: log → IsArtifactPut names ev →
      Inside names i log) ∧
    (∀ i, LeftLocked names i w → ∀ w', (lockSystem names).Steps w w' →
      ∃ later, w'.log = later ++ w.log ∧
        ∀ j ev, .call j ev ∈ later → ¬ IsArtifactPut names ev) := by
  obtain ⟨hdisciplined, -, hunique⟩ := exclusive_of_reachable hw
  refine ⟨hunique, fun later i ev log hlog hev => ?_, fun later i ev log hlog hev => ?_,
    fun i hleft w' hsteps => ?_⟩
  · rw [hlog] at hdisciplined
    exact hdisciplined.of_append (.inl hev)
  · rw [hlog] at hdisciplined
    exact hdisciplined.of_append (.inr hev)
  · exact (closed_steps hw (hleft.closed hw) hsteps).2

end
end

/-! Runs against a server. -/

namespace Sample

/-- The next root: epoch 1 in place of epoch 0. -/
def nextConfig : CertificatesConfig where
  selfSignedCertificates := [(1, ⟨1, certConfig.validityPeriod⟩)]
  crossSignedCertificates := []
  activeSelfSignedCertificateIds := [1]
  activeCrossSignedCertificateIds := []
  acceptableSelfSignedCertificateIds := [1]
  selfSigned_nodup := by decide
  crossSigned_nodup := List.nodup_nil
  active_nodup := List.nodup_singleton 1
  activeCross_nodup := List.nodup_nil
  acceptable_nodup := List.nodup_singleton 1
  selfSigned_key := by simp
  crossSigned_key := crossSigned_key_nil
  crossSigned_private := by simp
  crossSigned_public := by simp
  active_nonempty := by decide
  active_defined := by simp
  acceptable_defined := by simp
  activeCross_defined := activeCross_defined_nil

/-- One run of `generateCertificates` against the server. -/
def generateRun (config : CertificatesConfig) (t : LocalS3) :
    Except Throwable Unit × List (Event MbsOp MbsOp.Val Throwable) × LocalS3 :=
  drive LocalS3.serve ((s3Generator writer).generateCertificates config) t

theorem generateRun_steps (config : CertificatesConfig) (t : LocalS3) (i : Nat)
    (log : List (MbsEntry Unit)) :
    (lockSystem names).Steps ⟨t.buckets, fun _ => none, log⟩
      ⟨(generateRun config t).2.2.buckets, fun _ => none,
        .finish i (generateRun config t).1 ::
          (((generateRun config t).2.1.map (.call i)).reverse ++ .start i :: log)⟩ := by
  have hruns : (lockSystem names).runs i ((s3Generator writer).generateCertificates config) :=
    ⟨writer, config, writer_on, rfl⟩
  have hserve : ∀ (t : LocalS3) (o : MbsOp),
      (lockSystem names).step i t.buckets o (t.serve o).1 (t.serve o).2.buckets :=
    fun t o => s3Step_any_of_atomic (t.s3Step_serve o)
  exact System.Steps.drive LocalS3.serve hserve hruns t rfl log

/-- An accepted put under this key. -/
def isPutOf (bucket key : JString) (ev : Event MbsOp MbsOp.Val Throwable) : Bool :=
  match ev with
  | ⟨.putObject bucket' key' _ _, .ok _⟩ => bucket' = bucket ∧ key' = key
  | _ => false

theorem of_isPutOf {bucket key : JString} {ev : Event MbsOp MbsOp.Val Throwable}
    (h : isPutOf bucket key ev = true) :
    ∃ content cacheControl v, ev = ⟨.putObject bucket key content cacheControl, .ok v⟩ := by
  obtain ⟨o, r⟩ := ev
  unfold isPutOf at h
  split at h
  · next bucket' key' content cacheControl v heq =>
    obtain ⟨rfl, rfl⟩ := of_decide_eq_true h
    exact ⟨content, cacheControl, v, heq⟩
  · cases h

/-- A run whose delete of the lock takes effect and reports a failure. -/
def failedRelease : Except Throwable Unit × List (Event MbsOp MbsOp.Val Throwable) × LocalS3 :=
  generateRun defaultConfig (.fresh (some backup) false)

/-- The next run, with another config and deletes that report as they should. -/
def laterRun : Except Throwable Unit × List (Event MbsOp MbsOp.Val Throwable) × LocalS3 :=
  generateRun nextConfig { failedRelease.2.2 with deleteReports := true }

/-- A run that could not generate under the lock. -/
def failedRun : Except Throwable Unit × List (Event MbsOp MbsOp.Val Throwable) × LocalS3 :=
  generateRun defaultConfig (.fresh none true)

def failedLog : List (MbsEntry Unit) := (failedRun.2.1.map (.call 0)).reverse ++ [.start 0]

def generalFailure : Throwable :=
  { cls := .runtimeException, message := u "Failed to generate certificate" }

/-- After the put that created the lock the run listed twice, took the snapshot, failed to
generate, and counted the failure. -/
theorem failedRun_inside : Inside names 0 failedLog :=
  .inr ⟨fun h => h.2, .inr ⟨fun h => h.2, .inr ⟨fun h => h.2, .inr ⟨fun h => h.2,
    .inr ⟨fun h => h.2, .inl ⟨rfl, rfl, rfl⟩⟩⟩⟩⟩⟩

theorem failedRun_reachable : (lockSystem names).Reachable
    ⟨failedRun.2.2.buckets, fun _ => none, .finish 0 (.error generalFailure) :: failedLog⟩ := by
  have hsteps := generateRun_steps defaultConfig (.fresh none true) 0 []
  exact hsteps.reachable (.init _ trivial)

end Sample

/-- After the failed run nobody puts an artifact any more. -/
theorem lock_discipline_failed_run :
    LeftLocked Sample.names 0 ⟨Sample.failedRun.2.2.buckets, fun _ => none,
      .finish 0 (.error Sample.generalFailure) :: Sample.failedLog⟩ ∧
    ∀ w', (lockSystem Sample.names).Steps ⟨Sample.failedRun.2.2.buckets, fun _ => none,
        .finish 0 (.error Sample.generalFailure) :: Sample.failedLog⟩ w' →
      ∃ later, w'.log = later ++ .finish 0 (.error Sample.generalFailure) :: Sample.failedLog ∧
        ∀ j ev, .call j ev ∈ later → ¬ IsArtifactPut Sample.names ev := by
  have hleft : LeftLocked Sample.names 0 ⟨Sample.failedRun.2.2.buckets, fun _ => none,
      .finish 0 (.error Sample.generalFailure) :: Sample.failedLog⟩ :=
    ⟨Sample.failedLog, Sample.failedRun_inside, .inr (.inl ⟨_, rfl⟩)⟩
  exact ⟨hleft, (lock_discipline Sample.failedRun_reachable).2.2.2 0 hleft⟩

/-- A run of instance 0 fails in `releaseLock`, whose delete took effect; instance 1 then
takes the lock and puts artifacts, and nobody removed the lock by hand. -/
theorem artifact_put_after_failed_run :
    ∃ w, (lockSystem Sample.names).Reachable w ∧ .env ∉ w.log ∧
      ∃ (later : List (MbsEntry Unit)) (e : Throwable)
        (tr : List (Event MbsOp MbsOp.Val Throwable)),
        w.log = later ++ .finish 0 (.error e) :: ((tr.map (.call 0)).reverse ++ [.start 0]) ∧
        (∃ ev ∈ tr, IsAcquire Sample.names ev) ∧
        ∃ ev, .call 1 ev ∈ later ∧ IsArtifactPut Sample.names ev := by
  have hfirst := Sample.generateRun_steps defaultConfig (.fresh (some Sample.backup) false) 0 []
  have hsecond := Sample.generateRun_steps Sample.nextConfig
    { Sample.failedRelease.2.2 with deleteReports := true } 1
    (.finish 0 (.error Sample.generalFailure) ::
      ((Sample.failedRelease.2.1.map (.call 0)).reverse ++ [.start 0]))
  have hreach := (hfirst.trans hsecond).reachable (.init _ trivial)
  have hacquire : Sample.failedRelease.2.1.any
      (Sample.isPutOf Sample.names.privateBucket S3BackupPaths.lockPath) = true := by decide
  have hput : Sample.laterRun.2.1.any
      (Sample.isPutOf Sample.names.privateBucket (elementPath .privateKey 1)) = true := by decide
  obtain ⟨ev, hev, hisput⟩ := List.any_eq_true.mp hacquire
  obtain ⟨content, cacheControl, v, rfl⟩ := Sample.of_isPutOf hisput
  obtain ⟨ev', hev', hisput'⟩ := List.any_eq_true.mp hput
  obtain ⟨content', cacheControl', v', rfl⟩ := Sample.of_isPutOf hisput'
  have hisAcquire : IsAcquire Sample.names
      ⟨.putObject Sample.names.privateBucket S3BackupPaths.lockPath content cacheControl, .ok v⟩ :=
    ⟨rfl, rfl⟩
  have hisArtifact : IsArtifactPut Sample.names ⟨.putObject Sample.names.privateBucket
      (elementPath .privateKey 1) content' cacheControl', .ok v'⟩ := ⟨.privateKey, 1, rfl, rfl⟩
  have hlog : ∀ log : List (MbsEntry Unit), .finish 1 Sample.laterRun.1 ::
      ((Sample.laterRun.2.1.map (.call 1)).reverse ++ .start 1 :: log) =
      (.finish 1 Sample.laterRun.1 ::
        ((Sample.laterRun.2.1.map (.call 1)).reverse ++ [.start 1])) ++ log := by
    intro log
    simp
  refine ⟨_, hreach, by simp, _, Sample.generalFailure, Sample.failedRelease.2.1, hlog _,
    ⟨_, hev, hisAcquire⟩, _, ?_, hisArtifact⟩
  simp [hev']

end Mbs
