import TransparentCa.Mbs.Buckets

/- No mixed bundles. Any number of instances write backups over the same two buckets, put
   by put in any interleaving, with or without the lock; puts fail, or report a failure
   after they took effect, and instances stop anywhere. What keeps an epoch's artifacts
   together is the order of the puts and that a writer goes on only after its put was
   accepted: whoever created the private key is the only one who can create the rest
   (`OneSource.owner`), and nobody can create the private key a second time. -/
namespace Mbs
open Java Effects AssocList

abbrev MbsEntry (α : Type) := Entry Nat MbsOp MbsOp.Val Throwable α

/-- `backup` was returned by a call of the generator for this epoch. -/
def Generated {α : Type} (epoch : Epoch) (backup : SelfSignedBundleBackup)
    (log : List (MbsEntry α)) : Prop :=
  ∃ i certConfig, certConfig.epochId = epoch ∧
    Entry.call i ⟨.generate certConfig, .ok backup⟩ ∈ log

/-- The loop body of the generator for one epoch, without the lock around it. -/
def writeEpoch (writer : S3BackupWriter) (config : CertificatesConfig) (epoch : Epoch) :
    MbsProg Unit :=
  (s3Generator writer).generateAndWrite config ⟨epoch, writer.writeSelfSignedBundleBackup epoch⟩

/-- Instances that write backups, through whole runs of the generator or through the loop
body alone. Other programs may touch everything but the artifacts. -/
def writerSystem (names : BucketNames) : System Nat Buckets MbsOp MbsOp.Val Throwable Unit where
  init s := ∀ epoch element, artifact names s epoch element = none
  runs _ p := ∃ writer config, S3BackupWriter.On writer names ∧
    (p = (s3Generator writer).generateCertificates config ∨
      ∃ epoch, p = writeEpoch writer config epoch)
  step _ := s3Step .any
  env s s' := ∀ epoch element, artifact names s' epoch element = artifact names s epoch element

/-! ## The invariant -/

/-- What a writer has to itself: the epoch and backup it is writing, and the artifacts whose
puts were accepted so far. -/
inductive WriterState where
  | idle
  | writing (epoch : Epoch) (backup : SelfSignedBundleBackup)
      (done : List SelfSignedBundleBackupElement)

structure OneSource (names : BucketNames) (s : Buckets) (log : List (MbsEntry Unit))
    (ls : Nat → WriterState) : Prop where
  source : ∀ epoch, (∀ element, artifact names s epoch element = none) ∨
    ∃ backup, Generated epoch backup log ∧
      ∀ element o, artifact names s epoch element = some o → o.content = backup.part element
  key_first : ∀ epoch element, artifact names s epoch .privateKey = none →
    artifact names s epoch element = none
  generated : ∀ i epoch backup done, ls i = .writing epoch backup done →
    Generated epoch backup log
  order : ∀ i epoch backup done, ls i = .writing epoch backup done → done <+: writeOrder
  written : ∀ i epoch backup done, ls i = .writing epoch backup done → done ≠ [] →
    (∀ element ∈ done, ∃ o, artifact names s epoch element = some o ∧
      o.content = backup.part element) ∧
    ∀ element, element ∉ done → artifact names s epoch element = none
  owner : ∀ i j epoch backup backup' done done', ls i = .writing epoch backup done →
    ls j = .writing epoch backup' done' → done ≠ [] → done' ≠ [] → i = j

/-- Existing artifacts stay as they are. -/
def KeepsArtifacts (names : BucketNames) (s s' : Buckets) : Prop :=
  ∀ epoch element o, artifact names s epoch element = some o →
    artifact names s' epoch element = some o

def writerOutline (names : BucketNames) :
    Outline Nat Buckets MbsOp MbsOp.Val Throwable Unit WriterState where
  inv := OneSource names
  idle _ := True
  guar := KeepsArtifacts names

theorem Generated.mono {α : Type} {epoch : Epoch} {backup : SelfSignedBundleBackup}
    {log log' : List (MbsEntry α)} (h : Generated epoch backup log) (hlog : log ⊆ log') :
    Generated epoch backup log' := by
  obtain ⟨i, certConfig, hepoch, hmem⟩ := h
  exact ⟨i, certConfig, hepoch, hlog hmem⟩

/-- A nonempty part of the write order begins with the private key. -/
theorem privateKey_mem_of_order {done : List SelfSignedBundleBackupElement}
    (h : done <+: writeOrder) (hne : done ≠ []) : .privateKey ∈ done := by
  obtain ⟨rest, hrest⟩ := h
  cases done with
  | nil => exact absurd rfl hne
  | cons element done =>
    simp only [writeOrder, List.cons_append, List.cons.injEq] at hrest
    rw [hrest.1]
    exact List.mem_cons_self

namespace OneSource

variable {names : BucketNames} {s s' : Buckets} {log log' : List (MbsEntry Unit)}
  {ls : Nat → WriterState} {i : Nat}

/-- The invariant reads the buckets only through the artifacts. -/
theorem congr (h : OneSource names s log ls)
    (hs : ∀ epoch element, artifact names s' epoch element = artifact names s epoch element)
    (hlog : log ⊆ log') : OneSource names s' log' ls where
  source epoch := by
    rcases h.source epoch with hnone | ⟨backup, hgen, hparts⟩
    · exact .inl (fun element => by rw [hs]; exact hnone element)
    · exact .inr ⟨backup, hgen.mono hlog, fun element o ho => hparts element o (by rw [← hs]; exact ho)⟩
  key_first epoch element hnone := by
    rw [hs] at hnone ⊢
    exact h.key_first epoch element hnone
  generated j epoch backup done hj := (h.generated j epoch backup done hj).mono hlog
  order := h.order
  written j epoch backup done hj hne := by
    obtain ⟨hdone, hrest⟩ := h.written j epoch backup done hj hne
    refine ⟨fun element he => ?_, fun element he => ?_⟩
    · rw [hs]
      exact hdone element he
    · rw [hs]
      exact hrest element he
  owner := h.owner

/-- A writer with nothing accepted yet, and one that gave up, has no claim on the epoch. -/
theorem update_of_done_nil (h : OneSource names s log ls) {l : WriterState}
    (hl : ∀ epoch backup done, l = .writing epoch backup done →
      done = [] ∧ Generated epoch backup log) :
    OneSource names s log (Function.update ls i l) where
  source := h.source
  key_first := h.key_first
  generated j epoch backup done hj := by
    rcases update_cases hj with ⟨-, hj⟩ | ⟨-, hj⟩
    · exact (hl _ _ _ hj).2
    · exact h.generated j _ _ _ hj
  order j epoch backup done hj := by
    rcases update_cases hj with ⟨-, hj⟩ | ⟨-, hj⟩
    · rw [(hl _ _ _ hj).1]
      exact List.nil_prefix
    · exact h.order j _ _ _ hj
  written j epoch backup done hj hne := by
    rcases update_cases hj with ⟨-, hj⟩ | ⟨-, hj⟩
    · exact absurd (hl _ _ _ hj).1 hne
    · exact h.written j _ _ _ hj hne
  owner j k epoch backup backup' done done' hj hk hne hne' := by
    rcases update_cases hj with ⟨-, hj⟩ | ⟨-, hj⟩
    · exact absurd (hl _ _ _ hj).1 hne
    · rcases update_cases hk with ⟨-, hk⟩ | ⟨-, hk⟩
      · exact absurd (hl _ _ _ hk).1 hne'
      · exact h.owner j k _ _ _ _ _ hj hk hne hne'

section
variable {epoch : Epoch} {backup : SelfSignedBundleBackup}
  {done rest : List SelfSignedBundleBackupElement} {element : SelfSignedBundleBackupElement}

/-- When a writer's next artifact is absent, the epoch holds exactly what it wrote. -/
theorem exactly_done (h : OneSource names s log ls) (hi : ls i = .writing epoch backup done)
    (horder : done ++ element :: rest = writeOrder)
    (habsent : artifact names s epoch element = none) :
    (∀ e ∈ done, ∃ o, artifact names s epoch e = some o ∧ o.content = backup.part e) ∧
      ∀ e, e ∉ done → artifact names s epoch e = none := by
  by_cases hdone : done = []
  · subst hdone
    have hkey : element = .privateKey := by
      simp only [writeOrder, List.nil_append, List.cons.injEq] at horder
      exact horder.1
    rw [hkey] at habsent
    exact ⟨by simp, fun e _ => h.key_first epoch e habsent⟩
  · exact h.written i epoch backup done hi hdone

/-- No other writer has an accepted put in the epoch of a writer whose next artifact is
absent. -/
theorem no_other (h : OneSource names s log ls) (hi : ls i = .writing epoch backup done)
    (horder : done ++ element :: rest = writeOrder)
    (habsent : artifact names s epoch element = none) {j : Nat} {backup' : SelfSignedBundleBackup}
    {done' : List SelfSignedBundleBackupElement} (hj : ls j = .writing epoch backup' done')
    (hne : done' ≠ []) : j = i := by
  by_cases hdone : done = []
  · subst hdone
    have hkey : element = .privateKey := by
      simp only [writeOrder, List.nil_append, List.cons.injEq] at horder
      exact horder.1
    have hmem := privateKey_mem_of_order (h.order j _ _ _ hj) hne
    obtain ⟨o, ho, -⟩ := (h.written j _ _ _ hj hne).1 _ hmem
    rw [hkey, ho] at habsent
    cases habsent
  · exact h.owner j i _ _ _ _ _ hj hi hne hdone

/-- A put that took effect: the invariant goes on with the artifact counted as done, and
also with the writer giving up. -/
theorem create (h : OneSource names s log ls) (hi : ls i = .writing epoch backup done)
    (horder : done ++ element :: rest = writeOrder)
    (hcreated : Created s (names.of element) (elementPath element epoch) (backup.part element) s')
    (hlog : log ⊆ log') {l : WriterState}
    (hl : l = .idle ∨ l = .writing epoch backup (done ++ [element])) :
    OneSource names s' log' (Function.update ls i l) := by
  obtain ⟨habsent, eTag, rfl⟩ := hcreated
  obtain ⟨hdone, hrest⟩ := h.exactly_done hi horder habsent
  have hself : artifact names (s.set (names.of element) (elementPath element epoch)
      (some ⟨backup.part element, eTag⟩)) epoch element = some ⟨backup.part element, eTag⟩ := by
    rw [artifact_set, if_pos ⟨rfl, rfl⟩]
  have hother : ∀ epoch' element', ¬ (epoch' = epoch ∧ element' = element) →
      artifact names (s.set (names.of element) (elementPath element epoch)
        (some ⟨backup.part element, eTag⟩)) epoch' element' = artifact names s epoch' element' :=
    fun epoch' element' hne => by rw [artifact_set, if_neg hne]
  have hl_writing : ∀ epoch' backup' done', l = .writing epoch' backup' done' →
      epoch' = epoch ∧ backup' = backup ∧ done' = done ++ [element] := by
    intro epoch' backup' done' hl'
    rcases hl with rfl | rfl
    · cases hl'
    · cases hl'
      exact ⟨rfl, rfl, rfl⟩
  exact
    { source := by
        intro epoch'
        by_cases hep : epoch' = epoch
        · subst hep
          refine .inr ⟨backup, (h.generated i _ _ _ hi).mono hlog, fun element' o ho => ?_⟩
          by_cases hel : element' = element
          · subst hel
            rw [hself] at ho
            rw [← Option.some.inj ho]
          · rw [hother _ _ (fun hboth => hel hboth.2)] at ho
            by_cases hmem : element' ∈ done
            · obtain ⟨o', ho', hcontent⟩ := hdone element' hmem
              rw [ho'] at ho
              rw [← Option.some.inj ho]
              exact hcontent
            · rw [hrest element' hmem] at ho
              cases ho
        · rcases h.source epoch' with hnone | ⟨backup', hgen, hparts⟩
          · exact .inl (fun e => by rw [hother _ _ (fun hboth => hep hboth.1)]; exact hnone e)
          · refine .inr ⟨backup', hgen.mono hlog, fun e o ho => ?_⟩
            rw [hother _ _ (fun hboth => hep hboth.1)] at ho
            exact hparts e o ho
      key_first := by
        intro epoch' element' hnone
        by_cases hep : epoch' = epoch
        · subst hep
          -- The private key is there: it is the artifact just created, or an earlier one.
          exfalso
          by_cases hel : SelfSignedBundleBackupElement.privateKey = element
          · rw [hel, hself] at hnone
            cases hnone
          · rw [hother _ _ (fun hboth => hel hboth.2)] at hnone
            have hdone_ne : done ≠ [] := by
              intro hnil
              rw [hnil] at horder
              simp only [writeOrder, List.nil_append, List.cons.injEq] at horder
              exact hel horder.1.symm
            have hmem := privateKey_mem_of_order ⟨element :: rest, horder⟩ hdone_ne
            obtain ⟨o, ho, -⟩ := hdone _ hmem
            rw [ho] at hnone
            cases hnone
        · rw [hother _ _ (fun hboth => hep hboth.1)] at hnone ⊢
          exact h.key_first epoch' element' hnone
      generated := by
        intro j epoch' backup' done' hj
        rcases update_cases hj with ⟨-, hj⟩ | ⟨-, hj⟩
        · obtain ⟨rfl, rfl, rfl⟩ := hl_writing _ _ _ hj
          exact (h.generated i _ _ _ hi).mono hlog
        · exact (h.generated j _ _ _ hj).mono hlog
      order := by
        intro j epoch' backup' done' hj
        rcases update_cases hj with ⟨-, hj⟩ | ⟨-, hj⟩
        · obtain ⟨-, -, rfl⟩ := hl_writing _ _ _ hj
          exact ⟨rest, by rw [← horder]; simp⟩
        · exact h.order j _ _ _ hj
      written := by
        intro j epoch' backup' done' hj hne
        rcases update_cases hj with ⟨-, hj⟩ | ⟨hji, hj⟩
        · obtain ⟨rfl, rfl, rfl⟩ := hl_writing _ _ _ hj
          refine ⟨fun e he => ?_, fun e he => ?_⟩
          · by_cases hel : e = element
            · subst hel
              exact ⟨_, hself, rfl⟩
            · rw [hother _ _ (fun hboth => hel hboth.2)]
              rcases List.mem_append.mp he with hmem | hmem
              · exact hdone e hmem
              · exact absurd (List.mem_singleton.mp hmem) hel
          · have hel : e ≠ element := fun heq => he (by rw [heq]; simp)
            rw [hother _ _ (fun hboth => hel hboth.2)]
            exact hrest e (fun hmem => he (List.mem_append_left _ hmem))
        · have hep : epoch' ≠ epoch := by
            intro heq
            subst heq
            exact hji (h.no_other hi horder habsent hj hne)
          obtain ⟨hdone', hrest'⟩ := h.written j _ _ _ hj hne
          refine ⟨fun e he => ?_, fun e he => ?_⟩
          · rw [hother _ _ (fun hboth => hep hboth.1)]
            exact hdone' e he
          · rw [hother _ _ (fun hboth => hep hboth.1)]
            exact hrest' e he
      owner := by
        intro j k epoch' b b' d d' hj hk hne hne'
        rcases update_cases hj with ⟨hji, hj⟩ | ⟨-, hj⟩
        · rcases update_cases hk with ⟨hki, -⟩ | ⟨-, hk⟩
          · rw [hji, hki]
          · obtain ⟨rfl, rfl, rfl⟩ := hl_writing _ _ _ hj
            rw [hji]
            exact (h.no_other hi horder habsent hk hne').symm
        · rcases update_cases hk with ⟨hki, hk⟩ | ⟨-, hk⟩
          · obtain ⟨rfl, rfl, rfl⟩ := hl_writing _ _ _ hk
            rw [hki]
            exact h.no_other hi horder habsent hj hne
          · exact h.owner j k _ _ _ _ _ hj hk hne hne' }

end
end OneSource

/-! ## Programs keep it -/

/-- The call leaves all artifacts alone. -/
def Neutral (o : MbsOp) : Prop :=
  match o with
  | .putObject _ key _ _ | .deleteObject _ key =>
    ∀ element epoch, elementPath element epoch ≠ key
  | _ => True

theorem artifact_of_neutral {names : BucketNames} {reads : S3Reads} {s s' : Buckets} {o : MbsOp}
    {r : Except Throwable o.Val} (ho : Neutral o) (h : s3Step reads s o r s') (epoch : Epoch)
    (element : SelfSignedBundleBackupElement) :
    artifact names s' epoch element = artifact names s epoch element := by
  cases o with
  | putObject bucket key content cacheControl =>
    rcases s3Step_put h with ⟨rfl, -⟩ | ⟨-, eTag, rfl⟩
    · rfl
    · exact artifact_set_of_ne (ho element epoch)
  | deleteObject bucket key =>
    have hs : s' = s ∨ s' = s.set bucket key none := by
      cases r with
      | ok _ => exact .inr h
      | error _ => exact h
    rcases hs with rfl | rfl
    · rfl
    · exact artifact_set_of_ne (ho element epoch)
  | _ => rw [s3Step_of_not_write h rfl]

section
variable {names : BucketNames} {writer : S3BackupWriter} {i : Nat}

/-- From any private state, `p` keeps the invariant. -/
abbrev Safe (names : BucketNames) (i : Nat) {α : Type} (p : MbsProg α) : Prop :=
  (writerOutline names).Anywhere (writerSystem names) i p

theorem safe_of_neutral {α : Type} {p : MbsProg α} (hp : p.Uses Neutral) : Safe names i p := by
  apply Outline.Anywhere.of_uses hp
  intro o ho s log ls hinv r s' hstep
  have hs : ∀ epoch element, artifact names s' epoch element = artifact names s epoch element :=
    artifact_of_neutral ho hstep
  refine ⟨fun epoch element x hx => by rw [hs]; exact hx, ?_⟩
  exact hinv.congr hs (List.subset_cons_self _ _)

/-- The next put: accepted, the artifact is the writer's; refused or failed, the writer has
nothing left to do. -/
theorem ok_putArtifact {epoch : Epoch} {backup : SelfSignedBundleBackup}
    {done rest : List SelfSignedBundleBackupElement} {element : SelfSignedBundleBackupElement}
    (horder : done ++ element :: rest = writeOrder) :
    (writerOutline names).Ok (writerSystem names) i (.writing epoch backup done)
      (writer.putArtifact names epoch backup element) (fun l r => match r with
        | .ok _ => l = .writing epoch backup (done ++ [element])
        | .error _ => True) := by
  unfold S3BackupWriter.putArtifact S3BackupWriter.putS3Object S3BackupWriter.putIfAbsent
  apply Outline.Ok.handle
  apply Outline.Ok.invoke
  intro s log ls hinv hi r s' hstep
  have hsub : log ⊆ Entry.call i ⟨_, r⟩ :: log := List.subset_cons_self _ _
  have hkeeps : Created s (names.of element) (elementPath element epoch) (backup.part element) s' →
      KeepsArtifacts names s s' := by
    intro hcreated epoch' element' o ho
    obtain ⟨habsent, eTag, rfl⟩ := hcreated
    rw [artifact_set, if_neg]
    · exact ho
    · intro hboth
      rw [hboth.1, hboth.2, artifact, habsent] at ho
      cases ho
  cases r with
  | ok _ =>
    exact ⟨hkeeps hstep, _, hinv.create hi horder hstep hsub (.inr rfl), rfl⟩
  | error e =>
    rcases hstep with rfl | hcreated
    · refine ⟨fun _ _ _ ho => ho, .idle, ?_, trivial⟩
      exact (hinv.congr (fun _ _ => rfl) hsub).update_of_done_nil (fun _ _ _ h => by cases h)
    · exact ⟨hkeeps hcreated, .idle, hinv.create hi horder hcreated hsub (.inl rfl), trivial⟩

/-- By induction on what is left of the write order. -/
theorem ok_putArtifacts {epoch : Epoch} {backup : SelfSignedBundleBackup}
    (rest done : List SelfSignedBundleBackupElement) (horder : done ++ rest = writeOrder) :
    (writerOutline names).Ok (writerSystem names) i (.writing epoch backup done)
      (writer.putArtifacts names epoch backup rest) (fun _ _ => True) := by
  induction rest generalizing done with
  | nil => trivial
  | cons element rest ih =>
    refine Outline.Ok.seq (ok_putArtifact horder) (fun l _ hl => ?_) (fun _ _ _ => trivial)
    rw [show l = _ from hl]
    exact ih (done ++ [element]) (by rw [← horder]; simp)

theorem safe_writeEpoch (hw : writer.On names) (config : CertificatesConfig) (epoch : Epoch) :
    Safe names i (writeEpoch writer config epoch) := by
  intro l
  unfold writeEpoch DefaultCertificateGenerator.generateAndWrite
  split
  · trivial
  · next certConfig hlookup =>
    have hepoch : certConfig.epochId = epoch :=
      (config.selfSigned_key _ (mem_of_lookup hlookup)).symm
    apply Outline.Ok.bind
    apply Outline.Ok.invoke
    intro s log ls hinv hi r s' hstep
    have hs : s' = s := hstep
    subst hs
    have hinv' : OneSource names s' (.call i ⟨.generate certConfig, r⟩ :: log) ls :=
      hinv.congr (fun _ _ => rfl) (List.subset_cons_self _ _)
    have hkeeps : KeepsArtifacts names s' s' := fun _ _ _ ho => ho
    cases r with
    | error e =>
      refine ⟨hkeeps, l, ?_, trivial⟩
      rw [← hi, Function.update_eq_self]
      exact hinv'
    | ok backup =>
      have hgen : Generated epoch backup
          (Entry.call i ⟨.generate certConfig, .ok backup⟩ :: log) :=
        ⟨i, certConfig, hepoch, List.mem_cons_self⟩
      refine ⟨hkeeps, .writing epoch backup [], ?_, ?_⟩
      · apply hinv'.update_of_done_nil
        intro epoch' backup' done' h
        cases h
        exact ⟨rfl, hgen⟩
      · show (writerOutline names).Ok _ i _ (writer.writeSelfSignedBundleBackup epoch backup) _
        rw [writeSelfSignedBundleBackup_eq hw]
        exact ok_putArtifacts writeOrder [] rfl

theorem safe_takeSnapshot : Safe names i (S3BackupStorage.takeSnapshot writer) :=
  safe_of_neutral (uses_takeSnapshot (fun _ _ => trivial) (fun _ _ => trivial))

theorem safe_generateAndWriteAll (hw : writer.On names) (config : CertificatesConfig)
    (missing : List (EmptyHandle MbsProg))
    (hmissing : ∀ empty ∈ missing,
      empty = ⟨empty.epoch, writer.writeSelfSignedBundleBackup empty.epoch⟩) :
    Safe names i ((s3Generator writer).generateAndWriteAll config missing) := by
  induction missing with
  | nil => exact safe_of_neutral trivial
  | cons empty missing ih =>
    refine Outline.Anywhere.bind ?_ (fun _ => ih (fun e he => hmissing e (List.mem_cons_of_mem empty he)))
    rw [hmissing empty List.mem_cons_self]
    exact safe_writeEpoch hw config empty.epoch

theorem safe_generateMissing (hw : writer.On names) (config : CertificatesConfig) :
    Safe names i ((s3Generator writer).generateMissingSelfSignedBundleBackups config) := by
  unfold DefaultCertificateGenerator.generateMissingSelfSignedBundleBackups
  show Safe names i ((S3BackupStorage.getSnapshot writer).bind _)
  rw [getSnapshot_bind]
  refine Outline.Anywhere.bind safe_takeSnapshot (fun first => ?_)
  split
  · exact safe_of_neutral trivial
  · refine Outline.Anywhere.bind (safe_of_neutral (uses_acquireLock
      (fun _ _ element epoch => elementPath_ne_lockPath element epoch))) (fun _ => ?_)
    show Safe names i ((S3BackupStorage.getSnapshot writer).bind _)
    rw [getSnapshot_bind]
    refine Outline.Anywhere.bind safe_takeSnapshot (fun second => ?_)
    refine Outline.Anywhere.bind ?_ (fun _ => safe_of_neutral (uses_releaseLock elementPath_ne_lockPath))
    exact safe_generateAndWriteAll hw config _ (fun empty => mem_findMissing_s3)

theorem safe_generateCertificates (hw : writer.On names) (config : CertificatesConfig) :
    Safe names i ((s3Generator writer).generateCertificates config) :=
  anywhere_generateCertificates (safe_generateMissing hw config)
    (safe_of_neutral (Prog.Uses.invoke trivial))
    (fun _ => safe_of_neutral (Prog.Uses.invoke trivial))

end

/-! ## Every reachable state -/

theorem writerOutline_valid (names : BucketNames) :
    (writerOutline names).Valid (writerSystem names) where
  guar_refl _ _ _ _ ho := ho
  init s hs := by
    refine ⟨fun _ => .idle, ?_, fun _ => trivial⟩
    exact
      { source := fun epoch => .inl (hs epoch)
        key_first := fun epoch element _ => hs epoch element
        generated := fun _ _ _ _ h => by cases h
        order := fun _ _ _ _ h => by cases h
        written := fun _ _ _ _ h => by cases h
        owner := fun _ _ _ _ _ _ _ h => by cases h }
  start i p s log ls hp hinv _ := by
    refine ⟨ls i, ?_, ?_⟩
    · rw [Function.update_eq_self]
      exact hinv.congr (fun _ _ => rfl) (List.subset_cons_self _ _)
    · have hsafe : Safe names i p := by
        obtain ⟨writer, config, hw, rfl | ⟨epoch, rfl⟩⟩ := hp
        · exact safe_generateCertificates hw config
        · exact safe_writeEpoch hw config epoch
      apply (hsafe (ls i)).mono
      intro l r _ s log ls hinv hl
      refine ⟨l, trivial, ?_⟩
      rw [← hl, Function.update_eq_self]
      exact hinv.congr (fun _ _ => rfl) (List.subset_cons_self _ _)
  stop i s log ls hinv := by
    refine ⟨ls i, trivial, ?_⟩
    rw [Function.update_eq_self]
    exact hinv.congr (fun _ _ => rfl) (List.subset_cons_self _ _)
  env s s' log ls hinv henv := hinv.congr henv (List.subset_cons_self _ _)

/-- In every reachable state the artifacts of an epoch that has all four come from one
call of the generator for that epoch, and no step changes an artifact that exists. -/
theorem backup_from_one_generate {names : BucketNames}
    {w : State Nat Buckets MbsOp MbsOp.Val Throwable Unit}
    (hw : (writerSystem names).Reachable w) :
    (∀ epoch, (∀ element, (artifact names w.store epoch element).isSome) →
      ∃ backup, Generated epoch backup w.log ∧
        ∀ element, (artifact names w.store epoch element).map S3Object.content =
          some (backup.part element)) ∧
    ∀ w', (writerSystem names).Step w w' → ∀ epoch element o,
      artifact names w.store epoch element = some o →
      artifact names w'.store epoch element = some o := by
  have hvalid := writerOutline_valid names
  refine ⟨fun epoch hall => ?_, fun w' hstep epoch element o ho => ?_⟩
  · obtain ⟨ls, hinv, -⟩ := hvalid.reachable hw
    rcases hinv.source epoch with hnone | ⟨backup, hgen, hparts⟩
    · have hcert := hall .cert
      rw [hnone] at hcert
      cases hcert
    · refine ⟨backup, hgen, fun element => ?_⟩
      obtain ⟨o, ho⟩ := Option.isSome_iff_exists.mp (hall element)
      rw [ho, Option.map_some, hparts element o ho]
  · rcases hvalid.step_guar hw hstep with hkeeps | henv
    · exact hkeeps epoch element o ho
    · rw [henv epoch element]
      exact ho

/-! One instance that writes epoch 0 without a failure. -/

namespace Sample

def names : BucketNames := ⟨u "public-bucket", u "private-bucket"⟩

def writer : S3BackupWriter :=
  ⟨⟨names.publicBucket, names.privateBucket, u "max-age=60"⟩, .one 0x69⟩

theorem writer_on : writer.On names := ⟨rfl, rfl⟩

def backup : SelfSignedBundleBackup :=
  ⟨.one 1, .one 2, .one 3, .one 4⟩

def certConfig : SelfSignedCertificate := (defaultConfig.selfSignedCertificates.head defaultConfig_nonempty).2

def put (element : SelfSignedBundleBackupElement) : Event MbsOp MbsOp.Val Throwable :=
  ⟨.putObject (names.of element) (elementPath element 0) (backup.part element) (u "max-age=60"),
    .ok ()⟩

def trace : List (Event MbsOp MbsOp.Val Throwable) :=
  ⟨.generate certConfig, .ok backup⟩ :: writeOrder.map put

theorem runs_writeEpoch : (writeEpoch writer defaultConfig 0).Runs trace (.ok ()) := by
  have hput : ∀ element, (writer.putArtifact names 0 backup element).Runs [put element] (.ok ()) :=
    fun element => Prog.runs_handle.mpr (.inl ⟨(), rfl, Prog.runs_invoke.mpr rfl⟩)
  have hputs : (writer.writeSelfSignedBundleBackup 0 backup).Runs (writeOrder.map put) (.ok ()) := by
    rw [writeSelfSignedBundleBackup_eq writer_on]
    refine Prog.runs_bind_ok.mpr ⟨(), [_], _, rfl, hput _, ?_⟩
    refine Prog.runs_bind_ok.mpr ⟨(), [_], _, rfl, hput _, ?_⟩
    refine Prog.runs_bind_ok.mpr ⟨(), [_], _, rfl, hput _, ?_⟩
    exact Prog.runs_bind_ok.mpr ⟨(), [_], [], rfl, hput _, .ret ()⟩
  exact Prog.runs_bind_ok.mpr ⟨backup, [_], _, rfl, Prog.runs_invoke.mpr rfl, hputs⟩

theorem serves_trace : ∃ s', (writerSystem names).Serves 0 (fun _ _ => none) trace s' ∧
    ∀ element, (artifact names s' 0 element).isSome := by
  refine ⟨_, .cons rfl (.cons ⟨?_, [], rfl⟩ (.cons ⟨?_, [], rfl⟩ (.cons ⟨?_, [], rfl⟩
    (.cons ⟨?_, [], rfl⟩ (.nil _))))), ?_⟩
  · decide
  · decide
  · decide
  · decide
  · intro element
    cases element <;> decide

end Sample

theorem sample_backup_from_one_generate :
    ∃ w, (writerSystem Sample.names).Reachable w ∧
      (∀ element, (artifact Sample.names w.store 0 element).isSome) ∧
      ∃ backup, Generated 0 backup w.log ∧
        ∀ element, (artifact Sample.names w.store 0 element).map S3Object.content =
          some (backup.part element) := by
  obtain ⟨s', hserves, hall⟩ := Sample.serves_trace
  have hruns : (writerSystem Sample.names).runs 0 (writeEpoch Sample.writer defaultConfig 0) :=
    ⟨Sample.writer, defaultConfig, Sample.writer_on, .inr ⟨0, rfl⟩⟩
  have hsteps : (writerSystem Sample.names).Steps ⟨fun _ _ => none, fun _ => none, []⟩ _ :=
    System.Steps.run hruns Sample.runs_writeEpoch hserves rfl []
  have hreach := hsteps.reachable (.init _ (fun _ _ => rfl))
  exact ⟨_, hreach, hall, (backup_from_one_generate hreach).1 0 hall⟩

end Mbs
