import TransparentCa.Mbs.LockSafety
import TransparentCa.Mbs.Monitor
import TransparentCa.Mbs.TrustHistory

/- Iterations of the monitor that get no config from S3. The provider then hands out its
   hardcoded config, so the monitor does not skip the iteration: it generates and loads
   epoch 0, whatever config was active before. -/
namespace Mbs
open Java Effects

namespace S3CertificatesConfigProvider

variable (provider : S3CertificatesConfigProvider)

/-- The calls begin with a get of the config file, and a config that is returned is the one
in the answer. -/
theorem runs_getCertificatesConfig {tr : List (Event MbsOp MbsOp.Val Throwable)}
    {r : Except Throwable CertificatesConfig} (h : provider.getCertificatesConfig.Runs tr r) :
    ∃ answer rest,
      tr = ⟨.getObject provider.bucketName provider.configFileName, answer⟩ :: rest ∧
        ∀ config, r = .ok config → provider.configOf answer = .ok config := by
  obtain ⟨answer, rest, htr, -⟩ := Prog.runs_call.mp h
  refine ⟨answer, rest, htr, fun config hr => ?_⟩
  subst hr
  unfold getCertificatesConfig at h
  rw [Prog.runs_handle_ok] at h
  swap
  · intro e t a hthrow
    split at hthrow
    · exact Prog.not_runs_bind_raise hthrow
    · simp at hthrow
  obtain ⟨bytes, t₁, t₂, htr', hfetch, h⟩ := Prog.runs_bind_ok.mp h
  obtain ⟨textProto, htext, h⟩ := Prog.runs_ofExcept_bind.mp h
  unfold fetch at hfetch
  rw [Prog.runs_handle_ok, call, Prog.runs_invoke] at hfetch
  swap
  · intro e t a hthrow
    split at hthrow
    · exact Prog.not_runs_bind_raise hthrow
    · split at hthrow
      · exact Prog.not_runs_bind_raise hthrow
      · simp at hthrow
  unfold parse at h
  rw [Prog.runs_handle_ok] at h
  swap
  · intro e t a hthrow
    split at hthrow
    · exact Prog.not_runs_bind_raise hthrow
    · simp at hthrow
  obtain ⟨config', hconfig, h⟩ := Prog.runs_ofExcept_bind.mp h
  obtain ⟨_, t₃, -, h⟩ := Prog.runs_invoke_bind.mp h
  obtain ⟨-, heq⟩ := Prog.runs_ret.mp h
  have hanswer : answer = .ok bytes := by
    rw [htr', hfetch, List.singleton_append, List.cons.injEq] at htr
    obtain ⟨-, hans⟩ := Event.mk.inj htr.1
    exact (eq_of_heq hans).symm
  rw [hanswer]
  simp only [configOf, Except.ok.inj heq, bind, Except.bind, htext, hconfig]

theorem uses_getCertificatesConfig :
    provider.getCertificatesConfig.Uses (fun o => o.isRead = true) := by
  have hrecord : ∀ event {α : Type} (e : Throwable), Prog.Uses (fun o => o.isRead = true)
      ((call (.recordConfigEvent event)).bind (fun _ => .raise e) : MbsProg α) :=
    fun event _ e => Prog.Uses.bind (Prog.Uses.invoke (o := MbsOp.recordConfigEvent event) rfl)
      (fun _ => trivial)
  refine Prog.Uses.handle (Prog.Uses.bind (Prog.Uses.handle (Prog.Uses.invoke rfl) (fun e => ?_))
    (fun bytes => Prog.Uses.bind (Prog.Uses.ofExcept _) (fun textProto => ?_))) (fun e => ?_)
  · split
    · exact hrecord _ _
    · split
      · exact hrecord _ _
      · trivial
  · refine Prog.Uses.handle (Prog.Uses.bind (Prog.Uses.ofExcept _) (fun config =>
      Prog.Uses.bind (Prog.Uses.invoke rfl) (fun _ => trivial))) (fun e => ?_)
    split
    · exact hrecord _ _
    · trivial
  · split
    · exact hrecord _ _
    · trivial

end S3CertificatesConfigProvider

/-- The get of the config file failed, or what it returned does not parse. -/
def MbsCore.ConfigUnavailable (core : MbsCore) (tr : List (Event MbsOp MbsOp.Val Throwable)) :
    Prop :=
  ∃ answer rest e, tr = ⟨.getObject core.names.publicBucket
      S3BackupPaths.certificatesConfigFilePath, answer⟩ :: rest ∧
    core.configProvider.configOf answer = .error e

section
variable {core : MbsCore}

/-- Without a config from S3 the hardcoded one is used; only an `Error` ends the fetch. -/
theorem fetchConfig_unavailable {tr : List (Event MbsOp MbsOp.Val Throwable)}
    {r : Except Throwable (Option CertificatesConfig)} (h : core.monitor.fetchConfig.Runs tr r)
    {rest : List (Event MbsOp MbsOp.Val Throwable)} (hun : core.ConfigUnavailable (tr ++ rest)) :
    r = .ok (some defaultConfig) ∨ ∃ e, r = .error e ∧ e.instanceOf .exception = false := by
  have hdelegate : ∀ t config, core.configProvider.getCertificatesConfig.Runs t (.ok config) →
      ∀ t', tr = t ++ t' → False := by
    intro t config ht t' htr
    obtain ⟨answer, rest', ht', hconfig⟩ := core.configProvider.runs_getCertificatesConfig ht
    obtain ⟨answer', rest'', e, heq, herror⟩ := hun
    rw [htr, ht', List.cons_append, List.cons_append, List.cons.injEq] at heq
    obtain ⟨-, hanswer⟩ := Event.mk.inj heq.1
    rw [← eq_of_heq hanswer, hconfig config rfl] at herror
    cases herror
  rcases Prog.runs_handle.mp h with ⟨found, rfl, hbody⟩ | ⟨e, t₁, t₂, rfl, hbody, hcaught⟩
  · obtain ⟨config, t₁, t₂, htr, hget, hret⟩ := Prog.runs_bind_ok.mp hbody
    obtain ⟨-, hfound⟩ := Prog.runs_ret.mp hret
    rw [Except.ok.inj hfound]
    rcases Prog.runs_handle.mp hget with ⟨config', hconfig, hget⟩ | ⟨e, t₃, t₄, -, -, hdefault⟩
    · exact absurd htr (fun htr => hdelegate t₁ config' hget t₂ htr)
    · split at hdefault
      · obtain ⟨-, hconfig⟩ := Prog.runs_ret.mp hdefault
        exact .inl (by rw [Except.ok.inj hconfig])
      · simp at hdefault
  · have hnot : e.instanceOf .exception = false := by
      rcases Prog.runs_bind_error.mp hbody with hget | ⟨config, t₃, t₄, -, -, hret⟩
      · rcases Prog.runs_handle.mp hget with ⟨config', hconfig, -⟩ | ⟨e', t₃, t₄, -, -, hdefault⟩
        · cases hconfig
        · split at hdefault
          · simp at hdefault
          · next hnot =>
            obtain ⟨-, he⟩ := Prog.runs_raise.mp hdefault
            rw [Except.error.inj he]
            simpa using hnot
      · simp at hret
    rw [hnot] at hcaught
    exact .inr ⟨e, (Prog.runs_raise.mp hcaught).2, hnot⟩

theorem uses_fetchConfig : core.monitor.fetchConfig.Uses (fun o => o.isRead = true) := by
  refine Prog.Uses.handle (Prog.Uses.bind (Prog.Uses.handle
    core.configProvider.uses_getCertificatesConfig (fun e => ?_)) (fun _ => trivial)) (fun e => ?_)
  · split <;> trivial
  · split <;> trivial

/-- What is left of the iteration is one with the hardcoded config. -/
theorem runs_iterate_default {tr : List (Event MbsOp MbsOp.Val Throwable)}
    {out : Except Throwable Unit} (hr : core.monitor.runOneIteration.Runs tr out)
    (hun : core.ConfigUnavailable tr) :
    ∃ fetched rest, tr = fetched ++ rest ∧ (∀ ev ∈ fetched, ev.op.isRead = true) ∧
      ((core.monitor.iterate (some defaultConfig)).Runs rest out ∨
        rest = [] ∧ ∃ e, out = .error e ∧ e.instanceOf .exception = false) := by
  obtain ⟨r, fetched, rest, rfl, hfetch, hrest⟩ := Prog.runs_bind_inv hr
  refine ⟨fetched, rest, rfl, uses_fetchConfig.of_runs hfetch, ?_⟩
  rcases fetchConfig_unavailable hfetch hun with rfl | ⟨e, rfl, he⟩
  · exact .inl hrest
  · exact .inr ⟨hrest.1, e, hrest.2, he⟩

end

/-! ## The buckets and the trust package -/

structure MonitorState where
  buckets : Buckets
  active : Option ActiveTrustState

/-- A call of the monitor: S3 serves it, and the instance keeps its active trust state. -/
def monitorStep (s : MonitorState) (o : MbsOp) (r : Except Throwable o.Val) (s' : MonitorState) :
    Prop :=
  s3Step .atomic s.buckets o r s'.buckets ∧ activeStep s.active o r s'.active

/-- Apart from the lock, artifacts of configured epochs were added and nothing else changed. -/
def OnlyAdds (names : BucketNames) (config : CertificatesConfig) (s s' : Buckets) : Prop :=
  ∀ bucket key, s' bucket key = s bucket key ∨
    (bucket = names.privateBucket ∧ key = S3BackupPaths.lockPath) ∨
    (s bucket key = none ∧ ∃ epoch ∈ config.selfSignedCertificates.map Prod.fst, ∃ element,
      bucket = names.of element ∧ key = elementPath element epoch)

section
variable {names : BucketNames} {config : CertificatesConfig}

theorem OnlyAdds.refl (s : Buckets) : OnlyAdds names config s s := fun _ _ => .inl rfl

theorem OnlyAdds.trans {s₁ s₂ s₃ : Buckets} (h₁ : OnlyAdds names config s₁ s₂)
    (h₂ : OnlyAdds names config s₂ s₃) : OnlyAdds names config s₁ s₃ := by
  intro bucket key
  rcases h₂ bucket key with heq | hlock | ⟨hnone, hepoch⟩
  · rw [heq]
    exact h₁ bucket key
  · exact .inr (.inl hlock)
  · rcases h₁ bucket key with heq' | hother
    · exact .inr (.inr ⟨heq' ▸ hnone, hepoch⟩)
    · exact .inr hother

theorem onlyAdds_created {s s' : Buckets} {bucket key : JString} {content : Bytes}
    (h : Created s bucket key content s')
    (hkey : (bucket = names.privateBucket ∧ key = S3BackupPaths.lockPath) ∨
      ∃ epoch ∈ config.selfSignedCertificates.map Prod.fst, ∃ element,
        bucket = names.of element ∧ key = elementPath element epoch) :
    OnlyAdds names config s s' := by
  obtain ⟨hnone, eTag, rfl⟩ := h
  intro bucket' key'
  rw [Buckets.set_apply]
  split
  · next heq =>
    obtain ⟨rfl, rfl⟩ := heq
    rcases hkey with hlock | hepoch
    · exact .inr (.inl hlock)
    · exact .inr (.inr ⟨hnone, hepoch⟩)
  · exact .inl rfl

theorem onlyAdds_unlocked {s : Buckets} {bucket key : JString}
    (h : bucket = names.privateBucket ∧ key = S3BackupPaths.lockPath) :
    OnlyAdds names config s (s.set bucket key none) := by
  intro bucket' key'
  rw [Buckets.set_apply]
  split
  · next heq =>
    obtain ⟨rfl, rfl⟩ := heq
    exact .inr (.inl h)
  · exact .inl rfl

theorem onlyAdds_of_writesFor {reads : S3Reads} {s s' : Buckets} {o : MbsOp}
    {r : Except Throwable o.Val} (ho : WritesFor names config o)
    (hstep : s3Step reads s o r s') : OnlyAdds names config s s' := by
  by_cases hwrite : o.isWrite = true
  · have hgenerates := ho hwrite
    cases o with
    | putObject bucket key content cacheControl =>
      rcases s3Step_put hstep with ⟨rfl, -⟩ | hcreated
      · exact .refl _
      · exact onlyAdds_created hcreated hgenerates
    | deleteObject bucket key =>
      cases r with
      | ok _ =>
        obtain rfl : s' = s.set bucket key none := hstep
        exact onlyAdds_unlocked hgenerates
      | error e =>
        rcases hstep with rfl | rfl
        · exact .refl _
        · exact onlyAdds_unlocked hgenerates
    | _ => cases hwrite
  · rw [s3Step_of_not_write hstep (by simpa using hwrite)]
    exact .refl _

theorem onlyAdds_of_served {s s' : MonitorState} {tr : List (Event MbsOp MbsOp.Val Throwable)}
    (hs : Served monitorStep s tr s') (h : ∀ ev ∈ tr, WritesFor names config ev.op) :
    OnlyAdds names config s.buckets s'.buckets := by
  induction hs with
  | nil s => exact .refl _
  | cons hstep _ ih =>
    refine (onlyAdds_of_writesFor (h _ List.mem_cons_self) hstep.1).trans (ih ?_)
    exact fun ev hev => h ev (List.mem_cons_of_mem _ hev)

theorem served_active {s s' : MonitorState} {tr : List (Event MbsOp MbsOp.Val Throwable)}
    (hs : Served monitorStep s tr s') : Served activeStep s.active tr s'.active := by
  induction hs with
  | nil s => exact .nil _
  | cons hstep _ ih => exact .cons hstep.2 ih

end

theorem loadedFor_default {s : Option ActiveTrustState} (h : LoadedFor defaultConfig s) :
    ∃ loaded, s = some ⟨[(0, loaded)], []⟩ := by
  obtain ⟨⟨bundles, certificates⟩, rfl, hkeys, hlength⟩ := h
  have hepochs : bundles.map Prod.fst = [0] := List.perm_singleton.mp hkeys
  have hnil : certificates = [] := List.eq_nil_of_length_eq_zero hlength
  match bundles, hepochs with
  | [(epoch, loaded)], hepochs =>
    obtain rfl : epoch = 0 := by simpa using hepochs
    exact ⟨loaded, by rw [hnil]⟩

/-- An iteration that gets no config from S3 acts as one with the hardcoded config, whatever
the buckets and the active trust state are: apart from the lock it adds missing artifacts of
epoch 0, and it loads epoch 0 alone or nothing. -/
theorem runOneIteration_without_config {core : MbsCore} {s s' : MonitorState}
    {tr : List (Event MbsOp MbsOp.Val Throwable)} {out : Except Throwable Unit}
    (hr : core.monitor.runOneIteration.Runs tr out) (hs : Served monitorStep s tr s')
    (hun : core.ConfigUnavailable tr) :
    (∃ fetched rest, tr = fetched ++ rest ∧ (∀ ev ∈ fetched, ev.op.isRead = true) ∧
      ((core.monitor.iterate (some defaultConfig)).Runs rest out ∨
        rest = [] ∧ ∃ e, out = .error e ∧ e.instanceOf .exception = false)) ∧
    (∀ ev ∈ tr, WritesFor core.names defaultConfig ev.op) ∧
    OnlyAdds core.names defaultConfig s.buckets s'.buckets ∧
    (s'.active = s.active ∨ ∃ loaded, s'.active = some ⟨[(0, loaded)], []⟩) := by
  have hdefault := runs_iterate_default hr hun
  refine ⟨hdefault, ?_⟩
  obtain ⟨fetched, rest, rfl, hread, hrest⟩ := hdefault
  have hfetched : ∀ ev ∈ fetched, WritesFor core.names defaultConfig ev.op := by
    intro ev hev hwrite
    rw [not_isWrite_of_isRead (hread ev hev)] at hwrite
    cases hwrite
  have hwrites : ∀ ev ∈ fetched ++ rest, WritesFor core.names defaultConfig ev.op := by
    intro ev hev
    rcases List.mem_append.mp hev with hev | hev
    · exact hfetched ev hev
    · rcases hrest with hiterate | ⟨rfl, -⟩
      · exact (uses_iterate core).of_runs hiterate ev hev
      · cases hev
  refine ⟨hwrites, onlyAdds_of_served hs hwrites, ?_⟩
  obtain ⟨s₁, hs₁, hs₂⟩ := (served_active hs).of_append
  have hunchanged : s₁ = s.active := hs₁.unchanged
    (fun o ho r s' hstep => activeStep_of_not_set hstep (not_set_of_isRead ho)) hread
  subst hunchanged
  rcases hrest with hiterate | ⟨rfl, -⟩
  · rcases (keeps_iterate core s.active (.inl rfl)).of_runs _ _ _ hiterate hs₂ with heq | hloaded
    · exact .inl heq
    · exact .inr (loadedFor_default hloaded)
  · exact .inl hs₂.eq_of_nil

/-! An instance that served epoch 1, and then cannot get the config. -/

namespace Sample

/-- S3 and the memory of one instance. While `configReadable` is false, gets of the config
file fail. -/
structure Instance where
  s3 : LocalS3
  active : Option ActiveTrustState
  configReadable : Bool

namespace Instance

def state (t : Instance) : MonitorState := ⟨t.s3.buckets, t.active⟩

def serve (t : Instance) (o : MbsOp) : Except Throwable o.Val × Instance :=
  match o with
  | .getObject bucket key =>
    if key = S3BackupPaths.certificatesConfigFilePath ∧ t.configReadable = false then
      (.error LocalS3.sdkFailure, t)
    else
      ((t.s3.serve (.getObject bucket key)).1, { t with s3 := (t.s3.serve (.getObject bucket key)).2 })
  | .unsealBackup backup => (.ok (bundleOf backup), t)
  | .getActiveTrustState => (.ok t.active, t)
  | .setActiveTrustState state => (.ok (), { t with active := some state })
  | o => ((t.s3.serve o).1, { t with s3 := (t.s3.serve o).2 })

theorem monitorStep_serve (t : Instance) (o : MbsOp) :
    monitorStep t.state o (t.serve o).1 (t.serve o).2.state := by
  have hs3 := t.s3.s3Step_serve o
  cases o with
  | getObject bucket key =>
    simp only [serve]
    split
    · exact ⟨⟨nofun, rfl⟩, rfl⟩
    · exact ⟨hs3, rfl⟩
  | unsealBackup backup => exact ⟨rfl, rfl⟩
  | getActiveTrustState => exact ⟨rfl, rfl, rfl⟩
  | setActiveTrustState state => exact ⟨rfl, rfl, rfl⟩
  | recordGenerationEvent event => exact ⟨hs3, rfl, rfl⟩
  | recordLoadEvent event => exact ⟨hs3, rfl, rfl⟩
  | recordConfigEvent event => exact ⟨hs3, rfl, rfl⟩
  | recordEvent event => exact ⟨hs3, rfl, rfl⟩
  | _ => exact ⟨hs3, rfl⟩

end Instance

/-- An instance for which the stored config is `nextConfig`. -/
def core : MbsCore where
  writer := writer
  mapOrder := insertionOrder
  asUtf8String bytes := .ok (bytes.val.map UInt8.toUInt16)
  fromTextProto _ := .ok nextConfig

/-- Nothing is stored but the config file. -/
def deployed : Instance where
  s3 := { LocalS3.fresh (some backup) true with objects :=
    [((names.publicBucket, S3BackupPaths.certificatesConfigFilePath), ⟨.one 0x61, u "c"⟩)] }
  active := none
  configReadable := true

def iteration (t : Instance) :
    Except Throwable Unit × List (Event MbsOp MbsOp.Val Throwable) × Instance :=
  drive Instance.serve core.monitor.runOneIteration t

theorem iteration_runs (t : Instance) :
    core.monitor.runOneIteration.Runs (iteration t).2.1 (iteration t).1 ∧
      Served monitorStep t.state (iteration t).2.1 (iteration t).2.2.state :=
  ⟨runs_drive Instance.serve _ t, served_drive Instance.state Instance.monitorStep_serve _ t⟩

/-- The instance after an iteration with the stored config, when the config file stops being
readable. -/
def unreadable : Instance := { (iteration deployed).2.2 with configReadable := false }

theorem unavailable_unreadable : core.ConfigUnavailable (iteration unreadable).2.1 :=
  ⟨.error LocalS3.sdkFailure, _, LocalS3.sdkFailure, rfl, rfl⟩

def servedBundle (epoch : Epoch) : ActiveTrustState :=
  ⟨[(epoch, ⟨backup, bundleOf backup⟩)], []⟩

end Sample

/-- The iteration without a config adds to the buckets and ends with epoch 0. -/
theorem unreadable_iteration_without_config :
    Sample.core.ConfigUnavailable (Sample.iteration Sample.unreadable).2.1 ∧
      OnlyAdds Sample.core.names defaultConfig Sample.unreadable.state.buckets
        (Sample.iteration Sample.unreadable).2.2.state.buckets ∧
      ((Sample.iteration Sample.unreadable).2.2.state.active = Sample.unreadable.state.active ∨
        ∃ loaded, (Sample.iteration Sample.unreadable).2.2.state.active =
          some ⟨[(0, loaded)], []⟩) := by
  obtain ⟨hruns, hserved⟩ := Sample.iteration_runs Sample.unreadable
  obtain ⟨-, -, hadds, hactive⟩ :=
    runOneIteration_without_config hruns hserved Sample.unavailable_unreadable
  exact ⟨Sample.unavailable_unreadable, hadds, hactive⟩

/-- A first iteration gets the config and loads epoch 1. The second does not get it; it stores
a backup of epoch 0 and puts epoch 0 in the place of epoch 1. -/
theorem unavailable_config_replaces_trust :
    Sample.core.monitor.runOneIteration.Runs (Sample.iteration Sample.deployed).2.1 (.ok ()) ∧
      Served monitorStep Sample.deployed.state (Sample.iteration Sample.deployed).2.1
        Sample.unreadable.state ∧
      Sample.core.monitor.runOneIteration.Runs (Sample.iteration Sample.unreadable).2.1 (.ok ()) ∧
      Served monitorStep Sample.unreadable.state (Sample.iteration Sample.unreadable).2.1
        (Sample.iteration Sample.unreadable).2.2.state ∧
      Sample.core.ConfigUnavailable (Sample.iteration Sample.unreadable).2.1 ∧
      Sample.unreadable.state.active = some (Sample.servedBundle 1) ∧
      (Sample.iteration Sample.unreadable).2.2.state.active = some (Sample.servedBundle 0) ∧
      artifact Sample.names Sample.unreadable.state.buckets 0 .cert = none ∧
      (artifact Sample.names (Sample.iteration Sample.unreadable).2.2.state.buckets 0 .cert).map
        S3Object.content = some Sample.backup.certBytes := by
  obtain ⟨hfirst, hserved⟩ := Sample.iteration_runs Sample.deployed
  obtain ⟨hsecond, hserved'⟩ := Sample.iteration_runs Sample.unreadable
  exact ⟨hfirst, hserved, hsecond, hserved', Sample.unavailable_unreadable, rfl, rfl, rfl, rfl⟩

end Mbs
