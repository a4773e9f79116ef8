import TransparentCa.Lib.LoadingCache
import TransparentCa.Tca.PolicyProvider

/- Where policies come from: `FileSourcedPolicyProvider` over `CachedFileFetcher` over
   `S3FileFetcher`, as the module provides them, for any number of callers at a time. The
   bucket changes from outside, the clock says what it likes, and requests fail as they like. What
   S3 and a stream answer is said in `bucketStep`. The cache is any that does what its
   documentation says of `expireAfterWrite`: its key is the client id, its value the fetched file,
   if there is one.

   A policy that a caller gets was in the bucket during a load after which the ticker was read, less
   than five minutes before a reading of the caller's (`policy_recent`). -/
namespace Tca
open Java Effects Effects.Prog

/-! ## S3FileFetcher -/

/-- A call of the S3 client, of the stream it returns, of the instant source, or of the provider's
metrics. -/
inductive FileOp where
  | getObject (key : JString)
  | readFrom (fetchedObject : Bytes)
  | close
  | millis
  | incrementProcessingCounter (status : ProcessingStatus)
  | allowMetricsForClientId (clientId : JString)
  deriving DecidableEq

/-- A stream is what it has to deliver. -/
abbrev FileOp.Val : FileOp → Type
  | .getObject _ => Bytes
  | .readFrom _ => Bytes
  | .close => Unit
  | .millis => Int64
  | .incrementProcessingCounter _ => Unit
  | .allowMetricsForClientId _ => Unit

abbrev FileProg (α : Type) := Prog FileOp FileOp.Val Throwable α

abbrev FileEvent := Event FileOp FileOp.Val Throwable

def fileCall (o : FileOp) : FileProg o.Val := Prog.invoke o

/-- `try (R resource = open) { body }`. An exception of the body comes before one of `close`. -/
def tryWithResource {R α : Type} (open_ : FileProg R) (body : R → FileProg α)
    (close : FileProg Unit) : FileProg α := do
  let resource ← open_
  let result ← (body resource).attempt
  match result with
  | .ok a => do
    close
    return a
  | .error e => do
    close.handle (fun _ => return ())
    throw e

namespace S3FileFetcher

def fetchFile (bucket key : JString) : FileProg (Option Bytes) :=
  tryCatch (do
    let bytes ← tryWithResource (fileCall (.getObject key))
      (fun fetchedObject => fileCall (.readFrom fetchedObject)) (fileCall .close)
    return some bytes) (fun e =>
    if e.instanceOf .noSuchKeyException then return none
    else if e.instanceOf .exception then
      throw { cls := .fileLoadException,
              message := u "Failed to load file " ++ key ++ u " from S3 bucket: " ++ bucket }
    else throw e)

end S3FileFetcher

/-! ## CachedFileFetcher -/

namespace CachedFileFetcher

/-- `Duration.ofMinutes(5)`, in nanoseconds. -/
def cacheDuration : Int := 5 * 60 * 10^9

/-- `TimeUnit.MILLISECONDS.toNanos(millis)`, which saturates. -/
def toNanos (millis : Int64) : Int := max (-2^63) (min (2^63 - 1) (millis.toInt * 10^6))

def ticker : FileProg Int := do
  let millis ← fileCall .millis
  return toNanos millis

def loadFromDelegateOrThrow (bucket key : JString) : FileProg (Option Bytes) :=
  S3FileFetcher.fetchFile bucket key

abbrev FileUseProg (α : Type) :=
  Prog (Use JString FileOp) (Use.Val (Option Bytes) FileOp.Val) Throwable α

/-- `cache.get(key)`. -/
def fetchFile (key : JString) : FileUseProg (Option Bytes) := Prog.invoke (Use.get key)

end CachedFileFetcher

/-! ## The provider over the cache -/

open CachedFileFetcher

/-- What the provider calls, as the module provides it. -/
def answerPolicyOp : (o : FileSourcedPolicyProvider.PolicyOp) → FileUseProg o.Val
  | .fetchFile clientId => CachedFileFetcher.fetchFile clientId
  | .incrementProcessingCounter status =>
    Prog.invoke (Use.other (FileOp.incrementProcessingCounter status))
  | .allowMetricsForClientId clientId =>
    Prog.invoke (Use.other (FileOp.allowMetricsForClientId clientId))

/-- The arguments of `getPolicy`. -/
structure PolicyRequest where
  identity : CallerIdentity
  publisherId : JString
  workloadId : JString

def getPolicy (format : PolicyFileFormat) (request : PolicyRequest) : FileUseProg (Option Policy) :=
  (FileSourcedPolicyProvider.getPolicy FileSourcedPolicyProvider.openProvider format
    request.identity request.publisherId request.workloadId).interp answerPolicyOp

/-- The policy bucket: the content of each object. -/
abbrev PolicyBucket := JString → Option Bytes

/-- `NoSuchKeyException` comes from a request for an object that is not there, and from nothing
else; other failures may come at any time. A stream that is read gives the object, and the clock
always answers. -/
def bucketStep (s : PolicyBucket) : (o : FileOp) → Except Throwable o.Val → PolicyBucket → Prop
  | .getObject key, r, s' => s' = s ∧ (match r with
    | .ok fetchedObject => s key = some fetchedObject
    | .error e => e.instanceOf .noSuchKeyException → s key = none)
  | .readFrom fetchedObject, r, s' => s' = s ∧ (match r with
    | .ok bytes => bytes = fetchedObject
    | .error e => e.instanceOf .noSuchKeyException = false)
  | .millis, r, s' => s' = s ∧ ∃ millis, r = .ok millis
  | _, r, s' => s' = s ∧ ∀ e, r = .error e → e.instanceOf .noSuchKeyException = false

section
variable {I : Type} (cache : Cache I JString (Option Bytes) Throwable) (bucket : JString)
  (format : PolicyFileFormat) (request : I → PolicyRequest)

/-- Callers of the provider over one cache, each with its request, which it may repeat. -/
def policySystem : System I (cache.Memory × PolicyBucket) (cache.Op ⊕ FileOp)
    (Sum.elim cache.Val FileOp.Val) Throwable (Option Policy) :=
  cache.system ticker (loadFromDelegateOrThrow bucket)
    { init := fun _ => True
      runs := fun _ _ => False
      step := fun _ => bucketStep
      env := fun _ _ => True }
    (fun i q => q = getPolicy format (request i))

end

/-! ## What a fetch gets -/

section
variable {bucket key : JString} {tr : List FileEvent}

theorem runs_tryWithResource_ok {R α : Type} {open_ : FileProg R} {body : R → FileProg α}
    {close : FileProg Unit} {a : α} (h : Runs (tryWithResource open_ body close) tr (.ok a)) :
    ∃ resource t₁ t₂ t₃, tr = t₁ ++ (t₂ ++ t₃) ∧ Runs open_ t₁ (.ok resource) ∧
      Runs (body resource) t₂ (.ok a) ∧ Runs close t₃ (.ok ()) := by
  simp only [tryWithResource, bind_eq, pure_eq, throw_eq, runs_bind_ok] at h
  obtain ⟨resource, t₁, t, rfl, hopen, result, t₂, t₃, rfl, hbody, h⟩ := h
  obtain ⟨r, hr, hbody⟩ := runs_attempt.mp hbody
  cases hr
  cases result with
  | ok a' =>
    obtain ⟨⟨⟩, t₄, t₅, rfl, hclose, hreturn⟩ := runs_bind_ok.mp h
    obtain ⟨rfl, heq⟩ := runs_ret.mp hreturn
    rw [← Except.ok.inj heq] at hbody
    exact ⟨resource, t₁, t₂, t₄, by simp, hopen, hbody, hclose⟩
  | error e => exact absurd h not_runs_bind_raise

/-- A file that is fetched was read to its end. -/
theorem S3FileFetcher.runs_fetchFile_some {bytes : Bytes}
    (h : Runs (S3FileFetcher.fetchFile bucket key) tr (.ok (some bytes))) :
    ∃ fetchedObject, tr = [⟨.getObject key, .ok fetchedObject⟩,
      ⟨.readFrom fetchedObject, .ok bytes⟩, ⟨.close, .ok ()⟩] := by
  unfold S3FileFetcher.fetchFile at h
  rw [tryCatch_eq] at h
  rcases runs_handle.mp h with ⟨_, heq, hbody⟩ | ⟨e, t₁, t₂, -, -, hcatch⟩
  · cases heq
    simp only [bind_eq, pure_eq, runs_bind_ok] at hbody
    obtain ⟨bytes', t, t', rfl, hread, hreturn⟩ := hbody
    obtain ⟨rfl, heq⟩ := runs_ret.mp hreturn
    obtain rfl := Option.some.inj (Except.ok.inj heq)
    obtain ⟨fetchedObject, t₁, t₂, t₃, rfl, hopen, hbody, hclose⟩ := runs_tryWithResource_ok hread
    rw [runs_invoke.mp hopen, runs_invoke.mp hbody, runs_invoke.mp hclose]
    exact ⟨fetchedObject, rfl⟩
  · split_ifs at hcatch
    · cases (runs_ret.mp hcatch).2
    · exact absurd (runs_raise.mp hcatch).2 (by simp)
    · exact absurd (runs_raise.mp hcatch).2 (by simp)

/-- The calls for a file stand one after the other in the run of the provider. -/
theorem runs_getPolicy_some {I : Type} {cache : Cache I JString (Option Bytes) Throwable}
    {format : PolicyFileFormat} {request : PolicyRequest} {policy : Policy}
    {tr : List (Event (cache.Op ⊕ FileOp) (Sum.elim cache.Val FileOp.Val) Throwable)}
    (h : Runs ((getPolicy format request).interp
      (cache.answer ticker (loadFromDelegateOrThrow bucket))) tr (.ok (some policy))) :
    ∃ t rawFile policies,
      Runs (cache.get ticker (loadFromDelegateOrThrow bucket) request.identity.getClientId) t
        (.ok (some rawFile)) ∧ t <:+: tr ∧
      FileSourcedPolicyProvider.parsePolicies (format.toStringUtf8 rawFile)
        (FileSourcedPolicyProvider.parsers format) = .ok policies ∧
      policies.issuer = request.identity.issuer ∧ policies.subject = request.identity.subject ∧
      policies.get (FileSourcedPolicyProvider.policyKey request.publisherId request.workloadId) =
        some policy := by
  obtain ⟨tr₁, hrun, hexp⟩ := runs_interp h
  obtain ⟨tr₀, hprovider, hexp₁⟩ := runs_interp hrun
  obtain ⟨rawFile, policies, rfl, hparse, hissuer, hsubject, hget⟩ :=
    FileSourcedPolicyProvider.runs_getPolicy_some.mp hprovider
  obtain ⟨t₁, hfetch, hpart⟩ := hexp₁.of_mem List.mem_cons_self
  have hcall : (⟨.get request.identity.getClientId, .ok (some rawFile)⟩ :
      Event (Use JString FileOp) (Use.Val (Option Bytes) FileOp.Val) Throwable) ∈ tr₁ := by
    refine hpart.subset ?_
    rw [runs_invoke.mp hfetch]
    exact List.mem_singleton_self _
  obtain ⟨t, hcache, hpart⟩ := hexp.of_mem hcall
  exact ⟨t, rawFile, policies, hcache, hpart, hparse, hissuer, hsubject, hget⟩

end

/-! ## Recent policies -/

section
variable {I : Type} [DecidableEq I] {cache : Cache I JString (Option Bytes) Throwable}
  {bucket : JString} {format : PolicyFileFormat} {request : I → PolicyRequest}

abbrev PolicyState (cache : Cache I JString (Option Bytes) Throwable) :=
  State I (cache.Memory × PolicyBucket) (cache.Op ⊕ FileOp)
    (Sum.elim cache.Val FileOp.Val) Throwable (Option Policy)

abbrev PolicyLog (cache : Cache I JString (Option Bytes) Throwable) :=
  Cache.Log I cache.Val FileOp.Val Throwable (Option Policy)

/-- On the way to `w` the file was in the bucket at some moment of a load, after which the ticker
said `writtenAt`. -/
def LoadedFile (cache : Cache I JString (Option Bytes) Throwable) (bucket : JString)
    (format : PolicyFileFormat) (request : I → PolicyRequest) (w : PolicyState cache)
    (clientId : JString) (rawFile : Bytes) (writtenAt : Int) : Prop :=
  ∃ (j : I) (newer run older : PolicyLog cache) (loaded tick : List FileEvent),
    w.log = newer ++ (run ++ older) ∧ .start j ∉ run ∧
    System.callsOf j run = (loaded ++ tick).map lift ∧
    Runs (loadFromDelegateOrThrow bucket clientId) loaded (.ok (some rawFile)) ∧
    Runs ticker tick (.ok writtenAt) ∧
    ∃ w₀, (policySystem cache bucket format request).Reachable w₀ ∧
      (policySystem cache bucket format request).Steps w₀ w ∧ older <:+ w₀.log ∧
      w₀.log <:+ run ++ older ∧ w₀.store.2 clientId = some rawFile

theorem loadedFile_of_loaded {w : PolicyState cache}
    (hw : (policySystem cache bucket format request).Reachable w) {clientId : JString}
    {rawFile : Bytes} {writtenAt : Int}
    (h : Cache.Loaded ticker (loadFromDelegateOrThrow bucket) w.log clientId (some rawFile)
      writtenAt) : LoadedFile cache bucket format request w clientId rawFile writtenAt := by
  obtain ⟨j, newer, run, older, loaded, tick, hlog, hstart, hcalls, hload, hticker⟩ := h
  obtain ⟨fetchedObject, hloaded⟩ := S3FileFetcher.runs_fetchFile_some hload
  -- In which states the request and the stream were answered.
  have hstate : ∀ ev ∈ loaded, ∃ w₀ s', (policySystem cache bucket format request).Reachable w₀ ∧
      (policySystem cache bucket format request).Steps w₀ w ∧ older <:+ w₀.log ∧ w₀.log <:+ run ++ older ∧ bucketStep w₀.store.2 ev.op ev.ans s' := by
    intro ev hev
    have hmem : lift ev ∈ System.callsOf j run := by
      rw [hcalls]
      exact List.mem_map_of_mem (List.mem_append_left _ hev)
    obtain ⟨after, earlier, hsplit⟩ := List.append_of_mem (System.mem_callsOf.mp hmem)
    have hcall : w.log = (newer ++ after) ++ .call j (lift ev) :: (earlier ++ older) := by
      rw [hlog, hsplit]
      simp
    obtain ⟨w₀, w₁, hw₀, hw₀log, hnext, hsteps, -, hstep⟩ := hw.answered hcall
    refine ⟨w₀, w₁.store.2, hw₀, (System.Steps.single hnext).trans hsteps, ?_, ?_, hstep⟩
    · rw [hw₀log]
      exact List.suffix_append _ _
    · rw [hw₀log, hsplit]
      exact ⟨after ++ [.call j (lift ev)], by simp⟩
  rw [hloaded] at hstate
  obtain ⟨w₀, s₀, hw₀, hsteps, holder, hrun, -, hheld⟩ := hstate _ List.mem_cons_self
  obtain ⟨_, _, -, -, -, -, -, hread⟩ := hstate ⟨.readFrom fetchedObject, .ok rawFile⟩ (by simp)
  obtain rfl : rawFile = fetchedObject := hread
  exact ⟨j, newer, run, older, loaded, tick, hlog, hstart, hcalls, hload, hticker, w₀, hw₀, hsteps,
    holder, hrun, hheld⟩

/-- A policy that a caller gets stands in a file that was in the bucket during a load after which
the ticker was read, less than five minutes before a reading of the caller's. -/
theorem policy_recent (hcache : cache.ExpiresAfterWrite cacheDuration) {w : PolicyState cache}
    (hw : (policySystem cache bucket format request).Reachable w) {i : I} {policy : Policy}
    {later run before : PolicyLog cache}
    (hlog : w.log = later ++ .finish i (.ok (some policy)) :: (run ++ .start i :: before))
    (hstart : .start i ∉ run) :
    ∃ (rawFile : Bytes) (policies : Policies) (now writtenAt : Int) (tick : List FileEvent),
      LoadedFile cache bucket format request w (request i).identity.getClientId rawFile
        writtenAt ∧
      Runs ticker tick (.ok now) ∧ tick.map lift <:+: System.callsOf i run ∧
      now - writtenAt < cacheDuration ∧
      FileSourcedPolicyProvider.parsePolicies (format.toStringUtf8 rawFile)
        (FileSourcedPolicyProvider.parsers format) = .ok policies ∧
      policies.issuer = (request i).identity.issuer ∧
      policies.subject = (request i).identity.subject ∧
      policies.get (FileSourcedPolicyProvider.policyKey (request i).publisherId
        (request i).workloadId) = some policy := by
  obtain ⟨p, ⟨_, rfl, rfl⟩, hruns⟩ := hw.finished hlog hstart
  obtain ⟨t, rawFile, policies, hget, ⟨first, last, hpart⟩, hfound⟩ := runs_getPolicy_some hruns
  -- The piece of the log in which the file is fetched.
  obtain ⟨run₃, run₁₂, rfl, hfirst, -⟩ := System.callsOf_eq_append hpart.symm
  obtain ⟨run₂, run₁, rfl, -, hcalls⟩ := System.callsOf_eq_append hfirst
  have hpiece : w.log = (later ++ .finish i (.ok (some policy)) :: run₃) ++
      (run₂ ++ (run₁ ++ .start i :: before)) := by
    rw [hlog]
    simp
  obtain ⟨now, writtenAt, tick, hticker, hread, hlive, hloaded⟩ :=
    hcache _ _ _ _ _ _ _ _ w hw i _ run₂ _ (request i).identity.getClientId (some rawFile) hpiece
      (fun hmem => hstart (by simp [hmem])) (by rw [hcalls]; exact hget)
  have hwhole := hloaded.append (later ++ .finish i (.ok (some policy)) :: run₃)
  rw [← hpiece] at hwhole
  refine ⟨rawFile, policies, now, writtenAt, tick,
    loadedFile_of_loaded hw hwhole, hticker, ?_, hlive, hfound⟩
  rw [hcalls] at hread
  rw [← hpart]
  exact hread.trans ⟨first, last, rfl⟩

end

/-! Two callers: the first loads the file of its client, which is then removed from the bucket;
the second still gets the policy, almost five minutes later. -/

namespace Sample

abbrev fileCache : Cache Bool JString (Option Bytes) Throwable :=
  Cache.locked Bool JString (Option Bytes) Throwable cacheDuration

/-- The memory of the cache, the bucket, and what the clock says. -/
abbrev FileStore := (Locked.Memory Bool JString (Option Bytes) × PolicyBucket) × Int64

def identity : CallerIdentity := ⟨u "i", u "s", []⟩

def policyRequest : PolicyRequest := ⟨identity, u "p", u "w"⟩

def domainPolicy : Policy :=
  ⟨u "p", u "w", [], [], [⟨.oak, Bytes.empty⟩], ⟨0, ⟨none, none⟩, ⟨[]⟩⟩⟩

def storedPolicies : PolicyV2.Policies :=
  ⟨⟨[(u "p/w", ⟨u "p", u "w", [], [], [.oakReferenceValues Bytes.empty],
    some ⟨⟨0, 0⟩, ⟨none, none⟩, ⟨[], List.nodup_nil⟩⟩⟩)], by simp⟩, u "i", u "s"⟩

/-- The decoder and the parser on the file of this run. -/
def fileFormat : PolicyFileFormat := ⟨fun _ => [], fun _ => .ok storedPolicies⟩

def rawFile : Bytes := Bytes.one 0x0a

/-- The cache, S3, the stream and the clock when nothing fails. -/
def serve (i : Bool) (s : FileStore) :
    (o : Locked.Call JString (Option Bytes) ⊕ FileOp) →
      Except Throwable (Sum.elim Locked.Call.Val FileOp.Val o) × FileStore
  | .inl (.find key now) => match s.1.1.entries key with
    | some e => if now - e.writtenAt < cacheDuration then (.ok (some e.value), s)
      else (.ok none, (({ s.1.1 with
        loading := Function.update s.1.1.loading key (some i) }, s.1.2), s.2))
    | none => (.ok none, (({ s.1.1 with
        loading := Function.update s.1.1.loading key (some i) }, s.1.2), s.2))
  | .inl (.write key entry) => (.ok (),
    (({ entries := Function.update s.1.1.entries key (some entry)
        loading := Function.update s.1.1.loading key none }, s.1.2), s.2))
  | .inl (.abandon key) => (.ok (),
    (({ s.1.1 with loading := Function.update s.1.1.loading key none }, s.1.2), s.2))
  | .inr (.getObject key) => match s.1.2 key with
    | some fetchedObject => (.ok fetchedObject, s)
    | none => (.error { cls := .noSuchKeyException }, s)
  | .inr (.readFrom fetchedObject) => (.ok fetchedObject, s)
  | .inr .close => (.ok (), s)
  | .inr .millis => (.ok s.2, s)
  | .inr (.incrementProcessingCounter _) => (.ok (), s)
  | .inr (.allowMetricsForClientId _) => (.ok (), s)

/-- Nobody else has taken the key. -/
def Free (s : FileStore) : Locked.Call JString (Option Bytes) ⊕ FileOp → Prop
  | .inl (.find key _) => s.1.1.loading key = none
  | _ => True

abbrev fileSystem := policySystem fileCache (u "policies") fileFormat (fun _ => policyRequest)

theorem step_serve (i : Bool) (s : FileStore) (o : Locked.Call JString (Option Bytes) ⊕ FileOp)
    (h : Free s o) : fileSystem.step i s.1 o (serve i s o).1 (serve i s o).2.1 := by
  cases o with
  | inl o =>
    cases o with
    | find key now =>
      cases he : s.1.1.entries key with
      | none =>
        refine ⟨.inr ⟨fun e heq => ?_, h, ?_, ?_⟩, ?_⟩
        · rw [he] at heq
          cases heq
        · simp [serve, he]
        · simp [serve, he]
        · simp [serve, he]
      | some e =>
        by_cases hlive : now - e.writtenAt < cacheDuration
        · refine ⟨.inl ⟨e, he, hlive, ?_, ?_⟩, ?_⟩
          · simp [serve, he, hlive]
          · simp [serve, he, hlive]
          · simp [serve, he, hlive]
        · refine ⟨.inr ⟨fun e' heq => ?_, h, ?_, ?_⟩, ?_⟩
          · rw [he] at heq
            exact Option.some.inj heq ▸ hlive
          · simp [serve, he, hlive]
          · simp [serve, he, hlive]
          · simp [serve, he, hlive]
    | write key entry => exact ⟨⟨rfl, rfl⟩, rfl⟩
    | abandon key => exact ⟨⟨rfl, rfl⟩, rfl⟩
  | inr o =>
    cases o with
    | getObject key =>
      cases hkey : s.1.2 key with
      | none =>
        simp only [serve, hkey]
        exact ⟨rfl, rfl, fun _ => hkey⟩
      | some fetchedObject =>
        simp only [serve, hkey]
        exact ⟨rfl, rfl, hkey⟩
    | readFrom fetchedObject => exact ⟨rfl, rfl, rfl⟩
    | millis => exact ⟨rfl, rfl, _, rfl⟩
    | close => exact ⟨rfl, rfl, fun e he => by cases he⟩
    | incrementProcessingCounter status => exact ⟨rfl, rfl, fun e he => by cases he⟩
    | allowMetricsForClientId clientId => exact ⟨rfl, rfl, fun e he => by cases he⟩

/-- What the process of a caller runs. -/
abbrev callerProg := (getPolicy fileFormat policyRequest).interp
  (fileCache.answer ticker (loadFromDelegateOrThrow (u "policies")))

/-- Both begin with an empty cache, and with the file in the bucket. -/
def first : FileStore := ((⟨fun _ => none, fun _ => none⟩, fun _ => some rawFile), 1800000000000)

def afterFirst : FileStore := (drive (serve false) callerProg first).2.2

def second : FileStore := ((afterFirst.1.1, fun _ => none), 1800000299000)

theorem drives_first : DriveAll (serve false) Free callerProg first :=
  ⟨trivial, rfl, trivial, trivial, trivial, trivial, trivial, trivial, trivial⟩

theorem drives_second : DriveAll (serve true) Free callerProg second :=
  ⟨trivial, rfl, trivial, trivial⟩

theorem drive_second : (drive (serve true) callerProg second).1 = .ok (some domainPolicy) := by
  decide +kernel

def log₁ : PolicyLog fileCache :=
  .finish false (drive (serve false) callerProg first).1 ::
    (((drive (serve false) callerProg first).2.1.map (.call false)).reverse ++ [.start false])

def run₂ : PolicyLog fileCache :=
  ((drive (serve true) callerProg second).2.1.map (.call true)).reverse

def last : PolicyState fileCache :=
  ⟨(drive (serve true) callerProg second).2.2.1, fun _ => none,
    .finish true (.ok (some domainPolicy)) :: (run₂ ++ .start true :: .env :: log₁)⟩

theorem reachable_last : fileSystem.Reachable last := by
  have hruns : ∀ i, fileSystem.runs i callerProg := fun _ => ⟨_, rfl, rfl⟩
  have hinit : fileSystem.Reachable ⟨first.1, fun _ => none, []⟩ :=
    .init first.1 ⟨fun _ => ⟨rfl, rfl⟩, trivial⟩
  have hfirst : fileSystem.Steps ⟨first.1, fun _ => none, []⟩
      ⟨afterFirst.1, fun _ => none, log₁⟩ :=
    System.Steps.run (hruns false) (runs_drive (serve false) callerProg first)
      (served_driveAll Prod.fst (step_serve false) drives_first) rfl []
  -- The file goes.
  have hgone : fileSystem.Step ⟨afterFirst.1, fun _ => none, log₁⟩
      ⟨second.1, fun _ => none, .env :: log₁⟩ := .env _ _ (.inr ⟨rfl, trivial⟩)
  have hsecond : fileSystem.Steps ⟨second.1, fun _ => none, .env :: log₁⟩ last := by
    unfold last run₂
    rw [← drive_second]
    exact System.Steps.run (hruns true) (runs_drive (serve true) callerProg second)
      (served_driveAll Prod.fst (step_serve true) drives_second) rfl _
  exact hsecond.reachable (.step (hfirst.reachable hinit) hgone)

instance : Inhabited Throwable := ⟨{ cls := .runtimeException }⟩

end Sample

theorem policy_recent_removed :
    (∀ clientId, Sample.last.store.2 clientId = none) ∧
      ∃ (rawFile : Bytes) (policies : Policies) (now writtenAt : Int) (tick : List FileEvent),
        LoadedFile Sample.fileCache (u "policies") Sample.fileFormat (fun _ => Sample.policyRequest)
          Sample.last Sample.identity.getClientId rawFile writtenAt ∧
        Runs ticker tick (.ok now) ∧ tick.map lift <:+: System.callsOf true Sample.run₂ ∧
        now - writtenAt < cacheDuration ∧
        FileSourcedPolicyProvider.parsePolicies (Sample.fileFormat.toStringUtf8 rawFile)
          (FileSourcedPolicyProvider.parsers Sample.fileFormat) = .ok policies ∧
        policies.issuer = Sample.identity.issuer ∧ policies.subject = Sample.identity.subject ∧
        policies.get (FileSourcedPolicyProvider.policyKey (u "p") (u "w")) =
          some Sample.domainPolicy := by
  refine ⟨fun _ => rfl, policy_recent (Cache.locked_expiresAfterWrite (by decide))
    Sample.reachable_last (show _ = [] ++ _ from rfl) ?_⟩
  intro hstart
  obtain ⟨ev, -, hev⟩ := List.mem_map.mp (List.mem_reverse.mp hstart)
  cases hev

end Tca
