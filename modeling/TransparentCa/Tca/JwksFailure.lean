import TransparentCa.Tca.JwksRefresh

/- What a refresh that fails leaves behind. The old key set is dropped before the new one is
   fetched, so a failed fetch leaves no set at all: until a fetch succeeds every lookup has to
   fetch, also of a key that the old set had and that its max-age still covers. Hence such a
   lookup never returns the key, and the cached keys outlive a failed refresh only where nobody
   asks for them before the next successful fetch (`keysKept_iff`). -/
namespace Tca
open Java Mbs Effects Effects.Prog

namespace OidcJwksKeyFetcher

section
variable (I : Type)

abbrev FetcherState :=
  State I FetcherStore JwksOp JwksOp.Val Throwable (Option PublicKey)

variable {I} [DecidableEq I] (lib : JwksPlatform)

/-- From `w` to `w'` a caller that misses its key drops `entry`, and then fails to fetch. -/
def FailedRefresh (w w' : FetcherState I) (entry : CacheEntry) : Prop :=
  ∃ i e w₁ w₂ between, w.store.cache = some entry ∧
    (fetcherSystem lib I).Step w w₁ ∧ w₁.log = .call i ⟨.invalidate, .ok ()⟩ :: w.log ∧
    (fetcherSystem lib I).Steps w₁ w₂ ∧ w₂.log = between ++ w₁.log ∧
    System.callsOf i between = [] ∧
    (fetcherSystem lib I).Step w₂ w' ∧ w'.log = .call i ⟨.cacheGet, .error e⟩ :: w₂.log

/-- On the way to `w`, a refresh that dropped `entry` failed, and then, with no successful
fetch since and within the max-age of `entry`, `keyId` was looked up, with the outcome `out`. -/
def LookedUpAfterFailure (w : FetcherState I) (entry : CacheEntry) (keyId : JString)
    (out : Except Throwable (Option PublicKey)) : Prop :=
  ∃ j w₀ w₁ w₂ w₃, (fetcherSystem lib I).Reachable w₀ ∧ FailedRefresh lib w₀ w₁ entry ∧
    (fetcherSystem lib I).Steps w₁ w₂ ∧
    (fetcherSystem lib I).Spans j (getKey keyId) out w₂ w₃ ∧
    fetches w₃.store.events = fetches w₀.store.events ∧ ¬ entry.expiredAt w₃.store.clock ∧
    (fetcherSystem lib I).Steps w₃ w

/-- The keys of a set survive a failed refresh. -/
def KeysKept (w : FetcherState I) : Prop :=
  ∀ entry keyId out, LookedUpAfterFailure lib w entry keyId out →
    ∀ key, entry.data.get keyId = some key → out = .ok (some key)

/-- After a failed refresh nobody asks for a key that the old set had. -/
def Unasked (w : FetcherState I) : Prop :=
  ∀ entry keyId out, LookedUpAfterFailure lib w entry keyId out → entry.data.get keyId = none

end

/-! ## Without a key set -/

/-- If the cache has nothing to give, neither has `getKey`. -/
theorem getKey_throws {keyId : JString} {tr : List JwksEvent}
    {out : Except Throwable (Option PublicKey)} (h : Runs (getKey keyId) tr out)
    (hget : ∀ r, (⟨.cacheGet, r⟩ : JwksEvent) ∈ tr → ∃ e, r = .error e) : ∃ e, out = .error e := by
  cases out with
  | error e => exact ⟨e, rfl⟩
  | ok key =>
    simp only [getKey, jwksCall, bind_eq, runs_invoke_bind] at h
    obtain ⟨⟨⟩, t, rfl, data, t', rfl, -⟩ := h
    obtain ⟨e, he⟩ := hget (.ok data) (by simp)
    cases he

section
variable {I : Type} [DecidableEq I] {lib : JwksPlatform}

theorem fetches_suffix_of_step {w w' : FetcherState I} (h : (fetcherSystem lib I).Step w w') :
    fetches w.store.events <:+ fetches w'.store.events := by
  cases h with
  | call i o k r s' hi hs => exact (step_events hs).filterMap _
  | env s' hs => exact hs.elim
  | _ => exact List.suffix_rfl

theorem fetches_suffix {w w' : FetcherState I} (h : (fetcherSystem lib I).Steps w w') :
    fetches w.store.events <:+ fetches w'.store.events := by
  induction h with
  | refl => exact List.suffix_rfl
  | tail _ hs ih => exact ih.trans (fetches_suffix_of_step hs)

/-- Where no fetch was added in the end, none was before. -/
theorem fetches_between {w w₁ w₂ : FetcherState I} (h₁ : (fetcherSystem lib I).Steps w w₁)
    (h₂ : (fetcherSystem lib I).Steps w₁ w₂)
    (hfetches : fetches w₂.store.events = fetches w.store.events) :
    fetches w₁.store.events = fetches w.store.events ∧
      fetches w₂.store.events = fetches w₁.store.events := by
  have hback := fetches_suffix h₂
  rw [hfetches] at hback
  have hfirst := hback.eq_of_length_le (fetches_suffix h₁).length_le
  exact ⟨hfirst, hfetches.trans hfirst.symm⟩

/-- A load that adds no fetch failed, and leaves the cache empty. -/
theorem Loads.failed {s s' : FetcherStore} {outcome : Except Throwable JwksData}
    (h : Loads lib s outcome s') (hfetches : fetches s'.events = fetches s.events) :
    (∃ e, outcome = .error e) ∧ s'.cache = none := by
  obtain ⟨-, -, hcache, hevents⟩ := h
  cases outcome with
  | error e => exact ⟨⟨e, rfl⟩, hcache⟩
  | ok data =>
    rw [hevents, fetches_load_ok] at hfetches
    exact absurd hfetches (List.cons_ne_self _ _)

/-- Without a key set, a call after which there is no new fetch finds none and leaves none. -/
theorem starved_call {s s' : FetcherStore} {o : JwksOp} {r : Except Throwable o.Val}
    (h : step lib s o r s') (hnone : s.cache = none)
    (hfetches : fetches s'.events = fetches s.events) :
    s'.cache = none ∧ (o = .cacheGet → ∃ e, r = .error e) := by
  obtain ⟨clock, -, h⟩ := h
  cases o with
  | cacheGet =>
    rcases h with ⟨entry, hentry, -⟩ | ⟨-, hloads⟩
    · -- A hit needs an entry.
      have hsome : s.cache = some entry := hentry
      rw [hnone] at hsome
      cases hsome
    · obtain ⟨hthrown, hempty⟩ := hloads.failed hfetches
      exact ⟨hempty, fun _ => hthrown⟩
  | invalidate =>
    obtain ⟨-, rfl⟩ := h
    exact ⟨rfl, fun heq => by cases heq⟩
  | millis =>
    obtain ⟨-, rfl⟩ := h
    exact ⟨hnone, fun heq => by cases heq⟩
  | _ =>
    cases h
    exact ⟨hnone, fun heq => by cases heq⟩

theorem starved_step {w w' : FetcherState I} (h : (fetcherSystem lib I).Step w w')
    (hnone : w.store.cache = none)
    (hfetches : fetches w'.store.events = fetches w.store.events) :
    w'.store.cache = none ∧
      ∀ i r, w'.log = .call i ⟨.cacheGet, r⟩ :: w.log → ∃ e, r = .error e := by
  cases h with
  | call i o k r s' hi hs =>
    obtain ⟨hempty, hthrown⟩ := starved_call hs hnone hfetches
    refine ⟨hempty, fun j r' hlog => ?_⟩
    obtain ⟨-, hev⟩ := Entry.call.inj (List.cons.inj hlog).1
    cases hev
    exact hthrown rfl
  | env s' hs => exact hs.elim
  | _ =>
    refine ⟨hnone, fun j r hlog => ?_⟩
    cases (List.cons.inj hlog).1

/-- As long as no fetch succeeds, the cache stays empty and every `get` throws. -/
theorem starved {w w' : FetcherState I} (h : (fetcherSystem lib I).Steps w w')
    (hnone : w.store.cache = none)
    (hfetches : fetches w'.store.events = fetches w.store.events) :
    w'.store.cache = none ∧ ∀ run, w'.log = run ++ w.log →
      ∀ i r, Entry.call i ⟨.cacheGet, r⟩ ∈ run → ∃ e, r = .error e := by
  induction h with
  | refl =>
    refine ⟨hnone, fun run hlog i r hmem => ?_⟩
    rw [List.self_eq_append_left.mp hlog] at hmem
    cases hmem
  | @tail w₁ w₂ hsteps hstep ih =>
    obtain ⟨hfirst, hlater⟩ := fetches_between hsteps (.single hstep) hfetches
    obtain ⟨hempty, hruns⟩ := ih hfirst
    obtain ⟨hempty', hlast⟩ := starved_step hstep hempty hlater
    refine ⟨hempty', fun run hlog i r hmem => ?_⟩
    obtain ⟨entry, hentry⟩ := hstep.log_eq
    obtain ⟨before, hbefore⟩ := hsteps.log_suffix
    have hsame : run ++ w.log = entry :: before ++ w.log := by
      rw [← hlog, hentry, ← hbefore]
      rfl
    have hrun : run = entry :: before := List.append_cancel_right hsame
    rw [hrun, List.mem_cons] at hmem
    rcases hmem with rfl | hmem
    · exact hlast i r hentry
    · exact hruns before hbefore.symm i r hmem

/-- The next lookup begins where the refresh failed. -/
theorem LookedUpAfterFailure.at_once {j : I} {w₀ w₁ w : FetcherState I} {entry : CacheEntry}
    {keyId : JString} {out : Except Throwable (Option PublicKey)}
    (hw₀ : (fetcherSystem lib I).Reachable w₀) (hrefresh : FailedRefresh lib w₀ w₁ entry)
    (hlookup : (fetcherSystem lib I).Spans j (getKey keyId) out w₁ w)
    (hfetches : fetches w.store.events = fetches w₀.store.events)
    (hlive : ¬ entry.expiredAt w.store.clock) : LookedUpAfterFailure lib w entry keyId out :=
  ⟨j, w₀, w₁, w₁, w, hw₀, hrefresh, .refl w₁, hlookup, hfetches, hlive, .refl w⟩

theorem FailedRefresh.steps {w w' : FetcherState I} {entry : CacheEntry}
    (h : FailedRefresh lib w w' entry) : (fetcherSystem lib I).Steps w w' := by
  obtain ⟨i, e, w₁, w₂, between, -, hdrop, -, hwait, -, -, hget, -⟩ := h
  exact (System.Steps.trans (.single hdrop) hwait).trans (.single hget)

/-- Dropping the set empties the cache. -/
theorem empty_of_invalidate {w w' : FetcherState I} (h : (fetcherSystem lib I).Step w w') {i : I}
    {r : Except Throwable Unit} (hlog : w'.log = .call i ⟨.invalidate, r⟩ :: w.log) :
    w'.store.cache = none := by
  cases h with
  | call j o k r' s' hj hs =>
    obtain ⟨-, hev⟩ := Entry.call.inj (List.cons.inj hlog).1
    cases hev
    obtain ⟨clock, -, -, hs⟩ := hs
    rw [hs]
  | env s' hs => exact hs.elim
  | _ => cases (List.cons.inj hlog).1

/-- A lookup after a failed refresh, before any fetch has succeeded, ends with an exception. -/
theorem lookup_throws {w : FetcherState I} {entry : CacheEntry} {keyId : JString}
    {out : Except Throwable (Option PublicKey)}
    (h : LookedUpAfterFailure lib w entry keyId out) : ∃ e, out = .error e := by
  obtain ⟨j, w₀, w₁, w₂, w₃, hw₀, hrefresh, hbetween, hlookup, hfetches, -, -⟩ := h
  obtain ⟨i, e, wd, wg, -, -, hdrop, hdroplog, hwait, -, -, hget, -⟩ := hrefresh
  have hfail : (fetcherSystem lib I).Steps wd w₂ := (hwait.trans (.single hget)).trans hbetween
  have hthere : (fetcherSystem lib I).Steps w₀ w₂ :=
    System.Steps.trans (.single hdrop) hfail
  -- No fetch from the refresh to the end of the lookup, so none in any part of the way.
  obtain ⟨hquiet, hlookupQuiet⟩ := fetches_between hthere hlookup.steps hfetches
  obtain ⟨-, hfailQuiet⟩ := fetches_between (.single hdrop) hfail hquiet
  have hempty : w₂.store.cache = none :=
    (starved hfail (empty_of_invalidate hdrop hdroplog) hfailQuiet).1
  have hgets := (starved hlookup.steps hempty hlookupQuiet).2
  obtain ⟨p, run, hlog, ⟨keyId', rfl⟩, hrun⟩ := hlookup.runs (hthere.reachable hw₀)
  refine getKey_throws hrun (fun r hmem => ?_)
  apply hgets (.finish j out :: (run ++ [.start j])) (by rw [hlog]; simp) j r
  have hcall := System.mem_callsOf.mp hmem
  simp [hcall]

theorem not_keysKept {w : FetcherState I} {entry : CacheEntry} {keyId : JString}
    {out : Except Throwable (Option PublicKey)} {key : PublicKey}
    (h : LookedUpAfterFailure lib w entry keyId out) (hkey : entry.data.get keyId = some key) :
    ¬ KeysKept lib w := by
  intro hkept
  obtain ⟨e, rfl⟩ := lookup_throws h
  cases hkept entry keyId _ h key hkey

/-- The keys of a set survive failed refreshes exactly where nobody asks for one of them
between such a refresh and the next successful fetch. -/
theorem keysKept_iff {w : FetcherState I} : KeysKept lib w ↔ Unasked lib w := by
  constructor
  · intro hkept entry keyId out h
    cases hkey : entry.data.get keyId with
    | none => rfl
    | some key => exact absurd hkept (not_keysKept h hkey)
  · intro hunasked entry keyId out h key hkey
    rw [hunasked entry keyId out h] at hkey
    cases hkey

end
end OidcJwksKeyFetcher

/-! The endpoint, out of reach a minute after the first fetch. -/

namespace Sample
open OidcJwksKeyFetcher

def fetchFailure : Throwable :=
  { cls := .runtimeException, message := u "Failed to fetch or parse JWKS" }

/-- How the calls of a fetch at `clock` are answered when no connection comes about. -/
def refusedAnswer (clock : Int64) : (o : JwksOp) → Except Throwable o.Val
  | .send _ => .error { cls := .ioException }
  | o => jwksAnswer clock o

def unloaded (s : FetcherStore) : FetcherStore :=
  ⟨s.clock, none, .load s.clock s.cache (.error fetchFailure) :: s.events⟩

theorem step_refused (s : FetcherStore) (h : s.cache = none) :
    step jwksPlatform s .cacheGet (.error fetchFailure) (unloaded s) := by
  have hrun := runs_eval (refusedAnswer s.clock) (fetchJwks jwksPlatform)
  refine ⟨s.clock, le_refl _, .inr ⟨fun entry hentry => ?_, ⟨_, hrun, ?_⟩, le_refl _, rfl, rfl⟩⟩
  · rw [Option.mem_def, FetcherStore.at, h] at hentry
    cases hentry
  · intro millis hmem
    obtain ⟨o, -, ho⟩ := List.mem_map.mp hmem
    cases o <;> cases ho
    exact ⟨le_refl _, le_refl _⟩

/-- With the cache empty and the endpoint out of reach, `k` is not found either. -/
theorem runs_known_refused : Runs (getKey (u "k"))
    [⟨.recordOidcJwksLookup, .ok ()⟩, ⟨.cacheGet, .error fetchFailure⟩]
    (.error fetchFailure) := by
  refine Runs.invoke_bind ?_
  exact runs_bind_error.mpr (.inl (runs_invoke.mpr rfl))

theorem served_refused (s : FetcherStore) (h : s.cache = none) :
    Served (step jwksPlatform) s
      [⟨.recordOidcJwksLookup, .ok ()⟩, ⟨.cacheGet, .error fetchFailure⟩] (unloaded s) :=
  .cons (step_lookup (le_refl _)) (.cons (step_refused s h) (.nil _))

/-- The caller that has paused makes its next call. -/
theorem paused_step {q : JwksProg (Option PublicKey)} {ev : JwksEvent} {tr : List JwksEvent}
    {out : Except Throwable (Option PublicKey)} (hq : q.Runs (ev :: tr) out) {s s' : FetcherStore}
    (hs : step jwksPlatform s ev.op ev.ans s')
    (log : List (Entry Bool JwksOp JwksOp.Val Throwable (Option PublicKey))) :
    ∃ q', q'.Runs tr out ∧ (fetcherSystem jwksPlatform Bool).Step
      ⟨s, Function.update idle true (some q), log⟩
      ⟨s', Function.update idle true (some q'), .call true ev :: log⟩ :=
  System.Step.of_paused hq hs idle log

/-- A caller asks for `x` a minute and a second after the first fetch. -/
theorem failedRefresh_warm : ∃ w w', (fetcherSystem jwksPlatform Bool).Reachable w ∧
    FailedRefresh jwksPlatform w w' ⟨jwksData 0, 0⟩ ∧
    w.store = warm.at 61000 ∧ w'.store = unloaded (dropped (warm.at 61000)) ∧
    w'.proc false = none := by
  obtain ⟨log, hwarm⟩ := reachable_warm
  have hread := served_read warm 61000 (by decide) rfl not_expired_warm
  obtain ⟨q, log₀, hq, hsteps⟩ := System.Steps.pause (runs_getKey true (u "x"))
    (runs_unknown (.error fetchFailure)) hread (idle_apply true) log
  obtain ⟨q₁, hq₁, hdrop⟩ := paused_step hq (step_invalidate (warm.at 61000)) log₀
  obtain ⟨q₂, -, hget⟩ := paused_step hq₁ (step_refused (dropped (warm.at 61000)) rfl) _
  exact ⟨_, _, hsteps.reachable hwarm,
    ⟨true, _, _, _, [], rfl, hdrop, rfl, .refl _, rfl, rfl, hget, rfl⟩, rfl, rfl, rfl⟩

end Sample

namespace OidcJwksKeyFetcher

/-- `k` was fetched with a max-age of an hour; after the failed refresh for `x` a lookup of `k`
throws. -/
theorem keysKept_lost : ∃ w, (fetcherSystem Sample.jwksPlatform Bool).Reachable w ∧
    ¬ KeysKept Sample.jwksPlatform w := by
  obtain ⟨w₀, ⟨store, proc, log⟩, hw₀, hrefresh, hstore₀, hstore, hfree⟩ :=
    Sample.failedRefresh_warm
  dsimp only at hstore hfree
  subst hstore
  have hserved := Sample.served_refused
    (Sample.unloaded (Sample.dropped (Sample.warm.at 61000))) rfl
  obtain ⟨proc', log', hspans⟩ := System.Spans.of_runs (Sample.runs_getKey false (u "k"))
    Sample.runs_known_refused hserved hfree log
  have hlookup := LookedUpAfterFailure.at_once hw₀ hrefresh hspans (by rw [hstore₀]; rfl)
    Sample.not_expired_warm
  have hcached : (Sample.jwksData 0).get (u "k") = some Sample.jwksKey := by decide
  have hsteps := hrefresh.steps.trans hspans.steps
  exact ⟨_, hsteps.reachable hw₀, not_keysKept hlookup hcached⟩

end OidcJwksKeyFetcher
end Tca
