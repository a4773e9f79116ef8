import TransparentCa.Tca.JwksKeyFetcher

/- How often the key set is fetched. A caller that finds a key id missing decides to refresh on
   the set it read, and drops whatever is in the cache by then: if another caller has
   refreshed in between, a set that is seconds old. As long as every set that is dropped is
   older than the minimum refresh interval, fetches keep that distance, whatever the order of
   the callers' steps (`fetches_spaced`). -/
namespace Tca
open Java Mbs Effects Effects.Prog

namespace OidcJwksKeyFetcher

/-- Each fetch begins more than the minimum refresh interval after those before it. -/
def Spaced (fetches : List (Int64 × JwksData)) : Prop :=
  fetches.Pairwise (fun newer older =>
    older.2.fetchedAt.val + minRefreshInterval < (Instant.ofEpochMilli newer.1).val)

def EveryFetchSucceeds (events : List CacheEvent) : Prop :=
  ∀ start expired outcome, .load start expired outcome ∈ events → ∃ data, outcome = .ok data

def NoEntryExpires (events : List CacheEvent) : Prop :=
  ∀ start expired outcome, .load start expired outcome ∈ events → expired = none

/-- Every key set that is dropped is old enough to be refreshed when it is dropped. -/
def DropsStale (events : List CacheEvent) : Prop :=
  ∀ entry clock, .invalidate (some entry) clock ∈ events → staleAt entry.data clock = .ok true

theorem staleAt_eq_true {data : JwksData} {clock : Int64} (h : staleAt data clock = .ok true) :
    data.fetchedAt.val + minRefreshInterval < (Instant.ofEpochMilli clock).val := by
  obtain ⟨limit, hlimit, hret⟩ := except_bind_eq_ok.mp h
  have hlt : limit < Instant.ofEpochMilli clock := of_decide_eq_true (Except.ok.inj hret)
  rw [← Instant.plus_ok hlimit]
  exact hlt

theorem ofEpochMilli_mono {m n : Int64} (h : m.toInt ≤ n.toInt) :
    (Instant.ofEpochMilli m).val ≤ (Instant.ofEpochMilli n).val := by
  simp only [Instant.ofEpochMilli]
  omega

/-- What the cache holds about the fetches so far: with an entry, none is younger than it;
without one, all are old enough to be repeated. -/
structure Paced (s : FetcherStore) : Prop where
  spaced : Spaced (fetches s.events)
  entry : ∀ entry ∈ s.cache, ∀ fetch ∈ fetches s.events,
    fetch.2.fetchedAt.val ≤ entry.data.fetchedAt.val
  empty : s.cache = none → ∀ fetch ∈ fetches s.events,
    fetch.2.fetchedAt.val + minRefreshInterval < (Instant.ofEpochMilli s.clock).val

/-- A load into an empty cache keeps the distance, and its set is the youngest. -/
theorem Paced.load {lib : JwksPlatform} {s s' : FetcherStore} {data : JwksData}
    (hs : Paced s) (hempty : s.cache = none) (h : Loads lib s (.ok data) s') : Paced s' := by
  obtain ⟨⟨tr, hrun, htimes⟩, hclock, hcache, hevents⟩ := h
  obtain ⟨millis, hmem, hdated⟩ := fetchedAt_of_runs hrun
  have hold := hs.empty hempty
  have hbegun : (Instant.ofEpochMilli s.clock).val ≤ data.fetchedAt.val := by
    rw [hdated]
    exact ofEpochMilli_mono (htimes millis hmem).1
  constructor
  · rw [hevents, fetches_load_ok]
    exact List.pairwise_cons.mpr ⟨hold, hs.spaced⟩
  · intro entry hentry fetch hfetch
    rw [hcache] at hentry
    obtain rfl := (Option.mem_some.mp hentry).symm
    rw [hevents, fetches_load_ok, List.mem_cons] at hfetch
    rcases hfetch with rfl | hfetch
    · exact le_refl _
    · have hstale := hold fetch hfetch
      unfold minRefreshInterval nanosPerSecond at hstale
      show fetch.2.fetchedAt.val ≤ data.fetchedAt.val
      omega
  · intro hnone
    rw [hcache] at hnone
    cases hnone

theorem Paced.step {lib : JwksPlatform} {s s' : FetcherStore} {o : JwksOp}
    {r : Except Throwable o.Val} (hs : Paced s) (h : step lib s o r s')
    (hsucceeds : EveryFetchSucceeds s'.events) (hlive : NoEntryExpires s'.events)
    (hdrops : DropsStale s'.events) : Paced s' := by
  obtain ⟨hclock, h⟩ := step_cases h
  rcases h with ⟨hcache, hevents⟩ | ⟨clock, outcome, htime, -, -, -, hloads⟩ |
    ⟨clock, htime, -, hnow, hcache, hevents⟩
  · -- Only time has passed.
    refine ⟨by rw [hevents]; exact hs.spaced, by rw [hcache, hevents]; exact hs.entry, ?_⟩
    intro hnone fetch hfetch
    rw [hevents] at hfetch
    exact lt_of_lt_of_le (hs.empty (hcache ▸ hnone) fetch hfetch) (ofEpochMilli_mono hclock)
  · have hmem : CacheEvent.load clock s.cache outcome ∈ s'.events := by
      rw [hloads.2.2.2]
      exact List.mem_cons_self
    obtain ⟨data, rfl⟩ := hsucceeds _ _ _ hmem
    have hnone : s.cache = none := hlive _ _ _ hmem
    refine Paced.load (s := s.at clock) ⟨hs.spaced, hs.entry, ?_⟩ hnone hloads
    intro _ fetch hfetch
    exact lt_of_lt_of_le (hs.empty hnone fetch hfetch) (ofEpochMilli_mono htime)
  · refine ⟨by rw [hevents]; exact hs.spaced, ?_, ?_⟩
    · intro entry hentry
      rw [hcache] at hentry
      cases hentry
    intro _ fetch hfetch
    rw [hevents, fetches_invalidate] at hfetch
    rw [hnow]
    cases hold : s.cache with
    | none => exact lt_of_lt_of_le (hs.empty hold fetch hfetch) (ofEpochMilli_mono htime)
    | some entry =>
      -- The entry dropped is the youngest set, and old enough.
      have hstale := staleAt_eq_true (hdrops entry clock (by rw [hevents, hold]; simp))
      have hyoungest := hs.entry entry hold fetch hfetch
      omega

/-- Events are only added. -/
theorem step_events {lib : JwksPlatform} {s s' : FetcherStore} {o : JwksOp}
    {r : Except Throwable o.Val} (h : step lib s o r s') : s.events <:+ s'.events := by
  obtain ⟨-, h⟩ := step_cases h
  rcases h with ⟨-, hevents⟩ | ⟨clock, outcome, -, -, -, -, hloads⟩ | ⟨clock, -, -, -, -, hevents⟩
  · rw [hevents]
  · rw [hloads.2.2.2]
    exact List.suffix_cons _ _
  · rw [hevents]
    exact List.suffix_cons _ _

section
variable {I : Type} [DecidableEq I] {lib : JwksPlatform}

theorem paced_of_reachable
    {w : State I FetcherStore JwksOp JwksOp.Val Throwable (Option PublicKey)}
    (hw : (fetcherSystem lib I).Reachable w) (hsucceeds : EveryFetchSucceeds w.store.events)
    (hlive : NoEntryExpires w.store.events) (hdrops : DropsStale w.store.events) :
    Paced w.store := by
  induction hw with
  | init s hs =>
    obtain ⟨clock, rfl⟩ := hs
    refine ⟨List.Pairwise.nil, ?_, ?_⟩
    · intro entry hentry
      cases hentry
    · intro _ fetch hfetch
      cases hfetch
  | step hw h ih =>
    cases h with
    | call i o k r s' hi hs =>
      have hsuffix := step_events hs
      refine Paced.step (ih ?_ ?_ ?_) hs hsucceeds hlive hdrops
      · exact fun start expired outcome h => hsucceeds start expired outcome (hsuffix.mem h)
      · exact fun start expired outcome h => hlive start expired outcome (hsuffix.mem h)
      · exact fun entry clock h => hdrops entry clock (hsuffix.mem h)
    | env s' hs => exact hs.elim
    | start i p hp hi => exact ih hsucceeds hlive hdrops
    | ret i a hi => exact ih hsucceeds hlive hdrops
    | raise i e hi => exact ih hsucceeds hlive hdrops
    | stop i p hi => exact ih hsucceeds hlive hdrops

/-- In every interleaving in which each dropped key set is stale when it is dropped, fetches
are more than the minimum refresh interval apart. -/
theorem fetches_spaced
    {w : State I FetcherStore JwksOp JwksOp.Val Throwable (Option PublicKey)}
    (hw : (fetcherSystem lib I).Reachable w) (hsucceeds : EveryFetchSucceeds w.store.events)
    (hlive : NoEntryExpires w.store.events) (hdrops : DropsStale w.store.events) :
    Spaced (fetches w.store.events) :=
  (paced_of_reachable hw hsucceeds hlive hdrops).spaced

end
end OidcJwksKeyFetcher

/-! An endpoint with one key, `k`, and callers that ask for it or for another one. -/

namespace Sample
open OidcJwksKeyFetcher

def jwksKey : PublicKey := ⟨u "RSA", Bytes.empty⟩

def jwksPlatform : JwksPlatform where
  newRequest _ := .ok ()
  readValue _ := .ok (some ⟨some [some ⟨some (u "k"), some (u "RSA"), some (u "n"), some (u "e")⟩]⟩)
  rsaPublicKey _ _ := .ok jwksKey

def jwksData (fetchedAt : Int64) : JwksData :=
  ⟨JMap.empty.put (u "k") jwksKey, defaultCacheDurationSecs, Instant.ofEpochMilli fetchedAt⟩

/-- How the calls of a fetch at `clock` are answered. -/
def jwksAnswer (clock : Int64) : (o : JwksOp) → Except Throwable o.Val
  | .millis => .ok clock
  | .getJwksUri => .ok (u "https://issuer/jwks")
  | .send _ => .ok ⟨200, [], none⟩
  | .cacheGet => .ok (jwksData clock)
  | .recordOidcJwksLookup | .recordOidcJwksMiss | .recordOidcJwksFetchTime | .invalidate => .ok ()

def loaded (s : FetcherStore) : FetcherStore :=
  ⟨s.clock, some ⟨jwksData s.clock, s.clock⟩,
    .load s.clock s.cache (.ok (jwksData s.clock)) :: s.events⟩

def dropped (s : FetcherStore) : FetcherStore :=
  ⟨s.clock, none, .invalidate s.cache s.clock :: s.events⟩

theorem step_load (s : FetcherStore) (h : s.cache = none) :
    step jwksPlatform s .cacheGet (.ok (jwksData s.clock)) (loaded s) := by
  have hrun := runs_eval (jwksAnswer s.clock) (fetchJwks jwksPlatform)
  refine ⟨s.clock, le_refl _, .inr ⟨fun entry hentry => ?_, ⟨_, hrun, ?_⟩, le_refl _, rfl, rfl⟩⟩
  · rw [Option.mem_def, FetcherStore.at, h] at hentry
    cases hentry
  · intro millis hmem
    obtain ⟨o, -, ho⟩ := List.mem_map.mp hmem
    cases o <;> cases ho
    exact ⟨le_refl _, le_refl _⟩

theorem step_invalidate (s : FetcherStore) :
    step jwksPlatform s .invalidate (.ok ()) (dropped s) :=
  ⟨s.clock, le_refl _, rfl, rfl⟩

theorem step_hit {s : FetcherStore} {entry : CacheEntry} (h : s.cache = some entry)
    (hlive : ¬ entry.expiredAt s.clock) : step jwksPlatform s .cacheGet (.ok entry.data) s :=
  ⟨s.clock, le_refl _, .inl ⟨entry, h, hlive, rfl, rfl⟩⟩

theorem step_lookup {s : FetcherStore} {clock : Int64} (h : s.clock.toInt ≤ clock.toInt) :
    step jwksPlatform s .recordOidcJwksLookup (.ok ()) (s.at clock) :=
  ⟨clock, h, rfl⟩

/-- A caller that finds the set it reads at `clock` without its key, up to its decision. -/
def readTrace (data : JwksData) (clock : Int64) : List JwksEvent :=
  [⟨.recordOidcJwksLookup, .ok ()⟩, ⟨.cacheGet, .ok data⟩, ⟨.millis, .ok clock⟩]

/-- The refresh it then makes. -/
def refreshTrace (clock : Int64) : List JwksEvent :=
  [⟨.invalidate, .ok ()⟩, ⟨.cacheGet, .ok (jwksData clock)⟩]

theorem served_read (s : FetcherStore) (clock : Int64) (hclock : s.clock.toInt ≤ clock.toInt)
    {entry : CacheEntry} (h : s.cache = some entry) (hlive : ¬ entry.expiredAt clock) :
    Served (step jwksPlatform) s (readTrace entry.data clock) (s.at clock) := by
  refine .cons (step_lookup hclock) (.cons (step_hit h hlive) (.cons ?_ (.nil _)))
  exact ⟨clock, le_refl _, rfl, rfl⟩

theorem served_refresh (s : FetcherStore) :
    Served (step jwksPlatform) s (refreshTrace s.clock) (loaded (dropped s)) :=
  .cons (step_invalidate s) (.cons (step_load (dropped s) rfl) (.nil _))

/-- A minute and a second after a set was fetched, an unknown key refreshes it. -/
theorem runs_unknown (r : Except Throwable JwksData) : Runs (getKey (u "x"))
    (readTrace (jwksData 0) 61000 ++ [⟨.invalidate, .ok ()⟩, ⟨.cacheGet, r⟩])
    (r.map (fun data => data.get (u "x"))) := by
  have hmissing : (jwksData 0).get (u "x") = none := by decide
  have hstale : staleAt (jwksData 0) 61000 = .ok true := by decide
  have hdecided : Runs (shouldAttemptRefresh (jwksData 0)) [⟨.millis, .ok 61000⟩] (.ok true) := by
    refine runs_invoke_bind.mpr ⟨61000, [], rfl, ?_⟩
    rw [hstale]
    exact .ret true
  have hagain : Runs ((jwksCall .cacheGet).bind (fun data => .ret (data.get (u "x"))))
      [⟨.cacheGet, r⟩] (r.map (fun data => data.get (u "x"))) := by
    cases r with
    | ok data => exact runs_invoke_bind.mpr ⟨data, [], rfl, .ret _⟩
    | error e => exact runs_bind_error.mpr (.inl (runs_invoke.mpr rfl))
  refine Runs.invoke_bind (Runs.invoke_bind ?_)
  rw [hmissing]
  exact Runs.bind hdecided (Runs.invoke_bind hagain)

def knownTrace : List JwksEvent := [⟨.recordOidcJwksLookup, .ok ()⟩, ⟨.cacheGet, .ok (jwksData 0)⟩]

theorem runs_known : Runs (getKey (u "k")) knownTrace (.ok (some jwksKey)) := by
  have hfound : (jwksData 0).get (u "k") = some jwksKey := by decide
  refine runs_invoke_bind.mpr ⟨(), _, rfl, runs_invoke_bind.mpr ⟨jwksData 0, [], rfl, ?_⟩⟩
  rw [hfound]
  exact .ret (some jwksKey)

def warm : FetcherStore := loaded (FetcherStore.new 0)

theorem served_warm : Served (step jwksPlatform) (FetcherStore.new 0) knownTrace warm :=
  .cons (step_lookup (le_refl _)) (.cons (step_load (FetcherStore.new 0) rfl) (.nil _))

theorem not_expired_warm : ¬ (⟨jwksData 0, 0⟩ : CacheEntry).expiredAt 61000 := by
  unfold CacheEntry.expiredAt jwksData defaultCacheDurationSecs
  decide

/-- No caller is in a call. -/
def idle : Bool → Option (JwksProg (Option PublicKey)) := fun _ => none

theorem idle_apply (i : Bool) : idle i = none := rfl

theorem runs_getKey (i : Bool) (keyId : JString) :
    (fetcherSystem jwksPlatform Bool).runs i (getKey keyId) := ⟨keyId, rfl⟩

/-- A caller has asked for `k` at the time 0. -/
theorem reachable_warm : ∃ log, (fetcherSystem jwksPlatform Bool).Reachable
    ⟨warm, idle, log⟩ := by
  have hsteps := System.Steps.run (runs_getKey true (u "k")) runs_known served_warm
    (idle_apply true) []
  exact ⟨_, hsteps.reachable (.init _ ⟨0, rfl⟩)⟩

/-- The cached set is dropped, and loaded anew. -/
def refreshed (s : FetcherStore) : FetcherStore := loaded (dropped s)

theorem reachable_refreshed : ∃ log, (fetcherSystem jwksPlatform Bool).Reachable
    ⟨refreshed (warm.at 61000), idle, log⟩ := by
  obtain ⟨log, hwarm⟩ := reachable_warm
  have hread := served_read warm 61000 (by decide) rfl not_expired_warm
  have hserved := hread.append (served_refresh (warm.at 61000))
  have hsteps := System.Steps.run (runs_getKey true (u "x")) (runs_unknown (.ok _)) hserved
    (idle_apply true) log
  exact ⟨_, hsteps.reachable hwarm⟩

/-- Two callers read the old set before either of them drops it. -/
theorem reachable_refreshed_twice : ∃ log, (fetcherSystem jwksPlatform Bool).Reachable
    ⟨refreshed (refreshed (warm.at 61000)), idle, log⟩ := by
  obtain ⟨log, hwarm⟩ := reachable_warm
  have hread := served_read warm 61000 (by decide) rfl not_expired_warm
  have hread' := served_read (warm.at 61000) 61000 (le_refl _) rfl not_expired_warm
  have hrefresh := served_refresh (warm.at 61000)
  have hrefresh' := served_refresh (refreshed (warm.at 61000))
  obtain ⟨log', hsteps⟩ := System.Steps.overlap Bool.false_ne_true (runs_getKey false (u "x"))
    (runs_getKey true (u "x")) (runs_unknown (.ok _)) (runs_unknown (.ok _)) hread hread'
    hrefresh hrefresh'
    (idle_apply false) (idle_apply true) log
  exact ⟨log', hsteps.reachable hwarm⟩

theorem quiet_warm : EveryFetchSucceeds warm.events ∧ NoEntryExpires warm.events := by
  constructor <;> intro start expired outcome hmem <;> cases List.mem_singleton.mp hmem
  · exact ⟨_, rfl⟩
  · rfl

theorem quiet_refreshed {s : FetcherStore}
    (h : EveryFetchSucceeds s.events ∧ NoEntryExpires s.events) :
    EveryFetchSucceeds (refreshed s).events ∧ NoEntryExpires (refreshed s).events := by
  constructor <;> intro start expired outcome hmem <;>
    rcases List.mem_cons.mp hmem with heq | hmem
  · cases heq
    exact ⟨_, rfl⟩
  · rcases List.mem_cons.mp hmem with heq | hmem
    · cases heq
    · exact h.1 _ _ _ hmem
  · cases heq
    rfl
  · rcases List.mem_cons.mp hmem with heq | hmem
    · cases heq
    · exact h.2 _ _ _ hmem

end Sample

namespace OidcJwksKeyFetcher

/-- One caller finds the set a minute old and refreshes it. -/
theorem fetches_spaced_lone : ∃ log, (fetcherSystem Sample.jwksPlatform Bool).Reachable
      ⟨Sample.refreshed (Sample.warm.at 61000), Sample.idle, log⟩ ∧
    Spaced (fetches (Sample.refreshed (Sample.warm.at 61000)).events) := by
  obtain ⟨log, hw⟩ := Sample.reachable_refreshed
  have hquiet := Sample.quiet_refreshed (s := Sample.warm.at 61000) Sample.quiet_warm
  refine ⟨log, hw, fetches_spaced hw hquiet.1 hquiet.2 ?_⟩
  intro entry clock hmem
  have hdropped : entry = ⟨Sample.jwksData 0, 0⟩ ∧ clock = 61000 := by
    simpa [Sample.refreshed, Sample.loaded, Sample.dropped, Sample.warm, FetcherStore.new,
      FetcherStore.at] using hmem
  rw [hdropped.1, hdropped.2]
  decide

/-- Two callers find it so; the second drops the set the first has just fetched. -/
theorem fetches_crowded : ∃ w, (fetcherSystem Sample.jwksPlatform Bool).Reachable w ∧
    EveryFetchSucceeds w.store.events ∧ NoEntryExpires w.store.events ∧
    ¬ Spaced (fetches w.store.events) := by
  obtain ⟨log, hw⟩ := Sample.reachable_refreshed_twice
  have hquiet := Sample.quiet_refreshed (Sample.quiet_refreshed (s := Sample.warm.at 61000)
    Sample.quiet_warm)
  refine ⟨_, hw, hquiet.1, hquiet.2, ?_⟩
  intro hspaced
  have hapart := List.rel_of_pairwise_cons hspaced List.mem_cons_self
  exact absurd hapart (by decide)

end OidcJwksKeyFetcher
end Tca
