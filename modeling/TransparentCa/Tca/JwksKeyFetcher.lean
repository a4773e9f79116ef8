import TransparentCa.Lib.Interleave
import TransparentCa.Lib.JavaCollections
import TransparentCa.Lib.Regex
import TransparentCa.Mbs.Domain

/- `OidcJwksKeyFetcher`: the key set of the token issuer, behind a cache with one entry. A
   lookup of a key id that the cached set does not have drops the set and loads it anew, once
   the set is older than a minute. The cache's `get`, with the load on a miss, and its
   `invalidate` are one step each; the load runs the fetch program, and the clock may go on at
   every step. -/
namespace Tca
open Java Mbs Effects Effects.Prog

/-! ## Key sets -/

/-- A key of the document; `none` stands for `null`. -/
structure Jwk where
  kid : Option JString
  kty : Option JString
  n : Option JString
  e : Option JString
  deriving DecidableEq

structure JwksResponse where
  keys : Option (List (Option Jwk))
  deriving DecidableEq

structure JwksData where
  keys : JMap JString PublicKey
  maxAgeSecs : Int64
  fetchedAt : Instant
  deriving DecidableEq

def JwksData.get (data : JwksData) (keyId : JString) : Option PublicKey :=
  data.keys.val.lookup keyId

structure HttpResponse where
  statusCode : Int32
  body : JString
  /-- The first value of `Cache-Control`. -/
  cacheControl : Option JString
  deriving DecidableEq

/-- What the fetcher relies on of the JDK and of Jackson: a request for a URI, the document
in a body (`none` for `null`), and the RSA key of a modulus and an exponent in base64. -/
structure JwksPlatform where
  newRequest : JString → Except Throwable Unit
  readValue : JString → Except Throwable (Option JwksResponse)
  rsaPublicKey : JString → JString → Except Throwable PublicKey

namespace OidcJwksKeyFetcher

def defaultCacheDurationSecs : Int64 := 3600

def minRefreshInterval : Duration := 60 * nanosPerSecond

/-- `\s`. -/
def isSpace (c : UInt16) : Bool := c = 0x20 || (0x09 ≤ c && c ≤ 0x0d)

/-- `\d`. -/
def isDigit (c : UInt16) : Bool := ch '0' ≤ c && c ≤ ch '9'

/-- `max-age\s*=\s*(\d+)`. -/
def maxAgePattern : List (Regex.Item UInt16) :=
  [.text (u "max-age"), .run isSpace 0 none, .text (u "="), .run isSpace 0 none,
    .group isDigit 1 none]

/-- `Long.parseLong(s)`, for a string of digits. -/
def parseLong (s : JString) : Except Throwable Int64 :=
  match parseNat s with
  | some n =>
    if n < 2^63 then .ok (Int64.ofNat n)
    else .error { cls := .numberFormatException,
                  message := u "For input string: \"" ++ s ++ u "\"" }
  | none => .error { cls := .numberFormatException,
                     message := u "For input string: \"" ++ s ++ u "\"" }

def getMaxAgeSecs (cacheControlHeader : Option JString) : Except Throwable Int64 :=
  match cacheControlHeader.bind (Regex.find maxAgePattern) with
  | some [group] => do
    let age ← parseLong group
    return if age ≥ 0 then age else defaultCacheDurationSecs
  | _ => .ok defaultCacheDurationSecs

section
variable (lib : JwksPlatform)

def parseKey (jwk : Jwk) : Except Throwable (Option PublicKey) :=
  if jwk.kty = some (u "RSA") then
    match jwk.n, jwk.e with
    | some n, some e =>
      tryCatch (some <$> lib.rsaPublicKey n e) (fun ex =>
        if ex.caughtBy [.noSuchAlgorithmException, .invalidKeySpecException,
          .illegalArgumentException] then .ok none else .error ex)
    | _, _ => .ok none
  else .ok none

/-- The loop over the document's keys. -/
def putKeys : JMap JString PublicKey → List (Option Jwk) → Except Throwable (JMap JString PublicKey)
  | keys, [] => .ok keys
  | _, none :: _ => .error { cls := .nullPointerException }
  | keys, some jwk :: jwks =>
    match jwk.kid with
    | none => putKeys keys jwks
    | some kid => do
      let key ← parseKey lib jwk
      putKeys (key.elim keys (keys.put kid)) jwks

def parseKeys (jwksResponse : Option JwksResponse) : Except Throwable (JMap JString PublicKey) :=
  match jwksResponse.bind JwksResponse.keys with
  | none => .ok JMap.empty
  | some jwks => putKeys lib JMap.empty jwks

end
end OidcJwksKeyFetcher

/-! ## Programs -/

/-- One call of the fetcher: metrics, the clock, the endpoint, or the cache. -/
inductive JwksOp where
  | recordOidcJwksLookup
  | recordOidcJwksMiss
  | recordOidcJwksFetchTime
  | millis
  | getJwksUri
  | send (uri : JString)
  | cacheGet
  | invalidate
  deriving DecidableEq

abbrev JwksOp.Val : JwksOp → Type
  | .recordOidcJwksLookup => Unit
  | .recordOidcJwksMiss => Unit
  | .recordOidcJwksFetchTime => Unit
  | .millis => Int64
  | .getJwksUri => JString
  | .send _ => HttpResponse
  | .cacheGet => JwksData
  | .invalidate => Unit

abbrev JwksProg (α : Type) := Prog JwksOp JwksOp.Val Throwable α

abbrev JwksEvent := Event JwksOp JwksOp.Val Throwable

namespace OidcJwksKeyFetcher

def jwksCall (o : JwksOp) : JwksProg o.Val := Prog.invoke o

/-- Whether `data` is older than the minimum refresh interval. -/
def staleAt (data : JwksData) (now : Int64) : Except Throwable Bool := do
  let limit ← data.fetchedAt.plus minRefreshInterval
  return decide (limit < Instant.ofEpochMilli now)

def shouldAttemptRefresh (data : JwksData) : JwksProg Bool := do
  let now ← jwksCall .millis
  Prog.ofExcept (staleAt data now)

def getKey (keyId : JString) : JwksProg (Option PublicKey) := do
  jwksCall .recordOidcJwksLookup
  let data ← jwksCall .cacheGet
  match data.get keyId with
  | some key => return some key
  | none =>
    let refresh ← shouldAttemptRefresh data
    if refresh then
      jwksCall .invalidate
      let data ← jwksCall .cacheGet
      return data.get keyId
    else return none

def fetchJwks (lib : JwksPlatform) : JwksProg JwksData := do
  jwksCall .recordOidcJwksMiss
  Prog.finallyDo (tryCatch (do
      let jwksUri ← jwksCall .getJwksUri
      Prog.ofExcept (lib.newRequest jwksUri)
      let response ← jwksCall (.send jwksUri)
      if response.statusCode ≠ 200 then
        throw { cls := .ioException, message := u "Failed to fetch JWKS: " ++ response.body }
      let maxAgeSecs ← Prog.ofExcept (getMaxAgeSecs response.cacheControl)
      let jwksResponse ← Prog.ofExcept (lib.readValue response.body)
      let keys ← Prog.ofExcept (parseKeys lib jwksResponse)
      let millis ← jwksCall .millis
      return ⟨keys, maxAgeSecs, Instant.ofEpochMilli millis⟩)
    (fun e => if e.caughtBy [.ioException, .interruptedException] then
        throw { cls := .runtimeException, message := u "Failed to fetch or parse JWKS" }
      else throw e))
    (jwksCall .recordOidcJwksFetchTime)

end OidcJwksKeyFetcher

/-! ## The cache -/

/-- The entry of the cache, with the time the load was done. -/
structure CacheEntry where
  data : JwksData
  writtenAt : Int64
  deriving DecidableEq

/-- The entry has reached its max-age. -/
def CacheEntry.expiredAt (entry : CacheEntry) (clock : Int64) : Prop :=
  entry.writtenAt.toInt + entry.data.maxAgeSecs.toInt * 1000 ≤ clock.toInt

/-- What happened to the cache: a load, begun at `start` and in place of an entry that had
expired, if there was one; or an entry dropped. -/
inductive CacheEvent where
  | load (start : Int64) (expired : Option CacheEntry) (outcome : Except Throwable JwksData)
  | invalidate (dropped : Option CacheEntry) (clock : Int64)
  deriving DecidableEq

structure FetcherStore where
  clock : Int64
  cache : Option CacheEntry
  /-- Newest first. -/
  events : List CacheEvent
  deriving DecidableEq

def FetcherStore.at (s : FetcherStore) (clock : Int64) : FetcherStore := { s with clock := clock }

def FetcherStore.new (clock : Int64) : FetcherStore := ⟨clock, none, []⟩

namespace OidcJwksKeyFetcher

section
variable (lib : JwksPlatform)

/-- The loader ran from `s.clock` to `s'.clock`, and the cache keeps what it returned. -/
def Loads (s : FetcherStore) (outcome : Except Throwable JwksData) (s' : FetcherStore) : Prop :=
  (∃ tr, Runs (fetchJwks lib) tr outcome ∧
    ∀ millis, (⟨.millis, .ok millis⟩ : JwksEvent) ∈ tr →
      s.clock.toInt ≤ millis.toInt ∧ millis.toInt ≤ s'.clock.toInt) ∧
  s.clock.toInt ≤ s'.clock.toInt ∧
  s'.cache = outcome.toOption.map (fun data => ⟨data, s'.clock⟩) ∧
  s'.events = .load s.clock s.cache outcome :: s.events

/-- A call at the time `s.clock`. -/
def stepAt (s : FetcherStore) : (o : JwksOp) → Except Throwable o.Val → FetcherStore → Prop
  | .millis, r, s' => r = .ok s.clock ∧ s' = s
  | .cacheGet, r, s' =>
    (∃ entry, s.cache = some entry ∧ ¬ entry.expiredAt s.clock ∧ r = .ok entry.data ∧ s' = s) ∨
    ((∀ entry ∈ s.cache, entry.expiredAt s.clock) ∧ Loads lib s r s')
  | .invalidate, r, s' => r = .ok () ∧
      s' = { s with cache := none, events := .invalidate s.cache s.clock :: s.events }
  | _, _, s' => s' = s

/-- A call some time after the last one. -/
def step (s : FetcherStore) (o : JwksOp) (r : Except Throwable o.Val) (s' : FetcherStore) : Prop :=
  ∃ clock : Int64, s.clock.toInt ≤ clock.toInt ∧ stepAt lib (s.at clock) o r s'

/-- Callers of `getKey`, each with any key ids one after the other. -/
def fetcherSystem (I : Type) :
    System I FetcherStore JwksOp JwksOp.Val Throwable (Option PublicKey) where
  init s := ∃ clock, s = FetcherStore.new clock
  runs _ p := ∃ keyId, p = getKey keyId
  step _ := step lib
  env _ _ := False

end

/-- The fetches that got a key set, newest first: the time each began, and what it got. -/
def fetches (events : List CacheEvent) : List (Int64 × JwksData) :=
  events.filterMap (fun event => match event with
    | .load start _ (.ok data) => some (start, data)
    | _ => none)

@[simp] theorem fetches_load_ok (start : Int64) (expired : Option CacheEntry) (data : JwksData)
    (events : List CacheEvent) :
    fetches (.load start expired (.ok data) :: events) = (start, data) :: fetches events := rfl

@[simp] theorem fetches_load_error (start : Int64) (expired : Option CacheEntry) (e : Throwable)
    (events : List CacheEvent) :
    fetches (.load start expired (.error e) :: events) = fetches events := rfl

@[simp] theorem fetches_invalidate (dropped : Option CacheEntry) (clock : Int64)
    (events : List CacheEvent) :
    fetches (.invalidate dropped clock :: events) = fetches events := rfl

/-- Everything a call can do to the cache: nothing, a load where there is no live entry, or
dropping the entry. -/
theorem step_cases {lib : JwksPlatform} {s s' : FetcherStore} {o : JwksOp}
    {r : Except Throwable o.Val} (h : step lib s o r s') :
    s.clock.toInt ≤ s'.clock.toInt ∧
    ((s'.cache = s.cache ∧ s'.events = s.events) ∨
    (∃ clock outcome, s.clock.toInt ≤ clock.toInt ∧ o = .cacheGet ∧ HEq r outcome ∧
      (∀ entry ∈ s.cache, entry.expiredAt clock) ∧ Loads lib (s.at clock) outcome s') ∨
    (∃ clock : Int64, s.clock.toInt ≤ clock.toInt ∧ o = .invalidate ∧ s'.clock = clock ∧
      s'.cache = none ∧ s'.events = .invalidate s.cache clock :: s.events)) := by
  obtain ⟨clock, hclock, h⟩ := h
  cases o with
  | millis =>
    obtain ⟨-, rfl⟩ := h
    exact ⟨hclock, .inl ⟨rfl, rfl⟩⟩
  | cacheGet =>
    rcases h with ⟨entry, hcache, hlive, hr, rfl⟩ | ⟨hexpired, hloads⟩
    · exact ⟨hclock, .inl ⟨rfl, rfl⟩⟩
    · exact ⟨hclock.trans hloads.2.1,
        .inr (.inl ⟨clock, r, hclock, rfl, HEq.rfl, hexpired, hloads⟩)⟩
  | invalidate =>
    obtain ⟨-, rfl⟩ := h
    exact ⟨hclock, .inr (.inr ⟨clock, hclock, rfl, rfl, rfl, rfl⟩)⟩
  | _ =>
    cases h
    exact ⟨hclock, .inl ⟨rfl, rfl⟩⟩

/-- A key set is dated by a reading of the clock during its fetch. -/
theorem fetchedAt_of_runs {lib : JwksPlatform} {tr : List JwksEvent} {data : JwksData}
    (h : Runs (fetchJwks lib) tr (.ok data)) :
    ∃ millis, (⟨.millis, .ok millis⟩ : JwksEvent) ∈ tr ∧
      data.fetchedAt = Instant.ofEpochMilli millis := by
  simp only [fetchJwks, jwksCall, bind_eq, runs_invoke_bind, runs_finallyDo_ok, tryCatch_eq] at h
  obtain ⟨⟨⟩, t, rfl, t₁, t₂, rfl, hbody, -⟩ := h
  rw [runs_handle_ok (by intro e t a hthrow; split at hthrow <;> simp at hthrow)] at hbody
  simp only [runs_invoke_bind, runs_ofExcept_bind] at hbody
  obtain ⟨jwksUri, t₃, rfl, ⟨⟩, -, response, t₄, rfl, hbody⟩ := hbody
  split at hbody
  · simp at hbody
  · simp only [runs_invoke_bind, runs_ofExcept_bind, pure_eq, runs_ret] at hbody
    obtain ⟨maxAgeSecs, -, jwksResponse, -, keys, -, millis, t₅, rfl, -, hdata⟩ := hbody
    refine ⟨millis, by simp, ?_⟩
    rw [Except.ok.inj hdata]

end OidcJwksKeyFetcher
end Tca
