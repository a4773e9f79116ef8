import TransparentCa.Lib.Failures
import TransparentCa.Lib.Numeral
import TransparentCa.Tca.JwksFailure

/- What `fetchJwks` makes of a response with status 200: the max-age is the first one that the
   `Cache-Control` header states, and the key set is the document's, entry by entry. It fails
   for a max-age from 2^63 on, which `Long.parseLong` refuses, and for a `null` among the keys;
   for nothing else (`fetchJwks_succeeds_iff`). -/
namespace Tca
open Java Mbs Effects Effects.Prog Numeral

namespace OidcJwksKeyFetcher

/-! ## The first max-age -/

/-- `s` begins with `max-age`, an `=` and the number `digits`, all of it. -/
def MaxAgeAt (s digits : JString) : Prop :=
  ∃ s₁ s₂ rest, s = u "max-age" ++ (s₁ ++ (u "=" ++ (s₂ ++ (digits ++ rest)))) ∧
    (∀ c ∈ s₁, isSpace c = true) ∧ (∀ c ∈ s₂, isSpace c = true) ∧
    digits ≠ [] ∧ (∀ c ∈ digits, isDigit c = true) ∧ ∀ c ∈ rest.head?, isDigit c = false

/-- `digits` is the first number in `header` that is a max-age. -/
def FirstMaxAge (header digits : JString) : Prop :=
  ∃ before rest, header = before ++ rest ∧ MaxAgeAt rest digits ∧
    ∀ before' rest', header = before' ++ rest' → before'.length < before.length →
      ∀ digits', ¬ MaxAgeAt rest' digits'

/-- The header's first max-age is `n`. -/
def Stated (cacheControl : Option JString) (n : Nat) : Prop :=
  ∃ header digits, cacheControl = some header ∧ FirstMaxAge header digits ∧
    parseNat digits = some n

theorem isDigit_of_isSpace {c : UInt16} (h : isSpace c = true) : isDigit c = false := by
  simp only [isSpace, Bool.or_eq_true, Bool.and_eq_true, decide_eq_true_eq,
    UInt16.le_iff_toNat_le, ← UInt16.toNat_inj] at h
  simp only [isDigit, Bool.and_eq_false_iff, decide_eq_false_iff_not, UInt16.le_iff_toNat_le]
  left
  show ¬ 48 ≤ c.toNat
  rcases h with h | ⟨-, h⟩
  · rw [h]
    decide
  · exact Nat.not_le.mpr (Nat.lt_of_le_of_lt h (by decide))

/-! ### What the pattern matches -/

/-- The pattern, and what is behind it. -/
def searched : List (Regex.Item UInt16) := maxAgePattern ++ [.run (fun _ => true) 0 none]

/-- The number, after the blanks in front of it. -/
def numberAt (s : JString) : Option (List JString) :=
  let digits := (s.dropWhile isSpace).takeWhile isDigit
  if digits = [] then none else some [digits]

theorem fullMatch_number (s : JString) :
    Regex.fullMatch [.run isSpace 0 none, .group isDigit 1 none, .run (fun _ => true) 0 none] s =
      numberAt s := by
  rw [Regex.fullMatch_run_of_stop ?_, Regex.fullMatch_group_last]
  · rfl
  · intro c s hc
    rw [Regex.fullMatch_group_last, List.takeWhile_cons_of_neg (by simp [isDigit_of_isSpace hc]),
      if_pos rfl]

/-- The `=` and the number, after the blanks in front of it. -/
def valueAt (s : JString) : Option (List JString) :=
  let s := s.dropWhile isSpace
  if (u "=").isPrefixOf s then numberAt (s.drop 1) else none

theorem fullMatch_value (s : JString) :
    Regex.fullMatch [.run isSpace 0 none, .text (u "="), .run isSpace 0 none,
      .group isDigit 1 none, .run (fun _ => true) 0 none] s = valueAt s := by
  rw [Regex.fullMatch_run_of_stop ?_, Regex.fullMatch, fullMatch_number]
  · rfl
  · intro c s hc
    have hne : ¬ (u "=").isPrefixOf (c :: s) = true := by
      intro hpre
      obtain ⟨rest, hrest⟩ := List.isPrefixOf_iff_prefix.mp hpre
      rw [← (List.cons.inj hrest).1] at hc
      exact absurd hc (by decide)
    rw [Regex.fullMatch, if_neg hne]

theorem fullMatch_searched (s : JString) :
    Regex.fullMatch searched s =
      if (u "max-age").isPrefixOf s then valueAt (s.drop 7) else none := by
  show Regex.fullMatch (.text (u "max-age") :: _) s = _
  rw [Regex.fullMatch]
  show (if _ then Regex.fullMatch [.run isSpace 0 none, .text (u "="), .run isSpace 0 none,
      .group isDigit 1 none, .run (fun _ => true) 0 none] (s.drop 7) else none) = _
  rw [fullMatch_value]

/-! ### What it says -/

theorem maxAgeAt_of_fullMatch {s : JString} {groups : List JString}
    (h : Regex.fullMatch searched s = some groups) :
    ∃ digits, groups = [digits] ∧ MaxAgeAt s digits := by
  rw [fullMatch_searched] at h
  split_ifs at h with hage
  obtain ⟨t, rfl⟩ := List.isPrefixOf_iff_prefix.mp hage
  rw [show (u "max-age" ++ t).drop 7 = t from List.drop_left' rfl] at h
  unfold valueAt at h
  dsimp only at h
  split_ifs at h with heq
  obtain ⟨v, hv⟩ := List.isPrefixOf_iff_prefix.mp heq
  rw [← hv, show (u "=" ++ v).drop 1 = v from List.drop_left' rfl] at h
  unfold numberAt at h
  dsimp only at h
  split_ifs at h with hne
  refine ⟨_, (Option.some.inj h).symm, t.takeWhile isSpace, v.takeWhile isSpace,
    (v.dropWhile isSpace).dropWhile isDigit, ?_, fun c hc => List.mem_takeWhile_imp hc,
    fun c hc => List.mem_takeWhile_imp hc, hne, fun c hc => List.mem_takeWhile_imp hc, ?_⟩
  · rw [List.takeWhile_append_dropWhile, List.takeWhile_append_dropWhile, hv,
      List.takeWhile_append_dropWhile]
  · exact head?_dropWhile_stop isDigit (v.dropWhile isSpace)

/-- Each run takes all that it can, and stops where the next part begins. -/
theorem fullMatch_of_maxAgeAt {s digits : JString} (h : MaxAgeAt s digits) :
    Regex.fullMatch searched s = some [digits] := by
  obtain ⟨s₁, s₂, rest, rfl, hs₁, hs₂, hne, hdigits, hrest⟩ := h
  rw [fullMatch_searched]
  have hage : (u "max-age").isPrefixOf
      (u "max-age" ++ (s₁ ++ (u "=" ++ (s₂ ++ (digits ++ rest))))) = true :=
    List.isPrefixOf_iff_prefix.mpr (List.prefix_append _ _)
  have hvalue : (s₁ ++ (u "=" ++ (s₂ ++ (digits ++ rest)))).dropWhile isSpace =
      u "=" ++ (s₂ ++ (digits ++ rest)) := by
    refine dropWhile_append_stop hs₁ ?_
    rintro c ⟨⟩
    decide
  have hnumber : (s₂ ++ (digits ++ rest)).dropWhile isSpace = digits ++ rest := by
    refine dropWhile_append_stop hs₂ (fun c hc => ?_)
    obtain ⟨d, digits, rfl⟩ := List.exists_cons_of_ne_nil hne
    obtain rfl : d = c := Option.some.inj hc
    cases hspace : isSpace d with
    | false => rfl
    | true =>
      have hdigit := isDigit_of_isSpace hspace
      rw [hdigits d List.mem_cons_self] at hdigit
      cases hdigit
  have heq : (u "=").isPrefixOf (u "=" ++ (s₂ ++ (digits ++ rest))) = true :=
    List.isPrefixOf_iff_prefix.mpr (List.prefix_append _ _)
  rw [if_pos hage, List.drop_left' (show (u "max-age").length = 7 from rfl)]
  unfold valueAt numberAt
  dsimp only
  rw [hvalue, if_pos heq, List.drop_left' (show (u "=").length = 1 from rfl), hnumber,
    takeWhile_append_stop hdigits hrest, if_neg hne]

/-- The pattern matches where a max-age is, and its group is the number. -/
theorem fullMatch_searched_iff {s : JString} {groups : List JString} :
    Regex.fullMatch searched s = some groups ↔ ∃ digits, groups = [digits] ∧ MaxAgeAt s digits := by
  refine ⟨maxAgeAt_of_fullMatch, ?_⟩
  rintro ⟨digits, rfl, hmax⟩
  exact fullMatch_of_maxAgeAt hmax

/-- A header has one first max-age at most. -/
theorem find_eq_some {header : JString} {groups : List JString} :
    Regex.find maxAgePattern header = some groups ↔
      ∃ digits, groups = [digits] ∧ FirstMaxAge header digits := by
  have hnone (s : JString) : Regex.fullMatch searched s = none ↔ ∀ digits, ¬ MaxAgeAt s digits := by
    rw [Option.eq_none_iff_forall_ne_some]
    constructor
    · intro h digits hat
      exact h [digits] (fullMatch_searched_iff.mpr ⟨digits, rfl, hat⟩)
    · rintro h groups hgroups
      obtain ⟨digits, -, hat⟩ := fullMatch_searched_iff.mp hgroups
      exact h digits hat
  rw [Regex.find_eq_some_iff]
  show (∃ before rest, header = before ++ rest ∧ Regex.fullMatch searched rest = some groups ∧
    ∀ before' rest', header = before' ++ rest' → before'.length < before.length →
      Regex.fullMatch searched rest' = none) ↔ _
  simp only [fullMatch_searched_iff, hnone]
  constructor
  · rintro ⟨before, rest, hheader, ⟨digits, hgroups, hat⟩, hfirst⟩
    exact ⟨digits, hgroups, before, rest, hheader, hat, hfirst⟩
  · rintro ⟨digits, hgroups, before, rest, hheader, hat, hfirst⟩
    exact ⟨before, rest, hheader, ⟨digits, hgroups, hat⟩, hfirst⟩

/-! ### parseLong -/

theorem digit_of_isDigit {c : UInt16} (h : isDigit c = true) : (digit c).isSome := by
  simp only [isDigit, Bool.and_eq_true, decide_eq_true_eq, UInt16.le_iff_toNat_le] at h
  have hzero : (0x30 : UInt16) ≤ c ∧ c < 0x30 + 10 := by
    rw [UInt16.le_iff_toNat_le, UInt16.lt_iff_toNat_lt]
    exact ⟨h.1, Nat.lt_succ_of_le h.2⟩
  rw [digit, digitZeros, List.findSome?_cons, if_pos hzero]
  rfl

theorem parseDigits_isSome {digits : JString} (h : ∀ c ∈ digits, isDigit c = true) (acc : Nat) :
    (parseDigits acc digits).isSome := by
  induction digits generalizing acc with
  | nil => rfl
  | cons c digits ih =>
    obtain ⟨d, hd⟩ := Option.isSome_iff_exists.mp (digit_of_isDigit (h c List.mem_cons_self))
    rw [parseDigits, hd]
    exact ih (fun c hc => h c (List.mem_cons_of_mem _ hc)) _

theorem FirstMaxAge.parseNat {header digits : JString} (h : FirstMaxAge header digits) :
    ∃ n, parseNat digits = some n := by
  obtain ⟨-, -, -, ⟨-, -, -, -, -, -, hne, hdigits, -⟩, -⟩ := h
  rw [Java.parseNat, if_neg (by simpa using hne)]
  exact Option.isSome_iff_exists.mp (parseDigits_isSome hdigits 0)

theorem getMaxAgeSecs_stated {cacheControl : Option JString} {n : Nat}
    (h : Stated cacheControl n) :
    if n < 2^63 then getMaxAgeSecs cacheControl = .ok (Int64.ofNat n)
    else ∃ e, getMaxAgeSecs cacheControl = .error e ∧ e.cls = .numberFormatException := by
  obtain ⟨header, digits, rfl, hfirst, hn⟩ := h
  have hfind : (some header).bind (Regex.find maxAgePattern) = some [digits] :=
    find_eq_some.mpr ⟨digits, rfl, hfirst⟩
  unfold getMaxAgeSecs
  rw [hfind]
  dsimp only
  unfold parseLong
  rw [hn]
  dsimp only
  split_ifs with hlt
  · have hage : Int64.ofNat n ≥ 0 := by
      rw [ge_iff_le, Int64.le_iff_toInt_le, Int64.toInt_ofNat_of_lt hlt]
      exact Int.natCast_nonneg n
    show Except.ok (if Int64.ofNat n ≥ 0 then Int64.ofNat n else defaultCacheDurationSecs) = _
    rw [if_pos hage]
  · exact ⟨_, rfl, rfl⟩

theorem getMaxAgeSecs_unstated {cacheControl : Option JString} (h : ∀ n, ¬ Stated cacheControl n) :
    getMaxAgeSecs cacheControl = .ok defaultCacheDurationSecs := by
  have hfind : cacheControl.bind (Regex.find maxAgePattern) = none := by
    cases hmatch : cacheControl.bind (Regex.find maxAgePattern) with
    | none => rfl
    | some groups =>
      obtain ⟨header, hheader, hgroups⟩ := Option.bind_eq_some_iff.mp hmatch
      obtain ⟨digits, -, hfirst⟩ := find_eq_some.mp hgroups
      obtain ⟨n, hn⟩ := hfirst.parseNat
      exact absurd ⟨header, digits, hheader, hfirst, hn⟩ (h n)
  unfold getMaxAgeSecs
  rw [hfind]

/-! ## The key set -/

def entries (jwksResponse : Option JwksResponse) : List (Option Jwk) :=
  (jwksResponse.bind JwksResponse.keys).getD []

section
variable (lib : JwksPlatform)

/-- The key of an RSA entry whose parameters can be parsed. -/
def rsaKey (jwk : Jwk) : Option PublicKey :=
  if jwk.kty = some (u "RSA") then
    jwk.n.bind (fun n => jwk.e.bind (fun e => (lib.rsaPublicKey n e).toOption))
  else none

/-- The key that an entry has for `kid`. -/
def keyFor (kid : JString) (entry : Option Jwk) : Option PublicKey :=
  entry.bind (fun jwk => if jwk.kid = some kid then rsaKey lib jwk else none)

/-- The exceptions that decoding base64 and making an RSA key throw. -/
def Documented : Prop :=
  ∀ n e ex, lib.rsaPublicKey n e = .error ex →
    ex.caughtBy [.noSuchAlgorithmException, .invalidKeySpecException, .illegalArgumentException]

end

section
variable {lib : JwksPlatform} (hlib : Documented lib)
include hlib

theorem parseKey_eq (jwk : Jwk) : parseKey lib jwk = .ok (rsaKey lib jwk) := by
  unfold parseKey rsaKey
  split_ifs with hrsa
  · cases jwk.n with
    | none => rfl
    | some n =>
      cases jwk.e with
      | none => rfl
      | some e =>
        dsimp only [Option.bind_some]
        cases hkey : lib.rsaPublicKey n e with
        | ok key => rfl
        | error ex =>
          show (if ex.caughtBy _ then Except.ok none else .error ex) = _
          rw [if_pos (hlib n e ex hkey)]
          rfl
  · rfl

/-- The last entry with a key for a `kid` decides. -/
theorem putKeys_ok {jwks : List (Option Jwk)} (h : none ∉ jwks) (keys : JMap JString PublicKey) :
    ∃ keys', putKeys lib keys jwks = .ok keys' ∧ ∀ kid,
      keys'.val.lookup kid = ((jwks.filterMap (keyFor lib kid)).getLast?).or (keys.val.lookup kid) := by
  induction jwks generalizing keys with
  | nil => exact ⟨keys, rfl, fun _ => rfl⟩
  | cons entry jwks ih =>
    rw [List.mem_cons, not_or] at h
    obtain ⟨jwk, rfl⟩ := Option.ne_none_iff_exists'.mp (Ne.symm h.1)
    cases hkid : jwk.kid with
    | none =>
      obtain ⟨keys', hput, hlookup⟩ := ih h.2 keys
      refine ⟨keys', ?_, fun kid => ?_⟩
      · rw [putKeys, hkid]
        exact hput
      · rw [hlookup kid, List.filterMap_cons_none (by simp [keyFor, hkid])]
    | some kid =>
      obtain ⟨keys', hput, hlookup⟩ := ih h.2 ((rsaKey lib jwk).elim keys (keys.put kid))
      refine ⟨keys', ?_, fun kid' => ?_⟩
      · rw [putKeys, hkid]
        dsimp only
        rw [parseKey_eq hlib]
        exact hput
      · rw [hlookup kid']
        cases hkey : rsaKey lib jwk with
        | none => rw [List.filterMap_cons_none (by simp [keyFor, hkey])]; rfl
        | some key =>
          rw [Option.elim_some, JMap.lookup_put]
          by_cases hsame : kid' = kid
          · have hlast : keyFor lib kid' (some jwk) = some key := by
              simp [keyFor, hkid, hsame, hkey]
            rw [if_pos hsame, List.filterMap_cons_some hlast, List.getLast?_cons]
            cases (jwks.filterMap (keyFor lib kid')).getLast? <;> rfl
          · have hother : keyFor lib kid' (some jwk) = none := by
              simp [keyFor, hkid, Ne.symm hsame]
            rw [if_neg hsame, List.filterMap_cons_none hother]

theorem putKeys_error {jwks : List (Option Jwk)} (h : none ∈ jwks) (keys : JMap JString PublicKey) :
    ∃ e, putKeys lib keys jwks = .error e ∧ e.cls = .nullPointerException := by
  induction jwks generalizing keys with
  | nil => cases h
  | cons entry jwks ih =>
    cases entry with
    | none => exact ⟨_, rfl, rfl⟩
    | some jwk =>
      have hrest : none ∈ jwks := by simpa using h
      cases hkid : jwk.kid with
      | none =>
        rw [putKeys, hkid]
        exact ih hrest keys
      | some kid =>
        rw [putKeys, hkid]
        dsimp only
        rw [parseKey_eq hlib]
        exact ih hrest _

end

/-! ## The fetch -/

/-- What is computed from a response with the document `doc`, at `millis`. -/
def loadedFrom (lib : JwksPlatform) (response : HttpResponse) (doc : Option JwksResponse)
    (millis : Int64) : Except Throwable JwksData := do
  let maxAgeSecs ← getMaxAgeSecs response.cacheControl
  let keys ← parseKeys lib doc
  return ⟨keys, maxAgeSecs, Instant.ofEpochMilli millis⟩

/-- The max-age and the keys of a response with the document `doc`. -/
structure Fetched (lib : JwksPlatform) (response : HttpResponse) (doc : Option JwksResponse)
    (data : JwksData) : Prop where
  stated : ∀ n, Stated response.cacheControl n → n < 2^63 → data.maxAgeSecs.toInt = n
  default : (∀ n, Stated response.cacheControl n → 2^63 ≤ n) →
    data.maxAgeSecs = defaultCacheDurationSecs
  keys : ∀ kid, data.get kid = ((entries doc).filterMap (keyFor lib kid)).getLast?

/-- A max-age that a `long` can hold, and no `null` among the keys. -/
def Readable (response : HttpResponse) (doc : Option JwksResponse) : Prop :=
  (∀ n, Stated response.cacheControl n → n < 2^63) ∧ none ∉ entries doc

section
variable {lib : JwksPlatform} {response : HttpResponse} {doc : Option JwksResponse}

theorem parseKeys_eq : parseKeys lib doc = putKeys lib JMap.empty (entries doc) := by
  unfold parseKeys entries
  cases doc.bind JwksResponse.keys <;> rfl

/-- The first max-age that is stated is the only one. -/
theorem Stated.unique {cacheControl : Option JString} {n m : Nat} (hn : Stated cacheControl n)
    (hm : Stated cacheControl m) : n = m := by
  obtain ⟨header, digits, rfl, hfirst, hn⟩ := hn
  obtain ⟨header', digits', hheader, hfirst', hm⟩ := hm
  obtain rfl := Option.some.inj hheader
  have hfind := find_eq_some.mpr ⟨digits, rfl, hfirst⟩
  rw [find_eq_some.mpr ⟨digits', rfl, hfirst'⟩] at hfind
  obtain rfl := (List.cons.inj (Option.some.inj hfind)).1
  exact Option.some.inj (hn.symm.trans hm)

theorem getMaxAgeSecs_ok (h : ∀ n, Stated response.cacheControl n → n < 2^63) :
    ∃ maxAgeSecs, getMaxAgeSecs response.cacheControl = .ok maxAgeSecs ∧
      (∀ n, Stated response.cacheControl n → n < 2^63 → maxAgeSecs.toInt = n) ∧
      ((∀ n, Stated response.cacheControl n → 2^63 ≤ n) →
        maxAgeSecs = defaultCacheDurationSecs) := by
  by_cases hstated : ∃ n, Stated response.cacheControl n
  · obtain ⟨n, hn⟩ := hstated
    have hlt := h n hn
    have hage := getMaxAgeSecs_stated hn
    rw [if_pos hlt] at hage
    refine ⟨Int64.ofNat n, hage, fun m hm _ => ?_, fun hall => ?_⟩
    · rw [hn.unique hm, Int64.toInt_ofNat_of_lt (h m hm)]
    · exact absurd (hall n hn) (Nat.not_le.mpr hlt)
  · have hnone : ∀ n, ¬ Stated response.cacheControl n := fun n hn => hstated ⟨n, hn⟩
    exact ⟨_, getMaxAgeSecs_unstated hnone, fun n hn => absurd hn (hnone n), fun _ => rfl⟩

theorem loadedFrom_ok (hlib : Documented lib) (h : Readable response doc) (millis : Int64) :
    ∃ data, loadedFrom lib response doc millis = .ok data ∧ Fetched lib response doc data := by
  obtain ⟨maxAgeSecs, hmaxAge, hstated, hdefault⟩ := getMaxAgeSecs_ok h.1
  obtain ⟨keys, hkeys, hlookup⟩ := putKeys_ok hlib h.2 JMap.empty
  refine ⟨⟨keys, maxAgeSecs, Instant.ofEpochMilli millis⟩, ?_, hstated, hdefault, fun kid => ?_⟩
  · unfold loadedFrom
    rw [hmaxAge, parseKeys_eq, hkeys]
    rfl
  · show keys.val.lookup kid = _
    rw [hlookup kid]
    exact Option.or_none

theorem loadedFrom_error (hlib : Documented lib) (h : ¬ Readable response doc) (millis : Int64) :
    ∃ e, loadedFrom lib response doc millis = .error e ∧
      (e.cls = .numberFormatException ∨ e.cls = .nullPointerException) := by
  unfold loadedFrom
  by_cases hmaxAge : ∀ n, Stated response.cacheControl n → n < 2^63
  · obtain ⟨maxAgeSecs, hok, -⟩ := getMaxAgeSecs_ok hmaxAge
    have hnull : none ∈ entries doc := by
      by_contra hnull
      exact h ⟨hmaxAge, hnull⟩
    obtain ⟨e, he, hcls⟩ := putKeys_error hlib hnull JMap.empty
    refine ⟨e, ?_, .inr hcls⟩
    rw [hok, parseKeys_eq, he]
    rfl
  · obtain ⟨n, hnot⟩ := not_forall.mp hmaxAge
    obtain ⟨hn, hlarge⟩ := Classical.not_imp.mp hnot
    have hage := getMaxAgeSecs_stated hn
    rw [if_neg hlarge] at hage
    obtain ⟨e, he, hcls⟩ := hage
    refine ⟨e, ?_, .inl hcls⟩
    rw [he]
    rfl

/-- What it throws is not among the exceptions that `fetchJwks` catches. -/
theorem not_caught_of_loadedFrom (hlib : Documented lib) {millis : Int64} {e : Throwable}
    (h : loadedFrom lib response doc millis = .error e) :
    ¬ e.caughtBy [.ioException, .interruptedException] := by
  by_cases hreadable : Readable response doc
  · obtain ⟨data, hok, -⟩ := loadedFrom_ok hlib hreadable millis
    rw [hok] at h
    cases h
  · obtain ⟨e', he, hcls⟩ := loadedFrom_error hlib hreadable millis
    obtain rfl := Except.error.inj (he.symm.trans h)
    obtain ⟨cls, message, code, status⟩ := e'
    rcases hcls with hcls | hcls
    · cases hcls
      exact Bool.false_ne_true
    · cases hcls
      exact Bool.false_ne_true

end

/-- A fetch in which no call fails ends as the response says. -/
theorem fetchJwks_quiet {lib : JwksPlatform} {tr : List JwksEvent}
    {out : Except Throwable JwksData} (h : Runs (fetchJwks lib) tr out) (hquiet : failures tr = [])
    {uri : JString} {response : HttpResponse} (hsend : (⟨.send uri, .ok response⟩ : JwksEvent) ∈ tr)
    (hstatus : response.statusCode = 200) {doc : Option JwksResponse}
    (hdoc : lib.readValue response.body = .ok doc) (hlib : Documented lib) :
    ∃ millis, out = loadedFrom lib response doc millis := by
  have hrun : Quietly (fetchJwks lib) [] (fun hist r =>
      (⟨.send uri, .ok response⟩ : JwksEvent) ∈ hist →
        ∃ millis, r = loadedFrom lib response doc millis) := by
    unfold fetchJwks jwksCall
    refine Quietly.invoke_bind (fun missed => Quietly.finallyDo (Quietly.handle (Quietly.mono
      (Q := fun hist r => (⟨.send uri, .ok response⟩ : JwksEvent) ∈ hist →
        ∃ millis, r = loadedFrom lib response doc millis) ?_ ?_)))
    · refine Quietly.invoke_bind (fun jwksUri => Quietly.ofExcept_bind ?_ ?_)
      · intro e _ hmem
        simp at hmem
      · intro _ _
        refine Quietly.invoke_bind (fun response' => ?_)
        -- The response is the one in question, at all later ends.
        have hsame {more : List JwksEvent} (hmore : ∀ ev ∈ more, ev.op = .millis)
            (hmem : (⟨.send uri, .ok response⟩ : JwksEvent) ∈
              [] ++ [⟨.recordOidcJwksMiss, .ok missed⟩] ++ [⟨.getJwksUri, .ok jwksUri⟩] ++
                [⟨.send jwksUri, .ok response'⟩] ++ more) : response' = response := by
          simp only [List.nil_append, List.mem_append, List.mem_singleton] at hmem
          rcases hmem with ((hmem | hmem) | hmem) | hmem
          · cases hmem
          · cases hmem
          · cases hmem
            rfl
          · cases hmore _ hmem
        have hat (hmem : (⟨.send uri, .ok response⟩ : JwksEvent) ∈
            [] ++ [⟨.recordOidcJwksMiss, .ok missed⟩] ++ [⟨.getJwksUri, .ok jwksUri⟩] ++
              [⟨.send jwksUri, .ok response'⟩]) : response' = response :=
          hsame (List.forall_mem_nil _) (by rwa [List.append_nil])
        dsimp only
        split_ifs with hother
        · refine Quietly.raise (fun hmem => ?_)
          rw [hat hmem] at hother
          exact absurd hstatus hother
        · refine Quietly.ofExcept_bind (fun e he hmem => ?_) (fun maxAgeSecs hmaxAge => ?_)
          · obtain rfl := hat hmem
            refine ⟨0, ?_⟩
            unfold loadedFrom
            rw [he]
            rfl
          refine Quietly.ofExcept_bind (fun e he hmem => ?_) (fun jwksResponse hresponse => ?_)
          · obtain rfl := hat hmem
            rw [hdoc] at he
            cases he
          refine Quietly.ofExcept_bind (fun e he hmem => ?_) (fun keys hkeys => ?_)
          · obtain rfl := hat hmem
            obtain rfl : doc = jwksResponse := Except.ok.inj (hdoc.symm.trans hresponse)
            refine ⟨0, ?_⟩
            unfold loadedFrom
            rw [hmaxAge]
            show _ = (parseKeys lib doc).bind _
            rw [he]
            rfl
          refine Quietly.invoke_bind (fun millis => Quietly.ret (fun hmem => ⟨millis, ?_⟩))
          obtain rfl := hsame (by simp) hmem
          obtain rfl : doc = jwksResponse := Except.ok.inj (hdoc.symm.trans hresponse)
          unfold loadedFrom
          rw [hmaxAge]
          show _ = (parseKeys lib doc).bind _
          rw [hkeys]
          rfl
    · -- What is thrown is thrown again, and the finalizer lets it pass.
      intro hist r hr
      cases r with
      | ok data =>
        refine Quietly.invoke_bind (fun _ => Quietly.ofExcept (fun hmem => hr ?_))
        simpa using hmem
      | error e =>
        have hfinal : Quietly ((invoke JwksOp.recordOidcJwksFetchTime).bind
            fun _ => Prog.ofExcept (Except.error e)) hist (fun hist r =>
              (⟨.send uri, .ok response⟩ : JwksEvent) ∈ hist →
                ∃ millis, r = loadedFrom lib response doc millis) := by
          refine Quietly.invoke_bind (fun _ => Quietly.ofExcept (fun hmem => hr ?_))
          simpa using hmem
        dsimp only
        split_ifs with hcaught
        · refine Quietly.raise (Quietly.invoke_bind (fun _ => Quietly.ofExcept (fun hmem => ?_)))
          obtain ⟨millis, hloaded⟩ := hr (by simpa using hmem)
          exact absurd hcaught (not_caught_of_loadedFrom hlib hloaded.symm)
        · exact Quietly.raise hfinal
  exact hrun tr out h hquiet hsend

/-- A fetch that gets a document, with status 200 and no failing call, succeeds with what the
response says exactly if the response is readable. -/
theorem fetchJwks_succeeds_iff {lib : JwksPlatform} (hlib : Documented lib) {tr : List JwksEvent}
    {out : Except Throwable JwksData} (h : Runs (fetchJwks lib) tr out) (hquiet : failures tr = [])
    {uri : JString} {response : HttpResponse} (hsend : (⟨.send uri, .ok response⟩ : JwksEvent) ∈ tr)
    (hstatus : response.statusCode = 200) {doc : Option JwksResponse}
    (hdoc : lib.readValue response.body = .ok doc) :
    (∃ data, out = .ok data ∧ Fetched lib response doc data) ↔ Readable response doc := by
  obtain ⟨millis, rfl⟩ := fetchJwks_quiet h hquiet hsend hstatus hdoc hlib
  constructor
  · rintro ⟨data, hok, -⟩
    by_contra hreadable
    obtain ⟨e, he, -⟩ := loadedFrom_error hlib hreadable millis
    rw [hok] at he
    cases he
  · intro hreadable
    exact loadedFrom_ok hlib hreadable millis

end OidcJwksKeyFetcher

namespace Sample
open OidcJwksKeyFetcher

/-- A modulus of 512 bits in base64. -/
def modulus (first : Char) : JString := ch first :: List.replicate 85 (ch 'w')

/-- The encoded key of a modulus whose first byte is `first`, and of the exponent 65537. -/
def rsa512Encoded (first : UInt8) : List UInt8 :=
  [0x30, 0x5c, 0x30, 0x0d, 0x06, 0x09, 0x2a, 0x86, 0x48, 0x86, 0xf7, 0x0d, 0x01, 0x01, 0x01, 0x05,
    0x00, 0x03, 0x4b, 0x00, 0x30, 0x48, 0x02, 0x41, 0x00, first, 0x0c, 0x30] ++
  (List.replicate 20 [0xc3, 0x0c, 0x30]).flatten ++ [0xc3, 0x02, 0x03, 0x01, 0x00, 0x01]

theorem length_rsa512Encoded (first : UInt8) : (rsa512Encoded first).length < 2^31 := by
  simp [rsa512Encoded]

def rsa512 (first : UInt8) : PublicKey :=
  ⟨u "RSA", ⟨rsa512Encoded first, length_rsa512Encoded first⟩⟩

def jwk (kid : String) (kty : String) (n : Option JString) : Option Jwk :=
  some ⟨some (u kid), some (u kty), n, n.map (fun _ => u "AQAB")⟩

/-- Two keys that cannot be used, and two with one key id. -/
def mixed : JwksResponse :=
  ⟨some [jwk "a" "EC" none, jwk "k" "RSA" (some (modulus 'w')), jwk "b" "RSA" (some (u "!!")),
    jwk "k" "RSA" (some (modulus 'x'))]⟩

def mixedBody : JString :=
  u "\x7b\"keys\":[\x7b\"kid\":\"a\",\"kty\":\"EC\"\x7d,\x7b\"kid\":\"k\",\"kty\":\"RSA\",\"n\":\"" ++
    modulus 'w' ++ u "\",\"e\":\"AQAB\"\x7d,\x7b\"kid\":\"b\",\"kty\":\"RSA\",\"n\":\"!!\"," ++
    u "\"e\":\"AQAB\"\x7d,\x7b\"kid\":\"k\",\"kty\":\"RSA\",\"n\":\"" ++ modulus 'x' ++
    u "\",\"e\":\"AQAB\"\x7d]\x7d"

def mixedPlatform : JwksPlatform where
  newRequest _ := .ok ()
  readValue body := if body = mixedBody then .ok (some mixed) else .error { cls := .ioException }
  rsaPublicKey n _ :=
    if n = modulus 'w' then .ok (rsa512 0xc3)
    else if n = modulus 'x' then .ok (rsa512 0xc7)
    else .error { cls := .illegalArgumentException, message := u "Illegal base64 character 21" }

theorem documented_mixed : Documented mixedPlatform := by
  intro n e ex h
  simp only [mixedPlatform] at h
  split_ifs at h
  cases h
  rfl

def mixedResponse (cacheControl : JString) : HttpResponse := ⟨200, mixedBody, some cacheControl⟩

theorem readValue_mixed (cacheControl : JString) :
    mixedPlatform.readValue (mixedResponse cacheControl).body = .ok (some mixed) := by
  unfold mixedPlatform mixedResponse
  dsimp only
  rw [if_pos rfl]

/-- The endpoint answers with these keys and the header `cacheControl`. -/
def mixedAnswer (cacheControl : JString) : (o : JwksOp) → Except Throwable o.Val
  | .send _ => .ok (mixedResponse cacheControl)
  | o => jwksAnswer 0 o

def mixedFetch (cacheControl : JString) : Except Throwable JwksData × List JwksOp :=
  eval (mixedAnswer cacheControl) (fetchJwks mixedPlatform)

/-- The calls of the fetch. -/
def mixedTrace (cacheControl : JString) : List JwksEvent :=
  (mixedFetch cacheControl).2.map (fun o => ⟨o, mixedAnswer cacheControl o⟩)

theorem stated_of_find {header digits : JString} {n : Nat}
    (hfind : Regex.find maxAgePattern header = some [digits]) (hn : parseNat digits = some n) :
    Stated (some header) n := by
  obtain ⟨digits', hgroups, hfirst⟩ := find_eq_some.mp hfind
  obtain rfl := (List.cons.inj hgroups).1
  exact ⟨header, digits, rfl, hfirst, hn⟩

end Sample

namespace OidcJwksKeyFetcher
open Sample

/-- `max-age=60`: the set is fetched, and holds the later key of the id that is there twice. -/
theorem fetchJwks_succeeds_minute : ∃ data, (mixedFetch (u "max-age=60")).1 = .ok data ∧
    Fetched mixedPlatform (mixedResponse (u "max-age=60")) (some mixed) data ∧
    data.get (u "k") = some (rsa512 0xc7) := by
  have hstated : Stated (some (u "max-age=60")) 60 :=
    stated_of_find (show Regex.find maxAgePattern (u "max-age=60") = some [u "60"] by decide)
      (by decide)
  have hsend : (⟨.send (u "https://issuer/jwks"), .ok (mixedResponse (u "max-age=60"))⟩ :
      JwksEvent) ∈ mixedTrace (u "max-age=60") :=
    List.mem_map.mpr ⟨.send (u "https://issuer/jwks"), by decide +kernel, rfl⟩
  have hquiet : failures (mixedTrace (u "max-age=60")) = [] :=
    List.eq_nil_of_length_eq_zero (by decide +kernel)
  have hreadable : Readable (mixedResponse (u "max-age=60")) (some mixed) := by
    refine ⟨fun n hn => ?_, by decide⟩
    rw [hn.unique hstated]
    decide
  obtain ⟨data, hdata, hfetched⟩ := (fetchJwks_succeeds_iff documented_mixed
    (runs_eval (mixedAnswer (u "max-age=60")) (fetchJwks mixedPlatform)) hquiet hsend rfl
    (readValue_mixed _)).mpr hreadable
  exact ⟨data, hdata, hfetched, (hfetched.keys (u "k")).trans (by decide +kernel)⟩

/-- `max-age=9223372036854775808`, that is 2^63, ends the fetch with an exception. -/
theorem fetchJwks_succeeds_large : ¬ ∀ (lib : JwksPlatform) (tr : List JwksEvent)
    (out : Except Throwable JwksData) (uri : JString) (response : HttpResponse)
    (doc : Option JwksResponse), Documented lib → Runs (fetchJwks lib) tr out → failures tr = [] →
      (⟨.send uri, .ok response⟩ : JwksEvent) ∈ tr → response.statusCode = 200 →
      lib.readValue response.body = .ok doc → none ∉ entries doc →
      ∃ data, out = .ok data ∧ Fetched lib response doc data := by
  intro h
  have hsend : (⟨.send (u "https://issuer/jwks"),
      .ok (mixedResponse (u "max-age=9223372036854775808"))⟩ : JwksEvent) ∈
      mixedTrace (u "max-age=9223372036854775808") :=
    List.mem_map.mpr ⟨.send (u "https://issuer/jwks"), by decide +kernel, rfl⟩
  obtain ⟨data, hdata, -⟩ := h mixedPlatform _ _ _ _ (some mixed) documented_mixed
    (runs_eval (mixedAnswer (u "max-age=9223372036854775808")) (fetchJwks mixedPlatform)) rfl
    hsend rfl (readValue_mixed _) (by decide)
  cases hdata

end OidcJwksKeyFetcher
end Tca
