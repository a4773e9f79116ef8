import TransparentCa.Lib.PrefixCode
import TransparentCa.Lib.Regex
import TransparentCa.Tca.Issuance

/- `OidcAudienceBindingValidator`. An audience binds a token to a key: it ends with the digest
   of the key, and it names one of the hosts of this authority. The pattern is matched against
   the whole audience, so the host is everything up to the next slash, whatever it holds, and
   nothing may stand behind the digest. -/
namespace Tca
open Java Mbs PrefixCode Regex

/-- The fields of the instance's metadata that name its hosts. -/
structure AwsInstanceMetadata where
  region : JString
  environment : JString
  domain : JString
  deriving DecidableEq

namespace OidcAudienceBindingValidator

/-- `[a-f0-9]`. -/
def isHexLower (c : UInt16) : Bool :=
  (ch 'a' ≤ c && c ≤ ch 'f') || (ch '0' ≤ c && c ≤ ch '9')

/-- `[^/]`. -/
def notSlash (c : UInt16) : Bool := c != ch '/'

def scheme : JString := u "https://"

def issuePath : JString := u "/v1/certificates:issue?pubkey_sha256="

/-- `^https://([^/]+)/v1/certificates:issue\?pubkey_sha256=([a-f0-9]{64})$`. -/
def audiencePattern : List (Item UInt16) :=
  [.text scheme, .group notSlash 1 none, .text issuePath, .group isHexLower 64 (some 64)]

/-- `BaseEncoding.base16().lowerCase().encode(bytes)`. -/
def base16 (bytes : List UInt8) : JString :=
  bytes.flatMap (fun b => [hexDigit (b.toNat / 16), hexDigit (b.toNat % 16)])

section
/- `MessageDigest.getInstance("SHA-256")`, which every Java platform has. -/
variable (sha256 : Bytes → List.Vector UInt8 32) (metadata : AwsInstanceMetadata)

def getExpectedDigest (csrPublicKey : PublicKey) : JString :=
  base16 (sha256 csrPublicKey.encoded).toList

def globalHostname : JString := u "tca." ++ metadata.environment ++ u "." ++ metadata.domain

def regionalHostname : JString := metadata.region ++ u "." ++ globalHostname metadata

def isValidHostname (hostname trustDomain : JString) : Bool :=
  if hostname = trustDomain then true
  else if hostname = globalHostname metadata then true
  else if hostname = regionalHostname metadata then true
  else false

/-- Whether the loop returns at this audience. -/
def accepts (expectedDigest trustDomain audience : JString) : Bool :=
  match fullMatch audiencePattern audience with
  | some [hostname, digest] => digest = expectedDigest && isValidHostname metadata hostname trustDomain
  | _ => false

def mismatch : Throwable :=
  { cls := .audienceValidationException, message := u "OIDC audience binding validation failed." }

def validate (csrPublicKey : PublicKey) (callerIdentity : CallerIdentity) (trustDomain : JString) :
    Except Throwable Unit :=
  let expectedDigest := getExpectedDigest sha256 csrPublicKey
  if callerIdentity.audiences.any (accepts metadata expectedDigest trustDomain) then .ok ()
  else .error mismatch

/-! ## What the validator accepts -/

/-- The hosts a token may be meant for. -/
def hostnames (trustDomain : JString) : List JString :=
  [trustDomain, globalHostname metadata, regionalHostname metadata]

end

/-- The audience that binds a token for this host to this digest. -/
def audience (hostname digest : JString) : JString := scheme ++ hostname ++ issuePath ++ digest

theorem isValidHostname_iff {metadata : AwsInstanceMetadata} {hostname trustDomain : JString} :
    isValidHostname metadata hostname trustDomain = true ↔
      hostname ∈ hostnames metadata trustDomain := by
  unfold isValidHostname hostnames
  by_cases h₁ : hostname = trustDomain
  · simp [h₁]
  · by_cases h₂ : hostname = globalHostname metadata
    · simp [h₂]
    · by_cases h₃ : hostname = regionalHostname metadata <;> simp [h₁, h₂, h₃]

/-- The pattern says: a host without slashes and a digest of 64 lowercase digits. -/
theorem reads_audiencePattern {s : JString} {groups : List JString} :
    Reads audiencePattern s groups ↔ ∃ hostname digest, groups = [hostname, digest] ∧
      s = audience hostname digest ∧ hostname ≠ [] ∧ ch '/' ∉ hostname ∧
      digest.length = 64 ∧ ∀ c ∈ digest, isHexLower c = true := by
  refine ⟨fun h => ?_, fun h => ?_⟩
  · obtain ⟨_, rfl, hostname, _, groups, rfl, hhost, rfl, _, rfl, digest, _, _, rfl, hdigest, rfl,
      rfl, rfl⟩ := h
    refine ⟨hostname, digest, rfl, by simp [audience], ?_, ?_, ?_, hdigest.all⟩
    · exact List.ne_nil_of_length_pos hhost.lo_le
    · intro hin
      exact absurd (hhost.all _ hin) (by decide)
    · exact le_antisymm (hdigest.le_hi 64 rfl) hdigest.lo_le
  · obtain ⟨hostname, digest, rfl, rfl, hne, hslash, hlen, hhex⟩ := h
    have hhost : IsRun notSlash 1 none hostname := by
      refine ⟨fun c hc => ?_, List.length_pos_iff.mpr hne, fun n hn => by cases hn⟩
      have hcne : c ≠ ch '/' := fun heq => hslash (heq ▸ hc)
      simpa [notSlash] using hcne
    have hdigest : IsRun isHexLower 64 (some 64) digest := by
      refine ⟨hhex, by omega, fun n hn => ?_⟩
      rw [← Option.some.inj hn, hlen]
    exact ⟨hostname ++ (issuePath ++ digest), by simp [audience], hostname, issuePath ++ digest,
      [digest], rfl, hhost, rfl, digest, rfl, digest, [], [], (List.append_nil digest).symm, hdigest,
      rfl, rfl, rfl⟩

/-- The host ends at the first slash behind the scheme. -/
theorem audience_inj {hostname hostname' digest digest' : JString} (h : ch '/' ∉ hostname)
    (h' : ch '/' ∉ hostname') (heq : audience hostname digest = audience hostname' digest') :
    hostname = hostname' ∧ digest = digest' := by
  have hcut : ∀ a d : JString, audience a d =
      scheme ++ (a ++ ch '/' :: (u "v1/certificates:issue?pubkey_sha256=" ++ d)) := by
    intro a d
    simp [audience, issuePath, u]
  rw [hcut, hcut] at heq
  obtain ⟨hhost, hrest⟩ := sep_inj_left h h' (List.append_cancel_left heq)
  exact ⟨hhost, List.append_cancel_left hrest⟩

/-- The digest is what stands at the end. -/
theorem digest_of_audience {hostname hostname' digest digest' : JString}
    (hlen : digest.length = digest'.length)
    (heq : audience hostname digest = audience hostname' digest') : digest = digest' :=
  (List.append_inj' heq hlen).2

theorem fullMatch_audiencePattern {s : JString} {groups : List JString} :
    fullMatch audiencePattern s = some groups ↔ Reads audiencePattern s groups := by
  refine ⟨reads_of_fullMatch, fun h => fullMatch_eq_some h (fun groups' h' => ?_)⟩
  obtain ⟨hostname, digest, rfl, rfl, -, hslash, -, -⟩ := reads_audiencePattern.mp h
  obtain ⟨hostname', digest', rfl, heq, -, hslash', -, -⟩ := reads_audiencePattern.mp h'
  obtain ⟨rfl, rfl⟩ := audience_inj hslash hslash' heq
  rfl

/-! ## Digests -/

def hexByte (b : UInt8) : JString := [hexDigit (b.toNat / 16), hexDigit (b.toNat % 16)]

theorem hexByte_prefixFree : PrefixFree hexByte where
  nonempty b := by simp [hexByte]
  eq_of_prefix b b' hpre := by
    have heq : hexByte b = hexByte b' := hpre.eq_of_length rfl
    simp only [hexByte, List.cons.injEq, and_true] at heq
    have hb := b.toNat_lt
    have hb' := b'.toNat_lt
    have hhigh := hexDigit_injective (by omega) (by omega) heq.1
    have hlow := hexDigit_injective (by omega) (by omega) heq.2
    apply UInt8.toNat_inj.mp
    omega

theorem base16_injective : Function.Injective base16 := hexByte_prefixFree.flatMap_injective

theorem length_base16 (bytes : List UInt8) : (base16 bytes).length = 2 * bytes.length := by
  induction bytes with
  | nil => rfl
  | cons b bytes ih =>
    have hcons : base16 (b :: bytes) = hexByte b ++ base16 bytes := rfl
    rw [hcons, List.length_append, ih, List.length_cons]
    simp only [hexByte, List.length_cons, List.length_nil]
    omega

theorem isHexLower_hexDigit {n : Nat} (h : n < 16) : isHexLower (hexDigit n) = true := by
  interval_cases n <;> decide

theorem isHexLower_base16 {bytes : List UInt8} {c : UInt16} (h : c ∈ base16 bytes) :
    isHexLower c = true := by
  obtain ⟨b, -, hc⟩ := List.mem_flatMap.mp h
  have hb := b.toNat_lt
  simp only [List.mem_cons, List.not_mem_nil, or_false] at hc
  rcases hc with rfl | rfl
  · exact isHexLower_hexDigit (by omega)
  · exact isHexLower_hexDigit (by omega)

section
variable {sha256 : Bytes → List.Vector UInt8 32} {metadata : AwsInstanceMetadata}
  {trustDomain : JString}

theorem length_getExpectedDigest (key : PublicKey) : (getExpectedDigest sha256 key).length = 64 := by
  rw [getExpectedDigest, length_base16, List.Vector.toList_length]

theorem getExpectedDigest_injective {key key' : PublicKey}
    (h : getExpectedDigest sha256 key = getExpectedDigest sha256 key') :
    sha256 key.encoded = sha256 key'.encoded :=
  List.Vector.toList_injective (base16_injective h)

theorem accepts_iff {key : PublicKey} {s : JString} :
    accepts metadata (getExpectedDigest sha256 key) trustDomain s = true ↔
      ∃ h ∈ hostnames metadata trustDomain, h ≠ [] ∧ ch '/' ∉ h ∧
        s = audience h (getExpectedDigest sha256 key) := by
  refine ⟨fun haccepts => ?_, fun h => ?_⟩
  · unfold accepts at haccepts
    split at haccepts
    · next hostname digest hmatch =>
      obtain ⟨h, d, hgroups, rfl, hne, hslash, -, -⟩ :=
        reads_audiencePattern.mp (fullMatch_audiencePattern.mp hmatch)
      obtain ⟨rfl, rfl⟩ : hostname = h ∧ digest = d := by simpa using hgroups
      simp only [Bool.and_eq_true, decide_eq_true_eq] at haccepts
      exact ⟨hostname, isValidHostname_iff.mp haccepts.2, hne, hslash, by rw [haccepts.1]⟩
    · cases haccepts
  · obtain ⟨h, hmem, hne, hslash, rfl⟩ := h
    have hreads : Reads audiencePattern (audience h (getExpectedDigest sha256 key))
        [h, getExpectedDigest sha256 key] :=
      reads_audiencePattern.mpr ⟨h, _, rfl, rfl, hne, hslash, length_getExpectedDigest key,
        fun c hc => isHexLower_base16 hc⟩
    simp only [accepts, fullMatch_audiencePattern.mpr hreads, decide_true, Bool.true_and,
      isValidHostname_iff.mpr hmem]

theorem validate_eq_ok {key : PublicKey} {caller : CallerIdentity} :
    validate sha256 metadata key caller trustDomain = .ok () ↔
      ∃ h ∈ hostnames metadata trustDomain, h ≠ [] ∧ ch '/' ∉ h ∧
        audience h (getExpectedDigest sha256 key) ∈ caller.audiences := by
  simp only [validate]
  split
  · next hany =>
    obtain ⟨s, hs, haccepts⟩ := List.any_eq_true.mp hany
    obtain ⟨h, hmem, hne, hslash, rfl⟩ := accepts_iff.mp haccepts
    exact ⟨fun _ => ⟨h, hmem, hne, hslash, hs⟩, fun _ => rfl⟩
  · next hnone =>
    refine ⟨fun heq => (by cases heq), fun h => absurd ?_ hnone⟩
    obtain ⟨h, hmem, hne, hslash, hs⟩ := h
    exact List.any_eq_true.mpr ⟨_, hs, accepts_iff.mpr ⟨h, hmem, hne, hslash, rfl⟩⟩

/-- For hosts that are non-empty and without slashes: the validator returns exactly when the
audience of one of them for this key is there, and throws its own exception otherwise. A token
whose audiences are all for one key passes for another key only if the digests collide. -/
theorem validate_iff (key : PublicKey) (caller : CallerIdentity)
    (hhosts : ∀ h ∈ hostnames metadata trustDomain, h ≠ [] ∧ ch '/' ∉ h) :
    (validate sha256 metadata key caller trustDomain = .ok () ↔
      ∃ h ∈ hostnames metadata trustDomain,
        audience h (getExpectedDigest sha256 key) ∈ caller.audiences) ∧
    (validate sha256 metadata key caller trustDomain = .ok () ∨
      validate sha256 metadata key caller trustDomain = .error mismatch) ∧
    ∀ key' : PublicKey,
      (∀ s ∈ caller.audiences, ∃ h, s = audience h (getExpectedDigest sha256 key')) →
      validate sha256 metadata key caller trustDomain = .ok () →
      sha256 key.encoded = sha256 key'.encoded := by
  refine ⟨?_, ?_, fun key' hbound hok => ?_⟩
  · rw [validate_eq_ok]
    refine ⟨fun h => ?_, fun h => ?_⟩
    · obtain ⟨h, hmem, -, -, hs⟩ := h
      exact ⟨h, hmem, hs⟩
    · obtain ⟨h, hmem, hs⟩ := h
      exact ⟨h, hmem, (hhosts h hmem).1, (hhosts h hmem).2, hs⟩
  · simp only [validate]
    split
    · exact .inl rfl
    · exact .inr rfl
  · obtain ⟨h, -, -, -, hs⟩ := validate_eq_ok.mp hok
    obtain ⟨h', heq⟩ := hbound _ hs
    refine getExpectedDigest_injective (digest_of_audience ?_ heq)
    rw [length_getExpectedDigest, length_getExpectedDigest]

end

/-! A token for the regional host and the key of the sample request. -/

namespace Sample

def keyDigest : List UInt8 :=
  [0x10, 0x72, 0x1a, 0xdb, 0xac, 0xa0, 0x65, 0xf7, 0x93, 0x9e, 0x15, 0x47, 0xf9, 0x7c, 0x9c, 0xc3,
   0xe3, 0x78, 0xc2, 0x41, 0x42, 0x1b, 0xd7, 0xe2, 0x51, 0x25, 0xd2, 0x0e, 0xca, 0x63, 0x0c, 0xe3]

/-- SHA-256 on the key of the sample request. -/
def sha256 (bytes : Bytes) : List.Vector UInt8 32 :=
  if bytes = Tca.Sample.csrKeyBytes then ⟨keyDigest, by decide⟩ else List.Vector.replicate 32 0

def metadata : AwsInstanceMetadata := ⟨u "us-east-1", u "prod", u "example"⟩

def boundCaller : CallerIdentity :=
  { Tca.Sample.caller with audiences :=
      [u "https://us-east-1.tca.prod.example/v1/certificates:issue?pubkey_sha256=10721adbaca065f7939e1547f97c9cc3e378c241421bd7e25125d20eca630ce3"] }

end Sample

theorem validate_regional_token :
    validate Sample.sha256 Sample.metadata Tca.Sample.csrKey Sample.boundCaller
      (u "tca.example") = .ok () :=
  (validate_iff Tca.Sample.csrKey Sample.boundCaller (by decide)).1.mpr
    ⟨u "us-east-1.tca.prod.example", by decide, by decide +kernel⟩
end OidcAudienceBindingValidator
end Tca
