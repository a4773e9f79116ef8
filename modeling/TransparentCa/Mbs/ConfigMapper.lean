import TransparentCa.Lib.JavaCollections
import TransparentCa.Mbs.Paths

/- `CertificatesConfigMapper.toDomain`, with the constructors it goes through. The message
   leaves out what it likes and repeats ids; the domain object is what `CertificatesConfig`
   is about. Which messages are mapped is said in the message's own terms (`WellFormed`);
   every other message is refused with the one exception that callers expect. -/
namespace Mbs
open Java

/-! ## The messages -/

namespace V1

structure Timestamp where
  seconds : Int64
  nanos : Int32
  deriving DecidableEq

structure ValidityPeriod where
  notBefore : Option Timestamp
  notAfter : Option Timestamp
  deriving DecidableEq

structure SelfSignedCertificate where
  epochId : Option Int32
  validityPeriod : Option ValidityPeriod
  deriving DecidableEq

structure CrossSignedCertificate where
  privateKeyEpochId : Option Int32
  publicKeyEpochId : Option Int32
  validityPeriod : Option ValidityPeriod
  deriving DecidableEq

structure CertificatesConfig where
  selfSignedCertificates : JMap Int32 SelfSignedCertificate
  crossSignedCertificates : JMap JString CrossSignedCertificate
  activeSelfSignedCertificateIds : List Int32
  activeCrossSignedCertificateIds : List JString
  acceptableSelfSignedCertificateIds : List Int32
  deriving DecidableEq

end V1

/-! ## The constructors -/

def ValidityPeriod.new (notBefore notAfter : Instant) : Except Throwable ValidityPeriod :=
  if h : notBefore < notAfter then .ok ⟨notBefore, notAfter, h⟩
  else .error
    { cls := .illegalArgumentException,
      message := u "notAfter (" ++ notAfter.toString ++ u ") must be strictly after notBefore (" ++
        notBefore.toString ++ u ")" }

def CrossSignedCertificateId.new (privateKeyEpochId publicKeyEpochId : Epoch) :
    Except Throwable CrossSignedCertificateId :=
  if h : privateKeyEpochId ≠ publicKeyEpochId then .ok ⟨privateKeyEpochId, publicKeyEpochId, h⟩
  else .error
    { cls := .illegalArgumentException,
      message := u "privateKeyEpochId (" ++ intToString privateKeyEpochId ++
        u ") must not equal publicKeyEpochId (" ++ intToString publicKeyEpochId ++ u ")" }

def CrossSignedCertificateId.toString (id : CrossSignedCertificateId) : JString :=
  u "CrossSignedCertificateId[privateKeyEpochId=" ++ intToString id.privateKeyEpochId ++
    u ", publicKeyEpochId=" ++ intToString id.publicKeyEpochId ++ u "]"

def CrossSignedCertificate.certificateId (cert : CrossSignedCertificate) : JString :=
  cert.id.toKeyString

namespace CertificatesConfig

def illegalArgument (message : JString) : Throwable :=
  { cls := .illegalArgumentException, message := message }

/-- Whether a map entry's key is the epoch of its certificate. -/
def checkSelfSignedKey (entry : Epoch × SelfSignedCertificate) : Option Throwable :=
  if entry.1 = entry.2.epochId then none
  else some (illegalArgument (u "Map key (" ++ intToString entry.1 ++
    u ") does not match SelfSignedCertificate.epochId (" ++ intToString entry.2.epochId ++ u ")"))

def checkCrossSignedKey (entry : CrossSignedCertificateId × CrossSignedCertificate) :
    Option Throwable :=
  if entry.1 = entry.2.id then none
  else some (illegalArgument (u "Map key '" ++ entry.1.toString ++
    u "' does not match CrossSignedCertificate.id '" ++ entry.2.id.toString ++ u "'"))

/-- Whether both epochs of a cross-signed certificate have self-signed ones. -/
def checkReferences (selfSignedCertificates : JMap Epoch SelfSignedCertificate)
    (crossCert : CrossSignedCertificate) : Option Throwable :=
  if selfSignedCertificates.containsKey crossCert.id.privateKeyEpochId then
    if selfSignedCertificates.containsKey crossCert.id.publicKeyEpochId then none
    else some (illegalArgument (u "CrossSignedCertificate (" ++ crossCert.certificateId ++
      u ") references public key epoch " ++ intToString crossCert.id.publicKeyEpochId ++
      u " not present in selfSignedCertificates"))
  else some (illegalArgument (u "CrossSignedCertificate (" ++ crossCert.certificateId ++
    u ") references private key epoch " ++ intToString crossCert.id.privateKeyEpochId ++
    u " not present in selfSignedCertificates"))

/-- The first id that is no key of the inventory. -/
def validateKeysExist {K V : Type} [DecidableEq K] (formattedId : K → JString) (ids : JSet K)
    (inventory : JMap K V) (listName itemType inventoryName : JString) : Option Throwable :=
  ids.val.findSome? (fun id =>
    if inventory.containsKey id then none
    else some (illegalArgument (listName ++ u " contains " ++ itemType ++ u " " ++
      formattedId id ++ u " not defined in " ++ inventoryName)))

/-- The first check of the constructor that fails, on the copies it made. -/
def firstViolation (selfSignedCertificates : JMap Epoch SelfSignedCertificate)
    (crossSignedCertificates : JMap CrossSignedCertificateId CrossSignedCertificate)
    (activeSelfSignedCertificateIds : JSet Epoch)
    (activeCrossSignedCertificateIds : JSet CrossSignedCertificateId)
    (acceptableSelfSignedCertificateIds : JSet Epoch) : Option Throwable :=
  selfSignedCertificates.val.findSome? checkSelfSignedKey
  <|> crossSignedCertificates.val.findSome? checkCrossSignedKey
  <|> (crossSignedCertificates.val.map Prod.snd).findSome? (checkReferences selfSignedCertificates)
  <|> (if activeSelfSignedCertificateIds.val = [] then
      some (illegalArgument (u "activeSelfSignedCertificateIds must not be empty"))
    else none)
  <|> validateKeysExist intToString activeSelfSignedCertificateIds selfSignedCertificates
    (u "activeSelfSignedCertificateIds") (u "key") (u "selfSignedCertificates")
  <|> validateKeysExist intToString acceptableSelfSignedCertificateIds selfSignedCertificates
    (u "acceptableSelfSignedCertificateIds") (u "key") (u "selfSignedCertificates")
  <|> validateKeysExist (fun id : CrossSignedCertificateId => u "'" ++ id.toKeyString ++ u "'")
    activeCrossSignedCertificateIds crossSignedCertificates
    (u "activeCrossSignedCertificateIds") (u "certificate ID") (u "crossSignedCertificates")

/-- What the constructor checks, as a whole. -/
structure Checked (selfSignedCertificates : JMap Epoch SelfSignedCertificate)
    (crossSignedCertificates : JMap CrossSignedCertificateId CrossSignedCertificate)
    (activeSelfSignedCertificateIds : JSet Epoch)
    (activeCrossSignedCertificateIds : JSet CrossSignedCertificateId)
    (acceptableSelfSignedCertificateIds : JSet Epoch) : Prop where
  selfSigned_key : ∀ entry ∈ selfSignedCertificates.val, entry.1 = entry.2.epochId
  crossSigned_key : ∀ entry ∈ crossSignedCertificates.val, entry.1 = entry.2.id
  crossSigned_private : ∀ entry ∈ crossSignedCertificates.val,
    entry.2.id.privateKeyEpochId ∈ selfSignedCertificates.val.map Prod.fst
  crossSigned_public : ∀ entry ∈ crossSignedCertificates.val,
    entry.2.id.publicKeyEpochId ∈ selfSignedCertificates.val.map Prod.fst
  active_nonempty : activeSelfSignedCertificateIds.val ≠ []
  active_defined :
    ∀ e ∈ activeSelfSignedCertificateIds.val, e ∈ selfSignedCertificates.val.map Prod.fst
  acceptable_defined :
    ∀ e ∈ acceptableSelfSignedCertificateIds.val, e ∈ selfSignedCertificates.val.map Prod.fst
  activeCross_defined :
    ∀ id ∈ activeCrossSignedCertificateIds.val, id ∈ crossSignedCertificates.val.map Prod.fst

section
variable {selfSigned : JMap Epoch SelfSignedCertificate}
  {crossSigned : JMap CrossSignedCertificateId CrossSignedCertificate} {active : JSet Epoch}
  {activeCross : JSet CrossSignedCertificateId} {acceptable : JSet Epoch}

theorem checkReferences_eq_none {crossCert : CrossSignedCertificate} :
    checkReferences selfSigned crossCert = none ↔
      crossCert.id.privateKeyEpochId ∈ selfSigned.val.map Prod.fst ∧
        crossCert.id.publicKeyEpochId ∈ selfSigned.val.map Prod.fst := by
  unfold checkReferences JMap.containsKey
  split
  · next hprivate =>
    split
    · next hpublic => simp_all
    · next hpublic => simp_all
  · next hprivate => simp_all

theorem validateKeysExist_eq_none {K V : Type} [DecidableEq K] {formattedId : K → JString}
    {ids : JSet K} {inventory : JMap K V} {listName itemType inventoryName : JString} :
    validateKeysExist formattedId ids inventory listName itemType inventoryName = none ↔
      ∀ id ∈ ids.val, id ∈ inventory.val.map Prod.fst := by
  unfold validateKeysExist JMap.containsKey
  rw [List.findSome?_eq_none_iff]
  refine forall₂_congr (fun id _ => ?_)
  split <;> simp_all

theorem firstViolation_eq_none :
    firstViolation selfSigned crossSigned active activeCross acceptable = none ↔
      Checked selfSigned crossSigned active activeCross acceptable := by
  have hnone : ∀ {α : Type} {p q : Option α}, (p <|> q) = none ↔ p = none ∧ q = none := by
    intro α p q
    cases p <;> simp
  unfold firstViolation
  simp only [hnone, validateKeysExist_eq_none, List.findSome?_eq_none_iff, List.forall_mem_map,
    checkReferences_eq_none, checkSelfSignedKey, checkCrossSignedKey, ite_eq_left_iff, reduceCtorEq,
    imp_false, not_not, ite_eq_right_iff]
  constructor
  · rintro ⟨hkey, hcrossKey, hreferences, hnonempty, hactive, hacceptable, hactiveCross⟩
    exact ⟨hkey, hcrossKey, fun entry hentry => (hreferences entry hentry).1,
      fun entry hentry => (hreferences entry hentry).2, hnonempty, hactive, hacceptable,
      hactiveCross⟩
  · intro h
    exact ⟨h.selfSigned_key, h.crossSigned_key,
      fun entry hentry => ⟨h.crossSigned_private entry hentry, h.crossSigned_public entry hentry⟩,
      h.active_nonempty, h.active_defined, h.acceptable_defined, h.activeCross_defined⟩

end

/-- The record's constructor after the copies: the config, or the first violation. -/
def ofCopies (selfSignedCertificates : JMap Epoch SelfSignedCertificate)
    (crossSignedCertificates : JMap CrossSignedCertificateId CrossSignedCertificate)
    (activeSelfSignedCertificateIds : JSet Epoch)
    (activeCrossSignedCertificateIds : JSet CrossSignedCertificateId)
    (acceptableSelfSignedCertificateIds : JSet Epoch) : Except Throwable CertificatesConfig :=
  match h : firstViolation selfSignedCertificates crossSignedCertificates
      activeSelfSignedCertificateIds activeCrossSignedCertificateIds
      acceptableSelfSignedCertificateIds with
  | some e => .error e
  | none =>
    have hchecked := firstViolation_eq_none.mp h
    .ok
      { selfSignedCertificates := selfSignedCertificates.val
        crossSignedCertificates := crossSignedCertificates.val
        activeSelfSignedCertificateIds := activeSelfSignedCertificateIds.val
        activeCrossSignedCertificateIds := activeCrossSignedCertificateIds.val
        acceptableSelfSignedCertificateIds := acceptableSelfSignedCertificateIds.val
        selfSigned_nodup := selfSignedCertificates.property
        crossSigned_nodup := crossSignedCertificates.property
        active_nodup := activeSelfSignedCertificateIds.property
        activeCross_nodup := activeCrossSignedCertificateIds.property
        acceptable_nodup := acceptableSelfSignedCertificateIds.property
        selfSigned_key := hchecked.selfSigned_key
        crossSigned_key := hchecked.crossSigned_key
        crossSigned_private := hchecked.crossSigned_private
        crossSigned_public := hchecked.crossSigned_public
        active_nonempty := hchecked.active_nonempty
        active_defined := hchecked.active_defined
        acceptable_defined := hchecked.acceptable_defined
        activeCross_defined := hchecked.activeCross_defined }

def new (jdk : ImmutableCollections) (selfSignedCertificates : JMap Epoch SelfSignedCertificate)
    (crossSignedCertificates : JMap CrossSignedCertificateId CrossSignedCertificate)
    (activeSelfSignedCertificateIds : JSet Epoch)
    (activeCrossSignedCertificateIds : JSet CrossSignedCertificateId)
    (acceptableSelfSignedCertificateIds : JSet Epoch) : Except Throwable CertificatesConfig :=
  ofCopies (selfSignedCertificates.copyOf jdk) (crossSignedCertificates.copyOf jdk)
    (activeSelfSignedCertificateIds.copyOf jdk) (activeCrossSignedCertificateIds.copyOf jdk)
    (acceptableSelfSignedCertificateIds.copyOf jdk)

end CertificatesConfig

/-! ## CertificatesConfigMapper -/

namespace CertificatesConfigMapper

def minTimestampSeconds : Int64 := -62135596800
def maxTimestampSeconds : Int64 := 253402300799

def invalidConfig (message : JString) : Throwable :=
  { cls := .invalidCertificatesConfigException, message := message }

/-- `catch (IllegalArgumentException e) { throw new InvalidCertificatesConfigException(…, e); }`
around `x`. -/
def orInvalidConfig {α : Type} (message : JString → JString) (x : Except Throwable α) :
    Except Throwable α :=
  tryCatch x (fun e =>
    if e.instanceOf .illegalArgumentException then .error (invalidConfig (message e.message))
    else .error e)

def toInstant (timestamp : V1.Timestamp) : Except Throwable Instant :=
  if timestamp.seconds < minTimestampSeconds ∨ timestamp.seconds > maxTimestampSeconds then
    .error (invalidConfig (u "Timestamp seconds must be in [" ++ longToString minTimestampSeconds ++
      u ", " ++ longToString maxTimestampSeconds ++ u "], got " ++
      longToString timestamp.seconds))
  else if timestamp.nanos ≠ 0 then
    .error (invalidConfig (u "Timestamp nanos must be 0 for X.509 validity periods, got " ++
      intToString timestamp.nanos))
  else Instant.ofEpochSecond timestamp.seconds

def toValidityPeriod (proto : V1.ValidityPeriod) : Except Throwable ValidityPeriod :=
  match proto.notBefore, proto.notAfter with
  | some notBefore, some notAfter => do
    let notBefore ← toInstant notBefore
    let notAfter ← toInstant notAfter
    orInvalidConfig (fun message => u "Invalid validity period: " ++ message)
      (ValidityPeriod.new notBefore notAfter)
  | _, _ => .error (invalidConfig
      (u "ValidityPeriod must have both not_before and not_after specified"))

def toSelfSignedCertificate (proto : V1.SelfSignedCertificate) :
    Except Throwable SelfSignedCertificate :=
  match proto.epochId with
  | none => .error (invalidConfig (u "SelfSignedCertificate is missing epoch_id"))
  | some epochId =>
    match proto.validityPeriod with
    | none => .error (invalidConfig (u "SelfSignedCertificate epoch_id=" ++ intToString epochId ++
        u " is missing validity_period"))
    | some validityPeriod => orInvalidConfig id (do
        let validityPeriod ← toValidityPeriod validityPeriod
        return ⟨epochId, validityPeriod⟩)

def toCrossSignedCertificate (proto : V1.CrossSignedCertificate) :
    Except Throwable CrossSignedCertificate :=
  match proto.privateKeyEpochId with
  | none => .error (invalidConfig (u "CrossSignedCertificate is missing private_key_epoch_id"))
  | some privateKeyEpochId =>
    match proto.publicKeyEpochId with
    | none => .error (invalidConfig (u "CrossSignedCertificate is missing public_key_epoch_id"))
    | some publicKeyEpochId =>
      match proto.validityPeriod with
      | none => .error (invalidConfig (u "CrossSignedCertificate (" ++
          intToString privateKeyEpochId ++ u "_" ++ intToString publicKeyEpochId ++
          u ") is missing validity_period"))
      | some validityPeriod => orInvalidConfig id (do
          let validityPeriod ← toValidityPeriod validityPeriod
          let id ← CrossSignedCertificateId.new privateKeyEpochId publicKeyEpochId
          return ⟨id, validityPeriod⟩)

def parseCrossSignedKey (keyStr : JString) : Except Throwable CrossSignedCertificateId :=
  orInvalidConfig id (CrossSignedCertificateId.fromKeyString keyStr)

/-- One of the loops that fill a map: each entry is put under its key. -/
def putAll {K' V' K V : Type} [DecidableEq K] (key : K' → Except Throwable K)
    (value : V' → Except Throwable V) : JMap K V → List (K' × V') → Except Throwable (JMap K V)
  | m, [] => .ok m
  | m, entry :: entries => do
    let k ← key entry.1
    let v ← value entry.2
    putAll key value (m.put k v) entries

def toDomain (jdk : ImmutableCollections) (proto : V1.CertificatesConfig) :
    Except Throwable CertificatesConfig := do
  let selfSignedMap ←
    putAll .ok toSelfSignedCertificate JMap.empty proto.selfSignedCertificates.val
  let crossSignedMap ←
    putAll parseCrossSignedKey toCrossSignedCertificate JMap.empty proto.crossSignedCertificates.val
  let activeCrossSignedIds ← proto.activeCrossSignedCertificateIds.foldlM
    (fun ids keyStr => return ids.add (← parseCrossSignedKey keyStr)) JSet.empty
  orInvalidConfig id (CertificatesConfig.new jdk selfSignedMap crossSignedMap
    (.ofList proto.activeSelfSignedCertificateIds) activeCrossSignedIds
    (.ofList proto.acceptableSelfSignedCertificateIds))

/-- The parser of the text format merges into an empty message. -/
def fromTextProto (jdk : ImmutableCollections)
    (merge : JString → Except Throwable V1.CertificatesConfig) (textProto : JString) :
    Except Throwable CertificatesConfig := do
  let message ← tryCatch (merge textProto) (fun e =>
    if e.instanceOf .parseException then .error (invalidConfig
      (u "Failed to parse CertificatesConfig textproto: " ++ e.message))
    else .error e)
  toDomain jdk message

end CertificatesConfigMapper
end Mbs
