import TransparentCa.Lib.JavaCollections
import TransparentCa.Tca.Domain

/- `JsonIntotoEndorsementMetadataProvider` and the classes that an endorsement is read into.
   Jackson finds the properties in the bytes (a parameter) and hands them to the
   constructors, whose checks are here: a claim that lacks what its type calls for cannot be
   built. The two getters part ways on what cannot be read: `getAnnotations` gives the fixed
   ids of a default workload, `getValidity` throws. `getAnnotations_ok_iff` says from which
   documents the ids of the claims come. -/
namespace Tca
open Java Mbs

/-! ## What Jackson found -/

/-- A property of a JSON object: left out, `null`, or there. -/
inductive Property (α : Type) where
  | absent
  | null
  | value (a : α)
  deriving DecidableEq, Repr

namespace Property

variable {α : Type}

/-- The argument of the constructor: `null` for a property left out. -/
def argument : Property α → Option α
  | .absent => none
  | .null => none
  | .value a => some a

/-- With `required = true`, a property left out is an exception of Jackson's; `null` is not. -/
def required : Property α → Option (Option α)
  | .absent => none
  | .null => some none
  | .value a => some (some a)

theorem required_eq_some {p : Property α} {a : Option α} :
    p.required = some a ↔ p ≠ .absent ∧ p.argument = a := by
  cases p <;> simp [required, argument]

theorem argument_eq_some {p : Property α} {a : α} : p.argument = some a ↔ p = .value a := by
  cases p <;> simp [argument]

end Property

/-- `Map<String, String>`; `none` stands for a `null` value. -/
abbrev Annotations := JMap JString (Option JString)

/-- `annotations.get(key)`. -/
def Annotations.get (annotations : Annotations) (key : JString) : Option JString :=
  (annotations.val.lookup key).join

structure ClaimNode where
  type : Property JString
  annotations : Property Annotations

structure ValidityNode where
  notBefore : Property JString
  notAfter : Property JString

structure PredicateNode where
  issuedOn : Property JString
  validity : Property ValidityNode
  claims : Property (List (Option ClaimNode))

structure ResourceNode where
  name : Property JString
  digest : Property Annotations

structure StatementNode where
  type : Property JString
  subject : Property (List (Option ResourceNode))
  predicateType : Property JString
  predicate : Property PredicateNode

/-- Jackson and `java.time` on the bytes of a statement: the properties found in it (`none`
for the document `null`), the message of the exception where an endorsement cannot be made of
it, and `Instant.parse` (`none` where it throws `DateTimeParseException`). -/
structure JacksonReader where
  readTree : Bytes → Except Throwable (Option StatementNode)
  failureMessage : Bytes → JString
  parseInstant : JString → Option Instant

/-- The elements of an array, of which some may be `null`. -/
def readElements {α β : Type} (read : α → Option β) : List (Option α) → Option (List (Option β))
  | [] => some []
  | none :: elements => (readElements read elements).map (fun rest => none :: rest)
  | some a :: elements => (read a).bind (fun b =>
    (readElements read elements).map (fun rest => some b :: rest))

/-! ## The classes of an endorsement -/

namespace Claim

def pesClaimPublisherType : JString :=
  u "https://github.com/private-compute-infra-toolkit/public-endorsement-service/blob/main/docs/claims/publisher.md"

def publisherIdKey : JString := u "publisher_id"

def workloadClaimType : JString :=
  u "https://github.com/private-compute-infra-toolkit/public-endorsement-service/blob/main/docs/claims/workload.md"

def workloadIdKey : JString := u "workload_id"

/-- `annotations == null || annotations.get(key) == null`. -/
def lacks (annotations : Option Annotations) (key : JString) : Bool :=
  (annotations.bind (fun map => map.get key)).isNone

end Claim

/-- A claim with the annotation its type calls for. -/
structure Claim where
  type : JString
  annotations : Option Annotations
  publisher : type = Claim.pesClaimPublisherType →
    Claim.lacks annotations Claim.publisherIdKey = false
  workload : type = Claim.workloadClaimType →
    Claim.lacks annotations Claim.workloadIdKey = false

namespace Claim

theorem not_lacks {type key : JString} {annotations : Option Annotations} {t : JString}
    (h : ¬ (type = t ∧ lacks annotations key = true)) (htype : type = t) :
    lacks annotations key = false := by
  simpa using fun hlacks => h ⟨htype, hlacks⟩

def new (type : Option JString) (annotations : Option Annotations) : Except Throwable Claim :=
  match type with
  | none => .error { cls := .illegalArgumentException, message := u "Claim type is null" }
  | some type =>
    if hp : type = pesClaimPublisherType ∧ lacks annotations publisherIdKey = true then .error
      { cls := .illegalArgumentException,
        message := u "Publisher claim needs to have annotations object with publisher_id key!" }
    else if hw : type = workloadClaimType ∧ lacks annotations workloadIdKey = true then .error
      { cls := .illegalArgumentException,
        message := u "Workload claim needs to have annotations object with workload_id key!" }
    else .ok ⟨type, annotations, not_lacks hp, not_lacks hw⟩

/-- `getAnnotations().get(key)`, where there are annotations. -/
def annotated (claim : Claim) (key : JString) : Option JString :=
  claim.annotations.bind (fun map => map.get key)

end Claim

namespace OakPredicate

structure Validity where
  notBefore : Option JString
  notAfter : Option JString

end OakPredicate

structure OakPredicate where
  issuedOn : Option JString
  validity : Option OakPredicate.Validity
  claims : Option (List (Option Claim))

structure ResourceDescriptor where
  name : Option JString
  digest : Option Annotations

structure InTotoStatement where
  subject : Option ResourceDescriptor
  predicate : Option OakPredicate

namespace InTotoStatement

def inTotoV1Type : JString := u "https://in-toto.io/Statement/v1"

def oakPredicateV1Type : JString := u "https://project-oak.github.io/oak/tr/endorsement/v1"

def new (type : Option JString) (subject : Option (List (Option ResourceDescriptor)))
    (predicateType : Option JString) (predicate : Option OakPredicate) :
    Except Throwable InTotoStatement :=
  match type with
  | none => .error
    { cls := .illegalArgumentException, message := u "Field '_type' cannot be null!" }
  | some type =>
    if type ≠ inTotoV1Type then .error
      { cls := .illegalArgumentException,
        message := u "Statement _type is not '" ++ inTotoV1Type ++ u "'. Got: " ++ type }
    else match predicateType with
      | none => .error
        { cls := .illegalArgumentException, message := u "Field 'predicateType' cannot be null!" }
      | some predicateType =>
        if predicateType ≠ oakPredicateV1Type then .error
          { cls := .illegalArgumentException,
            message := u "Statement predicateType is not '" ++ oakPredicateV1Type ++
              u "'. Got: " ++ predicateType }
        else match subject with
          | some [resource] => .ok ⟨resource, predicate⟩
          | _ => .error
            { cls := .illegalArgumentException,
              message := u "The 'subject' array must be not empty and include exactly one resource descriptor." }

end InTotoStatement

/-! ## Reading

Where a constructor throws, Jackson throws an exception of its own: `none`. -/

def ClaimNode.read (node : ClaimNode) : Option Claim := do
  let type ← node.type.required
  (Claim.new type node.annotations.argument).toOption

def ValidityNode.read (node : ValidityNode) : Option OakPredicate.Validity := do
  let notBefore ← node.notBefore.required
  let notAfter ← node.notAfter.required
  return ⟨notBefore, notAfter⟩

def PredicateNode.read (node : PredicateNode) : Option OakPredicate := do
  let issuedOn ← node.issuedOn.required
  let validityNode ← node.validity.required
  let validity ← validityNode.mapM ValidityNode.read
  let claims ← node.claims.argument.mapM (readElements ClaimNode.read)
  return ⟨issuedOn, validity, claims⟩

def ResourceNode.read (node : ResourceNode) : Option ResourceDescriptor :=
  some ⟨node.name.argument, node.digest.argument⟩

def StatementNode.read (node : StatementNode) : Option InTotoStatement := do
  let type ← node.type.required
  let subjectNodes ← node.subject.required
  let subject ← subjectNodes.mapM (readElements ResourceNode.read)
  let predicateType ← node.predicateType.required
  let predicateNode ← node.predicate.required
  let predicate ← predicateNode.mapM PredicateNode.read
  (InTotoStatement.new type subject predicateType predicate).toOption

/-! ## The provider -/

namespace JsonIntotoEndorsementMetadataProvider

variable (reader : JacksonReader)

/-- `reader.readValue(bytes)`: `none` for `null`. -/
def readValue (statementBytes : Bytes) : Except Throwable (Option InTotoStatement) :=
  (reader.readTree statementBytes).bind (fun tree => match tree with
    | none => .ok none
    | some node => match node.read with
      | some statement => .ok (some statement)
      | none => .error { cls := .ioException, message := reader.failureMessage statementBytes })

def parseStatement (statementBytes : Bytes) : Except Throwable (Option InTotoStatement) :=
  tryCatch (readValue reader statementBytes) (fun e =>
    if e.instanceOf .ioException then .error
      { cls := .illegalArgumentException,
        message := u "Failed to parse input as JSON: " ++ e.message }
    else .error e)

/-- What a call on `null` throws. -/
def nullPointer : Throwable := { cls := .nullPointerException }

def notNull {α : Type} : Option α → Except Throwable α
  | some a => .ok a
  | none => .error nullPointer

/-- The claims of this type; a `null` among the claims ends the search. -/
def claimsOfType (type : JString) (claims : List (Option Claim)) : Except Throwable (List Claim) := do
  let claims ← claims.mapM notNull
  return claims.filter (fun claim => claim.type = type)

def notOneClaim (kind : JString) (found : Nat) : Throwable :=
  { cls := .runtimeException,
    message := u "Expected exactly one " ++ kind ++ u " claim, but found: " ++ natToString found }

/-- `claims.get(0)`, of which there must be one. -/
def exactlyOne (kind : JString) (claims : List Claim) : Except Throwable Claim :=
  match claims with
  | [claim] => .ok claim
  | _ => .error (notOneClaim kind claims.length)

def extractAnnotations (statementBytes : Bytes) : Except Throwable EndorsementAnnotations := do
  let statement ← (← parseStatement reader statementBytes) |> notNull
  let predicate ← notNull statement.predicate
  let claims ← notNull predicate.claims
  let publisherClaims ← claimsOfType Claim.pesClaimPublisherType claims
  let publisherClaim ← exactlyOne (u "publisher") publisherClaims
  let workloadClaims ← claimsOfType Claim.workloadClaimType claims
  let workloadClaim ← exactlyOne (u "workload") workloadClaims
  let publisherId ← notNull (publisherClaim.annotated Claim.publisherIdKey)
  let workloadId ← notNull (workloadClaim.annotated Claim.workloadIdKey)
  return ⟨publisherId, workloadId⟩

def defaultAnnotations : EndorsementAnnotations :=
  ⟨u "default_publisher_id@example.com", u "default_workload_id"⟩

def getAnnotations (statementBytes : Bytes) : Except Throwable EndorsementAnnotations :=
  tryCatch (extractAnnotations reader statementBytes) (fun e =>
    if e.instanceOf .exception then .ok defaultAnnotations else .error e)

def incorrectValidity : Throwable :=
  { cls := .illegalArgumentException,
    message := u "Endorsement does not contain correct validity format" }

/-- `Instant.parse(text)`, under the `catch` clause of `getValidity`. -/
def parseInstant (text : Option JString) : Except Throwable Instant :=
  match text with
  | none => .error nullPointer
  | some text => match reader.parseInstant text with
    | some instant => .ok instant
    | none => .error incorrectValidity

def getValidity (statementBytes : Bytes) : Except Throwable Validity := do
  let statement ← (← parseStatement reader statementBytes) |> notNull
  let predicate ← notNull statement.predicate
  let validity ← notNull predicate.validity
  let notBefore ← parseInstant reader validity.notBefore
  let notAfter ← parseInstant reader validity.notAfter
  return ⟨notBefore, notAfter⟩

end JsonIntotoEndorsementMetadataProvider

/-! ## Documents that are endorsements -/

/-- A claim with a type, and with the annotation that the type calls for. -/
def ClaimNode.WellFormed (node : ClaimNode) : Prop :=
  ∃ type, node.type = .value type ∧
    (type = Claim.pesClaimPublisherType →
      Claim.lacks node.annotations.argument Claim.publisherIdKey = false) ∧
    (type = Claim.workloadClaimType →
      Claim.lacks node.annotations.argument Claim.workloadIdKey = false)

structure PredicateNode.WellFormed (node : PredicateNode) : Prop where
  issuedOn : node.issuedOn ≠ .absent
  validity : node.validity ≠ .absent
  bounds : ∀ period, node.validity = .value period →
    period.notBefore ≠ .absent ∧ period.notAfter ≠ .absent
  claims : ∀ claims, node.claims = .value claims → ∀ claim, some claim ∈ claims → claim.WellFormed

structure StatementNode.WellFormed (node : StatementNode) : Prop where
  type : node.type = .value InTotoStatement.inTotoV1Type
  subject : ∃ resource, node.subject = .value [resource]
  predicateType : node.predicateType = .value InTotoStatement.oakPredicateV1Type
  predicate : node.predicate ≠ .absent
  predicate_wellFormed : ∀ predicate, node.predicate = .value predicate → predicate.WellFormed

/-- Of the claims, none of which is `null`, exactly one has the type, and its annotation under
the key is `id`. -/
def OneClaim (claims : List ClaimNode) (type key id : JString) : Prop :=
  ∃ claim, claims.filter (fun node => node.type = .value type) = [claim] ∧
    claim.annotations.argument.bind (fun map => map.get key) = some id

/-- The statement claims one publisher and one workload. -/
def StatementNode.Endorses (node : StatementNode) (publisherId workloadId : JString) : Prop :=
  ∃ predicate claims, node.predicate = .value predicate ∧
    predicate.claims = .value (claims.map some) ∧
    OneClaim claims Claim.pesClaimPublisherType Claim.publisherIdKey publisherId ∧
    OneClaim claims Claim.workloadClaimType Claim.workloadIdKey workloadId

/-- The period of the statement, as two instants. -/
def StatementNode.Covers (reader : JacksonReader) (node : StatementNode) (validity : Validity) :
    Prop :=
  ∃ predicate period notBefore notAfter, node.predicate = .value predicate ∧
    predicate.validity = .value period ∧ period.notBefore = .value notBefore ∧
    period.notAfter = .value notAfter ∧
    reader.parseInstant notBefore = some validity.notBefore ∧
    reader.parseInstant notAfter = some validity.notAfter

/-! ## Which documents are read -/

section
variable {α β : Type}

theorem isSome_readElements {read : α → Option β} {l : List (Option α)} :
    (readElements read l).isSome ↔ ∀ a, some a ∈ l → (read a).isSome := by
  induction l with
  | nil => simp [readElements]
  | cons element l ih =>
    cases element with
    | none => simp [readElements, ih]
    | some a =>
      cases ha : read a with
      | none => simp [readElements, ha]
      | some b => simp [readElements, ha, ih]

/-- No element is `null` where none was read. -/
theorem readElements_eq_map_some {read : α → Option β} {l : List (Option α)} {l' : List β} :
    readElements read l = some (l'.map some) ↔
      ∃ nodes, l = nodes.map some ∧ List.Forall₂ (fun a b => read a = some b) nodes l' := by
  induction l generalizing l' with
  | nil => cases l' <;> simp [readElements]
  | cons element l ih =>
    cases element with
    | none =>
      have hnull : ∀ nodes : List α, none :: l ≠ nodes.map some := by
        intro nodes
        cases nodes <;> simp
      cases l' <;> simp [readElements, hnull]
    | some a =>
      cases l' with
      | nil => simp [readElements, Option.bind_eq_some_iff]
      | cons b l' =>
        simp only [readElements, List.map_cons, Option.bind_eq_some_iff, Option.map_eq_some_iff,
          List.cons.injEq, Option.some.injEq]
        refine ⟨fun h => ?_, fun h => ?_⟩
        · obtain ⟨b', ha, rest, hrest, rfl, rfl⟩ := h
          obtain ⟨nodes, rfl, hnodes⟩ := ih.mp hrest
          exact ⟨a :: nodes, rfl, .cons ha hnodes⟩
        · obtain ⟨nodes, hl, hnodes⟩ := h
          cases hnodes with
          | @cons a' _ nodes _ ha hrest =>
            obtain ⟨haa, rfl⟩ := List.cons.inj hl
            rw [Option.some.inj haa]
            exact ⟨b, ha, l'.map some, ih.mpr ⟨nodes, rfl, hrest⟩, rfl, rfl⟩

theorem exists_forall₂_read {read : α → Option β} {l : List α} (h : ∀ a ∈ l, (read a).isSome) :
    ∃ l', List.Forall₂ (fun a b => read a = some b) l l' := by
  induction l with
  | nil => exact ⟨[], .nil⟩
  | cons a l ih =>
    rw [List.forall_mem_cons] at h
    obtain ⟨b, hb⟩ := Option.isSome_iff_exists.mp h.1
    obtain ⟨l', hl'⟩ := ih h.2
    exact ⟨b :: l', .cons hb hl'⟩

end

theorem Claim.new_eq_ok {type : Option JString} {annotations : Option Annotations}
    {claim : Claim} : Claim.new type annotations = .ok claim ↔
      type = some claim.type ∧ annotations = claim.annotations := by
  cases type with
  | none => simp [Claim.new]
  | some type =>
    unfold Claim.new
    refine ⟨fun h => ?_, fun h => ?_⟩
    · simp only at h
      split_ifs at h with hp hw
      rw [← Except.ok.inj h]
      exact ⟨rfl, rfl⟩
    · obtain ⟨htype, rfl⟩ := h
      obtain rfl := Option.some.inj htype
      have hp : ¬ (claim.type = Claim.pesClaimPublisherType ∧
          Claim.lacks claim.annotations Claim.publisherIdKey = true) := by
        intro hlacks
        simpa [claim.publisher hlacks.1] using hlacks.2
      have hw : ¬ (claim.type = Claim.workloadClaimType ∧
          Claim.lacks claim.annotations Claim.workloadIdKey = true) := by
        intro hlacks
        simpa [claim.workload hlacks.1] using hlacks.2
      simp only [dif_neg hp, dif_neg hw]

theorem ClaimNode.read_eq_some {node : ClaimNode} {claim : Claim} :
    node.read = some claim ↔
      node.type = .value claim.type ∧ node.annotations.argument = claim.annotations := by
  cases htype : node.type with
  | absent => simp [ClaimNode.read, htype, Property.required]
  | null => simp [ClaimNode.read, htype, Property.required, Claim.new, Except.toOption]
  | value type =>
    have hread : node.read = (Claim.new (some type) node.annotations.argument).toOption := by
      simp [ClaimNode.read, htype, Property.required]
    have hnew := @Claim.new_eq_ok (some type) node.annotations.argument claim
    rw [hread, ← Option.mem_def, Property.value.injEq]
    cases hc : Claim.new (some type) node.annotations.argument with
    | error e => simpa [Except.toOption, hc] using hnew
    | ok claim' => simpa [Except.toOption, hc] using hnew

theorem ClaimNode.isSome_read {node : ClaimNode} : node.read.isSome ↔ node.WellFormed := by
  rw [Option.isSome_iff_exists]
  refine ⟨fun h => ?_, fun h => ?_⟩
  · obtain ⟨claim, hclaim⟩ := h
    obtain ⟨htype, hannotations⟩ := ClaimNode.read_eq_some.mp hclaim
    rw [ClaimNode.WellFormed, hannotations]
    exact ⟨claim.type, htype, claim.publisher, claim.workload⟩
  · obtain ⟨type, htype, hpublisher, hworkload⟩ := h
    exact ⟨⟨type, node.annotations.argument, hpublisher, hworkload⟩,
      ClaimNode.read_eq_some.mpr ⟨htype, rfl⟩⟩

theorem ValidityNode.isSome_read {node : ValidityNode} :
    node.read.isSome ↔ node.notBefore ≠ .absent ∧ node.notAfter ≠ .absent := by
  cases hb : node.notBefore <;> cases ha : node.notAfter <;>
    simp [ValidityNode.read, hb, ha, Property.required]

theorem ValidityNode.read_eq_some {node : ValidityNode} {period : OakPredicate.Validity} :
    node.read = some period ↔ node.notBefore.required = some period.notBefore ∧
      node.notAfter.required = some period.notAfter := by
  simp only [ValidityNode.read, bind, pure, Option.bind_eq_some_iff]
  refine ⟨fun h => ?_, fun h => ?_⟩
  · obtain ⟨notBefore, hfrom, notAfter, hto, heq⟩ := h
    rw [← Option.some.inj heq]
    exact ⟨hfrom, hto⟩
  · exact ⟨_, h.1, _, h.2, rfl⟩

theorem isSome_mapM {α β : Type} {read : α → Option β} {o : Option α} :
    (o.mapM read).isSome ↔ ∀ a, o = some a → (read a).isSome := by
  cases o with
  | none => simp
  | some a => cases h : read a <;> simp [h]

theorem mapM_eq_some_some {α β : Type} {read : α → Option β} {o : Option α} {b : β} :
    o.mapM read = some (some b) ↔ ∃ a, o = some a ∧ read a = some b := by
  cases o with
  | none => simp
  | some a => cases h : read a <;> simp [h]

theorem PredicateNode.read_eq_some {node : PredicateNode} {predicate : OakPredicate} :
    node.read = some predicate ↔
      node.issuedOn.required = some predicate.issuedOn ∧
      (∃ period, node.validity.required = some period ∧
        period.mapM ValidityNode.read = some predicate.validity) ∧
      node.claims.argument.mapM (readElements ClaimNode.read) = some predicate.claims := by
  simp only [PredicateNode.read, bind, pure, Option.bind_eq_some_iff]
  refine ⟨fun h => ?_, fun h => ?_⟩
  · obtain ⟨issuedOn, hissued, period, hperiod, validity, hvalidity, claims, hclaims, heq⟩ := h
    rw [← Option.some.inj heq]
    exact ⟨hissued, ⟨period, hperiod, hvalidity⟩, hclaims⟩
  · obtain ⟨hissued, ⟨period, hperiod, hvalidity⟩, hclaims⟩ := h
    exact ⟨_, hissued, period, hperiod, _, hvalidity, _, hclaims, rfl⟩

theorem PredicateNode.isSome_read {node : PredicateNode} : node.read.isSome ↔ node.WellFormed := by
  refine ⟨fun h => ?_, fun h => ?_⟩
  · obtain ⟨predicate, hread⟩ := Option.isSome_iff_exists.mp h
    obtain ⟨hissued, ⟨period, hperiod, hvalidity⟩, hclaims⟩ := PredicateNode.read_eq_some.mp hread
    obtain ⟨hpresent, rfl⟩ := Property.required_eq_some.mp hperiod
    have hbounds := isSome_mapM.mp (Option.isSome_of_mem hvalidity)
    have hall := isSome_mapM.mp (Option.isSome_of_mem hclaims)
    exact
      { issuedOn := (Property.required_eq_some.mp hissued).1
        validity := hpresent
        bounds := fun period hvalue =>
          ValidityNode.isSome_read.mp (hbounds period (Property.argument_eq_some.mpr hvalue))
        claims := fun claims hvalue claim hmem => ClaimNode.isSome_read.mp
          (isSome_readElements.mp (hall claims (Property.argument_eq_some.mpr hvalue)) claim hmem) }
  · have hvalidity : (node.validity.argument.mapM ValidityNode.read).isSome :=
      isSome_mapM.mpr (fun period hperiod =>
        ValidityNode.isSome_read.mpr (h.bounds period (Property.argument_eq_some.mp hperiod)))
    have hclaims : (node.claims.argument.mapM (readElements ClaimNode.read)).isSome :=
      isSome_mapM.mpr (fun claims hvalue => isSome_readElements.mpr (fun claim hmem =>
        ClaimNode.isSome_read.mpr (h.claims claims (Property.argument_eq_some.mp hvalue) claim hmem)))
    obtain ⟨validity, hvalidity⟩ := Option.isSome_iff_exists.mp hvalidity
    obtain ⟨claims, hclaims⟩ := Option.isSome_iff_exists.mp hclaims
    refine Option.isSome_iff_exists.mpr ⟨⟨node.issuedOn.argument, validity, claims⟩, ?_⟩
    exact PredicateNode.read_eq_some.mpr
      ⟨Property.required_eq_some.mpr ⟨h.issuedOn, rfl⟩,
        ⟨_, Property.required_eq_some.mpr ⟨h.validity, rfl⟩, hvalidity⟩, hclaims⟩

theorem InTotoStatement.new_eq_ok {type predicateType : Option JString}
    {subject : Option (List (Option ResourceDescriptor))} {predicate : Option OakPredicate}
    {statement : InTotoStatement} :
    InTotoStatement.new type subject predicateType predicate = .ok statement ↔
      type = some inTotoV1Type ∧ predicateType = some oakPredicateV1Type ∧
        subject = some [statement.subject] ∧ predicate = statement.predicate := by
  unfold InTotoStatement.new
  refine ⟨fun h => ?_, fun h => ?_⟩
  · split at h
    · cases h
    · rename_i type
      split_ifs at h with htype
      rw [not_not] at htype
      split at h
      · cases h
      · rename_i predicateType
        split_ifs at h with hpredicateType
        rw [not_not] at hpredicateType
        split at h
        · rw [← Except.ok.inj h, htype, hpredicateType]
          exact ⟨rfl, rfl, rfl, rfl⟩
        · cases h
  · obtain ⟨rfl, rfl, rfl, rfl⟩ := h
    simp

/-- Every resource descriptor is read, a `null` as itself. -/
theorem readElements_resources (nodes : List (Option ResourceNode)) :
    readElements ResourceNode.read nodes =
      some (nodes.map (fun node => node.bind ResourceNode.read)) := by
  induction nodes with
  | nil => rfl
  | cons node nodes ih => cases node <;> simp [readElements, ih, ResourceNode.read]

theorem StatementNode.read_eq_some {node : StatementNode} {statement : InTotoStatement} :
    node.read = some statement ↔
      node.type = .value InTotoStatement.inTotoV1Type ∧
      node.predicateType = .value InTotoStatement.oakPredicateV1Type ∧
      (∃ resource, node.subject = .value [resource] ∧
        statement.subject = resource.bind ResourceNode.read) ∧
      node.predicate ≠ .absent ∧
      node.predicate.argument.mapM PredicateNode.read = some statement.predicate := by
  have hnew : ∀ {type subject predicateType predicate},
      (InTotoStatement.new type subject predicateType predicate).toOption = some statement ↔
        InTotoStatement.new type subject predicateType predicate = .ok statement := by
    intro type subject predicateType predicate
    cases InTotoStatement.new type subject predicateType predicate <;> simp [Except.toOption]
  simp only [StatementNode.read, bind, Option.bind_eq_some_iff, hnew, InTotoStatement.new_eq_ok,
    Property.required_eq_some]
  refine ⟨fun h => ?_, fun h => ?_⟩
  · obtain ⟨type, ⟨-, htype⟩, _, ⟨-, rfl⟩, subject, hsubject, predicateType, ⟨-, hpredicateType⟩, _,
      ⟨hpresent, rfl⟩, predicate, hpredicate, rfl, rfl, rfl, rfl⟩ := h
    refine ⟨Property.argument_eq_some.mp htype, Property.argument_eq_some.mp hpredicateType, ?_,
      hpresent, hpredicate⟩
    cases hnodes : node.subject with
    | absent => simp [hnodes, Property.argument] at hsubject
    | null => simp [hnodes, Property.argument] at hsubject
    | value nodes =>
      simp only [hnodes, Property.argument, Option.mapM_some, readElements_resources,
        Option.map_eq_map, Option.map_some, Option.some.injEq, List.map_eq_singleton_iff] at hsubject
      obtain ⟨resource, rfl, heq⟩ := hsubject
      exact ⟨resource, rfl, heq.symm⟩
  · obtain ⟨htype, hpredicateType, ⟨resource, hsubject, heq⟩, hpresent, hpredicate⟩ := h
    refine ⟨_, ⟨by simp [htype], Property.argument_eq_some.mpr htype⟩, _, ⟨by simp [hsubject], rfl⟩,
      some [statement.subject], ?_, _, ⟨by simp [hpredicateType],
        Property.argument_eq_some.mpr hpredicateType⟩, _, ⟨hpresent, rfl⟩, _, hpredicate, rfl, rfl,
      rfl, rfl⟩
    simp [hsubject, Property.argument, readElements_resources, heq]

theorem StatementNode.isSome_read {node : StatementNode} : node.read.isSome ↔ node.WellFormed := by
  refine ⟨fun h => ?_, fun h => ?_⟩
  · obtain ⟨statement, hread⟩ := Option.isSome_iff_exists.mp h
    obtain ⟨htype, hpredicateType, ⟨resource, hsubject, -⟩, hpresent, hpredicate⟩ :=
      StatementNode.read_eq_some.mp hread
    have hall := isSome_mapM.mp (Option.isSome_of_mem hpredicate)
    exact
      { type := htype
        subject := ⟨resource, hsubject⟩
        predicateType := hpredicateType
        predicate := hpresent
        predicate_wellFormed := fun predicate hvalue => PredicateNode.isSome_read.mp
          (hall predicate (Property.argument_eq_some.mpr hvalue)) }
  · obtain ⟨resource, hsubject⟩ := h.subject
    have hpredicate : (node.predicate.argument.mapM PredicateNode.read).isSome :=
      isSome_mapM.mpr (fun predicate hvalue => PredicateNode.isSome_read.mpr
        (h.predicate_wellFormed predicate (Property.argument_eq_some.mp hvalue)))
    obtain ⟨predicate, hpredicate⟩ := Option.isSome_iff_exists.mp hpredicate
    refine Option.isSome_iff_exists.mpr ⟨⟨resource.bind ResourceNode.read, predicate⟩, ?_⟩
    exact StatementNode.read_eq_some.mpr
      ⟨h.type, h.predicateType, ⟨resource, hsubject, rfl⟩, h.predicate, hpredicate⟩

/-! ## Which ids and which period a document gives -/

namespace JsonIntotoEndorsementMetadataProvider

variable {reader : JacksonReader} {statementBytes : Bytes} {node : StatementNode}

theorem notNull_eq_ok {α : Type} {o : Option α} {a : α} : notNull o = .ok a ↔ o = some a := by
  cases o <;> simp [notNull]

theorem parseStatement_eq_ok (hread : reader.readTree statementBytes = .ok (some node))
    {statement : InTotoStatement} :
    parseStatement reader statementBytes = .ok (some statement) ↔ node.read = some statement := by
  unfold parseStatement
  rw [except_tryCatch_eq_ok (by intro e; split <;> simp)]
  cases hnode : node.read <;> simp [readValue, hread, Except.bind, hnode]

/-- A `null` among the claims ends the search. -/
theorem mapM_notNull_eq_ok {α : Type} {l : List (Option α)} {l' : List α} :
    l.mapM notNull = .ok l' ↔ l = l'.map some := by
  induction l generalizing l' with
  | nil => cases l' <;> simp [pure, Except.pure]
  | cons o l ih =>
    rw [List.mapM_cons]
    simp only [except_bind_eq_ok, notNull_eq_ok, ih]
    cases l' with
    | nil => simp [pure, Except.pure]
    | cons a l' => simp [pure, Except.pure]

theorem claimsOfType_eq_ok {type : JString} {claims : List (Option Claim)} {found : List Claim} :
    claimsOfType type claims = .ok found ↔ ∃ all : List Claim, claims = all.map some ∧
      found = all.filter (fun claim => claim.type = type) := by
  simp only [claimsOfType, except_bind_eq_ok, mapM_notNull_eq_ok, pure, Except.pure,
    Except.ok.injEq]
  exact exists_congr (fun all => and_congr_right (fun _ => eq_comm))

theorem exactlyOne_eq_ok {kind : JString} {claims : List Claim} {claim : Claim} :
    exactlyOne kind claims = .ok claim ↔ claims = [claim] := by
  unfold exactlyOne
  split
  · simp
  · rename_i hne
    simp only [reduceCtorEq, false_iff]
    exact fun h => hne claim h

/-- The ids that the claims of a statement give. -/
theorem extractAnnotations_eq_ok {publisherId workloadId : JString} :
    extractAnnotations reader statementBytes = .ok ⟨publisherId, workloadId⟩ ↔
      ∃ statement, parseStatement reader statementBytes = .ok (some statement) ∧
      ∃ predicate, statement.predicate = some predicate ∧ ∃ claims : List Claim,
        predicate.claims = some (claims.map some) ∧
        (∃ claim, claims.filter (fun claim => claim.type = Claim.pesClaimPublisherType) = [claim] ∧
          claim.annotated Claim.publisherIdKey = some publisherId) ∧
        (∃ claim, claims.filter (fun claim => claim.type = Claim.workloadClaimType) = [claim] ∧
          claim.annotated Claim.workloadIdKey = some workloadId) := by
  simp only [extractAnnotations, except_bind_eq_ok, notNull_eq_ok, claimsOfType_eq_ok,
    exactlyOne_eq_ok, Except.ok.injEq, pure, Except.pure, EndorsementAnnotations.mk.injEq]
  refine ⟨fun h => ?_, fun h => ?_⟩
  · obtain ⟨_, hparse, statement, rfl, predicate, hpredicate, _, hclaims, _, ⟨claims, rfl, rfl⟩,
      publisher, hpublisher, _, ⟨claims', hsame, rfl⟩, workload, hworkload, id, hid, id', hid', rfl,
      rfl⟩ := h
    obtain rfl : claims = claims' := List.map_injective_iff.mpr (Option.some_injective _) hsame
    exact ⟨statement, hparse, predicate, hpredicate, claims, hclaims, ⟨publisher, hpublisher, hid⟩,
      ⟨workload, hworkload, hid'⟩⟩
  · obtain ⟨statement, hparse, predicate, hpredicate, claims, hclaims, ⟨publisher, hpublisher, hid⟩,
      workload, hworkload, hid'⟩ := h
    exact ⟨_, hparse, statement, rfl, predicate, hpredicate, _, hclaims, _, ⟨claims, rfl, rfl⟩,
      publisher, hpublisher, _, ⟨claims, rfl, rfl⟩, workload, hworkload, _, hid, _, hid', rfl, rfl⟩

end JsonIntotoEndorsementMetadataProvider

/-- The claims of one type, among what was read and among what it was read from. -/
theorem oneClaim_iff {nodes : List ClaimNode} {claims : List Claim}
    (hread : List.Forall₂ (fun node claim => node.read = some claim) nodes claims)
    {type key id : JString} :
    (∃ claim, claims.filter (fun claim => claim.type = type) = [claim] ∧
      claim.annotated key = some id) ↔ OneClaim nodes type key id := by
  have htype : ∀ ⦃node : ClaimNode⦄ ⦃claim : Claim⦄, node.read = some claim →
      (decide (node.type = .value type) = true ↔ decide (claim.type = type) = true) := by
    intro node claim h
    rw [(ClaimNode.read_eq_some.mp h).1]
    simp
  have hfilter : List.Forall₂ (fun node claim => node.read = some claim)
      (nodes.filter (fun node => node.type = .value type))
      (claims.filter (fun claim => claim.type = type)) := List.rel_filter htype hread
  have hid : ∀ {node : ClaimNode} {claim : Claim}, node.read = some claim →
      node.annotations.argument.bind (fun map => map.get key) = claim.annotated key := by
    intro node claim h
    rw [(ClaimNode.read_eq_some.mp h).2]
    rfl
  unfold OneClaim
  refine ⟨fun h => ?_, fun h => ?_⟩
  · obtain ⟨claim, hclaims, hkey⟩ := h
    rw [hclaims] at hfilter
    obtain ⟨node, _, hnode, hnil, hnodes⟩ := List.forall₂_cons_right_iff.mp hfilter
    rw [List.forall₂_nil_right_iff.mp hnil] at hnodes
    exact ⟨node, hnodes, (hid hnode).trans hkey⟩
  · obtain ⟨node, hnodes, hkey⟩ := h
    rw [hnodes] at hfilter
    obtain ⟨claim, _, hnode, hnil, hclaims⟩ := List.forall₂_cons_left_iff.mp hfilter
    rw [List.forall₂_nil_left_iff.mp hnil] at hclaims
    exact ⟨claim, hclaims, (hid hnode).symm.trans hkey⟩

namespace JsonIntotoEndorsementMetadataProvider

variable {reader : JacksonReader} {statementBytes : Bytes}

/-- The bytes are an endorsement of this publisher's workload. -/
def Endorsed (reader : JacksonReader) (statementBytes : Bytes) (publisherId workloadId : JString) :
    Prop :=
  ∃ node, reader.readTree statementBytes = .ok (some node) ∧ node.WellFormed ∧
    node.Endorses publisherId workloadId

theorem parseStatement_eq_ok_some {statement : InTotoStatement} :
    parseStatement reader statementBytes = .ok (some statement) ↔
      ∃ node, reader.readTree statementBytes = .ok (some node) ∧ node.read = some statement := by
  refine ⟨fun h => ?_, fun h => ?_⟩
  · cases htree : reader.readTree statementBytes with
    | error e =>
      rw [parseStatement, except_tryCatch_eq_ok (by intro e; split <;> simp), readValue, htree] at h
      cases h
    | ok tree =>
      cases tree with
      | none =>
        rw [parseStatement, except_tryCatch_eq_ok (by intro e; split <;> simp), readValue, htree] at h
        cases h
      | some node => exact ⟨node, rfl, (parseStatement_eq_ok htree).mp h⟩
  · obtain ⟨node, htree, hread⟩ := h
    exact (parseStatement_eq_ok htree).mpr hread

theorem read_predicate {node : StatementNode} {statement : InTotoStatement}
    (hread : node.read = some statement) {predicate : OakPredicate} :
    statement.predicate = some predicate ↔
      ∃ predicateNode, node.predicate = .value predicateNode ∧
        predicateNode.read = some predicate := by
  obtain ⟨-, -, -, -, hpredicate⟩ := StatementNode.read_eq_some.mp hread
  refine ⟨fun h => ?_, fun h => ?_⟩
  · rw [h] at hpredicate
    obtain ⟨predicateNode, hnode, hreadNode⟩ := mapM_eq_some_some.mp hpredicate
    exact ⟨predicateNode, Property.argument_eq_some.mp hnode, hreadNode⟩
  · obtain ⟨predicateNode, hnode, hreadNode⟩ := h
    have hsome := mapM_eq_some_some.mpr ⟨_, Property.argument_eq_some.mpr hnode, hreadNode⟩
    exact Option.some.inj (hpredicate.symm.trans hsome)

theorem read_claims {node : PredicateNode} {predicate : OakPredicate}
    (hread : node.read = some predicate) {claims : List Claim} :
    predicate.claims = some (claims.map some) ↔
      ∃ nodes, node.claims = .value (nodes.map some) ∧
        List.Forall₂ (fun node claim => node.read = some claim) nodes claims := by
  obtain ⟨-, -, hclaims⟩ := PredicateNode.read_eq_some.mp hread
  refine ⟨fun h => ?_, fun h => ?_⟩
  · rw [h] at hclaims
    obtain ⟨elements, helements, hall⟩ := mapM_eq_some_some.mp hclaims
    obtain ⟨nodes, rfl, hnodes⟩ := readElements_eq_map_some.mp hall
    exact ⟨nodes, Property.argument_eq_some.mp helements, hnodes⟩
  · obtain ⟨nodes, helements, hnodes⟩ := h
    have hsome := mapM_eq_some_some.mpr ⟨_, Property.argument_eq_some.mpr helements,
      readElements_eq_map_some.mpr ⟨nodes, rfl, hnodes⟩⟩
    exact Option.some.inj (hclaims.symm.trans hsome)

theorem read_validity {node : PredicateNode} {predicate : OakPredicate}
    (hread : node.read = some predicate) {period : OakPredicate.Validity} :
    predicate.validity = some period ↔
      ∃ periodNode, node.validity = .value periodNode ∧ periodNode.read = some period := by
  obtain ⟨-, ⟨argument, hrequired, hvalidity⟩, -⟩ := PredicateNode.read_eq_some.mp hread
  obtain ⟨-, rfl⟩ := Property.required_eq_some.mp hrequired
  refine ⟨fun h => ?_, fun h => ?_⟩
  · rw [h] at hvalidity
    obtain ⟨periodNode, hnode, hreadNode⟩ := mapM_eq_some_some.mp hvalidity
    exact ⟨periodNode, Property.argument_eq_some.mp hnode, hreadNode⟩
  · obtain ⟨periodNode, hnode, hreadNode⟩ := h
    have hsome := mapM_eq_some_some.mpr ⟨_, Property.argument_eq_some.mpr hnode, hreadNode⟩
    exact Option.some.inj (hvalidity.symm.trans hsome)

theorem extractAnnotations_iff {publisherId workloadId : JString} :
    extractAnnotations reader statementBytes = .ok ⟨publisherId, workloadId⟩ ↔
      Endorsed reader statementBytes publisherId workloadId := by
  rw [extractAnnotations_eq_ok]
  refine ⟨fun h => ?_, fun h => ?_⟩
  · obtain ⟨statement, hparse, predicate, hpredicate, claims, hclaims, hpublisher, hworkload⟩ := h
    obtain ⟨node, htree, hread⟩ := parseStatement_eq_ok_some.mp hparse
    obtain ⟨predicateNode, hnode, hreadNode⟩ := (read_predicate hread).mp hpredicate
    obtain ⟨nodes, helements, hnodes⟩ := (read_claims hreadNode).mp hclaims
    refine ⟨node, htree, StatementNode.isSome_read.mp (Option.isSome_of_mem hread), ?_⟩
    exact ⟨predicateNode, nodes, hnode, helements, (oneClaim_iff hnodes).mp hpublisher,
      (oneClaim_iff hnodes).mp hworkload⟩
  · obtain ⟨node, htree, hwf, predicateNode, nodes, hnode, helements, hpublisher, hworkload⟩ := h
    obtain ⟨statement, hread⟩ := Option.isSome_iff_exists.mp (StatementNode.isSome_read.mpr hwf)
    have hsome : ∀ claim ∈ nodes, claim.read.isSome := fun claim hmem =>
      ClaimNode.isSome_read.mpr ((hwf.predicate_wellFormed _ hnode).claims _ helements claim
        (List.mem_map_of_mem hmem))
    obtain ⟨claims, hnodes⟩ := exists_forall₂_read hsome
    obtain ⟨predicate, hreadNode⟩ := Option.isSome_iff_exists.mp
      (PredicateNode.isSome_read.mpr (hwf.predicate_wellFormed _ hnode))
    exact ⟨statement, parseStatement_eq_ok_some.mpr ⟨node, htree, hread⟩, predicate,
      (read_predicate hread).mpr ⟨predicateNode, hnode, hreadNode⟩, claims,
      (read_claims hreadNode).mpr ⟨nodes, helements, hnodes⟩,
      (oneClaim_iff hnodes).mpr hpublisher, (oneClaim_iff hnodes).mpr hworkload⟩

/-- What `p` throws is an exception, not an error. -/
def ThrowsException {α : Type} (p : Except Throwable α) : Prop :=
  ∀ e, p = .error e → e.instanceOf .exception

theorem ThrowsException.bind {α β : Type} {p : Except Throwable α} {f : α → Except Throwable β}
    (hp : ThrowsException p) (hf : ∀ a, ThrowsException (f a)) : ThrowsException (p >>= f) := by
  cases p with
  | error e => exact fun e' h => hp e' (congrArg Except.error (Except.error.inj h))
  | ok a => exact hf a

theorem throwsException_notNull {α : Type} (o : Option α) : ThrowsException (notNull o) := by
  intro e h
  cases o with
  | some a => cases h
  | none =>
    rw [← Except.error.inj h]
    decide

theorem throwsException_exactlyOne (kind : JString) (claims : List Claim) :
    ThrowsException (exactlyOne kind claims) := by
  intro e h
  unfold exactlyOne at h
  split at h
  · cases h
  · rw [← Except.error.inj h]
    rfl

theorem throwsException_mapM_notNull {α : Type} (l : List (Option α)) :
    ThrowsException (l.mapM notNull) := by
  induction l with
  | nil => intro e h; cases h
  | cons o l ih =>
    rw [List.mapM_cons]
    exact (throwsException_notNull o).bind (fun a => ih.bind (fun l' e h => by cases h))

theorem throwsException_claimsOfType (type : JString) (claims : List (Option Claim)) :
    ThrowsException (claimsOfType type claims) :=
  (throwsException_mapM_notNull claims).bind (fun all e h => by cases h)

theorem throwsException_parseStatement
    (hread : ThrowsException (reader.readTree statementBytes)) :
    ThrowsException (parseStatement reader statementBytes) := by
  intro e h
  unfold parseStatement at h
  cases hvalue : readValue reader statementBytes with
  | ok statement => rw [hvalue] at h; cases h
  | error e' =>
    have hexception : e'.instanceOf .exception := by
      unfold readValue at hvalue
      cases htree : reader.readTree statementBytes with
      | error e'' =>
        rw [htree] at hvalue
        rw [← Except.error.inj hvalue]
        exact hread e'' htree
      | ok tree =>
        simp only [htree, Except.bind] at hvalue
        split at hvalue
        · cases hvalue
        · split at hvalue
          · cases hvalue
          · rw [← Except.error.inj hvalue]
            rfl
    simp only [hvalue, tryCatch, tryCatchThe, MonadExceptOf.tryCatch, Except.tryCatch] at h
    split at h
    · rw [← Except.error.inj h]
      rfl
    · rw [← Except.error.inj h]
      exact hexception

theorem throwsException_extractAnnotations
    (hread : ThrowsException (reader.readTree statementBytes)) :
    ThrowsException (extractAnnotations reader statementBytes) := by
  refine (throwsException_parseStatement hread).bind (fun statement => ?_)
  refine (throwsException_notNull _).bind (fun statement => ?_)
  refine (throwsException_notNull _).bind (fun predicate => ?_)
  refine (throwsException_notNull _).bind (fun claims => ?_)
  refine (throwsException_claimsOfType _ _).bind (fun publisherClaims => ?_)
  refine (throwsException_exactlyOne _ _).bind (fun publisherClaim => ?_)
  refine (throwsException_claimsOfType _ _).bind (fun workloadClaims => ?_)
  refine (throwsException_exactlyOne _ _).bind (fun workloadClaim => ?_)
  refine (throwsException_notNull _).bind (fun publisherId => ?_)
  exact (throwsException_notNull _).bind (fun workloadId e h => by cases h)

/-- The ids of the claims if the statement makes the two of them, else those of the default
workload. -/
theorem getAnnotations_eq_ok (hread : ThrowsException (reader.readTree statementBytes))
    {annotations : EndorsementAnnotations} :
    getAnnotations reader statementBytes = .ok annotations ↔
      Endorsed reader statementBytes annotations.publisherId annotations.workloadId ∨
        (¬ ∃ publisherId workloadId, Endorsed reader statementBytes publisherId workloadId) ∧
          annotations = defaultAnnotations := by
  unfold getAnnotations
  cases hextract : extractAnnotations reader statementBytes with
  | ok found =>
    have hfound := extractAnnotations_iff.mp hextract
    refine ⟨fun h => .inl (by rw [← Except.ok.inj h]; exact hfound), fun h => ?_⟩
    rcases h with h | h
    · rw [← extractAnnotations_iff.mpr h, hextract]
      rfl
    · exact absurd ⟨_, _, hfound⟩ h.1
  | error e =>
    have hnone : ¬ ∃ publisherId workloadId,
        Endorsed reader statementBytes publisherId workloadId := by
      intro h
      obtain ⟨publisherId, workloadId, h⟩ := h
      rw [extractAnnotations_iff.mpr h] at hextract
      cases hextract
    have hexception := throwsException_extractAnnotations hread e hextract
    simp only [tryCatch, tryCatchThe, MonadExceptOf.tryCatch, Except.tryCatch, hexception, if_true,
      Except.ok.injEq]
    refine ⟨fun h => .inr ⟨hnone, h.symm⟩, fun h => ?_⟩
    rcases h with h | h
    · exact absurd ⟨_, _, h⟩ hnone
    · exact h.2.symm

theorem parseInstant_eq_ok {text : Option JString} {instant : Instant} :
    parseInstant reader text = .ok instant ↔
      ∃ s, text = some s ∧ reader.parseInstant s = some instant := by
  cases text with
  | none => simp [parseInstant]
  | some s => cases h : reader.parseInstant s <;> simp [parseInstant, h]

/-- A period is only taken from a document that is an endorsement, with both its ends there. -/
theorem getValidity_eq_ok {validity : Validity} :
    getValidity reader statementBytes = .ok validity ↔
      ∃ node, reader.readTree statementBytes = .ok (some node) ∧ node.WellFormed ∧
        node.Covers reader validity := by
  simp only [getValidity, except_bind_eq_ok, notNull_eq_ok, parseInstant_eq_ok, pure, Except.pure,
    Except.ok.injEq]
  refine ⟨fun h => ?_, fun h => ?_⟩
  · obtain ⟨_, hparse, statement, rfl, predicate, hpredicate, period, hperiod, notBefore,
      ⟨s, hs, hnotBefore⟩, notAfter, ⟨t, ht, hnotAfter⟩, rfl⟩ := h
    obtain ⟨node, htree, hread⟩ := parseStatement_eq_ok_some.mp hparse
    obtain ⟨predicateNode, hnode, hreadNode⟩ := (read_predicate hread).mp hpredicate
    obtain ⟨periodNode, hperiodNode, hreadPeriod⟩ := (read_validity hreadNode).mp hperiod
    obtain ⟨hfrom, hto⟩ := ValidityNode.read_eq_some.mp hreadPeriod
    refine ⟨node, htree, StatementNode.isSome_read.mp (Option.isSome_of_mem hread), ?_⟩
    exact ⟨predicateNode, periodNode, s, t, hnode, hperiodNode,
      Property.argument_eq_some.mp ((Property.required_eq_some.mp hfrom).2.trans hs),
      Property.argument_eq_some.mp ((Property.required_eq_some.mp hto).2.trans ht),
      hnotBefore, hnotAfter⟩
  · obtain ⟨node, htree, hwf, predicateNode, periodNode, s, t, hnode, hperiodNode, hfrom, hto,
      hnotBefore, hnotAfter⟩ := h
    obtain ⟨statement, hread⟩ := Option.isSome_iff_exists.mp (StatementNode.isSome_read.mpr hwf)
    obtain ⟨predicate, hreadNode⟩ := Option.isSome_iff_exists.mp
      (PredicateNode.isSome_read.mpr (hwf.predicate_wellFormed _ hnode))
    have hreadPeriod : periodNode.read = some ⟨some s, some t⟩ :=
      ValidityNode.read_eq_some.mpr (by simp [hfrom, hto, Property.required])
    exact ⟨some statement, parseStatement_eq_ok_some.mpr ⟨node, htree, hread⟩, statement, rfl,
      predicate, (read_predicate hread).mpr ⟨predicateNode, hnode, hreadNode⟩, _,
      (read_validity hreadNode).mpr ⟨periodNode, hperiodNode, hreadPeriod⟩, _,
      ⟨s, rfl, hnotBefore⟩, _, ⟨t, rfl, hnotAfter⟩, rfl⟩

/-- What the two getters give for each document: the period of an endorsement or none at all,
and ids always. -/
theorem metadata_eq_ok (hread : ThrowsException (reader.readTree statementBytes)) :
    (∀ annotations, getAnnotations reader statementBytes = .ok annotations ↔
      Endorsed reader statementBytes annotations.publisherId annotations.workloadId ∨
        (¬ ∃ publisherId workloadId, Endorsed reader statementBytes publisherId workloadId) ∧
          annotations = defaultAnnotations) ∧
    ∀ validity, getValidity reader statementBytes = .ok validity ↔
      ∃ node, reader.readTree statementBytes = .ok (some node) ∧ node.WellFormed ∧
        node.Covers reader validity :=
  ⟨fun _ => getAnnotations_eq_ok hread, fun _ => getValidity_eq_ok⟩

/-! A statement that endorses the workload of a publisher for some years. -/

namespace Sample

def issued : JString := u "2023-11-14T22:13:20Z"
def expires : JString := u "2030-03-17T17:46:40Z"

/-- The text of a claim. -/
def claimText (type key value : JString) : JString :=
  u "\x7b\"type\":\"" ++ type ++ u "\",\"annotations\":\x7b\"" ++ key ++ u "\":\"" ++ value ++
    u "\"\x7d\x7d"

def statement : JString :=
  u "\x7b\"_type\":\"" ++ InTotoStatement.inTotoV1Type ++
    u "\",\"subject\":[\x7b\x7d],\"predicateType\":\"" ++ InTotoStatement.oakPredicateV1Type ++
    u "\",\"predicate\":\x7b\"issuedOn\":\"" ++ issued ++
    u "\",\"validity\":\x7b\"notBefore\":\"" ++ issued ++ u "\",\"notAfter\":\"" ++ expires ++
    u "\"\x7d,\"claims\":[" ++
    claimText Claim.pesClaimPublisherType Claim.publisherIdKey (u "role@publisher.example") ++ u "," ++
    claimText Claim.workloadClaimType Claim.workloadIdKey (u "workload") ++ u "]\x7d\x7d"

def rawStatement : Bytes := ⟨statement.map UInt16.toUInt8, by decide +kernel⟩

def claim (type key value : JString) : ClaimNode :=
  ⟨.value type, .value ⟨[(key, some value)], by simp⟩⟩

def node : StatementNode where
  type := .value InTotoStatement.inTotoV1Type
  subject := .value [some ⟨.absent, .absent⟩]
  predicateType := .value InTotoStatement.oakPredicateV1Type
  predicate := .value
    { issuedOn := .value issued
      validity := .value ⟨.value issued, .value expires⟩
      claims := .value [
        some (claim Claim.pesClaimPublisherType Claim.publisherIdKey (u "role@publisher.example")),
        some (claim Claim.workloadClaimType Claim.workloadIdKey (u "workload"))] }

def validity : Validity :=
  ⟨⟨1700000000 * nanosPerSecond, by decide⟩, ⟨1900000000 * nanosPerSecond, by decide⟩⟩

/-- Jackson on the statement, and `Instant.parse` on its two instants. -/
def jackson : JacksonReader where
  readTree bytes := if bytes = rawStatement then .ok (some node)
    else .error { cls := .ioException }
  failureMessage _ := []
  parseInstant text := if text = issued then some validity.notBefore
    else if text = expires then some validity.notAfter else none

end Sample

theorem metadata_of_statement :
    Endorsed Sample.jackson Sample.rawStatement (u "role@publisher.example") (u "workload") ∧
      ∃ node, Sample.jackson.readTree Sample.rawStatement = .ok (some node) ∧ node.WellFormed ∧
        node.Covers Sample.jackson Sample.validity := by
  have htree : Sample.jackson.readTree Sample.rawStatement = .ok (some Sample.node) := by
    simp only [Sample.jackson, if_true]
  have hread : ThrowsException (Sample.jackson.readTree Sample.rawStatement) := by
    intro e he
    rw [htree] at he
    cases he
  have hids : getAnnotations Sample.jackson Sample.rawStatement =
      .ok ⟨u "role@publisher.example", u "workload"⟩ := by
    simp only [getAnnotations, extractAnnotations, parseStatement, readValue, htree]
    decide +kernel
  have hperiod : getValidity Sample.jackson Sample.rawStatement = .ok Sample.validity := by
    simp only [getValidity, parseStatement, readValue, htree]
    decide +kernel
  obtain ⟨hannotations, hvalidity⟩ := metadata_eq_ok hread
  refine ⟨?_, (hvalidity _).mp hperiod⟩
  rcases (hannotations _).mp hids with h | h
  · exact h
  · exact absurd h.2 (by decide)

end JsonIntotoEndorsementMetadataProvider
end Tca
