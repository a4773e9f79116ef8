import TransparentCa.Lib.Interp
import TransparentCa.Tca.Service

/- The way of a call through the server: `JwtInterceptor.interceptCall`, and then
   `TransparentCertificateAuthorityGrpcHandler.issueCertificate` under the context the
   interceptor made. The token parser (which calls the key locator), the metrics, the service's
   collaborators and the two ends of the call are calls that may throw whatever they like. The
   durations that are recorded are left out. -/
namespace Tca
open Java Mbs Effects

/-! ## Requests and contexts -/

/-- `none` stands for `EVIDENCE_NOT_SET`. -/
structure IssueCertificateRequest where
  attestationEvidence : Option AttestationEvidence
  certificateSigningRequest : Bytes
  deriving DecidableEq

/-- What `getAudience()` may return; of a collection, `none` stands for an item that is not a
string. -/
inductive AudienceClaim where
  | null
  | string (aud : JString)
  | collection (items : List (Option JString))
  | object
  deriving DecidableEq

structure Claims where
  issuer : Option JString
  subject : Option JString
  audience : AudienceClaim
  deriving DecidableEq

/-- The three values of the context; `none` stands for `null`. -/
structure CallContext where
  issuer : Option JString
  subject : Option JString
  audience : Option (List JString)
  deriving DecidableEq

/-- `Character.isWhitespace`, for a code unit. -/
def isWhitespace (c : UInt16) : Bool :=
  (0x09 ≤ c && c ≤ 0x0d) || (0x1c ≤ c && c ≤ 0x20) || c == 0x1680 ||
    (0x2000 ≤ c && c ≤ 0x200a && c != 0x2007) || c == 0x2028 || c == 0x2029 || c == 0x205f ||
    c == 0x3000

def isBlank (s : JString) : Bool := s.all isWhitespace

/-- The constructor, with its checks. -/
def CallerIdentity.new (issuer subject : JString) (audiences : List JString) :
    Except Throwable CallerIdentity :=
  if isBlank issuer then
    .error { cls := .illegalArgumentException, message := u "issuer cannot be blank" }
  else if isBlank subject then
    .error { cls := .illegalArgumentException, message := u "subject cannot be blank" }
  else .ok ⟨issuer, subject, audiences⟩

/-- `AttestationEvidenceMapper.toDomain`. -/
def AttestationEvidenceMapper.toDomain (evidence : Option AttestationEvidence) :
    Except Throwable AttestationEvidence :=
  match evidence with
  | some evidence => .ok evidence
  | none => .error { cls := .illegalArgumentException,
                     message := u "Attestation evidence not set or unsupported" }

def CertificateIssuanceRequestMapper.toDomain (request : IssueCertificateRequest) :
    Except Throwable CertificateIssuanceRequest := do
  let evidence ← AttestationEvidenceMapper.toDomain request.attestationEvidence
  return ⟨evidence, request.certificateSigningRequest⟩

/-! ## Calls -/

/-- The status codes that the server names. -/
inductive StatusCode where
  | unauthenticated
  | invalidArgument
  | permissionDenied
  | failedPrecondition
  | internal
  deriving DecidableEq, Repr

/-- `domain.metric.Status`. -/
inductive AuthenticationStatus where
  | success
  | failure
  deriving DecidableEq, Repr

/-- A call of a collaborator of the service, of the token parser, of the metrics, or of one of
the two ends of the gRPC call: `close` of the `ServerCall`, the rest of the response
observer. `startCall` is `Contexts.interceptCall`; `incrementProcessingCounter` is the
handler's own call, besides those of the service. -/
inductive CallOp where
  | ca (o : CaOp)
  | incrementProcessingCounter (status : ProcessingStatus)
  | parseClaimsJws (token : JString)
  | incrementAuthenticationCounter (status : AuthenticationStatus)
  | recordOidcAuthenticationTime
  | startCall (context : CallContext)
  | close (status : StatusCode) (description : JString)
  | onNext (response : List Bytes)
  | onCompleted
  | onError (status : StatusCode) (description : JString)
  deriving DecidableEq

abbrev CallOp.Val : CallOp → Type
  | .ca o => o.Val
  | .incrementProcessingCounter _ => Unit
  | .parseClaimsJws _ => Claims
  | .incrementAuthenticationCounter _ => Unit
  | .recordOidcAuthenticationTime => Unit
  | .startCall _ => Unit
  | .close _ _ => Unit
  | .onNext _ => Unit
  | .onCompleted => Unit
  | .onError _ _ => Unit

abbrev CallProg (α : Type) := Prog CallOp CallOp.Val Throwable α

abbrev CallEvent := Event CallOp CallOp.Val Throwable

def serverCall (o : CallOp) : CallProg o.Val := Prog.invoke o

/-! ## JwtInterceptor -/

namespace JwtInterceptor

def bearer : JString := u "Bearer "

def extractAudiences : AudienceClaim → List JString
  | .null => []
  | .string aud => [aud]
  | .collection items => (items.filterMap id).dedup
  | .object => []

/-- The call is refused, and goes no further. -/
def unauthenticated (description : JString) : CallProg (Option CallContext) := do
  serverCall (.close .unauthenticated description)
  serverCall (.incrementAuthenticationCounter .failure)
  serverCall .recordOidcAuthenticationTime
  return none

def contextOf (claims : Claims) : CallContext :=
  ⟨claims.issuer, claims.subject, some (extractAudiences claims.audience)⟩

def authenticate (token : JString) : CallProg (Option CallContext) := do
  let claims : Claims ← serverCall (.parseClaimsJws token)
  serverCall (.incrementAuthenticationCounter .success)
  serverCall .recordOidcAuthenticationTime
  serverCall (.startCall (contextOf claims))
  return some (contextOf claims)

/-- The context the call goes on with; `none` where the listener does nothing. -/
def interceptCall (authHeader : Option JString) : CallProg (Option CallContext) :=
  match authHeader.filter bearer.isPrefixOf with
  | none => unauthenticated (u "Missing or invalid Authorization header")
  | some header =>
    tryCatch (authenticate (header.drop bearer.length)) (fun e =>
      if e.instanceOf .jwtException then unauthenticated (u "Failed to parse JWT token")
      else throw e)

end JwtInterceptor

/-! ## TransparentCertificateAuthorityGrpcHandler -/

namespace TransparentCertificateAuthorityGrpcHandler

section
variable (lib : Platform)

/-- The clauses of the second `try`, in order. -/
def statusOf (e : Throwable) : Option (StatusCode × JString) :=
  if e.instanceOf .audienceValidationException then some (.permissionDenied, e.message)
  else if e.instanceOf .illegalArgumentException then some (.invalidArgument, e.message)
  else if e.instanceOf .illegalStateException then some (.failedPrecondition, e.message)
  else if e.instanceOf .ioException then some (.invalidArgument, u "Invalid CSR")
  else if e.instanceOf .certificateException then
    some (.internal, u "Failed to sign certificate")
  else none

def callService (domainRequest : CertificateIssuanceRequest) (callerIdentity : CallerIdentity) :
    CallProg (List X509Certificate) :=
  (Tca.issueCertificate openService lib domainRequest callerIdentity).interp
    (fun o => serverCall (.ca o))

def respond (domainRequest : CertificateIssuanceRequest) (callerIdentity : CallerIdentity) :
    CallProg Unit := do
  let certificateChain ← callService lib domainRequest callerIdentity
  serverCall (.onNext (certificateChain.map X509Certificate.encoded))
  serverCall .onCompleted

def issueCertificate (context : CallContext) (request : IssueCertificateRequest) : CallProg Unit :=
  match context.issuer, context.subject, context.audience with
  | some issuer, some subject, some audiences => do
    let callerIdentity ← Prog.ofExcept (CallerIdentity.new issuer subject audiences)
    match CertificateIssuanceRequestMapper.toDomain request with
    | .error e =>
      if e.instanceOf .illegalArgumentException then do
        serverCall (.incrementProcessingCounter .invalidEvidence)
        serverCall (.onError .invalidArgument e.message)
      else throw e
    | .ok domainRequest =>
      tryCatch (respond lib domainRequest callerIdentity) (fun e =>
        match statusOf e with
        | some (status, description) => serverCall (.onError status description)
        | none => throw e)
  | _, _, _ => serverCall (.onError .unauthenticated (u "Missing JWT token"))

end
end TransparentCertificateAuthorityGrpcHandler

/-- A call with this header and this request message. -/
def handleCall (lib : Platform) (authHeader : Option JString) (request : IssueCertificateRequest) :
    CallProg Unit := do
  let context ← JwtInterceptor.interceptCall authHeader
  match context with
  | some context => TransparentCertificateAuthorityGrpcHandler.issueCertificate lib context request
  | none => return ()

end Tca
