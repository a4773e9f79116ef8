import TransparentCa.Lib.JavaText

/- The exceptions of the program and of the libraries it catches exceptions of, with the
   class hierarchy its `catch` clauses and `instanceof` tests read. An exception carries
   its message; of `S3Exception` also the two fields the writer looks at. Causes are left
   out: nothing in the program reads them. -/
namespace Java

inductive ThrowableClass where
  | throwable
  | error
  | outOfMemoryError
  | exception
  | interruptedException
  | ioException
  | parseException
  | invalidProtocolBufferException
  | uriSyntaxException
  | generalSecurityException
  | noSuchAlgorithmException
  | invalidKeySpecException
  | certificateException
  | certificateParsingException
  | runtimeException
  | arithmeticException
  | bufferOverflowException
  | dateTimeException
  | illegalStateException
  | indexOutOfBoundsException
  | nullPointerException
  | unsupportedOperationException
  | jwtException
  | illegalArgumentException
  | numberFormatException
  | audienceValidationException
  | incorrectEndorsementFormatException
  | fileLoadException
  | invalidPolicyException
  | sdkException
  | s3Exception
  | noSuchKeyException
  | noSuchBucketException
  | invalidCertificatesConfigException
  | kmsException
  | operatorCreationException
  | backupCorruptedException
  | backupStorageException
  | backupNotFoundException
  | backupPartiallyWrittenException
  | backupIncompleteException
  | backupAccessFailedException
  | backupAlreadyExistsException
  | backupStorageAlreadyLockedException
  deriving DecidableEq, Repr

namespace ThrowableClass

def parent : ThrowableClass → Option ThrowableClass
  | throwable => none
  | error | exception => some throwable
  | outOfMemoryError => some error
  | interruptedException | ioException | uriSyntaxException | generalSecurityException
  | runtimeException | invalidCertificatesConfigException | kmsException
  | operatorCreationException | backupCorruptedException | backupStorageException =>
    some exception
  | parseException | invalidProtocolBufferException => some ioException
  | noSuchAlgorithmException | invalidKeySpecException | certificateException =>
    some generalSecurityException
  | certificateParsingException => some certificateException
  | arithmeticException | bufferOverflowException | dateTimeException | illegalStateException
  | indexOutOfBoundsException | nullPointerException | unsupportedOperationException
  | jwtException | illegalArgumentException
  | fileLoadException | invalidPolicyException | sdkException => some runtimeException
  | numberFormatException | audienceValidationException | incorrectEndorsementFormatException =>
    some illegalArgumentException
  | s3Exception => some sdkException
  | noSuchKeyException | noSuchBucketException => some s3Exception
  | backupNotFoundException | backupPartiallyWrittenException | backupIncompleteException
  | backupAccessFailedException | backupAlreadyExistsException
  | backupStorageAlreadyLockedException => some backupStorageException

/-- The class and the classes above it, at most `n` levels up. -/
def ancestors : Nat → ThrowableClass → List ThrowableClass
  | 0, c => [c]
  | n + 1, c => match c.parent with
    | none => [c]
    | some d => c :: ancestors n d

end ThrowableClass

structure Throwable where
  cls : ThrowableClass
  message : JString := []
  statusCode : Int := 0
  awsErrorCode : Option JString := none
  deriving DecidableEq

/-- `e instanceof c`. No class here is more than five levels below `Throwable`. -/
def Throwable.instanceOf (e : Throwable) (c : ThrowableClass) : Bool := c ∈ e.cls.ancestors 6

/-- Whether one of the clauses `catch (c₁ | c₂ | …)` takes the exception. -/
def Throwable.caughtBy (e : Throwable) (cs : List ThrowableClass) : Bool := cs.any e.instanceOf

/-! ## Results that may be an exception -/

section
variable {α β : Type}

theorem except_bind_eq_ok {x : Except Throwable α} {f : α → Except Throwable β} {b : β} :
    (x >>= f) = .ok b ↔ ∃ a, x = .ok a ∧ f a = .ok b := by
  cases x <;> simp [bind, Except.bind]

/-- A `try` whose handler always throws. -/
theorem except_tryCatch_eq_ok {x : Except Throwable α} {h : Throwable → Except Throwable α} {a : α}
    (hh : ∀ e, h e ≠ .ok a) : tryCatch x h = .ok a ↔ x = .ok a := by
  cases x with
  | ok b => exact Iff.rfl
  | error e => exact ⟨fun heq => absurd heq (hh e), fun heq => by cases heq⟩

end
end Java
