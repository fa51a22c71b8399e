import S3Manager.Python.Text

/-! Exceptions of the modelled code: the class, `str(exc)`, and the exception
it was raised from. -/

set_option autoImplicit false

namespace S3Manager.Python

/-- `S3OperationError` and the subclasses that `errors.py` gives it. -/
inductive S3ErrorClass where
  | operation
  | config
  | accessDenied
  | notFound
  | network
  | credentialsExpired
  | throttled
  deriving DecidableEq

inductive ErrorKind where
  | permissionError
  | valueError
  | typeError
  | attributeError
  | keyError
  | overflowError
  | fileNotFoundError
  | runtimeError
  /-- `botocore.exceptions.ClientError` with its `Error.Code` and `HTTPStatusCode`. -/
  | clientError (code : Str) (status : Nat)
  /-- Another exception of botocore, by the name of its class. -/
  | botoCoreError (className : Str)
  /-- A typed error of `another_s3_manager.errors`. -/
  | s3Operation (errorClass : S3ErrorClass) (code : Str)
  | credentialRetrievalError (provider : Str)
  | metadataRetrievalError
  /-- `another_s3_manager.errors.RoleNotFoundError` -/
  | roleNotFoundError
  /-- Another exception met while a client is built or probed. -/
  | clientBuildError
  /-- An exception of SQLAlchemy, by the name of its class. -/
  | sqlAlchemyError (className : Str)
  | httpException (status : Nat)
  | mcpError (code : Str)
  /-- The model ran out of steps for an S3 pagination loop. -/
  | outOfPages
  deriving DecidableEq

inductive PyError where
  | raised (kind : ErrorKind) (message : Str) (cause : Option PyError)

namespace PyError

def kind : PyError → ErrorKind
  | .raised kind _ _ => kind

def message : PyError → Str
  | .raised _ message _ => message

def cause : PyError → Option PyError
  | .raised _ _ cause => cause

/-- `raise Kind(message)` -/
def new (kind : ErrorKind) (message : Str) : PyError := .raised kind message none

end PyError

/-- A Python call that returns a value or raises. -/
abbrev Result (α : Type) := Except PyError α

def raise {α : Type} (kind : ErrorKind) (message : Str) : Result α :=
  .error (.new kind message)

section Bind

variable {α β : Type}

@[simp] theorem result_bind_ok (value : α) (next : α → Result β) :
    ((Except.ok value : Result α) >>= next) = next value := rfl

@[simp] theorem result_bind_error (error : PyError) (next : α → Result β) :
    ((Except.error error : Result α) >>= next) = .error error := rfl

theorem bind_eq_ok_iff {computation : Result α} {next : α → Result β} {result : β} :
    computation >>= next = .ok result ↔
      ∃ value, computation = .ok value ∧ next value = .ok result := by
  cases computation with
  | error error => simp
  | ok value => simp

end Bind

end S3Manager.Python
