import Goutils.Lib.Machine

namespace Goutils.Rpc
set_option autoImplicit true

/-- The canonical status codes; a peer may also put any other number on the wire. -/
inductive Code where
  | ok | canceled | unknown | invalidArgument | deadlineExceeded | notFound | alreadyExists
  | permissionDenied | resourceExhausted | failedPrecondition | aborted | outOfRange
  | unimplemented | internal | unavailable | dataLoss | unauthenticated
  | other (n : Nat)
  deriving DecidableEq

def Code.string : Code → String
  | .ok => "OK"
  | .canceled => "Canceled"
  | .unknown => "Unknown"
  | .invalidArgument => "InvalidArgument"
  | .deadlineExceeded => "DeadlineExceeded"
  | .notFound => "NotFound"
  | .alreadyExists => "AlreadyExists"
  | .permissionDenied => "PermissionDenied"
  | .resourceExhausted => "ResourceExhausted"
  | .failedPrecondition => "FailedPrecondition"
  | .aborted => "Aborted"
  | .outOfRange => "OutOfRange"
  | .unimplemented => "Unimplemented"
  | .internal => "Internal"
  | .unavailable => "Unavailable"
  | .dataLoss => "DataLoss"
  | .unauthenticated => "Unauthenticated"
  | .other n => "Code(" ++ toString n ++ ")"

structure Status where
  code : Code
  message : String
  deriving DecidableEq

/-- What `ctx.Err()` returns once a context is done. -/
inductive CtxErr where
  | canceled
  | deadlineExceeded
  deriving DecidableEq

/-- Non-nil errors: sentinels, ones with a status, plain, wrapped and combined ones. -/
inductive GoErr where
  | eof
  | errClosedPipe
  | errExpectedClosure
  | errDataChannelClosed
  | sctpErrStreamClosed
  | ctx (e : CtxErr)
  | status (st : Status)
  | text (msg : String)
  | wrap (msg : String) (inner : GoErr)
  | combine (left right : GoErr)
  deriving DecidableEq

def GoErr.is (e target : GoErr) : Bool :=
  decide (e = target) ||
    match e with
    | .wrap _ inner => inner.is target
    | .combine left right => left.is target || right.is target
    | _ => false

def GoErr.error : GoErr → String
  | .eof => "EOF"
  | .errClosedPipe => "io: read/write on closed pipe"
  | .errExpectedClosure => "internal: closed via normal flow of operations"
  | .errDataChannelClosed => "data channel closed"
  | .sctpErrStreamClosed => "stream closed"
  | .ctx .canceled => "context canceled"
  | .ctx .deadlineExceeded => "context deadline exceeded"
  | .status st => "rpc error: code = " ++ st.code.string ++ " desc = " ++ st.message
  | .text msg => msg
  | .wrap msg inner => msg ++ ": " ++ inner.error
  | .combine left right => left.error ++ "; " ++ right.error

def errorsIs (err : Option GoErr) (target : GoErr) : Bool := err.any (·.is target)

def fromContextError (err : Option GoErr) : Option Status :=
  err.map fun e =>
    if e.is (.ctx .deadlineExceeded) then ⟨.deadlineExceeded, e.error⟩
    else if e.is (.ctx .canceled) then ⟨.canceled, e.error⟩
    else ⟨.unknown, e.error⟩

/-- `status.Convert` takes the status an error carries, and `Unknown` for any other error. -/
def convert (err : Option GoErr) : Option Status :=
  err.map fun e =>
    match e with
    | .status st => st
    | _ => ⟨.unknown, e.error⟩

def statusCode (st : Option Status) : Code := (st.map Status.code).getD .ok

def statusErr (st : Option Status) : Option GoErr :=
  if statusCode st = .ok then none else st.map .status

def errorToStatus (err : Option GoErr) : Option Status :=
  let respStatus := fromContextError err
  if statusCode respStatus = .unknown then some ((convert err).getD ⟨.ok, ""⟩) else respStatus

theorem statusErr_eq_none_iff (st : Option Status) : statusErr st = none ↔ statusCode st = .ok := by
  unfold statusErr
  split
  · simp_all
  · cases st with
    | none => simp_all [statusCode]
    | some st => simp_all

theorem statusErr_not_expected {st : Option Status} (h : statusErr st = some e) :
    e.is .errExpectedClosure = false := by
  unfold statusErr at h
  split at h
  · cases h
  · obtain ⟨s, _, rfl⟩ := Option.map_eq_some_iff.1 h
    rfl

end Goutils.Rpc
