import Goutils.Auth.Server

namespace Goutils.Auth
open Lib.Jwt
open Goutils.Rpc (GoErr)
set_option autoImplicit true

/-- `grpc.ServerStream`: the transport's, or one with another context (`ctxWrappedServerStream`). -/
inductive GrpcServerStream (ι δ : Type) where
  | transport (id : ι) (ctx : Context δ)
  | ctxWrapped (inner : GrpcServerStream ι δ) (ctx : Context δ)

def GrpcServerStream.context : GrpcServerStream ι δ → Context δ
  | .transport _ ctx | .ctxWrapped _ ctx => ctx

/-- What a stream handler may be given as its service implementation, an `interface{}`. -/
inductive ServiceArg (α δ : Type) where
  | impl (srv : α)
  | ctx (ctx : Context δ)

namespace SimpleServer

def isPublicMethod (ss : SimpleServer κ σ δ) (fullMethod : String) : Bool :=
  ss.publicMethods.contains fullMethod

def isExemptMethod (ss : SimpleServer κ σ δ) (fullMethod : String) : Bool :=
  ss.exemptMethods.contains fullMethod

def authUnaryInterceptor [Monad m] (ss : SimpleServer κ σ δ) (jwt : Library JWTClaims κ σ)
    (clock : Clock) (ctx : Context δ) (req : ρ) (fullMethod : String)
    (handler : Context δ → ρ → m (Except GoErr ω)) : m (Except GoErr ω) :=
  if ss.isExemptMethod fullMethod then handler ctx req
  else if ss.isPublicMethod fullMethod then
    match ss.tryAuth jwt clock ctx with
    | .error err => pure (.error err)
    | .ok nextCtx => handler nextCtx req
  else
    match ss.ensureAuthed jwt clock ctx with
    | .error err => pure (.error err)
    | .ok nextCtx => handler nextCtx req

/-- For a public method the handler gets the context in the place of the service. -/
def authStreamInterceptor [Monad m] (ss : SimpleServer κ σ δ) (jwt : Library JWTClaims κ σ)
    (clock : Clock) (srv : ServiceArg α δ) (serverStream : GrpcServerStream ι δ)
    (fullMethod : String)
    (handler : ServiceArg α δ → GrpcServerStream ι δ → m (Option GoErr)) : m (Option GoErr) :=
  if ss.isExemptMethod fullMethod then handler srv serverStream
  else if ss.isPublicMethod fullMethod then
    match ss.tryAuth jwt clock serverStream.context with
    | .error err => pure (some err)
    | .ok nextCtx => handler (.ctx nextCtx) (.ctxWrapped serverStream nextCtx)
  else
    match ss.ensureAuthed jwt clock serverStream.context with
    | .error err => pure (some err)
    | .ok nextCtx => handler srv (.ctxWrapped serverStream nextCtx)

section

variable (ss : SimpleServer κ σ δ) (jwt : Library JWTClaims κ σ) (clock : Clock)
  (fullMethod : String)

def UnaryCalls (ctx nextCtx : Context δ) : Prop :=
  ∀ (m : Type → Type) [Monad m] (ρ ω : Type) (req : ρ)
    (handler : Context δ → ρ → m (Except GoErr ω)),
    ss.authUnaryInterceptor jwt clock ctx req fullMethod handler = handler nextCtx req

def UnaryRefuses (ctx : Context δ) (err : GoErr) : Prop :=
  ∀ (m : Type → Type) [Monad m] (ρ ω : Type) (req : ρ)
    (handler : Context δ → ρ → m (Except GoErr ω)),
    ss.authUnaryInterceptor jwt clock ctx req fullMethod handler = pure (.error err)

def StreamCalls (srv : ServiceArg α δ) (serverStream : GrpcServerStream ι δ)
    (srv' : ServiceArg α δ) (serverStream' : GrpcServerStream ι δ) : Prop :=
  ∀ (m : Type → Type) [Monad m]
    (handler : ServiceArg α δ → GrpcServerStream ι δ → m (Option GoErr)),
    ss.authStreamInterceptor jwt clock srv serverStream fullMethod handler =
      handler srv' serverStream'

def StreamRefuses (srv : ServiceArg α δ) (serverStream : GrpcServerStream ι δ) (err : GoErr) :
    Prop :=
  ∀ (m : Type → Type) [Monad m]
    (handler : ServiceArg α δ → GrpcServerStream ι δ → m (Option GoErr)),
    ss.authStreamInterceptor jwt clock srv serverStream fullMethod handler = pure (some err)

end

/-- Both interceptors refuse a call with the same error, or both call the handler once with the
same context, and then the service is passed on exactly if the method is exempt or not public. -/
theorem interceptors_agree (ss : SimpleServer κ σ δ) (jwt : Library JWTClaims κ σ) (clock : Clock)
    (fullMethod : String) (srv : α) (serverStream : GrpcServerStream ι δ) :
    (∃ err, ss.UnaryRefuses jwt clock fullMethod serverStream.context err ∧
      ss.StreamRefuses jwt clock fullMethod (.impl srv) serverStream err) ∨
    ∃ nextCtx srv' serverStream',
      ss.UnaryCalls jwt clock fullMethod serverStream.context nextCtx ∧
      ss.StreamCalls jwt clock fullMethod (.impl srv) serverStream srv' serverStream' ∧
      serverStream'.context = nextCtx ∧
      (srv' = .impl srv ↔
        ss.isExemptMethod fullMethod = true ∨ ss.isPublicMethod fullMethod = false) := by
  unfold UnaryRefuses StreamRefuses UnaryCalls StreamCalls authUnaryInterceptor
    authStreamInterceptor
  by_cases hexempt : ss.isExemptMethod fullMethod = true
  · simp only [hexempt, ↓reduceIte]
    right
    exact ⟨_, .impl srv, serverStream, fun _ _ _ _ _ _ => rfl, fun _ _ _ => rfl, rfl, by simp⟩
  by_cases hpublic : ss.isPublicMethod fullMethod = true
  · simp only [if_neg hexempt, if_pos hpublic]
    cases ss.tryAuth jwt clock serverStream.context with
    | error err =>
      left
      exact ⟨err, fun _ _ _ _ _ _ => rfl, fun _ _ _ => rfl⟩
    | ok nextCtx =>
      right
      refine ⟨nextCtx, .ctx nextCtx, .ctxWrapped serverStream nextCtx, fun _ _ _ _ _ _ => rfl,
        fun _ _ _ => rfl, rfl, ?_⟩
      simp [hexempt, hpublic]
  · simp only [if_neg hexempt, if_neg hpublic]
    cases ss.ensureAuthed jwt clock serverStream.context with
    | error err =>
      left
      exact ⟨err, fun _ _ _ _ _ _ => rfl, fun _ _ _ => rfl⟩
    | ok nextCtx =>
      right
      exact ⟨nextCtx, .impl srv, .ctxWrapped serverStream nextCtx, fun _ _ _ _ _ _ => rfl,
        fun _ _ _ => rfl, rfl, by simp [hpublic]⟩

/-- A request without credentials for a public streaming method. -/
theorem publicStream_loses_srv :
    (authStreamInterceptor { publicMethods := ["/pkg.Service/Stream"] }
      (⟨fun _ => .error "malformed", fun _ _ _ => none, fun _ _ => none, fun _ _ => .error ""⟩ :
        Library JWTClaims Unit Unit) ⟨0, 0⟩ (.impl 7) (.transport 0 {}) "/pkg.Service/Stream"
      (fun srv _ => do
        modify (· ++ [srv])
        pure none) : StateM (List (ServiceArg Nat Unit)) (Option GoErr)).run [] =
      (none, [.ctx {}]) := by
  rfl

end SimpleServer

end Goutils.Auth
