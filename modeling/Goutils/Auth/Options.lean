import Goutils.Auth.Server

namespace Goutils.Auth
open Lib.Jwt
open Goutils.Rpc (GoErr)
set_option autoImplicit true

def credentialsTypeInternal : String := "__internal"

/-- The public part of private keys and the identifiers of public keys. -/
structure KeyFunctions (κ σ : Type) where
  publicKey : σ → κ
  rsaPublicKeyThumbprint : κ → String
  ed25519PublicKeyThumbprint : κ → String

/-- The options that authentication depends on. -/
structure ServerOptions (κ σ δ : Type) where
  unauthenticated : Bool := false
  allowUnauthenticatedHealthCheck : Bool := false
  publicMethods : List String := []
  instanceNames : List String := []
  authKeys : AList (fun _ : String => AuthKeyData κ σ) := ∅
  jwtSignerKeyID : String := ""
  tlsAuthHandler : Option (Context δ → List String → Option GoErr) := none
  authHandlersForCreds : AList (fun _ : String => CredAuthHandlers κ δ) := ∅
  authAudience : List String := []
  authIssuer : String := ""
  ensureAuthedHandler : Option (Context δ → Except GoErr (Context δ)) := none

inductive ServerOption (κ σ δ : Type) where
  | withInstanceNames (names : List String)
  | withUnauthenticated
  | withAuthRSAPrivateKey (authRSAPrivateKey : σ)
  | withAuthED25519PrivateKey (authED25519PrivateKey : σ)
  | withJWTSignerKeyID (keyID : String)
  | withAuthAudience (authAudience : List String)
  | withAuthIssuer (authIssuer : String)
  | withTLSAuthHandler (entities : List String)
  | withEnsureAuthedHandler (eah : Context δ → Except GoErr (Context δ))
  | withCredAuthHandlers (forType : String) (handler : CredAuthHandlers κ δ)
  | withAllowUnauthenticatedHealthCheck
  | withPublicMethods (fullMethods : List String)

namespace ServerOption

def withEntityDataLoader (forType : String) (loader : Context δ → JWTClaims → Except GoErr δ) :
    ServerOption κ σ δ :=
  .withCredAuthHandlers forType { entityDataLoader := some loader }

end ServerOption

def setOnce (forType what : String) (existing new : Option α) : Except GoErr (Option α) :=
  match new, existing with
  | none, existing => .ok existing
  | some _, some _ => .error (.text (forType.quote ++ " already has an " ++ what))
  | some handler, none => .ok (some handler)

def mergeCredAuthHandlers (forType : String) (existing new : CredAuthHandlers κ δ) :
    Except GoErr (CredAuthHandlers κ δ) := do
  let authHandler ← setOnce forType "AuthHandler" existing.authHandler new.authHandler
  let entityDataLoader ←
    setOnce forType "EntityDataLoader" existing.entityDataLoader new.entityDataLoader
  let tokenVerificationKeyProvider ←
    setOnce forType "TokenVerificationKeyProvider" existing.tokenVerificationKeyProvider
      new.tokenVerificationKeyProvider
  return { authHandler, entityDataLoader, tokenVerificationKeyProvider }

/-- The handler that `WithTLSAuthHandler` installs. -/
def makeTLSAuthHandler (entities : List String) (_ : Context δ) (recvEntities : List String) :
    Option GoErr :=
  if entitiesChecker entities recvEntities then none else some errNotTLSAuthed

namespace ServerOptions

def addKey (o : ServerOptions κ σ δ) (method : SigningMethod) (id : String) (priv : σ) (pub : κ) :
    ServerOptions κ σ δ :=
  { o with authKeys := o.authKeys.insert id ⟨id, some method, some priv, some pub⟩ }

def addHandlers (o : ServerOptions κ σ δ) (forType : String) (handler : CredAuthHandlers κ δ) :
    Except GoErr (ServerOptions κ σ δ) :=
  if forType = credentialsTypeInternal then
    .error (.text ("cannot use " ++ forType.quote ++ " externally"))
  else if forType = "" then .error (.text "type cannot be empty")
  else
    (mergeCredAuthHandlers forType ((o.authHandlersForCreds.lookup forType).getD {}) handler).map
      fun merged => { o with authHandlersForCreds := o.authHandlersForCreds.insert forType merged }

def apply (keys : KeyFunctions κ σ) (o : ServerOptions κ σ δ) :
    ServerOption κ σ δ → Except GoErr (ServerOptions κ σ δ)
  | .withInstanceNames names =>
    if names.length = 0 then .error (.text "expected at least one instance name")
    else .ok { o with instanceNames := names }
  | .withUnauthenticated => .ok { o with unauthenticated := true }
  | .withAuthRSAPrivateKey priv =>
    let pub := keys.publicKey priv
    .ok (o.addKey .rs256 (keys.rsaPublicKeyThumbprint pub) priv pub)
  | .withAuthED25519PrivateKey priv =>
    let pub := keys.publicKey priv
    .ok (o.addKey .edDSA (keys.ed25519PublicKeyThumbprint pub) priv pub)
  | .withJWTSignerKeyID keyID => .ok { o with jwtSignerKeyID := keyID }
  | .withAuthAudience authAudience =>
    if authAudience.length = 0 then .error (.text "expected at least one auth audience member")
    else .ok { o with authAudience }
  | .withAuthIssuer authIssuer =>
    if authIssuer = "" then .error (.text "auth issuer must be non-empty")
    else .ok { o with authIssuer }
  | .withTLSAuthHandler entities =>
    .ok { o with tlsAuthHandler := some (makeTLSAuthHandler entities) }
  | .withEnsureAuthedHandler eah => .ok { o with ensureAuthedHandler := some eah }
  | .withCredAuthHandlers forType handler => o.addHandlers forType handler
  | .withAllowUnauthenticatedHealthCheck => .ok { o with allowUnauthenticatedHealthCheck := true }
  | .withPublicMethods fullMethods => .ok { o with publicMethods := fullMethods }

def applyAll (keys : KeyFunctions κ σ) :
    ServerOptions κ σ δ → List (ServerOption κ σ δ) → Except GoErr (ServerOptions κ σ δ)
  | o, [] => .ok o
  | o, opt :: opts =>
    match o.apply keys opt with
    | .error err => .error err
    | .ok o' => applyAll keys o' opts

end ServerOptions

/-- What `NewServer` takes from outside of its options. -/
structure NewServerEnv (σ : Type) where
  setupErr : Option GoErr := none
  generateKey : Except GoErr σ
  internalUUID : String
  internalPayload : String
  instanceNameFromAddress : Except GoErr String

def AuthKeyData.validate (d : AuthKeyData κ σ) : Option GoErr :=
  if d.id = "" then some (.text "invariant: auth key has no id")
  else if d.method.isNone then
    some (.text ("invariant: auth key " ++ d.id.quote ++ " has no signing method"))
  else if d.privateKey.isNone then
    some (.text ("invariant: auth key " ++ d.id.quote ++ " has no private key"))
  else if d.publicKey.isNone then
    some (.text ("invariant: auth key " ++ d.id.quote ++ " has no public key"))
  else none

namespace ServerOptions

def internalHandlers (env : NewServerEnv σ) : CredAuthHandlers κ δ where
  authHandler := some fun _ entity payload =>
    if entity = env.internalUUID ∧ payload = env.internalPayload then .ok []
    else .error (errStatus .unauthenticated "invalid credentials")

def exemptMethods (o : ServerOptions κ σ δ) : List String :=
  (if o.unauthenticated then [] else ["/proto.rpc.v1.AuthService/Authenticate"]) ++
    if o.allowUnauthenticatedHealthCheck then
      ["/grpc.health.v1.Health/Check", "/grpc.health.v1.Health/Watch"]
    else []

def server (env : NewServerEnv σ) (o : ServerOptions κ σ δ) (signing : AuthKeyData κ σ)
    (instanceNames : List String) : SimpleServer κ σ δ :=
  let authAudience := if o.authAudience.length = 0 then instanceNames else o.authAudience
  { authKeys := o.authKeys
    authKeyForJWTSigning := signing
    internalUUID := env.internalUUID
    internalPayload := env.internalPayload
    tlsAuthHandler := o.tlsAuthHandler
    authHandlersForCreds :=
      if o.unauthenticated then o.authHandlersForCreds
      else o.authHandlersForCreds.insert credentialsTypeInternal (internalHandlers env)
    authAudience
    authIssuer := if o.authIssuer = "" then authAudience.headD "" else o.authIssuer
    ensureAuthedHandler := o.ensureAuthedHandler
    exemptMethods := o.exemptMethods
    publicMethods := o.publicMethods }

end ServerOptions

end Goutils.Auth
