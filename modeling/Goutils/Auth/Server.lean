import Goutils.Lib.Jwt
import Goutils.Lib.Strings
import Goutils.Rpc.Frames

namespace Goutils.Auth
open Lib.Jwt
open Lib (hasPrefix trimPrefix)
open Goutils.Rpc (GoErr Code MD convert statusCode)
set_option autoImplicit true

/-- `JWTClaims`; a nil map of metadata is the empty one. -/
structure JWTClaims where
  subject : String := ""
  audience : List String := []
  issuer : String := ""
  expiresAt : Option Int := none
  notBefore : Option Int := none
  issuedAt : Option Int := none
  id : String := ""
  authCredentialsType : String := ""
  authMetadata : List (String × String) := []
  deriving DecidableEq

structure EntityInfo (δ : Type) where
  entity : String
  data : Option δ := none

/-- The parts of a certificate that authentication reads. -/
structure Certificate where
  dnsNames : List String
  issuer : String
  serialNumber : Int

inductive AuthInfo where
  | tls (verifiedChains : List (List Certificate))
  | other

structure Peer where
  authInfo : Option AuthInfo := none

/-- The values that authentication looks up in the context of a request, and the one it adds. -/
structure Context (δ : Type) where
  incoming : Option MD := none
  peer : Option Peer := none
  authEntity : Option (EntityInfo δ) := none

def Context.withAuthEntity (ctx : Context δ) (authEntity : EntityInfo δ) : Context δ :=
  { ctx with authEntity := some authEntity }

def fieldValues (md : MD) (k : String) : List String := (md.lookup k).getD []

structure CredAuthHandlers (κ δ : Type) where
  authHandler : Option (Context δ → String → String → Except GoErr (List (String × String))) := none
  entityDataLoader : Option (Context δ → JWTClaims → Except GoErr δ) := none
  tokenVerificationKeyProvider :
    Option (Context δ → Token JWTClaims → Except GoErr (Option κ)) := none

/-- `authKeyData`, with nil for what is not set. -/
structure AuthKeyData (κ σ : Type) where
  id : String := ""
  method : Option SigningMethod := none
  privateKey : Option σ := none
  publicKey : Option κ := none

/-- The fields of `simpleServer` that authentication uses. -/
structure SimpleServer (κ σ δ : Type) where
  authKeys : AList (fun _ : String => AuthKeyData κ σ) := ∅
  authKeyForJWTSigning : AuthKeyData κ σ := {}
  internalUUID : String := ""
  internalPayload : String := ""
  tlsAuthHandler : Option (Context δ → List String → Option GoErr) := none
  authHandlersForCreds : AList (fun _ : String => CredAuthHandlers κ δ) := ∅
  authAudience : List String := []
  authIssuer : String := ""
  ensureAuthedHandler : Option (Context δ → Except GoErr (Context δ)) := none
  exemptMethods : List String := []
  publicMethods : List String := []

/-- The clock is read when the token is parsed and when its claims are checked again. -/
structure Clock where
  parsing : Int
  checking : Int

def MetadataFieldAuthorization : String := "authorization"

def AuthorizationValuePrefixBearer : String := "Bearer "

def errNotTLSAuthed : GoErr := .text "not authenticated via TLS"

def validSigningMethods : List String :=
  ["ES256", "ES512", "HS512", "PS256", "RS512", "PS384", "PS512", "RS384", "ES384", "EdDSA",
    "HS256", "HS384", "RS256"]

def errStatus (code : Code) (message : String) : GoErr := .status ⟨code, message⟩

def tokenFromContext (ctx : Context δ) : Except GoErr String :=
  match ctx.incoming with
  | none => .error (errStatus .unauthenticated "authentication required")
  | some md =>
    match fieldValues md MetadataFieldAuthorization with
    | [value] =>
      if hasPrefix value AuthorizationValuePrefixBearer then
        .ok (trimPrefix value AuthorizationValuePrefixBearer)
      else
        .error (errStatus .unauthenticated
          ("expected authorization header with prefix: " ++ AuthorizationValuePrefixBearer))
    | _ => .error (errStatus .unauthenticated "authentication required")

def verifiedCert (ctx : Context δ) : Option Certificate :=
  match ctx.peer with
  | some { authInfo := some (.tls (chain :: _)) } => chain.head?
  | _ => none

/-- `MakeEntitiesChecker` as `WithTLSAuthHandler` uses it. -/
def entitiesChecker (forEntities entities : List String) : Bool :=
  entities.any fun recvEntity => forEntities.contains recvEntity

namespace SimpleServer

def authHandlers (ss : SimpleServer κ σ δ) (forType : String) :
    Except GoErr (CredAuthHandlers κ δ) :=
  match ss.authHandlersForCreds.lookup forType with
  | none =>
    .error (errStatus .invalidArgument
      ("do not know how to handle credential type " ++ forType.quote))
  | some handler => .ok handler

/-- The key callback of `ensureAuthed`. It looks at claims that are not verified yet. -/
def verificationKey (ss : SimpleServer κ σ δ) (ctx : Context δ) (token : Token JWTClaims) :
    Except GoErr (CredAuthHandlers κ δ × Option κ) :=
  match ss.authHandlers token.claims.authCredentialsType with
  | .error err => .error err
  | .ok handlers =>
    match handlers.tokenVerificationKeyProvider with
    | some provider => (provider ctx token).map fun key => (handlers, key)
    | none =>
      match token.kid with
      | none => .error (.text "kid header not in token header")
      | some keyID =>
        match ss.authKeys.lookup keyID with
        | none => .error (.text ("this server did not sign this JWT with kid " ++ keyID.quote))
        | some keyData =>
          match keyData.method with
          | none => .error (.text "internal server error")
          | some method =>
            if token.method = method then .ok (handlers, keyData.publicKey)
            else .error (.text ("unexpected signing method " ++ token.method.alg.quote))

def audVerified (ss : SimpleServer κ σ δ) (claims : JWTClaims) : Bool :=
  ss.authAudience.any fun allowedAud => verifyAud claims.audience allowedAud true

def entityData (handlers : CredAuthHandlers κ δ) (ctx : Context δ) (claims : JWTClaims) :
    Except GoErr (Option δ) :=
  match handlers.entityDataLoader with
  | none => .ok none
  | some load =>
    match load ctx claims with
    | .ok data => .ok (some data)
    | .error (.status st) => .error (.status st)
    | .error err => .error (errStatus .internal ("failed to load entity data: " ++ err.error))

/-- `ensureAuthed` with a token. A wrong audience is read from an empty text. -/
def ensureToken (ss : SimpleServer κ σ δ) (jwt : Library JWTClaims κ σ) (clock : Clock)
    (ctx : Context δ) (tokenString : String) : Except GoErr (Context δ) :=
  match jwt.parseWithClaims clock.parsing tokenString
      (fun token => (ss.verificationKey ctx token).mapError GoErr.error) validSigningMethods with
  | .error err => .error (errStatus .unauthenticated ("unauthenticated: " ++ err))
  | .ok (token, handlers) =>
    if ss.audVerified token.claims then
      match jwt.valid clock.checking token.claims with
      | some err => .error (errStatus .unauthenticated ("unauthenticated: " ++ err))
      | none =>
        if token.claims.subject = "" then
          .error (errStatus .unauthenticated "expected entity (sub) in claims")
        else
          (entityData handlers ctx token.claims).map fun data =>
            ctx.withAuthEntity ⟨token.claims.subject, data⟩
    else .error (errStatus .unauthenticated "invalid audience")

/-- `ensureAuthed` without a token, which `err` says why. -/
def ensureTLS (ss : SimpleServer κ σ δ) (ctx : Context δ) (err : GoErr) :
    Except GoErr (Context δ) :=
  match ss.tlsAuthHandler with
  | none => .error err
  | some tlsAuthHandler =>
    match verifiedCert ctx with
    | none => .error err
    | some cert =>
      match tlsAuthHandler ctx cert.dnsNames with
      | none =>
        .ok (ctx.withAuthEntity { entity := cert.issuer ++ ":" ++ toString cert.serialNumber })
      | some tlsErr => .error (if tlsErr.is errNotTLSAuthed then err else .combine err tlsErr)

def ensureAuthed (ss : SimpleServer κ σ δ) (jwt : Library JWTClaims κ σ) (clock : Clock)
    (ctx : Context δ) : Except GoErr (Context δ) :=
  match ss.ensureAuthedHandler with
  | some handler => handler ctx
  | none =>
    match tokenFromContext ctx with
    | .error err => ss.ensureTLS ctx err
    | .ok tokenString => ss.ensureToken jwt clock ctx tokenString

/-- `tryAuth` is for methods where authentication is optional. -/
def tryAuth (ss : SimpleServer κ σ δ) (jwt : Library JWTClaims κ σ) (clock : Clock)
    (ctx : Context δ) : Except GoErr (Context δ) :=
  match ss.ensureAuthed jwt clock ctx with
  | .ok nextCtx => .ok nextCtx
  | .error err =>
    if statusCode (convert (some err)) = .unauthenticated then .ok ctx else .error err

end SimpleServer

end Goutils.Auth
