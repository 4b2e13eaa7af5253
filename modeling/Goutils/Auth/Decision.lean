import Goutils.Auth.Server

namespace Goutils.Auth
open Lib.Jwt
open Lib (hasPrefix trimPrefix hasPrefix_append trimPrefix_append append_trimPrefix)
open Goutils.Rpc (GoErr)
set_option autoImplicit true

def Context.authorization (ctx : Context δ) : List String :=
  (ctx.incoming.map fun md => fieldValues md MetadataFieldAuthorization).getD []

theorem tokenFromContext_eq_ok_iff (ctx : Context δ) :
    tokenFromContext ctx = .ok raw ↔
      ctx.authorization = [AuthorizationValuePrefixBearer ++ raw] := by
  unfold tokenFromContext Context.authorization
  cases ctx.incoming with
  | none => simp
  | some md =>
    simp only [Option.map_some, Option.getD_some]
    split
    · rename_i value hvalue
      rw [hvalue]
      split
      · rename_i hbearer
        simp only [Except.ok.injEq, List.cons.injEq, and_true]
        constructor
        · rintro rfl
          exact (append_trimPrefix hbearer).symm
        · rintro rfl
          exact trimPrefix_append _ _
      · rename_i hbearer
        simp only [reduceCtorEq, List.cons.injEq, and_true, false_iff]
        rintro rfl
        exact hbearer (hasPrefix_append _ _)
    · rename_i hvalues
      simp only [reduceCtorEq, false_iff]
      exact hvalues _

/-- The key of its credential type's provider, or the server's own that the token names. -/
inductive VerificationKey (ss : SimpleServer κ σ δ) (ctx : Context δ) (token : Token JWTClaims)
    (handlers : CredAuthHandlers κ δ) : Option κ → Prop where
  | provided : handlers.tokenVerificationKeyProvider = some provider →
      provider ctx token = .ok key → VerificationKey ss ctx token handlers key
  | own : handlers.tokenVerificationKeyProvider = none → token.kid = some keyID →
      ss.authKeys.lookup keyID = some keyData → keyData.method = some token.method →
      VerificationKey ss ctx token handlers keyData.publicKey

theorem verificationKey_eq_ok_iff (ss : SimpleServer κ σ δ) :
    ss.verificationKey ctx token = .ok (handlers, key) ↔
      ss.authHandlersForCreds.lookup token.claims.authCredentialsType = some handlers ∧
        VerificationKey ss ctx token handlers key := by
  constructor
  · intro h
    unfold SimpleServer.verificationKey SimpleServer.authHandlers at h
    cases hlookup : ss.authHandlersForCreds.lookup token.claims.authCredentialsType with
    | none => simp [hlookup] at h
    | some handlers' =>
      simp only [hlookup] at h
      split at h
      · rename_i provider hprovider
        cases hkey : provider ctx token with
        | error err => simp [hkey, Except.map] at h
        | ok key' =>
          simp only [hkey, Except.map, Except.ok.injEq, Prod.mk.injEq] at h
          obtain ⟨rfl, rfl⟩ := h
          exact ⟨rfl, .provided hprovider hkey⟩
      · rename_i hprovider
        split at h
        · cases h
        rename_i keyID hkid
        split at h
        · cases h
        rename_i keyData hdata
        split at h
        · cases h
        rename_i method hmethod
        split at h
        · rename_i heq
          cases h
          exact ⟨rfl, .own hprovider hkid hdata (heq ▸ hmethod)⟩
        · cases h
  · rintro ⟨hlookup, hkey⟩
    cases hkey with
    | provided hprovider hkey =>
      simp only [SimpleServer.verificationKey, SimpleServer.authHandlers, hlookup, hprovider, hkey,
        Except.map]
    | own hprovider hkid hdata hmethod =>
      simp only [SimpleServer.verificationKey, SimpleServer.authHandlers, hlookup, hprovider, hkid,
        hdata, hmethod, ↓reduceIte]

def LoadsEntity (handlers : CredAuthHandlers κ δ) (ctx : Context δ) (claims : JWTClaims) : Prop :=
  ∀ load, handlers.entityDataLoader = some load → ∃ data, load ctx claims = .ok data

theorem entityData_isOk_iff (handlers : CredAuthHandlers κ δ) :
    (∃ data, SimpleServer.entityData handlers ctx claims = .ok data) ↔
      LoadsEntity handlers ctx claims := by
  unfold SimpleServer.entityData LoadsEntity
  cases handlers.entityDataLoader with
  | none => simp
  | some load =>
    simp only [Option.some.injEq, forall_eq']
    cases load ctx claims with
    | ok data => simp
    | error err => cases err <;> simp

/-- What a token has to fulfil for its subject `e` to be let in. -/
structure Accepts (ss : SimpleServer κ σ δ) (jwt : Library JWTClaims κ σ) (clock : Clock)
    (ctx : Context δ) (raw e : String) (token : Token JWTClaims) (handlers : CredAuthHandlers κ δ)
    (key : Option κ) : Prop where
  parsed : jwt.parseUnverified raw = .ok token
  method : token.method.alg ∈ validSigningMethods
  registered : ss.authHandlersForCreds.lookup token.claims.authCredentialsType = some handlers
  keyed : VerificationKey ss ctx token handlers key
  signature : jwt.verify token.method raw key = none
  valid : jwt.valid clock.parsing token.claims = none ∧ jwt.valid clock.checking token.claims = none
  audience : ∃ aud ∈ ss.authAudience, verifyAud token.claims.audience aud true = true
  subject : token.claims.subject = e
  nonempty : e ≠ ""
  loads : LoadsEntity handlers ctx token.claims

theorem ensureToken_eq_ok_iff (ss : SimpleServer κ σ δ) (jwt : Library JWTClaims κ σ) :
    (∃ ctx', ss.ensureToken jwt clock ctx raw = .ok ctx' ∧
        ctx'.authEntity.map EntityInfo.entity = some e) ↔
      ∃ token handlers key, Accepts ss jwt clock ctx raw e token handlers key := by
  constructor
  · rintro ⟨ctx', h, he⟩
    unfold SimpleServer.ensureToken at h
    split at h
    · cases h
    rename_i token handlers hparse
    obtain ⟨hparsed, hmethod, ⟨key, hkey, hverify⟩, hvalid⟩ :=
      (jwt.parseWithClaims_eq_ok_iff).1 hparse
    have hkey' : ss.verificationKey ctx token = .ok (handlers, key) := by
      cases hk : ss.verificationKey ctx token with
      | error err => simp [hk, Except.mapError] at hkey
      | ok p =>
        simp only [hk, Except.mapError, Except.ok.injEq] at hkey
        rw [hkey]
    obtain ⟨hregistered, hkey'⟩ := (verificationKey_eq_ok_iff ss).1 hkey'
    split at h
    · rename_i haud
      split at h
      · cases h
      rename_i hchecked
      split at h
      · cases h
      rename_i hsubject
      cases hdata : SimpleServer.entityData handlers ctx token.claims with
      | error err => simp [hdata, Except.map] at h
      | ok data =>
        simp only [hdata, Except.map, Except.ok.injEq] at h
        subst h
        simp only [Context.withAuthEntity, Option.map_some, Option.some.injEq] at he
        refine ⟨token, handlers, key, {
          parsed := hparsed
          method := hmethod
          registered := hregistered
          keyed := hkey'
          signature := hverify
          valid := ⟨hvalid, hchecked⟩
          audience := List.any_eq_true.1 haud
          subject := he
          nonempty := he ▸ hsubject
          loads := (entityData_isOk_iff handlers).1 ⟨data, hdata⟩ }⟩
    · cases h
  · rintro ⟨token, handlers, key, h⟩
    have hkey : ss.verificationKey ctx token = .ok (handlers, key) :=
      (verificationKey_eq_ok_iff ss).2 ⟨h.registered, h.keyed⟩
    have hparse : jwt.parseWithClaims clock.parsing raw
        (fun token => (ss.verificationKey ctx token).mapError GoErr.error) validSigningMethods =
          .ok (token, handlers) := by
      refine jwt.parseWithClaims_eq_ok_iff.2 ⟨h.parsed, h.method, ⟨key, ?_, h.signature⟩, h.valid.1⟩
      rw [hkey]
      rfl
    have haud : ss.audVerified token.claims = true := List.any_eq_true.2 h.audience
    have hsubject : token.claims.subject ≠ "" := h.subject ▸ h.nonempty
    obtain ⟨data, hdata⟩ := (entityData_isOk_iff handlers).2 h.loads
    refine ⟨ctx.withAuthEntity ⟨token.claims.subject, data⟩, ?_, congrArg some h.subject⟩
    simp only [SimpleServer.ensureToken, hparse, haud, ↓reduceIte, h.valid.2, if_neg hsubject,
      hdata, Except.map]

/-- The TLS auth handler accepts the peer, whose certificate gives the entity. -/
structure AcceptsTLS (ss : SimpleServer κ σ δ) (ctx : Context δ) (e : String)
    (tlsAuthHandler : Context δ → List String → Option GoErr) (cert : Certificate) : Prop where
  configured : ss.tlsAuthHandler = some tlsAuthHandler
  chain : ∃ rest chains, ctx.peer = some { authInfo := some (.tls ((cert :: rest) :: chains)) }
  accepted : tlsAuthHandler ctx cert.dnsNames = none
  entity : e = cert.issuer ++ ":" ++ toString cert.serialNumber

theorem verifiedCert_eq_some_iff (ctx : Context δ) :
    verifiedCert ctx = some cert ↔
      ∃ rest chains, ctx.peer = some { authInfo := some (.tls ((cert :: rest) :: chains)) } := by
  unfold verifiedCert
  split
  · rename_i chain chains hpeer
    rw [hpeer]
    cases chain with
    | nil | cons leaf rest => simp
  · rename_i hpeer
    simp only [reduceCtorEq, false_iff, not_exists]
    intro rest chains h
    exact hpeer _ _ h

theorem ensureTLS_eq_ok_iff (ss : SimpleServer κ σ δ) :
    (∃ ctx', ss.ensureTLS ctx err = .ok ctx' ∧
        ctx'.authEntity.map EntityInfo.entity = some e) ↔
      ∃ tlsAuthHandler cert, AcceptsTLS ss ctx e tlsAuthHandler cert := by
  constructor
  · rintro ⟨ctx', h, he⟩
    unfold SimpleServer.ensureTLS at h
    split at h
    · cases h
    rename_i tlsAuthHandler hconfigured
    split at h
    · cases h
    rename_i cert hcert
    split at h
    · rename_i haccepted
      cases h
      exact ⟨tlsAuthHandler, cert, hconfigured, (verifiedCert_eq_some_iff ctx).1 hcert, haccepted,
        (Option.some.inj he).symm⟩
    · cases h
  · rintro ⟨tlsAuthHandler, cert, hconfigured, hchain, haccepted, rfl⟩
    have hcert : verifiedCert ctx = some cert := (verifiedCert_eq_some_iff ctx).2 hchain
    refine ⟨ctx.withAuthEntity { entity := cert.issuer ++ ":" ++ toString cert.serialNumber }, ?_,
      rfl⟩
    simp only [SimpleServer.ensureTLS, hconfigured, hcert, haccepted]

/-- Who is let in: the subject of the one bearer token, or else the holder of an accepted
certificate. -/
theorem ensureAuthed_eq_ok_iff (ss : SimpleServer κ σ δ) (jwt : Library JWTClaims κ σ)
    (clock : Clock) (ctx : Context δ) (e : String) (hreal : ss.ensureAuthedHandler = none) :
    (∃ ctx', ss.ensureAuthed jwt clock ctx = .ok ctx' ∧
        ctx'.authEntity.map EntityInfo.entity = some e) ↔
      (∃ raw token handlers key,
        ctx.authorization = [AuthorizationValuePrefixBearer ++ raw] ∧
          Accepts ss jwt clock ctx raw e token handlers key) ∨
      ((¬ ∃ raw, ctx.authorization = [AuthorizationValuePrefixBearer ++ raw]) ∧
        ∃ tlsAuthHandler cert, AcceptsTLS ss ctx e tlsAuthHandler cert) := by
  unfold SimpleServer.ensureAuthed
  simp only [hreal]
  cases htoken : tokenFromContext ctx with
  | ok raw =>
    have hraw := (tokenFromContext_eq_ok_iff ctx).1 htoken
    rw [ensureToken_eq_ok_iff]
    constructor
    · rintro ⟨token, handlers, key, h⟩
      exact .inl ⟨raw, token, handlers, key, hraw, h⟩
    · rintro (⟨raw', token, handlers, key, hraw', h⟩ | ⟨hnone, _⟩)
      · have heq := (tokenFromContext_eq_ok_iff ctx).2 hraw'
        rw [htoken, Except.ok.injEq] at heq
        exact ⟨token, handlers, key, heq ▸ h⟩
      · exact absurd ⟨raw, hraw⟩ hnone
  | error err =>
    have hnone : ¬ ∃ raw, ctx.authorization = [AuthorizationValuePrefixBearer ++ raw] := by
      rintro ⟨raw, hraw⟩
      rw [← tokenFromContext_eq_ok_iff, htoken] at hraw
      cases hraw
    rw [ensureTLS_eq_ok_iff]
    constructor
    · exact fun h => .inr ⟨hnone, h⟩
    · rintro (⟨raw, _, _, _, hraw, _⟩ | ⟨_, h⟩)
      · exact absurd ⟨raw, hraw⟩ hnone
      · exact h

def oneToken (token : Token JWTClaims) : Library JWTClaims Nat Nat where
  parseUnverified raw := if raw = "t" then .ok token else .error "malformed"
  verify method _ key :=
    if method = token.method ∧ key = some 7 then none else some "signature is invalid"
  valid _ _ := none
  signedString made priv := if made = token ∧ priv = some 7 then .ok "t" else .error "no key"

def aliceToken : Token JWTClaims where
  method := .edDSA
  kid := some "k"
  claims := { subject := "alice", audience := ["srv"], authCredentialsType := "api-key" }

def oneKeyServer : SimpleServer Nat Nat Unit where
  authKeys := AList.singleton "k" ⟨"k", some .edDSA, some 7, some 7⟩
  authHandlersForCreds := AList.singleton "api-key" {}
  authAudience := ["srv"]

theorem ensureAuthed_eq_ok_iff_alice :
    ∃ raw token handlers key,
      Accepts oneKeyServer (oneToken aliceToken) ⟨0, 0⟩
        { incoming := some [("authorization", ["Bearer t"])] } raw "alice" token handlers key := by
  have hdecision := (ensureAuthed_eq_ok_iff oneKeyServer (oneToken aliceToken) ⟨0, 0⟩
    { incoming := some [("authorization", ["Bearer t"])] } "alice" rfl).1 ⟨_, rfl, rfl⟩
  rcases hdecision with ⟨raw, token, handlers, key, _, h⟩ | ⟨hnone, _⟩
  · exact ⟨raw, token, handlers, key, h⟩
  · exact absurd ⟨"t", rfl⟩ hnone

end Goutils.Auth
