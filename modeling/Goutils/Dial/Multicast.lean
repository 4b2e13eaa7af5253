import Goutils.Dial.CacheKey
import Goutils.Lib.Traced
import Goutils.Rpc.Errors

namespace Goutils.Dial
open Lib
open Lib.Wire (Bytes)
open Goutils.Rpc (GoErr)
set_option autoImplicit true

/-- The name that a server has to prove is all that dialing sets in a TLS config. -/
structure TLSConfig where
  serverName : Bytes := []
  deriving DecidableEq

/-- `dialOptions` with the settings that decide how to connect. -/
structure FullDialOptions extends DialOptions where
  insecure : Bool := false
  tlsConfig : Option TLSConfig := none
  allowInsecureDowngrade : Bool := false
  allowInsecureWithCredsDowngrade : Bool := false
  webrtcOptsSet : Bool := false
  webrtcDisable : Bool := false
  webrtcSignalingInsecure : Bool := false
  webrtcSignalingExternalAuthInsecure : Bool := false
  webrtcAllowAutoDetectAuthOptions : Bool := false
  externalAuthInsecure : Bool := false
  mdnsDisable : Bool := false
  mdnsRemoveAuthCredentials : Bool := false
  usingMDNS : Bool := false
  disableDirect : Bool := false

inductive Transport where
  | insecure
  | tls (config : TLSConfig)
  deriving DecidableEq

/-- The credentials that go with every request. -/
inductive PerRPCCredentials where
  | static (authMaterial : Bytes)
  | jwt (entity : Bytes) (creds : Credentials) (externalAuthMaterial : Bytes)
      (externalAuthToEntity : Option Bytes)
  deriving DecidableEq

structure Attempt where
  address : Bytes
  transport : Transport
  perRPC : Option PerRPCCredentials
  deriving DecidableEq

/-- What goes out; `reuse` is a connection of the cached dialer with what it was dialed with. -/
inductive DialEvent where
  | probe (address : Bytes) (config : TLSConfig)
  | attempt (a : Attempt)
  | reuse (perRPC : Option PerRPCCredentials)
  deriving DecidableEq

abbrev Dialing := Traced GoErr DialEvent

inductive Probe where
  | tls
  | notTLS
  | failed
  deriving DecidableEq

structure IPv4 where
  a : UInt8
  b : UInt8
  c : UInt8
  d : UInt8

structure ServiceEntry where
  text : List Bytes
  addrIPv4 : List IPv4
  port : Nat
  serviceName : String

/-- What dialing depends on besides its options; answers may change with what has happened. -/
structure DialEnv where
  ctxErr : List DialEvent → Option GoErr
  lookupMDNSCandidate : List DialEvent → Except GoErr ServiceEntry
  splitHostPort : Bytes → Except GoErr (Bytes × Bytes)
  parseUint16 : Bytes → Except GoErr Nat
  probe : List DialEvent → Bytes → TLSConfig → Probe
  dialContext : List DialEvent → Attempt → Except GoErr Unit
  signal : List DialEvent → Except GoErr Unit
  cached : Option (List DialEvent → Bytes → Bytes → Bytes → Option (Option PerRPCCredentials)) :=
    none

def bytesOf (s : String) : Bytes := s.toUTF8.data.toList

def IPv4.text (ip : IPv4) : Bytes :=
  bytesOf (toString ip.a) ++ bytesOf ("." ++ toString ip.b ++ "." ++ toString ip.c ++ "." ++
    toString ip.d)

def colon : UInt8 := 58

def errNoWebRTCSignaler : GoErr := .text "no signaler present"

def errInsecureWithCredentials : GoErr :=
  .text "requested address is insecure and will not send credentials"

def errConnectionOptionsExhausted : GoErr :=
  .text "exhausted all connection options with no way to connect"

def hostPort (target : Bytes) (port : Nat) : Bytes :=
  target ++ colon :: bytesOf (toString port)

def containsBytes (s sub : Bytes) : Bool := s.tails.any fun rest => sub.isPrefixOf rest

namespace FullDialOptions

def fixupWebRTCOptions (o : FullDialOptions) (target : Bytes) (port : Nat) : FullDialOptions :=
  let w := o.webrtcOpts
  { o with
    webrtcOpts := {
      signalingServerAddress := hostPort target port
      signalingExternalAuthAddress :=
        if w.signalingExternalAuthAddress = [] then o.externalAuthAddr
        else w.signalingExternalAuthAddress
      signalingExternalAuthToEntity :=
        if w.signalingExternalAuthToEntity = [] then o.externalAuthToEntity
        else w.signalingExternalAuthToEntity
      signalingExternalAuthAuthMaterial :=
        if w.signalingExternalAuthAuthMaterial = [] then o.externalAuthMaterial
        else w.signalingExternalAuthAuthMaterial
      signalingAuthEntity :=
        if w.signalingAuthEntity = [] then o.authEntity else w.signalingAuthEntity
      signalingCreds := if w.signalingCreds.type = [] then o.creds else w.signalingCreds }
    webrtcSignalingInsecure :=
      if o.webrtcOptsSet then o.webrtcSignalingInsecure else o.insecure
    webrtcSignalingExternalAuthInsecure :=
      if o.webrtcOptsSet then o.webrtcSignalingExternalAuthInsecure else o.externalAuthInsecure }

def signaling (o : FullDialOptions) (host : Bytes) : FullDialOptions :=
  let w := o.webrtcOpts
  { o with
    insecure := o.webrtcSignalingInsecure
    authEntity :=
      if w.signalingAuthEntity = [] then
        if w.signalingExternalAuthAddress = [] then host else w.signalingExternalAuthAddress
      else w.signalingAuthEntity
    creds := w.signalingCreds
    externalAuthAddr := w.signalingExternalAuthAddress
    externalAuthToEntity := w.signalingExternalAuthToEntity
    externalAuthInsecure := o.webrtcSignalingExternalAuthInsecure
    externalAuthMaterial := w.signalingExternalAuthAuthMaterial }

def external (o : FullDialOptions) : FullDialOptions :=
  { o with
    externalAuthAddr := []
    insecure := o.externalAuthInsecure
    externalAuthMaterial := []
    creds := {}
    authEntity := []
    tlsConfig := some {} }

def removeAuth (o : FullDialOptions) : FullDialOptions :=
  { o with creds := {}, authEntity := [], externalAuthToEntity := [], externalAuthMaterial := [] }

def removeSignalingAuth (o : FullDialOptions) : FullDialOptions :=
  { o with
    webrtcOpts := { o.webrtcOpts with
      signalingAuthEntity := []
      signalingCreds := {}
      signalingExternalAuthAuthMaterial := [] } }

end FullDialOptions

section

variable (env : DialEnv)

def transportCredentials (address : Bytes) (o : FullDialOptions) : Dialing Transport :=
  if o.insecure then pure .insecure
  else
    let config := o.tlsConfig.getD {}
    if o.allowInsecureDowngrade || o.allowInsecureWithCredsDowngrade then do
      let probe ← Traced.ask fun trace => .ok (env.probe trace address config)
      Traced.emit (.probe address config)
      let hasLocalCreds := decide (o.creds.type ≠ [] ∧ o.externalAuthAddr = [])
      if probe = .notTLS then
        if decide (o.creds.type = []) || !hasLocalCreds || o.allowInsecureWithCredsDowngrade then
          pure .insecure
        else Traced.fail errInsecureWithCredentials
      else pure (.tls config)
    else pure (.tls config)

def lookupConn (proto target keyExtra : Bytes) : Dialing (Option (Option PerRPCCredentials)) :=
  Traced.ask fun trace => .ok (env.cached.bind fun cached => cached trace proto target keyExtra)

/-- `dialFunc`, which is that of the cached dialer where the context has one. -/
def dialFunc (proto target keyExtra : Bytes) (f : Dialing Unit) : Dialing Unit := do
  match ← lookupConn env proto target keyExtra with
  | some perRPC => Traced.emit (.reuse perRPC)
  | none =>
    f
    -- someone else might have connected
    match ← lookupConn env proto target keyExtra with
    | some perRPC => Traced.emit (.reuse perRPC)
    | none => pure ()

def dialContext (a : Attempt) : Dialing Unit := do
  Traced.emit (.attempt a)
  Traced.ask fun trace => env.dialContext trace a

def perRPCCredentials (external : FullDialOptions → Dialing Unit) (o : FullDialOptions) :
    Dialing (Option PerRPCCredentials) :=
  if o.authMaterial ≠ [] then pure (some (.static o.authMaterial))
  else if o.creds.type ≠ [] ∨ o.externalAuthMaterial ≠ [] then
    if o.externalAuthAddr ≠ [] then do
      external o
      pure (some (.jwt o.authEntity o.creds o.externalAuthMaterial (some o.externalAuthToEntity)))
    else pure (some (.jwt o.authEntity o.creds o.externalAuthMaterial none))
  else pure none

def directGRPC (external : FullDialOptions → Dialing Unit) (address : Bytes) (o : FullDialOptions) :
    Dialing Unit := do
  let transport ← transportCredentials env address o
  let perRPC ← perRPCCredentials external o
  dialFunc env (bytesOf "grpc") address o.hasher (dialContext env ⟨address, transport, perRPC⟩)

/-- It dials without credentials, so no external auth service is asked again. -/
def dialExternalAuthEntity (o : FullDialOptions) : Dialing Unit :=
  if o.externalAuthToEntity = [] then
    Traced.fail (.text "external auth address set but no authenticate to option set")
  else directGRPC env (fun _ => pure ()) o.externalAuthAddr o.external

def dialDirectGRPC (address : Bytes) (o : FullDialOptions) : Dialing Unit :=
  directGRPC env (dialExternalAuthEntity env) address o

def dialSignalingServer (signalingServer host : Bytes) (o : FullDialOptions) : Dialing Unit :=
  dialDirectGRPC env signalingServer (o.signaling host)

/-- `dialWebRTC`; what follows the connection to the signaling server is the environment's. -/
def dialWebRTC (signalingServer host : Bytes) (o : FullDialOptions) : Dialing Unit := do
  dialSignalingServer env signalingServer host o
  Traced.ask env.signal

def getWebRTCTargetFromAddressWithDefaults (signalingAddress : Bytes) :
    Except GoErr (Bytes × Nat) :=
  if signalingAddress.contains colon then
    match env.splitHostPort signalingAddress with
    | .error err => .error err
    | .ok (host, portStr) =>
      let target :=
        if host.contains colon then bytesOf "[" ++ host ++ bytesOf "]" else host
      (env.parseUint16 portStr).map fun port => (target, port)
  else .ok (signalingAddress, 443)

def webrtcOptions (address : Bytes) (o : FullDialOptions) : Except GoErr FullDialOptions :=
  let signalingAddress := o.webrtcOpts.signalingServerAddress
  if signalingAddress = [] ∨ o.webrtcAllowAutoDetectAuthOptions = true then
    (getWebRTCTargetFromAddressWithDefaults env
        (if signalingAddress = [] then address else signalingAddress)).map fun (target, port) =>
      let o := o.fixupWebRTCOptions target port
      if o.usingMDNS = false ∧ o.authMaterial = [] ∧
          o.webrtcOpts.signalingExternalAuthAuthMaterial ≠ [] then
        { o with authMaterial := o.webrtcOpts.signalingExternalAuthAuthMaterial, creds := {} }
      else o
  else .ok o

inductive DialResult where
  | conn
  | err (e : GoErr) (skipDirect : Bool)

def dialByWebRTC (address originalAddress : Bytes) (o : FullDialOptions) : Dialing DialResult :=
  match webrtcOptions env address o with
  | .error err => pure (.err err true)
  | .ok o => do
    let server := o.webrtcOpts.signalingServerAddress
    let outcome ← (dialFunc env (bytesOf "webrtc") (server ++ bytesOf "->" ++ originalAddress)
      o.hasher (dialWebRTC env server originalAddress o)).outcome
    match outcome with
    | .ok () => pure .conn
    | .error err =>
      if err.is errNoWebRTCSignaler then do
        let ctxErr ← Traced.ask fun trace => .ok (env.ctxErr trace)
        pure (match ctxErr with
          | some e => .err e true
          | none => .err err false)
      else pure (.err err true)

def dialDirectly (address : Bytes) (o : FullDialOptions) (nonFatalErr : Option GoErr) :
    Dialing Unit :=
  if o.disableDirect then Traced.fail errConnectionOptionsExhausted
  else do
    let outcome ← (dialDirectGRPC env address o).outcome
    match outcome with
    | .ok () => pure ()
    | .error directErr =>
      Traced.fail (nonFatalErr.elim directErr fun err => .combine directErr err)

/-- A socket of the local host is only dialed directly. -/
def addressOptions (address : Bytes) (o : FullDialOptions) : FullDialOptions :=
  if (bytesOf "unix://").isPrefixOf address then
    { o with mdnsDisable := true, webrtcDisable := true, insecure := true, disableDirect := false }
  else o

def dial (address originalAddress : Bytes) (o : FullDialOptions) : Dialing Unit := do
  let ctxErr ← Traced.ask fun trace => .ok (env.ctxErr trace)
  match ctxErr with
  | some e => Traced.fail e
  | none =>
    let o := addressOptions address o
    if o.webrtcDisable then dialDirectly env address o none
    else do
      let result ← dialByWebRTC env address originalAddress o
      match result with
      | .conn => pure ()
      | .err e true => Traced.fail e
      | .err e false => dialDirectly env address o (some e)

/-- The options that `dialMulticastDNS` dials a service with, which has a WebRTC signaler or not. -/
def multicastOptions (address : Bytes) (entry : ServiceEntry) (ip : IPv4) (hasWebRTC : Bool)
    (o : FullDialOptions) : FullDialOptions :=
  let o := { o with usingMDNS := true }
  let o := if o.mdnsRemoveAuthCredentials then o.removeAuth else o
  let o :=
    if hasWebRTC then
      let o := o.fixupWebRTCOptions ip.text (entry.port % 2 ^ 16)
      if o.mdnsRemoveAuthCredentials then o.removeSignalingAuth else o
    else { o with webrtcDisable := true }
  { o with tlsConfig := some { serverName := address } }

def dialMulticastDNS (address : Bytes) (o : FullDialOptions) : Dialing Unit := do
  let entry ← Traced.ask env.lookupMDNSCandidate
  let hasGRPC := entry.text.any fun field => containsBytes field (bytesOf "grpc")
  let hasWebRTC := entry.text.any fun field => containsBytes field (bytesOf "webrtc")
  match hasGRPC || hasWebRTC, entry.addrIPv4 with
  | true, ip :: _ =>
    dial env (hostPort ip.text entry.port) address (multicastOptions address entry ip hasWebRTC o)
  | _, _ =>
    Traced.fail (.text ("mDNS query found a service without an IPv4 address that does not " ++
      "support grpc or webrtc: " ++ entry.serviceName.quote))

end

/-- What a run presents: the credentials of its attempts and of the connections that it reuses. -/
def DialEvent.perRPC : DialEvent → Option (Option PerRPCCredentials)
  | .probe _ _ => none
  | .attempt a => some a.perRPC
  | .reuse perRPC => some perRPC

def presented (env : DialEnv) (address : Bytes) (o : FullDialOptions) :
    List (Option PerRPCCredentials) :=
  (dialMulticastDNS env address o []).1.filterMap DialEvent.perRPC

def materialCredentials (authMaterial : Bytes) : Option PerRPCCredentials :=
  if authMaterial ≠ [] then some (.static authMaterial) else none

/-- Options without credentials for the address itself. -/
structure FullDialOptions.Bare (o : FullDialOptions) : Prop where
  creds : o.creds.type = []
  externalAuthMaterial : o.externalAuthMaterial = []

/-- Options without credentials for a signaling server. -/
structure FullDialOptions.BareSignaling (o : FullDialOptions) : Prop where
  creds : o.webrtcOpts.signalingCreds.type = []
  externalAuthMaterial : o.webrtcOpts.signalingExternalAuthAuthMaterial = []

variable {o : FullDialOptions} {env : DialEnv}

theorem perRPCCredentials_bare (ho : o.Bare) (external : FullDialOptions → Dialing Unit) :
    perRPCCredentials external o = pure (materialCredentials o.authMaterial) := by
  have hnone : ¬ (o.creds.type ≠ [] ∨ o.externalAuthMaterial ≠ []) := by
    rw [ho.creds, ho.externalAuthMaterial]
    simp
  rw [perRPCCredentials, materialCredentials, if_neg hnone]
  split <;> rfl

theorem webrtcOptions_bare (ho : o.Bare) (hs : o.BareSignaling)
    (h : webrtcOptions env address o = .ok o') :
    o'.BareSignaling ∧ o'.authMaterial = o.authMaterial := by
  unfold webrtcOptions at h
  dsimp only at h
  split at h
  · cases ht : getWebRTCTargetFromAddressWithDefaults env
        (if o.webrtcOpts.signalingServerAddress = [] then address
          else o.webrtcOpts.signalingServerAddress) with
    | error err =>
      rw [ht] at h
      cases h
    | ok target =>
      have hfixed : (o.fixupWebRTCOptions target.1 target.2).BareSignaling := by
        constructor
        · simp only [FullDialOptions.fixupWebRTCOptions, hs.creds, ↓reduceIte, ho.creds]
        · simp only [FullDialOptions.fixupWebRTCOptions, hs.externalAuthMaterial, ↓reduceIte,
            ho.externalAuthMaterial]
      rw [ht] at h
      simp only [Except.map, Except.ok.injEq] at h
      rw [if_neg (fun hcond => hcond.2.2 hfixed.externalAuthMaterial)] at h
      subst h
      exact ⟨hfixed, rfl⟩
  · cases h
    exact ⟨hs, rfl⟩

theorem addressOptions_of_ip (ip : IPv4) (port : Nat) (o : FullDialOptions) :
    addressOptions (hostPort ip.text port) o = o := by
  have hdigit : ∀ n : Fin 256, (bytesOf (toString (UInt8.ofNat n))).head?.all (· ≠ 117) = true ∧
      bytesOf (toString (UInt8.ofNat n)) ≠ [] := by decide +kernel
  have hhead := hdigit ⟨ip.a.toNat, ip.a.toNat_lt⟩
  rw [UInt8.ofNat_toNat] at hhead
  rw [addressOptions, if_neg]
  rw [hostPort, IPv4.text]
  cases hbytes : bytesOf (toString ip.a) with
  | nil => exact absurd hbytes hhead.2
  | cons b l =>
    rw [hbytes] at hhead
    have hb : b ≠ 117 := by simpa using hhead.1
    have hunix : bytesOf "unix://" = 117 :: bytesOf "nix://" := by decide
    rw [hunix, List.cons_append, List.cons_append, List.isPrefixOf_cons_cons]
    simp [hb.symm]

theorem multicastOptions_bare (hremove : o.mdnsRemoveAuthCredentials = true) (address : Bytes)
    (entry : ServiceEntry) (ip : IPv4) (hasWebRTC : Bool) :
    (multicastOptions address entry ip hasWebRTC o).Bare ∧
      ((multicastOptions address entry ip hasWebRTC o).webrtcDisable = true ∨
        (multicastOptions address entry ip hasWebRTC o).BareSignaling) ∧
      (multicastOptions address entry ip hasWebRTC o).authMaterial = o.authMaterial := by
  cases hasWebRTC with
  | false =>
    simp only [multicastOptions, hremove, ↓reduceIte, Bool.false_eq_true]
    exact ⟨⟨rfl, rfl⟩, .inl trivial, rfl⟩
  | true =>
    simp only [multicastOptions, FullDialOptions.fixupWebRTCOptions, FullDialOptions.removeAuth,
      hremove, ↓reduceIte]
    exact ⟨⟨rfl, rfl⟩, .inr ⟨rfl, rfl⟩, rfl⟩

def robotEntry (text : List Bytes) : ServiceEntry := ⟨text, [⟨10, 0, 0, 1⟩], 8080, "robot"⟩

/-- A service at an address that parses and speaks TLS, with a constant cache or none. -/
def robot (text : List Bytes)
    (cached : Option (Bytes → Bytes → Bytes → Option (Option PerRPCCredentials))) : DialEnv where
  ctxErr _ := none
  lookupMDNSCandidate _ := .ok (robotEntry text)
  splitHostPort _ := .ok (bytesOf "10.0.0.1", bytesOf "8080")
  parseUint16 _ := .ok 8080
  probe _ _ _ := .tls
  dialContext _ _ := .ok ()
  signal _ := .ok ()
  cached := cached.map fun cached _ => cached

section

variable (text : List Bytes)
  (cached : Option (Bytes → Bytes → Bytes → Option (Option PerRPCCredentials)))

theorem transportCredentials_yields (address : Bytes) (o : FullDialOptions) :
    ∃ transport, Traced.Yields DialEvent.perRPC [] transport
      (transportCredentials (robot text cached) address o) := by
  unfold transportCredentials
  split
  · exact ⟨_, .pure _⟩
  · dsimp only
    split
    · have hprobe : Traced.Yields DialEvent.perRPC [] Probe.tls (Traced.ask fun trace =>
          (.ok ((robot text cached).probe trace address (o.tlsConfig.getD {})) :
            Except GoErr Probe)) := .ask fun _ => rfl
      refine ⟨.tls (o.tlsConfig.getD {}), hprobe.bind ?_⟩
      exact (Traced.Yields.emit _ _).bind (.pure _)
    · exact ⟨_, .pure _⟩

theorem dialFunc_yields {x : Dialing Unit} (hx : Traced.Yields DialEvent.perRPC [perRPC] () x)
    (proto target keyExtra : Bytes) :
    Traced.Yields DialEvent.perRPC
      [(cached.bind fun conns => conns proto target keyExtra).getD perRPC] ()
      (dialFunc (robot text cached) proto target keyExtra x) := by
  have hlookup : Traced.Yields DialEvent.perRPC [] (cached.bind fun conns =>
      conns proto target keyExtra) (lookupConn (robot text cached) proto target keyExtra) := by
    refine .ask fun trace => ?_
    cases cached <;> rfl
  cases hhit : cached.bind fun conns => conns proto target keyExtra with
  | some perRPC =>
    rw [hhit] at hlookup
    exact hlookup.bind (.emit _ _)
  | none =>
    rw [hhit] at hlookup
    exact hlookup.bind (hx.bind (hlookup.bind (.pure ())))

theorem directGRPC_yields (ho : o.Bare) (external : FullDialOptions → Dialing Unit)
    (address : Bytes) :
    Traced.Yields DialEvent.perRPC [(cached.bind fun conns =>
        conns (bytesOf "grpc") address o.hasher).getD (materialCredentials o.authMaterial)] ()
      (directGRPC (robot text cached) external address o) := by
  obtain ⟨transport, htransport⟩ := transportCredentials_yields text cached address o
  refine htransport.bind ?_
  rw [perRPCCredentials_bare ho]
  refine (Traced.Yields.pure _).bind (dialFunc_yields text cached ?_ _ _ _)
  exact (Traced.Yields.emit _ _).bind (.ask fun _ => rfl)

theorem webrtcOptions_robot (address : Bytes) (o : FullDialOptions) :
    ∃ o', webrtcOptions (robot text cached) address o = .ok o' := by
  have htarget (address : Bytes) :
      ∃ t, getWebRTCTargetFromAddressWithDefaults (robot text cached) address = .ok t := by
    unfold getWebRTCTargetFromAddressWithDefaults
    split
    · exact ⟨_, rfl⟩
    · exact ⟨_, rfl⟩
  unfold webrtcOptions
  dsimp only
  split
  · obtain ⟨t, ht⟩ := htarget
      (if o.webrtcOpts.signalingServerAddress = [] then address
        else o.webrtcOpts.signalingServerAddress)
    rw [ht]
    exact ⟨_, rfl⟩
  · exact ⟨_, rfl⟩

theorem dialByWebRTC_yields (ho : o.Bare) (hs : o.BareSignaling) (address originalAddress : Bytes) :
    Traced.Yields DialEvent.perRPC [materialCredentials o.authMaterial] .conn
      (dialByWebRTC (robot text none) address originalAddress o) := by
  obtain ⟨o', hopts⟩ := webrtcOptions_robot text none address o
  obtain ⟨hs', hmaterial⟩ := webrtcOptions_bare ho hs hopts
  have hbare : (o'.signaling originalAddress).Bare := ⟨hs'.creds, hs'.externalAuthMaterial⟩
  rw [dialByWebRTC, hopts, ← hmaterial]
  have hweb : Traced.Yields DialEvent.perRPC [materialCredentials o'.authMaterial] ()
      (dialWebRTC (robot text none) o'.webrtcOpts.signalingServerAddress originalAddress o') :=
    (directGRPC_yields text none hbare _ _).bind (.ask fun _ => rfl)
  exact (dialFunc_yields text none hweb _ _ _).outcome.bind (.pure _)

theorem dialDirectly_yields (ho : o.Bare) (hdirect : o.disableDirect = false) (address : Bytes) :
    Traced.Yields DialEvent.perRPC [(cached.bind fun conns =>
        conns (bytesOf "grpc") address o.hasher).getD (materialCredentials o.authMaterial)] ()
      (dialDirectly (robot text cached) address o none) := by
  rw [dialDirectly, hdirect, if_neg Bool.false_ne_true]
  exact (directGRPC_yields text cached ho _ _).outcome.bind (.pure _)

theorem dial_yields_direct (ho : o.Bare) (hdisable : o.webrtcDisable = true)
    (hdirect : o.disableDirect = false) (ip : IPv4) (port : Nat) (originalAddress : Bytes) :
    Traced.Yields DialEvent.perRPC [(cached.bind fun conns => conns (bytesOf "grpc")
        (hostPort ip.text port) o.hasher).getD (materialCredentials o.authMaterial)] ()
      (dial (robot text cached) (hostPort ip.text port) originalAddress o) := by
  have hctx : Traced.Yields DialEvent.perRPC [] none (Traced.ask fun trace =>
      (.ok ((robot text cached).ctxErr trace) : Except GoErr (Option GoErr))) := .ask fun _ => rfl
  refine hctx.bind ?_
  simp only [addressOptions_of_ip, hdisable, ↓reduceIte]
  exact dialDirectly_yields text cached ho hdirect _

theorem dial_yields_webRTC (ho : o.Bare) (hs : o.BareSignaling) (hdisable : o.webrtcDisable = false)
    (ip : IPv4) (port : Nat) (originalAddress : Bytes) :
    Traced.Yields DialEvent.perRPC [materialCredentials o.authMaterial] ()
      (dial (robot text none) (hostPort ip.text port) originalAddress o) := by
  have hctx : Traced.Yields DialEvent.perRPC [] none (Traced.ask fun trace =>
      (.ok ((robot text none).ctxErr trace) : Except GoErr (Option GoErr))) := .ask fun _ => rfl
  refine hctx.bind ?_
  simp only [addressOptions_of_ip, hdisable, Bool.false_eq_true, ↓reduceIte]
  exact (dialByWebRTC_yields text ho hs _ _).bind (.pure _)

theorem presented_robot (address : Bytes) (o : FullDialOptions)
    (hserves : ((text.any fun field => containsBytes field (bytesOf "grpc")) ||
      text.any fun field => containsBytes field (bytesOf "webrtc")) = true)
    (h : Traced.Yields DialEvent.perRPC l () (dial (robot text cached)
      (hostPort (IPv4.text ⟨10, 0, 0, 1⟩) 8080) address
        (multicastOptions address (robotEntry text) ⟨10, 0, 0, 1⟩
          (text.any fun field => containsBytes field (bytesOf "webrtc")) o))) :
    presented (robot text cached) address o = l := by
  have hentry : Traced.Yields DialEvent.perRPC [] (robotEntry text)
      (Traced.ask (robot text cached).lookupMDNSCandidate) := .ask fun _ => rfl
  refine (hentry.bind (b := ()) ?_).filterMap_eq
  simp only [robotEntry, hserves]
  exact h

end

namespace FullDialOptions

def eraseSecrets (o : FullDialOptions) : FullDialOptions :=
  { o with
    creds := {}
    authMaterial := []
    externalAuthMaterial := []
    webrtcOpts := { o.webrtcOpts with
      signalingCreds := {}
      signalingExternalAuthAuthMaterial := [] } }

def keepMaterial (o : FullDialOptions) : FullDialOptions :=
  { o.eraseSecrets with authMaterial := o.authMaterial }

/-- The secrets that a service without a signaler leaves in the key of the dial cache. -/
def signalingSecrets (o : FullDialOptions) : Bytes :=
  o.webrtcOpts.signalingExternalAuthAuthMaterial ++
    (o.webrtcOpts.signalingCreds.type ++ o.webrtcOpts.signalingCreds.payload)

/-- There is no way left to connect to what mDNS finds. -/
def Unreachable (o : FullDialOptions) : Prop := o.webrtcDisable = true ∧ o.disableDirect = true

end FullDialOptions

section

variable {a b : FullDialOptions} (hsame : a.eraseSecrets = b.eraseSecrets)

include hsame

theorem flags_of_same : a.webrtcDisable = b.webrtcDisable ∧ a.disableDirect = b.disableDirect := by
  refine ⟨?_, ?_⟩
  · exact (congrArg FullDialOptions.webrtcDisable hsame :)
  · exact (congrArg FullDialOptions.disableDirect hsame :)

variable (hremove : a.mdnsRemoveAuthCredentials = true) (address : Bytes) (entry : ServiceEntry)
  (ip : IPv4)

include hremove

theorem mdnsRemoveAuthCredentials_of_same : b.mdnsRemoveAuthCredentials = true :=
  (congrArg FullDialOptions.mdnsRemoveAuthCredentials hsame).symm.trans hremove

theorem multicastOptions_hasher_iff :
    (multicastOptions address entry ip false a).hasher =
      (multicastOptions address entry ip false b).hasher ↔
    a.signalingSecrets = b.signalingSecrets := by
  have hremove' := mdnsRemoveAuthCredentials_of_same hsame hremove
  have haddr : a.eraseSecrets.externalAuthAddr = b.eraseSecrets.externalAuthAddr := by rw [hsame]
  change a.externalAuthAddr = b.externalAuthAddr at haddr
  have hw := congrArg (fun o : FullDialOptions => o.webrtcOpts) hsame
  simp only [FullDialOptions.eraseSecrets, DialWebRTCOptions.mk.injEq] at hw
  simp only [DialOptions.hasher_eq, DialOptions.hashed, multicastOptions, hremove, hremove',
    ↓reduceIte, Bool.false_eq_true, FullDialOptions.removeAuth, List.flatten_cons, List.nil_append,
    List.flatten_nil, List.append_nil, haddr, hw.1, hw.2.2.1, hw.2.2.2.1,
    List.append_cancel_left_eq, FullDialOptions.signalingSecrets]

theorem multicastOptions_webRTC (hmaterial : a.authMaterial = b.authMaterial) :
    multicastOptions address entry ip true a = multicastOptions address entry ip true b := by
  have hkeep (o : FullDialOptions) (hremove : o.mdnsRemoveAuthCredentials = true) :
      multicastOptions address entry ip true o =
        multicastOptions address entry ip true o.keepMaterial := by
    have hremove' : o.keepMaterial.mdnsRemoveAuthCredentials = true := hremove
    simp only [multicastOptions, FullDialOptions.fixupWebRTCOptions, FullDialOptions.removeAuth,
      hremove, hremove', ↓reduceIte]
    rfl
  rw [hkeep a hremove, hkeep b (mdnsRemoveAuthCredentials_of_same hsame hremove),
    FullDialOptions.keepMaterial, FullDialOptions.keepMaterial, hsame, hmaterial]

theorem multicastOptions_direct (hmaterial : a.authMaterial = b.authMaterial) :
    multicastOptions address entry ip false b =
      { multicastOptions address entry ip false a with webrtcOpts := b.webrtcOpts } := by
  have hkeep (o : FullDialOptions) (hremove : o.mdnsRemoveAuthCredentials = true) :
      multicastOptions address entry ip false o =
        { multicastOptions address entry ip false o.keepMaterial with
          webrtcOpts := o.webrtcOpts } := by
    have hremove' : o.keepMaterial.mdnsRemoveAuthCredentials = true := hremove
    simp only [multicastOptions, FullDialOptions.removeAuth, hremove, hremove', ↓reduceIte,
      Bool.false_eq_true]
    rfl
  rw [hkeep a hremove, hkeep b (mdnsRemoveAuthCredentials_of_same hsame hremove),
    FullDialOptions.keepMaterial, FullDialOptions.keepMaterial, hsame, hmaterial]

end

section

variable {env : DialEnv} (ip : IPv4) (port : Nat) (originalAddress : Bytes)

theorem dialFunc_key (hkey : env.cached = none ∨ k = k') (proto target : Bytes) (f : Dialing Unit) :
    dialFunc env proto target k f = dialFunc env proto target k' f := by
  obtain hc | rfl := hkey
  · simp only [dialFunc, lookupConn, hc, Option.bind_none]
  · rfl

theorem dial_webrtcOpts {o : FullDialOptions} (ho : o.Bare) (hdisable : o.webrtcDisable = true)
    (w : DialWebRTCOptions)
    (hkey : env.cached = none ∨
      o.hasher = ({ o with webrtcOpts := w } : FullDialOptions).hasher) :
    dial env (hostPort ip.text port) originalAddress o =
      dial env (hostPort ip.text port) originalAddress { o with webrtcOpts := w } := by
  have ho' : ({ o with webrtcOpts := w } : FullDialOptions).Bare :=
    { ho with }
  have hdirect : dialDirectGRPC env (hostPort ip.text port) o =
      dialDirectGRPC env (hostPort ip.text port) { o with webrtcOpts := w } := by
    simp only [dialDirectGRPC, directGRPC, perRPCCredentials_bare ho, perRPCCredentials_bare ho',
      dialFunc_key hkey]
    rfl
  simp only [dial, addressOptions_of_ip, hdisable, ↓reduceIte, dialDirectly, hdirect]

theorem dial_unreachable {o o' : FullDialOptions} (ho : o.Unreachable) (ho' : o'.Unreachable) :
    dial env (hostPort ip.text port) originalAddress o =
      dial env (hostPort ip.text port) originalAddress o' := by
  simp only [dial, addressOptions_of_ip, ho.1, ho'.1, ↓reduceIte, dialDirectly, ho.2, ho'.2]

theorem dialMulticastDNS_congr {a b : FullDialOptions} (hsame : a.eraseSecrets = b.eraseSecrets)
    (hremove : a.mdnsRemoveAuthCredentials = true)
    (hmaterial : a.authMaterial = b.authMaterial ∨ a.Unreachable)
    (hkey : env.cached = none ∨ a.signalingSecrets = b.signalingSecrets ∨ a.disableDirect = true)
    (address : Bytes) : dialMulticastDNS env address a = dialMulticastDNS env address b := by
  have hremove' := mdnsRemoveAuthCredentials_of_same hsame hremove
  obtain ⟨hdisable, hdirect⟩ := flags_of_same hsame
  simp only [dialMulticastDNS]
  congr 1
  funext entry
  split
  · rename_i ip rest _ _
    -- without a signaler only the direct connection is left
    have hnoSignaler (hd : a.disableDirect = true) :
        dial env (hostPort ip.text entry.port) address (multicastOptions address entry ip false a) =
          dial env (hostPort ip.text entry.port) address
            (multicastOptions address entry ip false b) := by
      refine dial_unreachable ip entry.port address ⟨rfl, ?_⟩ ⟨rfl, ?_⟩
      · simp only [multicastOptions, hremove, ↓reduceIte, Bool.false_eq_true]
        exact hd
      · simp only [multicastOptions, hremove', ↓reduceIte, Bool.false_eq_true]
        exact hdirect.symm.trans hd
    cases entry.text.any fun field => containsBytes field (bytesOf "webrtc") with
    | true =>
      obtain hmaterial | hunreachable := hmaterial
      · rw [multicastOptions_webRTC hsame hremove address entry ip hmaterial]
      · refine dial_unreachable ip entry.port address ?_ ?_
        · simp only [multicastOptions, hremove, ↓reduceIte]
          exact hunreachable
        · simp only [multicastOptions, hremove', ↓reduceIte]
          exact ⟨hdisable.symm.trans hunreachable.1, hdirect.symm.trans hunreachable.2⟩
    | false =>
      obtain hmaterial | hunreachable := hmaterial
      · by_cases hd : a.disableDirect = true
        · exact hnoSignaler hd
        · obtain ⟨hbare, _, _⟩ := multicastOptions_bare hremove address entry ip false
          have hopts := multicastOptions_direct hsame hremove address entry ip hmaterial
          rw [hopts]
          refine dial_webrtcOpts ip entry.port address hbare rfl b.webrtcOpts ?_
          rw [← hopts, multicastOptions_hasher_iff hsame hremove]
          exact hkey.imp_right fun h => h.resolve_right hd
      · exact hnoSignaler hunreachable.2
  · rfl

end

theorem materialCredentials_injective (h : materialCredentials m = materialCredentials m') :
    m = m' := by
  unfold materialCredentials at h
  split_ifs at h <;> simp_all

section

variable (hremove : o.mdnsRemoveAuthCredentials = true) (address : Bytes)

include hremove

theorem presented_robot_direct (hdirect : o.disableDirect = false)
    (cached : Option (Bytes → Bytes → Bytes → Option (Option PerRPCCredentials))) :
    presented (robot [bytesOf "grpc="] cached) address o =
      [(cached.bind fun conns => conns (bytesOf "grpc") (hostPort (IPv4.text ⟨10, 0, 0, 1⟩) 8080)
        (multicastOptions address (robotEntry [bytesOf "grpc="]) ⟨10, 0, 0, 1⟩ false
          o).hasher).getD (materialCredentials o.authMaterial)] := by
  refine presented_robot _ cached address o (by decide) ?_
  obtain ⟨hbare, _, hmaterial⟩ := multicastOptions_bare hremove address
    (robotEntry [bytesOf "grpc="]) ⟨10, 0, 0, 1⟩ false
  rw [← hmaterial]
  refine dial_yields_direct _ cached hbare rfl ?_ _ _ _
  simp only [multicastOptions, hremove, ↓reduceIte, Bool.false_eq_true]
  exact hdirect

theorem presented_robot_webRTC (hdisable : o.webrtcDisable = false) :
    presented (robot [bytesOf "webrtc="] none) address o =
      [materialCredentials o.authMaterial] := by
  refine presented_robot _ none address o (by decide) ?_
  obtain ⟨hbare, hs, hmaterial⟩ := multicastOptions_bare hremove address
    (robotEntry [bytesOf "webrtc="]) ⟨10, 0, 0, 1⟩ true
  have hdisable' : (multicastOptions address (robotEntry [bytesOf "webrtc="]) ⟨10, 0, 0, 1⟩
      true o).webrtcDisable = false := by
    simp only [multicastOptions, hremove, ↓reduceIte]
    exact hdisable
  rw [← hmaterial]
  refine dial_yields_webRTC _ hbare (hs.resolve_left ?_) hdisable' _ _ _
  rw [hdisable']
  exact Bool.false_ne_true

end

/-- Two dialings by mDNS whose options differ only in secrets present the same credentials to every
service exactly if they have the same static auth material or cannot connect at all, and, where a
cache is in the context, if what is left of the secrets in its keys is the same or not looked up. -/
theorem dialMulticastDNS_secrets (a b : FullDialOptions)
    (hsame : a.eraseSecrets = b.eraseSecrets) (hremove : a.mdnsRemoveAuthCredentials = true) :
    ((∀ env address, env.cached = none → presented env address a = presented env address b) ↔
      a.authMaterial = b.authMaterial ∨ a.Unreachable) ∧
    ((∀ env address, presented env address a = presented env address b) ↔
      (a.authMaterial = b.authMaterial ∨ a.Unreachable) ∧
        (a.signalingSecrets = b.signalingSecrets ∨ a.disableDirect = true)) := by
  have hremove' := mdnsRemoveAuthCredentials_of_same hsame hremove
  obtain ⟨hdisable, hdirect⟩ := flags_of_same hsame
  have huncached (h : ∀ env address, env.cached = none →
      presented env address a = presented env address b) :
      a.authMaterial = b.authMaterial ∨ a.Unreachable := by
    refine or_iff_not_imp_right.mpr fun hreach => materialCredentials_injective ?_
    cases hd : a.webrtcDisable with
    | false =>
      have heq := h (robot [bytesOf "webrtc="] none) [] rfl
      rw [presented_robot_webRTC hremove [] hd,
        presented_robot_webRTC hremove' [] (hdisable.symm.trans hd)] at heq
      exact List.singleton_inj.mp heq
    | true =>
      have hd' : a.disableDirect = false := by
        cases hdd : a.disableDirect with
        | false => rfl
        | true => exact absurd ⟨hd, hdd⟩ hreach
      have heq := h (robot [bytesOf "grpc="] none) [] rfl
      rw [presented_robot_direct hremove [] hd',
        presented_robot_direct hremove' [] (hdirect.symm.trans hd')] at heq
      exact List.singleton_inj.mp heq
  refine ⟨⟨huncached, fun hm env address hc => ?_⟩, ⟨fun h => ?_, fun hm env address => ?_⟩⟩
  · rw [presented, dialMulticastDNS_congr hsame hremove hm (.inl hc), presented]
  · refine ⟨huncached fun env address _ => h env address, ?_⟩
    -- a cache that knows only the first dialing's key
    by_contra hkey
    obtain ⟨hsecrets, hd⟩ := not_or.mp hkey
    rw [Bool.not_eq_true] at hd
    have hne := mt (multicastOptions_hasher_iff hsame hremove []
      (robotEntry [bytesOf "grpc="]) ⟨10, 0, 0, 1⟩).mp hsecrets
    have heq := h (robot [bytesOf "grpc="] (some fun _ _ k =>
      if k = (multicastOptions [] (robotEntry [bytesOf "grpc="]) ⟨10, 0, 0, 1⟩ false a).hasher
      then some (some (.jwt [] {} [] none)) else none)) []
    rw [presented_robot_direct hremove [] hd,
      presented_robot_direct hremove' [] (hdirect.symm.trans hd)] at heq
    simp only [Option.bind_some, ↓reduceIte, Option.getD_some, if_neg (Ne.symm hne),
      Option.getD_none, List.singleton_inj, materialCredentials] at heq
    split at heq <;> cases heq
  · rw [presented, dialMulticastDNS_congr hsame hremove hm.1 (.inr hm.2), presented]

theorem dialMulticastDNS_secrets_apiKey :
    presented (robot [bytesOf "webrtc="] none) (bytesOf "robot")
        { creds := ⟨bytesOf "api-key", bytesOf "secret"⟩, mdnsRemoveAuthCredentials := true } =
      presented (robot [bytesOf "webrtc="] none) (bytesOf "robot")
        { creds := ⟨bytesOf "api-key", bytesOf "other"⟩, mdnsRemoveAuthCredentials := true } :=
  (dialMulticastDNS_secrets _ _ rfl rfl).2.mpr ⟨.inl rfl, .inl rfl⟩ _ _

/-- The static auth material is presented to whatever host mDNS has found. -/
theorem dialMulticastDNS_authMaterial :
    ∃ a b : FullDialOptions, a.eraseSecrets = b.eraseSecrets ∧
      a.mdnsRemoveAuthCredentials = true ∧
      (dialMulticastDNS (robot [bytesOf "grpc="] none) (bytesOf "robot") a []).1 =
        [.attempt ⟨bytesOf "10.0.0.1:8080", .tls ⟨bytesOf "robot"⟩,
          some (.static (bytesOf "token"))⟩] ∧
      (dialMulticastDNS (robot [bytesOf "grpc="] none) (bytesOf "robot") b []).1 =
        [.attempt ⟨bytesOf "10.0.0.1:8080", .tls ⟨bytesOf "robot"⟩, none⟩] := by
  refine ⟨{ authMaterial := bytesOf "token", mdnsRemoveAuthCredentials := true },
    { mdnsRemoveAuthCredentials := true }, rfl, rfl, ?_, ?_⟩
  · decide +kernel
  · decide +kernel

end Goutils.Dial
