import Goutils.Dial.CachedDialer
import Goutils.Lib.Pieces
import Goutils.Lib.Wire

namespace Goutils.Dial
open Lib
open Lib.Wire (Bytes)
set_option autoImplicit true

structure Credentials where
  type : Bytes := []
  payload : Bytes := []
  deriving DecidableEq

structure DialWebRTCOptions where
  signalingServerAddress : Bytes := []
  signalingAuthEntity : Bytes := []
  signalingExternalAuthAddress : Bytes := []
  signalingExternalAuthToEntity : Bytes := []
  signalingCreds : Credentials := {}
  signalingExternalAuthAuthMaterial : Bytes := []

/-- The fields of `dialOptions` that say as whom a connection is authenticated; a string is its
bytes. -/
structure DialOptions where
  authEntity : Bytes := []
  creds : Credentials := {}
  webrtcOpts : DialWebRTCOptions := {}
  externalAuthAddr : Bytes := []
  externalAuthToEntity : Bytes := []
  externalAuthMaterial : Bytes := []
  authMaterial : Bytes := []

namespace DialOptions

def hashed (o : DialOptions) : List Bytes :=
  [o.authEntity, o.creds.type, o.creds.payload, o.externalAuthAddr, o.externalAuthToEntity,
    o.externalAuthMaterial, o.webrtcOpts.signalingServerAddress,
    o.webrtcOpts.signalingExternalAuthAddress, o.webrtcOpts.signalingExternalAuthToEntity,
    o.webrtcOpts.signalingExternalAuthAuthMaterial, o.webrtcOpts.signalingCreds.type,
    o.webrtcOpts.signalingCreds.payload]

def hasher (o : DialOptions) : Bytes :=
  o.hashed.foldl (fun hasher field => if field ≠ [] then hasher ++ field else hasher) []

theorem foldl_write (l : List Bytes) (acc : Bytes) :
    l.foldl (fun hasher field => if field ≠ [] then hasher ++ field else hasher) acc =
      acc ++ l.flatten := by
  induction l generalizing acc with
  | nil => simp only [List.foldl_nil, List.flatten_nil, List.append_nil]
  | cons field l ih =>
    rw [List.foldl_cons, ih, List.flatten_cons]
    split
    · rw [List.append_assoc]
    · rename_i hempty
      rw [not_not.1 hempty, List.nil_append]

/-- Nothing tells where a field ends and the next one begins. -/
theorem hasher_eq (o : DialOptions) : o.hasher = o.hashed.flatten := foldl_write o.hashed []

end DialOptions

def hexDigit (n : Nat) : UInt8 := if n < 10 then UInt8.ofNat (48 + n) else UInt8.ofNat (87 + n)

def hexEncode (l : Bytes) : Bytes :=
  l.flatMap fun b => [hexDigit (b.toNat / 16), hexDigit (b.toNat % 16)]

/-- A call of `DialFunc` with the options that `dialNew` dials with. -/
structure DialCall where
  proto : Bytes
  target : Bytes
  opts : DialOptions

def DialAct.Within (S : Set DialOptions) : DialAct DialCall → Prop
  | .call c => c.opts ∈ S
  | _ => True

end Goutils.Dial
