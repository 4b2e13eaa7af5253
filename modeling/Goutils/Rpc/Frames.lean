import Goutils.Lib.Wire
import Goutils.Rpc.Errors

namespace Goutils.Rpc
open Lib.Wire (Bytes)
set_option autoImplicit true

/-- gRPC metadata, a map from keys to values; the nil map is `none` wherever one may occur. -/
abbrev MD := List (String × List String)

def MD.append (out : MD) (k : String) (vs : List String) : MD :=
  match out with
  | [] => [(k, vs)]
  | (k', vs') :: rest =>
    if k' = k then (k', vs' ++ vs) :: rest else (k', vs') :: MD.append rest k vs

def MD.join (md other : MD) : MD :=
  (md ++ other).foldl (fun out kv => out.append kv.1 kv.2) []

def metadataToProto (md : Option MD) : Option MD :=
  if (md.getD []).length = 0 then none else md

def metadataFromProto (mdProto : Option MD) : Option MD :=
  if (mdProto.getD []).length = 0 then none else mdProto

@[simp] theorem metadataFromProto_toProto (md : Option MD) :
    metadataFromProto (metadataToProto md) = metadataToProto md := by
  by_cases h : (md.getD []).length = 0
  · simp only [metadataFromProto, metadataToProto, if_pos h, Option.getD_none, List.length_nil,
      ↓reduceIte]
  · simp only [metadataFromProto, metadataToProto, if_neg h]

structure PacketMessage where
  data : Bytes := []
  eom : Bool := false
  deriving DecidableEq

structure RequestHeaders where
  method : String
  metadata : Option MD := none
  timeout : Int := 0

structure RequestMessage where
  hasMessage : Bool := false
  packetMessage : Option PacketMessage := none
  eos : Bool := false

inductive RequestType where
  | headers (headers : RequestHeaders)
  | message (message : RequestMessage)
  | rstStream (rst : Bool)
  | unset

/-- A frame from the client. Its stream may be missing. -/
structure Request where
  stream : Option UInt64
  type : RequestType

inductive ResponseType where
  | headers (metadata : Option MD)
  | message (packetMessage : PacketMessage)
  | trailers (status : Option Status) (metadata : Option MD)
  | unset
  deriving DecidableEq

/-- A frame from the server. Its stream may be missing. -/
structure Response where
  stream : Option UInt64
  type : ResponseType

open Lib.Wire

def PacketMessage.marshal (p : PacketMessage) : Bytes :=
  bytesField 1 p.data ++ boolField 2 p.eom

def RequestMessage.marshal (m : RequestMessage) : Bytes :=
  boolField 1 m.hasMessage ++ messageField 2 (m.packetMessage.map PacketMessage.marshal) ++
    boolField 3 m.eos

def marshalStream (id : UInt64) : Bytes := uintField 1 id.toNat

def marshalRequestMessage (id : UInt64) (m : RequestMessage) : Bytes :=
  messageField 1 (some (marshalStream id)) ++ messageField 3 (some m.marshal)

def marshalResponseMessage (id : UInt64) (p : PacketMessage) : Bytes :=
  messageField 1 (some (marshalStream id)) ++
    messageField 3 (some (messageField 1 (some p.marshal)))

def maxDataChannelSize : Nat := 65535

def MaxMessageSize : Nat := 2 ^ 25

def maxUint64 : UInt64 := 18446744073709551615

def maxRequestMessagePacketDataSize : Nat :=
  maxDataChannelSize - (marshalRequestMessage maxUint64
    { hasMessage := true, packetMessage := some { data := [0], eom := true },
      eos := true }).length

def maxResponseMessagePacketDataSize : Nat :=
  maxDataChannelSize -
    (marshalResponseMessage maxUint64 { data := [0], eom := true }).length

theorem maxRequestMessagePacketDataSize_eq : maxRequestMessagePacketDataSize = 65509 := by
  decide

theorem maxResponseMessagePacketDataSize_eq : maxResponseMessagePacketDataSize = 65513 := by
  decide

end Goutils.Rpc
