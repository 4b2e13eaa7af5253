import Goutils.Rpc.WebrtcServer
import Goutils.Rpc.ClientSend

namespace Goutils.Rpc
open Lib
open Lib.Wire (Bytes)
set_option autoImplicit true

def WebRTCMaxStreamCount : Nat := 256

/-- A stream of a server channel with the goroutine that reads from it. -/
structure ChannelStream where
  id : UInt64
  stream : ServerStream := {}
  reader : RecvPc := .idle

def ChannelStream.registered (e : ChannelStream) : Bool := e.stream.base.onDone = 0

/-- `webrtcServerChannel` with all streams it ever made; its table has the registered ones. -/
structure ServerChannel where
  server : WebrtcServer := {}
  streams : List ChannelStream := []
  ctx : Option CtxErr := none

def runHeaders (srv : WebrtcServer) (method : String) : Option (WebrtcServer × HeadersOutcome) :=
  match drive processHeaders 4 srv (.lookup method) with
  | (srv', .ret outcome) => some (srv', outcome)
  | _ => none

namespace ServerChannel

def find? (ch : ServerChannel) (id : UInt64) : Option Nat :=
  ch.streams.findIdx? fun e => decide (e.id = id) && e.registered

def newStream (ch : ServerChannel) (id : UInt64) : ChannelStream :=
  { id, stream := { base := { ctx := ch.ctx }, chDown := ch.ctx.isSome } }

/-- `onChannelMessage` up to the call of `onRequest`; a message that does not unmarshal is
`none`. -/
def onChannelMessage (ch : ServerChannel) (msg : Option Request) :
    ServerChannel × Option (Nat × RequestType) :=
  match msg with
  | none | some { stream := none, .. } => (ch, none)
  | some { stream := some id, type } =>
    match ch.find? id with
    | some i => (ch, some (i, type))
    | none =>
      if ch.streams.countP (·.registered) = WebRTCMaxStreamCount then (ch, none)
      else match type with
        | .headers _ =>
          ({ ch with streams := ch.streams ++ [ch.newStream id] },
            some (ch.streams.length, type))
        | _ => (ch, none)

def setStream (ch : ServerChannel) (i : Nat) (e : ChannelStream) : ServerChannel :=
  { ch with streams := ch.streams.set i e }

def onRequest (ch : ServerChannel) (i : Nat) (type : RequestType) :
    Option (ServerChannel × DispatcherPc) :=
  match ch.streams[i]? with
  | none => none
  | some e =>
    let enter := fun (srv : WebrtcServer) outcome =>
      let (st, pc) := e.stream.onRequest outcome type
      ({ ch.setStream i { e with stream := st } with server := srv }, pc)
    match type with
    | .headers h =>
      if e.stream.headersReceived then some (enter ch.server .accepted)
      else (runHeaders ch.server h.method).map fun (srv, outcome) => enter srv outcome
    | _ => some (enter ch.server .accepted)

end ServerChannel

/-- A channel with its dispatcher, in `onRequest` of `current`, and what waits for it. -/
structure ChannelState where
  ch : ServerChannel := {}
  current : Nat := 0
  pc : DispatcherPc := .idle
  inbox : List (Option Request) := []

inductive ChannelAct where
  | next
  | dispatch (a : DispatcherAct)
  | read (i : Nat) (a : RecvAct)

/-- The dispatcher against the handlers' reads. A handler runs once its headers are accepted. -/
def channelStep (s : ChannelState) : ChannelAct → Option ChannelState
  | .next =>
    if s.pc = .idle then
      match s.inbox with
      | [] => none
      | msg :: inbox =>
        match s.ch.onChannelMessage msg with
        | (ch, none) => some { s with ch, inbox }
        | (ch, some (i, type)) =>
          (ch.onRequest i type).map fun (ch, pc) => { ch, current := i, pc, inbox }
    else none
  | .dispatch a =>
    match s.ch.streams[s.current]? with
    | none => none
    | some e =>
      (Rpc.dispatch e.stream s.pc a).map fun (st, pc) =>
        { s with pc, ch := s.ch.setStream s.current { e with stream := st } }
  | .read i a =>
    match s.ch.streams[i]? with
    | none => none
    | some e =>
      if e.stream.headersReceived then
        (recvMsg e.stream.base e.reader a).map fun (b, reader, _) =>
          { s with ch := s.ch.setStream i { e with stream := { e.stream with base := b }, reader } }
      else none

theorem channelStep_dispatch {s : ChannelState} (he : s.ch.streams[s.current]? = some e)
    (hd : Rpc.dispatch e.stream s.pc a = some (st, pc)) :
    channelStep s (.dispatch a) =
      some { s with pc, ch := s.ch.setStream s.current { e with stream := st } } := by
  simp only [channelStep, he, hd, Option.map_some]

theorem channelStep_read {s : ChannelState} (he : s.ch.streams[i]? = some e)
    (hh : e.stream.headersReceived = true)
    (hr : recvMsg e.stream.base e.reader a = some (b, reader, r)) :
    channelStep s (.read i a) = some { s with
      ch := s.ch.setStream i { e with stream := { e.stream with base := b }, reader } } := by
  simp only [channelStep, he]
  rw [if_pos hh, hr]
  rfl

def channelMachine (srv : WebrtcServer) (msgs : List (Option Request)) :
    Machine ChannelState ChannelAct where
  init s := s = { ch := { server := srv }, inbox := msgs }
  step := channelStep

end Goutils.Rpc
