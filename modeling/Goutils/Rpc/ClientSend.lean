import Goutils.Rpc.BaseStream

namespace Goutils.Rpc
open Lib
open Lib.Wire (Bytes)
set_option autoImplicit true

structure ClientSend where
  stream : UInt64
  sendClosed : Bool := false

def writeRequests (write : Request → Option GoErr) : List Request → List Request × Option GoErr
  | [] => ([], none)
  | r :: rs =>
    match write r with
    | some e => ([], some e)
    | none =>
      let (out, err) := writeRequests write rs
      (r :: out, err)

namespace ClientSend

def frame (s : ClientSend) (msg : RequestMessage) : Request := ⟨some s.stream, .message msg⟩

def headersFrame (s : ClientSend) (headers : RequestHeaders) : Request :=
  ⟨some s.stream, .headers headers⟩

def writeMessage (write : Request → Option GoErr) (s : ClientSend) (m : Option Bytes)
    (eos : Bool) : ClientSend × List Request × Option GoErr :=
  if s.sendClosed then (s, [], some .errClosedPipe)
  else
    let ps := packets maxRequestMessagePacketDataSize (m.getD [])
    let msgs := ps.map fun p => s.frame { hasMessage := m.isSome, packetMessage := some p, eos }
    ({ s with sendClosed := eos }, writeRequests write msgs)

def sendMsg (write : Request → Option GoErr) (s : ClientSend) (m : Bytes) :
    ClientSend × List Request × Option GoErr :=
  s.writeMessage write (some m) false

def closeSend (write : Request → Option GoErr) (s : ClientSend) :
    ClientSend × List Request × Option GoErr :=
  s.writeMessage write none true

end ClientSend

def checkWriteErrForStreamClose (err : Option GoErr) : Option GoErr :=
  if errorsIs err .errClosedPipe then none else err

inductive ClientEnd where
  | closeSend
  | unary (m : Bytes)

structure ClientCall where
  stream : UInt64
  headers : RequestHeaders
  sends : List Bytes
  last : ClientEnd

namespace ClientCall

def messages (c : ClientCall) : List Bytes :=
  c.sends ++
    match c.last with
    | .closeSend => []
    | .unary m => [m]

def sendAll (s : ClientSend) : List Bytes → ClientSend × List Request
  | [] => (s, [])
  | m :: ms =>
    let (s', out, _) := s.sendMsg (fun _ => none) m
    let (s'', out') := sendAll s' ms
    (s'', out ++ out')

def frames (c : ClientCall) : List Request :=
  let s : ClientSend := { stream := c.stream }
  let (s', out) := sendAll s c.sends
  let (_, out', _) :=
    match c.last with
    | .closeSend => s'.closeSend fun _ => none
    | .unary m => s'.writeMessage (fun _ => none) (some m) true
  s.headersFrame c.headers :: (out ++ out')

end ClientCall

theorem writeRequests_ok (rs : List Request) : writeRequests (fun _ => none) rs = (rs, none) := by
  induction rs with
  | nil => rfl
  | cons r rs ih => simp only [writeRequests, ih]

namespace ClientCall

def messageFrames (id : UInt64) (m : Option Bytes) (eos : Bool) : List Request :=
  (packets maxRequestMessagePacketDataSize (m.getD [])).map fun p =>
    ⟨some id, .message { hasMessage := m.isSome, packetMessage := some p, eos }⟩

theorem writeMessage_open {s : ClientSend} (h : s.sendClosed = false) (m : Option Bytes)
    (eos : Bool) : s.writeMessage (fun _ => none) m eos =
      ({ s with sendClosed := eos }, messageFrames s.stream m eos, none) := by
  simp only [ClientSend.writeMessage, h, Bool.false_eq_true, ↓reduceIte, writeRequests_ok,
    ClientSend.frame, messageFrames]

theorem sendAll_open {s : ClientSend} (h : s.sendClosed = false) (ms : List Bytes) :
    sendAll s ms = (s, ms.flatMap fun m => messageFrames s.stream (some m) false) := by
  induction ms with
  | nil => rfl
  | cons m ms ih =>
    have hs : { s with sendClosed := false } = s := by
      rw [← h]
    simp only [sendAll, ClientSend.sendMsg, writeMessage_open h, hs, ih, List.flatMap_cons]

def endFrames (id : UInt64) : ClientEnd → List Request
  | .closeSend => messageFrames id none true
  | .unary m => messageFrames id (some m) true

theorem frames_eq (c : ClientCall) : c.frames =
    ⟨some c.stream, .headers c.headers⟩ ::
      ((c.sends.flatMap fun m => messageFrames c.stream (some m) false) ++
        endFrames c.stream c.last) := by
  have hs : ({ stream := c.stream } : ClientSend).sendClosed = false := rfl
  simp only [frames, sendAll_open hs, ClientSend.headersFrame]
  cases c.last with
  | closeSend => simp only [ClientSend.closeSend, writeMessage_open hs, endFrames]
  | unary m => simp only [writeMessage_open hs, endFrames]

end ClientCall

end Goutils.Rpc
