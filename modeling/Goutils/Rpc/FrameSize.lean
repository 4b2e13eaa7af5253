import Goutils.Rpc.ClientSend
import Goutils.Rpc.ServerMachine

namespace Goutils.Rpc
open Lib
open Lib.Wire
set_option autoImplicit true

theorem packets_data_length (hn : 0 < n) (data : Bytes) :
    ∀ p ∈ packets n data, p.data.length ≤ n := by
  intro p hp
  unfold packets at hp
  split at hp
  · rw [List.mem_singleton] at hp
    subst hp
    exact Nat.zero_le n
  · obtain ⟨q, hq, rfl⟩ := List.mem_map.1 hp
    exact pieces_length_le hn data q hq

theorem marshalStream_length (id : UInt64) : (marshalStream id).length ≤ 11 := by
  have hid : id.toNat < 128 ^ (9 + 1) := lt_trans id.toNat_lt (by decide)
  have hv : (varint id.toNat).length ≤ 9 + 1 := varint_length_le hid (by decide)
  have hf : (marshalStream id).length ≤ 1 + (varint id.toNat).length :=
    uintField_length_le (by decide)
  omega

theorem streamField_length (id : UInt64) :
    (messageField 1 (some (marshalStream id))).length = 2 + (marshalStream id).length := by
  have hlen := marshalStream_length id
  have hv : (varint (marshalStream id).length).length ≤ 0 + 1 :=
    varint_length_le (by omega) (by decide)
  have hpos := varint_length_pos (marshalStream id).length
  rw [messageField_length (by decide)]
  omega

theorem messageField_length_le (field : Nat) (hf : field < 16) (hb : body.length < 2097152) :
    (messageField field (some body)).length ≤ 4 + body.length := by
  have hv : (varint body.length).length ≤ 2 + 1 := varint_length_le hb (by decide)
  rw [messageField_length hf]
  omega

theorem messageField_length_large (field : Nat) (hf : field < 16) (hb : 16384 ≤ body.length) :
    4 + body.length ≤ (messageField field (some body)).length := by
  have hv : 2 < (varint body.length).length := lt_varint_length hb (by decide)
  rw [messageField_length hf]
  omega

theorem PacketMessage.marshal_length_le (p : PacketMessage) (hd : p.data.length < 2097152) :
    p.marshal.length ≤ p.data.length + 6 := by
  have hb : (bytesField 1 p.data).length ≤ 1 + (varint p.data.length).length + p.data.length :=
    bytesField_length_le (by decide)
  have hv : (varint p.data.length).length ≤ 2 + 1 := varint_length_le hd (by decide)
  have he : (boolField 2 p.eom).length ≤ 2 := by
    rw [boolField_length (by decide)]
    split <;> decide
  rw [marshal, List.length_append]
  omega

theorem PacketMessage.marshal_length_large {data : Bytes} (hd : 16384 ≤ data.length) :
    data.length + 6 ≤ (PacketMessage.marshal { data, eom := true }).length := by
  have hne : data ≠ [] := by
    rintro rfl
    simp at hd
  have hb : (bytesField 1 data).length = 1 + (varint data.length).length + data.length :=
    bytesField_length (by decide) hne
  have hv : 2 < (varint data.length).length := lt_varint_length hd (by decide)
  rw [marshal, List.length_append, hb, boolField_length (by decide), if_pos rfl]
  omega

theorem marshalRequestMessage_length_le (id : UInt64) (hasMessage eos : Bool)
    (hd : p.data.length ≤ 65509) :
    (marshalRequestMessage id { hasMessage, packetMessage := some p, eos }).length ≤
      p.data.length + (marshalStream id).length + 20 := by
  have hp := p.marshal_length_le (by omega)
  have hm : (messageField 2 (some p.marshal)).length ≤ 4 + p.marshal.length :=
    messageField_length_le _ (by decide) (by omega)
  have hbool : ∀ field < 16, ∀ b, (boolField field b).length ≤ 2 := by
    intro field hf b
    rw [boolField_length hf]
    split <;> decide
  have hhas := hbool 1 (by decide) hasMessage
  have heos := hbool 3 (by decide) eos
  have hbody : (RequestMessage.marshal { hasMessage, packetMessage := some p, eos }).length ≤
      p.data.length + 14 := by
    simp only [RequestMessage.marshal, Option.map_some, List.length_append]
    omega
  have hframe := messageField_length_le 3 (by decide)
    (lt_of_le_of_lt hbody (show p.data.length + 14 < 2097152 by omega))
  have hstream := streamField_length id
  rw [marshalRequestMessage, List.length_append]
  omega

theorem marshalResponseMessage_length_le (id : UInt64) (hd : p.data.length ≤ 65513) :
    (marshalResponseMessage id p).length ≤ p.data.length + (marshalStream id).length + 16 := by
  have hp := p.marshal_length_le (by omega)
  have hm : (messageField 1 (some p.marshal)).length ≤ 4 + p.marshal.length :=
    messageField_length_le _ (by decide) (by omega)
  have hframe := messageField_length_le 3 (by decide)
    (show (messageField 1 (some p.marshal)).length < 2097152 by omega)
  have hstream := streamField_length id
  rw [marshalResponseMessage, List.length_append]
  omega

theorem marshalRequestMessage_length_large (id : UInt64) (data : Bytes) (hd : 16384 ≤ data.length) :
    data.length + (marshalStream id).length + 20 ≤
      (marshalRequestMessage id
        { hasMessage := true, packetMessage := some { data, eom := true }, eos := true }).length
    := by
  have hp := PacketMessage.marshal_length_large hd
  have hm := messageField_length_large 2 (by decide)
    (show 16384 ≤ (PacketMessage.marshal { data, eom := true }).length by omega)
  have hbody : data.length + 14 ≤ (RequestMessage.marshal
      { hasMessage := true, packetMessage := some { data, eom := true }, eos := true }).length := by
    simp only [RequestMessage.marshal, Option.map_some, List.length_append]
    rw [boolField_length (by decide), boolField_length (by decide), if_pos rfl]
    omega
  have hframe := messageField_length_large 3 (by decide)
    (show 16384 ≤ (RequestMessage.marshal _).length from le_trans (by omega) hbody)
  have hstream := streamField_length id
  rw [marshalRequestMessage, List.length_append]
  omega

theorem marshalResponseMessage_length_large (id : UInt64) (data : Bytes)
    (hd : 16384 ≤ data.length) :
    data.length + (marshalStream id).length + 16 ≤
      (marshalResponseMessage id { data, eom := true }).length := by
  have hp := PacketMessage.marshal_length_large hd
  have hm := messageField_length_large 1 (by decide)
    (show 16384 ≤ (PacketMessage.marshal { data, eom := true }).length by omega)
  have hframe := messageField_length_large 3 (by decide)
    (show 16384 ≤ (messageField 1 (some (PacketMessage.marshal _))).length from
      le_trans (by omega) hm)
  have hstream := streamField_length id
  rw [marshalResponseMessage, List.length_append]
  omega

theorem marshalStream_length_small {id : UInt64} (hid : id.toNat < 2 ^ 35) :
    (marshalStream id).length ≤ 6 := by
  have hv : (varint id.toNat).length ≤ 4 + 1 := varint_length_le hid (by decide)
  have hf : (marshalStream id).length ≤ 1 + (varint id.toNat).length :=
    uintField_length_le (by decide)
  omega

theorem marshalStream_length_large {id : UInt64} (hid : 2 ^ 35 ≤ id.toNat) :
    7 ≤ (marshalStream id).length := by
  have hv : 5 < (varint id.toNat).length := lt_varint_length hid (by decide)
  have hf : (marshalStream id).length = 1 + (varint id.toNat).length :=
    uintField_length (by decide) (by omega)
  omega

theorem mem_writeRequests {write : Request → Option GoErr} :
    ∀ rs, r ∈ (writeRequests write rs).1 → r ∈ rs := by
  intro rs
  induction rs with
  | nil => exact id
  | cons r₁ rs ih =>
    intro hr
    simp only [writeRequests] at hr
    split at hr
    · cases hr
    · rcases List.mem_cons.1 hr with rfl | hr
      · exact List.mem_cons_self
      · exact List.mem_cons_of_mem r₁ (ih hr)

theorem mem_writeMessage {write : Request → Option GoErr} {s : ClientSend}
    (hr : r ∈ (s.writeMessage write m eos).2.1) :
    ∃ p : PacketMessage, p.data.length ≤ 65509 ∧
      r = s.frame { hasMessage := m.isSome, packetMessage := some p, eos } := by
  unfold ClientSend.writeMessage at hr
  split at hr
  · cases hr
  · obtain ⟨p, hp, rfl⟩ := List.mem_map.1 (mem_writeRequests _ hr)
    have hlen := packets_data_length (by decide) (m.getD []) p hp
    rw [maxRequestMessagePacketDataSize_eq] at hlen
    exact ⟨p, hlen, rfl⟩

def messagePackets (frames : List ResponseType) : List PacketMessage :=
  frames.filterMap fun
    | .message p => some p
    | _ => none

theorem mem_messagePackets {frames : List ResponseType} :
    p ∈ messagePackets frames ↔ .message p ∈ frames := by
  simp only [messagePackets, List.mem_filterMap]
  constructor
  · rintro ⟨f, hf, hp⟩
    split at hp
    · cases hp
      exact hf
    · cases hp
  · intro h
    exact ⟨_, h, rfl⟩

@[simp] theorem messagePackets_append (fs gs : List ResponseType) :
    messagePackets (fs ++ gs) = messagePackets fs ++ messagePackets gs :=
  List.filterMap_append

variable {s s' : ServerStream}

theorem WriteHeadersStep.messagePackets (h : WriteHeadersStep w s pc s' pc') :
    messagePackets s'.sent = messagePackets s.sent := by
  cases h with
  | write => exact (messagePackets_append _ _).trans (List.append_nil _)
  | _ => rfl

theorem CloseSendStep.messagePackets (h : CloseSendStep me err w s pc s' pc') :
    messagePackets s'.sent = messagePackets s.sent := by
  cases h with
  | headers h => exact h.messagePackets
  | writeTrailers => exact (messagePackets_append _ _).trans (List.append_nil _)
  | _ => rfl

theorem DispatchStep.messagePackets (h : DispatchStep s pc a s' pc') :
    messagePackets s'.sent = messagePackets s.sent := by
  cases h with
  | closeSend h => exact h.messagePackets
  | _ => rfl

theorem RequestStep.messagePackets (h : RequestStep s outcome t s' pc') :
    messagePackets s'.sent = messagePackets s.sent := by
  cases h <;> rfl

def SendPc.pending : SendPc → List PacketMessage
  | .write ps => ps
  | _ => []

def HandlerPc.pending : HandlerPc → List PacketMessage
  | .sendMsg _ pc | .response _ pc => pc.pending
  | _ => []

@[simp] theorem SendPc.pending_ofHeaders (pc : WriteHeadersPc) :
    (SendPc.ofHeaders pc).pending = [] := by
  cases pc with
  | ret err => cases err <;> rfl
  | _ => rfl

theorem SendPc.pending_ofMarshal (m : Except GoErr Bytes) :
    ∀ p ∈ (SendPc.ofMarshal m).pending, p.data.length ≤ 65513 := by
  cases m with
  | error e => nofun
  | ok data =>
    intro p hp
    have hlen := packets_data_length (by decide) data p hp
    rwa [maxResponseMessagePacketDataSize_eq] at hlen

@[simp] theorem SendPc.pending_ofError (err : Option GoErr) : (ofError err).pending = [] := by
  cases err <;> rfl

@[simp] theorem HandlerPc.pending_ofSendHeader (pc : WriteHeadersPc) :
    (ofSendHeader pc).pending = [] := by
  cases pc <;> rfl

@[simp] theorem HandlerPc.pending_ofSend (m : Except GoErr Bytes) (pc : SendPc) :
    (ofSend m pc).pending = pc.pending := by
  cases pc <;> rfl

@[simp] theorem HandlerPc.pending_ofResponse (m : Except GoErr Bytes) (pc : SendPc) :
    (ofResponse m pc).pending = pc.pending := by
  cases pc with
  | ret err => cases err <;> rfl
  | _ => rfl

@[simp] theorem HandlerPc.pending_ofClosing (err : Option GoErr) (pc : CloseSendPc) :
    (ofClosing err pc).pending = [] := by
  cases pc <;> rfl

def PacketsFit (frames : List ResponseType) (pending : List PacketMessage) : Prop :=
  ∀ p ∈ messagePackets frames ++ pending, p.data.length ≤ 65513

theorem PacketsFit.of_eq (h : PacketsFit frames pending)
    (hf : messagePackets frames' = messagePackets frames)
    (hp : ∀ p ∈ pending', p.data.length ≤ 65513) : PacketsFit frames' pending' := by
  intro p hmem
  rcases List.mem_append.1 hmem with hmem | hmem
  · exact h p (List.mem_append_left _ (hf ▸ hmem))
  · exact hp p hmem

theorem PacketsFit.sendStep (h : PacketsFit s.sent pc.pending) (hs : SendStep m w s pc s' pc') :
    PacketsFit s'.sent pc'.pending := by
  cases hs with
  | headers hs => exact h.of_eq hs.messagePackets (by simp)
  | rlock => exact h.of_eq rfl (SendPc.pending_ofMarshal m)
  | write hdown =>
    -- the packet moves from the ones to write to the ones written
    rename_i p ps
    have hmoved : messagePackets (s.sent ++ [.message p]) ++ ps =
        messagePackets s.sent ++ (p :: ps) := by
      rw [messagePackets_append]
      exact List.append_cons _ _ _ ▸ rfl
    intro q hq
    exact h q (hmoved ▸ hq)
  | runlock => exact h.of_eq rfl (by simp)
  | close hs => exact h.of_eq hs.messagePackets nofun
  | _ => exact h.of_eq rfl nofun

theorem handlerReturn_pending (h : handlerReturn kind r = some pc) : pc.pending = [] := by
  rcases handlerReturn_cases h with ⟨m, rfl⟩ | ⟨err, rfl⟩ | rfl <;> rfl

theorem PacketsFit.handleStep (h : PacketsFit s.sent pc.pending)
    (hs : HandleStep kind s pc a s' pc') : PacketsFit s'.sent pc'.pending := by
  cases hs with
  | headers hs | close hs => exact h.of_eq hs.messagePackets (by simp)
  | send hs | response hs => simpa using h.sendStep hs
  | returns hr => exact h.of_eq rfl (by simp [handlerReturn_pending hr])
  | _ => exact h.of_eq rfl nofun

theorem ServerState.packetsFit {s : ServerState} (h : (serverMachine kind).Reachable s) :
    PacketsFit s.st.sent s.handler.pending := by
  induction h with
  | init hi =>
    obtain ⟨h, inbox, rfl⟩ := hi
    nofun
  | step hr _ hs ih =>
    cases serverStep_step hs with
    | enter ht hq =>
      refine ih.of_eq hq.messagePackets ?_
      unfold ServerState.handlerAfter
      split
      · nofun
      · exact fun p hp => ih p (List.mem_append_right _ hp)
    | dispatch hd =>
      exact ih.of_eq hd.messagePackets fun p hp => ih p (List.mem_append_right _ hp)
    | call hh | returns hh | handle hh => exact ih.handleStep hh
    | _ => exact ih

/-- For stream identifiers below 2^35 every message frame of a client and of a server stream fits
into one message of the data channel. -/
theorem messageFrames_fit (id : UInt64) (hid : id.toNat < 2 ^ 35) :
    (∀ (write : Request → Option GoErr) (s : ClientSend) (m : Option Bytes) (eos : Bool),
      s.stream = id → ∀ r ∈ (s.writeMessage write m eos).2.1,
        ∃ msg, r = ⟨some id, .message msg⟩ ∧
          (marshalRequestMessage id msg).length ≤ maxDataChannelSize) ∧
    ∀ (kind : HandlerKind) (s : ServerState), (serverMachine kind).Reachable s →
      ∀ p, .message p ∈ s.st.sent →
        (marshalResponseMessage id p).length ≤ maxDataChannelSize := by
  have hstream := marshalStream_length_small hid
  constructor
  · rintro write s m eos rfl r hr
    obtain ⟨p, hp, rfl⟩ := mem_writeMessage hr
    refine ⟨_, rfl, ?_⟩
    have hlen := marshalRequestMessage_length_le s.stream m.isSome eos hp
    simp only [maxDataChannelSize]
    omega
  · intro kind s hs p hp
    have hdata : p.data.length ≤ 65513 :=
      ServerState.packetsFit hs p (List.mem_append_left _ (mem_messagePackets.2 hp))
    have hlen := marshalResponseMessage_length_le id hdata
    simp only [maxDataChannelSize]
    omega

def sendingRun (m : Bytes) : List ServerAct :=
  [.enter .accepted, .handle (.call (.sendMsg (.ok m))), .handle (.step none),
    .handle (.step none), .handle (.step none), .handle (.step none)]

def sendingState (m : Bytes) (ps : List PacketMessage) : ServerState where
  st := {
    base := { mu := { readers := [.handler] } }
    headersWritten := true
    headersReceived := true
    sent := [.headers none] }
  handler := .sendMsg (.ok m) (.write ps)
  ops := [.sendMsg (.ok m)]

theorem exec_sendingRun (m : Bytes) :
    (serverMachine .stream).exec { found := some (.headers ⟨"m", none, 0⟩) } (sendingRun m) =
      some (sendingState m (packets maxResponseMessagePacketDataSize m)) :=
  rfl

theorem exists_sent_message (hm : packets maxResponseMessagePacketDataSize m = [p]) :
    ∃ s, (serverMachine .stream).Reachable s ∧ .message p ∈ s.st.sent := by
  have hrun := exec_sendingRun m
  rw [hm] at hrun
  have hr : (serverMachine .stream).Reachable (sendingState m [p]) :=
    Machine.reachable_exec ⟨_, _, rfl⟩ hrun
  refine ⟨_, hr.step trivial (a := .handle (.step none)) rfl, ?_⟩
  exact List.mem_append_right _ List.mem_cons_self

theorem messageFrames_fit_one :
    (∀ r ∈ (ClientSend.writeMessage (fun _ => none) { stream := 1 } (some [7]) true).2.1,
      ∃ msg, r = ⟨some 1, .message msg⟩ ∧
        (marshalRequestMessage 1 msg).length ≤ maxDataChannelSize) ∧
    ∃ s, (serverMachine .stream).Reachable s ∧
      ∃ p, .message p ∈ s.st.sent ∧
        (marshalResponseMessage 1 p).length ≤ maxDataChannelSize := by
  obtain ⟨hclient, hserver⟩ := messageFrames_fit 1 (by decide)
  have hone : packets maxResponseMessagePacketDataSize [7] = [{ data := [7], eom := true }] :=
    packets_short (List.cons_ne_nil 7 []) (by decide)
  obtain ⟨s, hs, hp⟩ := exists_sent_message hone
  exact ⟨hclient _ _ _ _ rfl, s, hs, _, hp, hserver .stream s hs _ hp⟩

theorem packets_overflow (id : UInt64) (hid : 2 ^ 35 ≤ id.toNat) (data : Bytes) :
    (data.length = maxRequestMessagePacketDataSize →
      maxDataChannelSize < (marshalRequestMessage id
        { hasMessage := true, packetMessage := some { data, eom := true }, eos := true }).length) ∧
    (data.length = maxResponseMessagePacketDataSize →
      maxDataChannelSize < (marshalResponseMessage id { data, eom := true }).length) := by
  have hstream := marshalStream_length_large hid
  rw [maxRequestMessagePacketDataSize_eq, maxResponseMessagePacketDataSize_eq]
  simp only [maxDataChannelSize]
  constructor
  · intro hd
    have hlen := marshalRequestMessage_length_large id data (by omega)
    omega
  · intro hd
    have hlen := marshalResponseMessage_length_large id data (by omega)
    omega

theorem packets_replicate (hn : 0 < n) :
    packets n (List.replicate n 0) = [{ data := List.replicate n 0, eom := true }] := by
  apply packets_short
  · rw [Ne, List.replicate_eq_nil_iff]
    omega
  · rw [List.length_replicate]

/-- A last message of 65509 bytes and a response of 65513 bytes on stream 2^35. -/
theorem messageFrames_overflow :
    (∃ msg, ⟨some 34359738368, .message msg⟩ ∈
      (ClientSend.writeMessage (fun _ => none) { stream := 34359738368 }
        (some (List.replicate maxRequestMessagePacketDataSize 0)) true).2.1 ∧
      maxDataChannelSize < (marshalRequestMessage 34359738368 msg).length) ∧
    ∃ s, (serverMachine .stream).Reachable s ∧
      ∃ p, .message p ∈ s.st.sent ∧
        maxDataChannelSize < (marshalResponseMessage 34359738368 p).length := by
  have hlarge := packets_overflow 34359738368 (by decide)
  constructor
  · refine ⟨_, ?_, (hlarge (List.replicate _ 0)).1 List.length_replicate⟩
    simp only [ClientSend.writeMessage, Option.getD_some, Bool.false_eq_true, ↓reduceIte]
    rw [packets_replicate (by decide)]
    exact List.mem_cons_self
  · obtain ⟨s, hs, hp⟩ := exists_sent_message (packets_replicate (by decide))
    exact ⟨s, hs, _, hp, (hlarge (List.replicate _ 0)).2 List.length_replicate⟩

end Goutils.Rpc
