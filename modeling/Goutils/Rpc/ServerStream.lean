import Goutils.Rpc.BaseStream

namespace Goutils.Rpc
open Lib
open Lib.Wire (Bytes)
set_option autoImplicit true

inductive Goroutine where
  | dispatcher
  | handler
  | reader
  deriving DecidableEq

/-- `webrtcServerStream` with what it sees of its channel and the frames it wrote. -/
structure ServerStream where
  base : BaseStream Goroutine := {}
  headersWritten : Bool := false
  headersReceived : Bool := false
  header : Option MD := none
  trailer : Option MD := none
  sendClosed : Bool := false
  chClosed : Option (Option GoErr) := none
  chDown : Bool := false
  sent : List ResponseType := []

namespace ServerStream

/-- `webrtcBaseChannel.write` with the answer `w` of the transport. -/
def write (s : ServerStream) (frame : ResponseType) (w : Option GoErr) :
    Option (ServerStream × Option GoErr) :=
  if s.chDown then if w = some .errClosedPipe then some (s, w) else none
  else match w with
    | none => some ({ s with sent := s.sent ++ [frame] }, none)
    | some e => if e = .errClosedPipe then none else some (s, some e)

theorem write_ok {s s' : ServerStream} (h : s.write f w = some (s', none)) :
    s.chDown = false ∧ s' = { s with sent := s.sent ++ [f] } := by
  unfold write at h
  split at h
  · split at h
    · rename_i hw
      rw [hw] at h
      cases h
    · cases h
  · rename_i hdown
    split at h
    · cases h
      exact ⟨Bool.eq_false_of_not_eq_true hdown, rfl⟩
    · split at h <;> cases h

theorem write_err {s s' : ServerStream} (h : s.write f w = some (s', some e)) :
    s' = s ∧ w = some e := by
  unfold write at h
  split at h
  · split at h
    · simp only [Option.some.injEq, Prod.mk.injEq] at h
      exact ⟨h.1.symm, h.2⟩
    · cases h
  · split at h
    · cases h
    · split at h
      · cases h
      · cases h
        exact ⟨rfl, rfl⟩

def headersFrame (s : ServerStream) : ResponseType := .headers (metadataToProto s.header)

def trailersFrame (s : ServerStream) (st : Option Status) : ResponseType :=
  .trailers st (metadataToProto s.trailer)

def closeStatus (s : ServerStream) (err : Option GoErr) : Option Status :=
  if err.isNone then errorToStatus (s.base.ctx.map .ctx) else errorToStatus err

end ServerStream

inductive WriteHeadersPc where
  | cas
  | write
  | ret (err : Option GoErr)
  deriving DecidableEq

def writeHeaders (w : Option GoErr) (s : ServerStream) :
    WriteHeadersPc → Option (ServerStream × WriteHeadersPc)
  | .cas =>
    some (if s.headersWritten then (s, .ret none) else ({ s with headersWritten := true }, .write))
  | .write =>
    if s.base.mu.canRLock then
      (s.write s.headersFrame w).map fun (s', err) => (s', .ret err)
    else none
  | .ret _ => none

inductive WriteHeadersStep (w : Option GoErr) (s : ServerStream) :
    WriteHeadersPc → ServerStream → WriteHeadersPc → Prop where
  | again : s.headersWritten = true → WriteHeadersStep w s .cas s (.ret none)
  | first : s.headersWritten = false →
      WriteHeadersStep w s .cas { s with headersWritten := true } .write
  | write : s.base.mu.canRLock = true → s.chDown = false →
      WriteHeadersStep w s .write { s with sent := s.sent ++ [s.headersFrame] } (.ret none)
  | fail : s.base.mu.canRLock = true → w = some e → WriteHeadersStep w s .write s (.ret (some e))

theorem writeHeaders_step {s s' : ServerStream} (h : writeHeaders w s pc = some (s', pc')) :
    WriteHeadersStep w s pc s' pc' := by
  cases pc with
  | cas =>
    simp only [writeHeaders, Option.some.injEq] at h
    split at h <;> cases h
    · exact .again ‹_›
    · exact .first (Bool.eq_false_of_not_eq_true ‹_›)
  | write =>
    simp only [writeHeaders] at h
    split at h
    · obtain ⟨⟨s₁, e⟩, hw, he⟩ := Option.map_eq_some_iff.1 h
      cases he
      cases e with
      | none =>
        obtain ⟨hdown, rfl⟩ := ServerStream.write_ok hw
        exact .write ‹_› hdown
      | some e =>
        obtain ⟨rfl, rfl⟩ := ServerStream.write_err hw
        exact .fail ‹_› rfl
    · cases h
  | ret err => cases h

inductive CloseSendPc where
  | cas
  | check
  | headers (pc : WriteHeadersPc)
  | status
  | writeTrailers (st : Option Status)
  | lock
  | close (pc : ClosePc)
  | ret
  deriving DecidableEq

def CloseSendPc.ofHeaders : WriteHeadersPc → CloseSendPc
  | .ret none => .status
  | .ret (some _) => .lock
  | pc => .headers pc

def ServerStream.closesSilently (s : ServerStream) (err : Option GoErr) : Bool :=
  errorsIs err .errClosedPipe || s.base.closed || s.chClosed.isSome

/-- `closeWithSendError`. The error it returns is only logged. -/
def closeWithSendError (me : Goroutine) (err : Option GoErr) (w : Option GoErr)
    (s : ServerStream) : CloseSendPc → Option (ServerStream × CloseSendPc)
  | .cas => some (if s.sendClosed then (s, .ret) else ({ s with sendClosed := true }, .check))
  | .check => some (s, if s.closesSilently err then .lock else .headers .cas)
  | .headers pc => (writeHeaders w s pc).map fun (s', pc') => (s', .ofHeaders pc')
  | .status => some (s, .writeTrailers (s.closeStatus err))
  | .writeTrailers st => (s.write (s.trailersFrame st) w).map fun (s', _) => (s', .lock)
  | .lock =>
    if s.base.mu.canLock then
      some ({ s with base := { s.base with mu := s.base.mu.lock me } }, .close .cas)
    else none
  | .close .ret => some ({ s with base := { s.base with mu := s.base.mu.unlock } }, .ret)
  | .close pc =>
    (closeWithError none false s.base pc).map fun (b, pc') => ({ s with base := b }, .close pc')
  | .ret => none

inductive CloseSendStep (me : Goroutine) (err w : Option GoErr) (s : ServerStream) :
    CloseSendPc → ServerStream → CloseSendPc → Prop where
  | again : s.sendClosed = true → CloseSendStep me err w s .cas s .ret
  | first : s.sendClosed = false →
      CloseSendStep me err w s .cas { s with sendClosed := true } .check
  | silent : s.closesSilently err = true → CloseSendStep me err w s .check s .lock
  | check : s.closesSilently err = false → CloseSendStep me err w s .check s (.headers .cas)
  | headers : WriteHeadersStep w s pc s' pc' →
      CloseSendStep me err w s (.headers pc) s' (.ofHeaders pc')
  | status : CloseSendStep me err w s .status s (.writeTrailers (s.closeStatus err))
  | writeTrailers : s.chDown = false →
      CloseSendStep me err w s (.writeTrailers st)
        { s with sent := s.sent ++ [s.trailersFrame st] } .lock
  | failTrailers : w = some e → CloseSendStep me err w s (.writeTrailers st) s .lock
  | lock : s.base.mu.canLock = true →
      CloseSendStep me err w s .lock
        { s with base := { s.base with mu := s.base.mu.lock me } } (.close .cas)
  | unlock : CloseSendStep me err w s (.close .ret)
      { s with base := { s.base with mu := s.base.mu.unlock } } .ret
  | close : CloseStep none false s.base pc b pc' →
      CloseSendStep me err w s (.close pc) { s with base := b } (.close pc')

theorem closeWithSendError_step {s s' : ServerStream}
    (h : closeWithSendError me err w s pc = some (s', pc')) :
    CloseSendStep me err w s pc s' pc' := by
  cases pc with
  | cas =>
    simp only [closeWithSendError, Option.some.injEq] at h
    split at h <;> cases h
    · exact .again ‹_›
    · exact .first (Bool.eq_false_of_not_eq_true ‹_›)
  | check =>
    simp only [closeWithSendError, Option.some.injEq, Prod.mk.injEq] at h
    obtain ⟨rfl, rfl⟩ := h
    split
    · exact .silent ‹_›
    · exact .check (Bool.eq_false_of_not_eq_true ‹_›)
  | headers pc =>
    obtain ⟨⟨s₁, pc₁⟩, hw, he⟩ := Option.map_eq_some_iff.1 h
    cases he
    exact .headers (writeHeaders_step hw)
  | status =>
    cases h
    exact .status
  | writeTrailers st =>
    obtain ⟨⟨s₁, e⟩, hw, he⟩ := Option.map_eq_some_iff.1 h
    cases he
    cases e with
    | none =>
      obtain ⟨hdown, rfl⟩ := ServerStream.write_ok hw
      exact .writeTrailers hdown
    | some e =>
      obtain ⟨rfl, rfl⟩ := ServerStream.write_err hw
      exact .failTrailers rfl
  | lock =>
    simp only [closeWithSendError] at h
    split at h <;> cases h
    exact .lock ‹_›
  | close pc =>
    by_cases hpc : pc = .ret
    · subst hpc
      cases h
      exact .unlock
    · simp only [closeWithSendError] at h
      obtain ⟨⟨b, pc₁⟩, hb, he⟩ := Option.map_eq_some_iff.1 h
      cases he
      exact .close (closeWithError_step hb)
  | ret => cases h

theorem WriteHeadersStep.base {s s' : ServerStream} (h : WriteHeadersStep w s pc s' pc') :
    s'.base = s.base := by
  cases h <;> rfl

def CloseSendPc.mode : CloseSendPc → LockMode
  | .close _ => .write
  | _ => .free

@[simp] theorem CloseSendPc.mode_ofHeaders (pc : WriteHeadersPc) :
    (ofHeaders pc).mode = .free := by
  cases pc with
  | ret err => cases err <;> rfl
  | _ => rfl

theorem CloseSendStep.lockStep {s s' : ServerStream} (h : CloseSendStep me err w s pc s' pc') :
    LockStep me s.base.mu pc.mode s'.base.mu pc'.mode := by
  cases h with
  | headers h =>
    rw [h.base, CloseSendPc.mode_ofHeaders]
    exact .keep
  | lock h => exact .lock h
  | unlock => exact .unlock
  | close h =>
    simp only [h.mu.1]
    exact .keep
  | _ => exact .keep

inductive CloseMove (b : BaseStream τ) : BaseStream τ → Prop where
  | keep : CloseMove b b
  | mu (m : RWMutex τ) : CloseMove b { b with mu := m }
  | close : CloseStep none false b pc b' pc' → CloseMove b b'

theorem CloseSendStep.baseMove {s s' : ServerStream} (h : CloseSendStep me err w s pc s' pc') :
    CloseMove s.base s'.base := by
  cases h with
  | headers h => exact h.base ▸ .keep
  | lock | unlock => exact .mu _
  | close h => exact .close h
  | _ => exact .keep

namespace CloseMove

theorem activeSenders {b b' : BaseStream τ} (h : CloseMove b b') :
    b'.activeSenders = b.activeSenders := by
  cases h with
  | close h => exact h.mu.2
  | _ => rfl

theorem msgCh {b b' : BaseStream τ} (h : CloseMove b b') :
    b'.msgCh = b.msgCh ∨ b'.msgCh = b.msgCh.close := by
  cases h with
  | close h => exact h.msgCh
  | _ => exact .inl rfl

theorem canSend {b b' : BaseStream τ} (h : CloseMove b b') (hc : b.msgCh.canSend = true) :
    b'.msgCh.canSend = true := by
  rcases h.msgCh with h | h
  · rw [h, hc]
  · rw [h, Chan.canSend_close]

theorem ctx {b b' : BaseStream τ} (h : CloseMove b b') (hn : b'.ctx = none) : b.ctx = none := by
  cases h with
  | close h => exact h.ctx hn
  | _ => exact hn

end CloseMove

structure ServerRace (s s' : ServerStream) (k k' : Wins) : Prop where
  base : RaceStep s.base s'.base k k'
  send : k'.send + s.sendClosed.toNat ≤ k.send + s'.sendClosed.toNat

theorem ServerRace.refl (s : ServerStream) (k : Wins) : ServerRace s s k k :=
  ⟨.refl _ _, le_rfl⟩

theorem ServerRace.of_base {s s' : ServerStream} (hb : s'.base = s.base)
    (hs : s'.sendClosed = s.sendClosed) (k : Wins) : ServerRace s s' k k :=
  ⟨hb ▸ .refl _ _, hs ▸ le_rfl⟩

def CloseSendPc.wins : CloseSendPc → Wins
  | .check | .headers _ | .status | .writeTrailers _ => { send := 1 }
  | .close pc => pc.wins
  | _ => {}

theorem CloseSendPc.ready_le (pc : CloseSendPc) : pc.wins.ready ≤ pc.wins.recv := by
  cases pc with
  | close pc => exact pc.ready_le
  | _ => exact le_rfl

theorem CloseSendPc.wins_ofHeaders (pc : WriteHeadersPc) :
    (ofHeaders pc).wins = { send := 1 } ∨ (ofHeaders pc).wins = {} := by
  cases pc with
  | ret err =>
    cases err with
    | none => exact .inl rfl
    | some e => exact .inr rfl
  | _ => exact .inl rfl

theorem WriteHeadersStep.flags {s s' : ServerStream} (h : WriteHeadersStep w s pc s' pc') :
    s'.sendClosed = s.sendClosed ∧ s'.headersReceived = s.headersReceived := by
  cases h <;> exact ⟨rfl, rfl⟩

theorem ServerRace.leave {s s' : ServerStream} (hb : s'.base = s.base)
    (hs : s'.sendClosed = s.sendClosed) : ServerRace s s' { send := 1 } {} := by
  refine ⟨?_, hs ▸ Nat.add_le_add_right (Nat.zero_le 1) _⟩
  rw [hb]
  exact ⟨fun _ => rfl, fun _ hk hc => ⟨hk, hc⟩, rfl, fun _ => rfl⟩

theorem CloseSendStep.race {s s' : ServerStream} (h : CloseSendStep me err w s pc s' pc') :
    ServerRace s s' pc.wins pc'.wins := by
  cases h with
  | again | check | status => exact .refl _ _
  | first h =>
    exact ⟨⟨fun _ => rfl, fun _ hk hc => ⟨hk, hc⟩, rfl, fun _ => rfl⟩, by rw [h]; exact le_rfl⟩
  | silent | writeTrailers | failTrailers => exact .leave rfl rfl
  | @headers pc _ pc' h =>
    rcases CloseSendPc.wins_ofHeaders pc' with hk | hk
    · rw [hk]
      exact .of_base h.base h.flags.1 _
    · rw [hk]
      exact .leave h.base h.flags.1
  | lock | unlock => exact ⟨⟨fun _ => rfl, fun _ hk hc => ⟨hk, hc⟩, rfl, fun _ => rfl⟩, le_rfl⟩
  | close h => exact ⟨h.race, by simp [CloseSendPc.wins]⟩

theorem CloseSendStep.headersReceived {s s' : ServerStream}
    (h : CloseSendStep me err w s pc s' pc') : s'.headersReceived = s.headersReceived := by
  cases h with
  | headers h => exact h.flags.2
  | _ => rfl

/-- Where the dispatcher stands with the frame it handles for this stream. -/
inductive DispatcherPc where
  | idle
  | deliver (data : Bytes) (eos : Bool) (pc : DeliverPc)
  | lockRecv
  | closeRecv (pc : CloseRecvPc)
  | closeErr (e : GoErr) (pc : ClosePc)
  | closeSend (e : GoErr) (pc : CloseSendPc)
  deriving DecidableEq

/-- How `processHeaders` comes out for the server as it is. -/
inductive HeadersOutcome where
  | accepted
  | unimplemented
  | stopped
  | exhausted
  deriving DecidableEq

def errHeadersAlreadyReceived : GoErr := .status ⟨.invalidArgument, "headers already received"⟩
def errHeadersNotYetReceived : GoErr := .status ⟨.invalidArgument, "headers not yet received"⟩
def errRequestCancelled : GoErr := .status ⟨.canceled, "request cancelled"⟩
def errUnknownRequestType : GoErr := .status ⟨.invalidArgument, "unknown request type <nil>"⟩
def errUnimplemented : GoErr := .status ⟨.unimplemented, "Unimplemented"⟩
def errTooManyInFlight : GoErr := .status ⟨.resourceExhausted, "too many in-flight requests"⟩
def errNilPacketMessage : GoErr :=
  .text "expected RequestMessage.PacketMessgae to not be nil but it was"

def ServerStream.processMessage (s : ServerStream) (msg : RequestMessage) :
    ServerStream × DispatcherPc :=
  if s.base.recvClosed then (s, .idle)
  else if msg.hasMessage then
    match msg.packetMessage with
    | none => (s, .closeErr errNilPacketMessage .cas)
    | some p =>
      let (buf, data) := processPacket s.base.packetBuf p
      let s' := { s with base := { s.base with packetBuf := buf } }
      match data with
      | none => (s', .idle)
      | some data => (s', .deliver data msg.eos .enter)
  else (s, if msg.eos then .lockRecv else .idle)

def ServerStream.onRequest (s : ServerStream) (outcome : HeadersOutcome) :
    RequestType → ServerStream × DispatcherPc
  | .headers _ =>
    if s.headersReceived then (s, .closeSend errHeadersAlreadyReceived .cas)
    else match outcome with
      | .accepted => ({ s with headersReceived := true }, .idle)
      | .unimplemented => (s, .closeSend errUnimplemented .cas)
      | .stopped => (s, .idle)
      | .exhausted => (s, .closeSend errTooManyInFlight .cas)
  | .message msg =>
    if s.headersReceived then s.processMessage msg
    else (s, .closeSend errHeadersNotYetReceived .cas)
  | .rstStream _ => (s, .closeSend errRequestCancelled .cas)
  | .unset => (s, .closeSend errUnknownRequestType .cas)

inductive RequestStep (s : ServerStream) (outcome : HeadersOutcome) :
    RequestType → ServerStream → DispatcherPc → Prop where
  | again : s.headersReceived = true →
      RequestStep s outcome (.headers h) s (.closeSend errHeadersAlreadyReceived .cas)
  | accepted : s.headersReceived = false → outcome = .accepted →
      RequestStep s outcome (.headers h) { s with headersReceived := true } .idle
  | unimplemented : s.headersReceived = false → outcome = .unimplemented →
      RequestStep s outcome (.headers h) s (.closeSend errUnimplemented .cas)
  | stopped : s.headersReceived = false → outcome = .stopped →
      RequestStep s outcome (.headers h) s .idle
  | exhausted : s.headersReceived = false → outcome = .exhausted →
      RequestStep s outcome (.headers h) s (.closeSend errTooManyInFlight .cas)
  | early : s.headersReceived = false →
      RequestStep s outcome (.message m) s (.closeSend errHeadersNotYetReceived .cas)
  | late : s.headersReceived = true → s.base.recvClosed = true →
      RequestStep s outcome (.message m) s .idle
  | nilPacket : s.headersReceived = true → s.base.recvClosed = false →
      RequestStep s outcome (.message { hasMessage := true, packetMessage := none, eos }) s
        (.closeErr errNilPacketMessage .cas)
  | part : s.headersReceived = true → s.base.recvClosed = false →
      processPacket s.base.packetBuf p = (buf, none) →
      RequestStep s outcome (.message { hasMessage := true, packetMessage := some p, eos })
        { s with base := { s.base with packetBuf := buf } } .idle
  | complete : s.headersReceived = true → s.base.recvClosed = false →
      processPacket s.base.packetBuf p = (buf, some data) →
      RequestStep s outcome (.message { hasMessage := true, packetMessage := some p, eos })
        { s with base := { s.base with packetBuf := buf } } (.deliver data eos .enter)
  | eos : s.headersReceived = true → s.base.recvClosed = false →
      RequestStep s outcome (.message { hasMessage := false, packetMessage, eos := true }) s
        .lockRecv
  | nothing : s.headersReceived = true → s.base.recvClosed = false →
      RequestStep s outcome (.message { hasMessage := false, packetMessage, eos := false }) s
        .idle
  | rstStream : RequestStep s outcome (.rstStream rst) s (.closeSend errRequestCancelled .cas)
  | unset : RequestStep s outcome .unset s (.closeSend errUnknownRequestType .cas)

namespace ServerStream

theorem processMessage_data {s : ServerStream} (h : s.base.recvClosed = false)
    (hp : processPacket s.base.packetBuf p = (buf, data)) :
    s.processMessage { hasMessage := true, packetMessage := some p, eos } =
      ({ s with base := { s.base with packetBuf := buf } },
        match data with
        | none => .idle
        | some data => .deliver data eos .enter) := by
  unfold processMessage
  rw [if_neg (by rw [h]; decide)]
  simp only [↓reduceIte, hp]
  cases data <;> rfl

theorem processMessage_noData {s : ServerStream} (h : s.base.recvClosed = false) :
    s.processMessage { hasMessage := false, packetMessage, eos } =
      (s, if eos then .lockRecv else .idle) := by
  unfold processMessage
  rw [if_neg (by rw [h]; decide)]
  rfl

theorem onRequest_message {s : ServerStream} (h : s.headersReceived = true)
    (outcome : HeadersOutcome) (m : RequestMessage) :
    s.onRequest outcome (.message m) = s.processMessage m := by
  simp only [onRequest, h, ↓reduceIte]

theorem onRequest_step (s : ServerStream) (outcome : HeadersOutcome) (t : RequestType) :
    RequestStep s outcome t (s.onRequest outcome t).1 (s.onRequest outcome t).2 := by
  cases t with
  | headers h =>
    by_cases hr : s.headersReceived = true
    · simp only [onRequest, hr, ↓reduceIte]
      exact .again hr
    · simp only [onRequest, hr]
      replace hr := Bool.eq_false_of_not_eq_true hr
      cases outcome with
      | accepted => exact .accepted hr rfl
      | unimplemented => exact .unimplemented hr rfl
      | stopped => exact .stopped hr rfl
      | exhausted => exact .exhausted hr rfl
  | message m =>
    by_cases hr : s.headersReceived = true
    · rw [onRequest_message hr]
      by_cases hc : s.base.recvClosed = true
      · simp only [processMessage, hc, ↓reduceIte]
        exact .late hr hc
      · replace hc := Bool.eq_false_of_not_eq_true hc
        obtain ⟨_ | _, packet, eos⟩ := m
        · rw [processMessage_noData hc]
          cases eos with
          | false => exact .nothing hr hc
          | true => exact .eos hr hc
        · cases packet with
          | none =>
            simp only [processMessage, hc, Bool.false_eq_true, ↓reduceIte]
            exact .nilPacket hr hc
          | some p =>
            rcases hp : processPacket s.base.packetBuf p with ⟨buf, _ | data⟩
            · rw [processMessage_data hc hp]
              exact .part hr hc hp
            · rw [processMessage_data hc hp]
              exact .complete hr hc hp
    · simp only [onRequest, hr]
      exact .early (Bool.eq_false_of_not_eq_true hr)
  | rstStream rst => exact .rstStream
  | unset => exact .unset

end ServerStream

theorem RequestStep.onRequest_eq {s s' : ServerStream} (h : RequestStep s outcome t s' pc) :
    s.onRequest outcome t = (s', pc) := by
  cases h with
  | again h => simp only [ServerStream.onRequest, h, ↓reduceIte]
  | accepted h ho => simp only [ServerStream.onRequest, h, ho, Bool.false_eq_true, ↓reduceIte]
  | unimplemented h ho => simp only [ServerStream.onRequest, h, ho, Bool.false_eq_true, ↓reduceIte]
  | stopped h ho => simp only [ServerStream.onRequest, h, ho, Bool.false_eq_true, ↓reduceIte]
  | exhausted h ho => simp only [ServerStream.onRequest, h, ho, Bool.false_eq_true, ↓reduceIte]
  | early h => simp only [ServerStream.onRequest, h, Bool.false_eq_true, ↓reduceIte]
  | late h hc =>
    rw [ServerStream.onRequest_message h]
    simp only [ServerStream.processMessage, hc, ↓reduceIte]
  | nilPacket h hc =>
    rw [ServerStream.onRequest_message h]
    simp only [ServerStream.processMessage, hc, Bool.false_eq_true, ↓reduceIte]
  | part h hc hp | complete h hc hp =>
    rw [ServerStream.onRequest_message h, ServerStream.processMessage_data hc hp]
  | eos h hc | nothing h hc =>
    rw [ServerStream.onRequest_message h, ServerStream.processMessage_noData hc]
    rfl
  | rstStream | unset => rfl

theorem RequestStep.base {s s' : ServerStream} (h : RequestStep s outcome t s' pc) :
    ∃ buf, s'.base = { s.base with packetBuf := buf } := by
  cases h <;> exact ⟨_, rfl⟩

inductive DispatcherAct where
  | deliver (a : DeliverAct)
  | step (w : Option GoErr)
  deriving DecidableEq

def DispatcherPc.afterDeliver (data : Bytes) (eos : Bool) : Option Bool → DispatcherPc
  | none => .deliver data eos .send
  | some true => if eos then .lockRecv else .idle
  | some false => .idle

def dispatch (s : ServerStream) :
    DispatcherPc → DispatcherAct → Option (ServerStream × DispatcherPc)
  | .deliver data eos pc, .deliver a =>
    (deliver data s.base pc a).map fun (b, res) =>
      ({ s with base := b }, .afterDeliver data eos res)
  | .lockRecv, .step none =>
    if s.base.mu.canLock then
      some ({ s with base := { s.base with mu := s.base.mu.lock .dispatcher } }, .closeRecv .cas)
    else none
  | .closeRecv .ret, .step none =>
    some ({ s with base := { s.base with mu := s.base.mu.unlock } }, .idle)
  | .closeRecv pc, .step none =>
    (closeRecv s.base pc).map fun (b, pc') => ({ s with base := b }, .closeRecv pc')
  | .closeErr _ .ret, .step none => some (s, .idle)
  | .closeErr e pc, .step none =>
    (closeWithError (some e) false s.base pc).map fun (b, pc') =>
      ({ s with base := b }, .closeErr e pc')
  | .closeSend _ .ret, .step none => some (s, .idle)
  | .closeSend e pc, .step w =>
    (closeWithSendError .dispatcher (some e) w s pc).map fun (s', pc') => (s', .closeSend e pc')
  | _, _ => none

inductive DispatchStep (s : ServerStream) :
    DispatcherPc → DispatcherAct → ServerStream → DispatcherPc → Prop where
  | deliver : DeliverStep data s.base pc a b res →
      DispatchStep s (.deliver data eos pc) (.deliver a) { s with base := b }
        (.afterDeliver data eos res)
  | lockRecv : s.base.mu.canLock = true →
      DispatchStep s .lockRecv (.step none)
        { s with base := { s.base with mu := s.base.mu.lock .dispatcher } } (.closeRecv .cas)
  | unlockRecv : DispatchStep s (.closeRecv .ret) (.step none)
      { s with base := { s.base with mu := s.base.mu.unlock } } .idle
  | closeRecv : CloseRecvStep s.base pc b pc' →
      DispatchStep s (.closeRecv pc) (.step none) { s with base := b } (.closeRecv pc')
  | closedErr : DispatchStep s (.closeErr e .ret) (.step none) s .idle
  | closeErr : CloseStep (some e) false s.base pc b pc' →
      DispatchStep s (.closeErr e pc) (.step none) { s with base := b } (.closeErr e pc')
  | closedSend : DispatchStep s (.closeSend e .ret) (.step none) s .idle
  | closeSend : CloseSendStep .dispatcher (some e) w s pc s' pc' →
      DispatchStep s (.closeSend e pc) (.step w) s' (.closeSend e pc')

theorem dispatch_step {s s' : ServerStream} (h : dispatch s pc a = some (s', pc')) :
    DispatchStep s pc a s' pc' := by
  unfold dispatch at h
  split at h
  · obtain ⟨⟨b, res⟩, hb, he⟩ := Option.map_eq_some_iff.1 h
    cases he
    exact .deliver (deliver_step hb)
  · split at h <;> cases h
    exact .lockRecv ‹_›
  · cases h
    exact .unlockRecv
  · obtain ⟨⟨b, pc₁⟩, hb, he⟩ := Option.map_eq_some_iff.1 h
    cases he
    exact .closeRecv (closeRecv_step hb)
  · cases h
    exact .closedErr
  · obtain ⟨⟨b, pc₁⟩, hb, he⟩ := Option.map_eq_some_iff.1 h
    cases he
    exact .closeErr (closeWithError_step hb)
  · cases h
    exact .closedSend
  · obtain ⟨⟨s₁, pc₁⟩, hb, he⟩ := Option.map_eq_some_iff.1 h
    cases he
    exact .closeSend (closeWithSendError_step hb)
  · cases h

def DispatcherPc.mode : DispatcherPc → LockMode
  | .closeRecv _ => .write
  | .closeSend _ pc => pc.mode
  | _ => .free

def DispatcherPc.senders : DispatcherPc → Nat
  | .deliver _ _ .send => 1
  | _ => 0

@[simp] theorem DispatcherPc.mode_afterDeliver (data : Bytes) (eos : Bool) (res : Option Bool) :
    (afterDeliver data eos res).mode = .free := by
  unfold afterDeliver
  split
  · rfl
  · split <;> rfl
  · rfl

def DispatcherPc.wins : DispatcherPc → Wins
  | .closeRecv pc | .closeErr _ pc | .closeSend _ pc => pc.wins
  | _ => {}

theorem DispatcherPc.wins_afterDeliver (data : Bytes) (eos : Bool) (res : Option Bool) :
    (afterDeliver data eos res).wins = {} := by
  unfold afterDeliver
  split
  · rfl
  · split <;> rfl
  · rfl

namespace RequestStep

variable {s s' : ServerStream} {outcome : HeadersOutcome} {t : RequestType} {pc : DispatcherPc}
  (h : RequestStep s outcome t s' pc)

include h

theorem mode : pc.mode = .free ∧ pc.senders = 0 := by
  cases h <;> exact ⟨rfl, rfl⟩

theorem headersReceived (hr : s.headersReceived = true) : s'.headersReceived = true := by
  cases h with
  | accepted => rfl
  | _ => exact hr

theorem wins : pc.wins = {} ∧ s'.sendClosed = s.sendClosed := by
  cases h <;> exact ⟨rfl, rfl⟩

theorem delivering (hpc : pc = .deliver data e p) : s'.headersReceived = true := by
  cases h with
  | complete hr => exact hr
  | _ => cases hpc

end RequestStep

namespace DispatchStep

variable {s s' : ServerStream} {pc pc' : DispatcherPc} {a : DispatcherAct}
  (h : DispatchStep s pc a s' pc')

include h

theorem msgCh : s'.base.msgCh = s.base.msgCh ∨ s'.base.msgCh = s.base.msgCh.close ∨
    ∃ data, s'.base.msgCh = s.base.msgCh.send data := by
  cases h with
  | deliver h => exact h.msgCh.imp_right fun h => .inr ⟨_, h⟩
  | closeRecv h | closeErr h => exact h.msgCh.imp_right .inl
  | closeSend h => exact h.baseMove.msgCh.imp_right .inl
  | _ => exact .inl rfl

theorem msgCh_closed (hc : s.base.msgCh.closed = true) : s'.base.msgCh.closed = true := by
  rcases h.msgCh with h | h | ⟨data, h⟩
  · rw [h, hc]
  · rw [h, Chan.close_closed]
  · rw [h, Chan.send_closed, hc]

theorem lockStep : LockStep .dispatcher s.base.mu pc.mode s'.base.mu pc'.mode := by
  cases h with
  | deliver h =>
    simp only [h.mu, DispatcherPc.mode_afterDeliver]
    exact .keep
  | lockRecv h => exact .lock h
  | unlockRecv => exact .unlock
  | closeRecv h | closeErr h =>
    simp only [h.mu.1]
    exact .keep
  | closedErr | closedSend => exact .keep
  | closeSend h => exact h.lockStep

theorem activeSenders (hs : s.base.activeSenders = pc.senders) :
    s'.base.activeSenders = pc'.senders := by
  cases h with
  | @deliver _ _ _ _ res eos h =>
    cases h with
    | closed => exact hs
    | enter => exact congrArg (· + 1) hs
    | send | ctxDone =>
      cases eos <;> exact congrArg (· - 1) hs
  | closeRecv h | closeErr h => exact h.mu.2.trans hs
  | closeSend h => exact h.baseMove.activeSenders.trans hs
  | _ => exact hs

theorem sending (hp : pc'.senders = 1) : a = .deliver .enter ∧ s.base.recvClosed = false ∧
      s'.base = { s.base with activeSenders := s.base.activeSenders + 1 } := by
  cases h with
  | @deliver data _ _ _ res eos h =>
    cases h with
    | enter _ hr => exact ⟨rfl, hr, rfl⟩
    | closed => cases hp
    | send | ctxDone => cases eos <;> cases hp
  | _ => cases hp

theorem race (hopen : pc.senders = 1 → s.base.msgCh.closed = false) :
    ServerRace s s' pc.wins pc'.wins := by
  cases h with
  | @deliver data pc _ _ res eos h =>
    rw [DispatcherPc.wins_afterDeliver]
    refine ⟨h.race ?_ _, le_rfl⟩
    rintro rfl
    exact hopen rfl
  | lockRecv => exact ⟨⟨fun _ => rfl, fun _ hk hc => ⟨hk, hc⟩, rfl, fun _ => rfl⟩, le_rfl⟩
  | unlockRecv => exact ⟨⟨fun _ => rfl, fun _ hk hc => ⟨hk, hc⟩, rfl, fun _ => rfl⟩, le_rfl⟩
  | @closeRecv pc _ pc' h =>
    refine ⟨?_, by simp [DispatcherPc.wins]⟩
    have hr := h.race 0
    rw [pc.wins_close, pc'.wins_close] at hr
    exact hr
  | closedErr => exact .refl _ _
  | closeErr h => exact ⟨h.race, by simp [DispatcherPc.wins]⟩
  | closedSend => exact .refl _ _
  | closeSend h => exact h.race

theorem headersReceived : s'.headersReceived = s.headersReceived := by
  cases h with
  | closeSend h => exact h.headersReceived
  | _ => rfl

theorem delivering (hpc : pc' = .deliver data e p) : ∃ data e p, pc = .deliver data e p := by
  cases h with
  | deliver => exact ⟨_, _, _, rfl⟩
  | _ => cases hpc

end DispatchStep

end Goutils.Rpc
