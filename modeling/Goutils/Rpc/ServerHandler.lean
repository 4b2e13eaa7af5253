import Goutils.Rpc.ServerStream

namespace Goutils.Rpc
open Lib
open Lib.Wire (Bytes)
set_option autoImplicit true

def mergeMD : Option MD → Option MD → Option MD
  | none, md => md
  | some old, none => some old
  | some old, some md => some (old.join md)

namespace ServerStream

/-- `SetHeader`, which fails with `ErrIllegalHeaderWrite` behind the headers frame. -/
def setHeader (s : ServerStream) (md : Option MD) : Option ServerStream :=
  if s.headersWritten then none else some { s with header := mergeMD s.header md }

def setTrailer (s : ServerStream) (md : Option MD) : ServerStream :=
  { s with trailer := mergeMD s.trailer md }

end ServerStream

inductive SendPc where
  | load
  | headers (pc : WriteHeadersPc)
  | rlock
  | write (ps : List PacketMessage)
  | runlock (err : Option GoErr)
  | close (err : GoErr) (pc : CloseSendPc)
  | ret (err : Option GoErr)
  deriving DecidableEq

def SendPc.ofHeaders : WriteHeadersPc → SendPc
  | .ret none => .rlock
  | .ret (some e) => .close e .cas
  | pc => .headers pc

def SendPc.ofMarshal : Except GoErr Bytes → SendPc
  | .error e => .runlock (some e)
  | .ok data => .write (packets maxResponseMessagePacketDataSize data)

def SendPc.ofError : Option GoErr → SendPc
  | none => .ret none
  | some e => .close e .cas

def sendMsg (m : Except GoErr Bytes) (w : Option GoErr) (s : ServerStream) :
    SendPc → Option (ServerStream × SendPc)
  | .load => some (s, if s.sendClosed then .ret (some .errClosedPipe) else .headers .cas)
  | .headers pc => (writeHeaders w s pc).map fun (s', pc') => (s', .ofHeaders pc')
  | .rlock =>
    if s.base.mu.canRLock then
      some ({ s with base := { s.base with mu := s.base.mu.rlock .handler } }, .ofMarshal m)
    else none
  | .write [] => some (s, .runlock none)
  | .write (p :: ps) =>
    (s.write (.message p) w).map fun (s', err) =>
      (s', if err.isSome then .runlock err else .write ps)
  | .runlock err =>
    some ({ s with base := { s.base with mu := s.base.mu.runlock .handler } }, .ofError err)
  | .close e .ret => some (s, .ret (some e))
  | .close e pc =>
    (closeWithSendError .handler (some e) w s pc).map fun (s', pc') => (s', .close e pc')
  | .ret _ => none

inductive SendStep (m : Except GoErr Bytes) (w : Option GoErr) (s : ServerStream) :
    SendPc → ServerStream → SendPc → Prop where
  | closed : s.sendClosed = true → SendStep m w s .load s (.ret (some .errClosedPipe))
  | load : s.sendClosed = false → SendStep m w s .load s (.headers .cas)
  | headers : WriteHeadersStep w s pc s' pc' → SendStep m w s (.headers pc) s' (.ofHeaders pc')
  | rlock : s.base.mu.canRLock = true →
      SendStep m w s .rlock
        { s with base := { s.base with mu := s.base.mu.rlock .handler } } (.ofMarshal m)
  | written : SendStep m w s (.write []) s (.runlock none)
  | write : s.chDown = false →
      SendStep m w s (.write (p :: ps)) { s with sent := s.sent ++ [.message p] } (.write ps)
  | failWrite : w = some e → SendStep m w s (.write (p :: ps)) s (.runlock (some e))
  | runlock : SendStep m w s (.runlock err)
      { s with base := { s.base with mu := s.base.mu.runlock .handler } } (.ofError err)
  | closedErr : SendStep m w s (.close e .ret) s (.ret (some e))
  | close : CloseSendStep .handler (some e) w s pc s' pc' →
      SendStep m w s (.close e pc) s' (.close e pc')

theorem sendMsg_step {s s' : ServerStream} (h : sendMsg m w s pc = some (s', pc')) :
    SendStep m w s pc s' pc' := by
  unfold sendMsg at h
  split at h
  · simp only [Option.some.injEq, Prod.mk.injEq] at h
    obtain ⟨rfl, rfl⟩ := h
    split
    · exact .closed ‹_›
    · exact .load (Bool.eq_false_of_not_eq_true ‹_›)
  · obtain ⟨⟨s₁, pc₁⟩, hw, he⟩ := Option.map_eq_some_iff.1 h
    cases he
    exact .headers (writeHeaders_step hw)
  · split at h <;> cases h
    exact .rlock ‹_›
  · cases h
    exact .written
  · obtain ⟨⟨s₁, err⟩, hw, he⟩ := Option.map_eq_some_iff.1 h
    cases he
    cases err with
    | none =>
      obtain ⟨hdown, rfl⟩ := ServerStream.write_ok hw
      exact .write hdown
    | some e =>
      obtain ⟨rfl, rfl⟩ := ServerStream.write_err hw
      exact .failWrite rfl
  · cases h
    exact .runlock
  · cases h
    exact .closedErr
  · obtain ⟨⟨s₁, pc₁⟩, hc, he⟩ := Option.map_eq_some_iff.1 h
    cases he
    exact .close (closeWithSendError_step hc)
  · cases h

def SendPc.mode : SendPc → LockMode
  | .write _ | .runlock _ => .read
  | .close _ pc => pc.mode
  | _ => .free

@[simp] theorem SendPc.mode_ofHeaders (pc : WriteHeadersPc) : (ofHeaders pc).mode = .free := by
  cases pc with
  | ret err => cases err <;> rfl
  | _ => rfl

@[simp] theorem SendPc.mode_ofMarshal (m : Except GoErr Bytes) : (ofMarshal m).mode = .read := by
  cases m <;> rfl

@[simp] theorem SendPc.mode_ofError (err : Option GoErr) : (ofError err).mode = .free := by
  cases err <;> rfl

def SendPc.wins : SendPc → Wins
  | .close _ pc => pc.wins
  | _ => {}

theorem SendPc.ready_le (pc : SendPc) : pc.wins.ready ≤ pc.wins.recv := by
  cases pc with
  | close e pc => exact pc.ready_le
  | _ => exact le_rfl

theorem SendPc.wins_ofHeaders (pc : WriteHeadersPc) : (ofHeaders pc).wins = {} := by
  cases pc with
  | ret err => cases err <;> rfl
  | _ => rfl

theorem SendPc.wins_ofMarshal (m : Except GoErr Bytes) : (ofMarshal m).wins = {} := by
  cases m <;> rfl

theorem SendPc.wins_ofError (err : Option GoErr) : (ofError err).wins = {} := by
  cases err <;> rfl

namespace SendStep

variable {s s' : ServerStream} {m : Except GoErr Bytes} {w : Option GoErr} {pc pc' : SendPc}
  (h : SendStep m w s pc s' pc')

include h

theorem lockStep : LockStep .handler s.base.mu pc.mode s'.base.mu pc'.mode := by
  cases h with
  | headers h =>
    rw [h.base, SendPc.mode_ofHeaders]
    exact .keep
  | rlock h =>
    rw [SendPc.mode_ofMarshal]
    exact .rlock h
  | runlock =>
    rw [SendPc.mode_ofError]
    exact .runlock
  | close h => exact h.lockStep
  | _ => exact .keep

theorem baseMove : CloseMove s.base s'.base := by
  cases h with
  | headers h => exact h.base ▸ .keep
  | rlock | runlock => exact .mu _
  | close h => exact h.baseMove
  | _ => exact .keep

theorem race : ServerRace s s' pc.wins pc'.wins := by
  cases h with
  | headers h =>
    rw [SendPc.wins_ofHeaders]
    exact .of_base h.base h.flags.1 _
  | rlock =>
    rw [SendPc.wins_ofMarshal]
    exact ⟨⟨fun _ => rfl, fun _ hk hc => ⟨hk, hc⟩, rfl, fun _ => rfl⟩, le_rfl⟩
  | runlock =>
    rw [SendPc.wins_ofError]
    exact ⟨⟨fun _ => rfl, fun _ hk hc => ⟨hk, hc⟩, rfl, fun _ => rfl⟩, le_rfl⟩
  | close h => exact h.race
  | write => exact ⟨.refl _ _, le_rfl⟩
  | _ => exact .refl _ _

theorem headersReceived : s'.headersReceived = s.headersReceived := by
  cases h with
  | headers h => exact h.flags.2
  | close h => exact h.headersReceived
  | _ => rfl

end SendStep

inductive HandlerKind where
  | unary
  | stream
  deriving DecidableEq

inductive HandlerOp where
  | setHeader (md : Option MD)
  | sendHeader (md : Option MD)
  | setTrailer (md : Option MD)
  | sendMsg (m : Except GoErr Bytes)
  deriving DecidableEq

/-- What a handler returns: a unary one a response or an error, a streaming one nil or an
error. -/
inductive HandlerReturn where
  | response (m : Except GoErr Bytes)
  | nil
  | error (e : GoErr)
  deriving DecidableEq

/-- Where the handler goroutine stands; `response` is the `SendMsg` of `unaryHandler`. -/
inductive HandlerPc where
  | notStarted
  | running
  | sendHeader (pc : WriteHeadersPc)
  | sendMsg (m : Except GoErr Bytes) (pc : SendPc)
  | response (m : Except GoErr Bytes) (pc : SendPc)
  | closing (err : Option GoErr) (pc : CloseSendPc)
  | finished
  deriving DecidableEq

inductive HandlerAct where
  | call (op : HandlerOp)
  | returns (r : HandlerReturn)
  | step (w : Option GoErr)
  deriving DecidableEq

def handlerCall (kind : HandlerKind) (s : ServerStream) :
    HandlerOp → Option (ServerStream × HandlerPc)
  | .setHeader md => if s.base.mu.canLock then some ((s.setHeader md).getD s, .running) else none
  | .sendHeader md =>
    if s.base.mu.canLock then
      some (match s.setHeader md with
        | none => (s, .running)
        | some s' => (s', .sendHeader .cas))
    else none
  | .setTrailer md => some (s.setTrailer md, .running)
  | .sendMsg m => if kind = .stream then some (s, .sendMsg m .load) else none

/-- What `unaryHandler` and `streamHandler` do with the value that the handler returns. -/
def handlerReturn (kind : HandlerKind) : HandlerReturn → Option HandlerPc
  | .response m => if kind = .unary then some (.response m .load) else none
  | .nil => if kind = .stream then some (.closing none .cas) else none
  | .error e =>
    some (if kind = .stream ∧ e.is .eof = true then .finished else .closing (some e) .cas)

theorem handlerReturn_cases (h : handlerReturn kind r = some pc) :
    (∃ m, pc = .response m .load) ∨ (∃ err, pc = .closing err .cas) ∨ pc = .finished := by
  cases r with
  | response m =>
    simp only [handlerReturn] at h
    split at h <;> cases h
    exact .inl ⟨m, rfl⟩
  | nil =>
    simp only [handlerReturn] at h
    split at h <;> cases h
    exact .inr (.inl ⟨none, rfl⟩)
  | error e =>
    simp only [handlerReturn, Option.some.injEq] at h
    split at h <;> subst h
    · exact .inr (.inr rfl)
    · exact .inr (.inl ⟨some e, rfl⟩)

def HandlerPc.ofResponse (m : Except GoErr Bytes) : SendPc → HandlerPc
  | .ret none => .closing none .cas
  | .ret (some _) => .finished
  | pc => .response m pc

def HandlerPc.ofSend (m : Except GoErr Bytes) : SendPc → HandlerPc
  | .ret _ => .running
  | pc => .sendMsg m pc

def HandlerPc.ofSendHeader : WriteHeadersPc → HandlerPc
  | .ret _ => .running
  | pc => .sendHeader pc

def HandlerPc.ofClosing (err : Option GoErr) : CloseSendPc → HandlerPc
  | .ret => .finished
  | pc => .closing err pc

def handle (kind : HandlerKind) (s : ServerStream) :
    HandlerPc → HandlerAct → Option (ServerStream × HandlerPc)
  | .running, .call op => handlerCall kind s op
  | .running, .returns r => (handlerReturn kind r).map fun pc => (s, pc)
  | .sendHeader pc, .step w =>
    (writeHeaders w s pc).map fun (s', pc') => (s', .ofSendHeader pc')
  | .sendMsg m pc, .step w => (sendMsg m w s pc).map fun (s', pc') => (s', .ofSend m pc')
  | .response m pc, .step w => (sendMsg m w s pc).map fun (s', pc') => (s', .ofResponse m pc')
  | .closing err pc, .step w =>
    (closeWithSendError .handler err w s pc).map fun (s', pc') => (s', .ofClosing err pc')
  | _, _ => none

inductive HandleStep (kind : HandlerKind) (s : ServerStream) :
    HandlerPc → HandlerAct → ServerStream → HandlerPc → Prop where
  | setHeader : s.base.mu.canLock = true → s.headersWritten = false →
      HandleStep kind s .running (.call (.setHeader md))
        { s with header := mergeMD s.header md } .running
  | setHeaderLate : s.base.mu.canLock = true → s.headersWritten = true →
      HandleStep kind s .running (.call (.setHeader md)) s .running
  | sendHeader : s.base.mu.canLock = true → s.headersWritten = false →
      HandleStep kind s .running (.call (.sendHeader md))
        { s with header := mergeMD s.header md } (.sendHeader .cas)
  | sendHeaderLate : s.base.mu.canLock = true → s.headersWritten = true →
      HandleStep kind s .running (.call (.sendHeader md)) s .running
  | setTrailer : HandleStep kind s .running (.call (.setTrailer md)) (s.setTrailer md) .running
  | callSend : kind = .stream →
      HandleStep kind s .running (.call (.sendMsg m)) s (.sendMsg m .load)
  | returns : handlerReturn kind r = some pc → HandleStep kind s .running (.returns r) s pc
  | headers : WriteHeadersStep w s pc s' pc' →
      HandleStep kind s (.sendHeader pc) (.step w) s' (.ofSendHeader pc')
  | send : SendStep m w s pc s' pc' →
      HandleStep kind s (.sendMsg m pc) (.step w) s' (.ofSend m pc')
  | response : SendStep m w s pc s' pc' →
      HandleStep kind s (.response m pc) (.step w) s' (.ofResponse m pc')
  | close : CloseSendStep .handler err w s pc s' pc' →
      HandleStep kind s (.closing err pc) (.step w) s' (.ofClosing err pc')

theorem handle_step {s s' : ServerStream} (h : handle kind s pc a = some (s', pc')) :
    HandleStep kind s pc a s' pc' := by
  unfold handle at h
  split at h
  · rename_i op
    cases op with
    | setHeader md =>
      simp only [handlerCall, ServerStream.setHeader] at h
      split at h <;> cases h
      split
      · exact .setHeaderLate ‹_› ‹_›
      · exact .setHeader ‹_› (Bool.eq_false_of_not_eq_true ‹_›)
    | sendHeader md =>
      simp only [handlerCall, ServerStream.setHeader] at h
      split at h
      · by_cases hw : s.headersWritten = true
        · simp only [if_pos hw] at h
          cases h
          exact .sendHeaderLate ‹_› hw
        · simp only [if_neg hw] at h
          cases h
          exact .sendHeader ‹_› (Bool.eq_false_of_not_eq_true hw)
      · cases h
    | setTrailer md =>
      cases h
      exact .setTrailer
    | sendMsg m =>
      simp only [handlerCall] at h
      split at h <;> cases h
      exact .callSend ‹_›
  · obtain ⟨pc₁, hr, he⟩ := Option.map_eq_some_iff.1 h
    cases he
    exact .returns hr
  · obtain ⟨⟨s₁, pc₁⟩, hw, he⟩ := Option.map_eq_some_iff.1 h
    cases he
    exact .headers (writeHeaders_step hw)
  · obtain ⟨⟨s₁, pc₁⟩, hm, he⟩ := Option.map_eq_some_iff.1 h
    cases he
    exact .send (sendMsg_step hm)
  · obtain ⟨⟨s₁, pc₁⟩, hm, he⟩ := Option.map_eq_some_iff.1 h
    cases he
    exact .response (sendMsg_step hm)
  · obtain ⟨⟨s₁, pc₁⟩, hc, he⟩ := Option.map_eq_some_iff.1 h
    cases he
    exact .close (closeWithSendError_step hc)
  · cases h

def HandlerPc.mode : HandlerPc → LockMode
  | .sendMsg _ pc | .response _ pc | .closing _ pc => pc.mode
  | _ => .free

@[simp] theorem HandlerPc.mode_ofSendHeader (pc : WriteHeadersPc) :
    (ofSendHeader pc).mode = .free := by
  cases pc <;> rfl

@[simp] theorem HandlerPc.mode_ofSend (m : Except GoErr Bytes) (pc : SendPc) :
    (ofSend m pc).mode = pc.mode := by
  cases pc <;> rfl

@[simp] theorem HandlerPc.mode_ofResponse (m : Except GoErr Bytes) (pc : SendPc) :
    (ofResponse m pc).mode = pc.mode := by
  cases pc with
  | ret err => cases err <;> rfl
  | _ => rfl

@[simp] theorem HandlerPc.mode_ofClosing (err : Option GoErr) (pc : CloseSendPc) :
    (ofClosing err pc).mode = pc.mode := by
  cases pc <;> rfl

def HandlerPc.wins : HandlerPc → Wins
  | .sendMsg _ pc | .response _ pc | .closing _ pc => pc.wins
  | _ => {}

theorem handlerReturn_free (h : handlerReturn kind r = some pc) :
    pc.mode = .free ∧ pc.wins = {} ∧ pc ≠ .notStarted := by
  cases r with
  | response m | nil =>
    simp only [handlerReturn] at h
    split at h <;> cases h
    exact ⟨rfl, rfl, nofun⟩
  | error e =>
    simp only [handlerReturn, Option.some.injEq] at h
    split at h <;> cases h <;> exact ⟨rfl, rfl, nofun⟩

theorem HandlerPc.ready_le (pc : HandlerPc) : pc.wins.ready ≤ pc.wins.recv := by
  cases pc with
  | sendMsg m pc | response m pc | closing err pc => exact pc.ready_le
  | _ => exact le_rfl

theorem HandlerPc.wins_ofSend (m : Except GoErr Bytes) (pc : SendPc) :
    (ofSend m pc).wins = pc.wins := by
  cases pc <;> rfl

theorem HandlerPc.wins_ofResponse (m : Except GoErr Bytes) (pc : SendPc) :
    (ofResponse m pc).wins = pc.wins := by
  cases pc with
  | ret err => cases err <;> rfl
  | _ => rfl

theorem HandlerPc.wins_ofClosing (err : Option GoErr) (pc : CloseSendPc) :
    (ofClosing err pc).wins = pc.wins := by
  cases pc <;> rfl

theorem HandlerPc.wins_ofSendHeader (pc : WriteHeadersPc) : (ofSendHeader pc).wins = {} := by
  cases pc <;> rfl

namespace HandleStep

variable {s s' : ServerStream} {kind : HandlerKind} {pc pc' : HandlerPc} {a : HandlerAct}
  (h : HandleStep kind s pc a s' pc')

include h

theorem lockStep : LockStep .handler s.base.mu pc.mode s'.base.mu pc'.mode := by
  cases h with
  | returns h =>
    rw [(handlerReturn_free h).1]
    exact .keep
  | headers h =>
    rw [h.base, HandlerPc.mode_ofSendHeader]
    exact .keep
  | send h =>
    rw [HandlerPc.mode_ofSend]
    exact h.lockStep
  | response h =>
    rw [HandlerPc.mode_ofResponse]
    exact h.lockStep
  | close h =>
    rw [HandlerPc.mode_ofClosing]
    exact h.lockStep
  | _ => exact .keep

theorem baseMove : CloseMove s.base s'.base := by
  cases h with
  | headers h => exact h.base ▸ .keep
  | send h | response h | close h => exact h.baseMove
  | _ => exact .keep

theorem race : ServerRace s s' pc.wins pc'.wins := by
  cases h with
  | setHeader | sendHeader | setTrailer => exact ⟨.refl _ _, le_rfl⟩
  | returns h =>
    rw [(handlerReturn_free h).2.1]
    exact .refl _ _
  | headers h =>
    rw [HandlerPc.wins_ofSendHeader]
    exact .of_base h.base h.flags.1 _
  | send h =>
    rw [HandlerPc.wins_ofSend]
    exact h.race
  | response h =>
    rw [HandlerPc.wins_ofResponse]
    exact h.race
  | close h =>
    rw [HandlerPc.wins_ofClosing]
    exact h.race
  | _ => exact .refl _ _

theorem started : pc ≠ .notStarted ∧ pc' ≠ .notStarted := by
  cases h with
  | returns h => exact ⟨nofun, (handlerReturn_free h).2.2⟩
  | @headers _ _ _ pc' | @send _ _ _ _ pc' => exact ⟨nofun, by cases pc' <;> exact nofun⟩
  | @response _ _ _ _ pc' =>
    refine ⟨nofun, ?_⟩
    cases pc' with
    | ret err => cases err <;> exact nofun
    | _ => exact nofun
  | @close _ _ _ _ pc' => exact ⟨nofun, by cases pc' <;> exact nofun⟩
  | _ => exact ⟨nofun, nofun⟩

theorem headersReceived : s'.headersReceived = s.headersReceived := by
  cases h with
  | headers h => exact h.flags.2
  | send h | response h | close h => exact h.headersReceived
  | _ => rfl

end HandleStep

end Goutils.Rpc
