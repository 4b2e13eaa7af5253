import Goutils.Rpc.ClientSend

namespace Goutils.Rpc
open Lib
open Lib.Wire (Bytes)
set_option autoImplicit true

inductive ClientGoroutine where
  | dispatcher
  | reader
  | closer (i : Nat)
  deriving DecidableEq

/-- `webrtcClientStream`; `headersReceived` tells whether the channel of that name is closed. -/
structure ClientStream where
  base : BaseStream ClientGoroutine := {}
  headers : Option MD := none
  trailers : Option MD := none
  headersReceived : Bool := false
  trailersReceived : Bool := false
  sendClosed : Bool := false

/-- Where the dispatcher stands in `onResponse`. A protocol violation closes the stream without
the mutex. -/
inductive ResponsePc where
  | idle
  | lockHeaders (md : Option MD)
  | closeHeaders
  | deliver (data : Bytes) (pc : DeliverPc)
  | violation (e : GoErr) (pc : ClosePc)
  | lockTrailers (st : Option Status) (md : Option MD)
  | closeTrailers (err : Option GoErr) (pc : ClosePc)
  deriving DecidableEq

def errHeadersTwice : GoErr := .text "headers already received"
def errHeadersBehindTrailers : GoErr := .text "headers received after trailers"
def errHeadersMissing : GoErr := .text "headers not yet received"
def errMessageBehindTrailers : GoErr := .text "message received after trailers"

def ResponsePc.ofPacket : Option Bytes → ResponsePc
  | none => .idle
  | some data => .deliver data .enter

def ClientStream.onResponse (s : ClientStream) : ResponseType → ClientStream × ResponsePc
  | .headers md =>
    (s, if s.headersReceived then .violation errHeadersTwice .cas
      else if s.trailersReceived then .violation errHeadersBehindTrailers .cas
      else .lockHeaders md)
  | .message p =>
    if s.headersReceived then
      if s.trailersReceived then (s, .violation errMessageBehindTrailers .cas)
      else
        let (buf, data) := processPacket s.base.packetBuf p
        ({ s with base := { s.base with packetBuf := buf } }, .ofPacket data)
    else (s, .violation errHeadersMissing .cas)
  | .trailers st md => (s, .lockTrailers st md)
  | .unset => (s, .idle)

variable {s s' : ClientStream}

theorem ClientStream.onResponse_message (hh : s.headersReceived = true)
    (ht : s.trailersReceived = false) (hp : processPacket s.base.packetBuf p = (buf, data)) :
    s.onResponse (.message p) =
      ({ s with base := { s.base with packetBuf := buf } }, .ofPacket data) := by
  unfold onResponse
  simp only
  rw [if_pos hh, if_neg (by rw [ht]; decide), hp]

/-- The trailers' metadata is kept if there is any. -/
def ClientStream.takeTrailers (s : ClientStream) (md : Option MD) : ClientStream :=
  { s with
    trailersReceived := true
    trailers := if md.isSome then metadataFromProto md else s.trailers }

inductive ResponseAct where
  | deliver (a : DeliverAct)
  | step
  deriving DecidableEq

def ResponsePc.afterDeliver (data : Bytes) : Option Bool → ResponsePc
  | none => .deliver data .send
  | some _ => .idle

def respond (s : ClientStream) : ResponsePc → ResponseAct → Option (ClientStream × ResponsePc)
  | .lockHeaders md, .step =>
    if s.base.mu.canLock then some ({ s with headers := metadataFromProto md }, .closeHeaders)
    else none
  | .closeHeaders, .step => some ({ s with headersReceived := true }, .idle)
  | .deliver data pc, .deliver a =>
    (deliver data s.base pc a).map fun (b, res) => ({ s with base := b }, .afterDeliver data res)
  | .violation _ .ret, .step => some (s, .idle)
  | .violation e pc, .step =>
    (closeWithError (some e) false s.base pc).map fun (b, pc') =>
      ({ s with base := b }, .violation e pc')
  | .lockTrailers st md, .step =>
    if s.base.mu.canLock then
      some ({ s.takeTrailers md with base := { s.base with mu := s.base.mu.lock .dispatcher } },
        .closeTrailers (statusErr st) .cas)
    else none
  | .closeTrailers _ .ret, .step =>
    some ({ s with base := { s.base with mu := s.base.mu.unlock } }, .idle)
  | .closeTrailers err pc, .step =>
    (closeWithError err err.isNone s.base pc).map fun (b, pc') =>
      ({ s with base := b }, .closeTrailers err pc')
  | _, _ => none

inductive RespondStep (s : ClientStream) :
    ResponsePc → ResponseAct → ClientStream → ResponsePc → Prop where
  | lockHeaders : s.base.mu.canLock = true →
      RespondStep s (.lockHeaders md) .step { s with headers := metadataFromProto md }
        .closeHeaders
  | closeHeaders : RespondStep s .closeHeaders .step { s with headersReceived := true } .idle
  | deliver : DeliverStep data s.base pc a b res →
      RespondStep s (.deliver data pc) (.deliver a) { s with base := b } (.afterDeliver data res)
  | violated : RespondStep s (.violation e .ret) .step s .idle
  | violation : CloseStep (some e) false s.base pc b pc' →
      RespondStep s (.violation e pc) .step { s with base := b } (.violation e pc')
  | lockTrailers : s.base.mu.canLock = true →
      RespondStep s (.lockTrailers st md) .step
        { s.takeTrailers md with base := { s.base with mu := s.base.mu.lock .dispatcher } }
        (.closeTrailers (statusErr st) .cas)
  | unlock : RespondStep s (.closeTrailers err .ret) .step
      { s with base := { s.base with mu := s.base.mu.unlock } } .idle
  | closeTrailers : CloseStep err err.isNone s.base pc b pc' →
      RespondStep s (.closeTrailers err pc) .step { s with base := b } (.closeTrailers err pc')

theorem respond_step (h : respond s pc a = some (s', pc')) : RespondStep s pc a s' pc' := by
  unfold respond at h
  split at h
  · split at h <;> cases h
    exact .lockHeaders ‹_›
  · cases h
    exact .closeHeaders
  · obtain ⟨⟨b, res⟩, hb, he⟩ := Option.map_eq_some_iff.1 h
    cases he
    exact .deliver (deliver_step hb)
  · cases h
    exact .violated
  · obtain ⟨⟨b, pc₁⟩, hb, he⟩ := Option.map_eq_some_iff.1 h
    cases he
    exact .violation (closeWithError_step hb)
  · split at h <;> cases h
    exact .lockTrailers ‹_›
  · cases h
    exact .unlock
  · obtain ⟨⟨b, pc₁⟩, hb, he⟩ := Option.map_eq_some_iff.1 h
    cases he
    exact .closeTrailers (closeWithError_step hb)
  · cases h

/-- Where a goroutine that may close stands; `closing` is `closeWithError`. -/
inductive CloserPc where
  | lockClose
  | cancel
  | awaitDone
  | checkClosed
  | lockReset
  | writeReset
  | lockHeaders
  | lockMessage (eos : Bool)
  | write (mode : LockMode)
  | closing (err : Option GoErr) (mode : LockMode) (pc : ClosePc)
  | done
  deriving DecidableEq

def ClientStream.withMu (s : ClientStream) (m : RWMutex ClientGoroutine) : ClientStream :=
  { s with base := { s.base with mu := m } }

def ClientStream.withCtx (s : ClientStream) (e : CtxErr) : ClientStream :=
  { s with base := { s.base with ctx := s.base.ctx.or (some e) } }

def closer (me : ClientGoroutine) (w : Option GoErr) (s : ClientStream) :
    CloserPc → Option (ClientStream × CloserPc)
  | .lockClose => if s.base.mu.canLock then some (s.withMu (s.base.mu.lock me), .cancel) else none
  | .cancel => some (s.withCtx .canceled, .closing none .write .cas)
  | .awaitDone => if s.base.ctx.isSome then some (s, .checkClosed) else none
  | .checkClosed => some (s, if s.base.closed then .done else .lockReset)
  | .lockReset =>
    if s.base.mu.canLock then
      some ({ s.withMu (s.base.mu.lock me) with sendClosed := true }, .writeReset)
    else none
  | .writeReset => some (s, .closing (checkWriteErrForStreamClose w) .write .cas)
  | .lockHeaders =>
    if s.base.mu.canLock then some (s.withMu (s.base.mu.lock me), .write .write) else none
  | .lockMessage eos =>
    if s.base.mu.canRLock then
      if s.sendClosed then some (s, .done)
      else if eos then
        if s.base.mu.canLock then
          some ({ s.withMu (s.base.mu.lock me) with sendClosed := true }, .write .write)
        else none
      else some (s.withMu (s.base.mu.rlock me), .write .read)
    else none
  | .write mode =>
    match checkWriteErrForStreamClose w with
    | some e => some (s, .closing (some e) mode .cas)
    | none => some (s.withMu (s.base.mu.release me mode), .done)
  | .closing _ mode .ret => some (s.withMu (s.base.mu.release me mode), .done)
  | .closing err mode pc =>
    (closeWithError err false s.base pc).map fun (b, pc') =>
      ({ s with base := b }, .closing err mode pc')
  | .done => none

inductive CloserStep (me : ClientGoroutine) (w : Option GoErr) (s : ClientStream) :
    CloserPc → ClientStream → CloserPc → Prop where
  | lockClose : s.base.mu.canLock = true →
      CloserStep me w s .lockClose (s.withMu (s.base.mu.lock me)) .cancel
  | cancel : CloserStep me w s .cancel (s.withCtx .canceled) (.closing none .write .cas)
  | awaitDone : s.base.ctx.isSome = true → CloserStep me w s .awaitDone s .checkClosed
  | closed : s.base.closed = true → CloserStep me w s .checkClosed s .done
  | notClosed : s.base.closed = false → CloserStep me w s .checkClosed s .lockReset
  | lockReset : s.base.mu.canLock = true →
      CloserStep me w s .lockReset { s.withMu (s.base.mu.lock me) with sendClosed := true }
        .writeReset
  | writeReset : CloserStep me w s .writeReset s
      (.closing (checkWriteErrForStreamClose w) .write .cas)
  | lockHeaders : s.base.mu.canLock = true →
      CloserStep me w s .lockHeaders (s.withMu (s.base.mu.lock me)) (.write .write)
  | sendClosed : s.sendClosed = true → CloserStep me w s (.lockMessage eos) s .done
  | lockMessage : s.base.mu.canLock = true →
      CloserStep me w s (.lockMessage true)
        { s.withMu (s.base.mu.lock me) with sendClosed := true } (.write .write)
  | rlockMessage : s.base.mu.canRLock = true →
      CloserStep me w s (.lockMessage false) (s.withMu (s.base.mu.rlock me)) (.write .read)
  | failed : checkWriteErrForStreamClose w = some e →
      CloserStep me w s (.write mode) s (.closing (some e) mode .cas)
  | written : CloserStep me w s (.write mode) (s.withMu (s.base.mu.release me mode)) .done
  | release : CloserStep me w s (.closing err mode .ret)
      (s.withMu (s.base.mu.release me mode)) .done
  | close : CloseStep err false s.base pc b pc' →
      CloserStep me w s (.closing err mode pc) { s with base := b } (.closing err mode pc')

theorem closer_step (h : closer me w s pc = some (s', pc')) : CloserStep me w s pc s' pc' := by
  unfold closer at h
  split at h
  · split at h <;> cases h
    exact .lockClose ‹_›
  · cases h
    exact .cancel
  · split at h <;> cases h
    exact .awaitDone ‹_›
  · simp only [Option.some.injEq, Prod.mk.injEq] at h
    obtain ⟨rfl, rfl⟩ := h
    split
    · exact .closed ‹_›
    · exact .notClosed (Bool.eq_false_of_not_eq_true ‹_›)
  · split at h <;> cases h
    exact .lockReset ‹_›
  · cases h
    exact .writeReset
  · split at h <;> cases h
    exact .lockHeaders ‹_›
  · rename_i eos
    split at h
    · split at h
      · cases h
        exact .sendClosed ‹_›
      · cases eos with
        | false =>
          cases h
          exact .rlockMessage ‹_›
        | true =>
          simp only [↓reduceIte] at h
          split at h <;> cases h
          exact .lockMessage ‹_›
    · cases h
  · split at h <;> cases h
    · exact .failed ‹_›
    · exact .written
  · cases h
    exact .release
  · obtain ⟨⟨b, pc₁⟩, hb, he⟩ := Option.map_eq_some_iff.1 h
    cases he
    exact .close (closeWithError_step hb)
  · cases h

def ResponsePc.mode : ResponsePc → LockMode
  | .closeTrailers _ _ => .write
  | _ => .free

def CloserPc.mode : CloserPc → LockMode
  | .cancel | .writeReset => .write
  | .write mode | .closing _ mode _ => mode
  | _ => .free

theorem ResponsePc.mode_afterDeliver (data : Bytes) (res : Option Bool) :
    (afterDeliver data res).mode = .free := by
  cases res <;> rfl

theorem RespondStep.lockStep (h : RespondStep s pc a s' pc') :
    LockStep .dispatcher s.base.mu pc.mode s'.base.mu pc'.mode := by
  cases h with
  | deliver h =>
    simp only [h.mu, ResponsePc.mode_afterDeliver]
    exact .keep
  | violation h | closeTrailers h =>
    simp only [h.mu.1]
    exact .keep
  | lockTrailers h => exact .lock h
  | unlock => exact .unlock
  | _ => exact .keep

theorem CloserStep.lockStep (h : CloserStep me w s pc s' pc') :
    LockStep me s.base.mu pc.mode s'.base.mu pc'.mode := by
  cases h with
  | lockClose h | lockReset h | lockHeaders h | lockMessage h => exact .lock h
  | rlockMessage h => exact .rlock h
  | written | release => exact .release
  | close h =>
    simp only [h.mu.1]
    exact .keep
  | _ => exact .keep

def ResponsePc.wins : ResponsePc → Wins
  | .violation _ pc | .closeTrailers _ pc => pc.wins
  | _ => {}

def ResponsePc.senders : ResponsePc → Nat
  | .deliver _ .send => 1
  | _ => 0

def CloserPc.wins : CloserPc → Wins
  | .closing _ _ pc => pc.wins
  | _ => {}

theorem ResponsePc.wins_afterDeliver (data : Bytes) (res : Option Bool) :
    (afterDeliver data res).wins = {} := by
  cases res <;> rfl

theorem CloserPc.ready_le (pc : CloserPc) : pc.wins.ready ≤ pc.wins.recv := by
  cases pc with
  | closing err mode pc => exact pc.ready_le
  | _ => exact le_rfl

theorem RespondStep.race (h : RespondStep s pc a s' pc')
    (hopen : pc.senders = 1 → s.base.msgCh.closed = false) :
    RaceStep s.base s'.base pc.wins pc'.wins := by
  cases h with
  | @deliver data pc _ _ res h =>
    rw [ResponsePc.wins_afterDeliver]
    apply h.race
    rintro rfl
    exact hopen rfl
  | violation h | closeTrailers h => exact h.race
  | lockTrailers | unlock => exact ⟨fun _ => rfl, fun _ hk hc => ⟨hk, hc⟩, rfl, fun _ => rfl⟩
  | _ => exact .refl _ _

theorem RespondStep.activeSenders (h : RespondStep s pc a s' pc')
    (hs : s.base.activeSenders = pc.senders) : s'.base.activeSenders = pc'.senders := by
  cases h with
  | deliver h =>
    cases h with
    | closed => exact hs
    | enter => exact congrArg (· + 1) hs
    | send | ctxDone => exact congrArg (· - 1) hs
  | violation h | closeTrailers h => exact h.mu.2.trans hs
  | _ => exact hs

theorem RespondStep.sending (h : RespondStep s pc a s' pc') (hp : pc'.senders = 1) :
    s.base.recvClosed = false ∧
      s'.base = { s.base with activeSenders := s.base.activeSenders + 1 } := by
  cases h with
  | deliver h =>
    cases h with
    | enter _ hr => exact ⟨hr, rfl⟩
    | _ => cases hp
  | _ => cases hp

theorem CloserStep.race (h : CloserStep me w s pc s' pc') :
    RaceStep s.base s'.base pc.wins pc'.wins ∧ s'.base.activeSenders = s.base.activeSenders := by
  cases h with
  | close h => exact ⟨h.race, h.mu.2⟩
  | _ => exact ⟨⟨fun _ => rfl, fun _ hk hc => ⟨hk, hc⟩, rfl, fun _ => rfl⟩, rfl⟩

end Goutils.Rpc
