import Goutils.Rpc.FrameGrammar

namespace Goutils.Rpc
open Lib
open Lib.Wire (Bytes)
set_option autoImplicit true

/-- What a handler puts out, as its calls mean it. -/
structure SendLog where
  header : Option MD := none
  body : Option (List Bytes) := none
  trailer : Option MD := none

namespace SendLog

def setHeader (l : SendLog) (md : Option MD) : SendLog :=
  if l.body.isSome then l else { l with header := mergeMD l.header md }

def fix (l : SendLog) : SendLog := { l with body := some (l.body.getD []) }

/-- A message that cannot be marshalled still fixes the header. -/
def send (l : SendLog) (m : Except GoErr Bytes) : SendLog :=
  { l with body := some (l.body.getD [] ++ m.toOption.toList) }

def op (l : SendLog) : HandlerOp → SendLog
  | .setHeader md => l.setHeader md
  | .sendHeader md => (l.setHeader md).fix
  | .setTrailer md => { l with trailer := mergeMD l.trailer md }
  | .sendMsg m => l.send m

def returned (l : SendLog) : Option HandlerReturn → SendLog
  | some (.response m) => l.send m
  | _ => l

def ofHandler (ops : List HandlerOp) (ret : Option HandlerReturn) : SendLog :=
  (ops.foldl op {}).returned ret

def messageFrames (m : Bytes) : List ResponseType :=
  (packets maxResponseMessagePacketDataSize m).map .message

def frames (l : SendLog) : List ResponseType :=
  match l.body with
  | none => []
  | some msgs => .headers (metadataToProto l.header) :: msgs.flatMap messageFrames

theorem ofHandler_call (ops : List HandlerOp) (op : HandlerOp) :
    ofHandler (ops ++ [op]) none = (ofHandler ops none).op op := by
  simp only [ofHandler, List.foldl_append, returned, List.foldl_cons, List.foldl_nil]

theorem ofHandler_returned (ops : List HandlerOp) (r : HandlerReturn) :
    ofHandler ops (some r) = (ofHandler ops none).returned (some r) := rfl

theorem fix_frames (l : SendLog) :
    l.fix.frames = .headers (metadataToProto l.header) :: (l.body.getD []).flatMap messageFrames :=
  rfl

variable {l : SendLog}

theorem setHeader_unfixed (h : l.body = none) (md : Option MD) :
    l.setHeader md = { l with header := mergeMD l.header md } := by
  simp only [setHeader, h, Option.isSome_none, Bool.false_eq_true, ↓reduceIte]

theorem setHeader_fixed (h : l.body.isSome = true) (md : Option MD) : l.setHeader md = l := by
  rw [setHeader, if_pos h]

theorem fix_fixed (h : l.body.isSome = true) : l.fix = l := by
  obtain ⟨msgs, hm⟩ := Option.isSome_iff_exists.1 h
  rw [fix, hm, Option.getD_some, ← hm]

theorem frames_unfixed (h : l.body = none) : l.frames = [] := by
  rw [frames, h]

theorem send_frames (l : SendLog) (m : Except GoErr Bytes) :
    (l.send m).frames = l.fix.frames ++ m.toOption.toList.flatMap messageFrames := by
  simp only [frames, send, fix, List.flatMap_append, List.cons_append]

end SendLog

def HandlerReturn.err : HandlerReturn → Option GoErr
  | .response (.ok _) => none
  | .response (.error e) => some e
  | .nil => none
  | .error e => some e

/-- `streamHandler` drops every error that is `io.EOF`. -/
def HandlerReturn.swallowed (kind : HandlerKind) : HandlerReturn → Bool
  | .error e => kind = .stream && e.is .eof
  | _ => false

structure Output where
  sent : List ResponseType
  headersWritten : Bool
  header : Option MD
  trailer : Option MD
  sendClosed : Bool
  closed : Bool
  onDone : Nat

def ServerStream.output (s : ServerStream) : Output where
  sent := s.sent
  headersWritten := s.headersWritten
  header := s.header
  trailer := s.trailer
  sendClosed := s.sendClosed
  closed := s.base.closed
  onDone := s.base.onDone

namespace Output

structure Opened (o : Output) : Prop where
  sendClosed : o.sendClosed = false
  closed : o.closed = false
  onDone : o.onDone = 0

structure Ending (o : Output) : Prop where
  sendClosed : o.sendClosed = true
  closed : o.closed = false
  onDone : o.onDone = 0

def headersLeft (o : Output) : WriteHeadersPc → List ResponseType
  | .cas => if o.headersWritten then [] else [.headers (metadataToProto o.header)]
  | .write => [.headers (metadataToProto o.header)]
  | .ret _ => []

structure UpTo (o : Output) (l : SendLog) : Prop where
  sent : o.sent = l.frames
  headersWritten : o.headersWritten = l.body.isSome

end Output

/-- The status is that of the error, or for a nil one that of the context as it was read. -/
def Corresponds (reads : Option CtxErr → Bool) (err : Option GoErr) (st : Option Status) : Prop :=
  match err with
  | some e => st = errorToStatus (some e)
  | none => ∃ ctx, reads ctx = true ∧ st = errorToStatus (ctx.map .ctx)

structure Ended (reads : Option CtxErr → Bool) (o : Output) (l : SendLog) (err : Option GoErr) :
    Prop where
  sendClosed : o.sendClosed = true
  silent : errorsIs err .errClosedPipe = true → o.sent = l.frames
  trailers : errorsIs err .errClosedPipe = false → ∃ st, Corresponds reads err st ∧
    o.sent = l.fix.frames ++ [.trailers st (metadataToProto l.trailer)]

def CloseSendPc.Closes (reads : Option CtxErr → Bool) (o : Output) (l : SendLog)
    (err : Option GoErr) : CloseSendPc → Prop
  | .cas => o.Opened ∧ o.UpTo l
  | .check => o.Ending ∧ o.UpTo l
  | .headers pc => o.Ending ∧ errorsIs err .errClosedPipe = false ∧
      o.sent ++ o.headersLeft pc = l.fix.frames
  | .status => o.Ending ∧ errorsIs err .errClosedPipe = false ∧ o.sent = l.fix.frames
  | .writeTrailers st => o.Ending ∧ errorsIs err .errClosedPipe = false ∧ o.sent = l.fix.frames ∧
      Corresponds reads err st
  | .lock => Ended reads o l err ∧ o.closed = false
  | .close pc => Ended reads o l err ∧ o.closed = decide (pc ≠ .cas)
  | .ret => Ended reads o l err ∧ o.onDone = 1

def SendPc.Sends (reads : Option CtxErr → Bool) (o : Output) (l : SendLog)
    (m : Except GoErr Bytes) : SendPc → Prop
  | .load => o.Opened ∧ o.sent ++ (o.headersLeft .cas ++
      m.toOption.toList.flatMap SendLog.messageFrames) = l.frames
  | .headers pc => o.Opened ∧ (pc ≠ .cas → o.headersWritten = true) ∧
      o.sent ++ (o.headersLeft pc ++ m.toOption.toList.flatMap SendLog.messageFrames) = l.frames
  | .rlock => o.Opened ∧ o.headersWritten = true ∧
      o.sent ++ m.toOption.toList.flatMap SendLog.messageFrames = l.frames
  | .write ps => o.Opened ∧ o.headersWritten = true ∧ m.isOk = true ∧
      o.sent ++ ps.map .message = l.frames
  | .runlock err => o.Opened ∧ o.headersWritten = true ∧ o.sent = l.frames ∧
      (err = none → m.isOk = true) ∧ (∀ e, err = some e → m = .error e)
  | .close e pc => m = .error e ∧ pc.Closes reads o l (some e)
  | .ret none => o.Opened ∧ o.headersWritten = true ∧ o.sent = l.frames ∧ m.isOk = true
  | .ret (some e) => m = .error e ∧ Ended reads o l (some e) ∧ o.onDone = 1

def HandlerPc.Outputs (reads : Option CtxErr → Bool) (kind : HandlerKind) (o : Output) (l : SendLog)
    (ret : Option HandlerReturn) : HandlerPc → Prop
  | .notStarted | .running => o.Opened ∧ o.UpTo l ∧ ret = none
  | .sendHeader pc => o.Opened ∧ l.body.isSome = true ∧ (pc ≠ .cas → o.headersWritten = true) ∧
      o.sent ++ o.headersLeft pc = l.frames ∧ ret = none
  | .sendMsg m pc => m.isOk = true ∧ l.body.isSome = true ∧ pc.Sends reads o l m ∧ ret = none
  | .response m pc => l.body.isSome = true ∧ pc.Sends reads o l m ∧ ret = some (.response m)
  | .closing err pc => pc.Closes reads o l err ∧
      ∃ r, ret = some r ∧ r.err = err ∧ r.swallowed kind = false
  | .finished => ∃ r, ret = some r ∧
      (r.swallowed kind = true ∧ o.Opened ∧ o.UpTo l ∨
        r.swallowed kind = false ∧ Ended reads o l r.err ∧ o.onDone = 1)

theorem Output.UpTo.headersLeft {o : Output} (h : o.UpTo l) (hl : o.header = l.header) :
    o.sent ++ o.headersLeft .cas = l.fix.frames := by
  obtain ⟨hsent, hwritten⟩ := h
  simp only [Output.headersLeft, hsent, hwritten, hl, SendLog.frames, SendLog.fix]
  cases l.body with
  | none => rfl
  | some msgs => exact List.append_nil _

theorem Output.UpTo.unfixed {o : Output} (h : o.UpTo l) (hw : o.headersWritten = false) :
    l.body = none ∧ o.sent = [] := by
  have hbody : l.body = none := Option.isSome_eq_false_iff.1 (h.headersWritten.symm.trans hw) |>
    Option.isNone_iff_eq_none.1
  exact ⟨hbody, h.sent.trans (SendLog.frames_unfixed hbody)⟩

theorem Ended.of_sent {o o' : Output} (h : Ended reads o l err) (hsent : o'.sent = o.sent)
    (hclosed : o'.sendClosed = o.sendClosed) : Ended reads o' l err := by
  constructor
  · rw [hclosed]
    exact h.sendClosed
  · rw [hsent]
    exact h.silent
  · rw [hsent]
    exact h.trailers

variable {s s' : ServerStream}

theorem closeStatus_corresponds (hreads : err = none → reads s.base.ctx = true) :
    Corresponds reads err (s.closeStatus err) := by
  cases err with
  | some e => rfl
  | none => exact ⟨_, hreads rfl, rfl⟩

theorem CloseSendStep.closes (h : CloseSendStep me err none s pc s' pc')
    (hc : pc.Closes reads s.output l err) (hch : s.chClosed = none) (hheader : s.header = l.header)
    (htrailer : s.trailer = l.trailer) (hdone : pc = .close .ret → s.base.onDone = 1)
    (hreads : pc = .status → err = none → reads s.base.ctx = true) :
    pc'.Closes reads s'.output l err := by
  cases h with
  | again h => exact absurd (h.symm.trans hc.1.sendClosed) nofun
  | first => exact ⟨⟨rfl, hc.1.closed, hc.1.onDone⟩, hc.2.sent, hc.2.headersWritten⟩
  | silent h =>
    obtain ⟨hend, hupto⟩ := hc
    have hpipe : errorsIs err .errClosedPipe = true := by
      have hclosed : s.base.closed = false := hend.closed
      simpa [ServerStream.closesSilently, hclosed, hch] using h
    exact ⟨⟨hend.sendClosed, fun _ => hupto.sent, fun hp => by simp [hp] at hpipe⟩, hend.closed⟩
  | check h =>
    obtain ⟨hend, hupto⟩ := hc
    refine ⟨hend, ?_, hupto.headersLeft hheader⟩
    cases hp : errorsIs err .errClosedPipe with
    | false => rfl
    | true => simp [ServerStream.closesSilently, hp] at h
  | headers h =>
    obtain ⟨hend, hpipe, hsent⟩ := hc
    cases h with
    | again hw =>
      refine ⟨hend, hpipe, ?_⟩
      simpa [Output.headersLeft, ServerStream.output, hw] using hsent
    | first hw =>
      refine ⟨{ hend with }, hpipe, ?_⟩
      simpa [Output.headersLeft, ServerStream.output, hw] using hsent
    | write => exact ⟨{ hend with }, hpipe, hsent⟩
    | fail _ hw => cases hw
  | status =>
    obtain ⟨hend, hpipe, hsent⟩ := hc
    exact ⟨hend, hpipe, hsent, closeStatus_corresponds (hreads rfl)⟩
  | @writeTrailers st =>
    obtain ⟨hend, hpipe, hsent, hst⟩ := hc
    refine ⟨⟨hend.sendClosed, fun hp => by simp [hp] at hpipe, fun _ => ⟨st, hst, ?_⟩⟩, hend.closed⟩
    have hsent : s.sent = l.fix.frames := hsent
    simp only [ServerStream.output, ServerStream.trailersFrame, hsent, htrailer]
  | failTrailers h => cases h
  | lock => exact ⟨hc.1, hc.2⟩
  | unlock => exact ⟨hc.1, hdone rfl⟩
  | close h =>
    obtain ⟨hended, hclosed⟩ := hc
    cases h with
    | again h => exact absurd (h.symm.trans hclosed) nofun
    | first => exact ⟨hended.of_sent rfl rfl, rfl⟩
    | recv h => cases h <;> exact ⟨hended.of_sent rfl rfl, hclosed⟩
    | _ => exact ⟨hended.of_sent rfl rfl, hclosed⟩

theorem SendStep.sends (h : SendStep m none s pc s' pc') (hc : pc.Sends reads s.output l m)
    (hch : s.chClosed = none) (hheader : s.header = l.header) (htrailer : s.trailer = l.trailer)
    (hbody : l.body.isSome = true) (hdone : ∀ e, pc = .close e (.close .ret) → s.base.onDone = 1) :
    pc'.Sends reads s'.output l m := by
  cases h with
  | closed h => exact absurd (h.symm.trans hc.1.sendClosed) nofun
  | load => exact ⟨hc.1, nofun, hc.2⟩
  | headers h =>
    obtain ⟨hopen, hw, hsent⟩ := hc
    cases h with
    | again hw' =>
      refine ⟨hopen, hw', ?_⟩
      simpa [Output.headersLeft, ServerStream.output, hw'] using hsent
    | first hw' =>
      refine ⟨{ hopen with }, fun _ => rfl, ?_⟩
      simpa [Output.headersLeft, ServerStream.output, hw'] using hsent
    | write =>
      refine ⟨{ hopen with }, hw nofun, ?_⟩
      rw [← hsent]
      simp [Output.headersLeft, ServerStream.output, ServerStream.headersFrame]
    | fail _ hf => cases hf
  | rlock =>
    obtain ⟨hopen, hw, hsent⟩ := hc
    cases m with
    | error e =>
      refine ⟨hopen, hw, ?_, nofun, fun e' he => ?_⟩
      · exact (List.append_nil _).symm.trans hsent
      · cases he
        rfl
    | ok data =>
      refine ⟨hopen, hw, rfl, ?_⟩
      rw [← hsent]
      simp [Except.toOption, SendLog.messageFrames, ServerStream.output]
  | written =>
    obtain ⟨hopen, hw, hm, hsent⟩ := hc
    exact ⟨hopen, hw, (List.append_nil _).symm.trans hsent, fun _ => hm, nofun⟩
  | write =>
    obtain ⟨hopen, hw, hm, hsent⟩ := hc
    refine ⟨{ hopen with }, hw, hm, ?_⟩
    rw [← hsent]
    simp [ServerStream.output]
  | failWrite h => cases h
  | @runlock err =>
    obtain ⟨hopen, hw, hsent, hok, herr⟩ := hc
    cases err with
    | none => exact ⟨hopen, hw, hsent, hok rfl⟩
    | some e => exact ⟨herr e rfl, hopen, hsent, hw.trans hbody.symm⟩
  | closedErr => exact hc
  | @close e pc _ _ h =>
    refine ⟨hc.1, h.closes hc.2 hch hheader htrailer ?_ nofun⟩
    rintro rfl
    exact hdone e rfl

/-- What the handler does if it is left alone: its own messages can be marshalled, and the
transport takes every frame. -/
def HandlerAct.Quiet : HandlerAct → Prop
  | .call (.sendMsg m) => m.isOk = true
  | .step w => w = none
  | _ => True

theorem HandleStep.metadata (h : HandleStep kind s pc (.step w) s' pc') :
    s'.header = s.header ∧ s'.trailer = s.trailer := by
  have hheaders {q q'} (h : WriteHeadersStep w s q s' q') :
      s'.header = s.header ∧ s'.trailer = s.trailer := by
    cases h <;> exact ⟨rfl, rfl⟩
  have hclose {me err q q'} (h : CloseSendStep me err w s q s' q') :
      s'.header = s.header ∧ s'.trailer = s.trailer := by
    cases h with
    | headers h => exact hheaders h
    | _ => exact ⟨rfl, rfl⟩
  have hsend {m q q'} (h : SendStep m w s q s' q') :
      s'.header = s.header ∧ s'.trailer = s.trailer := by
    cases h with
    | headers h => exact hheaders h
    | close h => exact hclose h
    | _ => exact ⟨rfl, rfl⟩
  cases h with
  | headers h => exact hheaders h
  | send h | response h => exact hsend h
  | close h => exact hclose h

def HandlerPc.unlocks : HandlerPc → Bool
  | .sendMsg _ (.close _ (.close .ret)) | .response _ (.close _ (.close .ret))
  | .closing _ (.close .ret) => true
  | _ => false

def HandlerPc.readsCtx : HandlerPc → Bool
  | .closing none .status => true
  | _ => false

theorem HandleStep.outputs (h : HandleStep kind s pc (.step none) s' pc')
    (ho : pc.Outputs reads kind s.output l ret) (hch : s.chClosed = none)
    (hheader : s.header = l.header) (htrailer : s.trailer = l.trailer)
    (hdone : pc.unlocks = true → s.base.onDone = 1)
    (hreads : pc.readsCtx = true → reads s.base.ctx = true) :
    pc'.Outputs reads kind s'.output l ret := by
  cases h with
  | headers h =>
    obtain ⟨hopen, hbody, hw, hsent, hret⟩ := ho
    cases h with
    | again hw' =>
      refine ⟨hopen, ⟨?_, hw'.trans hbody.symm⟩, hret⟩
      simpa [Output.headersLeft, ServerStream.output, hw'] using hsent
    | first hw' =>
      refine ⟨{ hopen with }, hbody, fun _ => rfl, ?_, hret⟩
      simpa [Output.headersLeft, ServerStream.output, hw'] using hsent
    | write =>
      exact ⟨{ hopen with }, ⟨hsent, (hw nofun).trans hbody.symm⟩,
        hret⟩
    | fail _ hf => cases hf
  | @send m _ pc _ pc' h =>
    obtain ⟨hok, hbody, hs, hret⟩ := ho
    have hs' := h.sends hs hch hheader htrailer hbody fun e he => hdone (by rw [he]; rfl)
    cases pc' with
    | ret err =>
      cases err with
      | none =>
        obtain ⟨hopen, hw, hsent, _⟩ := hs'
        exact ⟨hopen, ⟨hsent, hw.trans hbody.symm⟩, hret⟩
      | some e =>
        rw [hs'.1] at hok
        cases hok
    | _ => exact ⟨hok, hbody, hs', hret⟩
  | @response m _ pc _ pc' h =>
    obtain ⟨hbody, hs, hret⟩ := ho
    have hs' := h.sends hs hch hheader htrailer hbody fun e he => hdone (by rw [he]; rfl)
    cases pc' with
    | ret err =>
      cases err with
      | none =>
        obtain ⟨hopen, hw, hsent, hok⟩ := hs'
        refine ⟨⟨hopen, hsent, hw.trans hbody.symm⟩, _, hret, ?_, rfl⟩
        cases m with
        | error e => cases hok
        | ok data => rfl
      | some e =>
        obtain ⟨rfl, hended, hdone⟩ := hs'
        exact ⟨_, hret, .inr ⟨rfl, hended, hdone⟩⟩
    | _ => exact ⟨hbody, hs', hret⟩
  | @close err _ pc _ pc' h =>
    obtain ⟨hc, r, hret, herr, hswallowed⟩ := ho
    have hc' := h.closes hc hch hheader htrailer (fun he => hdone (by rw [he]; rfl))
      fun hpc he => hreads (by rw [hpc, he]; rfl)
    cases pc' with
    | ret => exact ⟨r, hret, .inr ⟨hswallowed, herr ▸ hc'.1, hc'.2⟩⟩
    | _ => exact ⟨hc', r, hret, herr, hswallowed⟩

theorem HandleStep.starts (h : HandleStep kind s pc a s' pc') (ha : ∀ w, a ≠ .step w) :
    pc = .running := by
  cases h with
  | headers | send | response | close => exact (ha _ rfl).elim
  | _ => rfl

theorem HandleStep.called (h : HandleStep kind s pc (.call op) s' pc')
    (hq : (HandlerAct.call op).Quiet) (ho : pc.Outputs reads kind s.output l ret)
    (hheader : s.header = l.header) (htrailer : s.trailer = l.trailer) :
    pc'.Outputs reads kind s'.output (l.op op) ret ∧ s'.header = (l.op op).header ∧
      s'.trailer = (l.op op).trailer := by
  cases h with
  | @setHeader md _ hw =>
    obtain ⟨hopen, hupto, hret⟩ := ho
    obtain ⟨hbody, hsent⟩ := hupto.unfixed hw
    rw [SendLog.op, SendLog.setHeader_unfixed hbody, ← hheader]
    refine ⟨⟨{ hopen with }, ⟨?_, ?_⟩, hret⟩, rfl, htrailer⟩
    · exact hsent.trans (SendLog.frames_unfixed (by exact hbody)).symm
    · exact hupto.headersWritten
  | @setHeaderLate md _ hw =>
    rw [SendLog.op, SendLog.setHeader_fixed (ho.2.1.headersWritten.symm.trans hw)]
    exact ⟨ho, hheader, htrailer⟩
  | @sendHeader md _ hw =>
    obtain ⟨hopen, hupto, hret⟩ := ho
    obtain ⟨hbody, hsent⟩ := hupto.unfixed hw
    rw [SendLog.op, SendLog.setHeader_unfixed hbody, ← hheader]
    refine ⟨⟨{ hopen with }, rfl, nofun, ?_, hret⟩, rfl, htrailer⟩
    rw [SendLog.fix_frames, hbody]
    simp [Output.headersLeft, ServerStream.output, hw, show s.sent = [] from hsent]
  | @sendHeaderLate md _ hw =>
    have hfixed := ho.2.1.headersWritten.symm.trans hw
    rw [SendLog.op, SendLog.setHeader_fixed hfixed, SendLog.fix_fixed hfixed]
    exact ⟨ho, hheader, htrailer⟩
  | setTrailer =>
    obtain ⟨hopen, hupto, hret⟩ := ho
    refine ⟨⟨{ hopen with }, { hupto with },
      hret⟩, hheader, ?_⟩
    simp only [ServerStream.setTrailer, SendLog.op, htrailer]
  | callSend =>
    obtain ⟨hopen, hupto, hret⟩ := ho
    refine ⟨⟨hq, rfl, ⟨hopen, ?_⟩, hret⟩, hheader, htrailer⟩
    rw [SendLog.op, SendLog.send_frames, ← hupto.headersLeft hheader, List.append_assoc]

theorem HandleStep.returning (h : HandleStep kind s pc (.returns r) s' pc')
    (ho : pc.Outputs reads kind s.output l none) (hheader : s.header = l.header) :
    s' = s ∧ pc'.Outputs reads kind s.output (l.returned (some r)) (some r) := by
  cases h with
  | returns h =>
    obtain ⟨hopen, hupto, _⟩ := ho
    refine ⟨rfl, ?_⟩
    cases r with
    | response m =>
      simp only [handlerReturn] at h
      split at h <;> cases h
      refine ⟨rfl, ⟨hopen, ?_⟩, rfl⟩
      rw [SendLog.returned, SendLog.send_frames, ← hupto.headersLeft hheader, List.append_assoc]
    | nil =>
      simp only [handlerReturn] at h
      split at h <;> cases h
      exact ⟨⟨hopen, hupto⟩, _, rfl, rfl, rfl⟩
    | error e =>
      simp only [handlerReturn, Option.some.injEq] at h
      split at h
      · rename_i he
        cases h
        refine ⟨_, rfl, .inl ⟨?_, hopen, hupto⟩⟩
        simp [HandlerReturn.swallowed, he.1, he.2]
      · rename_i he
        cases h
        refine ⟨⟨hopen, hupto⟩, _, rfl, rfl, ?_⟩
        simpa [HandlerReturn.swallowed] using he

def DispatcherPc.concludes : DispatcherPc → Bool
  | .closeErr _ _ | .closeSend _ _ => true
  | _ => false

namespace ServerState

/-- Nothing closes the stream but its handler, the channel takes every frame, and `reads` holds of
the context where `closeWithSendError` reads it. -/
def Undisturbed (reads : Option CtxErr → Bool) (s : ServerState) : ServerAct → Prop
  | .enter outcome => (s.found.any fun t => (s.st.onRequest outcome t).2.concludes) = false
  | .handle a => a.Quiet ∧ (s.handler.readsCtx = true → reads s.st.base.ctx = true)
  | .chanDown | .chanClose _ => False
  | _ => True

def log (s : ServerState) : SendLog := .ofHandler s.ops s.returned

/-- The stream has put out what the handler's log says, as far as the handler has come. -/
structure OutInv (reads : Option CtxErr → Bool) (kind : HandlerKind) (s : ServerState) : Prop where
  disp : s.disp.concludes = false
  chClosed : s.st.chClosed = none
  header : s.st.header = s.log.header
  trailer : s.st.trailer = s.log.trailer
  outputs : s.handler.Outputs reads kind s.st.output s.log s.returned

theorem OutInv.init {s : ServerState} (h : (serverMachine kind).init s) :
    s.OutInv reads kind := by
  obtain ⟨h, inbox, rfl⟩ := h
  exact ⟨rfl, rfl, rfl, rfl, ⟨rfl, rfl, rfl⟩, ⟨rfl, rfl⟩, rfl⟩

end ServerState

theorem DispatchStep.output (h : DispatchStep s pc a s' pc') (hpc : pc.concludes = false) :
    s'.output = s.output ∧ s'.chClosed = s.chClosed ∧ pc'.concludes = false := by
  cases h with
  | @deliver _ _ _ _ res eos h =>
    refine ⟨?_, rfl, ?_⟩
    · cases h <;> rfl
    · rcases res with _ | _ | _
      · rfl
      · rfl
      · cases eos <;> rfl
  | lockRecv | unlockRecv => exact ⟨rfl, rfl, rfl⟩
  | closeRecv h => cases h <;> exact ⟨rfl, rfl, rfl⟩
  | closedErr | closeErr | closedSend | closeSend => cases hpc

theorem RequestStep.output (h : RequestStep s outcome t s' pc) :
    s'.output = s.output ∧ s'.chClosed = s.chClosed := by
  cases h <;> exact ⟨rfl, rfl⟩

theorem RecvStep.output {b b' : BaseStream τ} (h : RecvStep b pc a b' pc' r) :
    b'.closed = b.closed ∧ b'.onDone = b.onDone := by
  rcases h.base with rfl | rfl <;> exact ⟨rfl, rfl⟩

theorem HandleStep.chClosed {s s' : ServerStream} (h : HandleStep kind s pc a s' pc') :
    s'.chClosed = s.chClosed := by
  have hheaders {w q q'} (h : WriteHeadersStep w s q s' q') : s'.chClosed = s.chClosed := by
    cases h <;> rfl
  have hclose {me err w q q'} (h : CloseSendStep me err w s q s' q') :
      s'.chClosed = s.chClosed := by
    cases h with
    | headers h => exact hheaders h
    | _ => rfl
  have hsend {m w q q'} (h : SendStep m w s q s' q') : s'.chClosed = s.chClosed := by
    cases h with
    | headers h => exact hheaders h
    | close h => exact hclose h
    | _ => rfl
  cases h with
  | headers h => exact hheaders h
  | send h | response h => exact hsend h
  | close h => exact hclose h
  | _ => rfl

theorem HandlerPc.Outputs.unlocks {o : Output} {pc : HandlerPc}
    (h : pc.Outputs reads kind o l ret) (hu : pc.unlocks = true) :
    pc.wins.close = 0 ∧ o.closed = true := by
  unfold HandlerPc.unlocks at hu
  split at hu
  · exact ⟨rfl, h.2.2.1.2.2⟩
  · exact ⟨rfl, h.2.1.2.2⟩
  · exact ⟨rfl, h.1.2⟩
  · cases hu

theorem DispatcherPc.wins_of_not_concludes {pc : DispatcherPc} (h : pc.concludes = false) :
    pc.wins.close = 0 := by
  cases pc with
  | closeRecv pc => cases pc <;> rfl
  | closeErr e pc | closeSend e pc => cases h
  | _ => rfl

namespace ServerState

section

variable {s s' : ServerState} {reads : Option CtxErr → Bool} {kind : HandlerKind}
  (h : s.OutInv reads kind)

include h

theorem OutInv.done (hsound : s.Sound) (hu : s.handler.unlocks = true) : s.st.base.onDone = 1 := by
  obtain ⟨hw, hc⟩ := h.outputs.unlocks hu
  have hsum := hsound.close
  rw [DispatcherPc.wins_of_not_concludes h.disp, hw, show s.st.base.closed = true from hc] at hsum
  simpa using hsum

theorem OutInv.dispatch (hs : DispatchStep s.st s.disp a s'.st s'.disp)
    (hhandler : s'.handler = s.handler) (hops : s'.ops = s.ops) (hret : s'.returned = s.returned) :
    s'.OutInv reads kind := by
  obtain ⟨hout, hch, hpc⟩ := hs.output h.disp
  have hlog : s'.log = s.log := by rw [log, hops, hret, log]
  constructor
  · exact hpc
  · exact hch.trans h.chClosed
  · rw [hlog, ← h.header]
    exact congrArg Output.header hout
  · rw [hlog, ← h.trailer]
    exact congrArg Output.trailer hout
  · rw [hlog, hout, hhandler, hret]
    exact h.outputs

theorem handlerAfter_outputs (hsound : s.Sound) (st : ServerStream) :
    (s.handlerAfter st).Outputs reads kind s.st.output s.log s.returned := by
  unfold handlerAfter
  split
  · rename_i hr
    simp only [Bool.and_eq_true, Bool.not_eq_true'] at hr
    have ho := h.outputs
    rw [hsound.started.2 hr.2] at ho
    exact ho
  · exact h.outputs

theorem OutInv.not_returned (hrun : s.handler = .running) : s.returned = none := by
  have ho := h.outputs
  rw [hrun] at ho
  exact ho.2.2

theorem OutInv.step (hsound : s.Sound) (hok : s.Undisturbed reads a) (hs : ServerStep kind s a s') :
    s'.OutInv reads kind := by
  cases hs with
  | lookup | discard | ctxDone => exact { h with }
  | @enter t outcome st disp ht hr =>
    obtain ⟨hout, hch⟩ := hr.output
    have hpc : disp.concludes = false := by
      simpa [Undisturbed, ht, hr.onRequest_eq] using hok
    constructor
    · exact hpc
    · exact hch.trans h.chClosed
    · exact (congrArg Output.header hout).trans h.header
    · exact (congrArg Output.trailer hout).trans h.trailer
    · simp only [hout]
      exact handlerAfter_outputs h hsound _
  | dispatch hd => exact h.dispatch hd rfl rfl rfl
  | @call op st handler hh =>
    have hret : s.returned = none := h.not_returned (hh.starts nofun)
    obtain ⟨ho, hheader, htrailer⟩ := hh.called hok.1 h.outputs h.header h.trailer
    have hlog : SendLog.ofHandler (s.ops ++ [op]) s.returned = s.log.op op := by
      rw [log, hret, SendLog.ofHandler_call]
    refine ⟨h.disp, hh.chClosed.trans h.chClosed, ?_, ?_, ?_⟩
    · rw [log, hlog]
      exact hheader
    · rw [log, hlog]
      exact htrailer
    · rw [log, hlog]
      exact ho
  | @returns r st handler hh =>
    have hret : s.returned = none := h.not_returned (hh.starts nofun)
    have hout := h.outputs
    rw [hret] at hout
    obtain ⟨rfl, ho⟩ := hh.returning hout h.header
    have hlog : SendLog.ofHandler s.ops (some r) = s.log.returned (some r) := by
      rw [log, hret, SendLog.ofHandler_returned]
    have hmeta : (s.log.returned (some r)).header = s.log.header ∧
        (s.log.returned (some r)).trailer = s.log.trailer := by
      cases r <;> exact ⟨rfl, rfl⟩
    refine ⟨h.disp, h.chClosed, ?_, ?_, ?_⟩
    · rw [log, hlog, hmeta.1]
      exact h.header
    · rw [log, hlog, hmeta.2]
      exact h.trailer
    · rw [log, hlog]
      exact ho
  | @handle w st handler hh =>
    obtain ⟨hheader, htrailer⟩ := hh.metadata
    have hw : w = none := hok.1
    rw [hw] at hh
    exact ⟨h.disp, hh.chClosed.trans h.chClosed, hheader.trans h.header, htrailer.trans h.trailer,
      hh.outputs h.outputs h.chClosed h.header h.trailer (h.done hsound) hok.2⟩
  | read _ hr =>
    obtain ⟨hclosed, hdone⟩ := hr.output
    refine { h with outputs := ?_ }
    simp only [ServerStream.output, hclosed, hdone]
    exact h.outputs
  | chanDown | chanClose => cases hok

end

theorem outInv {s : ServerState} (h : (serverMachine kind).ReachableWith (Undisturbed reads) s) :
    s.OutInv reads kind := by
  induction h with
  | init hi => exact .init hi
  | step hr hok hs ih => exact ih.step (sound hr) hok (serverStep_step hs)

end ServerState

end Goutils.Rpc
