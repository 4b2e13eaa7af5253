import Goutils.Rpc.ClientMachine
import Goutils.Rpc.Conclusion

namespace Goutils.Rpc
open Lib
open Lib.Wire (Bytes)
set_option autoImplicit true

structure Reply where
  header : Option MD
  msgs : List Bytes
  status : Option Status
  trailer : Option MD

namespace Reply

def finish (r : Reply) : ResponseType := .trailers r.status r.trailer

def body (r : Reply) : List ResponseType := r.msgs.flatMap SendLog.messageFrames ++ [r.finish]

def frames (r : Reply) : List ResponseType := .headers r.header :: r.body

def last (r : Reply) : GoErr := (statusErr r.status).getD .eof

end Reply

structure CloseFlags where
  closed : Bool
  recvClosed : Bool
  chClosed : Bool
  err : Option GoErr
  ctx : Option CtxErr
  onDone : Nat

def BaseStream.flags (b : BaseStream τ) : CloseFlags where
  closed := b.closed
  recvClosed := b.recvClosed
  chClosed := b.msgCh.closed
  err := b.err
  ctx := b.ctx
  onDone := b.onDone

def ClosePc.rank : ClosePc → Nat
  | .cas => 0
  | .recv .cas => 1
  | .recv .wait => 2
  | .recv .close => 3
  | .recv .ret | .record => 4
  | .cancel => 5
  | .onDone => 6
  | .ret => 7

def closeFlags (e : GoErr) (n : Nat) : CloseFlags where
  closed := decide (1 ≤ n)
  recvClosed := decide (2 ≤ n)
  chClosed := decide (4 ≤ n)
  err := if 5 ≤ n then some e else none
  ctx := if 6 ≤ n then some .canceled else none
  onDone := if 7 ≤ n then 1 else 0

theorem CloseStep.flags {b b' : BaseStream τ} (h : CloseStep err err.isNone b pc b' pc')
    (hb : b.flags = closeFlags (err.getD .errExpectedClosure) pc.rank) :
    b'.flags = closeFlags (err.getD .errExpectedClosure) pc'.rank ∧ pc'.rank = pc.rank + 1 := by
  have hrec : recordedErr err err.isNone b.err = some (err.getD .errExpectedClosure) := by
    cases err <;> rfl
  simp only [BaseStream.flags, closeFlags, CloseFlags.mk.injEq] at hb ⊢
  obtain ⟨hclosed, hrecv, hch, herr, hctx, hdone⟩ := hb
  cases h with
  | again h => simp [h, ClosePc.rank] at hclosed
  | first | record | cancel | onDone => simp_all [ClosePc.rank]
  | recv h =>
    cases h with
    | again h => simp [h, ClosePc.rank] at hrecv
    | first | waited | close => simp_all [ClosePc.rank, ClosePc.ofRecv]

/-- What the frames of a call bring about in a client stream. -/
structure ClientView where
  flags : CloseFlags
  headers : Option MD := none
  trailers : Option MD := none
  headersReceived : Bool := false
  trailersReceived : Bool := false
  packetBuf : Bytes := []
  sent : List Bytes := []

def ClientStream.view (s : ClientStream) : ClientView where
  flags := s.base.flags
  headers := s.headers
  trailers := s.trailers
  headersReceived := s.headersReceived
  trailersReceived := s.trailersReceived
  packetBuf := s.base.packetBuf
  sent := s.base.msgCh.sent

namespace Reply

def recorded (r : Reply) : GoErr := (statusErr r.status).getD .errExpectedClosure

def fresh (r : Reply) : ClientView := { flags := closeFlags r.recorded 0 }

def opened (r : Reply) (packetBuf : Bytes) (sent : List Bytes) : ClientView :=
  { r.fresh with headers := metadataFromProto r.header, headersReceived := true, packetBuf, sent }

def closing (r : Reply) (packetBuf : Bytes) (n : Nat) : ClientView :=
  { r.opened packetBuf r.msgs with
    flags := closeFlags r.recorded n
    trailers := metadataFromProto r.trailer
    trailersReceived := true }

end Reply

inductive Stage (r : Reply) (v : ClientView) : List ResponseType → ResponsePc → Prop where
  | start : v = r.fresh → Stage r v r.frames .idle
  | lockHeaders : v = r.fresh → Stage r v r.body (.lockHeaders r.header)
  | closeHeaders : v = { r.fresh with headers := metadataFromProto r.header } →
      Stage r v r.body .closeHeaders
  | idle (buf : Bytes) (sent : List Bytes) (ps : List PacketMessage) : v = r.opened buf sent →
      sent ++ (processPackets buf ps).2 = r.msgs →
      Stage r v (ps.map .message ++ [r.finish]) .idle
  | deliver (buf : Bytes) (sent : List Bytes) (data : Bytes) (ps : List PacketMessage) :
      v = r.opened buf sent → sent ++ data :: (processPackets buf ps).2 = r.msgs →
      Stage r v (ps.map .message ++ [r.finish]) (.deliver data pc)
  | lockTrailers (buf : Bytes) : v = r.opened buf r.msgs →
      Stage r v [] (.lockTrailers r.status r.trailer)
  | closeTrailers (buf : Bytes) (pc : ClosePc) : v = r.closing buf pc.rank → pc.ok = true →
      Stage r v [] (.closeTrailers (statusErr r.status) pc)
  | done (buf : Bytes) : v = r.closing buf 7 → Stage r v [] .idle

theorem processPackets_flatMap (msgs : List Bytes) (hl : ∀ m ∈ msgs, m.length ≤ MaxMessageSize) :
    processPackets [] (msgs.flatMap (packets maxResponseMessagePacketDataSize)) = ([], msgs) := by
  have hn : 0 < maxResponseMessagePacketDataSize := by decide
  induction msgs with
  | nil => rfl
  | cons m msgs ih =>
    rw [List.flatMap_cons, processPackets_append,
      processPackets_packets hn m (hl m List.mem_cons_self),
      ih fun m' hm' => hl m' (List.mem_cons_of_mem _ hm')]
    rfl

theorem Reply.body_eq (r : Reply) :
    r.body = (r.msgs.flatMap (packets maxResponseMessagePacketDataSize)).map .message ++
      [r.finish] := by
  rw [Reply.body, List.map_flatMap]
  rfl

variable {r : Reply}

theorem Stage.onResponse {s : ClientStream} (h : Stage r s.view todo .idle)
    (htodo : todo = t :: rest) : Stage r (s.onResponse t).1.view rest (s.onResponse t).2 := by
  cases h with
  | start hv =>
    cases htodo
    have hh : s.headersReceived = false := congrArg ClientView.headersReceived hv
    have ht : s.trailersReceived = false := congrArg ClientView.trailersReceived hv
    simp only [ClientStream.onResponse, hh, ht, Bool.false_eq_true, ↓reduceIte]
    exact .lockHeaders hv
  | idle buf sent ps hv hmsgs =>
    have hh : s.headersReceived = true := congrArg ClientView.headersReceived hv
    have ht : s.trailersReceived = false := congrArg ClientView.trailersReceived hv
    have hbuf : s.base.packetBuf = buf := congrArg ClientView.packetBuf hv
    cases ps with
    | nil =>
      cases htodo
      have hsent : sent = r.msgs := (List.append_nil _).symm.trans hmsgs
      exact .lockTrailers buf (hsent ▸ hv)
    | cons p ps =>
      cases htodo
      obtain ⟨buf', data, hp⟩ : ∃ buf' data, processPacket buf p = (buf', data) := ⟨_, _, rfl⟩
      have hv' : ClientStream.view { s with base := { s.base with packetBuf := buf' } } =
          r.opened buf' sent :=
        congrArg (fun v => { v with packetBuf := buf' }) hv
      simp only [processPackets, hp] at hmsgs
      rw [ClientStream.onResponse_message hh ht (hbuf ▸ hp)]
      cases data with
      | none => exact .idle buf' sent ps hv' hmsgs
      | some data => exact .deliver buf' sent data ps hv' hmsgs
  | done => cases htodo

theorem CloseStep.data {b b' : BaseStream τ} (h : CloseStep err expected b pc b' pc') :
    b'.packetBuf = b.packetBuf ∧ b'.msgCh.sent = b.msgCh.sent ∧ b'.msgCh.buf = b.msgCh.buf ∧
      b'.msgCh.cap = b.msgCh.cap := by
  cases h with
  | recv h =>
    cases h with
    | close => simp
    | _ => exact ⟨rfl, rfl, rfl, rfl⟩
  | _ => exact ⟨rfl, rfl, rfl, rfl⟩

theorem Stage.respond {s s' : ClientStream} (h : Stage r s.view todo pc)
    (hl : ∀ m ∈ r.msgs, m.length ≤ MaxMessageSize) (hs : RespondStep s pc a s' pc') :
    Stage r s'.view todo pc' := by
  cases h with
  | start | idle | done => cases hs
  | lockHeaders hv =>
    cases hs with
    | lockHeaders =>
      exact .closeHeaders (congrArg (fun v => { v with headers := metadataFromProto r.header }) hv)
  | closeHeaders hv =>
    cases hs with
    | closeHeaders =>
      rw [Reply.body_eq]
      refine .idle [] [] _ (congrArg (fun v => { v with headersReceived := true }) hv) ?_
      rw [processPackets_flatMap r.msgs hl]
      rfl
  | deliver buf sent data ps hv hmsgs =>
    have hrecv : s.base.recvClosed = false := congrArg (fun v => v.flags.recvClosed) hv
    have hopen : s.base.msgCh.closed = false := congrArg (fun v => v.flags.chClosed) hv
    have hctx : s.base.ctx = none := congrArg (fun v => v.flags.ctx) hv
    cases hs with
    | deliver hd =>
      cases hd with
      | closed _ hr => simp [hrecv] at hr
      | enter => exact .deliver buf sent data ps hv hmsgs
      | ctxDone hc => simp [hctx] at hc
      | send =>
        rw [Chan.send_open hopen]
        refine .idle buf (sent ++ [data]) ps
          (congrArg (fun v => { v with sent := v.sent ++ [data] }) hv) ?_
        rw [← hmsgs, List.append_assoc]
        rfl
  | lockTrailers buf hv =>
    cases hs with
    | lockTrailers =>
      have hv' := congrArg (fun v : ClientView => { v with
        trailersReceived := true
        trailers := if r.trailer.isSome then metadataFromProto r.trailer else v.trailers }) hv
      refine .closeTrailers buf .cas (hv'.trans ?_) rfl
      cases hr : r.trailer with
      | none => simp [Reply.closing, Reply.opened, Reply.fresh, hr, metadataFromProto, ClosePc.rank]
      | some md => simp [Reply.closing, Reply.opened, Reply.fresh, hr, ClosePc.rank]
  | closeTrailers buf pc hv =>
    cases hs with
    | unlock => exact .done buf hv
    | @closeTrailers _ _ b pc' hc =>
      have hflags := (hc.flags (congrArg ClientView.flags hv)).1
      obtain ⟨hbuf, hsent, _⟩ := hc.data
      have hview : ClientStream.view { s with base := b } = { s.view with flags := b.flags } := by
        simp only [ClientStream.view, hbuf, hsent]
      refine .closeTrailers buf pc' ?_ hc.ok
      rw [hview, hflags, hv]
      rfl

variable {v : ClientView}

namespace Stage

variable {todo : List ResponseType} {pc : ResponsePc} (h : Stage r v todo pc)

include h

theorem flags : ∃ n, v.flags = closeFlags r.recorded n ∧
    (4 ≤ n → v.sent = r.msgs ∧ v.headersReceived = true ∧
      v.headers = metadataFromProto r.header ∧ v.trailers = metadataFromProto r.trailer) ∧
    (todo ≠ [] → n = 0) := by
  cases h with
  | start hv => exact ⟨0, by rw [hv]; rfl, nofun, fun _ => rfl⟩
  | lockHeaders hv | closeHeaders hv | idle buf sent ps hv | deliver buf sent data ps hv
  | lockTrailers buf hv => exact ⟨0, by rw [hv]; rfl, nofun, fun _ => rfl⟩
  | closeTrailers buf pc hv =>
    rw [hv]
    exact ⟨pc.rank, rfl, fun _ => ⟨rfl, rfl, rfl, rfl⟩, fun h => (h rfl).elim⟩
  | done buf hv =>
    rw [hv]
    exact ⟨7, rfl, fun _ => ⟨rfl, rfl, rfl, rfl⟩, fun h => (h rfl).elim⟩

theorem sent_prefix : v.sent <+: r.msgs := by
  cases h with
  | start hv | lockHeaders hv | closeHeaders hv => exact hv ▸ List.nil_prefix
  | idle buf sent ps hv hmsgs | deliver buf sent data ps hv hmsgs => exact hv ▸ ⟨_, hmsgs⟩
  | lockTrailers buf hv | closeTrailers buf pc hv | done buf hv => exact hv ▸ List.prefix_rfl

theorem ctx_done (hc : v.flags.ctx.isSome = true) :
    v.flags.closed = true ∧ v.flags.chClosed = true := by
  obtain ⟨n, hn, _⟩ := h.flags
  rw [hn] at hc ⊢
  simp only [closeFlags] at hc ⊢
  split at hc
  · exact ⟨decide_eq_true (by omega), decide_eq_true (by omega)⟩
  · cases hc

theorem closed_sent (hc : v.flags.chClosed = true) : v.sent = r.msgs ∧ v.headersReceived = true ∧
    v.headers = metadataFromProto r.header ∧ v.trailers = metadataFromProto r.trailer := by
  obtain ⟨n, hn, hsent, _⟩ := h.flags
  rw [hn] at hc
  exact hsent (of_decide_eq_true hc)

theorem registered (ht : todo ≠ []) : v.flags.onDone = 0 := by
  obtain ⟨n, hn, _, hzero⟩ := h.flags
  rw [hn, hzero ht]
  rfl

theorem recorded (hc : v.flags.chClosed = true) (hmode : pc.mode = .free) :
    v.flags.err = some r.recorded := by
  cases h with
  | closeTrailers => cases hmode
  | done buf hv => exact hv ▸ rfl
  | start hv | lockHeaders hv | closeHeaders hv | idle buf sent ps hv
  | deliver buf sent data ps hv | lockTrailers buf hv => exact absurd (hv ▸ hc) nofun

end Stage

theorem Stage.finished (h : Stage r v [] .idle) : v.flags.chClosed = true := by
  generalize htodo : ([] : List ResponseType) = todo at h
  cases h with
  | start => cases htodo
  | idle buf sent ps =>
    rw [List.nil_eq_append_iff] at htodo
    exact absurd htodo.2 nofun
  | done buf hv => exact hv ▸ rfl

theorem Stage.delivering (h : Stage r v todo (.deliver data pc)) : v.flags.chClosed = false := by
  cases h with
  | deliver buf sent data ps hv => exact congrArg (fun v => v.flags.chClosed) hv

theorem Reply.lastErr_recorded (r : Reply) (origErr : Option CtxErr) :
    lastErr (some r.recorded) origErr = r.last := by
  unfold Reply.recorded Reply.last lastErr
  cases h : statusErr r.status with
  | none => rfl
  | some e => simp [statusErr_not_expected h]

def RecvPc.Ends (c : Chan Bytes) : RecvPc → Prop
  | .checkLast (some _) => c.closed = true
  | .checkLast none | .lock _ => c.closed = true ∧ c.buf = []
  | _ => True

/-- What the reader got: messages in the order they were sent, and then the last error. -/
structure Reads (r : Reply) (c : Chan Bytes) (pc : RecvPc) (results : List RecvResult) : Prop where
  ends : pc.Ends c
  got : ∃ taken k, results = taken.map .msg ++ List.replicate k (.err r.last) ∧
    c.sent = taken ++ c.buf ∧ (k ≠ 0 → c.closed = true ∧ c.buf = [])

theorem Reads.send {c : Chan Bytes} (h : Reads r c pc results) (hopen : c.closed = false)
    (data : Bytes) : Reads r (c.send data) pc results := by
  obtain ⟨hends, taken, k, hres, hsent, hk⟩ := h
  have hk0 : k = 0 := by
    by_contra hne
    rw [(hk hne).1] at hopen
    cases hopen
  rw [Chan.send_open hopen]
  refine ⟨?_, taken, k, hres, ?_, fun hne => (hne hk0).elim⟩
  · cases pc with
    | checkLast o =>
      cases o with
      | none => exact absurd (hends.1.symm.trans hopen) nofun
      | some e => exact absurd (hends.symm.trans hopen) nofun
    | lock o => exact absurd (hends.1.symm.trans hopen) nofun
    | _ => trivial
  · simp only [hsent, List.append_assoc]

theorem Reads.close {c : Chan Bytes} (h : Reads r c pc results) : Reads r c.close pc results := by
  obtain ⟨hends, taken, k, hres, hsent, hk⟩ := h
  refine ⟨?_, taken, k, hres, ?_, fun hne => ⟨Chan.close_closed c, ?_⟩⟩
  · cases pc with
    | checkLast o =>
      cases o with
      | none => exact ⟨Chan.close_closed c, (Chan.close_buf c).trans hends.2⟩
      | some e => exact Chan.close_closed c
    | lock o => exact ⟨Chan.close_closed c, (Chan.close_buf c).trans hends.2⟩
    | _ => trivial
  · rw [Chan.close_sent, Chan.close_buf, hsent]
  · rw [Chan.close_buf]
    exact (hk hne).2

theorem Reads.pop {c : Chan Bytes} (h : Reads r c pc results) (hbuf : c.buf = m :: rest) :
    Reads r c.pop .idle (results ++ [.msg m]) := by
  obtain ⟨_, taken, k, hres, hsent, hk⟩ := h
  have hk0 : k = 0 := by
    by_contra hne
    rw [(hk hne).2] at hbuf
    cases hbuf
  subst hk0
  refine ⟨trivial, taken ++ [m], 0, ?_, ?_, nofun⟩
  · rw [hres]
    simp
  · rw [Chan.pop_sent, hsent]
    simp [Chan.pop, hbuf]

theorem Reads.read {b b' : BaseStream τ} (h : Reads r b.msgCh pc results)
    (hs : RecvStep b pc a b' pc' res) (hctx : b.ctx.isSome = true → b.msgCh.closed = true)
    (herr : b.msgCh.closed = true → b.mu.canLock = true → b.err = some r.recorded) :
    Reads r b'.msgCh pc' (results ++ res.toList) := by
  cases hs with
  | call | stop => exact ⟨trivial, by simpa using h.got⟩
  | ctxDone he => exact ⟨hctx (by rw [he]; rfl), by simpa using h.got⟩
  | recv hbuf | last hbuf => exact h.pop hbuf
  | recvClosed hbuf hc | lastClosed hbuf hc => exact ⟨⟨hc, hbuf⟩, by simpa using h.got⟩
  | lastNil hbuf => exact absurd (h.ends.2.symm.trans hbuf) nofun
  | @empty origErr _ hc =>
    cases origErr with
    | none => exact absurd (h.ends.1.symm.trans hc) nofun
    | some e => exact absurd (h.ends.symm.trans hc) nofun
  | @lock origErr hm =>
    obtain ⟨hends, taken, k, hres, hsent, _⟩ := h
    refine ⟨trivial, taken, k + 1, ?_, hsent, fun _ => hends⟩
    rw [herr hends.1 hm, Reply.lastErr_recorded, hres, List.append_assoc, List.replicate_succ']
    rfl

def CloserPc.Calm (closed : Bool) : CloserPc → Prop
  | .awaitDone => True
  | .checkClosed => closed = true
  | .lockHeaders | .lockMessage _ | .write _ | .done => True
  | _ => False

theorem CloserPc.Calm.mono {pc : CloserPc} (h : pc.Calm closed) (hc : closed = true → c' = true) :
    pc.Calm c' := by
  cases pc with
  | checkClosed => exact hc h
  | _ => exact h

theorem CloserStep.calm {s s' : ClientStream} (h : CloserStep me none s pc s' pc')
    (hc : pc.Calm s.base.closed) (hctx : s.base.ctx.isSome = true → s.base.closed = true) :
    pc'.Calm s'.base.closed ∧ s'.view = s.view ∧ s'.base.msgCh = s.base.msgCh := by
  cases h with
  | lockClose | cancel | lockReset | writeReset | release | close => cases hc
  | awaitDone h => exact ⟨hctx h, rfl, rfl⟩
  | closed => exact ⟨trivial, rfl, rfl⟩
  | notClosed h => exact absurd (h.symm.trans hc) nofun
  | failed h => cases h
  | _ => exact ⟨trivial, rfl, rfl⟩

def ownFrame (id : UInt64) (f : Response) : Option ResponseType :=
  if f.stream = some id then some f.type else none

namespace ClientState

def todo (id : UInt64) (s : ClientState) : List ResponseType :=
  s.found.toList ++ s.inbox.filterMap (ownFrame id)

/-- Nobody closes the stream, every frame is taken and the reader goes on. -/
def Undisturbed (_ : ClientState) : ClientAct → Prop
  | .start op => op ≠ .close
  | .closer _ w => w = none
  | .ctxDone _ => False
  | .read a => a ≠ .stop
  | _ => True

structure ReplyInv (id : UInt64) (r : Reply) (s : ClientState) : Prop where
  stage : Stage r s.cs.view (s.todo id) s.disp
  closers : ∀ pc ∈ s.closers, pc.Calm s.cs.base.closed
  reads : Reads r s.cs.base.msgCh s.reader s.results
  cap : s.cs.base.msgCh.cap = 1
  reader : s.reader ≠ .stopped

theorem ReplyInv.init {id : UInt64} {inbox : List Response}
    (hin : inbox.filterMap (ownFrame id) = r.frames) : ReplyInv id r { inbox } := by
  refine ⟨?_, ?_, ⟨trivial, [], 0, rfl, rfl, nofun⟩, rfl, nofun⟩
  · rw [todo, Option.toList_none, List.nil_append, hin]
    exact .start rfl
  · intro pc hpc
    rw [List.mem_singleton.1 hpc]
    trivial

end ClientState

theorem RespondStep.msgCh {s s' : ClientStream} (h : RespondStep s pc a s' pc') :
    s'.base.msgCh = s.base.msgCh ∨ s'.base.msgCh = s.base.msgCh.close ∨
      ∃ data, pc = .deliver data .send ∧ s'.base.msgCh = s.base.msgCh.send data := by
  cases h with
  | deliver h =>
    cases h with
    | send => exact .inr (.inr ⟨_, rfl, rfl⟩)
    | _ => exact .inl rfl
  | violation h | closeTrailers h => exact h.msgCh.imp_right .inl
  | _ => exact .inl rfl

theorem RespondStep.closed {s s' : ClientStream} (h : RespondStep s pc a s' pc')
    (hc : s.base.closed = true) : s'.base.closed = true := by
  have hclose {err expected q b q'} (h : CloseStep err expected s.base q b q') :
      b.closed = true := by
    cases h with
    | recv h => cases h <;> exact hc
    | first => rfl
    | _ => exact hc
  cases h with
  | deliver h => cases h <;> exact hc
  | violation h | closeTrailers h => exact hclose h
  | _ => exact hc

variable {id : UInt64} {c s s' : ClientState} {cs : ClientStream} {disp : ResponsePc}
  {reader : RecvPc}

namespace ClientState

theorem ReplyInv.respond (h : s.ReplyInv id r) (hl : ∀ m ∈ r.msgs, m.length ≤ MaxMessageSize)
    (hs : RespondStep s.cs s.disp a cs disp) : ReplyInv id r { s with cs, disp } := by
  refine ⟨h.stage.respond hl hs, ?_, ?_, ?_, h.reader⟩
  · exact fun pc hpc => (h.closers pc hpc).mono hs.closed
  · rcases hs.msgCh with hc | hc | ⟨data, hpc, hc⟩ <;> simp only [hc]
    · exact h.reads
    · exact h.reads.close
    · exact h.reads.send (hpc ▸ h.stage).delivering data
  · rcases hs.msgCh with hc | hc | ⟨data, _, hc⟩ <;> simp only [hc]
    · exact h.cap
    · rw [Chan.close_cap]
      exact h.cap
    · rw [Chan.send_cap]
      exact h.cap

theorem ReplyInv.closer (h : s.ReplyInv id r) (hi : s.closers[i]? = some pc)
    (hs : CloserStep (.closer i) none s.cs pc cs pc') :
    ReplyInv id r { s with cs, closers := s.closers.set i pc' } := by
  obtain ⟨hcalm, hview, hch⟩ := hs.calm (h.closers pc (List.mem_of_getElem? hi))
    fun hc => (h.stage.ctx_done hc).1
  have hclosed : cs.base.closed = s.cs.base.closed := congrArg (fun v => v.flags.closed) hview
  refine { h with stage := ?_, closers := ?_, reads := ?_, cap := ?_ }
  · simp only [hview]
    exact h.stage
  · intro q hq
    rcases List.mem_or_eq_of_mem_set hq with hq | rfl
    · simp only [hclosed]
      exact h.closers q hq
    · exact hcalm
  · simp only [hch]
    exact h.reads
  · simp only [hch]
    exact h.cap

theorem ReplyInv.read (h : s.ReplyInv id r) (hsound : s.Sound)
    (hs : RecvStep s.cs.base s.reader a base reader res) (hstop : a ≠ .stop) :
    ReplyInv id r
      { s with cs := { s.cs with base }, reader, results := s.results ++ res.toList } := by
  have hreads := h.reads.read hs (fun hc => (h.stage.ctx_done hc).2) fun hc hm =>
    h.stage.recorded hc (hsound.mu.free_of_canLock hm .dispatcher)
  have hreader := fun hr => hstop (hs.stopped hr).1
  rcases hs.base with rfl | rfl <;> exact { h with reads := hreads, reader := hreader }

theorem todo_lookup (hfound : s.found = none) (hin : s.inbox = f :: fs) (hf : f.stream = some id) :
    todo id { s with found := some f.type, inbox := fs } = s.todo id := by
  simp [todo, hfound, hin, ownFrame, hf]

theorem ReplyInv.step (h : s.ReplyInv id r) (hsound : s.Sound)
    (hl : ∀ m ∈ r.msgs, m.length ≤ MaxMessageSize) (hok : s.Undisturbed a)
    (hs : ClientStep id s a s') : s'.ReplyInv id r := by
  cases hs with
  | @lookup f inbox hidle hfound hin hf =>
    refine { h with stage := ?_ }
    rw [todo_lookup hfound hin hf]
    exact h.stage
  | @discard f inbox hidle hfound hin hne =>
    refine { h with stage := ?_ }
    have hown : f.stream ≠ some id := by
      intro hf
      refine hne ⟨hf, h.stage.registered ?_⟩
      simp [todo, hfound, hin, ownFrame, hf]
    have htodo : todo id { s with inbox } = s.todo id := by
      simp [todo, hin, ownFrame, hown]
    rw [htodo]
    exact h.stage
  | @enter t ht =>
    obtain ⟨buf, hbuf⟩ := s.cs.onResponse_base t
    have hidle := hsound.found (by rw [ht]; nofun)
    have hstage := h.stage
    rw [hidle] at hstage
    refine ⟨?_, ?_, ?_, ?_, h.reader⟩
    · exact hstage.onResponse (by rw [todo, ht]; rfl)
    · simp only [hbuf]
      exact h.closers
    · simp only [hbuf]
      exact h.reads
    · simp only [hbuf]
      exact h.cap
  | respond hr => exact { h.respond hl hr with }
  | read hr => exact h.read hsound hr hok
  | @start op =>
    refine { h with closers := ?_ }
    intro pc hpc
    rcases List.mem_append.1 hpc with hpc | hpc
    · exact h.closers pc hpc
    · rw [List.mem_singleton.1 hpc]
      cases op with
      | close => exact (hok rfl).elim
      | _ => trivial
  | @closer i pc w cs pc' hi hc =>
    have hw : w = none := hok
    rw [hw] at hc
    exact h.closer hi hc
  | ctxDone => cases hok

end ClientState

def ResponsePc.left : ResponsePc → Nat
  | .idle => 0
  | .lockHeaders _ => 2
  | .closeHeaders => 1
  | .deliver _ .enter => 6
  | .deliver _ .send => 5
  | .violation _ _ => 0
  | .lockTrailers _ _ => 9
  | .closeTrailers _ pc => 8 - pc.rank

def RecvPc.left : RecvPc → Nat
  | .idle => 4
  | .select => 3
  | .checkLast _ => 2
  | .lock _ => 1
  | .stopped => 0

def CloserPc.writes : CloserPc → Bool
  | .write _ => true
  | _ => false

theorem Stage.left_le (h : Stage r v todo pc) : pc.left ≤ 9 := by
  cases h with
  | @deliver pc =>
    cases pc with
    | enter => exact (by decide : 6 ≤ 9)
    | send => exact (by decide : 5 ≤ 9)
  | closeTrailers buf pc => exact (Nat.sub_le _ _).trans (by decide)
  | start | idle | done => exact Nat.zero_le 9
  | lockHeaders => exact (by decide : 2 ≤ 9)
  | closeHeaders => exact (by decide : 1 ≤ 9)
  | lockTrailers => exact le_rfl

theorem ClosePc.rank_le (pc : ClosePc) : pc.rank ≤ 7 := by
  cases pc with
  | recv pc => cases pc <;> decide
  | _ => decide

theorem Stage.left_lt {s s' : ClientStream} (h : Stage r s.view todo pc)
    (hs : RespondStep s pc a s' pc') :
    pc'.left + 3 * s'.base.msgCh.buf.length < pc.left + 3 * s.base.msgCh.buf.length := by
  cases h with
  | start | idle | done => cases hs
  | lockHeaders =>
    cases hs with
    | lockHeaders => exact Nat.add_lt_add_right Nat.one_lt_two _
  | closeHeaders =>
    cases hs with
    | closeHeaders => exact Nat.add_lt_add_right Nat.zero_lt_one _
  | deliver buf sent data ps hv =>
    have hrecv : s.base.recvClosed = false := congrArg (fun v => v.flags.recvClosed) hv
    have hopen : s.base.msgCh.closed = false := congrArg (fun v => v.flags.chClosed) hv
    have hctx : s.base.ctx = none := congrArg (fun v => v.flags.ctx) hv
    cases hs with
    | deliver hd =>
      cases hd with
      | closed _ hr => simp [hrecv] at hr
      | enter => exact Nat.add_lt_add_right (Nat.lt_succ_self 5) _
      | ctxDone hc => simp [hctx] at hc
      | send =>
        rw [Chan.send_open hopen]
        simp only [ResponsePc.afterDeliver, ResponsePc.left, List.length_append,
          List.length_singleton]
        omega
  | lockTrailers =>
    cases hs with
    | lockTrailers => exact Nat.add_lt_add_right (Nat.lt_succ_self 8) _
  | closeTrailers buf pc hv =>
    cases hs with
    | unlock => exact Nat.add_lt_add_right Nat.zero_lt_one _
    | @closeTrailers _ _ b pc' hc =>
      have hrank := (hc.flags (congrArg ClientView.flags hv)).2
      have hle := pc'.rank_le
      simp only [ResponsePc.left, hc.data.2.2.1]
      omega

namespace ClientState

def unfinished (r : Reply) (results : List RecvResult) : Nat :=
  if .err r.last ∈ results then 0 else 5

theorem unfinished_append (r : Reply) (l l' : List RecvResult) :
    unfinished r (l ++ l') ≤ unfinished r l := by
  unfold unfinished
  split
  · exact Nat.zero_le _
  · rename_i h
    rw [if_neg fun hl => h (List.mem_append_left _ hl)]

def work (r : Reply) (s : ClientState) : Nat :=
  s.closers.countP CloserPc.writes + 12 * s.inbox.length + 11 * s.found.toList.length +
    s.disp.left + s.reader.left + 3 * s.cs.base.msgCh.buf.length + unfinished r s.results

def Down (id : UInt64) (r : Reply) (s : ClientState) : Prop :=
  ∃ a s', s.Undisturbed a ∧ clientStep id s a = some s' ∧ s'.work r < s.work r

theorem down_writing {i : Nat} {mode : LockMode} (hi : s.closers[i]? = some (.write mode)) :
    s.Down id r := by
  refine ⟨.closer i none, _, rfl, clientStep_closer hi rfl, ?_⟩
  have := countP_move hi .done CloserPc.writes
  simp only [CloserPc.writes, ↓reduceIte, Bool.false_eq_true] at this
  simp only [work, ClientStream.withMu]
  omega

theorem mu_free (h : s.ReplyInv id r) (hsound : s.Sound)
    (hw : ∀ (i : Nat) (k : LockMode), s.closers[i]? ≠ some (.write k)) (hd : s.disp.mode = .free) :
    s.cs.base.mu.canLock = true := by
  apply hsound.mu.free
  intro t
  cases t with
  | dispatcher => exact hd
  | reader => rfl
  | closer i =>
    rw [mode]
    cases hi : s.closers[i]? with
    | none => rfl
    | some pc =>
      have hcalm := h.closers pc (List.mem_of_getElem? hi)
      cases pc with
      | write k => exact (hw i k hi).elim
      | cancel | writeReset | closing => cases hcalm
      | _ => rfl

theorem down_read (hr : recvMsg s.cs.base s.reader a = some (b, pc', res)) (hstop : a ≠ .stop)
    (hlt : pc'.left + 3 * b.msgCh.buf.length + unfinished r (s.results ++ res.toList) <
      s.reader.left + 3 * s.cs.base.msgCh.buf.length + unfinished r s.results) : s.Down id r := by
  refine ⟨.read a, _, hstop, clientStep_read hr, ?_⟩
  simp only [work]
  omega

theorem down_buffered (h : s.ReplyInv id r) (hbuf : s.cs.base.msgCh.buf = m :: rest) :
    s.Down id r := by
  have hends := h.reads.ends
  have hflag := unfinished_append r s.results [.msg m]
  cases hr : s.reader with
  | idle =>
    refine down_read (a := .call) (by rw [hr]; rfl) (by decide) ?_
    simp [hr, RecvPc.left]
  | select =>
    refine down_read (a := .recv) (by rw [hr]; simp only [recvMsg, hbuf]; rfl) (by decide) ?_
    simp only [Option.toList_some, hr, RecvPc.left, Chan.pop, hbuf, List.tail_cons,
      List.length_cons]
    omega
  | checkLast o =>
    rw [hr] at hends
    cases o with
    | none => exact absurd (hends.2.symm.trans hbuf) (List.cons_ne_nil m rest).symm
    | some e =>
      refine down_read (a := .proceed) (by rw [hr]; simp only [recvMsg, hbuf]; rfl) (by decide) ?_
      simp only [Option.isSome_some, ↓reduceIte, Option.toList_some, hr, RecvPc.left, Chan.pop,
        hbuf, List.tail_cons, List.length_cons]
      omega
  | lock o =>
    rw [hr] at hends
    exact absurd (hends.2.symm.trans hbuf) (List.cons_ne_nil m rest).symm
  | stopped => exact (h.reader hr).elim

theorem down_last (h : s.ReplyInv id r) (hsound : s.Sound) (hmu : s.cs.base.mu.canLock = true)
    (hclosed : s.cs.base.msgCh.closed = true) (hbuf : s.cs.base.msgCh.buf = [])
    (hne : .err r.last ∉ s.results) : s.Down id r := by
  cases hr : s.reader with
  | idle =>
    refine down_read (a := .call) (by rw [hr]; rfl) (by decide) ?_
    simp [hr, RecvPc.left]
  | select =>
    refine down_read (a := .recv)
      (by rw [hr]; simp only [recvMsg, hbuf, hclosed, ↓reduceIte]; rfl) (by decide) ?_
    simp [hr, RecvPc.left]
  | checkLast o =>
    refine down_read (a := .proceed)
      (by rw [hr]; simp only [recvMsg, hbuf, hclosed, ↓reduceIte]; rfl) (by decide) ?_
    simp [hr, RecvPc.left]
  | lock o =>
    have herr := h.stage.recorded hclosed (hsound.mu.free_of_canLock hmu .dispatcher)
    refine down_read (a := .proceed)
      (by rw [hr]; simp only [recvMsg, hmu, ↓reduceIte]; rfl) (by decide) ?_
    rw [show s.cs.base.err = some r.recorded from herr, Reply.lastErr_recorded]
    have hzero : unfinished r (s.results ++ [.err r.last]) = 0 :=
      if_pos (List.mem_append_right _ List.mem_cons_self)
    rw [Option.toList_some, hzero, show unfinished r s.results = 5 from if_neg hne, hr]
    simp only [RecvPc.left]
    omega
  | stopped => exact (h.reader hr).elim

theorem down_respond (h : s.ReplyInv id r) (hr : respond s.cs s.disp a = some (cs', disp')) :
    s.Down id r := by
  refine ⟨.respond a, _, trivial, clientStep_respond hr, ?_⟩
  have hlt := h.stage.left_lt (respond_step hr)
  simp only [work]
  omega

end ClientState

theorem Stage.enabled {s : ClientStream} (h : Stage r v todo pc) (hpc : pc ≠ .idle)
    (hmu : pc.mode = .free → s.base.mu.canLock = true) (hs : s.base.activeSenders = pc.senders) :
    (∃ a s' pc', Rpc.respond s pc a = some (s', pc')) ∨ s.base.msgCh.canSend = false := by
  cases h with
  | start | idle | done => exact (hpc rfl).elim
  | lockHeaders | lockTrailers =>
    refine .inl ⟨.step, ?_⟩
    simp only [Rpc.respond, hmu rfl, ↓reduceIte]
    exact ⟨_, _, rfl⟩
  | closeHeaders => exact .inl ⟨.step, _, _, rfl⟩
  | @deliver pc =>
    cases pc with
    | enter =>
      refine .inl ⟨.deliver .enter, ?_⟩
      simp only [Rpc.respond, Rpc.deliver, hmu rfl, ↓reduceIte, Option.map_some]
      exact ⟨_, _, rfl⟩
    | send =>
      cases hc : s.base.msgCh.canSend with
      | false => exact .inr rfl
      | true =>
        refine .inl ⟨.deliver .send, ?_⟩
        simp only [Rpc.respond, Rpc.deliver, hc, ↓reduceIte, Option.map_some]
        exact ⟨_, _, rfl⟩
  | closeTrailers buf pc _ hrun =>
    refine .inl ⟨.step, ?_⟩
    by_cases hret : pc = .ret
    · subst hret
      exact ⟨_, _, rfl⟩
    · obtain ⟨_, hb⟩ := closeWithError_enabled hrun hret hs (statusErr r.status)
        (statusErr r.status).isNone
      simp only [Rpc.respond, hb, Option.map_some]
      exact ⟨_, _, rfl⟩

namespace ClientState

theorem down_enter (h : s.ReplyInv id r) (hsound : s.Sound) (ht : s.found = some t) :
    s.Down id r := by
  have hidle := hsound.found (by rw [ht]; nofun)
  have hstage := h.stage
  rw [hidle] at hstage
  have hle := (hstage.onResponse (by rw [todo, ht]; rfl)).left_le
  obtain ⟨buf, hbuf⟩ := s.cs.onResponse_base t
  refine ⟨.enter, _, trivial, clientStep_enter ht, ?_⟩
  simp only [work, ht, Option.toList_some, Option.toList_none, List.length_nil,
    List.length_singleton, hbuf]
  omega

theorem down_lookup (hidle : s.disp = .idle) (hfound : s.found = none) (hin : s.inbox = f :: fs) :
    s.Down id r := by
  refine ⟨.lookup, _, trivial, by simp only [clientStep, hidle, hfound, hin]; rfl, ?_⟩
  split
  · simp only [work, hfound, hin, hidle, Option.toList_some, Option.toList_none, List.length_nil,
      List.length_cons]
    omega
  · simp only [work, hfound, hin, hidle, Option.toList_none, List.length_nil, List.length_cons]
    omega

theorem ReplyInv.down (h : s.ReplyInv id r) (hsound : s.Sound) (hne : .err r.last ∉ s.results) :
    s.Down id r := by
  by_cases hw : ∃ (i : Nat) (k : LockMode), s.closers[i]? = some (.write k)
  · obtain ⟨i, k, hi⟩ := hw
    exact down_writing hi
  have hw' (i : Nat) (k : LockMode) : s.closers[i]? ≠ some (.write k) := fun hi => hw ⟨i, k, hi⟩
  by_cases hidle : s.disp = .idle
  · cases hfound : s.found with
    | some t => exact down_enter h hsound hfound
    | none =>
      cases hin : s.inbox with
      | cons f fs => exact down_lookup hidle hfound hin
      | nil =>
        -- Nothing is left for the dispatcher, so the trailers have been processed.
        have hstage := h.stage
        rw [hidle, todo, hfound, hin] at hstage
        have hclosed : s.cs.base.msgCh.closed = true := hstage.finished
        have hmu := mu_free h hsound hw' (by rw [hidle]; rfl)
        cases hbuf : s.cs.base.msgCh.buf with
        | nil => exact down_last h hsound hmu hclosed hbuf hne
        | cons m rest => exact down_buffered h hbuf
  · rcases h.stage.enabled hidle (mu_free h hsound hw') hsound.senders with ⟨a, _, _, hr⟩ | hfull
    · exact down_respond h hr
    · obtain ⟨m, rest, hbuf⟩ := Chan.exists_of_full (by rw [h.cap]; decide) hfull
      exact down_buffered h hbuf

end ClientState

def ClientStream.header (s : ClientStream) : Option (Except GoErr (Option MD)) :=
  if s.headersReceived then some (.ok s.headers) else s.base.ctx.map fun e => .error (.ctx e)

def clientMachineOn (id : UInt64) (inbox : List Response) : Machine ClientState ClientAct where
  init s := s = { inbox }
  step := clientStep id

theorem ClientState.replyInv {fs : List Response} (hl : ∀ m ∈ r.msgs, m.length ≤ MaxMessageSize)
    (hin : fs.filterMap (ownFrame id) = r.frames)
    (hc : (clientMachineOn id fs).ReachableWith ClientState.Undisturbed c) :
    c.Sound ∧ c.ReplyInv id r := by
  induction hc with
  | init hi =>
    subst hi
    exact ⟨.init id ⟨_, rfl⟩, .init hin⟩
  | step hr hok hs ih =>
    have hstep := clientStep_step hs
    exact ⟨ih.1.step hstep, ih.2.step ih.1 hl hok hstep⟩

namespace ClientState

theorem ReplyInv.got (h : c.ReplyInv id r) :
    ∃ taken k, c.results = taken.map .msg ++ List.replicate k (.err r.last) ∧ taken <+: r.msgs ∧
      (k ≠ 0 → taken = r.msgs ∧ c.cs.header = some (.ok (metadataFromProto r.header)) ∧
        c.cs.trailers = metadataFromProto r.trailer) := by
  obtain ⟨_, taken, k, hres, hsent, hk⟩ := h.reads
  refine ⟨taken, k, hres, ?_, fun hne => ?_⟩
  · have hpre : c.cs.base.msgCh.sent <+: r.msgs := h.stage.sent_prefix
    rw [hsent] at hpre
    exact (List.prefix_append _ _).trans hpre
  · obtain ⟨hclosed, hbuf⟩ := hk hne
    obtain ⟨hmsgs, hreceived, hheaders, htrailers⟩ := h.stage.closed_sent hclosed
    change c.cs.headersReceived = true at hreceived
    refine ⟨?_, ?_, htrailers⟩
    · rw [hbuf, List.append_nil] at hsent
      exact hsent.symm.trans hmsgs
    · rw [ClientStream.header, if_pos hreceived]
      exact congrArg (fun md => some (Except.ok md)) hheaders

theorem ReplyInv.completes {fs : List Response} (h : c.ReplyInv id r) (hsound : c.Sound)
    (hl : ∀ m ∈ r.msgs, m.length ≤ MaxMessageSize) :
    (clientMachineOn id fs).CanReach Undisturbed (fun c =>
      ∃ k, c.results = r.msgs.map .msg ++ List.replicate (k + 1) (.err r.last)) c := by
  have hreach : (clientMachineOn id fs).CanReach Undisturbed
      (fun c => c.ReplyInv id r ∧ .err r.last ∈ c.results) c := by
    refine Machine.CanReach.of_measure (I := fun c => c.Sound ∧ c.ReplyInv id r) (work r) ?_ ?_
      ⟨hsound, h⟩
    · intro s a s' hI hok hs
      have hstep := clientStep_step hs
      exact ⟨hI.1.step hstep, hI.2.step hI.1 hl hok hstep⟩
    · intro s hI hP
      exact hI.2.down hI.1 fun hmem => hP ⟨hI.2, hmem⟩
  refine hreach.imp fun c hc => ?_
  obtain ⟨taken, k, hres, _, hend⟩ := hc.1.got
  have hk : k ≠ 0 := by
    rintro rfl
    have hmem := hc.2
    rw [hres] at hmem
    simp at hmem
  obtain ⟨n, rfl⟩ := Nat.exists_eq_succ_of_ne_zero hk
  exact ⟨n, by rw [hres, (hend hk).1]⟩

end ClientState

def callError (err : Option GoErr) : GoErr := (statusErr (errorToStatus err)).getD .eof

theorem Corresponds.eq (h : Corresponds Option.isNone err st) : st = errorToStatus err := by
  cases err with
  | none =>
    obtain ⟨ctx, hnone, rfl⟩ := h
    cases Option.isNone_iff_eq_none.1 hnone
    rfl
  | some e => exact h

theorem ServerState.OutInv.reply {s : ServerState} (h : s.OutInv Option.isNone kind)
    (hf : s.handler = .finished) (hret : s.returned = some ret)
    (hswallowed : ret.swallowed kind = false) (hpipe : errorsIs ret.err .errClosedPipe = false) :
    s.st.sent = Reply.frames ⟨metadataToProto s.log.header, s.log.body.getD [],
      errorToStatus ret.err, metadataToProto s.log.trailer⟩ := by
  have ho := h.outputs
  rw [hf] at ho
  obtain ⟨r, hr, ⟨hs, _⟩ | ⟨_, hended, _⟩⟩ := ho
  · rw [hret] at hr
    cases hr
    rw [hswallowed] at hs
    cases hs
  · rw [hret] at hr
    cases hr
    obtain ⟨st, hst, hsent⟩ := hended.trailers hpipe
    rw [hst.eq] at hsent
    exact hsent

theorem HandlerReturn.not_swallowed {r : HandlerReturn} (h : errorsIs r.err .eof = false)
    (kind : HandlerKind) : r.swallowed kind = false := by
  cases r with
  | error e => simp [swallowed, show e.is .eof = false from h]
  | _ => rfl

/-- What a handler sends reaches the client: `RecvMsg` yields the messages in order and then
`io.EOF` or the status, and the metadata is there by then. -/
theorem serverToClient_transport {s : ServerState} {ret : HandlerReturn} {inbox : List Response}
    {c : ClientState}
    (hs : (serverMachine kind).ReachableWith (ServerState.Undisturbed Option.isNone) s)
    (hf : s.handler = .finished) (hret : s.returned = some ret)
    (heof : errorsIs ret.err .eof = false) (hpipe : errorsIs ret.err .errClosedPipe = false)
    (hl : ∀ m ∈ s.log.body.getD [], m.length ≤ MaxMessageSize)
    (hin : inbox.filterMap (ownFrame id) = s.st.sent)
    (hc : (clientMachineOn id inbox).ReachableWith ClientState.Undisturbed c) :
    (∃ taken k, c.results = taken.map .msg ++ List.replicate k (.err (callError ret.err)) ∧
      taken <+: s.log.body.getD [] ∧
      (k ≠ 0 → taken = s.log.body.getD [] ∧
        c.cs.header = some (.ok (metadataToProto s.log.header)) ∧
        c.cs.trailers = metadataToProto s.log.trailer)) ∧
    (clientMachineOn id inbox).CanReach ClientState.Undisturbed (fun c => ∃ k,
      c.results = (s.log.body.getD []).map .msg ++
        List.replicate (k + 1) (.err (callError ret.err))) c := by
  have hframes := (ServerState.outInv hs).reply hf hret (ret.not_swallowed heof kind) hpipe
  obtain ⟨hsound, hinv⟩ := ClientState.replyInv hl (hin.trans hframes) hc
  refine ⟨?_, hinv.completes hsound hl⟩
  simpa only [metadataFromProto_toProto, Reply.last, callError] using hinv.got

instance (s : ClientState) : (a : ClientAct) → Decidable (s.Undisturbed a)
  | .start _ => inferInstanceAs (Decidable (_ ≠ _))
  | .closer _ _ => inferInstanceAs (Decidable (_ = _))
  | .ctxDone _ => .isFalse not_false
  | .read _ => inferInstanceAs (Decidable (_ ≠ _))
  | .lookup | .enter | .respond _ => .isTrue trivial

def metadataRun : List ServerAct :=
  ([.enter .accepted, .handle (.call (.setHeader (some [("a", ["1"])]))),
    .handle (.call (.setTrailer (some [("b", ["2"])]))),
    .handle (.call (.sendMsg (.ok [])))] : List ServerAct) ++
    (List.replicate 7 (.handle (.step none)) : List ServerAct) ++
    ([.handle (.returns .nil)] : List ServerAct) ++
    (List.replicate 14 (.handle (.step none)) : List ServerAct)

def replyRun : List ClientAct :=
  ([.lookup, .lookup, .enter, .respond .step, .respond .step, .lookup, .enter, .read .call,
    .respond (.deliver .enter), .respond (.deliver .send), .lookup, .enter] : List ClientAct) ++
    (List.replicate 9 (.respond .step) : List ClientAct) ++
    ([.read .ctxDone, .read .proceed, .read .call, .read .recv, .read .proceed,
      .read .proceed] : List ClientAct)

theorem serverToClient_transport_one :
    ∃ (s : ServerState) (c : ClientState), s.handler = .finished ∧ s.log.body = some [[]] ∧
      c.results = [.msg [], .err .eof] ∧
      c.cs.header = some (.ok (metadataToProto s.log.header)) ∧
      c.cs.trailers = metadataToProto s.log.trailer := by
  obtain ⟨s, hs, hps⟩ : ∃ s, (serverMachine .stream).execIf (ServerState.Undisturbed Option.isNone)
      { found := some (.headers ⟨"m", none, 0⟩) } metadataRun = some s ∧
        decide (s.handler = .finished ∧ s.returned = some .nil ∧ s.log.body = some [[]] ∧
          s.st.sent = [.headers (some [("a", ["1"])]), .message { eom := true },
            .trailers none (some [("b", ["2"])])]) = true :=
    exists_of_any (by decide)
  obtain ⟨c, hc, hpc⟩ : ∃ c, (clientMachineOn 1 [⟨some 3, .headers none⟩,
      ⟨some 1, .headers (some [("a", ["1"])])⟩, ⟨some 1, .message { eom := true }⟩,
      ⟨some 1, .trailers none (some [("b", ["2"])])⟩]).execIf ClientState.Undisturbed
      { inbox := [⟨some 3, .headers none⟩, ⟨some 1, .headers (some [("a", ["1"])])⟩,
        ⟨some 1, .message { eom := true }⟩, ⟨some 1, .trailers none (some [("b", ["2"])])⟩] }
      replyRun = some c ∧ decide (c.results = [.msg [], .err .eof]) = true :=
    exists_of_any (by decide)
  obtain ⟨hf, hret, hbody, hsent⟩ := of_decide_eq_true hps
  have hres := of_decide_eq_true hpc
  obtain ⟨taken, k, hgot, _, hend⟩ := (serverToClient_transport (.execIf (.init ⟨_, _, rfl⟩) hs) hf
    hret rfl rfl (by simp [hbody]) (by rw [hsent]; rfl) (.execIf (.init rfl) hc)).1
  have hk : k ≠ 0 := by
    rintro rfl
    rw [hres] at hgot
    cases taken with
    | nil => cases hgot
    | cons m taken => cases taken <;> cases hgot
  exact ⟨s, c, hf, hbody, hres, (hend hk).2⟩

end Goutils.Rpc
