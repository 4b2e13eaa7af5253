import Goutils.Rpc.ServerMachine

namespace Goutils.Rpc
open Lib
open Lib.Wire (Bytes)
set_option autoImplicit true

def CloseSendPc.ok : CloseSendPc → Bool
  | .headers (.ret _) => false
  | .close pc => pc.ok
  | _ => true

def SendPc.ok : SendPc → Bool
  | .headers (.ret _) => false
  | .close _ pc => pc.ok
  | _ => true

def HandlerPc.ok : HandlerPc → Bool
  | .sendHeader (.ret _) | .sendMsg _ (.ret _) => false
  | .sendMsg _ pc => pc.ok
  | .response _ (.ret _) => false
  | .response _ pc => pc.ok
  | .closing _ .ret => false
  | .closing _ pc => pc.ok
  | _ => true

def DispatcherPc.ok : DispatcherPc → Bool
  | .closeErr _ pc | .closeSend _ pc => pc.ok
  | _ => true

variable {s s' : ServerStream}

theorem CloseSendStep.ok (h : CloseSendStep me err w s pc s' pc') : pc'.ok = true := by
  cases h with
  | @headers _ _ pc' _ =>
    cases pc' with
    | ret err => cases err <;> rfl
    | _ => rfl
  | close h => exact h.ok
  | _ => rfl

theorem SendStep.ok (h : SendStep m w s pc s' pc') : pc'.ok = true := by
  cases h with
  | @headers _ _ pc' _ =>
    cases pc' with
    | ret err => cases err <;> rfl
    | _ => rfl
  | rlock => cases m <;> rfl
  | @runlock err => cases err <;> rfl
  | close h => exact h.ok
  | _ => rfl

theorem HandleStep.ok (h : HandleStep kind s pc a s' pc') : pc'.ok = true := by
  cases h with
  | returns h => rcases handlerReturn_cases h with ⟨m, rfl⟩ | ⟨err, rfl⟩ | rfl <;> rfl
  | @headers _ _ _ pc' _ => cases pc' <;> rfl
  | @send _ _ _ _ pc' h | @close _ _ _ _ pc' h =>
    have hok := h.ok
    cases pc' <;> first | rfl | exact hok
  | @response _ _ _ _ pc' h =>
    have hok := h.ok
    cases pc' with
    | ret err => cases err <;> rfl
    | _ => exact hok
  | _ => rfl

theorem DispatchStep.ok (h : DispatchStep s pc a s' pc') : pc'.ok = true := by
  cases h with
  | @deliver data _ _ _ res eos _ =>
    unfold DispatcherPc.afterDeliver
    split
    · rfl
    · split <;> rfl
    · rfl
  | closeErr h | closeSend h => exact h.ok
  | _ => rfl

theorem ServerStream.write_enabled (s : ServerStream) (f : ResponseType) :
    ∃ w r, s.write f w = some r := by
  cases h : s.chDown with
  | false => exact ⟨none, _, by simp only [write, h, Bool.false_eq_true, ↓reduceIte]; rfl⟩
  | true => exact ⟨some .errClosedPipe, _, by simp only [write, h, ↓reduceIte]; rfl⟩

theorem writeHeaders_enabled (hpc : ∀ err, pc ≠ .ret err) (hlock : s.base.mu.canRLock = true) :
    ∃ w r, writeHeaders w s pc = some r := by
  cases pc with
  | cas => exact ⟨none, _, rfl⟩
  | write =>
    obtain ⟨w, r, h⟩ := s.write_enabled s.headersFrame
    exact ⟨w, _, by simp only [writeHeaders, hlock, ↓reduceIte, h, Option.map_some]; rfl⟩
  | ret err => exact (hpc err rfl).elim

theorem closeWithSendError_enabled (hok : pc.ok = true) (hpc : pc ≠ .ret)
    (hfree : pc.mode = .free → s.base.mu.canLock = true) (ha : s.base.activeSenders = 0)
    (me : Goroutine) (err : Option GoErr) : ∃ w r, closeWithSendError me err w s pc = some r := by
  cases pc with
  | headers pc =>
    have hpc' (e : Option GoErr) : pc ≠ .ret e := by
      rintro rfl
      cases hok
    obtain ⟨w, r, h⟩ := writeHeaders_enabled hpc' (RWMutex.canRLock_of_canLock (hfree rfl))
    exact ⟨w, _, by simp only [closeWithSendError, h, Option.map_some]; rfl⟩
  | writeTrailers st =>
    obtain ⟨w, r, h⟩ := s.write_enabled (s.trailersFrame st)
    exact ⟨w, _, by simp only [closeWithSendError, h, Option.map_some]; rfl⟩
  | lock => exact ⟨none, _, by simp only [closeWithSendError, hfree rfl, ↓reduceIte]; rfl⟩
  | close pc =>
    by_cases hret : pc = .ret
    · subst hret
      exact ⟨none, _, rfl⟩
    · obtain ⟨r, h⟩ := closeWithError_enabled hok hret ha none false
      exact ⟨none, _, by simp only [closeWithSendError, h, Option.map_some]; rfl⟩
  | ret => exact (hpc rfl).elim
  | _ => exact ⟨none, _, rfl⟩

theorem sendMsg_enabled (hok : pc.ok = true) (hpc : ∀ err, pc ≠ .ret err)
    (hfree : pc.mode = .free → s.base.mu.canLock = true) (ha : s.base.activeSenders = 0)
    (m : Except GoErr Bytes) : ∃ w r, sendMsg m w s pc = some r := by
  cases pc with
  | headers pc =>
    have hpc' (e : Option GoErr) : pc ≠ .ret e := by
      rintro rfl
      cases hok
    obtain ⟨w, r, h⟩ := writeHeaders_enabled hpc' (RWMutex.canRLock_of_canLock (hfree rfl))
    exact ⟨w, _, by simp only [sendMsg, h, Option.map_some]; rfl⟩
  | rlock =>
    have hlock := RWMutex.canRLock_of_canLock (hfree rfl)
    exact ⟨none, _, by simp only [sendMsg, hlock, ↓reduceIte]; rfl⟩
  | write ps =>
    cases ps with
    | nil => exact ⟨none, _, rfl⟩
    | cons p ps =>
      obtain ⟨w, r, h⟩ := s.write_enabled (.message p)
      exact ⟨w, _, by simp only [sendMsg, h, Option.map_some]; rfl⟩
  | close e pc =>
    by_cases hret : pc = .ret
    · subst hret
      exact ⟨none, _, rfl⟩
    · obtain ⟨w, r, h⟩ := closeWithSendError_enabled hok hret hfree ha .handler (some e)
      exact ⟨w, _, by simp only [sendMsg, h, Option.map_some]; rfl⟩
  | ret err => exact (hpc err rfl).elim
  | _ => exact ⟨none, _, rfl⟩

theorem handle_enabled (hok : pc.ok = true) (hs : pc ≠ .notStarted) (hf : pc ≠ .finished)
    (hfree : pc.mode = .free → s.base.mu.canLock = true) (ha : s.base.activeSenders = 0)
    (kind : HandlerKind) : ∃ a r, handle kind s pc a = some r := by
  cases pc with
  | notStarted => exact (hs rfl).elim
  | running => exact ⟨.call (.setTrailer none), _, rfl⟩
  | sendHeader pc =>
    have hpc (e : Option GoErr) : pc ≠ .ret e := by
      rintro rfl
      cases hok
    obtain ⟨w, r, h⟩ := writeHeaders_enabled hpc (RWMutex.canRLock_of_canLock (hfree rfl))
    exact ⟨.step w, _, by simp only [handle, h, Option.map_some]; rfl⟩
  | sendMsg m pc | response m pc =>
    have hpc (e : Option GoErr) : pc ≠ .ret e := by
      rintro rfl
      cases hok
    have hok' : pc.ok = true := by
      cases pc <;> first | rfl | exact hok
    obtain ⟨w, r, h⟩ := sendMsg_enabled hok' hpc hfree ha m
    exact ⟨.step w, _, by simp only [handle, h, Option.map_some]; rfl⟩
  | closing err pc =>
    have hpc : pc ≠ .ret := by
      rintro rfl
      cases hok
    have hok' : pc.ok = true := by
      cases pc <;> first | rfl | exact hok
    obtain ⟨w, r, h⟩ := closeWithSendError_enabled hok' hpc hfree ha .handler err
    exact ⟨.step w, _, by simp only [handle, h, Option.map_some]; rfl⟩
  | finished => exact (hf rfl).elim

theorem dispatch_enabled (hok : pc.ok = true) (hpc : pc ≠ .idle)
    (hfree : pc.mode = .free → s.base.mu.canLock = true) (hn : pc.senders = 0)
    (ha : s.base.activeSenders = 0) : ∃ a r, dispatch s pc a = some r := by
  cases pc with
  | idle => exact (hpc rfl).elim
  | deliver data eos pc =>
    cases pc with
    | enter =>
      exact ⟨.deliver .enter, _, by
        simp only [dispatch, deliver, hfree rfl, ↓reduceIte, Option.map_some]; rfl⟩
    | send => cases hn
  | lockRecv => exact ⟨.step none, _, by simp only [dispatch, hfree rfl, ↓reduceIte]; rfl⟩
  | closeRecv pc =>
    cases pc with
    | wait =>
      exact ⟨.step none, _, by
        simp only [dispatch, closeRecv, ha, ↓reduceIte, Option.map_some]; rfl⟩
    | _ => exact ⟨.step none, _, rfl⟩
  | closeErr e pc =>
    by_cases hret : pc = .ret
    · subst hret
      exact ⟨.step none, _, rfl⟩
    · obtain ⟨r, h⟩ := closeWithError_enabled hok hret ha (some e) false
      exact ⟨.step none, _, by simp only [dispatch, h, Option.map_some]; rfl⟩
  | closeSend e pc =>
    by_cases hret : pc = .ret
    · subst hret
      exact ⟨.step none, _, rfl⟩
    · obtain ⟨w, r, h⟩ := closeWithSendError_enabled hok hret hfree ha .dispatcher (some e)
      refine ⟨.step w, (r.1, .closeSend e r.2), ?_⟩
      cases pc with
      | ret => exact (hret rfl).elim
      | _ => simp only [dispatch, h, Option.map_some]

def CloseSendPc.waits : CloseSendPc → Bool
  | .close (.recv .wait) => true
  | _ => false

def HandlerPc.waits : HandlerPc → Bool
  | .sendMsg _ (.close _ pc) | .response _ (.close _ pc) | .closing _ pc => pc.waits
  | _ => false

namespace ServerState

/-- The dispatcher waits for room on `msgCh` and nothing but an outside event can make any. -/
structure Blocked (s : ServerState) : Prop where
  sending : s.disp.senders = 1
  full : s.st.base.msgCh.canSend = false
  ctx : s.st.base.ctx = none
  reader : s.reader = .stopped

/-- All frames have been handled and the handler, if there is one, has returned. -/
structure Final (s : ServerState) : Prop where
  found : s.found = none
  disp : s.disp = .idle
  inbox : s.inbox = []
  handler : s.handler = .notStarted ∨ s.handler = .finished

structure Live (s : ServerState) : Prop where
  dispOk : s.disp.ok = true
  handlerOk : s.handler.ok = true
  cap : s.st.base.msgCh.cap = 1
  delivering : ∀ data eos pc, s.disp = .deliver data eos pc → s.st.headersReceived = true
  locked : ∀ e, s.reader = .lock e → s.st.base.msgCh.closed = true

end ServerState

def ServerAct.internal : ServerAct → Bool
  | .ctxDone _ | .chanDown | .chanClose _ => false
  | _ => true

/-- While the context is live, no message waits for room behind the reader's stop. -/
def LeavesRoom (s : ServerState) (a : ServerAct) : Prop :=
  (a = .read .stop → s.disp.senders = 1 → s.st.base.ctx = none →
    s.st.base.msgCh.canSend = true) ∧
  (a = .dispatch (.deliver .enter) → s.reader = .stopped → s.st.base.ctx = none →
    s.st.base.msgCh.canSend = true)

instance (s : ServerState) (a : ServerAct) : Decidable (LeavesRoom s a) :=
  inferInstanceAs (Decidable (_ ∧ _))

namespace ServerState

variable {s : ServerState}

theorem Live.init (h : (serverMachine kind).init s) : s.Live := by
  obtain ⟨h, inbox, rfl⟩ := h
  exact ⟨rfl, rfl, rfl, nofun, nofun⟩

theorem Live.step {s' : ServerState} (h : s.Live) (hs : ServerStep kind s a s') : s'.Live := by
  have hcap : s'.st.base.msgCh.cap = 1 := hs.chanStep.cap.trans h.cap
  have hclosed := hs.chanStep.closed
  cases hs with
  | enter ht hr =>
    refine ⟨?_, ?_, hcap, ?_, fun e he => hclosed (h.locked e he)⟩
    · cases hr <;> rfl
    · simp only [handlerAfter]
      split
      · rfl
      · exact h.handlerOk
    · intro data eos pc hd
      exact hr.delivering hd
  | dispatch hd =>
    refine ⟨hd.ok, h.handlerOk, hcap, ?_, fun e he => hclosed (h.locked e he)⟩
    intro data eos pc hpc
    obtain ⟨d, e, p, hp⟩ := hd.delivering hpc
    exact hd.headersReceived.trans (h.delivering d e p hp)
  | call hh | returns hh | handle hh =>
    exact ⟨h.dispOk, hh.ok, hcap, fun d e p hp => hh.headersReceived.trans (h.delivering d e p hp),
      fun e he => hclosed (h.locked e he)⟩
  | read _ hr =>
    refine { h with cap := hcap, locked := ?_ }
    intro e he
    exact hclosed (hr.locked he)
  | _ => exact { h with cap := hcap }

theorem live (h : (serverMachine kind).ReachableWith ok s) : s.Live :=
  h.invariant (fun _ => .init) fun _ _ _ hI _ hs => hI.step (serverStep_step hs)

theorem not_blocked (h : (serverMachine kind).ReachableWith LeavesRoom s) : ¬ s.Blocked := by
  suffices hI : s.disp.senders = 1 → s.st.base.ctx = none → s.reader = .stopped →
      s.st.base.msgCh.canSend = true by
    intro ⟨hsend, hfull, hctx, hreader⟩
    simp [hI hsend hctx hreader] at hfull
  induction h with
  | init hi =>
    obtain ⟨h, inbox, rfl⟩ := hi
    exact nofun
  | @step s a s' hr hok hs ih =>
    intro hsend hctx hreader
    cases serverStep_step hs with
    | lookup | discard => exact ih hsend hctx hreader
    | enter _ hreq => simp [hreq.mode.2] at hsend
    | dispatch hd =>
      obtain ⟨rfl, _, hbase⟩ := hd.sending hsend
      simp only [hbase] at hctx ⊢
      exact hok.2 rfl hreader hctx
    | call hh => exact hh.baseMove.canSend (ih hsend (hh.baseMove.ctx hctx) hreader)
    | returns hh | handle hh => exact hh.baseMove.canSend (ih hsend (hh.baseMove.ctx hctx) hreader)
    | read _ hrd =>
      obtain ⟨rfl, rfl⟩ := hrd.stopped hreader
      exact hok.1 rfl hsend hctx
    | ctxDone | chanDown => simp [withCtx] at hctx
    | chanClose => exact ih hsend hctx hreader

def CanStep (kind : HandlerKind) (s : ServerState) : Prop :=
  ∃ a s', a.internal = true ∧ serverStep kind s a = some s'

theorem canStep_dispatch (h : ∃ a r, dispatch s.st s.disp a = some r) (kind : HandlerKind) :
    s.CanStep kind := by
  obtain ⟨a, r, hd⟩ := h
  exact ⟨.dispatch a, _, rfl, serverStep_dispatch hd⟩

theorem canStep_handle (h : ∃ a r, handle kind s.st s.handler a = some r) : s.CanStep kind := by
  obtain ⟨a, r, hh⟩ := h
  obtain ⟨s', hs'⟩ := serverStep_handle hh
  exact ⟨.handle a, s', rfl, hs'⟩

theorem canStep_idle {s : ServerState} (h : s.Sound) (hl : s.Live) (hf : ¬ s.Final)
    (hfound : s.found = none) (hidle : s.disp = .idle) (kind : HandlerKind) : s.CanStep kind := by
  cases hin : s.inbox with
  | cons t inbox => exact ⟨.lookup, _, rfl, by simp only [serverStep, hidle, hfound, hin]; rfl⟩
  | nil =>
    have hne : ¬ (s.handler = .notStarted ∨ s.handler = .finished) := fun hh =>
      hf ⟨hfound, hidle, hin, hh⟩
    have ha : s.st.base.activeSenders = 0 := by
      rw [h.senders, hidle]
      rfl
    apply canStep_handle
    refine handle_enabled hl.handlerOk (fun hn => hne (.inl hn)) (fun hn => hne (.inr hn)) ?_ ha
      kind
    intro hfree
    refine h.mu.free fun t => ?_
    cases t with
    | dispatcher =>
      rw [mode, hidle]
      rfl
    | handler => exact hfree
    | reader => rfl

theorem canStep_sending (h : s.Sound) (hl : s.Live) (hb : ¬ s.Blocked) (hsend : s.disp.senders = 1)
    (kind : HandlerKind) : s.CanStep kind := by
  obtain ⟨data, eos, hd⟩ : ∃ data eos, s.disp = .deliver data eos .send := by
    cases hd : s.disp with
    | deliver data eos pc =>
      cases pc with
      | enter => simp [hd, DispatcherPc.senders] at hsend
      | send => exact ⟨data, eos, rfl⟩
    | _ => simp [hd, DispatcherPc.senders] at hsend
  by_cases hroom : s.st.base.msgCh.canSend = true
  · refine canStep_dispatch ⟨.deliver .send, ?_⟩ kind
    simp only [hd, Rpc.dispatch, deliver, hroom, ↓reduceIte, Option.map_some]
    exact ⟨_, rfl⟩
  · cases hctx : s.st.base.ctx with
    | some e =>
      refine canStep_dispatch ⟨.deliver .ctxDone, ?_⟩ kind
      simp only [hd, Rpc.dispatch, deliver, hctx, Option.isSome_some, ↓reduceIte, Option.map_some]
      exact ⟨_, rfl⟩
    | none =>
      -- Only a reader can make room, and there is one.
      have hfull := Bool.eq_false_of_not_eq_true hroom
      obtain ⟨m, rest, hbuf⟩ := Chan.exists_of_full (by rw [hl.cap]; exact Nat.one_pos) hfull
      have hn : s.handler ≠ .notStarted := by
        intro hn
        have := hl.delivering data eos .send hd
        simp [h.started.1 hn] at this
      have hreader : s.reader ≠ .stopped := fun hr => hb ⟨hsend, hfull, hctx, hr⟩
      have hlock (e : Option CtxErr) : s.reader ≠ .lock e := by
        intro hr
        have := hl.locked e hr
        simp [(h.sending hsend).1] at this
      obtain ⟨a, r, hr⟩ := recvMsg_enabled hreader hlock hbuf
      obtain ⟨s', hs'⟩ := serverStep_read hn hr
      exact ⟨.read a, s', rfl, hs'⟩

theorem canStep_busy (h : s.Sound) (hl : s.Live) (hidle : s.disp ≠ .idle)
    (hsend : s.disp.senders = 0) (kind : HandlerKind) : s.CanStep kind := by
  have ha : s.st.base.activeSenders = 0 := h.senders.trans hsend
  by_cases hm : s.handler.mode = .free
  · refine canStep_dispatch (dispatch_enabled hl.dispOk hidle ?_ hsend ha) kind
    intro hfree
    refine h.mu.free fun t => ?_
    cases t with
    | dispatcher => exact hfree
    | handler => exact hm
    | reader => rfl
  · apply canStep_handle
    refine handle_enabled hl.handlerOk ?_ ?_ (fun hfree => (hm hfree).elim) ha kind
    · intro hn
      exact hm (by rw [hn]; rfl)
    · intro hn
      exact hm (by rw [hn]; rfl)

theorem canStep {s : ServerState} (h : s.Sound) (hl : s.Live) (hb : ¬ s.Blocked)
    (hf : ¬ s.Final) (kind : HandlerKind) : s.CanStep kind := by
  cases hfound : s.found with
  | some t => exact ⟨.enter .accepted, _, rfl, by simp only [serverStep, hfound]; rfl⟩
  | none =>
    by_cases hidle : s.disp = .idle
    · exact canStep_idle h hl hf hfound hidle kind
    · by_cases hsend : s.disp.senders = 1
      · exact canStep_sending h hl hb hsend kind
      · refine canStep_busy h hl hidle ?_ kind
        have hle : s.disp.senders ≤ 1 := by
          unfold DispatcherPc.senders
          split <;> decide
        omega

def Wedged (s : ServerState) : Prop := s.handler.waits = true ∧ s.Blocked

end ServerState

/-- A stream whose reader leaves room is never wedged when it is closed. -/
theorem serverClose_not_wedged {s : ServerState}
    (h : (serverMachine kind).ReachableWith LeavesRoom s) :
    ¬ s.Wedged ∧ (¬ s.Final → s.CanStep kind) := by
  have hb := ServerState.not_blocked h
  refine ⟨fun hw => hb hw.2, ?_⟩
  intro hf
  exact ServerState.canStep (ServerState.sound h) (ServerState.live h) hb hf kind

def oneMessage (data : Bytes) : RequestType :=
  .message { hasMessage := true, packetMessage := some { data, eom := true } }

def twoMessages : ServerState :=
  { found := some (.headers { method := "/echo" }), inbox := [oneMessage [1], oneMessage [2]] }

def fillMsgCh : List ServerAct :=
  [.enter .accepted, .lookup, .enter .accepted, .dispatch (.deliver .enter),
    .dispatch (.deliver .send), .lookup, .enter .accepted, .dispatch (.deliver .enter)]

theorem serverClose_not_wedged_reading :
    ∃ s, (serverMachine .stream).execIf LeavesRoom twoMessages fillMsgCh = some s ∧
      s.st.base.msgCh.canSend = false ∧ s.CanStep .stream := by
  have hrun : ((serverMachine .stream).execIf LeavesRoom twoMessages fillMsgCh).any
      (fun s => !s.st.base.msgCh.canSend && decide (s.disp ≠ .idle)) = true := by
    decide
  obtain ⟨s, hs, hp⟩ := exists_of_any hrun
  simp only [Bool.and_eq_true, Bool.not_eq_true', decide_eq_true_eq] at hp
  refine ⟨s, hs, hp.1, ?_⟩
  have hinit : (serverMachine .stream).init twoMessages := ⟨_, _, rfl⟩
  exact (serverClose_not_wedged (.execIf (.init hinit) hs)).2 fun hf => hp.2 hf.disp

/-- The handler returns with two messages unread: its `closeWithSendError` waits for the
dispatcher, and the dispatcher for room. -/
theorem serverClose_wedges :
    ¬ ∀ s, (serverMachine .stream).Reachable s → ¬ s.Wedged ∧ (¬ s.Final → s.CanStep .stream) := by
  intro h
  have hrun : ∃ s, (serverMachine .stream).exec twoMessages
      (fillMsgCh ++ [.read .stop, .handle (.returns .nil)] ++
        List.replicate 9 (.handle (.step none))) = some s ∧ s.Wedged :=
    ⟨_, rfl, rfl, rfl, rfl, rfl, rfl⟩
  obtain ⟨s, hs, hw⟩ := hrun
  exact (h s (Machine.reachable_exec ⟨_, _, rfl⟩ hs)).1 hw

end Goutils.Rpc
