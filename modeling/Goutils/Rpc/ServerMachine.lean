import Goutils.Rpc.ServerHandler

namespace Goutils.Rpc
open Lib
open Lib.Wire (Bytes)
set_option autoImplicit true

/-- One server stream with its goroutines, the frames that wait and what was done. -/
structure ServerState where
  st : ServerStream := {}
  found : Option RequestType := none
  disp : DispatcherPc := .idle
  handler : HandlerPc := .notStarted
  reader : RecvPc := .idle
  inbox : List RequestType := []
  results : List RecvResult := []
  eosSeen : Bool := false
  ops : List HandlerOp := []
  returned : Option HandlerReturn := none

/-- The steps of the goroutines, and the stream's context, the channel's context and the channel
itself coming to an end. -/
inductive ServerAct where
  | lookup
  | enter (outcome : HeadersOutcome)
  | dispatch (a : DispatcherAct)
  | handle (a : HandlerAct)
  | read (a : RecvAct)
  | ctxDone (e : CtxErr)
  | chanDown
  | chanClose (reason : Option GoErr)
  deriving DecidableEq

def DispatcherPc.atEos (pc : DispatcherPc) : Bool := pc = .lockRecv

def ServerState.withCtx (s : ServerState) (e : CtxErr) : ServerState :=
  { s with st := { s.st with base := { s.st.base with ctx := s.st.base.ctx.or (some e) } } }

def ServerState.handlerAfter (s : ServerState) (st : ServerStream) : HandlerPc :=
  if st.headersReceived && !s.st.headersReceived then .running else s.handler

def serverStep (kind : HandlerKind) (s : ServerState) : ServerAct → Option ServerState
  | .lookup =>
    match s.disp, s.found, s.inbox with
    | .idle, none, t :: inbox =>
      -- A stream that is no longer in the channel's table does not get its frames.
      some (if s.st.base.onDone = 0 then { s with found := some t, inbox } else { s with inbox })
    | _, _, _ => none
  | .enter outcome =>
    match s.found with
    | none => none
    | some t =>
      let (st, disp) := s.st.onRequest outcome t
      some { s with
        st, disp, found := none, eosSeen := s.eosSeen || disp.atEos, handler := s.handlerAfter st }
  | .dispatch a =>
    (dispatch s.st s.disp a).map fun (st, disp) =>
      { s with st, disp, eosSeen := s.eosSeen || disp.atEos }
  | .handle a =>
    (handle kind s.st s.handler a).map fun (st, handler) =>
      { s with
        st, handler
        ops := match a with | .call op => s.ops ++ [op] | _ => s.ops
        returned := match a with | .returns r => some r | _ => s.returned }
  | .read a =>
    if s.handler = .notStarted then none
    else (recvMsg s.st.base s.reader a).map fun (base, reader, r) =>
      { s with st := { s.st with base }, reader, results := s.results ++ r.toList }
  | .ctxDone e => some (s.withCtx e)
  | .chanDown =>
    some { s.withCtx .canceled with st := { (s.withCtx .canceled).st with chDown := true } }
  | .chanClose reason =>
    some { s with st := { s.st with chClosed := s.st.chClosed.or (some reason) } }

variable {s s' : ServerState}

theorem serverStep_dispatch (h : Rpc.dispatch s.st s.disp a = some r) :
    serverStep kind s (.dispatch a) =
      some { s with st := r.1, disp := r.2, eosSeen := s.eosSeen || r.2.atEos } := by
  simp only [serverStep, h, Option.map_some]

theorem serverStep_handle (h : Rpc.handle kind s.st s.handler a = some r) :
    ∃ s', serverStep kind s (.handle a) = some s' := by
  simp only [serverStep, h, Option.map_some]
  exact ⟨_, rfl⟩

theorem serverStep_read (hn : s.handler ≠ .notStarted) (h : recvMsg s.st.base s.reader a = some r) :
    ∃ s', serverStep kind s (.read a) = some s' := by
  simp only [serverStep, if_neg hn, h, Option.map_some]
  exact ⟨_, rfl⟩

def serverMachine (kind : HandlerKind) : Machine ServerState ServerAct where
  init s := ∃ h inbox, s = { found := some (.headers h), inbox }
  step := serverStep kind

inductive ServerStep (kind : HandlerKind) (s : ServerState) : ServerAct → ServerState → Prop where
  | lookup : s.disp = .idle → s.found = none → s.inbox = t :: inbox → s.st.base.onDone = 0 →
      ServerStep kind s .lookup { s with found := some t, inbox }
  | discard : s.disp = .idle → s.found = none → s.inbox = t :: inbox → s.st.base.onDone ≠ 0 →
      ServerStep kind s .lookup { s with inbox }
  | enter : s.found = some t → RequestStep s.st outcome t st disp →
      ServerStep kind s (.enter outcome) { s with
        st, disp, found := none, eosSeen := s.eosSeen || disp.atEos, handler := s.handlerAfter st }
  | dispatch : DispatchStep s.st s.disp a st disp →
      ServerStep kind s (.dispatch a) { s with st, disp, eosSeen := s.eosSeen || disp.atEos }
  | call : HandleStep kind s.st s.handler (.call op) st handler →
      ServerStep kind s (.handle (.call op)) { s with st, handler, ops := s.ops ++ [op] }
  | returns : HandleStep kind s.st s.handler (.returns r) st handler →
      ServerStep kind s (.handle (.returns r)) { s with st, handler, returned := some r }
  | handle : HandleStep kind s.st s.handler (.step w) st handler →
      ServerStep kind s (.handle (.step w)) { s with st, handler }
  | read : s.handler ≠ .notStarted → RecvStep s.st.base s.reader a base reader r →
      ServerStep kind s (.read a) { s with
        st := { s.st with base }, reader, results := s.results ++ r.toList }
  | ctxDone : ServerStep kind s (.ctxDone e) (s.withCtx e)
  | chanDown : ServerStep kind s .chanDown
      { s.withCtx .canceled with st := { (s.withCtx .canceled).st with chDown := true } }
  | chanClose : ServerStep kind s (.chanClose reason)
      { s with st := { s.st with chClosed := s.st.chClosed.or (some reason) } }

theorem serverStep_step (h : serverStep kind s a = some s') : ServerStep kind s a s' := by
  cases a with
  | lookup =>
    simp only [serverStep] at h
    split at h
    · simp only [Option.some.injEq] at h
      split at h
      · subst h
        exact .lookup ‹_› ‹_› ‹_› ‹_›
      · subst h
        exact .discard ‹_› ‹_› ‹_› ‹_›
    · cases h
  | enter outcome =>
    simp only [serverStep] at h
    split at h
    · cases h
    · rename_i t ht
      cases h
      exact .enter ht (s.st.onRequest_step outcome t)
  | dispatch a =>
    obtain ⟨⟨st, disp⟩, hd, rfl⟩ := Option.map_eq_some_iff.1 h
    exact .dispatch (dispatch_step hd)
  | handle a =>
    obtain ⟨⟨st, handler⟩, hd, rfl⟩ := Option.map_eq_some_iff.1 h
    cases a with
    | call op => exact .call (handle_step hd)
    | returns r => exact .returns (handle_step hd)
    | step w => exact .handle (handle_step hd)
  | read a =>
    simp only [serverStep] at h
    split at h
    · cases h
    · obtain ⟨⟨base, reader, r⟩, hr, rfl⟩ := Option.map_eq_some_iff.1 h
      exact .read ‹_› (recvMsg_step hr)
  | ctxDone e =>
    cases h
    exact .ctxDone
  | chanDown =>
    cases h
    exact .chanDown
  | chanClose reason =>
    cases h
    exact .chanClose

inductive ChanStep (c : Chan α) : Chan α → Prop where
  | keep : ChanStep c c
  | send (a : α) : ChanStep c (c.send a)
  | close : ChanStep c c.close
  | pop : ChanStep c c.pop

theorem ChanStep.cap {c c' : Chan α} (h : ChanStep c c') : c'.cap = c.cap := by
  cases h <;> simp

theorem ChanStep.closed {c c' : Chan α} (h : ChanStep c c') (hc : c.closed = true) :
    c'.closed = true := by
  cases h <;> simp [hc]

theorem HandleStep.chanStep {s s' : ServerStream} (h : HandleStep kind s pc a s' pc') :
    ChanStep s.base.msgCh s'.base.msgCh := by
  rcases h.baseMove.msgCh with h | h
  · exact h ▸ .keep
  · exact h ▸ .close

theorem ServerStep.chanStep (h : ServerStep kind s a s') :
    ChanStep s.st.base.msgCh s'.st.base.msgCh := by
  cases h with
  | enter _ h =>
    obtain ⟨buf, hbuf⟩ := h.base
    simp only [hbuf]
    exact .keep
  | dispatch h =>
    rcases h.msgCh with h | h | ⟨data, h⟩
    · exact h ▸ .keep
    · exact h ▸ .close
    · exact h ▸ .send data
  | call h | returns h | handle h => exact h.chanStep
  | read _ h =>
    rcases h.base with rfl | rfl
    · exact .keep
    · exact .pop
  | _ => exact .keep

namespace ServerState

def mode (s : ServerState) : Goroutine → LockMode
  | .dispatcher => s.disp.mode
  | .handler => s.handler.mode
  | .reader => .free

/-- One owner of the mutex, one winner of each race, nothing on a closed `msgCh`. -/
structure Sound (s : ServerState) : Prop where
  mu : s.st.base.mu.Owned s.mode
  senders : s.st.base.activeSenders = s.disp.senders
  recv : s.disp.wins.recv + s.handler.wins.recv + s.st.base.msgCh.closed.toNat =
    s.st.base.recvClosed.toNat
  close : s.disp.wins.close + s.handler.wins.close + s.st.base.onDone = s.st.base.closed.toNat
  send : s.disp.wins.send + s.handler.wins.send ≤ s.st.sendClosed.toNat
  sending : s.disp.senders = 1 → s.st.base.msgCh.closed = false ∧ s.handler.wins.ready = 0
  panicked : s.st.base.msgCh.panicked = false
  found : s.found ≠ none → s.disp = .idle
  started : s.handler = .notStarted ↔ s.st.headersReceived = false

theorem Sound.init (h : (serverMachine kind).init s) : s.Sound := by
  obtain ⟨h, inbox, rfl⟩ := h
  refine ⟨⟨?_, ?_, List.nodup_nil, .inl rfl⟩, rfl, rfl, rfl, Nat.zero_le _, nofun, rfl,
    fun _ => rfl, Iff.intro (fun _ => rfl) (fun _ => rfl)⟩
  · intro t
    cases t <;> exact ⟨nofun, nofun⟩
  · intro t
    cases t <;> exact ⟨nofun, nofun⟩

theorem Sound.races (h : s.Sound) : Races s.st.base s.disp.senders s.disp.wins s.handler.wins :=
  { h with }

theorem Sound.of_races (hmu : s.st.base.mu.Owned s.mode)
    (h : Races s.st.base s.disp.senders s.disp.wins s.handler.wins)
    (hsend : s.disp.wins.send + s.handler.wins.send ≤ s.st.sendClosed.toNat)
    (hfound : s.found ≠ none → s.disp = .idle)
    (hstarted : s.handler = .notStarted ↔ s.st.headersReceived = false) : s.Sound :=
  { h with mu := hmu, send := hsend, found := hfound, started := hstarted }

theorem recv_le (h : s.Sound) :
    s.disp.wins.recv + s.handler.wins.recv + s.st.base.msgCh.closed.toNat ≤ 1 :=
  h.races.recv_le

variable {st : ServerStream} {disp : DispatcherPc} {handler : HandlerPc}

theorem Sound.handle (h : s.Sound) (hs : HandleStep kind s.st s.handler a st handler) :
    Sound { s with st, handler } := by
  have hmode : mode { s with st, handler } = Function.update s.mode .handler handler.mode := by
    funext t
    cases t <;> simp [mode]
  obtain ⟨hbase, hsend⟩ := hs.race
  apply Sound.of_races
  · rw [hmode]
    exact h.mu.step hs.lockStep
  · exact h.races.step_others hbase hs.baseMove.activeSenders (Nat.le_refl _) (Nat.le_refl _)
      (Nat.add_comm _ _) (Nat.add_comm _ _) (Nat.add_comm _ _)
  · have := h.send
    dsimp only
    omega
  · exact h.found
  · dsimp only
    rw [hs.headersReceived, ← h.started]
    exact iff_of_false hs.started.2 hs.started.1

theorem Sound.dispatch (h : s.Sound) (hs : DispatchStep s.st s.disp a st disp) :
    Sound { s with st, disp } := by
  have hmode : mode { s with st, disp } = Function.update s.mode .dispatcher disp.mode := by
    funext t
    cases t <;> simp [mode]
  obtain ⟨hbase, hsend⟩ := hs.race fun hsending => (h.sending hsending).1
  apply Sound.of_races
  · rw [hmode]
    exact h.mu.step hs.lockStep
  · apply h.races.step_own hbase (hs.activeSenders h.senders)
    intro hsending
    obtain ⟨_, hrecv, hbase'⟩ := hs.sending hsending
    obtain ⟨hopen, hzero⟩ := h.races.of_open hrecv
    have hready := s.handler.ready_le
    rw [hbase']
    exact ⟨hopen, by omega⟩
  · have := h.send
    dsimp only
    omega
  · intro hne
    rw [h.found hne] at hs
    cases hs
  · dsimp only
    rw [hs.headersReceived]
    exact h.started

theorem handlerAfter_free (h : s.Sound) (hs : RequestStep s.st outcome t st disp) :
    (s.handlerAfter st).mode = s.handler.mode ∧ (s.handlerAfter st).wins = s.handler.wins ∧
      (s.handlerAfter st = .notStarted ↔ st.headersReceived = false) := by
  unfold handlerAfter
  cases hr : s.st.headersReceived with
  | false =>
    have hn := h.started.2 hr
    cases hr' : st.headersReceived with
    | false => exact ⟨rfl, rfl, Iff.intro (fun _ => rfl) (fun _ => hn)⟩
    | true => exact ⟨by rw [hn]; rfl, by rw [hn]; rfl, ⟨nofun, nofun⟩⟩
  | true =>
    have hn : s.handler ≠ .notStarted := fun hn => by simp [h.started.1 hn] at hr
    rw [hs.headersReceived hr]
    exact ⟨rfl, rfl, ⟨fun he => (hn he).elim, nofun⟩⟩

theorem Sound.enter (h : s.Sound) (ht : s.found = some t)
    (hs : RequestStep s.st outcome t st disp) :
    Sound { s with st, disp, found := none, handler := s.handlerAfter st } := by
  have hidle : s.disp = .idle := h.found (by rw [ht]; nofun)
  obtain ⟨buf, hbuf⟩ := hs.base
  obtain ⟨hwins, hsendClosed⟩ := hs.wins
  obtain ⟨hdmode, hdsenders⟩ := hs.mode
  obtain ⟨hmode', hwins', hstarted⟩ := handlerAfter_free h hs
  have hmode : mode { s with st, disp, found := none, handler := s.handlerAfter st } = s.mode := by
    funext t
    cases t with
    | dispatcher => exact hdmode.trans (by rw [mode, hidle]; rfl)
    | handler => exact hmode'
    | reader => rfl
  have hrecv := h.recv
  have hclose := h.close
  have hsend := h.send
  rw [hidle] at hrecv hclose hsend
  refine ⟨?_, ?_, ?_, ?_, ?_, ?_, ?_, nofun, hstarted⟩
  · simp only [hmode, hbuf]
    exact h.mu
  · simp only [hbuf, hdsenders]
    exact h.senders.trans (by rw [hidle]; rfl)
  · simp only [hbuf, hwins, hwins']
    exact hrecv
  · simp only [hbuf, hwins, hwins']
    exact hclose
  · simp only [hsendClosed, hwins, hwins']
    exact hsend
  · simp [hdsenders]
  · simp only [hbuf]
    exact h.panicked

theorem Sound.step (h : s.Sound) (hs : ServerStep kind s a s') : s'.Sound := by
  cases hs with
  | lookup hidle => exact { h with found := fun _ => hidle }
  | enter ht hr => exact { h.enter ht hr with }
  | dispatch hd => exact { h.dispatch hd with }
  | call hh | returns hh | handle hh => exact { h.handle hh with }
  | read _ hr =>
    apply Sound.of_races
    · simp only [hr.mu.1]
      exact h.mu
    · exact h.races.step_others (hr.race {}) hr.mu.2 (Nat.zero_le _) (Nat.zero_le _) rfl rfl rfl
    · exact h.send
    · exact h.found
    · exact h.started
  | discard | ctxDone | chanDown | chanClose => exact { h with }

theorem sound (h : (serverMachine kind).ReachableWith ok s) : s.Sound :=
  h.invariant (fun _ => .init) fun _ _ _ hI _ hs => hI.step (serverStep_step hs)

end ServerState

end Goutils.Rpc
