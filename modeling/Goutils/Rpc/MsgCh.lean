import Goutils.Rpc.ClientSend

namespace Goutils.Rpc
open Lib
open Lib.Wire (Bytes)
set_option autoImplicit true

inductive StreamGoroutine where
  | dispatcher
  | reader
  | closer (i : Nat)
  deriving DecidableEq

/-- The ways to close a stream, or its receive direction, under the stream's mutex. -/
inductive ClosePath where
  | close
  | closeRecv
  | resetStream (writeErr : Option GoErr)
  | trailers (err : Option GoErr)
  | closeWithSendError
  | write (err : GoErr) (shared : Bool)
  deriving DecidableEq

namespace ClosePath

def mode : ClosePath → LockMode
  | .write _ true => .read
  | _ => .write

def err : ClosePath → Option GoErr
  | .resetStream writeErr => checkWriteErrForStreamClose writeErr
  | .trailers err => err
  | .write err _ => some err
  | _ => none

def expected : ClosePath → Bool
  | .trailers err => err.isNone
  | _ => false

end ClosePath

inductive PathPc where
  | lock
  | cancel
  | recv (pc : CloseRecvPc)
  | closing (pc : ClosePc)
  | ret
  deriving DecidableEq

def ClosePath.entry : ClosePath → PathPc
  | .close => .cancel
  | .closeRecv => .recv .cas
  | _ => .closing .cas

def closePath (me : StreamGoroutine) (path : ClosePath) (b : BaseStream StreamGoroutine) :
    PathPc → Option (BaseStream StreamGoroutine × PathPc)
  | .lock =>
    if path.mode = .read then
      if b.mu.canRLock then some ({ b with mu := b.mu.rlock me }, path.entry) else none
    else if b.mu.canLock then some ({ b with mu := b.mu.lock me }, path.entry) else none
  | .cancel => some ({ b with ctx := b.ctx.or (some .canceled) }, .closing .cas)
  | .recv .ret => some ({ b with mu := b.mu.release me path.mode }, .ret)
  | .recv pc => (closeRecv b pc).map fun (b', pc') => (b', .recv pc')
  | .closing .ret => some ({ b with mu := b.mu.release me path.mode }, .ret)
  | .closing pc =>
    (closeWithError path.err path.expected b pc).map fun (b', pc') => (b', .closing pc')
  | .ret => none

/-- Where the dispatcher stands; a protocol violation closes without the mutex. -/
inductive DispatchPc where
  | idle
  | lock (data : Bytes)
  | check (data : Bytes)
  | refused
  | add (data : Bytes)
  | unlock (data : Bytes)
  | select (data : Bytes)
  | done
  | violation (e : GoErr) (pc : ClosePc)
  | path (path : ClosePath) (pc : PathPc)
  deriving DecidableEq

inductive DispatchMsgAct where
  | packet (p : PacketMessage)
  | violation (e : GoErr)
  | path (path : ClosePath)
  | step
  | send
  | ctxDone
  deriving DecidableEq

def DispatchPc.ofPacket : Option Bytes → DispatchPc
  | none => .idle
  | some data => .lock data

def dispatchMsg (b : BaseStream StreamGoroutine) :
    DispatchPc → DispatchMsgAct → Option (BaseStream StreamGoroutine × DispatchPc)
  | .idle, .packet p =>
    let (buf, data) := processPacket b.packetBuf p
    some ({ b with packetBuf := buf }, .ofPacket data)
  | .idle, .violation e => some (b, .violation e .cas)
  | .idle, .path path => some (b, .path path .lock)
  | .lock data, .step =>
    if b.mu.canLock then some ({ b with mu := b.mu.lock .dispatcher }, .check data) else none
  | .check data, .step => some (b, if b.recvClosed then .refused else .add data)
  | .refused, .step => some ({ b with mu := b.mu.unlock }, .idle)
  | .add data, .step => some ({ b with activeSenders := b.activeSenders + 1 }, .unlock data)
  | .unlock data, .step => some ({ b with mu := b.mu.unlock }, .select data)
  | .select data, .send =>
    if b.msgCh.canSend then some ({ b with msgCh := b.msgCh.send data }, .done) else none
  | .select _, .ctxDone => if b.ctx.isSome then some (b, .done) else none
  | .done, .step => some ({ b with activeSenders := b.activeSenders - 1 }, .idle)
  | .violation _ .ret, .step => some (b, .idle)
  | .violation e pc, .step =>
    (closeWithError (some e) false b pc).map fun (b', pc') => (b', .violation e pc')
  | .path _ .ret, .step => some (b, .idle)
  | .path path pc, .step =>
    (closePath .dispatcher path b pc).map fun (b', pc') => (b', .path path pc')
  | _, _ => none

structure StreamCloser where
  path : ClosePath
  pc : PathPc := .lock

/-- A stream with its goroutines, and what `RecvMsg` has returned so far. -/
structure MsgChState where
  base : BaseStream StreamGoroutine := {}
  disp : DispatchPc := .idle
  reader : RecvPc := .idle
  closers : List StreamCloser := []
  results : List RecvResult := []

inductive MsgChAct where
  | dispatch (a : DispatchMsgAct)
  | read (a : RecvAct)
  | start (path : ClosePath)
  | closer (i : Nat)
  | ctxDone (e : CtxErr)

def msgChStep (s : MsgChState) : MsgChAct → Option MsgChState
  | .dispatch a => (dispatchMsg s.base s.disp a).map fun (base, disp) => { s with base, disp }
  | .read a =>
    (recvMsg s.base s.reader a).map fun (base, reader, r) =>
      { s with base, reader, results := s.results ++ r.toList }
  | .start path => some { s with closers := s.closers ++ [{ path }] }
  | .closer i =>
    s.closers[i]?.bind fun cl =>
      (closePath (.closer i) cl.path s.base cl.pc).map fun (base, pc) =>
        { s with base, closers := s.closers.set i { cl with pc } }
  | .ctxDone e => some { s with base := { s.base with ctx := s.base.ctx.or (some e) } }

def msgChMachine : Machine MsgChState MsgChAct where
  init s := s = {}
  step := msgChStep

inductive ClosePathStep (me : StreamGoroutine) (path : ClosePath) (b : BaseStream StreamGoroutine) :
    PathPc → BaseStream StreamGoroutine → PathPc → Prop where
  | rlock : path.mode = .read → b.mu.canRLock = true →
      ClosePathStep me path b .lock { b with mu := b.mu.rlock me } path.entry
  | lock : path.mode = .write → b.mu.canLock = true →
      ClosePathStep me path b .lock { b with mu := b.mu.lock me } path.entry
  | cancel : ClosePathStep me path b .cancel { b with ctx := b.ctx.or (some .canceled) }
      (.closing .cas)
  | recv : CloseRecvStep b pc b' pc' → ClosePathStep me path b (.recv pc) b' (.recv pc')
  | received : ClosePathStep me path b (.recv .ret)
      { b with mu := b.mu.release me path.mode } .ret
  | closing : CloseStep path.err path.expected b pc b' pc' →
      ClosePathStep me path b (.closing pc) b' (.closing pc')
  | closed : ClosePathStep me path b (.closing .ret)
      { b with mu := b.mu.release me path.mode } .ret

theorem ClosePath.mode_eq (path : ClosePath) : path.mode = .read ∨ path.mode = .write := by
  unfold mode
  split
  · exact .inl rfl
  · exact .inr rfl

theorem closePath_step {b b' : BaseStream StreamGoroutine}
    (h : closePath me path b pc = some (b', pc')) : ClosePathStep me path b pc b' pc' := by
  unfold closePath at h
  split at h
  · split at h
    · split at h <;> cases h
      exact .rlock ‹_› ‹_›
    · rename_i hmode
      split at h <;> cases h
      exact .lock (path.mode_eq.resolve_left hmode) ‹_›
  · cases h
    exact .cancel
  · cases h
    exact .received
  · obtain ⟨⟨b₁, pc₁⟩, hr, he⟩ := Option.map_eq_some_iff.1 h
    cases he
    exact .recv (closeRecv_step hr)
  · cases h
    exact .closed
  · obtain ⟨⟨b₁, pc₁⟩, hc, he⟩ := Option.map_eq_some_iff.1 h
    cases he
    exact .closing (closeWithError_step hc)
  · cases h

inductive DispatchMsgStep (b : BaseStream StreamGoroutine) :
    DispatchPc → DispatchMsgAct → BaseStream StreamGoroutine → DispatchPc → Prop where
  | packet : DispatchMsgStep b .idle (.packet p) { b with packetBuf := buf } (.ofPacket data)
  | violates : DispatchMsgStep b .idle (.violation e) b (.violation e .cas)
  | start : DispatchMsgStep b .idle (.path path) b (.path path .lock)
  | lock : b.mu.canLock = true →
      DispatchMsgStep b (.lock data) .step { b with mu := b.mu.lock .dispatcher } (.check data)
  | refuse : b.recvClosed = true → DispatchMsgStep b (.check data) .step b .refused
  | check : b.recvClosed = false → DispatchMsgStep b (.check data) .step b (.add data)
  | refused : DispatchMsgStep b .refused .step { b with mu := b.mu.unlock } .idle
  | add : DispatchMsgStep b (.add data) .step { b with activeSenders := b.activeSenders + 1 }
      (.unlock data)
  | unlock : DispatchMsgStep b (.unlock data) .step { b with mu := b.mu.unlock } (.select data)
  | send : b.msgCh.canSend = true →
      DispatchMsgStep b (.select data) .send { b with msgCh := b.msgCh.send data } .done
  | ctxDone : b.ctx.isSome = true → DispatchMsgStep b (.select data) .ctxDone b .done
  | done : DispatchMsgStep b .done .step { b with activeSenders := b.activeSenders - 1 } .idle
  | violated : DispatchMsgStep b (.violation e .ret) .step b .idle
  | violation : CloseStep (some e) false b pc b' pc' →
      DispatchMsgStep b (.violation e pc) .step b' (.violation e pc')
  | finished : DispatchMsgStep b (.path path .ret) .step b .idle
  | path : ClosePathStep .dispatcher path b pc b' pc' →
      DispatchMsgStep b (.path path pc) .step b' (.path path pc')

theorem dispatchMsg_step {b b' : BaseStream StreamGoroutine}
    (h : dispatchMsg b pc a = some (b', pc')) : DispatchMsgStep b pc a b' pc' := by
  unfold dispatchMsg at h
  split at h
  · cases h
    exact .packet
  · cases h
    exact .violates
  · cases h
    exact .start
  · split at h <;> cases h
    exact .lock ‹_›
  · simp only [Option.some.injEq, Prod.mk.injEq] at h
    obtain ⟨rfl, rfl⟩ := h
    split
    · exact .refuse ‹_›
    · exact .check (Bool.eq_false_of_not_eq_true ‹_›)
  · cases h
    exact .refused
  · cases h
    exact .add
  · cases h
    exact .unlock
  · split at h <;> cases h
    exact .send ‹_›
  · split at h <;> cases h
    exact .ctxDone ‹_›
  · cases h
    exact .done
  · cases h
    exact .violated
  · obtain ⟨⟨b₁, pc₁⟩, hc, he⟩ := Option.map_eq_some_iff.1 h
    cases he
    exact .violation (closeWithError_step hc)
  · cases h
    exact .finished
  · obtain ⟨⟨b₁, pc₁⟩, hc, he⟩ := Option.map_eq_some_iff.1 h
    cases he
    exact .path (closePath_step hc)
  · cases h

inductive MsgChStep (s : MsgChState) : MsgChAct → MsgChState → Prop where
  | dispatch : DispatchMsgStep s.base s.disp a base disp →
      MsgChStep s (.dispatch a) { s with base, disp }
  | read : RecvStep s.base s.reader a base reader r →
      MsgChStep s (.read a) { s with base, reader, results := s.results ++ r.toList }
  | start : MsgChStep s (.start path) { s with closers := s.closers ++ [{ path }] }
  | closer : s.closers[i]? = some cl → ClosePathStep (.closer i) cl.path s.base cl.pc base pc →
      MsgChStep s (.closer i) { s with base, closers := s.closers.set i { cl with pc } }
  | ctxDone : MsgChStep s (.ctxDone e)
      { s with base := { s.base with ctx := s.base.ctx.or (some e) } }

theorem msgChStep_step (h : msgChStep s a = some s') : MsgChStep s a s' := by
  cases a with
  | dispatch a =>
    obtain ⟨⟨base, disp⟩, hd, rfl⟩ := Option.map_eq_some_iff.1 h
    exact .dispatch (dispatchMsg_step hd)
  | read a =>
    obtain ⟨⟨base, reader, r⟩, hr, rfl⟩ := Option.map_eq_some_iff.1 h
    exact .read (recvMsg_step hr)
  | start path =>
    cases h
    exact .start
  | closer i =>
    obtain ⟨cl, hcl, h⟩ := Option.bind_eq_some_iff.1 h
    obtain ⟨⟨base, pc⟩, hc, rfl⟩ := Option.map_eq_some_iff.1 h
    exact .closer hcl (closePath_step hc)
  | ctxDone e =>
    cases h
    exact .ctxDone

def PathPc.mode (path : ClosePath) : PathPc → LockMode
  | .lock | .ret => .free
  | _ => path.mode

def PathPc.wins : PathPc → Wins
  | .recv pc | .closing pc => pc.wins
  | _ => {}

theorem ClosePath.entry_mode (path : ClosePath) : path.entry.mode path = path.mode := by
  cases path <;> rfl

theorem ClosePath.entry_wins (path : ClosePath) : path.entry.wins = {} := by
  cases path <;> rfl

theorem PathPc.ready_le (pc : PathPc) : pc.wins.ready ≤ pc.wins.recv := by
  cases pc with
  | recv pc | closing pc => exact pc.ready_le
  | _ => exact Nat.le_refl _

namespace ClosePathStep

variable {b b' : BaseStream StreamGoroutine} {me : StreamGoroutine} {path : ClosePath}
  {pc pc' : PathPc} (h : ClosePathStep me path b pc b' pc')

include h

theorem lockStep : LockStep me b.mu (pc.mode path) b'.mu (pc'.mode path) := by
  cases h with
  | rlock hmode hcan =>
    rw [path.entry_mode, hmode]
    exact .rlock hcan
  | lock hmode hcan =>
    rw [path.entry_mode, hmode]
    exact .lock hcan
  | cancel => exact .keep
  | recv h | closing h =>
    rw [h.mu.1]
    exact .keep
  | received | closed => exact .release

theorem race : RaceStep b b' pc.wins pc'.wins ∧ b'.activeSenders = b.activeSenders := by
  cases h with
  | rlock | lock =>
    rw [path.entry_wins]
    exact ⟨⟨fun _ => rfl, fun _ hk hc => ⟨hk, hc⟩, rfl, fun _ => rfl⟩, rfl⟩
  | recv h =>
    have hrace := h.race 0
    rw [CloseRecvPc.wins_close, CloseRecvPc.wins_close] at hrace
    exact ⟨hrace, h.mu.2⟩
  | closing h => exact ⟨h.race, h.mu.2⟩
  | _ => exact ⟨⟨fun _ => rfl, fun _ hk hc => ⟨hk, hc⟩, rfl, fun _ => rfl⟩, rfl⟩

theorem msgCh : b'.msgCh = b.msgCh ∨ b'.msgCh = b.msgCh.close := by
  cases h with
  | recv h | closing h => exact h.msgCh
  | _ => exact .inl rfl

theorem recvClosed (hfree : pc.mode path = .free) : b'.recvClosed = b.recvClosed := by
  have hmode : path.mode ≠ .free := by
    obtain hp | hp := path.mode_eq <;> rw [hp] <;> decide
  cases h with
  | recv | closing => exact absurd hfree hmode
  | _ => rfl

end ClosePathStep

namespace DispatchPc

def mode : DispatchPc → LockMode
  | .check _ | .refused | .add _ | .unlock _ => .write
  | .path p pc => pc.mode p
  | _ => .free

def wins : DispatchPc → Wins
  | .violation _ pc | .path _ pc => pc.wins
  | _ => {}

def senders : DispatchPc → Nat
  | .unlock _ | .select _ | .done => 1
  | _ => 0

theorem ofPacket_free (data : Option Bytes) :
    (ofPacket data).mode = .free ∧ (ofPacket data).wins = {} ∧ (ofPacket data).senders = 0 := by
  cases data <;> exact ⟨rfl, rfl, rfl⟩

end DispatchPc

namespace DispatchMsgStep

variable {b b' : BaseStream StreamGoroutine} {pc pc' : DispatchPc} {a : DispatchMsgAct}
  (h : DispatchMsgStep b pc a b' pc')

include h

theorem lockStep : LockStep .dispatcher b.mu pc.mode b'.mu pc'.mode := by
  cases h with
  | packet =>
    rw [(DispatchPc.ofPacket_free _).1]
    exact .keep
  | lock hcan => exact .lock hcan
  | refused | unlock => exact .unlock
  | violation h =>
    rw [h.mu.1]
    exact .keep
  | path h => exact h.lockStep
  | _ => exact .keep

theorem race (hopen : pc.senders = 1 → b.msgCh.closed = false) :
    RaceStep b b' pc.wins pc'.wins := by
  cases h with
  | packet =>
    rw [(DispatchPc.ofPacket_free _).2.1]
    exact ⟨fun _ => rfl, fun _ hk hc => ⟨hk, hc⟩, rfl, fun _ => rfl⟩
  | send =>
    rw [Chan.send_open (hopen rfl)]
    exact ⟨fun _ => rfl, fun _ hk hc => ⟨hk, hc⟩, rfl, fun _ => rfl⟩
  | violation h => exact h.race
  | path h => exact h.race.1
  | _ => exact ⟨fun _ => rfl, fun _ hk hc => ⟨hk, hc⟩, rfl, fun _ => rfl⟩

theorem activeSenders (hs : b.activeSenders = pc.senders) : b'.activeSenders = pc'.senders := by
  cases h with
  | packet =>
    rw [(DispatchPc.ofPacket_free _).2.2]
    exact hs
  | add => exact congrArg (· + 1) hs
  | done => exact congrArg (· - 1) hs
  | violation h => exact h.mu.2.trans hs
  | path h => exact h.race.2.trans hs
  | _ => exact hs

theorem sending (hs : pc'.senders = 1) :
    (pc.senders = 1 ∨ ∃ data, pc = .add data) ∧ b'.msgCh.closed = b.msgCh.closed := by
  cases h with
  | packet =>
    rw [(DispatchPc.ofPacket_free _).2.2] at hs
    cases hs
  | add => exact ⟨.inr ⟨_, rfl⟩, rfl⟩
  | unlock | ctxDone => exact ⟨.inl rfl, rfl⟩
  | send => exact ⟨.inl rfl, Chan.send_closed _ _⟩
  | _ => cases hs

theorem msgCh : b'.msgCh = b.msgCh ∨ b'.msgCh = b.msgCh.close ∨
    ∃ data, pc = .select data ∧ b'.msgCh = b.msgCh.send data := by
  cases h with
  | send => exact .inr (.inr ⟨_, rfl, rfl⟩)
  | violation h | path h => exact h.msgCh.imp id .inl
  | _ => exact .inl rfl

theorem adding (hpc : pc' = .add data) : b'.recvClosed = false := by
  cases h with
  | packet =>
    rename_i data
    cases data <;> cases hpc
  | check hr => exact hr
  | _ => cases hpc

end DispatchMsgStep

namespace MsgChState

def mode (s : MsgChState) : StreamGoroutine → LockMode
  | .dispatcher => s.disp.mode
  | .reader => .free
  | .closer i => (s.closers[i]?.map fun cl => cl.pc.mode cl.path).getD .free

def others (s : MsgChState) : Wins where
  recv := (s.closers.map fun cl => cl.pc.wins.recv).sum
  ready := (s.closers.map fun cl => cl.pc.wins.ready).sum
  close := (s.closers.map fun cl => cl.pc.wins.close).sum

end MsgChState

def RecvResult.data : RecvResult → Option Bytes
  | .msg data => some data
  | _ => none

def received (results : List RecvResult) : List Bytes := results.filterMap RecvResult.data

def RecvPc.Emptied (c : Chan Bytes) : RecvPc → Prop
  | .checkLast none | .lock _ => c.closed = true ∧ c.buf = []
  | _ => True

/-- Every message that was sent has been returned or waits in the buffer, in order. -/
structure Receiving (c : Chan Bytes) (pc : RecvPc) (results : List RecvResult) : Prop where
  emptied : pc.Emptied c
  sent : c.sent = received results ++ c.buf

namespace Receiving

theorem close {c : Chan Bytes} (h : Receiving c pc results) : Receiving c.close pc results := by
  constructor
  · cases pc with
    | checkLast o =>
      cases o with
      | none => exact ⟨Chan.close_closed c, (Chan.close_buf c).trans h.emptied.2⟩
      | some e => trivial
    | lock o => exact ⟨Chan.close_closed c, (Chan.close_buf c).trans h.emptied.2⟩
    | _ => trivial
  · rw [Chan.close_sent, Chan.close_buf, h.sent]

theorem send {c : Chan Bytes} (h : Receiving c pc results) (hopen : c.closed = false)
    (data : Bytes) : Receiving (c.send data) pc results := by
  have hne : ∀ {p : Prop}, c.closed = true ∧ c.buf = [] → p := by
    intro p hc
    rw [hopen] at hc
    cases hc.1
  constructor
  · cases pc with
    | checkLast o =>
      cases o with
      | none => exact hne h.emptied
      | some e => trivial
    | lock o => exact hne h.emptied
    | _ => trivial
  · rw [Chan.send_open hopen, ← List.append_assoc, ← h.sent]

theorem pop {c : Chan Bytes} (h : Receiving c pc results) (hbuf : c.buf = m :: rest) :
    Receiving c.pop .idle (results ++ [.msg m]) := by
  constructor
  · trivial
  · have hsent := h.sent
    rw [hbuf] at hsent
    simp [Chan.pop, received, hbuf, hsent, RecvResult.data]

theorem none {c : Chan Bytes} (h : Receiving c pc results) (hpc : pc'.Emptied c)
    (hr : ∀ x ∈ r, RecvResult.data x = Option.none) : Receiving c pc' (results ++ r) := by
  constructor
  · exact hpc
  · have hnil : r.filterMap RecvResult.data = [] := List.filterMap_eq_nil_iff.2 hr
    rw [h.sent, received, received, List.filterMap_append, hnil, List.append_nil]

theorem read {b b' : BaseStream τ} (h : Receiving b.msgCh pc results)
    (hs : RecvStep b pc a b' pc' r) : Receiving b'.msgCh pc' (results ++ r.toList) := by
  cases hs with
  | recv hbuf | last hbuf => exact h.pop hbuf
  | recvClosed hbuf hc | lastClosed hbuf hc => exact h.none ⟨hc, hbuf⟩ (by simp)
  | lastNil hbuf =>
    have hempty := h.emptied.2
    rw [hbuf] at hempty
    cases hempty
  | @empty origErr hbuf hc =>
    have hidle : RecvPc.idle.Emptied b.msgCh := trivial
    apply h.none hidle
    cases origErr with
    | none | some e => simp [RecvResult.data]
  | lock hm => exact h.none trivial (by simp [RecvResult.data])
  | call | stop | ctxDone => exact h.none trivial (by simp)

theorem next {b b' : BaseStream τ} (h : Receiving b.msgCh pc results)
    (hs : RecvStep b pc a b' pc' r) (hbuf : b.msgCh.buf = m :: rest) :
    b'.msgCh.buf = m :: rest ∧ r = Option.none ∨ r = some (.msg m) := by
  cases hs with
  | call | stop | ctxDone => exact .inl ⟨hbuf, rfl⟩
  | recv hb | last hb =>
    rw [hbuf] at hb
    cases hb
    exact .inr rfl
  | lastNil | lock =>
    have hempty := h.emptied.2
    rw [hbuf] at hempty
    cases hempty
  | recvClosed hb | lastClosed hb | empty hb =>
    rw [hbuf] at hb
    cases hb

end Receiving

namespace MsgChState

/-- What holds of every stream: at `add` the dispatcher has the mutex. -/
structure Sound (s : MsgChState) : Prop where
  mu : s.base.mu.Owned s.mode
  races : Races s.base s.disp.senders s.disp.wins s.others
  adding : ∀ data, s.disp = .add data → s.base.recvClosed = false
  reading : Receiving s.base.msgCh s.reader s.results

theorem Sound.init : Sound {} where
  mu := by
    refine ⟨?_, ?_, List.nodup_nil, .inl rfl⟩
    · intro t
      cases t <;> simp [mode, DispatchPc.mode]
    · intro t
      cases t <;> simp [mode, DispatchPc.mode]
  races := ⟨rfl, rfl, rfl, (by intro h; cases h), rfl⟩
  adding := by
    intro data h
    cases h
  reading := ⟨trivial, rfl⟩

variable {s s' : MsgChState}

theorem Sound.dispatch (h : s.Sound) (hs : DispatchMsgStep s.base s.disp a base' disp') :
    Sound { s with base := base', disp := disp' } := by
  have hopen : s.disp.senders = 1 → s.base.msgCh.closed = false :=
    fun hsending => (h.races.sending hsending).1
  have hready : s.others.ready ≤ s.others.recv := List.sum_le_sum fun cl _ => cl.pc.ready_le
  constructor
  · have hmode : mode { s with base := base', disp := disp' } =
        Function.update s.mode .dispatcher disp'.mode := by
      funext t
      cases t <;> simp [mode]
    rw [hmode]
    exact h.mu.step hs.lockStep
  · apply h.races.step_own (hs.race hopen) (hs.activeSenders h.races.senders)
    intro hsending
    obtain ⟨hbefore, hclosed⟩ := hs.sending hsending
    rw [hclosed]
    obtain hbefore | ⟨data, hadd⟩ := hbefore
    · exact h.races.sending hbefore
    · obtain ⟨hc, hr⟩ := h.races.of_open (h.adding data hadd)
      exact ⟨hc, by omega⟩
  · intro data hadd
    exact hs.adding hadd
  · obtain hc | hc | ⟨data, hsel, hc⟩ := hs.msgCh
    · rw [hc]
      exact h.reading
    · rw [hc]
      exact h.reading.close
    · rw [hc]
      exact h.reading.send (hopen (by rw [hsel]; rfl)) data

theorem Sound.closer (h : s.Sound) (hcl : s.closers[i]? = some cl)
    (hs : ClosePathStep (.closer i) cl.path s.base cl.pc base' pc) :
    Sound { s with base := base', closers := s.closers.set i { cl with pc } } := by
  obtain ⟨hrace, hsenders⟩ := hs.race
  have hle : ∀ f : Wins → Nat, f cl.pc.wins ≤ (s.closers.map fun cl => f cl.pc.wins).sum :=
    fun f => List.single_le_sum (fun _ _ => Nat.zero_le _) _
      (List.mem_map.2 ⟨cl, List.mem_of_getElem? hcl, rfl⟩)
  have hmove : ∀ f : Wins → Nat, ((s.closers.set i { cl with pc }).map fun cl => f cl.pc.wins).sum +
      f cl.pc.wins = (s.closers.map fun cl => f cl.pc.wins).sum + f pc.wins :=
    fun f => sum_move hcl { cl with pc } fun cl => f cl.pc.wins
  have hmode : s.mode (.closer i) = cl.pc.mode cl.path := by
    simp [mode, hcl]
  constructor
  · have hupd : mode { s with base := base', closers := s.closers.set i { cl with pc } } =
        Function.update s.mode (.closer i) (pc.mode cl.path) := by
      have hi := (List.getElem?_eq_some_iff.1 hcl).1
      funext t
      cases t with
      | closer j =>
        by_cases hj : j = i
        · subst hj
          simp [mode, hi]
        · simp [mode, hj, Ne.symm hj]
      | _ => simp [mode]
    rw [hupd]
    apply h.mu.step
    rw [hmode]
    exact hs.lockStep
  · exact h.races.step_others hrace hsenders (hle Wins.recv) (hle Wins.ready) (hmove Wins.recv)
      (hmove Wins.ready) (hmove Wins.close)
  · intro data hadd
    have hwriter : s.base.mu.writer = some .dispatcher := by
      rw [h.mu.writer, mode, hadd]
      rfl
    have hfree : cl.pc.mode cl.path = .free := by
      cases hk : cl.pc.mode cl.path with
      | free => rfl
      | write =>
        rw [← hmode, ← h.mu.writer, hwriter] at hk
        cases hk
      | read =>
        rw [← hmode, ← h.mu.readers] at hk
        have hnil := h.mu.excl.resolve_left (by rw [hwriter]; exact Option.some_ne_none _)
        rw [hnil] at hk
        cases hk
    rw [hs.recvClosed hfree]
    exact h.adding data hadd
  · obtain hc | hc := hs.msgCh
    · rw [hc]
      exact h.reading
    · rw [hc]
      exact h.reading.close

theorem Sound.read (h : s.Sound) (hs : RecvStep s.base s.reader a base' reader' r) :
    Sound { s with base := base', reader := reader', results := s.results ++ r.toList } := by
  have hrecv : base'.msgCh.closed = s.base.msgCh.closed ∧
      base'.recvClosed = s.base.recvClosed := by
    obtain rfl | rfl := hs.base <;> exact ⟨rfl, rfl⟩
  constructor
  · have hmode : mode { s with
        base := base', reader := reader', results := s.results ++ r.toList } = s.mode := by
      funext t
      cases t <;> rfl
    rw [hmode, hs.mu.1]
    exact h.mu
  · apply h.races.step_own (hs.race _) (hs.mu.2.trans h.races.senders)
    rw [hrecv.1]
    exact h.races.sending
  · rw [hrecv.2]
    exact h.adding
  · exact h.reading.read hs

theorem Sound.start (h : s.Sound) (path : ClosePath) :
    Sound { s with closers := s.closers ++ [{ path }] } := by
  constructor
  · have hmode : mode { s with closers := s.closers ++ [{ path }] } = s.mode := by
      funext t
      cases t with
      | closer i =>
        simp only [mode, List.getElem?_append]
        split
        · rfl
        · rename_i hi
          rw [List.getElem?_eq_none (Nat.le_of_not_lt hi)]
          cases i - s.closers.length <;> simp [PathPc.mode]
      | _ => rfl
    rw [hmode]
    exact h.mu
  · have hothers : others { s with closers := s.closers ++ [{ path }] } = s.others := by
      simp [others, PathPc.wins]
    rw [hothers]
    exact h.races
  · exact h.adding
  · exact h.reading

theorem Sound.step (h : s.Sound) (hs : MsgChStep s a s') : s'.Sound := by
  cases hs with
  | dispatch hd => exact h.dispatch hd
  | read hr => exact h.read hr
  | start => exact h.start _
  | closer hcl hc => exact h.closer hcl hc
  | ctxDone =>
    exact { h with
      races := ⟨h.races.senders, h.races.recv, h.races.close, h.races.sending, h.races.panicked⟩ }

theorem sound (h : msgChMachine.Reachable s) : s.Sound := by
  refine h.invariant ?_ fun _ _ _ hI hs => hI.step (msgChStep_step hs)
  rintro s rfl
  exact .init

def ReaderOnly (_ : MsgChState) (a : MsgChAct) : Prop := ∃ r, a = .read r

theorem Sound.canRead (h : s.Sound) (hbuf : s.base.msgCh.buf = m :: rest)
    (hreader : s.reader ≠ .stopped) :
    msgChMachine.CanReach ReaderOnly (fun s' => s'.results = s.results ++ [.msg m]) s := by
  have hselect : ∀ {t : MsgChState}, t.base = s.base → t.reader = .select →
      t.results = s.results →
      msgChMachine.CanReach ReaderOnly (fun s' => s'.results = s.results ++ [.msg m]) t := by
    intro t hb hr hres
    have hstep : msgChMachine.step t (.read .recv) = some { t with
        base := { t.base with msgCh := t.base.msgCh.pop }
        reader := .idle
        results := t.results ++ [.msg m] } := by
      simp [msgChMachine, msgChStep, recvMsg, hr, hb, hbuf]
    exact (Machine.CanReach.refl (by rw [hres])).head ⟨_, rfl⟩ hstep
  cases hpc : s.reader with
  | idle =>
    have hstep : msgChMachine.step s (.read .call) = some { s with reader := .select } := by
      simp [msgChMachine, msgChStep, recvMsg, hpc]
    have hnext := hselect (t := { s with reader := .select }) rfl rfl rfl
    exact hnext.head ⟨_, rfl⟩ hstep
  | select => exact hselect rfl hpc rfl
  | checkLast origErr =>
    have hemptied := h.reading.emptied
    rw [hpc] at hemptied
    cases origErr with
    | none =>
      have hempty := hemptied.2
      rw [hbuf] at hempty
      cases hempty
    | some e =>
      have hstep : msgChMachine.step s (.read .proceed) = some { s with
          base := { s.base with msgCh := s.base.msgCh.pop }
          reader := .idle
          results := s.results ++ [.msg m] } := by
        simp [msgChMachine, msgChStep, recvMsg, hpc, hbuf]
      apply Machine.CanReach.head _ ⟨_, rfl⟩ hstep
      exact Machine.CanReach.refl rfl
  | lock origErr =>
    have hemptied := h.reading.emptied
    rw [hpc] at hemptied
    have hempty := hemptied.2
    rw [hbuf] at hempty
    cases hempty
  | stopped => exact absurd hpc hreader

theorem Sound.next (h : s.Sound) (hbuf : s.base.msgCh.buf = m :: rest) (hs : MsgChStep s a s') :
    (∃ rest', s'.base.msgCh.buf = m :: rest') ∧ s'.results = s.results ∨
      s'.results = s.results ++ [.msg m] := by
  cases hs with
  | dispatch hd =>
    left
    obtain hc | hc | ⟨data, hsel, hc⟩ := hd.msgCh
    · exact ⟨⟨rest, by rw [hc, hbuf]⟩, rfl⟩
    · exact ⟨⟨rest, by rw [hc, Chan.close_buf, hbuf]⟩, rfl⟩
    · have hopen := (h.races.sending (by rw [hsel]; rfl)).1
      refine ⟨⟨rest ++ [data], ?_⟩, rfl⟩
      rw [hc, Chan.send_open hopen, hbuf]
      rfl
  | read hr =>
    obtain ⟨hb, rfl⟩ | rfl := h.reading.next hr hbuf
    · exact .inl ⟨⟨rest, hb⟩, List.append_nil _⟩
    · exact .inr rfl
  | start | ctxDone => exact .inl ⟨⟨rest, hbuf⟩, rfl⟩
  | closer hcl hc =>
    left
    obtain hc | hc := hc.msgCh
    · exact ⟨⟨rest, by rw [hc, hbuf]⟩, rfl⟩
    · exact ⟨⟨rest, by rw [hc, Chan.close_buf, hbuf]⟩, rfl⟩

end MsgChState

/-- `msgCh` is closed once at most, nothing is sent on it after that, and `RecvMsg` returns every
message that was sent, in order. -/
theorem msgCh_discipline {s : MsgChState} (h : msgChMachine.Reachable s) :
    s.base.msgCh.panicked = false ∧ s.base.onDone ≤ 1 ∧
      s.base.msgCh.sent = received s.results ++ s.base.msgCh.buf ∧
      ∀ m rest, s.base.msgCh.buf = m :: rest →
        (s.reader ≠ .stopped → msgChMachine.CanReach MsgChState.ReaderOnly
          (fun s' => s'.results = s.results ++ [.msg m]) s) ∧
        ∀ a s', msgChMachine.step s a = some s' →
          (∃ rest', s'.base.msgCh.buf = m :: rest') ∧ s'.results = s.results ∨
            s'.results = s.results ++ [.msg m] := by
  have hs := MsgChState.sound h
  refine ⟨hs.races.panicked, hs.races.onDone_le, hs.reading.sent, ?_⟩
  intro m rest hbuf
  constructor
  · exact hs.canRead hbuf
  · intro a s' hstep
    exact hs.next hbuf (msgChStep_step hstep)

/-- A message is sent, then `Close`, `CloseRecv` and a failed write race with the trailers, and the
message is still there. -/
theorem msgCh_discipline_closed :
    ∃ s, msgChMachine.Reachable s ∧ s.base.msgCh.closed = true ∧ s.base.onDone = 1 ∧
      s.base.msgCh.buf = [[7]] ∧ s.base.msgCh.panicked = false ∧
      msgChMachine.CanReach MsgChState.ReaderOnly
        (fun s' => s'.results = s.results ++ [.msg [7]]) s := by
  let run : List (List MsgChAct) :=
    [[.dispatch (.packet { data := [7], eom := true }), .start .close, .start .closeRecv,
      .start (.write .eof true)], List.replicate 4 (.dispatch .step),
      [.dispatch .send, .closer 2, .closer 2, .dispatch .step], List.replicate 7 (.closer 2),
      List.replicate 4 (.closer 0), [.dispatch (.path (.trailers none))],
      List.replicate 3 (.dispatch .step), List.replicate 3 (.closer 1)]
  obtain ⟨s, hr, hclosed, hdone, hbuf, hreader⟩ : ∃ s, msgChMachine.Reachable s ∧
      s.base.msgCh.closed = true ∧ s.base.onDone = 1 ∧ s.base.msgCh.buf = [[7]] ∧
      s.reader = .idle :=
    msgChMachine.exists_reachable {} run.flatten rfl (by decide +kernel)
  have h := msgCh_discipline hr
  refine ⟨s, hr, hclosed, hdone, hbuf, h.1, ?_⟩
  apply (h.2.2.2 [7] [] hbuf).1
  rw [hreader]
  decide

end Goutils.Rpc
