import Goutils.Lib.Sync
import Goutils.Lib.Pieces
import Goutils.Rpc.Frames

namespace Goutils.Rpc
open Lib
open Lib.Wire (Bytes)
set_option autoImplicit true

/-- `webrtcBaseStream` as its goroutines `τ` share it; `onDone` counts its calls. -/
structure BaseStream (τ : Type) where
  mu : RWMutex τ := {}
  ctx : Option CtxErr := none
  msgCh : Chan Bytes := { cap := 1 }
  onDone : Nat := 0
  err : Option GoErr := none
  recvClosed : Bool := false
  closed : Bool := false
  packetBuf : Bytes := []
  activeSenders : Nat := 0

def processPacket (packetBuf : Bytes) (msg : PacketMessage) : Bytes × Option Bytes :=
  if msg.data.length = 0 ∧ msg.eom = true then (packetBuf, some [])
  else if MaxMessageSize < msg.data.length + packetBuf.length then ([], none)
  else if msg.eom then ([], some (packetBuf ++ msg.data))
  else (packetBuf ++ msg.data, none)

def packets (maxPacketDataSize : Nat) (data : Bytes) : List PacketMessage :=
  if data.length = 0 then [{ eom := true }]
  else (pieces maxPacketDataSize data).map fun p => { data := p.1, eom := p.2 }

def processPackets (packetBuf : Bytes) : List PacketMessage → Bytes × List Bytes
  | [] => (packetBuf, [])
  | p :: ps =>
    let (buf, msg) := processPacket packetBuf p
    let (buf', msgs) := processPackets buf ps
    (buf', msg.toList ++ msgs)

theorem packets_short (hd : data ≠ []) (hl : data.length ≤ n) :
    packets n data = [{ data, eom := true }] := by
  rw [packets, if_neg (mt List.length_eq_zero_iff.1 hd), pieces_last hd hl]
  rfl

theorem processPacket_part (hl : buf.length + data.length ≤ MaxMessageSize) :
    processPacket buf { data, eom := false } = (buf ++ data, none) := by
  simp only [processPacket, Bool.false_eq_true, and_false, ↓reduceIte]
  rw [if_neg (by omega)]

theorem processPacket_end (hd : data ≠ []) (hl : buf.length + data.length ≤ MaxMessageSize) :
    processPacket buf { data, eom := true } = ([], some (buf ++ data)) := by
  have h0 : data.length ≠ 0 := fun h => hd (List.length_eq_zero_iff.1 h)
  simp only [processPacket, h0, false_and, ↓reduceIte]
  rw [if_neg (by omega)]

theorem processPacket_empty (buf : Bytes) : processPacket buf { eom := true } = (buf, some []) :=
  rfl

theorem processPackets_append (buf : Bytes) (ps qs : List PacketMessage) :
    processPackets buf (ps ++ qs) =
      ((processPackets (processPackets buf ps).1 qs).1,
        (processPackets buf ps).2 ++ (processPackets (processPackets buf ps).1 qs).2) := by
  induction ps generalizing buf with
  | nil => rfl
  | cons p ps ih => simp only [List.cons_append, processPackets, ih, List.append_assoc]

theorem pieces_complete (hn : 0 < n) (buf data : Bytes) (hd : data ≠ [])
    (hl : buf.length + data.length ≤ MaxMessageSize) :
    ∃ ps p buf', ((pieces n data).map fun q => { data := q.1, eom := q.2 }) = ps ++ [p] ∧
      processPackets buf ps = (buf', []) ∧
      processPacket buf' p = ([], some (buf ++ data)) := by
  revert buf
  refine pieces_induction hn ?_ ?_ data hd
  · intro data hd hn buf hl
    refine ⟨[], { data, eom := true }, buf, ?_, rfl, processPacket_end hd hl⟩
    rw [pieces_last hd hn]
    rfl
  · intro data hn' ih buf hl
    have hlen : (data.take n).length + (data.drop n).length = data.length := by
      rw [← List.length_append, List.take_append_drop]
    have hfirst : processPacket buf { data := data.take n, eom := false } =
        (buf ++ data.take n, none) := processPacket_part (by omega)
    have hrest : (buf ++ data.take n).length + (data.drop n).length ≤ MaxMessageSize := by
      rw [List.length_append]
      omega
    obtain ⟨ps, p, buf', hps, hparts, hlast⟩ := ih _ hrest
    refine ⟨{ data := data.take n, eom := false } :: ps, p, buf', ?_, ?_, ?_⟩
    · rw [pieces_more hn hn', List.map_cons, hps]
      rfl
    · simp only [processPackets, hfirst, hparts, Option.toList_none, List.nil_append]
    · rw [hlast, List.append_assoc, List.take_append_drop]

/-- A sender's packets of a message of admissible size are put together to that message when
the last of them arrives. -/
theorem packets_complete (hn : 0 < n) (data : Bytes) (hl : data.length ≤ MaxMessageSize) :
    ∃ ps p buf, packets n data = ps ++ [p] ∧ processPackets [] ps = (buf, []) ∧
      processPacket buf p = ([], some data) := by
  unfold packets
  split
  · rename_i h
    rw [List.length_eq_zero_iff.1 h]
    exact ⟨[], _, [], rfl, rfl, processPacket_empty []⟩
  · rename_i h
    have hd : data ≠ [] := fun he => h (by rw [he]; rfl)
    exact pieces_complete hn [] data hd (by simpa using hl)

theorem processPackets_packets (hn : 0 < n) (data : Bytes) (hl : data.length ≤ MaxMessageSize) :
    processPackets [] (packets n data) = ([], [data]) := by
  obtain ⟨ps, p, buf, hps, hparts, hlast⟩ := packets_complete hn data hl
  rw [hps, processPackets_append, hparts]
  simp only [processPackets, hlast, Option.toList_some, List.nil_append, List.append_nil]

inductive CloseRecvPc where
  | cas
  | wait
  | close
  | ret
  deriving DecidableEq

def closeRecv (b : BaseStream τ) : CloseRecvPc → Option (BaseStream τ × CloseRecvPc)
  | .cas => some (if b.recvClosed then (b, .ret) else ({ b with recvClosed := true }, .wait))
  | .wait => if b.activeSenders = 0 then some (b, .close) else none
  | .close => some ({ b with msgCh := b.msgCh.close }, .ret)
  | .ret => none

inductive CloseRecvStep (b : BaseStream τ) :
    CloseRecvPc → BaseStream τ → CloseRecvPc → Prop where
  | again : b.recvClosed = true → CloseRecvStep b .cas b .ret
  | first : b.recvClosed = false → CloseRecvStep b .cas { b with recvClosed := true } .wait
  | waited : b.activeSenders = 0 → CloseRecvStep b .wait b .close
  | close : CloseRecvStep b .close { b with msgCh := b.msgCh.close } .ret

theorem closeRecv_step {b b' : BaseStream τ} (h : closeRecv b pc = some (b', pc')) :
    CloseRecvStep b pc b' pc' := by
  cases pc with
  | cas =>
    simp only [closeRecv, Option.some.injEq] at h
    split at h <;> cases h
    · exact .again ‹_›
    · exact .first (Bool.eq_false_of_not_eq_true ‹_›)
  | wait =>
    simp only [closeRecv] at h
    split at h <;> cases h
    exact .waited ‹_›
  | close =>
    cases h
    exact .close
  | ret => cases h

theorem CloseRecvStep.mu {b b' : BaseStream τ} (h : CloseRecvStep b pc b' pc') :
    b'.mu = b.mu ∧ b'.activeSenders = b.activeSenders := by
  cases h <;> exact ⟨rfl, rfl⟩

theorem CloseRecvStep.msgCh {b b' : BaseStream τ} (h : CloseRecvStep b pc b' pc') :
    b'.msgCh = b.msgCh ∨ b'.msgCh = b.msgCh.close := by
  cases h with
  | close => exact .inr rfl
  | _ => exact .inl rfl

inductive ClosePc where
  | cas
  | recv (pc : CloseRecvPc)
  | record
  | cancel
  | onDone
  | ret
  deriving DecidableEq

def ClosePc.ofRecv : CloseRecvPc → ClosePc
  | .ret => .record
  | pc => .recv pc

def recordedErr (err : Option GoErr) (expected : Bool) (old : Option GoErr) : Option GoErr :=
  if err.isSome then err else if expected then some .errExpectedClosure else old

def closeWithError (err : Option GoErr) (expected : Bool) (b : BaseStream τ) :
    ClosePc → Option (BaseStream τ × ClosePc)
  | .cas => some (if b.closed then (b, .ret) else ({ b with closed := true }, .recv .cas))
  | .recv pc => (closeRecv b pc).map fun (b', pc') => (b', .ofRecv pc')
  | .record => some ({ b with err := recordedErr err expected b.err }, .cancel)
  | .cancel => some ({ b with ctx := b.ctx.or (some .canceled) }, .onDone)
  | .onDone => some ({ b with onDone := b.onDone + 1 }, .ret)
  | .ret => none

inductive CloseStep (err : Option GoErr) (expected : Bool) (b : BaseStream τ) :
    ClosePc → BaseStream τ → ClosePc → Prop where
  | again : b.closed = true → CloseStep err expected b .cas b .ret
  | first : b.closed = false →
      CloseStep err expected b .cas { b with closed := true } (.recv .cas)
  | recv : CloseRecvStep b pc b' pc' → CloseStep err expected b (.recv pc) b' (.ofRecv pc')
  | record : CloseStep err expected b .record
      { b with err := recordedErr err expected b.err } .cancel
  | cancel : CloseStep err expected b .cancel { b with ctx := b.ctx.or (some .canceled) } .onDone
  | onDone : CloseStep err expected b .onDone { b with onDone := b.onDone + 1 } .ret

theorem closeWithError_step {b b' : BaseStream τ}
    (h : closeWithError err expected b pc = some (b', pc')) :
    CloseStep err expected b pc b' pc' := by
  cases pc with
  | cas =>
    simp only [closeWithError, Option.some.injEq] at h
    split at h <;> cases h
    · exact .again ‹_›
    · exact .first (Bool.eq_false_of_not_eq_true ‹_›)
  | recv pc =>
    obtain ⟨⟨b₁, pc₁⟩, hr, he⟩ := Option.map_eq_some_iff.1 h
    cases he
    exact .recv (closeRecv_step hr)
  | record =>
    cases h
    exact .record
  | cancel =>
    cases h
    exact .cancel
  | onDone =>
    cases h
    exact .onDone
  | ret => cases h

/-- Places that a call of `closeWithError` passes through: behind `closeRecv` it goes on at once. -/
def ClosePc.ok : ClosePc → Bool
  | .recv .ret => false
  | _ => true

namespace CloseStep

variable {b b' : BaseStream τ} {err : Option GoErr} {expected : Bool} {pc pc' : ClosePc}
  (h : CloseStep err expected b pc b' pc')

include h

theorem mu : b'.mu = b.mu ∧ b'.activeSenders = b.activeSenders := by
  cases h with
  | recv h => exact h.mu
  | _ => exact ⟨rfl, rfl⟩

theorem ctx (hn : b'.ctx = none) : b.ctx = none := by
  cases h with
  | recv h => cases h <;> exact hn
  | cancel => simp at hn
  | _ => exact hn

theorem msgCh : b'.msgCh = b.msgCh ∨ b'.msgCh = b.msgCh.close := by
  cases h with
  | recv h => exact h.msgCh
  | _ => exact .inl rfl

theorem ok : pc'.ok = true := by
  cases h with
  | @recv _ _ pc' _ => cases pc' <;> rfl
  | _ => rfl

end CloseStep

theorem closeWithError_enabled {b : BaseStream τ} (hok : pc.ok = true) (hpc : pc ≠ .ret)
    (ha : b.activeSenders = 0) (err : Option GoErr) (expected : Bool) :
    ∃ r, closeWithError err expected b pc = some r := by
  cases pc with
  | recv pc =>
    cases pc with
    | wait =>
      simp only [closeWithError, closeRecv, ha, ↓reduceIte, Option.map_some]
      exact ⟨_, rfl⟩
    | ret => cases hok
    | _ => exact ⟨_, rfl⟩
  | ret => exact (hpc rfl).elim
  | _ => exact ⟨_, rfl⟩

/-- What a goroutine counts in three races, from when it has won until it has acted. -/
structure Wins where
  recv : Nat := 0
  ready : Nat := 0
  close : Nat := 0
  send : Nat := 0

def CloseRecvPc.wins : CloseRecvPc → Wins
  | .wait => { recv := 1 }
  | .close => { recv := 1, ready := 1 }
  | _ => {}

def ClosePc.wins : ClosePc → Wins
  | .cas => {}
  | .recv pc => { pc.wins with close := 1 }
  | .ret => {}
  | _ => { close := 1 }

/-- How a step of a goroutine that counts `k` before and `k'` behind it moves the races. -/
structure RaceStep (b b' : BaseStream τ) (k k' : Wins) : Prop where
  recv : k.recv + b.msgCh.closed.toNat ≤ 1 →
    k'.recv + b'.msgCh.closed.toNat + b.recvClosed.toNat =
      k.recv + b.msgCh.closed.toNat + b'.recvClosed.toNat
  ready : b.activeSenders ≠ 0 → k.ready = 0 → b.msgCh.closed = false →
    k'.ready = 0 ∧ b'.msgCh.closed = false
  close : k'.close + b'.onDone + b.closed.toNat = k.close + b.onDone + b'.closed.toNat
  panicked : k.recv + b.msgCh.closed.toNat ≤ 1 → b'.msgCh.panicked = b.msgCh.panicked

theorem RaceStep.refl (b : BaseStream τ) (k : Wins) : RaceStep b b k k :=
  ⟨fun _ => rfl, fun _ hk hc => ⟨hk, hc⟩, rfl, fun _ => rfl⟩

theorem CloseRecvStep.race {b b' : BaseStream τ} (h : CloseRecvStep b pc b' pc') (c : Nat) :
    RaceStep b b' { pc.wins with close := c } { pc'.wins with close := c } := by
  cases h with
  | again => exact .refl _ _
  | first h =>
    refine ⟨fun _ => ?_, fun _ _ hc => ⟨rfl, hc⟩, rfl, fun _ => rfl⟩
    simp only [h, CloseRecvPc.wins, Bool.toNat_true, Bool.toNat_false]
    omega
  | waited h => exact ⟨fun _ => rfl, fun ha => absurd h ha, rfl, fun _ => rfl⟩
  | close =>
    have hopen (h : 1 + b.msgCh.closed.toNat ≤ 1) : b.msgCh.closed = false := by
      cases hc : b.msgCh.closed with
      | false => rfl
      | true => simp [hc] at h
    refine ⟨fun h => ?_, fun _ hk => absurd hk Nat.one_ne_zero, rfl, fun h => ?_⟩
    · simp only [hopen h, CloseRecvPc.wins, Chan.close_closed, Bool.toNat_true, Bool.toNat_false]
    · simp only [Chan.close_open (hopen h)]

theorem ClosePc.wins_ofRecv (pc : CloseRecvPc) :
    (ofRecv pc).wins = { pc.wins with close := 1 } := by
  cases pc <;> rfl

theorem CloseStep.race {b b' : BaseStream τ} (h : CloseStep err expected b pc b' pc') :
    RaceStep b b' pc.wins pc'.wins := by
  cases h with
  | again => exact .refl _ _
  | first h =>
    refine ⟨fun _ => rfl, fun _ hk hc => ⟨hk, hc⟩, ?_, fun _ => rfl⟩
    simp only [h, ClosePc.wins, Bool.toNat_true, Bool.toNat_false]
    omega
  | recv h =>
    rw [ClosePc.wins_ofRecv]
    exact h.race 1
  | record | cancel => exact ⟨fun _ => rfl, fun _ hk hc => ⟨hk, hc⟩, rfl, fun _ => rfl⟩
  | onDone =>
    refine ⟨fun _ => rfl, fun _ hk hc => ⟨hk, hc⟩, ?_, fun _ => rfl⟩
    simp only [ClosePc.wins]
    omega

@[simp] theorem CloseRecvPc.wins_send (pc : CloseRecvPc) : pc.wins.send = 0 := by
  cases pc <;> rfl

@[simp] theorem ClosePc.wins_send (pc : ClosePc) : pc.wins.send = 0 := by
  cases pc with
  | recv pc => exact pc.wins_send
  | _ => rfl

theorem CloseRecvPc.wins_close (pc : CloseRecvPc) : { pc.wins with close := 0 } = pc.wins := by
  cases pc <;> rfl

theorem CloseRecvPc.ready_le (pc : CloseRecvPc) : pc.wins.ready ≤ pc.wins.recv := by
  cases pc <;> decide

theorem ClosePc.ready_le (pc : ClosePc) : pc.wins.ready ≤ pc.wins.recv := by
  cases pc with
  | recv pc => exact pc.ready_le
  | _ => exact le_rfl

inductive RecvResult where
  | msg (data : Bytes)
  | err (e : GoErr)
  | nil
  deriving DecidableEq

/-- Where the reader stands in `RecvMsg`; `origErr` is the argument of `checkLastOrErr`. -/
inductive RecvPc where
  | idle
  | select
  | checkLast (origErr : Option CtxErr)
  | lock (origErr : Option CtxErr)
  | stopped
  deriving DecidableEq

inductive RecvAct where
  | call
  | stop
  | ctxDone
  | recv
  | proceed
  deriving DecidableEq

def lastErr (err : Option GoErr) (origErr : Option CtxErr) : GoErr :=
  match err with
  | some e => if e.is .errExpectedClosure then .eof else e
  | none => (origErr.map .ctx).getD .eof

def recvMsg (b : BaseStream τ) :
    RecvPc → RecvAct → Option (BaseStream τ × RecvPc × Option RecvResult)
  | .idle, .call => some (b, .select, none)
  | .idle, .stop => some (b, .stopped, none)
  | .select, .ctxDone =>
    match b.ctx with
    | some e => some (b, .checkLast (some e), none)
    | none => none
  | .select, .recv =>
    match b.msgCh.buf with
    | m :: _ => some ({ b with msgCh := b.msgCh.pop }, .idle, some (.msg m))
    | [] => if b.msgCh.closed then some (b, .checkLast none, none) else none
  | .checkLast origErr, .proceed =>
    match b.msgCh.buf with
    | m :: _ =>
      -- The closed-channel case of the outer select looks at the error only.
      some ({ b with msgCh := b.msgCh.pop }, .idle,
        some (if origErr.isSome then .msg m else .nil))
    | [] =>
      if b.msgCh.closed then some (b, .lock origErr, none)
      else some (b, .idle, some ((origErr.map fun e => .err (.ctx e)).getD .nil))
  | .lock origErr, .proceed =>
    if b.mu.canLock then some (b, .idle, some (.err (lastErr b.err origErr))) else none
  | _, _ => none

inductive RecvStep (b : BaseStream τ) :
    RecvPc → RecvAct → BaseStream τ → RecvPc → Option RecvResult → Prop where
  | call : RecvStep b .idle .call b .select none
  | stop : RecvStep b .idle .stop b .stopped none
  | ctxDone : b.ctx = some e → RecvStep b .select .ctxDone b (.checkLast (some e)) none
  | recv : b.msgCh.buf = m :: rest →
      RecvStep b .select .recv { b with msgCh := b.msgCh.pop } .idle (some (.msg m))
  | recvClosed : b.msgCh.buf = [] → b.msgCh.closed = true →
      RecvStep b .select .recv b (.checkLast none) none
  | last : b.msgCh.buf = m :: rest →
      RecvStep b (.checkLast (some e)) .proceed { b with msgCh := b.msgCh.pop } .idle
        (some (.msg m))
  | lastNil : b.msgCh.buf = m :: rest →
      RecvStep b (.checkLast none) .proceed { b with msgCh := b.msgCh.pop } .idle (some .nil)
  | lastClosed : b.msgCh.buf = [] → b.msgCh.closed = true →
      RecvStep b (.checkLast origErr) .proceed b (.lock origErr) none
  | empty : b.msgCh.buf = [] → b.msgCh.closed = false →
      RecvStep b (.checkLast origErr) .proceed b .idle
        (some ((origErr.map fun e => .err (.ctx e)).getD .nil))
  | lock : b.mu.canLock = true →
      RecvStep b (.lock origErr) .proceed b .idle (some (.err (lastErr b.err origErr)))

theorem recvMsg_step {b b' : BaseStream τ} (h : recvMsg b pc a = some (b', pc', r)) :
    RecvStep b pc a b' pc' r := by
  cases pc with
  | idle =>
    cases a with
    | call =>
      cases h
      exact .call
    | stop =>
      cases h
      exact .stop
    | _ => cases h
  | select =>
    cases a with
    | ctxDone =>
      simp only [recvMsg] at h
      split at h <;> cases h
      exact .ctxDone ‹_›
    | recv =>
      simp only [recvMsg] at h
      split at h
      · cases h
        exact .recv ‹_›
      · split at h <;> cases h
        exact .recvClosed ‹_› ‹_›
    | _ => cases h
  | checkLast origErr =>
    cases a with
    | proceed =>
      simp only [recvMsg] at h
      split at h
      · cases h
        cases origErr with
        | none => exact .lastNil ‹_›
        | some e => exact .last ‹_›
      · split at h <;> cases h
        · exact .lastClosed ‹_› ‹_›
        · exact .empty ‹_› (Bool.eq_false_of_not_eq_true ‹_›)
    | _ => cases h
  | lock origErr =>
    cases a with
    | proceed =>
      simp only [recvMsg] at h
      split at h <;> cases h
      exact .lock ‹_›
    | _ => cases h
  | stopped => cases a <;> cases h

theorem recvMsg_enabled {b : BaseStream τ} (hpc : pc ≠ .stopped) (hlock : ∀ e, pc ≠ .lock e)
    (hbuf : b.msgCh.buf = m :: rest) : ∃ a r, recvMsg b pc a = some r := by
  cases pc with
  | idle => exact ⟨.call, _, rfl⟩
  | select =>
    refine ⟨.recv, ?_⟩
    simp only [recvMsg, hbuf]
    exact ⟨_, rfl⟩
  | checkLast origErr =>
    refine ⟨.proceed, ?_⟩
    simp only [recvMsg, hbuf]
    exact ⟨_, rfl⟩
  | lock origErr => exact (hlock origErr rfl).elim
  | stopped => exact (hpc rfl).elim

namespace RecvStep

variable {b b' : BaseStream τ} {pc pc' : RecvPc} {a : RecvAct} {r : Option RecvResult}
  (h : RecvStep b pc a b' pc' r)

include h

theorem base : b' = b ∨ b' = { b with msgCh := b.msgCh.pop } := by
  cases h with
  | recv | last | lastNil => exact .inr rfl
  | _ => exact .inl rfl

theorem locked (hpc : pc' = .lock origErr) : b.msgCh.closed = true := by
  cases h with
  | lastClosed _ hc => exact hc
  | _ => cases hpc

theorem stopped (hpc : pc' = .stopped) : a = .stop ∧ b' = b := by
  cases h with
  | stop => exact ⟨rfl, rfl⟩
  | _ => cases hpc

theorem mu : b'.mu = b.mu ∧ b'.activeSenders = b.activeSenders := by
  rcases h.base with rfl | rfl <;> exact ⟨rfl, rfl⟩

end RecvStep

inductive DeliverPc where
  | enter
  | send
  deriving DecidableEq

inductive DeliverAct where
  | enter
  | send
  | ctxDone
  deriving DecidableEq

/-- Register as a sender, wait for room or for the context; `some false` has returned. -/
def deliver (data : Bytes) (b : BaseStream τ) :
    DeliverPc → DeliverAct → Option (BaseStream τ × Option Bool)
  | .enter, .enter =>
    if b.mu.canLock then
      some (if b.recvClosed then (b, some false)
        else ({ b with activeSenders := b.activeSenders + 1 }, none))
    else none
  | .send, .send =>
    if b.msgCh.canSend then
      some ({ b with msgCh := b.msgCh.send data, activeSenders := b.activeSenders - 1 },
        some true)
    else none
  | .send, .ctxDone =>
    if b.ctx.isSome then some ({ b with activeSenders := b.activeSenders - 1 }, some true)
    else none
  | _, _ => none

inductive DeliverStep (data : Bytes) (b : BaseStream τ) :
    DeliverPc → DeliverAct → BaseStream τ → Option Bool → Prop where
  | closed : b.mu.canLock = true → b.recvClosed = true →
      DeliverStep data b .enter .enter b (some false)
  | enter : b.mu.canLock = true → b.recvClosed = false →
      DeliverStep data b .enter .enter { b with activeSenders := b.activeSenders + 1 } none
  | send : b.msgCh.canSend = true →
      DeliverStep data b .send .send
        { b with msgCh := b.msgCh.send data, activeSenders := b.activeSenders - 1 } (some true)
  | ctxDone : b.ctx.isSome = true →
      DeliverStep data b .send .ctxDone { b with activeSenders := b.activeSenders - 1 }
        (some true)

theorem deliver_step {b b' : BaseStream τ} (h : deliver data b pc a = some (b', res)) :
    DeliverStep data b pc a b' res := by
  cases pc with
  | enter =>
    cases a with
    | enter =>
      simp only [deliver] at h
      split at h
      · simp only [Option.some.injEq] at h
        split at h <;> cases h
        · exact .closed ‹_› ‹_›
        · exact .enter ‹_› (Bool.eq_false_of_not_eq_true ‹_›)
      · cases h
    | _ => cases h
  | send =>
    cases a with
    | enter => cases h
    | send =>
      simp only [deliver] at h
      split at h <;> cases h
      exact .send ‹_›
    | ctxDone =>
      simp only [deliver] at h
      split at h <;> cases h
      exact .ctxDone ‹_›

namespace DeliverStep

variable {b b' : BaseStream τ} {data : Bytes} {pc : DeliverPc} {a : DeliverAct} {res : Option Bool}
  (h : DeliverStep data b pc a b' res)

include h

theorem mu : b'.mu = b.mu := by
  cases h <;> rfl

theorem msgCh : b'.msgCh = b.msgCh ∨ b'.msgCh = b.msgCh.send data := by
  cases h with
  | send => exact .inr rfl
  | _ => exact .inl rfl

theorem race (hopen : pc = .send → b.msgCh.closed = false) (k : Wins) : RaceStep b b' k k := by
  cases h with
  | send =>
    rw [Chan.send_open (hopen rfl)]
    exact ⟨fun _ => rfl, fun _ hk hc => ⟨hk, hc⟩, rfl, fun _ => rfl⟩
  | _ => exact ⟨fun _ => rfl, fun _ hk hc => ⟨hk, hc⟩, rfl, fun _ => rfl⟩

end DeliverStep

theorem RecvStep.race {b b' : BaseStream τ} (h : RecvStep b pc a b' pc' res) (k : Wins) :
    RaceStep b b' k k := by
  rcases h.base with rfl | rfl
  · exact .refl _ _
  · exact ⟨fun _ => rfl, fun _ hk hc => ⟨hk, hc⟩, rfl, fun _ => rfl⟩

/-- Each race has one winner, and nobody sends on or closes a closed `msgCh`. -/
structure Races (b : BaseStream τ) (n : Nat) (own others : Wins) : Prop where
  senders : b.activeSenders = n
  recv : own.recv + others.recv + b.msgCh.closed.toNat = b.recvClosed.toNat
  close : own.close + others.close + b.onDone = b.closed.toNat
  sending : n = 1 → b.msgCh.closed = false ∧ others.ready = 0
  panicked : b.msgCh.panicked = false

namespace Races

variable {b b' : BaseStream τ} {n : Nat} {own others : Wins} (h : Races b n own others)

include h

theorem recv_le : own.recv + others.recv + b.msgCh.closed.toNat ≤ 1 := by
  rw [h.recv]
  exact Bool.toNat_le _

theorem onDone_le : b.onDone ≤ 1 := by
  have hclose := h.close
  have hle := Bool.toNat_le b.closed
  omega

theorem of_open (hopen : b.recvClosed = false) : b.msgCh.closed = false ∧ others.recv = 0 := by
  have hrecv := h.recv
  rw [hopen, Bool.toNat_false] at hrecv
  constructor
  · cases hc : b.msgCh.closed with
    | false => rfl
    | true =>
      rw [hc, Bool.toNat_true] at hrecv
      omega
  · omega

theorem step_own (hs : RaceStep b b' own own') (ha : b'.activeSenders = n')
    (hsending : n' = 1 → b'.msgCh.closed = false ∧ others.ready = 0) : Races b' n' own' others := by
  have hle := h.recv_le
  have hrecv := hs.recv (by omega)
  have hclose := hs.close
  constructor
  · exact ha
  · have := h.recv
    omega
  · have := h.close
    omega
  · exact hsending
  · rw [hs.panicked (by omega)]
    exact h.panicked

theorem step_others (hs : RaceStep b b' k k') (ha : b'.activeSenders = b.activeSenders)
    (hk : k.recv ≤ others.recv) (hkr : k.ready ≤ others.ready)
    (hrecv : others'.recv + k.recv = others.recv + k'.recv)
    (hready : others'.ready + k.ready = others.ready + k'.ready)
    (hclose : others'.close + k.close = others.close + k'.close) : Races b' n own others' := by
  have hle := h.recv_le
  have hr := hs.recv (by omega)
  have hc := hs.close
  constructor
  · rw [ha]
    exact h.senders
  · have := h.recv
    omega
  · have := h.close
    omega
  · intro hsending
    obtain ⟨hopen, hzero⟩ := h.sending hsending
    have hne : b.activeSenders ≠ 0 := by
      rw [h.senders, hsending]
      exact Nat.one_ne_zero
    have hk0 : k.ready = 0 := by omega
    obtain ⟨hk', hopen'⟩ := hs.ready hne hk0 hopen
    exact ⟨hopen', by omega⟩
  · rw [hs.panicked (by omega)]
    exact h.panicked

end Races

end Goutils.Rpc
