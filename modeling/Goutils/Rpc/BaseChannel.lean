import Goutils.Lib.Sync
import Goutils.Rpc.Frames

namespace Goutils.Rpc
open Lib
set_option autoImplicit true

def bufferThreshold : Nat := 1024 * 1024

/-- Where a goroutine stands in `write`, and in `bufferWriteCond.Wait`. -/
inductive WritePc where
  | lock
  | checkCtx
  | checkBuffer
  | wait
  | listed (notified : Bool)
  | parked (notified : Bool)
  | relock
  | unlock
  | send
  | ret (err : Option GoErr)
  deriving DecidableEq

/-- A call of `write` with the size of its marshaled message. -/
structure Writer where
  size : Nat
  pc : WritePc := .lock

inductive SendOutcome where
  | ok
  | nonEstablished
  | failed (e : GoErr)

/-- A change of the ICE connection's state: it is lost, or it is not and a connection id is known
or not. -/
inductive ICEChange where
  | lost
  | live (known : Bool)
  deriving DecidableEq

/-- The operations that cancel the channel's context. -/
inductive ClosingOp where
  | closeWithReason (err : Option GoErr)
  | connStateChanged (change : ICEChange)

/-- Where a closing operation stands; `peerDone` is the cancellation of `doPeerDone`. -/
inductive ClosingPc where
  | lock
  | check
  | cancel
  | broadcast
  | peerDone (close : Bool)
  | gracefulClose
  | unlock
  | done
  deriving DecidableEq

structure Closing where
  op : ClosingOp
  pc : ClosingPc := .lock

/-- Where the callback of `OnBufferedAmountLow` stands. -/
inductive CallbackPc where
  | idle
  | lock
  | broadcast
  | unlock
  deriving DecidableEq

inductive BufferHolder where
  | writer (i : Nat)
  | callback
  deriving DecidableEq

/-- `webrtcBaseChannel` with its data channel and the goroutines that are in its methods. -/
structure BaseChannel where
  mu : Option Nat := none
  ctxDone : Bool := false
  closed : Bool := false
  closedReason : Option GoErr := none
  connKnown : Bool := false
  bufferWriteMu : RWMutex BufferHolder := {}
  dataChannelOpen : Bool := true
  bufferedAmount : Nat := 0
  callback : CallbackPc := .idle
  writers : List Writer := []
  closings : List Closing := []

def Writer.notify (w : Writer) : Writer :=
  match w.pc with
  | .listed _ => { w with pc := .listed true }
  | .parked _ => { w with pc := .parked true }
  | _ => w

namespace BaseChannel

def broadcast (c : BaseChannel) : BaseChannel := { c with writers := c.writers.map Writer.notify }

def setWriter (c : BaseChannel) (i : Nat) (w : Writer) : BaseChannel :=
  { c with writers := c.writers.set i w }

def setClosing (c : BaseChannel) (i : Nat) (op : Closing) : BaseChannel :=
  { c with closings := c.closings.set i op }

end BaseChannel

/-- A step of the `write` with index `i`. It keeps the lock when it finds the context done. -/
def writeStep (c : BaseChannel) (i size : Nat) (sent : SendOutcome) :
    WritePc → Option (BaseChannel × WritePc)
  | .lock =>
    if c.bufferWriteMu.canRLock then
      some ({ c with bufferWriteMu := c.bufferWriteMu.rlock (.writer i) }, .checkCtx)
    else none
  | .checkCtx => some (c, if c.ctxDone then .ret (some .errClosedPipe) else .checkBuffer)
  | .checkBuffer => some (c, if c.bufferedAmount ≥ bufferThreshold then .wait else .unlock)
  | .wait => some (c, .listed false)
  | .listed notified =>
    some ({ c with bufferWriteMu := c.bufferWriteMu.runlock (.writer i) }, .parked notified)
  | .parked notified => if notified then some (c, .relock) else none
  | .relock =>
    if c.bufferWriteMu.canRLock then
      some ({ c with bufferWriteMu := c.bufferWriteMu.rlock (.writer i) }, .checkCtx)
    else none
  | .unlock => some ({ c with bufferWriteMu := c.bufferWriteMu.runlock (.writer i) }, .send)
  | .send =>
    match sent with
    | .ok =>
      if c.dataChannelOpen then
        some ({ c with bufferedAmount := c.bufferedAmount + size }, .ret none)
      else none
    | .nonEstablished => some (c, .ret (some .errClosedPipe))
    | .failed e => some (c, .ret (some e))
  | .ret _ => none

def closingStep (c : BaseChannel) (i : Nat) (op : ClosingOp) :
    ClosingPc → Option (BaseChannel × ClosingPc)
  | .lock => if c.mu.isNone then some ({ c with mu := some i }, .check) else none
  | .check =>
    match op with
    | .closeWithReason err =>
      if c.closed then some (c, .unlock)
      else some ({ c with closed := true, closedReason := err }, .cancel)
    | .connStateChanged change =>
      if c.closed then some (c, .peerDone false)
      else
        match change with
        | .lost => some (c, if c.connKnown then .peerDone true else .unlock)
        | .live known => some ({ c with connKnown := known }, .unlock)
  | .cancel => some ({ c with ctxDone := true }, .broadcast)
  | .broadcast => some (c.broadcast, .gracefulClose)
  | .peerDone close => some ({ c with ctxDone := true }, if close then .gracefulClose else .unlock)
  | .gracefulClose => some ({ c with dataChannelOpen := false }, .unlock)
  | .unlock => some ({ c with mu := none }, .done)
  | .done => none

def callbackStep (c : BaseChannel) : CallbackPc → Option (BaseChannel × CallbackPc)
  | .idle => none
  | .lock =>
    if c.bufferWriteMu.canLock then
      some ({ c with bufferWriteMu := c.bufferWriteMu.lock .callback }, .broadcast)
    else none
  | .broadcast => some (c.broadcast, .unlock)
  | .unlock => some ({ c with bufferWriteMu := c.bufferWriteMu.unlock }, .idle)

inductive BaseChannelAct where
  | startWrite (size : Nat)
  | write (i : Nat) (sent : SendOutcome)
  | startClosing (op : ClosingOp)
  | closing (i : Nat)
  | drain (n : Nat)
  | callback
  | dataChannelClose

/-- Bytes are handed over while the channel is open; at the threshold it calls back. -/
def baseChannelStep (c : BaseChannel) : BaseChannelAct → Option BaseChannel
  | .startWrite size => some { c with writers := c.writers ++ [{ size }] }
  | .write i sent =>
    c.writers[i]?.bind fun w =>
      (writeStep c i w.size sent w.pc).map fun (c', pc) => c'.setWriter i { w with pc }
  | .startClosing op => some { c with closings := c.closings ++ [{ op }] }
  | .closing i =>
    c.closings[i]?.bind fun cl =>
      (closingStep c i cl.op cl.pc).map fun (c', pc) => c'.setClosing i { cl with pc }
  | .drain n =>
    if c.dataChannelOpen ∧ c.callback = .idle ∧ n ≤ c.bufferedAmount then
      some { c with
        bufferedAmount := c.bufferedAmount - n
        callback :=
          if c.bufferedAmount > bufferThreshold ∧ c.bufferedAmount - n ≤ bufferThreshold then .lock
          else .idle }
    else none
  | .callback => (callbackStep c c.callback).map fun (c', pc) => { c' with callback := pc }
  | .dataChannelClose => some { c with dataChannelOpen := false }

def baseChannelMachine : Machine BaseChannel BaseChannelAct where
  init c := c = {}
  step := baseChannelStep

inductive WriteStep (c : BaseChannel) (i size : Nat) : WritePc → BaseChannel → WritePc → Prop where
  | lock : c.bufferWriteMu.canRLock = true → pc = .lock ∨ pc = .relock →
      WriteStep c i size pc
        { c with bufferWriteMu := c.bufferWriteMu.rlock (.writer i) } .checkCtx
  | done : c.ctxDone = true → WriteStep c i size .checkCtx c (.ret (some .errClosedPipe))
  | live : c.ctxDone = false → WriteStep c i size .checkCtx c .checkBuffer
  | full : c.bufferedAmount ≥ bufferThreshold → WriteStep c i size .checkBuffer c .wait
  | room : c.bufferedAmount < bufferThreshold → WriteStep c i size .checkBuffer c .unlock
  | wait : WriteStep c i size .wait c (.listed false)
  | park : WriteStep c i size (.listed notified)
      { c with bufferWriteMu := c.bufferWriteMu.runlock (.writer i) } (.parked notified)
  | wake : WriteStep c i size (.parked true) c .relock
  | unlock : WriteStep c i size .unlock
      { c with bufferWriteMu := c.bufferWriteMu.runlock (.writer i) } .send
  | send : c.dataChannelOpen = true → WriteStep c i size .send
      { c with bufferedAmount := c.bufferedAmount + size } (.ret none)
  | fail : WriteStep c i size .send c (.ret (some e))

theorem writeStep_step (h : writeStep c i size sent pc = some (c', pc')) :
    WriteStep c i size pc c' pc' := by
  cases pc with
  | lock =>
    simp only [writeStep] at h
    split at h <;> cases h
    exact .lock ‹_› (.inl rfl)
  | checkCtx =>
    simp only [writeStep, Option.some.injEq, Prod.mk.injEq] at h
    obtain ⟨rfl, rfl⟩ := h
    split
    · exact .done ‹_›
    · exact .live (Bool.eq_false_of_not_eq_true ‹_›)
  | checkBuffer =>
    simp only [writeStep, Option.some.injEq, Prod.mk.injEq] at h
    obtain ⟨rfl, rfl⟩ := h
    split
    · exact .full ‹_›
    · exact .room (Nat.lt_of_not_le ‹_›)
  | wait =>
    cases h
    exact .wait
  | listed notified =>
    cases h
    exact .park
  | parked notified =>
    simp only [writeStep] at h
    split at h <;> cases h
    rename_i hn
    rw [hn]
    exact .wake
  | relock =>
    simp only [writeStep] at h
    split at h <;> cases h
    exact .lock ‹_› (.inr rfl)
  | unlock =>
    cases h
    exact .unlock
  | send =>
    cases sent with
    | ok =>
      simp only [writeStep] at h
      split at h <;> cases h
      exact .send ‹_›
    | nonEstablished | failed e =>
      cases h
      exact .fail
  | ret err => cases h

inductive ClosingStep (c : BaseChannel) (i : Nat) (op : ClosingOp) :
    ClosingPc → BaseChannel → ClosingPc → Prop where
  | lock : c.mu = none → ClosingStep c i op .lock { c with mu := some i } .check
  | again : c.closed = true → pc' = .unlock ∨ pc' = .peerDone false →
      ClosingStep c i op .check c pc'
  | close : c.closed = false → op = .closeWithReason err →
      ClosingStep c i op .check { c with closed := true, closedReason := err } .cancel
  | lost : c.closed = false → op = .connStateChanged .lost → pc' = .unlock ∨ pc' = .peerDone true →
      ClosingStep c i op .check c pc'
  | live : c.closed = false →
      ClosingStep c i op .check { c with connKnown := known } .unlock
  | cancel : ClosingStep c i op .cancel { c with ctxDone := true } .broadcast
  | broadcast : ClosingStep c i op .broadcast c.broadcast .gracefulClose
  | peerDone : pc' = .gracefulClose ∨ pc' = .unlock →
      ClosingStep c i op (.peerDone close) { c with ctxDone := true } pc'
  | gracefulClose : ClosingStep c i op .gracefulClose { c with dataChannelOpen := false } .unlock
  | unlock : ClosingStep c i op .unlock { c with mu := none } .done

theorem closingStep_step (h : closingStep c i op pc = some (c', pc')) :
    ClosingStep c i op pc c' pc' := by
  cases pc with
  | lock =>
    simp only [closingStep] at h
    split at h <;> cases h
    exact .lock (Option.isNone_iff_eq_none.1 ‹_›)
  | check =>
    cases op with
    | closeWithReason err =>
      simp only [closingStep] at h
      split at h <;> cases h
      · exact .again ‹_› (.inl rfl)
      · exact .close (Bool.eq_false_of_not_eq_true ‹_›) rfl
    | connStateChanged change =>
      simp only [closingStep] at h
      split at h
      · cases h
        exact .again ‹_› (.inr rfl)
      · rename_i hclosed
        cases change with
        | lost =>
          cases h
          apply ClosingStep.lost (Bool.eq_false_of_not_eq_true hclosed) rfl
          split
          · exact .inr rfl
          · exact .inl rfl
        | live known =>
          cases h
          exact .live (Bool.eq_false_of_not_eq_true hclosed)
  | cancel =>
    cases h
    exact .cancel
  | broadcast =>
    cases h
    exact .broadcast
  | peerDone close =>
    cases h
    apply ClosingStep.peerDone
    cases close with
    | true => exact .inl rfl
    | false => exact .inr rfl
  | gracefulClose =>
    cases h
    exact .gracefulClose
  | unlock =>
    cases h
    exact .unlock
  | done => cases h

theorem callbackStep_eq (h : callbackStep c pc = some (c', pc')) :
    ∃ mu, c' = { c with bufferWriteMu := mu } ∨
      c' = { c.broadcast with bufferWriteMu := mu } := by
  cases pc with
  | idle => cases h
  | lock =>
    simp only [callbackStep] at h
    split at h <;> cases h
    exact ⟨_, .inl rfl⟩
  | broadcast =>
    cases h
    exact ⟨_, .inr rfl⟩
  | unlock =>
    cases h
    exact ⟨_, .inl rfl⟩

/-- The writer has found the context live and has not been woken since, so it sleeps or may go to
sleep. -/
def WritePc.awaits : WritePc → Bool
  | .checkBuffer | .wait => true
  | .listed notified | .parked notified => !notified
  | _ => false

/-- The writer has found the context live but is not on the condition's list, where a broadcast
would find it. -/
def WritePc.unlisted : WritePc → Bool
  | .checkBuffer | .wait => true
  | _ => false

@[simp] theorem Writer.awaits_notify (w : Writer) : w.notify.pc.awaits = w.pc.unlisted := by
  cases w with
  | mk size pc => cases pc <;> rfl

theorem WriteStep.awaits (h : WriteStep c i size pc c' pc') (hctx : c.ctxDone = true)
    (ha : pc'.awaits = true) : pc.awaits = true := by
  cases h with
  | live hlive =>
    rw [hlive] at hctx
    cases hctx
  | lock | done | room | wake | unlock | send | fail => cases ha
  | full | wait => rfl
  | park => exact ha

theorem WriteStep.frame (h : WriteStep c i size pc c' pc') :
    c'.writers = c.writers ∧ c'.closings = c.closings ∧ c'.ctxDone = c.ctxDone := by
  cases h <;> exact ⟨rfl, rfl, rfl⟩

/-- A broadcast finds every writer that waits, and no context is canceled under one. -/
def BaseChannel.NoLostWakeup (c : BaseChannel) : BaseChannelAct → Prop
  | .closing i =>
    (c.closings[i]?.map Closing.pc = some .broadcast → ∀ w ∈ c.writers, w.pc.unlisted = false) ∧
    ∀ close, c.closings[i]?.map Closing.pc = some (.peerDone close) →
      c.ctxDone = true ∨ ∀ w ∈ c.writers, w.pc.awaits = false
  | _ => True

def BaseChannel.Wakes (c : BaseChannel) : Prop :=
  c.ctxDone = true →
    (∃ cl ∈ c.closings, cl.pc = .broadcast) ∨ ∀ w ∈ c.writers, w.pc.awaits = false

theorem BaseChannel.Wakes.write {c : BaseChannel} (h : c.Wakes) (hw : c.writers[i]? = some w)
    (hs : WriteStep c i w.size w.pc c' pc') : (c'.setWriter i { w with pc := pc' }).Wakes := by
  obtain ⟨hwriters, hclosings, hctx⟩ := hs.frame
  intro hdone
  have hdone : c.ctxDone = true := hctx ▸ hdone
  rcases h hdone with hbroadcast | hawake
  · left
    rw [setWriter, hclosings]
    exact hbroadcast
  · right
    intro w' hmem
    obtain ⟨j, hj⟩ := List.mem_iff_getElem?.1 hmem
    rw [setWriter, hwriters] at hj
    rcases getElem?_set_cases hj with ⟨_, rfl⟩ | ⟨_, hj⟩
    · by_contra ha
      have hwas := hs.awaits hdone (Bool.eq_true_of_not_eq_false ha)
      rw [hawake w (List.mem_of_getElem? hw)] at hwas
      cases hwas
    · exact hawake w' (List.mem_of_getElem? hj)

theorem exists_broadcast_set {l : List Closing} (hcl : l[i]? = some cl) (hpc : cl.pc ≠ .broadcast)
    (h : ∃ cl ∈ l, cl.pc = .broadcast) : ∃ cl' ∈ l.set i new, cl'.pc = .broadcast := by
  obtain ⟨other, hmem, hother⟩ := h
  obtain ⟨j, hj⟩ := List.mem_iff_getElem?.1 hmem
  have hne : i ≠ j := by
    rintro rfl
    rw [hcl] at hj
    cases hj
    exact hpc hother
  refine ⟨other, List.mem_iff_getElem?.2 ⟨j, ?_⟩, hother⟩
  rw [List.getElem?_set_ne hne]
  exact hj

theorem BaseChannel.Wakes.of_eq {c c' : BaseChannel} (h : c.Wakes) (hctx : c'.ctxDone = c.ctxDone)
    (hcl : (∃ cl ∈ c.closings, cl.pc = .broadcast) → ∃ cl ∈ c'.closings, cl.pc = .broadcast)
    (hw : (∀ w ∈ c.writers, w.pc.awaits = false) → ∀ w ∈ c'.writers, w.pc.awaits = false) :
    c'.Wakes := by
  intro hdone
  rcases h (hctx ▸ hdone) with hbroadcast | hawake
  · exact .inl (hcl hbroadcast)
  · exact .inr (hw hawake)

theorem BaseChannel.Wakes.closing {c : BaseChannel} (h : c.Wakes) (hcl : c.closings[i]? = some cl)
    (hok : c.NoLostWakeup (.closing i)) (hs : ClosingStep c i cl.op cl.pc c' pc') :
    (c'.setClosing i { cl with pc := pc' }).Wakes := by
  obtain ⟨hlisted, hpeer⟩ := hok
  obtain ⟨op, pc⟩ := cl
  have hmoved : pc ≠ .broadcast → (∃ cl ∈ c.closings, cl.pc = .broadcast) →
      ∃ cl' ∈ c.closings.set i { op, pc := pc' }, cl'.pc = .broadcast :=
    fun hpc => exists_broadcast_set hcl hpc
  cases hs with
  | cancel =>
    -- the operation itself is the one that broadcasts next
    intro _
    left
    exact ⟨_, List.mem_set (List.getElem?_eq_some_iff.1 hcl).1 _, rfl⟩
  | broadcast =>
    intro _
    right
    intro w hw
    obtain ⟨w₀, hw₀, rfl⟩ := List.mem_map.1 hw
    rw [Writer.awaits_notify]
    exact hlisted (by rw [hcl]; rfl) w₀ hw₀
  | peerDone hpc =>
    intro _
    rcases hpeer _ (by rw [hcl]; rfl) with hdone | hawake
    · rcases h hdone with hbroadcast | hawake
      · exact .inl (hmoved ClosingPc.noConfusion hbroadcast)
      · exact .inr hawake
    · exact .inr hawake
  | lock => exact h.of_eq rfl (hmoved (by decide)) id
  | again => exact h.of_eq rfl (hmoved (by decide)) id
  | close | lost | live | gracefulClose | unlock => exact h.of_eq rfl (hmoved (by decide)) id

theorem BaseChannel.Wakes.callback {c : BaseChannel} (h : c.Wakes)
    (hs : callbackStep c c.callback = some (c', pc')) : Wakes { c' with callback := pc' } := by
  obtain ⟨mu, rfl | rfl⟩ := callbackStep_eq hs
  · exact h
  · refine h.of_eq rfl id ?_
    intro hawake w hw
    obtain ⟨w₀, hw₀, rfl⟩ := List.mem_map.1 hw
    have hw₀ := hawake w₀ hw₀
    rw [Writer.awaits_notify]
    cases hpc : w₀.pc <;> rw [hpc] at hw₀ <;> first | rfl | cases hw₀

theorem BaseChannel.wakes_step {c : BaseChannel} (h : c.Wakes) (hok : c.NoLostWakeup a)
    (hs : baseChannelStep c a = some c') : c'.Wakes := by
  cases a with
  | startWrite size =>
    cases hs
    refine h.of_eq rfl id ?_
    intro hawake w hw
    rcases List.mem_append.1 hw with hw | hw
    · exact hawake w hw
    · rw [List.mem_singleton.1 hw]
      rfl
  | write i sent =>
    obtain ⟨w, hw, hs⟩ := Option.bind_eq_some_iff.1 hs
    obtain ⟨⟨c₁, pc⟩, hstep, rfl⟩ := Option.map_eq_some_iff.1 hs
    exact h.write hw (writeStep_step hstep)
  | startClosing op =>
    cases hs
    refine h.of_eq rfl ?_ id
    rintro ⟨cl, hmem, hpc⟩
    exact ⟨cl, List.mem_append_left _ hmem, hpc⟩
  | closing i =>
    obtain ⟨cl, hcl, hs⟩ := Option.bind_eq_some_iff.1 hs
    obtain ⟨⟨c₁, pc⟩, hstep, rfl⟩ := Option.map_eq_some_iff.1 hs
    exact h.closing hcl hok (closingStep_step hstep)
  | drain n =>
    simp only [baseChannelStep] at hs
    split at hs
    · cases hs
      exact h
    · cases hs
  | callback =>
    obtain ⟨⟨c₁, pc⟩, hstep, rfl⟩ := Option.map_eq_some_iff.1 hs
    exact h.callback hstep
  | dataChannelClose =>
    cases hs
    exact h

/-- If every broadcast finds the writers, none sleeps on a channel that is done and has finished
closing. -/
theorem writers_awake {c : BaseChannel}
    (h : baseChannelMachine.ReachableWith BaseChannel.NoLostWakeup c) (hctx : c.ctxDone = true)
    (hdone : ∀ cl ∈ c.closings, cl.pc = .done) : ∀ w ∈ c.writers, w.pc ≠ .parked false := by
  have hwakes : c.Wakes := by
    refine h.invariant ?_ fun _ _ _ hI hok hs => BaseChannel.wakes_step hI hok hs
    rintro c rfl hctx
    cases hctx
  rcases hwakes hctx with ⟨cl, hmem, hpc⟩ | hawake
  · rw [hdone cl hmem] at hpc
    cases hpc
  · intro w hw hpc
    have ha := hawake w hw
    rw [hpc] at ha
    cases ha

instance (c : BaseChannel) (a : BaseChannelAct) : Decidable (c.NoLostWakeup a) := by
  cases a with
  | closing i =>
    have hpeer : Decidable (∀ close, c.closings[i]?.map Closing.pc = some (.peerDone close) →
        c.ctxDone = true ∨ ∀ w ∈ c.writers, w.pc.awaits = false) := inferInstance
    exact inferInstanceAs (Decidable (_ ∧ _))
  | _ => exact inferInstanceAs (Decidable True)

def fillAndWait : List BaseChannelAct :=
  [.startWrite bufferThreshold, .write 0 .ok, .write 0 .ok, .write 0 .ok, .write 0 .ok,
    .write 0 .ok, .startWrite 1, .write 1 .ok, .write 1 .ok, .write 1 .ok]

def closeRun : List BaseChannelAct :=
  .startClosing (.closeWithReason none) :: List.replicate 6 (.closing 0)

theorem writers_awake_close :
    ∃ c, baseChannelMachine.Reachable c ∧ c.ctxDone = true ∧
      (∀ cl ∈ c.closings, cl.pc = .done) ∧ (c.writers[1]?.map Writer.pc = some (.parked true)) ∧
      ∀ w ∈ c.writers, w.pc ≠ .parked false := by
  obtain ⟨c, hr, hctx, hdone, hpc⟩ : ∃ c,
      baseChannelMachine.ReachableWith BaseChannel.NoLostWakeup c ∧ c.ctxDone = true ∧
      (∀ cl ∈ c.closings, cl.pc = .done) ∧ c.writers[1]?.map Writer.pc = some (.parked true) :=
    baseChannelMachine.exists_reachableWith BaseChannel.NoLostWakeup {}
      (fillAndWait ++ ([.write 1 .ok, .write 1 .ok] : List BaseChannelAct) ++ closeRun) rfl
      (by decide +kernel)
  exact ⟨c, hr.reachable, hctx, hdone, hpc, writers_awake hr hctx hdone⟩

/-- The channel is closed between the check of the buffer and the wait. -/
theorem writer_sleeps :
    ∃ c, baseChannelMachine.Reachable c ∧ c.ctxDone = true ∧ c.closed = true ∧
      (∀ cl ∈ c.closings, cl.pc = .done) ∧ c.dataChannelOpen = false ∧
      (c.writers[1]?.map Writer.pc = some (.parked false)) :=
  baseChannelMachine.exists_reachable {}
    (fillAndWait ++ closeRun ++ ([.write 1 .ok, .write 1 .ok] : List BaseChannelAct)) rfl
    (by decide +kernel)

end Goutils.Rpc
