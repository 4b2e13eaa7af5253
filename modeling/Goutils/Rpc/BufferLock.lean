import Goutils.Rpc.BaseChannel

namespace Goutils.Rpc
open Lib
set_option autoImplicit true

/-- The channel's steps, and what `write` may find at any time. -/
inductive ObservedAct where
  | act (a : BaseChannelAct)
  | observe (ctxDone : Bool) (bufferedAmount : Nat)
  | marshalFails (e : GoErr)

def observedStep (c : BaseChannel) : ObservedAct → Option BaseChannel
  | .act a => baseChannelStep c a
  | .observe ctxDone bufferedAmount => some { c with ctxDone, bufferedAmount }
  | .marshalFails e => some { c with writers := c.writers ++ [{ size := 0, pc := .ret (some e) }] }

def observedMachine : Machine BaseChannel ObservedAct where
  init c := c = {}
  step := observedStep

def WritePc.mode : WritePc → LockMode
  | .checkCtx | .checkBuffer | .wait | .listed _ | .unlock => .read
  | .lock | .parked _ | .relock | .send | .ret _ => .free

def CallbackPc.mode : CallbackPc → LockMode
  | .broadcast | .unlock => .write
  | .idle | .lock => .free

def BaseChannel.mode (c : BaseChannel) : BufferHolder → LockMode
  | .writer i => modeAt c.writers (fun w => w.pc.mode) i
  | .callback => c.callback.mode

def BaseChannel.FindsLive (c : BaseChannel) : ObservedAct → Prop
  | .act (.write i _) => c.writers[i]?.map Writer.pc = some .checkCtx → c.ctxDone = false
  | _ => True

theorem WriteStep.lockStep (h : WriteStep c i size pc c' pc')
    (hlive : pc = .checkCtx → c.ctxDone = false) :
    LockStep (.writer i) c.bufferWriteMu pc.mode c'.bufferWriteMu pc'.mode := by
  cases h with
  | lock hcan hpc =>
    rcases hpc with rfl | rfl
    · exact .rlock hcan
    · exact .rlock hcan
  | done hdone =>
    rw [hlive rfl] at hdone
    cases hdone
  | live | full | room | wait | wake | send | fail => exact .keep
  | park | unlock => exact .runlock

theorem WriteStep.callback_eq (h : WriteStep c i size pc c' pc') : c'.callback = c.callback := by
  cases h <;> rfl

theorem Writer.mode_notify (w : Writer) : w.notify.pc.mode = w.pc.mode := by
  obtain ⟨size, pc⟩ := w
  cases pc <;> rfl

namespace BaseChannel

theorem mode_broadcast (c : BaseChannel) : c.broadcast.mode = c.mode := by
  funext t
  cases t with
  | writer i => exact congrFun (modeAt_map c.writers Writer.notify Writer.mode_notify) i
  | callback => rfl

theorem mode_setWriter {c c' : BaseChannel} (hw : c.writers[i]? = some w)
    (hwriters : c'.writers = c.writers) (hcallback : c'.callback = c.callback) :
    (c'.setWriter i w').mode = Function.update c.mode (.writer i) w'.pc.mode := by
  funext t
  cases t with
  | writer j =>
    simp only [mode, setWriter, hwriters, modeAt_set hw]
    by_cases hj : j = i
    · rw [hj, Function.update_self, Function.update_self]
    · have hne : BufferHolder.writer j ≠ .writer i := fun h => hj (BufferHolder.writer.inj h)
      rw [Function.update_of_ne hj, Function.update_of_ne hne, mode]
  | callback =>
    rw [Function.update_of_ne BufferHolder.noConfusion]
    exact congrArg CallbackPc.mode hcallback

theorem mode_startWrite (c : BaseChannel) (hw : w.pc.mode = .free) :
    ({ c with writers := c.writers ++ [w] } : BaseChannel).mode = c.mode := by
  funext t
  cases t with
  | writer i => exact congrFun (modeAt_concat c.writers hw) i
  | callback => rfl

end BaseChannel

theorem callbackStep_lockStep (h : callbackStep c pc = some (c', pc')) :
    LockStep .callback c.bufferWriteMu pc.mode c'.bufferWriteMu pc'.mode ∧
      ({ c' with callback := pc' } : BaseChannel).mode =
        Function.update c.mode .callback pc'.mode := by
  have hmode : ∀ c' : BaseChannel, (∀ i, c'.mode (.writer i) = c.mode (.writer i)) →
      ({ c' with callback := pc' } : BaseChannel).mode =
        Function.update c.mode .callback pc'.mode := by
    intro c' hsame
    funext t
    cases t with
    | writer i =>
      rw [Function.update_of_ne BufferHolder.noConfusion]
      exact hsame i
    | callback => rw [Function.update_self, BaseChannel.mode]
  cases pc with
  | idle => cases h
  | lock =>
    simp only [callbackStep] at h
    split at h <;> cases h
    exact ⟨.lock ‹_›, hmode _ fun _ => rfl⟩
  | broadcast =>
    cases h
    exact ⟨.keep, hmode _ fun i => congrFun c.mode_broadcast (.writer i)⟩
  | unlock =>
    cases h
    exact ⟨.unlock, hmode _ fun _ => rfl⟩

theorem ClosingStep.mode_eq (h : ClosingStep c i op pc c' pc') :
    c'.bufferWriteMu = c.bufferWriteMu ∧ c'.mode = c.mode := by
  cases h with
  | broadcast => exact ⟨rfl, c.mode_broadcast⟩
  | _ => exact ⟨rfl, rfl⟩

theorem baseChannelStep_owned {c : BaseChannel} (h : c.bufferWriteMu.Owned c.mode)
    (hok : c.FindsLive (.act a)) (hs : baseChannelStep c a = some c') :
    c'.bufferWriteMu.Owned c'.mode := by
  cases a with
  | startWrite size =>
    cases hs
    rw [BaseChannel.mode_startWrite c rfl]
    exact h
  | write i sent =>
    obtain ⟨w, hw, hs⟩ := Option.bind_eq_some_iff.1 hs
    obtain ⟨⟨c₁, pc⟩, hstep, rfl⟩ := Option.map_eq_some_iff.1 hs
    have hstep := writeStep_step hstep
    have hlive : w.pc = .checkCtx → c.ctxDone = false := by
      intro hpc
      apply hok
      rw [hw, Option.map_some, hpc]
    rw [BaseChannel.mode_setWriter hw hstep.frame.1 hstep.callback_eq]
    apply h.step
    rw [BaseChannel.mode, modeAt_eq hw]
    exact hstep.lockStep hlive
  | startClosing op | dataChannelClose =>
    cases hs
    exact h
  | closing i =>
    obtain ⟨cl, _, hs⟩ := Option.bind_eq_some_iff.1 hs
    obtain ⟨⟨c₁, pc⟩, hstep, rfl⟩ := Option.map_eq_some_iff.1 hs
    obtain ⟨hmu, hmode⟩ := (closingStep_step hstep).mode_eq
    show c₁.bufferWriteMu.Owned c₁.mode
    rw [hmu, hmode]
    exact h
  | drain n =>
    simp only [baseChannelStep] at hs
    split at hs
    · rename_i hc
      cases hs
      convert h using 1
      funext t
      cases t with
      | writer i => rfl
      | callback =>
        simp only [BaseChannel.mode, hc.2.1]
        split <;> rfl
    · cases hs
  | callback =>
    obtain ⟨⟨c₁, pc⟩, hstep, rfl⟩ := Option.map_eq_some_iff.1 hs
    obtain ⟨hlock, hmode⟩ := callbackStep_lockStep hstep
    rw [hmode]
    exact h.step hlock

theorem observedStep_owned {c : BaseChannel} (h : c.bufferWriteMu.Owned c.mode)
    (hok : c.FindsLive a) (hs : observedStep c a = some c') :
    c'.bufferWriteMu.Owned c'.mode := by
  cases a with
  | act a => exact baseChannelStep_owned h hok hs
  | observe ctxDone bufferedAmount =>
    cases hs
    exact h
  | marshalFails e =>
    cases hs
    rw [BaseChannel.mode_startWrite c rfl]
    exact h

/-- As long as no `write` finds the context done, none holds the lock when it has returned, and the
callback gets it once all have. -/
theorem write_releases {c : BaseChannel}
    (h : observedMachine.ReachableWith BaseChannel.FindsLive c) :
    (∀ i w err, c.writers[i]? = some w → w.pc = .ret err →
      ¬ c.bufferWriteMu.Holds (.writer i)) ∧
    ((∀ w ∈ c.writers, ∃ err, w.pc = .ret err) → c.callback = .lock →
      ∃ c', observedStep c (.act .callback) = some c') := by
  have howned : c.bufferWriteMu.Owned c.mode := by
    refine h.invariant ?_ fun _ _ _ hI hok hs => observedStep_owned hI hok hs
    rintro c rfl
    refine ⟨?_, ?_, .nil, .inl rfl⟩ <;> intro t <;> cases t <;> simp [BaseChannel.mode, modeAt,
      CallbackPc.mode]
  constructor
  · intro i w err hw hpc hholds
    have hmode : c.mode (.writer i) = .free := by
      rw [BaseChannel.mode, modeAt_eq hw, hpc]
      rfl
    rcases hholds with hwriter | hreader
    · have := (howned.writer _).1 hwriter
      rw [hmode] at this
      cases this
    · have := (howned.readers _).1 hreader
      rw [hmode] at this
      cases this
  · intro hret hlock
    have hcan : c.bufferWriteMu.canLock = true := by
      apply howned.free
      intro t
      cases t with
      | writer i =>
        rw [BaseChannel.mode]
        cases hw : c.writers[i]? with
        | none => rw [modeAt, hw, Option.map_none, Option.getD_none]
        | some w =>
          obtain ⟨err, hpc⟩ := hret w (List.mem_of_getElem? hw)
          rw [modeAt_eq hw, hpc]
          rfl
      | callback =>
        rw [BaseChannel.mode, hlock]
        rfl
    simp only [observedStep, baseChannelStep, hlock, callbackStep, hcan, if_true, Option.map_some]
    exact ⟨_, rfl⟩

instance (c : BaseChannel) (a : ObservedAct) : Decidable (c.FindsLive a) :=
  match a with
  | .act (.write _ _) => inferInstanceAs (Decidable (_ → _))
  | .act (.startWrite _) | .act (.startClosing _) | .act (.closing _) | .act (.drain _)
  | .act .callback | .act .dataChannelClose | .observe _ _ | .marshalFails _ => .isTrue trivial

/-- A write sends more than the threshold, a second one fails to send, and the first bytes leave
the buffer. -/
theorem write_releases_failed :
    ∃ c, observedMachine.Reachable c ∧ c.writers.map Writer.pc = [.ret none, .ret (some .eof)] ∧
      ∃ c', observedStep c (.act .callback) = some c' := by
  let run : List (List ObservedAct) :=
    [[.act (.startWrite (bufferThreshold + 1))], List.replicate 5 (.act (.write 0 .ok)),
      [.act (.startWrite 1), .observe false 0], List.replicate 5 (.act (.write 1 (.failed .eof))),
      [.observe false (bufferThreshold + 1), .act (.drain 1)]]
  obtain ⟨c, hr, hpcs, hcallback⟩ : ∃ c, observedMachine.ReachableWith BaseChannel.FindsLive c ∧
      c.writers.map Writer.pc = [.ret none, .ret (some .eof)] ∧ c.callback = .lock :=
    observedMachine.exists_reachableWith BaseChannel.FindsLive {} run.flatten rfl
      (by decide +kernel)
  refine ⟨c, hr.reachable, hpcs, (write_releases hr).2 ?_ hcallback⟩
  intro w hw
  have hmem : w.pc ∈ c.writers.map Writer.pc := List.mem_map_of_mem hw
  rw [hpcs] at hmem
  rcases List.mem_cons.1 hmem with hpc | hmem
  · exact ⟨_, hpc⟩
  · exact ⟨_, List.mem_singleton.1 hmem⟩

/-- A write returns with the lock, and the callback cannot go on although no call of `write` is
left. -/
theorem write_keeps_lock :
    ∃ c, baseChannelMachine.Reachable c ∧
      c.writers.map Writer.pc = [.ret none, .ret (some .errClosedPipe)] ∧
      c.bufferWriteMu.Holds (.writer 1) ∧ c.callback = .lock ∧
      baseChannelStep c .callback = none := by
  let run : List (List BaseChannelAct) :=
    [[.startWrite (bufferThreshold + 1)], List.replicate 5 (.write 0 .ok),
      [.startClosing (.closeWithReason none)], List.replicate 3 (.closing 0),
      [.startWrite 1, .write 1 .ok, .write 1 .ok, .drain 1]]
  obtain ⟨c, hr, hpcs, hreaders, hcallback, hstuck⟩ : ∃ c, baseChannelMachine.Reachable c ∧
      c.writers.map Writer.pc = [.ret none, .ret (some .errClosedPipe)] ∧
      c.bufferWriteMu.readers = [.writer 1] ∧ c.callback = .lock ∧
      baseChannelStep c .callback = none :=
    baseChannelMachine.exists_reachable {} run.flatten rfl (by decide +kernel)
  have hholds : c.bufferWriteMu.Holds (.writer 1) := by
    right
    rw [hreaders]
    exact List.mem_singleton_self _
  exact ⟨c, hr, hpcs, hholds, hcallback, hstuck⟩

end Goutils.Rpc
