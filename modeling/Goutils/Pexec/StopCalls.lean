import Goutils.Pexec.ManagedProcess

namespace Goutils.Pexec
open Lib
set_option autoImplicit true

/-- A call of `Stop`: it waits for the lock, acts, or has found `stopped` set. -/
inductive StopCall where
  | waiting
  | acting
  | early (stop : StopPc)
  deriving DecidableEq

structure StopCalls where
  proc : ManagedProcess := {}
  calls : List StopCall := []

inductive StopCallsAct where
  | call
  | enter (i : Nat)
  | proc (a : ProcessAct)

def StopCalls.enter (s : StopCalls) (i : Nat) : Option StopCalls :=
  if s.calls[i]? = some .waiting ∧ s.proc.mu = none then
    if s.proc.stopped then some { s with calls := s.calls.set i (.early s.proc.stop) }
    else some {
      proc := { s.proc with mu := some .stop, stop := .locked }
      calls := s.calls.set i .acting }
  else none

def stopCallsStep (s : StopCalls) : StopCallsAct → Option StopCalls
  | .call => some { s with calls := s.calls ++ [.waiting] }
  | .enter i => s.enter i
  | .proc a =>
    match a with
    | .stop a => if s.proc.stop = .idle then none else
        (processStep s.proc (.stop a)).map fun proc => { s with proc }
    | a => (processStep s.proc a).map fun proc => { s with proc }

inductive CallsStep (s : StopCalls) : StopCalls → Prop where
  | call : CallsStep s { s with calls := s.calls ++ [.waiting] }
  | early : s.proc.stopped = true →
      CallsStep s { s with calls := s.calls.set i (.early s.proc.stop) }
  | enter : s.proc.mu = none → s.proc.stopped = false →
      CallsStep s {
        proc := { s.proc with mu := some .stop, stop := .locked }
        calls := s.calls.set i .acting }
  | proc : processStep s.proc a = some proc → (∀ b, a = .stop b → s.proc.stop ≠ .idle) →
      CallsStep s { s with proc }

theorem stopCallsStep_step {s : StopCalls} (h : stopCallsStep s a = some s') : CallsStep s s' := by
  cases a with
  | call =>
    cases h
    exact .call
  | enter i =>
    simp only [stopCallsStep, StopCalls.enter] at h
    split at h
    · rename_i hmu
      split at h
      · cases h
        exact .early ‹_›
      · cases h
        exact .enter hmu.2 (Bool.eq_false_of_not_eq_true ‹_›)
    · cases h
  | proc a =>
    cases a with
    | stop a =>
      simp only [stopCallsStep] at h
      split at h
      · cases h
      · obtain ⟨proc, hproc, rfl⟩ := Option.map_eq_some_iff.1 h
        exact .proc hproc fun _ _ => ‹_›
    | manage i a | exit child e =>
      obtain ⟨proc, hproc, rfl⟩ := Option.map_eq_some_iff.1 h
      exact .proc hproc nofun

def stopCallsMachine : Machine StopCalls StopCallsAct where
  init s := s = {}
  step := stopCallsStep

namespace ManagedProcess

variable {s s' : ManagedProcess}

structure SameStop (s s' : ManagedProcess) : Prop where
  stop : s'.stop = s.stop
  stopped : s'.stopped = s.stopped
  killCh : s'.killCh = s.killCh

theorem Step.sameStop (h : Step s i a pc s') : SameStop s s' := by
  cases h <;> exact ⟨rfl, rfl, rfl⟩

theorem sameStop_of_manage (h : processStep s (.manage i a) = some s') : SameStop s s' := by
  obtain ⟨pc, _, h⟩ := Option.bind_eq_some_iff.1 h
  exact (manage_step h).sameStop

theorem sameStop_of_exit (h : processStep s (.exit child e) = some s') : SameStop s s' := by
  obtain ⟨c, _, h⟩ := Option.bind_eq_some_iff.1 h
  split at h
  · cases h
    exact ⟨rfl, rfl, rfl⟩
  · cases h

theorem reachable_step (h : processMachine.Reachable s) (hs : processStep s a = some s') :
    processMachine.Reachable s' := Machine.ReachableWith.step (a := a) h trivial hs

theorem runStop_returned (s : ManagedProcess) (r : StopResult) (a : StopAct) :
    s.runStop (.returned r) a = none := by
  cases a <;> rfl

/-- The children of `s'` are those of `s`, of which some may have died. -/
structure NoneStarted (s s' : ManagedProcess) : Prop where
  length : s'.children.length = s.children.length
  alive : ∀ child, s'.Alive child → s.Alive child

theorem NoneStarted.of_children (h : s'.children = s.children) : NoneStarted s s' := by
  refine ⟨congrArg List.length h, ?_⟩
  intro child halive
  rw [Alive, h] at halive
  exact halive

theorem noneStarted_of_killed (hi : s.Inv true) (hk : s.killCh = true)
    (h : processStep s a = some s') : s'.killCh = true ∧ NoneStarted s s' := by
  cases a with
  | manage i a =>
    obtain ⟨pc, hpc, h⟩ := Option.bind_eq_some_iff.1 h
    cases manage_step h with
    | launch =>
      rw [hi.launch (List.mem_of_getElem? hpc)] at hk
      cases hk
    | _ => exact ⟨hk, .of_children rfl⟩
  | stop a =>
    have hs := runStop_step h
    generalize s.stop = pc at hs
    cases hs with
    | close => exact ⟨rfl, .of_children rfl⟩
    | _ => exact ⟨hk, .of_children rfl⟩
  | exit child e =>
    obtain ⟨c, _, h⟩ := Option.bind_eq_some_iff.1 h
    split at h
    · cases h
      refine ⟨hk, List.length_set, ?_⟩
      rintro a ⟨c', hc', hexit⟩
      rcases getElem?_set_cases hc' with ⟨_, rfl⟩ | ⟨_, hc'⟩
      · cases hexit
      · exact ⟨c', hc', hexit⟩
    · cases h

end ManagedProcess

namespace StopCalls

/-- The process is one in use, and what early calls have found is still so. -/
structure Inv (s : StopCalls) : Prop where
  proc : processMachine.Reachable s.proc
  entered : s.proc.stop ≠ .lock
  late : s.proc.stop.early = false → s.proc.stopped = true
  killed : s.proc.stopped = true → s.proc.killCh = true
  early : ∀ stop, .early stop ∈ s.calls →
    s.proc.stopped = true ∧ ∀ r, stop = .returned r → s.proc.stop = .returned r

namespace Inv

variable {s s' : StopCalls} {proc : ManagedProcess}

theorem idle (h : s.Inv) (hmu : s.proc.mu = none) (hstopped : s.proc.stopped = false) :
    s.proc.stop = .idle := by
  have howned := (ManagedProcess.inv_of_reachable h.proc).owned .stop
  have hlate := h.late
  have hentered := h.entered
  rw [hmu] at howned
  rw [hstopped] at hlate
  simp only [ManagedProcess.held] at howned
  cases hpc : s.proc.stop with
  | idle => rfl
  | lock => exact absurd hpc hentered
  | locked =>
    rw [hpc] at howned
    cases howned.2 rfl
  | _ =>
    rw [hpc] at hlate
    cases hlate rfl

theorem enter (h : s.Inv) (hmu : s.proc.mu = none) (hstopped : s.proc.stopped = false) (i : Nat) :
    Inv {
      proc := { s.proc with mu := some .stop, stop := .locked }
      calls := s.calls.set i .acting } := by
  have hidle := h.idle hmu hstopped
  refine ⟨?_, nofun, nofun, h.killed, ?_⟩
  · have hlock : processStep s.proc (.stop .next) = some { s.proc with stop := .lock } := by
      rw [processStep, hidle]
      rfl
    have hlocked : processStep { s.proc with stop := .lock } (.stop .next) =
        some { s.proc with mu := some .stop, stop := .locked } := by
      simp only [processStep, ManagedProcess.runStop, hmu, if_true]
    exact ManagedProcess.reachable_step (ManagedProcess.reachable_step h.proc hlock) hlocked
  · intro stop hmem
    rcases List.mem_or_eq_of_mem_set hmem with hmem | heq
    · rw [(h.early stop hmem).1] at hstopped
      cases hstopped
    · cases heq

theorem sameStop (h : s.Inv) (hr : processMachine.Reachable proc)
    (hs : ManagedProcess.SameStop s.proc proc) : Inv { s with proc } where
  proc := hr
  entered := by rw [hs.stop]; exact h.entered
  late := by rw [hs.stop, hs.stopped]; exact h.late
  killed := by rw [hs.stopped, hs.killCh]; exact h.killed
  early := by rw [hs.stop, hs.stopped]; exact h.early

theorem act (h : s.Inv) (hidle : s.proc.stop ≠ .idle)
    (hs : processStep s.proc (.stop a) = some proc) : Inv { s with proc } := by
  have hr := ManagedProcess.reachable_step h.proc hs
  -- A call that has returned takes no step, so what the others found remains.
  have hnot (r : StopResult) : s.proc.stop ≠ .returned r := by
    intro hpc
    rw [processStep, hpc, ManagedProcess.runStop_returned] at hs
    cases hs
  have hmoved (hstop : proc.stop ≠ .lock) (hearly : proc.stop.early = s.proc.stop.early)
      (hstopped : proc.stopped = s.proc.stopped) (hkill : proc.killCh = s.proc.killCh) :
      Inv { s with proc } := by
    refine ⟨hr, hstop, ?_, ?_, ?_⟩
    · rw [hearly, hstopped]
      exact h.late
    · rw [hstopped, hkill]
      exact h.killed
    · intro stop hmem
      rw [hstopped]
      refine ⟨(h.early stop hmem).1, ?_⟩
      intro r hret
      exact absurd ((h.early stop hmem).2 r hret) (hnot r)
  have hstep := ManagedProcess.runStop_step hs
  generalize hpc : s.proc.stop = pc at hstep
  rw [hpc] at hmoved
  cases hstep with
  | lock => exact absurd hpc h.entered
  | again hstopped =>
    rw [(ManagedProcess.inv_of_reachable h.proc).early (by rw [hpc]; rfl)] at hstopped
    cases hstopped
  | close hstopped =>
    refine ⟨hr, nofun, fun _ => rfl, fun _ => rfl, ?_⟩
    intro stop hmem
    rw [(h.early stop hmem).1] at hstopped
    cases hstopped
  | unlock hat =>
    rcases hat with rfl | ⟨_, rfl⟩
    · exact hmoved nofun rfl rfl rfl
    · exact hmoved nofun rfl rfl rfl
  | join => exact hmoved nofun rfl rfl rfl
  | move hold _ hearly _ =>
    refine hmoved ?_ hearly rfl rfl
    rintro rfl
    -- Only an idle call gets to the lock.
    cases pc with
    | idle => exact hidle hpc
    | lock => exact h.entered hpc
    | locked => cases hold
    | _ => cases hearly

theorem step (h : s.Inv) (hs : CallsStep s s') : s'.Inv := by
  cases hs with
  | call =>
    refine { h with early := ?_ }
    intro stop hmem
    rcases List.mem_append.1 hmem with hmem | hmem
    · exact h.early stop hmem
    · cases List.mem_singleton.1 hmem
  | early hstopped =>
    refine { h with early := ?_ }
    intro stop hmem
    rcases List.mem_or_eq_of_mem_set hmem with hmem | heq
    · exact h.early stop hmem
    · cases heq
      exact ⟨hstopped, fun _ hr => hr⟩
  | enter hmu hstopped => exact h.enter hmu hstopped _
  | @proc a _ hproc hidle =>
    have hr := ManagedProcess.reachable_step h.proc hproc
    cases a with
    | manage i a => exact h.sameStop hr (ManagedProcess.sameStop_of_manage hproc)
    | stop a => exact h.act (hidle a rfl) hproc
    | exit child e => exact h.sameStop hr (ManagedProcess.sameStop_of_exit hproc)

end Inv

theorem inv_of_reachable (h : stopCallsMachine.Reachable s) : s.Inv := by
  apply h.invariant
  · rintro s rfl
    exact ⟨.init rfl, nofun, nofun, nofun, nofun⟩
  · exact fun s a s' hi hs => hi.step (stopCallsStep_step hs)

theorem noneStarted_of_killed {s s' : StopCalls} (h : s.Inv) (hk : s.proc.killCh = true)
    (hs : CallsStep s s') : s'.proc.killCh = true ∧ ManagedProcess.NoneStarted s.proc s'.proc := by
  cases hs with
  | proc hproc _ =>
    exact ManagedProcess.noneStarted_of_killed (ManagedProcess.inv_of_reachable h.proc) hk hproc
  | _ => exact ⟨hk, .of_children rfl⟩

theorem noneStarted_of_exec {s s' : StopCalls} (h : s.Inv) (hk : s.proc.killCh = true)
    (he : stopCallsMachine.exec s as = some s') : ManagedProcess.NoneStarted s.proc s'.proc := by
  induction as generalizing s with
  | nil =>
    cases he
    exact .of_children rfl
  | cons a as ih =>
    obtain ⟨t, ht, he⟩ := Option.bind_eq_some_iff.1 he
    have hs := stopCallsStep_step ht
    obtain ⟨hkill, hstep⟩ := noneStarted_of_killed h hk hs
    have hrest := ih (h.step hs) hkill he
    refine ⟨hrest.length.trans hstep.length, ?_⟩
    intro child halive
    exact hstep.alive child (hrest.alive child halive)

end StopCalls

/-- Where a `Start` of a one shot process stands. The lock is held while the child is `running`, and
`cmd` is not set. -/
inductive OneShotPc where
  | lock
  | check
  | running
  | unlock
  | done
  deriving DecidableEq

def OneShotPc.holds : OneShotPc → Bool
  | .check | .running | .unlock => true
  | _ => false

/-- A one shot process with the calls of its `Start` and of its `Stop`, which have returned or
not. -/
structure OneShotProcess where
  mu : Option Nat := none
  stopped : Bool := false
  killCh : Bool := false
  starts : List OneShotPc := []
  stops : List Bool := []

inductive OneShotAct where
  | callStart
  | callStop
  | start (i : Nat)
  | startFails (i : Nat)
  | stop (i : Nat)

namespace OneShotProcess

def set (s : OneShotProcess) (i : Nat) (pc : OneShotPc) : OneShotProcess :=
  { s with starts := s.starts.set i pc }

def start (s : OneShotProcess) (i : Nat) : OneShotPc → Option OneShotProcess
  | .lock => if s.mu = none then some { s.set i .check with mu := some i } else none
  | .check => some (s.set i (if s.killCh then .unlock else .running))
  | .running => some (s.set i .unlock)
  | .unlock => some { s.set i .done with mu := none }
  | .done => none

/-- `Stop` of a process without `cmd` holds the lock to its end, and returns nil. -/
def stop (s : OneShotProcess) (i : Nat) : Option OneShotProcess :=
  if s.stops[i]? = some false ∧ s.mu = none then
    some { s with stopped := true, killCh := true, stops := s.stops.set i true }
  else none

def step (s : OneShotProcess) : OneShotAct → Option OneShotProcess
  | .callStart => some { s with starts := s.starts ++ [.lock] }
  | .callStop => some { s with stops := s.stops ++ [false] }
  | .start i => s.starts[i]?.bind (s.start i)
  | .startFails i => if s.starts[i]? = some .check then some (s.set i .unlock) else none
  | .stop i => s.stop i

end OneShotProcess

def oneShotMachine : Machine OneShotProcess OneShotAct where
  init s := s = {}
  step := OneShotProcess.step

namespace OneShotProcess

structure Inv (s : OneShotProcess) : Prop where
  owned : MutexOwned s.mu (testAt s.starts OneShotPc.holds)
  running : .running ∈ s.starts → s.killCh = false
  returned : true ∈ s.stops → s.killCh = true

namespace Inv

variable {s s' : OneShotProcess} {i : Nat} {pc pc' : OneShotPc} {m : Option Nat}

theorem move (h : s.Inv) (hpc : s.starts[i]? = some pc)
    (hmu : MutexStep i s.mu pc.holds m pc'.holds) (hrun : pc' = .running → s.killCh = false) :
    Inv { s.set i pc' with mu := m } where
  owned := by
    show MutexOwned m (testAt (s.starts.set i pc') OneShotPc.holds)
    rw [testAt_set hpc]
    apply h.owned.step
    rwa [testAt_eq hpc]
  running hmem := by
    rcases List.mem_or_eq_of_mem_set hmem with hmem | heq
    · exact h.running hmem
    · exact hrun heq.symm
  returned := h.returned

theorem start (h : s.Inv) (hpc : s.starts[i]? = some pc) (hs : s.start i pc = some s') :
    s'.Inv := by
  unfold OneShotProcess.start at hs
  split at hs
  · split at hs
    · cases hs
      exact h.move hpc (.lock ‹_›) nofun
    · cases hs
  · cases hs
    split
    · exact h.move hpc .keep nofun
    · exact h.move hpc .keep fun _ => Bool.eq_false_of_not_eq_true ‹_›
  · cases hs
    exact h.move hpc .keep nofun
  · cases hs
    exact h.move hpc .unlock nofun
  · cases hs

theorem stop (h : s.Inv) (hs : s.stop i = some s') : s'.Inv := by
  unfold OneShotProcess.stop at hs
  split at hs
  · rename_i hmu
    cases hs
    refine ⟨h.owned, ?_, fun _ => rfl⟩
    intro hmem
    obtain ⟨j, hj⟩ := List.mem_iff_getElem?.1 hmem
    have hheld := (h.owned j).2 (testAt_eq hj OneShotPc.holds)
    rw [hmu.2] at hheld
    cases hheld
  · cases hs

theorem step (h : s.Inv) (hs : s.step a = some s') : s'.Inv := by
  cases a with
  | callStart =>
    cases hs
    refine ⟨?_, ?_, h.returned⟩
    · show MutexOwned s.mu (testAt (s.starts ++ [.lock]) OneShotPc.holds)
      rw [testAt_append (List.forall_mem_singleton.2 rfl)]
      exact h.owned
    · intro hmem
      rcases List.mem_append.1 hmem with hmem | hmem
      · exact h.running hmem
      · cases List.mem_singleton.1 hmem
  | callStop =>
    cases hs
    refine ⟨h.owned, h.running, ?_⟩
    intro hmem
    rcases List.mem_append.1 hmem with hmem | hmem
    · exact h.returned hmem
    · cases List.mem_singleton.1 hmem
  | start i =>
    obtain ⟨pc, hpc, hs⟩ := Option.bind_eq_some_iff.1 hs
    exact h.start hpc hs
  | startFails i =>
    simp only [OneShotProcess.step] at hs
    split at hs
    · rename_i hpc
      cases hs
      have hkeep : MutexStep i s.mu OneShotPc.check.holds s.mu OneShotPc.unlock.holds := .keep
      exact h.move hpc hkeep nofun
    · cases hs
  | stop i => exact h.stop hs

end Inv

theorem inv_of_reachable (h : oneShotMachine.Reachable s) : s.Inv := by
  apply h.invariant
  · rintro s rfl
    exact ⟨fun i => ⟨nofun, nofun⟩, nofun, nofun⟩
  · exact fun s a s' hi hs => hi.step hs

end OneShotProcess

namespace StopCall

def ReturnedNil (proc : ManagedProcess) : StopCall → Prop
  | .waiting => False
  | .acting => proc.stop = .returned .ok
  | .early _ => True

/-- It is the call that signals and waits, or came after that one had returned without an error of
`kill`. -/
def InTime : StopCall → Prop
  | .waiting => False
  | .acting => True
  | .early stop => ∃ r, stop = .returned r ∧ ∀ err, r ≠ .kill err

end StopCall

/-- When a `Stop` has returned nil no child is started again. None is alive then if it was the call
that waits, or came after that. -/
theorem no_child_after_stop {s : StopCalls} {o : OneShotProcess}
    (h : stopCallsMachine.Reachable s) (ho : oneShotMachine.Reachable o) :
    (∀ call ∈ s.calls, call.ReturnedNil s.proc → ∀ as s', stopCallsMachine.exec s as = some s' →
      s'.proc.children.length = s.proc.children.length ∧
        (call.InTime → ∀ child, ¬ s'.proc.Alive child)) ∧
      (true ∈ o.stops → .running ∉ o.starts) := by
  have hi := StopCalls.inv_of_reachable h
  have hproc := ManagedProcess.inv_of_reachable hi.proc
  constructor
  · intro call hmem hnil as s' he
    have hkill : s.proc.killCh = true := by
      cases call with
      | waiting => cases hnil
      | acting =>
        apply hproc.late
        rw [show s.proc.stop = _ from hnil]
        rfl
      | early stop => exact hi.killed (hi.early stop hmem).1
    have hlater := StopCalls.noneStarted_of_exec hi hkill he
    refine ⟨hlater.length, ?_⟩
    intro htime child halive
    apply absurd (hlater.alive child halive)
    cases call with
    | waiting => cases hnil
    | acting => exact hproc.returned .ok hnil nofun child
    | early stop =>
      obtain ⟨r, hr, hkillErr⟩ := htime
      exact hproc.returned r ((hi.early stop hmem).2 r hr) hkillErr child
  · intro hret hrun
    have hone := OneShotProcess.inv_of_reachable ho
    have hkill := hone.returned hret
    rw [hone.running hrun] at hkill
    cases hkill

def startRun : List StopCallsAct := List.replicate 7 (.proc (.manage 0 .next))

/-- Two calls of `Stop` come at once. The second returns after the first one has. -/
theorem no_child_after_stop_both :
    ∃ s o, stopCallsMachine.Reachable s ∧ s.calls = [.acting, .early (.returned .ok)] ∧
      s.proc.children.length = 1 ∧ (∀ child, ¬ s.proc.Alive child) ∧
      oneShotMachine.Reachable o ∧ o.stops = [true] ∧ o.starts = [.done] ∧ .running ∉ o.starts := by
  let run : List (List StopCallsAct) :=
    [startRun, [.call, .call, .enter 0], List.replicate 3 (.proc (.stop .next)),
      [.proc (.exit 0 (.waited ⟨false, -1⟩ (some { text := "signal: terminated" })))],
      List.replicate 3 (.proc (.manage 1 .next)), List.replicate 3 (.proc (.stop .next)),
      [.enter 1]]
  obtain ⟨s, hr, hcalls, hlen, hstop⟩ : ∃ s, stopCallsMachine.Reachable s ∧
      s.calls = [.acting, .early (.returned .ok)] ∧ s.proc.children.length = 1 ∧
      s.proc.stop = .returned .ok :=
    stopCallsMachine.exists_reachable {} run.flatten rfl (by decide +kernel)
  obtain ⟨o, hor, hstops, hstarts⟩ : ∃ o, oneShotMachine.Reachable o ∧ o.stops = [true] ∧
      o.starts = [.done] :=
    oneShotMachine.exists_reachable {}
      [.callStart, .callStop, .start 0, .start 0, .start 0, .start 0, .stop 0] rfl
      (by decide +kernel)
  obtain ⟨hall, hone⟩ := no_child_after_stop hr hor
  have hmem : .early (.returned .ok) ∈ s.calls := by simp [hcalls]
  have hnone := (hall _ hmem trivial [] s rfl).2 ⟨.ok, rfl, nofun⟩
  exact ⟨s, o, hr, hcalls, hlen, hnone, hor, hstops, hstarts, hone (by simp [hstops])⟩

/-- The second call finds `stopped` set by the first one, which has not yet sent a signal, and
returns nil while the child runs. -/
theorem stop_nil_while_running :
    ∃ s, stopCallsMachine.Reachable s ∧ s.calls = [.acting, .early .signal] ∧
      s.proc.stop = .signal ∧ s.proc.cmd = some 0 ∧ s.proc.Alive 0 := by
  let run : List (List StopCallsAct) :=
    [startRun, [.call, .call, .enter 0, .proc (.stop .next), .proc (.stop .next), .enter 1]]
  obtain ⟨s, hr, hcalls, hstop, hcmd, hchildren⟩ : ∃ s, stopCallsMachine.Reachable s ∧
      s.calls = [.acting, .early .signal] ∧ s.proc.stop = .signal ∧ s.proc.cmd = some 0 ∧
      s.proc.children = [{}] :=
    stopCallsMachine.exists_reachable {} run.flatten rfl (by decide +kernel)
  refine ⟨s, hr, hcalls, hstop, hcmd, {}, ?_, rfl⟩
  rw [hchildren]
  rfl

end Goutils.Pexec
