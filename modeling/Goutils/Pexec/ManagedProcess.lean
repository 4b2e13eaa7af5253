import Goutils.Lib.Sync

namespace Goutils.Pexec
open Lib
set_option autoImplicit true

/-- An error of `cmd.Wait`, and whether it is `syscall.ECHILD`. -/
structure WaitError where
  text : String
  echild : Bool := false
  deriving DecidableEq

structure ProcessState where
  success : Bool := true
  exitCode : Int := 0
  deriving DecidableEq

/-- What `cmd.Wait` tells of a child that has died. It may fail without a `ProcessState`, as where
someone else has waited for the child. -/
inductive Exit where
  | waited (state : ProcessState) (waitErr : Option WaitError)
  | unwaited (waitErr : WaitError)
  deriving DecidableEq

namespace Exit

def waitErr : Exit → Option WaitError
  | .waited _ waitErr => waitErr
  | .unwaited waitErr => some waitErr

def processState : Exit → Option ProcessState
  | .waited state _ => some state
  | .unwaited _ => none

end Exit

/-- A child, which is alive until it has an `Exit`, and whether `killCh` was closed already when it
was started. -/
structure Child where
  exit : Option Exit := none
  afterKill : Bool := false
  deriving DecidableEq

inductive StartErr where
  | alreadyStopped
  | failed (text : String)
  deriving DecidableEq

/-- Where a goroutine stands: in `Start` up to `unlock`, in `manage` from `wait` on. The deferred
function is run by a return or by a panic. -/
inductive ManagePc where
  | idle
  | lock
  | check
  | launch
  | assign (child : Nat)
  | spawn
  | unlock (err : Option StartErr)
  | wait
  | checkKill
  | unexpectedExit
  | temper
  | closing (panicked : Bool)
  | done
  deriving DecidableEq

inductive KillErr where
  | signal
  | signalGroup
  | killGroup
  deriving DecidableEq

inductive StopResult where
  | ok
  | kill (err : KillErr)
  | wait (err : WaitError)
  | exitCode (code : Int)
  deriving DecidableEq

/-- Where the `Stop` stands: `signal` to `killGroup` are `kill`, and `join` waits for the end of
management. -/
inductive StopPc where
  | idle
  | lock
  | locked
  | closed
  | signal
  | timer
  | signalGroup
  | timer2
  | killGroup
  | join (forceKilled : Bool)
  | returned (result : StopResult)
  deriving DecidableEq

inductive Holder where
  | goroutine (i : Nat)
  | stop
  deriving DecidableEq

/-- `managedProcess` with its children and goroutines; the first of these is the owner. -/
structure ManagedProcess where
  mu : Option Holder := none
  cmd : Option Nat := none
  stopped : Bool := false
  killCh : Bool := false
  managingCh : Nat := 0
  lastWaitErr : Option WaitError := none
  children : List Child := []
  goroutines : List ManagePc := [.idle]
  stop : StopPc := .idle

/-- What the environment chooses for a goroutine. -/
inductive ManageAct where
  | next
  | fails (err : StartErr)
  | restart (restart : Bool)
  | tick
  deriving DecidableEq

inductive StopAct where
  | next
  | fails
  | tick
  deriving DecidableEq

/-- What `manage` does when the `Start` of a restart returns. The owner does not close
`managingCh`. -/
def afterStart (i : Nat) (err : Option StartErr) : ManagePc :=
  if i = 0 ∨ err = none then .done else .closing false

def isWaitErrUnknown (err : String) (_forceKilled : Bool) : Bool :=
  err = "signal: interrupt" || err = "signal: terminated" || err = "signal: killed"

namespace ManagedProcess

def set (s : ManagedProcess) (i : Nat) (pc : ManagePc) : ManagedProcess :=
  { s with goroutines := s.goroutines.set i pc }

def cmdExit (s : ManagedProcess) : Option Exit :=
  s.cmd.bind fun c => s.children[c]?.bind Child.exit

/-- `Wait` has failed without a `ProcessState`. -/
def stateless (s : ManagedProcess) : Bool := s.cmdExit.any fun exit => exit.processState.isNone

/-- One step of the goroutine `i`, in `Start` or in `manage`. -/
def manage (s : ManagedProcess) (i : Nat) : ManagePc → ManageAct → Option ManagedProcess
  | .idle, .next => some (s.set i .lock)
  | .lock, .next =>
    if s.mu = none then some { s.set i .check with mu := some (.goroutine i) } else none
  | .check, .next =>
    some (s.set i (if s.killCh then .unlock (some .alreadyStopped) else .launch))
  | .launch, .fails err => some (s.set i (.unlock (some err)))
  | .launch, .next =>
    some { s.set i (.assign s.children.length) with
      children := s.children ++ [{ afterKill := s.killCh }] }
  | .assign child, .next => some { s.set i .spawn with cmd := some child }
  | .spawn, .next =>
    some { s with goroutines := s.goroutines.set i (.unlock none) ++ [.wait] }
  | .unlock err, .next => some { s.set i (afterStart i err) with mu := none }
  | .wait, .next =>
    s.cmdExit.map fun exit => { s.set i .checkKill with lastWaitErr := exit.waitErr }
  | .checkKill, .next => some (s.set i (if s.killCh then .closing false else .unexpectedExit))
  -- Without a `ProcessState`, `Exited` panics.
  | .unexpectedExit, .restart restart => some (s.set i (if restart = false then .closing false
      else if s.stateless then .closing true else .temper))
  | .temper, .tick => some (s.set i .lock)
  | .temper, .next => if s.killCh then some (s.set i (.closing false)) else none
  -- After a panic, which the second `close` is too, `ManagedGo` runs `manage` again.
  | .closing panicked, .next =>
    some { s.set i (if panicked = true ∨ 0 < s.managingCh then .wait else .done) with
      managingCh := s.managingCh + 1 }
  | _, _ => none

def stopResult (s : ManagedProcess) (forceKilled : Bool) : StopResult :=
  match s.lastWaitErr with
  | some err => if err.echild || isWaitErrUnknown err.text forceKilled then .ok else .wait err
  | none =>
    match s.cmdExit.bind Exit.processState with
    | some state => if state.success then .ok else .exitCode state.exitCode
    | none => .exitCode (-1)

def runStop (s : ManagedProcess) : StopPc → StopAct → Option ManagedProcess
  | .idle, .next => some { s with stop := .lock }
  | .lock, .next => if s.mu = none then some { s with mu := some .stop, stop := .locked } else none
  | .locked, .next =>
    if s.stopped then some { s with mu := none, stop := .returned .ok }
    else some { s with killCh := true, stopped := true, stop := .closed }
  | .closed, .next =>
    some { s with mu := none, stop := if s.cmd = none then .returned .ok else .signal }
  | .signal, .next => some { s with stop := .timer }
  | .signal, .fails => some { s with stop := .returned (.kill .signal) }
  | .timer, .tick => some { s with stop := .signalGroup }
  | .timer, .next => if 0 < s.managingCh then some { s with stop := .timer2 } else none
  | .signalGroup, .next => some { s with stop := .timer2 }
  | .signalGroup, .fails => some { s with stop := .returned (.kill .signalGroup) }
  | .timer2, .tick => some { s with stop := .killGroup }
  | .timer2, .next => if 0 < s.managingCh then some { s with stop := .join false } else none
  | .killGroup, .next => some { s with stop := .join true }
  | .killGroup, .fails => some { s with stop := .returned (.kill .killGroup) }
  | .join forceKilled, .next =>
    if 0 < s.managingCh then some { s with stop := .returned (s.stopResult forceKilled) } else none
  | _, _ => none

end ManagedProcess

inductive ProcessAct where
  | manage (i : Nat) (a : ManageAct)
  | stop (a : StopAct)
  | exit (child : Nat) (exit : Exit)

/-- A child may die at any time, on its own or by a signal. -/
def processStep (s : ManagedProcess) : ProcessAct → Option ManagedProcess
  | .manage i a => s.goroutines[i]?.bind fun pc => s.manage i pc a
  | .stop a => s.runStop s.stop a
  | .exit child exit =>
    s.children[child]?.bind fun c =>
      if c.exit = none then
        some { s with children := s.children.set child { c with exit := some exit } }
      else none

def processMachine : Machine ManagedProcess ProcessAct where
  init s := s = {}
  step := processStep

/-- A child that is to be replaced has a `ProcessState`. -/
def HasState (s : ManagedProcess) : ProcessAct → Prop
  | .manage _ (.restart true) => s.stateless = false
  | _ => True

namespace ManagePc

def holds : ManagePc → Bool
  | .check | .launch | .assign _ | .spawn | .unlock _ => true
  | _ => false

def retired : ManagePc → Bool
  | .unlock none | .done => true
  | _ => false

def Runs (cmd : Option Nat) (child : Nat) : ManagePc → Prop
  | .assign c => c = child
  | .spawn | .wait => cmd = some child
  | _ => False

theorem Runs.retired {pc : ManagePc} (h : pc.Runs cmd child) : pc.retired = false := by
  cases pc with
  | assign | spawn | wait => rfl
  | _ => cases h

theorem Runs.unique {pc : ManagePc} (h : pc.Runs cmd child) (h' : pc.Runs cmd child') :
    child = child' := by
  cases pc with
  | assign c => exact Eq.trans h.symm h'
  | spawn | wait => exact Option.some.inj (Eq.trans h.symm h')
  | _ => cases h

def quiet : ManagePc → Bool
  | .idle | .lock | .checkKill | .unexpectedExit | .temper | .closing _ => true
  | _ => false

/-- Where `manage` stays that runs again and again. -/
def loops : ManagePc → Bool
  | .wait | .checkKill | .unexpectedExit | .closing _ => true
  | _ => false

theorem of_quiet {pc : ManagePc} (h : pc.quiet = true) :
    pc.holds = false ∧ pc.retired = false ∧ ∀ cmd child, ¬ pc.Runs cmd child := by
  cases pc with
  | idle | lock | checkKill | unexpectedExit | temper | closing => exact ⟨rfl, rfl, fun _ _ => id⟩
  | _ => cases h

end ManagePc

def StopPc.holds : StopPc → Bool
  | .locked | .closed => true
  | _ => false

def StopPc.early : StopPc → Bool
  | .idle | .lock | .locked => true
  | _ => false

namespace ManagedProcess

inductive Step (s : ManagedProcess) (i : Nat) (a : ManageAct) :
    ManagePc → ManagedProcess → Prop where
  | lock : s.mu = none → Step s i a .lock { s.set i .check with mu := some (.goroutine i) }
  | pass : s.killCh = false → Step s i a .check (s.set i .launch)
  | abort : pc = .check ∨ pc = .launch → Step s i a pc (s.set i (.unlock (some err)))
  | launch : Step s i a .launch
      { s.set i (.assign s.children.length) with
        children := s.children ++ [{ afterKill := s.killCh }] }
  | assign : Step s i a (.assign child) { s.set i .spawn with cmd := some child }
  | spawn : Step s i a .spawn
      { s with goroutines := s.goroutines.set i (.unlock none) ++ [.wait] }
  | unlock : pc = .done ∨ err ≠ none ∧ pc = .closing false →
      Step s i a (.unlock err) { s.set i pc with mu := none }
  | wait : s.cmdExit = some exit →
      Step s i a .wait { s.set i .checkKill with lastWaitErr := exit.waitErr }
  | quiet : pc.quiet = true → pc'.quiet = true →
      (pc.loops = true → s.stateless = true → pc'.loops = true) →
      (pc' = .closing true → a = .restart true ∧ s.stateless = true) →
      Step s i a pc (s.set i pc')
  | close : pc = .wait ∧ (panicked = true ∨ 0 < s.managingCh) ∨
      pc = .done ∧ panicked = false ∧ ¬ 0 < s.managingCh →
      Step s i a (.closing panicked) { s.set i pc with managingCh := s.managingCh + 1 }

theorem manage_step {s : ManagedProcess} (h : s.manage i pc a = some s') : Step s i a pc s' := by
  unfold manage at h
  split at h
  · cases h
    exact .quiet rfl rfl nofun nofun
  · split at h
    · cases h
      exact .lock ‹_›
    · cases h
  · cases h
    split
    · exact .abort (.inl rfl)
    · exact .pass (Bool.eq_false_of_not_eq_true ‹_›)
  · cases h
    exact .abort (.inr rfl)
  · cases h
    exact .launch
  · cases h
    exact .assign
  · cases h
    exact .spawn
  · cases h
    apply Step.unlock
    unfold afterStart
    split
    · exact .inl rfl
    · rename_i hne
      exact .inr ⟨fun he => hne (.inr he), rfl⟩
  · obtain ⟨exit, he, rfl⟩ := Option.map_eq_some_iff.1 h
    exact .wait he
  · cases h
    split
    · exact .quiet rfl rfl (fun _ _ => rfl) nofun
    · exact .quiet rfl rfl (fun _ _ => rfl) nofun
  · rename_i restart
    cases h
    cases restart with
    | false => exact .quiet rfl rfl (fun _ _ => rfl) nofun
    | true =>
      cases hstate : s.stateless with
      | true => exact .quiet rfl rfl (fun _ _ => rfl) fun _ => ⟨rfl, hstate⟩
      | false => exact .quiet rfl rfl (fun _ h => by rw [hstate] at h; cases h) nofun
  · cases h
    exact .quiet rfl rfl nofun nofun
  · split at h
    · cases h
      exact .quiet rfl rfl nofun nofun
    · cases h
  · rename_i panicked
    cases h
    apply Step.close
    split
    · exact .inl ⟨rfl, ‹_›⟩
    · rename_i hdone
      rw [not_or, Bool.not_eq_true] at hdone
      exact .inr ⟨rfl, hdone⟩
  · cases h

inductive StopStep (s : ManagedProcess) : StopPc → ManagedProcess → Prop where
  | lock : s.mu = none → StopStep s .lock { s with mu := some .stop, stop := .locked }
  | again : s.stopped = true → StopStep s .locked { s with mu := none, stop := .returned .ok }
  | close : s.stopped = false →
      StopStep s .locked { s with killCh := true, stopped := true, stop := .closed }
  | unlock : pc = .signal ∨ s.cmd = none ∧ pc = .returned .ok →
      StopStep s .closed { s with mu := none, stop := pc }
  | join : 0 < s.managingCh →
      StopStep s (.join forceKilled) { s with stop := .returned (s.stopResult forceKilled) }
  | move : pc.holds = false → pc'.holds = false → pc'.early = pc.early →
      (∀ r, pc' = .returned r → ∃ err, r = .kill err) → StopStep s pc { s with stop := pc' }

theorem StopStep.goto {s : ManagedProcess} {pc pc' : StopPc} (hold : pc.holds = false)
    (hnew : pc'.holds = false) (hearly : pc'.early = pc.early) (hret : ∀ r, pc' ≠ .returned r) :
    StopStep s pc { s with stop := pc' } :=
  .move hold hnew hearly fun r hr => absurd hr (hret r)

theorem StopStep.fails {s : ManagedProcess} {pc : StopPc} (hold : pc.holds = false)
    (hearly : pc.early = false) (err : KillErr) :
    StopStep s pc { s with stop := .returned (.kill err) } := by
  refine .move hold rfl hearly.symm ?_
  rintro r ⟨⟩
  exact ⟨err, rfl⟩

theorem runStop_step {s : ManagedProcess} (h : s.runStop pc a = some s') : StopStep s pc s' := by
  unfold runStop at h
  split at h
  · cases h
    exact .goto rfl rfl rfl nofun
  · split at h
    · cases h
      exact .lock ‹_›
    · cases h
  · split at h
    · cases h
      exact .again ‹_›
    · cases h
      exact .close (Bool.eq_false_of_not_eq_true ‹_›)
  · cases h
    apply StopStep.unlock
    split
    · exact .inr ⟨‹_›, rfl⟩
    · exact .inl rfl
  · cases h
    exact .goto rfl rfl rfl nofun
  · cases h
    exact .fails rfl rfl _
  · cases h
    exact .goto rfl rfl rfl nofun
  · split at h
    · cases h
      exact .goto rfl rfl rfl nofun
    · cases h
  · cases h
    exact .goto rfl rfl rfl nofun
  · cases h
    exact .fails rfl rfl _
  · cases h
    exact .goto rfl rfl rfl nofun
  · split at h
    · cases h
      exact .goto rfl rfl rfl nofun
    · cases h
  · cases h
    exact .goto rfl rfl rfl nofun
  · cases h
    exact .fails rfl rfl _
  · split at h
    · cases h
      exact .join ‹_›
    · cases h
  · cases h

def held (s : ManagedProcess) : Holder → Bool
  | .goroutine i => testAt s.goroutines ManagePc.holds i
  | .stop => s.stop.holds

def Alive (s : ManagedProcess) (child : Nat) : Prop := At s.children child fun c => c.exit = none

/-- When `managingCh` is closed the goroutine is on its way out, or waits for a dead child that has
no `ProcessState` again and again. -/
def Managed (panics : Bool) (s : ManagedProcess) (pc : ManagePc) : Prop :=
  pc.retired = true ∨ (0 < s.managingCh ∨ pc = .closing true →
    panics = true ∧ pc.loops = true ∧ s.stateless = true)

structure Inv (panics : Bool) (s : ManagedProcess) : Prop where
  owned : MutexOwned s.mu s.held
  unique : ∀ i j, At s.goroutines i (fun pc => pc.retired = false) →
    At s.goroutines j (fun pc => pc.retired = false) → i = j
  alive : ∀ child, s.Alive child → ∃ i, At s.goroutines i fun pc => pc.Runs s.cmd child
  managing : ∀ pc ∈ s.goroutines, s.Managed panics pc
  closed : panics = true ∨ s.managingCh ≤ 1
  launch : .launch ∈ s.goroutines → s.killCh = false
  fresh : ∀ c ∈ s.children, c.afterKill = false
  early : s.stop.early = true → s.stopped = false
  late : s.stop.early = false → s.killCh = true
  returned : ∀ r, s.stop = .returned r → (∀ err, r ≠ .kill err) → ∀ child, ¬ s.Alive child

theorem held_set (s : ManagedProcess) {i : Nat} (hpc : s.goroutines[i]? = some pc)
    (pc' : ManagePc) :
    (s.set i pc').held = Function.update s.held (.goroutine i) pc'.holds := by
  funext t
  cases t with
  | goroutine j =>
    simp only [held, set, testAt_set hpc, Function.update_apply, Holder.goroutine.injEq]
  | stop => rfl

theorem held_spawn (s : ManagedProcess) (i : Nat) :
    { s with goroutines := s.goroutines.set i (.unlock none) ++ [ManagePc.wait] }.held =
      (s.set i (.unlock none)).held := by
  funext t
  cases t with
  | goroutine j =>
    simp only [held]
    rw [testAt_append (List.forall_mem_singleton.2 rfl)]
    rfl
  | stop => rfl

theorem held_stop (s : ManagedProcess) (pc : StopPc) :
    { s with stop := pc }.held = Function.update s.held .stop pc.holds := by
  funext t
  cases t with
  | goroutine i | stop => rfl

namespace Inv
variable {panics : Bool} {s s' : ManagedProcess} {i : Nat} {pc pc' : ManagePc} {m : Option Holder}

theorem managed_open (hn : ¬ 0 < s.managingCh) (hpc : pc ≠ .closing true) : s.Managed panics pc :=
  .inr fun h => absurd h (not_or.2 ⟨hn, hpc⟩)

variable (h : s.Inv panics)

include h

theorem launch_set (hlaunch : pc' = .launch → s.killCh = false)
    (hmem : .launch ∈ s.goroutines.set i pc') : s.killCh = false := by
  rcases List.mem_or_eq_of_mem_set hmem with hmem | heq
  · exact h.launch hmem
  · exact hlaunch heq.symm

section

variable (hpc : s.goroutines[i]? = some pc)

include hpc

theorem runs (hret : pc.retired = false) (halive : s.Alive child) : pc.Runs s.cmd child := by
  obtain ⟨j, pc', hj, hruns⟩ := h.alive child halive
  obtain rfl := h.unique i j ⟨pc, hpc, hret⟩ ⟨pc', hj, hruns.retired⟩
  rw [hpc] at hj
  cases hj
  exact hruns

theorem owned_set (hmu : MutexStep (.goroutine i) s.mu pc.holds m pc'.holds) :
    MutexOwned m (s.set i pc').held := by
  rw [held_set s hpc]
  apply h.owned.step
  rwa [held, testAt_eq hpc]

theorem unique_set (hret : pc.retired = true → pc'.retired = true) (j k : Nat)
    (hj : At (s.goroutines.set i pc') j fun pc => pc.retired = false)
    (hk : At (s.goroutines.set i pc') k fun pc => pc.retired = false) : j = k := by
  have hold : ∀ j, At (s.goroutines.set i pc') j (fun pc => pc.retired = false) →
      At s.goroutines j fun pc => pc.retired = false := by
    rintro j ⟨pc₁, hj, hret₁⟩
    rcases getElem?_set_cases hj with ⟨rfl, rfl⟩ | ⟨_, hj⟩
    · refine ⟨pc, hpc, ?_⟩
      by_contra hne
      rw [hret (Bool.eq_true_of_not_eq_false hne)] at hret₁
      cases hret₁
    · exact ⟨pc₁, hj, hret₁⟩
  exact h.unique j k (hold j hj) (hold k hk)

theorem move (hmu : MutexStep (.goroutine i) s.mu pc.holds m pc'.holds)
    (hret : pc.retired = true → pc'.retired = true)
    (hruns : ∀ child, s.Alive child → ¬ pc.Runs s.cmd child)
    (hlaunch : pc' = .launch → s.killCh = false) (hmanaged : s.Managed panics pc') :
    Inv panics { s.set i pc' with mu := m, lastWaitErr := err } where
  __ := h
  owned := h.owned_set hpc hmu
  unique := h.unique_set hpc hret
  alive child halive := by
    obtain ⟨j, pc₁, hj, hruns₁⟩ := h.alive child halive
    refine ⟨j, pc₁, ?_, hruns₁⟩
    have hij : i ≠ j := by
      rintro rfl
      rw [hpc] at hj
      cases hj
      exact hruns child halive hruns₁
    show (s.goroutines.set i pc')[j]? = _
    rwa [List.getElem?_set_ne hij]
  managing pc₁ hmem := by
    rcases List.mem_or_eq_of_mem_set hmem with hmem | rfl
    · exact h.managing pc₁ hmem
    · exact hmanaged
  launch := h.launch_set hlaunch

/-- Beside a goroutine that is not retired there are only retired ones. -/
theorem forall_set (hret : pc.retired = false) {P : ManagePc → Prop}
    (hP : ∀ pc, pc.retired = true → P pc) (hnew : P pc') :
    ∀ pc₁ ∈ s.goroutines.set i pc', P pc₁ := by
  intro pc₁ hmem
  obtain ⟨j, hj⟩ := List.mem_iff_getElem?.1 hmem
  rcases getElem?_set_cases hj with ⟨_, rfl⟩ | ⟨hne, hj⟩
  · exact hnew
  · apply hP
    by_contra hret₁
    exact hne (h.unique j i ⟨pc₁, hj, Bool.eq_false_of_not_eq_true hret₁⟩ ⟨pc, hpc, hret⟩)

theorem managed_next (hret : pc.retired = false)
    (hloops : pc.loops = true → s.stateless = true → pc'.loops = true)
    (hpanic : pc' = .closing true → panics = true ∧ s.stateless = true) : s.Managed panics pc' := by
  right
  rintro (hn | rfl)
  · rcases h.managing pc (List.mem_of_getElem? hpc) with hret' | hlooping
    · rw [hret] at hret'
      cases hret'
    · obtain ⟨hp, hl, hs⟩ := hlooping (.inl hn)
      exact ⟨hp, hloops hl hs, hs⟩
  · exact ⟨(hpanic rfl).1, rfl, (hpanic rfl).2⟩

theorem not_closed (hret : pc.retired = false) (hloops : pc.loops = false) :
    ¬ 0 < s.managingCh := by
  intro hn
  rcases h.managing pc (List.mem_of_getElem? hpc) with hret' | hlooping
  · rw [hret] at hret'
    cases hret'
  · rw [(hlooping (.inl hn)).2.1] at hloops
    cases hloops

theorem not_both (hholds : pc.holds = true) : ¬ s.stop.holds = true := by
  intro hstop
  have hheld : s.held (.goroutine i) = true := (testAt_eq hpc ManagePc.holds).trans hholds
  cases h.owned.unique hheld (show s.held .stop = true from hstop)

end

theorem startChild (hpc : s.goroutines[i]? = some .launch) :
    Inv panics { s.set i (.assign s.children.length) with
      children := s.children ++ [{ afterKill := s.killCh }] } where
  __ := h
  owned := h.owned_set hpc .keep
  unique := h.unique_set hpc nofun
  alive child halive := by
    obtain ⟨c, hc, hexit⟩ := halive
    rcases getElem?_concat_cases hc with hc | ⟨rfl, _⟩
    · exact absurd (h.runs hpc rfl ⟨c, hc, hexit⟩) id
    · exact ⟨i, _, List.getElem?_set_self (List.getElem?_eq_some_iff.1 hpc).1, rfl⟩
  managing := h.forall_set hpc rfl (fun _ => .inl) (managed_open (h.not_closed hpc rfl rfl) nofun)
  launch := h.launch_set nofun
  fresh := by
    apply List.forall_mem_append.2 ⟨h.fresh, List.forall_mem_singleton.2 ?_⟩
    exact h.launch (List.mem_of_getElem? hpc)
  returned r hr _ := by
    have hkill := h.late (by rw [show s.stop = _ from hr]; rfl)
    rw [h.launch (List.mem_of_getElem? hpc)] at hkill
    cases hkill

theorem assignCmd (hpc : s.goroutines[i]? = some (.assign child)) :
    Inv panics { s.set i .spawn with cmd := some child } where
  __ := h
  owned := h.owned_set hpc .keep
  unique := h.unique_set hpc nofun
  alive c halive := by
    have hruns := h.runs hpc rfl halive
    exact ⟨i, _, List.getElem?_set_self (List.getElem?_eq_some_iff.1 hpc).1, congrArg some hruns⟩
  managing := h.forall_set hpc rfl (fun _ => .inl) (managed_open (h.not_closed hpc rfl rfl) nofun)
  launch := h.launch_set nofun

theorem spawnManage (hpc : s.goroutines[i]? = some .spawn) :
    Inv panics { s with goroutines := s.goroutines.set i (.unlock none) ++ [.wait] } where
  __ := h
  owned := by
    have howned : MutexOwned s.mu (s.set i (.unlock none)).held := h.owned_set hpc .keep
    rwa [← held_spawn] at howned
  unique := by
    have hlast : ∀ j, At (s.goroutines.set i (.unlock none) ++ [.wait]) j
        (fun pc => pc.retired = false) → j = s.goroutines.length := by
      rintro j ⟨pc, hj, hret⟩
      rcases getElem?_concat_cases hj with hj | ⟨rfl, _⟩
      · rcases getElem?_set_cases hj with ⟨_, rfl⟩ | ⟨hne, hj⟩
        · cases hret
        · exact absurd (h.unique j i ⟨pc, hj, hret⟩ ⟨_, hpc, rfl⟩) hne
      · exact List.length_set
    intro j k hj hk
    rw [hlast j hj, hlast k hk]
  alive child halive := by
    have hruns := h.runs hpc rfl halive
    exact ⟨_, _, List.getElem?_concat_length, hruns⟩
  managing := by
    refine List.forall_mem_append.2 ⟨h.forall_set hpc rfl (fun _ => .inl) (.inl rfl), ?_⟩
    exact List.forall_mem_singleton.2 (managed_open (h.not_closed hpc rfl rfl) nofun)
  launch hmem := by
    rcases List.mem_append.1 hmem with hmem | hmem
    · exact h.launch_set (by nofun) hmem
    · cases List.mem_singleton.1 hmem

theorem reruns (hpc : s.goroutines[i]? = some (.closing p)) (hloops : p = true ∨ 0 < s.managingCh) :
    panics = true ∧ s.stateless = true := by
  rcases h.managing _ (List.mem_of_getElem? hpc) with hret | hlooping
  · cases hret
  · obtain ⟨hp, _, hs⟩ := hlooping (hloops.symm.imp id fun hp => by rw [hp])
    exact ⟨hp, hs⟩

theorem closeManaging (hpc : s.goroutines[i]? = some (.closing panicked))
    (hat : pc = .wait ∧ (panicked = true ∨ 0 < s.managingCh) ∨
      pc = .done ∧ panicked = false ∧ ¬ 0 < s.managingCh) :
    Inv panics { s.set i pc with managingCh := s.managingCh + 1 } where
  __ := h
  owned := by
    apply h.owned_set hpc
    rcases hat with ⟨rfl, _⟩ | ⟨rfl, _⟩ <;> exact .keep
  unique := h.unique_set hpc nofun
  alive child halive := absurd (h.runs hpc rfl halive) id
  managing := by
    refine h.forall_set hpc rfl (fun _ => .inl) ?_
    rcases hat with ⟨rfl, hloops⟩ | ⟨rfl, _⟩
    · exact .inr fun _ => ⟨(h.reruns hpc hloops).1, rfl, (h.reruns hpc hloops).2⟩
    · exact .inl rfl
  closed := by
    rcases hat with ⟨_, hloops⟩ | ⟨_, _, hn⟩
    · exact .inl (h.reruns hpc hloops).1
    · exact .inr (by simp only; omega)
  launch := by
    apply h.launch_set
    rcases hat with ⟨rfl, _⟩ | ⟨rfl, _⟩ <;> nofun

theorem manage (hpc : s.goroutines[i]? = some pc)
    (hok : panics = true ∨ (a = .restart true → s.stateless = false)) (hs : Step s i a pc s') :
    s'.Inv panics := by
  cases hs with
  | lock hmu =>
    exact h.move hpc (.lock hmu) nofun (fun _ _ => id) nofun (h.managed_next hpc rfl nofun nofun)
  | pass hkill =>
    exact h.move hpc .keep nofun (fun _ _ => id) (fun _ => hkill)
      (h.managed_next hpc rfl nofun nofun)
  | abort hat =>
    rcases hat with rfl | rfl
    · exact h.move hpc .keep nofun (fun _ _ => id) nofun (h.managed_next hpc rfl nofun nofun)
    · exact h.move hpc .keep nofun (fun _ _ => id) nofun (h.managed_next hpc rfl nofun nofun)
  | launch => exact h.startChild hpc
  | assign => exact h.assignCmd hpc
  | spawn => exact h.spawnManage hpc
  | @unlock _ err hat =>
    apply h.move hpc
    · rcases hat with rfl | ⟨_, rfl⟩ <;> exact .unlock
    · rcases hat with rfl | ⟨hne, rfl⟩
      · exact fun _ => rfl
      · cases err with
        | none => exact absurd rfl hne
        | some err => nofun
    · exact fun _ _ => id
    · rcases hat with rfl | ⟨_, rfl⟩ <;> nofun
    · rcases hat with rfl | ⟨hne, rfl⟩
      · exact .inl rfl
      · cases err with
        | none => exact absurd rfl hne
        | some err => exact h.managed_next hpc rfl nofun nofun
  | wait hexit =>
    refine h.move hpc .keep nofun ?_ nofun (h.managed_next hpc rfl (fun _ _ => rfl) nofun)
    rintro child ⟨c, hc, halive⟩ hruns
    rw [cmdExit, show s.cmd = some child from hruns, Option.bind_some, hc, Option.bind_some,
      halive] at hexit
    cases hexit
  | quiet hq hq' hloops hpanic =>
    apply h.move hpc
    · rw [(ManagePc.of_quiet hq).1, (ManagePc.of_quiet hq').1]
      exact .keep
    · intro hret
      rw [(ManagePc.of_quiet hq).2.1] at hret
      cases hret
    · exact fun child _ => (ManagePc.of_quiet hq).2.2 _ child
    · rintro rfl
      cases hq'
    · refine h.managed_next hpc (ManagePc.of_quiet hq).2.1 hloops fun hp => ?_
      obtain ⟨ha, hs⟩ := hpanic hp
      refine ⟨hok.resolve_right fun hok => ?_, hs⟩
      rw [hok ha] at hs
      cases hs
  | close hat => exact h.closeManaging hpc hat

theorem stopAt {pc : StopPc} (hmu : MutexStep .stop s.mu s.stop.holds m pc.holds)
    (hearly : pc.early = s.stop.early)
    (hret : ∀ r, pc = .returned r → (∀ err, r ≠ .kill err) → ∀ child, ¬ s.Alive child) :
    Inv panics { s with mu := m, stop := pc } where
  __ := h
  owned := by
    show MutexOwned m { s with stop := pc }.held
    rw [held_stop]
    exact h.owned.step hmu
  early he := h.early (hearly ▸ he)
  late he := h.late (hearly ▸ he)
  returned := hret

theorem closeKill (hpc : s.stop = .locked) :
    Inv panics { s with killCh := true, stopped := true, stop := .closed } where
  __ := h
  owned := by
    show MutexOwned s.mu { s with stop := .closed }.held
    rw [held_stop]
    apply h.owned.step
    rw [held, hpc]
    exact .keep
  launch hmem := by
    obtain ⟨i, hi⟩ := List.mem_iff_getElem?.1 hmem
    exact absurd (by rw [hpc]; rfl) (h.not_both hi rfl)
  early := nofun
  late _ := rfl
  returned := nofun

theorem not_alive_of_no_cmd (hpc : s.stop = .closed) (hcmd : s.cmd = none) (child : Nat) :
    ¬ s.Alive child := by
  intro halive
  obtain ⟨i, pc, hi, hruns⟩ := h.alive child halive
  cases pc with
  | assign c => exact absurd (by rw [hpc]; rfl) (h.not_both hi rfl)
  | spawn | wait => cases hcmd.symm.trans hruns
  | _ => cases hruns

theorem not_alive_of_closed (hn : 0 < s.managingCh) (child : Nat) : ¬ s.Alive child := by
  intro halive
  obtain ⟨i, pc, hi, hruns⟩ := h.alive child halive
  rcases h.managing pc (List.mem_of_getElem? hi) with hret | hlooping
  · rw [hruns.retired] at hret
    cases hret
  · -- A goroutine that goes on waits for a child that is dead.
    obtain ⟨_, hloops, hstateless⟩ := hlooping (.inl hn)
    cases pc with
    | wait =>
      obtain ⟨c, hc, hexit⟩ := halive
      rw [stateless, cmdExit, show s.cmd = some child from hruns, Option.bind_some, hc,
        Option.bind_some, hexit] at hstateless
      cases hstateless
    | assign | spawn => cases hloops
    | _ => cases hruns

theorem runStop (hs : StopStep s s.stop s') : s'.Inv panics := by
  generalize hpc : s.stop = pc at hs
  cases hs with
  | lock hmu => exact h.stopAt (by rw [hpc]; exact .lock hmu) (by rw [hpc]; rfl) nofun
  | again hstopped =>
    rw [h.early (by rw [hpc]; rfl)] at hstopped
    cases hstopped
  | close _ => exact h.closeKill hpc
  | unlock hat =>
    rcases hat with rfl | ⟨hcmd, rfl⟩
    · exact h.stopAt (by rw [hpc]; exact .unlock) (by rw [hpc]; rfl) nofun
    · exact h.stopAt (by rw [hpc]; exact .unlock) (by rw [hpc]; rfl) fun _ _ _ =>
        h.not_alive_of_no_cmd hpc hcmd
  | join hn =>
    exact h.stopAt (by rw [hpc]; exact .keep) (by rw [hpc]; rfl) fun _ _ _ =>
      h.not_alive_of_closed hn
  | move hold hnew hearly hkill =>
    apply h.stopAt
    · rw [hpc, hold, hnew]
      exact .keep
    · rw [hpc, hearly]
    · intro r hr hne
      obtain ⟨err, rfl⟩ := hkill r hr
      exact absurd rfl (hne err)

theorem exit (hc : s.children[child]? = some c) (hnone : c.exit = none) (e : Exit) :
    Inv panics { s with children := s.children.set child { c with exit := some e } } := by
  have halive : ∀ a, At (s.children.set child { c with exit := some e }) a
      (fun c => c.exit = none) → s.Alive a := by
    rintro a ⟨c', hc', hexit⟩
    rcases getElem?_set_cases hc' with ⟨_, rfl⟩ | ⟨_, hc'⟩
    · cases hexit
    · exact ⟨c', hc', hexit⟩
  have hstateless : s.stateless = true →
      stateless { s with children := s.children.set child { c with exit := some e } } = true := by
    intro hs
    obtain ⟨exit, hexit, hs⟩ := (Option.any_eq_true ..).1 hs
    obtain ⟨a, hcmd, hexit⟩ := Option.bind_eq_some_iff.1 hexit
    obtain ⟨c', hc', hexit⟩ := Option.bind_eq_some_iff.1 hexit
    have hne : child ≠ a := by
      rintro rfl
      rw [hc] at hc'
      cases hc'
      rw [hnone] at hexit
      cases hexit
    rw [stateless, cmdExit, hcmd, Option.bind_some, List.getElem?_set_ne hne, hc', Option.bind_some,
      hexit]
    exact hs
  refine ⟨h.owned, h.unique, fun a ha => h.alive a (halive a ha), ?_, h.closed, h.launch,
    ?_, h.early, h.late, fun r hr hne a ha => h.returned r hr hne a (halive a ha)⟩
  · exact fun pc hmem => (h.managing pc hmem).imp_right fun hm hn =>
      ⟨(hm hn).1, (hm hn).2.1, hstateless (hm hn).2.2⟩
  · intro c' hmem
    rcases List.mem_or_eq_of_mem_set hmem with hmem | rfl
    · exact h.fresh c' hmem
    · exact h.fresh c (List.mem_of_getElem? hc)

theorem step (hok : panics = true ∨ HasState s a) (hs : processStep s a = some s') :
    s'.Inv panics := by
  cases a with
  | manage i a =>
    obtain ⟨pc, hpc, hs⟩ := Option.bind_eq_some_iff.1 hs
    exact h.manage hpc (hok.imp_right fun hok => by rintro rfl; exact hok) (manage_step hs)
  | stop a => exact h.runStop (runStop_step hs)
  | exit child e =>
    obtain ⟨c, hc, hs⟩ := Option.bind_eq_some_iff.1 hs
    split at hs
    · cases hs
      exact h.exit hc ‹_› e
    · cases hs

end Inv

theorem Inv.init (panics : Bool) : Inv panics {} := by
  have hidle : ∀ {i pc}, ([.idle] : List ManagePc)[i]? = some pc → i = 0 ∧ pc = .idle := by
    intro i pc hi
    cases i with
    | zero => exact ⟨rfl, (Option.some.inj hi).symm⟩
    | succ i => cases hi
  refine ⟨?_, ?_, ?_, ?_, .inr (Nat.zero_le 1), nofun, nofun, fun _ => rfl, nofun, nofun⟩
  · intro t
    cases t with
    | goroutine i => cases i <;> exact ⟨nofun, nofun⟩
    | stop => exact ⟨nofun, nofun⟩
  · rintro i j ⟨_, hi, _⟩ ⟨_, hj, _⟩
    rw [(hidle hi).1, (hidle hj).1]
  · rintro child ⟨c, hc, _⟩
    cases hc
  · exact List.forall_mem_singleton.2 (Inv.managed_open (Nat.lt_irrefl 0) nofun)

theorem inv_of_reachable (h : processMachine.Reachable s) : s.Inv true :=
  h.invariant (fun _ hs => hs ▸ .init true) fun _ _ _ hi hs => hi.step (.inl rfl) hs

end ManagedProcess

/-- At most one child is alive, none is started after `killCh` is closed, and none is alive when
`Stop` returns without an error of `kill`; where no child without a `ProcessState` is replaced,
`managingCh` is closed at most once. -/
theorem one_child_until_stopped (h : processMachine.Reachable s) :
    (∀ a b, s.Alive a → s.Alive b → a = b) ∧ (∀ c ∈ s.children, c.afterKill = false) ∧
      (processMachine.ReachableWith HasState s → s.managingCh ≤ 1) ∧
      ∀ r, s.stop = .returned r → (∀ err, r ≠ .kill err) → ∀ child, ¬ s.Alive child := by
  have hi := ManagedProcess.inv_of_reachable h
  refine ⟨?_, hi.fresh, fun hwith => ?_, hi.returned⟩
  · intro a b ha hb
    obtain ⟨i, pc, hpc, hruns⟩ := hi.alive a ha
    exact hruns.unique (hi.runs hpc hruns.retired hb)
  · have honce : s.Inv false := hwith.invariant (fun _ hs => hs ▸ .init false)
      fun _ _ _ hi hok hs => hi.step (.inr hok) hs
    exact honce.closed.resolve_left Bool.false_ne_true

instance (s : ManagedProcess) (a : ProcessAct) : Decidable (HasState s a) := by
  unfold HasState
  split
  · infer_instance
  · infer_instance

def ownerStart (i : Nat) : List ProcessAct := List.replicate 6 (.manage i .next)

/-- The first child dies and is replaced. `Stop` comes while the second one runs, which ends at the
signal. -/
theorem one_child_until_stopped_restart :
    ∃ s, processMachine.ReachableWith HasState s ∧ s.children.length = 2 ∧
      s.stop = .returned .ok ∧ 0 < s.managingCh ∧ s.managingCh ≤ 1 ∧
      ∀ child, ¬ s.Alive child := by
  let run : List (List ProcessAct) :=
    [.manage 0 .next :: ownerStart 0,
      [.exit 0 (.waited ⟨false, 1⟩ (some { text := "exit status 1" }))],
      [.manage 1 .next, .manage 1 .next, .manage 1 (.restart true)],
      .manage 1 .tick :: ownerStart 1,
      [.stop .next, .stop .next, .stop .next, .stop .next, .stop .next],
      [.exit 1 (.waited ⟨false, -1⟩ (some { text := "signal: terminated" }))],
      [.manage 2 .next, .manage 2 .next, .manage 2 .next],
      [.stop .next, .stop .next, .stop .next]]
  obtain ⟨s, hreach, hlen, hstop, hpos⟩ : ∃ s, processMachine.ReachableWith HasState s ∧
      s.children.length = 2 ∧ s.stop = .returned .ok ∧ 0 < s.managingCh :=
    processMachine.exists_reachableWith HasState {} run.flatten rfl (by decide +kernel)
  obtain ⟨-, -, hone, hreturned⟩ := one_child_until_stopped hreach.reachable
  exact ⟨s, hreach, hlen, hstop, hpos, hone hreach, hreturned _ hstop nofun⟩

/-- Someone else has waited for the child, so that `manage` panics and is run again. -/
theorem managingCh_closed_twice : ∃ s, processMachine.Reachable s ∧ s.managingCh = 2 := by
  let attempt : List ProcessAct :=
    [.manage 1 .next, .manage 1 .next, .manage 1 (.restart true), .manage 1 .next]
  let run : List (List ProcessAct) :=
    [.manage 0 .next :: ownerStart 0,
      [.exit 0 (.unwaited { text := "wait: no child processes", echild := true })],
      attempt, attempt]
  exact processMachine.exists_reachable {} run.flatten rfl (by decide +kernel)

end Goutils.Pexec
