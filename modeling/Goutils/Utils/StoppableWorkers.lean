import Goutils.Lib.Sync

namespace Goutils.Utils
open Lib
set_option autoImplicit true

inductive AddPc where
  | rlock
  | check
  | refuse
  | refused
  | add
  | runlock
  | start
  | working
  | leaving
  | finished
  deriving DecidableEq

/-- Where a call of `Stop` stands. Its end remembers whether it has waited for the workers. -/
inductive StopPc where
  | lock
  | check
  | cancel
  | wait
  | unlock (waited : Bool)
  | returned (waited : Bool)
  deriving DecidableEq

inductive Call where
  | add (pc : AddPc)
  | stop (pc : StopPc)
  deriving DecidableEq

/-- A group with the calls of its methods; `cancelled` tells that `ctx.Err()` is not nil. -/
structure StoppableWorkers where
  mu : RWMutex Nat := {}
  cancelled : Bool := false
  workers : Nat := 0
  calls : List Call := []

/-- `cancelParent`: the context that was passed to `NewStoppableWorkers` is cancelled. -/
inductive WorkersAct where
  | callAdd
  | callStop
  | next (i : Nat)
  | cancelParent
  deriving DecidableEq

namespace StoppableWorkers

def set (s : StoppableWorkers) (i : Nat) (c : Call) : StoppableWorkers :=
  { s with calls := s.calls.set i c }

def add (s : StoppableWorkers) (i : Nat) : AddPc → Option StoppableWorkers
  | .rlock => if s.mu.canRLock then some { s.set i (.add .check) with mu := s.mu.rlock i } else none
  | .check => some (s.set i (.add (if s.cancelled then .refuse else .add)))
  | .refuse => some { s.set i (.add .refused) with mu := s.mu.runlock i }
  | .refused => none
  | .add => some { s.set i (.add .runlock) with workers := s.workers + 1 }
  | .runlock => some { s.set i (.add .start) with mu := s.mu.runlock i }
  | .start => some (s.set i (.add .working))
  | .working => some (s.set i (.add .leaving))
  | .leaving => some { s.set i (.add .finished) with workers := s.workers - 1 }
  | .finished => none

def stop (s : StoppableWorkers) (i : Nat) : StopPc → Option StoppableWorkers
  | .lock => if s.mu.canLock then some { s.set i (.stop .check) with mu := s.mu.lock i } else none
  | .check => some (s.set i (.stop (if s.cancelled then .unlock false else .cancel)))
  | .cancel => some { s.set i (.stop .wait) with cancelled := true }
  | .wait => if s.workers = 0 then some (s.set i (.stop (.unlock true))) else none
  | .unlock waited => some { s.set i (.stop (.returned waited)) with mu := s.mu.unlock }
  | .returned _ => none

def next (s : StoppableWorkers) (i : Nat) : Call → Option StoppableWorkers
  | .add pc => s.add i pc
  | .stop pc => s.stop i pc

def step (s : StoppableWorkers) : WorkersAct → Option StoppableWorkers
  | .callAdd => some { s with calls := s.calls ++ [.add .rlock] }
  | .callStop => some { s with calls := s.calls ++ [.stop .lock] }
  | .next i => s.calls[i]?.bind (s.next i)
  | .cancelParent => some { s with cancelled := true }

end StoppableWorkers

/-- A group as `NewStoppableWorkers` makes it, in use by any number of goroutines. -/
def workersMachine : Machine StoppableWorkers WorkersAct where
  init s := s = {}
  step := StoppableWorkers.step

/-- What a call means for the group: `acting`, `waiting` and `waited` are of a `Stop` that found
the context alive. -/
inductive Phase where
  | outside
  | admitting
  | running
  | finished
  | acting
  | waiting
  | waited
  | early
  deriving DecidableEq

namespace Phase

def admitted : Phase → Bool
  | .running | .finished => true
  | _ => false

def acted : Phase → Bool
  | .acting | .waiting | .waited => true
  | _ => false

def tookEffect : Phase → Bool
  | .waiting | .waited | .early => true
  | _ => false

end Phase

namespace Call

def phase : Call → Phase
  | .add .add => .admitting
  | .add .runlock | .add .start | .add .working | .add .leaving => .running
  | .add .finished => .finished
  | .stop .cancel => .acting
  | .stop .wait => .waiting
  | .stop (.unlock true) | .stop (.returned true) => .waited
  | .stop (.unlock false) | .stop (.returned false) => .early
  | _ => .outside

def mode : Call → LockMode
  | .add .check | .add .refuse | .add .add | .add .runlock => .read
  | .stop .check | .stop .cancel | .stop .wait | .stop (.unlock _) => .write
  | _ => .free

theorem mode_of_admitting {c : Call} (h : c.phase = .admitting) : c.mode = .read := by
  revert h
  fun_cases phase c <;> simp [mode]

theorem mode_of_acted {c : Call} (h : c.phase.acted = true) (hw : c.phase ≠ .waited) :
    c.mode = .write := by
  revert h hw
  fun_cases phase c <;> simp [mode, Phase.acted]

theorem finished_of_admitted {c : Call} (h : c.phase.admitted = true) (hr : c.phase ≠ .running) :
    c = .add .finished := by
  revert h hr
  fun_cases phase c <;> simp [Phase.admitted]

end Call

/-- How a call goes on from a phase, with what becomes of context and wait group. -/
inductive PhaseStep (s : StoppableWorkers) (mode : LockMode) :
    Phase → Phase → Bool → Nat → Prop where
  | stay : PhaseStep s mode p p s.cancelled s.workers
  | pass : s.cancelled = false → PhaseStep s mode .outside .admitting s.cancelled s.workers
  | admits : PhaseStep s mode .admitting .running s.cancelled (s.workers + 1)
  | done : PhaseStep s mode .running .finished s.cancelled (s.workers - 1)
  | act : s.cancelled = false → PhaseStep s mode .outside .acting s.cancelled s.workers
  | cancel : mode = .write → PhaseStep s mode .acting .waiting true s.workers
  | waited : s.workers = 0 → PhaseStep s mode .waiting .waited s.cancelled s.workers
  | early : s.cancelled = true → mode = .write →
      PhaseStep s mode .outside .early s.cancelled s.workers

namespace PhaseStep

variable {s : StoppableWorkers} {mode : LockMode} {p p' : Phase} {cancelled : Bool} {workers : Nat}

theorem of_admitting (h : PhaseStep s mode p .admitting cancelled workers) :
    p = .admitting ∨ s.cancelled = false := by
  cases h with
  | stay => exact .inl rfl
  | pass hctx => exact .inr hctx

theorem of_running (h : PhaseStep s mode p .running cancelled workers) :
    p = .running ∨ p = .admitting := by
  cases h with
  | stay => exact .inl rfl
  | admits => exact .inr rfl

theorem of_waited (h : PhaseStep s mode p .waited cancelled workers) :
    p = .waited ∨ s.workers = 0 := by
  cases h with
  | stay => exact .inl rfl
  | waited hz => exact .inr hz

theorem of_early (h : PhaseStep s mode p .early cancelled workers) :
    p = .early ∨ p = .outside ∧ mode = .write := by
  cases h with
  | stay => exact .inl rfl
  | early _ hw => exact .inr ⟨rfl, hw⟩

theorem waited_stays (h : PhaseStep s mode .waited p' cancelled workers) : p' = .waited := by
  cases h
  rfl

variable (h : PhaseStep s mode p p' cancelled workers)

include h

theorem ctx (hctx : s.cancelled = true) : cancelled = true := by
  cases h with
  | cancel => rfl
  | _ => exact hctx

theorem of_admitted (hp : p'.admitted = true) : p.admitted = true ∨ p = .admitting := by
  cases h with
  | stay => exact .inl hp
  | admits => exact .inr rfl
  | done => exact .inl rfl
  | _ => cases hp

theorem of_tookEffect (hp : p'.tookEffect = true) :
    p.tookEffect = true ∨ cancelled = true ∧ mode = .write := by
  cases h with
  | stay => exact .inl hp
  | cancel hw => exact .inr ⟨rfl, hw⟩
  | waited => exact .inl rfl
  | early hctx hw => exact .inr ⟨hctx, hw⟩
  | _ => cases hp

theorem of_acted (hp : p'.acted = true) : p.acted = true ∨ s.cancelled = false := by
  cases h with
  | stay => exact .inl hp
  | act hctx => exact .inr hctx
  | cancel | waited => exact .inl rfl
  | _ => cases hp

theorem acted (hp : p.acted = true) : p'.acted = true := by
  cases h with
  | stay => exact hp
  | cancel | waited => rfl
  | _ => cases hp

theorem tookEffect (hp : p.tookEffect = true) : p'.tookEffect = true := by
  cases h with
  | stay => exact hp
  | waited => rfl
  | _ => cases hp

theorem of_ctx (hctx : cancelled = true) : s.cancelled = true ∨ p'.acted = true := by
  cases h with
  | cancel => exact .inr rfl
  | _ => exact .inl hctx

end PhaseStep

structure Move (s : StoppableWorkers) (i : Nat) (c c' : Call) (s' : StoppableWorkers) : Prop where
  calls : s'.calls = s.calls.set i c'
  lock : LockStep i s.mu c.mode s'.mu c'.mode
  phase : PhaseStep s c.mode c.phase c'.phase s'.cancelled s'.workers

namespace StoppableWorkers

theorem add_move {s s' : StoppableWorkers} (h : s.add i pc = some s') :
    ∃ c', Move s i (.add pc) c' s' := by
  cases pc with
  | rlock =>
    simp only [add] at h
    split at h
    · cases h
      exact ⟨_, rfl, .rlock ‹_›, .stay⟩
    · cases h
  | check =>
    cases h
    cases hctx : s.cancelled with
    | true => exact ⟨_, rfl, .keep, .stay⟩
    | false => exact ⟨_, rfl, .keep, .pass hctx⟩
  | refuse | runlock =>
    cases h
    exact ⟨_, rfl, .runlock, .stay⟩
  | refused | finished => cases h
  | add =>
    cases h
    exact ⟨_, rfl, .keep, .admits⟩
  | start | working =>
    cases h
    exact ⟨_, rfl, .keep, .stay⟩
  | leaving =>
    cases h
    exact ⟨_, rfl, .keep, .done⟩

theorem stop_move {s s' : StoppableWorkers} (h : s.stop i pc = some s') :
    ∃ c', Move s i (.stop pc) c' s' := by
  cases pc with
  | lock =>
    simp only [stop] at h
    split at h
    · cases h
      exact ⟨_, rfl, .lock ‹_›, .stay⟩
    · cases h
  | check =>
    cases h
    cases hctx : s.cancelled with
    | true => exact ⟨_, rfl, .keep, .early hctx rfl⟩
    | false => exact ⟨_, rfl, .keep, .act hctx⟩
  | cancel =>
    cases h
    exact ⟨_, rfl, .keep, .cancel rfl⟩
  | wait =>
    simp only [stop] at h
    split at h
    · cases h
      exact ⟨_, rfl, .keep, .waited ‹_›⟩
    · cases h
  | unlock waited =>
    cases h
    cases waited with
    | true | false => exact ⟨_, rfl, .unlock, .stay⟩
  | returned waited => cases h

theorem next_move {s s' : StoppableWorkers} (h : s.next i c = some s') :
    ∃ c', Move s i c c' s' := by
  cases c with
  | add pc => exact add_move h
  | stop pc => exact stop_move h

inductive Step (s : StoppableWorkers) : WorkersAct → StoppableWorkers → Prop where
  | call : c.phase = .outside → c.mode = .free → Step s a { s with calls := s.calls ++ [c] }
  | next : s.calls[i]? = some c → Move s i c c' s' → Step s a s'
  | cancelParent : Step s .cancelParent { s with cancelled := true }

theorem step_step {s s' : StoppableWorkers} (h : s.step a = some s') : Step s a s' := by
  cases a with
  | callAdd | callStop =>
    cases h
    exact .call rfl rfl
  | next i =>
    obtain ⟨c, hc, h⟩ := Option.bind_eq_some_iff.1 h
    obtain ⟨c', hmove⟩ := next_move h
    exact .next hc hmove
  | cancelParent =>
    cases h
    exact .cancelParent

/-- No `Add` is about to count behind a `Stop`, and none is left once one has waited. -/
structure Inv (s : StoppableWorkers) : Prop where
  owned : s.mu.Owned (modeAt s.calls Call.mode)
  count : s.workers = s.calls.countP fun c => c.phase = .running
  ctx : ∀ c ∈ s.calls, c.phase.tookEffect = true → s.cancelled = true
  effect : Forces (fun c => c.phase.tookEffect = true) (fun c => c.phase ≠ .admitting) s.calls
  waited : Forces (fun c => c.phase = .waited) (fun c => c.phase ≠ .running) s.calls
  early : Forces (fun c => c.phase = .early)
    (fun c => c.phase.acted = true → c.phase = .waited) s.calls

namespace Inv

variable {s s' : StoppableWorkers} {i : Nat} {c c' : Call} (h : s.Inv)

include h

theorem count_zero (hz : s.workers = 0) : ∀ d ∈ s.calls, d.phase ≠ .running := by
  intro d hd hrun
  rw [h.count, List.countP_eq_zero] at hz
  exact hz d hd (decide_eq_true hrun)

theorem call (hphase : c.phase = .outside) (hmode : c.mode = .free) :
    Inv { s with calls := s.calls ++ [c] } where
  owned := by
    show s.mu.Owned (modeAt (s.calls ++ [c]) Call.mode)
    rw [modeAt_concat _ hmode]
    exact h.owned
  count := by simpa [hphase] using h.count
  ctx d hd hd' := by
    rcases List.mem_append.1 hd with hd | hd
    · exact h.ctx d hd hd'
    · rw [List.mem_singleton.1 hd, hphase] at hd'
      cases hd'
  effect := h.effect.concat (by rw [hphase]; nofun) (by rw [hphase]; nofun)
  waited := h.waited.concat (by rw [hphase]; nofun) (by rw [hphase]; nofun)
  early := h.early.concat (by rw [hphase]; nofun) (by rw [hphase]; nofun)

theorem cancelParent : Inv { s with cancelled := true } :=
  { h with ctx := fun _ _ _ => rfl }

variable (hc : s.calls[i]? = some c)

include hc

theorem excludes (hw : c.mode = .write) :
    ∀ d ∈ s.calls, d.mode ≠ .read ∧ (d.mode = .write → d = c) := by
  intro d hd
  obtain ⟨j, hj⟩ := List.mem_iff_getElem?.1 hd
  have hwriter : s.mu.writer = some i := (h.owned.writer i).2 (by rw [modeAt_eq hc, hw])
  constructor
  · intro hread
    have hmem : j ∈ s.mu.readers := (h.owned.readers j).2 (by rw [modeAt_eq hj, hread])
    rcases h.owned.excl with hnone | hnil
    · rw [hnone] at hwriter
      cases hwriter
    · rw [hnil] at hmem
      cases hmem
  · intro hwrite
    have hsame : s.mu.writer = some j := (h.owned.writer j).2 (by rw [modeAt_eq hj, hwrite])
    rw [hwriter] at hsame
    cases hsame
    rw [hc] at hj
    exact (Option.some.inj hj).symm

theorem not_admitting (hw : c.mode = .write) : ∀ d ∈ s.calls, d.phase ≠ .admitting :=
  fun d hd hphase => (h.excludes hc hw d hd).1 (Call.mode_of_admitting hphase)

variable (hm : Move s i c c' s')

include hm

theorem move_count : s'.workers = s'.calls.countP fun c => c.phase = .running := by
  have hmove := countP_move hc c' fun c => c.phase = .running
  have hphase := hm.phase
  rw [← h.count, ← hm.calls] at hmove
  generalize c.phase = p, c'.phase = p', s'.workers = workers, s'.cancelled = cancelled
    at hmove hphase ⊢
  cases hphase <;> simp at hmove <;> omega

theorem move_ctx : ∀ d ∈ s.calls.set i c', d.phase.tookEffect = true → s'.cancelled = true := by
  intro d hd hd'
  rcases List.mem_or_eq_of_mem_set hd with hd | rfl
  · exact hm.phase.ctx (h.ctx d hd hd')
  · rcases hm.phase.of_tookEffect hd' with hd' | ⟨hctx, _⟩
    · exact hm.phase.ctx (h.ctx c (List.mem_of_getElem? hc) hd')
    · exact hctx

theorem move_effect : Forces (fun c => c.phase.tookEffect = true) (fun c => c.phase ≠ .admitting)
    (s.calls.set i c') := by
  apply h.effect.set hc
  · intro d hd hd' hne hadm
    have hphase := hm.phase
    rw [hadm] at hphase
    rcases hphase.of_admitting with hadm | halive
    · exact hne hadm
    · rw [h.ctx d hd hd'] at halive
      cases halive
  · intro heffect
    rcases hm.phase.of_tookEffect heffect with heffect | ⟨_, hw⟩
    · exact .inl heffect
    · refine .inr ⟨?_, h.not_admitting hc hw⟩
      intro hadm
      rw [hadm] at heffect
      cases heffect

theorem move_waited :
    Forces (fun c => c.phase = .waited) (fun c => c.phase ≠ .running) (s.calls.set i c') := by
  apply h.waited.set hc
  · intro d hd hd' hne hrun
    have hphase := hm.phase
    rw [hrun] at hphase
    rcases hphase.of_running with hrun | hadm
    · exact hne hrun
    · have heffect : d.phase.tookEffect = true := by rw [hd']; rfl
      exact h.effect d hd heffect c (List.mem_of_getElem? hc) hadm
  · intro hwaited
    have hphase := hm.phase
    rw [hwaited] at hphase
    rcases hphase.of_waited with hwaited | hz
    · exact .inl hwaited
    · exact .inr ⟨by rw [hwaited]; nofun, h.count_zero hz⟩

theorem move_early :
    Forces (fun c => c.phase = .early) (fun c => c.phase.acted = true → c.phase = .waited)
      (s.calls.set i c') := by
  apply h.early.set hc
  · intro d hd hd' hwaited hacted
    have hphase := hm.phase
    rcases hphase.of_acted hacted with hacted | halive
    · rw [hwaited hacted] at hphase
      exact hphase.waited_stays
    · rw [h.ctx d hd (by rw [hd']; rfl)] at halive
      cases halive
  · intro hearly
    have hphase := hm.phase
    rw [hearly] at hphase ⊢
    rcases hphase.of_early with hearly | ⟨hout, hw⟩
    · exact .inl hearly
    · refine .inr ⟨nofun, ?_⟩
      intro e he hacted
      -- One that still acts or waits would hold the lock too.
      by_contra hne
      rw [(h.excludes hc hw e he).2 (Call.mode_of_acted hacted hne), hout] at hacted
      cases hacted

theorem move : s'.Inv where
  owned := by
    rw [hm.calls, modeAt_set hc]
    apply h.owned.step
    rw [modeAt_eq hc]
    exact hm.lock
  count := h.move_count hc hm
  ctx := by rw [hm.calls]; exact h.move_ctx hc hm
  effect := by rw [hm.calls]; exact h.move_effect hc hm
  waited := by rw [hm.calls]; exact h.move_waited hc hm
  early := by rw [hm.calls]; exact h.move_early hc hm

omit hc hm in
theorem step (hs : Step s a s') : s'.Inv := by
  cases hs with
  | call hphase hmode => exact h.call hphase hmode
  | next hc hm => exact h.move hc hm
  | cancelParent => exact h.cancelParent

end Inv

variable {s s' : StoppableWorkers}

theorem inv_of_reachable (h : workersMachine.Reachable s) : s.Inv := by
  apply h.invariant
  · rintro s rfl
    refine ⟨⟨?_, ?_, List.nodup_nil, .inl rfl⟩, rfl, nofun, nofun, nofun, nofun⟩
    · intro t
      constructor <;> intro h <;> cases h
    · intro t
      constructor <;> intro h <;> cases h
  · exact fun s a s' hi hs => hi.step (step_step hs)

def StopTookEffect (s : StoppableWorkers) : Prop := ∃ c ∈ s.calls, c.phase.tookEffect = true

def StopReturned (s : StoppableWorkers) : Prop := ∃ waited, .stop (.returned waited) ∈ s.calls

def Admitted (s : StoppableWorkers) (i : Nat) : Prop :=
  At s.calls i fun c => c.phase.admitted = true

def StopActed (s : StoppableWorkers) : Prop := ∃ c ∈ s.calls, c.phase.acted = true

theorem Step.phase {i : Nat} {c' : Call} (h : Step s a s') (hc : s'.calls[i]? = some c') :
    c'.phase = .outside ∨ ∃ c, s.calls[i]? = some c ∧
      ∃ mode cancelled workers, PhaseStep s mode c.phase c'.phase cancelled workers := by
  cases h with
  | call hphase hmode =>
    rcases getElem?_concat_cases hc with hc | ⟨_, rfl⟩
    · exact .inr ⟨c', hc, .free, _, _, .stay⟩
    · exact .inl hphase
  | next hi hm =>
    rw [hm.calls] at hc
    rcases getElem?_set_cases hc with ⟨rfl, rfl⟩ | ⟨_, hc⟩
    · exact .inr ⟨_, hi, _, _, _, hm.phase⟩
    · exact .inr ⟨c', hc, .free, _, _, .stay⟩
  | cancelParent => exact .inr ⟨c', hc, .free, _, _, .stay⟩

theorem Step.keeps {P : Phase → Bool} (hs : Step s a s')
    (hP : ∀ {mode p p' cancelled workers}, PhaseStep s mode p p' cancelled workers →
      P p = true → P p' = true)
    (h : ∃ c ∈ s.calls, P c.phase = true) : ∃ c ∈ s'.calls, P c.phase = true := by
  obtain ⟨d, hd, hPd⟩ := h
  cases hs with
  | call => exact ⟨d, List.mem_append_left _ hd, hPd⟩
  | @next i c c' _ _ hc hm =>
    rw [hm.calls]
    obtain ⟨j, hj⟩ := List.mem_iff_getElem?.1 hd
    by_cases hij : i = j
    · subst hij
      rw [hc] at hj
      cases hj
      exact ⟨c', List.mem_set (List.getElem?_eq_some_iff.1 hc).1 c', hP hm.phase hPd⟩
    · have hj' : (s.calls.set i c')[j]? = some d := by rwa [List.getElem?_set_ne hij]
      exact ⟨d, List.mem_of_getElem? hj', hPd⟩
  | cancelParent => exact ⟨d, hd, hPd⟩

theorem StopTookEffect.step (h : s.StopTookEffect) (hs : Step s a s') : s'.StopTookEffect :=
  hs.keeps PhaseStep.tookEffect h

theorem StopActed.step (h : s.StopActed) (hs : Step s a s') : s'.StopActed :=
  hs.keeps PhaseStep.acted h

theorem Inv.admitted_of_step (h : s.Inv) (he : s.StopTookEffect) (hs : Step s a s')
    (ha : s'.Admitted i) : s.Admitted i := by
  obtain ⟨c', hc', hadm⟩ := ha
  rcases hs.phase hc' with hout | ⟨c, hc, _, _, _, hp⟩
  · rw [hout] at hadm
    cases hadm
  · refine ⟨c, hc, ?_⟩
    obtain ⟨d, hd, hd'⟩ := he
    exact (hp.of_admitted hadm).resolve_right (h.effect d hd hd' c (List.mem_of_getElem? hc))

theorem Inv.admitted_of_exec (h : s.Inv) (he : s.StopTookEffect)
    (hexec : workersMachine.exec s as = some s') (ha : s'.Admitted i) : s.Admitted i := by
  induction as generalizing s with
  | nil =>
    cases hexec
    exact ha
  | cons a as ih =>
    obtain ⟨t, ht, hexec⟩ := Option.bind_eq_some_iff.1 hexec
    have hs := step_step ht
    exact h.admitted_of_step he hs (ih (h.step hs) (he.step hs) hexec)

def StopFirst (s : StoppableWorkers) (a : WorkersAct) : Prop := a = .cancelParent → s.StopActed

instance (s : StoppableWorkers) : Decidable s.StopActed :=
  inferInstanceAs (Decidable (∃ c ∈ s.calls, c.phase.acted = true))

instance (s : StoppableWorkers) (a : WorkersAct) : Decidable (StopFirst s a) :=
  inferInstanceAs (Decidable (a = .cancelParent → s.StopActed))

theorem acted_of_cancelled (h : workersMachine.ReachableWith StopFirst s) :
    s.cancelled = true → s.StopActed := by
  apply h.invariant (I := fun s => s.cancelled = true → s.StopActed)
  · rintro s rfl hctx
    cases hctx
  · intro s a s' hi hok hstep hctx
    have hs := step_step hstep
    have hold (hacted : s.StopActed) : s'.StopActed := hacted.step hs
    cases hs with
    | call => exact hold (hi hctx)
    | @next i c c' _ _ hc hm =>
      rcases hm.phase.of_ctx hctx with hctx | hacted
      · exact hold (hi hctx)
      · refine ⟨c', ?_, hacted⟩
        rw [hm.calls]
        exact List.mem_set (List.getElem?_eq_some_iff.1 hc).1 c'
    | cancelParent => exact hold (hok rfl)

theorem Inv.waited_of_returned (h : s.Inv) (hr : s.StopReturned) (ha : s.StopActed) :
    ∃ c ∈ s.calls, c.phase = .waited := by
  obtain ⟨waited, hmem⟩ := hr
  obtain ⟨c, hc, hacted⟩ := ha
  cases waited with
  | true => exact ⟨_, hmem, rfl⟩
  | false => exact ⟨c, hc, h.early _ hmem rfl c hc hacted⟩

theorem Inv.finished_of_returned (h : s.Inv) (hr : s.StopReturned) (ha : s.StopActed)
    (hadm : s.Admitted i) : At s.calls i (· = .add .finished) := by
  obtain ⟨w, hw, hwaited⟩ := h.waited_of_returned hr ha
  obtain ⟨c, hc, hadm⟩ := hadm
  have hrun : c.phase ≠ .running := h.waited w hw hwaited c (List.mem_of_getElem? hc)
  exact ⟨c, hc, Call.finished_of_admitted hadm hrun⟩

end StoppableWorkers

open StoppableWorkers

/-- Once a `Stop` has taken effect no worker is counted. If the parent is not cancelled before,
every counted worker has finished when a `Stop` returns. -/
theorem stop_waits (hs : workersMachine.Reachable s) :
    (s.StopTookEffect → ∀ as s' i,
      workersMachine.exec s as = some s' → s'.Admitted i → s.Admitted i) ∧
    (workersMachine.ReachableWith StopFirst s → s.StopReturned → ∀ i,
      s.Admitted i → At s.calls i (· = .add .finished)) := by
  have hi := inv_of_reachable hs
  constructor
  · intro he as s' i hexec
    exact hi.admitted_of_exec he hexec
  · intro h hr i
    have heffect : s.StopTookEffect := by
      obtain ⟨waited, hmem⟩ := hr
      refine ⟨_, hmem, ?_⟩
      cases waited <;> rfl
    obtain ⟨c, hc, hc'⟩ := heffect
    exact hi.finished_of_returned hr (acted_of_cancelled h (hi.ctx c hc hc'))

/-- The parent is cancelled while a `Stop` waits for the one worker, and a second `Stop` returns at
once after the first. -/
theorem stop_waits_cancelled :
    ∃ s, workersMachine.ReachableWith StopFirst s ∧
      s.calls = [.add .finished, .stop (.returned true), .stop (.returned false)] ∧
      s.StopTookEffect ∧ s.StopReturned ∧ s.Admitted 0 ∧
      (∀ as s' i, workersMachine.exec s as = some s' → s'.Admitted i → s.Admitted i) ∧
      At s.calls 0 (· = .add .finished) := by
  let run : List (List WorkersAct) :=
    [[.callAdd], List.replicate 5 (.next 0), [.callStop], List.replicate 3 (.next 1),
      [.cancelParent, .next 0, .next 0, .next 1, .next 1, .callStop], List.replicate 3 (.next 2)]
  obtain ⟨s, hr, hcalls⟩ : ∃ s, workersMachine.ReachableWith StopFirst s ∧
      s.calls = [.add .finished, .stop (.returned true), .stop (.returned false)] :=
    workersMachine.exists_reachableWith StopFirst {} run.flatten rfl (by decide +kernel)
  have heffect : s.StopTookEffect := ⟨.stop (.returned true), by simp [hcalls], rfl⟩
  have hreturned : s.StopReturned := ⟨true, by simp [hcalls]⟩
  have hadm : s.Admitted 0 := ⟨.add .finished, by simp [hcalls], rfl⟩
  exact ⟨s, hr, hcalls, heffect, hreturned, hadm, (stop_waits hr.reachable).1 heffect,
    (stop_waits hr.reachable).2 hr hreturned 0 hadm⟩

/-- The parent is cancelled first: `Stop` finds the context cancelled and returns while the worker
runs. -/
theorem stop_returns_while_working :
    ∃ s, workersMachine.Reachable s ∧ s.StopReturned ∧ s.Admitted 0 ∧
      s.calls[0]? = some (.add .working) := by
  let run : List (List WorkersAct) :=
    [[.callAdd], List.replicate 5 (.next 0), [.cancelParent, .callStop],
      List.replicate 3 (.next 1)]
  obtain ⟨s, hr, hcalls⟩ : ∃ s, workersMachine.Reachable s ∧
      s.calls = [.add .working, .stop (.returned false)] :=
    workersMachine.exists_reachable {} run.flatten rfl (by decide +kernel)
  refine ⟨s, hr, ⟨false, ?_⟩, ⟨.add .working, ?_, rfl⟩, ?_⟩
  · simp [hcalls]
  · simp [hcalls]
  · simp [hcalls]

end Goutils.Utils
