import Goutils.Lib.WorkGroup

namespace Goutils.Signaling
open Lib
set_option autoImplicit true

def defaultMaxAnswerers : Nat := 2

/-- Where `webrtcSignalingAnswerer` starts what `bgWorkers` counts. -/
inductive AnswererSite where
  | connector
  | answerer
  | candidate
  deriving DecidableEq

inductive AnswererOp where
  | connect
  | startAnswerer
  | serve
  | closeSend
  | sendCandidate
  | pendingCandidatesDone
  deriving DecidableEq

def AnswererSite.routine : AnswererSite → Routine AnswererOp
  | .connector =>
    { body := .connect :: List.replicate defaultMaxAnswerers .startAnswerer, managed := true }
  | .answerer => { body := [.serve], deferred := [.closeSend], managed := true }
  | .candidate => { body := [.sendCandidate], deferred := [.pendingCandidatesDone] }

/-- The ICE agents call `OnICECandidate` of any attempt at any time. -/
def AnswererSite.startedBy : AnswererSite → Option (AnswererSite × AnswererOp)
  | .answerer => some (.connector, .startAnswerer)
  | _ => none

def bgWorkers : GroupSpec AnswererSite AnswererOp where
  routine := AnswererSite.routine
  guarded := true
  initial := [.connector]
  startedBy := AnswererSite.startedBy

/-- Where the connecting goroutine stands: `set` is to store what it has dialed. -/
inductive DialPc where
  | top
  | check
  | dial
  | wait
  | set (c : Nat)
  | finished
  | stopped
  deriving DecidableEq

/-- Where `Stop` stands; from `close` to `unlock` it has `connMu`. -/
inductive AnswererStopPc where
  | waiting
  | close
  | clear
  | unlock
  | returned
  deriving DecidableEq

/-- The answerer after `Start`. Connections are numbered; `closed` lists those closed. -/
structure AnswererRun where
  group : Group AnswererSite AnswererOp := .init bgWorkers
  dial : DialPc := .top
  conn : Option Nat := none
  dialed : Nat := 0
  closed : List Nat := []
  stop : AnswererStopPc := .waiting

/-- `elapsed` is the end of the wait before the next attempt. -/
inductive DialAct where
  | next
  | ok
  | fails
  | elapsed
  deriving DecidableEq

inductive AnswererAct where
  | group (a : GroupAct AnswererSite)
  | dial (a : DialAct)
  | stop

namespace AnswererRun

def connecting (s : AnswererRun) : Bool :=
  s.group.workers[0]?.any fun w => decide (w.rest.head? = some (.op .connect))

/-- The connecting goroutine leaves its loop as the loop says, or by a panic of `Dial`. -/
def allows (s : AnswererRun) : GroupAct AnswererSite → Bool
  | .work 0 => !s.connecting || decide (s.dial = .finished)
  | .ret 0 => s.connecting && decide (s.dial = .stopped)
  | .panics 0 => s.connecting && decide (s.dial = .dial)
  | _ => true

def dialAfter (s : AnswererRun) : GroupAct AnswererSite → DialPc
  | .panics 0 => .top
  | _ => s.dial

def groupStep (s : AnswererRun) (a : GroupAct AnswererSite) : Option AnswererRun :=
  if s.allows a then
    (s.group.step bgWorkers a).map fun group => { s with group, dial := s.dialAfter a }
  else none

def dialStep (s : AnswererRun) (a : DialAct) : Option AnswererRun :=
  if s.connecting then
    match s.dial, a with
    | .top, .next => some { s with dial := if s.conn = none then .check else .finished }
    | .check, .next => some { s with dial := if s.group.closed then .stopped else .dial }
    | .dial, .ok => some { s with dial := .set s.dialed, dialed := s.dialed + 1 }
    | .dial, .fails => some { s with dial := .wait }
    | .wait, .next => if s.group.closed then some { s with dial := .stopped } else none
    | .wait, .elapsed => some { s with dial := .top }
    | .set c, .next =>
      if s.stop = .waiting ∨ s.stop = .returned then some { s with conn := some c, dial := .top }
      else none
    | _, _ => none
  else none

def stopStep (s : AnswererRun) : Option AnswererRun :=
  match s.stop with
  | .waiting => if s.group.shut = .returned then some { s with stop := .close } else none
  | .close =>
    match s.conn with
    | some c => some { s with closed := s.closed ++ [c], stop := .clear }
    | none => some { s with stop := .unlock }
  | .clear => some { s with conn := none, stop := .unlock }
  | .unlock => some { s with stop := .returned }
  | .returned => none

end AnswererRun

def answererStep (s : AnswererRun) : AnswererAct → Option AnswererRun
  | .group a => s.groupStep a
  | .dial a => s.dialStep a
  | .stop => s.stopStep

def answererMachine : Machine AnswererRun AnswererAct where
  init s := s = {}
  step := answererStep

inductive DialStep (s : AnswererRun) : AnswererRun → Prop where
  | next : s.dial = .top → s.conn = none → DialStep s { s with dial := .check }
  | finished : s.dial = .top → DialStep s { s with dial := .finished }
  | go : s.dial = .check ∨ s.dial = .dial ∨ s.dial = .wait →
      pc = .stopped ∨ pc = .dial ∨ pc = .wait → DialStep s { s with dial := pc }
  | again : s.dial = .wait → DialStep s { s with dial := .top }
  | ok : s.dial = .dial → DialStep s { s with dial := .set s.dialed, dialed := s.dialed + 1 }
  | set : s.dial = .set c → DialStep s { s with conn := some c, dial := .top }

theorem dialStep_step {s s' : AnswererRun} (h : s.dialStep a = some s') :
    s.connecting = true ∧ DialStep s s' := by
  unfold AnswererRun.dialStep at h
  split at h
  · rename_i hconn
    refine ⟨hconn, ?_⟩
    split at h
    · cases h
      split
      · exact .next ‹_› ‹_›
      · exact .finished ‹_›
    · cases h
      split
      · exact .go (.inl ‹_›) (.inl rfl)
      · exact .go (.inl ‹_›) (.inr (.inl rfl))
    · cases h
      exact .ok ‹_›
    · cases h
      exact .go (.inr (.inl ‹_›)) (.inr (.inr rfl))
    · split at h <;> cases h
      exact .go (.inr (.inr ‹_›)) (.inl rfl)
    · cases h
      exact .again ‹_›
    · split at h <;> cases h
      exact .set ‹_›
    · cases h
  · cases h

def DialPc.dials : DialPc → Bool
  | .top | .finished => false
  | _ => true

structure AnswererRun.Inv (s : AnswererRun) : Prop where
  group : s.group.Inv bgWorkers
  connector : ∃ w, s.group.workers[0]? = some w ∧ w.site = .connector
  storing : ∀ c, s.dial = .set c → s.connecting = true
  fresh : s.dial.dials = true → s.conn = none
  kept : ∀ c < s.dialed, c ∈ s.closed ∨ s.conn = some c ∨ s.dial = .set c
  stopping : s.stop ≠ .waiting → s.group.shut = .returned
  clear : s.stop = .clear → ∀ c, s.conn = some c → c ∈ s.closed
  cleared : s.stop = .unlock ∨ s.stop = .returned → s.conn = none

namespace AnswererRun.Inv

variable {s s' : AnswererRun}

theorem init : ({} : AnswererRun).Inv where
  group := .init bgWorkers
  connector := ⟨_, rfl, rfl⟩
  storing c h := by cases h
  fresh h := by cases h
  kept c h := by cases h
  stopping h := absurd rfl h
  clear h := by cases h
  cleared _ := rfl

variable (h : s.Inv)

include h

theorem finished (hret : s.group.shut = .returned) (hw : w ∈ s.group.workers) : w.rest = [] := by
  apply h.group.finished hret hw (h.group.inTime rfl w hw)
  cases w.site <;> rfl

theorem not_connecting (hret : s.group.shut = .returned) : s.connecting = false := by
  obtain ⟨w, hw, _⟩ := h.connector
  rw [connecting, hw, Option.any_some, h.finished hret (List.mem_of_getElem? hw)]
  rfl

theorem waiting (hconn : s.connecting = true) : s.stop = .waiting := by
  by_contra hstop
  rw [h.not_connecting (h.stopping hstop)] at hconn
  cases hconn

theorem groupStep (hs : s.groupStep a = some s') : s'.Inv := by
  unfold AnswererRun.groupStep at hs
  split at hs
  · rename_i hallow
    obtain ⟨g, hg, rfl⟩ := Option.map_eq_some_iff.1 hs
    have hstep := Group.step_step hg
    obtain ⟨w, hw, hsite⟩ := h.connector
    have hdial : s.dialAfter a = s.dial ∨ s.dial = .dial ∧ s.dialAfter a = .top := by
      unfold AnswererRun.dialAfter
      split
      · exact .inr ⟨of_decide_eq_true (Bool.and_eq_true_iff.1 hallow).2, rfl⟩
      · exact .inl rfl
    refine ⟨h.group.step hstep, ?_, ?_, ?_, ?_, ?_, h.clear, h.cleared⟩
    · rcases Group.worker_step hw hstep with hw' | ⟨_, rest, hw'⟩
      · exact ⟨w, hw', hsite⟩
      · exact ⟨_, hw', hsite⟩
    · intro c hc
      rcases hdial with hd | ⟨_, hd⟩
      · have hset : s.dial = .set c := hd ▸ hc
        rcases Group.worker_step hw hstep with hw' | ⟨ha, _⟩
        · have hconn := h.storing c hset
          rw [connecting, hw] at hconn
          rw [connecting, hw']
          exact hconn
        · -- it does not leave the loop before it has stored the connection
          exfalso
          rcases ha with rfl | rfl | rfl
          · simp [allows, h.storing c hset, hset] at hallow
          · simp [allows, hset] at hallow
          · simp [allows, hset] at hallow
      · cases hd.symm.trans hc
    · intro hdials
      rcases hdial with hd | ⟨_, hd⟩
      · exact h.fresh (hd ▸ hdials)
      · cases (congrArg DialPc.dials hd).symm.trans hdials
    · intro c hc
      rcases h.kept c hc with hcl | hconn | hset
      · exact .inl hcl
      · exact .inr (.inl hconn)
      · rcases hdial with hd | ⟨hd, _⟩
        · exact .inr (.inr (hd.trans hset))
        · rw [hset] at hd
          cases hd
    · intro hstop
      exact Group.returned_step (h.stopping hstop) hstep
  · cases hs

theorem looped (hconn : s.connecting = true) (hfresh : DialPc.dials d = true → co = none)
    (hkept : ∀ c < n, c ∈ s.closed ∨ co = some c ∨ d = .set c) :
    ({ s with dial := d, conn := co, dialed := n } : AnswererRun).Inv := by
  have hwait := h.waiting hconn
  refine ⟨h.group, h.connector, fun _ _ => hconn, hfresh, hkept, h.stopping, ?_, ?_⟩
  · intro hstop
    cases hwait.symm.trans hstop
  · intro hstop
    rcases hstop with hstop | hstop
    · cases hwait.symm.trans hstop
    · cases hwait.symm.trans hstop

theorem dialStep (hs : s.dialStep a = some s') : s'.Inv := by
  obtain ⟨hconn, hstep⟩ := dialStep_step hs
  -- where no connection is about to be stored, the dialed ones are closed or stored
  have hkept {d : DialPc} (hset : ∀ c, s.dial ≠ .set c) :
      ∀ c < s.dialed, c ∈ s.closed ∨ s.conn = some c ∨ d = .set c := by
    intro c hc
    rcases h.kept c hc with hcl | hco | hd
    · exact .inl hcl
    · exact .inr (.inl hco)
    · exact absurd hd (hset c)
  cases hstep with
  | next hpc hnone =>
    refine h.looped hconn (fun _ => hnone) (hkept ?_)
    intro c hset
    cases hpc.symm.trans hset
  | finished hpc | again hpc =>
    refine h.looped hconn (fun hd => by cases hd) (hkept ?_)
    intro c hset
    cases hpc.symm.trans hset
  | go hpc _ =>
    refine h.looped hconn (fun _ => h.fresh ?_) (hkept ?_)
    · rcases hpc with hpc | hpc | hpc
      · rw [hpc]; rfl
      · rw [hpc]; rfl
      · rw [hpc]; rfl
    · intro c hset
      rcases hpc with hpc | hpc | hpc
      · cases hpc.symm.trans hset
      · cases hpc.symm.trans hset
      · cases hpc.symm.trans hset
  | ok hpc =>
    refine h.looped hconn (fun _ => h.fresh (by rw [hpc]; rfl)) ?_
    intro c hc
    rcases Nat.lt_succ_iff_lt_or_eq.1 hc with hc | rfl
    · refine hkept ?_ c hc
      intro c' hset
      cases hpc.symm.trans hset
    · exact .inr (.inr rfl)
  | @set c hpc =>
    refine h.looped hconn (fun hd => by cases hd) ?_
    intro c' hc
    have hnone := h.fresh (by rw [hpc]; rfl)
    rcases h.kept c' hc with hcl | hco | hset
    · exact .inl hcl
    · cases hnone.symm.trans hco
    · cases hpc.symm.trans hset
      exact .inr (.inl rfl)

theorem stopStep (hs : s.stopStep = some s') : s'.Inv := by
  unfold AnswererRun.stopStep at hs
  split at hs
  · split at hs <;> cases hs
    rename_i hret
    exact { h with stopping := fun _ => hret, clear := by simp, cleared := by simp }
  · rename_i hpc
    have hret : s.group.shut = .returned := h.stopping (by rw [hpc]; decide)
    split at hs
    · rename_i c hco
      cases hs
      refine ⟨h.group, h.connector, h.storing, h.fresh, ?_, fun _ => hret, ?_, by simp⟩
      · intro c' hc
        exact (h.kept c' hc).imp_left fun hcl => List.mem_append_left [c] hcl
      · intro _ c' hco'
        cases hco.symm.trans hco'
        exact List.mem_append_right _ List.mem_cons_self
    · rename_i hco
      cases hs
      exact { h with stopping := fun _ => hret, clear := by simp, cleared := fun _ => hco }
  · rename_i hpc
    have hret : s.group.shut = .returned := h.stopping (by rw [hpc]; decide)
    cases hs
    refine ⟨h.group, h.connector, h.storing, fun _ => rfl, ?_, fun _ => hret, by simp, fun _ => rfl⟩
    intro c hc
    rcases h.kept c hc with hcl | hco | hset
    · exact .inl hcl
    · exact .inl (h.clear hpc c hco)
    · exact .inr (.inr hset)
  · rename_i hpc
    have hret : s.group.shut = .returned := h.stopping (by rw [hpc]; decide)
    cases hs
    exact ⟨h.group, h.connector, h.storing, h.fresh, h.kept, fun _ => hret, by simp,
      fun _ => h.cleared (.inl hpc)⟩
  · cases hs

theorem step (hs : answererStep s a = some s') : s'.Inv := by
  cases a with
  | group a => exact h.groupStep hs
  | dial a => exact h.dialStep hs
  | stop => exact h.stopStep hs

end AnswererRun.Inv

theorem AnswererRun.inv {s : AnswererRun} (h : answererMachine.Reachable s) : s.Inv := by
  apply h.invariant
  · rintro s rfl
    exact .init
  · exact fun s a s' hI hs => hI.step hs

theorem AnswererRun.count_le {s s' : AnswererRun} (h : s.Inv) (hc : s.group.closed = true)
    (hs : answererStep s a = some s') :
    s'.group.count ≤ s.group.count ∧ s'.group.closed = true := by
  cases a with
  | group a =>
    simp only [answererStep, groupStep] at hs
    split at hs
    · obtain ⟨g, hg, rfl⟩ := Option.map_eq_some_iff.1 hs
      have hstep := Group.step_step hg
      exact ⟨h.group.count_le rfl hc hstep, Group.Inv.closed_mono hc hstep⟩
    · cases hs
  | dial a =>
    cases (dialStep_step hs).2 <;> exact ⟨Nat.le_refl _, hc⟩
  | stop =>
    simp only [answererStep, stopStep] at hs
    split at hs
    · split at hs <;> cases hs
      exact ⟨Nat.le_refl _, hc⟩
    · split at hs <;> cases hs <;> exact ⟨Nat.le_refl _, hc⟩
    · cases hs
      exact ⟨Nat.le_refl _, hc⟩
    · cases hs
      exact ⟨Nat.le_refl _, hc⟩
    · cases hs

theorem AnswererRun.count_exec {s s' : AnswererRun} (h : s.Inv) (hc : s.group.closed = true)
    {as : List AnswererAct} (he : answererMachine.exec s as = some s') :
    s'.group.count ≤ s.group.count := by
  induction as generalizing s with
  | nil =>
    cases he
    exact Nat.le_refl _
  | cons a as ih =>
    obtain ⟨t, ht, he⟩ := Option.bind_eq_some_iff.1 he
    obtain ⟨hle, hct⟩ := AnswererRun.count_le h hc ht
    exact Nat.le_trans (ih (h.step ht) hct he) hle

/-- When `Stop` has returned, workers are finished and connections closed and cleared. -/
structure AnswererRun.Stops (s : AnswererRun) : Prop where
  noAdd : s.group.shut = .wait ∨ s.group.shut = .returned → s.group.count = 0 →
    ∀ as s', answererMachine.exec s as = some s' → s'.group.count = 0
  quiet : s.stop = .returned → (∀ w ∈ s.group.workers, w.rest = []) ∧
    s.group.count = 0 ∧ s.conn = none ∧ ∀ c < s.dialed, c ∈ s.closed

theorem answerer_stops {s : AnswererRun} (h : answererMachine.Reachable s) : s.Stops := by
  have hI := AnswererRun.inv h
  constructor
  · intro hpc hzero as s' he
    have hc : s.group.closed = true := by
      rw [hI.group.closed]
      rcases hpc with hpc | hpc
      · rw [hpc]; rfl
      · rw [hpc]; rfl
    have hle := AnswererRun.count_exec hI hc he
    rw [hzero] at hle
    exact Nat.le_zero.1 hle
  · intro hstop
    have hret : s.group.shut = .returned := hI.stopping (by rw [hstop]; decide)
    have hnone := hI.cleared (.inr hstop)
    refine ⟨fun w hw => hI.finished hret hw, ?_, hnone, ?_⟩
    · have hcount := hI.group.count
      have ha : s.group.admissions.countP (fun a => a.pc.pending) = 0 := by
        rw [List.countP_eq_zero]
        intro a ha hp
        rw [(hI.group.waited hret).2 a ha] at hp
        cases hp
      have hw : s.group.workers.countP Worker.pending = 0 := by
        rw [List.countP_eq_zero]
        intro w hw hp
        rw [Worker.pending, hI.finished hret hw] at hp
        cases hp
      rw [hcount, ha, hw]
    · intro c hc
      rcases hI.kept c hc with hcl | hco | hset
      · exact hcl
      · cases hnone.symm.trans hco
      · have hconn := hI.storing c hset
        rw [hI.not_connecting hret] at hconn
        cases hconn

/-- `Dial` succeeds after `Stop` has cancelled, and `Stop` closes the connection. -/
def lateDial : List AnswererAct :=
  [.dial .next, .dial .next, .group (.start .candidate), .group (.enter 0), .group (.enter 0),
    .group (.enter 0), .group (.enter 0), .group (.enter 0),
    .group .close, .group .close, .group .close, .group .close,
    .dial .ok, .dial .next, .dial .next, .group (.work 0), .group (.start .answerer),
    .group (.enter 1), .group (.enter 1), .group (.enter 1), .group (.work 0), .group (.work 0),
    .group (.work 0), .group (.work 1), .group (.work 1), .group (.work 1), .group .close,
    .stop, .stop, .stop, .stop]

theorem answerer_stops_lateDial :
    ∃ s : AnswererRun, s.stop = .returned ∧ s.dialed = 1 ∧ s.group.workers.length = 2 ∧
      s.Stops := by
  obtain ⟨s, hr, hstop, hdialed, hlen⟩ : ∃ s, answererMachine.Reachable s ∧ s.stop = .returned ∧
      s.dialed = 1 ∧ s.group.workers.length = 2 :=
    answererMachine.exists_reachable {} lateDial rfl (by decide +kernel)
  exact ⟨s, hstop, hdialed, hlen, answerer_stops hr⟩

end Goutils.Signaling
