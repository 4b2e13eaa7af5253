import Goutils.CallQueue.ChangeStream

namespace Goutils.CallQueue
open Lib
set_option autoImplicit true

/-- The stream with those that registered a ready function and those that were called. -/
structure ReadyState where
  stream : StreamState := {}
  registered : List Nat := []
  snapshot : List Nat := []
  called : List Nat := []

def ReadyState.note (s : ReadyState) (a : StreamAct) (stream : StreamState) : ReadyState where
  stream := stream
  registered := s.registered ++
    stream.csAnswerersWaitingForNextCS.drop s.stream.csAnswerersWaitingForNextCS.length
  snapshot := match a with
    | .snapshot => s.registered
    | _ => s.snapshot
  called := match a with
    | .ready => s.called ++ s.stream.manager.readyFuncs.take 1
    | _ => s.called

def readyMachine (operatorID : String) : Machine ReadyState StreamAct where
  init s := s = {}
  step s a := (streamStep operatorID s.stream a).map (s.note a)

def ReadyState.queue (s : ReadyState) : List Nat :=
  s.called ++ (s.stream.manager.readyFuncs ++ s.stream.csAnswerersWaitingForNextCS)

inductive ReadyStep (s : ReadyState) : StreamAct → ReadyState → Prop where
  | keep : s'.queue = s.queue → s'.registered = s.registered → s'.snapshot = s.snapshot →
      s'.called ++ s'.stream.manager.readyFuncs = s.called ++ s.stream.manager.readyFuncs →
      s'.stream.subscribers.length ≥ s.stream.subscribers.length → ReadyStep s a s'
  | subscribe : s'.queue = s.queue ++ [s.stream.subscribers.length] →
      s'.registered = s.registered ++ [s.stream.subscribers.length] → s'.snapshot = s.snapshot →
      s'.called ++ s'.stream.manager.readyFuncs = s.called ++ s.stream.manager.readyFuncs →
      s'.stream.subscribers.length = s.stream.subscribers.length + 1 → ReadyStep s a s'
  | snapshot : s'.queue = s.queue → s'.registered = s.registered → s'.snapshot = s.registered →
      s'.called ++ s'.stream.manager.readyFuncs = s.queue →
      s'.stream.subscribers.length = s.stream.subscribers.length → ReadyStep s a s'
  | watchFails : s'.queue = s.called ++ s.stream.csAnswerersWaitingForNextCS →
      s'.registered = s.registered → s'.snapshot = s.snapshot → s'.called = s.called →
      s'.stream.manager.readyFuncs = [] →
      s'.stream.subscribers.length = s.stream.subscribers.length → ReadyStep s (.watch false) s'

variable {s s' : ReadyState}

theorem ReadyStep.same {stream : StreamState} (hcalled : (s.note a stream).called = s.called)
    (hsnapshot : (s.note a stream).snapshot = s.snapshot)
    (hfuncs : stream.manager.readyFuncs = s.stream.manager.readyFuncs)
    (hwaiting : stream.csAnswerersWaitingForNextCS = s.stream.csAnswerersWaitingForNextCS)
    (hlen : stream.subscribers.length ≥ s.stream.subscribers.length) :
    ReadyStep s a (s.note a stream) := by
  have hstream : (s.note a stream).stream = stream := rfl
  refine .keep ?_ ?_ hsnapshot ?_ hlen
  · simp only [ReadyState.queue, hcalled, hstream, hfuncs, hwaiting]
  · simp only [ReadyState.note, hwaiting, List.drop_length, List.append_nil]
  · rw [hcalled, hstream, hfuncs]

theorem readyStep_step {stream : StreamState} (h : StreamStep operatorID s.stream a stream) :
    ReadyStep s a (s.note a stream) := by
  cases h with
  | event | tickSame => exact .same rfl rfl rfl rfl (Nat.le_refl _)
  | tick hpc => exact .same rfl rfl (by rw [hpc]; rfl) rfl (Nat.le_refl _)
  | snapshot hpc =>
    refine .snapshot ?_ ?_ rfl ?_ rfl
    · simp [ReadyState.queue, ReadyState.note, hpc, ManagerPc.readyFuncs]
    · simp [ReadyState.note]
    · simp [ReadyState.queue, ReadyState.note, hpc, ManagerPc.readyFuncs]
  | watch hpc => exact .same rfl rfl (by rw [hpc]; rfl) rfl (Nat.le_refl _)
  | watchFails hpc =>
    refine .watchFails rfl ?_ rfl rfl rfl rfl
    simp [ReadyState.note]
  | ready hpc =>
    refine .keep ?_ ?_ rfl ?_ ?_
    · simp [ReadyState.queue, ReadyState.note, hpc, ManagerPc.readyFuncs]
    · simp [ReadyState.note]
    · simp [ReadyState.note, hpc, ManagerPc.readyFuncs]
    · exact Nat.le_of_eq (List.length_modify ..).symm
  | readied hpc =>
    refine .same ?_ rfl (by rw [hpc]; rfl) rfl (Nat.le_refl _)
    simp [ReadyState.note, hpc, ManagerPc.readyFuncs]
  | replace hpc | background hpc => exact .same rfl rfl (by rw [hpc]; rfl) rfl (Nat.le_refl _)
  | start hpc _ hs =>
    subst hs
    obtain ⟨w, m, heq⟩ := StreamState.processClusterEventState_eq
      { s.stream with manager := .idle, watched := true, currentCS := some _ } (some _) _
    rw [heq]
    exact .same rfl rfl (by rw [hpc]; rfl) rfl (Nat.le_refl _)
  | swap hpc => exact .same rfl rfl (by rw [hpc]; rfl) rfl (Nat.le_refl _)
  | @next cs j e =>
    obtain ⟨w, m, pc, heq⟩ := s.stream.processNext_eq cs j e
    rw [heq]
    exact .same rfl rfl rfl rfl (Nat.le_refl _)
  | dispatch | fail | subscribeToCall | leaveCall =>
    exact .same rfl rfl rfl rfl (Nat.le_refl _)
  | invalidate _ hs =>
    subst hs
    obtain ⟨w, m, heq⟩ := s.stream.processClusterEventState_eq _ {}
    rw [heq]
    exact .same rfl rfl rfl rfl (Nat.le_refl _)
  | subscribed =>
    refine .same rfl rfl rfl rfl ?_
    simp
  | subscribe =>
    refine .subscribe ?_ ?_ rfl rfl ?_
    · simp [ReadyState.queue, ReadyState.note]
    · simp [ReadyState.note]
    · simp [ReadyState.note]
  | bump => exact .same rfl rfl rfl rfl (Nat.le_of_eq (List.length_set ..).symm)
  | returns | unsubscribe => exact .same rfl rfl rfl rfl (Nat.le_of_eq (List.length_set ..).symm)

/-- Whatever `Watch` answers, no ready function is in hand twice. -/
structure ReadyState.Inv (s : ReadyState) : Prop where
  sublist : s.queue.Sublist s.registered
  nodup : s.registered.Nodup
  range : ∀ k ∈ s.registered, k < s.stream.subscribers.length

namespace ReadyState.Inv

theorem step (h : s.Inv) (hs : ReadyStep s a s') : s'.Inv := by
  cases hs with
  | keep hq hr _ _ hlen =>
    refine ⟨by rw [hq, hr]; exact h.sublist, by rw [hr]; exact h.nodup, ?_⟩
    intro k hk
    rw [hr] at hk
    exact Nat.lt_of_lt_of_le (h.range k hk) hlen
  | subscribe hq hr _ _ hlen =>
    refine ⟨?_, ?_, ?_⟩
    · rw [hq, hr]
      exact h.sublist.append (List.Sublist.refl _)
    · rw [hr, List.nodup_append]
      refine ⟨h.nodup, List.nodup_singleton _, ?_⟩
      intro k hk n hn
      rw [List.mem_singleton.1 hn]
      exact Nat.ne_of_lt (h.range k hk)
    · intro k hk
      rw [hlen]
      rw [hr] at hk
      rcases List.mem_append.1 hk with hk | hk
      · exact Nat.lt_succ_of_lt (h.range k hk)
      · rw [List.mem_singleton.1 hk]
        exact Nat.lt_succ_self _
  | snapshot hq hr _ _ hlen =>
    refine ⟨by rw [hq, hr]; exact h.sublist, by rw [hr]; exact h.nodup, ?_⟩
    rw [hr, hlen]
    exact h.range
  | watchFails hq hr _ _ _ hlen =>
    refine ⟨?_, by rw [hr]; exact h.nodup, ?_⟩
    · -- the functions in hand are dropped
      rw [hq, hr]
      refine List.Sublist.trans ?_ h.sublist
      exact (List.Sublist.refl _).append (List.sublist_append_right _ _)
    · rw [hr, hlen]
      exact h.range

theorem of_reachable (h : (readyMachine operatorID).Reachable s) : s.Inv := by
  apply h.invariant
  · rintro s rfl
    exact ⟨List.Sublist.refl _, List.nodup_nil, fun _ hk => nomatch hk⟩
  · intro s a s' hI hs
    obtain ⟨stream, hstream, rfl⟩ := Option.map_eq_some_iff.1 hs
    exact hI.step (readyStep_step (streamStep_step hstream))

theorem called_nodup (h : s.Inv) : s.called.Nodup :=
  h.nodup.sublist ((List.sublist_append_left _ _).trans h.sublist)

end ReadyState.Inv

def KeepsPending (s : ReadyState) : StreamAct → Prop
  | .watch false => s.stream.manager.readyFuncs = []
  | _ => True

instance (s : ReadyState) (a : StreamAct) : Decidable (KeepsPending s a) := by
  unfold KeepsPending
  split
  · infer_instance
  · infer_instance

structure ReadyState.Kept (s : ReadyState) : Prop where
  queue : s.queue = s.registered
  snapshot : s.snapshot = s.called ++ s.stream.manager.readyFuncs

theorem ReadyState.Kept.step (h : s.Kept) (hok : KeepsPending s a) (hs : ReadyStep s a s') :
    s'.Kept := by
  cases hs with
  | keep hq hr hsnap hhand | subscribe hq hr hsnap hhand =>
    exact ⟨by rw [hq, hr, h.queue], by rw [hsnap, hhand, h.snapshot]⟩
  | snapshot hq hr hsnap hhand =>
    exact ⟨by rw [hq, hr, h.queue], by rw [hsnap, hhand, h.queue]⟩
  | watchFails hq hr hsnap hcalled hfuncs =>
    have hnone : s.stream.manager.readyFuncs = [] := hok
    constructor
    · rw [hq, hr, ← h.queue, ReadyState.queue, hnone, List.nil_append]
    · rw [hsnap, hcalled, hfuncs, h.snapshot, hnone]

theorem called_ready (h : (readyMachine operatorID).Reachable s) :
    ∀ k ∈ s.called, At s.stream.subscribers k fun x => x.ready = true := by
  induction h with
  | init hi =>
    rw [hi]
    nofun
  | @step s a s' hr _ hs ih =>
    obtain ⟨stream, hstream, rfl⟩ := Option.map_eq_some_iff.1 hs
    have hinv := ReadyState.Inv.of_reachable hr
    have hset : ∀ {i : Nat} {x x' : Subscriber}, s.stream.subscribers[i]? = some x →
        x'.ready = x.ready → ∀ k ∈ s.called,
          At (s.stream.subscribers.set i x') k fun x => x.ready = true := by
      intro i x x' hx hready k hk
      exact (At.set_iff hx (by rw [hready])).2 (ih k hk)
    cases streamStep_step hstream with
    | event | tickSame | tick | snapshot | watch | watchFails | replace | background | swap
    | dispatch | fail | subscribeToCall | leaveCall => exact ih
    | @ready n readyFuncs cs hpc =>
      have hlt : n < s.stream.subscribers.length := by
        apply hinv.range
        apply hinv.sublist.subset
        simp [ReadyState.queue, hpc, ManagerPc.readyFuncs]
      intro k hk
      rcases List.mem_append.1 hk with hk | hk
      · exact (ih k hk).modify n fun _ _ => rfl
      · have hkn : k = n := by simpa [hpc, ManagerPc.readyFuncs] using hk
        subst hkn
        have hat : At s.stream.subscribers k fun _ => True :=
          ⟨s.stream.subscribers[k], List.getElem?_eq_getElem hlt, trivial⟩
        exact hat.modify_self fun _ _ => rfl
    | readied hpc =>
      intro k hk
      apply ih
      simpa [ReadyState.note, hpc, ManagerPc.readyFuncs] using hk
    | start _ _ hs₁ =>
      subst hs₁
      obtain ⟨w, m, heq⟩ := StreamState.processClusterEventState_eq
        { s.stream with manager := .idle, watched := true, currentCS := some _ } (some _) _
      rw [heq]
      exact ih
    | @next cs j e =>
      obtain ⟨w, m, pc, heq⟩ := s.stream.processNext_eq cs j e
      rw [heq]
      exact ih
    | invalidate _ hs₁ =>
      subst hs₁
      obtain ⟨w, m, heq⟩ := s.stream.processClusterEventState_eq _ {}
      rw [heq]
      exact ih
    | subscribed | subscribe => exact fun k hk => (ih k hk).append _
    | bump hx | returns hx | unsubscribe hx => exact hset hx rfl

def StreamState.Opened (s : StreamState) : Bool :=
  match s.manager with
  | .replace _ | .background _ | .update _ _ _ => true
  | .idle => s.watched
  | _ => false

/-- Each ready function is called at most once, and where no `Watch` fails, by the iteration behind
its registration. -/
theorem waiting_answerers_readied {s : ReadyState} (h : (readyMachine operatorID).Reachable s) :
    s.called.Nodup ∧ (∀ k ∈ s.called, At s.stream.subscribers k fun x => x.ready = true) ∧
      ((readyMachine operatorID).ReachableWith KeepsPending s → s.stream.Opened = true →
        ∀ k ∈ s.snapshot, k ∈ s.called) := by
  refine ⟨(ReadyState.Inv.of_reachable h).called_nodup, called_ready h, fun h => ?_⟩
  have hkept : s.Kept := by
    apply h.invariant
    · rintro s rfl
      exact ⟨rfl, rfl⟩
    · intro s a s' hI hok hs
      obtain ⟨stream, hstream, rfl⟩ := Option.map_eq_some_iff.1 hs
      exact hI.step hok (readyStep_step (streamStep_step hstream))
  intro hopened k hk
  have hnone : s.stream.manager.readyFuncs = [] := by
    unfold StreamState.Opened at hopened
    split at hopened
    · rename_i hpc
      rw [hpc]
      rfl
    · rename_i hpc
      rw [hpc]
      rfl
    · rename_i hpc
      rw [hpc]
      rfl
    · rename_i hpc
      rw [hpc]
      rfl
    · cases hopened
  rwa [hkept.snapshot, hnone, List.append_nil] at hk

/-- A `Watch` fails before anyone has subscribed, and the next one succeeds. -/
theorem waiting_answerers_readied_one : ∃ s : ReadyState,
    (readyMachine "o").Reachable s ∧ s.snapshot = [0] ∧ s.stream.Opened = true ∧
      s.called.Nodup ∧ ∀ k ∈ s.snapshot, k ∈ s.called := by
  let run : List (List StreamAct) :=
    [[.tick, .snapshot, .watch false, .subscribe ["a"], .bump 0], iteration 1 0]
  obtain ⟨s, hr, hsnap, hopened⟩ : ∃ s, (readyMachine "o").ReachableWith KeepsPending s ∧
      s.snapshot = [0] ∧ s.stream.Opened = true :=
    (readyMachine "o").exists_reachableWith KeepsPending {} run.flatten rfl (by decide +kernel)
  obtain ⟨hnodup, _, hcalled⟩ := waiting_answerers_readied hr.reachable
  exact ⟨s, hr.reachable, hsnap, hopened, hnodup, hcalled hr hopened⟩

/-- The `Watch` of the iteration that saw the subscriber first fails: the next one succeeds, and the
subscriber waits on. -/
theorem waiting_answerer_forgotten : ∃ s : ReadyState,
    (readyMachine "o").Reachable s ∧ s.stream.Idle ∧ s.snapshot = [0] ∧ s.called = [] ∧
      s.stream.subscribers = [⟨["a"], .waiting, false⟩] ∧
      s.stream.csAnswerersWaitingForNextCS = [] := by
  let run : List (List StreamAct) :=
    [[.subscribe ["a"], .bump 0, .tick, .snapshot, .watch false], iteration 0 0]
  exact (readyMachine "o").exists_reachable {} run.flatten rfl (by decide +kernel)

end Goutils.CallQueue
