import Goutils.CallQueue.ChangeStream

namespace Goutils.CallQueue
open Lib
set_option autoImplicit true

def ManagerPc.opened : ManagerPc → Option Stream
  | .readying _ cs | .replace cs | .background cs | .update cs _ _ => some cs
  | _ => none

/-- A later stream starts at its snapshot, or delivers nothing that the old one did not, and an
event that was accepted finds a handler. -/
def KeepsUp (s : StreamState) : StreamAct → Prop
  | .update => match s.manager with
    | .update cs _ clusterTime =>
      if s.subscription = .starting then clusterTime.isZero = true
      else s.csLastEventClusterTime.isZero = true ∨
        cs.opts.startAtOperationTime = some s.csLastEventClusterTime ∨
        ∃ old ∈ s.currentCS, (∀ h ∈ cs.hosts, h ∈ old.hosts) ∧ old.start ≤ cs.start
    | _ => True
  | .dispatch => match s.subscription with
    | .dispatching _ e => s.offers e = true
    | _ => True
  | _ => True

def SubscriptionPc.pending : SubscriptionPc → List Nat
  | .dispatching j _ => [j]
  | .starting | .running | .waiting => []

structure Ordered (log : List CallEvent) : Prop where
  sorted : ∀ (i j : Nat) e e', log[i]? = some e → log[j]? = some e' → i < j →
    e.clusterTime.toNat < e'.clusterTime.toNat
  nonzero : ∀ e ∈ log, e.clusterTime.isZero = false

def InLog (log : List CallEvent) (τ : Timestamp) : Prop :=
  ∃ (j : Nat) (e : CallEvent), log[j]? = some e ∧ e.clusterTime = τ

def BeginsAt (log : List CallEvent) (cs : Stream) : Prop :=
  cs.pos = cs.start ∧ ∀ τ, cs.opts.startAtOperationTime = some τ → InLog log τ ∧
    ∀ (j : Nat) e, cs.start ≤ j → log[j]? = some e → τ.toNat ≤ e.clusterTime.toNat

namespace StreamState

/-- Whatever the watermark has let through. -/
def accepted (s : StreamState) : List Nat := s.dispatched ++ s.subscription.pending

theorem accepted_running {s : StreamState} (hrun : s.subscription = .running) :
    s.accepted = s.dispatched := by
  rw [accepted, hrun, SubscriptionPc.pending, List.append_nil]

structure CaughtUp (operatorID : String) (s : StreamState) : Prop where
  order : Ordered s.log
  mark : s.csLastEventClusterTime.isZero = false →
    ∃ (j : Nat) (e : CallEvent), s.log[j]? = some e ∧ e.clusterTime = s.csLastEventClusterTime ∧
      j ∈ s.accepted
  opts : ∀ hosts readyFuncs opts τ, s.manager = .watch hosts readyFuncs opts →
    opts.startAtOperationTime = some τ → InLog s.log τ
  opened : ∀ cs, s.manager.opened = some cs → BeginsAt s.log cs
  bound : ∀ cs, s.currentCS = some cs → cs.pos = cs.start ∨ cs.pos ≤ s.log.length
  past : ∀ cs, s.currentCS = some cs → ∀ (j : Nat) e, cs.start ≤ j → j < cs.pos →
    s.log[j]? = some e → isMatch operatorID cs.hosts e = true → j ∈ s.accepted
  seen : ∀ cs, s.currentCS = some cs → ∀ (j : Nat) e, cs.pos ≤ j → s.log[j]? = some e →
    isMatch operatorID cs.hosts e = true →
    s.csLastEventClusterTime.seen e.clusterTime = true → j ∈ s.accepted

theorem index_inj {s : StreamState} (ho : Ordered s.log) {i j : Nat} (hi : s.log[i]? = some e)
    (hj : s.log[j]? = some e') (h : e.clusterTime = e'.clusterTime) : i = j := by
  rcases Nat.lt_trichotomy i j with hij | hij | hij
  · have := ho.sorted i j e e' hi hj hij
    rw [h] at this
    omega
  · exact hij
  · have := ho.sorted j i e' e hj hi hij
    rw [h] at this
    omega

theorem not_seen_of_zero {last τ : Timestamp} (hz : last.isZero = true) (hτ : τ.isZero = false) :
    last.seen τ = false := by
  rw [Timestamp.isZero_iff] at hz
  have hτ' : τ.toNat ≠ 0 := fun h => by
    rw [(Timestamp.isZero_iff τ).2 h] at hτ
    cases hτ
  cases hs : last.seen τ with
  | false => rfl
  | true =>
    rw [Timestamp.seen_iff] at hs
    omega

theorem isMatch_mono (h : isMatch operatorID hosts e = true) (hsub : ∀ h ∈ hosts, h ∈ hosts') :
    isMatch operatorID hosts' e = true := by
  obtain ⟨d, hd, hm⟩ := (Option.any_eq_true ..).1 h
  refine (Option.any_eq_true ..).2 ⟨d, hd, ?_⟩
  rw [decide_eq_true_eq] at hm ⊢
  exact hm.imp_right (Or.imp_right (hsub d.host))

theorem beginsAt_startOf {s : StreamState} (ho : Ordered s.log) (hosts : List String)
    {opts : StreamOpts} (h : ∀ τ, opts.startAtOperationTime = some τ → InLog s.log τ) :
    BeginsAt s.log ⟨hosts, opts, s.startOf opts, s.startOf opts⟩ := by
  refine ⟨rfl, fun τ hτ => ⟨h τ hτ, fun j e hj he => ?_⟩⟩
  replace hτ : opts.startAtOperationTime = some τ := hτ
  replace hj : s.startOf opts ≤ j := hj
  simp only [startOf, hτ] at hj
  have hlt : s.log.findIdx (fun e => decide (τ.toNat ≤ e.clusterTime.toNat)) < s.log.length :=
    Nat.lt_of_le_of_lt hj (List.getElem?_eq_some_iff.1 he).1
  have hfirst := List.findIdx_getElem (w := hlt)
  rw [decide_eq_true_eq] at hfirst
  rcases Nat.lt_or_eq_of_le hj with hlt' | heq
  · exact hfirst.trans (Nat.le_of_lt (ho.sorted _ j _ e (List.getElem?_eq_getElem hlt) he hlt'))
  · rw [List.getElem?_eq_some_iff] at he
    obtain ⟨hj', he⟩ := he
    subst heq
    rw [← he]
    exact hfirst

namespace CaughtUp
variable {s : StreamState}

theorem init : CaughtUp operatorID {} where
  order := ⟨fun _ _ _ _ hi => (by cases hi), fun _ he => (by cases he)⟩
  mark h := by cases h
  opts _ _ _ _ h := by cases h
  opened _ h := by cases h
  bound _ h := by cases h
  past _ h := by cases h
  seen _ h := by cases h

variable {operatorID : String} (hc : s.CaughtUp operatorID)

include hc

theorem managed
    (hopts : ∀ hosts readyFuncs opts τ, pc = .watch hosts readyFuncs opts →
      opts.startAtOperationTime = some τ → InLog s.log τ)
    (hopened : ∀ cs, pc.opened = some cs → BeginsAt s.log cs) : CaughtUp operatorID { s with
    manager := pc, csManagerSeq := n, csTrackingHosts := hosts, subscribers := xs, watched := b
    csAnswerersWaitingForNextCS := ks, lastSeq := l, callExchangeSubs := callIDs } :=
  { hc with opts := hopts, opened := hopened }

theorem accept (hsub : s.accepted ⊆ js ++ pc.pending) :
    CaughtUp operatorID { s with dispatched := js, subscription := pc, csManagerSeq := n } := by
  refine ⟨hc.order, fun hz => ?_, hc.opts, hc.opened, hc.bound, fun cs hcs j e hs hp he hm => ?_,
    fun cs hcs j e hp he hm hseen => ?_⟩
  · obtain ⟨j, e, he, hτ, hj⟩ := hc.mark hz
    exact ⟨j, e, he, hτ, hsub hj⟩
  · exact hsub (hc.past cs hcs j e hs hp he hm)
  · exact hsub (hc.seen cs hcs j e hp he hm hseen)

theorem rest (hpc : s.subscription.pending = []) (pc : SubscriptionPc) (n : Nat) :
    CaughtUp operatorID { s with subscription := pc, csManagerSeq := n } := by
  refine hc.accept ?_
  rw [accepted, hpc, List.append_nil]
  exact List.subset_append_left _ _

theorem appended (hz : e.clusterTime.isZero = false)
    (he : ∀ e' ∈ s.log, e'.clusterTime.toNat < e.clusterTime.toNat) :
    CaughtUp operatorID { s with log := s.log ++ [e] } := by
  have hold : ∀ {j : Nat} {e'}, s.log[j]? = some e' → (s.log ++ [e])[j]? = some e' := by
    intro j e' hj
    rw [List.getElem?_append_left (List.getElem?_eq_some_iff.1 hj).1]
    exact hj
  have hin : ∀ {τ}, InLog s.log τ → InLog (s.log ++ [e]) τ := by
    rintro τ ⟨j, e', hj, hτ⟩
    exact ⟨j, e', hold hj, hτ⟩
  refine ⟨⟨fun i j e₁ e₂ h₁ h₂ hij => ?_, fun e' he' => ?_⟩, fun hw => ?_,
    fun hosts fs o τ hm hτ => hin (hc.opts hosts fs o τ hm hτ), fun cs hcs => ?_,
    fun cs hcs => ?_, fun cs hcs j e' hs hp hj hm => ?_, fun cs hcs j e' hp hj hm hseen => ?_⟩
  · rcases getElem?_concat_cases h₁ with h₁' | ⟨rfl, rfl⟩ <;>
      rcases getElem?_concat_cases h₂ with h₂' | ⟨rfl, rfl⟩
    · exact hc.order.sorted i j e₁ e₂ h₁' h₂' hij
    · exact he e₁ (List.mem_of_getElem? h₁')
    · have := (List.getElem?_eq_some_iff.1 h₂').1
      omega
    · omega
  · rcases List.mem_append.1 he' with he' | he'
    · exact hc.order.nonzero e' he'
    · rw [List.mem_singleton.1 he']
      exact hz
  · obtain ⟨j, e', hj, hτ, hd⟩ := hc.mark hw
    exact ⟨j, e', hold hj, hτ, hd⟩
  · obtain ⟨hpos, hat⟩ := hc.opened cs hcs
    refine ⟨hpos, fun τ hτ => ⟨hin (hat τ hτ).1, fun j e' hs hj => ?_⟩⟩
    rcases getElem?_concat_cases hj with hj | ⟨-, rfl⟩
    · exact (hat τ hτ).2 j e' hs hj
    · obtain ⟨k, e₀, hk, rfl⟩ := (hat τ hτ).1
      exact Nat.le_of_lt (he e₀ (List.mem_of_getElem? hk))
  · refine (hc.bound cs hcs).imp_right fun hle => ?_
    rw [List.length_append]
    omega
  · rcases getElem?_concat_cases hj with hj | ⟨rfl, rfl⟩
    · exact hc.past cs hcs j e' hs hp hj hm
    · rcases hc.bound cs hcs with hb | hb <;> omega
  · rcases getElem?_concat_cases hj with hj | ⟨rfl, rfl⟩
    · exact hc.seen cs hcs j e' hp hj hm hseen
    · -- A new event is later than the last one that was seen.
      cases hw : s.csLastEventClusterTime.isZero with
      | true =>
        rw [not_seen_of_zero hw hz] at hseen
        cases hseen
      | false =>
        obtain ⟨k, e₀, hk, hτ, -⟩ := hc.mark hw
        have hlt := he e₀ (List.mem_of_getElem? hk)
        rw [hτ] at hlt
        have hle := (Timestamp.seen_iff ..).1 hseen
        replace hle : e'.clusterTime.toNat ≤ s.csLastEventClusterTime.toNat := hle
        omega

theorem reset : CaughtUp operatorID { s with
    csLastEventClusterTime := {}, csLastResumeToken := m } := by
  refine { hc with mark := nofun, seen := fun cs _ j e _ he _ hseen => ?_ }
  rw [not_seen_of_zero rfl (hc.order.nonzero e (List.mem_of_getElem? he))] at hseen
  cases hseen

theorem begin (hpos : cs.pos = cs.start)
    (hseen : ∀ (j : Nat) e, cs.start ≤ j → s.log[j]? = some e →
      isMatch operatorID cs.hosts e = true →
      s.csLastEventClusterTime.seen e.clusterTime = true → j ∈ s.accepted) :
    CaughtUp operatorID { s with manager := .idle, watched := b, currentCS := some cs } := by
  refine ⟨hc.order, hc.mark, fun _ _ _ _ => nofun, fun _ => nofun, fun cs' hcs' => ?_,
    fun cs' hcs' j e hs hp => ?_,
    fun cs' hcs' j e hp => ?_⟩
  · cases hcs'
    exact .inl hpos
  · cases hcs'
    omega
  · cases hcs'
    rw [hpos] at hp
    exact hseen j e hp

theorem swap (hm : s.manager.opened = some cs)
    (hok : s.csLastEventClusterTime.isZero = true ∨
      cs.opts.startAtOperationTime = some s.csLastEventClusterTime ∨
      ∃ old ∈ s.currentCS, (∀ h ∈ cs.hosts, h ∈ old.hosts) ∧ old.start ≤ cs.start) {j : Nat}
    (hj : cs.start ≤ j) (he : s.log[j]? = some e) (hmatch : isMatch operatorID cs.hosts e = true)
    (hseen : s.csLastEventClusterTime.seen e.clusterTime = true) : j ∈ s.accepted := by
  have hz := hc.order.nonzero e (List.mem_of_getElem? he)
  rcases hok with hzero | hat | ⟨old, hold, hsub, hstart⟩
  · rw [not_seen_of_zero hzero hz] at hseen
    cases hseen
  · -- Only the last event itself is not later than the time that the stream begins at.
    have hge := ((hc.opened cs hm).2 _ hat).2 j e hj he
    have hle := (Timestamp.seen_iff ..).1 hseen
    have heq : e.clusterTime = s.csLastEventClusterTime :=
      Timestamp.toNat_inj (Nat.le_antisymm hle hge)
    obtain ⟨k, e₀, hk, hτ, hd⟩ := hc.mark (heq ▸ hz)
    rw [index_inj hc.order he hk (heq.trans hτ.symm)]
    exact hd
  · have hmatch' := isMatch_mono hmatch hsub
    by_cases hp : j < old.pos
    · exact hc.past old hold j e (hstart.trans hj) hp he hmatch'
    · exact hc.seen old hold j e (Nat.le_of_not_lt hp) he hmatch' hseen

theorem next (hcs : s.currentCS = some cs) (hrun : s.subscription = .running)
    (hj : s.nextEvent operatorID cs = some j) (he : s.log[j]? = some e) :
    (s.processNext cs j e).CaughtUp operatorID := by
  obtain ⟨hpos, hlen, ⟨e', he', hm⟩, hquiet⟩ := nextEvent_some hj
  rw [he] at he'
  cases he'
  have hz := hc.order.nonzero e (List.mem_of_getElem? he)
  have hidle := accepted_running hrun
  -- Whatever the stream has passed by then was accepted, or is no event for it.
  have hpast : ∀ accepted : List Nat, s.accepted ⊆ accepted → j ∈ accepted →
      ∀ (k : Nat) e, cs.start ≤ k → k < j + 1 → s.log[k]? = some e →
        isMatch operatorID cs.hosts e = true → k ∈ accepted := by
    intro accepted hsub hjd k e hk hkj he hmk
    by_cases hkp : k < cs.pos
    · exact hsub (hc.past cs hcs k e hk hkp he hmk)
    · by_cases hkj' : k = j
      · rw [hkj']
        exact hjd
      · rw [hquiet k e (by omega) (by omega) he] at hmk
        cases hmk
  cases hseen : s.csLastEventClusterTime.seen e.clusterTime with
  | true =>
    have hd := hc.seen cs hcs j e hpos he hm hseen
    rw [processNext_seen hz hseen]
    refine ⟨hc.order, hc.mark, hc.opts, hc.opened, fun cs' hcs' => ?_, fun cs' hcs' => ?_,
      fun cs' hcs' k e hp => ?_⟩
    · cases hcs'
      exact .inr hlen
    · cases hcs'
      exact hpast s.accepted (List.Subset.refl _) hd
    · cases hcs'
      exact hc.seen cs hcs k e (by simp only at hp; omega)
  | false =>
    rw [processNext_new hz hseen]
    refine ⟨hc.order, fun _ => ⟨j, e, he, rfl, List.mem_append_right _ List.mem_cons_self⟩, hc.opts,
      hc.opened, fun cs' hcs' => ?_, fun cs' hcs' => ?_, fun cs' hcs' k e' hp hk hmk hs => ?_⟩
    · cases hcs'
      exact .inr hlen
    · cases hcs'
      exact hpast _ (hidle ▸ List.subset_append_left _ _)
        (List.mem_append_right _ List.mem_cons_self)
    · cases hcs'
      have hlt := hc.order.sorted j k e e' he hk (by simp only at hp; omega)
      have hle := (Timestamp.seen_iff ..).1 hs
      replace hle : e'.clusterTime.toNat ≤ e.clusterTime.toNat := hle
      omega

theorem step (hok : KeepsUp s a) (h : StreamStep operatorID s a s') : s'.CaughtUp operatorID := by
  cases h with
  | event hz he => exact hc.appended hz he
  | tickSame => exact hc
  | tick => exact hc.managed (fun _ _ _ _ => nofun) fun _ => nofun
  | snapshot hpc =>
    refine hc.managed (fun hosts fs opts τ heq hτ => ?_) fun _ => nofun
    cases heq
    simp only [csOpts] at hτ
    split at hτ
    · cases hτ
    · rename_i hz
      cases hτ
      obtain ⟨j, e, hj, he, -⟩ := hc.mark (Bool.not_eq_true _ ▸ hz)
      exact ⟨j, e, hj, he⟩
  | @watch hosts readyFuncs opts hpc =>
    refine hc.managed (fun _ _ _ _ => nofun) fun cs hcs => ?_
    cases hcs
    exact beginsAt_startOf hc.order hosts fun τ => hc.opts hosts readyFuncs opts τ hpc
  | watchFails => exact hc.managed (fun _ _ _ _ => nofun) fun _ => nofun
  | ready hpc | readied hpc | replace hpc | background hpc =>
    exact hc.managed (fun _ _ _ _ => nofun) fun cs hcs => hc.opened cs (by rw [hpc]; exact hcs)
  | @start cs resumeToken clusterTime s₁ hpc hsub hs₁ =>
    have hzero : clusterTime.isZero = true := by
      simpa only [KeepsUp, hpc, hsub, ↓reduceIte] using hok
    have hbegin := (hc.opened cs (by rw [hpc]; rfl)).1
    have hrest := hc.rest (by rw [hsub]; rfl) .running s.csManagerSeq
    subst hs₁
    simp only [processClusterEventState, hzero, Bool.true_eq_false, ↓reduceIte]
    refine (hrest.reset (m := some resumeToken)).begin hbegin fun j e _ he _ hseen => ?_
    rw [not_seen_of_zero rfl (hc.order.nonzero e (List.mem_of_getElem? he))] at hseen
    cases hseen
  | @swap cs resumeToken clusterTime hpc hsub =>
    have hne : s.subscription ≠ .starting := by
      rintro hstart
      rw [hstart] at hsub
      rcases hsub with hsub | hsub <;> cases hsub
    have hcond := hok
    simp only [KeepsUp, hpc, if_neg hne] at hcond
    have hm : s.manager.opened = some cs := by rw [hpc]; rfl
    have hrest := hc.rest (by rcases hsub with hsub | hsub <;> rw [hsub] <;> rfl) .running
      s.csManagerSeq
    exact hrest.begin (hc.opened cs hm).1 fun j e hj he hmatch hseen =>
      hrest.swap hm hcond hj he hmatch hseen
  | next hcs hrun hj he => exact hc.next hcs hrun hj he
  | @dispatch j e hsub =>
    have hoffers : s.offers e = true := by simpa only [KeepsUp, hsub] using hok
    refine hc.accept (n := s.csManagerSeq) ?_
    rw [accepted, hsub, if_pos hoffers, SubscriptionPc.pending, SubscriptionPc.pending,
      List.append_nil]
    exact List.Subset.refl _
  | fail hrun => exact hc.rest (by rw [hrun]; rfl) _ _
  | @invalidate s₁ resumeToken hrun hs₁ =>
    subst hs₁
    have hrest := hc.rest (by rw [hrun]; rfl) .waiting (s.csManagerSeq + 1)
    cases resumeToken with
    | none => exact hrest
    | some n => exact hrest.reset
  | subscribed | subscribe | bump | returns | unsubscribe | subscribeToCall | leaveCall =>
    exact hc.managed hc.opts hc.opened

end CaughtUp

end StreamState

/-- An event of the current stream is skipped only if it was dispatched before. -/
theorem skipped_dispatched {s : StreamState}
    (h : (streamMachine operatorID).ReachableWith KeepsUp s) (hrun : s.subscription = .running)
    {cs : Stream} {j : Nat} {e : CallEvent} (hcs : s.currentCS = some cs)
    (hj : s.nextEvent operatorID cs = some j)
    (he : s.log[j]? = some e)
    (hskip : (s.processClusterEventState (some (j + 1)) e.clusterTime).1 = false) :
    j ∈ s.dispatched := by
  have hc : s.CaughtUp operatorID := by
    refine h.invariant (fun s hs => ?_) fun s a s' hc hok hstep => ?_
    · subst hs
      exact .init
    · exact hc.step hok (streamStep_step hstep)
  obtain ⟨hpos, -, ⟨e', he', hm⟩, -⟩ := nextEvent_some hj
  rw [he] at he'
  cases he'
  refine StreamState.accepted_running hrun ▸ hc.seen cs hcs j e hpos he hm ?_
  simp only [StreamState.processClusterEventState,
    hc.order.nonzero e (List.mem_of_getElem? he), ↓reduceIte] at hskip
  split at hskip
  · assumption
  · cases hskip

instance (s : StreamState) (a : StreamAct) : Decidable (KeepsUp s a) := by
  unfold KeepsUp
  repeat' split
  all_goals infer_instance

def insertion (host : String) (i : UInt32) : CallEvent where
  clusterTime := { t := 1, i }
  fullDocument := some { id := "x", callerOperatorID := "c", host }

def reopenedRun : List StreamAct :=
  List.flatten [iteration 0 0, [.subscribe ["a"], .bump 0], iteration 1 0,
    [.event (insertion "a" 1), .next, .dispatch, .fail, .tick, .snapshot, .watch true, .ready,
      .replace, .background true 0, .update]]

theorem skipped_dispatched_one : ∃ (s : StreamState) (cs : Stream) (e : CallEvent),
    (streamMachine "o").ReachableWith KeepsUp s ∧ s.subscription = .running ∧
      s.currentCS = some cs ∧ s.nextEvent "o" cs = some 0 ∧ s.log[0]? = some e ∧
      (s.processClusterEventState (some 1) e.clusterTime).1 = false ∧ 0 ∈ s.dispatched := by
  let τ : Timestamp := { t := 1, i := 1 }
  let cs : Stream := ⟨["a"], { startAtOperationTime := some τ }, 0, 0⟩
  obtain ⟨s, hreach, hrun, hcs, hj, he, hskip⟩ : ∃ s : StreamState,
      (streamMachine "o").ReachableWith KeepsUp s ∧ s.subscription = .running ∧
      s.currentCS = some cs ∧ s.nextEvent "o" cs = some 0 ∧ s.log[0]? = some (insertion "a" 1) ∧
      (s.processClusterEventState (some 1) τ).1 = false :=
    (streamMachine "o").exists_reachableWith KeepsUp {} reopenedRun rfl (by decide +kernel)
  exact ⟨s, cs, _, hreach, hrun, hcs, hj, he, hskip,
    skipped_dispatched hreach hrun hcs hj he hskip⟩

def startRun : List StreamAct :=
  [.subscribe ["a"], .bump 0, .tick, .snapshot, .watch true, .event (insertion "a" 1), .ready,
    .ready, .replace, .background true 0, .update]

/-- While a stream for "a" and "b" is opened, the old one for "a" dispatches an event that is
later than one for "b". -/
def overtakenRun : List StreamAct :=
  List.flatten [iteration 0 0, [.subscribe ["a"], .bump 0], iteration 1 0,
    [.subscribe ["b"], .bump 1, .tick, .snapshot, .event (insertion "b" 1),
      .event (insertion "a" 2), .next, .dispatch, .watch true, .ready, .ready, .replace,
      .background true 0, .update]]

/-- The answerer leaves before the event for "a" is dispatched, and the stream is opened again. -/
def unheardRun : List StreamAct :=
  List.flatten [iteration 0 0, [.subscribe ["a"], .bump 0], iteration 1 0,
    [.event (insertion "a" 1), .next, .unsubscribe 0, .dispatch, .subscribe ["a"], .fail, .tick,
      .snapshot, .watch true, .ready, .replace, .background true 0, .update]]

def StreamState.LosesNext (operatorID : String) (s : StreamState) : Prop :=
  s.subscription = .running ∧ ∃ cs ∈ s.currentCS, ∃ j ∈ s.nextEvent operatorID cs,
    ∃ e ∈ s.log[j]?, (s.processClusterEventState (some (j + 1)) e.clusterTime).1 = false ∧
      j ∉ s.dispatched

instance (s : StreamState) : Decidable (s.LosesNext operatorID) :=
  inferInstanceAs (Decidable (s.subscription = .running ∧ ∃ cs ∈ s.currentCS,
    ∃ j ∈ s.nextEvent operatorID cs, ∃ e ∈ s.log[j]?,
      (s.processClusterEventState (some (j + 1)) e.clusterTime).1 = false ∧ j ∉ s.dispatched))

def LosesAfter (run : List StreamAct) : Prop :=
  ∃ s, (streamMachine "o").exec {} run = some s ∧ (streamMachine "o").Reachable s ∧
    s.LosesNext "o"

theorem losesAfter_of_exec {run : List StreamAct}
    (h : ((streamMachine "o").exec {} run).any (fun s => decide (s.LosesNext "o")) = true) :
    LosesAfter run := by
  obtain ⟨s, hs, hp⟩ := exists_of_any h
  exact ⟨s, hs, Machine.reachable_exec rfl hs, of_decide_eq_true hp⟩

theorem skipped_undispatched :
    LosesAfter startRun ∧ LosesAfter overtakenRun ∧ LosesAfter unheardRun :=
  ⟨losesAfter_of_exec (by decide +kernel), losesAfter_of_exec (by decide +kernel),
    losesAfter_of_exec (by decide +kernel)⟩

end Goutils.CallQueue
