import Goutils.Rpc.BaseChannel

namespace Goutils.Rpc
open Lib
set_option autoImplicit true

/-- Where a callback stands in `doPeerDone`; from `delete` on it is in `removePeer`. -/
inductive PeerDonePc where
  | once
  | mark
  | delete
  | notify
  | gracefulClose
  deriving DecidableEq

/-- Where `NewChannel` stands: `newBaseChannel` fires `connStateChanged` once. -/
inductive NewChannelPc where
  | install
  | fire
  | insert
  | announce
  | returned
  deriving DecidableEq

/-- A peer connection with its `NewChannel`, its channel and the `doPeerDone` calls. -/
structure Peer where
  ch : BaseChannel := {}
  dones : List (Option PeerDonePc) := []
  peerDoneOnce : Bool := false
  removed : Bool := false
  pc : NewChannelPc := .install

/-- The calls of the callbacks that the user has set. -/
inductive PeerEvent where
  | added (p : Nat)
  | removed (p : Nat)
  deriving DecidableEq

/-- The part of `webrtcServer` that keeps track of its peer connections. -/
structure PeerServer where
  onPeerAdded : Bool := true
  onPeerRemoved : Bool := true
  peerConns : List Nat := []
  events : List PeerEvent := []
  peers : List Peer := []

inductive PeerAct where
  | newChannel
  | call (p : Nat) (change : ICEChange)
  | channel (p : Nat) (a : BaseChannelAct)
  | peerDone (p i : Nat)

namespace Peer

/-- The ICE state is seen once installed, and a closing operation waits for `doPeerDone`. -/
def free (pr : Peer) : BaseChannelAct → Bool
  | .startClosing (.connStateChanged _) => pr.pc != .install
  | .closing i => pr.dones[i]? == some none
  | _ => true

def donesAfter (pr : Peer) : BaseChannelAct → List (Option PeerDonePc)
  | .startClosing _ => pr.dones ++ [none]
  | .closing i =>
    match pr.ch.closings[i]?.map Closing.pc with
    | some (.peerDone _) => pr.dones.set i (some .once)
    | _ => pr.dones
  | _ => pr.dones

def channelStep (pr : Peer) (a : BaseChannelAct) : Option Peer :=
  if pr.free a then (baseChannelStep pr.ch a).map fun ch => { pr with ch, dones := pr.donesAfter a }
  else none

def setDone (pr : Peer) (i : Nat) (d : Option PeerDonePc) : Peer :=
  { pr with dones := pr.dones.set i d }

end Peer

namespace PeerServer

def setPeer (s : PeerServer) (p : Nat) (pr : Peer) : PeerServer :=
  { s with peers := s.peers.set p pr }

/-- A step of `NewChannel`; `change` is the state that `connStateChanged` is fired with. -/
def callStep (s : PeerServer) (p : Nat) (pr : Peer) (change : ICEChange) : Option PeerServer :=
  match pr.pc with
  | .install => some (s.setPeer p { pr with pc := .fire })
  | .fire =>
    (pr.channelStep (.startClosing (.connStateChanged change))).map fun pr =>
      s.setPeer p { pr with pc := .insert }
  | .insert =>
    some ({ s with peerConns := s.peerConns.insert p }.setPeer p { pr with pc := .announce })
  | .announce =>
    some ({ s with
      events := s.events ++ if s.onPeerAdded then [PeerEvent.added p] else [] }.setPeer p
      { pr with pc := .returned })
  | .returned => none

def peerDoneStep (s : PeerServer) (p i : Nat) (pr : Peer) : PeerDonePc → PeerServer
  | .once => s.setPeer p (pr.setDone i (if pr.peerDoneOnce then none else some .mark))
  | .mark => s.setPeer p ({ pr with peerDoneOnce := true }.setDone i (some .delete))
  | .delete =>
    { s with peerConns := s.peerConns.filter (· ≠ p) }.setPeer p
      ({ pr with removed := true }.setDone i (some .notify))
  | .notify =>
    { s with events := s.events ++ if s.onPeerRemoved then [PeerEvent.removed p] else [] }.setPeer p
      (pr.setDone i (some .gracefulClose))
  | .gracefulClose =>
    s.setPeer p ({ pr with ch := { pr.ch with dataChannelOpen := false } }.setDone i none)

end PeerServer

def peerStep (s : PeerServer) : PeerAct → Option PeerServer
  | .newChannel => some { s with peers := s.peers ++ [{}] }
  | .call p change => s.peers[p]?.bind fun pr => s.callStep p pr change
  | .channel p a => s.peers[p]?.bind fun pr => (pr.channelStep a).map fun pr => s.setPeer p pr
  | .peerDone p i =>
    s.peers[p]?.bind fun pr => (pr.dones[i]?.join).map fun d => s.peerDoneStep p i pr d

def peerMachine : Machine PeerServer PeerAct where
  init s := s.peerConns = [] ∧ s.events = [] ∧ s.peers = []
  step := peerStep

/-- What a step can do to the peer connection with index `p`, to the map and to the calls of the
callbacks. -/
inductive PeerMove (s : PeerServer) (p : Nat) (pr : Peer) :
    PeerAct → List Nat → List PeerEvent → Peer → Prop where
  | install : pr.pc = .install →
      PeerMove s p pr (.call p change) s.peerConns s.events { pr with pc := .fire }
  | insert : pr.pc = .insert →
      PeerMove s p pr (.call p change) (s.peerConns.insert p) s.events { pr with pc := .announce }
  | announce : pr.pc = .announce →
      PeerMove s p pr (.call p change) s.peerConns
        (s.events ++ if s.onPeerAdded then [.added p] else []) { pr with pc := .returned }
  | channel : pr.free a = true → baseChannelStep pr.ch a = some ch →
      act = .channel p a ∧ pc = pr.pc ∨
        (∃ change, act = .call p change ∧ a = .startClosing (.connStateChanged change)) ∧
          pr.pc = .fire ∧ pc = .insert →
      PeerMove s p pr act s.peerConns s.events { pr with ch, dones := pr.donesAfter a, pc }
  | once : pr.dones[i]? = some (some .once) →
      PeerMove s p pr (.peerDone p i) s.peerConns s.events
        (pr.setDone i (if pr.peerDoneOnce then none else some .mark))
  | mark : pr.dones[i]? = some (some .mark) →
      PeerMove s p pr (.peerDone p i) s.peerConns s.events
        ({ pr with peerDoneOnce := true }.setDone i (some .delete))
  | delete : pr.dones[i]? = some (some .delete) →
      PeerMove s p pr (.peerDone p i) (s.peerConns.filter (· ≠ p)) s.events
        ({ pr with removed := true }.setDone i (some .notify))
  | notify : pr.dones[i]? = some (some .notify) →
      PeerMove s p pr (.peerDone p i) s.peerConns
        (s.events ++ if s.onPeerRemoved then [.removed p] else [])
        (pr.setDone i (some .gracefulClose))
  | gracefulClose : pr.dones[i]? = some (some .gracefulClose) →
      PeerMove s p pr (.peerDone p i) s.peerConns s.events
        ({ pr with ch := { pr.ch with dataChannelOpen := false } }.setDone i none)

variable {s s' : PeerServer}

theorem peerStep_move (h : peerStep s a = some s') :
    (a = .newChannel ∧ s' = { s with peers := s.peers ++ [{}] }) ∨
    ∃ p pr peerConns events pr', s.peers[p]? = some pr ∧
      PeerMove s p pr a peerConns events pr' ∧
      s' = { s with peerConns, events, peers := s.peers.set p pr' } := by
  cases a with
  | newChannel =>
    cases h
    exact .inl ⟨rfl, rfl⟩
  | call p change =>
    obtain ⟨pr, hp, h⟩ := Option.bind_eq_some_iff.1 h
    right
    simp only [PeerServer.callStep] at h
    split at h
    · cases h
      exact ⟨p, pr, _, _, _, hp, .install ‹_›, rfl⟩
    · rename_i hpc
      obtain ⟨pr₁, hch, rfl⟩ := Option.map_eq_some_iff.1 h
      simp only [Peer.channelStep] at hch
      split at hch
      · rename_i hfree
        obtain ⟨ch, hs, rfl⟩ := Option.map_eq_some_iff.1 hch
        exact ⟨p, pr, _, _, _, hp, .channel hfree hs (.inr ⟨⟨change, rfl, rfl⟩, hpc, rfl⟩), rfl⟩
      · cases hch
    · cases h
      exact ⟨p, pr, _, _, _, hp, .insert ‹_›, rfl⟩
    · cases h
      exact ⟨p, pr, _, _, _, hp, .announce ‹_›, rfl⟩
    · cases h
  | channel p a =>
    obtain ⟨pr, hp, h⟩ := Option.bind_eq_some_iff.1 h
    obtain ⟨pr₁, hch, rfl⟩ := Option.map_eq_some_iff.1 h
    right
    simp only [Peer.channelStep] at hch
    split at hch
    · rename_i hfree
      obtain ⟨ch, hs, rfl⟩ := Option.map_eq_some_iff.1 hch
      exact ⟨p, pr, _, _, _, hp, .channel hfree hs (.inl ⟨rfl, rfl⟩), rfl⟩
    · cases hch
  | peerDone p i =>
    obtain ⟨pr, hp, h⟩ := Option.bind_eq_some_iff.1 h
    obtain ⟨d, hd, rfl⟩ := Option.map_eq_some_iff.1 h
    have hd := Option.join_eq_some_iff.1 hd
    right
    cases d with
    | once => exact ⟨p, pr, _, _, _, hp, .once hd, rfl⟩
    | mark => exact ⟨p, pr, _, _, _, hp, .mark hd, rfl⟩
    | delete => exact ⟨p, pr, _, _, _, hp, .delete hd, rfl⟩
    | notify => exact ⟨p, pr, _, _, _, hp, .notify hd, rfl⟩
    | gracefulClose => exact ⟨p, pr, _, _, _, hp, .gracefulClose hd, rfl⟩

def Closing.held (cl : Closing) : Bool :=
  match cl.pc with
  | .lock | .done => false
  | _ => true

def BaseChannel.MuOwned (c : BaseChannel) : Prop := MutexOwned c.mu (testAt c.closings Closing.held)

theorem ClosingStep.mutex (h : ClosingStep c i op pc c' pc') :
    MutexStep i c.mu (Closing.held ⟨op, pc⟩) c'.mu (Closing.held ⟨op, pc'⟩) := by
  cases h with
  | lock hmu => exact .lock hmu
  | again _ hpc | lost _ _ hpc | peerDone hpc =>
    rcases hpc with rfl | rfl
    · exact .keep
    · exact .keep
  | unlock => exact .unlock
  | close | live | cancel | broadcast | gracefulClose => exact .keep

theorem ClosingStep.closings_eq (h : ClosingStep c i op pc c' pc') : c'.closings = c.closings := by
  cases h <;> rfl

theorem WriteStep.frame_mu (h : WriteStep c i size pc c' pc') :
    c'.closings = c.closings ∧ c'.mu = c.mu ∧ c'.closed = c.closed := by
  cases h <;> exact ⟨rfl, rfl, rfl⟩

theorem baseChannelStep_closings (h : baseChannelStep c a = some c')
    (hstart : ∀ op, a ≠ .startClosing op) (hclosing : ∀ i, a ≠ .closing i) :
    c'.closings = c.closings ∧ c'.mu = c.mu ∧ c'.closed = c.closed := by
  cases a with
  | startWrite size | dataChannelClose =>
    cases h
    exact ⟨rfl, rfl, rfl⟩
  | write i sent =>
    obtain ⟨w, hw, h⟩ := Option.bind_eq_some_iff.1 h
    obtain ⟨⟨c₁, pc⟩, hstep, rfl⟩ := Option.map_eq_some_iff.1 h
    exact (writeStep_step hstep).frame_mu
  | startClosing op => exact absurd rfl (hstart op)
  | closing i => exact absurd rfl (hclosing i)
  | drain n =>
    simp only [baseChannelStep] at h
    split at h <;> cases h
    exact ⟨rfl, rfl, rfl⟩
  | callback =>
    obtain ⟨⟨c₁, pc⟩, hstep, rfl⟩ := Option.map_eq_some_iff.1 h
    obtain ⟨mu, rfl | rfl⟩ := callbackStep_eq hstep
    · exact ⟨rfl, rfl, rfl⟩
    · exact ⟨rfl, rfl, rfl⟩

/-- `doPeerDone` runs under `ch.mu`, and `peerDoneOnce` is not set where it is about to be. -/
structure Peer.Locked (pr : Peer) : Prop where
  owned : pr.ch.MuOwned
  length : pr.dones.length = pr.ch.closings.length
  busy : ∀ (i : Nat) d, pr.dones[i]? = some (some d) → testAt pr.ch.closings Closing.held i = true
  mark : ∀ i : Nat, pr.dones[i]? = some (some .mark) → pr.peerDoneOnce = false

namespace Peer.Locked

theorem init : ({} : Peer).Locked where
  owned t := by constructor <;> intro h <;> cases h
  length := rfl
  busy i d h := by cases h
  mark i h := by cases h

theorem setDone {pr : Peer} (h : pr.Locked) (hi : pr.dones[i]? = some (some d₀))
    (hmark : d = some .mark → pr.peerDoneOnce = false) : (pr.setDone i d).Locked where
  owned := h.owned
  length := by
    rw [Peer.setDone, List.length_set]
    exact h.length
  busy j e hj := by
    rcases getElem?_set_cases hj with ⟨rfl, _⟩ | ⟨_, hj⟩
    · exact h.busy j d₀ hi
    · exact h.busy j e hj
  mark j hj := by
    rcases getElem?_set_cases hj with ⟨rfl, hd⟩ | ⟨_, hj⟩
    · exact hmark hd.symm
    · exact h.mark j hj

theorem unique {pr : Peer} {i j : Nat} (h : pr.Locked) (hi : pr.dones[i]? = some (some d))
    (hj : pr.dones[j]? = some (some e)) : i = j :=
  h.owned.unique (h.busy i d hi) (h.busy j e hj)

section
variable {pr : Peer} {c : BaseChannel} (h : pr.Locked) (pc : NewChannelPc)
include h

theorem other (hs : baseChannelStep pr.ch a = some c) (hstart : ∀ op, a ≠ .startClosing op)
    (hclosing : ∀ i, a ≠ .closing i) (hdones : pr.donesAfter a = pr.dones) :
    ({ pr with ch := c, dones := pr.donesAfter a, pc } : Peer).Locked := by
  obtain ⟨hcl, hmu, _⟩ := baseChannelStep_closings hs hstart hclosing
  rw [hdones]
  refine ⟨?_, ?_, ?_, h.mark⟩
  · show MutexOwned c.mu (testAt c.closings Closing.held)
    rw [hcl, hmu]
    exact h.owned
  · rw [hcl]
    exact h.length
  · rw [hcl]
    exact h.busy

theorem startClosing (op : ClosingOp)
    (hs : baseChannelStep pr.ch (.startClosing op) = some c) :
    ({ pr with ch := c, dones := pr.donesAfter (.startClosing op), pc } : Peer).Locked := by
  cases hs
  have htest : testAt (pr.ch.closings ++ [⟨op, .lock⟩]) Closing.held =
      testAt pr.ch.closings Closing.held := by
    apply testAt_append
    intro cl hcl
    rw [List.mem_singleton.1 hcl]
    rfl
  refine ⟨?_, ?_, ?_, ?_⟩
  · show MutexOwned pr.ch.mu (testAt (pr.ch.closings ++ [⟨op, .lock⟩]) Closing.held)
    rw [htest]
    exact h.owned
  · show (pr.dones ++ [none]).length = (pr.ch.closings ++ [Closing.mk op .lock]).length
    rw [List.length_append, List.length_append, h.length]
    rfl
  · intro i d hi
    rcases getElem?_concat_cases hi with hi | ⟨_, hd⟩
    · show testAt (pr.ch.closings ++ [⟨op, .lock⟩]) Closing.held i = true
      rw [htest]
      exact h.busy i d hi
    · cases hd
  · intro i hi
    rcases getElem?_concat_cases hi with hi | ⟨_, hd⟩
    · exact h.mark i hi
    · cases hd

theorem closing {i : Nat} (hfree : pr.free (.closing i) = true)
    (hs : baseChannelStep pr.ch (.closing i) = some c) :
    ({ pr with ch := c, dones := pr.donesAfter (.closing i), pc } : Peer).Locked := by
  obtain ⟨⟨op, cpc⟩, hcl, hs⟩ := Option.bind_eq_some_iff.1 hs
  obtain ⟨⟨c₁, cpc'⟩, hstep, rfl⟩ := Option.map_eq_some_iff.1 hs
  have hstep := closingStep_step hstep
  have hidle : pr.dones[i]? = some none := eq_of_beq hfree
  have htest : testAt ((c₁.setClosing i ⟨op, cpc'⟩).closings) Closing.held =
      Function.update (testAt pr.ch.closings Closing.held) i (Closing.held ⟨op, cpc'⟩) := by
    show testAt (c₁.closings.set i ⟨op, cpc'⟩) Closing.held = _
    rw [hstep.closings_eq, testAt_set hcl]
  have howned : (c₁.setClosing i ⟨op, cpc'⟩).MuOwned := by
    show MutexOwned c₁.mu _
    rw [htest]
    apply h.owned.step
    rw [testAt_eq hcl]
    exact hstep.mutex
  -- a goroutine that is in `doPeerDone` already is another one
  have hbusy (j : Nat) d (hj : pr.dones[j]? = some (some d)) :
      testAt (c₁.setClosing i ⟨op, cpc'⟩).closings Closing.held j = true := by
    have hne : j ≠ i := by
      rintro rfl
      rw [hidle] at hj
      cases hj
    rw [htest, Function.update_of_ne hne]
    exact h.busy j d hj
  have hlen : pr.dones.length = (c₁.setClosing i ⟨op, cpc'⟩).closings.length := by
    show _ = (c₁.closings.set i ⟨op, cpc'⟩).length
    rw [List.length_set, hstep.closings_eq, h.length]
  have hkeep (hdones : pr.donesAfter (.closing i) = pr.dones) :
      ({ pr with
        ch := c₁.setClosing i ⟨op, cpc'⟩, dones := pr.donesAfter (.closing i), pc } :
        Peer).Locked := by
    rw [hdones]
    exact ⟨howned, hlen, hbusy, h.mark⟩
  cases cpc with
  | peerDone close =>
    have hdones : pr.donesAfter (.closing i) = pr.dones.set i (some .once) := by
      rw [Peer.donesAfter, hcl]
      rfl
    rw [hdones]
    refine ⟨howned, ?_, ?_, ?_⟩
    · rw [List.length_set]
      exact hlen
    · intro j d hj
      rcases getElem?_set_cases hj with ⟨rfl, _⟩ | ⟨_, hj⟩
      · rw [htest, Function.update_self]
        cases hstep with
        | peerDone hpc => rcases hpc with rfl | rfl <;> rfl
      · exact hbusy j d hj
    · intro j hj
      rcases getElem?_set_cases hj with ⟨_, hd⟩ | ⟨_, hj⟩
      · cases hd
      · exact h.mark j hj
  | lock | check | cancel | broadcast | gracefulClose | unlock | done =>
    exact hkeep (by rw [Peer.donesAfter, hcl]; rfl)

theorem channel (hfree : pr.free a = true) (hs : baseChannelStep pr.ch a = some c) :
    ({ pr with ch := c, dones := pr.donesAfter a, pc } : Peer).Locked := by
  cases a with
  | startClosing op => exact h.startClosing pc op hs
  | closing i => exact h.closing pc hfree hs
  | startWrite size => exact h.other pc hs nofun nofun rfl
  | write i sent | drain n | callback | dataChannelClose => exact h.other pc hs nofun nofun rfl

end

theorem move {pr pr' : Peer} (h : pr.Locked) (hs : PeerMove s p pr a peerConns events pr') :
    pr'.Locked := by
  cases hs with
  | install _ | insert _ | announce _ => exact { h with }
  | channel hfree hs _ => exact h.channel _ hfree hs
  | once hi =>
    apply h.setDone hi
    intro hd
    split at hd
    · cases hd
    · exact Bool.eq_false_of_not_eq_true ‹_›
  | @mark i hi =>
    -- no other goroutine is in `doPeerDone`
    refine ⟨h.owned, ?_, ?_, ?_⟩
    · show (pr.dones.set i (some .delete)).length = _
      rw [List.length_set]
      exact h.length
    · intro j d hj
      rcases getElem?_set_cases hj with ⟨rfl, _⟩ | ⟨_, hj⟩
      · exact h.busy j .mark hi
      · exact h.busy j d hj
    · intro j hj
      rcases getElem?_set_cases hj with ⟨_, hd⟩ | ⟨hne, hj⟩
      · cases hd
      · exact absurd (h.unique hj hi) hne
  | delete hi =>
    have hL := h.setDone (d := some .notify) hi (fun hd => by cases hd)
    exact { hL with }
  | notify hi => exact h.setDone hi (fun hd => by cases hd)
  | gracefulClose hi =>
    have hL := h.setDone (d := none) hi (fun hd => by cases hd)
    exact { hL with }

end Peer.Locked

theorem PeerMove.events_eq {pr pr' : Peer} (h : PeerMove s p pr a peerConns events pr') :
    ∃ new, events = s.events ++ new ∧ ∀ e ∈ new, e = .added p ∨ e = .removed p := by
  cases h with
  | announce _ =>
    refine ⟨_, rfl, ?_⟩
    intro e he
    split at he
    · exact .inl (List.mem_singleton.1 he)
    · cases he
  | notify _ =>
    refine ⟨_, rfl, ?_⟩
    intro e he
    split at he
    · exact .inr (List.mem_singleton.1 he)
    · cases he
  | _ =>
    refine ⟨[], (List.append_nil _).symm, ?_⟩
    intro e he
    cases he

theorem PeerMove.removed_mem_iff {pr pr' : Peer} (h : PeerMove s p pr a peerConns events pr')
    (hq : q ≠ p) : PeerEvent.removed q ∈ events ↔ PeerEvent.removed q ∈ s.events := by
  obtain ⟨new, rfl, hnew⟩ := h.events_eq
  rw [List.mem_append, or_iff_left]
  intro hmem
  rcases hnew _ hmem with heq | heq
  · cases heq
  · cases heq
    exact hq rfl

theorem PeerMove.mem_peerConns_iff {pr pr' : Peer} (h : PeerMove s p pr a peerConns events pr')
    (hq : q ≠ p) : q ∈ peerConns ↔ q ∈ s.peerConns := by
  cases h with
  | insert _ =>
    rw [List.mem_insert_iff]
    exact or_iff_right hq
  | delete _ =>
    rw [List.mem_filter]
    exact and_iff_left (decide_eq_true hq)
  | _ => rfl

def Peer.removing (d : Option PeerDonePc) : Bool := d == some .delete || d == some .notify

/-- `onPeerRemoved` is called at most once, since `peerDoneOnce` is set before. -/
structure Peer.RemovedOnce (pr : Peer) (p : Nat) (events : List PeerEvent) : Prop where
  locked : pr.Locked
  count : events.count (.removed p) + pr.dones.countP Peer.removing ≤ pr.peerDoneOnce.toNat

theorem Peer.countP_donesAfter {pr : Peer} (hfree : pr.free a = true) :
    (pr.donesAfter a).countP Peer.removing = pr.dones.countP Peer.removing := by
  cases a with
  | startClosing op =>
    rw [Peer.donesAfter, List.countP_append]
    rfl
  | closing i =>
    rw [Peer.donesAfter]
    split
    · exact countP_move (eq_of_beq hfree) (some .once) Peer.removing
    · rfl
  | startWrite size | write i sent | drain n | callback | dataChannelClose => rfl

theorem Peer.RemovedOnce.move {pr pr' : Peer} (h : pr.RemovedOnce p s.events)
    (hs : PeerMove s p pr a peerConns events pr') : pr'.RemovedOnce p events := by
  refine ⟨h.locked.move hs, ?_⟩
  have hcount := h.count
  cases hs with
  | install _ | insert _ => exact hcount
  | announce _ =>
    have hnone : (if s.onPeerAdded then [PeerEvent.added p] else []).count (.removed p) = 0 := by
      split <;> rfl
    rw [List.count_append, hnone]
    exact hcount
  | channel hfree _ _ =>
    show _ + (pr.donesAfter _).countP Peer.removing ≤ _
    rw [Peer.countP_donesAfter hfree]
    exact hcount
  | @once i hi =>
    have hmove : (pr.dones.set i (if pr.peerDoneOnce then none else some .mark)).countP
        Peer.removing = pr.dones.countP Peer.removing := by
      cases pr.peerDoneOnce with
      | true => exact countP_move hi none Peer.removing
      | false => exact countP_move hi (some .mark) Peer.removing
    show _ + (pr.dones.set i _).countP Peer.removing ≤ pr.peerDoneOnce.toNat
    rw [hmove]
    exact hcount
  | @mark i hi =>
    have hmove : (pr.dones.set i (some .delete)).countP Peer.removing =
        pr.dones.countP Peer.removing + 1 := countP_move hi (some .delete) Peer.removing
    rw [h.locked.mark i hi] at hcount
    show _ + (pr.dones.set i (some .delete)).countP Peer.removing ≤ 1
    rw [hmove, ← Nat.add_assoc]
    exact Nat.succ_le_succ hcount
  | @delete i hi =>
    have hmove : (pr.dones.set i (some .notify)).countP Peer.removing + 1 =
        pr.dones.countP Peer.removing + 1 := countP_move hi (some .notify) Peer.removing
    show _ + (pr.dones.set i (some .notify)).countP Peer.removing ≤ _
    rw [Nat.succ.inj hmove]
    exact hcount
  | @notify i hi =>
    have hmove : (pr.dones.set i (some .gracefulClose)).countP Peer.removing + 1 =
        pr.dones.countP Peer.removing := countP_move hi (some .gracefulClose) Peer.removing
    have hone : (if s.onPeerRemoved then [PeerEvent.removed p] else []).count (.removed p) ≤ 1 := by
      split
      · rw [List.count_singleton_self]
      · exact Nat.zero_le _
    show _ + (pr.dones.set i (some .gracefulClose)).countP Peer.removing ≤ _
    rw [List.count_append]
    show _ ≤ pr.peerDoneOnce.toNat
    omega
  | @gracefulClose i hi =>
    have hmove : (pr.dones.set i none).countP Peer.removing = pr.dones.countP Peer.removing :=
      countP_move hi none Peer.removing
    show _ + (pr.dones.set i none).countP Peer.removing ≤ _
    rw [hmove]
    exact hcount

/-- Each peer connection has been removed at most once, and none that is still to come. -/
structure PeerServer.RemovedOnce (s : PeerServer) : Prop where
  peer : ∀ (p : Nat) pr, s.peers[p]? = some pr → pr.RemovedOnce p s.events
  fresh : ∀ p, s.peers.length ≤ p → PeerEvent.removed p ∉ s.events

theorem PeerServer.RemovedOnce.step (h : s.RemovedOnce) (hs : peerStep s a = some s') :
    s'.RemovedOnce := by
  rcases peerStep_move hs with ⟨_, rfl⟩ | ⟨p, pr, peerConns, events, pr', hp, hmove, rfl⟩
  · constructor
    · intro p pr hp
      rcases getElem?_concat_cases hp with hp | ⟨rfl, rfl⟩
      · exact h.peer p pr hp
      · refine ⟨.init, ?_⟩
        rw [List.count_eq_zero.2 (h.fresh _ (Nat.le_refl _))]
        exact Nat.le_refl 0
    · intro p hle
      rw [List.length_append] at hle
      exact h.fresh p (Nat.le_trans (Nat.le_add_right _ _) hle)
  · constructor
    · intro q pr₁ hq
      rcases getElem?_set_cases hq with ⟨rfl, rfl⟩ | ⟨hne, hq⟩
      · exact (h.peer q pr hp).move hmove
      · obtain ⟨hL, hcount⟩ := h.peer q pr₁ hq
        obtain ⟨new, rfl, hnew⟩ := hmove.events_eq
        refine ⟨hL, ?_⟩
        have hnone : new.count (.removed q) = 0 := by
          rw [List.count_eq_zero]
          intro hmem
          rcases hnew _ hmem with heq | heq
          · cases heq
          · cases heq
            exact hne rfl
        rw [List.count_append, hnone]
        exact hcount
    · intro q hle
      rw [List.length_set] at hle
      have hne : q ≠ p := by
        rintro rfl
        exact absurd (List.getElem?_eq_some_iff.1 hp).1 (Nat.not_lt.2 hle)
      rw [hmove.removed_mem_iff hne]
      exact h.fresh q hle

theorem PeerServer.removedOnce (h : peerMachine.Reachable s) : s.RemovedOnce := by
  apply h.invariant
  · rintro s ⟨_, hevents, hpeers⟩
    constructor
    · intro p pr hp
      rw [hpeers] at hp
      cases hp
    · intro p _
      rw [hevents]
      exact List.not_mem_nil
  · exact fun s a s' hI hs => hI.step hs

/-- The peer is lost, or its channel is closed, only after `NewChannel` has returned. -/
def LostAfterReturn (s : PeerServer) : PeerAct → Prop
  | .call _ change => change ≠ .lost
  | .channel _ (.startClosing (.connStateChanged (.live _))) => True
  | .channel p (.startClosing _) => ∀ pr ∈ s.peers[p]?, pr.pc = .returned
  | _ => True

def Closing.live (cl : Closing) : Bool :=
  match cl.op, cl.pc with
  | .connStateChanged (.live _), .peerDone _ => false
  | .connStateChanged (.live _), _ => true
  | _, _ => false

/-- Nobody has begun to close the channel. -/
structure Peer.Quiet (pr : Peer) : Prop where
  dones : ∀ d ∈ pr.dones, d = none
  closed : pr.ch.closed = false
  closings : ∀ cl ∈ pr.ch.closings, cl.live = true

namespace Peer.Quiet
variable {pr : Peer} {c : BaseChannel} (h : pr.Quiet) (pc : NewChannelPc)
include h

theorem closing {i : Nat} (hs : baseChannelStep pr.ch (.closing i) = some c) :
    ({ pr with ch := c, dones := pr.donesAfter (.closing i), pc } : Peer).Quiet := by
  obtain ⟨⟨op, cpc⟩, hcl, hs⟩ := Option.bind_eq_some_iff.1 hs
  obtain ⟨⟨c₁, cpc'⟩, hstep, rfl⟩ := Option.map_eq_some_iff.1 hs
  have hstep := closingStep_step hstep
  have hlive := h.closings _ (List.mem_of_getElem? hcl)
  have hdones : pr.donesAfter (.closing i) = pr.dones := by
    rw [Peer.donesAfter, hcl]
    cases cpc with
    | peerDone close => cases op with
      | closeWithReason err => cases hlive
      | connStateChanged change => cases change <;> cases hlive
    | _ => rfl
  have hnext : c₁.closed = false ∧ Closing.live ⟨op, cpc'⟩ = true := by
    cases op with
    | closeWithReason err => cases hlive
    | connStateChanged change =>
      cases change with
      | lost => cases hlive
      | live known =>
        cases hstep with
        | again hclosed =>
          rw [h.closed] at hclosed
          cases hclosed
        | close _ hop | lost _ hop => cases hop
        | peerDone => cases hlive
        | _ => exact ⟨h.closed, rfl⟩
  rw [hdones]
  refine ⟨h.dones, hnext.1, fun cl hmem => ?_⟩
  rcases List.mem_or_eq_of_mem_set hmem with hmem | rfl
  · rw [hstep.closings_eq] at hmem
    exact h.closings cl hmem
  · exact hnext.2

theorem channel (hop : ∀ op, a = .startClosing op → ∃ known, op = .connStateChanged (.live known))
    (hs : baseChannelStep pr.ch a = some c) :
    ({ pr with ch := c, dones := pr.donesAfter a, pc } : Peer).Quiet := by
  cases a with
  | startClosing op =>
    obtain ⟨known, rfl⟩ := hop op rfl
    cases hs
    exact ⟨List.forall_mem_append.2 ⟨h.dones, List.forall_mem_singleton.2 rfl⟩, h.closed,
      List.forall_mem_append.2 ⟨h.closings, List.forall_mem_singleton.2 rfl⟩⟩
  | closing i => exact h.closing pc hs
  | startWrite | write | drain | callback | dataChannelClose =>
    obtain ⟨hcl, _, hclosed⟩ := baseChannelStep_closings hs nofun nofun
    exact ⟨h.dones, hclosed.trans h.closed, hcl ▸ h.closings⟩

end Peer.Quiet

/-- What is known of a peer connection that is lost only after `NewChannel` has returned. -/
structure Peer.InOrder (pr : Peer) (p : Nat) (s : PeerServer) : Prop where
  quiet : pr.pc ≠ .returned → pr.Quiet
  announced : pr.pc = .returned → s.onPeerAdded = true → .added p ∈ s.events
  gone : pr.removed = true → pr.pc = .returned ∧ p ∉ s.peerConns
  order : s.onPeerAdded = true → Precedes (.added p) (.removed p) s.events

namespace Peer.InOrder

theorem returned {pr : Peer} {i : Nat} (h : pr.InOrder p s)
    (hi : pr.dones[i]? = some (some d)) : pr.pc = .returned := by
  by_contra hpc
  cases (h.quiet hpc).dones _ (List.mem_of_getElem? hi)

theorem move {pr pr' : Peer} (h : pr.InOrder p s) (hp : s.peers[p]? = some pr)
    (hok : LostAfterReturn s a) (hs : PeerMove s p pr a peerConns events pr')
    (peers : List Peer) : pr'.InOrder p { s with peerConns, events, peers } := by
  have hearly (hpc : pr.pc ≠ .returned) (hr : pr.removed = true) : False := hpc (h.gone hr).1
  -- a goroutine in `doPeerDone` means that `NewChannel` has returned
  have hdone {pr₁ : Peer} {i : Nat} {d} (hi : pr.dones[i]? = some (some d))
      (hpc : pr₁.pc = pr.pc) (hne : pr₁.pc ≠ .returned) : pr₁.Quiet :=
    absurd (hpc.trans (h.returned hi)) hne
  cases hs with
  | install hpc | insert hpc =>
    have hne : pr.pc ≠ .returned := by rw [hpc]; nofun
    refine ⟨fun _ => ?_, fun hpc' => (by cases hpc'), fun hr => (hearly hne hr).elim, h.order⟩
    exact ⟨(h.quiet hne).dones, (h.quiet hne).closed, (h.quiet hne).closings⟩
  | announce hpc =>
    refine ⟨fun hne => absurd rfl hne, fun _ hadd => ?_, fun hr => ⟨rfl, (h.gone hr).2⟩,
      fun hadd => ?_⟩
    · apply List.mem_append_right
      rw [if_pos hadd]
      exact List.mem_cons_self
    · apply (h.order hadd).append
      intro hmem
      rw [if_pos hadd] at hmem
      cases List.mem_singleton.1 hmem
  | @channel a ch act pc hfree hch hpc =>
    have hop (hne : pr.pc ≠ .returned) (op : ClosingOp) (ha : a = .startClosing op) :
        ∃ known, op = .connStateChanged (.live known) := by
      rcases hpc with ⟨rfl, _⟩ | ⟨⟨change, rfl, rfl⟩, _⟩
      · cases op with
        | closeWithReason err => exact absurd ((ha ▸ hok) pr hp) hne
        | connStateChanged change => cases change with
          | lost => exact absurd ((ha ▸ hok) pr hp) hne
          | live known => exact ⟨known, rfl⟩
      · cases ha
        cases change with
        | lost => exact absurd rfl hok
        | live known => exact ⟨known, rfl⟩
    rcases hpc with ⟨_, rfl⟩ | ⟨_, hfire, rfl⟩
    · exact { h with quiet := fun hne => (h.quiet hne).channel _ (hop hne) hch }
    · have hne : pr.pc ≠ .returned := by rw [hfire]; nofun
      exact ⟨fun _ => (h.quiet hne).channel _ (hop hne) hch, fun hpc' => (by cases hpc'),
        fun hr => (hearly hne hr).elim, h.order⟩
  | once hi | mark hi | gracefulClose hi => exact { h with quiet := hdone hi rfl }
  | delete hi =>
    refine ⟨hdone hi rfl, h.announced, fun _ => ⟨h.returned hi, ?_⟩, h.order⟩
    show p ∉ s.peerConns.filter (· ≠ p)
    simp
  | notify hi =>
    refine ⟨hdone hi rfl, fun hpc hadd => List.mem_append_left _ (h.announced hpc hadd), h.gone,
      fun hadd => ?_⟩
    apply (h.order hadd).append
    intro _
    exact h.announced (h.returned hi) hadd

theorem other {pr : Peer} (h : pr.InOrder q s) (hne : q ≠ p)
    (hs : PeerMove s p pr₀ a peerConns events pr') (peers : List Peer) :
    pr.InOrder q { s with peerConns, events, peers } := by
  have hconns : q ∈ peerConns ↔ q ∈ s.peerConns := hs.mem_peerConns_iff hne
  obtain ⟨new, rfl, hnew⟩ := hs.events_eq
  refine ⟨h.quiet, fun hpc hadd => List.mem_append_left _ (h.announced hpc hadd), ?_,
    fun hadd => ?_⟩
  · intro hr
    exact ⟨(h.gone hr).1, fun hmem => (h.gone hr).2 (hconns.1 hmem)⟩
  · apply (h.order hadd).append
    intro hmem
    rcases hnew _ hmem with heq | heq
    · cases heq
    · cases heq
      exact absurd rfl hne

end Peer.InOrder

theorem PeerServer.inOrder (h : peerMachine.ReachableWith LostAfterReturn s) :
    s.RemovedOnce ∧ ∀ (p : Nat) pr, s.peers[p]? = some pr → pr.InOrder p s := by
  apply h.invariant
  · intro s hinit
    refine ⟨PeerServer.removedOnce (.init hinit), ?_⟩
    intro p pr hp
    rw [hinit.2.2] at hp
    cases hp
  · rintro s a s' ⟨hO, hI⟩ hok hs
    refine ⟨hO.step hs, ?_⟩
    rcases peerStep_move hs with ⟨_, rfl⟩ | ⟨p, pr, peerConns, events, pr', hp, hmove, rfl⟩
    · intro p pr hp
      rcases getElem?_concat_cases hp with hp | ⟨rfl, rfl⟩
      · obtain ⟨hquiet, hannounced, hgone, horder⟩ := hI p pr hp
        exact ⟨hquiet, hannounced, hgone, horder⟩
      · refine ⟨fun _ => ⟨nofun, rfl, nofun⟩, fun hpc => (by cases hpc), fun hr => (by cases hr),
          fun _ => ?_⟩
        exact .of_not_mem (hO.fresh _ (Nat.le_refl _))
    · intro q pr₁ hq
      rcases getElem?_set_cases hq with ⟨rfl, rfl⟩ | ⟨hne, hq⟩
      · exact (hI q pr hp).move hp hok hmove _
      · exact (hI q pr₁ hq).other hne hmove _

/-- `onPeerRemoved` is called at most once for each peer connection, and after `onPeerAdded` if the
peer is lost only after `NewChannel` has returned. -/
theorem peer_bookkeeping {s : PeerServer} (h : peerMachine.Reachable s)
    (hp : s.peers[p]? = some pr) :
    s.events.count (.removed p) ≤ 1 ∧
    (peerMachine.ReachableWith LostAfterReturn s →
      (s.onPeerAdded = true → Precedes (.added p) (.removed p) s.events) ∧
      (pr.removed = true → pr.pc = .returned → p ∉ s.peerConns)) := by
  constructor
  · have hcount := ((PeerServer.removedOnce h).peer p pr hp).count
    have hle : pr.peerDoneOnce.toNat ≤ 1 := Bool.toNat_le _
    omega
  · intro h
    have hI := (PeerServer.inOrder h).2 p pr hp
    exact ⟨hI.order, fun hr _ => (hI.gone hr).2⟩

instance (s : PeerServer) (a : PeerAct) : Decidable (LostAfterReturn s a) := by
  unfold LostAfterReturn
  split <;> infer_instance

/-- `NewChannel` returns; its callback learns of a connection, and another one that the connection
is lost. -/
def peerLeaves : List PeerAct :=
  [[.newChannel, .call 0 (.live true), .call 0 (.live true)],
    List.replicate 3 (.channel 0 (.closing 0)),
    [.call 0 (.live true), .call 0 (.live true),
      .channel 0 (.startClosing (.connStateChanged .lost))],
    List.replicate 3 (.channel 0 (.closing 1)), List.replicate 5 (.peerDone 0 1)].flatten

theorem peer_bookkeeping_leaves :
    ∃ s : PeerServer, ∃ pr, s.peers[0]? = some pr ∧ s.events = [.added 0, .removed 0] ∧
      s.events.count (.removed 0) ≤ 1 ∧ Precedes (.added 0) (.removed 0) s.events ∧
      0 ∉ s.peerConns := by
  obtain ⟨s, hreach, hevents, hadd, pr, hpr, hr, hpc⟩ : ∃ s,
      peerMachine.ReachableWith LostAfterReturn s ∧ s.events = [.added 0, .removed 0] ∧
      s.onPeerAdded = true ∧ ∃ pr ∈ s.peers[0]?, pr.removed = true ∧ pr.pc = .returned :=
    peerMachine.exists_reachableWith LostAfterReturn {} peerLeaves ⟨rfl, rfl, rfl⟩
      (by decide +kernel)
  obtain ⟨hcount, horder⟩ := peer_bookkeeping hreach.reachable hpr
  exact ⟨s, pr, hpr, hevents, hcount, (horder hreach).1 hadd, (horder hreach).2 hr hpc⟩

/-- The connection is lost before `NewChannel` inserts it: the calls of the callbacks come in the
wrong order, and the peer connection stays in the map. -/
theorem peer_removed_before_added :
    ∃ s : PeerServer, ∃ pr, peerMachine.Reachable s ∧ s.peers[0]? = some pr ∧
      pr.removed = true ∧ pr.pc = .returned ∧ s.events = [.removed 0, .added 0] ∧
      s.peerConns = [0] := by
  obtain ⟨s, hreach, ⟨pr, hpr, hr, hpc⟩, hevents, hconns⟩ : ∃ s, peerMachine.Reachable s ∧
      (∃ pr ∈ s.peers[0]?, pr.removed = true ∧ pr.pc = .returned) ∧
      s.events = [.removed 0, .added 0] ∧ s.peerConns = [0] :=
    peerMachine.exists_reachable {} [[.newChannel, .call 0 (.live true), .call 0 (.live true)],
      List.replicate 3 (.channel 0 (.closing 0)),
      [.channel 0 (.startClosing (.connStateChanged .lost))],
      List.replicate 3 (.channel 0 (.closing 1)), List.replicate 5 (.peerDone 0 1),
      [.call 0 (.live true), .call 0 (.live true)]].flatten ⟨rfl, rfl, rfl⟩ (by decide +kernel)
  exact ⟨s, pr, hreach, hpr, hr, hpc, hevents, hconns⟩

end Goutils.Rpc
