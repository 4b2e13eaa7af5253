import Goutils.CallQueue.Document
import Goutils.Lib.Machine

namespace Goutils.CallQueue
open Lib
set_option autoImplicit true

/-- `memoryWebRTCCallOfferExchange`, with its host and what its answerer has got. -/
structure MemoryExchange where
  uuid : String
  host : String
  sdp : String := ""
  disableTrickle : Bool := false
  callerCandidates : List ICECandidateInit := []
  callerDone : Bool := false
  callerErr : Option String := none
  deriving DecidableEq

/-- `memoryWebRTCCallQueue`. Queues and exchanges are named by their place; senders and receivers
wait at `exchangeCh`. -/
structure MemoryQueue where
  hostQueues : String → Option Nat := fun _ => none
  queues : Nat := 0
  exchanges : List MemoryExchange := []
  activeOffers : List (Nat × Nat) := []
  senders : List (Nat × Nat) := []
  receivers : List (Nat × List String) := []
  returned : List (List String × Nat) := []

namespace MemoryQueue

variable (s : MemoryQueue)

/-- The queue of the last host in the list that has one. -/
def sharedHostQueue (hosts : List String) : Option Nat :=
  hosts.foldl (fun shared host => (s.hostQueues host).or shared) none

/-- `getOrMakeHostsQueue`: only the hosts without a queue are registered. -/
def getOrMakeHostsQueue (hosts : List String) : Nat × MemoryQueue :=
  let q := (s.sharedHostQueue hosts).getD s.queues
  (q, { s with
    hostQueues := fun host =>
      if host ∈ hosts then (s.hostQueues host).or (some q) else s.hostQueues host
    queues := if (s.sharedHostQueue hosts).isSome then s.queues else s.queues + 1 })

def lookup (q : Nat) (uuid : String) : Option Nat :=
  (s.activeOffers.find? fun e =>
    e.1 = q ∧ (s.exchanges[e.2]?.any fun x => x.uuid = uuid)).map Prod.snd

def modify (x : Nat) (f : MemoryExchange → MemoryExchange) : MemoryQueue :=
  { s with exchanges := s.exchanges.modify x f }

def sendOfferInit (host sdp : String) (disableTrickle : Bool) (uuid : String) : MemoryQueue :=
  let (q, s) := s.getOrMakeHostsQueue [host]
  let x := s.exchanges.length
  { s with
    exchanges := s.exchanges ++ [{ uuid, host, sdp, disableTrickle }]
    activeOffers := (q, x) :: s.activeOffers
    senders := s.senders ++ [(q, x)] }

/-- `SendOfferUpdate` while the answerer receives. -/
def sendOfferUpdate (host uuid : String) (candidate : ICECandidateInit) :
    MemoryQueue × Option InactiveOfferError :=
  let (q, s) := s.getOrMakeHostsQueue [host]
  match s.lookup q uuid with
  | none => (s, some ⟨uuid⟩)
  | some x =>
    (s.modify x fun e => { e with callerCandidates := e.callerCandidates ++ [candidate] }, none)

def sendOfferDone (host uuid : String) : MemoryQueue × Option InactiveOfferError :=
  let (q, s) := s.getOrMakeHostsQueue [host]
  match s.lookup q uuid with
  | none => (s, some ⟨uuid⟩)
  | some x => (s.modify x fun e => { e with callerDone := true }, none)

/-- `SendOfferError` also takes the offer off the map, unless the caller was done before. -/
def sendOfferError (host uuid err : String) : MemoryQueue × Option InactiveOfferError :=
  let (q, s) := s.getOrMakeHostsQueue [host]
  match s.lookup q uuid with
  | none => (s, some ⟨uuid⟩)
  | some x =>
    if s.exchanges[x]?.any (·.callerDone) then (s, none)
    else
      let s := s.modify x fun e => { e with callerErr := some err, callerDone := true }
      ({ s with activeOffers := s.activeOffers.erase (q, x) }, none)

def recvOffer (hosts : List String) : MemoryQueue :=
  let (q, s) := s.getOrMakeHostsQueue hosts
  { s with receivers := s.receivers ++ [(q, hosts)] }

end MemoryQueue

inductive MemoryAct where
  | sendOfferInit (host sdp : String) (disableTrickle : Bool) (uuid : String)
  | sendOfferUpdate (host uuid : String) (candidate : ICECandidateInit)
  | sendOfferDone (host uuid : String)
  | sendOfferError (host uuid err : String)
  | recvOffer (hosts : List String)
  | exchange (i j : Nat)
  | senderDone (i : Nat)
  | receiverDone (j : Nat)
  | expire (k : Nat)

/-- One call or one step of a waiting goroutine: `i` and `j` meet at their queue's channel. -/
def memoryStep (s : MemoryQueue) : MemoryAct → Option MemoryQueue
  | .sendOfferInit host sdp disableTrickle uuid =>
    if s.exchanges.any (fun e => e.uuid = uuid) then none
    else some (s.sendOfferInit host sdp disableTrickle uuid)
  | .sendOfferUpdate host uuid candidate => some (s.sendOfferUpdate host uuid candidate).1
  | .sendOfferDone host uuid => some (s.sendOfferDone host uuid).1
  | .sendOfferError host uuid err => some (s.sendOfferError host uuid err).1
  | .recvOffer hosts => some (s.recvOffer hosts)
  | .exchange i j =>
    match s.senders[i]?, s.receivers[j]? with
    | some (q, x), some (q', hosts) =>
      if q = q' then
        some { s with
          senders := s.senders.eraseIdx i
          receivers := s.receivers.eraseIdx j
          returned := s.returned ++ [(hosts, x)] }
      else none
    | _, _ => none
  | .senderDone i => some { s with senders := s.senders.eraseIdx i }
  | .receiverDone j => some { s with receivers := s.receivers.eraseIdx j }
  | .expire k => some { s with activeOffers := s.activeOffers.eraseIdx k }

def memoryMachine : Machine MemoryQueue MemoryAct where
  init s := s = {}
  step := memoryStep

variable {s : MemoryQueue}

namespace MemoryQueue

theorem sharedHostQueue_concat (s : MemoryQueue) (hosts : List String) (host : String) :
    s.sharedHostQueue (hosts ++ [host]) = (s.hostQueues host).or (s.sharedHostQueue hosts) := by
  simp only [sharedHostQueue, List.foldl_append, List.foldl_cons, List.foldl_nil]

theorem sharedHostQueue_mem {hosts : List String} (h : s.sharedHostQueue hosts = some q) :
    ∃ host ∈ hosts, s.hostQueues host = some q := by
  induction hosts using List.reverseRecOn with
  | nil => cases h
  | append_singleton hosts host ih =>
    rw [sharedHostQueue_concat] at h
    cases hq : s.hostQueues host with
    | none =>
      rw [hq, Option.none_or] at h
      obtain ⟨g, hg, hgq⟩ := ih h
      exact ⟨g, List.mem_append_left _ hg, hgq⟩
    | some q' =>
      rw [hq, Option.some_or] at h
      exact ⟨host, List.mem_append_right _ (List.mem_singleton_self host), hq.trans h⟩

theorem sharedHostQueue_none {hosts : List String} (h : s.sharedHostQueue hosts = none)
    (hmem : host ∈ hosts) : s.hostQueues host = none := by
  induction hosts using List.reverseRecOn with
  | nil => cases hmem
  | append_singleton hosts g ih =>
    rw [sharedHostQueue_concat, Option.or_eq_none_iff] at h
    rcases List.mem_append.1 hmem with hmem | hmem
    · exact ih h.2 hmem
    · rw [List.mem_singleton.1 hmem]
      exact h.1

def Agree (s : MemoryQueue) (hosts : List String) : Prop :=
  ∀ h ∈ hosts, ∀ g ∈ hosts, ∀ q q', s.hostQueues h = some q → s.hostQueues g = some q' → q = q'

theorem getOrMakeHostsQueue_hostQueues (h : host ∈ hosts) :
    (s.getOrMakeHostsQueue hosts).2.hostQueues host =
      (s.hostQueues host).or (some (s.getOrMakeHostsQueue hosts).1) :=
  if_pos h

theorem getOrMakeHostsQueue_keeps (h : s.hostQueues host = some q) (hosts : List String) :
    (s.getOrMakeHostsQueue hosts).2.hostQueues host = some q := by
  simp only [getOrMakeHostsQueue, h, Option.some_or, ite_self]

theorem getOrMakeHostsQueue_new (h : s.hostQueues host = none)
    (hq : (s.getOrMakeHostsQueue hosts).2.hostQueues host = some q) :
    host ∈ hosts ∧ q = (s.getOrMakeHostsQueue hosts).1 := by
  by_cases hmem : host ∈ hosts
  · rw [getOrMakeHostsQueue_hostQueues hmem, h, Option.none_or] at hq
    exact ⟨hmem, (Option.some.inj hq).symm⟩
  · simp only [getOrMakeHostsQueue, if_neg hmem, h] at hq
    cases hq

theorem getOrMakeHostsQueue_queue (s : MemoryQueue) (hosts : List String) :
    (∃ host ∈ hosts, s.hostQueues host = some (s.getOrMakeHostsQueue hosts).1) ∨
      (s.getOrMakeHostsQueue hosts).1 = s.queues ∧ (∀ host ∈ hosts, s.hostQueues host = none) ∧
        (s.getOrMakeHostsQueue hosts).2.queues = s.queues + 1 := by
  cases hshared : s.sharedHostQueue hosts with
  | none =>
    refine .inr ⟨?_, fun host hmem => sharedHostQueue_none hshared hmem, ?_⟩
    · simp only [getOrMakeHostsQueue, hshared, Option.getD_none]
    · simp only [getOrMakeHostsQueue, hshared, Option.isSome_none, Bool.false_eq_true, ↓reduceIte]
  | some q =>
    have hq : (s.getOrMakeHostsQueue hosts).1 = q := by
      simp only [getOrMakeHostsQueue, hshared, Option.getD_some]
    rw [hq]
    exact .inl (sharedHostQueue_mem hshared)

theorem getOrMakeHostsQueue_queues (s : MemoryQueue) (hosts : List String) :
    s.queues ≤ (s.getOrMakeHostsQueue hosts).2.queues := by
  simp only [getOrMakeHostsQueue]
  split
  · exact le_rfl
  · exact Nat.le_succ _

theorem getOrMakeHostsQueue_registers (s : MemoryQueue) (hosts : List String) :
    (∀ h ∈ hosts, (s.getOrMakeHostsQueue hosts).2.hostQueues h =
      some (s.getOrMakeHostsQueue hosts).1) ↔ s.Agree hosts := by
  constructor
  · intro hall h hh g hg q q' hq hq'
    have hQ := hall h hh
    have hQ' := hall g hg
    rw [getOrMakeHostsQueue_keeps hq] at hQ
    rw [getOrMakeHostsQueue_keeps hq'] at hQ'
    exact Option.some.inj (hQ.trans hQ'.symm)
  · intro hagree h hh
    rw [getOrMakeHostsQueue_hostQueues hh]
    cases hq : s.hostQueues h with
    | none => rfl
    | some q =>
      rw [Option.some_or]
      cases hshared : s.sharedHostQueue hosts with
      | none =>
        rw [sharedHostQueue_none hshared hh] at hq
        cases hq
      | some q' =>
        obtain ⟨g, hg, hgq⟩ := sharedHostQueue_mem hshared
        simp only [getOrMakeHostsQueue, hshared, Option.getD_some]
        exact congrArg some (hagree h hh g hg q q' hq hgq)

def Placed (s : MemoryQueue) (q x : Nat) : Prop :=
  ∃ e, s.exchanges[x]? = some e ∧ s.hostQueues e.host = some q

structure Inv (s : MemoryQueue) : Prop where
  known : ∀ h q, s.hostQueues h = some q → q < s.queues
  senders : ∀ p ∈ s.senders, s.Placed p.1 p.2
  active : ∀ p ∈ s.activeOffers, s.Placed p.1 p.2
  receivers : ∀ r ∈ s.receivers, r.1 < s.queues
  returned : ∀ r ∈ s.returned, ∃ q, s.Placed q r.2

/-- Nothing is registered and nothing added, and an exchange stays the offer that it is. -/
structure Touches (s s' : MemoryQueue) : Prop where
  hostQueues : s'.hostQueues = s.hostQueues
  queues : s'.queues = s.queues
  senders : s'.senders ⊆ s.senders
  active : s'.activeOffers ⊆ s.activeOffers
  receivers : s'.receivers ⊆ s.receivers
  returned : s'.returned = s.returned
  exchanges : ∀ (x : Nat) (e : MemoryExchange), s.exchanges[x]? = some e →
    ∃ e' : MemoryExchange, s'.exchanges[x]? = some e' ∧ e'.uuid = e.uuid ∧ e'.host = e.host

theorem Touches.refl (s : MemoryQueue) : Touches s s :=
  ⟨rfl, rfl, fun _ h => h, fun _ h => h, fun _ h => h, rfl, fun _ e h => ⟨e, h, rfl, rfl⟩⟩

theorem Touches.modify (s : MemoryQueue) (x : Nat) {f : MemoryExchange → MemoryExchange}
    (hf : ∀ e, (f e).uuid = e.uuid ∧ (f e).host = e.host) : Touches s (s.modify x f) := by
  refine ⟨rfl, rfl, fun _ h => h, fun _ h => h, fun _ h => h, rfl, fun y e he => ?_⟩
  refine ⟨if x = y then f e else e, ?_, ?_⟩
  · simp only [MemoryQueue.modify, List.getElem?_modify, he]
    split <;> rfl
  · split
    · exact hf e
    · exact ⟨rfl, rfl⟩

theorem Touches.placed {s' : MemoryQueue} (h : Touches s s') (hp : s.Placed q x) :
    s'.Placed q x := by
  obtain ⟨e, he, hq⟩ := hp
  obtain ⟨e', he', _, hhost⟩ := h.exchanges x e he
  exact ⟨e', he', by rw [h.hostQueues, hhost, hq]⟩

theorem Inv.touches {s' : MemoryQueue} (hI : s.Inv) (h : Touches s s') : s'.Inv := by
  refine ⟨?_, ?_, ?_, ?_, ?_⟩
  · rw [h.hostQueues, h.queues]
    exact hI.known
  · exact fun p hp => h.placed (hI.senders p (h.senders hp))
  · exact fun p hp => h.placed (hI.active p (h.active hp))
  · rw [h.queues]
    exact fun r hr => hI.receivers r (h.receivers hr)
  · rw [h.returned]
    exact fun r hr => (hI.returned r hr).imp fun _ => h.placed

theorem Inv.getOrMake (hI : s.Inv) (hosts : List String) :
    (s.getOrMakeHostsQueue hosts).2.Inv ∧
      (s.getOrMakeHostsQueue hosts).1 < (s.getOrMakeHostsQueue hosts).2.queues := by
  have hle := s.getOrMakeHostsQueue_queues hosts
  have hlt : (s.getOrMakeHostsQueue hosts).1 < (s.getOrMakeHostsQueue hosts).2.queues := by
    rcases s.getOrMakeHostsQueue_queue hosts with ⟨host, _, hq⟩ | ⟨hq, _, hqueues⟩
    · exact lt_of_lt_of_le (hI.known host _ hq) hle
    · omega
  have hplaced {q x} (hp : s.Placed q x) : (s.getOrMakeHostsQueue hosts).2.Placed q x := by
    obtain ⟨e, he, hq⟩ := hp
    exact ⟨e, he, getOrMakeHostsQueue_keeps hq hosts⟩
  refine ⟨⟨?_, ?_, ?_, ?_, ?_⟩, hlt⟩
  · intro h q hq
    cases hold : s.hostQueues h with
    | none =>
      rw [(getOrMakeHostsQueue_new hold hq).2]
      exact hlt
    | some q' =>
      rw [getOrMakeHostsQueue_keeps hold] at hq
      cases hq
      exact lt_of_lt_of_le (hI.known h q hold) hle
  · exact fun p hp => hplaced (hI.senders p hp)
  · exact fun p hp => hplaced (hI.active p hp)
  · exact fun r hr => lt_of_lt_of_le (hI.receivers r hr) hle
  · exact fun r hr => (hI.returned r hr).imp fun _ => hplaced

theorem sendOfferUpdate_touches (s : MemoryQueue) (host uuid : String) (c : ICECandidateInit) :
    Touches (s.getOrMakeHostsQueue [host]).2 (s.sendOfferUpdate host uuid c).1 := by
  simp only [sendOfferUpdate]
  split
  · exact .refl _
  · exact .modify _ _ fun _ => ⟨rfl, rfl⟩

theorem sendOfferDone_touches (s : MemoryQueue) (host uuid : String) :
    Touches (s.getOrMakeHostsQueue [host]).2 (s.sendOfferDone host uuid).1 := by
  simp only [sendOfferDone]
  split
  · exact .refl _
  · exact .modify _ _ fun _ => ⟨rfl, rfl⟩

theorem sendOfferError_touches (s : MemoryQueue) (host uuid err : String) :
    Touches (s.getOrMakeHostsQueue [host]).2 (s.sendOfferError host uuid err).1 := by
  simp only [sendOfferError]
  split
  · exact .refl _
  · rename_i x _
    split
    · exact .refl _
    · have h := Touches.modify (s.getOrMakeHostsQueue [host]).2 x
        (f := fun e => { e with callerErr := some err, callerDone := true }) fun _ => ⟨rfl, rfl⟩
      exact { h with active := fun _ hp => List.mem_of_mem_erase hp }

end MemoryQueue

inductive MemoryStep (s : MemoryQueue) : MemoryAct → MemoryQueue → Prop where
  | sendOfferInit : (∀ e ∈ s.exchanges, e.uuid ≠ uuid) →
      MemoryStep s (.sendOfferInit host sdp dt uuid) (s.sendOfferInit host sdp dt uuid)
  | caller : (∀ hosts, a ≠ .recvOffer hosts) →
      MemoryQueue.Touches (s.getOrMakeHostsQueue [host]).2 s' → MemoryStep s a s'
  | recvOffer : MemoryStep s (.recvOffer hosts) (s.recvOffer hosts)
  | exchange : (q, x) ∈ s.senders → (q, hosts) ∈ s.receivers →
      MemoryStep s (.exchange i j) { s with
        senders := s.senders.eraseIdx i
        receivers := s.receivers.eraseIdx j
        returned := s.returned ++ [(hosts, x)] }
  | leave : (∀ hosts, a ≠ .recvOffer hosts) → MemoryQueue.Touches s s' → MemoryStep s a s'

theorem memoryStep_step {s' : MemoryQueue} (h : memoryStep s a = some s') : MemoryStep s a s' := by
  cases a with
  | sendOfferInit host sdp dt uuid =>
    simp only [memoryStep] at h
    split at h
    · cases h
    · rename_i hfresh
      cases h
      exact .sendOfferInit (by simpa using hfresh)
  | sendOfferUpdate host uuid c =>
    cases h
    exact .caller nofun (s.sendOfferUpdate_touches host uuid c)
  | sendOfferDone host uuid =>
    cases h
    exact .caller nofun (s.sendOfferDone_touches host uuid)
  | sendOfferError host uuid err =>
    cases h
    exact .caller nofun (s.sendOfferError_touches host uuid err)
  | recvOffer hosts =>
    cases h
    exact .recvOffer
  | exchange i j =>
    simp only [memoryStep] at h
    split at h
    · rename_i q x q' hosts hi hj
      split at h
      · rename_i hq
        cases h
        subst hq
        exact .exchange (List.mem_of_getElem? hi) (List.mem_of_getElem? hj)
      · cases h
    · cases h
  | senderDone i =>
    cases h
    have ht := MemoryQueue.Touches.refl s
    exact .leave nofun ⟨rfl, rfl, fun _ hp => List.mem_of_mem_eraseIdx hp, ht.active, ht.receivers,
      rfl, ht.exchanges⟩
  | receiverDone j =>
    cases h
    have ht := MemoryQueue.Touches.refl s
    exact .leave nofun ⟨rfl, rfl, ht.senders, ht.active, fun _ hr => List.mem_of_mem_eraseIdx hr,
      rfl, ht.exchanges⟩
  | expire k =>
    cases h
    have ht := MemoryQueue.Touches.refl s
    exact .leave nofun ⟨rfl, rfl, ht.senders, fun _ hp => List.mem_of_mem_eraseIdx hp,
      ht.receivers, rfl, ht.exchanges⟩

namespace MemoryQueue

theorem getOrMakeHostsQueue_single (s : MemoryQueue) (host : String) :
    (s.getOrMakeHostsQueue [host]).2.hostQueues host = some (s.getOrMakeHostsQueue [host]).1 := by
  refine (s.getOrMakeHostsQueue_registers [host]).2 ?_ host (List.mem_singleton_self host)
  intro h hh g hg q q' hq hq'
  rw [List.mem_singleton.1 hh] at hq
  rw [List.mem_singleton.1 hg, hq] at hq'
  exact Option.some.inj hq'

def addOffer (s : MemoryQueue) (q : Nat) (e : MemoryExchange) : MemoryQueue :=
  { s with
    exchanges := s.exchanges ++ [e]
    activeOffers := (q, s.exchanges.length) :: s.activeOffers
    senders := s.senders ++ [(q, s.exchanges.length)] }

theorem sendOfferInit_eq (s : MemoryQueue) (host sdp : String) (dt : Bool) (uuid : String) :
    s.sendOfferInit host sdp dt uuid = (s.getOrMakeHostsQueue [host]).2.addOffer
      (s.getOrMakeHostsQueue [host]).1 { uuid, host, sdp, disableTrickle := dt } := rfl

theorem Placed.addOffer (h : s.Placed q x) (q' : Nat) (e : MemoryExchange) :
    (s.addOffer q' e).Placed q x := by
  obtain ⟨e', he, hq⟩ := h
  refine ⟨e', ?_, hq⟩
  rw [MemoryQueue.addOffer, List.getElem?_append_left (List.getElem?_eq_some_iff.1 he).1]
  exact he

theorem Inv.addOffer (hI : s.Inv) (e : MemoryExchange) (hq : s.hostQueues e.host = some q) :
    (s.addOffer q e).Inv := by
  have hnew : (s.addOffer q e).Placed q s.exchanges.length :=
    ⟨e, by simp [MemoryQueue.addOffer], hq⟩
  refine ⟨hI.known, ?_, ?_, hI.receivers, ?_⟩
  · intro p hp
    rcases List.mem_append.1 hp with hp | hp
    · exact (hI.senders p hp).addOffer q e
    · rw [List.mem_singleton.1 hp]
      exact hnew
  · intro p hp
    rcases List.mem_cons.1 hp with rfl | hp
    · exact hnew
    · exact (hI.active p hp).addOffer q e
  · exact fun r hr => (hI.returned r hr).imp fun _ h => h.addOffer q e

theorem Inv.step {s' : MemoryQueue} (hI : s.Inv) (h : MemoryStep s a s') : s'.Inv := by
  cases h with
  | @sendOfferInit uuid host sdp dt =>
    rw [sendOfferInit_eq]
    exact (hI.getOrMake [host]).1.addOffer _ (s.getOrMakeHostsQueue_single host)
  | @caller _ host _ _ ht => exact (hI.getOrMake [host]).1.touches ht
  | @recvOffer hosts =>
    obtain ⟨hJ, hlt⟩ := hI.getOrMake hosts
    refine { hJ with receivers := ?_ }
    intro r hr
    rcases List.mem_append.1 hr with hr | hr
    · exact hJ.receivers r hr
    · rw [List.mem_singleton.1 hr]
      exact hlt
  | exchange hi hj =>
    refine ⟨hI.known, fun p hp => hI.senders p (List.mem_of_mem_eraseIdx hp), hI.active,
      fun r hr => hI.receivers r (List.mem_of_mem_eraseIdx hr), ?_⟩
    intro r hr
    rcases List.mem_append.1 hr with hr | hr
    · exact hI.returned r hr
    · rw [List.mem_singleton.1 hr]
      exact ⟨_, hI.senders _ hi⟩
  | leave _ ht => exact hI.touches ht

theorem inv (h : memoryMachine.ReachableWith ok s) : s.Inv := by
  refine h.invariant ?_ fun _ _ _ hI _ hs => hI.step (memoryStep_step hs)
  rintro s rfl
  exact ⟨nofun, nofun, nofun, nofun, nofun⟩

/-- No two hosts have the same queue, and whoever receives from a queue asked for its host. -/
structure Separate (s : MemoryQueue) : Prop where
  apart : ∀ h g q, s.hostQueues h = some q → s.hostQueues g = some q → h = g
  receivers : ∀ r ∈ s.receivers, ∀ g, s.hostQueues g = some r.1 → g ∈ r.2
  returned : ∀ r ∈ s.returned, ∃ e, s.exchanges[r.2]? = some e ∧ e.host ∈ r.1

def RegistersAlone (s : MemoryQueue) : MemoryAct → Prop
  | .recvOffer hosts => ∀ h ∈ hosts, s.hostQueues h = none → ∀ g ∈ hosts, g = h
  | _ => True

theorem Separate.getOrMake (h : s.Separate) (hI : s.Inv)
    (halone : ∀ h ∈ hosts, s.hostQueues h = none → ∀ g ∈ hosts, g = h) :
    (s.getOrMakeHostsQueue hosts).2.Separate ∧
      ∀ g, (s.getOrMakeHostsQueue hosts).2.hostQueues g = some (s.getOrMakeHostsQueue hosts).1 →
        g ∈ hosts := by
  have hfresh {g q} (hold : s.hostQueues g = none)
      (hq : (s.getOrMakeHostsQueue hosts).2.hostQueues g = some q) : q = s.queues := by
    obtain ⟨hmem, hq⟩ := getOrMakeHostsQueue_new hold hq
    rcases s.getOrMakeHostsQueue_queue hosts with ⟨g', hg', hq'⟩ | ⟨hnew, _⟩
    · rw [halone g hmem hold g' hg', hold] at hq'
      cases hq'
    · exact hq.trans hnew
  have hold {g q} (hg : s.hostQueues g ≠ none)
      (hq : (s.getOrMakeHostsQueue hosts).2.hostQueues g = some q) : s.hostQueues g = some q := by
    obtain ⟨q', hq'⟩ := Option.ne_none_iff_exists'.1 hg
    rw [getOrMakeHostsQueue_keeps hq'] at hq
    rw [hq', hq]
  have hne {g q} (hg : s.hostQueues g = some q) : q ≠ s.queues := Nat.ne_of_lt (hI.known g q hg)
  refine ⟨⟨?_, ?_, h.returned⟩, ?_⟩
  · intro a b q ha hb
    by_cases hna : s.hostQueues a = none
    · by_cases hnb : s.hostQueues b = none
      · exact halone b (getOrMakeHostsQueue_new hnb hb).1 hnb a (getOrMakeHostsQueue_new hna ha).1
      · exact (hne (hold hnb hb) (hfresh hna ha)).elim
    · by_cases hnb : s.hostQueues b = none
      · exact (hne (hold hna ha) (hfresh hnb hb)).elim
      · exact h.apart a b q (hold hna ha) (hold hnb hb)
  · intro r hr g hg
    by_cases hn : s.hostQueues g = none
    · exact absurd (hfresh hn hg) (Nat.ne_of_lt (hI.receivers r hr))
    · exact h.receivers r hr g (hold hn hg)
  · intro g hg
    by_cases hn : s.hostQueues g = none
    · exact (getOrMakeHostsQueue_new hn hg).1
    · rcases s.getOrMakeHostsQueue_queue hosts with ⟨g', hg', hq'⟩ | ⟨hnew, _⟩
      · rw [h.apart g g' _ (hold hn hg) hq']
        exact hg'
      · exact (hne (hold hn hg) hnew).elim

theorem Separate.touches {s' : MemoryQueue} (h : s.Separate) (ht : Touches s s') : s'.Separate := by
  refine ⟨?_, ?_, ?_⟩
  · rw [ht.hostQueues]
    exact h.apart
  · rw [ht.hostQueues]
    exact fun r hr => h.receivers r (ht.receivers hr)
  · rw [ht.returned]
    intro r hr
    obtain ⟨e, he, hmem⟩ := h.returned r hr
    obtain ⟨e', he', _, hhost⟩ := ht.exchanges r.2 e he
    exact ⟨e', he', hhost ▸ hmem⟩

theorem Separate.step {s' : MemoryQueue} (h : s.Separate) (hI : s.Inv) (hok : s.RegistersAlone a)
    (hs : MemoryStep s a s') : s'.Separate := by
  have hsingle (host : String) : (s.getOrMakeHostsQueue [host]).2.Separate := by
    refine (h.getOrMake hI ?_).1
    intro a ha _ b hb
    rw [List.mem_singleton.1 ha, List.mem_singleton.1 hb]
  cases hs with
  | @sendOfferInit uuid host sdp dt =>
    have hJ := hsingle host
    refine ⟨hJ.apart, hJ.receivers, fun r hr => ?_⟩
    obtain ⟨e, he, hmem⟩ := hJ.returned r hr
    refine ⟨e, ?_, hmem⟩
    rw [sendOfferInit_eq, addOffer,
      List.getElem?_append_left (List.getElem?_eq_some_iff.1 he).1]
    exact he
  | @caller _ host _ _ ht => exact (hsingle host).touches ht
  | @recvOffer hosts =>
    obtain ⟨hJ, hmem⟩ := h.getOrMake hI hok
    refine ⟨hJ.apart, ?_, hJ.returned⟩
    intro r hr g hg
    rcases List.mem_append.1 hr with hr | hr
    · exact hJ.receivers r hr g hg
    · rw [List.mem_singleton.1 hr] at hg ⊢
      exact hmem g hg
  | @exchange q x hosts i j hi hj =>
    refine ⟨h.apart, fun r hr => h.receivers r (List.mem_of_mem_eraseIdx hr), ?_⟩
    intro r hr
    rcases List.mem_append.1 hr with hr | hr
    · exact h.returned r hr
    · rw [List.mem_singleton.1 hr]
      obtain ⟨e, he, hq⟩ := hI.senders _ hi
      exact ⟨e, he, h.receivers _ hj e.host hq⟩
  | leave _ ht => exact h.touches ht

theorem separate (h : memoryMachine.ReachableWith RegistersAlone s) : s.Separate := by
  induction h with
  | init hi =>
    subst hi
    exact ⟨nofun, nofun, nofun⟩
  | step hr hok hs ih => exact ih.step (inv hr) hok (memoryStep_step hs)

theorem lookup_some (h : s.lookup q uuid = some x) :
    (q, x) ∈ s.activeOffers ∧ ∃ e, s.exchanges[x]? = some e ∧ e.uuid = uuid := by
  obtain ⟨⟨q', x'⟩, hp, rfl⟩ := Option.map_eq_some_iff.1 h
  have hp' := List.find?_some hp
  simp only [Bool.decide_and, Bool.decide_eq_true, Bool.and_eq_true, decide_eq_true_eq] at hp'
  obtain ⟨rfl, hany⟩ := hp'
  obtain ⟨e, he, huuid⟩ := (Option.any_eq_true ..).1 hany
  exact ⟨List.mem_of_find?_eq_some hp, e, he, of_decide_eq_true huuid⟩

theorem Separate.lookup (h : s.Separate) (hI : s.Inv)
    (hfind : (s.getOrMakeHostsQueue [host]).2.lookup (s.getOrMakeHostsQueue [host]).1 uuid =
      some x) : ∃ e ∈ s.exchanges, e.uuid = uuid ∧ e.host = host := by
  obtain ⟨hmem, e, he, huuid⟩ := lookup_some hfind
  obtain ⟨e', he', hq⟩ := (hI.getOrMake [host]).1.active _ hmem
  rw [he] at he'
  cases he'
  have hsep : (s.getOrMakeHostsQueue [host]).2.Separate := by
    refine (h.getOrMake hI ?_).1
    intro a ha _ b hb
    rw [List.mem_singleton.1 ha, List.mem_singleton.1 hb]
  exact ⟨e, List.mem_of_getElem? he, huuid,
    hsep.apart _ _ _ hq (s.getOrMakeHostsQueue_single host)⟩

def Refused (s : MemoryQueue) (uuid : String) (r : MemoryQueue × Option InactiveOfferError) :
    Prop := r.2 = some ⟨uuid⟩ ∧ r.1.exchanges = s.exchanges

instance (s : MemoryQueue) : (a : MemoryAct) → Decidable (s.RegistersAlone a)
  | .recvOffer hosts => inferInstanceAs (Decidable (∀ h ∈ hosts, _ → ∀ g ∈ hosts, _))
  | .sendOfferInit .. | .sendOfferUpdate .. | .sendOfferDone .. | .sendOfferError ..
  | .exchange .. | .senderDone _ | .receiverDone _ | .expire _ => .isTrue trivial

end MemoryQueue

/-- As long as no `RecvOffer` registers a host together with another one, offers and calls reach
their own host only. -/
theorem memoryQueue_routing_sound {s : MemoryQueue}
    (hs : memoryMachine.ReachableWith MemoryQueue.RegistersAlone s) :
    (∀ r ∈ s.returned, ∃ e, s.exchanges[r.2]? = some e ∧ e.host ∈ r.1) ∧
    ∀ host uuid, (∀ e ∈ s.exchanges, e.uuid = uuid → e.host ≠ host) →
      (∀ c, s.Refused uuid (s.sendOfferUpdate host uuid c)) ∧
      s.Refused uuid (s.sendOfferDone host uuid) ∧
      ∀ err, s.Refused uuid (s.sendOfferError host uuid err) := by
  have hsep := MemoryQueue.separate hs
  refine ⟨hsep.returned, fun host uuid hother => ?_⟩
  have hnone : (s.getOrMakeHostsQueue [host]).2.lookup (s.getOrMakeHostsQueue [host]).1 uuid =
      none := by
    by_contra hne
    obtain ⟨x, hx⟩ := Option.ne_none_iff_exists'.1 hne
    obtain ⟨e, he, huuid, hhost⟩ := hsep.lookup (MemoryQueue.inv hs) hx
    exact hother e he huuid hhost
  refine ⟨fun c => ?_, ?_, fun err => ?_⟩
  · simp only [MemoryQueue.sendOfferUpdate, hnone]
    exact ⟨rfl, rfl⟩
  · simp only [MemoryQueue.sendOfferDone, hnone]
    exact ⟨rfl, rfl⟩
  · simp only [MemoryQueue.sendOfferError, hnone]
    exact ⟨rfl, rfl⟩

theorem memoryQueue_routing_sound_one :
    ∃ s : MemoryQueue, s.returned = [(["a"], 1)] ∧
      (∃ e, s.exchanges[1]? = some e ∧ e.host ∈ ["a"]) ∧
      s.Refused "u" (s.sendOfferDone "b" "u") := by
  obtain ⟨s, hr, hret, hother⟩ : ∃ s : MemoryQueue,
      memoryMachine.ReachableWith MemoryQueue.RegistersAlone s ∧ s.returned = [(["a"], 1)] ∧
      ∀ e ∈ s.exchanges, e.uuid = "u" → e.host ≠ "b" :=
    memoryMachine.exists_reachableWith MemoryQueue.RegistersAlone {}
      [.recvOffer ["a"], .sendOfferInit "b" "" false "v", .sendOfferInit "a" "" false "u",
      .exchange 1 0] rfl (by decide)
  have hsound := memoryQueue_routing_sound hr
  refine ⟨s, hret, hsound.1 (["a"], 1) ?_, (hsound.2 "b" "u" hother).2.1⟩
  rw [hret]
  exact List.mem_singleton_self _

/-- Two hosts that one `RecvOffer` registered together share their offers from then on. -/
theorem memoryQueue_routing_shared :
    ∃ s : MemoryQueue, memoryMachine.Reachable s ∧ s.returned = [(["a"], 0)] ∧
      (∃ e, s.exchanges[0]? = some e ∧ e.uuid = "u" ∧ e.host = "b") ∧
      (s.sendOfferDone "a" "u").2 = none ∧
      (s.sendOfferDone "a" "u").1.exchanges ≠ s.exchanges := by
  obtain ⟨s, hr, hret, he, hdone, hchanged⟩ : ∃ s : MemoryQueue, memoryMachine.Reachable s ∧
      s.returned = [(["a"], 0)] ∧ s.exchanges[0]? = some
      ({ uuid := "u", host := "b" } : MemoryExchange) ∧ (s.sendOfferDone "a" "u").2 = none ∧
      (s.sendOfferDone "a" "u").1.exchanges ≠ s.exchanges :=
    memoryMachine.exists_reachable {} [.recvOffer ["a", "b"], .receiverDone 0,
      .sendOfferInit "b" "" false "u", .recvOffer ["a"], .exchange 0 0] rfl (by decide)
  exact ⟨s, hr, hret, ⟨_, he, rfl, rfl⟩, hdone, hchanged⟩

namespace MemoryQueue

theorem getOrMakeHostsQueue_registered (h : s.hostQueues host = some q) :
    (s.getOrMakeHostsQueue [host]).1 = q := by
  have hsingle := s.getOrMakeHostsQueue_single host
  rw [getOrMakeHostsQueue_keeps h] at hsingle
  exact (Option.some.inj hsingle).symm

/-- Where two hosts share a queue, an offer to one of them can be received for the other. -/
theorem shared_misroutes {sdp uuid : String} {dt : Bool} (hh : s.hostQueues h = some q)
    (hg : s.hostQueues g = some q) (hne : g ≠ h) (hfresh : ∀ e ∈ s.exchanges, e.uuid ≠ uuid) :
    ∃ s', memoryMachine.exec s [.sendOfferInit g sdp dt uuid, .recvOffer [h],
      .exchange s.senders.length s.receivers.length] = some s' ∧
      ∃ r ∈ s'.returned, ∃ e, s'.exchanges[r.2]? = some e ∧ e.host ∉ r.1 := by
  let s₁ := s.sendOfferInit g sdp dt uuid
  have h₁ : memoryStep s (.sendOfferInit g sdp dt uuid) = some s₁ := by
    simp only [memoryStep]
    rw [if_neg]
    simpa using hfresh
  have hq₁ : s₁.hostQueues h = some q := getOrMakeHostsQueue_keeps hh [g]
  have hi : (s₁.recvOffer [h]).senders[s.senders.length]? = some (q, s.exchanges.length) := by
    rw [← getOrMakeHostsQueue_registered hg]
    exact List.getElem?_concat_length
  have hj : (s₁.recvOffer [h]).receivers[s.receivers.length]? = some (q, [h]) := by
    rw [← getOrMakeHostsQueue_registered hq₁]
    exact List.getElem?_concat_length
  let s₃ : MemoryQueue := { s₁.recvOffer [h] with
    senders := (s₁.recvOffer [h]).senders.eraseIdx s.senders.length
    receivers := (s₁.recvOffer [h]).receivers.eraseIdx s.receivers.length
    returned := (s₁.recvOffer [h]).returned ++ [([h], s.exchanges.length)] }
  have h₃ : memoryStep (s₁.recvOffer [h]) (.exchange s.senders.length s.receivers.length) =
      some s₃ := by
    simp only [memoryStep, hi, hj, ↓reduceIte, s₃]
  refine ⟨s₃, ?_, ([h], s.exchanges.length), ?_, { uuid, host := g, sdp, disableTrickle := dt },
    ?_, ?_⟩
  · simp only [Machine.exec, memoryMachine, h₁, Option.bind_some]
    exact congrArg (fun o => Option.bind o some) h₃
  · exact List.mem_append_right _ (List.mem_singleton_self _)
  · exact List.getElem?_concat_length
  · simpa using hne

theorem shared_misroutes_two : ∃ s s' : MemoryQueue, memoryMachine.Reachable s ∧
    memoryMachine.exec s [.sendOfferInit "b" "" false "u", .recvOffer ["a"],
      .exchange s.senders.length s.receivers.length] = some s' ∧
      ∃ r ∈ s'.returned, ∃ e, s'.exchanges[r.2]? = some e ∧ e.host ∉ r.1 := by
  obtain ⟨s, hr, ha, hb, hnil⟩ : ∃ s : MemoryQueue, memoryMachine.Reachable s ∧
      s.hostQueues "a" = some 0 ∧ s.hostQueues "b" = some 0 ∧ s.exchanges = [] :=
    memoryMachine.exists_reachable {} [.recvOffer ["a", "b"]] rfl (by decide)
  obtain ⟨s', hs'⟩ := shared_misroutes ha hb (by decide) (by simp [hnil])
  exact ⟨s, s', hr, hs'⟩

def ReceiversMeet (s : MemoryQueue) : Prop :=
  ∀ r ∈ s.receivers, ∀ h ∈ r.2, s.hostQueues h = some r.1

def ListAgrees (s : MemoryQueue) : MemoryAct → Prop
  | .recvOffer hosts => s.Agree hosts
  | _ => True

theorem ReceiversMeet.step {s' : MemoryQueue} (h : s.ReceiversMeet) (hok : s.ListAgrees a)
    (hs : MemoryStep s a s') : s'.ReceiversMeet := by
  have hgrow (hosts : List String) : (s.getOrMakeHostsQueue hosts).2.ReceiversMeet :=
    fun r hr g hg => getOrMakeHostsQueue_keeps (h r hr g hg) hosts
  have htouch {t t' : MemoryQueue} (ht : t.ReceiversMeet) (htt : Touches t t') :
      t'.ReceiversMeet := by
    intro r hr g hg
    rw [htt.hostQueues]
    exact ht r (htt.receivers hr) g hg
  cases hs with
  | @sendOfferInit uuid host sdp dt => exact hgrow [host]
  | @caller _ host _ _ ht => exact htouch (hgrow [host]) ht
  | @recvOffer hosts =>
    intro r hr g hg
    rcases List.mem_append.1 hr with hr | hr
    · exact hgrow hosts r hr g hg
    · rw [List.mem_singleton.1 hr] at hg ⊢
      exact (s.getOrMakeHostsQueue_registers hosts).2 hok g hg
  | exchange => exact fun r hr => h r (List.mem_of_mem_eraseIdx hr)
  | leave _ ht => exact htouch h ht

theorem receiversMeet (h : memoryMachine.ReachableWith ListAgrees s) : s.ReceiversMeet := by
  refine h.invariant ?_ fun _ _ _ hI hok hs => hI.step hok (memoryStep_step hs)
  rintro s rfl
  exact nofun

instance (s : MemoryQueue) (hosts : List String) : Decidable (s.Agree hosts) :=
  decidable_of_iff (∀ h ∈ hosts, ∀ g ∈ hosts, (s.hostQueues h).isSome → (s.hostQueues g).isSome →
    s.hostQueues h = s.hostQueues g) <| by
  constructor
  · intro hall h hh g hg q q' hq hq'
    have heq := hall h hh g hg (by rw [hq]; rfl) (by rw [hq']; rfl)
    rw [hq, hq'] at heq
    exact Option.some.inj heq
  · intro hagree h hh g hg hq hq'
    obtain ⟨q, hq⟩ := Option.isSome_iff_exists.1 hq
    obtain ⟨q', hq'⟩ := Option.isSome_iff_exists.1 hq'
    rw [hq, hq', hagree h hh g hg q q' hq hq']

instance (s : MemoryQueue) : (a : MemoryAct) → Decidable (s.ListAgrees a)
  | .recvOffer hosts => inferInstanceAs (Decidable (s.Agree hosts))
  | .sendOfferInit .. | .sendOfferUpdate .. | .sendOfferDone .. | .sendOfferError ..
  | .exchange .. | .senderDone _ | .receiverDone _ | .expire _ => .isTrue trivial

end MemoryQueue

/-- In every state `getOrMakeHostsQueue` registers its queue for the whole list just if those that
had a queue had the same one; where this always holds, an offer and its receiver can meet. -/
theorem memoryQueue_routing_complete (s : MemoryQueue) :
    (∀ hosts, (∀ h ∈ hosts, (s.getOrMakeHostsQueue hosts).2.hostQueues h =
      some (s.getOrMakeHostsQueue hosts).1) ↔ s.Agree hosts) ∧
    (memoryMachine.ReachableWith MemoryQueue.ListAgrees s →
      ∀ (i j q q' x : Nat) (hosts : List String) (e : MemoryExchange),
      s.senders[i]? = some (q, x) → s.receivers[j]? = some (q', hosts) →
      s.exchanges[x]? = some e → e.host ∈ hosts →
        (memoryStep s (.exchange i j)).isSome = true) := by
  refine ⟨s.getOrMakeHostsQueue_registers, ?_⟩
  intro hs i j q q' x hosts e hi hj he hmem
  obtain ⟨e', he', hq⟩ := (MemoryQueue.inv hs).senders _ (List.mem_of_getElem? hi)
  rw [he] at he'
  cases he'
  have hq' := MemoryQueue.receiversMeet hs _ (List.mem_of_getElem? hj) e.host hmem
  have heq : q = q' := Option.some.inj (hq.symm.trans hq')
  simp only [memoryStep, hi, hj, heq, ↓reduceIte, Option.isSome_some]

theorem memoryQueue_routing_complete_one :
    ∃ s : MemoryQueue, s.senders = [(0, 0)] ∧ s.receivers = [(0, ["b", "a"])] ∧
      (memoryStep s (.exchange 0 0)).isSome = true := by
  obtain ⟨s, hr, hsenders, hreceivers, he⟩ : ∃ s : MemoryQueue,
      memoryMachine.ReachableWith MemoryQueue.ListAgrees s ∧ s.senders = [(0, 0)] ∧
      s.receivers = [(0, ["b", "a"])] ∧
      s.exchanges[0]? = some ({ uuid := "u", host := "b" } : MemoryExchange) :=
    memoryMachine.exists_reachableWith MemoryQueue.ListAgrees {}
      [.sendOfferInit "b" "" false "u", .recvOffer ["b", "a"]] rfl (by decide)
  refine ⟨s, hsenders, hreceivers, ?_⟩
  exact (memoryQueue_routing_complete s).2 hr 0 0 0 0 0 ["b", "a"] _
    (by rw [hsenders]; rfl) (by rw [hreceivers]; rfl) he (List.mem_cons_self ..)

/-- A host that was registered on its own keeps its queue: its offer and the receiver that asked
for it wait for ever. -/
theorem memoryQueue_routing_split :
    ∃ s : MemoryQueue, memoryMachine.Reachable s ∧ s.senders = [(1, 0)] ∧
      s.receivers = [(0, ["b", "a"])] ∧ (∃ e, s.exchanges[0]? = some e ∧ e.host = "b") ∧
      ∀ i j, memoryStep s (.exchange i j) = none := by
  obtain ⟨s, hr, hsenders, hreceivers, he⟩ : ∃ s : MemoryQueue, memoryMachine.Reachable s ∧
      s.senders = [(1, 0)] ∧ s.receivers = [(0, ["b", "a"])] ∧
      s.exchanges[0]? = some ({ uuid := "u", host := "b" } : MemoryExchange) :=
    memoryMachine.exists_reachable {} [.sendOfferDone "a" "x", .sendOfferInit "b" "" false "u",
      .recvOffer ["b", "a"]] rfl (by decide)
  refine ⟨s, hr, hsenders, hreceivers, ⟨_, he, rfl⟩, fun i j => ?_⟩
  cases i with
  | zero =>
    cases j with
    | zero | succ j => simp [memoryStep, hsenders, hreceivers]
  | succ i => simp [memoryStep, hsenders]

end Goutils.CallQueue
