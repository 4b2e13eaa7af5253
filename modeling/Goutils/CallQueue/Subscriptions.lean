import Goutils.Lib.Sync

namespace Goutils.CallQueue
open Lib
set_option autoImplicit true

/-- A call of `subscribeToCall`, with the inner map that its closure captures. -/
structure CallExchange where
  host : String
  callID : String
  side : String
  exchangeSubs : Nat
  live : Bool := true

/-- A call of `subscribeForNewCallOnHosts`. One that is not ready unsubscribes itself. -/
inductive HandlerPhase where
  | waiting
  | subscribed
  | unsubscribed
  deriving DecidableEq

structure NewCallHandler where
  hosts : List String
  phase : HandlerPhase

/-- The tables under `csStateMu`. The inner maps of `callExchangeSubs` are on a heap. -/
structure SubsState where
  callExchangeSubs : String → Option Nat := fun _ => none
  heap : Nat → Finset Nat := fun _ => ∅
  allocated : Nat := 0
  exchanges : List CallExchange := []
  waitingForNewCallSubs : String → Option (Finset Nat) := fun _ => none
  handlers : List NewCallHandler := []
  csTrackingHosts : List String := []

namespace SubsState

def findExchangeSubs (s : SubsState) (callID : String) : Nat × SubsState :=
  match s.callExchangeSubs callID with
  | some exchangeSubs => (exchangeSubs, s)
  | none => (s.allocated,
      { s with
        heap := Function.update s.heap s.allocated ∅
        allocated := s.allocated + 1
        callExchangeSubs := Function.update s.callExchangeSubs callID (some s.allocated) })

def subscribeToCall (s : SubsState) (host callID side : String) : SubsState :=
  let (exchangeSubs, s) := s.findExchangeSubs callID
  let exchange := s.exchanges.length
  { s with
    heap := Function.update s.heap exchangeSubs (insert exchange (s.heap exchangeSubs))
    exchanges := s.exchanges ++ [{ host, callID, side, exchangeSubs }] }

def unsubscribeCall (s : SubsState) (k : Nat) (e : CallExchange) : SubsState :=
  let left := (s.heap e.exchangeSubs).erase k
  { s with
    heap := Function.update s.heap e.exchangeSubs left
    callExchangeSubs :=
      if left = ∅ then Function.update s.callExchangeSubs e.callID none else s.callExchangeSubs
    exchanges := s.exchanges.set k { e with live := false } }

end SubsState

abbrev HostSubs := String → Option (Finset Nat)

def HostSubs.subscribe (k : Nat) (subs : HostSubs) (host : String) : HostSubs :=
  Function.update subs host (some (insert k ((subs host).getD ∅)))

def HostSubs.unsubscribe (k : Nat) (subs : HostSubs) (host : String) : HostSubs :=
  let subs := Function.update subs host ((subs host).map (·.erase k))
  if (subs host).getD ∅ = ∅ then Function.update subs host none else subs

namespace SubsState

def subscribeForNewCallOnHosts (s : SubsState) (hosts : List String) : SubsState :=
  let alreadyTrackedCount := hosts.countP (· ∈ s.csTrackingHosts)
  { s with
    waitingForNewCallSubs :=
      hosts.foldl (HostSubs.subscribe s.handlers.length) s.waitingForNewCallSubs
    handlers := s.handlers ++
      [⟨hosts, if alreadyTrackedCount = hosts.length then .subscribed else .waiting⟩] }

def unsub (s : SubsState) (k : Nat) (h : NewCallHandler) : SubsState :=
  { s with
    waitingForNewCallSubs := h.hosts.foldl (HostSubs.unsubscribe k) s.waitingForNewCallSubs
    handlers := s.handlers.set k { h with phase := .unsubscribed } }

end SubsState

inductive SubsAct where
  | subscribeToCall (host callID side : String)
  | unsubscribeCall (k : Nat)
  | subscribeForNewCallOnHosts (hosts : List String)
  | ready (k : Nat)
  | ctxDone (k : Nat)
  | unsubscribeHosts (k : Nat)
  | track (hosts : List String)

/-- The manager may track any hosts and make any subscription ready, at any time. -/
def subsStep (s : SubsState) : SubsAct → Option SubsState
  | .subscribeToCall host callID side => some (s.subscribeToCall host callID side)
  | .unsubscribeCall k => do
    let e ← s.exchanges[k]?
    if e.live then some (s.unsubscribeCall k e) else none
  | .subscribeForNewCallOnHosts hosts => some (s.subscribeForNewCallOnHosts hosts)
  | .ready k => do
    let h ← s.handlers[k]?
    if h.phase = .waiting then
      some { s with handlers := s.handlers.set k { h with phase := .subscribed } }
    else none
  | .ctxDone k => do
    let h ← s.handlers[k]?
    if h.phase = .waiting then some (s.unsub k h) else none
  | .unsubscribeHosts k => do
    let h ← s.handlers[k]?
    if h.phase = .subscribed then some (s.unsub k h) else none
  | .track hosts => some { s with csTrackingHosts := hosts }

def subsMachine : Machine SubsState SubsAct where
  init s := s = {}
  step := subsStep

/-- The inner map is the set of these subscriptions, and is there only where it is not empty. -/
structure Files (subs : Option (Finset Nat)) (p : Nat → Prop) : Prop where
  nonempty : subs ≠ some ∅
  mem : ∀ k, k ∈ subs.getD ∅ ↔ p k

namespace Files

theorem congr (h : Files subs p) (hpq : ∀ k, p k ↔ q k) : Files subs q :=
  ⟨h.nonempty, fun k => (h.mem k).trans (hpq k)⟩

theorem insert (h : Files subs p) (k : Nat) :
    Files (some (insert k (subs.getD ∅))) fun j => p j ∨ j = k := by
  refine ⟨fun he => Finset.insert_ne_empty k _ (Option.some.inj he), fun j => ?_⟩
  rw [Option.getD_some, Finset.mem_insert, h.mem j]
  exact or_comm

theorem erase (h : Files subs p) (k : Nat) {left : Finset Nat}
    (hleft : left = (subs.getD ∅).erase k) :
    Files (if left = ∅ then none else some left) fun j => p j ∧ j ≠ k := by
  have hmem : ∀ j, j ∈ left ↔ p j ∧ j ≠ k := by
    intro j
    rw [hleft, Finset.mem_erase, h.mem j]
    exact and_comm
  split
  · rename_i he
    subst he
    exact ⟨nofun, hmem⟩
  · rename_i he
    exact ⟨fun heq => he (Option.some.inj heq), hmem⟩

theorem eq_erase (h : Files subs p) (h' : Files left q) (hq : ∀ j, q j ↔ p j ∧ j ≠ k) :
    left.getD ∅ = (subs.getD ∅).erase k := by
  ext j
  rw [h'.mem, hq, Finset.mem_erase, h.mem]
  exact and_comm

variable {subs : HostSubs} {p : String → Nat → Prop}

theorem subscribe (h : ∀ host, Files (subs host) (p host)) (k : Nat) (hosts : List String)
    (host : String) :
    Files (hosts.foldl (HostSubs.subscribe k) subs host) fun j =>
      p host j ∨ host ∈ hosts ∧ j = k := by
  induction hosts generalizing subs p with
  | nil => exact (h host).congr fun j => by simp
  | cons g hosts ih =>
    refine (ih (p := fun host j => p host j ∨ host = g ∧ j = k) fun host => ?_).congr fun j => ?_
    · by_cases hg : host = g
      · subst hg
        rw [HostSubs.subscribe, Function.update_self]
        exact ((h host).insert k).congr fun j => by simp
      · rw [HostSubs.subscribe, Function.update_of_ne hg]
        exact (h host).congr fun j => by simp [hg]
    · rw [List.mem_cons, or_assoc, or_and_right]

theorem unsubscribe_self (subs : HostSubs) (k : Nat) (host : String) :
    HostSubs.unsubscribe k subs host host =
      if ((subs host).getD ∅).erase k = ∅ then none
      else some (((subs host).getD ∅).erase k) := by
  cases hsubs : subs host with
  | none => simp [HostSubs.unsubscribe, hsubs]
  | some m =>
    simp only [HostSubs.unsubscribe, hsubs, Option.map_some, Function.update_self, Option.getD_some]
    split
    · exact Function.update_self ..
    · exact Function.update_self ..

theorem unsubscribe_other (subs : HostSubs) (k : Nat) (hg : host ≠ g) :
    HostSubs.unsubscribe k subs g host = subs host := by
  unfold HostSubs.unsubscribe
  split
  · rw [Function.update_of_ne hg, Function.update_of_ne hg]
  · exact Function.update_of_ne hg ..

theorem unsubscribe (h : ∀ host, Files (subs host) (p host)) (k : Nat) (hosts : List String)
    (host : String) :
    Files (hosts.foldl (HostSubs.unsubscribe k) subs host) fun j =>
      p host j ∧ (host ∈ hosts → j ≠ k) := by
  induction hosts generalizing subs p with
  | nil => exact (h host).congr fun j => by simp
  | cons g hosts ih =>
    refine (ih (p := fun host j => p host j ∧ (host = g → j ≠ k)) fun host => ?_).congr
      fun j => ?_
    · by_cases hg : host = g
      · subst hg
        rw [unsubscribe_self]
        exact ((h host).erase k rfl).congr fun j => by simp
      · rw [unsubscribe_other subs k hg]
        exact (h host).congr fun j => by simp [hg]
    · rw [List.mem_cons, and_assoc, or_imp]

end Files

namespace SubsState

def exchangesOf (s : SubsState) (callID : String) : Option (Finset Nat) :=
  (s.callExchangeSubs callID).map s.heap

def LiveExchange (s : SubsState) (callID : String) (k : Nat) : Prop :=
  At s.exchanges k fun e => e.live ∧ e.callID = callID

def LiveHandler (s : SubsState) (host : String) (k : Nat) : Prop :=
  At s.handlers k fun h => h.phase ≠ .unsubscribed ∧ host ∈ h.hosts

/-- The closure of a live subscription has captured the map that the table has for its call. -/
structure ExchangesInv (s : SubsState) : Prop where
  files : ∀ callID, Files (s.exchangesOf callID) (s.LiveExchange callID)
  captured : ∀ (k : Nat) (e : CallExchange), s.exchanges[k]? = some e → e.live →
    s.callExchangeSubs e.callID = some e.exchangeSubs
  range : ∀ callID m, s.callExchangeSubs callID = some m → m < s.allocated

def HandlersInv (s : SubsState) : Prop :=
  ∀ host, Files (s.waitingForNewCallSubs host) (s.LiveHandler host)

variable {s s' : SubsState} {k m : Nat}

theorem exchangesOf_some (hm : s.callExchangeSubs callID = some m) :
    s.exchangesOf callID = some (s.heap m) := by
  rw [exchangesOf, hm, Option.map_some]

theorem ExchangesInv.eq_of_map (h : s.ExchangesInv) (hm : s.callExchangeSubs callID = some m)
    (hm' : s.callExchangeSubs callID' = some m) : callID = callID' := by
  have hof := exchangesOf_some hm
  have hne : (s.heap m).Nonempty := by
    apply Finset.nonempty_iff_ne_empty.2
    intro he
    exact (h.files callID).nonempty (by rw [hof, he])
  obtain ⟨k, hk⟩ := hne
  obtain ⟨e, he, -, hid⟩ := ((h.files callID).mem k).1 (by rw [hof]; exact hk)
  obtain ⟨e', he', -, hid'⟩ := ((h.files callID').mem k).1 (by rw [exchangesOf_some hm']; exact hk)
  rw [he] at he'
  cases he'
  exact hid.symm.trans hid'

/-- The map `m` is written, and the table has it, or nothing, for the call. -/
structure Sets (s : SubsState) (callID : String) (m : Nat) (subs : Finset Nat)
    (entry : Option Nat) (s' : SubsState) : Prop where
  unshared : ∀ c, s.callExchangeSubs c = some m → c = callID
  heap : s'.heap = Function.update s.heap m subs
  table : s'.callExchangeSubs = Function.update s.callExchangeSubs callID entry

theorem Sets.exchangesOf_self (h : s.Sets callID m subs entry s') :
    s'.exchangesOf callID = entry.map (Function.update s.heap m subs) := by
  rw [exchangesOf, h.heap, h.table, Function.update_self]

theorem Sets.exchangesOf_other (h : s.Sets callID m subs entry s') (hc : c ≠ callID) :
    s'.exchangesOf c = s.exchangesOf c := by
  rw [exchangesOf, h.heap, h.table, Function.update_of_ne hc]
  cases hm : s.callExchangeSubs c with
  | none => rw [exchangesOf, hm, Option.map_none, Option.map_none]
  | some m' =>
    have hne : m' ≠ m := fun heq => hc (h.unshared c (heq ▸ hm))
    rw [exchangesOf_some hm, Option.map_some, Function.update_of_ne hne]

theorem Sets.files (h : s.Sets callID m subs entry s')
    (hfiles : ∀ c, Files (s.exchangesOf c) (s.LiveExchange c))
    (hself : Files (entry.map (Function.update s.heap m subs)) (s'.LiveExchange callID))
    (hother : ∀ c, c ≠ callID → ∀ k, s.LiveExchange c k ↔ s'.LiveExchange c k) (c : String) :
    Files (s'.exchangesOf c) (s'.LiveExchange c) := by
  by_cases hc : c = callID
  · subst hc
    rw [h.exchangesOf_self]
    exact hself
  · rw [h.exchangesOf_other hc]
    exact (hfiles c).congr (hother c hc)

theorem subscribeToCall_eq (h : s.ExchangesInv) (host callID side : String) :
    ∃ m allocated, s.subscribeToCall host callID side =
        { s with
          heap := Function.update s.heap m
            (insert s.exchanges.length ((s.exchangesOf callID).getD ∅))
          callExchangeSubs := Function.update s.callExchangeSubs callID (some m)
          allocated := allocated
          exchanges := s.exchanges ++ [{ host, callID, side, exchangeSubs := m }] } ∧
      m < allocated ∧ s.allocated ≤ allocated ∧
      (∀ c, s.callExchangeSubs c = some m → c = callID) ∧
      ∀ m', s.callExchangeSubs callID = some m' → m' = m := by
  cases hm : s.callExchangeSubs callID with
  | some m =>
    refine ⟨m, s.allocated, ?_, h.range _ _ hm, Nat.le_refl _, fun c hc => h.eq_of_map hc hm, ?_⟩
    · rw [← hm, Function.update_eq_self, exchangesOf_some hm]
      simp only [subscribeToCall, findExchangeSubs, hm, Option.getD_some]
    · intro m' hm'
      exact (Option.some.inj hm').symm
  | none =>
    refine ⟨s.allocated, s.allocated + 1, ?_, Nat.lt_succ_self _, Nat.le_succ _, ?_, nofun⟩
    · simp only [subscribeToCall, findExchangeSubs, hm, exchangesOf, Option.map_none,
        Option.getD_none, Function.update_self, Function.update_idem]
    · intro c hc
      exact absurd (h.range c _ hc) (Nat.lt_irrefl _)

theorem ExchangesInv.subscribe (h : s.ExchangesInv) (host callID side : String) :
    (s.subscribeToCall host callID side).ExchangesInv := by
  obtain ⟨m, allocated, heq, hlt, hle, hunshared, hmap⟩ := subscribeToCall_eq h host callID side
  rw [heq]
  refine ⟨Sets.files ⟨hunshared, rfl, rfl⟩ h.files ?_ ?_, fun k e he hlive => ?_,
    fun c m' hm' => ?_⟩
  · rw [Option.map_some, Function.update_self]
    refine ((h.files callID).insert _).congr fun k => (At.concat.trans ?_).symm
    rw [and_iff_right ⟨rfl, rfl⟩]
    rfl
  · intro c hc k
    exact (At.concat_iff fun hp => hc hp.2.symm).symm
  · rcases getElem?_concat_cases he with he | ⟨-, rfl⟩
    · have hold := h.captured k e he hlive
      by_cases hid : e.callID = callID
      · rw [hid] at hold
        rw [hid, hmap _ hold]
        exact Function.update_self ..
      · exact (Function.update_of_ne hid ..).trans hold
    · exact Function.update_self ..
  · by_cases hc : c = callID
    · subst hc
      cases (Function.update_self ..).symm.trans hm'
      exact hlt
    · exact Nat.lt_of_lt_of_le (h.range c m' ((Function.update_of_ne hc ..).symm.trans hm')) hle

theorem liveExchange_unsubscribe {e : CallExchange} (callID : String) (j : Nat) :
    (s.unsubscribeCall k e).LiveExchange callID j ↔ s.LiveExchange callID j ∧ j ≠ k :=
  At.set_drop fun hp => nomatch hp.1

theorem ExchangesInv.unsubscribe {e : CallExchange} (h : s.ExchangesInv)
    (he : s.exchanges[k]? = some e) (hlive : e.live) : (s.unsubscribeCall k e).ExchangesInv := by
  have hm := h.captured k e he hlive
  have hsets : s.Sets e.callID e.exchangeSubs ((s.heap e.exchangeSubs).erase k)
      (if (s.heap e.exchangeSubs).erase k = ∅ then none else some e.exchangeSubs)
      (s.unsubscribeCall k e) := by
    refine ⟨fun c hc => h.eq_of_map hc hm, rfl, ?_⟩
    unfold unsubscribeCall
    split
    · rename_i hemp
      exact if_pos hemp
    · rename_i hemp
      rw [← hm, Function.update_eq_self]
      exact if_neg hemp
  have hdead : ¬ ({ e with live := false } : CallExchange).live := nofun
  refine ⟨hsets.files h.files ?_ ?_, fun j e' he' hlive' => ?_, fun c m hc => ?_⟩
  · have herase := (h.files e.callID).erase k rfl
    rw [exchangesOf_some hm, Option.getD_some] at herase
    have hmap : (if (s.heap e.exchangeSubs).erase k = ∅ then none else some e.exchangeSubs).map
          (Function.update s.heap e.exchangeSubs ((s.heap e.exchangeSubs).erase k)) =
        if (s.heap e.exchangeSubs).erase k = ∅ then none
        else some ((s.heap e.exchangeSubs).erase k) := by
      split
      · rfl
      · rw [Option.map_some, Function.update_self]
    rw [hmap]
    exact herase.congr fun j => (liveExchange_unsubscribe e.callID j).symm
  · intro c hc j
    exact (At.set_iff he ⟨fun hp => absurd hp.1 hdead, fun hp => absurd hp.2.symm hc⟩).symm
  · rcases getElem?_set_cases he' with ⟨-, rfl⟩ | ⟨hne, he'⟩
    · exact absurd hlive' hdead
    · have hm' := h.captured j e' he' hlive'
      rw [hsets.table]
      by_cases hid : e'.callID = e.callID
      · -- the other one is in the map still, so that its entry stays
        have hsame : e'.exchangeSubs = e.exchangeSubs := by
          rw [hid, hm] at hm'
          exact (Option.some.inj hm').symm
        have hmem : j ∈ (s.heap e.exchangeSubs).erase k := by
          refine Finset.mem_erase.2 ⟨hne, ?_⟩
          have := ((h.files e.callID).mem j).2 ⟨e', he', hlive', hid⟩
          rwa [exchangesOf_some hm] at this
        rw [hid, Function.update_self, if_neg (Finset.ne_empty_of_mem hmem), hsame]
      · rw [Function.update_of_ne hid, hm']
  · rw [hsets.table] at hc
    by_cases heq : c = e.callID
    · subst heq
      rw [Function.update_self] at hc
      split at hc
      · cases hc
      · cases hc
        exact h.range _ _ hm
    · rw [Function.update_of_ne heq] at hc
      exact h.range c m hc

theorem HandlersInv.subscribe (h : s.HandlersInv) (hosts : List String) :
    (s.subscribeForNewCallOnHosts hosts).HandlersInv := by
  intro host
  refine (Files.subscribe h s.handlers.length hosts host).congr fun k => ?_
  refine (At.concat.trans (or_congr Iff.rfl (and_congr_left fun _ => ?_))).symm
  apply and_iff_right
  dsimp only
  split
  · exact nofun
  · exact nofun

theorem liveHandler_unsub {n : NewCallHandler} (host : String) (j : Nat) :
    (s.unsub k n).LiveHandler host j ↔ s.LiveHandler host j ∧ j ≠ k :=
  At.set_drop fun hp => hp.1 rfl

theorem HandlersInv.unsub {n : NewCallHandler} (h : s.HandlersInv) (hn : s.handlers[k]? = some n) :
    (s.unsub k n).HandlersInv := by
  intro host
  refine (Files.unsubscribe h k n.hosts host).congr fun j => ?_
  refine Iff.trans ?_ (liveHandler_unsub host j).symm
  refine and_congr_right fun hlive => ⟨fun hne heq => ?_, fun hne _ => hne⟩
  -- a live handler that is not filed under the host is another one
  subst heq
  obtain ⟨n', hn', -, hmem⟩ := hlive
  rw [hn] at hn'
  cases hn'
  exact hne hmem rfl

theorem HandlersInv.ready {n : NewCallHandler} (h : s.HandlersInv) (hn : s.handlers[k]? = some n)
    (hw : n.phase = .waiting) :
    HandlersInv { s with handlers := s.handlers.set k { n with phase := .subscribed } } := by
  intro host
  refine (h host).congr fun j => (At.set_iff hn ?_).symm
  exact and_congr_left fun _ => ⟨fun _ => hw ▸ nofun, fun _ => nofun⟩

theorem ExchangesInv.frame (h : s.ExchangesInv) (subs : HostSubs) (handlers : List NewCallHandler)
    (hosts : List String) :
    ExchangesInv { s with
      waitingForNewCallSubs := subs, handlers := handlers, csTrackingHosts := hosts } :=
  { h with }

structure Inv (s : SubsState) : Prop where
  exchanges : s.ExchangesInv
  handlers : s.HandlersInv

theorem Inv.init : Inv {} := by
  refine ⟨⟨fun callID => ⟨nofun, fun k => ?_⟩, nofun, nofun⟩, fun host => ⟨nofun, fun k => ?_⟩⟩
  · exact ⟨nofun, nofun⟩
  · exact ⟨nofun, nofun⟩

theorem Inv.step (h : s.Inv) (hs : subsStep s a = some s') : s'.Inv := by
  cases a with
  | subscribeToCall host callID side =>
    cases hs
    refine ⟨h.exchanges.subscribe host callID side, ?_⟩
    obtain ⟨m, allocated, heq, -⟩ := subscribeToCall_eq h.exchanges host callID side
    rw [heq]
    exact h.handlers
  | unsubscribeCall k =>
    obtain ⟨e, he, hs⟩ := Option.bind_eq_some_iff.1 hs
    obtain ⟨hlive, heq⟩ := Option.ite_none_right_eq_some.1 hs
    cases heq
    exact ⟨h.exchanges.unsubscribe he hlive, h.handlers⟩
  | subscribeForNewCallOnHosts hosts =>
    cases hs
    exact ⟨h.exchanges.frame _ _ _, h.handlers.subscribe hosts⟩
  | ready k =>
    obtain ⟨n, hn, hs⟩ := Option.bind_eq_some_iff.1 hs
    obtain ⟨hw, heq⟩ := Option.ite_none_right_eq_some.1 hs
    cases heq
    exact ⟨h.exchanges.frame _ _ _, h.handlers.ready hn hw⟩
  | ctxDone k | unsubscribeHosts k =>
    obtain ⟨n, hn, hs⟩ := Option.bind_eq_some_iff.1 hs
    obtain ⟨-, heq⟩ := Option.ite_none_right_eq_some.1 hs
    cases heq
    exact ⟨h.exchanges.frame _ _ _, h.handlers.unsub hn⟩
  | track hosts =>
    cases hs
    exact ⟨h.exchanges.frame _ _ _, h.handlers⟩

theorem Inv.unsub_erases {n : NewCallHandler} (h : s.Inv) (hn : s.handlers[k]? = some n)
    (host : String) :
    ((s.unsub k n).waitingForNewCallSubs host).getD ∅ =
      ((s.waitingForNewCallSubs host).getD ∅).erase k :=
  (h.handlers host).eq_erase (h.handlers.unsub hn host) (liveHandler_unsub host)

end SubsState

theorem subs_inv (h : subsMachine.Reachable s) : s.Inv :=
  h.invariant (fun _ hi => hi ▸ .init) fun _ _ _ hI hs => hI.step hs

/-- Between the critical sections both tables are the live subscriptions, and an unsubscribe takes
its own entries from them and nothing else. -/
theorem subscription_tables_exact (h : subsMachine.Reachable s) :
    (∀ callID, Files (s.exchangesOf callID) (s.LiveExchange callID)) ∧
      (∀ host, Files (s.waitingForNewCallSubs host) (s.LiveHandler host)) ∧
      (∀ k s', subsStep s (.unsubscribeCall k) = some s' →
        s'.waitingForNewCallSubs = s.waitingForNewCallSubs ∧
        ∀ callID, (s'.exchangesOf callID).getD ∅ = ((s.exchangesOf callID).getD ∅).erase k) ∧
      ∀ k s', subsStep s (.ctxDone k) = some s' ∨ subsStep s (.unsubscribeHosts k) = some s' →
        s'.exchangesOf = s.exchangesOf ∧
        ∀ host, (s'.waitingForNewCallSubs host).getD ∅ =
          ((s.waitingForNewCallSubs host).getD ∅).erase k := by
  have hI := subs_inv h
  refine ⟨hI.exchanges.files, hI.handlers, ?_, ?_⟩
  · intro k s' hs
    have hI' := hI.step hs
    obtain ⟨e, he, hs⟩ := Option.bind_eq_some_iff.1 hs
    obtain ⟨-, heq⟩ := Option.ite_none_right_eq_some.1 hs
    cases heq
    refine ⟨rfl, fun callID => ?_⟩
    exact (hI.exchanges.files callID).eq_erase (hI'.exchanges.files callID)
      (SubsState.liveExchange_unsubscribe callID)
  · rintro k s' (hs | hs)
    all_goals
      obtain ⟨n, hn, hs⟩ := Option.bind_eq_some_iff.1 hs
      obtain ⟨-, heq⟩ := Option.ite_none_right_eq_some.1 hs
      cases heq
      exact ⟨rfl, hI.unsub_erases hn⟩

/-- What is left: the second exchange of a call, and one of two subscriptions to the host `a`, also
named twice. -/
theorem subscription_tables_exact_two :
    ∃ s : SubsState, s.exchangesOf "c" = some {1} ∧ s.waitingForNewCallSubs "a" = some {1} ∧
      s.waitingForNewCallSubs "b" = none ∧ Files (s.exchangesOf "c") (s.LiveExchange "c") ∧
      Files (s.waitingForNewCallSubs "a") (s.LiveHandler "a") := by
  have hinit : subsMachine.init {} := rfl
  obtain ⟨s, hr, hc, ha, hb⟩ : ∃ s, subsMachine.Reachable s ∧ s.exchangesOf "c" = some {1} ∧
      s.waitingForNewCallSubs "a" = some {1} ∧ s.waitingForNewCallSubs "b" = none :=
    subsMachine.exists_reachable {} [.subscribeToCall "a" "c" "caller",
      .subscribeToCall "a" "c" "answerer", .subscribeForNewCallOnHosts ["a", "b", "a"],
      .track ["a"], .subscribeForNewCallOnHosts ["a", "a"], .unsubscribeCall 0, .ctxDone 0] hinit
      (by decide +kernel)
  have hexact := subscription_tables_exact hr
  exact ⟨s, hc, ha, hb, hexact.1 "c", hexact.2.1 "a"⟩

end Goutils.CallQueue
