import Goutils.CallQueue.RecvOffer

namespace Goutils.CallQueue
open Lib
set_option autoImplicit true

/-- The queue with the `RecvOffer`s that are done or lost the call of an event. -/
structure RaceState where
  recv : RecvState := {}
  done : List Nat := []
  lost : List Nat := []

def RecvAct.fails : RecvAct → Bool
  | .findFails _ _ | .takeFails _ => true
  | _ => false

/-- Operations on the database fail only where the merged context of their `RecvOffer` is done. -/
def raceStep (s : RaceState) : QueueAct → Option RaceState
  | .cancel i => (recvStep s.recv (.cancel i)).map fun recv => { s with recv, done := i :: s.done }
  | .step i a =>
    if a.fails ∧ s.recv.offers[i]?.map RecvOffer.canceled ≠ some true then none
    else (recvStep s.recv (.step i a)).map fun recv => { s with
      recv
      lost := if recv.offers[i]?.map RecvOffer.pc = some .retry then i :: s.lost else s.lost }
  | a => (recvStep s.recv a).map fun recv => { s with recv }

def raceMachine : Machine RaceState QueueAct where
  init s := s = {}
  step := raceStep

inductive OfferStep (r : RecvOffer) : RecvOffer → Prop where
  | subscribe : r.pc = .start → pc = .find ∨ pc = .waitReady → OfferStep r
      { r with pc, eventChan := none, receiveOnce := false, subscribed := true }
  | ready : r.pc = .waitReady → OfferStep r { r with pc := .find }
  | findNone : r.pc = .find → OfferStep r { r with pc := .wait }
  | takes : r.pc ≠ .retry → r.canceled = false → OfferStep r { r with pc := .took c }
  | loses : (∀ c, r.pc ≠ .returned c) → OfferStep r { r with pc := .retry }
  | receive : r.pc = .wait → OfferStep r { r with pc := .take c, eventChan := none }
  | fails : (∀ c, r.pc ≠ .returned c) → r.canceled = true → pc = .failed ∨ pc = .error →
      OfferStep r { r with pc, subscribed }
  | returns : r.pc = .took c →
      OfferStep r { r with pc := .returned c, canceled := true, subscribed := false }
  | retries : r.pc = .retry →
      OfferStep r { r with pc := .start, canceled := true, subscribed := false }
  | failed : r.pc = .error →
      OfferStep r { r with pc := .failed, canceled := true, subscribed := false }

theorem recvOffer_offer {s s' : RecvState} {r : RecvOffer} {i : Nat}
    (h : s.recvOffer i r r.pc a = some s') (hdb : a.fails = true → r.canceled = true) :
    ∃ r', OfferStep r r' ∧ s'.offers = s.offers.set i r' := by
  generalize hpc : r.pc = pc at h
  unfold RecvState.recvOffer at h
  split at h
  · cases h
    refine ⟨_, .subscribe hpc ?_, rfl⟩
    split
    · exact .inl rfl
    · exact .inr rfl
  · cases h
    exact ⟨_, .ready hpc, rfl⟩
  · split at h
    · cases h
      exact ⟨_, .fails (by rw [hpc]; exact fun _ => nofun) ‹_› (.inl rfl), rfl⟩
    · cases h
  · split at h
    · cases h
    · cases h
      exact ⟨_, .findNone hpc, rfl⟩
  · split at h
    · cases h
    · rename_i hlive
      split at h
      · cases h
        exact ⟨_, .takes (by rw [hpc]; exact nofun) (Bool.eq_false_of_not_eq_true hlive), rfl⟩
      · cases h
  · cases h
    exact ⟨_, .fails (by rw [hpc]; exact fun _ => nofun) (hdb rfl) (.inr rfl), rfl⟩
  · split at h
    · cases h
      exact ⟨_, .fails (by rw [hpc]; exact fun _ => nofun) ‹_› (.inr rfl), rfl⟩
    · cases h
  · obtain ⟨c, hc, rfl⟩ := Option.map_eq_some_iff.1 h
    exact ⟨_, .receive hpc, rfl⟩
  · split at h
    · cases h
    · rename_i hlive
      cases h
      split
      · exact ⟨_, .takes (by rw [hpc]; exact nofun) (Bool.eq_false_of_not_eq_true hlive), rfl⟩
      · exact ⟨_, .loses (by rw [hpc]; exact fun _ => nofun), rfl⟩
  · cases h
    exact ⟨_, .fails (by rw [hpc]; exact fun _ => nofun) (hdb rfl) (.inr rfl), rfl⟩
  · cases h
    exact ⟨_, .returns hpc, rfl⟩
  · cases h
    exact ⟨_, .retries hpc, rfl⟩
  · cases h
    exact ⟨_, .failed hpc, rfl⟩
  · cases h

inductive RaceStep (s : RaceState) : RaceState → Prop where
  | other : recv.offers = s.recv.offers → RaceStep s { s with recv }
  | recv (operatorID : String) (hosts : List String) :
      recv.offers = s.recv.offers ++ [{ operatorID := operatorID, hosts := hosts }] →
      RaceStep s { s with recv }
  | cancel : s.recv.offers[i]? = some r →
      recv.offers = s.recv.offers.set i { r with canceled := true } →
      RaceStep s { s with recv, done := i :: s.done }
  | send : s.recv.offers[i]? = some r → r.eventChan = none ∨ eventChan = r.eventChan →
      recv.offers = s.recv.offers.set i { r with eventChan, receiveOnce := true } →
      eventChan.isSome = true → RaceStep s { s with recv }
  | step : s.recv.offers[i]? = some r → OfferStep r r' →
      recv.offers = s.recv.offers.set i r' → RaceStep s
        { s with recv, lost := if r'.pc = .retry then i :: s.lost else s.lost }

theorem raceStep_step {s s' : RaceState} (h : raceStep s a = some s') : RaceStep s s' := by
  cases a with
  | insert c =>
    obtain ⟨recv, hrecv, rfl⟩ := Option.map_eq_some_iff.1 h
    cases recvStep_step hrecv
    exact .other rfl
  | change c | expire id =>
    cases h
    exact .other rfl
  | recv operatorID hosts =>
    cases h
    exact .recv operatorID hosts rfl
  | cancel i =>
    obtain ⟨recv, hrecv, rfl⟩ := Option.map_eq_some_iff.1 h
    obtain ⟨r, hr, rfl⟩ := Option.map_eq_some_iff.1 hrecv
    exact .cancel hr rfl
  | send i c =>
    obtain ⟨recv, hrecv, rfl⟩ := Option.map_eq_some_iff.1 h
    obtain ⟨r, hr, hrecv⟩ := Option.bind_eq_some_iff.1 hrecv
    split at hrecv
    · cases hrecv
      unfold RecvState.send
      split
      · exact .send hr (.inl ‹_›) rfl rfl
      · rename_i hev
        exact .send hr (.inr rfl) rfl (by rw [hev]; rfl)
    · cases hrecv
  | step i a =>
    simp only [raceStep] at h
    split at h
    · cases h
    · rename_i hdb
      obtain ⟨recv, hrecv, rfl⟩ := Option.map_eq_some_iff.1 h
      obtain ⟨r, hr, hrecv⟩ := Option.bind_eq_some_iff.1 hrecv
      rw [hr, Option.map_some] at hdb
      have hdb : a.fails = true → r.canceled = true := by
        intro hfails
        by_contra hlive
        exact hdb ⟨hfails, fun h => hlive (Option.some.inj h)⟩
      obtain ⟨r', hstep, hoffers⟩ := recvOffer_offer hrecv hdb
      have hget : recv.offers[i]?.map RecvOffer.pc = some r'.pc := by
        rw [hoffers, List.getElem?_set_self (List.getElem?_eq_some_iff.1 hr).1, Option.map_some]
      rw [hget]
      simp only [Option.some.injEq]
      exact .step hr hstep hoffers

/-- A canceled `RecvOffer` has a call, has lost a race, or a context it came from is done. -/
structure RecvOffer.RaceInv (r : RecvOffer) (i : Nat) (done lost : List Nat) : Prop where
  canceled : r.canceled = true → i ∈ done ∨ i ∈ lost ∨ ∃ c, r.pc = .returned c
  failed : r.pc = .error ∨ r.pc = .failed → i ∈ done ∨ i ∈ lost
  loser : i ∈ lost → r.pc.holds = none ∧ (r.pc = .retry ∨ r.canceled = true)
  retry : r.pc = .retry → i ∈ lost
  subscribed : r.pc = .waitReady ∨ r.pc = .find ∨ r.pc = .wait →
    r.subscribed = true ∧ (r.receiveOnce = true → r.eventChan.isSome = true)

namespace RecvOffer.RaceInv
variable {r r' : RecvOffer} {done lost : List Nat}

theorem move (h : r.RaceInv i done lost) (hcan : r'.canceled = r.canceled)
    (hret : ∀ c, r.pc ≠ .returned c) (hretry : r.pc ≠ .retry)
    (hpc : r'.pc = .waitReady ∨ r'.pc = .find ∨ r'.pc = .wait ∨ ∃ c, r'.pc = .take c)
    (hsub : r'.pc = .waitReady ∨ r'.pc = .find ∨ r'.pc = .wait →
      r'.subscribed = true ∧ (r'.receiveOnce = true → r'.eventChan.isSome = true)) :
    r'.RaceInv i done lost := by
  have hplace : r'.pc ≠ .error ∧ r'.pc ≠ .failed ∧ r'.pc ≠ .retry ∧ r'.pc.holds = none := by
    rcases hpc with hpc | hpc | hpc | ⟨c, hpc⟩ <;> rw [hpc] <;> exact ⟨nofun, nofun, nofun, rfl⟩
  refine ⟨?_, ?_, ?_, fun h => absurd h hplace.2.2.1, hsub⟩
  · intro hcanceled
    rw [hcan] at hcanceled
    rcases h.canceled hcanceled with hdone | hlost | ⟨c, hc⟩
    · exact .inl hdone
    · exact .inr (.inl hlost)
    · exact absurd hc (hret c)
  · rintro (hpc | hpc)
    · exact absurd hpc hplace.1
    · exact absurd hpc hplace.2.1
  · intro hmem
    refine ⟨hplace.2.2.2, .inr ?_⟩
    rw [hcan]
    exact (h.loser hmem).2.resolve_left hretry

theorem step (h : r.RaceInv i done lost) (hs : OfferStep r r') :
    r'.RaceInv i done (if r'.pc = .retry then i :: lost else lost) := by
  cases hs with
  | subscribe hpc hpc' =>
    rw [if_neg (by rcases hpc' with rfl | rfl <;> exact nofun)]
    refine h.move rfl (by rw [hpc]; exact fun _ => nofun) (by rw [hpc]; exact nofun) ?_ ?_
    · rcases hpc' with rfl | rfl
      · exact .inr (.inl rfl)
      · exact .inl rfl
    · exact fun _ => ⟨rfl, nofun⟩
  | ready hpc =>
    refine h.move rfl (by rw [hpc]; exact fun _ => nofun) (by rw [hpc]; exact nofun)
      (.inr (.inl rfl)) ?_
    exact fun _ => h.subscribed (.inl hpc)
  | findNone hpc =>
    refine h.move rfl (by rw [hpc]; exact fun _ => nofun) (by rw [hpc]; exact nofun)
      (.inr (.inr (.inl rfl))) ?_
    exact fun _ => h.subscribed (.inr (.inl hpc))
  | receive hpc =>
    refine h.move rfl (by rw [hpc]; exact fun _ => nofun) (by rw [hpc]; exact nofun)
      (.inr (.inr (.inr ⟨_, rfl⟩))) ?_
    rintro (h | h | h) <;> cases h
  | takes hretry hlive =>
    -- a live context means that no race was lost
    have hnot : i ∉ lost := by
      intro hmem
      rcases (h.loser hmem).2 with hpc | hcanceled
      · exact hretry hpc
      · rw [hlive] at hcanceled
        cases hcanceled
    refine ⟨?_, ?_, fun hmem => absurd hmem hnot, nofun, ?_⟩
    · intro hcanceled
      rw [hlive] at hcanceled
      cases hcanceled
    · rintro (h | h) <;> cases h
    · rintro (h | h | h) <;> cases h
  | loses hret =>
    refine ⟨fun _ => .inr (.inl List.mem_cons_self), fun _ => .inr List.mem_cons_self,
      fun _ => ⟨rfl, .inl rfl⟩, fun _ => List.mem_cons_self, ?_⟩
    rintro (h | h | h) <;> cases h
  | fails hret hcanceled hpc =>
    rw [if_neg (by rcases hpc with rfl | rfl <;> exact nofun)]
    have hwhy : i ∈ done ∨ i ∈ lost := by
      rcases h.canceled hcanceled with hdone | hlost | ⟨c, hc⟩
      · exact .inl hdone
      · exact .inr hlost
      · exact absurd hc (hret c)
    refine ⟨fun _ => hwhy.imp_right .inl, fun _ => hwhy, fun _ => ⟨?_, .inr hcanceled⟩, ?_, ?_⟩
    · rcases hpc with rfl | rfl <;> rfl
    · rcases hpc with rfl | rfl <;> exact nofun
    · rcases hpc with rfl | rfl <;> rintro (h | h | h) <;> cases h
  | returns hpc =>
    refine ⟨fun _ => .inr (.inr ⟨_, rfl⟩), ?_, ?_, nofun, ?_⟩
    · rintro (h | h) <;> cases h
    · intro hmem
      have hholds := (h.loser hmem).1
      rw [hpc] at hholds
      cases hholds
    · rintro (h | h | h) <;> cases h
  | retries hpc =>
    have hmem := h.retry hpc
    refine ⟨fun _ => .inr (.inl hmem), fun _ => .inr hmem, fun _ => ⟨rfl, .inr rfl⟩, nofun, ?_⟩
    rintro (h | h | h) <;> cases h
  | failed hpc =>
    have hwhy := h.failed (.inl hpc)
    refine ⟨fun _ => hwhy.imp_right .inl, fun _ => hwhy, fun _ => ⟨rfl, .inr rfl⟩, nofun, ?_⟩
    rintro (h | h | h) <;> cases h

theorem congr (h : r.RaceInv i done lost) (hdone : i ∈ done → i ∈ done')
    (hlost : i ∈ lost' ↔ i ∈ lost) : r.RaceInv i done' lost' := by
  refine ⟨?_, ?_, fun hmem => h.loser (hlost.1 hmem), fun hpc => hlost.2 (h.retry hpc),
    h.subscribed⟩
  · intro hcanceled
    exact (h.canceled hcanceled).imp hdone (Or.imp_left hlost.2)
  · intro hpc
    exact (h.failed hpc).imp hdone hlost.2

end RecvOffer.RaceInv

structure RaceState.Inv (s : RaceState) : Prop where
  offers : ∀ (i : Nat) r, s.recv.offers[i]? = some r → r.RaceInv i s.done s.lost
  lost : ∀ i ∈ s.lost, i < s.recv.offers.length

namespace RaceState.Inv

theorem set {s s' : RaceState} {i : Nat} (h : s.Inv) (hi : i < s.recv.offers.length)
    (hoffers : s'.recv.offers = s.recv.offers.set i r')
    (hdone : ∀ j, j ∈ s.done → j ∈ s'.done) (hlost : ∀ j, j ≠ i → (j ∈ s'.lost ↔ j ∈ s.lost))
    (hr' : r'.RaceInv i s'.done s'.lost) : s'.Inv := by
  constructor
  · intro j q hq
    rw [hoffers] at hq
    rcases getElem?_set_cases hq with ⟨rfl, rfl⟩ | ⟨hne, hq⟩
    · exact hr'
    · exact (h.offers j q hq).congr (hdone j) (hlost j hne)
  · intro j hj
    rw [hoffers, List.length_set]
    by_cases hji : j = i
    · rwa [hji]
    · exact h.lost j ((hlost j hji).1 hj)

theorem step {s s' : RaceState} (h : s.Inv) (hs : RaceStep s s') : s'.Inv := by
  cases hs with
  | other hoffers => exact ⟨hoffers ▸ h.offers, hoffers ▸ h.lost⟩
  | recv operatorID hosts hoffers =>
    constructor
    · intro j q hq
      rw [hoffers] at hq
      rcases getElem?_concat_cases hq with hq | ⟨rfl, rfl⟩
      · exact h.offers j q hq
      · refine ⟨nofun, ?_, ?_, nofun, ?_⟩
        · rintro (h | h) <;> cases h
        · exact fun hmem => absurd (h.lost _ hmem) (Nat.lt_irrefl _)
        · rintro (h | h | h) <;> cases h
    · intro j hj
      rw [hoffers, List.length_append]
      exact Nat.lt_add_right 1 (h.lost j hj)
  | @cancel i r _ hr hoffers =>
    have hi := h.offers i r hr
    refine h.set (List.getElem?_eq_some_iff.1 hr).1 hoffers (fun _ => List.mem_cons_of_mem _)
      (fun _ _ => Iff.rfl) ⟨fun _ => .inl List.mem_cons_self, fun _ => .inl List.mem_cons_self,
        ?_, hi.retry, hi.subscribed⟩
    exact fun hmem => ⟨(hi.loser hmem).1, .inr rfl⟩
  | @send i r eventChan _ hr hev hoffers hsome =>
    have hi := h.offers i r hr
    refine h.set (List.getElem?_eq_some_iff.1 hr).1 hoffers (fun _ => id) (fun _ _ => Iff.rfl)
      { hi with subscribed := ?_ }
    exact fun hpc => ⟨(hi.subscribed hpc).1, fun _ => hsome⟩
  | @step i r r' _ hr hstep hoffers =>
    refine h.set (List.getElem?_eq_some_iff.1 hr).1 hoffers (fun _ => id) ?_
      ((h.offers i r hr).step hstep)
    intro j hne
    split
    · simp [hne]
    · exact Iff.rfl

theorem of_reachable {s : RaceState} (h : raceMachine.Reachable s) : s.Inv := by
  apply h.invariant
  · rintro s rfl
    constructor
    · intro i r hr
      cases hr
    · intro i hi
      cases hi
  · intro s a s' hI hs
    exact hI.step (raceStep_step hs)

end RaceState.Inv

/-- The call that its last event tells of, until it has tried to take it. -/
def RecvOffer.awaited (r : RecvOffer) : Option MongoCall :=
  match r.pc with
  | .wait => r.eventChan
  | .take c => some c
  | _ => none

namespace RaceState

def CanReturn (i : Nat) (s : RaceState) : Prop :=
  raceMachine.CanReach (fun _ _ => True)
    (fun s => At s.recv.offers i fun r => ∃ c, r.pc = .returned c) s

variable {s : RaceState} {r : RecvOffer} {i : Nat}

theorem getElem?_setOffer {recv : RecvState} (hr : recv.offers[i]? = some r) (r' : RecvOffer) :
    (recv.setOffer i r').offers[i]? = some r' :=
  List.getElem?_set_self (List.getElem?_eq_some_iff.1 hr).1

section

variable (hr : s.recv.offers[i]? = some r)

include hr

theorem exists_step (ha : a.fails = false) (hrecv : s.recv.recvOffer i r r.pc a = some recv') :
    ∃ s', raceMachine.step s (.step i a) = some s' ∧ s'.recv = recv' := by
  simp only [raceMachine, raceStep, ha, Bool.false_eq_true, false_and, if_false, recvStep, hr,
    Option.bind_some, hrecv, Option.map_some]
  exact ⟨_, rfl, rfl⟩

theorem CanReturn.step (ha : a.fails = false) (hrecv : s.recv.recvOffer i r r.pc a = some recv')
    (hoffers : recv'.offers = (s.recv.setOffer i r').offers)
    (h : ∀ s' : RaceState, s'.recv = recv' → s'.recv.offers[i]? = some r' → s'.CanReturn i) :
    s.CanReturn i := by
  obtain ⟨s', hs, hrecv'⟩ := exists_step hr ha hrecv
  refine (h s' hrecv' ?_).head trivial hs
  rw [hrecv', hoffers]
  exact getElem?_setOffer hr r'

theorem canReturn_took (hpc : r.pc = .took c) : s.CanReturn i := by
  refine .step (a := .cleanup) hr rfl (by rw [hpc]; rfl) (by rfl) fun s' _ hget => .refl ?_
  exact ⟨_, hget, c, rfl⟩

variable (hlive : r.canceled = false)

include hlive

theorem canReturn_take (hpc : r.pc = .take c)
    (hstale : s.recv.calls.any (isUnanswered c.id) = true) : s.CanReturn i := by
  have htakes : (s.recv.takeOne r c.id).2 = ⟨1, 1⟩ := by
    obtain ⟨d, hd⟩ := Option.isSome_iff_exists.1
      ((List.find?_isSome ..).2 (List.any_eq_true.1 hstale))
    have hun := List.find?_some hd
    simp only [isUnanswered, Bool.and_eq_true, Bool.not_eq_true'] at hun
    have hun := hun.2
    have hchanged : acquire r.operatorID d ≠ d := fun heq => by
      rw [← heq] at hun
      cases hun
    simp only [RecvState.takeOne, Calls.updateOne, hd, if_neg hchanged]
  have hrecv : s.recv.recvOffer i r r.pc .take = some
      { s.recv.setOffer i { r with pc := .took c } with
        calls := (s.recv.takeOne r c.id).1
        attempts := s.recv.attempts ++ [(i, c.id)] } := by
    simp only [hpc, RecvState.recvOffer, hlive, Bool.false_eq_true, if_false, htakes, and_self,
      if_true]
  exact .step hr rfl hrecv rfl fun s' _ hget => canReturn_took hget rfl

theorem canReturn_event (hpc : r.pc = .wait) (hev : r.eventChan = some c)
    (hstale : s.recv.calls.any (isUnanswered c.id) = true) : s.CanReturn i := by
  refine .step (a := .receive) hr rfl (by rw [hpc, RecvState.recvOffer, hev]; rfl) (by rfl)
    fun s' hs' hget => ?_
  exact canReturn_take hget hlive rfl (by rw [hs']; exact hstale)

theorem canReturn_wait (hpc : r.pc = .wait) (hsub : r.subscribed = true)
    (honce : r.receiveOnce = true → r.eventChan.isSome = true)
    (hstale : ∀ c ∈ r.eventChan, s.recv.calls.any (isUnanswered c.id) = true)
    (hc : c ∈ s.recv.inserted) (hhost : c.host ∈ r.hosts)
    (hun : s.recv.calls.any (isUnanswered c.id) = true) : s.CanReturn i := by
  cases hev : r.eventChan with
  | some c' => exact canReturn_event hr hlive hpc hev (hstale c' hev)
  | none =>
    have honce : r.receiveOnce = false := by
      by_contra h
      rw [hev] at honce
      cases honce (Bool.eq_true_of_not_eq_false h)
    have hsend : raceMachine.step s (.send i c) = some { s with
        recv := { s.recv.setOffer i { r with eventChan := some c, receiveOnce := true } with
          handed := s.recv.handed ++ [(i, c)] } } := by
      simp only [raceMachine, raceStep, recvStep, hr, Option.bind_some]
      rw [if_pos ⟨hsub, honce, hc, hhost⟩]
      simp only [RecvState.send, hev, Option.map_some]
    have hget := getElem?_setOffer hr { r with eventChan := some c, receiveOnce := true }
    refine Machine.CanReach.head ?_ trivial hsend
    exact canReturn_event (r := { r with eventChan := some c, receiveOnce := true }) hget hlive hpc
      rfl hun

variable (hc : c ∈ s.recv.calls) (hw : isWaiting r.hosts startedAtWindow c = true)

include hc hw

theorem canReturn_find (hpc : r.pc = .find) : s.CanReturn i := by
  cases hfind : s.recv.calls.find?
      (fun d => isWaiting r.hosts startedAtWindow d && decide (d.id = c.id)) with
  | none =>
    have := List.find?_eq_none.1 hfind c hc
    simp [hw] at this
  | some d =>
    have hrecv : s.recv.recvOffer i r r.pc (.find startedAtWindow (some c.id)) = some
        { s.recv.setOffer i { r with pc := .took d } with
          calls := (s.recv.findOne r startedAtWindow c.id).1 } := by
      rw [hpc]
      simp only [RecvState.recvOffer, hlive, Bool.false_eq_true, if_false, RecvState.findOne,
        Calls.findOneAndUpdate, hfind]
    exact .step hr rfl hrecv rfl fun s' _ hget => canReturn_took hget rfl

theorem canReturn_ready (hpc : r.pc = .waitReady) : s.CanReturn i := by
  refine .step (a := .ready) hr rfl (by rw [hpc]; rfl) (by rfl) fun s' hs' hget => ?_
  exact canReturn_find hget hlive (by rw [hs']; exact hc) hw rfl

theorem canReturn_start (hpc : r.pc = .start) : s.CanReturn i := by
  refine .step (a := .subscribe true) hr rfl (by rw [hpc]; rfl) (by rfl) fun s' hs' hget => ?_
  exact canReturn_find hget hlive (by rw [hs']; exact hc) hw rfl

end

theorem canReturn_insert (hi : r.RaceInv i s.done s.lost) (hr : s.recv.offers[i]? = some r)
    (hlost : i ∉ s.lost) (hdone : i ∉ s.done) (hfresh : ∀ d ∈ s.recv.inserted, d.id ≠ c.id)
    (hw : isWaiting r.hosts startedAtWindow c = true)
    (hstale : ∀ d, r.awaited = some d → s.recv.calls.any (isUnanswered d.id) = true) :
    s.CanReturn i := by
  have hanswered : c.answered = false := RecvState.Inv.isWaiting_unanswered hw
  have hhost : c.host ∈ r.hosts := by
    simp only [isWaiting, Bool.and_eq_true, List.contains_iff_mem] at hw
    exact hw.1.1.1
  have hinsert : raceMachine.step s (.insert c) = some { s with
      recv := { s.recv with
        calls := s.recv.calls ++ [c]
        inserted := s.recv.inserted ++ [c] } } := by
    simp only [raceMachine, raceStep, recvStep]
    rw [if_pos ⟨hfresh, hanswered⟩]
    rfl
  have hlive : r.pc.holds = none → r.canceled = false := by
    intro hnone
    by_contra hcanceled
    rcases hi.canceled (Bool.eq_true_of_not_eq_false hcanceled) with h | h | ⟨c, h⟩
    · exact hdone h
    · exact hlost h
    · rw [h] at hnone
      cases hnone
  suffices hafter : ∀ s₁ : RaceState, s₁.recv.offers[i]? = some r → c ∈ s₁.recv.calls →
      c ∈ s₁.recv.inserted →
      (∀ d, r.awaited = some d → s₁.recv.calls.any (isUnanswered d.id) = true) →
      s₁.CanReturn i by
    have hmem : ∀ l : List MongoCall, c ∈ l ++ [c] :=
      fun _ => List.mem_append_right _ List.mem_cons_self
    refine Machine.CanReach.head ?_ trivial hinsert
    refine hafter _ hr (hmem _) (hmem _) fun d hd => ?_
    rw [List.any_append, hstale d hd, Bool.true_or]
  intro s₁ hr hc hinserted hstale
  cases hpc : r.pc with
  | start => exact canReturn_start hr (hlive (by rw [hpc]; rfl)) hc hw hpc
  | waitReady => exact canReturn_ready hr (hlive (by rw [hpc]; rfl)) hc hw hpc
  | find => exact canReturn_find hr (hlive (by rw [hpc]; rfl)) hc hw hpc
  | wait =>
    obtain ⟨hsub, honce⟩ := hi.subscribed (.inr (.inr hpc))
    refine canReturn_wait hr (hlive (by rw [hpc]; rfl)) hpc hsub honce (fun d hd => hstale d ?_)
      hinserted hhost (List.any_eq_true.2 ⟨c, hc, ?_⟩)
    · rw [RecvOffer.awaited, hpc]
      exact hd
    · simp [isUnanswered, hanswered]
  | take c' =>
    refine canReturn_take hr (hlive (by rw [hpc]; rfl)) hpc (hstale c' ?_)
    rw [RecvOffer.awaited, hpc]
  | took c' => exact canReturn_took hr hpc
  | retry => exact absurd (hi.retry hpc) hlost
  | error => exact absurd (hi.failed (.inl hpc)) (not_or.2 ⟨hdone, hlost⟩)
  | failed => exact absurd (hi.failed (.inr hpc)) (not_or.2 ⟨hdone, hlost⟩)
  | returned c' => exact .refl ⟨r, hr, c', hpc⟩

end RaceState

/-- A `RecvOffer` that lost no race fails only where a context is done, and unless its last event is
stale it can return. One that lost a race never returns a call. -/
theorem recvOffer_fails_only_done {s : RaceState} {i : Nat} {r : RecvOffer}
    (h : raceMachine.Reachable s) (hr : s.recv.offers[i]? = some r) :
    (i ∉ s.lost → r.pc = .failed → i ∈ s.done) ∧
    (i ∉ s.lost → i ∉ s.done →
      (∀ d, r.awaited = some d → s.recv.calls.any (isUnanswered d.id) = true) →
      ∀ c startedAtWindow, (∀ d ∈ s.recv.inserted, d.id ≠ c.id) →
        isWaiting r.hosts startedAtWindow c = true → s.CanReturn i) ∧
    (i ∈ s.lost → ∀ c, r.pc ≠ .returned c) := by
  have hi := (RaceState.Inv.of_reachable h).offers i r hr
  refine ⟨?_, ?_, ?_⟩
  · intro hlost hpc
    exact (hi.failed (.inr hpc)).resolve_right hlost
  · intro hlost hdone hstale c startedAtWindow hfresh hw
    exact RaceState.canReturn_insert hi hr hlost hdone hfresh hw hstale
  · intro hlost c hpc
    have hholds := (hi.loser hlost).1
    rw [hpc] at hholds
    cases hholds

/-- The first `RecvOffer` has taken the call of its event; the second one lost it. -/
theorem recvOffer_fails_only_done_winner :
    ∃ s c r, raceMachine.Reachable s ∧ s.recv.offers[0]? = some r ∧ r.pc = .returned c ∧
      0 ∉ s.lost ∧ s.lost = [1] ∧ (0 ∉ s.lost → r.pc = .failed → 0 ∈ s.done) := by
  obtain ⟨s, hreach, hlost, hpc⟩ : ∃ s, raceMachine.Reachable s ∧ s.lost = [1] ∧
      (s.recv.offers[0]?.map RecvOffer.pc) = some
      (.returned { id := "x", callerOperatorID := "o", host := "h", startedAt := 1 }) :=
    raceMachine.exists_reachable {} contendedRun rfl (by decide +kernel)
  obtain ⟨r, hr, hpc⟩ := Option.map_eq_some_iff.1 hpc
  exact ⟨s, _, r, hreach, hr, hpc, by rw [hlost]; decide, hlost,
    (recvOffer_fails_only_done hreach hr).1⟩

/-- The `RecvOffer` that lost the call subscribes again and fails, although its context and that
of the queue are live. -/
theorem recvOffer_fails_after_race :
    ∃ s, raceMachine.Reachable s ∧ s.done = [] ∧
      s.recv.offers[1]?.map RecvOffer.pc = some .failed := by
  let run : List (List QueueAct) :=
    [contendedRun, [.step 1 (.subscribe true), .step 1 (.findFails 0 none), .step 1 .cleanup]]
  exact raceMachine.exists_reachable {} run.flatten rfl (by decide +kernel)

end Goutils.CallQueue
