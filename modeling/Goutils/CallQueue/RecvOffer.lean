import Goutils.CallQueue.Document
import Goutils.Lib.Machine
import Goutils.Lib.Sync

namespace Goutils.CallQueue
open Lib
set_option autoImplicit true

/-- Where a `RecvOffer` stands: `took` has the call, `retry` lost it to someone else. -/
inductive RecvPc where
  | start
  | waitReady
  | find
  | wait
  | take (c : MongoCall)
  | took (c : MongoCall)
  | retry
  | error
  | returned (c : MongoCall)
  | failed
  deriving DecidableEq

/-- A `RecvOffer` with the handler of its present subscription. -/
structure RecvOffer where
  operatorID : String
  hosts : List String
  pc : RecvPc := .start
  eventChan : Option MongoCall := none
  receiveOnce : Bool := false
  subscribed : Bool := false
  canceled : Bool := false
  deriving DecidableEq

/-- The collection and the `RecvOffer`s, with the events `handed` over and the `attempts`. -/
structure RecvState where
  calls : Calls := []
  inserted : List MongoCall := []
  offers : List RecvOffer := []
  handed : List (Nat × MongoCall) := []
  attempts : List (Nat × String) := []

/-- A step of a `RecvOffer` with what the environment chooses. -/
inductive RecvAct where
  | subscribe (tracked : Bool)
  | ready
  | giveUp
  | find (startedAtWindow : Int) (id : Option String)
  | findFails (startedAtWindow : Int) (id : Option String)
  | receive
  | take
  | takeFails (applied : Bool)
  | cleanup
  deriving DecidableEq

inductive QueueAct where
  | insert (c : MongoCall)
  | change (c : MongoCall)
  | expire (id : String)
  | recv (operatorID : String) (hosts : List String)
  | cancel (i : Nat)
  | send (i : Nat) (c : MongoCall)
  | step (i : Nat) (a : RecvAct)

def acquire (operatorID : String) (d : MongoCall) : MongoCall :=
  { d with answererOperatorID := operatorID, answered := true }

def isWaiting (hosts : List String) (startedAtWindow : Int) (d : MongoCall) : Bool :=
  hosts.contains d.host && d.callerError.isNone && !d.answered &&
    decide (startedAtWindow < d.startedAt)

def isUnanswered (id : String) (d : MongoCall) : Bool := decide (d.id = id) && !d.answered

namespace RecvState

def setOffer (s : RecvState) (i : Nat) (r : RecvOffer) : RecvState :=
  { s with offers := s.offers.set i r }

def findOne (s : RecvState) (r : RecvOffer) (startedAtWindow : Int) (id : String) :
    Calls × Option MongoCall :=
  s.calls.findOneAndUpdate (fun d => isWaiting r.hosts startedAtWindow d && decide (d.id = id))
    (acquire r.operatorID)

def takeOne (s : RecvState) (r : RecvOffer) (id : String) : Calls × UpdateResult :=
  s.calls.updateOne (isUnanswered id) (acquire r.operatorID)

def recvOffer (s : RecvState) (i : Nat) (r : RecvOffer) : RecvPc → RecvAct → Option RecvState
  | .start, .subscribe tracked =>
    some (s.setOffer i { r with
      pc := if tracked then .find else .waitReady
      eventChan := none
      receiveOnce := false
      subscribed := true })
  | .waitReady, .ready => some (s.setOffer i { r with pc := .find })
  | .waitReady, .giveUp =>
    if r.canceled then some (s.setOffer i { r with pc := .failed, subscribed := false }) else none
  | .find, .find startedAtWindow none =>
    if r.canceled || s.calls.any (isWaiting r.hosts startedAtWindow) then none
    else some (s.setOffer i { r with pc := .wait })
  | .find, .find startedAtWindow (some id) =>
    if r.canceled then none
    else match s.findOne r startedAtWindow id with
      | (calls, some c) => some { s.setOffer i { r with pc := .took c } with calls }
      | (_, none) => none
  | .find, .findFails startedAtWindow id =>
    some { s.setOffer i { r with pc := .error } with
      calls := match id with
        | none => s.calls
        | some id => (s.findOne r startedAtWindow id).1 }
  | .wait, .giveUp => if r.canceled then some (s.setOffer i { r with pc := .error }) else none
  | .wait, .receive =>
    r.eventChan.map fun c => s.setOffer i { r with pc := .take c, eventChan := none }
  | .take c, .take =>
    if r.canceled then none
    else
      let res := s.takeOne r c.id
      some { s.setOffer i { r with
          pc := if res.2.matchedCount = 1 ∧ res.2.modifiedCount = 1 then .took c else .retry } with
        calls := res.1
        attempts := s.attempts ++ [(i, c.id)] }
  | .take c, .takeFails applied =>
    some { s.setOffer i { r with pc := .error } with
      calls := if applied then (s.takeOne r c.id).1 else s.calls
      attempts := s.attempts ++ [(i, c.id)] }
  | .took c, .cleanup =>
    some (s.setOffer i { r with pc := .returned c, canceled := true, subscribed := false })
  | .retry, .cleanup =>
    some (s.setOffer i { r with pc := .start, canceled := true, subscribed := false })
  | .error, .cleanup =>
    some (s.setOffer i { r with pc := .failed, canceled := true, subscribed := false })
  | _, _ => none

def send (s : RecvState) (i : Nat) (r : RecvOffer) (c : MongoCall) : RecvState :=
  match r.eventChan with
  | none => { s.setOffer i { r with eventChan := some c, receiveOnce := true } with
      handed := s.handed ++ [(i, c)] }
  | some _ => s.setOffer i { r with receiveOnce := true }

end RecvState

def recvStep (s : RecvState) : QueueAct → Option RecvState
  | .insert c =>
    if (∀ d ∈ s.inserted, d.id ≠ c.id) ∧ c.answered = false then
      some { s with calls := s.calls ++ [c], inserted := s.inserted ++ [c] }
    else none
  -- What callers and answerers write to a document keeps these fields.
  | .change c => some { s with
      calls := s.calls.update (fun d => d.id = c.id ∧ d.host = c.host ∧
        d.startedAt = c.startedAt ∧ d.answered = c.answered ∧
        d.answererOperatorID = c.answererOperatorID) fun _ => c }
  | .expire id => some { s with calls := s.calls.filter fun d => d.id ≠ id }
  | .recv operatorID hosts => some { s with offers := s.offers ++ [{ operatorID, hosts }] }
  | .cancel i => s.offers[i]?.map fun r => s.setOffer i { r with canceled := true }
  | .send i c => s.offers[i]?.bind fun r =>
      if r.subscribed ∧ r.receiveOnce = false ∧ c ∈ s.inserted ∧ c.host ∈ r.hosts then
        some (s.send i r c)
      else none
  | .step i a => s.offers[i]?.bind fun r => s.recvOffer i r r.pc a

def recvMachine : Machine RecvState QueueAct where
  init s := s = {}
  step := recvStep

/-- What a step can do; a failed update may have had its effect on an unanswered document. -/
inductive RecvStep (s : RecvState) : QueueAct → RecvState → Prop where
  | insert : (∀ d ∈ s.inserted, d.id ≠ c.id) → c.answered = false → RecvStep s (.insert c)
      { s with calls := s.calls ++ [c], inserted := s.inserted ++ [c] }
  | change : RecvStep s (.change c) { s with
      calls := s.calls.update (fun d => d.id = c.id ∧ d.host = c.host ∧
        d.startedAt = c.startedAt ∧ d.answered = c.answered ∧
        d.answererOperatorID = c.answererOperatorID) fun _ => c }
  | expire : RecvStep s (.expire uuid) { s with calls := s.calls.filter fun d => d.id ≠ uuid }
  | recv : RecvStep s (.recv operatorID hosts)
      { s with offers := s.offers ++ [{ operatorID, hosts }] }
  | cancel : s.offers[i]? = some r →
      RecvStep s (.cancel i) (s.setOffer i { r with canceled := true })
  | send : s.offers[i]? = some r → r.subscribed = true → c ∈ s.inserted → c.host ∈ r.hosts →
      r.eventChan = none → RecvStep s (.send i c)
        { s.setOffer i { r with eventChan := some c, receiveOnce := true } with
          handed := s.handed ++ [(i, c)] }
  | drop : s.offers[i]? = some r →
      RecvStep s (.send i c) (s.setOffer i { r with receiveOnce := true })
  | subscribe : s.offers[i]? = some r → r.pc = .start → pc = .find ∨ pc = .waitReady →
      RecvStep s (.step i a) (s.setOffer i
        { r with pc, eventChan := none, receiveOnce := false, subscribed := true })
  | ready : s.offers[i]? = some r → r.pc = .waitReady →
      RecvStep s (.step i a) (s.setOffer i { r with pc := .find })
  | giveUp : s.offers[i]? = some r → r.pc = .waitReady ∨ r.pc = .wait → r.canceled = true →
      pc = .failed ∨ pc = .error → RecvStep s (.step i a) (s.setOffer i { r with pc, subscribed })
  | findNone : s.offers[i]? = some r → r.pc = .find →
      RecvStep s (.step i a) (s.setOffer i { r with pc := .wait })
  | found : s.offers[i]? = some r → r.pc = .find → c ∈ s.calls → c.id = uuid →
      isWaiting r.hosts startedAtWindow c = true → RecvStep s (.step i a)
        { s.setOffer i { r with pc := .took c } with calls := (s.findOne r startedAtWindow uuid).1 }
  | findFails : s.offers[i]? = some r → r.pc = .find →
      (calls = s.calls ∨ ∃ startedAtWindow uuid, calls = (s.findOne r startedAtWindow uuid).1) →
      RecvStep s (.step i a) { s.setOffer i { r with pc := .error } with calls }
  | receive : s.offers[i]? = some r → r.pc = .wait → r.eventChan = some c →
      RecvStep s (.step i a) (s.setOffer i { r with pc := .take c, eventChan := none })
  | takes : s.offers[i]? = some r → r.pc = .take c → d ∈ s.calls → isUnanswered c.id d = true →
      RecvStep s (.step i a) { s.setOffer i { r with pc := .took c } with
        calls := (s.takeOne r c.id).1
        attempts := s.attempts ++ [(i, c.id)] }
  | misses : s.offers[i]? = some r → r.pc = .take c → pc = .retry ∨ pc = .error →
      (calls = s.calls ∨ calls = (s.takeOne r c.id).1) → RecvStep s (.step i a)
        { s.setOffer i { r with pc } with calls, attempts := s.attempts ++ [(i, c.id)] }
  | returns : s.offers[i]? = some r → r.pc = .took c → RecvStep s (.step i a)
      (s.setOffer i { r with pc := .returned c, canceled := true, subscribed := false })
  | cleanup : s.offers[i]? = some r →
      r.pc = .retry ∧ pc = .start ∨ r.pc = .error ∧ pc = .failed → RecvStep s (.step i a)
        (s.setOffer i { r with pc, canceled := true, subscribed := false })

theorem recvOffer_step {s s' : RecvState} {r : RecvOffer} {i : Nat} (hr : s.offers[i]? = some r)
    (h : s.recvOffer i r r.pc a = some s') : RecvStep s (.step i a) s' := by
  generalize hpc : r.pc = pc at h
  unfold RecvState.recvOffer at h
  split at h
  · cases h
    refine .subscribe hr hpc ?_
    split
    · exact .inl rfl
    · exact .inr rfl
  · cases h
    exact .ready hr hpc
  · split at h
    · cases h
      exact .giveUp hr (.inl hpc) ‹_› (.inl rfl)
    · cases h
  · split at h
    · cases h
    · cases h
      exact .findNone hr hpc
  · split at h
    · cases h
    · split at h
      · rename_i startedAtWindow uuid _ _ calls c hfind
        cases h
        have hc : s.calls.find? (fun d => isWaiting r.hosts startedAtWindow d &&
            decide (d.id = uuid)) = some c := congrArg Prod.snd hfind
        have hp := List.find?_some hc
        rw [Bool.and_eq_true, decide_eq_true_eq] at hp
        have hcalls : calls = (s.findOne r startedAtWindow uuid).1 :=
          (congrArg Prod.fst hfind).symm
        subst hcalls
        exact .found hr hpc (List.mem_of_find?_eq_some hc) hp.2 hp.1
      · cases h
  · cases h
    refine .findFails hr hpc ?_
    split
    · exact .inl rfl
    · exact .inr ⟨_, _, rfl⟩
  · split at h
    · cases h
      exact .giveUp hr (.inr hpc) ‹_› (.inr rfl)
    · cases h
  · obtain ⟨c, hc, rfl⟩ := Option.map_eq_some_iff.1 h
    exact .receive hr hpc hc
  · split at h
    · cases h
    · rename_i c _
      cases h
      split
      · rename_i hres
        have hmatched : s.calls.any (isUnanswered c.id) = true := by
          have hm := hres.1
          rw [RecvState.takeOne, Calls.updateOne_matched] at hm
          by_contra hany
          rw [if_neg hany] at hm
          cases hm
        obtain ⟨d, hd, hp⟩ := List.any_eq_true.1 hmatched
        exact .takes hr hpc hd hp
      · exact .misses hr hpc (.inl rfl) (.inr rfl)
  · cases h
    refine .misses hr hpc (.inr rfl) ?_
    split
    · exact .inr rfl
    · exact .inl rfl
  · cases h
    exact .returns hr hpc
  · cases h
    exact .cleanup hr (.inl ⟨hpc, rfl⟩)
  · cases h
    exact .cleanup hr (.inr ⟨hpc, rfl⟩)
  · cases h

theorem recvStep_step {s s' : RecvState} (h : recvStep s a = some s') : RecvStep s a s' := by
  cases a with
  | insert c =>
    simp only [recvStep] at h
    split at h
    · rename_i hc
      cases h
      exact .insert hc.1 hc.2
    · cases h
  | change c =>
    cases h
    exact .change
  | expire id =>
    cases h
    exact .expire
  | recv operatorID hosts =>
    cases h
    exact .recv
  | cancel i =>
    obtain ⟨r, hr, rfl⟩ := Option.map_eq_some_iff.1 h
    exact .cancel hr
  | send i c =>
    obtain ⟨r, hr, h⟩ := Option.bind_eq_some_iff.1 h
    split at h
    · rename_i hc
      cases h
      unfold RecvState.send
      split
      · exact .send hr hc.1 hc.2.2.1 hc.2.2.2 ‹_›
      · exact .drop hr
    · cases h
  | step i a =>
    obtain ⟨r, hr, h⟩ := Option.bind_eq_some_iff.1 h
    exact recvOffer_step hr h

def RecvPc.holds : RecvPc → Option MongoCall
  | .took c | .returned c => some c
  | _ => none

namespace RecvState

/-- A document that a `RecvOffer` has taken is answered by its operator, and by nobody else. -/
structure Inv (s : RecvState) : Prop where
  ids : (s.calls.map MongoCall.id).Nodup
  inserted : ∀ d ∈ s.calls, ∃ c ∈ s.inserted, c.id = d.id
  known : ∀ (i : Nat) r c, s.offers[i]? = some r → r.pc.holds = some c →
    ∃ d ∈ s.inserted, d.id = c.id
  answered : ∀ (i : Nat) r c, s.offers[i]? = some r → r.pc.holds = some c →
    ∀ d ∈ s.calls, d.id = c.id → d.answered = true ∧ d.answererOperatorID = r.operatorID
  unique : ∀ (i j : Nat) r r' c c', s.offers[i]? = some r → s.offers[j]? = some r' →
    r.pc.holds = some c → r'.pc.holds = some c' → c.id = c'.id → i = j

namespace Inv
variable {s : RecvState} {r r' : RecvOffer} {i : Nat}

theorem init : Inv {} where
  ids := List.nodup_nil
  inserted _ hd := by cases hd
  known _ _ _ hr := by cases hr
  answered _ _ _ hr := by cases hr
  unique _ _ _ _ _ _ hr := by cases hr

theorem docs {cs : Calls} (hi : s.Inv) (hids : (cs.map MongoCall.id).Nodup)
    (hsub : ∀ d ∈ cs, ∃ d₀ ∈ s.calls, d₀.id = d.id ∧
      (d₀.answered = true → d.answered = true ∧ d.answererOperatorID = d₀.answererOperatorID)) :
    Inv { s with calls := cs } where
  __ := hi
  ids := hids
  inserted d hd := by
    obtain ⟨d₀, h₀, hid, -⟩ := hsub d hd
    rw [← hid]
    exact hi.inserted d₀ h₀
  answered i r c hr hc d hd hdc := by
    obtain ⟨d₀, h₀, hid, hkeep⟩ := hsub d hd
    obtain ⟨ha, hop⟩ := hi.answered i r c hr hc d₀ h₀ (hid.trans hdc)
    exact ⟨(hkeep ha).1, (hkeep ha).2.trans hop⟩

theorem move (hi : s.Inv) (hr : s.offers[i]? = some r) (hop : r'.operatorID = r.operatorID)
    (hh : r'.pc.holds = none ∨ r'.pc.holds = r.pc.holds) :
    Inv { s.setOffer i r' with handed := hs, attempts := ats } := by
  have hold : ∀ (j : Nat) q c, (s.setOffer i r').offers[j]? = some q → q.pc.holds = some c →
      ∃ q₀, s.offers[j]? = some q₀ ∧ q₀.pc.holds = some c ∧ q.operatorID = q₀.operatorID := by
    intro j q c hq hc
    rcases getElem?_set_cases hq with ⟨rfl, rfl⟩ | ⟨-, hq⟩
    · rcases hh with hh | hh
      · rw [hh] at hc
        cases hc
      · exact ⟨r, hr, hh ▸ hc, hop⟩
    · exact ⟨q, hq, hc, rfl⟩
  refine ⟨hi.ids, hi.inserted, fun j q c hq hc => ?_, fun j q c hq hc d hd hdc => ?_,
    fun j k q q' c c' hq hq' hc hc' hcc => ?_⟩
  · obtain ⟨q₀, hq₀, hc₀, -⟩ := hold j q c hq hc
    exact hi.known j q₀ c hq₀ hc₀
  · obtain ⟨q₀, hq₀, hc₀, ho⟩ := hold j q c hq hc
    rw [ho]
    exact hi.answered j q₀ c hq₀ hc₀ d hd hdc
  · obtain ⟨q₀, hq₀, hc₀, -⟩ := hold j q c hq hc
    obtain ⟨q₁, hq₁, hc₁, -⟩ := hold k q' c' hq' hc'
    exact hi.unique j k q₀ q₁ c c' hq₀ hq₁ hc₀ hc₁ hcc

theorem acquired (hi : s.Inv) (op : String) (hp : ∀ d, p d = true → d.answered = false) :
    Inv { s with calls := s.calls.update p (acquire op) } := by
  refine hi.docs ?_ fun d hd => ?_
  · rw [Calls.update_ids (f := acquire op) fun _ _ => rfl]
    exact hi.ids
  · rcases Calls.mem_update hd with hd | ⟨d₀, h₀, hp₀, rfl⟩
    · exact ⟨d, hd, rfl, fun h => ⟨h, rfl⟩⟩
    · refine ⟨d₀, h₀, rfl, fun h => ?_⟩
      rw [hp d₀ hp₀] at h
      cases h

/-- An acquisition update takes a document that nobody else has taken, and it is the only one with
its ID. -/
theorem take (hi : s.Inv) (hr : s.offers[i]? = some r) (hop : r'.operatorID = r.operatorID)
    (hpc : r'.pc.holds = some c) (hd₀ : d₀ ∈ s.calls) (hid : d₀.id = c.id) (hp₀ : p d₀ = true)
    (hp : ∀ d, p d = true → d.id = c.id ∧ d.answered = false) :
    Inv { s.setOffer i r' with
      calls := s.calls.update p (acquire r.operatorID), attempts := ats } := by
  have hacq := hi.acquired r.operatorID fun d hd => (hp d hd).2
  have hfree : ∀ (j : Nat) q c', s.offers[j]? = some q → q.pc.holds = some c' → c'.id ≠ c.id := by
    intro j q c' hq hc' heq
    have ha := (hi.answered j q c' hq hc' d₀ hd₀ (hid.trans heq.symm)).1
    rw [(hp d₀ hp₀).2] at ha
    cases ha
  refine ⟨hacq.ids, hacq.inserted, fun j q c' hq hc' => ?_, fun j q c' hq hc' d hd hdc => ?_,
    fun j k q q' c' c'' hq hq' hc' hc'' hcc => ?_⟩
  · rcases getElem?_set_cases hq with ⟨rfl, rfl⟩ | ⟨-, hq⟩
    · obtain ⟨e, he, hee⟩ := hi.inserted d₀ hd₀
      rw [hpc] at hc'
      cases hc'
      exact ⟨e, he, hee.trans hid⟩
    · exact hi.known j q c' hq hc'
  · rcases getElem?_set_cases hq with ⟨rfl, rfl⟩ | ⟨-, hq⟩
    · rw [hpc] at hc'
      cases hc'
      have hd' : d = acquire r.operatorID d₀ :=
        Calls.mem_update_of_id hi.ids hd₀ hp₀ (fun e he => (hp e he).1.trans hid.symm) hd
          (hdc.trans hid.symm)
      rw [hd', hop]
      exact ⟨rfl, rfl⟩
    · exact hacq.answered j q c' hq hc' d hd hdc
  · rcases getElem?_set_cases hq with ⟨rfl, rfl⟩ | ⟨-, hq₀⟩ <;>
      rcases getElem?_set_cases hq' with ⟨rfl, rfl⟩ | ⟨-, hq₁⟩
    · rfl
    · rw [hpc] at hc'
      cases hc'
      exact absurd hcc.symm (hfree k q' c'' hq₁ hc'')
    · rw [hpc] at hc''
      cases hc''
      exact absurd hcc (hfree j q c' hq₀ hc')
    · exact hi.unique j k q q' c' c'' hq₀ hq₁ hc' hc'' hcc

theorem isWaiting_unanswered {d : MongoCall} (h : isWaiting hosts startedAtWindow d = true) :
    d.answered = false := by
  simp only [isWaiting, Bool.and_eq_true, Bool.not_eq_true'] at h
  exact h.1.2

theorem step (hi : s.Inv) (h : RecvStep s a s') : s'.Inv := by
  have hfind : ∀ (r : RecvOffer) startedAtWindow uuid,
      Inv { s with calls := (s.findOne r startedAtWindow uuid).1 } := by
    intro r startedAtWindow uuid
    refine hi.acquired r.operatorID fun d hd => ?_
    exact isWaiting_unanswered (Bool.and_eq_true .. ▸ hd).1
  have htake : ∀ (r : RecvOffer) uuid, Inv { s with calls := (s.takeOne r uuid).1 } := by
    intro r uuid
    simp only [takeOne, Calls.updateOne_docs]
    refine hi.acquired r.operatorID fun d hd => ?_
    rw [isUnanswered, Bool.and_eq_true, Bool.not_eq_true'] at hd
    exact hd.2
  cases h with
  | @insert c hfresh hc =>
    refine ⟨?_, fun d hd => ?_, fun i r c' hr hc' => ?_, fun i r c' hr hc' d hd hdc => ?_,
      hi.unique⟩
    · rw [List.map_append, List.nodup_append]
      refine ⟨hi.ids, List.nodup_singleton _, fun x hx y hy => ?_⟩
      obtain ⟨d, hd, rfl⟩ := List.mem_map.1 hx
      obtain ⟨e, he, hed⟩ := hi.inserted d hd
      simp only [List.map_cons, List.map_nil, List.mem_singleton] at hy
      rw [hy, ← hed]
      exact hfresh e he
    · rcases List.mem_append.1 hd with hd | hd
      · obtain ⟨e, he, hed⟩ := hi.inserted d hd
        exact ⟨e, List.mem_append_left _ he, hed⟩
      · exact ⟨d, List.mem_append_right _ hd, rfl⟩
    · obtain ⟨e, he, hec⟩ := hi.known i r c' hr hc'
      exact ⟨e, List.mem_append_left _ he, hec⟩
    · rcases List.mem_append.1 hd with hd | hd
      · exact hi.answered i r c' hr hc' d hd hdc
      · -- The document is new, so no `RecvOffer` has it.
        obtain ⟨e, he, hec⟩ := hi.known i r c' hr hc'
        rw [List.mem_singleton.1 hd] at hdc
        exact absurd (hec.trans hdc.symm) (hfresh e he)
  | @change c =>
    refine hi.docs ?_ fun d hd => ?_
    · rw [Calls.update_ids]
      · exact hi.ids
      · intro d hd
        exact (of_decide_eq_true hd).1.symm
    · rcases Calls.mem_update hd with hd | ⟨d₀, h₀, hp, rfl⟩
      · exact ⟨d, hd, rfl, fun h => ⟨h, rfl⟩⟩
      · obtain ⟨hid, -, -, ha, hop⟩ := of_decide_eq_true hp
        exact ⟨d₀, h₀, hid, fun h => ⟨ha ▸ h, hop.symm⟩⟩
  | expire =>
    refine hi.docs (hi.ids.sublist (List.filter_sublist.map _)) fun d hd => ?_
    exact ⟨d, List.mem_of_mem_filter hd, rfl, fun h => ⟨h, rfl⟩⟩
  | @recv operatorID hosts =>
    let new : RecvOffer := { operatorID, hosts }
    have hold : ∀ (j : Nat) r c, (s.offers ++ [new])[j]? = some r → r.pc.holds = some c →
        s.offers[j]? = some r := by
      intro j r c hr hc
      rcases getElem?_concat_cases hr with hr | ⟨-, rfl⟩
      · exact hr
      · cases hc
    exact ⟨hi.ids, hi.inserted, fun i r c hr hc => hi.known i r c (hold i r c hr hc) hc,
      fun i r c hr hc => hi.answered i r c (hold i r c hr hc) hc,
      fun i j r r' c c' hr hr' hc hc' => hi.unique i j r r' c c' (hold i r c hr hc)
        (hold j r' c' hr' hc') hc hc'⟩
  | cancel hr | send hr | drop hr => exact hi.move hr rfl (.inr rfl)
  | subscribe hr _ hpc | giveUp hr _ _ hpc =>
    rcases hpc with rfl | rfl
    · exact hi.move hr rfl (.inl rfl)
    · exact hi.move hr rfl (.inl rfl)
  | ready hr | findNone hr | receive hr => exact hi.move hr rfl (.inl rfl)
  | found hr hpc hc hid hw =>
    refine hi.take hr rfl rfl hc rfl ?_ fun d hd => ?_
    · rw [hw, decide_eq_true hid]
      rfl
    · rw [Bool.and_eq_true, decide_eq_true_eq] at hd
      exact ⟨hd.2.trans hid.symm, isWaiting_unanswered hd.1⟩
  | @findFails i r _ _ hr hpc hcalls =>
    rcases hcalls with rfl | ⟨startedAtWindow, uuid, rfl⟩
    · exact hi.move hr rfl (.inl rfl)
    · exact (hfind r startedAtWindow uuid).move hr rfl (.inl rfl)
  | takes hr hpc hd hp =>
    simp only [takeOne, Calls.updateOne_docs]
    have hp' := hp
    rw [isUnanswered, Bool.and_eq_true, decide_eq_true_eq] at hp'
    refine hi.take hr rfl rfl hd hp'.1 hp fun e he => ?_
    rw [isUnanswered, Bool.and_eq_true, decide_eq_true_eq, Bool.not_eq_true'] at he
    exact he
  | misses hr hpc hpc' hcalls =>
    rcases hpc' with rfl | rfl <;> rcases hcalls with rfl | rfl
    · exact hi.move hr rfl (.inl rfl)
    · exact (htake _ _).move hr rfl (.inl rfl)
    · exact hi.move hr rfl (.inl rfl)
    · exact (htake _ _).move hr rfl (.inl rfl)
  | returns hr hpc => exact hi.move hr rfl (.inr (by rw [hpc]; rfl))
  | cleanup hr hpc =>
    rcases hpc with ⟨-, rfl⟩ | ⟨-, rfl⟩
    · exact hi.move hr rfl (.inl rfl)
    · exact hi.move hr rfl (.inl rfl)

end Inv

end RecvState

/-- Each call is returned by at most one `RecvOffer`, of the operator that its document names. -/
theorem recvOffer_exclusive {s : RecvState} (h : recvMachine.Reachable s) :
    (∀ (i j : Nat) r r' c c', s.offers[i]? = some r → s.offers[j]? = some r' →
      r.pc = .returned c → r'.pc = .returned c' → c.id = c'.id → i = j) ∧
    ∀ (i : Nat) r c, s.offers[i]? = some r → r.pc = .returned c →
      ∀ d ∈ s.calls, d.id = c.id → d.answered = true ∧ d.answererOperatorID = r.operatorID := by
  have hi : s.Inv := by
    refine h.invariant (fun s hs => ?_) fun s a s' hi hstep => hi.step (recvStep_step hstep)
    subst hs
    exact .init
  constructor
  · intro i j r r' c c' hr hr' hc hc' hid
    exact hi.unique i j r r' c c' hr hr' (by rw [hc]; rfl) (by rw [hc']; rfl) hid
  · intro i r c hr hc
    exact hi.answered i r c hr (by rw [hc]; rfl)

def contendedRun : List QueueAct :=
  let c : MongoCall := { id := "x", callerOperatorID := "o", host := "h", startedAt := 1 }
  [.recv "o1" ["h"], .step 0 (.subscribe true), .step 0 (.find 0 none), .recv "o2" ["h"],
    .step 1 (.subscribe true), .step 1 (.find 0 none), .insert c, .send 0 c, .send 1 c,
    .step 0 .receive, .step 1 .receive, .step 0 .take, .step 1 .take, .step 0 .cleanup,
    .step 1 .cleanup]

theorem recvOffer_exclusive_two : ∃ (s : RecvState) (c : MongoCall),
    recvMachine.Reachable s ∧ s.offers.map RecvOffer.pc = [.returned c, .start] ∧
    (∀ (i j : Nat) r r' c c', s.offers[i]? = some r → s.offers[j]? = some r' →
      r.pc = .returned c → r'.pc = .returned c' → c.id = c'.id → i = j) ∧
    ∀ (i : Nat) r c, s.offers[i]? = some r → r.pc = .returned c →
      ∀ d ∈ s.calls, d.id = c.id → d.answered = true ∧ d.answererOperatorID = r.operatorID := by
  obtain ⟨s, hreach, hp⟩ : ∃ s : RecvState, recvMachine.Reachable s ∧
      s.offers.map RecvOffer.pc = [.returned
      { id := "x", callerOperatorID := "o", host := "h", startedAt := 1 }, .start] :=
    recvMachine.exists_reachable {} contendedRun rfl (by decide +kernel)
  exact ⟨s, _, hreach, hp, recvOffer_exclusive hreach⟩

/-- An event goes to a `RecvOffer` that waits, with a context live until it is read. -/
def HandsToWaiting (s : RecvState) : QueueAct → Prop
  | .send i _ => ∀ r ∈ s.offers[i]?, r.pc = .wait ∧ r.canceled = false
  | .cancel i => ∀ r ∈ s.offers[i]?, r.eventChan = none
  | _ => True

instance (s : RecvState) : (a : QueueAct) → Decidable (HandsToWaiting s a)
  | .send i _ => inferInstanceAs (Decidable (∀ r ∈ s.offers[i]?, r.pc = .wait ∧ r.canceled = false))
  | .cancel i => inferInstanceAs (Decidable (∀ r ∈ s.offers[i]?, r.eventChan = none))
  | .insert _ | .change _ | .expire _ | .recv _ _ | .step _ _ => .isTrue trivial

def RecvOffer.Pending (r : RecvOffer) (c : MongoCall) : Prop :=
  r.pc = .wait ∧ r.eventChan = some c ∧ r.canceled = false ∨ r.pc = .take c

def RecvState.Attempted (s : RecvState) (i : Nat) (c : MongoCall) : Prop :=
  (i, c.id) ∈ s.attempts ∨ ∃ r, s.offers[i]? = some r ∧ r.Pending c

namespace RecvState.Attempted
variable {s : RecvState} {r r' : RecvOffer} {i j : Nat}

theorem set (h : s.Attempted i c) (hr : s.offers[j]? = some r) (hats : s.attempts ⊆ ats)
    (hp : r.Pending c → r'.Pending c ∨ (j, c.id) ∈ ats) :
    Attempted { s.setOffer j r' with calls := cs, handed := hs, attempts := ats } i c := by
  rcases h with h | ⟨q, hq, hpend⟩
  · exact .inl (hats h)
  · by_cases hij : j = i
    · subst hij
      rw [hr] at hq
      cases hq
      rcases hp hpend with hp | hp
      · exact .inr ⟨r', List.getElem?_set_self (List.getElem?_eq_some_iff.1 hr).1, hp⟩
      · exact .inl hp
    · exact .inr ⟨q, by rw [← hq]; exact List.getElem?_set_ne hij, hpend⟩

theorem elsewhere (h : s.Attempted i c) (hr : s.offers[j]? = some r) (hpc : r.pc = pc)
    (hwait : pc ≠ .wait) (htake : ∀ c, pc ≠ .take c) :
    Attempted { s.setOffer j r' with calls := cs } i c := by
  apply h.set hr (List.Subset.refl _)
  rintro (⟨hp, -⟩ | hp)
  · exact absurd (hpc.symm.trans hp) hwait
  · exact absurd (hpc.symm.trans hp) (htake c)

theorem attempt (h : s.Attempted i c) (hr : s.offers[j]? = some r) (hpc : r.pc = .take c₀) :
    Attempted { s.setOffer j r' with
      calls := cs, attempts := s.attempts ++ [(j, c₀.id)] } i c := by
  apply h.set hr (List.subset_append_left _ _)
  rintro (⟨hp, -⟩ | hp)
  · cases hp.symm.trans hpc
  · cases hp.symm.trans hpc
    exact .inr (List.mem_append_right _ List.mem_cons_self)

theorem step (h : s.Attempted i c) (hok : HandsToWaiting s a) (hs : RecvStep s a s') :
    s'.Attempted i c := by
  cases hs with
  | insert | change | expire => exact h
  | recv =>
    rcases h with h | ⟨r, hr, hp⟩
    · exact .inl h
    · refine .inr ⟨r, ?_, hp⟩
      rw [List.getElem?_append_left (List.getElem?_eq_some_iff.1 hr).1]
      exact hr
  | cancel hr =>
    refine h.set hr (List.Subset.refl _) fun hp => .inl ?_
    rcases hp with ⟨-, hev, -⟩ | hp
    · rw [hok _ hr] at hev
      cases hev
    · exact .inr hp
  | send hr _ _ _ hev =>
    refine h.set hr (List.Subset.refl _) fun hp => .inl ?_
    rcases hp with ⟨-, hev', -⟩ | hp
    · rw [hev] at hev'
      cases hev'
    · exact .inr hp
  | drop hr => exact h.set hr (List.Subset.refl _) fun hp => .inl hp
  | subscribe hr hpc | ready hr hpc | findNone hr hpc | found hr hpc | findFails hr hpc
  | returns hr hpc => exact h.elsewhere hr hpc nofun fun _ => nofun
  | giveUp hr hpc hcan =>
    refine h.set hr (List.Subset.refl _) fun hp => ?_
    rcases hp with ⟨-, -, hlive⟩ | hp
    · rw [hcan] at hlive
      cases hlive
    · rw [hp] at hpc
      rcases hpc with hpc | hpc <;> cases hpc
  | receive hr hpc hev =>
    refine h.set hr (List.Subset.refl _) fun hp => .inl ?_
    rcases hp with ⟨-, hev', -⟩ | hp
    · rw [hev] at hev'
      cases hev'
      exact .inr rfl
    · rw [hp] at hpc
      cases hpc
  | takes hr hpc | misses hr hpc => exact h.attempt hr hpc
  | cleanup hr hpc =>
    rcases hpc with ⟨hpc, -⟩ | ⟨hpc, -⟩
    · exact h.elsewhere hr hpc nofun fun _ => nofun
    · exact h.elsewhere hr hpc nofun fun _ => nofun

end RecvState.Attempted

theorem handed_attempted {s : RecvState} (h : recvMachine.ReachableWith HandsToWaiting s) :
    ∀ p ∈ s.handed, s.Attempted p.1 p.2 := by
  induction h with
  | init hi =>
    subst hi
    exact List.forall_mem_nil _
  | @step s a s' _ hok hstep ih =>
    have hs := recvStep_step hstep
    intro p hp
    by_cases hold : p ∈ s.handed
    · exact (ih p hold).step hok hs
    cases hs with
    | @send i r c hr _ _ _ hev =>
      rcases List.mem_append.1 hp with hp | hp
      · exact absurd hp hold
      · obtain ⟨hpc, hlive⟩ := hok r hr
        rw [List.mem_singleton.1 hp]
        refine .inr ⟨{ r with eventChan := some c, receiveOnce := true }, ?_, .inl ⟨hpc, rfl,
          hlive⟩⟩
        exact List.getElem?_set_self (List.getElem?_eq_some_iff.1 hr).1
    | _ => exact absurd hp hold

theorem RecvState.Attempted.canReach {s : RecvState} (h : s.Attempted i c) :
    recvMachine.CanReach HandsToWaiting (fun s => (i, c.id) ∈ s.attempts) s := by
  have htake : ∀ (s : RecvState) r, s.offers[i]? = some r → r.pc = .take c →
      recvMachine.CanReach HandsToWaiting (fun s => (i, c.id) ∈ s.attempts) s := by
    intro s r hr hpc
    have hmem : (i, c.id) ∈ s.attempts ++ [(i, c.id)] :=
      List.mem_append_right _ List.mem_cons_self
    by_cases hcan : r.canceled = true
    · have hstep : recvMachine.step s (.step i (.takeFails false)) = some
          { s.setOffer i { r with pc := .error } with attempts := s.attempts ++ [(i, c.id)] } := by
        simp only [recvMachine, recvStep, hr, Option.bind_some, hpc, recvOffer]
        rfl
      have hok : HandsToWaiting s (.step i (.takeFails false)) := trivial
      exact .head (.refl hmem) hok hstep
    · have hstep : ∃ s', recvMachine.step s (.step i .take) = some s' ∧
          (i, c.id) ∈ s'.attempts := by
        simp only [recvMachine, recvStep, hr, Option.bind_some, hpc, recvOffer, if_neg hcan]
        exact ⟨_, rfl, hmem⟩
      obtain ⟨s', hstep, hmem'⟩ := hstep
      have hok : HandsToWaiting s (.step i .take) := trivial
      exact .head (.refl hmem') hok hstep
  rcases h with h | ⟨r, hr, ⟨hpc, hev, hlive⟩ | hpc⟩
  · exact .refl h
  · have hstep : recvMachine.step s (.step i .receive) = some
        (s.setOffer i { r with pc := .take c, eventChan := none }) := by
      simp only [recvMachine, recvStep, hr, Option.bind_some, hpc, recvOffer, hev, Option.map_some]
    have hok : HandsToWaiting s (.step i .receive) := trivial
    refine .head (htake _ { r with pc := .take c, eventChan := none } ?_ rfl) hok hstep
    exact List.getElem?_set_self (List.getElem?_eq_some_iff.1 hr).1
  · exact htake s r hr hpc

/-- Where events go only to a `RecvOffer` that waits, it has attempted to take the call or still
can. -/
theorem recvOffer_attempts {s : RecvState} (h : recvMachine.ReachableWith HandsToWaiting s)
    (i : Nat) (c : MongoCall) (hp : (i, c) ∈ s.handed) :
    ((i, c.id) ∈ s.attempts ∨ ∃ r, s.offers[i]? = some r ∧ r.Pending c) ∧
      recvMachine.CanReach HandsToWaiting (fun s => (i, c.id) ∈ s.attempts) s := by
  have hatt : s.Attempted i c := handed_attempted h (i, c) hp
  exact ⟨hatt, hatt.canReach⟩

theorem recvOffer_attempts_one : ∃ (s : RecvState) (c : MongoCall),
    recvMachine.ReachableWith HandsToWaiting s ∧ (1, c) ∈ s.handed ∧
    ((1, c.id) ∈ s.attempts ∨ ∃ r, s.offers[1]? = some r ∧ r.Pending c) ∧
      recvMachine.CanReach HandsToWaiting (fun s => (1, c.id) ∈ s.attempts) s := by
  obtain ⟨s, hreach, hp⟩ : ∃ s : RecvState, recvMachine.ReachableWith HandsToWaiting s ∧
      (1, { id := "x", callerOperatorID := "o", host := "h", startedAt := 1 }) ∈ s.handed :=
    recvMachine.exists_reachableWith HandsToWaiting {} (contendedRun.take 10) rfl
      (by decide +kernel)
  exact ⟨s, _, hreach, hp, recvOffer_attempts hreach 1 _ hp⟩

/-- The first `RecvOffer` has found "x" when it gets the event of "y", which nobody attempts then.
-/
theorem recvOffer_swallows : ∃ (s : RecvState) (x y : MongoCall) (r : RecvOffer),
    recvMachine.Reachable s ∧ (0, y) ∈ s.handed ∧ s.handed.length = 1 ∧ s.attempts = [] ∧
      s.offers.map RecvOffer.pc = [.returned x, .wait] ∧ x.id ≠ y.id ∧
      s.offers[1]? = some r ∧ y.host ∈ r.hosts ∧ r.subscribed = true ∧ r.eventChan = none ∧
      y ∈ s.calls ∧ y.answered = false := by
  let x : MongoCall := { id := "x", callerOperatorID := "o", host := "g", startedAt := 1 }
  let y : MongoCall := { id := "y", callerOperatorID := "o", host := "h", startedAt := 1 }
  let r : RecvOffer := { operatorID := "o", hosts := ["h"], pc := .wait, subscribed := true }
  obtain ⟨s, hr, hp⟩ : ∃ s : RecvState, recvMachine.Reachable s ∧ (0, y) ∈ s.handed ∧
      s.handed.length = 1 ∧ s.attempts = [] ∧ s.offers.map RecvOffer.pc = [.returned x, .wait] ∧
      x.id ≠ y.id ∧ s.offers[1]? = some r ∧ y.host ∈ r.hosts ∧ r.subscribed = true ∧
      r.eventChan = none ∧ y ∈ s.calls ∧ y.answered = false :=
    recvMachine.exists_reachable {} [.insert x, .recv "o" ["h", "g"], .recv "o" ["h"],
      .step 1 (.subscribe true), .step 1 (.find 0 none), .step 0 (.subscribe true),
      .step 0 (.find 0 (some "x")), .insert y, .send 0 y, .step 0 .cleanup] rfl (by decide +kernel)
  exact ⟨s, x, y, r, hr, hp⟩

end Goutils.CallQueue
