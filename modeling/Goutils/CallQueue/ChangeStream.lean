import Goutils.CallQueue.Document
import Goutils.Lib.Machine
import Goutils.Lib.Sync

namespace Goutils.CallQueue
open Lib
set_option autoImplicit true

structure Timestamp where
  t : UInt32 := 0
  i : UInt32 := 0
  deriving DecidableEq

namespace Timestamp

def isZero (τ : Timestamp) : Bool := τ.t = 0 ∧ τ.i = 0

/-- An event at `new` counts as seen after one at `last`. -/
def seen (last new : Timestamp) : Bool := last.t > new.t ∨ last.t = new.t ∧ last.i ≥ new.i

def toNat (τ : Timestamp) : Nat := τ.t.toNat * 2 ^ 32 + τ.i.toNat

theorem seen_iff (last new : Timestamp) : seen last new = true ↔ new.toNat ≤ last.toNat := by
  have h := last.i.toNat_lt
  have h' := new.i.toNat_lt
  simp only [seen, decide_eq_true_eq, toNat, gt_iff_lt, ge_iff_le, UInt32.lt_iff_toNat_lt,
    UInt32.le_iff_toNat_le, ← UInt32.toNat_inj]
  omega

theorem isZero_iff (τ : Timestamp) : τ.isZero = true ↔ τ.toNat = 0 := by
  have h := τ.i.toNat_lt
  simp only [isZero, decide_eq_true_eq, toNat, ← UInt32.toNat_inj, UInt32.toNat_zero]
  omega

theorem toNat_inj {τ τ' : Timestamp} (h : τ.toNat = τ'.toNat) : τ = τ' := by
  obtain ⟨t, i⟩ := τ
  obtain ⟨t', i'⟩ := τ'
  have hi := i.toNat_lt
  have hi' := i'.toNat_lt
  simp only [toNat] at h
  have ht : t = t' := UInt32.toNat_inj.1 (by omega)
  have hii : i = i' := UInt32.toNat_inj.1 (by omega)
  rw [ht, hii]

end Timestamp

inductive OperationType where
  | insert
  | update
  | delete
  deriving DecidableEq

/-- An entry of the log of call events; a delete has no full document, and one that is malformed
does not unmarshal. -/
structure CallEvent where
  clusterTime : Timestamp
  fullDocument : Option MongoCall
  operationType : OperationType := .insert
  malformed : Bool := false
  deriving DecidableEq

/-- The `$match` stage of a change stream of the operator. -/
def isMatch (operatorID : String) (hosts : List String) (e : CallEvent) : Bool :=
  e.fullDocument.any fun d =>
    d.callerOperatorID = operatorID ∨ d.answererOperatorID = operatorID ∨ d.host ∈ hosts

/-- Where a stream is told to begin; a resume token is the position in the log after which it
resumes. -/
structure StreamOpts where
  startAtOperationTime : Option Timestamp := none
  startAfter : Option Nat := none
  deriving DecidableEq

/-- A change stream: hosts, options, and the positions of its start and of its events. -/
structure Stream where
  hosts : List String
  opts : StreamOpts
  start : Nat
  pos : Nat
  deriving DecidableEq

/-- Where the `changeStreamManager` stands in an iteration. -/
inductive ManagerPc where
  | idle
  | snapshot
  | watch (hosts : List String) (readyFuncs : List Nat) (opts : StreamOpts)
  | readying (readyFuncs : List Nat) (cs : Stream)
  | replace (cs : Stream)
  | background (cs : Stream)
  | update (cs : Stream) (resumeToken : Nat) (clusterTime : Timestamp)
  deriving DecidableEq

/-- Where the manager stands: `starting` is before the first stream of all, and an event that is
`dispatching` has been accepted. -/
inductive SubscriptionPc where
  | starting
  | running
  | dispatching (j : Nat) (e : CallEvent)
  | waiting
  deriving DecidableEq

inductive SubscriberPc where
  | bump
  | waiting
  | returned
  | gone
  deriving DecidableEq

structure Subscriber where
  hosts : List String
  pc : SubscriberPc
  ready : Bool := false
  deriving DecidableEq

structure StreamState where
  csManagerSeq : Nat := 0
  csLastEventClusterTime : Timestamp := {}
  csLastResumeToken : Option Nat := none
  csTrackingHosts : List String := []
  csAnswerersWaitingForNextCS : List Nat := []
  subscribers : List Subscriber := []
  callExchangeSubs : List String := []
  lastSeq : Option Nat := none
  watched : Bool := false
  manager : ManagerPc := .idle
  subscription : SubscriptionPc := .starting
  currentCS : Option Stream := none
  log : List CallEvent := []
  dispatched : List Nat := []

inductive StreamAct where
  | event (e : CallEvent)
  | tick
  | snapshot
  | watch (ok : Bool)
  | ready
  | replace
  | background (event : Bool) (resumeToken : Nat)
  | update
  | next
  | dispatch
  | fail
  | invalidate (resumeToken : Option Nat)
  | subscribe (hosts : List String)
  | bump (i : Nat)
  | returns (i : Nat)
  | unsubscribe (i : Nat)
  | subscribeToCall (callID : String)
  | leaveCall (callID : String)
  deriving DecidableEq

namespace StreamState

def waitingHosts (s : StreamState) : List String :=
  (s.subscribers.filter fun x => x.pc ≠ .gone).flatMap Subscriber.hosts

def nextEvent (operatorID : String) (s : StreamState) (cs : Stream) : Option Nat :=
  (List.range s.log.length).find? fun j =>
    decide (cs.pos ≤ j) && s.log[j]?.any (isMatch operatorID cs.hosts)

def quietUntil (operatorID : String) (s : StreamState) (cs : Stream) (n : Nat) : Bool :=
  decide (cs.pos ≤ n ∧ n ≤ s.log.length) &&
    (List.range n).all fun j => decide (j < cs.pos) || !s.log[j]?.any (isMatch operatorID cs.hosts)

def startOf (s : StreamState) (opts : StreamOpts) : Nat :=
  match opts.startAtOperationTime, opts.startAfter with
  | some τ, _ => s.log.findIdx fun e => τ.toNat ≤ e.clusterTime.toNat
  | none, some n => n
  | none, none => s.log.length

def processClusterEventState (s : StreamState) (newResumeToken : Option Nat)
    (newClusterTime : Timestamp) : Bool × StreamState :=
  if newClusterTime.isZero = false then
    if s.csLastEventClusterTime.seen newClusterTime then (false, s)
    else (true, { s with csLastEventClusterTime := newClusterTime, csLastResumeToken := none })
  else match newResumeToken with
    | some n => (true, { s with csLastResumeToken := some n, csLastEventClusterTime := {} })
    | none => (true, s)

def csOpts (s : StreamState) : StreamOpts where
  startAfter := s.csLastResumeToken
  startAtOperationTime :=
    if s.csLastEventClusterTime.isZero then none else some s.csLastEventClusterTime

def receiveState (s : StreamState) (resumeToken : Nat) (clusterTime : Timestamp) :
    Option StreamState :=
  match s.subscription with
  | .starting => some { (s.processClusterEventState (some resumeToken) clusterTime).2 with
      subscription := .running }
  | .running | .waiting => some { s with subscription := .running }
  | .dispatching _ _ => none

def changeStreamManager (operatorID : String) (s : StreamState) :
    ManagerPc → StreamAct → Option StreamState
  | .idle, .tick =>
    if s.lastSeq = some s.csManagerSeq then some s
    else some { s with lastSeq := some s.csManagerSeq, watched := false, manager := .snapshot }
  | .snapshot, .snapshot => some { s with
      manager := .watch s.waitingHosts s.csAnswerersWaitingForNextCS s.csOpts
      csAnswerersWaitingForNextCS := [] }
  | .watch hosts readyFuncs opts, .watch ok =>
    if ok then
      some { s with manager := .readying readyFuncs ⟨hosts, opts, s.startOf opts, s.startOf opts⟩ }
    else some { s with csManagerSeq := s.csManagerSeq + 1, manager := .idle }
  | .readying (k :: readyFuncs) cs, .ready => some { s with
      subscribers := s.subscribers.modify k fun x => { x with ready := true }
      manager := .readying readyFuncs cs }
  | .readying [] cs, .ready => some { s with manager := .replace cs }
  | .replace cs, .replace =>
    some { s with csTrackingHosts := cs.hosts, manager := .background cs }
  | .background cs, .background event resumeToken =>
    if event then
      match s.nextEvent operatorID cs with
      | some j => s.log[j]?.map fun e => { s with manager := .update cs (j + 1) e.clusterTime }
      | none => none
    else if s.quietUntil operatorID cs resumeToken then
      some { s with manager := .update cs resumeToken {} }
    else none
  -- The rendezvous on `csStateUpdates`.
  | .update cs resumeToken clusterTime, .update =>
    let s := { s with manager := .idle, watched := true, currentCS := some cs }
    s.receiveState resumeToken clusterTime
  | _, _ => none

/-- `processNextSubscriptionEvent` on the entry `j` of the log, up to its second lock. -/
def processNext (s : StreamState) (cs : Stream) (j : Nat) (e : CallEvent) : StreamState :=
  let s := { s with currentCS := some { cs with pos := j + 1 } }
  match s.processClusterEventState (some (j + 1)) e.clusterTime with
  | (true, s) => { s with subscription := .dispatching j e }
  | (false, s) => s

/-- There is a handler that the event is sent to. -/
def offers (s : StreamState) (e : CallEvent) : Bool :=
  !e.malformed && e.fullDocument.any fun d => decide (d.host ≠ "") &&
    match e.operationType with
    | .insert => decide (d.host ∈ s.csTrackingHosts ∧ d.host ∈ s.waitingHosts)
    | .update | .delete => decide (d.id ∈ s.callExchangeSubs)

end StreamState

open StreamState in
def streamStep (operatorID : String) (s : StreamState) : StreamAct → Option StreamState
  | .event e =>
    if e.clusterTime.isZero = false ∧ ∀ e' ∈ s.log, e'.clusterTime.toNat < e.clusterTime.toNat then
      some { s with log := s.log ++ [e] }
    else none
  | .next =>
    if s.subscription = .running then
      s.currentCS.bind fun cs => (s.nextEvent operatorID cs).bind fun j =>
        s.log[j]?.map (s.processNext cs j)
    else none
  | .dispatch =>
    match s.subscription with
    | .dispatching j e => some { s with
        subscription := .running
        dispatched := if s.offers e then s.dispatched ++ [j] else s.dispatched }
    | _ => none
  -- An error of the stream, or its channel is closed.
  | .fail =>
    if s.subscription = .running then
      some { s with csManagerSeq := s.csManagerSeq + 1, subscription := .waiting }
    else none
  | .invalidate resumeToken =>
    if s.subscription = .running ∧ ∀ cs ∈ s.currentCS, ∀ n ∈ resumeToken,
        s.quietUntil operatorID cs n = true then
      let s := (s.processClusterEventState resumeToken {}).2
      some { s with csManagerSeq := s.csManagerSeq + 1, subscription := .waiting }
    else none
  | .subscribe hosts =>
    if ∀ h ∈ hosts, h ∈ s.csTrackingHosts then
      some { s with subscribers := s.subscribers ++ [{ hosts, pc := .returned }] }
    else some { s with
      subscribers := s.subscribers ++ [{ hosts, pc := .bump }]
      csAnswerersWaitingForNextCS := s.csAnswerersWaitingForNextCS ++ [s.subscribers.length] }
  | .bump i => s.subscribers[i]?.bind fun x =>
      if x.pc = .bump then
        some { s with
          csManagerSeq := s.csManagerSeq + 1
          subscribers := s.subscribers.set i { x with pc := .waiting } }
      else none
  | .returns i => s.subscribers[i]?.bind fun x =>
      if x.pc = .waiting ∧ x.ready = true then
        some { s with subscribers := s.subscribers.set i { x with pc := .returned } }
      else none
  -- The context is done, or the answerer unsubscribes.
  | .unsubscribe i => s.subscribers[i]?.bind fun x =>
      if x.pc = .waiting ∨ x.pc = .returned then
        some { s with subscribers := s.subscribers.set i { x with pc := .gone } }
      else none
  | .subscribeToCall callID => some { s with callExchangeSubs := callID :: s.callExchangeSubs }
  | .leaveCall callID => some { s with callExchangeSubs := s.callExchangeSubs.erase callID }
  | a => s.changeStreamManager operatorID s.manager a

def streamMachine (operatorID : String) : Machine StreamState StreamAct where
  init s := s = {}
  step := streamStep operatorID

variable {s s' : StreamState}

section
variable (operatorID : String)

inductive StreamStep (s : StreamState) : StreamAct → StreamState → Prop where
  | event : e.clusterTime.isZero = false →
      (∀ e' ∈ s.log, e'.clusterTime.toNat < e.clusterTime.toNat) →
      StreamStep s (.event e) { s with log := s.log ++ [e] }
  | tickSame : s.manager = .idle → StreamStep s .tick s
  | tick : s.manager = .idle → StreamStep s .tick
      { s with lastSeq := some s.csManagerSeq, watched := false, manager := .snapshot }
  | snapshot : s.manager = .snapshot → StreamStep s .snapshot { s with
      manager := .watch s.waitingHosts s.csAnswerersWaitingForNextCS s.csOpts
      csAnswerersWaitingForNextCS := [] }
  | watch : s.manager = .watch hosts readyFuncs opts → StreamStep s (.watch true)
      { s with manager := .readying readyFuncs ⟨hosts, opts, s.startOf opts, s.startOf opts⟩ }
  | watchFails : s.manager = .watch hosts readyFuncs opts → StreamStep s (.watch false)
      { s with csManagerSeq := s.csManagerSeq + 1, manager := .idle }
  | ready : s.manager = .readying (k :: readyFuncs) cs → StreamStep s .ready { s with
      subscribers := s.subscribers.modify k fun x => { x with ready := true }
      manager := .readying readyFuncs cs }
  | readied : s.manager = .readying [] cs → StreamStep s .ready { s with manager := .replace cs }
  | replace : s.manager = .replace cs → StreamStep s .replace
      { s with csTrackingHosts := cs.hosts, manager := .background cs }
  | background : s.manager = .background cs → resumeToken ≤ s.log.length →
      StreamStep s (.background event n) { s with manager := .update cs resumeToken clusterTime }
  | start : s.manager = .update cs resumeToken clusterTime → s.subscription = .starting →
      s₁ = { s with manager := .idle, watched := true, currentCS := some cs } →
      StreamStep s .update { (s₁.processClusterEventState (some resumeToken) clusterTime).2 with
        subscription := .running }
  | swap : s.manager = .update cs resumeToken clusterTime →
      s.subscription = .running ∨ s.subscription = .waiting →
      StreamStep s .update { s with
        manager := .idle, watched := true, currentCS := some cs, subscription := .running }
  | next : s.currentCS = some cs → s.subscription = .running →
      s.nextEvent operatorID cs = some j → s.log[j]? = some e →
      StreamStep s .next (s.processNext cs j e)
  | dispatch : s.subscription = .dispatching j e → StreamStep s .dispatch { s with
      subscription := .running
      dispatched := if s.offers e then s.dispatched ++ [j] else s.dispatched }
  | fail : s.subscription = .running → StreamStep s .fail
      { s with csManagerSeq := s.csManagerSeq + 1, subscription := .waiting }
  | invalidate : s.subscription = .running →
      s₁ = (s.processClusterEventState resumeToken {}).2 →
      StreamStep s (.invalidate resumeToken)
        { s₁ with csManagerSeq := s₁.csManagerSeq + 1, subscription := .waiting }
  | subscribed : (∀ h ∈ hosts, h ∈ s.csTrackingHosts) → StreamStep s (.subscribe hosts)
      { s with subscribers := s.subscribers ++ [{ hosts, pc := .returned }] }
  | subscribe : StreamStep s (.subscribe hosts) { s with
      subscribers := s.subscribers ++ [{ hosts, pc := .bump }]
      csAnswerersWaitingForNextCS := s.csAnswerersWaitingForNextCS ++ [s.subscribers.length] }
  | bump : s.subscribers[i]? = some x → x.pc = .bump → StreamStep s (.bump i) { s with
      csManagerSeq := s.csManagerSeq + 1
      subscribers := s.subscribers.set i { x with pc := .waiting } }
  | returns : s.subscribers[i]? = some x → x.pc = .waiting → x.ready = true →
      StreamStep s (.returns i)
        { s with subscribers := s.subscribers.set i { x with pc := .returned } }
  | unsubscribe : s.subscribers[i]? = some x →
      StreamStep s (.unsubscribe i)
        { s with subscribers := s.subscribers.set i { x with pc := .gone } }
  | subscribeToCall : StreamStep s (.subscribeToCall callID) { s with callExchangeSubs := callIDs }
  | leaveCall : StreamStep s (.leaveCall callID) { s with callExchangeSubs := callIDs }

variable {operatorID}

theorem nextEvent_some {cs : Stream} (h : s.nextEvent operatorID cs = some j) :
    cs.pos ≤ j ∧ j < s.log.length ∧ (∃ e, s.log[j]? = some e ∧ isMatch operatorID cs.hosts e) ∧
      ∀ (k : Nat) e, cs.pos ≤ k → k < j → s.log[k]? = some e →
        isMatch operatorID cs.hosts e = false := by
  obtain ⟨hp, hj, hbefore⟩ := List.find?_range_eq_some.1 h
  simp only [Bool.and_eq_true, decide_eq_true_eq, Option.any_eq_true] at hp
  refine ⟨hp.1, List.mem_range.1 hj, hp.2, fun k e hk hkj he => ?_⟩
  have hk' := hbefore k hkj
  simpa only [hk, he, decide_true, Bool.true_and, Option.any_some, Bool.not_eq_true'] using hk'

theorem changeStreamManager_step (h : s.changeStreamManager operatorID s.manager a = some s') :
    StreamStep operatorID s a s' := by
  generalize hpc : s.manager = pc at h
  unfold StreamState.changeStreamManager at h
  split at h
  · split at h <;> cases h
    · exact .tickSame hpc
    · exact .tick hpc
  · cases h
    exact .snapshot hpc
  · split at h
    · rename_i hok
      cases h
      subst hok
      exact .watch hpc
    · rename_i hok
      cases h
      rw [Bool.not_eq_true] at hok
      subst hok
      exact .watchFails hpc
  · cases h
    exact .ready hpc
  · cases h
    exact .readied hpc
  · cases h
    exact .replace hpc
  · split at h
    · split at h
      · rename_i j hj
        obtain ⟨e, he, rfl⟩ := Option.map_eq_some_iff.1 h
        exact .background hpc (nextEvent_some hj).2.1
      · cases h
    · split at h
      · rename_i hquiet
        cases h
        rw [StreamState.quietUntil, Bool.and_eq_true, decide_eq_true_eq] at hquiet
        exact .background hpc hquiet.1.2
      · cases h
  · simp only [StreamState.receiveState] at h
    split at h <;> cases h
    · exact .start hpc ‹_› rfl
    · exact .swap hpc (.inl ‹_›)
    · exact .swap hpc (.inr ‹_›)
  · cases h

theorem streamStep_step (h : streamStep operatorID s a = some s') :
    StreamStep operatorID s a s' := by
  cases a with
  | event e =>
    simp only [streamStep] at h
    split at h
    · rename_i he
      cases h
      exact .event he.1 he.2
    · cases h
  | next =>
    simp only [streamStep] at h
    split at h
    · rename_i hrun
      obtain ⟨cs, hcs, h⟩ := Option.bind_eq_some_iff.1 h
      obtain ⟨j, hj, h⟩ := Option.bind_eq_some_iff.1 h
      obtain ⟨e, he, rfl⟩ := Option.map_eq_some_iff.1 h
      exact .next hcs hrun hj he
    · cases h
  | dispatch =>
    simp only [streamStep] at h
    split at h <;> cases h
    exact .dispatch ‹_›
  | fail =>
    simp only [streamStep] at h
    split at h
    · cases h
      exact .fail ‹_›
    · cases h
  | invalidate resumeToken =>
    simp only [streamStep] at h
    split at h
    · rename_i hrun
      cases h
      exact .invalidate hrun.1 rfl
    · cases h
  | subscribe hosts =>
    simp only [streamStep] at h
    split at h <;> cases h
    · exact .subscribed ‹_›
    · exact .subscribe
  | bump i =>
    obtain ⟨x, hx, h⟩ := Option.bind_eq_some_iff.1 h
    split at h
    · cases h
      exact .bump hx ‹_›
    · cases h
  | returns i =>
    obtain ⟨x, hx, h⟩ := Option.bind_eq_some_iff.1 h
    split at h
    · rename_i hpc
      cases h
      exact .returns hx hpc.1 hpc.2
    · cases h
  | unsubscribe i =>
    obtain ⟨x, hx, h⟩ := Option.bind_eq_some_iff.1 h
    split at h
    · cases h
      exact .unsubscribe hx
    · cases h
  | subscribeToCall =>
    cases h
    exact .subscribeToCall
  | leaveCall =>
    cases h
    exact .leaveCall
  | _ => exact changeStreamManager_step h

end

def ManagerPc.pendingHosts : ManagerPc → Option (List String)
  | .watch hosts _ _ => some hosts
  | .readying _ cs | .replace cs => some cs.hosts
  | _ => none

def ManagerPc.readyFuncs : ManagerPc → List Nat
  | .watch _ readyFuncs _ | .readying readyFuncs _ => readyFuncs
  | _ => []

def ManagerPc.granting : ManagerPc → Bool
  | .readying .. | .replace _ => true
  | _ => false

def ManagerPc.tracking : ManagerPc → Option Stream
  | .background cs | .update cs _ _ => some cs
  | _ => none

def Subscriber.Granted (x : Subscriber) : Prop := x.pc ≠ .gone ∧ (x.pc = .returned ∨ x.ready = true)

namespace StreamState

structure Tracked (s : StreamState) : Prop where
  window : ∀ H, s.manager.pendingHosts = some H → ∀ (i : Nat) x, s.subscribers[i]? = some x →
    x.Granted → ∀ h ∈ x.hosts, h ∈ H
  funcs : ∀ H, s.manager.pendingHosts = some H → ∀ i ∈ s.manager.readyFuncs, ∀ x,
    s.subscribers[i]? = some x → x.pc ≠ .gone → ∀ h ∈ x.hosts, h ∈ H
  range : ∀ i ∈ s.manager.readyFuncs ++ s.csAnswerersWaitingForNextCS, i < s.subscribers.length
  tracked : s.manager.granting = false → ∀ (i : Nat) x, s.subscribers[i]? = some x →
    x.Granted → ∀ h ∈ x.hosts, h ∈ s.csTrackingHosts
  opened : ∀ cs, s.manager.tracking = some cs → cs.hosts = s.csTrackingHosts
  current : s.manager.tracking = none → ∀ cs, s.currentCS = some cs → cs.hosts = s.csTrackingHosts
  watched : s.watched = true → s.currentCS.isSome = true

theorem mem_waitingHosts {x : Subscriber} {i : Nat} (hx : s.subscribers[i]? = some x)
    (hpc : x.pc ≠ .gone) (hh : h ∈ x.hosts) : h ∈ s.waitingHosts := by
  refine List.mem_flatMap.2 ⟨x, List.mem_filter.2 ⟨List.mem_of_getElem? hx, ?_⟩, hh⟩
  exact decide_eq_true hpc

namespace Tracked
variable {s : StreamState}

theorem init : Tracked {} where
  window _ hH := by cases hH
  funcs _ hH := by cases hH
  range _ hi := by cases hi
  tracked _ _ _ hx := by cases hx
  opened _ hcs := by cases hcs
  current _ _ hcs := by cases hcs
  watched hw := by cases hw

theorem move (ht : s.Tracked) (hx : s.subscribers[i]? = some x) (hhosts : x'.hosts = x.hosts)
    (hg : x'.Granted → x.Granted) (hgone : x.pc = .gone → x'.pc = .gone) :
    Tracked { s with subscribers := s.subscribers.set i x', csManagerSeq := n } := by
  have hold : ∀ (j : Nat) y, (s.subscribers.set i x')[j]? = some y →
      ∃ y₀, s.subscribers[j]? = some y₀ ∧ y.hosts = y₀.hosts ∧ (y.Granted → y₀.Granted) ∧
        (y₀.pc = .gone → y.pc = .gone) := by
    intro j y hy
    rcases getElem?_set_cases hy with ⟨rfl, rfl⟩ | ⟨-, hy⟩
    · exact ⟨x, hx, hhosts, hg, hgone⟩
    · exact ⟨y, hy, rfl, fun h => h, fun h => h⟩
  refine ⟨fun H hH j y hy hgr => ?_, fun H hH j hj y hy hpc => ?_, fun j hj => ?_,
    fun hgr j y hy hg => ?_, ht.opened, ht.current, ht.watched⟩
  · obtain ⟨y₀, hy₀, hh, hg₀, -⟩ := hold j y hy
    rw [hh]
    exact ht.window H hH j y₀ hy₀ (hg₀ hgr)
  · obtain ⟨y₀, hy₀, hh, -, hgone₀⟩ := hold j y hy
    rw [hh]
    exact ht.funcs H hH j hj y₀ hy₀ fun h => hpc (hgone₀ h)
  · rw [List.length_set]
    exact ht.range j hj
  · obtain ⟨y₀, hy₀, hh, hg₀, -⟩ := hold j y hy
    rw [hh]
    exact ht.tracked hgr j y₀ hy₀ (hg₀ hg)

/-- The manager moves to where no snapshot of hosts is pending. -/
theorem settle (ht : s.Tracked) (hpending : s'.manager.pendingHosts = none)
    (hready : s'.manager.readyFuncs = [])
    (htracked : ∀ (i : Nat) x, s.subscribers[i]? = some x →
      x.Granted → ∀ h ∈ x.hosts, h ∈ s'.csTrackingHosts)
    (hstream : ∀ cs, s'.manager.tracking.or s'.currentCS = some cs → cs.hosts = s'.csTrackingHosts)
    (hwatched : s'.watched = true → s'.currentCS.isSome = true)
    (hsubs : s'.subscribers = s.subscribers := by rfl)
    (hwaiting : s'.csAnswerersWaitingForNextCS = s.csAnswerersWaitingForNextCS := by rfl) :
    s'.Tracked := by
  refine ⟨fun H hH => ?_, fun H hH => ?_, fun j hj => ?_, fun _ => ?_,
    fun cs hcs => hstream cs (by rw [hcs]; rfl), fun hnone => ?_, hwatched⟩
  · simp [hpending] at hH
  · simp [hpending] at hH
  · rw [hready, hwaiting] at hj
    rw [hsubs]
    exact ht.range j (List.mem_append_right _ hj)
  · rw [hsubs]
    exact htracked
  · rw [hnone] at hstream
    exact hstream

theorem append (ht : s.Tracked) (x : Subscriber) (hw : ∀ k ∈ waiting, k < s.subscribers.length + 1)
    (hg : x.Granted → (∀ h ∈ x.hosts, h ∈ s.csTrackingHosts) ∧
      ∀ H, s.manager.pendingHosts = some H → ∀ h ∈ x.hosts, h ∈ H) :
    Tracked { s with
      subscribers := s.subscribers ++ [x], csAnswerersWaitingForNextCS := waiting } := by
  refine ⟨fun H hH j y hy hgr => ?_, fun H hH j hj y hy hpc => ?_, fun j hj => ?_,
    fun hgr j y hy hyg => ?_, ht.opened, ht.current, ht.watched⟩
  · rcases getElem?_concat_cases hy with hy | ⟨-, rfl⟩
    · exact ht.window H hH j y hy hgr
    · exact (hg hgr).2 H hH
  · have hlt := ht.range j (List.mem_append_left _ hj)
    rcases getElem?_concat_cases hy with hy | ⟨rfl, -⟩
    · exact ht.funcs H hH j hj y hy hpc
    · exact absurd hlt (lt_irrefl _)
  · rw [List.length_append, List.length_singleton]
    rcases List.mem_append.1 hj with hj | hj
    · exact Nat.lt_succ_of_lt (ht.range j (List.mem_append_left _ hj))
    · exact hw j hj
  · rcases getElem?_concat_cases hy with hy | ⟨-, rfl⟩
    · exact ht.tracked hgr j y hy hyg
    · exact (hg hyg).1

end Tracked

end StreamState

/-- A subscriber on the fast path has its hosts in the manager's snapshot. -/
def FastPathTracked (s : StreamState) : StreamAct → Prop
  | .subscribe hosts => (∀ h ∈ hosts, h ∈ s.csTrackingHosts) →
      ∀ H ∈ s.manager.pendingHosts, ∀ h ∈ hosts, h ∈ H
  | _ => True

instance (s : StreamState) (a : StreamAct) : Decidable (FastPathTracked s a) := by
  unfold FastPathTracked
  split
  · infer_instance
  · infer_instance

namespace StreamState

theorem processClusterEventState_eq (s : StreamState) (n : Option Nat) (τ : Timestamp) :
    ∃ w m, (s.processClusterEventState n τ).2 =
      { s with csLastEventClusterTime := w, csLastResumeToken := m } := by
  unfold processClusterEventState
  split
  · split
    · exact ⟨_, _, rfl⟩
    · exact ⟨_, _, rfl⟩
  · split
    · exact ⟨_, _, rfl⟩
    · exact ⟨_, _, rfl⟩

theorem processNext_seen {e : CallEvent} (hz : e.clusterTime.isZero = false)
    (h : s.csLastEventClusterTime.seen e.clusterTime = true) (cs : Stream) (j : Nat) :
    s.processNext cs j e = { s with currentCS := some { cs with pos := j + 1 } } := by
  simp only [processNext, processClusterEventState, hz, h, ↓reduceIte]

theorem processNext_new {e : CallEvent} (hz : e.clusterTime.isZero = false)
    (h : s.csLastEventClusterTime.seen e.clusterTime = false) (cs : Stream) (j : Nat) :
    s.processNext cs j e = { s with
      currentCS := some { cs with pos := j + 1 }
      csLastEventClusterTime := e.clusterTime
      csLastResumeToken := none
      subscription := .dispatching j e } := by
  simp only [processNext, processClusterEventState, hz, h, Bool.false_eq_true, ↓reduceIte]

theorem processNext_eq (s : StreamState) (cs : Stream) (j : Nat) (e : CallEvent) :
    ∃ w m pc, s.processNext cs j e = { s with
      csLastEventClusterTime := w, csLastResumeToken := m, subscription := pc
      currentCS := some { cs with pos := j + 1 } } := by
  cases hz : e.clusterTime.isZero with
  | true =>
    simp only [processNext, processClusterEventState, hz, Bool.true_eq_false, ↓reduceIte]
    exact ⟨_, _, _, rfl⟩
  | false =>
    cases h : s.csLastEventClusterTime.seen e.clusterTime with
    | true => exact ⟨_, _, _, processNext_seen hz h cs j⟩
    | false => exact ⟨_, _, _, processNext_new hz h cs j⟩

namespace Tracked
variable {s : StreamState}

theorem step (ht : s.Tracked) (hok : FastPathTracked s a) (h : StreamStep operatorID s a s') :
    s'.Tracked := by
  cases h with
  | event => exact { ht with }
  | tickSame => exact ht
  | tick hpc =>
    have hpre := ht.tracked (by rw [hpc]; rfl)
    have hcur := ht.current (by rw [hpc]; rfl)
    exact ht.settle rfl rfl hpre hcur nofun
  | snapshot hpc =>
    have hpre := ht.tracked (by rw [hpc]; rfl)
    have hcur := ht.current (by rw [hpc]; rfl)
    refine ⟨fun H hH i x hx hg h hh => ?_, fun H hH i hi x hx hgone h hh => ?_, fun j hj => ?_,
      fun _ => hpre, fun _ => nofun, fun _ => hcur, ht.watched⟩
    · cases hH
      exact mem_waitingHosts hx hg.1 hh
    · cases hH
      exact mem_waitingHosts hx hgone hh
    · simp only [ManagerPc.readyFuncs, List.append_nil] at hj
      exact ht.range j (List.mem_append_right _ hj)
  | watch hpc =>
    have hcur := ht.current (by rw [hpc]; rfl)
    refine ⟨fun H hH => ?_, fun H hH => ?_, fun j hj => ?_, nofun, fun _ => nofun, fun _ => hcur,
      ht.watched⟩
    · cases hH
      exact ht.window _ (by rw [hpc]; rfl)
    · cases hH
      have hfuncs := ht.funcs _ (by rw [hpc]; rfl)
      rw [hpc] at hfuncs
      exact hfuncs
    · refine ht.range j ?_
      rw [hpc]
      exact hj
  | watchFails hpc =>
    have hpre := ht.tracked (by rw [hpc]; rfl)
    have hcur := ht.current (by rw [hpc]; rfl)
    exact ht.settle rfl rfl hpre hcur ht.watched
  | @ready k readyFuncs cs hpc =>
    have hcur := ht.current (by rw [hpc]; rfl)
    have hwin := ht.window cs.hosts (by rw [hpc]; rfl)
    have hfuncs := ht.funcs cs.hosts (by rw [hpc]; rfl)
    have hrange := ht.range
    rw [hpc] at hfuncs hrange
    refine ⟨fun H hH i x hx hg => ?_, fun H hH i hi x hx hgone => ?_, fun j hj => ?_, nofun,
      fun _ => nofun, fun _ => hcur, ht.watched⟩
    · cases hH
      rcases getElem?_modify_cases hx with ⟨rfl, y, hy, rfl⟩ | ⟨-, hx⟩
      · exact hfuncs i List.mem_cons_self y hy hg.1
      · exact hwin i x hx hg
    · cases hH
      have hi' := List.mem_cons_of_mem k hi
      rcases getElem?_modify_cases hx with ⟨rfl, y, hy, rfl⟩ | ⟨-, hx⟩
      · exact hfuncs i hi' y hy hgone
      · exact hfuncs i hi' x hx hgone
    · rw [List.length_modify]
      exact hrange j (List.mem_cons_of_mem k hj)
  | @readied cs hpc =>
    have hcur := ht.current (by rw [hpc]; rfl)
    have hwin := ht.window cs.hosts (by rw [hpc]; rfl)
    refine ⟨fun H hH => ?_, fun _ => nofun, fun j hj => ?_, nofun, fun _ => nofun, fun _ => hcur,
      ht.watched⟩
    · cases hH
      exact hwin
    · exact ht.range j (List.mem_append_right _ hj)
  | @replace cs hpc =>
    have hwin := ht.window cs.hosts (by rw [hpc]; rfl)
    refine ht.settle rfl rfl hwin (fun cs' hcs' => ?_) ht.watched
    cases hcs'
    rfl
  | @background cs _ _ _ _ hpc =>
    have hpre := ht.tracked (by rw [hpc]; rfl)
    have hopen := ht.opened cs (by rw [hpc]; rfl)
    refine ht.settle rfl rfl hpre (fun cs' hcs' => ?_) ht.watched
    cases hcs'
    exact hopen
  | @start cs resumeToken clusterTime s₁ hpc hsub hs₁ =>
    have hpre := ht.tracked (by rw [hpc]; rfl)
    have hopen := ht.opened cs (by rw [hpc]; rfl)
    obtain ⟨w, m, heq⟩ := s₁.processClusterEventState_eq (some resumeToken) clusterTime
    rw [heq, hs₁]
    refine ht.settle rfl rfl hpre (fun cs' hcs' => ?_) fun _ => rfl
    cases hcs'
    exact hopen
  | @swap cs _ _ hpc =>
    have hpre := ht.tracked (by rw [hpc]; rfl)
    have hopen := ht.opened cs (by rw [hpc]; rfl)
    refine ht.settle rfl rfl hpre (fun cs' hcs' => ?_) fun _ => rfl
    cases hcs'
    exact hopen
  | @next cs j e hcs hrun hj he =>
    obtain ⟨w, m, pc, heq⟩ := s.processNext_eq cs j e
    rw [heq]
    refine { ht with current := fun hm cs' hcs' => ?_, watched := fun _ => rfl }
    cases hcs'
    exact ht.current hm cs hcs
  | dispatch | fail | subscribeToCall | leaveCall =>
    exact { ht with }
  | @invalidate s₁ resumeToken hrun hs₁ =>
    obtain ⟨w, m, heq⟩ := s.processClusterEventState_eq resumeToken {}
    rw [hs₁, heq]
    exact { ht with }
  | subscribed htr =>
    refine ht.append _ (fun k hk => ?_) fun _ => ⟨htr, fun H hH => hok htr H hH⟩
    exact Nat.lt_succ_of_lt (ht.range k (List.mem_append_right _ hk))
  | subscribe =>
    refine ht.append _ (fun k hk => ?_) fun hg => ?_
    · rcases List.mem_append.1 hk with hk | hk
      · exact Nat.lt_succ_of_lt (ht.range k (List.mem_append_right _ hk))
      · rw [List.mem_singleton.1 hk]
        exact Nat.lt_succ_self _
    · rcases hg.2 with hpc | hready
      · cases hpc
      · cases hready
  | bump hx hpc =>
    refine ht.move hx rfl (fun hg => ?_) fun hgone => ?_
    · refine ⟨by rw [hpc]; nofun, .inr ?_⟩
      rcases hg.2 with hret | hready
      · cases hret
      · exact hready
    · rw [hpc] at hgone
      cases hgone
  | returns hx hpc hready =>
    refine ht.move hx rfl (fun _ => ⟨by rw [hpc]; nofun, .inr hready⟩) fun hgone => ?_
    rw [hpc] at hgone
    cases hgone
  | unsubscribe hx => exact ht.move hx rfl (fun hg => absurd rfl hg.1) fun _ => rfl

end Tracked

/-- The manager waits for its ticker, has handled the present sequence number, and its last
`Watch` succeeded. -/
def Idle (s : StreamState) : Prop :=
  s.manager = .idle ∧ s.lastSeq = some s.csManagerSeq ∧ s.watched = true

end StreamState

/-- An idle manager tracks the hosts of all subscribers that have returned, with the current
stream. -/
theorem subscribers_tracked {s : StreamState}
    (h : (streamMachine operatorID).ReachableWith FastPathTracked s) (hidle : s.Idle) :
    ∃ cs, s.currentCS = some cs ∧ cs.hosts = s.csTrackingHosts ∧
      ∀ (i : Nat) x, s.subscribers[i]? = some x → x.pc = .returned →
        ∀ h ∈ x.hosts, h ∈ s.csTrackingHosts := by
  have ht : s.Tracked := by
    refine h.invariant (fun s hs => ?_) fun s a s' ht hok hstep => ?_
    · subst hs
      exact .init
    · exact ht.step hok (streamStep_step hstep)
  obtain ⟨hpc, -, hwatched⟩ := hidle
  obtain ⟨cs, hcs⟩ := Option.isSome_iff_exists.1 (ht.watched hwatched)
  refine ⟨cs, hcs, ht.current (by rw [hpc]; rfl) cs hcs, fun i x hx hret => ?_⟩
  exact ht.tracked (by rw [hpc]; rfl) i x hx ⟨by rw [hret]; nofun, .inl hret⟩

instance (s : StreamState) : Decidable s.Idle :=
  inferInstanceAs (Decidable (s.manager = .idle ∧ s.lastSeq = some s.csManagerSeq ∧
    s.watched = true))

def iteration (readyFuncs n : Nat) : List StreamAct :=
  List.flatten [[.tick, .snapshot, .watch true], List.replicate (readyFuncs + 1) .ready,
    [.replace, .background false n, .update]]

theorem subscribers_tracked_one : ∃ s : StreamState,
    (streamMachine "o").ReachableWith FastPathTracked s ∧ s.Idle ∧
    s.subscribers = [⟨["a"], .returned, true⟩] ∧
    ∃ cs, s.currentCS = some cs ∧ cs.hosts = s.csTrackingHosts ∧
      ∀ (i : Nat) x, s.subscribers[i]? = some x → x.pc = .returned →
        ∀ h ∈ x.hosts, h ∈ s.csTrackingHosts := by
  obtain ⟨s, hreach, hidle, hsubs⟩ : ∃ s : StreamState,
      (streamMachine "o").ReachableWith FastPathTracked s ∧ s.Idle ∧
      s.subscribers = [⟨["a"], .returned, true⟩] :=
    (streamMachine "o").exists_reachableWith FastPathTracked {}
      (List.flatten [iteration 0 0, [.subscribe ["a"], .bump 0], iteration 1 0, [.returns 0]]) rfl
      (by decide +kernel)
  exact ⟨s, hreach, hidle, hsubs, subscribers_tracked hreach hidle⟩

/-- One on "a" unsubscribes and one on "b" subscribes; another on "a" takes the fast path. -/
def resubscribeRun : List StreamAct :=
  List.flatten [iteration 0 0, [.subscribe ["a"], .bump 0], iteration 1 0,
    [.returns 0, .unsubscribe 0, .subscribe ["b"], .bump 1, .tick, .snapshot, .subscribe ["a"],
      .watch true, .ready, .ready, .replace, .background false 0, .update]]

theorem subscriber_untracked : ∃ (s : StreamState) (x : Subscriber),
    (streamMachine "o").Reachable s ∧ s.Idle ∧ s.subscribers[2]? = some x ∧ x.pc = .returned ∧
      "a" ∈ x.hosts ∧ s.csTrackingHosts = ["b"] := by
  let x : Subscriber := { hosts := ["a"], pc := .returned }
  obtain ⟨s, hr, hp⟩ : ∃ s : StreamState, (streamMachine "o").Reachable s ∧ s.Idle ∧
      s.subscribers[2]? = some x ∧ x.pc = .returned ∧ "a" ∈ x.hosts ∧ s.csTrackingHosts = ["b"] :=
    (streamMachine "o").exists_reachable {} resubscribeRun rfl (by decide +kernel)
  exact ⟨s, x, hr, hp⟩

end Goutils.CallQueue
