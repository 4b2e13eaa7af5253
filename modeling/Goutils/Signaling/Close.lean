import Goutils.Lib.WorkGroup

namespace Goutils.Signaling
open Lib
set_option autoImplicit true

/-- The components whose `Close` waits for their background goroutines, with `callWorkers` or
`activeBackgroundWorkers`. -/
inductive Component where
  | signalingServer
  | memoryQueue
  | mongoQueue
  deriving DecidableEq

/-- Where `Call`, `Answer` and the two queues start such goroutines. -/
inductive Site : Component → Type where
  | callError : Site .signalingServer
  | callerLoop : Site .signalingServer
  | expiry : Site .memoryQueue
  | offerExchange : Site .memoryQueue
  | operatorLiveness : Site .mongoQueue
  | changeStreams : Site .mongoQueue
  | subscriptions : Site .mongoQueue
  | sendOfferInit : Site .mongoQueue
  | recvOffer : Site .mongoQueue
  | setErr : Site .mongoQueue
  deriving DecidableEq

inductive BackgroundOp where
  | sendOfferError
  | callerLoop
  | sendCallerErr
  | closeCallerErrCh
  | expireOffers
  | stopTicker
  | offerExchange
  | operatorLivenessLoop
  | changeStreamManager
  | processClusterEventState
  | subscriptionManager
  | addCsManagerSeq
  | forwardAnswers
  | closeAnswererResponses
  | cleanup
  | forwardCaller
  | callerDoneCancel
  | updateCallsColl
  | cancelTimeout
  deriving DecidableEq

def Site.routine : Site c → Routine BackgroundOp
  | .callError => { body := [.sendOfferError], deferred := [.cancelTimeout], doneFirst := true }
  | .callerLoop => { body := [.callerLoop, .sendCallerErr], deferred := [.closeCallerErrCh] }
  | .expiry => { body := [.expireOffers], onComplete := [.stopTicker], managed := true }
  | .offerExchange => { body := [.offerExchange], doneFirst := true }
  | .operatorLiveness => { body := [.operatorLivenessLoop], managed := true }
  | .changeStreams => { body := [.changeStreamManager], managed := true }
  | .subscriptions =>
    { body := [.processClusterEventState, .subscriptionManager]
      deferred := [.addCsManagerSeq]
      managed := true }
  | .sendOfferInit => { body := [.forwardAnswers], deferred := [.closeAnswererResponses, .cleanup] }
  | .recvOffer => { body := [.forwardCaller], deferred := [.cleanup, .callerDoneCancel] }
  | .setErr => { body := [.updateCallsColl], deferred := [.cancelTimeout], doneFirst := true }

/-- `setErr` is called by the goroutine of `RecvOffer`. -/
def Site.startedBy : Site c → Option (Site c × BackgroundOp)
  | .setErr => some (.recvOffer, .forwardCaller)
  | _ => none

def Component.initial : (c : Component) → List (Site c)
  | .signalingServer => []
  | .memoryQueue => [.expiry]
  | .mongoQueue => [.operatorLiveness, .changeStreams, .subscriptions]

/-- The server cancels and admits under `callMu`; the queues have no lock for it. -/
def Component.closing (c : Component) : GroupSpec (Site c) BackgroundOp where
  routine := Site.routine
  guarded := decide (c = .signalingServer)
  initial := c.initial
  startedBy := Site.startedBy

def closeMachine (c : Component) : Machine (Group (Site c) BackgroundOp) (GroupAct (Site c)) :=
  groupMachine c.closing

/-- In some run `Close` has returned, and `rest` is left of a goroutine of the place that was
counted before. -/
def LeftAfterClose (k : Site c) (rest : List (Stmt BackgroundOp)) : Prop :=
  ∃ g, (closeMachine c).Reachable g ∧ g.shut = .returned ∧
    ∃ w ∈ g.workers, w.site = k ∧ w.inTime = true ∧ w.rest = rest

theorem leftAfterClose_of_exec {k : Site c} (i : Nat) (as : List (GroupAct (Site c)))
    (h : ((closeMachine c).exec (.init c.closing) as).any (fun g =>
      decide (g.shut = .returned ∧ g.workers[i]? = some ⟨k, rest, true⟩)) = true) :
    LeftAfterClose k rest := by
  obtain ⟨g, hg, hp⟩ := exists_of_any h
  obtain ⟨hret, hw⟩ := of_decide_eq_true hp
  exact ⟨g, Machine.reachable_exec rfl hg, hret, _, List.mem_of_getElem? hw, rfl, rfl, rfl⟩

theorem callError_left :
    LeftAfterClose .callError [.op .sendOfferError, .op .cancelTimeout] :=
  leftAfterClose_of_exec 0
    [[.start .callError], List.replicate 5 (.enter 0), [.work 0], List.replicate 5 .close].flatten
    (by decide +kernel)

/-- The same with the exchange that `SendOfferInit` offers, and the goroutine for expired offers
finished. -/
theorem offerExchange_left : LeftAfterClose .offerExchange [.op .offerExchange] :=
  leftAfterClose_of_exec 1
    [.register .offerExchange, .work 1, .close, .close, .work 0, .work 0, .work 0, .close]
    (by decide +kernel)

/-- The goroutine of `RecvOffer` finds the queue cancelled, calls `setErr` and finishes as the
others do. -/
theorem setErr_left : LeftAfterClose .setErr [.op .updateCallsColl, .op .cancelTimeout] :=
  leftAfterClose_of_exec 4
    [[.register .recvOffer, .close, .close, .register .setErr, .work 4],
      List.replicate 4 (.work 3), List.replicate 2 (.work 0), List.replicate 2 (.work 1),
      List.replicate 4 (.work 2), [.close]].flatten
    (by decide +kernel)

/-- When `Close` has returned, the goroutines of a place that were counted before are finished in
every run just if they call `Done` at their end. -/
theorem close_waits_iff (k : Site c) :
    (∀ rest, LeftAfterClose k rest → rest = []) ↔ k.routine.doneFirst = false := by
  constructor
  · intro h
    cases k with
    | callError => cases h _ callError_left
    | offerExchange => cases h _ offerExchange_left
    | setErr => cases h _ setErr_left
    | callerLoop | expiry | operatorLiveness | changeStreams | subscriptions | sendOfferInit
    | recvOffer => rfl
  · rintro hlast rest ⟨g, hg, hret, w, hw, rfl, hin, rfl⟩
    exact (Group.inv hg).finished hret hw hin hlast

/-- After each `Close` a goroutine that was counted before is still in its body. -/
theorem close_leaves_running :
    LeftAfterClose .callError [.op .sendOfferError, .op .cancelTimeout] ∧
    LeftAfterClose .offerExchange [.op .offerExchange] ∧
    LeftAfterClose .setErr [.op .updateCallsColl, .op .cancelTimeout] :=
  ⟨callError_left, offerExchange_left, setErr_left⟩

end Goutils.Signaling
