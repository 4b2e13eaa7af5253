import Goutils.CallQueue.OfferFields
import Goutils.Signaling.Relay

namespace Goutils.Signaling
open Lib Rpc CallQueue
set_option autoImplicit true

structure ICEServer where
  urls : List String
  username : String
  credential : String
  deriving DecidableEq

/-- The stages of `webrtcpb.AnswerRequest`. -/
inductive AnswerRequestStage where
  | init (sdp : String) (additionalIceServers : List ICEServer) (disableTrickle : Bool)
      (deadline : Int)
  | update (candidate : ProtoICECandidate)
  | done
  | error (status : Option Status)

structure AnswerRequest where
  uuid : String
  stage : AnswerRequestStage

/-- The return statements of `Answer`; from `exchange` on both loops have been started. -/
inductive AnswerExit where
  | noHosts (err : GoErr)
  | invalidHosts (err : GoErr)
  | noOffer (err : GoErr)
  | iceServers (err : GoErr)
  | initNotSent (err : GoErr)
  | shuttingDown
  | exchange (loopErr : Option AnswerErr) (doneErr callerErr : Option GoErr)
  deriving DecidableEq

/-- Where `Answer` stands: before the exchange, in `answererLoop`, in deferred functions. -/
inductive AnswerMainPc where
  | hosts
  | validate
  | recvOffer
  | iceServers
  | sendInit (servers : List ICEServer)
  | addWorker
  | loop (pc : AnswerPc)
  | cancelOffer (loopErr : Option AnswerErr)
  | answererDone (loopErr : Option AnswerErr)
  | wait (loopErr : Option AnswerErr) (doneErr : Option GoErr)
  | clear (exit : AnswerExit)
  | returned (exit : AnswerExit)
  deriving DecidableEq

inductive CallerLoopPc where
  | idle
  | select
  | sendError (callerErr : GoErr)
  | sendUpdate (cand : ICECandidateInit)
  | sendDone (err : Option GoErr)
  | report (err : GoErr)
  | close
  | workersDone
  | gone
  deriving DecidableEq

/-- A run of `Answer`; `closed` is the end of `srv.cancelCtx`, `sent` was given to `Send`. -/
structure AnswerRun where
  pc : AnswerMainPc := .hosts
  offer : Option WebRTCCallOffer := none
  haveInit : Bool := false
  answererStoppedExchange : Bool := false
  offerErr : Option CtxErr := none
  closed : Bool := false
  callWorkers : Nat := 0
  caller : CallerLoopPc := .idle
  callerDone : Option (Option GoErr) := none
  callerErrCh : Chan GoErr := { cap := 1 }
  sent : List AnswerRequest := []
  answererDones : Nat := 0

inductive AnswerMainAct where
  | hosts (err : Option GoErr)
  | validate (err : Option GoErr)
  | recvOffer (res : Except GoErr WebRTCCallOffer)
  | iceServers (res : Except GoErr (List ICEServer))
  | sendInit (err : Option GoErr)
  | addWorker
  | recv (res : Except GoErr AnswerResponse)
  | respond (err : Option GoErr)
  | cancelOffer
  | answererDone (err : Option GoErr)
  | wait
  | clear

/-- The steps of `callerLoop` and of the goroutine it runs in; `send` comes with what `Send`
returns. -/
inductive CallerLoopAct where
  | ctxDone
  | callerDone
  | candidate (cand : ICECandidateInit)
  | send (err : Option GoErr)
  | skipDone
  | report
  | close
  | workersDone

/-- `expire` ends the offer, `conclude` the caller's side and `shutdown` the server. -/
inductive AnswerAct where
  | main (a : AnswerMainAct)
  | caller (a : CallerLoopAct)
  | expire (e : CtxErr)
  | conclude (callerErr : Option GoErr)
  | shutdown

def answererPc (uuid : String) (haveInit : Bool) (m : AnswerResponse) : AnswerPc :=
  if m.uuid ≠ uuid then .ending (some (.uuidMismatch m.uuid uuid))
  else match m.stage with
    | .init sdp =>
      if haveInit then .ending (some .initTwice) else .respond { initialSDP := some sdp } false
    | .update candidate =>
      if !haveInit then .ending (some .updateBeforeInit)
      else match candidate with
        | none => .ending (some .noCandidate)
        | some c => .respond { candidate := some (iceCandidateFromProto c) } false
    | .done => .ending (if !haveInit then some .doneBeforeInit else none)
    | .error status => .respond { err := statusErr status } true
    | .unset => .ending (some .unexpectedStage)

def AnswerStage.isInit : AnswerStage → Bool
  | .init _ => true
  | _ => false

namespace AnswerRun

/-- `answererLoop` has left, or goes on. A panic leaves the named result as it was. -/
def leave (s : AnswerRun) : AnswerPc → AnswerRun
  | .ending err => { s with pc := .cancelOffer err }
  | pc => { s with pc := .loop pc }

def handle (s : AnswerRun) (uuid : String) (m : AnswerResponse) : AnswerRun :=
  let s' := { s with haveInit := s.haveInit || (m.uuid == uuid && m.stage.isInit) }
  match answererPc uuid s.haveInit m with
  | .respond ans true =>
    { s' with
      answererStoppedExchange := true
      offerErr := s.offerErr <|> some .canceled
      pc := .loop (.respond ans true) }
  | pc => s'.leave pc

def stopCaller (s : AnswerRun) (loopErr : Option AnswerErr) : AnswerRun :=
  match loopErr with
  | none | some .noCandidate => s
  | some _ => { s with offerErr := s.offerErr <|> some .canceled }

def mainStep (s : AnswerRun) : AnswerMainAct → Option AnswerRun
  | .hosts err =>
    match s.pc with
    | .hosts => some { s with pc := err.elim .validate fun e => .returned (.noHosts e) }
    | _ => none
  | .validate err =>
    match s.pc with
    | .validate => some { s with pc := err.elim .recvOffer fun e => .returned (.invalidHosts e) }
    | _ => none
  | .recvOffer res =>
    match s.pc, res with
    | .recvOffer, .ok offer => some { s with offer := some offer, pc := .iceServers }
    | .recvOffer, .error e => some { s with pc := .clear (.noOffer e) }
    | _, _ => none
  | .iceServers res =>
    match s.pc, res with
    | .iceServers, .ok servers => some { s with pc := .sendInit servers }
    | .iceServers, .error e => some { s with pc := .clear (.iceServers e) }
    | _, _ => none
  | .sendInit err =>
    match s.pc, s.offer with
    | .sendInit servers, some offer =>
      some { s with
        sent := s.sent ++
          [⟨offer.uuid, .init offer.sdp servers offer.disableTrickleICE offer.deadline⟩]
        pc := err.elim .addWorker fun e => .clear (.initNotSent e) }
    | _, _ => none
  | .addWorker =>
    match s.pc with
    | .addWorker =>
      if s.closed then some { s with pc := .clear .shuttingDown }
      else some { s with callWorkers := s.callWorkers + 1, caller := .select, pc := .loop .recv }
    | _ => none
  | .recv res =>
    match s.pc, s.offer, res with
    | .loop .recv, some offer, .ok m => some (s.handle offer.uuid m)
    | .loop .recv, _, .error e =>
      some (s.leave (.ending (if e.is .eof then none else some (.recv e))))
    | _, _, _ => none
  | .respond err =>
    match s.pc with
    | .loop (.respond _ last) =>
      match err with
      | some e => some (s.leave (.ending (some (.respond e))))
      | none => some (s.leave (if last then .ending none else .recv))
    | _ => none
  | .cancelOffer =>
    match s.pc with
    | .cancelOffer loopErr => some { s.stopCaller loopErr with pc := .answererDone loopErr }
    | _ => none
  | .answererDone err =>
    match s.pc with
    | .answererDone loopErr =>
      some { s with answererDones := s.answererDones + 1, pc := .wait loopErr err }
    | _ => none
  | .wait =>
    match s.pc, s.callerErrCh.buf with
    | .wait loopErr doneErr, e :: _ =>
      some { s with
        callerErrCh := s.callerErrCh.pop
        pc := .clear (.exchange loopErr doneErr (some e)) }
    | .wait loopErr doneErr, [] =>
      if s.callerErrCh.closed then some { s with pc := .clear (.exchange loopErr doneErr none) }
      else none
    | _, _ => none
  | .clear =>
    match s.pc with
    | .clear exit => some { s with pc := .returned exit }
    | _ => none

def request (s : AnswerRun) (stage : AnswerRequestStage) : AnswerRun :=
  { s with sent := s.sent ++ (s.offer.map fun offer => ⟨offer.uuid, stage⟩).toList }

def callerReturns (s : AnswerRun) (err : Option GoErr) : AnswerRun :=
  { s with caller := err.elim .close .report }

def callerStep (s : AnswerRun) : CallerLoopAct → Option AnswerRun
  | .ctxDone =>
    match s.caller, s.offerErr with
    | .select, some e => some { s with caller := .sendDone (some (.ctx e)) }
    | _, _ => none
  | .callerDone =>
    match s.caller, s.callerDone with
    | .select, some (some e) => some { s with caller := .sendError e }
    | .select, some none => some { s with caller := .sendDone none }
    | _, _ => none
  | .candidate cand =>
    match s.caller with
    | .select => some { s with caller := .sendUpdate cand }
    | _ => none
  | .send err =>
    match s.caller with
    | .sendError callerErr =>
      some { s.request (.error (errorToStatus (some callerErr))) with
        caller := .sendDone (some (err.elim callerErr fun e => .combine callerErr e)) }
    | .sendUpdate cand =>
      some { s.request (.update (iceCandidateInitToProto cand)) with
        caller := err.elim .select fun e => .sendDone (some e) }
    | .sendDone callerErr =>
      if s.answererStoppedExchange then none else some ((s.request .done).callerReturns callerErr)
    | _ => none
  | .skipDone =>
    match s.caller with
    | .sendDone callerErr =>
      if s.answererStoppedExchange then some (s.callerReturns callerErr) else none
    | _ => none
  | .report =>
    match s.caller with
    | .report e =>
      if s.callerErrCh.canSend then
        some { s with callerErrCh := s.callerErrCh.send e, caller := .close }
      else none
    | _ => none
  | .close =>
    match s.caller with
    | .close => some { s with callerErrCh := s.callerErrCh.close, caller := .workersDone }
    | _ => none
  | .workersDone =>
    match s.caller with
    | .workersDone => some { s with callWorkers := s.callWorkers - 1, caller := .gone }
    | _ => none

end AnswerRun

def answerStep (s : AnswerRun) : AnswerAct → Option AnswerRun
  | .main a => s.mainStep a
  | .caller a => s.callerStep a
  | .expire e => some { s with offerErr := s.offerErr <|> some e }
  | .conclude callerErr => some { s with callerDone := s.callerDone <|> some callerErr }
  | .shutdown => some { s with closed := true }

def answerMachine : Machine AnswerRun AnswerAct where
  init s := s = {}
  step := answerStep

inductive AnswerPhase where
  | noOffer
  | offered
  | exchanging
  | concluded
  | waited

def AnswerExit.phase : AnswerExit → AnswerPhase
  | .noHosts _ | .invalidHosts _ | .noOffer _ => .noOffer
  | .iceServers _ | .initNotSent _ | .shuttingDown => .offered
  | .exchange _ _ _ => .waited

def AnswerMainPc.phase : AnswerMainPc → AnswerPhase
  | .hosts | .validate | .recvOffer => .noOffer
  | .iceServers | .sendInit _ | .addWorker => .offered
  | .loop _ | .cancelOffer _ | .answererDone _ => .exchanging
  | .wait _ _ => .concluded
  | .clear exit | .returned exit => exit.phase

namespace AnswerPhase

def dones : AnswerPhase → Nat
  | .concluded | .waited => 1
  | _ => 0

def tookOffer : AnswerPhase → Bool
  | .noOffer => false
  | _ => true

def started : AnswerPhase → Bool
  | .noOffer | .offered => false
  | _ => true

end AnswerPhase

def CallerLoopPc.ended : CallerLoopPc → Bool
  | .close | .workersDone | .gone => true
  | _ => false

theorem AnswerRun.callerStep_frame {s s' : AnswerRun} (hs : s.callerStep a = some s') :
    s'.pc = s.pc ∧ s'.answererDones = s.answererDones ∧ s'.offer = s.offer := by
  cases a with
  | ctxDone | callerDone | candidate cand | close | workersDone =>
    simp only [callerStep] at hs
    split at hs <;> cases hs <;> exact ⟨rfl, rfl, rfl⟩
  | skipDone | report =>
    simp only [callerStep] at hs
    split at hs
    · split at hs <;> cases hs
      exact ⟨rfl, rfl, rfl⟩
    · cases hs
  | send err =>
    simp only [callerStep] at hs
    split at hs
    · cases hs
      exact ⟨rfl, rfl, rfl⟩
    · cases hs
      exact ⟨rfl, rfl, rfl⟩
    · split at hs <;> cases hs
      exact ⟨rfl, rfl, rfl⟩
    · cases hs

structure AnswerRun.Sound (s : AnswerRun) : Prop where
  dones : s.answererDones = s.pc.phase.dones
  offer : s.offer.isSome = s.pc.phase.tookOffer
  idle : s.pc.phase.started = false → s.caller = .idle
  reported : s.callerErrCh.buf ≠ [] ∨ s.callerErrCh.closed = true → s.caller.ended = true
  waited : s.pc.phase = .waited → s.caller.ended = true

namespace AnswerRun.Sound

variable {s s' : AnswerRun}

theorem init : ({} : AnswerRun).Sound where
  dones := rfl
  offer := rfl
  idle _ := rfl
  reported h := by
    rcases h with h | h
    · exact absurd rfl h
    · cases h
  waited h := by cases h

variable (h : s.Sound)

include h

theorem moved (hpc : s.pc = pc₀) (hphase : s'.pc.phase = pc₀.phase)
    (hdones : s'.answererDones = s.answererDones := by rfl) (hoffer : s'.offer = s.offer := by rfl)
    (hch : s'.callerErrCh = s.callerErrCh := by rfl) (hcaller : s'.caller = s.caller := by rfl) :
    s'.Sound := by
  rw [← hpc] at hphase
  constructor
  · rw [hdones, hphase, h.dones]
  · rw [hoffer, hphase, h.offer]
  · rw [hphase, hcaller]
    exact h.idle
  · rw [hch, hcaller]
    exact h.reported
  · rw [hphase, hcaller]
    exact h.waited

theorem leave (hpc : s.pc = .loop pc₀) (pc : AnswerPc) : (s.leave pc).Sound := by
  cases pc with
  | ending err | recv | respond ans last | finished err => exact h.moved hpc rfl

theorem handle (hpc : s.pc = .loop pc₀) (uuid : String) (m : AnswerResponse) :
    (s.handle uuid m).Sound := by
  have hinit (b : Bool) : Sound { s with haveInit := b } := h.moved rfl rfl
  unfold AnswerRun.handle
  dsimp only
  split
  · exact h.moved hpc rfl
  · exact leave (hinit (s.haveInit || (m.uuid == uuid && m.stage.isInit))) hpc _

theorem addWorker (hpc : s.pc = .addWorker) :
    Sound { s with callWorkers := s.callWorkers + 1, caller := .select, pc := .loop .recv } := by
  have hidle : s.caller = .idle := h.idle (by rw [hpc]; rfl)
  refine ⟨?_, ?_, fun hs => (by cases hs), ?_, fun hw => (by cases hw)⟩
  · show s.answererDones = 0
    rw [h.dones, hpc]
    rfl
  · show s.offer.isSome = true
    rw [h.offer, hpc]
    rfl
  · intro hreport
    have hended := h.reported hreport
    rw [hidle] at hended
    cases hended

theorem answererDone (hpc : s.pc = .answererDone loopErr) (err : Option GoErr) :
    Sound { s with answererDones := s.answererDones + 1, pc := .wait loopErr err } := by
  refine ⟨?_, ?_, fun hs => (by cases hs), h.reported, fun hw => (by cases hw)⟩
  · show s.answererDones + 1 = 1
    rw [h.dones, hpc]
    rfl
  · show s.offer.isSome = true
    rw [h.offer, hpc]
    rfl

theorem wait (hpc : s.pc = .wait loopErr doneErr) (hended : s.caller.ended = true)
    (callerErr : Option GoErr) (ch : Chan GoErr) :
    Sound { s with callerErrCh := ch, pc := .clear (.exchange loopErr doneErr callerErr) } := by
  refine ⟨?_, ?_, fun hs => (by cases hs), fun _ => hended, fun _ => hended⟩
  · rw [h.dones, hpc]
    rfl
  · rw [h.offer, hpc]
    rfl

theorem main (hs : s.mainStep a = some s') : s'.Sound := by
  cases a with
  | hosts err | validate err =>
    simp only [mainStep] at hs
    split at hs <;> cases hs
    rename_i hpc
    cases err with
    | none | some e => exact h.moved hpc rfl
  | recvOffer res =>
    simp only [mainStep] at hs
    split at hs <;> cases hs
    · rename_i hpc
      refine ⟨?_, rfl, fun _ => h.idle (by rw [hpc]; rfl), h.reported, fun hw => (by cases hw)⟩
      rw [h.dones, hpc]
      rfl
    · rename_i hpc
      exact h.moved hpc rfl
  | iceServers res =>
    simp only [mainStep] at hs
    split at hs <;> cases hs
    · rename_i hpc
      exact h.moved hpc rfl
    · rename_i hpc
      exact h.moved hpc rfl
  | sendInit err =>
    simp only [mainStep] at hs
    split at hs <;> cases hs
    rename_i hpc _
    cases err with
    | none | some e => exact h.moved hpc rfl
  | addWorker =>
    simp only [mainStep] at hs
    split at hs
    · rename_i hpc
      split at hs <;> cases hs
      · exact h.moved hpc rfl
      · exact h.addWorker hpc
    · cases hs
  | recv res =>
    simp only [mainStep] at hs
    split at hs <;> cases hs
    · exact h.handle ‹s.pc = _› _ _
    · exact h.leave ‹s.pc = _› _
  | respond err =>
    simp only [mainStep] at hs
    split at hs
    · cases err with
      | some e | none =>
        cases hs
        exact h.leave ‹s.pc = _› _
    · cases hs
  | cancelOffer =>
    simp only [mainStep] at hs
    split at hs <;> cases hs
    rename_i loopErr hpc
    unfold AnswerRun.stopCaller
    split
    · exact h.moved hpc rfl
    · exact h.moved hpc rfl
    · exact h.moved hpc rfl
  | answererDone err =>
    simp only [mainStep] at hs
    split at hs <;> cases hs
    exact h.answererDone ‹s.pc = _› err
  | wait =>
    simp only [mainStep] at hs
    split at hs
    · rename_i e rest hpc hbuf
      cases hs
      exact h.wait hpc (h.reported (.inl (by rw [hbuf]; exact List.cons_ne_nil e rest))) _ _
    · rename_i hpc hbuf
      split at hs <;> cases hs
      exact h.wait hpc (h.reported (.inr ‹_›)) none s.callerErrCh
    · cases hs
  | clear =>
    simp only [mainStep] at hs
    split at hs <;> cases hs
    rename_i hpc
    exact h.moved hpc rfl

theorem called (hcaller : s.caller = pc₀) (hne : pc₀ ≠ .idle)
    (hended : pc₀.ended = true → s'.caller.ended = true)
    (hreport : s'.callerErrCh.buf ≠ [] ∨ s'.callerErrCh.closed = true → s'.caller.ended = true)
    (hpc : s'.pc = s.pc) (hdones : s'.answererDones = s.answererDones)
    (hoffer : s'.offer = s.offer) : s'.Sound := by
  subst hcaller
  refine ⟨?_, ?_, ?_, hreport, ?_⟩
  · rw [hdones, hpc, h.dones]
  · rw [hoffer, hpc, h.offer]
  · rw [hpc]
    intro hs
    exact absurd (h.idle hs) hne
  · rw [hpc]
    intro hw
    exact hended (h.waited hw)

theorem silent (hrun : s.caller.ended = false) :
    ¬ (s.callerErrCh.buf ≠ [] ∨ s.callerErrCh.closed = true) := by
  intro hreport
  rw [h.reported hreport] at hrun
  cases hrun

theorem caller (hs : s.callerStep a = some s') : s'.Sound := by
  obtain ⟨htpc, hdones, hoffer⟩ := callerStep_frame hs
  -- a step within `callerLoop`, which has reported nothing
  have hwithin {pc : CallerLoopPc} (hpc : s.caller = pc) (hne : pc ≠ .idle)
      (hrun : pc.ended = false) (hch : s'.callerErrCh = s.callerErrCh) : s'.Sound := by
    refine h.called hpc hne ?_ ?_ htpc hdones hoffer
    · intro hended
      rw [hrun] at hended
      cases hended
    · rw [hch]
      intro hreport
      exact absurd hreport (h.silent (hpc ▸ hrun))
  cases a with
  | ctxDone | callerDone | candidate cand =>
    simp only [callerStep] at hs
    split at hs <;> cases hs <;> exact hwithin ‹s.caller = _› (by decide) rfl rfl
  | send err =>
    simp only [callerStep] at hs
    split at hs
    · cases hs
      exact hwithin ‹s.caller = _› CallerLoopPc.noConfusion rfl rfl
    · cases hs
      exact hwithin ‹s.caller = _› CallerLoopPc.noConfusion rfl rfl
    · split at hs <;> cases hs
      exact hwithin ‹s.caller = _› CallerLoopPc.noConfusion rfl rfl
    · cases hs
  | skipDone =>
    simp only [callerStep] at hs
    split at hs
    · split at hs <;> cases hs
      exact hwithin ‹s.caller = _› CallerLoopPc.noConfusion rfl rfl
    · cases hs
  | report =>
    simp only [callerStep] at hs
    split at hs
    · split at hs <;> cases hs
      exact h.called ‹s.caller = _› CallerLoopPc.noConfusion (fun _ => rfl) (fun _ => rfl) htpc
        hdones hoffer
    · cases hs
  | close | workersDone =>
    simp only [callerStep] at hs
    split at hs <;> cases hs
    exact h.called ‹s.caller = _› (by decide) (fun _ => rfl) (fun _ => rfl) htpc hdones hoffer

theorem step (hs : answerStep s a = some s') : s'.Sound := by
  cases a with
  | main a => exact h.main hs
  | caller a => exact h.caller hs
  | expire e | conclude callerErr | shutdown =>
    cases hs
    exact h.moved rfl rfl

end AnswerRun.Sound

theorem AnswerRun.sound {s : AnswerRun} (h : answerMachine.Reachable s) : s.Sound := by
  apply h.invariant
  · rintro s rfl
    exact .init
  · exact fun s a s' hI hs => hI.step hs

def AnswerExit.skips : AnswerExit → Bool
  | .iceServers _ | .initNotSent _ | .shuttingDown => true
  | _ => false

def AnswerMainPc.skips : AnswerMainPc → Bool
  | .clear exit | .returned exit => exit.skips
  | _ => false

namespace AnswerRun

variable {s s' : AnswerRun}

/-- The ICE servers can be had, the init stage can be sent, and the server is not shutting down. -/
def admits (s : AnswerRun) : AnswerAct → Bool
  | .main (.iceServers res) => res.isOk
  | .main (.sendInit err) => err.isNone
  | .main .addWorker => !s.closed
  | _ => true

theorem leave_skips (s : AnswerRun) (pc : AnswerPc) : (s.leave pc).pc.skips = false := by
  cases pc <;> rfl

theorem mainStep_skips (h : s.pc.skips = false) (hok : s.admits (.main a) = true)
    (hs : s.mainStep a = some s') : s'.pc.skips = false := by
  cases a with
  | iceServers res | recvOffer res =>
    simp only [mainStep] at hs
    split at hs <;> cases hs
    · rfl
    · first | rfl | cases hok
  | sendInit err =>
    simp only [mainStep] at hs
    split at hs <;> cases hs
    cases Option.isNone_iff_eq_none.1 hok
    rfl
  | addWorker =>
    simp only [mainStep, show s.closed = false by simpa [admits] using hok] at hs
    split at hs <;> cases hs
    rfl
  | recv res =>
    simp only [mainStep] at hs
    split at hs <;> cases hs
    · unfold AnswerRun.handle
      dsimp only
      split
      · rfl
      · exact leave_skips _ _
    · rfl
  | respond err =>
    simp only [mainStep] at hs
    split at hs
    · cases err <;> cases hs <;> exact leave_skips _ _
    · cases hs
  | wait =>
    simp only [mainStep] at hs
    split at hs
    · cases hs
      rfl
    · split at hs <;> cases hs
      rfl
    · cases hs
  | clear =>
    simp only [mainStep] at hs
    split at hs <;> cases hs
    rename_i hpc
    rwa [hpc] at h
  | hosts err | validate err =>
    simp only [mainStep] at hs
    split at hs <;> cases hs
    cases err <;> rfl
  | cancelOffer | answererDone err =>
    simp only [mainStep] at hs
    split at hs <;> cases hs
    rfl

theorem not_skips (h : answerMachine.ReachableWith (·.admits · = true) s) : s.pc.skips = false := by
  apply h.invariant
  · rintro s rfl
    rfl
  · intro s a s' hI hok hs
    cases a with
    | main a => exact mainStep_skips hI hok hs
    | caller a =>
      rw [(callerStep_frame hs).1]
      exact hI
    | _ =>
      cases hs
      exact hI

end AnswerRun

/-- Every `Answer` that returns has called `AnswererDone` exactly once, but at the three returns
before the exchange; where the calls there succeed it does not take one of these. -/
theorem answererDone_once {s : AnswerRun} (h : answerMachine.Reachable s)
    (hret : s.pc = .returned exit) (hoffer : s.offer.isSome = true) :
    (if exit.skips then s.answererDones = 0
      else s.answererDones = 1 ∧ s.caller.ended = true) ∧
    (answerMachine.ReachableWith (·.admits · = true) s →
      s.answererDones = 1 ∧ s.caller.ended = true) := by
  have honce : if exit.skips then s.answererDones = 0
      else s.answererDones = 1 ∧ s.caller.ended = true := by
    have hI := AnswerRun.sound h
    have hdones := hI.dones
    have htook := hI.offer
    have hwaited := hI.waited
    rw [hret] at hdones htook hwaited
    rw [hoffer] at htook
    cases exit with
    | noHosts err | invalidHosts err | noOffer err => cases htook
    | iceServers err | initNotSent err | shuttingDown => exact hdones
    | exchange loopErr doneErr callerErr => exact ⟨hdones, hwaited rfl⟩
  refine ⟨honce, fun hadmits => ?_⟩
  have hskips := AnswerRun.not_skips hadmits
  rw [hret] at hskips
  rwa [show exit.skips = false from hskips] at honce

def exampleOffer : WebRTCCallOffer where
  uuid := "id"
  sdp := "sdp"
  disableTrickleICE := false
  deadline := 0

def takeOffer : List AnswerAct :=
  [.main (.hosts none), .main (.validate none), .main (.recvOffer (.ok exampleOffer))]

def exchangeRun : List AnswerAct :=
  takeOffer ++
    ([.main (.iceServers (.ok [])), .main (.sendInit none), .main .addWorker,
      .main (.recv (.ok ⟨"id", .init "answer"⟩)), .main (.respond none),
      .main (.recv (.error .eof)), .main .cancelOffer, .main (.answererDone none),
      .conclude none, .caller .callerDone, .caller (.send none), .caller .close,
      .main .wait, .main .clear] : List AnswerAct)

theorem answererDone_once_exchange :
    ∃ s : AnswerRun, s.offer = some exampleOffer ∧ s.answererDones = 1 := by
  obtain ⟨s, hr, hret, hoffer⟩ : ∃ s, answerMachine.ReachableWith (·.admits · = true) s ∧
      s.pc = .returned (.exchange none none none) ∧ s.offer = some exampleOffer :=
    answerMachine.exists_reachableWith (·.admits · = true) {} exchangeRun rfl (by decide +kernel)
  have honce := answererDone_once hr.reachable hret (by rw [hoffer]; rfl)
  exact ⟨s, hoffer, (honce.2 hr).1⟩

/-- In some run `Answer` takes the offer, returns there and has not called `AnswererDone`. -/
def AnswerExit.LeavesOffer (exit : AnswerExit) : Prop :=
  ∃ s, answerMachine.Reachable s ∧ s.pc = .returned exit ∧ s.offer = some exampleOffer ∧
    s.answererDones = 0

theorem AnswerExit.leavesOffer_of_exec {exit : AnswerExit} (as : List AnswerAct)
    (hrun : (answerMachine.exec {} (takeOffer ++ as)).any (fun s =>
      decide (s.pc = .returned exit ∧ s.offer = some exampleOffer ∧ s.answererDones = 0)) = true) :
    exit.LeavesOffer := by
  exact answerMachine.exists_reachable {} _ rfl hrun

/-- The ICE servers cannot be had, the init stage cannot be sent, or the server is shutting down:
`Answer` returns and leaves the offer it has taken. -/
theorem answer_leaves_offer :
    (AnswerExit.iceServers .eof).LeavesOffer ∧ (AnswerExit.initNotSent .eof).LeavesOffer ∧
      AnswerExit.shuttingDown.LeavesOffer := by
  refine ⟨?_, ?_, ?_⟩
  · exact AnswerExit.leavesOffer_of_exec [.main (.iceServers (.error .eof)), .main .clear]
      (by decide +kernel)
  · exact AnswerExit.leavesOffer_of_exec [.main (.iceServers (.ok [])),
      .main (.sendInit (some .eof)), .main .clear] (by decide +kernel)
  · exact AnswerExit.leavesOffer_of_exec [.main (.iceServers (.ok [])), .main (.sendInit none),
      .shutdown, .main .addWorker, .main .clear] (by decide +kernel)

end Goutils.Signaling
