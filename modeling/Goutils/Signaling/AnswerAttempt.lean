import Goutils.Lib.Sync
import Goutils.Signaling.Relay

namespace Goutils.Signaling
open Lib Rpc
set_option autoImplicit true

/-- What `sendDone` and `sendError` send. -/
inductive LastWord where
  | done
  | error (err : GoErr)
  deriving DecidableEq

def LastWord.stage : LastWord → AnswerStage
  | .done => .done
  | .error err => .error (errorToStatus (some err))

def AnswerStage.isTerminal : AnswerStage → Bool
  | .done | .error _ => true
  | _ => false

/-- The stages after the first request. A peer may leave parts of them out. -/
inductive RequestStage where
  | init
  | update (candidate : Option ProtoICECandidate)
  | done
  | error (status : Option Status)
  | unset

structure AttemptRequest where
  uuid : String
  stage : RequestStage

inductive ConnectExit where
  | newPeer (err : GoErr)
  | createAnswer (err : GoErr)
  | setLocalDescription (err : GoErr)
  | noHost (e : CtxErr)
  | encode (err : GoErr)
  | initNotSent (err : GoErr)
  | notReady (e : CtxErr)
  | ok
  deriving DecidableEq

/-- Where `connect` stands; `waitDone` and `cleanup` are deferred. -/
inductive ConnectPc where
  | newPeer
  | createAnswer
  | setLocalDescription
  | waitOneHost
  | encode
  | sendInit (sdp : String)
  | closeInitSent
  | receive
  | ready
  | closeChannel (e : CtxErr)
  | call (word : LastWord) (exit : ConnectExit)
  | run (word : LastWord) (exit : ConnectExit)
  | waitDone (exit : ConnectExit)
  | cleanup (exit : ConnectExit)
  | returned (exit : ConnectExit)
  deriving DecidableEq

/-- Where the receiver stands; `closed` says that it has closed `done` already. -/
inductive ReceivePc where
  | idle
  | recv
  | add (candidate : ProtoICECandidate)
  | call (word : LastWord) (closed : Bool)
  | run (word : LastWord) (closed : Bool)
  | close (panic : Option String)
  | gone
  deriving DecidableEq

/-- Where the callback of `OnICECandidate` stands, and from `select` on the goroutine it starts. -/
inductive CandidatePc where
  | check
  | add
  | host
  | addWorker
  | select
  | wait
  | update (candidate : ProtoICECandidate)
  | call (word : LastWord)
  | run (word : LastWord)
  | done
  | gone
  deriving DecidableEq

structure LocalCandidate where
  candidate : ProtoICECandidate
  host : Bool

/-- A call of `OnICECandidate`; there is no candidate at the end of the gathering. -/
structure Gathered where
  candidate : Option LocalCandidate
  pc : CandidatePc := .check

/-- A run of `connect`; `stopped` is the end of `closeCtx`, `sent` was given to `Send`. -/
structure AttemptRun where
  uuid : String
  trickleEnabled : Bool
  pc : ConnectPc := .newPeer
  ctxErr : Option CtxErr := none
  stopped : Bool := false
  waitOneHost : Bool := false
  initSent : Bool := false
  pendingCandidates : Nat := 0
  ready : Bool := false
  gathered : Bool := false
  receiver : ReceivePc := .idle
  doneClosed : Bool := false
  candidates : List Gathered := []
  sendDoneErrOnce : OnceState := .fresh
  sent : List AnswerResponse := []

inductive ConnectAct where
  | newPeer (err : Option GoErr)
  | createAnswer (err : Option GoErr)
  | setLocalDescription (err : Option GoErr)
  | hostFound
  | ctxDone
  | encode (res : Except GoErr String)
  | sendInit (err : Option GoErr)
  | closeInitSent
  | receive
  | ready
  | closeChannel (err : Option GoErr)
  | once
  | waitDone
  | cleanup

inductive ReceiveAct where
  | recv (res : Except GoErr AttemptRequest)
  | add (err : Option GoErr)
  | panics (msg : String)
  | once
  | close

inductive CandidateAct where
  | next
  | ctxDone
  | send (err : Option GoErr)
  | once

/-- `gather` is `OnICECandidate`, `expire` ends the attempt and `stop` the answerer. -/
inductive AttemptAct where
  | connect (a : ConnectAct)
  | receive (a : ReceiveAct)
  | candidate (i : Nat) (a : CandidateAct)
  | gather (candidate : Option LocalCandidate)
  | becomeReady
  | expire (e : CtxErr)
  | stop

namespace AttemptRun

def send (s : AttemptRun) (stage : AnswerStage) : AttemptRun :=
  { s with sent := s.sent ++ [⟨s.uuid, stage⟩] }

def combineErr (err : GoErr) : Option GoErr → GoErr
  | none => err
  | some closeErr => .combine err closeErr

def onceDo (s : AttemptRun) : Option (AttemptRun × Bool) :=
  match s.sendDoneErrOnce with
  | .fresh => some ({ s with sendDoneErrOnce := .running }, true)
  | .running => none
  | .finished => some (s, false)

def say (s : AttemptRun) (word : LastWord) : AttemptRun :=
  { s.send word.stage with sendDoneErrOnce := .finished }

/-- `connect` returns once its last word is said, by way of its deferred functions. -/
def afterWord (s : AttemptRun) : ConnectExit → ConnectPc
  | .newPeer err => .returned (.newPeer err)
  | .notReady e => if s.trickleEnabled then .waitDone (.notReady e) else .cleanup (.notReady e)
  | .ok => if s.trickleEnabled then .waitDone .ok else .cleanup .ok
  | exit => .cleanup exit

def connectStep (s : AttemptRun) : ConnectAct → Option AttemptRun
  | .newPeer err =>
    match s.pc, err with
    | .newPeer, none =>
      some { s with pc := if s.trickleEnabled then .createAnswer else .encode }
    | .newPeer, some e => some { s with pc := .call (.error e) (.newPeer e) }
    | _, _ => none
  | .createAnswer err =>
    match s.pc with
    | .createAnswer =>
      some { s with pc := err.elim .setLocalDescription fun e => .cleanup (.createAnswer e) }
    | _ => none
  | .setLocalDescription err =>
    match s.pc with
    | .setLocalDescription =>
      some { s with pc := err.elim .waitOneHost fun e => .cleanup (.setLocalDescription e) }
    | _ => none
  | .hostFound =>
    match s.pc with
    | .waitOneHost => if s.waitOneHost then some { s with pc := .encode } else none
    | _ => none
  | .ctxDone =>
    match s.pc, s.ctxErr with
    | .waitOneHost, some e => some { s with pc := .cleanup (.noHost e) }
    | .ready, some e => some { s with pc := .closeChannel e }
    | _, _ => none
  | .encode res =>
    match s.pc, res with
    | .encode, .ok sdp => some { s with pc := .sendInit sdp }
    | .encode, .error e => some { s with pc := .call (.error e) (.encode e) }
    | _, _ => none
  | .sendInit err =>
    match s.pc with
    | .sendInit sdp =>
      some { s.send (.init sdp) with
        pc := err.elim .closeInitSent fun e => .cleanup (.initNotSent e) }
    | _ => none
  | .closeInitSent =>
    match s.pc with
    | .closeInitSent =>
      some { s with initSent := true, pc := if s.trickleEnabled then .receive else .ready }
    | _ => none
  | .receive =>
    match s.pc with
    | .receive => some { s with receiver := .recv, pc := .ready }
    | _ => none
  | .ready =>
    match s.pc with
    | .ready => if s.ready then some { s with pc := .call .done .ok } else none
    | _ => none
  | .closeChannel err =>
    match s.pc with
    | .closeChannel e =>
      some { s with pc := .call (.error (combineErr (.ctx e) err)) (.notReady e) }
    | _ => none
  | .once =>
    match s.pc with
    | .call word exit =>
      s.onceDo.map fun (s', runs) =>
        { s' with pc := if runs then .run word exit else s'.afterWord exit }
    | .run word exit => some { s.say word with pc := s.afterWord exit }
    | _ => none
  | .waitDone =>
    match s.pc with
    | .waitDone exit => if s.doneClosed then some { s with pc := .cleanup exit } else none
    | _ => none
  | .cleanup =>
    match s.pc with
    | .cleanup exit => some { s with pc := .returned exit }
    | _ => none

def requesterErr (status : Option Status) : GoErr :=
  match statusErr status with
  | some err => .wrap "error from requester" err
  | none => .text "error from requester: %!w(<nil>)"

/-- The receiver looks at a message; a missing candidate is a panic of `iceCandidateFromProto`. -/
def receivePc (uuid : String) (m : AttemptRequest) : ReceivePc :=
  match m.stage with
  | .init => .recv
  | .update candidate =>
    if m.uuid ≠ uuid then
      .call (.error (.text ("uuid mismatch; have=" ++ m.uuid.quote ++ " want=" ++ uuid.quote)))
        false
    else
      match candidate with
      | none => .close (some "runtime error: invalid memory address or nil pointer dereference")
      | some candidate => .add candidate
  | .done => .close none
  | .error status => .call (.error (requesterErr status)) false
  | .unset => .call (.error (.text "unexpected stage <nil>")) false

def receivedPc (closed : Bool) : ReceivePc := if closed then .gone else .close none

def receiveStep (s : AttemptRun) : ReceiveAct → Option AttemptRun
  | .recv res =>
    match s.receiver, res with
    | .recv, .ok m => some { s with receiver := receivePc s.uuid m }
    | .recv, .error _ => some { s with receiver := .close none }
    | _, _ => none
  | .add err =>
    match s.receiver with
    | .add _ =>
      some { s with
        receiver := err.elim .recv fun e => .call (.error e) false }
    | _ => none
  | .panics msg =>
    match s.receiver with
    | .recv | .add _ => some { s with receiver := .close (some msg) }
    | _ => none
  | .once =>
    match s.receiver with
    | .call word closed =>
      s.onceDo.map fun (s', runs) =>
        { s' with receiver := if runs then .run word closed else receivedPc closed }
    | .run word closed => some { s.say word with receiver := receivedPc closed }
    | _ => none
  | .close =>
    match s.receiver with
    | .close panic =>
      some { s with
        doneClosed := true
        receiver := panic.elim .gone fun msg => .call (.error (.text msg)) true }
    | _ => none

def setCandidate (s : AttemptRun) (i : Nat) (c : Gathered) : AttemptRun :=
  { s with candidates := s.candidates.set i c }

def candidateStep (s : AttemptRun) (i : Nat) (c : Gathered) : CandidateAct → Option AttemptRun
  | .next =>
    match c.pc with
    | .check =>
      some (s.setCandidate i { c with
        pc := if s.ctxErr.isSome then .gone else if c.candidate.isSome then .add else .addWorker })
    | .add =>
      some ({ s with pendingCandidates := s.pendingCandidates + 1 }.setCandidate i { c with
        pc := if c.candidate.any LocalCandidate.host then .host else .addWorker })
    | .host => some ({ s with waitOneHost := true }.setCandidate i { c with pc := .addWorker })
    | .addWorker => some (s.setCandidate i { c with pc := if s.stopped then .gone else .select })
    | .select =>
      if s.initSent then
        some (s.setCandidate i { c with pc := c.candidate.elim .wait fun l => .update l.candidate })
      else none
    | .wait =>
      if s.pendingCandidates = 0 then some (s.setCandidate i { c with pc := .call .done })
      else none
    | .done =>
      some ({ s with
        pendingCandidates :=
          if c.candidate.isSome then s.pendingCandidates - 1 else s.pendingCandidates }.setCandidate
        i { c with pc := .gone })
    | _ => none
  | .ctxDone =>
    match c.pc with
    | .select => if s.ctxErr.isSome then some (s.setCandidate i { c with pc := .done }) else none
    | _ => none
  | .send err =>
    match c.pc with
    | .update candidate =>
      some ((s.send (.update (some candidate))).setCandidate i { c with
        pc := err.elim .done fun e => .call (.error e) })
    | _ => none
  | .once =>
    match c.pc with
    | .call word =>
      s.onceDo.map fun (s', runs) =>
        s'.setCandidate i { c with pc := if runs then .run word else .done }
    | .run word => some ((s.say word).setCandidate i { c with pc := .done })
    | _ => none

def gathers (s : AttemptRun) : Bool :=
  s.trickleEnabled && decide (s.pc ≠ .newPeer ∧ s.pc ≠ .createAnswer)

end AttemptRun

def attemptStep (s : AttemptRun) : AttemptAct → Option AttemptRun
  | .connect a => s.connectStep a
  | .receive a => s.receiveStep a
  | .candidate i a => s.candidates[i]?.bind fun c => s.candidateStep i c a
  | .gather candidate =>
    if s.gathers then
      some { s with
        candidates := s.candidates ++ [{ candidate }]
        gathered := s.gathered || candidate.isNone }
    else none
  | .becomeReady => some { s with ready := true }
  | .expire e => some { s with ctxErr := s.ctxErr <|> some e }
  | .stop => some { s with stopped := true, ctxErr := s.ctxErr <|> some .canceled }

def attemptMachine : Machine AttemptRun AttemptAct where
  init s := ∃ uuid trickleEnabled, s = { uuid, trickleEnabled }
  step := attemptStep

def ConnectExit.silent : ConnectExit → Bool
  | .createAnswer _ | .setLocalDescription _ | .noHost _ | .initNotSent _ => true
  | _ => false

/-- The answer can be created and set, a host candidate is found before the context is done, and the
init stage can be sent. -/
def AttemptRun.succeeds (s : AttemptRun) : AttemptAct → Bool
  | .connect (.createAnswer err) | .connect (.setLocalDescription err)
  | .connect (.sendInit err) => err.isNone
  | .connect .ctxDone => decide (s.pc ≠ .waitOneHost)
  | _ => true

def ConnectExit.inited : ConnectExit → Bool
  | .notReady _ | .ok => true
  | _ => false

theorem ConnectExit.silent_of_inited {exit : ConnectExit} (h : exit.inited = true) :
    exit.silent = false := by
  cases exit <;> first | rfl | cases h

namespace ConnectPc

def inited : ConnectPc → Bool
  | .receive | .ready | .closeChannel _ => true
  | .call _ exit | .run _ exit | .waitDone exit | .cleanup exit | .returned exit => exit.inited
  | _ => false

def started : ConnectPc → Bool
  | .receive => false
  | pc => pc.inited

theorem inited_of_started {pc : ConnectPc} (h : pc.started = true) : pc.inited = true := by
  cases pc with
  | receive => cases h
  | _ => exact h

def silent : ConnectPc → Bool
  | .call _ exit | .run _ exit | .waitDone exit | .cleanup exit | .returned exit => exit.silent
  | _ => false

def voice : ConnectPc → Voice AnswerStage
  | .call word _ => .calls word.stage
  | .run word _ => .runs word.stage
  | _ => .idle

/-- How far the last word is: loud returns say it, silent ones let nobody say it. -/
def Phase (o : OnceState) : ConnectPc → Prop
  | .call _ exit | .run _ exit => exit.silent = false
  | .waitDone exit | .cleanup exit | .returned exit => o = if exit.silent then .fresh else .finished
  | .receive | .ready | .closeChannel _ => True
  | _ => o = .fresh

inductive Next (strict : Bool) (s : AttemptRun) : ConnectPc → ConnectPc → Prop where
  | newPeer : Next strict s .newPeer (if s.trickleEnabled then .createAnswer else .encode)
  | newPeerFails : Next strict s .newPeer (.call (.error e) (.newPeer e))
  | createAnswer : Next strict s .createAnswer .setLocalDescription
  | createAnswerFails : strict = false → Next strict s .createAnswer (.cleanup (.createAnswer e))
  | setLocalDescription : Next strict s .setLocalDescription .waitOneHost
  | setLocalDescriptionFails : strict = false →
      Next strict s .setLocalDescription (.cleanup (.setLocalDescription e))
  | hostFound : s.waitOneHost = true → Next strict s .waitOneHost .encode
  | noHost : strict = false → s.ctxErr = some e → Next strict s .waitOneHost (.cleanup (.noHost e))
  | encode : Next strict s .encode (.sendInit sdp)
  | encodeFails : Next strict s .encode (.call (.error e) (.encode e))
  | ready : s.ready = true → Next strict s .ready (.call .done .ok)
  | notReady : s.ctxErr = some e → Next strict s .ready (.closeChannel e)
  | closeChannel : Next strict s (.closeChannel e) (.call (.error err) (.notReady e))
  | waitDone : s.doneClosed = true → Next strict s (.waitDone exit) (.cleanup exit)
  | cleanup : Next strict s (.cleanup exit) (.returned exit)

namespace Next

variable {strict : Bool} {s : AttemptRun} {p p' : ConnectPc} (h : Next strict s p p')

include h

theorem inited : p'.inited = p.inited := by
  cases h with
  | newPeer => split <;> rfl
  | _ => rfl

theorem started : p'.started = p.started := by
  cases h with
  | newPeer => split <;> rfl
  | _ => rfl

theorem phase (hp : p.Phase o) : p'.Phase o := by
  cases h with
  | newPeer => split <;> exact hp
  | newPeerFails | encodeFails | ready | closeChannel => exact rfl
  | notReady => exact trivial
  | _ => exact hp

theorem loud (hp : strict = true → p.silent = false) : strict = true → p'.silent = false := by
  cases h with
  | newPeer => split <;> exact fun _ => rfl
  | createAnswerFails hs | setLocalDescriptionFails hs | noHost hs _ =>
    rw [hs]
    nofun
  | waitDone | cleanup => exact hp
  | _ => exact fun _ => rfl

theorem voice : p.voice.isRunning = false ∧ p'.voice.isRunning = false := by
  cases h with
  | newPeer => split <;> exact ⟨rfl, rfl⟩
  | _ => exact ⟨rfl, rfl⟩

theorem ready_of_done (hw : p'.voice.word = some .done) : s.ready = true := by
  cases h with
  | ready hready => exact hready
  | newPeer => split at hw <;> cases hw
  | _ => cases hw

end Next

theorem Phase.other (h : Phase o p) (hp : p.inited = true) (ho : o = .finished → o' = .finished) :
    Phase o' p := by
  have hexit : ∀ exit : ConnectExit, exit.inited = true →
      (o = if exit.silent then .fresh else .finished) →
      o' = if exit.silent then .fresh else .finished := by
    intro exit hexit h
    rw [ConnectExit.silent_of_inited hexit] at h ⊢
    exact ho h
  cases p with
  | waitDone exit | cleanup exit | returned exit => exact hexit exit hp h
  | call | run => exact h
  | receive | ready | closeChannel => exact trivial
  | _ => cases hp

end ConnectPc

namespace ReceivePc

def voice : ReceivePc → Voice AnswerStage
  | .call word _ => .calls word.stage
  | .run word _ => .runs word.stage
  | _ => .idle

end ReceivePc

namespace CandidatePc

def voice : CandidatePc → Voice AnswerStage
  | .call word => .calls word.stage
  | .run word => .runs word.stage
  | _ => .idle

def inited : CandidatePc → Bool
  | .wait | .update _ | .call _ | .run _ => true
  | _ => false

end CandidatePc

def lastWords (sent : List AnswerResponse) : List AnswerStage :=
  (sent.map AnswerResponse.stage).filter AnswerStage.isTerminal

theorem lastWords_append (sent : List AnswerResponse) (uuid : String) (stage : AnswerStage) :
    lastWords (sent ++ [⟨uuid, stage⟩]) =
      lastWords sent ++ if stage.isTerminal then [stage] else [] := by
  unfold lastWords
  rw [List.map_append, List.filter_append]
  cases h : stage.isTerminal <;> simp [List.filter, h]

@[simp] theorem LastWord.isTerminal_stage (word : LastWord) : word.stage.isTerminal = true := by
  cases word <;> rfl

/-- A candidate is past the select only after the close of `initSent`. -/
structure Gathered.Sound (initSent gathered : Bool) (c : Gathered) : Prop where
  inited : c.pc.inited = true → initSent = true
  last : c.pc = .wait → c.candidate = none
  gathered : c.candidate = none → gathered = true

namespace AttemptRun

def said (s : AttemptRun) : List AnswerStage := lastWords s.sent

theorem lastWords_send (s : AttemptRun) {stage : AnswerStage} (h : stage.isTerminal = false) :
    lastWords (s.send stage).sent = s.said := by
  refine (lastWords_append s.sent s.uuid stage).trans ?_
  rw [h]
  exact List.append_nil _

theorem lastWords_say (s : AttemptRun) (word : LastWord) :
    lastWords (s.say word).sent = s.said ++ [word.stage] := by
  refine (lastWords_append s.sent s.uuid word.stage).trans ?_
  rw [if_pos word.isTerminal_stage]
  rfl

def voices (s : AttemptRun) : List (Voice AnswerStage) :=
  s.pc.voice :: s.receiver.voice :: s.candidates.map (·.pc.voice)

def Honest (s : AttemptRun) (stage : AnswerStage) : Prop :=
  stage = .done → s.ready = true ∨ s.gathered = true

/-- In a `strict` run the calls succeed without which nothing is said. -/
structure Inv (strict : Bool) (s : AttemptRun) : Prop where
  once : OnceInv s.Honest s.sendDoneErrOnce s.said s.voices
  phase : s.pc.Phase s.sendDoneErrOnce
  loud : strict = true → s.pc.silent = false
  inited : s.initSent = s.pc.inited
  receiver : s.receiver ≠ .idle → s.pc.started = true
  candidates : ∀ c ∈ s.candidates, c.Sound s.initSent s.gathered

theorem onceDo_map {f : AttemptRun × Bool → AttemptRun} (hs : s.onceDo.map f = some s') :
    (s.sendDoneErrOnce = .fresh ∧ s' = f ({ s with sendDoneErrOnce := .running }, true)) ∨
      (s.sendDoneErrOnce = .finished ∧ s' = f (s, false)) := by
  unfold onceDo at hs
  split at hs
  · cases hs
    exact .inl ⟨‹_›, rfl⟩
  · cases hs
  · cases hs
    exact .inr ⟨‹_›, rfl⟩

theorem receivedPc_voice (closed : Bool) : (receivedPc closed).voice = .idle := by
  cases closed <;> rfl

theorem receivePc_voice (uuid : String) (m : AttemptRequest) :
    (receivePc uuid m).voice.isRunning = false ∧ (receivePc uuid m).voice.word ≠ some .done := by
  unfold receivePc
  split
  · exact ⟨rfl, nofun⟩
  · split
    · exact ⟨rfl, nofun⟩
    · split <;> exact ⟨rfl, nofun⟩
  · exact ⟨rfl, nofun⟩
  · exact ⟨rfl, nofun⟩
  · exact ⟨rfl, nofun⟩

theorem afterWord_cases (s : AttemptRun) (exit : ConnectExit) :
    s.afterWord exit = .waitDone exit ∨ s.afterWord exit = .cleanup exit ∨
      s.afterWord exit = .returned exit := by
  cases exit with
  | newPeer => exact .inr (.inr rfl)
  | notReady | ok =>
    cases htrickle : s.trickleEnabled with
    | true => exact .inl (if_pos htrickle)
    | false => exact .inr (.inl (if_neg (Bool.not_eq_true _ ▸ htrickle)))
  | _ => exact .inr (.inl rfl)

namespace Inv
variable {s s' : AttemptRun} {msgs : List AnswerResponse} {o : OnceState}

theorem init (uuid : String) (trickleEnabled : Bool) :
    ({ uuid, trickleEnabled } : AttemptRun).Inv strict where
  once := by
    refine ⟨rfl, rfl, ?_, fun t ht => by cases ht⟩
    intro v hv t ht
    have hidle : v = .idle := by simpa [voices, ConnectPc.voice, ReceivePc.voice] using hv
    subst hidle
    cases ht
  phase := rfl
  loud _ := rfl
  inited := rfl
  receiver h := absurd rfl h
  candidates c hc := by cases hc

variable {strict : Bool} (h : s.Inv strict)

include h

theorem connected {pc' : ConnectPc}
    (hs : OnceStep s.Honest s.sendDoneErrOnce s.said s.pc.voice o (lastWords msgs) pc'.voice)
    (hphase : pc'.Phase o) (hloud : strict = true → pc'.silent = false)
    (hinit : isInit = pc'.inited) (hmono : s.pc.inited = true → pc'.inited = true)
    (hstart : s.pc.started = true → pc'.started = true) :
    Inv strict { s with pc := pc', sendDoneErrOnce := o, sent := msgs, initSent := isInit } where
  once := h.once.step (i := 0) (v := s.pc.voice) rfl hs
  phase := hphase
  loud := hloud
  inited := hinit
  receiver hr := hstart (h.receiver hr)
  candidates c hc :=
    have hsound := h.candidates c hc
    { hsound with
      inited := fun hpc => hinit.trans (hmono (h.inited.symm.trans (hsound.inited hpc))) }

theorem received {r : ReceivePc}
    (hs : OnceStep s.Honest s.sendDoneErrOnce s.said s.receiver.voice o (lastWords msgs) r.voice)
    (hstart : s.pc.started = true) :
    Inv strict { s with receiver := r, doneClosed := d, sendDoneErrOnce := o, sent := msgs } where
  __ := h
  once := h.once.step (i := 1) (v := s.receiver.voice) rfl hs
  phase := h.phase.other (ConnectPc.inited_of_started hstart) hs.finished
  receiver _ := hstart

theorem candidate {i : Nat} {c c' : Gathered} (hc : s.candidates[i]? = some c)
    (hs : OnceStep s.Honest s.sendDoneErrOnce s.said c.pc.voice o (lastWords msgs) c'.pc.voice)
    (hsound : c'.Sound s.initSent s.gathered) (ho : o = s.sendDoneErrOnce ∨ s.initSent = true) :
    Inv strict { s with
        candidates := s.candidates.set i c', pendingCandidates := n, waitOneHost := b,
        sendDoneErrOnce := o, sent := msgs } where
  __ := h
  once := by
    have hv : s.voices[i + 2]? = some c.pc.voice := by
      simp [voices, hc]
    have honce := h.once.step hv hs
    have hset : s.voices.set (i + 2) c'.pc.voice =
        s.pc.voice :: s.receiver.voice :: (s.candidates.set i c').map (·.pc.voice) := by
      simp [voices, List.map_set]
    rw [hset] at honce
    exact honce
  phase := by
    rcases ho with rfl | hinit
    · exact h.phase
    · exact h.phase.other (h.inited ▸ hinit) hs.finished
  candidates d hd := by
    rcases List.mem_or_eq_of_mem_set hd with hd | rfl
    · exact h.candidates d hd
    · exact hsound

theorem goto {p pc' : ConnectPc} (hpc : s.pc = p) (hn : ConnectPc.Next strict s p pc') :
    Inv strict { s with pc := pc' } := by
  subst hpc
  refine h.connected (.keep hn.voice.1 hn.voice.2 ?_) (hn.phase h.phase) (hn.loud h.loud)
    (h.inited.trans hn.inited.symm) hn.inited.trans hn.started.trans
  intro t ht hdone
  subst hdone
  exact .inl (hn.ready_of_done ht)

theorem left {exit : ConnectExit} (hpc : s.pc = .call word exit ∨ s.pc = .run word exit)
    (hs : OnceStep s.Honest s.sendDoneErrOnce s.said s.pc.voice .finished (lastWords msgs) .idle) :
    Inv strict { s with pc := s.afterWord exit, sendDoneErrOnce := .finished, sent := msgs } := by
  have hphase := h.phase
  have hinit := h.inited
  have hloud : exit.silent = false ∧ s.pc.inited = exit.inited ∧ s.pc.started = exit.inited := by
    rcases hpc with hpc | hpc <;> rw [hpc] at hphase ⊢ <;> exact ⟨hphase, rfl, rfl⟩
  obtain ⟨hsilent, hin, hstart⟩ := hloud
  have hfinished : OnceState.finished = if exit.silent then .fresh else .finished := by
    rw [hsilent]
    rfl
  rcases s.afterWord_cases exit with hafter | hafter | hafter <;> rw [hafter] <;>
    exact h.connected hs hfinished (fun _ => hsilent) (hinit.trans hin) (hin.symm.trans ·)
      (hstart.symm.trans ·)

theorem connectedQuiet {p pc' : ConnectPc} (hpc : s.pc = p) (hold : p.voice = .idle)
    (hnew : pc'.voice = .idle) (hsent : lastWords msgs = s.said)
    (hphase : pc'.Phase s.sendDoneErrOnce) (hloud : strict = true → pc'.silent = false)
    (hinit : isInit = pc'.inited) (hmono : p.inited = true → pc'.inited = true)
    (hstart : p.started = true → pc'.started = true) :
    Inv strict { s with pc := pc', sent := msgs, initSent := isInit } := by
  subst hpc
  refine h.connected ?_ hphase hloud hinit hmono hstart
  rw [hold, hnew, hsent]
  exact .keep rfl rfl nofun

theorem sendInit (hpc : s.pc = .sendInit sdp) {err : Option GoErr}
    (hok : strict = true → err.isNone = true) : Inv strict { s.send (.init sdp) with
      pc := err.elim .closeInitSent fun e => .cleanup (.initNotSent e) } := by
  have hphase := h.phase
  have hinit := h.inited
  rw [hpc] at hphase hinit
  have hsent : lastWords (s.send (.init sdp)).sent = s.said := s.lastWords_send rfl
  cases err with
  | none => exact h.connectedQuiet hpc rfl rfl hsent hphase (fun _ => rfl) hinit id id
  | some e =>
    exact h.connectedQuiet hpc rfl rfl hsent hphase (fun hs => by cases hok hs) hinit id id

theorem closeInitSent (hpc : s.pc = .closeInitSent) : Inv strict { s with
      initSent := true, pc := if s.trickleEnabled then .receive else .ready } := by
  split
  · exact h.connectedQuiet hpc rfl rfl rfl trivial (fun _ => rfl) rfl (fun _ => rfl) nofun
  · exact h.connectedQuiet hpc rfl rfl rfl trivial (fun _ => rfl) rfl (fun _ => rfl) nofun

theorem startReceiver (hpc : s.pc = .receive) :
    Inv strict { s with receiver := .recv, pc := .ready } := by
  have hinit := h.inited
  rw [hpc] at hinit
  have hidle : s.receiver = .idle := by
    by_contra hne
    have hstart := h.receiver hne
    rw [hpc] at hstart
    cases hstart
  have hready : Inv strict { s with pc := .ready } :=
    h.connectedQuiet hpc rfl rfl rfl trivial (fun _ => rfl) hinit (fun _ => rfl) (fun _ => rfl)
  refine hready.received ?_ rfl
  rw [hidle]
  exact .keep rfl rfl nofun

theorem connectOnce (hs : s.connectStep .once = some s') : s'.Inv strict := by
  simp only [connectStep] at hs
  split at hs
  · rename_i word exit hpc
    rcases onceDo_map hs with ⟨ho, rfl⟩ | ⟨ho, rfl⟩
    · have hphase := h.phase
      have hinit := h.inited
      rw [hpc] at hphase hinit
      refine h.connected ?_ hphase (fun _ => hphase) hinit (hpc ▸ id) (hpc ▸ id)
      rw [hpc, ho]
      exact .begins
    · have hskips :
          OnceStep s.Honest s.sendDoneErrOnce s.said s.pc.voice .finished s.said .idle := by
        rw [hpc, ho]
        exact .skips
      have hleft := h.left (.inl hpc) hskips
      rw [← ho] at hleft
      exact hleft
  · rename_i word exit hpc
    cases hs
    refine h.left (.inr hpc) ?_
    rw [hpc, lastWords_say]
    exact .speaks
  · cases hs

theorem connect {a : ConnectAct} (hok : strict = true → s.succeeds (.connect a) = true)
    (hs : s.connectStep a = some s') : s'.Inv strict := by
  cases a with
  | newPeer err =>
    simp only [connectStep] at hs
    split at hs <;> cases hs
    · exact h.goto ‹_› .newPeer
    · exact h.goto ‹_› .newPeerFails
  | createAnswer err =>
    simp only [connectStep] at hs
    split at hs <;> cases hs
    cases err with
    | none => exact h.goto ‹_› .createAnswer
    | some e => exact h.goto ‹_› (.createAnswerFails (by simpa [succeeds] using hok))
  | setLocalDescription err =>
    simp only [connectStep] at hs
    split at hs <;> cases hs
    cases err with
    | none => exact h.goto ‹_› .setLocalDescription
    | some e => exact h.goto ‹_› (.setLocalDescriptionFails (by simpa [succeeds] using hok))
  | hostFound =>
    simp only [connectStep] at hs
    split at hs
    · split at hs <;> cases hs
      exact h.goto ‹s.pc = _› (.hostFound ‹_›)
    · cases hs
  | ctxDone =>
    simp only [connectStep] at hs
    split at hs <;> cases hs
    · rename_i hpc hctx
      exact h.goto hpc (.noHost (by simpa [succeeds, hpc] using hok) hctx)
    · exact h.goto ‹s.pc = _› (.notReady ‹_›)
  | encode res =>
    simp only [connectStep] at hs
    split at hs <;> cases hs
    · exact h.goto ‹_› .encode
    · exact h.goto ‹_› .encodeFails
  | sendInit err =>
    simp only [connectStep] at hs
    split at hs <;> cases hs
    exact h.sendInit ‹_› hok
  | closeInitSent =>
    simp only [connectStep] at hs
    split at hs <;> cases hs
    exact h.closeInitSent ‹_›
  | receive =>
    simp only [connectStep] at hs
    split at hs <;> cases hs
    exact h.startReceiver ‹_›
  | ready =>
    simp only [connectStep] at hs
    split at hs
    · split at hs <;> cases hs
      exact h.goto ‹s.pc = _› (.ready ‹_›)
    · cases hs
  | closeChannel err =>
    simp only [connectStep] at hs
    split at hs <;> cases hs
    exact h.goto ‹_› .closeChannel
  | once => exact h.connectOnce hs
  | waitDone =>
    simp only [connectStep] at hs
    split at hs
    · split at hs <;> cases hs
      exact h.goto ‹s.pc = _› (.waitDone ‹_›)
    · cases hs
  | cleanup =>
    simp only [connectStep] at hs
    split at hs <;> cases hs
    exact h.goto ‹_› .cleanup

theorem receivedQuiet {r : ReceivePc} (hr : s.receiver ≠ .idle)
    (hold : s.receiver.voice.isRunning = false) (hnew : r.voice.isRunning = false)
    (hdone : r.voice.word ≠ some .done) : Inv strict { s with receiver := r, doneClosed := d } :=
  h.received (.keep hold hnew fun _ ht hd => absurd (hd ▸ ht) hdone) (h.receiver hr)

theorem receive {a : ReceiveAct} (hs : s.receiveStep a = some s') : s'.Inv strict := by
  cases a with
  | recv res =>
    simp only [receiveStep] at hs
    split at hs <;> cases hs
    · rename_i m hr
      obtain ⟨hrunning, hdone⟩ := receivePc_voice s.uuid m
      exact h.receivedQuiet (hr ▸ nofun) (hr ▸ rfl) hrunning hdone
    · rename_i e hr
      exact h.receivedQuiet (hr ▸ nofun) (hr ▸ rfl) rfl nofun
  | add err =>
    simp only [receiveStep] at hs
    split at hs <;> cases hs
    rename_i c hr
    cases err with
    | none | some e => exact h.receivedQuiet (hr ▸ nofun) (hr ▸ rfl) rfl nofun
  | panics msg =>
    simp only [receiveStep] at hs
    split at hs <;> cases hs
    · rename_i hr
      exact h.receivedQuiet (hr ▸ nofun) (hr ▸ rfl) rfl nofun
    · rename_i c hr
      exact h.receivedQuiet (hr ▸ nofun) (hr ▸ rfl) rfl nofun
  | once =>
    simp only [receiveStep] at hs
    split at hs
    · rename_i word closed hr
      have hstart := h.receiver (hr ▸ nofun)
      rcases onceDo_map hs with ⟨ho, rfl⟩ | ⟨ho, rfl⟩
      · refine h.received ?_ hstart
        rw [hr, ho]
        exact .begins
      · refine h.received (r := receivedPc closed) ?_ hstart
        rw [hr, ho, receivedPc_voice]
        exact .skips
    · rename_i word closed hr
      cases hs
      refine h.received ?_ (h.receiver (hr ▸ nofun))
      rw [hr, lastWords_say, receivedPc_voice]
      exact .speaks
    · cases hs
  | close =>
    simp only [receiveStep] at hs
    split at hs <;> cases hs
    rename_i panic hr
    cases panic with
    | none | some msg => exact h.receivedQuiet (hr ▸ nofun) (hr ▸ rfl) rfl nofun

section
variable {i : Nat} {c : Gathered} (hc : s.candidates[i]? = some c)
include hc

theorem sound : c.Sound s.initSent s.gathered := h.candidates c (List.mem_of_getElem? hc)

theorem candidateQuiet {pc' : CandidatePc} (hold : c.pc.voice.isRunning = false)
    (hnew : pc'.voice.isRunning = false)
    (hinit : pc'.inited = true → s.initSent = true) (hlast : pc' = .wait → c.candidate = none)
    (hdone : pc'.voice.word = some .done → s.gathered = true) (hsent : lastWords msgs = s.said) :
    Inv strict { s with
        candidates := s.candidates.set i { c with pc := pc' }, pendingCandidates := n,
        waitOneHost := b, sent := msgs } := by
  refine h.candidate hc ?_ ⟨hinit, hlast, (h.sound hc).gathered⟩ (.inl rfl)
  rw [hsent]
  exact .keep hold hnew fun t ht hd => .inr (hdone (hd ▸ ht))

theorem candidateGoto {pc' : CandidatePc} (hold : c.pc.voice.isRunning = false)
    (hvoice : pc'.voice = .idle) (hinit : pc'.inited = false) :
    Inv strict { s with
        candidates := s.candidates.set i { c with pc := pc' }, pendingCandidates := n,
        waitOneHost := b } := by
  refine h.candidateQuiet hc hold (hvoice ▸ rfl) (fun hpc => ?_) (fun hpc => ?_) (fun hw => ?_) rfl
  · rw [hinit] at hpc
    cases hpc
  · rw [hpc] at hinit
    cases hinit
  · rw [hvoice] at hw
    cases hw

theorem gatheredNext (hs : s.candidateStep i c .next = some s') : s'.Inv strict := by
  simp only [candidateStep] at hs
  split at hs
  · rename_i hpc
    cases hs
    split
    · exact h.candidateGoto hc (hpc ▸ rfl) rfl rfl
    · split
      · exact h.candidateGoto hc (hpc ▸ rfl) rfl rfl
      · exact h.candidateGoto hc (hpc ▸ rfl) rfl rfl
  · rename_i hpc
    cases hs
    split
    · exact h.candidateGoto hc (hpc ▸ rfl) rfl rfl
    · exact h.candidateGoto hc (hpc ▸ rfl) rfl rfl
  · rename_i hpc
    cases hs
    exact h.candidateGoto hc (hpc ▸ rfl) rfl rfl
  · rename_i hpc
    cases hs
    split
    · exact h.candidateGoto hc (hpc ▸ rfl) rfl rfl
    · exact h.candidateGoto hc (hpc ▸ rfl) rfl rfl
  · rename_i hpc
    split at hs
    · rename_i hinit
      cases hs
      refine h.candidateQuiet hc (hpc ▸ rfl) ?_ (fun _ => hinit) ?_ ?_ rfl
      · cases c.candidate <;> rfl
      · intro hwait
        cases hcand : c.candidate with
        | none => rfl
        | some l =>
          rw [hcand] at hwait
          cases hwait
      · intro hdone
        cases hcand : c.candidate <;> rw [hcand] at hdone <;> cases hdone
    · cases hs
  · rename_i hpc
    have hsound := h.sound hc
    split at hs
    · cases hs
      exact h.candidateQuiet hc (hpc ▸ rfl) rfl (fun _ => hsound.inited (hpc ▸ rfl)) nofun
        (fun _ => hsound.gathered (hsound.last hpc)) rfl
    · cases hs
  · rename_i hpc
    cases hs
    exact h.candidateGoto hc (hpc ▸ rfl) rfl rfl
  · cases hs

theorem gatheredOnce (hs : s.candidateStep i c .once = some s') : s'.Inv strict := by
  have hsound := h.sound hc
  simp only [candidateStep] at hs
  split at hs
  · rename_i word hpc
    have hinit : s.initSent = true := hsound.inited (hpc ▸ rfl)
    rcases onceDo_map hs with ⟨ho, rfl⟩ | ⟨ho, rfl⟩
    · refine h.candidate hc ?_ ⟨fun _ => hinit, nofun, hsound.gathered⟩ (.inr hinit)
      rw [hpc, ho]
      exact .begins
    · refine h.candidate hc ?_ ⟨nofun, nofun, hsound.gathered⟩ (.inr hinit)
      rw [hpc, ho]
      exact .skips
  · rename_i word hpc
    cases hs
    refine h.candidate hc ?_ ⟨nofun, nofun, hsound.gathered⟩ (.inr (hsound.inited (hpc ▸ rfl)))
    rw [hpc, lastWords_say]
    exact .speaks
  · cases hs

theorem gathered {a : CandidateAct} (hs : s.candidateStep i c a = some s') : s'.Inv strict := by
  cases a with
  | next => exact h.gatheredNext hc hs
  | ctxDone =>
    simp only [candidateStep] at hs
    split at hs
    · rename_i hpc
      split at hs <;> cases hs
      exact h.candidateGoto hc (hpc ▸ rfl) rfl rfl
    · cases hs
  | send err =>
    simp only [candidateStep] at hs
    split at hs <;> cases hs
    rename_i cand hpc
    have hinit : s.initSent = true := (h.sound hc).inited (hpc ▸ rfl)
    have hsent : lastWords (s.send (.update (some cand))).sent = s.said := s.lastWords_send rfl
    cases err with
    | none | some e => exact h.candidateQuiet hc (hpc ▸ rfl) rfl (fun _ => hinit) nofun nofun hsent
  | once => exact h.gatheredOnce hc hs

end

theorem gather (candidate : Option LocalCandidate) : Inv strict { s with
      candidates := s.candidates ++ [{ candidate }]
      gathered := s.gathered || candidate.isNone } where
  __ := h
  once := by
    have honce := h.once.append_idle.mono (Q := fun stage =>
      stage = .done → s.ready = true ∨ (s.gathered || candidate.isNone) = true)
      fun stage hstage hd => (hstage hd).imp_right fun hg => by rw [hg]; rfl
    have happend : s.voices ++ [.idle] =
        s.pc.voice :: s.receiver.voice ::
          (s.candidates ++ [({ candidate } : Gathered)]).map (·.pc.voice) := by
      rw [List.map_append]
      rfl
    rw [happend] at honce
    exact honce
  candidates c hc := by
    rcases List.mem_append.1 hc with hc | hc
    · have hsound := h.candidates c hc
      exact ⟨hsound.inited, hsound.last, fun hnone => by rw [hsound.gathered hnone]; rfl⟩
    · obtain rfl := List.mem_singleton.1 hc
      refine ⟨nofun, nofun, ?_⟩
      rintro rfl
      exact Bool.or_true _

theorem step {a : AttemptAct} (hok : strict = true → s.succeeds a = true)
    (hs : attemptStep s a = some s') : s'.Inv strict := by
  cases a with
  | connect a => exact h.connect hok hs
  | receive a => exact h.receive hs
  | candidate i a =>
    obtain ⟨c, hc, hs⟩ := Option.bind_eq_some_iff.1 hs
    exact h.gathered hc hs
  | gather candidate =>
    simp only [attemptStep] at hs
    split at hs <;> cases hs
    exact h.gather candidate
  | becomeReady =>
    cases hs
    exact { h with once := h.once.mono fun _ _ _ => .inl rfl }
  | expire e | stop =>
    cases hs
    exact { h with }

end Inv

theorem inv {s : AttemptRun} {strict : Bool}
    (h : attemptMachine.ReachableWith (fun s a => strict = true → s.succeeds a = true) s) :
    s.Inv strict := by
  apply h.invariant
  · rintro s ⟨uuid, trickleEnabled, rfl⟩
    exact .init uuid trickleEnabled
  · exact fun s a s' hI hok hs => hI.step hok hs

def Quiescent (s : AttemptRun) : Prop :=
  (s.receiver = .idle ∨ s.receiver = .gone) ∧ ∀ c ∈ s.candidates, c.pc = .gone

instance (s : AttemptRun) : Decidable s.Quiescent :=
  inferInstanceAs (Decidable (_ ∧ _))

end AttemptRun

/-- When `connect` has returned, exactly one terminal message was handed to `Send`, but at the four
silent returns; where the calls there succeed it does not take one of these. -/
theorem connect_lastWord {s : AttemptRun} (h : attemptMachine.Reachable s)
    (hret : s.pc = .returned exit) :
    (if exit.silent then s.said = []
      else ∃ stage, s.said = [stage] ∧
        (stage = .done → s.ready = true ∨ s.gathered = true) ∧
        (stage ≠ .done → ∃ status, stage = .error status)) ∧
    (attemptMachine.ReachableWith (·.succeeds · = true) s → exit.silent = false) := by
  constructor
  · have hI : s.Inv false := AttemptRun.inv (h.mono fun _ _ _ => nofun)
    have honce := hI.once
    have hphase := hI.phase
    rw [hret] at hphase
    have ho : s.sendDoneErrOnce = if exit.silent then .fresh else .finished := hphase
    split
    · rename_i hsilent
      rw [if_pos hsilent] at ho
      exact honce.said_eq_nil (ho ▸ OnceState.noConfusion)
    · rename_i hloud
      rw [if_neg hloud] at ho
      rw [ho] at honce
      obtain ⟨stage, hsaid, hhonest⟩ := honce.said_singleton
      refine ⟨stage, hsaid, hhonest, fun hne => ?_⟩
      have hterminal : stage.isTerminal = true :=
        (List.mem_filter.1 (hsaid ▸ List.mem_singleton_self stage : stage ∈ s.said)).2
      cases stage with
      | error status => exact ⟨status, rfl⟩
      | done => exact absurd rfl hne
      | init | update | unset => cases hterminal
  · intro hrun
    have hI : s.Inv true := AttemptRun.inv (hrun.mono fun _ _ hok _ => hok)
    have hloud := hI.loud rfl
    rwa [hret] at hloud

def exampleAttempt : AttemptRun where
  uuid := "id"
  trickleEnabled := true

def hostCandidate : LocalCandidate where
  candidate := { candidate := "host" }
  host := true

def openPeer : List AttemptAct :=
  [.connect (.newPeer none), .connect (.createAnswer none), .connect (.setLocalDescription none)]

def findHost : List AttemptAct :=
  [[.gather (some hostCandidate)], List.replicate 4 (.candidate 0 .next),
    [.connect .hostFound, .connect (.encode (.ok "answer"))]].flatten

def readyRun : List AttemptAct :=
  [openPeer, findHost,
    [.connect (.sendInit none), .connect .closeInitSent, .connect .receive, .candidate 0 .next,
      .candidate 0 (.send none), .candidate 0 .next, .receive (.recv (.ok ⟨"id", .done⟩)),
      .receive .close, .becomeReady, .connect .ready, .connect .once, .connect .once,
      .connect .waitDone, .connect .cleanup]].flatten

theorem connect_lastWord_ready :
    ∃ s : AttemptRun, s.pc = .returned .ok ∧ s.Quiescent ∧ ∃ stage, s.said = [stage] := by
  obtain ⟨s, hr, hret, hquiet⟩ : ∃ s, attemptMachine.ReachableWith (·.succeeds · = true) s ∧
      s.pc = .returned .ok ∧ s.Quiescent :=
    attemptMachine.exists_reachableWith (·.succeeds · = true) exampleAttempt readyRun
      ⟨"id", true, rfl⟩ (by decide +kernel)
  obtain ⟨hword, hloud⟩ := connect_lastWord hr.reachable hret
  rw [hloud hr] at hword
  obtain ⟨stage, hsaid, -⟩ := hword
  exact ⟨s, hret, hquiet, stage, hsaid⟩

/-- In some run `connect` has returned there, its goroutines have finished, and neither a `Done` nor
an error was sent. -/
def ConnectExit.SaysNothing (exit : ConnectExit) : Prop :=
  ∃ s, attemptMachine.Reachable s ∧ s.pc = .returned exit ∧ s.Quiescent ∧ s.said = []

theorem ConnectExit.saysNothing_of_exec {exit : ConnectExit} (as : List AttemptAct)
    (hrun : (attemptMachine.exec exampleAttempt as).any (fun s =>
      decide (s.pc = .returned exit ∧ s.Quiescent ∧ s.said = [])) = true) :
    exit.SaysNothing := by
  exact attemptMachine.exists_reachable _ as ⟨"id", true, rfl⟩ hrun

/-- The answer cannot be created or set, no host candidate comes in time, or the init stage is not
sent: nothing is reported. -/
theorem connect_says_nothing :
    (ConnectExit.createAnswer .eof).SaysNothing ∧
    (ConnectExit.setLocalDescription .eof).SaysNothing ∧
    (ConnectExit.noHost .deadlineExceeded).SaysNothing ∧
    (ConnectExit.initNotSent .eof).SaysNothing := by
  refine ⟨?_, ?_, ?_, ?_⟩
  · exact ConnectExit.saysNothing_of_exec [.connect (.newPeer none),
      .connect (.createAnswer (some .eof)), .connect .cleanup] (by decide +kernel)
  · exact ConnectExit.saysNothing_of_exec [.connect (.newPeer none), .connect (.createAnswer none),
      .connect (.setLocalDescription (some .eof)), .connect .cleanup] (by decide +kernel)
  · exact ConnectExit.saysNothing_of_exec [openPeer, [.expire .deadlineExceeded, .connect .ctxDone,
      .connect .cleanup]].flatten (by decide +kernel)
  · exact ConnectExit.saysNothing_of_exec [openPeer, findHost, [.connect (.sendInit (some .eof)),
      .connect .cleanup, .expire .canceled, .candidate 0 .ctxDone, .candidate 0 .next]].flatten
      (by decide +kernel)

end Goutils.Signaling
