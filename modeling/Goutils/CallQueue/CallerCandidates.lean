import Goutils.CallQueue.RecvOffer

namespace Goutils.CallQueue
open Lib
set_option autoImplicit true

/-- Where the answerer of a call stands; `finished` is where `CallerDone` fires. -/
inductive CandPc where
  | recv
  | acquired (callReq : MongoCall)
  | top (latestReq : MongoCall)
  | sending (cands : List MongoICECandidate) (latestReq : MongoCall)
  | select
  | finished
  deriving DecidableEq

/-- One call: its document, the candidates pushed, pending updates and what was received. -/
structure CandState where
  inserted : MongoCall
  calls : Calls
  pushed : List ICECandidateInit := []
  updates : List MongoCall := []
  events : List MongoCall := []
  pc : CandPc := .recv
  candLen : Nat := 0
  received : List ICECandidateInit := []
  callerErr : Option String := none
  canceled : Bool := false

inductive CandAct where
  | push (c : ICECandidateInit)
  | done
  | fail (err : String)
  | answer (sdp : String)
  | find (operatorID : String) (startedAtWindow : Int)
  | take (operatorID : String)
  | subscribe
  | dispatch (late : Bool)
  | step
  | cancel
  | giveUp
  deriving DecidableEq

def CandPc.subscribed : CandPc → Bool
  | .recv | .acquired _ => false
  | _ => true

namespace CandState

def doc (s : CandState) : Option MongoCall :=
  s.calls.find? (MongoQueue.isOffer s.inserted.host s.inserted.id)

def updated (s : CandState) (calls : Calls) : CandState :=
  if calls = s.calls then s
  else { s with
    calls
    updates := s.updates ++
      (calls.find? (MongoQueue.isOffer s.inserted.host s.inserted.id)).toList }

def callerLoop (s : CandState) : CandPc → Option CandState
  | .top latestReq =>
    if latestReq.callerError.getD "" ≠ "" then
      some { s with callerErr := latestReq.callerError, pc := .finished }
    else if s.candLen < latestReq.callerCandidates.length then
      some { s with
        pc := .sending (latestReq.callerCandidates.drop s.candLen) latestReq
        candLen := latestReq.callerCandidates.length }
    else some { s with pc := .sending [] latestReq }
  | .sending (c :: cands) latestReq => some { s with
      received := s.received ++ [iceCandidateFromMongo c]
      pc := .sending cands latestReq }
  | .sending [] latestReq =>
    some { s with pc := if latestReq.callerDone || s.canceled then .finished else .select }
  | .select =>
    match s.events with
    | e :: events => some { s with events, pc := .top e }
    | [] => none
  | _ => none

def giveUp (s : CandState) : CandPc → Option CandState
  | .sending (_ :: _) _ | .select => some { s with pc := .finished }
  | _ => none

end CandState

def candStep (s : CandState) : CandAct → Option CandState
  -- The caller pushes no candidate once it is done.
  | .push c =>
    if s.doc.any fun d => !d.callerDone then
      some { s.updated (MongoQueue.sendOfferUpdate s.calls s.inserted.host s.inserted.id c).1 with
        pushed := s.pushed ++ [c] }
    else none
  | .done => some (s.updated (MongoQueue.sendOfferDone s.calls s.inserted.host s.inserted.id).1)
  | .fail err =>
    some (s.updated (MongoQueue.sendOfferError s.calls s.inserted.host s.inserted.id err).1)
  | .answer sdp => some (s.updated (s.calls.updateOne
      (MongoQueue.isOffer s.inserted.host s.inserted.id) fun d => { d with answererSDP := sdp }).1)
  -- The two ways to acquire the call, with what they take for the request.
  | .find operatorID startedAtWindow =>
    if s.pc = .recv then
      match s.calls.findOneAndUpdate (isWaiting [s.inserted.host] startedAtWindow)
          (acquire operatorID) with
      | (calls, some callReq) => some { s.updated calls with pc := .acquired callReq }
      | (_, none) => none
    else none
  | .take operatorID =>
    let r := s.calls.updateOne (isUnanswered s.inserted.id) (acquire operatorID)
    if s.pc = .recv ∧ r.2.matchedCount = 1 ∧ r.2.modifiedCount = 1 then
      some { s.updated r.1 with pc := .acquired s.inserted }
    else none
  | .subscribe =>
    match s.pc with
    | .acquired callReq =>
      some { s with pc := .top callReq, candLen := callReq.callerCandidates.length }
    | _ => none
  -- Only a subscriber gets the event.
  | .dispatch late =>
    match s.updates with
    | u :: updates =>
      let event := if late then s.doc.getD u else u
      some { s with updates, events := if s.pc.subscribed then s.events ++ [event] else s.events }
    | [] => none
  | .step => s.callerLoop s.pc
  | .cancel => some { s with canceled := true }
  | .giveUp => if s.canceled then s.giveUp s.pc else none

def candMachine : Machine CandState CandAct where
  init s := ∃ id callerOperatorID host startedAt callerSDP,
    let c : MongoCall := { id, callerOperatorID, host, startedAt, callerSDP }
    s = { inserted := c, calls := [c] }
  step := candStep

variable {pc : CandPc} {s s' : CandState}

namespace CandState

/-- The document of the call is the only one. -/
structure Doc (s : CandState) (d : MongoCall) : Prop where
  calls : s.calls = [d]
  id : d.id = s.inserted.id
  host : d.host = s.inserted.host

def put (s : CandState) (d d' : MongoCall) : CandState :=
  if d' = d then s else { s with calls := [d'], updates := s.updates ++ [d'] }

theorem put_self (s : CandState) (d : MongoCall) : s.put d d = s := if_pos rfl

theorem put_pc (s : CandState) (d d' : MongoCall) : (s.put d d').pc = s.pc := by
  unfold put
  split
  · rfl
  · rfl

theorem put_pushed (s : CandState) (d d' : MongoCall) : (s.put d d').pushed = s.pushed := by
  unfold put
  split
  · rfl
  · rfl

namespace Doc
variable {s : CandState} {d : MongoCall}

theorem isOffer (h : s.Doc d) : MongoQueue.isOffer s.inserted.host s.inserted.id d = true := by
  rw [MongoQueue.isOffer, decide_eq_true_eq]
  exact ⟨h.id, h.host⟩

theorem doc (h : s.Doc d) : s.doc = some d := by
  rw [CandState.doc, h.calls]
  exact List.find?_cons_of_pos h.isOffer

theorem updated (h : s.Doc d) (hid : d'.id = d.id) (hhost : d'.host = d.host) :
    s.updated [d'] = s.put d d' := by
  have hoff : MongoQueue.isOffer s.inserted.host s.inserted.id d' = true := by
    rw [MongoQueue.isOffer, decide_eq_true_eq]
    exact ⟨hid.trans h.id, hhost.trans h.host⟩
  rw [CandState.updated, put, h.calls]
  simp only [List.cons.injEq, and_true, List.find?_cons_of_pos hoff, Option.toList_some]

theorem updateOne (h : s.Doc d) (p : MongoCall → Bool) (f : MongoCall → MongoCall) :
    (s.calls.updateOne p f).1 = [if p d then f d else d] := by
  rw [Calls.updateOne_docs, h.calls, Calls.update]
  split
  · rfl
  · rfl

end Doc

inductive Step (s : CandState) (d : MongoCall) : CandAct → CandState → Prop where
  | push : d.callerDone = false →
      Step s d (.push c) { s.put d { d with
        callerCandidates := d.callerCandidates ++ [iceCandidateToMongo c] } with
        pushed := s.pushed ++ [c] }
  | done : Step s d .done (s.put d { d with callerDone := true })
  | fail : d.callerDone = false →
      Step s d (.fail err) (s.put d { d with callerError := some err })
  | failLate : d.callerDone = true → Step s d (.fail err) s
  | answer : Step s d (.answer sdp) (s.put d { d with answererSDP := sdp })
  | find : s.pc = .recv →
      Step s d (.find operatorID startedAtWindow)
        { s.put d (acquire operatorID d) with pc := .acquired d }
  | take : s.pc = .recv →
      Step s d (.take operatorID)
        { s.put d (acquire operatorID d) with pc := .acquired s.inserted }
  | subscribe : s.pc = .acquired callReq →
      Step s d .subscribe
        { s with pc := .top callReq, candLen := callReq.callerCandidates.length }
  | dispatch : s.updates = u :: us → (e = u ∨ e = d) →
      Step s d (.dispatch late)
        { s with
          updates := us
          events := if s.pc.subscribed then s.events ++ [e] else s.events }
  | callerError : s.pc = .top latestReq → latestReq.callerError.getD "" ≠ "" →
      Step s d .step { s with callerErr := latestReq.callerError, pc := .finished }
  | more : s.pc = .top latestReq → s.candLen < latestReq.callerCandidates.length →
      Step s d .step
        { s with
          pc := .sending (latestReq.callerCandidates.drop s.candLen) latestReq
          candLen := latestReq.callerCandidates.length }
  | same : s.pc = .top latestReq → latestReq.callerCandidates.length ≤ s.candLen →
      Step s d .step { s with pc := .sending [] latestReq }
  | send : s.pc = .sending (c :: cands) latestReq →
      Step s d .step
        { s with
          received := s.received ++ [iceCandidateFromMongo c]
          pc := .sending cands latestReq }
  | finish : s.pc = .sending [] latestReq → (latestReq.callerDone || s.canceled) = true →
      Step s d .step { s with pc := .finished }
  | wait : s.pc = .sending [] latestReq → (latestReq.callerDone || s.canceled) = false →
      Step s d .step { s with pc := .select }
  | next : s.pc = .select → s.events = e :: es →
      Step s d .step { s with events := es, pc := .top e }
  | cancel : Step s d .cancel { s with canceled := true }
  | giveUp : s.canceled = true → Step s d .giveUp { s with pc := .finished }

theorem callerLoop_step (h : callerLoop s pc = some s') (hpc : s.pc = pc) : Step s d .step s' := by
  cases pc with
  | top latestReq =>
    simp only [callerLoop] at h
    split at h
    · cases h
      exact .callerError hpc ‹_›
    · split at h
      · cases h
        exact .more hpc ‹_›
      · cases h
        exact .same hpc (Nat.le_of_not_lt ‹_›)
  | sending cands latestReq =>
    cases cands with
    | cons c cands =>
      cases h
      exact .send hpc
    | nil =>
      simp only [callerLoop] at h
      split at h
      · cases h
        exact .finish hpc ‹_›
      · cases h
        exact .wait hpc (Bool.eq_false_iff.2 ‹_›)
  | select =>
    simp only [callerLoop] at h
    split at h
    · cases h
      exact .next hpc ‹_›
    · cases h
  | recv | acquired callReq | finished => cases h

theorem giveUp_step (h : giveUp s pc = some s') (hc : s.canceled = true) : Step s d .giveUp s' := by
  unfold giveUp at h
  split at h
  · cases h
    exact .giveUp hc
  · cases h
    exact .giveUp hc
  · cases h

theorem Doc.step (h : s.Doc d) (hs : candStep s a = some s') : Step s d a s' := by
  have hput (f : MongoCall → MongoCall) (hid : (f d).id = d.id) (hhost : (f d).host = d.host) :
      s.updated (s.calls.updateOne (MongoQueue.isOffer s.inserted.host s.inserted.id) f).1 =
        s.put d (f d) := by
    rw [h.updateOne, if_pos h.isOffer]
    exact h.updated hid hhost
  cases a with
  | push c =>
    simp only [candStep, h.doc, Option.any_some] at hs
    split at hs
    · rename_i hd
      simp only [MongoQueue.sendOfferUpdate] at hs
      rw [hput _ (by rfl) (by rfl)] at hs
      cases hs
      exact .push (by simpa using hd)
    · cases hs
  | done =>
    simp only [candStep, MongoQueue.sendOfferDone] at hs
    rw [hput _ (by rfl) (by rfl)] at hs
    cases hs
    exact .done
  | fail err =>
    simp only [candStep, MongoQueue.sendOfferError] at hs
    rw [h.updateOne, h.isOffer, Bool.true_and] at hs
    split at hs
    · rename_i hd
      rw [h.updated (by rfl) (by rfl)] at hs
      cases hs
      exact .fail (by simpa using hd)
    · rename_i hd
      rw [h.updated rfl rfl, put_self] at hs
      cases hs
      exact .failLate (by simpa using hd)
  | answer sdp =>
    simp only [candStep] at hs
    rw [hput _ (by rfl) (by rfl)] at hs
    cases hs
    exact .answer
  | find operatorID startedAtWindow =>
    simp only [candStep, Calls.findOneAndUpdate] at hs
    split at hs
    · rename_i hpc
      split at hs
      · rename_i calls callReq heq
        cases hs
        obtain ⟨rfl, hfind⟩ := Prod.mk.inj heq
        rw [h.calls, List.find?_cons] at hfind
        split at hfind
        · rename_i hp
          cases hfind
          rw [h.calls, Calls.update, if_pos hp, h.updated (by rfl) (by rfl)]
          exact .find hpc
        · cases hfind
      · cases hs
    · cases hs
  | take operatorID =>
    simp only [candStep] at hs
    split at hs
    · rename_i hg
      obtain ⟨hpc, hm, -⟩ := hg
      cases hs
      rw [Calls.updateOne_matched, h.calls, List.any_cons, List.any_nil, Bool.or_false] at hm
      rw [h.updateOne, if_pos (by_contra fun hp => by simp [hp] at hm),
        h.updated (by rfl) (by rfl)]
      exact .take hpc
    · cases hs
  | subscribe =>
    simp only [candStep] at hs
    split at hs
    · cases hs
      exact .subscribe ‹_›
    · cases hs
  | dispatch late =>
    simp only [candStep, h.doc, Option.getD_some] at hs
    split at hs
    · cases hs
      refine .dispatch ‹_› ?_
      cases late with
      | false => exact .inl rfl
      | true => exact .inr rfl
    · cases hs
  | step => exact callerLoop_step hs rfl
  | cancel =>
    cases hs
    exact .cancel
  | giveUp =>
    simp only [candStep] at hs
    split at hs
    · exact giveUp_step hs ‹_›
    · cases hs

end CandState

/-- The caller does not fail and no context is done, and a document that `FindOneAndUpdate` finds
has no candidates yet. -/
def CandFresh (s : CandState) : CandAct → Prop
  | .find _ _ => s.doc.all fun d => d.callerCandidates.isEmpty
  | .fail _ | .cancel => False
  | _ => True

instance : ∀ s a, Decidable (CandFresh s a) := fun s a => by
  unfold CandFresh
  split <;> infer_instance

/-- An earlier state of a document that only grows. -/
structure MongoCall.Snapshot (e d : MongoCall) : Prop where
  candidates : e.callerCandidates <+: d.callerCandidates
  noError : e.callerError = none
  done : e.callerDone = true → e.callerCandidates = d.callerCandidates ∧ d.callerDone = true

theorem MongoCall.Snapshot.trans (h : Snapshot e d) (h' : Snapshot d d') : Snapshot e d' where
  candidates := h.candidates.trans h'.candidates
  noError := h.noError
  done he := by
    obtain ⟨hc, hd⟩ := h.done he
    obtain ⟨hc', hd'⟩ := h'.done hd
    exact ⟨hc.trans hc', hd'⟩

theorem MongoCall.Snapshot.refl (h : d.callerError = none) : Snapshot d d where
  candidates := List.prefix_refl _
  noError := h
  done hd := ⟨rfl, hd⟩

def CandPc.latest : CandPc → List MongoCall
  | .acquired callReq => [callReq]
  | .top latestReq | .sending _ latestReq => [latestReq]
  | _ => []

def CandPc.rest : CandPc → List MongoICECandidate
  | .sending cands _ => cands
  | _ => []

def CandPc.Fits (candLen n : Nat) (callerDone : Bool) : CandPc → Prop
  | .recv => candLen = 0
  | .acquired callReq => candLen = 0 ∧ callReq.callerCandidates = []
  | .sending _ latestReq => latestReq.callerCandidates.length ≤ candLen
  | .finished => candLen = n ∧ callerDone = true
  | _ => True

theorem iceCandidateToMongo_injective : Function.Injective iceCandidateToMongo :=
  Function.LeftInverse.injective iceCandidateFromMongo_toMongo

theorem fromMongo_comp_toMongo : iceCandidateFromMongo ∘ iceCandidateToMongo = id := rfl

namespace CandState

/-- What was received and is about to be sent are the first `candLen` candidates. -/
structure Delivers (s : CandState) (d : MongoCall) : Prop where
  calls : s.calls = [d]
  id : d.id = s.inserted.id
  host : d.host = s.inserted.host
  inserted : s.inserted.Snapshot d
  unpushed : s.inserted.callerCandidates = []
  pushed : d.callerCandidates = s.pushed.map iceCandidateToMongo
  noError : d.callerError = none
  callerErr : s.callerErr = none
  live : s.canceled = false
  updates : ∀ e ∈ s.updates, e.Snapshot d
  events : ∀ e ∈ s.events, e.Snapshot d
  latest : ∀ e ∈ s.pc.latest, e.Snapshot d
  sent : s.received.map iceCandidateToMongo ++ s.pc.rest = d.callerCandidates.take s.candLen
  candLen : s.candLen ≤ d.callerCandidates.length
  fits : s.pc.Fits s.candLen d.callerCandidates.length d.callerDone

namespace Delivers
variable {s : CandState} {d d' : MongoCall} (h : s.Delivers d)

include h

theorem doc : s.Doc d := { h with }

theorem put (hd : d.Snapshot d') (hid : d'.id = d.id) (hhost : d'.host = d.host)
    (herr : d'.callerError = none) (hpushed : d'.callerCandidates = cs.map iceCandidateToMongo) :
    Delivers { s.put d d' with pushed := cs } d' := by
  have hfits : s.pc.Fits s.candLen d'.callerCandidates.length d'.callerDone := by
    have hf := h.fits
    revert hf
    cases s.pc with
    | finished =>
      intro hf
      obtain ⟨hc, hd'⟩ := hd.done hf.2
      exact ⟨hc ▸ hf.1, hd'⟩
    | _ => exact fun hf => hf
  have hsent : s.received.map iceCandidateToMongo ++ s.pc.rest =
      d'.callerCandidates.take s.candLen := by
    obtain ⟨rest, hrest⟩ := hd.candidates
    rw [h.sent, ← hrest, List.take_append_of_le_length h.candLen]
  by_cases heq : d' = d
  · subst heq
    rw [put_self]
    exact { h with pushed := hpushed }
  · rw [CandState.put, if_neg heq]
    exact
    { calls := rfl
      id := hid.trans h.id
      host := hhost.trans h.host
      inserted := h.inserted.trans hd
      unpushed := h.unpushed
      pushed := hpushed
      noError := herr
      callerErr := h.callerErr
      live := h.live
      updates := by
        intro e he
        rcases List.mem_append.1 he with he | he
        · exact (h.updates e he).trans hd
        · rw [List.mem_singleton.1 he]
          exact .refl herr
      events := fun e he => (h.events e he).trans hd
      latest := fun e he => (h.latest e he).trans hd
      sent := hsent
      candLen := h.candLen.trans hd.candidates.length_le
      fits := hfits }

theorem put_same (hd : d.Snapshot d') (hid : d'.id = d.id) (hhost : d'.host = d.host)
    (herr : d'.callerError = d.callerError) (hc : d'.callerCandidates = d.callerCandidates) :
    (s.put d d').Delivers d' := by
  have h' := h.put hd hid hhost (herr.trans h.noError) (hc.trans h.pushed)
  rwa [← put_pushed s d d'] at h'

theorem at_pc (hpc : s.pc = pc) : (∀ e ∈ pc.latest, e.Snapshot d) ∧
    s.received.map iceCandidateToMongo ++ pc.rest = d.callerCandidates.take s.candLen ∧
    pc.Fits s.candLen d.callerCandidates.length d.callerDone := by
  subst hpc
  exact ⟨h.latest, h.sent, h.fits⟩

theorem acquired (hpc : s.pc = .recv) (hc : c.Snapshot d) (hnil : c.callerCandidates = []) :
    Delivers { s with pc := .acquired c } d := by
  obtain ⟨-, hs, hf⟩ := h.at_pc hpc
  exact { h with
    latest := fun e he => List.mem_singleton.1 he ▸ hc
    sent := hs
    fits := ⟨hf, hnil⟩ }

theorem step (hok : CandFresh s a) (hs : Step s d a s') : ∃ d', s'.Delivers d' ∧ d.Snapshot d' := by
  have hsame : d.Snapshot d := .refl h.noError
  cases hs with
  | @push c hd =>
    have hgrow : d.Snapshot { d with
        callerCandidates := d.callerCandidates ++ [iceCandidateToMongo c] } :=
      ⟨List.prefix_append _ _, h.noError, fun hd' => by cases hd.symm.trans hd'⟩
    refine ⟨_, h.put hgrow rfl rfl h.noError ?_, hgrow⟩
    rw [h.pushed, List.map_append]
    rfl
  | done =>
    have hgrow : d.Snapshot { d with callerDone := true } :=
      ⟨List.prefix_refl _, h.noError, fun _ => ⟨rfl, rfl⟩⟩
    exact ⟨_, h.put_same hgrow rfl rfl rfl rfl, hgrow⟩
  | fail | failLate | cancel => cases hok
  | @answer sdp =>
    have hgrow : d.Snapshot { d with answererSDP := sdp } :=
      ⟨List.prefix_refl _, h.noError, fun hd => ⟨rfl, hd⟩⟩
    exact ⟨_, h.put_same hgrow rfl rfl rfl rfl, hgrow⟩
  | @find operatorID startedAtWindow hpc =>
    have hnil : d.callerCandidates = [] := by
      simpa [CandFresh, h.doc.doc] using hok
    have hgrow : d.Snapshot (acquire operatorID d) :=
      ⟨List.prefix_refl _, h.noError, fun hd => ⟨rfl, hd⟩⟩
    have h' := h.put_same hgrow rfl rfl rfl rfl
    exact ⟨_, h'.acquired ((put_pc _ _ _).trans hpc) hgrow hnil, hgrow⟩
  | @take operatorID hpc =>
    have hgrow : d.Snapshot (acquire operatorID d) :=
      ⟨List.prefix_refl _, h.noError, fun hd => ⟨rfl, hd⟩⟩
    have h' := h.put_same hgrow rfl rfl rfl rfl
    have hins := h.inserted.trans hgrow
    exact ⟨_, h'.acquired ((put_pc _ _ _).trans hpc) hins h.unpushed, hgrow⟩
  | @subscribe callReq hpc =>
    obtain ⟨hl, hs, hf⟩ := h.at_pc hpc
    have hlen : callReq.callerCandidates.length = s.candLen := by
      rw [hf.1, hf.2]
      rfl
    exact ⟨d, { h with
      latest := hl
      sent := hlen ▸ hs
      candLen := hlen ▸ h.candLen
      fits := trivial }, hsame⟩
  | @dispatch u us e late hu he =>
    have hus : ∀ x ∈ us, x.Snapshot d := fun x hx =>
      h.updates x (hu ▸ List.mem_cons_of_mem u hx)
    refine ⟨d, { h with updates := hus, events := ?_ }, hsame⟩
    intro x hx
    split at hx
    · rcases List.mem_append.1 hx with hx | hx
      · exact h.events x hx
      · rw [List.mem_singleton.1 hx]
        rcases he with rfl | rfl
        · exact h.updates e (hu ▸ List.mem_cons_self)
        · exact .refl h.noError
    · exact h.events x hx
  | @callerError latestReq hpc herr =>
    obtain ⟨hl, -, -⟩ := h.at_pc hpc
    rw [(hl latestReq List.mem_cons_self).noError] at herr
    cases herr rfl
  | @more latestReq hpc hlt =>
    obtain ⟨hl, hs, -⟩ := h.at_pc hpc
    have hsnap := hl latestReq List.mem_cons_self
    have hsent : s.received.map iceCandidateToMongo ++ latestReq.callerCandidates.drop s.candLen =
        d.callerCandidates.take latestReq.callerCandidates.length := by
      have hrec : s.received.map iceCandidateToMongo = d.callerCandidates.take s.candLen :=
        (List.append_nil _).symm.trans hs
      obtain ⟨rest, hrest⟩ := hsnap.candidates
      rw [hrec, ← hrest, List.take_left, List.take_append_of_le_length (Nat.le_of_lt hlt)]
      exact List.take_append_drop _ _
    exact ⟨d, { h with
      latest := hl
      sent := hsent
      candLen := hsnap.candidates.length_le
      fits := Nat.le_refl _ }, hsame⟩
  | @same latestReq hpc hle =>
    obtain ⟨hl, hs, -⟩ := h.at_pc hpc
    exact ⟨d, { h with latest := hl, sent := hs, fits := hle }, hsame⟩
  | @send c cands latestReq hpc =>
    obtain ⟨hl, hs, hf⟩ := h.at_pc hpc
    have hsent : (s.received ++ [iceCandidateFromMongo c]).map iceCandidateToMongo ++ cands =
        d.callerCandidates.take s.candLen := by
      rw [← hs, List.map_append, List.append_assoc]
      rfl
    exact ⟨d, { h with latest := hl, sent := hsent, fits := hf }, hsame⟩
  | @finish latestReq hpc hd =>
    obtain ⟨hl, hs, hf⟩ := h.at_pc hpc
    rw [h.live, Bool.or_false] at hd
    obtain ⟨hc, hdone⟩ := (hl latestReq List.mem_cons_self).done hd
    refine ⟨d, { h with latest := fun _ => nofun, sent := hs, fits := ⟨?_, hdone⟩ }, hsame⟩
    exact Nat.le_antisymm h.candLen (hc ▸ hf)
  | wait hpc hd =>
    obtain ⟨-, hs, -⟩ := h.at_pc hpc
    exact ⟨d, { h with latest := fun _ => nofun, sent := hs, fits := trivial }, hsame⟩
  | @next e es hpc he =>
    obtain ⟨-, hs, -⟩ := h.at_pc hpc
    have hev : ∀ x ∈ e :: es, x.Snapshot d := fun x hx => h.events x (he ▸ hx)
    exact ⟨d, { h with
      events := fun x hx => hev x (List.mem_cons_of_mem e hx)
      latest := fun x hx => List.mem_singleton.1 hx ▸ hev e List.mem_cons_self
      sent := hs
      fits := trivial }, hsame⟩
  | giveUp hc =>
    rw [h.live] at hc
    cases hc

theorem received_prefix : s.received <+: s.pushed := by
  have hmap : s.received.map iceCandidateToMongo <+: s.pushed.map iceCandidateToMongo := by
    rw [← h.pushed]
    exact (List.prefix_append _ _).trans (h.sent ▸ List.take_prefix _ _)
  have hback := hmap.map iceCandidateFromMongo
  rwa [List.map_map, List.map_map, fromMongo_comp_toMongo, List.map_id, List.map_id] at hback

theorem finished (hpc : s.pc = .finished) : d.callerDone = true ∧ s.received = s.pushed := by
  obtain ⟨-, hs, hf⟩ := h.at_pc hpc
  refine ⟨hf.2, h.received_prefix.eq_of_length ?_⟩
  have hlen := congrArg List.length hs
  rw [hf.1, List.take_length, h.pushed] at hlen
  simpa [CandPc.rest] using hlen

end Delivers

theorem delivers_of_reachable (h : candMachine.ReachableWith CandFresh s) :
    ∃ d, s.Delivers d := by
  refine h.invariant (I := fun s => ∃ d, s.Delivers d) ?_ ?_
  · rintro s ⟨id, callerOperatorID, host, startedAt, callerSDP, rfl⟩
    exact ⟨_,
      { calls := rfl
        id := rfl
        host := rfl
        inserted := .refl rfl
        unpushed := rfl
        pushed := rfl
        noError := rfl
        callerErr := rfl
        live := rfl
        updates := fun _ => nofun
        events := fun _ => nofun
        latest := fun _ => nofun
        sent := rfl
        candLen := Nat.le_refl 0
        fits := rfl }⟩
  · rintro s a s' ⟨d, hd⟩ hok hs
    obtain ⟨d', hd', -⟩ := hd.step hok (hd.doc.step hs)
    exact ⟨d', hd'⟩

def pending (s : CandState) : List MongoCall := s.updates ++ s.events ++ s.pc.latest

def Told (s : CandState) : Prop :=
  ∀ d, s.calls = [d] → d.callerDone = true →
    s.pc.subscribed = true ∧ (s.pc = .finished ∨ ∃ e ∈ s.pending, e.callerDone = true)

namespace Told
variable {s : CandState} {d d' : MongoCall}

theorem put (h : s.Told) (hc : s.calls = [d])
    (hd : d'.callerDone = true → d.callerDone = true ∨ s.pc.subscribed = true) :
    (s.put d d').Told := by
  by_cases heq : d' = d
  · rwa [heq, put_self]
  · rw [CandState.put, if_neg heq]
    intro d₁ hd₁ hdone
    obtain rfl : d' = d₁ := List.head_eq_of_cons_eq hd₁
    have hmem : d' ∈ s.updates ++ [d'] ++ s.events ++ s.pc.latest := by simp
    refine ⟨?_, .inr ⟨d', hmem, hdone⟩⟩
    rcases hd hdone with hd | hd
    · exact (h d hc hd).1
    · exact hd

theorem move (h : s.Told) (hcalls : s'.calls = s.calls)
    (hsub : s.pc.subscribed = true → s'.pc.subscribed = true)
    (hfin : s.pc = .finished → s'.pc = .finished)
    (hpend : ∀ e ∈ s.pending, e.callerDone = true → s.pc.subscribed = true →
      s'.pc = .finished ∨ ∃ e ∈ s'.pending, e.callerDone = true) : s'.Told := by
  intro d hc hd
  obtain ⟨hs, hf | ⟨e, he, hed⟩⟩ := h d (hcalls ▸ hc) hd
  · exact ⟨hsub hs, .inl (hfin hf)⟩
  · exact ⟨hsub hs, hpend e he hed hs⟩

theorem keep (h : s.Told) (hpc : s.pc = pc) (hne : pc ≠ .finished) (hsub : s'.pc.subscribed = true)
    (hcalls : s'.calls = s.calls) (hpend : s'.pending = s.updates ++ s.events ++ pc.latest) :
    s'.Told := by
  subst hpc
  apply h.move hcalls (fun _ => hsub) (fun hf => absurd hf hne)
  intro e he hd _
  exact .inr ⟨e, hpend ▸ he, hd⟩

theorem unsubscribed (h : s.Told) (hc : s.calls = [d]) (hsub : s.pc.subscribed = false) :
    d.callerDone = false := by
  by_contra hd
  rw [(h d hc (Bool.eq_true_of_not_eq_false hd)).1] at hsub
  cases hsub

end Told

theorem told_of_not_done (hc : s.calls = [d]) (hd : d.callerDone = false) : s.Told := by
  intro d' hc' hd'
  obtain rfl : d = d' := List.head_eq_of_cons_eq (hc.symm.trans hc')
  rw [hd] at hd'
  cases hd'

theorem put_calls (hc : s.calls = [d]) : (s.put d d').calls = [d'] := by
  unfold put
  split
  · rename_i heq
    rw [hc, heq]
  · rfl

theorem Delivers.told (h : s.Delivers d) (ht : s.Told) (hok : CandFresh s a)
    (hdone : a = .done → s.pc.subscribed = true) (hs : Step s d a s') : s'.Told := by
  cases hs with
  | push hd => exact told_of_not_done (put_calls h.calls) hd
  | done => exact ht.put h.calls fun _ => .inr (hdone rfl)
  | fail | failLate | cancel => cases hok
  | answer => exact ht.put h.calls fun hd' => .inl hd'
  | find hpc | take hpc =>
    have hd := ht.unsubscribed h.calls (hpc ▸ rfl)
    exact told_of_not_done (put_calls h.calls) hd
  | subscribe hpc => exact told_of_not_done h.calls (ht.unsubscribed h.calls (hpc ▸ rfl))
  | @dispatch u us e late hu he =>
    refine ht.move rfl (fun hs => hs) (fun hf => hf) fun x hx hxd hsub => .inr ?_
    have hmem : x = u ∨ x ∈ us ++ s.events ++ s.pc.latest := by
      rw [pending, hu] at hx
      exact List.mem_cons.1 hx
    have hpend (y) (hy : y = e ∨ y ∈ us ++ s.events ++ s.pc.latest) : y ∈ pending { s with
        updates := us
        events := if s.pc.subscribed then s.events ++ [e] else s.events } := by
      rw [pending, if_pos hsub]
      simp only [List.mem_append, List.mem_singleton] at hy ⊢
      tauto
    rcases hmem with rfl | hmem
    · refine ⟨e, hpend e (.inl rfl), ?_⟩
      rcases he with rfl | rfl
      · exact hxd
      · exact ((h.updates x (hu ▸ List.mem_cons_self)).done hxd).2
    · exact ⟨x, hpend x (.inr hmem), hxd⟩
  | callerError hpc herr | giveUp hc =>
    exact ht.move rfl (fun _ => rfl) (fun _ => rfl) fun _ _ _ _ => .inl rfl
  | more hpc hlt | same hpc hle | send hpc => exact ht.keep hpc nofun rfl rfl rfl
  | finish hpc hd => exact ht.move rfl (fun _ => rfl) (fun _ => rfl) fun _ _ _ _ => .inl rfl
  | @wait latestReq hpc hd =>
    refine ht.move rfl (fun _ => rfl) (fun hf => by cases hpc.symm.trans hf) ?_
    intro e he hed _
    rw [pending, hpc] at he
    rcases List.mem_append.1 he with he | he
    · exact .inr ⟨e, List.mem_append_left _ he, hed⟩
    · rw [List.mem_singleton.1 he] at hed
      rw [hed] at hd
      cases hd
  | @next e es hpc he =>
    refine ht.move rfl (fun _ => rfl) (fun hf => by cases hpc.symm.trans hf) ?_
    intro x hx hxd _
    rw [pending, hpc, he] at hx
    refine .inr ⟨x, ?_, hxd⟩
    simp only [pending, CandPc.latest, List.mem_append, List.mem_cons, List.not_mem_nil] at hx ⊢
    tauto

end CandState

/-- Besides, the caller is done only after the answerer has subscribed to the call. -/
def CandPrompt (s : CandState) (a : CandAct) : Prop :=
  CandFresh s a ∧ (a = .done → s.pc.subscribed = true)

instance : ∀ s a, Decidable (CandPrompt s a) := fun s a =>
  inferInstanceAs (Decidable (CandFresh s a ∧ (a = .done → s.pc.subscribed = true)))

namespace CandState

theorem told_of_reachable (h : candMachine.ReachableWith CandPrompt s) : s.Told := by
  induction h with
  | init hi =>
    obtain ⟨id, callerOperatorID, host, startedAt, callerSDP, rfl⟩ := hi
    exact told_of_not_done rfl rfl
  | step hr hok hs ih =>
    obtain ⟨d, hd⟩ := delivers_of_reachable (hr.mono fun _ _ => And.left)
    exact hd.told ih hok.1 hok.2 (hd.doc.step hs)

def left (s : CandState) : Nat :=
  4 * s.updates.length + 3 * s.events.length + (s.pushed.length - s.candLen) +
    match s.pc with
    | .top _ => 2
    | .sending cands _ => 1 + cands.length
    | _ => 0

def Ending (cs : List ICECandidateInit) (s : CandState) : Prop :=
  s.Told ∧ s.pushed = cs ∧ ∃ d, s.Delivers d ∧ d.callerDone = true

theorem Ending.step (h : Ending cs s) (hok : CandPrompt s a) (hs : candStep s a = some s') :
    Ending cs s' := by
  obtain ⟨ht, hcs, d, hd, hdone⟩ := h
  have hst := hd.doc.step hs
  obtain ⟨d', hd', hgrow⟩ := hd.step hok.1 hst
  obtain ⟨hc, hdone'⟩ := hgrow.done hdone
  refine ⟨hd.told ht hok.1 hok.2 hst, ?_, d', hd', hdone'⟩
  -- No candidate is pushed any more, since the document keeps those that it has.
  rw [hd.pushed, hd'.pushed] at hc
  exact (iceCandidateToMongo_injective.list_map hc).symm.trans hcs

theorem callerLoop_top (s : CandState) (latestReq : MongoCall) :
    ∃ s', s.callerLoop (.top latestReq) = some s' := by
  simp only [callerLoop]
  split
  · exact ⟨_, rfl⟩
  · split
    · exact ⟨_, rfl⟩
    · exact ⟨_, rfl⟩

theorem callerLoop_sending (s : CandState) (cands : List MongoICECandidate)
    (latestReq : MongoCall) : ∃ s', s.callerLoop (.sending cands latestReq) = some s' := by
  cases cands with
  | nil | cons c cands => exact ⟨_, rfl⟩

theorem Delivers.left_lt (h : s.Delivers d) (hs : Step s d .step s') : s'.left < s.left := by
  have hlen : d.callerCandidates.length = s.pushed.length := by
    rw [h.pushed, List.length_map]
  have hl := h.latest
  cases hs with
  | callerError hpc herr | finish hpc hd | wait hpc hd =>
    simp only [left, hpc]
    omega
  | @more latestReq hpc hlt =>
    rw [hpc] at hl
    have hle := (hl latestReq List.mem_cons_self).candidates.length_le
    simp only [left, hpc, List.length_drop]
    omega
  | same hpc hle =>
    simp only [left, hpc, List.length_nil]
    omega
  | send hpc =>
    simp only [left, hpc, List.length_cons]
    omega
  | next hpc he =>
    simp only [left, hpc, he, List.length_cons]
    omega

theorem Ending.progress (h : Ending cs s) (hpc : s.pc ≠ .finished) :
    ∃ a s', CandPrompt s a ∧ candStep s a = some s' ∧ s'.left < s.left := by
  obtain ⟨ht, -, d, hd, hdone⟩ := h
  obtain ⟨hsub, hf | ⟨e, he, -⟩⟩ := ht d hd.calls hdone
  · exact absurd hf hpc
  have hloop (h : ∃ s', s.callerLoop s.pc = some s') :
      ∃ a s', CandPrompt s a ∧ candStep s a = some s' ∧ s'.left < s.left := by
    obtain ⟨s', hs⟩ := h
    exact ⟨.step, s', ⟨trivial, nofun⟩, hs, hd.left_lt (hd.doc.step hs)⟩
  cases hp : s.pc with
  | recv | acquired callReq =>
    rw [hp] at hsub
    cases hsub
  | finished => exact absurd hp hpc
  | top latestReq => exact hloop (hp ▸ callerLoop_top s latestReq)
  | sending cands latestReq => exact hloop (hp ▸ callerLoop_sending s cands latestReq)
  | select =>
    cases hev : s.events with
    | cons e' es =>
      refine hloop ⟨{ s with events := es, pc := .top e' }, ?_⟩
      simp only [hp, callerLoop, hev]
    | nil =>
      cases hup : s.updates with
      | nil =>
        rw [pending, hp, hev, hup] at he
        cases he
      | cons u us =>
        refine ⟨.dispatch false, { s with updates := us, events := [u] }, ⟨trivial, nofun⟩, ?_, ?_⟩
        · simp only [candStep, hup, hsub, hev, ↓reduceIte, Bool.false_eq_true, List.nil_append]
        · simp only [left, hp, hup, hev, List.length_cons, List.length_nil]
          omega

end CandState

/-- What the exchange sends is what the caller has pushed, in order, and all of it when
`CallerDone` fires. -/
theorem callerCandidates_delivered (h : candMachine.ReachableWith CandFresh s) :
    s.received <+: s.pushed ∧
    (s.pc = .finished → s.callerErr = none ∧ s.received = s.pushed) ∧
    (candMachine.ReachableWith CandPrompt s → s.doc.any (fun d => d.callerDone) = true →
      candMachine.CanReach CandPrompt
        (fun t => t.pc = .finished ∧ t.pushed = s.pushed ∧ t.received = s.pushed) s) := by
  obtain ⟨d, hd⟩ := CandState.delivers_of_reachable h
  refine ⟨hd.received_prefix, fun hpc => ⟨hd.callerErr, (hd.finished hpc).2⟩, ?_⟩
  intro hprompt hdone
  rw [hd.doc.doc, Option.any_some] at hdone
  have hend : CandState.Ending s.pushed s :=
    ⟨CandState.told_of_reachable hprompt, rfl, d, hd, hdone⟩
  refine Machine.CanReach.of_measure CandState.left (I := CandState.Ending s.pushed) ?_ ?_ hend
  · intro t a t' ht hok hs
    exact ht.step hok hs
  · intro t ht hP
    refine ht.progress fun hpc => hP ?_
    obtain ⟨-, hcs, d', hd', -⟩ := ht
    exact ⟨hpc, hcs, (hd'.finished hpc).2.trans hcs⟩

def candCall : MongoCall :=
  { id := "call", callerOperatorID := "a", host := "robot", startedAt := 1, callerSDP := "offer" }

def candInit : CandState := { inserted := candCall, calls := [candCall] }

def trickledCandidate : ICECandidateInit := { candidate := "candidate:1" }

def handleEvent : List CandAct := [.dispatch false, .step, .step, .step]

def pushAfterTake : List CandAct :=
  [.take "b", .push trickledCandidate, .subscribe, .step, .step, .done]

theorem callerCandidates_delivered_one : ∃ s, candMachine.ReachableWith CandPrompt s ∧
    s.pc = .select ∧ s.received = [] ∧ candMachine.CanReach CandPrompt
      (fun t => t.pc = .finished ∧ t.received = [trickledCandidate]) s := by
  obtain ⟨s, hr, hpc, hrec, hpushed, hdone⟩ : ∃ s : CandState,
      candMachine.ReachableWith CandPrompt s ∧ s.pc = .select ∧ s.received = [] ∧
      s.pushed = [trickledCandidate] ∧ s.doc.any (fun d => d.callerDone) = true :=
    candMachine.exists_reachableWith CandPrompt candInit pushAfterTake
      ⟨"call", "a", "robot", 1, "offer", rfl⟩ (by decide +kernel)
  have hend := (callerCandidates_delivered (hr.mono fun _ _ => And.left)).2.2 hr hdone
  rw [hpushed] at hend
  exact ⟨s, hr, hpc, hrec, hend.imp fun t ht => ⟨ht.1, ht.2.2⟩⟩

def pushBeforeFind : List CandAct :=
  List.flatten [[.push trickledCandidate, .find "b" 0, .subscribe, .step, .step, .done],
    handleEvent, handleEvent, handleEvent]

def doneBeforeSubscribe : List CandAct :=
  [.push trickledCandidate, .done, .take "b", .dispatch false, .dispatch false, .dispatch false,
    .subscribe, .step, .step]

/-- A candidate of the document that `FindOneAndUpdate` returns is never sent. -/
theorem callerCandidates_lost :
    (∃ s, candMachine.Reachable s ∧ s.canceled = false ∧ s.pc = .finished ∧
      s.callerErr = none ∧ s.pushed = [trickledCandidate] ∧ s.received = []) ∧
    (∃ s, candMachine.Reachable s ∧ s.canceled = false ∧
      s.doc.any (fun d => d.callerDone) = true ∧ s.pc = .select ∧ s.updates = [] ∧
      s.events = [] ∧ s.pushed = [trickledCandidate] ∧ s.received = []) := by
  have hinit : candMachine.init candInit := ⟨"call", "a", "robot", 1, "offer", rfl⟩
  constructor
  · exact candMachine.exists_reachable _ pushBeforeFind hinit (by decide +kernel)
  · exact candMachine.exists_reachable _ doneBeforeSubscribe hinit (by decide +kernel)

end Goutils.CallQueue
