import Goutils.Signaling.Call

namespace Goutils.Signaling
open Lib Rpc CallQueue
set_option autoImplicit true

/-- The stages of `webrtcpb.AnswerResponse`. A peer may leave parts of them out. -/
inductive AnswerStage where
  | init (sdp : String)
  | update (candidate : Option ProtoICECandidate)
  | done
  | error (status : Option Status)
  | unset
  deriving DecidableEq

structure AnswerResponse where
  uuid : String
  stage : AnswerStage
  deriving DecidableEq

/-- Why the loop ends with an error; `noCandidate` is a panic. -/
inductive AnswerErr where
  | recv (err : GoErr)
  | uuidMismatch (got want : String)
  | initTwice
  | updateBeforeInit
  | noCandidate
  | doneBeforeInit
  | unexpectedStage
  | respond (err : GoErr)
  deriving DecidableEq

/-- Where `answererLoop` stands: `ending` has not called `AnswererDone` yet. -/
inductive AnswerPc where
  | recv
  | respond (ans : WebRTCCallAnswer) (last : Bool)
  | ending (err : Option AnswerErr)
  | finished (err : Option AnswerErr)
  deriving DecidableEq

/-- A `Call` and the `Answer` with its offer, what it sends and the errors of contexts. -/
structure RelayRun where
  call : Call
  taken : List AnswerResponse := []
  rest : List AnswerResponse
  pc : AnswerPc := .recv
  haveInit : Bool := false
  ctxErr : Option CtxErr := none
  sendCtxErr : Option CtxErr := none

/-- `eof` ends the answerer's stream; `respond` is the rendezvous with `Call`. -/
inductive RelayAct where
  | recv
  | eof
  | recvFails (err : GoErr)
  | respond
  | respondDone
  | respondCtx
  | answererDone
  | call
  | callCtxDone
  | callRespDone
  | callSendFails (err : GoErr)
  | cancelCall (e : CtxErr)
  | cancelAnswer (e : CtxErr)
  | expire (e : CtxErr)

namespace RelayRun

def handle (s : RelayRun) (m : AnswerResponse) : RelayRun :=
  if m.uuid ≠ s.call.uuid then
    { s with pc := .ending (some (.uuidMismatch m.uuid s.call.uuid)) }
  else match m.stage with
    | .init sdp =>
      if s.haveInit then { s with pc := .ending (some .initTwice) }
      else { s with haveInit := true, pc := .respond { initialSDP := some sdp } false }
    | .update candidate =>
      if !s.haveInit then { s with pc := .ending (some .updateBeforeInit) }
      else match candidate with
        | none => { s with pc := .ending (some .noCandidate) }
        | some c =>
          { s with pc := .respond { candidate := some (iceCandidateFromProto c) } false }
    | .done =>
      if !s.haveInit then { s with pc := .ending (some .doneBeforeInit) }
      else { s with pc := .ending none }
    | .error status => { s with pc := .respond { err := statusErr status } true }
    | .unset => { s with pc := .ending (some .unexpectedStage) }

def setCall (s : RelayRun) (call : Call) : RelayRun :=
  { s with
    call
    sendCtxErr := if call.pc.isReturned then s.sendCtxErr <|> some .canceled else s.sendCtxErr }

def runCall (s : RelayRun) (a : CallAct) : Option RelayRun :=
  (s.call.run s.call.pc a).map s.setCall

end RelayRun

def relayStep (s : RelayRun) : RelayAct → Option RelayRun
  | .recv =>
    match s.pc, s.rest with
    | .recv, m :: rest => some ({ s with taken := s.taken ++ [m], rest }.handle m)
    | _, _ => none
  | .eof =>
    match s.pc, s.rest with
    | .recv, [] => some { s with pc := .ending none }
    | _, _ => none
  | .recvFails err =>
    match s.pc with
    | .recv => some { s with pc := .ending (some (.recv err)) }
    | _ => none
  | .respond =>
    match s.pc with
    | .respond ans last =>
      { s with pc := if last then .ending none else .recv }.runCall (.recv ans)
    | _ => none
  | .respondDone =>
    match s.pc, s.sendCtxErr with
    | .respond _ _, some e => some { s with pc := .ending (some (.respond (.ctx e))) }
    | _, _ => none
  | .respondCtx =>
    match s.pc, s.ctxErr with
    | .respond _ _, some e => some { s with pc := .ending (some (.respond (.ctx e))) }
    | _, _ => none
  | .answererDone =>
    match s.pc with
    | .ending err =>
      some { s with sendCtxErr := s.sendCtxErr <|> some .canceled, pc := .finished err }
    | _ => none
  | .call => s.runCall .next
  | .callCtxDone => s.runCall .ctxDone
  | .callRespDone => if s.sendCtxErr.isSome then s.runCall .respDone else none
  | .callSendFails err => s.runCall (.sendFails err)
  | .cancelCall e => some { s with call := { s.call with ctxErr := s.call.ctxErr <|> some e } }
  | .cancelAnswer e => some { s with ctxErr := s.ctxErr <|> some e }
  | .expire e => some { s with sendCtxErr := s.sendCtxErr <|> some e }

def relayMachine : Machine RelayRun RelayAct where
  init s := ∃ uuid rest, s = { call := { uuid }, rest }
  step := relayStep

/-- Both contexts are live, with streams that work, and the deadline of the offer is not reached. -/
def RelayLive (_ : RelayRun) : RelayAct → Prop
  | .recvFails _ | .callSendFails _ | .cancelCall _ | .cancelAnswer _ | .expire _ => False
  | _ => True

instance : ∀ s a, Decidable (RelayLive s a) := fun s a => by
  unfold RelayLive
  split <;> infer_instance

def AnswerResponse.conforms (uuid : String) (haveInit : Bool) (m : AnswerResponse) : Bool :=
  decide (m.uuid = uuid) &&
    match m.stage with
    | .init _ => !haveInit
    | .update (some _) => haveInit
    | _ => false

def conforming (uuid : String) : Bool → List AnswerResponse → Bool
  | _, [] => true
  | haveInit, m :: ms => m.conforms uuid haveInit && conforming uuid true ms

def conformingPrefix (uuid : String) : Bool → List AnswerResponse → List AnswerResponse
  | _, [] => []
  | haveInit, m :: ms =>
    if m.conforms uuid haveInit then m :: conformingPrefix uuid true ms else []

def relayCandidate (c : ProtoICECandidate) : ProtoICECandidate :=
  iceCandidateInitToProto (iceCandidateFromProto c)

theorem relayCandidate_eq {c : ProtoICECandidate}
    (h : ∀ i ∈ c.sdpmLineIndex, i.toNat < 65536) : relayCandidate c = c := by
  obtain ⟨candidate, sdpMid, sdpmLineIndex, usernameFragment⟩ := c
  cases sdpmLineIndex with
  | none => rfl
  | some i =>
    have hi : i.toUInt16.toUInt32 = i := by
      apply UInt32.toNat_inj.1
      rw [UInt16.toNat_toUInt32, UInt32.toNat_toUInt16]
      exact Nat.mod_eq_of_lt (h i rfl)
    simp only [relayCandidate, iceCandidateInitToProto, iceCandidateFromProto, Option.map_some, hi]

def AnswerResponse.image (m : AnswerResponse) : Option CallResponse :=
  match m.stage with
  | .init sdp => some ⟨m.uuid, .init sdp⟩
  | .update (some c) => some ⟨m.uuid, .update (relayCandidate c)⟩
  | _ => none

theorem conforming_conformingPrefix (uuid : String) (b : Bool) (ms : List AnswerResponse) :
    conforming uuid b (conformingPrefix uuid b ms) = true := by
  induction ms generalizing b with
  | nil => rfl
  | cons m ms ih =>
    rw [conformingPrefix]
    split
    · rename_i hm
      rw [conforming, hm, ih true]
      rfl
    · rfl

theorem conformingPrefix_isPrefix (uuid : String) (b : Bool) (ms : List AnswerResponse) :
    conformingPrefix uuid b ms <+: ms := by
  induction ms generalizing b with
  | nil => exact List.nil_prefix
  | cons m ms ih =>
    rw [conformingPrefix]
    split
    · exact List.cons_prefix_cons.2 ⟨rfl, ih true⟩
    · exact List.nil_prefix

theorem isPrefix_conformingPrefix (h : conforming uuid b p = true) (rest : List AnswerResponse) :
    p <+: conformingPrefix uuid b (p ++ rest) := by
  induction p generalizing b with
  | nil => exact List.nil_prefix
  | cons m p ih =>
    rw [conforming, Bool.and_eq_true] at h
    rw [List.cons_append, conformingPrefix, if_pos h.1]
    exact List.cons_prefix_cons.2 ⟨rfl, ih h.2⟩

theorem conformingPrefix_eq {rest : List AnswerResponse} (h : conforming uuid b p = true)
    (hrest : ∀ m ∈ rest.head?, m.conforms uuid (b || !p.isEmpty) = false) :
    conformingPrefix uuid b (p ++ rest) = p := by
  induction p generalizing b with
  | nil =>
    cases rest with
    | nil => rfl
    | cons m rest =>
      have hm := hrest m rfl
      rw [List.isEmpty_nil, Bool.not_true, Bool.or_false] at hm
      rw [List.nil_append, conformingPrefix, hm]
      rfl
  | cons m p ih =>
    rw [conforming, Bool.and_eq_true] at h
    rw [List.cons_append, conformingPrefix, if_pos h.1, ih h.2]
    intro x hx
    have hm := hrest x hx
    rwa [List.isEmpty_cons, Bool.not_false, Bool.or_true] at hm

theorem conforming_concat (uuid : String) (b : Bool) (p : List AnswerResponse)
    (m : AnswerResponse) : conforming uuid b (p ++ [m]) =
      (conforming uuid b p && m.conforms uuid (b || !p.isEmpty)) := by
  induction p generalizing b with
  | nil => simp [conforming]
  | cons x p ih => simp [conforming, ih, Bool.and_assoc]

theorem conforms_init {m : AnswerResponse} (h : m.conforms uuid false = true) :
    ∃ sdp, m = ⟨uuid, .init sdp⟩ := by
  obtain ⟨u, stage⟩ := m
  rw [AnswerResponse.conforms, Bool.and_eq_true, decide_eq_true_eq] at h
  obtain ⟨rfl, hs⟩ := h
  cases stage with
  | init sdp => exact ⟨sdp, rfl⟩
  | update c => cases c <;> cases hs
  | done | error status | unset => cases hs

theorem conforms_update {m : AnswerResponse} (h : m.conforms uuid true = true) :
    ∃ c, m = ⟨uuid, .update (some c)⟩ := by
  obtain ⟨u, stage⟩ := m
  rw [AnswerResponse.conforms, Bool.and_eq_true, decide_eq_true_eq] at h
  obtain ⟨rfl, hs⟩ := h
  cases stage with
  | init sdp | done | error status | unset => cases hs
  | update c =>
    cases c with
    | none => cases hs
    | some c => exact ⟨c, rfl⟩

theorem conforming_updates (h : conforming uuid true ms = true) :
    ∃ cs : List ProtoICECandidate, ms = cs.map fun c => ⟨uuid, .update (some c)⟩ := by
  induction ms with
  | nil => exact ⟨[], rfl⟩
  | cons m ms ih =>
    rw [conforming, Bool.and_eq_true] at h
    obtain ⟨c, rfl⟩ := conforms_update h.1
    obtain ⟨cs, rfl⟩ := ih h.2
    exact ⟨c :: cs, rfl⟩

theorem conforming_shape (h : conforming uuid false ms = true) :
    ms = [] ∨ ∃ (sdp : String) (cs : List ProtoICECandidate),
      ms = ⟨uuid, .init sdp⟩ :: cs.map fun c => ⟨uuid, .update (some c)⟩ := by
  cases ms with
  | nil => exact .inl rfl
  | cons m ms =>
    rw [conforming, Bool.and_eq_true] at h
    obtain ⟨sdp, rfl⟩ := conforms_init h.1
    obtain ⟨cs, rfl⟩ := conforming_updates h.2
    exact .inr ⟨sdp, cs, rfl⟩

def AnswerResponse.answer (m : AnswerResponse) : WebRTCCallAnswer :=
  match m.stage with
  | .init sdp => { initialSDP := some sdp }
  | .update (some c) => { candidate := some (iceCandidateFromProto c) }
  | _ => {}

theorem image_updates (uuid : String) (cs : List ProtoICECandidate) :
    (cs.map fun c => (⟨uuid, .update (some c)⟩ : AnswerResponse)).filterMap
      AnswerResponse.image = cs.map fun c => ⟨uuid, .update (relayCandidate c)⟩ := by
  induction cs with
  | nil => rfl
  | cons c cs ih =>
    rw [List.map_cons, List.filterMap_cons, ih]
    rfl

theorem forward_updates (uuid : String) (cs : List ProtoICECandidate) :
    ((cs.map fun c => (⟨uuid, .update (some c)⟩ : AnswerResponse)).map
      AnswerResponse.answer).flatMap (forward uuid true) =
      cs.map fun c => ⟨uuid, .update (relayCandidate c)⟩ := by
  induction cs with
  | nil => rfl
  | cons c cs ih =>
    rw [List.map_cons, List.map_cons, List.flatMap_cons, ih]
    rfl

theorem forwardAll_answers (h : conforming uuid false p = true) :
    forwardAll uuid (p.map AnswerResponse.answer) = p.filterMap AnswerResponse.image := by
  rcases conforming_shape h with rfl | ⟨sdp, cs, rfl⟩
  · rfl
  · rw [List.map_cons, forwardAll, forward_updates, List.filterMap_cons, image_updates]
    rfl

theorem wellFormed_answers (h : conforming uuid false p = true) :
    WellFormed (p.map AnswerResponse.answer) ending := by
  rcases conforming_shape h with rfl | ⟨sdp, cs, rfl⟩
  · exact .nil
  · apply WellFormed.of_not_last
    · intro a ha
      cases ha
      exact .inl rfl
    · intro a ha hl
      rcases List.mem_cons.1 ha with rfl | ha
      · rcases hl with hl | hl
        · cases hl
        · cases hl
      · rw [List.map_map] at ha
        obtain ⟨c, -, rfl⟩ := List.mem_map.1 ha
        rcases hl with hl | hl
        · cases hl
        · cases hl

def AnswerPc.answers : AnswerPc → List WebRTCCallAnswer
  | .respond ans _ => [ans]
  | _ => []

def AnswerPc.ends : AnswerPc → Bool
  | .recv => false
  | .respond _ last => last
  | _ => true

def AnswerPc.isFinished : AnswerPc → Bool
  | .finished _ => true
  | _ => false

/-- The loop has ended after the messages `p`, with `as` as the last answer. -/
inductive Stop (uuid : String) (p taken rest : List AnswerResponse) :
    List WebRTCCallAnswer → Prop where
  | eof : taken = p → rest = [] → Stop uuid p taken rest []
  | rejected : taken = p ++ [m] → m.conforms uuid (!p.isEmpty) = false →
      (∀ status, m ≠ ⟨uuid, .error status⟩) → Stop uuid p taken rest []
  | error : taken = p ++ [⟨uuid, .error status⟩] →
      Stop uuid p taken rest [{ err := statusErr status }]

def Answered (uuid : String) (taken rest : List AnswerResponse) (haveInit : Bool)
    (answers : List WebRTCCallAnswer) : Bool → Prop
  | false => conforming uuid false taken = true ∧ haveInit = !taken.isEmpty ∧
      answers = taken.map AnswerResponse.answer
  | true => ∃ p as, conforming uuid false p = true ∧ Stop uuid p taken rest as ∧
      answers = p.map AnswerResponse.answer ++ as

variable {s : RelayRun}

namespace RelayRun

def answers (s : RelayRun) : List WebRTCCallAnswer := s.call.received ++ s.pc.answers

def stream (s : RelayRun) : List AnswerResponse := s.taken ++ s.rest

structure Relays (s : RelayRun) : Prop where
  reports : s.call.Reports
  got : ∀ resp, s.call.pc = .got resp → ∃ as, s.call.received = as ++ [resp]
  ctxErr : s.ctxErr = none
  answered : Answered s.call.uuid s.taken s.rest s.haveInit s.answers s.pc.ends
  sendCtxErr : s.sendCtxErr.isSome = true →
    s.pc.isFinished = true ∨ s.call.pc.isReturned = true
  finished : s.pc.isFinished = true → s.sendCtxErr.isSome = true
  returned : s.call.pc.isReturned = true → s.pc.answers = [] ∧ s.pc.ends = true

theorem handle_cases (s : RelayRun) (m : AnswerResponse) :
    (m.conforms s.call.uuid s.haveInit = true ∧
      s.handle m = { s with haveInit := true, pc := .respond m.answer false }) ∨
    (∃ status, m = ⟨s.call.uuid, .error status⟩ ∧
      s.handle m = { s with pc := .respond { err := statusErr status } true }) ∨
    (m.conforms s.call.uuid s.haveInit = false ∧ (∀ status, m ≠ ⟨s.call.uuid, .error status⟩) ∧
      ∃ err, s.handle m = { s with pc := .ending err }) := by
  obtain ⟨u, stage⟩ := m
  by_cases hu : u = s.call.uuid
  · subst hu
    cases stage with
    | init sdp =>
      cases hi : s.haveInit with
      | true =>
        refine .inr (.inr ⟨by simp [AnswerResponse.conforms], fun _ => nofun, some .initTwice, ?_⟩)
        simp [handle, hi]
      | false => exact .inl ⟨by simp [AnswerResponse.conforms], by simp [handle, hi]; rfl⟩
    | update candidate =>
      cases hi : s.haveInit with
      | false =>
        refine .inr (.inr ⟨?_, fun _ => nofun, some .updateBeforeInit, by simp [handle, hi]⟩)
        cases candidate <;> simp [AnswerResponse.conforms]
      | true =>
        cases candidate with
        | none =>
          refine .inr (.inr ⟨by simp [AnswerResponse.conforms], fun _ => nofun,
            some .noCandidate, by simp [handle, hi]⟩)
        | some c => exact .inl ⟨by simp [AnswerResponse.conforms], by simp [handle, hi]; rfl⟩
    | done =>
      refine .inr (.inr ⟨by simp [AnswerResponse.conforms], fun _ => nofun, ?_⟩)
      cases hi : s.haveInit with
      | true => exact ⟨none, by simp [handle, hi]⟩
      | false => exact ⟨some .doneBeforeInit, by simp [handle, hi]⟩
    | error status => exact .inr (.inl ⟨status, rfl, by simp [handle]⟩)
    | unset =>
      exact .inr (.inr ⟨by simp [AnswerResponse.conforms], fun _ => nofun,
        some .unexpectedStage, by simp [handle]⟩)
  · refine .inr (.inr ⟨by simp [AnswerResponse.conforms, hu], fun _ he => hu (by cases he; rfl),
      some (.uuidMismatch u s.call.uuid), by simp [handle, hu]⟩)

inductive Step (s : RelayRun) : RelayAct → RelayRun → Prop where
  | recv : s.pc = .recv → s.rest = m :: ms →
      Step s .recv ({ s with taken := s.taken ++ [m], rest := ms }.handle m)
  | eof : s.pc = .recv → s.rest = [] → Step s .eof { s with pc := .ending none }
  | respond : s.pc = .respond ans last → s.call.Step (.recv ans) c →
      Step s .respond ({ s with pc := if last then .ending none else .recv }.setCall c)
  | respondDone : s.pc = .respond ans last → s.sendCtxErr = some e → Step s .respondDone s'
  | answererDone : s.pc = .ending err →
      Step s .answererDone
        { s with sendCtxErr := s.sendCtxErr <|> some .canceled, pc := .finished err }
  | call : s.call.Step .next c → Step s .call (s.setCall c)
  | respDone : s.sendCtxErr.isSome = true → s.call.Step .respDone c →
      Step s .callRespDone (s.setCall c)

theorem runCall_step (h : s.runCall a = some s') (hctx : s.call.ctxErr = none)
    (ha : ∀ err, a ≠ .sendFails err) : ∃ c, s.call.Step a c ∧ s' = s.setCall c := by
  obtain ⟨c, hc, rfl⟩ := Option.map_eq_some_iff.1 h
  exact ⟨c, Call.run_step hctx ha hc rfl, rfl⟩

theorem step_of_live (hcall : s.call.ctxErr = none) (hctx : s.ctxErr = none) (hok : RelayLive s a)
    (hs : relayStep s a = some s') : Step s a s' := by
  cases a with
  | recv =>
    simp only [relayStep] at hs
    split at hs
    · cases hs
      exact .recv ‹_› ‹_›
    · cases hs
  | eof =>
    simp only [relayStep] at hs
    split at hs
    · cases hs
      exact .eof ‹_› ‹_›
    · cases hs
  | recvFails err | callSendFails err | cancelCall e | cancelAnswer e | expire e => cases hok
  | respond =>
    simp only [relayStep] at hs
    split at hs
    · obtain ⟨c, hc, rfl⟩ := runCall_step hs hcall fun _ => nofun
      exact .respond ‹_› hc
    · cases hs
  | respondDone =>
    simp only [relayStep] at hs
    split at hs
    · exact .respondDone ‹_› ‹_›
    · cases hs
  | respondCtx =>
    simp only [relayStep] at hs
    split at hs
    · rename_i e he
      cases hctx.symm.trans he
    · cases hs
  | answererDone =>
    simp only [relayStep] at hs
    split at hs
    · cases hs
      exact .answererDone ‹_›
    · cases hs
  | call =>
    obtain ⟨c, hc, rfl⟩ := runCall_step hs hcall fun _ => nofun
    exact .call hc
  | callCtxDone =>
    obtain ⟨c, hc, -⟩ := runCall_step hs hcall fun _ => nofun
    cases hc
  | callRespDone =>
    simp only [relayStep] at hs
    split at hs
    · obtain ⟨c, hc, rfl⟩ := runCall_step hs hcall fun _ => nofun
      exact .respDone ‹_› hc
    · cases hs

namespace Relays
variable {s s' : RelayRun} (h : s.Relays)

include h

theorem wellFormed : WellFormed s.answers s.pc.ends := by
  have ha := h.answered
  cases he : s.pc.ends with
  | false =>
    rw [he] at ha
    obtain ⟨hc, -, has⟩ := ha
    rw [has]
    exact wellFormed_answers hc
  | true =>
    rw [he] at ha
    obtain ⟨p, as, hc, hstop, has⟩ := ha
    rw [has]
    cases hstop with
    | eof ht hr | rejected ht hm he =>
      rw [List.append_nil]
      exact wellFormed_answers hc
    | @error status ht =>
      apply (wellFormed_answers hc).concat
      cases hs : statusErr status with
      | none => exact .inr rfl
      | some e => exact .inl rfl

theorem opens : Opens s.call.received :=
  h.wellFormed.opens.of_append

theorem of_last (hpc : s.call.pc = .got resp) (hl : resp.Last) :
    s.pc.answers = [] ∧ s.pc.ends = true := by
  obtain ⟨as, hr⟩ := h.got resp hpc
  have hans : s.answers = as ++ resp :: s.pc.answers := by
    rw [answers, hr, List.append_assoc]
    rfl
  exact h.wellFormed.last as resp s.pc.answers hans hl

theorem setCall (hlive : s.call.pc.isReturned = false) (hc : c.Reports)
    (huuid : c.uuid = s.call.uuid) (hrec : c.received = s.call.received)
    (hgot : ∀ resp, c.pc ≠ .got resp)
    (hret : c.pc.isReturned = true → s.pc.answers = [] ∧ s.pc.ends = true) :
    Relays (s.setCall c) where
  reports := hc
  got resp hr := absurd hr (hgot resp)
  ctxErr := h.ctxErr
  answered := by
    have ha := h.answered
    rw [answers, ← hrec, ← huuid] at ha
    exact ha
  sendCtxErr := by
    intro he
    cases hr : c.pc.isReturned with
    | true => exact .inr hr
    | false =>
      simp only [RelayRun.setCall, hr, Bool.false_eq_true, ↓reduceIte] at he
      rcases h.sendCtxErr he with hf | hf
      · exact .inl hf
      · cases hlive.symm.trans hf
  finished hf := by
    have hs := h.finished hf
    simp only [RelayRun.setCall]
    split
    · cases s.sendCtxErr <;> rfl
    · exact hs
  returned := hret

theorem advance {pc : AnswerPc} (hends : s.pc.ends = false) (hfin : pc.isFinished = false)
    (ha : Answered s.call.uuid ms ns b (s.call.received ++ pc.answers) pc.ends) :
    Relays { s with taken := ms, rest := ns, haveInit := b, pc := pc } where
  __ := h
  answered := ha
  sendCtxErr he := by
    rcases h.sendCtxErr he with hf | hr
    · cases hpc : s.pc with
      | finished err =>
        rw [hpc] at hends
        cases hends
      | _ =>
        rw [hpc] at hf
        cases hf
    · cases hends.symm.trans (h.returned hr).2
  finished hf := by cases hfin.symm.trans hf
  returned hr := by cases hends.symm.trans (h.returned hr).2

theorem recv (hpc : s.pc = .recv) (m : AnswerResponse) (ms : List AnswerResponse) :
    Relays ({ s with taken := s.taken ++ [m], rest := ms }.handle m) := by
  have ha := h.answered
  rw [answers, hpc] at ha
  obtain ⟨hc, hi, has⟩ := ha
  have hrec : s.call.received = s.taken.map AnswerResponse.answer :=
    (List.append_nil _).symm.trans has
  have hends : s.pc.ends = false := by
    rw [hpc]
    rfl
  rcases handle_cases { s with taken := s.taken ++ [m], rest := ms } m with
    ⟨hm, he⟩ | ⟨status, hm, he⟩ | ⟨hm, hne, err, he⟩
  · rw [he]
    apply h.advance hends rfl
    refine ⟨?_, by simp, ?_⟩
    · rw [conforming_concat, hc, Bool.false_or, ← hi, hm]
      rfl
    · rw [hrec, List.map_append]
      rfl
  · rw [he]
    apply h.advance hends rfl
    exact ⟨s.taken, _, hc, .error (by rw [hm]), by rw [hrec]; rfl⟩
  · rw [he]
    apply h.advance hends rfl
    exact ⟨s.taken, [], hc, .rejected rfl (hi ▸ hm) hne, by rw [hrec]; rfl⟩

theorem call (hs : s.call.Step .next c) : Relays (s.setCall c) := by
  have hc := h.reports.step h.opens hs
  cases hs with
  | top hpc | forward hpc he hi | send hpc | again hpc =>
    exact h.setCall (by rw [hpc]; rfl) hc rfl rfl (fun _ => nofun) nofun
  | error hpc he =>
    apply h.setCall (by rw [hpc]; rfl) hc rfl rfl (fun _ => nofun)
    intro _
    exact h.of_last hpc (.inl (by rw [he]; rfl))
  | noInit hpc he hi hn =>
    apply h.setCall (by rw [hpc]; rfl) hc rfl rfl (fun _ => nofun)
    intro _
    exact h.of_last hpc (.inr (h.reports.noInit h.opens hpc he hi hn).1)

theorem respond {pc : AnswerPc} (hpc : s.pc = .respond ans b) (hs : s.call.Step (.recv ans) c)
    (hans : pc.answers = []) (hends : pc.ends = b) (hfin : pc.isFinished = false) :
    Relays ({ s with pc := pc }.setCall c) := by
  have hc := h.reports.step h.opens hs
  cases hs with
  | recv hsel =>
    have ha := h.answered
    rw [answers, hpc] at ha
    exact
    { reports := hc
      got := by
        intro resp hr
        cases hr
        exact ⟨s.call.received, rfl⟩
      ctxErr := h.ctxErr
      answered := by
        simp only [RelayRun.setCall, answers, hans, hends, List.append_nil]
        exact ha
      sendCtxErr := by
        intro he
        rcases h.sendCtxErr he with hf | hf
        · rw [hpc] at hf
          cases hf
        · rw [hsel] at hf
          cases hf
      finished := fun hf => by cases hfin.symm.trans hf
      returned := nofun }

theorem responds (hpc : s.pc = .respond ans b) (he : s.sendCtxErr = some e) : False := by
  rcases h.sendCtxErr (by rw [he]; rfl) with hf | hr
  · rw [hpc] at hf
    cases hf
  · have hans := (h.returned hr).1
    rw [hpc] at hans
    cases hans

theorem step (hs : Step s a s') : s'.Relays := by
  cases hs with
  | recv hpc hrest => exact h.recv hpc _ _
  | eof hpc hrest =>
    have ha := h.answered
    rw [answers, hpc] at ha
    obtain ⟨hc, hi, has⟩ := ha
    apply h.advance (by rw [hpc]; rfl) rfl
    exact ⟨s.taken, [], hc, .eof rfl hrest, has.trans (List.append_nil _).symm⟩
  | @respond ans last c hpc hc =>
    cases last with
    | true | false => exact h.respond hpc hc rfl rfl rfl
  | respondDone hpc he => cases h.responds hpc he
  | answererDone hpc =>
    have ha := h.answered
    rw [answers, hpc] at ha
    exact
    { reports := h.reports
      got := h.got
      ctxErr := h.ctxErr
      answered := ha
      sendCtxErr := fun _ => .inl rfl
      finished := by
        intro _
        show (s.sendCtxErr <|> some CtxErr.canceled).isSome = true
        cases s.sendCtxErr <;> rfl
      returned := fun _ => ⟨rfl, rfl⟩ }
  | call hc => exact h.call hc
  | respDone he hc =>
    have hrep := h.reports.step h.opens hc
    cases hc with
    | respDone hpc =>
      have hlive : s.call.pc.isReturned = false := by
        rw [hpc]
        rfl
      apply h.setCall hlive hrep rfl rfl (fun _ => nofun)
      intro _
      rcases h.sendCtxErr he with hf | hf
      · cases hp : s.pc with
        | finished err => exact ⟨rfl, rfl⟩
        | _ =>
          rw [hp] at hf
          cases hf
      · cases hlive.symm.trans hf

end Relays

theorem relays_of_reachable (h : relayMachine.ReachableWith RelayLive s) : s.Relays := by
  apply h.invariant
  · rintro s ⟨uuid, rest, rfl⟩
    exact
    { reports := ⟨rfl, rfl, fun _ => nofun, rfl⟩
      got := fun _ => nofun
      ctxErr := rfl
      answered := ⟨rfl, rfl, rfl⟩
      sendCtxErr := nofun
      finished := nofun
      returned := nofun }
  · intro s a s' hi hok hs
    exact hi.step (step_of_live hi.reports.ctxErr hi.ctxErr hok hs)

def conformed (s : RelayRun) : List AnswerResponse := conformingPrefix s.call.uuid false s.stream

def stop (s : RelayRun) : Option AnswerResponse := (s.stream.drop s.conformed.length).head?

def image (s : RelayRun) : List CallResponse := s.conformed.filterMap AnswerResponse.image

end RelayRun

theorem Stop.forwardAll (h : Stop uuid p taken rest as) (hc : conforming uuid false p = true) :
    forwardAll uuid (p.map AnswerResponse.answer ++ as) = p.filterMap AnswerResponse.image := by
  rw [← forwardAll_answers hc]
  cases h with
  | eof ht hr | rejected ht hm hne => rw [List.append_nil]
  | @error status ht =>
    rw [forwardAll_concat]
    cases hs : statusErr status with
    | none => rw [forward_empty, List.append_nil]
    | some e => rw [forward_err rfl, List.append_nil]

theorem conforms_error (uuid : String) (b : Bool) (status : Option Status) :
    AnswerResponse.conforms uuid b ⟨uuid, .error status⟩ = false := by
  rw [AnswerResponse.conforms, Bool.and_false]

theorem Stop.conformingPrefix (h : Stop uuid p taken rest as)
    (hc : conforming uuid false p = true) : conformingPrefix uuid false (taken ++ rest) = p := by
  cases h with
  | eof ht hr =>
    rw [ht, hr]
    apply conformingPrefix_eq hc
    intro m hm
    cases hm
  | rejected ht hm hne =>
    rw [ht, List.append_assoc]
    apply conformingPrefix_eq hc
    intro m hm'
    cases hm'
    exact hm
  | error ht =>
    rw [ht, List.append_assoc]
    apply conformingPrefix_eq hc
    intro m hm
    cases hm
    exact conforms_error _ _ _

theorem Stop.head (h : Stop uuid p taken rest as) :
    (((taken ++ rest).drop p.length).head? = none ∧ as = []) ∨
    (∃ m, ((taken ++ rest).drop p.length).head? = some m ∧
      (∀ status, m ≠ ⟨uuid, .error status⟩) ∧ as = []) ∨
    ∃ status, ((taken ++ rest).drop p.length).head? = some ⟨uuid, .error status⟩ ∧
      as = [{ err := statusErr status }] := by
  cases h with
  | eof ht hr =>
    rw [ht, hr, List.append_nil, List.drop_length]
    exact .inl ⟨rfl, rfl⟩
  | @rejected m ht hm hne =>
    rw [ht, List.append_assoc, List.drop_left]
    exact .inr (.inl ⟨m, rfl, hne, rfl⟩)
  | @error status ht =>
    rw [ht, List.append_assoc, List.drop_left]
    exact .inr (.inr ⟨status, rfl, rfl⟩)

namespace RelayRun
namespace Relays
variable {s s' : RelayRun} (h : s.Relays)

include h

theorem forwardAll_ended (hends : s.pc.ends = true) :
    forwardAll s.call.uuid s.answers = s.image := by
  have ha := h.answered
  rw [hends] at ha
  obtain ⟨p, as, hc, hstop, has⟩ := ha
  rw [has, hstop.forwardAll hc, image, conformed, stream, hstop.conformingPrefix hc]

theorem forwardAll_isPrefix : forwardAll s.call.uuid s.answers <+: s.image := by
  cases hends : s.pc.ends with
  | true =>
    rw [h.forwardAll_ended hends]
  | false =>
    have ha := h.answered
    rw [hends] at ha
    obtain ⟨hc, -, has⟩ := ha
    rw [has, forwardAll_answers hc]
    exact (isPrefix_conformingPrefix hc s.rest).filterMap _

theorem sent_isPrefix : s.call.sent <+: s.image := by
  have hsent : s.call.sent <+: forwardAll s.call.uuid s.call.received := by
    rw [← h.reports.sent]
    exact List.prefix_append _ _
  have hrec : forwardAll s.call.uuid s.call.received <+: forwardAll s.call.uuid s.answers :=
    Signaling.forwardAll_isPrefix _ _ _
  exact (hsent.trans hrec).trans h.forwardAll_isPrefix

theorem received_returned (hpc : s.call.pc = .returned callErr) :
    s.call.received = s.answers ∧ s.pc.ends = true := by
  obtain ⟨hans, hends⟩ := h.returned (by rw [hpc]; rfl)
  rw [answers, hans, List.append_nil]
  exact ⟨rfl, hends⟩

theorem sent_returned (hpc : s.call.pc = .returned callErr) : s.call.sent = s.image := by
  obtain ⟨hrec, hends⟩ := h.received_returned hpc
  have hs := h.reports.sent
  rw [Call.unsent, hpc, hrec] at hs
  rw [← h.forwardAll_ended hends, ← hs]
  exact (List.append_nil _).symm

theorem sent_idle (hsel : s.call.pc = .select) (hpc : s.pc = .recv) (hrest : s.rest = []) :
    s.call.sent = s.image ∧ s.stop = none := by
  have ha := h.answered
  have hs := h.reports.sent
  rw [hpc] at ha
  obtain ⟨hc, -, has⟩ := ha
  have hall : s.conformed = s.taken := by
    rw [conformed, stream, hrest]
    apply conformingPrefix_eq hc
    intro m hm
    cases hm
  have hrec : s.call.received = s.taken.map AnswerResponse.answer := by
    rw [answers, hpc] at has
    exact (List.append_nil _).symm.trans has
  rw [Call.unsent, hsel, hrec, forwardAll_answers hc] at hs
  constructor
  · rw [image, hall, ← hs]
    exact (List.append_nil _).symm
  · rw [stop, hall, stream, hrest, List.append_nil, List.drop_length]
    rfl

theorem answers_returned (hpc : s.call.pc = .returned callErr) :
    conforming s.call.uuid false s.conformed = true ∧
    ((∀ status, s.stop ≠ some ⟨s.call.uuid, .error status⟩) ∧
      s.call.received = s.conformed.map AnswerResponse.answer ∨
    ∃ status, s.stop = some ⟨s.call.uuid, .error status⟩ ∧
      s.call.received =
        s.conformed.map AnswerResponse.answer ++ [{ err := statusErr status }]) := by
  obtain ⟨hrec, hends⟩ := h.received_returned hpc
  have ha := h.answered
  rw [hends] at ha
  obtain ⟨p, as, hc, hstop, has⟩ := ha
  have hp : s.conformed = p := hstop.conformingPrefix hc
  rw [hp, hrec, has, stop, hp, stream]
  refine ⟨hc, ?_⟩
  rcases hstop.head with ⟨hh, rfl⟩ | ⟨m, hh, hne, rfl⟩ | ⟨status, hh, rfl⟩
  · rw [hh, List.append_nil]
    exact .inl ⟨fun _ => nofun, rfl⟩
  · rw [hh, List.append_nil]
    refine .inl ⟨fun status heq => ?_, rfl⟩
    exact hne status (Option.some.inj heq)
  · rw [hh]
    exact .inr ⟨status, rfl, rfl⟩

theorem returned_error (hpc : s.call.pc = .returned callErr)
    (hstop : s.stop = some ⟨s.call.uuid, .error status⟩) (he : statusErr status = some e) :
    callErr = some (.wrap "error from answerer" e) := by
  obtain ⟨-, ⟨hne, -⟩ | ⟨status', hs, hrec⟩⟩ := h.answers_returned hpc
  · exact absurd hstop (hne status)
  rw [hstop] at hs
  cases hs
  have hf := h.reports.fits
  rw [he] at hrec
  rw [hpc, hrec] at hf
  cases callErr with
  | none => cases hf _ (List.mem_append_right _ List.mem_cons_self)
  | some err =>
    rcases hf with hz | ⟨as, a, err', hr, -, ha, rfl⟩
    · cases hz _ (List.mem_append_right _ List.mem_cons_self)
    · cases (List.append_inj' hr rfl).2
      cases ha
      rfl

theorem returned_done (hpc : s.call.pc = .returned callErr)
    (hstop : s.stop = some ⟨s.call.uuid, .done⟩) (hne : s.conformed ≠ []) : callErr = none := by
  obtain ⟨hc, ⟨-, hrec⟩ | ⟨status, hs, -⟩⟩ := h.answers_returned hpc
  · have hwf : WellFormed (s.conformed.map AnswerResponse.answer) false := wellFormed_answers hc
    have hlast := hwf.not_last
    have hf := h.reports.fits
    rw [hpc, hrec] at hf
    cases callErr with
    | none => rfl
    | some err =>
      rcases hf with hz | ⟨as, a, err', hr, -, ha, -⟩
      · cases hcs : s.conformed with
        | nil => exact absurd hcs hne
        | cons m ms =>
          rw [hcs] at hz hlast
          exact absurd (.inr (hz _ List.mem_cons_self)) (hlast m.answer List.mem_cons_self)
      · have hmem : a ∈ s.conformed.map AnswerResponse.answer := by
          rw [hr]
          exact List.mem_append_right _ List.mem_cons_self
        exact absurd (.inl (by rw [ha]; rfl)) (hlast a hmem)
  · cases hstop.symm.trans hs

end Relays

end RelayRun

def AnswerPc.left : AnswerPc → Nat
  | .recv => 0
  | .respond _ _ => 8
  | .ending _ => 2
  | .finished _ => 1

namespace RelayRun

def left (s : RelayRun) : Nat :=
  20 * s.rest.length + s.pc.left + s.call.left + if s.call.pc.isReturned then 0 else 1

theorem left_le (s : RelayRun) :
    s.left ≤ 20 * s.rest.length + s.pc.left + s.call.left + 1 := by
  rw [left]
  apply Nat.add_le_add_left
  cases s.call.pc.isReturned with
  | true => exact Nat.zero_le 1
  | false => exact Nat.le_refl 1

theorem left_of_live (hlive : s.call.pc.isReturned = false) :
    s.left = 20 * s.rest.length + s.pc.left + s.call.left + 1 := by
  rw [left, hlive]
  rfl

theorem left_handle (s : RelayRun) (m : AnswerResponse) :
    (s.handle m).left ≤ 20 * s.rest.length + 8 + s.call.left + 1 := by
  rcases handle_cases s m with ⟨-, he⟩ | ⟨status, -, he⟩ | ⟨-, -, err, he⟩
  · rw [he]
    exact left_le _
  · rw [he]
    exact left_le _
  · rw [he]
    have hle : left { s with pc := .ending err } ≤ 20 * s.rest.length + 2 + s.call.left + 1 :=
      left_le _
    omega

theorem Relays.progress (h : s.Relays) (hret : ∀ e, s.call.pc ≠ .returned e)
    (hidle : s.call.pc = .select → s.pc = .recv → s.rest ≠ []) :
    ∃ a s', RelayLive s a ∧ relayStep s a = some s' ∧ s'.left < s.left := by
  have hlive : s.call.pc.isReturned = false := by
    cases hpc : s.call.pc with
    | returned e => exact absurd hpc (hret e)
    | _ => rfl
  by_cases hsel : s.call.pc = .select
  · cases hpc : s.pc with
    | recv =>
      cases hrest : s.rest with
      | nil => exact absurd hrest (hidle hsel hpc)
      | cons m ms =>
        have hle : ({ s with taken := s.taken ++ [m], rest := ms }.handle m).left ≤
            20 * ms.length + 8 + s.call.left + 1 := left_handle _ m
        refine ⟨.recv, { s with taken := s.taken ++ [m], rest := ms }.handle m, trivial, ?_, ?_⟩
        · simp only [relayStep, hpc, hrest]
        · rw [left_of_live hlive, hrest, List.length_cons]
          omega
    | respond ans last =>
      let c : Call := { s.call with pc := .got ans, received := s.call.received ++ [ans] }
      have hle : ({ s with pc := if last then .ending none else .recv }.setCall c).left ≤
          20 * s.rest.length + (if last then AnswerPc.ending none else .recv).left +
            (3 + (forward s.call.uuid s.call.haveInit ans).length) + 1 := left_le _
      have hnext : (if last then AnswerPc.ending none else .recv).left ≤ 2 := by
        cases last with
        | true => exact Nat.le_refl 2
        | false => exact Nat.zero_le 2
      have hlen := forward_length_le s.call.uuid s.call.haveInit ans
      have hpcl : s.pc.left = 8 := by
        rw [hpc]
        rfl
      refine ⟨.respond, { s with pc := if last then .ending none else .recv }.setCall c,
        trivial, ?_, ?_⟩
      · simp only [relayStep, hpc, runCall, Call.run, hsel]
        rfl
      · rw [left_of_live hlive, hpcl]
        omega
    | ending err =>
      have hle : left { s with
          sendCtxErr := s.sendCtxErr <|> some .canceled, pc := .finished err } ≤
            20 * s.rest.length + 1 + s.call.left + 1 := left_le _
      have hpcl : s.pc.left = 2 := by
        rw [hpc]
        rfl
      refine ⟨.answererDone,
        { s with sendCtxErr := s.sendCtxErr <|> some .canceled, pc := .finished err },
        trivial, ?_, ?_⟩
      · simp only [relayStep, hpc]
      · rw [left_of_live hlive, hpcl]
        omega
    | finished err =>
      have hctx : s.sendCtxErr.isSome = true := h.finished (by rw [hpc]; rfl)
      have hle : (s.setCall { s.call with pc := .returned none }).left =
          20 * s.rest.length + s.pc.left + 0 + 0 := rfl
      refine ⟨.callRespDone, s.setCall { s.call with pc := .returned none }, trivial, ?_, ?_⟩
      · simp only [relayStep, hctx, runCall, Call.run, hsel]
        rfl
      · rw [left_of_live hlive, hle]
        omega
  · obtain ⟨c, hc, hst⟩ := Call.next_enabled h.reports.ctxErr hsel hret
    have hlt := hst.left_lt
    have hle : (s.setCall c).left ≤ 20 * s.rest.length + s.pc.left + c.left + 1 := left_le _
    refine ⟨.call, s.setCall c, trivial, ?_, ?_⟩
    · simp only [relayStep, runCall, hc, Option.map_some]
    · rw [left_of_live hlive]
      omega

theorem handle_stream (s : RelayRun) (m : AnswerResponse) :
    (s.handle m).stream = s.stream ∧ (s.handle m).call = s.call := by
  rcases handle_cases s m with ⟨-, he⟩ | ⟨status, -, he⟩ | ⟨-, -, err, he⟩
  · rw [he]
    exact ⟨rfl, rfl⟩
  · rw [he]
    exact ⟨rfl, rfl⟩
  · rw [he]
    exact ⟨rfl, rfl⟩

theorem Relays.step_stream (h : s.Relays) (hs : Step s a s') :
    s'.stream = s.stream ∧ s'.call.uuid = s.call.uuid := by
  cases hs with
  | @recv m ms hpc hrest =>
    obtain ⟨hst, hc⟩ := handle_stream { s with taken := s.taken ++ [m], rest := ms } m
    rw [hst, hc]
    refine ⟨?_, rfl⟩
    rw [stream, stream, hrest, List.append_assoc]
    rfl
  | eof hpc hrest | answererDone hpc => exact ⟨rfl, rfl⟩
  | respond hpc hc | call hc | respDone he hc => exact ⟨rfl, hc.uuid⟩
  | respondDone hpc he => cases h.responds hpc he

theorem Relays.can_complete (h : s.Relays) :
    relayMachine.CanReach RelayLive
      (fun t => t.stream = s.stream ∧ t.call.sent = s.image ∧
        (s.stop.isSome = true → t.call.pc.isReturned = true)) s := by
  apply Machine.CanReach.of_measure left
    (I := fun t => t.Relays ∧ t.stream = s.stream ∧ t.call.uuid = s.call.uuid)
  · rintro t a t' ⟨ht, hst, hu⟩ hok hs
    have hstep := step_of_live ht.reports.ctxErr ht.ctxErr hok hs
    obtain ⟨hst', hu'⟩ := ht.step_stream hstep
    exact ⟨ht.step hstep, hst'.trans hst, hu'.trans hu⟩
  · rintro t ⟨ht, hst, hu⟩ hP
    have hconf : t.conformed = s.conformed := by rw [conformed, conformed, hst, hu]
    have himage : t.image = s.image := by rw [image, image, hconf]
    have hstop : t.stop = s.stop := by rw [stop, stop, hst, hconf]
    apply ht.progress
    · intro e hpc
      exact hP ⟨hst, (ht.sent_returned hpc).trans himage, fun _ => by rw [hpc]; rfl⟩
    · intro hsel hpc hrest
      obtain ⟨hsent, hnone⟩ := ht.sent_idle hsel hpc hrest
      refine hP ⟨hst, hsent.trans himage, fun hs => ?_⟩
      rw [← hstop, hnone] at hs
      cases hs
  · exact ⟨h, rfl, rfl⟩

end RelayRun

/-- The caller receives the image of the longest conforming prefix of the answerer's messages: an
init stage and then an update for each candidate. -/
theorem relay_image (h : relayMachine.ReachableWith RelayLive s) :
    (conforming s.call.uuid false s.conformed = true ∧ s.conformed <+: s.stream ∧
      ∀ q, q <+: s.stream → conforming s.call.uuid false q = true → q <+: s.conformed) ∧
    (s.conformed = [] ∧ s.image = [] ∨
      ∃ (sdp : String) (cs : List ProtoICECandidate),
        s.conformed =
          ⟨s.call.uuid, .init sdp⟩ :: cs.map (fun c => ⟨s.call.uuid, .update (some c)⟩) ∧
        s.image =
          ⟨s.call.uuid, .init sdp⟩ :: cs.map (fun c => ⟨s.call.uuid, .update (relayCandidate c)⟩)) ∧
    s.call.sent <+: s.image ∧
    (∀ callErr, s.call.pc = .returned callErr →
      s.call.sent = s.image ∧
      (∀ status, s.stop = some ⟨s.call.uuid, .error status⟩ → statusCode status ≠ .ok →
        ∃ e, statusErr status = some e ∧ callErr = some (.wrap "error from answerer" e)) ∧
      (s.stop = some ⟨s.call.uuid, .done⟩ → s.conformed ≠ [] → callErr = none)) ∧
    relayMachine.CanReach RelayLive
      (fun t => t.stream = s.stream ∧ t.call.sent = s.image ∧
        (s.stop.isSome = true → t.call.pc.isReturned = true)) s := by
  have hr := RelayRun.relays_of_reachable h
  have hconf : conforming s.call.uuid false s.conformed = true := conforming_conformingPrefix _ _ _
  refine ⟨⟨hconf, conformingPrefix_isPrefix _ _ _, ?_⟩, ?_, hr.sent_isPrefix, ?_, hr.can_complete⟩
  · rintro q ⟨rest, hrest⟩ hq
    rw [RelayRun.conformed, ← hrest]
    exact isPrefix_conformingPrefix hq rest
  · rcases conforming_shape hconf with hnil | ⟨sdp, cs, hcs⟩
    · exact .inl ⟨hnil, by rw [RelayRun.image, hnil]; rfl⟩
    · refine .inr ⟨sdp, cs, hcs, ?_⟩
      rw [RelayRun.image, hcs, List.filterMap_cons, image_updates]
      rfl
  · intro callErr hpc
    refine ⟨hr.sent_returned hpc, ?_, ?_⟩
    · intro status hstop hcode
      have hne : statusErr status ≠ none := fun he => hcode ((statusErr_eq_none_iff status).1 he)
      obtain ⟨e, he⟩ := Option.ne_none_iff_exists'.1 hne
      exact ⟨e, he, hr.returned_error hpc hstop he⟩
    · intro hstop hne
      exact hr.returned_done hpc hstop hne

def relayedMessages : List AnswerResponse :=
  [⟨"call", .init "answer"⟩, ⟨"call", .update (some { candidate := "candidate:1" })⟩,
    ⟨"call", .done⟩, ⟨"call", .init "late"⟩]

def relayedRun : List RelayAct :=
  [.call, .recv, .respond, .call, .recv, .call, .call, .call, .respond, .recv, .call,
    .answererDone, .call, .call, .call, .callRespDone]

theorem relay_image_two : ∃ s, relayMachine.ReachableWith RelayLive s ∧
    s.stream = relayedMessages ∧ s.call.pc = .returned none ∧
    s.call.sent = [⟨"call", .init "answer"⟩, ⟨"call", .update { candidate := "candidate:1" }⟩] := by
  obtain ⟨s, hr, hst, hpc, himage⟩ : ∃ s : RelayRun, relayMachine.ReachableWith RelayLive s ∧
      s.stream = relayedMessages ∧ s.call.pc = .returned none ∧
      s.image = [⟨"call", .init "answer"⟩, ⟨"call", .update { candidate := "candidate:1" }⟩] :=
    relayMachine.exists_reachableWith RelayLive
      { call := { uuid := "call" }, rest := relayedMessages } relayedRun
      ⟨"call", relayedMessages, rfl⟩ (by decide +kernel)
  exact ⟨s, hr, hst, hpc, ((relay_image hr).2.2.2.1 _ hpc).1.trans himage⟩

end Goutils.Signaling
