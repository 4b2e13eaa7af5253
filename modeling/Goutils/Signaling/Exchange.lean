import Goutils.Signaling.Relay

namespace Goutils.Signaling
open Lib Rpc CallQueue
set_option autoImplicit true

/-- What a caller does to its peer connection; an SDP is decoded before it is set. -/
inductive PeerOp where
  | setRemoteDescription (sdp : String)
  | addICECandidate (candidate : ICECandidateInit)
  deriving DecidableEq

/-- The variables of `exchangeCandidates` and what has succeeded on the peer connection. -/
structure Exchange where
  haveInit : Bool := false
  uuid : String := ""
  ops : List PeerOp := []

/-- The loop over what `Recv` returns. What an operation on the peer connection comes to depends on
those before it. -/
def exchangeCandidates (peer : List PeerOp → PeerOp → Option GoErr) (disableTrickleICE : Bool) :
    Exchange → List CallResponse → Exchange × Option GoErr
  | x, [] => (x, none)
  | x, ⟨uuid, .init sdp⟩ :: ms =>
    if x.haveInit then (x, some (.text "got init stage more than once"))
    else
      let x := { x with haveInit := true, uuid }
      match peer x.ops (.setRemoteDescription sdp) with
      | some err => (x, some err)
      | none =>
        let x := { x with ops := x.ops ++ [.setRemoteDescription sdp] }
        if disableTrickleICE then (x, none)
        else exchangeCandidates peer disableTrickleICE x ms
  | x, ⟨uuid, .update candidate⟩ :: ms =>
    if !x.haveInit then (x, some (.text "got update stage before init stage"))
    else if uuid ≠ x.uuid then
      (x, some (.text ("uuid mismatch; have=" ++ uuid.quote ++ " want=" ++ x.uuid.quote)))
    else
      let cand := iceCandidateFromProto candidate
      match peer x.ops (.addICECandidate cand) with
      | some err => (x, some err)
      | none =>
        let x := { x with ops := x.ops ++ [.addICECandidate cand] }
        exchangeCandidates peer disableTrickleICE x ms

/-- Operations that are done one after the other, up to one that fails. -/
def applyOps (peer : List PeerOp → PeerOp → Option GoErr) (done : List PeerOp) :
    List PeerOp → List PeerOp × Option GoErr
  | [] => (done, none)
  | op :: ops =>
    match peer done op with
    | some err => (done, some err)
    | none => applyOps peer (done ++ [op]) ops

def CallResponse.op (m : CallResponse) : PeerOp :=
  match m.stage with
  | .init sdp => .setRemoteDescription sdp
  | .update candidate => .addICECandidate (iceCandidateFromProto candidate)

def AnswerResponse.op (m : AnswerResponse) : Option PeerOp :=
  match m.stage with
  | .init sdp => some (.setRemoteDescription sdp)
  | .update (some candidate) => some (.addICECandidate (iceCandidateFromProto candidate))
  | _ => none

/-- What a caller is to receive for one offer. -/
def Conversation (uuid : String) (ms : List CallResponse) : Prop :=
  ms = [] ∨ ∃ (sdp : String) (cs : List ProtoICECandidate),
    ms = ⟨uuid, .init sdp⟩ :: cs.map fun c => ⟨uuid, .update c⟩

namespace Conversation

theorem of_append (h : Conversation uuid (ms ++ ns)) : Conversation uuid ms := by
  rcases h with h | ⟨sdp, cs, h⟩
  · exact .inl (List.append_eq_nil_iff.1 h).1
  · cases ms with
    | nil => exact .inl rfl
    | cons m ms =>
      obtain ⟨rfl, htail⟩ := List.cons.inj h
      obtain ⟨ds, es, -, hms, -⟩ := List.map_eq_append_iff.1 htail.symm
      exact .inr ⟨sdp, ds, by rw [hms]⟩

theorem append_updates (h : Conversation uuid ms) (hne : ms ≠ []) (cs : List ProtoICECandidate) :
    Conversation uuid (ms ++ cs.map fun c => ⟨uuid, .update c⟩) := by
  rcases h with h | ⟨sdp, ds, rfl⟩
  · exact absurd h hne
  · exact .inr ⟨sdp, ds ++ cs, by rw [List.map_append, List.cons_append]⟩

end Conversation

section Loop
variable (peer : List PeerOp → PeerOp → Option GoErr) (disableTrickleICE : Bool)

theorem exchangeCandidates_updates (cs : List ProtoICECandidate) (x : Exchange)
    (hinit : x.haveInit = true) :
    let r := exchangeCandidates peer disableTrickleICE x (cs.map fun c => ⟨x.uuid, .update c⟩)
    (r.1.ops, r.2) =
      applyOps peer x.ops (cs.map fun c => .addICECandidate (iceCandidateFromProto c)) := by
  induction cs generalizing x with
  | nil => rfl
  | cons c cs ih =>
    simp only [List.map_cons, exchangeCandidates, applyOps, hinit, Bool.not_true,
      Bool.false_eq_true, if_false, ne_eq, not_true]
    cases hop : peer x.ops (.addICECandidate (iceCandidateFromProto c)) with
    | some err => rfl
    | none => exact ih ⟨true, x.uuid, x.ops ++ [.addICECandidate (iceCandidateFromProto c)]⟩ rfl

/-- The exchange follows a conversation up to its end, its first stage without trickle ICE, or an
operation that fails. -/
theorem exchangeCandidates_conversation (h : Conversation uuid ms) :
    let r := exchangeCandidates peer disableTrickleICE {} ms
    (r.1.ops, r.2) =
      applyOps peer [] ((if disableTrickleICE then ms.take 1 else ms).map CallResponse.op) := by
  rcases h with rfl | ⟨sdp, cs, rfl⟩
  · cases disableTrickleICE <;> rfl
  · cases hop : peer [] (.setRemoteDescription sdp) with
    | some err =>
      cases disableTrickleICE <;> simp [exchangeCandidates, applyOps, CallResponse.op, hop]
    | none =>
      cases disableTrickleICE with
      | true => simp [exchangeCandidates, applyOps, CallResponse.op, hop]
      | false =>
        have hrest := exchangeCandidates_updates peer false cs
          { haveInit := true, uuid, ops := [.setRemoteDescription sdp] } rfl
        simpa [exchangeCandidates, applyOps, CallResponse.op, hop, Function.comp_def] using hrest

end Loop

namespace Call
variable {c c' : Call}

def sending (c : Call) : List CallResponse :=
  match c.pc with
  | .send msgs => msgs
  | _ => []

/-- `Call` has opened the conversation just if it has an initial SDP. -/
structure Converses (c : Call) : Prop where
  conversation : Conversation c.uuid (c.sent ++ c.sending)
  opened : c.pc.isReturned = false → (c.haveInit = true ↔ c.sent ++ c.sending ≠ [])

theorem Converses.keep (h : c.Converses) (hsent : c'.sent ++ c'.sending = c.sent ++ c.sending)
    (huuid : c'.uuid = c.uuid) (hinit : c'.haveInit = c.haveInit)
    (hpc : c'.pc.isReturned = false → c.pc.isReturned = false) : c'.Converses where
  conversation := by
    rw [huuid, hsent]
    exact h.conversation
  opened hret := by
    rw [hinit, hsent]
    exact h.opened (hpc hret)

theorem Converses.returned (h : c.Converses) (err : Option GoErr) :
    ({ c with pc := .returned err } : Call).Converses where
  conversation := (List.append_nil c.sent).symm ▸ h.conversation.of_append
  opened hret := by cases hret

theorem forward_true (uuid : String) (resp : WebRTCCallAnswer) :
    ∃ cs : List ProtoICECandidate,
      Signaling.forward uuid true resp = cs.map fun c => ⟨uuid, .update c⟩ := by
  unfold Signaling.forward
  split
  · exact ⟨[], rfl⟩
  · cases resp.candidate with
    | none => exact ⟨[], rfl⟩
    | some c => exact ⟨[iceCandidateInitToProto c], rfl⟩

theorem forward_false (uuid : String) (hnone : resp.err = none)
    (hsdp : resp.initialSDP = some sdp) : Signaling.forward uuid false resp =
      ⟨uuid, .init sdp⟩ :: Signaling.forward uuid true resp := by
  simp [Signaling.forward, hnone, hsdp]

theorem Converses.handle (h : c.Converses) (hpc : c.pc = .got resp) :
    (c.handle resp).Converses := by
  have hconv := h.conversation
  have hopen := h.opened (by rw [hpc]; rfl)
  rw [sending, hpc, List.append_nil] at hconv hopen
  unfold Call.handle
  split
  · exact h.returned _
  · rename_i hnone
    split
    · exact h.returned _
    · rename_i hsdp
      cases hinit : c.haveInit with
      | true =>
        obtain ⟨cs, hcs⟩ := forward_true c.uuid resp
        have hne := hopen.1 hinit
        refine ⟨?_, fun _ => ⟨fun _ hnil => hne (List.append_eq_nil_iff.1 hnil).1, fun _ => rfl⟩⟩
        show Conversation c.uuid (c.sent ++ Signaling.forward c.uuid true resp)
        rw [hcs]
        exact hconv.append_updates hne cs
      | false =>
        have hnil : c.sent = [] := by
          by_contra hne
          rw [hopen.2 hne] at hinit
          cases hinit
        obtain ⟨sdp, hsdp⟩ : ∃ sdp, resp.initialSDP = some sdp := by
          rw [hinit] at hsdp
          cases hs : resp.initialSDP with
          | none => simp [hs] at hsdp
          | some sdp => exact ⟨sdp, rfl⟩
        obtain ⟨cs, hcs⟩ := forward_true c.uuid resp
        refine ⟨.inr ⟨sdp, cs, ?_⟩, fun _ => ⟨fun _ => ?_, fun _ => rfl⟩⟩
        · show c.sent ++ Signaling.forward c.uuid false resp = _
          rw [hnil, forward_false _ hnone hsdp, hcs]
          rfl
        · show c.sent ++ Signaling.forward c.uuid false resp ≠ []
          rw [forward_false _ hnone hsdp]
          exact List.append_ne_nil_of_right_ne_nil _ (List.cons_ne_nil _ _)

theorem Converses.run (h : c.Converses) (hs : c.run c.pc a = some c') : c'.Converses := by
  obtain ⟨uuid, pc, haveInit, ctxErr, received, sent⟩ := c
  simp only [Call.run] at hs
  split at hs
  · split at hs <;> cases hs
    · exact h.returned _
    · exact h.keep rfl rfl rfl fun _ => rfl
  · obtain ⟨e, -, rfl⟩ := Option.map_eq_some_iff.1 hs
    exact h.returned _
  · cases hs
    exact h.returned _
  · cases hs
    exact h.keep rfl rfl rfl fun _ => rfl
  · cases hs
    exact h.keep rfl rfl rfl fun _ => rfl
  · cases hs
    exact h.handle rfl
  · cases hs
    exact h.keep (List.append_assoc _ _ _) rfl rfl fun _ => rfl
  · cases hs
    exact h.keep rfl rfl rfl fun _ => rfl
  · cases hs
    exact h.returned _
  · cases hs

end Call

/-- `Call` with any queue: whatever it is answered, whatever fails, whenever its context ends. -/
def callMachine : Machine Call (CallAct ⊕ CtxErr) where
  init c := ∃ uuid, c = { uuid }
  step c
    | .inl a => c.run c.pc a
    | .inr e => some { c with ctxErr := c.ctxErr <|> some e }

theorem Call.converses_of_reachable (h : callMachine.Reachable c) : c.Converses := by
  refine h.invariant ?_ ?_
  · rintro c ⟨uuid, rfl⟩
    exact ⟨.inl rfl, fun _ => ⟨fun hinit => (by cases hinit), fun hne => absurd rfl hne⟩⟩
  · intro c a c' hc hs
    cases a with
    | inl a => exact hc.run hs
    | inr e =>
      cases hs
      exact { hc with }

theorem op_image (ms : List AnswerResponse) :
    (ms.filterMap AnswerResponse.image).map CallResponse.op = ms.filterMap AnswerResponse.op := by
  rw [List.map_filterMap]
  congr 1
  funext m
  obtain ⟨uuid, stage⟩ := m
  rcases stage with _ | (_ | c) | _ | _ | _ <;> try rfl
  have hindex : UInt32.toUInt16 ∘ UInt16.toUInt32 ∘ UInt32.toUInt16 = UInt32.toUInt16 :=
    funext fun i => UInt16.toUInt16_toUInt32 i.toUInt16
  simp [AnswerResponse.image, AnswerResponse.op, CallResponse.op, relayCandidate,
    iceCandidateFromProto, iceCandidateInitToProto, hindex]

/-- The exchange of a caller rejects nothing that `Call` sends: its errors are those of the peer
connection. -/
theorem exchange_accepts_call (peer : List PeerOp → PeerOp → Option GoErr)
    (disableTrickleICE : Bool) (h : callMachine.Reachable c) :
    let r := exchangeCandidates peer disableTrickleICE {} c.sent
    (r.1.ops, r.2) =
      applyOps peer []
        ((if disableTrickleICE then c.sent.take 1 else c.sent).map CallResponse.op) :=
  exchangeCandidates_conversation peer disableTrickleICE
    (Call.converses_of_reachable h).conversation.of_append

/-- The caller goes away when `Call` has sent the initial SDP. -/
theorem exchange_accepts_call_canceled : ∃ c : Call, c.ctxErr = some .canceled ∧
    (exchangeCandidates (fun _ _ => none) false {} c.sent).1.ops =
      [.setRemoteDescription "answer"] := by
  obtain ⟨c, hc, hctx, hsent⟩ : ∃ c : Call, callMachine.Reachable c ∧
      c.ctxErr = some .canceled ∧ c.sent = [⟨"call", .init "answer"⟩] :=
    callMachine.exists_reachable { uuid := "call" }
      [.inl .next, .inl (.recv { initialSDP := some "answer" }), .inl .next, .inl .next,
        .inr .canceled] ⟨"call", rfl⟩ (by decide +kernel)
  refine ⟨c, hctx, (congrArg Prod.fst (exchange_accepts_call (fun _ _ => none) false hc)).trans ?_⟩
  rw [hsent]
  rfl

theorem RelayRun.image_conversation (s : RelayRun) : Conversation s.call.uuid s.image := by
  have hconf : conforming s.call.uuid false s.conformed = true := conforming_conformingPrefix _ _ _
  rcases conforming_shape hconf with hnil | ⟨sdp, cs, hcs⟩
  · exact .inl (by rw [image, hnil]; rfl)
  · refine .inr ⟨sdp, cs.map relayCandidate, ?_⟩
    rw [image, hcs, List.filterMap_cons, image_updates, List.map_map]
    rfl

/-- From end to end: the peer connection of the caller undergoes what the answerer has sent, in its
order, up to an operation that fails, and all of it has arrived when `Call` has returned. -/
theorem exchange_applies_answers (peer : List PeerOp → PeerOp → Option GoErr)
    (h : relayMachine.ReachableWith RelayLive s) :
    ∃ ops, ops <+: s.conformed.filterMap AnswerResponse.op ∧
      (s.call.pc.isReturned = true → ops = s.conformed.filterMap AnswerResponse.op) ∧
      ((exchangeCandidates peer false {} s.call.sent).1.ops,
        (exchangeCandidates peer false {} s.call.sent).2) = applyOps peer [] ops := by
  have hrelays := RelayRun.relays_of_reachable h
  have hconv : Conversation s.call.uuid s.call.sent := by
    obtain ⟨rest, hrest⟩ := hrelays.sent_isPrefix
    exact .of_append (hrest ▸ s.image_conversation)
  refine ⟨s.call.sent.map CallResponse.op, ?_, ?_, ?_⟩
  · rw [← op_image]
    exact hrelays.sent_isPrefix.map _
  · intro hret
    cases hpc : s.call.pc with
    | returned callErr => rw [hrelays.sent_returned hpc, RelayRun.image, op_image]
    | _ =>
      rw [hpc] at hret
      cases hret
  · exact exchangeCandidates_conversation peer false hconv

theorem exchange_applies_answers_two : ∃ s, relayMachine.ReachableWith RelayLive s ∧
    s.stream = relayedMessages ∧
    (exchangeCandidates (fun _ _ => none) false {} s.call.sent).1.ops =
      [.setRemoteDescription "answer", .addICECandidate { candidate := "candidate:1" }] := by
  obtain ⟨s, hr, hst, hret, hall⟩ : ∃ s : RelayRun, relayMachine.ReachableWith RelayLive s ∧
      s.stream = relayedMessages ∧ s.call.pc.isReturned = true ∧
      s.conformed.filterMap AnswerResponse.op =
        [.setRemoteDescription "answer", .addICECandidate { candidate := "candidate:1" }] :=
    relayMachine.exists_reachableWith RelayLive
      { call := { uuid := "call" }, rest := relayedMessages } relayedRun
      ⟨"call", relayedMessages, rfl⟩ (by decide +kernel)
  obtain ⟨ops, -, hops, happly⟩ := exchange_applies_answers (fun _ _ => none) hr
  refine ⟨s, hr, hst, (congrArg Prod.fst happly).trans ?_⟩
  rw [hops hret, hall]
  rfl

end Goutils.Signaling
