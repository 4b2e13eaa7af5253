import Goutils.Signaling.MongoCall

namespace Goutils.Signaling
open Lib Rpc CallQueue
set_option autoImplicit true

/-- The SDP of the answerer stays once set, and its candidates grow by appending. -/
def Grows (d d' : MongoCall) : Prop :=
  (d.answererSDP ≠ "" → d'.answererSDP = d.answererSDP) ∧
    d.answererCandidates <+: d'.answererCandidates

instance : Decidable (Grows d d') := inferInstanceAs (Decidable (_ ∧ _))

def failure (d : MongoCall) : Option WebRTCCallAnswer :=
  if d.answererError.getD "" ≠ "" then some { err := some (.text (d.answererError.getD "")) }
  else none

def finishes (d : MongoCall) : Bool := (failure d).isSome || d.answererDone

def untilFinished : List MongoCall → List MongoCall
  | [] => []
  | d :: ds => if finishes d then [d] else d :: untilFinished ds

def lastCandidates (ds : List MongoCall) : List MongoICECandidate :=
  (ds.getLast?.map (·.answererCandidates)).getD []

def candidateAnswers (cs : List MongoICECandidate) : List WebRTCCallAnswer :=
  cs.map fun c => { candidate := iceCandidateFromMongo c }

/-- The candidates that were there before the SDP, the SDP, and the others. -/
def answersOf (ds : List MongoCall) : List WebRTCCallAnswer :=
  let early := lastCandidates (ds.takeWhile fun d => d.answererSDP = "")
  candidateAnswers early ++
  ((ds.find? fun d => d.answererSDP ≠ "").map fun d => { initialSDP := d.answererSDP }).toList ++
  candidateAnswers ((lastCandidates ds).drop early.length)

def told (ds : List MongoCall) : List MongoCall :=
  if (ds.getLast?.bind failure).isSome then ds.dropLast else ds

def answerStream (ds : List MongoCall) : List WebRTCCallAnswer :=
  answersOf (told ds) ++ (ds.getLast?.bind failure).toList

@[simp] theorem lastCandidates_concat (ds : List MongoCall) (d : MongoCall) :
    lastCandidates (ds ++ [d]) = d.answererCandidates := by
  rw [lastCandidates, List.getLast?_concat]
  rfl

@[simp] theorem candidateAnswers_append (cs cs' : List MongoICECandidate) :
    candidateAnswers (cs ++ cs') = candidateAnswers cs ++ candidateAnswers cs' :=
  List.map_append

theorem lastCandidates_append (h : (ds ++ ds').Pairwise Grows) :
    lastCandidates ds <+: lastCandidates (ds ++ ds') := by
  obtain rfl | ⟨es, e, rfl⟩ := ds'.eq_nil_or_concat'
  · rw [List.append_nil]
  · obtain rfl | ⟨cs, c, rfl⟩ := ds.eq_nil_or_concat'
    · exact List.nil_prefix
    · have hcross := (List.pairwise_append.1 h).2.2
      rw [← List.append_assoc, lastCandidates_concat, lastCandidates_concat]
      exact (hcross c (by simp) e (by simp)).2

theorem lastCandidates_takeWhile (p : MongoCall → Bool) (h : ds.Pairwise Grows) :
    (lastCandidates (ds.takeWhile p)).length ≤ (lastCandidates ds).length := by
  have happ := List.takeWhile_append_dropWhile (p := p) (l := ds)
  rw [← happ] at h
  have hpre := (lastCandidates_append h).length_le
  rwa [happ] at hpre

theorem answersOf_of_no_sdp (h : ∀ d ∈ ds, d.answererSDP = "") :
    answersOf ds = candidateAnswers (lastCandidates ds) := by
  have htake : ds.takeWhile (fun d => d.answererSDP = "") = ds := by
    apply List.takeWhile_eq_self_iff.2
    simpa using h
  have hfind : ds.find? (fun d => d.answererSDP ≠ "") = none := by simpa using h
  simp only [answersOf, htake, hfind, List.drop_length]
  simp [candidateAnswers]

theorem answersOf_concat (h : (ds ++ [d]).Pairwise Grows) :
    answersOf (ds ++ [d]) = answersOf ds ++
      ((if !(ds.any fun d => d.answererSDP ≠ "") && d.answererSDP ≠ "" then
          [{ initialSDP := d.answererSDP }] else []) ++
        candidateAnswers (d.answererCandidates.drop (lastCandidates ds).length)) := by
  have hgrow := lastCandidates_append h
  rw [lastCandidates_concat] at hgrow
  obtain ⟨rest, hrest⟩ := hgrow
  by_cases hsdp : ∃ d₀ ∈ ds, d₀.answererSDP ≠ ""
  · -- The SDP is known, so that the early candidates stay as they are.
    have hany : (ds.any fun d => d.answererSDP ≠ "") = true := by simpa using hsdp
    have htake : (ds ++ [d]).takeWhile (fun d => d.answererSDP = "") =
        ds.takeWhile fun d => d.answererSDP = "" := by
      rw [List.takeWhile_append, if_neg]
      intro hlen
      obtain ⟨d₀, hmem, hne⟩ := hsdp
      have hall := List.takeWhile_eq_self_iff.1
        ((List.takeWhile_prefix _).eq_of_length hlen) d₀ hmem
      exact hne (of_decide_eq_true hall)
    have hfind : (ds ++ [d]).find? (fun d => d.answererSDP ≠ "") =
        ds.find? fun d => d.answererSDP ≠ "" := by
      rw [List.find?_append, Option.or_of_isSome]
      simpa using hsdp
    have hle := lastCandidates_takeWhile (fun d => d.answererSDP = "") (List.pairwise_append.1 h).1
    simp only [answersOf, htake, hfind, hany, lastCandidates_concat, ← hrest, List.drop_left,
      List.drop_append_of_le_length hle, candidateAnswers_append, Bool.not_true, Bool.false_and,
      Bool.false_eq_true, if_false, List.nil_append, List.append_assoc]
  · have hno : ∀ d₀ ∈ ds, d₀.answererSDP = "" := by simpa using hsdp
    have hany : (ds.any fun d => d.answererSDP ≠ "") = false := by simpa using hsdp
    rw [answersOf_of_no_sdp hno, hany]
    by_cases hd : d.answererSDP = ""
    · rw [answersOf_of_no_sdp (List.forall_mem_append.2 ⟨hno, List.forall_mem_singleton.2 hd⟩),
        lastCandidates_concat, ← hrest, List.drop_left, candidateAnswers_append]
      simp [hd]
    · have htake : (ds ++ [d]).takeWhile (fun d => d.answererSDP = "") = ds := by
        rw [List.takeWhile_append_of_pos (by simpa using hno)]
        simp [hd]
      have hfind : (ds ++ [d]).find? (fun d => d.answererSDP ≠ "") = some d := by
        rw [List.find?_append, List.find?_eq_none.2 (by simpa using hno)]
        simp [hd]
      simp only [answersOf, htake, hfind, lastCandidates_concat]
      simp [hd]

theorem failure_of_not_finishes (h : finishes d = false) : failure d = none := by
  rw [finishes, Bool.or_eq_false_iff, Option.isSome_eq_false_iff, Option.isNone_iff_eq_none] at h
  exact h.1

theorem answerStream_of_no_failure (h : ds.getLast?.bind failure = none) :
    answerStream ds = answersOf ds := by
  rw [answerStream, told, h]
  exact List.append_nil _

theorem answerStream_of_none (h : ∀ d ∈ ds, finishes d = false) :
    answerStream ds = answersOf ds := by
  apply answerStream_of_no_failure
  cases hd : ds.getLast? with
  | none => rfl
  | some d => exact failure_of_not_finishes (h d (List.mem_of_getLast? hd))

theorem untilFinished_append (h : ∀ d ∈ ds, finishes d = false) (es : List MongoCall) :
    untilFinished (ds ++ es) = ds ++ untilFinished es := by
  induction ds with
  | nil => rfl
  | cons d ds ih =>
    obtain ⟨hd, hds⟩ := List.forall_mem_cons.1 h
    rw [List.cons_append, untilFinished, if_neg (by rw [hd]; decide), ih hds, List.cons_append]

theorem untilFinished_of_none (h : ∀ d ∈ ds, finishes d = false) : untilFinished ds = ds := by
  have happ := untilFinished_append h []
  rwa [untilFinished, List.append_nil] at happ

theorem untilFinished_concat (h : ∀ d ∈ ds, finishes d = false) (hd : finishes d = true)
    (es : List MongoCall) : untilFinished (ds ++ [d] ++ es) = ds ++ [d] := by
  rw [List.append_assoc, untilFinished_append h, List.singleton_append, untilFinished, if_pos hd]

theorem candidateAnswers_candidate (cs : List MongoICECandidate) :
    (candidateAnswers cs).filterMap (·.candidate) = cs.map iceCandidateFromMongo := by
  rw [candidateAnswers, List.filterMap_map, ← List.filterMap_eq_map]
  rfl

theorem answersOf_candidates (h : ds.Pairwise Grows) :
    (answersOf ds).filterMap (·.candidate) = (lastCandidates ds).map iceCandidateFromMongo := by
  induction ds using List.reverseRecOn with
  | nil => rfl
  | append_singleton ds d ih =>
    obtain ⟨rest, hrest⟩ := lastCandidates_append h
    rw [lastCandidates_concat] at hrest ⊢
    rw [answersOf_concat h, List.filterMap_append, ih (List.pairwise_append.1 h).1, ← hrest,
      List.drop_left, List.filterMap_append, List.map_append]
    have hsdp : List.filterMap (fun a : WebRTCCallAnswer => a.candidate)
        (if (!(ds.any fun d => d.answererSDP ≠ "") && d.answererSDP ≠ "") = true then
          [{ initialSDP := d.answererSDP }] else []) = [] := by
      split <;> rfl
    rw [hsdp, List.nil_append, candidateAnswers_candidate]

theorem candidateAnswers_initialSDP (cs : List MongoICECandidate) :
    (candidateAnswers cs).filterMap (·.initialSDP) = [] := by
  rw [candidateAnswers, List.filterMap_map]
  exact List.filterMap_eq_nil_iff.2 fun _ _ => rfl

theorem answersOf_initialSDP (ds : List MongoCall) :
    (answersOf ds).filterMap (·.initialSDP) =
      ((ds.find? fun d => d.answererSDP ≠ "").map (·.answererSDP)).toList := by
  simp only [answersOf, List.filterMap_append, candidateAnswers_initialSDP, List.nil_append,
    List.append_nil]
  cases ds.find? fun d => d.answererSDP ≠ "" with
  | none | some d => rfl

theorem failure_fields (h : failure d = some a) : a.initialSDP = none ∧ a.candidate = none := by
  unfold failure at h
  split at h
  · cases h
    exact ⟨rfl, rfl⟩
  · cases h

theorem answerStream_fields (ds : List MongoCall) :
    (answerStream ds).filterMap (·.initialSDP) =
        (answersOf (told ds)).filterMap (·.initialSDP) ∧
      (answerStream ds).filterMap (·.candidate) =
        (answersOf (told ds)).filterMap (·.candidate) := by
  rw [answerStream, List.filterMap_append, List.filterMap_append]
  cases hf : ds.getLast?.bind failure with
  | none => exact ⟨List.append_nil _, List.append_nil _⟩
  | some a =>
    obtain ⟨d, _, hd⟩ := Option.bind_eq_some_iff.1 hf
    obtain ⟨hsdp, hcand⟩ := failure_fields hd
    simp [hsdp, hcand]

theorem told_sublist (ds : List MongoCall) : (told ds).Sublist ds := by
  unfold told
  split
  · exact List.dropLast_sublist ds
  · exact List.Sublist.refl ds

/-- The goroutine of `SendOfferInit` with a live context, its snapshots and answers. -/
structure SnapshotRun where
  run : MongoRun
  delivered : List MongoCall := []
  taken : List MongoCall := []
  received : List WebRTCCallAnswer := []

inductive SnapshotAct where
  | deliver (d : MongoCall)
  | offer
  | read

def snapshotStep (s : SnapshotRun) : SnapshotAct → Option SnapshotRun
  | .deliver d =>
    (mongoStep s.run (.event { call := d })).map fun run =>
      { s with run, delivered := s.delivered ++ [d] }
  | .offer =>
    (mongoStep s.run .offer).map fun run =>
      { s with
        run
        taken := if s.run.pc = .select then s.taken ++ (s.run.events.take 1).map (·.call)
          else s.taken }
  | .read =>
    match s.run.responses with
    | a :: responses =>
      some { s with run := { s.run with responses }, received := s.received ++ [a] }
    | [] => none

def snapshotMachine : Machine SnapshotRun SnapshotAct where
  init s := ∃ uuid, s = { run := { call := { uuid } } }
  step := snapshotStep

def Growing (s : SnapshotRun) : SnapshotAct → Prop
  | .deliver d => ∀ d₀ ∈ s.delivered, Grows d₀ d
  | _ => True

instance : ∀ s a, Decidable (Growing s a) := fun s a => by
  unfold Growing
  split <;> infer_instance

def SnapshotAct.Proceeds (_ : SnapshotRun) (a : SnapshotAct) : Prop := a = .offer ∨ a = .read

def OfferPc.work : OfferPc → Nat
  | .top => 1
  | .select => 0
  | .sending answers _ => 2 * answers.length + 3
  | .closing => 2
  | .cleaning => 1
  | .finished => 0

def MongoRun.work (s : MongoRun) : Nat :=
  (s.events.map fun e => 2 * e.call.answererCandidates.length + 6).sum + s.responses.length +
    s.pc.work

theorem handleEvent_eq (s : MongoRun) (he : e.error = none) :
    s.handleEvent e =
      match failure e.call with
      | some a => { s with pc := .sending [a] true }
      | none =>
        { s with
          pc := .sending (s.answers e.call) e.call.answererDone
          haveInitSDP := s.haveInitSDP || e.call.answererSDP ≠ ""
          candLen := max s.candLen e.call.answererCandidates.length } := by
  by_cases herr : e.call.answererError.getD "" ≠ ""
  · simp only [MongoRun.handleEvent, failure, he, if_pos herr]
  · simp only [MongoRun.handleEvent, failure, he, if_neg herr]

namespace SnapshotRun

structure Follows (s : SnapshotRun) : Prop where
  delivered : s.delivered = s.taken ++ s.run.events.map (·.call)
  grows : s.delivered.Pairwise Grows
  events : ∀ e ∈ s.run.events, e.error = none
  placed : s.run.placed = s.received ++ s.run.responses
  stream : s.run.total = answerStream s.taken
  live : s.run.pc.ending = false → (∀ d ∈ s.taken, finishes d = false) ∧
    s.run.haveInitSDP = (s.taken.any fun d => d.answererSDP ≠ "") ∧
    s.run.candLen = (lastCandidates s.taken).length
  ended : s.run.pc.ending = true →
    ∃ ds d, s.taken = ds ++ [d] ∧ (∀ d ∈ ds, finishes d = false) ∧ finishes d = true
  ctxErr : s.run.pc ≠ .finished → s.run.ctxErr = none

namespace Follows
variable {s s' : SnapshotRun} (h : s.Follows)

include h

theorem move {pc : OfferPc} (hpc : s.run.pc = pc₀) (hans : pc.answers = pc₀.answers)
    (hend : pc.ending = pc₀.ending) (hctx : pc ≠ .finished → e = none) :
    Follows { s with run := { s.run with pc := pc, closed := b, ctxErr := e } } where
  __ := h
  stream := by
    show s.run.placed ++ pc.answers = _
    rw [hans, ← hpc]
    exact h.stream
  live he := h.live (by rwa [hpc, ← hend])
  ended he := h.ended (by rwa [hpc, ← hend])
  ctxErr := hctx

theorem ctx_live (hpc : s.run.pc = pc) (hne : pc ≠ .finished) : s.run.ctxErr = none :=
  h.ctxErr (by rwa [hpc])

theorem taken_grows (he : s.run.events = e :: es) : (s.taken ++ [e.call]).Pairwise Grows := by
  have hgrows := h.grows
  rw [h.delivered, he, List.map_cons, ← List.singleton_append, ← List.append_assoc] at hgrows
  exact (List.pairwise_append.1 hgrows).1

theorem answers_eq (hpc : s.run.pc = .select) (he : s.run.events = e :: es) :
    answersOf (s.taken ++ [e.call]) = answersOf s.taken ++ s.run.answers e.call := by
  obtain ⟨-, hinit, hlen⟩ := h.live (by rw [hpc]; rfl)
  rw [answersOf_concat (h.taken_grows he), MongoRun.answers, hinit, hlen]
  rfl

theorem handle (hpc : s.run.pc = .select) (he : s.run.events = e :: es) : Follows { s with
    run := { s.run with events := es }.handleEvent e, taken := s.taken ++ [e.call] } := by
  obtain ⟨hno, hinit, hlen⟩ := h.live (by rw [hpc]; rfl)
  have hdelivered : s.delivered = s.taken ++ [e.call] ++ es.map (·.call) := by
    rw [h.delivered, he, List.append_assoc]
    rfl
  have hevents : ∀ e ∈ es, e.error = none := fun e' hmem =>
    h.events e' (by rw [he]; exact List.mem_cons_of_mem _ hmem)
  have hctx := h.ctx_live hpc (by decide)
  have hstream : s.run.placed = answersOf s.taken := by
    have hs := h.stream
    rw [MongoRun.total, hpc, answerStream_of_none hno] at hs
    exact (List.append_nil _).symm.trans hs
  rw [handleEvent_eq _ (h.events e (by rw [he]; exact List.mem_cons_self))]
  cases hfail : failure e.call with
  | some a =>
    have hend : finishes e.call = true := by rw [finishes, hfail]; rfl
    refine ⟨hdelivered, h.grows, hevents, h.placed, ?_, ?_, fun _ => ⟨_, _, rfl, hno, hend⟩,
      fun _ => hctx⟩
    · show s.run.placed ++ [a] = _
      rw [hstream, answerStream, told, List.getLast?_concat, List.dropLast_concat,
        Option.bind_some, hfail]
      rfl
    · intro hlast
      cases hlast
  | none =>
    have hend : finishes e.call = e.call.answererDone := by rw [finishes, hfail]; rfl
    have hgrow := lastCandidates_append (h.taken_grows he)
    rw [lastCandidates_concat] at hgrow
    refine ⟨hdelivered, h.grows, hevents, h.placed, ?_, fun hlast => ⟨?_, ?_, ?_⟩, fun hlast => ?_,
      fun _ => hctx⟩
    · show s.run.placed ++ s.run.answers e.call = _
      rw [hstream, answerStream_of_no_failure, h.answers_eq hpc he]
      rw [List.getLast?_concat, Option.bind_some, hfail]
    · exact List.forall_mem_append.2 ⟨hno, List.forall_mem_singleton.2 (hend.trans hlast)⟩
    · show (s.run.haveInitSDP || _) = _
      rw [hinit, List.any_append, List.any_cons, List.any_nil, Bool.or_false]
    · show max s.run.candLen _ = _
      rw [hlen, lastCandidates_concat, Nat.max_eq_right hgrow.length_le]
    · exact ⟨_, _, rfl, hno, hend.trans hlast⟩

theorem deliver (hd : ∀ d₀ ∈ s.delivered, Grows d₀ d) : Follows { s with
    run := { s.run with events := s.run.events ++ [{ call := d }] }
    delivered := s.delivered ++ [d] } where
  __ := h
  delivered := by
    show s.delivered ++ [d] = s.taken ++ (s.run.events ++ [_]).map _
    rw [h.delivered, List.map_append, List.append_assoc]
    rfl
  grows := List.pairwise_append.2 ⟨h.grows, List.pairwise_singleton _ _, fun d₀ hmem d' hd' => by
    obtain rfl := List.mem_singleton.1 hd'
    exact hd d₀ hmem⟩
  events := List.forall_mem_append.2 ⟨h.events, List.forall_mem_singleton.2 rfl⟩

theorem place (hpc : s.run.pc = .sending (a :: as) last) (hresp : s.run.responses = []) :
    Follows { s with run := { s.run with
      responses := [a], placed := s.run.placed ++ [a], pc := .sending as last } } where
  __ := h
  placed := by
    show s.run.placed ++ [a] = s.received ++ [a]
    rw [h.placed, hresp, List.append_nil]
  stream := by
    have hs := h.stream
    rw [MongoRun.total, hpc] at hs
    show s.run.placed ++ [a] ++ as = _
    rw [List.append_assoc]
    exact hs
  live he := h.live (by rw [hpc]; exact he)
  ended he := h.ended (by rw [hpc]; exact he)
  ctxErr _ := h.ctx_live hpc nofun

theorem read (hresp : s.run.responses = a :: as) :
    Follows { s with run := { s.run with responses := as }, received := s.received ++ [a] } where
  __ := h
  placed := by
    show s.run.placed = s.received ++ [a] ++ as
    rw [h.placed, hresp, List.append_assoc]
    rfl

end Follows

inductive Step (s : SnapshotRun) : SnapshotAct → SnapshotRun → Prop where
  | deliver : Step s (.deliver d) { s with
      run := { s.run with events := s.run.events ++ [{ call := d }] }
      delivered := s.delivered ++ [d] }
  | next : s.run.pc = .select → s.run.events = e :: es →
      Step s .offer { s with
        run := { s.run with events := es }.handleEvent e, taken := s.taken ++ [e.call] }
  | place : s.run.pc = .sending (a :: as) last → s.run.responses = [] →
      Step s .offer { s with run := { s.run with
        responses := [a], placed := s.run.placed ++ [a], pc := .sending as last } }
  | move : s.run.pc = pc₀ → pc.answers = pc₀.answers → pc.ending = pc₀.ending →
      (pc ≠ .finished → ctxErr = none) → pc.work < pc₀.work →
      Step s .offer { s with run := { s.run with pc := pc, closed := closed, ctxErr := ctxErr } }
  | read : s.run.responses = a :: as →
      Step s .read { s with
        run := { s.run with responses := as }, received := s.received ++ [a] }

variable {s s' : SnapshotRun}

theorem Follows.offer_step (h : s.Follows) (hs : snapshotStep s .offer = some s') :
    s.Step .offer s' := by
  obtain ⟨run, hrun, rfl⟩ := Option.map_eq_some_iff.1 hs
  have htaken : ∀ {pc : OfferPc} {taken : List MongoCall}, s.run.pc = pc → pc ≠ .select →
      (if s.run.pc = .select then taken else s.taken) = s.taken := fun hpc hne =>
    if_neg (by rwa [hpc])
  cases MongoRun.offer_step hrun rfl with
  | ctxErr hpc he =>
    rw [h.ctx_live hpc nofun] at he
    cases he
  | next hpc he =>
    rw [if_pos hpc, he]
    exact .next hpc he
  | place hpc hresp =>
    rw [htaken hpc nofun]
    exact .place hpc hresp
  | top hpc | handled hpc | ended hpc | close hpc =>
    rw [htaken hpc nofun]
    exact .move hpc rfl rfl (fun _ => h.ctx_live hpc nofun) (by decide)
  | cleanup hpc =>
    rw [htaken hpc nofun]
    exact .move hpc rfl rfl (fun hne => absurd rfl hne) (by decide)

theorem Follows.step_of (h : s.Follows) (hs : snapshotStep s a = some s') : s.Step a s' := by
  cases a with
  | deliver d =>
    cases hs
    exact .deliver
  | offer => exact h.offer_step hs
  | read =>
    simp only [snapshotStep] at hs
    split at hs
    · cases hs
      exact .read ‹_›
    · cases hs

theorem Follows.step (h : s.Follows) (hok : Growing s a) (hs : s.Step a s') : s'.Follows := by
  cases hs with
  | deliver => exact h.deliver hok
  | next hpc he => exact h.handle hpc he
  | place hpc hresp => exact h.place hpc hresp
  | move hpc hans hend hctx _ => exact h.move hpc hans hend hctx
  | read hresp => exact h.read hresp

theorem follows_of_reachable (h : snapshotMachine.ReachableWith Growing s) : s.Follows := by
  apply h.invariant
  · rintro s ⟨uuid, rfl⟩
    exact ⟨rfl, .nil, List.forall_mem_nil _, rfl, rfl, fun _ => ⟨List.forall_mem_nil _, rfl, rfl⟩,
      nofun, fun _ => rfl⟩
  · exact fun s a s' h hok hs => h.step hok (h.step_of hs)

theorem length_answers_le (s : MongoRun) (d : MongoCall) :
    (s.answers d).length ≤ d.answererCandidates.length + 1 := by
  rw [MongoRun.answers, List.length_append, List.length_map, List.length_drop]
  split
  · rw [List.length_singleton]
    omega
  · rw [List.length_nil]
    omega

theorem handleEvent_work (s : MongoRun) (he : e.error = none) :
    (s.handleEvent e).work <
      { s with pc := .select }.work + (2 * e.call.answererCandidates.length + 6) := by
  rw [handleEvent_eq s he]
  cases failure e.call with
  | some a =>
    simp only [MongoRun.work, OfferPc.work, List.length_singleton]
    omega
  | none =>
    have hle := length_answers_le s e.call
    simp only [MongoRun.work, OfferPc.work]
    omega

theorem Follows.work_lt (h : s.Follows) (ha : SnapshotAct.Proceeds s a) (hs : s.Step a s') :
    s'.run.work < s.run.work := by
  cases hs with
  | deliver => rcases ha with ha | ha <;> cases ha
  | @next e es hpc he =>
    have herr := h.events e (by rw [he]; exact List.mem_cons_self)
    refine Nat.lt_of_lt_of_le (handleEvent_work { s.run with events := es } herr) ?_
    simp only [MongoRun.work, he, hpc, List.map_cons, List.sum_cons]
    omega
  | place hpc hresp =>
    simp only [MongoRun.work, hpc, hresp, OfferPc.work, List.length_cons, List.length_nil]
    omega
  | move hpc _ _ _ hlt =>
    simp only [MongoRun.work, hpc]
    exact Nat.add_lt_add_left hlt _
  | read hresp =>
    simp only [MongoRun.work, hresp, List.length_cons]
    omega

theorem Follows.taken_untilFinished (h : s.Follows) : s.taken <+: untilFinished s.delivered := by
  rw [h.delivered]
  cases hend : s.run.pc.ending with
  | true =>
    obtain ⟨ds, d, htaken, hno, hd⟩ := h.ended hend
    rw [htaken, untilFinished_concat hno hd]
  | false =>
    rw [untilFinished_append (h.live hend).1]
    exact List.prefix_append _ _

theorem Follows.ending_iff (h : s.Follows) :
    s.run.pc.ending = true ↔ ∃ d ∈ s.taken, finishes d = true := by
  constructor
  · intro hend
    obtain ⟨ds, d, htaken, _, hd⟩ := h.ended hend
    exact ⟨d, by rw [htaken]; simp, hd⟩
  · rintro ⟨d, hmem, hd⟩
    by_contra hend
    have hno := (h.live (Bool.not_eq_true _ ▸ hend)).1 d hmem
    rw [hd] at hno
    cases hno

/-- Where nobody can go on, every snapshot up to the first final one is told. -/
theorem Follows.stalled (h : s.Follows) (hoffer : snapshotStep s .offer = none)
    (hread : snapshotStep s .read = none) :
    s.received = answerStream (untilFinished s.delivered) ∧
      (s.run.pc = .finished ↔ ∃ d ∈ s.delivered, finishes d = true) := by
  have hresp : s.run.responses = [] := by
    simp only [snapshotStep] at hread
    split at hread
    · cases hread
    · assumption
  have hrec : s.received ++ s.run.pc.answers = answerStream s.taken := by
    rw [← h.stream, MongoRun.total, h.placed, hresp, List.append_nil]
  have hoffer := Option.map_eq_none_iff.1 hoffer
  simp only [mongoStep] at hoffer
  cases hpc : s.run.pc with
  | select =>
    obtain ⟨hno, -⟩ := h.live (by rw [hpc]; rfl)
    have hev : s.run.events = [] := by
      rw [hpc] at hoffer
      simp only [MongoRun.offer] at hoffer
      split at hoffer
      · cases hoffer
      · assumption
    have hdel : s.delivered = s.taken := by rw [h.delivered, hev, List.map_nil, List.append_nil]
    rw [hdel, untilFinished_of_none hno, ← hrec, hpc]
    refine ⟨(List.append_nil _).symm, ?_, ?_⟩
    · intro hfin
      cases hfin
    · rintro ⟨d, hmem, hd⟩
      rw [hno d hmem] at hd
      cases hd
  | finished =>
    obtain ⟨ds, d, htaken, hno, hd⟩ := h.ended (by rw [hpc]; rfl)
    rw [h.delivered, htaken, untilFinished_concat hno hd, ← htaken, ← hrec, hpc]
    refine ⟨(List.append_nil _).symm, fun _ => ⟨d, ?_, hd⟩, fun _ => rfl⟩
    rw [htaken]
    simp
  | sending answers last =>
    rw [hpc] at hoffer
    cases answers with
    | nil => cases hoffer
    | cons a as =>
      rw [MongoRun.offer, MongoRun.place, hresp] at hoffer
      cases hoffer
  | top =>
    rw [hpc, MongoRun.offer, h.ctx_live hpc (by decide)] at hoffer
    cases hoffer
  | closing | cleaning =>
    rw [hpc] at hoffer
    cases hoffer

end SnapshotRun

/-- The answers are the stream of the snapshots taken, with the SDP at most once and each candidate
once and in order. If no snapshot comes, the caller has read all after a bounded number of steps.
-/
theorem answers_follow_snapshots (h : snapshotMachine.ReachableWith Growing s) :
    s.received ++ s.run.responses ++ s.run.pc.answers = answerStream s.taken ∧
      s.taken <+: untilFinished s.delivered ∧
      ((answerStream s.taken).filterMap (·.initialSDP)).length ≤ 1 ∧
      (answerStream s.taken).filterMap (·.candidate) =
        (lastCandidates (told s.taken)).map iceCandidateFromMongo ∧
      (s.run.pc.ending = true ↔ ∃ d ∈ s.taken, finishes d = true) ∧
      (∀ as s', snapshotMachine.exec s as = some s' →
        snapshotMachine.Allows SnapshotAct.Proceeds s as → as.length ≤ s.run.work) ∧
      (snapshotStep s .offer = none → snapshotStep s .read = none →
        s.received = answerStream (untilFinished s.delivered) ∧
          (s.run.pc = .finished ↔ ∃ d ∈ s.delivered, finishes d = true)) := by
  have hf := SnapshotRun.follows_of_reachable h
  obtain ⟨hsdp, hcand⟩ := answerStream_fields s.taken
  refine ⟨?_, hf.taken_untilFinished, ?_, ?_, hf.ending_iff, ?_, hf.stalled⟩
  · rw [← hf.placed]
    exact hf.stream
  · rw [hsdp, answersOf_initialSDP]
    exact Option.length_toList_le
  · rw [hcand]
    have htaken := (List.pairwise_append.1 (hf.delivered ▸ hf.grows)).1
    exact answersOf_candidates (htaken.sublist (told_sublist s.taken))
  · intro as s' he hall
    apply Machine.length_le_of_measure (fun s => s.run.work) _ hf hall he
    intro s a s' hf ha hs
    have hs := hf.step_of hs
    refine ⟨hf.step ?_ hs, hf.work_lt ha hs⟩
    rcases ha with rfl | rfl <;> trivial

/-- Two candidates come in one snapshot with the SDP, one was there before. -/
theorem answers_follow_snapshots_done :
    ∃ s, snapshotMachine.ReachableWith Growing s ∧ s.delivered.length = 2 ∧
      s.run.pc = .finished ∧ s.received = answerStream s.delivered ∧ s.received.length = 4 := by
  let doc : MongoCall := { id := "id", callerOperatorID := "op", host := "host" }
  let first : MongoCall := { doc with answererCandidates := [{ candidate := "a" }] }
  let second : MongoCall :=
    { doc with
      answererSDP := "sdp"
      answererCandidates := [{ candidate := "a" }, { candidate := "b" }, { candidate := "c" }]
      answererDone := true }
  let run : List (List SnapshotAct) :=
    [[.deliver first, .deliver second], [.offer, .offer, .offer, .read, .offer],
      [.offer, .offer, .offer, .read, .offer, .read, .offer, .read], [.offer, .offer, .offer]]
  obtain ⟨s, hreach, hdel, hpc, hlen, hoffer, hread, huntil⟩ : ∃ s,
      snapshotMachine.ReachableWith Growing s ∧ s.delivered.length = 2 ∧ s.run.pc = .finished ∧
      s.received.length = 4 ∧ snapshotStep s .offer = none ∧ snapshotStep s .read = none ∧
      untilFinished s.delivered = s.delivered :=
    snapshotMachine.exists_reachableWith Growing { run := { call := { uuid := "id" } } } run.flatten
      ⟨"id", rfl⟩ (by decide +kernel)
  obtain ⟨-, -, -, -, -, -, hstalled⟩ := answers_follow_snapshots hreach
  refine ⟨s, hreach, hdel, hpc, ?_, hlen⟩
  rw [(hstalled hoffer hread).1, huntil]

end Goutils.Signaling
