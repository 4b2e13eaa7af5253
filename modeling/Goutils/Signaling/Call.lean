import Goutils.CallQueue.Document
import Goutils.Rpc.Errors

namespace Goutils.Signaling
open Lib Rpc CallQueue
set_option autoImplicit true

structure ProtoICECandidate where
  candidate : String
  sdpMid : Option String := none
  sdpmLineIndex : Option UInt32 := none
  usernameFragment : Option String := none
  deriving DecidableEq

def iceCandidateInitToProto (ij : ICECandidateInit) : ProtoICECandidate where
  candidate := ij.candidate
  sdpMid := ij.sdpMid
  sdpmLineIndex := ij.sdpMLineIndex.map UInt16.toUInt32
  usernameFragment := ij.usernameFragment

def iceCandidateFromProto (i : ProtoICECandidate) : ICECandidateInit where
  candidate := i.candidate
  sdpMid := i.sdpMid
  sdpMLineIndex := i.sdpmLineIndex.map UInt32.toUInt16
  usernameFragment := i.usernameFragment

inductive CallStage where
  | init (sdp : String)
  | update (candidate : ProtoICECandidate)
  deriving DecidableEq

structure CallResponse where
  uuid : String
  stage : CallStage
  deriving DecidableEq

structure WebRTCCallAnswer where
  initialSDP : Option String := none
  candidate : Option ICECandidateInit := none
  err : Option GoErr := none
  deriving DecidableEq

def forward (uuid : String) (haveInit : Bool) (resp : WebRTCCallAnswer) : List CallResponse :=
  if resp.err.isSome then []
  else (if haveInit then [] else (resp.initialSDP.map fun sdp => ⟨uuid, .init sdp⟩).toList) ++
    (resp.candidate.map fun c => ⟨uuid, .update (iceCandidateInitToProto c)⟩).toList

def forwardAll (uuid : String) : List WebRTCCallAnswer → List CallResponse
  | [] => []
  | resp :: resps => forward uuid false resp ++ resps.flatMap (forward uuid true)

theorem forwardAll_concat (uuid : String) (as : List WebRTCCallAnswer) (a : WebRTCCallAnswer) :
    forwardAll uuid (as ++ [a]) = forwardAll uuid as ++ forward uuid (!as.isEmpty) a := by
  cases as with
  | nil => exact List.append_nil _
  | cons b as =>
    simp only [List.cons_append, forwardAll, List.flatMap_append, List.flatMap_singleton,
      List.append_assoc, List.isEmpty_cons, Bool.not_false]

theorem forwardAll_isPrefix (uuid : String) (as bs : List WebRTCCallAnswer) :
    forwardAll uuid as <+: forwardAll uuid (as ++ bs) := by
  cases as with
  | nil => exact List.nil_prefix
  | cons a as =>
    rw [List.cons_append, forwardAll, forwardAll, List.flatMap_append, ← List.append_assoc]
    exact List.prefix_append _ _

theorem forward_err (h : a.err = some e) : forward uuid haveInit a = [] := by
  rw [forward, h]
  rfl

theorem forward_empty (uuid : String) (haveInit : Bool) : forward uuid haveInit {} = [] := by
  cases haveInit with
  | false | true => rfl

theorem forward_length_le (uuid : String) (haveInit : Bool) (a : WebRTCCallAnswer) :
    (forward uuid haveInit a).length ≤ 2 := by
  unfold forward
  split
  · exact Nat.zero_le 2
  · rw [List.length_append]
    have hc : (a.candidate.map fun c =>
        (⟨uuid, .update (iceCandidateInitToProto c)⟩ : CallResponse)).toList.length ≤ 1 := by
      cases a.candidate with
      | none => exact Nat.zero_le 1
      | some c => exact Nat.le_refl 1
    split
    · rw [List.length_nil]
      omega
    · cases a.initialSDP with
      | none =>
        rw [Option.map_none, Option.toList_none, List.length_nil]
        omega
      | some sdp =>
        rw [Option.map_some, Option.toList_some, List.length_singleton]
        omega

inductive CallPc where
  | top
  | select
  | got (resp : WebRTCCallAnswer)
  | send (msgs : List CallResponse)
  | returned (callErr : Option GoErr)
  deriving DecidableEq

def CallPc.isReturned : CallPc → Bool
  | .returned _ => true
  | _ => false

/-- `Call` after its `SendOfferInit`, with the answers it took and the messages it sent. -/
structure Call where
  uuid : String
  pc : CallPc := .top
  haveInit : Bool := false
  ctxErr : Option CtxErr := none
  received : List WebRTCCallAnswer := []
  sent : List CallResponse := []

inductive CallAct where
  | next
  | ctxDone
  | respDone
  | recv (resp : WebRTCCallAnswer)
  | closed
  | sendFails (err : GoErr)
  deriving DecidableEq

variable {c : Call}

namespace Call

def handle (c : Call) (resp : WebRTCCallAnswer) : Call :=
  match resp.err with
  | some err => { c with pc := .returned (some (.wrap "error from answerer" err)) }
  | none =>
    if !c.haveInit && resp.initialSDP.isNone then
      { c with pc := .returned (some (.text "expected to have initial SDP if no error")) }
    else { c with haveInit := true, pc := .send (forward c.uuid c.haveInit resp) }

def run (c : Call) : CallPc → CallAct → Option Call
  | .top, .next =>
    match c.ctxErr with
    | some e => some { c with pc := .returned (some (.ctx e)) }
    | none => some { c with pc := .select }
  | .select, .ctxDone => c.ctxErr.map fun e => { c with pc := .returned (some (.ctx e)) }
  | .select, .respDone => some { c with pc := .returned none }
  | .select, .recv resp => some { c with pc := .got resp, received := c.received ++ [resp] }
  | .select, .closed => some { c with pc := .got {} }
  | .got resp, .next => some (c.handle resp)
  | .send (m :: msgs), .next => some { c with sent := c.sent ++ [m], pc := .send msgs }
  | .send [], .next => some { c with pc := .top }
  | .send (_ :: _), .sendFails err => some { c with pc := .returned (some err) }
  | _, _ => none

/-- What `Call` does with its live context and a stream that takes its messages. -/
inductive Step (c : Call) : CallAct → Call → Prop where
  | top : c.pc = .top → Step c .next { c with pc := .select }
  | respDone : c.pc = .select → Step c .respDone { c with pc := .returned none }
  | recv : c.pc = .select →
      Step c (.recv resp) { c with pc := .got resp, received := c.received ++ [resp] }
  | closed : c.pc = .select → Step c .closed { c with pc := .got {} }
  | error : c.pc = .got resp → resp.err = some err →
      Step c .next { c with pc := .returned (some (.wrap "error from answerer" err)) }
  | noInit : c.pc = .got resp → resp.err = none → c.haveInit = false → resp.initialSDP = none →
      Step c .next
        { c with pc := .returned (some (.text "expected to have initial SDP if no error")) }
  | forward : c.pc = .got resp → resp.err = none →
      (c.haveInit = true ∨ resp.initialSDP.isSome = true) →
      Step c .next { c with haveInit := true, pc := .send (forward c.uuid c.haveInit resp) }
  | send : c.pc = .send (m :: msgs) →
      Step c .next { c with sent := c.sent ++ [m], pc := .send msgs }
  | again : c.pc = .send [] → Step c .next { c with pc := .top }

theorem handle_step (hpc : c.pc = .got resp) : Step c .next (c.handle resp) := by
  unfold handle
  split
  · exact .error hpc ‹_›
  · split
    · rename_i he hg
      rw [Bool.and_eq_true, Bool.not_eq_true', Option.isNone_iff_eq_none] at hg
      exact .noInit hpc he hg.1 hg.2
    · rename_i he hg
      refine .forward hpc he ?_
      cases hi : c.haveInit with
      | true => exact .inl rfl
      | false =>
        cases hs : resp.initialSDP with
        | none => simp [hi, hs] at hg
        | some sdp => exact .inr rfl

theorem run_step {pc : CallPc} (hctx : c.ctxErr = none) (ha : ∀ err, a ≠ .sendFails err)
    (h : c.run pc a = some c') (hpc : c.pc = pc) : Step c a c' := by
  unfold run at h
  split at h
  · split at h
    · rename_i e he
      cases hctx.symm.trans he
    · cases h
      exact .top hpc
  · rw [hctx] at h
    cases h
  · cases h
    exact .respDone hpc
  · cases h
    exact .recv hpc
  · cases h
    exact .closed hpc
  · cases h
    exact handle_step hpc
  · cases h
    exact .send hpc
  · cases h
    exact .again hpc
  · cases ha _ rfl
  · cases h

theorem Step.uuid (h : Step c a c') : c'.uuid = c.uuid := by
  cases h <;> rfl

def unsent (c : Call) : List CallResponse :=
  match c.pc with
  | .got resp => Signaling.forward c.uuid c.haveInit resp
  | .send msgs => msgs
  | _ => []

theorem unsent_got (h : c.pc = .got resp) :
    c.unsent = Signaling.forward c.uuid c.haveInit resp := by
  rw [unsent, h]

end Call

/-- An answer after which there is none: an error, or the empty answer of an error stage whose
status is OK. -/
def WebRTCCallAnswer.Last (a : WebRTCCallAnswer) : Prop := a.err.isSome = true ∨ a = {}

def Opens (as : List WebRTCCallAnswer) : Prop :=
  ∀ a ∈ as.head?, a.initialSDP.isSome = true ∨ a.Last

theorem Opens.of_append (h : Opens (as ++ bs)) : Opens as := by
  intro a ha
  refine h a ?_
  cases as with
  | nil => cases ha
  | cons b as => exact ha

theorem Opens.append (h : Opens as) (hb : as = [] → Opens bs) : Opens (as ++ bs) := by
  cases as with
  | nil => exact hb rfl
  | cons a as => exact h

/-- The answers to one offer; `ending` tells that the answerer adds none. -/
structure WellFormed (as : List WebRTCCallAnswer) (ending : Bool) : Prop where
  opens : Opens as
  last : ∀ bs a cs, as = bs ++ a :: cs → a.Last → cs = [] ∧ ending = true

namespace WellFormed

theorem nil : WellFormed [] ending := by
  constructor
  · intro a ha
    cases ha
  · intro bs a cs h
    cases bs <;> cases h

theorem not_last (h : WellFormed as false) : ∀ a ∈ as, ¬ a.Last := by
  intro a ha hl
  obtain ⟨bs, cs, has⟩ := List.append_of_mem ha
  cases (h.last bs a cs has hl).2

theorem of_not_last (hopen : Opens as) (h : ∀ a ∈ as, ¬ a.Last) : WellFormed as ending := by
  constructor
  · exact hopen
  · intro bs a cs has hl
    exact absurd hl (h a (has ▸ List.mem_append_right bs List.mem_cons_self))

theorem concat (h : WellFormed as false) (hl : a.Last) : WellFormed (as ++ [a]) true := by
  constructor
  · apply h.opens.append
    intro _ b hb
    cases hb
    exact .inr hl
  · intro bs b cs has hb
    rcases List.eq_nil_or_concat cs with hcs | ⟨cs, c, rfl⟩
    · exact ⟨hcs, rfl⟩
    · have hmem : b ∈ as := by
        rw [List.concat_eq_append, ← List.cons_append, ← List.append_assoc] at has
        rw [(List.append_inj' has rfl).1]
        exact List.mem_append_right bs List.mem_cons_self
      exact absurd hb (h.not_last b hmem)

end WellFormed

/-- `Call` goes on after answers without an error and returns an error after another. -/
def CallPc.Fits (received : List WebRTCCallAnswer) (haveInit : Bool) : CallPc → Prop
  | .got resp =>
    (∃ as, received = as ++ [resp] ∧ (∀ a ∈ as, a.err = none) ∧ haveInit = !as.isEmpty) ∨
    (resp = {} ∧ (∀ a ∈ received, a.err = none) ∧ haveInit = !received.isEmpty)
  | .returned none => ∀ a ∈ received, a.err = none
  | .returned (some e) =>
    (∀ a ∈ received, a = {}) ∨
    ∃ as a err, received = as ++ [a] ∧ (∀ b ∈ as, b.err = none) ∧ a.err = some err ∧
      e = .wrap "error from answerer" err
  | _ => (∀ a ∈ received, a.err = none) ∧ haveInit = !received.isEmpty

namespace Call

/-- `Call` has sent the messages for the answers that it received. -/
structure Reports (c : Call) : Prop where
  ctxErr : c.ctxErr = none
  sent : c.sent ++ c.unsent = forwardAll c.uuid c.received
  fits : c.pc.Fits c.received c.haveInit

theorem Reports.noInit (h : c.Reports) (hopen : Opens c.received) (hpc : c.pc = .got resp)
    (he : resp.err = none) (hi : c.haveInit = false) (hn : resp.initialSDP = none) :
    resp = {} ∧ ∀ a ∈ c.received, a = {} := by
  have hfits := h.fits
  rw [hpc, hi] at hfits
  rcases hfits with ⟨as, hr, -, hi'⟩ | ⟨hz, -, hi'⟩
  · have has : as = [] := by simpa using hi'
    rw [has, List.nil_append] at hr
    have hz : resp = {} := by
      rcases hopen resp (by rw [hr]; rfl) with ho | ho | ho
      · rw [hn] at ho
        cases ho
      · rw [he] at ho
        cases ho
      · exact ho
    rw [hr]
    exact ⟨hz, fun a ha => (List.mem_singleton.1 ha).trans hz⟩
  · have hnil : c.received = [] := by simpa using hi'
    rw [hnil]
    exact ⟨hz, fun a => nofun⟩

theorem Reports.step (h : c.Reports) (hopen : Opens c.received) (hs : Step c a c') :
    c'.Reports := by
  have hsent := h.sent
  have hfits := h.fits
  cases hs with
  | top hpc | again hpc =>
    rw [unsent, hpc] at hsent
    rw [hpc] at hfits
    exact ⟨h.ctxErr, hsent, hfits⟩
  | respDone hpc =>
    rw [unsent, hpc] at hsent
    rw [hpc] at hfits
    exact ⟨h.ctxErr, hsent, hfits.1⟩
  | @recv resp hpc =>
    rw [unsent, hpc, List.append_nil] at hsent
    rw [hpc] at hfits
    refine ⟨h.ctxErr, ?_, .inl ⟨c.received, rfl, hfits⟩⟩
    show c.sent ++ Signaling.forward c.uuid c.haveInit resp =
      forwardAll c.uuid (c.received ++ [resp])
    rw [forwardAll_concat, ← hsent, hfits.2]
  | closed hpc =>
    rw [unsent, hpc, List.append_nil] at hsent
    rw [hpc] at hfits
    refine ⟨h.ctxErr, ?_, .inr ⟨rfl, hfits⟩⟩
    show c.sent ++ Signaling.forward c.uuid c.haveInit {} = forwardAll c.uuid c.received
    rw [forward_empty, List.append_nil, hsent]
  | @error resp err hpc he =>
    rw [unsent_got hpc, forward_err he] at hsent
    rw [hpc] at hfits
    refine ⟨h.ctxErr, hsent, ?_⟩
    rcases hfits with ⟨as, hr, has, -⟩ | ⟨rfl, -⟩
    · exact .inr ⟨as, resp, err, hr, has, he, rfl⟩
    · cases he
  | @noInit resp hpc he hi hn =>
    obtain ⟨rfl, hnil⟩ := h.noInit hopen hpc he hi hn
    rw [unsent_got hpc, forward_empty] at hsent
    exact ⟨h.ctxErr, hsent, .inl hnil⟩
  | @forward resp hpc he hi =>
    rw [unsent_got hpc] at hsent
    rw [hpc] at hfits
    refine ⟨h.ctxErr, hsent, ?_⟩
    rcases hfits with ⟨as, hr, has, -⟩ | ⟨rfl, has, hi'⟩
    · refine ⟨fun a ha => ?_, by rw [hr]; simp⟩
      rw [hr] at ha
      rcases List.mem_append.1 ha with ha | ha
      · exact has a ha
      · rw [List.mem_singleton.1 ha]
        exact he
    · refine ⟨has, ?_⟩
      rcases hi with hi | hi
      · exact hi.symm.trans hi'
      · cases hi
  | @send m msgs hpc =>
    rw [unsent, hpc] at hsent
    rw [hpc] at hfits
    refine ⟨h.ctxErr, ?_, hfits⟩
    exact (List.append_assoc _ _ _).trans hsent

def left (c : Call) : Nat :=
  match c.pc with
  | .top => 1
  | .got resp => 3 + (Signaling.forward c.uuid c.haveInit resp).length
  | .send msgs => 2 + msgs.length
  | _ => 0

theorem Step.left_lt (h : Step c .next c') : c'.left < c.left := by
  cases h with
  | top hpc | error hpc he | noInit hpc he hi hn | forward hpc he hi => simp only [left, hpc]; omega
  | send hpc => simp only [left, hpc, List.length_cons]; omega
  | again hpc => simp only [left, hpc, List.length_nil]; omega

theorem next_enabled (hctx : c.ctxErr = none) (hsel : c.pc ≠ .select)
    (hret : ∀ e, c.pc ≠ .returned e) : ∃ c', c.run c.pc .next = some c' ∧ Step c .next c' := by
  have hrun : ∃ c', c.run c.pc .next = some c' := by
    cases hpc : c.pc with
    | top => exact ⟨{ c with pc := .select }, by simp only [run, hctx]⟩
    | select => exact absurd hpc hsel
    | got resp => exact ⟨c.handle resp, rfl⟩
    | send msgs =>
      cases msgs with
      | nil | cons m msgs => exact ⟨_, rfl⟩
    | returned e => exact absurd hpc (hret e)
  obtain ⟨c', h⟩ := hrun
  refine ⟨c', h, run_step hctx ?_ h rfl⟩
  intro err heq
  cases heq

end Call

end Goutils.Signaling
