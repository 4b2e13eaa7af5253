import Goutils.CallQueue.ChangeStream
import Goutils.Lib.Wire
import Goutils.Rpc.Errors

namespace Goutils.Mongo
open Lib
open Lib.Wire (Bytes)
open Goutils.CallQueue (Timestamp)
open Goutils.Rpc (GoErr)
set_option autoImplicit true

/-- `ChangeEventOperationType`; `other` is a type without a constant. -/
inductive OperationType where
  | insert | delete | replace | update | drop | rename | dropDatabase | invalidate
  | other (name : String)
  deriving DecidableEq

/-- `ChangeEvent`; `rest` has the fields that are only passed on. -/
structure ChangeEvent (D : Type) where
  operationType : OperationType
  clusterTime : Timestamp
  rest : D
  deriving DecidableEq

structure ChangeEventResult (D : Type) where
  event : Option (ChangeEvent D) := none
  error : Option GoErr := none
  resumeToken : Bytes
  deriving DecidableEq

def errChangeStreamInvalidateEvent : GoErr := .text "change stream invalidated"

structure CsStartedResult where
  resumeToken : Bytes
  clusterTime : Timestamp := ⟨0, 0⟩
  deriving DecidableEq

/-- A document that the cursor is at: what `Decode` gives for it, and the resume token there. -/
structure Doc (D : Type) where
  decoded : Except GoErr (ChangeEvent D)
  resumeToken : Bytes
  deriving DecidableEq

/-- The end of the cursor: what `Err` returns once `Next` has returned false, and its token. -/
structure CursorEnd where
  err : Option GoErr
  resumeToken : Bytes
  deriving DecidableEq

/-- Where the goroutine of `ChangeStreamBackground` stands; `start` sends on `csStarted`. -/
inductive Pc (D : Type) where
  | loop
  | tryNext
  | decode (doc : Doc D) (byTryNext : Bool)
  | start (res : CsStartedResult) (next : Option (ChangeEventResult D × Bool))
  | next
  | send (res : ChangeEventResult D) (last : Bool)
  | close
  | exited
  deriving DecidableEq

/-- `ChangeStreamBackground` with its consumer; `polled` are the documents of the cursor. -/
structure Background (D : Type) where
  pc : Pc D := .loop
  ctxDone : Bool := false
  csStartedOnce : Bool := false
  csStarted : Chan CsStartedResult := { cap := 1 }
  results : Chan (ChangeEventResult D) := { cap := 1 }
  started : Option CsStartedResult := none
  received : List (ChangeEventResult D) := []
  polled : List (Doc D × Bool) := []
  ended : Option CursorEnd := none

/-- Steps with the outcomes of the cursor; `sendDone` is for a context that is done. -/
inductive BackgroundAct (D : Type) where
  | check
  | tryNext (doc : Option (Doc D)) (resumeToken : Bytes)
  | decode
  | start
  | next (doc : Doc D)
  | nextFails (fin : CursorEnd)
  | send
  | sendDone
  | close
  | callReturns
  | receive
  | cancel
  deriving DecidableEq

def BackgroundAct.byGoroutine : BackgroundAct D → Bool
  | .callReturns | .receive | .cancel => false
  | _ => true

def CursorEnd.result (fin : CursorEnd) : ChangeEventResult D :=
  { error := some (fin.err.getD errChangeStreamInvalidateEvent), resumeToken := fin.resumeToken }

def Doc.failed (doc : Doc D) (err : GoErr) : ChangeEventResult D :=
  { error := some err, resumeToken := doc.resumeToken }

def Doc.result (doc : Doc D) (ce : ChangeEvent D) : ChangeEventResult D :=
  { event := some ce, resumeToken := doc.resumeToken }

namespace Background

def decodeTryNext (s : Background D) (doc : Doc D) : Background D :=
  match doc.decoded with
  | .error err =>
    if s.csStartedOnce then { s with pc := .send (doc.failed err) true }
    else { s with pc := .start { resumeToken := doc.resumeToken } (some (doc.failed err, true)) }
  | .ok ce =>
    if s.csStartedOnce then { s with pc := .send (doc.result ce) false }
    else
      { s with
        csStartedOnce := true
        pc := .start { resumeToken := doc.resumeToken, clusterTime := ce.clusterTime }
          (some (doc.result ce, false)) }

def decodeNext (s : Background D) (doc : Doc D) : Background D :=
  match doc.decoded with
  | .error err => { s with pc := .send (doc.failed err) true }
  | .ok ce =>
    if ce.operationType = .invalidate then
      { s with pc := .send (doc.failed errChangeStreamInvalidateEvent) true }
    else { s with pc := .send (doc.result ce) false }

def sent (s : Background D) (last : Bool) : Background D :=
  { s with pc := if last then .close else .loop }

end Background

def backgroundStep (s : Background D) : BackgroundAct D → Option (Background D)
  | .check =>
    match s.pc with
    | .loop => some { s with pc := if s.ctxDone then .close else .tryNext }
    | _ => none
  | .tryNext doc resumeToken =>
    match s.pc, doc with
    | .tryNext, some doc =>
      some { s with pc := .decode doc true, polled := s.polled ++ [(doc, true)] }
    | .tryNext, none =>
      if s.csStartedOnce then some { s with pc := .next }
      else some { s with csStartedOnce := true, pc := .start { resumeToken } none }
    | _, _ => none
  | .decode =>
    match s.pc with
    | .decode doc true => some (s.decodeTryNext doc)
    | .decode doc false => some (s.decodeNext doc)
    | _ => none
  | .start =>
    match s.pc with
    | .start res next =>
      if s.csStarted.canSend then
        some { s with
          csStarted := s.csStarted.send res
          pc := next.elim .next fun (res, last) => .send res last }
      else none
    | _ => none
  | .next doc =>
    match s.pc with
    | .next => some { s with pc := .decode doc false, polled := s.polled ++ [(doc, false)] }
    | _ => none
  | .nextFails fin =>
    match s.pc with
    | .next => some { s with pc := .send fin.result true, ended := some fin }
    | _ => none
  | .send =>
    match s.pc with
    | .send res last =>
      if s.results.canSend then some ({ s with results := s.results.send res }.sent last) else none
    | _ => none
  | .sendDone =>
    match s.pc with
    | .send res last =>
      if s.ctxDone then
        -- try once more
        some ({ s with
          results := if s.results.canSend then s.results.send res else s.results }.sent last)
      else none
    | _ => none
  | .close =>
    match s.pc with
    | .close => some { s with results := s.results.close, pc := .exited }
    | _ => none
  | .callReturns =>
    match s.started, s.csStarted.buf with
    | none, res :: _ => some { s with started := some res, csStarted := s.csStarted.pop }
    | _, _ => none
  | .receive =>
    match s.started, s.results.buf with
    | some _, res :: _ => some { s with received := s.received ++ [res], results := s.results.pop }
    | _, _ => none
  | .cancel => some { s with ctxDone := true }

def backgroundMachine (D : Type) : Machine (Background D) (BackgroundAct D) where
  init s := s = {}
  step := backgroundStep

def emit (x : Doc D × Bool) : ChangeEventResult D :=
  match x.1.decoded with
  | .error err => x.1.failed err
  | .ok ce =>
    if x.2 = false ∧ ce.operationType = .invalidate then
      x.1.failed errChangeStreamInvalidateEvent
    else x.1.result ce

def terminal (x : Doc D × Bool) : Bool :=
  match x.1.decoded with
  | .error _ => true
  | .ok ce => decide (x.2 = false ∧ ce.operationType = .invalidate)

theorem Background.decodeTryNext_eq (s : Background D) (doc : Doc D) :
    (s.csStartedOnce = true ∧
      s.decodeTryNext doc = { s with pc := .send (emit (doc, true)) (terminal (doc, true)) }) ∨
    (s.csStartedOnce = false ∧ ∃ res, s.decodeTryNext doc = { s with
      csStartedOnce := !terminal (doc, true)
      pc := .start res (some (emit (doc, true), terminal (doc, true))) }) := by
  obtain ⟨pc, ctxDone, csStartedOnce⟩ := s
  unfold decodeTryNext emit terminal
  cases doc.decoded with
  | error err | ok ce =>
    cases csStartedOnce with
    | true => exact .inl ⟨rfl, rfl⟩
    | false => exact .inr ⟨rfl, _, rfl⟩

theorem Background.decodeNext_eq (s : Background D) (doc : Doc D) :
    s.decodeNext doc = { s with pc := .send (emit (doc, false)) (terminal (doc, false)) } := by
  unfold decodeNext emit terminal
  cases doc.decoded with
  | error err => rfl
  | ok ce =>
    by_cases hi : ce.operationType = .invalidate
    · simp [hi]
    · simp [hi]

inductive BackgroundStep (s : Background D) : BackgroundAct D → Background D → Prop where
  | done : s.pc = .loop → s.ctxDone = true → BackgroundStep s .check { s with pc := .close }
  | live : s.pc = .loop → s.ctxDone = false → BackgroundStep s .check { s with pc := .tryNext }
  | tryNext : s.pc = .tryNext → BackgroundStep s (.tryNext (some doc) resumeToken)
      { s with pc := .decode doc true, polled := s.polled ++ [(doc, true)] }
  | noneStart : s.pc = .tryNext → s.csStartedOnce = false →
      BackgroundStep s (.tryNext none resumeToken)
        { s with csStartedOnce := true, pc := .start { resumeToken } none }
  | noneNext : s.pc = .tryNext → s.csStartedOnce = true →
      BackgroundStep s (.tryNext none resumeToken) { s with pc := .next }
  | decode : s.pc = .decode doc b → (b = true → s.csStartedOnce = true) →
      BackgroundStep s .decode { s with pc := .send (emit (doc, b)) (terminal (doc, b)) }
  | decodeStart : s.pc = .decode doc true → s.csStartedOnce = false →
      BackgroundStep s .decode { s with
        csStartedOnce := !terminal (doc, true)
        pc := .start res (some (emit (doc, true), terminal (doc, true))) }
  | startSend : s.pc = .start res (some (r, last)) → s.csStarted.canSend = true →
      BackgroundStep s .start { s with csStarted := s.csStarted.send res, pc := .send r last }
  | startNext : s.pc = .start res none → s.csStarted.canSend = true →
      BackgroundStep s .start { s with csStarted := s.csStarted.send res, pc := .next }
  | next : s.pc = .next → BackgroundStep s (.next doc)
      { s with pc := .decode doc false, polled := s.polled ++ [(doc, false)] }
  | nextFails : s.pc = .next → BackgroundStep s (.nextFails fin)
      { s with pc := .send fin.result true, ended := some fin }
  | send : s.pc = .send r last → s.results.canSend = true → a = .send ∨ a = .sendDone →
      BackgroundStep s a ({ s with results := s.results.send r }.sent last)
  | drop : s.pc = .send r last → s.ctxDone = true → BackgroundStep s .sendDone (s.sent last)
  | close : s.pc = .close →
      BackgroundStep s .close { s with results := s.results.close, pc := .exited }
  | callReturns : s.started = none → s.csStarted.buf = res :: rest →
      BackgroundStep s .callReturns { s with started := some res, csStarted := s.csStarted.pop }
  | receive : s.started ≠ none → s.results.buf = r :: rest →
      BackgroundStep s .receive { s with received := s.received ++ [r], results := s.results.pop }
  | cancel : BackgroundStep s .cancel { s with ctxDone := true }

theorem backgroundStep_step {s s' : Background D} (h : backgroundStep s a = some s') :
    BackgroundStep s a s' := by
  cases a with
  | check =>
    simp only [backgroundStep] at h
    split at h <;> cases h
    split
    · exact .done ‹_› ‹_›
    · exact .live ‹_› (Bool.eq_false_of_not_eq_true ‹_›)
  | tryNext doc resumeToken =>
    simp only [backgroundStep] at h
    split at h
    · cases h
      exact .tryNext ‹_›
    · split at h
      · cases h
        exact .noneNext ‹_› ‹_›
      · cases h
        exact .noneStart ‹_› (Bool.eq_false_of_not_eq_true ‹_›)
    · cases h
  | decode =>
    simp only [backgroundStep] at h
    split at h
    · rename_i doc hpc
      cases h
      rcases s.decodeTryNext_eq doc with ⟨honce, heq⟩ | ⟨honce, res, heq⟩
      · rw [heq]
        exact .decode hpc fun _ => honce
      · rw [heq]
        exact .decodeStart hpc honce
    · rename_i doc hpc
      cases h
      rw [s.decodeNext_eq doc]
      exact .decode hpc fun hb => by cases hb
    · cases h
  | start =>
    simp only [backgroundStep] at h
    split at h
    · rename_i res next hpc
      split at h <;> cases h
      cases next with
      | none => exact .startNext hpc ‹_›
      | some x => exact .startSend hpc ‹_›
    · cases h
  | next doc =>
    simp only [backgroundStep] at h
    split at h <;> cases h
    exact .next ‹_›
  | nextFails fin =>
    simp only [backgroundStep] at h
    split at h <;> cases h
    exact .nextFails ‹_›
  | send =>
    simp only [backgroundStep] at h
    split at h
    · split at h <;> cases h
      exact .send ‹_› ‹_› (.inl rfl)
    · cases h
  | sendDone =>
    simp only [backgroundStep] at h
    split at h
    · split at h <;> cases h
      by_cases hroom : s.results.canSend = true
      · rw [if_pos hroom]
        exact .send ‹_› hroom (.inr rfl)
      · rw [if_neg hroom]
        exact .drop ‹_› ‹_›
    · cases h
  | close =>
    simp only [backgroundStep] at h
    split at h <;> cases h
    exact .close ‹_›
  | callReturns =>
    simp only [backgroundStep] at h
    split at h <;> cases h
    exact .callReturns ‹_› ‹_›
  | receive =>
    simp only [backgroundStep] at h
    split at h <;> cases h
    rename_i hs hb
    exact .receive (by rw [hs]; exact Option.some_ne_none _) hb
  | cancel =>
    cases h
    exact .cancel

namespace Pc

def starts (once : Bool) : Pc D → Nat
  | .loop | .tryNext | .decode _ true => if once then 1 else 0
  | .start _ _ => 0
  | _ => 1

def goesOn : Pc D → Bool
  | .decode _ false | .start _ none => true
  | .start _ (some (_, last)) => !last
  | .next => true
  | .send _ last => !last
  | _ => false

def isExited : Pc D → Bool
  | .exited => true
  | _ => false

def rank : Pc D → Nat
  | .loop => 3
  | .tryNext => 2
  | .decode _ _ => 1
  | _ => 0

end Pc

namespace Background

structure Channels (s : Background D) : Prop where
  startedOpen : s.csStarted.closed = false
  startedCap : s.csStarted.cap = 1
  started : s.csStarted.sent = s.started.toList ++ s.csStarted.buf
  resultsCap : s.results.cap = 1
  received : s.results.sent = s.received ++ s.results.buf
  closed : s.results.closed = s.pc.isExited

namespace Channels

variable {s s' : Background D}

theorem send_started (h : s.Channels) (res : CsStartedResult) {q : Pc D}
    (hpc : s.pc.isExited = q.isExited) :
    ({ s with csStarted := s.csStarted.send res, pc := q } : Background D).Channels := by
  rw [Chan.send_open h.startedOpen]
  refine { h with started := ?_, closed := h.closed.trans hpc }
  show s.csStarted.sent ++ [res] = s.started.toList ++ (s.csStarted.buf ++ [res])
  rw [h.started, List.append_assoc]

theorem send_results (h : s.Channels) (r : ChangeEventResult D) {q : Pc D}
    (hpc : s.pc.isExited = false) (hq : q.isExited = false) :
    ({ s with results := s.results.send r, pc := q } : Background D).Channels := by
  rw [Chan.send_open (h.closed.trans hpc)]
  refine { h with received := ?_, closed := ?_ }
  · show s.results.sent ++ [r] = s.received ++ (s.results.buf ++ [r])
    rw [h.received, List.append_assoc]
  · exact (h.closed.trans hpc).trans hq.symm

theorem isExited_sent (s : Background D) (last : Bool) : (s.sent last).pc.isExited = false := by
  cases last <;> rfl

theorem step (h : s.Channels) (hs : BackgroundStep s a s') : s'.Channels := by
  cases hs with
  | done hpc _ | live hpc _ | tryNext hpc | noneStart hpc _ | noneNext hpc _ | decode hpc _
  | decodeStart hpc _ | next hpc | nextFails hpc =>
    exact { h with closed := h.closed.trans (by rw [hpc]; rfl) }
  | startSend hpc _ | startNext hpc _ => exact h.send_started _ (by rw [hpc]; rfl)
  | send hpc _ _ => exact h.send_results _ (by rw [hpc]; rfl) (isExited_sent s _)
  | drop hpc _ => exact { h with closed := h.closed.trans (by rw [hpc, isExited_sent]; rfl) }
  | close hpc =>
    have hopen : s.results.closed = false := by
      rw [h.closed, hpc]
      rfl
    rw [Chan.close_open hopen]
    exact { h with closed := rfl }
  | @callReturns res rest hnone hbuf =>
    refine { h with started := ?_ }
    show s.csStarted.sent = [res] ++ s.csStarted.buf.tail
    rw [h.started, hnone, hbuf]
    rfl
  | @receive r rest _ hbuf =>
    refine { h with received := ?_ }
    show s.results.sent = s.received ++ [r] ++ s.results.buf.tail
    rw [h.received, hbuf, List.append_assoc]
    rfl
  | cancel => exact { h with }

end Channels

structure Starts (s : Background D) : Prop where
  channels : s.Channels
  count : s.csStarted.sent.length = s.pc.starts s.csStartedOnce
  once : s.pc.goesOn = true → s.csStartedOnce = true

end Background

def StartsLive (s : Background D) (a : BackgroundAct D) : Prop :=
  a = .check → s.csStartedOnce = false → s.ctxDone = false

namespace Background.Starts

variable {s s' : Background D}

theorem init : ({} : Background D).Starts where
  channels := ⟨rfl, rfl, rfl, rfl, rfl, rfl⟩
  count := rfl
  once h := by cases h

variable (h : s.Starts)

include h

theorem canSend (hpc : s.pc = .start res next) : s.csStarted.canSend = true := by
  have hsent : s.csStarted.sent = [] := by
    rw [← List.length_eq_zero_iff, h.count, hpc]
    rfl
  have hbuf : s.csStarted.buf = [] := by
    have heq := h.channels.started
    rw [hsent] at heq
    exact (List.append_eq_nil_iff.1 heq.symm).2
  rw [Chan.canSend, hbuf, h.channels.startedCap]
  exact Bool.or_true _

theorem counted (hc : s'.Channels) (hcs : s'.csStarted.sent = s.csStarted.sent)
    (hstarts : s'.pc.starts s'.csStartedOnce = s.pc.starts s.csStartedOnce)
    (honce : s'.pc.goesOn = true → s'.csStartedOnce = true) : s'.Starts :=
  ⟨hc, by rw [hcs, h.count, hstarts], honce⟩

theorem sent (hpc : s.pc = .send r last) :
    (Pc.starts (D := D) s.csStartedOnce (if last then .close else .loop)) = 1 := by
  cases last with
  | true => rfl
  | false =>
    have honce := h.once (by rw [hpc]; rfl)
    rw [honce]
    rfl

theorem step (hok : StartsLive s a) (hs : BackgroundStep s a s') : s'.Starts := by
  have hc := h.channels.step hs
  cases hs with
  | done hpc hd =>
    apply h.counted hc rfl
    · rw [hpc]
      cases ho : s.csStartedOnce with
      | true => rfl
      | false =>
        rw [hok rfl ho] at hd
        cases hd
    · intro hg
      cases hg
  | live hpc _ | tryNext hpc => exact h.counted hc rfl (by rw [hpc]; rfl) (fun hg => by cases hg)
  | noneStart hpc ho =>
    exact h.counted hc rfl (by rw [hpc, ho]; rfl) fun _ => rfl
  | noneNext hpc ho => exact h.counted hc rfl (by rw [hpc, ho]; rfl) fun _ => ho
  | @decode doc b hpc hb =>
    cases b with
    | true => exact h.counted hc rfl (by rw [hpc, hb rfl]; rfl) fun _ => hb rfl
    | false => exact h.counted hc rfl (by rw [hpc]; rfl) fun _ => h.once (by rw [hpc]; rfl)
  | decodeStart hpc ho => exact h.counted hc rfl (by rw [hpc, ho]; rfl) fun hg => hg
  | startSend hpc _ =>
    refine ⟨hc, ?_, fun hg => h.once (by rw [hpc]; exact hg)⟩
    rw [Chan.send_open h.channels.startedOpen]
    show (s.csStarted.sent ++ [_]).length = 1
    rw [List.length_append, h.count, hpc]
    rfl
  | startNext hpc _ =>
    refine ⟨hc, ?_, fun _ => h.once (by rw [hpc]; rfl)⟩
    rw [Chan.send_open h.channels.startedOpen]
    show (s.csStarted.sent ++ [_]).length = 1
    rw [List.length_append, h.count, hpc]
    rfl
  | next hpc => exact h.counted hc rfl (by rw [hpc]; rfl) fun _ => h.once (by rw [hpc]; rfl)
  | nextFails hpc => exact h.counted hc rfl (by rw [hpc]; rfl) (fun hg => by cases hg)
  | @send r last a hpc _ _ | @drop r last hpc _ =>
    refine h.counted hc rfl ?_ ?_
    · rw [hpc]
      exact h.sent hpc
    · cases last <;> exact fun hg => by cases hg
  | close hpc => exact h.counted hc rfl (by rw [hpc]; rfl) (fun hg => by cases hg)
  | callReturns _ _ | receive _ _ | cancel => exact h.counted hc rfl rfl h.once

end Background.Starts

theorem Background.starts {s : Background D}
    (h : (backgroundMachine D).ReachableWith StartsLive s) : s.Starts := by
  apply h.invariant
  · rintro s rfl
    exact .init
  · intro s a s' hI hok hs
    exact hI.step hok (backgroundStep_step hs)

namespace Background.Starts

variable {s s' : Background D}

variable (h : s.Starts)

include h

theorem sent_mono (hs : BackgroundStep s a s') (hnil : s'.csStarted.sent = []) :
    s.csStarted.sent = [] := by
  cases hs with
  | startSend _ _ => exact absurd hnil (Chan.send_sent_ne_nil h.channels.startedOpen _)
  | startNext _ _ => exact absurd hnil (Chan.send_sent_ne_nil h.channels.startedOpen _)
  | _ => exact hnil

theorem rank_lt (hok : StartsLive s a) (hs : BackgroundStep s a s') (hg : a.byGoroutine = true)
    (hnil : s'.csStarted.sent = []) : s'.pc.rank < s.pc.rank := by
  have hcount := h.count
  rw [h.sent_mono hs hnil, List.length_nil] at hcount
  cases hs with
  | done hpc hd =>
    cases ho : s.csStartedOnce with
    | true =>
      rw [hpc, ho] at hcount
      cases hcount
    | false =>
      rw [hok rfl ho] at hd
      cases hd
  | live hpc _ =>
    rw [hpc]
    exact Nat.lt_succ_self 2
  | tryNext hpc =>
    rw [hpc]
    exact Nat.lt_succ_self 1
  | noneStart hpc _ =>
    rw [hpc]
    exact Nat.two_pos
  | noneNext hpc ho =>
    rw [hpc, ho] at hcount
    cases hcount
  | @decode doc b hpc hb =>
    cases b with
    | true =>
      rw [hpc, hb rfl] at hcount
      cases hcount
    | false =>
      rw [hpc] at hcount
      cases hcount
  | decodeStart hpc _ =>
    rw [hpc]
    exact Nat.one_pos
  | startSend _ _ => exact absurd hnil (Chan.send_sent_ne_nil h.channels.startedOpen _)
  | startNext _ _ => exact absurd hnil (Chan.send_sent_ne_nil h.channels.startedOpen _)
  | next hpc | nextFails hpc | send hpc _ _ | drop hpc _ | close hpc =>
    rw [hpc] at hcount
    cases hcount
  | callReturns _ _ | receive _ _ | cancel => cases hg

theorem soon {as : List (BackgroundAct D)} (hg : ∀ a ∈ as, a.byGoroutine = true)
    (hall : (backgroundMachine D).Allows StartsLive s as)
    (he : (backgroundMachine D).exec s as = some s') (hnil : s'.csStarted.sent = []) :
    s.csStarted.sent = [] ∧ as.length ≤ s.pc.rank := by
  induction as generalizing s with
  | nil =>
    cases he
    exact ⟨hnil, Nat.zero_le _⟩
  | cons a as ih =>
    obtain ⟨t, ht, he⟩ := Option.bind_eq_some_iff.1 he
    have hstep := backgroundStep_step ht
    have hrest := ih (h.step hall.1 hstep) (fun b hb => hg b (List.mem_cons_of_mem a hb))
      (hall.2 t ht) he
    have hlt := h.rank_lt hall.1 hstep (hg a List.mem_cons_self) hrest.1
    exact ⟨h.sent_mono hstep hrest.1, Nat.succ_le_of_lt (Nat.lt_of_le_of_lt hrest.2 hlt)⟩

theorem enabled (hnil : s.csStarted.sent = []) :
    ∃ a s', a.byGoroutine = true ∧ backgroundStep s a = some s' := by
  have hcount := h.count
  rw [hnil, List.length_nil] at hcount
  cases hpc : s.pc with
  | loop => exact ⟨.check, _, rfl, by simp only [backgroundStep, hpc]; rfl⟩
  | tryNext =>
    cases ho : s.csStartedOnce with
    | true | false => exact ⟨.tryNext none [], _, rfl, by simp only [backgroundStep, hpc, ho]; rfl⟩
  | decode doc b =>
    cases b with
    | true => exact ⟨.decode, _, rfl, by simp only [backgroundStep, hpc]; rfl⟩
    | false =>
      rw [hpc] at hcount
      cases hcount
  | start res next =>
    exact ⟨.start, _, rfl, by simp only [backgroundStep, hpc, h.canSend hpc]; rfl⟩
  | next | send res last | close | exited =>
    rw [hpc] at hcount
    cases hcount

theorem returns (hne : s.csStarted.sent ≠ []) :
    s.started ≠ none ∨ ∃ s', backgroundStep s .callReturns = some s' ∧ s'.started ≠ none := by
  cases hstarted : s.started with
  | some res => exact .inl (Option.some_ne_none res)
  | none =>
    have hsent := h.channels.started
    rw [hstarted, Option.toList_none, List.nil_append] at hsent
    obtain ⟨res, rest, hbuf⟩ := List.exists_cons_of_ne_nil (hsent ▸ hne)
    refine .inr ⟨{ s with started := some res, csStarted := s.csStarted.pop }, ?_,
      Option.some_ne_none res⟩
    simp only [backgroundStep, hstarted, hbuf]

end Background.Starts

/-- The start is reported once, before the goroutine exits, and the call returns. -/
structure Background.Reports (s : Background D) : Prop where
  atMostOnce : s.csStarted.sent.length ≤ 1
  exit : s.pc = .exited → s.csStarted.sent.length = 1
  closed : s.results.closed = true ↔ s.pc = .exited
  soon : ∀ as s', (∀ a ∈ as, BackgroundAct.byGoroutine a = true) →
    (backgroundMachine D).Allows StartsLive s as →
    (backgroundMachine D).exec s as = some s' → s'.csStarted.sent = [] → as.length ≤ 3
  enabled : s.csStarted.sent = [] → ∃ a s', a.byGoroutine = true ∧ backgroundStep s a = some s'
  returns : s.csStarted.sent ≠ [] →
    s.started ≠ none ∨ ∃ s', backgroundStep s .callReturns = some s' ∧ s'.started ≠ none

/-- In every run whose first look at the context finds it live. -/
theorem changeStreamBackground_starts {s : Background D}
    (h : (backgroundMachine D).ReachableWith StartsLive s) : s.Reports := by
  have hI := Background.starts h
  constructor
  · rw [hI.count]
    cases s.pc with
    | decode doc b => cases b <;> cases s.csStartedOnce <;> simp [Pc.starts]
    | _ => cases s.csStartedOnce <;> simp [Pc.starts]
  · intro hpc
    rw [hI.count, hpc]
    rfl
  · rw [hI.channels.closed]
    cases s.pc <;> simp [Pc.isExited]
  · intro as s' hg hall he hnil
    have hle := (hI.soon hg hall he hnil).2
    have hrank : s.pc.rank ≤ 3 := by cases s.pc <;> simp [Pc.rank]
    exact hle.trans hrank
  · exact hI.enabled
  · exact hI.returns

def insertion : Doc Unit where
  decoded := .ok { operationType := .insert, clusterTime := ⟨1, 1⟩, rest := () }
  resumeToken := [1]

def invalidation : Doc Unit where
  decoded := .ok { operationType := .invalidate, clusterTime := ⟨1, 2⟩, rest := () }
  resumeToken := [2]

def canceledRun : List (BackgroundAct Unit) :=
  [.check, .tryNext (some insertion) [], .decode, .start, .send, .callReturns, .receive, .cancel,
    .check, .close]

instance (s : Background D) (a : BackgroundAct D) [DecidableEq D] : Decidable (StartsLive s a) :=
  inferInstanceAs (Decidable (_ → _ → _))

theorem changeStreamBackground_starts_canceled :
    ∃ s : Background Unit, s.pc = .exited ∧ s.Reports := by
  obtain ⟨s, hr, hpc⟩ : ∃ s, (backgroundMachine Unit).ReachableWith StartsLive s ∧ s.pc = .exited :=
    (backgroundMachine Unit).exists_reachableWith StartsLive {} canceledRun rfl (by decide +kernel)
  exact ⟨s, hpc, changeStreamBackground_starts hr⟩

structure Background.Blocked (s : Background D) : Prop where
  pc : s.pc = .exited
  started : s.started = none
  csStarted : s.csStarted.buf = []

theorem Background.Blocked.step {s s' : Background D} (h : s.Blocked)
    (hs : BackgroundStep s a s') : s'.Blocked := by
  cases hs with
  | callReturns _ hbuf =>
    rw [h.csStarted] at hbuf
    cases hbuf
  | receive hs _ => exact absurd h.started hs
  | cancel => exact { h with }
  | done hpc _ | live hpc _ | tryNext hpc | noneStart hpc _ | noneNext hpc _ | decode hpc _
  | decodeStart hpc _ | startSend hpc _ | startNext hpc _ | next hpc | nextFails hpc
  | send hpc _ _ | drop hpc _ | close hpc =>
    rw [h.pc] at hpc
    cases hpc

theorem Background.Blocked.exec {s s' : Background D} (h : s.Blocked) {as : List (BackgroundAct D)}
    (he : (backgroundMachine D).exec s as = some s') : s'.Blocked := by
  induction as generalizing s with
  | nil =>
    cases he
    exact h
  | cons a as ih =>
    obtain ⟨t, ht, he⟩ := Option.bind_eq_some_iff.1 he
    exact ih (h.step (backgroundStep_step ht)) he

/-- With a context that is cancelled before the goroutine looks at it, the goroutine exits without
a start result, and the call never returns. -/
theorem changeStreamBackground_blocks :
    ∃ s : Background Unit, (backgroundMachine Unit).Reachable s ∧ s.pc = .exited ∧
      s.csStarted.sent = [] ∧
      ∀ as s', (backgroundMachine Unit).exec s as = some s' → s'.started = none := by
  obtain ⟨s, hr, hpc, hsent, hstarted, hbuf⟩ : ∃ s, (backgroundMachine Unit).Reachable s ∧
      s.pc = .exited ∧ s.csStarted.sent = [] ∧ s.started = none ∧ s.csStarted.buf = [] :=
    (backgroundMachine Unit).exists_reachable {} [.cancel, .check, .close] rfl (by decide +kernel)
  refine ⟨s, hr, hpc, hsent, ?_⟩
  intro as s' he
  exact (Background.Blocked.exec ⟨hpc, hstarted, hbuf⟩ he).started

def Doc.invalidates (doc : Doc D) : Prop :=
  ∃ ce, doc.decoded = .ok ce ∧ ce.operationType = .invalidate

/-- The events up to the first terminal outcome, then one error. -/
def streamOutput : List (Doc D) → Option CursorEnd → List (ChangeEventResult D)
  | [], ended => ended.toList.map CursorEnd.result
  | doc :: docs, ended =>
    match doc.decoded with
    | .error err => [doc.failed err]
    | .ok ce =>
      if ce.operationType = .invalidate then [doc.failed errChangeStreamInvalidateEvent]
      else doc.result ce :: streamOutput docs ended

/-- What the loop has asked the cursor for: nothing after a terminal document, and its end only if
there was none. -/
structure Asked (polled : List (Doc D × Bool)) (ended : Option CursorEnd) : Prop where
  front : ∀ x ∈ polled.dropLast, terminal x = false
  fin : ended ≠ none → ∀ x ∈ polled, terminal x = false

theorem Asked.tail {x : Doc D × Bool} (h : Asked (x :: polled) ended) : Asked polled ended := by
  constructor
  · intro y hy
    cases polled with
    | nil => cases hy
    | cons z polled => exact h.front y (List.mem_cons_of_mem x hy)
  · intro hne y hy
    exact h.fin hne y (List.mem_cons_of_mem x hy)

theorem Asked.eq_nil {x : Doc D × Bool} (h : Asked (x :: polled) ended) (hx : terminal x = true) :
    polled = [] ∧ ended = none := by
  constructor
  · cases polled with
    | nil => rfl
    | cons z polled =>
      rw [h.front x List.mem_cons_self] at hx
      cases hx
  · by_contra hne
    rw [h.fin hne x List.mem_cons_self] at hx
    cases hx

theorem map_emit_eq_iff {polled : List (Doc D × Bool)} (h : Asked polled ended) :
    polled.map emit ++ ended.toList.map CursorEnd.result =
        streamOutput (polled.map Prod.fst) ended ↔
      ∀ x ∈ polled, x.2 = true → ¬ x.1.invalidates := by
  induction polled with
  | nil => simp [streamOutput]
  | cons x polled ih =>
    obtain ⟨⟨decoded, resumeToken⟩, b⟩ := x
    have ih := ih h.tail
    cases decoded with
    | error err =>
      obtain ⟨rfl, rfl⟩ := h.eq_nil rfl
      simp [emit, streamOutput, Doc.invalidates]
    | ok ce =>
      by_cases hi : ce.operationType = .invalidate
      · cases b with
        | true =>
          -- the event is passed on, where an error belongs
          simp [emit, streamOutput, hi, Doc.invalidates, Doc.result, Doc.failed]
        | false =>
          obtain ⟨rfl, rfl⟩ := h.eq_nil (by simp [terminal, hi])
          simp [emit, streamOutput, hi]
      · simp only [List.map_cons, streamOutput, hi, ↓reduceIte, emit, and_false, List.cons_append,
          List.cons.injEq, true_and, List.forall_mem_cons, ih]
        constructor
        · intro hall
          refine ⟨?_, hall⟩
          rintro _ ⟨ce', hce', hi'⟩
          cases hce'
          exact hi hi'
        · exact fun hall => hall.2

namespace Pc

def pending : Pc D → List (ChangeEventResult D)
  | .decode doc b => [emit (doc, b)]
  | .start _ (some (r, _)) | .send r _ => [r]
  | _ => []

def finishing : Pc D → Bool
  | .decode doc b => terminal (doc, b)
  | .start _ (some (_, last)) | .send _ last => last
  | .close | .exited => true
  | _ => false

end Pc

def ContextLive (_ : Background D) (a : BackgroundAct D) : Prop := a ≠ .cancel

/-- What the goroutine has sent, and what it has asked for, while the context is live. -/
structure Background.Relays (s : Background D) : Prop where
  channels : s.Channels
  live : s.ctxDone = false
  output : s.results.sent ++ s.pc.pending =
    s.polled.map emit ++ s.ended.toList.map CursorEnd.result
  asked : Asked s.polled s.ended
  unfinished : s.pc.finishing = false → s.ended = none ∧ ∀ x ∈ s.polled, terminal x = false
  finished : s.pc.finishing = true →
    s.ended ≠ none ∨ ∃ front x, s.polled = front ++ [x] ∧ terminal x = true

namespace Background.Relays

variable {s s' : Background D}

theorem init : ({} : Background D).Relays where
  channels := ⟨rfl, rfl, rfl, rfl, rfl, rfl⟩
  live := rfl
  output := rfl
  asked := ⟨fun _ hx => (by cases hx), fun _ _ hx => (by cases hx)⟩
  unfinished _ := ⟨rfl, fun _ hx => (by cases hx)⟩
  finished hf := by cases hf

theorem moved (h : s.Relays) (hc : s'.Channels) (hlive : s'.ctxDone = s.ctxDone)
    (hresults : s'.results.sent = s.results.sent) (hpolled : s'.polled = s.polled)
    (hended : s'.ended = s.ended) (hpending : s'.pc.pending = s.pc.pending)
    (hfin : s'.pc.finishing = s.pc.finishing) : s'.Relays where
  channels := hc
  live := hlive.trans h.live
  output := by rw [hresults, hpending, hpolled, hended, h.output]
  asked := by
    rw [hpolled, hended]
    exact h.asked
  unfinished hf := by
    rw [hpolled, hended]
    exact h.unfinished (hfin ▸ hf)
  finished hf := by
    rw [hpolled, hended]
    exact h.finished (hfin ▸ hf)

theorem found (h : s.Relays) (hc : s'.Channels) (doc : Doc D) (b : Bool)
    (hpending : s.pc.pending = []) (hfin : s.pc.finishing = false)
    (hs' : s' = { s with pc := .decode doc b, polled := s.polled ++ [(doc, b)] }) :
    s'.Relays := by
  obtain ⟨hended, hopen⟩ := h.unfinished hfin
  subst hs'
  refine ⟨hc, h.live, ?_, ⟨?_, ?_⟩, ?_, fun hf => .inr ⟨s.polled, (doc, b), rfl, hf⟩⟩
  · have hout := h.output
    rw [hpending, List.append_nil, hended] at hout
    simp only [Pc.pending, hout, hended, List.map_append, Option.toList_none, List.map_nil,
      List.append_nil, List.map_cons]
  · intro x hx
    rw [List.dropLast_concat] at hx
    exact hopen x hx
  · exact fun hne => absurd hended hne
  · intro hf
    refine ⟨hended, ?_⟩
    intro x hx
    rcases List.mem_append.1 hx with hx | hx
    · exact hopen x hx
    · rw [List.mem_singleton.1 hx]
      exact hf

theorem step (h : s.Relays) (hok : ContextLive s a) (hs : BackgroundStep s a s') : s'.Relays := by
  have hc := h.channels.step hs
  cases hs with
  | done hpc hd =>
    rw [h.live] at hd
    cases hd
  | live hpc _ => exact h.moved hc rfl rfl rfl rfl (by rw [hpc]; rfl) (by rw [hpc]; rfl)
  | tryNext hpc => exact h.found hc _ true (by rw [hpc]; rfl) (by rw [hpc]; rfl) rfl
  | noneStart hpc _ | noneNext hpc _ | decode hpc _ | decodeStart hpc _ | startSend hpc _
  | startNext hpc _ =>
    exact h.moved hc rfl rfl rfl rfl (by rw [hpc]; rfl) (by rw [hpc]; rfl)
  | next hpc => exact h.found hc _ false (by rw [hpc]; rfl) (by rw [hpc]; rfl) rfl
  | nextFails hpc =>
    obtain ⟨hended, hopen⟩ := h.unfinished (by rw [hpc]; rfl)
    have hout := h.output
    rw [hpc, hended] at hout
    simp only [Pc.pending, List.append_nil, Option.toList_none, List.map_nil] at hout
    refine ⟨hc, h.live, ?_, ⟨h.asked.front, fun _ => hopen⟩, fun hf => (by cases hf),
      fun _ => .inl (Option.some_ne_none _)⟩
    rw [hout]
    rfl
  | @send r last a hpc hroom _ =>
    have hout := h.output
    rw [hpc] at hout
    have hopen : s.results.closed = false := by
      rw [h.channels.closed, hpc]
      rfl
    refine ⟨hc, h.live, ?_, h.asked, ?_, ?_⟩
    · show (s.results.send r).sent ++ Pc.pending (if last then .close else .loop) = _
      have hnil : Pc.pending (D := D) (if last then .close else .loop) = [] := by cases last <;> rfl
      rw [Chan.send_open hopen, hnil, List.append_nil]
      exact hout
    · intro hf
      cases last with
      | true => cases hf
      | false => exact h.unfinished (by rw [hpc]; rfl)
    · intro hf
      cases last with
      | true => exact h.finished (by rw [hpc]; rfl)
      | false => cases hf
  | drop hpc hd =>
    rw [h.live] at hd
    cases hd
  | close hpc =>
    exact h.moved hc rfl (Chan.close_sent _) rfl rfl (by rw [hpc]; rfl) (by rw [hpc]; rfl)
  | callReturns _ _ | receive _ _ => exact h.moved hc rfl rfl rfl rfl rfl rfl
  | cancel => exact absurd rfl hok

theorem last_error (h : s.Relays) (hpc : s.pc = .exited) :
    ∃ events last, s.results.sent = events ++ [last] ∧ (∀ r ∈ events, r.error = none) ∧
      last.error ≠ none := by
  have hevent (x : Doc D × Bool) (hx : terminal x = false) : (emit x).error = none := by
    obtain ⟨⟨decoded, resumeToken⟩, b⟩ := x
    cases decoded with
    | error err => cases hx
    | ok ce =>
      have hne : ¬ (b = false ∧ ce.operationType = .invalidate) := of_decide_eq_false hx
      rw [emit]
      dsimp only
      rw [if_neg hne]
      rfl
  have herror (x : Doc D × Bool) (hx : terminal x = true) : (emit x).error ≠ none := by
    obtain ⟨⟨decoded, resumeToken⟩, b⟩ := x
    cases decoded with
    | error err => exact Option.some_ne_none err
    | ok ce =>
      have hi : b = false ∧ ce.operationType = .invalidate := of_decide_eq_true hx
      rw [emit]
      dsimp only
      rw [if_pos hi]
      exact Option.some_ne_none _
  have hevents (l : List (Doc D × Bool)) (hl : ∀ x ∈ l, terminal x = false) :
      ∀ r ∈ l.map emit, r.error = none := by
    intro r hr
    obtain ⟨x, hx, rfl⟩ := List.mem_map.1 hr
    exact hevent x (hl x hx)
  have hout := h.output
  have hpending : s.pc.pending = [] := by rw [hpc]; rfl
  rw [hpending, List.append_nil] at hout
  cases hended : s.ended with
  | some fin =>
    rw [hended] at hout
    have hopen := h.asked.fin (by rw [hended]; exact Option.some_ne_none fin)
    exact ⟨_, _, hout, hevents _ hopen, Option.some_ne_none _⟩
  | none =>
    obtain hne | ⟨front, x, hpolled, hx⟩ := h.finished (by rw [hpc]; rfl)
    · exact absurd hended hne
    · have hfront := h.asked.front
      rw [hpolled, List.dropLast_concat] at hfront
      rw [hended, hpolled, List.map_append, Option.toList_none, List.map_nil,
        List.append_nil] at hout
      exact ⟨_, _, hout, hevents front hfront, herror x hx⟩

theorem progress (h : s.Relays) (hI : s.Starts) (hpc : s.pc ≠ .exited) :
    ∃ a s', ContextLive s a ∧ backgroundStep s a = some s' := by
  cases hp : s.pc with
  | loop => exact ⟨.check, _, nofun, by simp only [backgroundStep, hp]; rfl⟩
  | tryNext =>
    cases ho : s.csStartedOnce with
    | true | false => exact ⟨.tryNext none [], _, nofun, by simp only [backgroundStep, hp, ho]; rfl⟩
  | decode doc b =>
    cases b with
    | true | false => exact ⟨.decode, _, nofun, by simp only [backgroundStep, hp]; rfl⟩
  | start res next =>
    exact ⟨.start, _, nofun, by simp only [backgroundStep, hp, hI.canSend hp]; rfl⟩
  | next => exact ⟨.nextFails ⟨none, []⟩, _, nofun, by simp only [backgroundStep, hp]; rfl⟩
  | send r last =>
    cases hroom : s.results.canSend with
    | true => exact ⟨.send, _, nofun, by simp only [backgroundStep, hp, hroom]; rfl⟩
    | false =>
      -- the call returns before the consumer can make room
      have hsent : s.csStarted.sent ≠ [] := by
        rw [← List.length_pos_iff, hI.count, hp]
        exact Nat.one_pos
      rcases hI.returns hsent with hstarted | ⟨s', hs', _⟩
      · obtain ⟨res, hres⟩ := Option.ne_none_iff_exists'.1 hstarted
        obtain ⟨r', rest, hbuf⟩ := Chan.exists_of_full (h.channels.resultsCap ▸ Nat.one_pos) hroom
        exact ⟨.receive, _, nofun, by simp only [backgroundStep, hres, hbuf]; rfl⟩
      · exact ⟨.callReturns, s', nofun, hs'⟩
  | close => exact ⟨.close, _, nofun, by simp only [backgroundStep, hp]; rfl⟩
  | exited => exact absurd hp hpc

end Background.Relays

theorem Background.relays {s : Background D}
    (h : (backgroundMachine D).ReachableWith ContextLive s) : s.Relays ∧ s.Starts := by
  apply h.invariant
  · rintro s rfl
    exact ⟨.init, .init⟩
  · rintro s a s' ⟨hR, hI⟩ hok hs
    have hstep := backgroundStep_step hs
    exact ⟨hR.step hok hstep, hI.step (fun _ _ => hR.live) hstep⟩

/-- The results arrive in order and once, and the last of them is the only error. -/
structure Background.Carries (s : Background D) : Prop where
  inOrder : s.results.sent = s.received ++ s.results.buf
  output : s.results.sent ++ s.pc.pending = streamOutput (s.polled.map Prod.fst) s.ended ↔
    ∀ x ∈ s.polled, x.2 = true → ¬ x.1.invalidates
  exit : s.pc = .exited → s.pc.pending = [] ∧ s.results.closed = true ∧
    ∃ events last, s.results.sent = events ++ [last] ∧ (∀ r ∈ events, r.error = none) ∧
      last.error ≠ none
  progress : s.pc ≠ .exited → ∃ a s', ContextLive s a ∧ backgroundStep s a = some s'

theorem changeStreamBackground_output {s : Background D}
    (h : (backgroundMachine D).ReachableWith ContextLive s) : s.Carries := by
  obtain ⟨hR, hI⟩ := Background.relays h
  refine ⟨hR.channels.received, ?_, ?_, hR.progress hI⟩
  · rw [hR.output]
    exact map_emit_eq_iff hR.asked
  · intro hpc
    refine ⟨by rw [hpc]; rfl, ?_, hR.last_error hpc⟩
    rw [hR.channels.closed, hpc]
    rfl

instance (s : Background D) (a : BackgroundAct D) [DecidableEq D] : Decidable (ContextLive s a) :=
  inferInstanceAs (Decidable (_ ≠ _))

def invalidatedRun : List (BackgroundAct Unit) :=
  [.check, .tryNext (some insertion) [], .decode, .start, .send, .callReturns, .receive,
    .check, .tryNext none [1], .next invalidation, .decode, .send, .receive, .close]

theorem changeStreamBackground_output_invalidated :
    ∃ s : Background Unit, s.pc = .exited ∧ s.Carries := by
  obtain ⟨s, hr, hpc⟩ : ∃ s, (backgroundMachine Unit).ReachableWith ContextLive s ∧
      s.pc = .exited :=
    (backgroundMachine Unit).exists_reachableWith ContextLive {} invalidatedRun rfl
      (by decide +kernel)
  exact ⟨s, hpc, changeStreamBackground_output hr⟩

/-- The invalidation is found by `TryNext`: it comes through as an event, and the error is that of
the exhausted cursor. -/
theorem changeStreamBackground_passes_invalidation :
    ∃ s : Background Unit, (backgroundMachine Unit).ReachableWith ContextLive s ∧
      s.pc = .exited ∧ s.polled = [(invalidation, true)] ∧
      s.results.sent = [{ event := some ⟨.invalidate, ⟨1, 2⟩, ()⟩, resumeToken := [2] },
        { error := some errChangeStreamInvalidateEvent, resumeToken := [3] }] ∧
      streamOutput [invalidation] s.ended =
        [{ error := some errChangeStreamInvalidateEvent, resumeToken := [2] }] := by
  obtain ⟨s, hr, hpc, hpolled, hsent⟩ : ∃ s, (backgroundMachine Unit).ReachableWith ContextLive s ∧
      s.pc = .exited ∧ s.polled = [(invalidation, true)] ∧
      s.results.sent = [{ event := some ⟨.invalidate, ⟨1, 2⟩, ()⟩, resumeToken := [2] },
      { error := some errChangeStreamInvalidateEvent, resumeToken := [3] }] :=
    (backgroundMachine Unit).exists_reachableWith ContextLive {}
      [.check, .tryNext (some invalidation) [], .decode, .start, .send, .callReturns, .receive,
      .check, .tryNext none [3], .nextFails ⟨none, [3]⟩, .send, .close] rfl (by decide +kernel)
  exact ⟨s, hr, hpc, hpolled, hsent, rfl⟩

end Goutils.Mongo
