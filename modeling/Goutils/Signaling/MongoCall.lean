import Goutils.Signaling.Call

namespace Goutils.Signaling
open Lib Rpc CallQueue
set_option autoImplicit true

structure MongoCallEvent where
  call : MongoCall := { id := "", callerOperatorID := "", host := "" }
  error : Option GoErr := none
  expired : Bool := false

/-- Where the goroutine of `SendOfferInit` stands: `closing` has returned. -/
inductive OfferPc where
  | top
  | select
  | sending (answers : List WebRTCCallAnswer) (last : Bool)
  | closing
  | cleaning
  | finished
  deriving DecidableEq

/-- `Call` with the goroutine of its `SendOfferInit` and `answererResponses`. -/
structure MongoRun where
  call : Call
  events : List MongoCallEvent := []
  pc : OfferPc := .top
  haveInitSDP : Bool := false
  candLen : Nat := 0
  responses : List WebRTCCallAnswer := []
  closed : Bool := false
  ctxErr : Option CtxErr := none
  placed : List WebRTCCallAnswer := []

/-- `cancel` ends the context of the caller and `close` that of the queue. -/
inductive MongoAct where
  | event (e : MongoCallEvent)
  | cancel (e : CtxErr)
  | close
  | offer
  | giveUp
  | call
  | callCtxDone
  | callRespDone
  | callRecv
  | callSendFails (err : GoErr)

namespace MongoRun

def place (s : MongoRun) (answer : WebRTCCallAnswer) : Option MongoRun :=
  if s.responses.isEmpty then
    some { s with responses := [answer], placed := s.placed ++ [answer] }
  else none

def answers (s : MongoRun) (callResp : MongoCall) : List WebRTCCallAnswer :=
  (if !s.haveInitSDP && callResp.answererSDP ≠ "" then [{ initialSDP := callResp.answererSDP }]
    else []) ++
  (callResp.answererCandidates.drop s.candLen).map fun c =>
    { candidate := iceCandidateFromMongo c }

def handleEvent (s : MongoRun) (next : MongoCallEvent) : MongoRun :=
  match next.error with
  | some err => { s with pc := .sending [{ err }] true }
  | none =>
    let callResp := next.call
    if callResp.answererError.getD "" ≠ "" then
      { s with pc := .sending [{ err := some (.text (callResp.answererError.getD "")) }] true }
    else
      { s with
        pc := .sending (s.answers callResp) callResp.answererDone
        haveInitSDP := s.haveInitSDP || callResp.answererSDP ≠ ""
        candLen := max s.candLen callResp.answererCandidates.length }

def sendCtxErr (s : MongoRun) (e : CtxErr) : MongoRun :=
  { s with pc := .sending [{ err := some (.ctx e) }] true }

def offer (s : MongoRun) : OfferPc → Option MongoRun
  | .top =>
    match s.ctxErr with
    | some e => some (s.sendCtxErr e)
    | none => some { s with pc := .select }
  | .select =>
    match s.events with
    | next :: events => some ({ s with events }.handleEvent next)
    | [] => none
  | .sending (answer :: answers) last =>
    (s.place answer).map fun s => { s with pc := .sending answers last }
  | .sending [] last => some { s with pc := if last then .closing else .top }
  | .closing => some { s with closed := true, pc := .cleaning }
  | .cleaning => some { s with ctxErr := s.ctxErr <|> some .canceled, pc := .finished }
  | .finished => none

/-- The select of the goroutine, or that of `sendAnswer`, sees that the context is done;
`sendAnswer` tries once more. -/
def giveUp (s : MongoRun) : OfferPc → Option MongoRun
  | .select => s.ctxErr.map s.sendCtxErr
  | .sending (answer :: _) _ =>
    if s.ctxErr.isSome then some { (s.place answer).getD s with pc := .closing } else none
  | _ => none

/-- When `Call` returns it cancels the context of the offer. -/
def setCall (s : MongoRun) (call : Call) : MongoRun :=
  { s with call, ctxErr := if call.pc.isReturned then s.ctxErr <|> some .canceled else s.ctxErr }

def runCall (s : MongoRun) (a : CallAct) : Option MongoRun :=
  (s.call.run s.call.pc a).map s.setCall

end MongoRun

def mongoStep (s : MongoRun) : MongoAct → Option MongoRun
  | .event e => some { s with events := s.events ++ [e] }
  | .cancel e => some { s with
      call := { s.call with ctxErr := s.call.ctxErr <|> some e }
      ctxErr := s.ctxErr <|> some e }
  | .close => some { s with ctxErr := s.ctxErr <|> some .canceled }
  | .offer => s.offer s.pc
  | .giveUp => s.giveUp s.pc
  | .call => s.runCall .next
  | .callCtxDone => s.runCall .ctxDone
  | .callRespDone => if s.ctxErr.isSome then s.runCall .respDone else none
  | .callRecv =>
    match s.responses with
    | resp :: responses => { s with responses }.runCall (.recv resp)
    | [] => if s.closed then s.runCall .closed else none
  | .callSendFails err => s.runCall (.sendFails err)

def mongoMachine : Machine MongoRun MongoAct where
  init s := ∃ uuid, s = { call := { uuid } }
  step := mongoStep

/-- Nothing ends early, and `Call` takes the end of the offer only when none is left. -/
def Drained (s : MongoRun) : MongoAct → Prop
  | .event e => e.call.answererCandidates = [] ∨ e.call.answererSDP ≠ ""
  | .callRespDone => s.responses = []
  | .cancel _ | .close | .callSendFails _ => False
  | _ => True

instance : ∀ s a, Decidable (Drained s a) := fun s a => by
  unfold Drained
  split <;> infer_instance

def OfferPc.answers : OfferPc → List WebRTCCallAnswer
  | .sending answers _ => answers
  | _ => []

def OfferPc.ending : OfferPc → Bool
  | .top | .select => false
  | .sending _ last => last
  | _ => true

variable {s : MongoRun}

namespace MongoRun

inductive Step (s : MongoRun) : MongoAct → MongoRun → Prop where
  | event : Step s (.event e) { s with events := s.events ++ [e] }
  | ctxErr : s.pc = .top → s.ctxErr = some e → Step s .offer (s.sendCtxErr e)
  | top : s.pc = .top → Step s .offer { s with pc := .select }
  | next : s.pc = .select → s.events = e :: es →
      Step s .offer ({ s with events := es }.handleEvent e)
  | place : s.pc = .sending (a :: as) last → s.responses = [] →
      Step s .offer
        { s with responses := [a], placed := s.placed ++ [a], pc := .sending as last }
  | handled : s.pc = .sending [] false → Step s .offer { s with pc := .top }
  | ended : s.pc = .sending [] true → Step s .offer { s with pc := .closing }
  | close : s.pc = .closing → Step s .offer { s with closed := true, pc := .cleaning }
  | cleanup : s.pc = .cleaning →
      Step s .offer { s with ctxErr := s.ctxErr <|> some .canceled, pc := .finished }
  | giveUp : s.ctxErr.isSome = true → (s.pc.ending = false ∨ s.pc.answers ≠ []) →
      Step s .giveUp s'
  | call : s.call.Step .next c → Step s .call (s.setCall c)
  | respDone : s.ctxErr.isSome = true → s.call.Step .respDone c →
      Step s .callRespDone (s.setCall c)
  | recv : s.responses = a :: as → s.call.Step (.recv a) c →
      Step s .callRecv ({ s with responses := as }.setCall c)
  | closed : s.responses = [] → s.closed = true → s.call.Step .closed c →
      Step s .callRecv (s.setCall c)

theorem offer_step {pc : OfferPc} (h : s.offer pc = some s') (hpc : s.pc = pc) :
    Step s .offer s' := by
  cases pc with
  | top =>
    simp only [offer] at h
    split at h
    · cases h
      exact .ctxErr hpc ‹_›
    · cases h
      exact .top hpc
  | select =>
    simp only [offer] at h
    split at h
    · cases h
      exact .next hpc ‹_›
    · cases h
  | sending answers last =>
    cases answers with
    | cons a as =>
      simp only [offer, place] at h
      split at h
      · cases h
        exact .place hpc (List.isEmpty_iff.1 ‹_›)
      · cases h
    | nil =>
      cases last with
      | true =>
        cases h
        exact .ended hpc
      | false =>
        cases h
        exact .handled hpc
  | closing =>
    cases h
    exact .close hpc
  | cleaning =>
    cases h
    exact .cleanup hpc
  | finished => cases h

theorem giveUp_step {pc : OfferPc} (h : s.giveUp pc = some s') (hpc : s.pc = pc) :
    Step s .giveUp s' := by
  unfold giveUp at h
  split at h
  · obtain ⟨e, he, -⟩ := Option.map_eq_some_iff.1 h
    exact .giveUp (by rw [he]; rfl) (.inl (by rw [hpc]; rfl))
  · split at h
    · exact .giveUp ‹_› (.inr (by rw [hpc]; exact List.cons_ne_nil _ _))
    · cases h
  · cases h

theorem runCall_step (h : s.runCall a = some s') (hctx : s.call.ctxErr = none)
    (ha : ∀ err, a ≠ .sendFails err) : ∃ c, s.call.Step a c ∧ s' = s.setCall c := by
  obtain ⟨c, hc, rfl⟩ := Option.map_eq_some_iff.1 h
  exact ⟨c, Call.run_step hctx ha hc rfl, rfl⟩

theorem step_of_drained (hctx : s.call.ctxErr = none) (hok : Drained s a)
    (hs : mongoStep s a = some s') : Step s a s' := by
  cases a with
  | event e =>
    cases hs
    exact .event
  | cancel e | close | callSendFails err => cases hok
  | offer => exact offer_step hs rfl
  | giveUp => exact giveUp_step hs rfl
  | call =>
    obtain ⟨c, hc, rfl⟩ := runCall_step hs hctx fun _ => nofun
    exact .call hc
  | callCtxDone =>
    obtain ⟨c, hc, -⟩ := runCall_step hs hctx fun _ => nofun
    cases hc
  | callRespDone =>
    simp only [mongoStep] at hs
    split at hs
    · obtain ⟨c, hc, rfl⟩ := runCall_step hs hctx fun _ => nofun
      exact .respDone ‹_› hc
    · cases hs
  | callRecv =>
    simp only [mongoStep] at hs
    split at hs
    · obtain ⟨c, hc, rfl⟩ := runCall_step hs hctx fun _ => nofun
      exact .recv ‹_› hc
    · split at hs
      · obtain ⟨c, hc, rfl⟩ := runCall_step hs hctx fun _ => nofun
        exact .closed ‹_› ‹_› hc
      · cases hs

def total (s : MongoRun) : List WebRTCCallAnswer := s.placed ++ s.pc.answers

structure Relays (s : MongoRun) : Prop where
  reports : s.call.Reports
  placed : s.placed = s.call.received ++ s.responses
  events : ∀ e ∈ s.events, e.call.answererCandidates = [] ∨ e.call.answererSDP ≠ ""
  wellFormed : WellFormed s.total s.pc.ending
  proper : ∀ a ∈ s.total, a ≠ {}
  haveInit : s.pc.ending = false → (s.haveInitSDP = false ↔ s.total = [])
  ctxErr : s.ctxErr.isSome = true → s.pc = .finished ∨ s.call.pc.isReturned = true
  closed : s.closed = true → s.pc.answers = [] ∧ s.pc.ending = true
  zero : s.call.pc = .got {} → s.closed = true ∧ s.responses = []
  returned : s.call.pc.isReturned = true →
    s.pc.answers = [] ∧ s.pc.ending = true ∧ s.responses = []

namespace Relays
variable {s s' : MongoRun} (h : s.Relays)

include h

theorem move {pc : OfferPc} (hans : pc.answers = s.pc.answers) (hend : pc.ending = s.pc.ending)
    (hctx : e.isSome = true → pc = .finished ∨ s.ctxErr.isSome = true ∧ s.pc ≠ .finished)
    (hclosed : b = true → s.closed = true ∨ s.pc.answers = [] ∧ s.pc.ending = true)
    (hmono : s.closed = true → b = true) :
    Relays { s with pc := pc, closed := b, ctxErr := e } where
  __ := h
  wellFormed := by
    show WellFormed (s.placed ++ pc.answers) pc.ending
    rw [hans, hend]
    exact h.wellFormed
  proper := by
    show ∀ a ∈ s.placed ++ pc.answers, a ≠ {}
    rw [hans]
    exact h.proper
  haveInit := by
    show pc.ending = false → (s.haveInitSDP = false ↔ s.placed ++ pc.answers = [])
    rw [hans, hend]
    exact h.haveInit
  ctxErr he := by
    rcases hctx he with hpc | ⟨he, hpc⟩
    · exact .inl hpc
    · exact .inr ((h.ctxErr he).resolve_left hpc)
  closed hb := by
    show pc.answers = [] ∧ pc.ending = true
    rw [hans, hend]
    rcases hclosed hb with hc | hc
    · exact h.closed hc
    · exact hc
  zero hz := ⟨hmono (h.zero hz).1, (h.zero hz).2⟩
  returned hr := by
    show pc.answers = [] ∧ pc.ending = true ∧ s.responses = []
    rw [hans, hend]
    exact h.returned hr

theorem goto {pc pc₀ : OfferPc} (hpc : s.pc = pc₀) (hans : pc.answers = pc₀.answers)
    (hend : pc.ending = pc₀.ending) (hne : pc₀ ≠ .finished) : Relays { s with pc := pc } := by
  subst hpc
  exact h.move hans hend (fun he => .inr ⟨he, hne⟩) .inl fun hb => hb

theorem ctx_live (hend : s.pc.ending = false ∨ s.pc.answers ≠ []) : s.ctxErr.isSome = false := by
  by_contra hctx
  rcases h.ctxErr (Bool.eq_true_of_not_eq_false hctx) with hpc | hret
  · rw [hpc] at hend
    rcases hend with hend | hend
    · cases hend
    · exact hend rfl
  · obtain ⟨hans, hend', -⟩ := h.returned hret
    rcases hend with hend | hend
    · cases hend.symm.trans hend'
    · exact hend hans

theorem answer (hpc : s.pc = .select) (he : s.events = e :: es)
    (hwf : WellFormed (s.placed ++ as) last) (hproper : ∀ a ∈ as, a ≠ {})
    (hinit : last = false → (b = false ↔ s.placed ++ as = [])) :
    Relays { s with events := es, pc := .sending as last, haveInitSDP := b, candLen := n } := by
  have hend : s.pc.ending = false := by
    rw [hpc]
    rfl
  have hold : ∀ a ∈ s.placed, a ≠ {} := fun a ha => h.proper a (List.mem_append_left _ ha)
  exact
  { reports := h.reports
    placed := h.placed
    events := fun x hx => h.events x (he ▸ List.mem_cons_of_mem e hx)
    wellFormed := hwf
    proper := fun a ha => (List.mem_append.1 ha).elim (hold a) (hproper a)
    haveInit := hinit
    ctxErr := fun hctx => by
      rw [h.ctx_live (.inl hend)] at hctx
      cases hctx
    closed := fun hc => by cases hend.symm.trans (h.closed hc).2
    zero := h.zero
    returned := fun hr => by cases hend.symm.trans (h.returned hr).2.1 }

end Relays

theorem not_last_of_mem_answers (h : a ∈ s.answers callResp) : ¬ a.Last := by
  rcases List.mem_append.1 h with h | h
  · split at h
    · rw [List.mem_singleton.1 h]
      rintro (hl | hl) <;> cases hl
    · cases h
  · obtain ⟨c, -, rfl⟩ := List.mem_map.1 h
    rintro (hl | hl) <;> cases hl

theorem answers_of_no_init {callResp : MongoCall} (hi : s.haveInitSDP = false)
    (he : callResp.answererCandidates = [] ∨ callResp.answererSDP ≠ "") :
    callResp.answererSDP = "" ∧ s.answers callResp = [] ∨
    callResp.answererSDP ≠ "" ∧
      ∃ as, s.answers callResp = { initialSDP := some callResp.answererSDP } :: as := by
  by_cases hs : callResp.answererSDP = ""
  · refine .inl ⟨hs, ?_⟩
    have hc := he.resolve_right fun h => h hs
    simp [answers, hs, hc]
  · have hsdp : s.answers callResp = [{ initialSDP := some callResp.answererSDP }] ++
        (callResp.answererCandidates.drop s.candLen).map fun c =>
          { candidate := some (iceCandidateFromMongo c) } := by
      rw [answers, if_pos (by simp [hi, hs])]
    exact .inr ⟨hs, _, hsdp⟩

namespace Relays
variable {s s' : MongoRun} (h : s.Relays)

include h

theorem handle (hpc : s.pc = .select) (he : s.events = e :: es) :
    Relays ({ s with events := es }.handleEvent e) := by
  have hwf := h.wellFormed
  have hinit := h.haveInit
  have hev := h.events e (he ▸ List.mem_cons_self)
  rw [total, hpc] at hwf hinit
  have hnil : s.placed ++ OfferPc.select.answers = s.placed := List.append_nil _
  rw [hnil] at hwf hinit
  have hfirst : s.haveInitSDP = false ↔ s.placed = [] := hinit rfl
  have hsingle (err : GoErr) : ∀ a ∈ [({ err := some err } : WebRTCCallAnswer)], a ≠ {} := by
    intro a ha
    rw [List.mem_singleton.1 ha]
    nofun
  simp only [handleEvent]
  split
  · exact h.answer hpc he (hwf.concat (.inl rfl)) (hsingle _) nofun
  · split
    · exact h.answer hpc he (hwf.concat (.inl rfl)) (hsingle _) nofun
    · refine h.answer hpc he (.of_not_last ?_ ?_) ?_ fun _ => ?_
      · apply hwf.opens.append
        intro hp
        rcases answers_of_no_init (s := { s with events := es }) (hfirst.2 hp) hev with
          ⟨-, ha⟩ | ⟨-, as, ha⟩
        · rw [ha]
          exact fun a => nofun
        · rw [ha]
          rintro a ⟨⟩
          exact .inl rfl
      · intro a ha
        rcases List.mem_append.1 ha with ha | ha
        · exact hwf.not_last a ha
        · exact not_last_of_mem_answers ha
      · intro a ha hz
        exact not_last_of_mem_answers ha (.inr hz)
      · rw [Bool.or_eq_false_iff, hfirst, List.append_eq_nil_iff]
        refine and_congr_right fun hp => ?_
        rcases answers_of_no_init (s := { s with events := es }) (hfirst.2 hp) hev with
          ⟨hs, ha⟩ | ⟨hs, as, ha⟩
        · simp [hs, ha]
        · simp [hs, ha]

theorem setCall (hcall : s.call.pc.isReturned = false) (hc : c.Reports)
    (hplaced : s.placed = c.received ++ as) (hzero : c.pc = .got {} → s.closed = true ∧ as = [])
    (hret : c.pc.isReturned = true → s.pc.answers = [] ∧ s.pc.ending = true ∧ as = []) :
    Relays ({ s with responses := as }.setCall c) where
  __ := h
  reports := hc
  placed := hplaced
  ctxErr := by
    intro he
    cases hr : c.pc.isReturned with
    | true => exact .inr hr
    | false =>
      simp only [MongoRun.setCall, hr, Bool.false_eq_true, ↓reduceIte] at he
      rcases h.ctxErr he with hf | hf
      · exact .inl hf
      · cases hcall.symm.trans hf
  zero := hzero
  returned := hret

theorem opens : Opens s.call.received := by
  have ho := h.wellFormed.opens
  rw [total, h.placed, List.append_assoc] at ho
  exact ho.of_append

theorem call (hs : s.call.Step .next c) : Relays (s.setCall c) := by
  have hc := h.reports.step h.opens hs
  cases hs with
  | top hpc => exact h.setCall (by rw [hpc]; rfl) hc h.placed nofun nofun
  | @error resp err hpc he =>
    refine h.setCall (by rw [hpc]; rfl) hc h.placed nofun fun _ => ?_
    have hf := h.reports.fits
    rw [hpc] at hf
    rcases hf with ⟨as, hr, -⟩ | ⟨rfl, -⟩
    · have htotal : s.total = as ++ resp :: (s.responses ++ s.pc.answers) := by
        rw [total, h.placed, hr]
        simp
      obtain ⟨hnil, hend⟩ := h.wellFormed.last _ _ _ htotal (.inl (by rw [he]; rfl))
      obtain ⟨hresp, hans⟩ := List.append_eq_nil_iff.1 hnil
      exact ⟨hans, hend, hresp⟩
    · cases he
  | noInit hpc he hi hn =>
    refine h.setCall (by rw [hpc]; rfl) hc h.placed nofun fun _ => ?_
    obtain ⟨rfl, -⟩ := h.reports.noInit h.opens hpc he hi hn
    obtain ⟨hcl, hresp⟩ := h.zero hpc
    exact ⟨(h.closed hcl).1, (h.closed hcl).2, hresp⟩
  | forward hpc he hi => exact h.setCall (by rw [hpc]; rfl) hc h.placed nofun nofun
  | send hpc | again hpc => exact h.setCall (by rw [hpc]; rfl) hc h.placed nofun nofun

theorem step (hok : Drained s a) (hs : Step s a s') : s'.Relays := by
  cases hs with
  | @event e =>
    refine { h with events := fun x hx => ?_ }
    rcases List.mem_append.1 hx with hx | hx
    · exact h.events x hx
    · rw [List.mem_singleton.1 hx]
      exact hok
  | ctxErr hpc he =>
    have hlive := h.ctx_live (.inl (by rw [hpc]; rfl))
    rw [he] at hlive
    cases hlive
  | top hpc | handled hpc | ended hpc => exact h.goto hpc rfl rfl nofun
  | next hpc he => exact h.handle hpc he
  | @place a as last hpc hresp =>
    have htotal : s.placed ++ [a] ++ as = s.total := by
      rw [total, hpc, List.append_assoc]
      rfl
    have hwf := h.wellFormed
    have hproper := h.proper
    have hi := h.haveInit
    have hcl := h.closed
    have hret := h.returned
    have hctx := h.ctx_live (.inr (by rw [hpc]; exact List.cons_ne_nil _ _))
    rw [hpc] at hwf hi hcl hret
    rw [← htotal] at hwf hproper hi
    exact
    { reports := h.reports
      placed := by
        have hp := h.placed
        rw [hresp, List.append_nil] at hp
        show s.placed ++ [a] = s.call.received ++ [a]
        rw [hp]
      events := h.events
      wellFormed := hwf
      proper := hproper
      haveInit := hi
      ctxErr := fun he => by cases hctx.symm.trans he
      closed := fun hc => by cases (hcl hc).1
      zero := fun hz => by cases (hcl (h.zero hz).1).1
      returned := fun hr => by cases (hret hr).1 }
  | close hpc =>
    have hne : s.pc ≠ .finished := by
      rw [hpc]
      nofun
    have hend : s.pc.answers = [] ∧ s.pc.ending = true := by
      rw [hpc]
      exact ⟨rfl, rfl⟩
    exact h.move (by rw [hpc]; rfl) (by rw [hpc]; rfl) (fun he => .inr ⟨he, hne⟩)
      (fun _ => .inr hend) fun _ => rfl
  | cleanup hpc =>
    exact h.move (by rw [hpc]; rfl) (by rw [hpc]; rfl) (fun _ => .inl rfl) .inl fun hb => hb
  | giveUp hctx hpc =>
    rw [h.ctx_live hpc] at hctx
    cases hctx
  | call hc => exact h.call hc
  | respDone hctx hc =>
    have hrep := h.reports.step h.opens hc
    cases hc with
    | respDone hpc =>
      have hlive : s.call.pc.isReturned = false := by rw [hpc]; rfl
      rcases h.ctxErr hctx with hf | hf
      · refine h.setCall hlive hrep h.placed nofun fun _ => ?_
        rw [hf]
        exact ⟨rfl, rfl, hok⟩
      · cases hlive.symm.trans hf
  | @recv a as c hresp hc =>
    have hrep := h.reports.step h.opens hc
    cases hc with
    | recv hpc =>
      have hplaced : s.placed = s.call.received ++ [a] ++ as := by
        rw [h.placed, hresp, List.append_assoc]
        rfl
      have hmem : a ∈ s.total := by
        rw [total, hplaced]
        simp
      refine h.setCall (by rw [hpc]; rfl) hrep hplaced (fun hz => ?_) nofun
      cases hz
      cases h.proper _ hmem rfl
  | closed hresp hcl hc =>
    have hrep := h.reports.step h.opens hc
    cases hc with
    | closed hpc => exact h.setCall (by rw [hpc]; rfl) hrep h.placed (fun _ => ⟨hcl, hresp⟩) nofun

end Relays

theorem relays_of_reachable (h : mongoMachine.ReachableWith Drained s) : s.Relays := by
  refine h.invariant ?_ fun s a s' hi hok hs => ?_
  · rintro s ⟨uuid, rfl⟩
    exact
    { reports := ⟨rfl, rfl, fun _ => nofun, rfl⟩
      placed := rfl
      events := fun _ => nofun
      wellFormed := .nil
      proper := fun _ => nofun
      haveInit := fun _ => ⟨fun _ => rfl, fun _ => rfl⟩
      ctxErr := nofun
      closed := nofun
      zero := nofun
      returned := nofun }
  · exact hi.step hok (step_of_drained hi.reports.ctxErr hok hs)

namespace Relays
variable {s s' : MongoRun} (h : s.Relays)

include h

theorem sent_isPrefix : s.call.sent <+: forwardAll s.call.uuid s.placed := by
  rw [h.placed]
  refine List.IsPrefix.trans ?_ (forwardAll_isPrefix _ _ _)
  rw [← h.reports.sent]
  exact List.prefix_append _ _

theorem sent_all (hresp : s.responses = []) (hunsent : s.call.unsent = []) :
    s.call.sent = forwardAll s.call.uuid s.placed := by
  have hs := h.reports.sent
  rw [hunsent, List.append_nil] at hs
  rw [hs, h.placed, hresp, List.append_nil]

theorem sent_returned (hpc : s.call.pc = .returned callErr) :
    s.call.sent = forwardAll s.call.uuid s.placed := by
  obtain ⟨-, -, hresp⟩ := h.returned (by rw [hpc]; rfl)
  exact h.sent_all hresp (by rw [Call.unsent, hpc])

theorem returned_err (hpc : s.call.pc = .returned callErr) (ha : a ∈ s.placed)
    (he : a.err = some err) : callErr = some (.wrap "error from answerer" err) := by
  have hf := h.reports.fits
  obtain ⟨-, -, hresp⟩ := h.returned (by rw [hpc]; rfl)
  rw [h.placed, hresp, List.append_nil] at ha
  rw [hpc] at hf
  cases callErr with
  | none =>
    rw [hf a ha] at he
    cases he
  | some e =>
    rcases hf with hzero | ⟨as, b, err', hr, has, hb, rfl⟩
    · rw [hzero a ha] at he
      cases he
    · rw [hr] at ha
      rcases List.mem_append.1 ha with ha | ha
      · rw [has a ha] at he
        cases he
      · rw [List.mem_singleton.1 ha, hb] at he
        cases he
        rfl

end Relays

end MongoRun

def Forwarding (_ : MongoRun) (a : MongoAct) : Prop := a = .call ∨ a = .callRecv

theorem MongoRun.Relays.can_forward (h : s.Relays) :
    mongoMachine.CanReach Forwarding
      (fun t => t.placed = s.placed ∧ t.call.sent = forwardAll s.call.uuid s.placed) s := by
  refine Machine.CanReach.of_measure (fun t => 6 * t.responses.length + t.call.left)
    (I := fun t => t.Relays ∧ t.placed = s.placed ∧ t.call.uuid = s.call.uuid) ?_ ?_ ⟨h, rfl, rfl⟩
  · rintro t a t' ⟨ht, hp, hu⟩ hok hs
    have hdr : Drained t a := by
      rcases hok with rfl | rfl
      · trivial
      · trivial
    have hst := step_of_drained ht.reports.ctxErr hdr hs
    refine ⟨ht.step hdr hst, ?_⟩
    rcases hok with rfl | rfl
    · cases hst with
      | call hc => exact ⟨hp, hc.uuid.trans hu⟩
    · cases hst with
      | recv hresp hc | closed hresp hcl hc => exact ⟨hp, hc.uuid.trans hu⟩
  · rintro t ⟨ht, hp, hu⟩ hP
    rw [← hp, ← hu] at hP
    have hret (e) (hpc : t.call.pc = .returned e) : False := hP ⟨rfl, ht.sent_returned hpc⟩
    by_cases hsel : t.call.pc = .select
    · cases hresp : t.responses with
      | nil => exact absurd ⟨rfl, ht.sent_all hresp (by rw [Call.unsent, hsel])⟩ hP
      | cons a as =>
        refine ⟨.callRecv, { t with
          responses := as
          call := { t.call with pc := .got a, received := t.call.received ++ [a] } },
          .inr rfl, ?_, ?_⟩
        · simp only [mongoMachine, mongoStep, hresp, runCall, Call.run, hsel]
          rfl
        · have hlen := forward_length_le t.call.uuid t.call.haveInit a
          simp only [Call.left, hsel, List.length_cons]
          omega
    · obtain ⟨c, hc, hst⟩ := Call.next_enabled ht.reports.ctxErr hsel hret
      refine ⟨.call, t.setCall c, .inl rfl, ?_, ?_⟩
      · simp only [mongoMachine, mongoStep, runCall, hc, Option.map_some]
      · exact Nat.add_lt_add_left hst.left_lt _

/-- `Call` sends the answers that the goroutine has placed, in order, and when it returns it has
sent them all and returns the error among them. -/
theorem call_reports_answers (h : mongoMachine.ReachableWith Drained s) :
    s.call.sent <+: forwardAll s.call.uuid s.placed ∧
    (∀ callErr, s.call.pc = .returned callErr →
      s.call.sent = forwardAll s.call.uuid s.placed ∧
      (callErr = none → ∀ a ∈ s.placed, a.err = none) ∧
      ∀ a ∈ s.placed, ∀ err, a.err = some err →
        callErr = some (.wrap "error from answerer" err)) ∧
    mongoMachine.CanReach Forwarding
      (fun t => t.placed = s.placed ∧ t.call.sent = forwardAll s.call.uuid s.placed) s := by
  have hr := MongoRun.relays_of_reachable h
  refine ⟨hr.sent_isPrefix, fun callErr hpc => ⟨hr.sent_returned hpc, ?_, ?_⟩, hr.can_forward⟩
  · rintro rfl a ha
    by_contra he
    obtain ⟨err, he⟩ := Option.ne_none_iff_exists'.1 he
    cases hr.returned_err hpc ha he
  · intro a ha err he
    exact hr.returned_err hpc ha he

def answeredDoc : MongoCall :=
  { id := "call", callerOperatorID := "a", host := "robot", answererSDP := "answer" }

def answerOne (e : MongoCallEvent) : List MongoAct := [.event e, .offer, .offer, .offer, .offer]

def forwardOne : List MongoAct := [.call, .callRecv, .call, .call, .call]

def answeredRun : List MongoAct :=
  List.flatten [answerOne { call := answeredDoc }, forwardOne, [.call],
    answerOne { call := { answeredDoc with answererError := some "no route" } },
    [.callRecv, .call]]

theorem call_reports_answers_one : ∃ s, mongoMachine.ReachableWith Drained s ∧
    s.call.pc = .returned (some (.wrap "error from answerer" (.text "no route"))) ∧
    s.placed.length = 2 ∧ s.call.sent = forwardAll s.call.uuid s.placed := by
  obtain ⟨s, hr, hpc, hlen⟩ : ∃ s : MongoRun, mongoMachine.ReachableWith Drained s ∧
      s.call.pc = .returned (some (.wrap "error from answerer" (.text "no route"))) ∧
      s.placed.length = 2 :=
    mongoMachine.exists_reachableWith Drained { call := { uuid := "call" } } answeredRun
      ⟨"call", rfl⟩ (by decide +kernel)
  exact ⟨s, hr, hpc, hlen, ((call_reports_answers hr).2.1 _ hpc).1⟩

def endOffer : List MongoAct := [.offer, .offer, .offer]

def lostAnswerRun : List MongoAct :=
  List.flatten [[.call], (answerOne { call := { answeredDoc with answererDone := true } }).take 4,
    endOffer, [.callRespDone]]

def lostErrorRun : List MongoAct :=
  List.flatten [answerOne { call := answeredDoc }, forwardOne, [.call],
    (answerOne { call := { answeredDoc with answererError := some "no route" } }).take 4,
    endOffer, [.callRespDone]]

def emptySDPRun : List MongoAct :=
  List.flatten [(answerOne { call := { answeredDoc with
    answererSDP := "", answererCandidates := [{ candidate := "candidate:1" }] } }).take 4,
    [.call, .callRecv, .call]]

/-- `Call` takes the end of the offer while an answer is on the channel: the SDP or the error is
lost. -/
theorem call_drops_answers :
    (∃ s, mongoMachine.Reachable s ∧ s.call.ctxErr = none ∧ s.call.pc = .returned none ∧
      s.placed = [{ initialSDP := some "answer" }] ∧ s.call.sent = []) ∧
    (∃ s, mongoMachine.Reachable s ∧ s.call.ctxErr = none ∧ s.call.pc = .returned none ∧
      s.placed = [{ initialSDP := some "answer" }, { err := some (.text "no route") }]) ∧
    (∃ s, mongoMachine.Reachable s ∧ s.call.ctxErr = none ∧
      s.call.pc = .returned (some (.text "expected to have initial SDP if no error")) ∧
      s.placed = [{ candidate := some { candidate := "candidate:1" } }] ∧ s.call.sent = []) := by
  have hinit : mongoMachine.init { call := { uuid := "call" } } := ⟨"call", rfl⟩
  refine ⟨?_, ?_, ?_⟩
  · exact mongoMachine.exists_reachable _ lostAnswerRun hinit (by decide +kernel)
  · exact mongoMachine.exists_reachable _ lostErrorRun hinit (by decide +kernel)
  · exact mongoMachine.exists_reachable _ emptySDPRun hinit (by decide +kernel)

end Goutils.Signaling
