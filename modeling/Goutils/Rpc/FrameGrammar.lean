import Goutils.Rpc.ServerMachine

namespace Goutils.Rpc
open Lib
open Lib.Wire (Bytes)
set_option autoImplicit true

inductive Phase where
  | start
  | opened
  | ended
  | bad
  deriving DecidableEq

def Phase.next : Phase → ResponseType → Phase
  | .start, .headers _ | .opened, .message _ => .opened
  | .opened, .trailers _ _ => .ended
  | _, _ => .bad

def phase (sent : List ResponseType) : Phase := sent.foldl Phase.next .start

def Grammatical (sent : List ResponseType) : Prop :=
  ∃ h, ∃ ms : List PacketMessage, ∃ st md,
    sent <+: .headers h :: (ms.map .message ++ [.trailers st md])

theorem phase_append (sent : List ResponseType) (f : ResponseType) :
    phase (sent ++ [f]) = (phase sent).next f := by
  rw [phase, List.foldl_append]
  rfl

theorem foldl_bad (fs : List ResponseType) : fs.foldl Phase.next .bad = .bad := by
  induction fs with
  | nil => rfl
  | cons f fs ih => exact ih

theorem phase_of_prefix (h : sent <+: fs) (hfs : phase fs ≠ .bad) : phase sent ≠ .bad := by
  obtain ⟨rest, rfl⟩ := h
  intro hbad
  apply hfs
  rw [phase, List.foldl_append, ← phase, hbad, foldl_bad]

theorem phase_messages (ms : List PacketMessage) :
    (ms.map ResponseType.message).foldl Phase.next .opened = .opened := by
  induction ms with
  | nil => rfl
  | cons m ms ih => exact ih

theorem phase_complete (h : Option MD) (ms : List PacketMessage) (st : Option Status)
    (md : Option MD) :
    phase (.headers h :: (ms.map .message ++ [.trailers st md])) = .ended := by
  rw [phase, List.foldl_cons, List.foldl_append]
  simp only [Phase.next, phase_messages, List.foldl_cons, List.foldl_nil]

inductive Sent : List ResponseType → Phase → Prop where
  | start : Sent [] .start
  | opened (h : Option MD) (ms : List PacketMessage) :
      Sent (.headers h :: ms.map .message) .opened
  | ended (h : Option MD) (ms : List PacketMessage) (st : Option Status) (md : Option MD) :
      Sent (.headers h :: (ms.map .message ++ [.trailers st md])) .ended

theorem sent_of_phase (h : phase sent ≠ .bad) : Sent sent (phase sent) := by
  induction sent using List.reverseRecOn with
  | nil => exact .start
  | append_singleton sent f ih =>
    rw [phase_append] at h ⊢
    have hs : phase sent ≠ .bad := fun hb => h (by rw [hb]; rfl)
    have hsent := ih hs
    generalize phase sent = p at h hsent
    cases hsent with
    | start =>
      cases f with
      | headers md => exact .opened md []
      | _ => exact (h rfl).elim
    | opened md ms =>
      cases f with
      | message p =>
        have hms : ResponseType.headers md :: ms.map .message ++ [.message p] =
            .headers md :: (ms ++ [p]).map .message := by
          rw [List.map_append]
          rfl
        rw [hms]
        exact .opened md (ms ++ [p])
      | trailers st t => exact .ended md ms st t
      | _ => exact (h rfl).elim
    | ended => cases f <;> exact (h rfl).elim

theorem grammatical_iff (sent : List ResponseType) : Grammatical sent ↔ phase sent ≠ .bad := by
  constructor
  · rintro ⟨h, ms, st, md, hp⟩
    apply phase_of_prefix hp
    rw [phase_complete]
    nofun
  · intro h
    have hs := sent_of_phase h
    generalize phase sent = p at hs
    cases hs with
    | start => exact ⟨none, [], none, none, List.nil_prefix⟩
    | opened md ms => exact ⟨md, ms, none, none, List.prefix_append (_ :: _) _⟩
    | ended md ms st t => exact ⟨md, ms, st, t, List.prefix_rfl⟩

/-- Where a goroutine stands with the frames that it is about to write. -/
structure Turn where
  headers : Bool := false
  message : Bool := false
  trailers : Bool := false
  messages : Bool := false
  past : Bool := false
  ends : Bool := false

def WriteHeadersPc.writes (pc : WriteHeadersPc) : Bool := pc = .write

def CloseSendPc.turn : CloseSendPc → Turn
  | .check => { ends := true }
  | .headers pc => { ends := true, headers := pc.writes }
  | .status => { ends := true, past := true }
  | .writeTrailers _ => { ends := true, past := true, trailers := true }
  | _ => {}

def SendPc.turn : SendPc → Turn
  | .headers pc => { messages := true, headers := pc.writes }
  | .rlock => { messages := true, past := true }
  | .write ps => { message := !ps.isEmpty, messages := !ps.isEmpty, past := true }
  | .close _ pc => pc.turn
  | _ => {}

def HandlerPc.turn : HandlerPc → Turn
  | .sendHeader pc => { headers := pc.writes }
  | .sendMsg _ pc | .response _ pc | .closing _ pc => pc.turn
  | _ => {}

def DispatcherPc.turn : DispatcherPc → Turn
  | .closeSend _ pc => pc.turn
  | _ => {}

inductive FrameStep (w : Option GoErr) (s : ServerStream) (k : Turn) :
    ServerStream → Turn → Prop where
  | keep : s'.sent = s.sent → s'.headersWritten = s.headersWritten → s'.chDown = s.chDown →
      s'.sendClosed = s.sendClosed → k.headers = false → k'.headers = false →
      (k'.past = true → k.past = true ∨ s.headersWritten = true) →
      (k'.messages = true → k.messages = true ∨ s.sendClosed = false) →
      (k'.ends = true → k.ends = true) → FrameStep w s k s' k'
  | claim : s.headersWritten = false → k.headers = false →
      FrameStep w s k { s with headersWritten := true } { k with headers := true }
  | win : s.sendClosed = false → k = {} →
      FrameStep w s k { s with sendClosed := true } { ends := true }
  | headers : k.headers = true → s.chDown = false → k'.headers = false →
      (k'.messages = true → k.messages = true) → (k'.ends = true → k.ends = true) →
      FrameStep w s k { s with sent := s.sent ++ [s.headersFrame] } k'
  | failHeaders : k.headers = true → w ≠ none → k' = {} → FrameStep w s k s k'
  | message : k = { message := true, messages := true, past := true } → s.chDown = false →
      FrameStep w s k { s with sent := s.sent ++ [.message p] }
        { message := more, messages := more, past := true }
  | trailers : k = { ends := true, past := true, trailers := true } → s.chDown = false →
      FrameStep w s k { s with sent := s.sent ++ [s.trailersFrame st] } {}

variable {s s' : ServerStream}

theorem CloseSendStep.frame (h : CloseSendStep me err w s pc s' pc') :
    FrameStep w s pc.turn s' pc'.turn := by
  cases h with
  | first h => exact .win h rfl
  | headers h =>
    cases h with
    | again h => exact .keep rfl rfl rfl rfl rfl rfl (fun _ => .inr h) nofun id
    | first h => exact .claim h rfl
    | write _ h => exact .headers rfl h rfl nofun id
    | fail _ h => exact .failHeaders rfl (by rw [h]; nofun) rfl
  | status => exact .keep rfl rfl rfl rfl rfl rfl .inl nofun id
  | writeTrailers h => exact .trailers rfl h
  | check => exact .keep rfl rfl rfl rfl rfl rfl nofun nofun id
  | _ => exact .keep rfl rfl rfl rfl rfl rfl nofun nofun nofun

theorem SendPc.turn_ofMarshal (m : Except GoErr Bytes) :
    (ofMarshal m).turn.headers = false ∧ (ofMarshal m).turn.ends = false := by
  cases m <;> exact ⟨rfl, rfl⟩

theorem SendPc.turn_ofError (err : Option GoErr) : (ofError err).turn = {} := by
  cases err <;> rfl

theorem SendStep.frame (h : SendStep m w s pc s' pc') : FrameStep w s pc.turn s' pc'.turn := by
  cases h with
  | load h => exact .keep rfl rfl rfl rfl rfl rfl nofun (fun _ => .inr h) nofun
  | headers h =>
    cases h with
    | again h => exact .keep rfl rfl rfl rfl rfl rfl (fun _ => .inr h) .inl nofun
    | first h => exact .claim h rfl
    | write _ h => exact .headers rfl h rfl id nofun
    | fail _ h => exact .failHeaders rfl (by rw [h]; nofun) rfl
  | rlock =>
    obtain ⟨hh, he⟩ := SendPc.turn_ofMarshal m
    refine .keep rfl rfl rfl rfl rfl hh (fun _ => .inl rfl) (fun _ => .inl rfl) ?_
    rw [he]
    nofun
  | write h => exact .message rfl h
  | runlock =>
    rw [SendPc.turn_ofError]
    exact .keep rfl rfl rfl rfl rfl rfl nofun nofun nofun
  | close h => exact h.frame
  | _ => exact .keep rfl rfl rfl rfl rfl rfl nofun nofun nofun

theorem HandlerPc.turn_ofSend (m : Except GoErr Bytes) (pc : SendPc) :
    (ofSend m pc).turn = pc.turn := by
  cases pc <;> rfl

theorem HandlerPc.turn_ofResponse (m : Except GoErr Bytes) (pc : SendPc) :
    (ofResponse m pc).turn = pc.turn := by
  cases pc with
  | ret err => cases err <;> rfl
  | _ => rfl

theorem HandlerPc.turn_ofClosing (err : Option GoErr) (pc : CloseSendPc) :
    (ofClosing err pc).turn = pc.turn := by
  cases pc <;> rfl

theorem handlerReturn_turn (h : handlerReturn kind r = some pc) : pc.turn = {} := by
  rcases handlerReturn_cases h with ⟨m, rfl⟩ | ⟨err, rfl⟩ | rfl <;> rfl

def HandlerAct.answer : HandlerAct → Option GoErr
  | .step w => w
  | _ => none

def DispatcherAct.answer : DispatcherAct → Option GoErr
  | .step w => w
  | _ => none

theorem HandleStep.frame (h : HandleStep kind s pc a s' pc') :
    FrameStep a.answer s pc.turn s' pc'.turn := by
  cases h with
  | returns h =>
    rw [handlerReturn_turn h]
    exact .keep rfl rfl rfl rfl rfl rfl nofun nofun nofun
  | headers h =>
    cases h with
    | again h => exact .keep rfl rfl rfl rfl rfl rfl nofun nofun nofun
    | first h => exact .claim h rfl
    | write _ h => exact .headers rfl h rfl nofun nofun
    | fail _ h => exact .failHeaders rfl (by rw [HandlerAct.answer, h]; nofun) rfl
  | send h =>
    rw [HandlerPc.turn_ofSend]
    exact h.frame
  | response h =>
    rw [HandlerPc.turn_ofResponse]
    exact h.frame
  | close h =>
    rw [HandlerPc.turn_ofClosing]
    exact h.frame
  | _ => exact .keep rfl rfl rfl rfl rfl rfl nofun nofun nofun

theorem DispatcherPc.turn_afterDeliver (data : Bytes) (eos : Bool) (res : Option Bool) :
    (afterDeliver data eos res).turn = {} := by
  unfold afterDeliver
  split
  · rfl
  · split <;> rfl
  · rfl

theorem DispatchStep.frame (h : DispatchStep s pc a s' pc') :
    FrameStep a.answer s pc.turn s' pc'.turn := by
  cases h with
  | deliver =>
    rw [DispatcherPc.turn_afterDeliver]
    exact .keep rfl rfl rfl rfl rfl rfl nofun nofun nofun
  | closeSend h => exact h.frame
  | _ => exact .keep rfl rfl rfl rfl rfl rfl nofun nofun nofun

/-- What holds while two goroutines write the frames of a stream in turn. -/
structure InTurn (s : ServerStream) (k k' : Turn) : Prop where
  good : phase s.sent ≠ .bad
  unwritten : s.headersWritten = false → phase s.sent = .start
  writing : k.headers = true ∨ k'.headers = true → s.headersWritten = true ∧ phase s.sent = .start
  single : ¬ (k.headers = true ∧ k'.headers = true)
  written : s.headersWritten = true → phase s.sent = .start →
    k.headers = true ∨ k'.headers = true ∨ s.chDown = true
  past : k.past = true ∨ k'.past = true → s.headersWritten = true
  ends : k.ends = true ∨ k'.ends = true → s.sendClosed = true
  winner : ¬ (k.ends = true ∧ k'.ends = true)
  ended : phase s.sent = .ended → s.sendClosed = true ∧ k.ends = false ∧ k'.ends = false ∧
    k.messages = false ∧ k'.messages = false

theorem InTurn.symm (h : InTurn s k k') : InTurn s k' k where
  __ := h
  writing hw := h.writing hw.symm
  single hw := h.single hw.symm
  written hw hp := by
    rcases h.written hw hp with h | h | h
    · exact .inr (.inl h)
    · exact .inl h
    · exact .inr (.inr h)
  past hp := h.past hp.symm
  ends he := h.ends he.symm
  winner hw := h.winner hw.symm
  ended hp := by
    obtain ⟨hs, h₁, h₂, h₃, h₄⟩ := h.ended hp
    exact ⟨hs, h₂, h₁, h₄, h₃⟩

theorem InTurn.of_written (hp : phase s.sent = .opened ∨ phase s.sent = .ended)
    (hw : s.headersWritten = true) (hk : k.headers = false) (ho : o.headers = false)
    (hends : k.ends = true ∨ o.ends = true → s.sendClosed = true)
    (hwinner : ¬ (k.ends = true ∧ o.ends = true))
    (hended : phase s.sent = .ended → s.sendClosed = true ∧ k.ends = false ∧ o.ends = false ∧
      k.messages = false ∧ o.messages = false) : InTurn s k o := by
  have hstart : phase s.sent ≠ .start := by rcases hp with hp | hp <;> rw [hp] <;> nofun
  refine ⟨?_, ?_, ?_, ?_, ?_, fun _ => hw, hends, hwinner, hended⟩
  · rcases hp with hp | hp <;> rw [hp] <;> nofun
  · intro hn
    rw [hw] at hn
    cases hn
  · rw [hk, ho]
    nofun
  · rw [hk]
    nofun
  · exact fun _ hx => (hstart hx).elim

theorem InTurn.phase_opened (h : InTurn s k o) (hpast : k.past = true) (hk : k.headers = false)
    (ho : o.headers = false) (hdown : s.chDown = false) (hended : phase s.sent ≠ .ended) :
    phase s.sent = .opened := by
  cases hp : phase s.sent with
  | start => simpa [hk, ho, hdown] using h.written (h.past (.inl hpast)) hp
  | opened => rfl
  | ended => exact (hended hp).elim
  | bad => exact (h.good hp).elim

theorem InTurn.step (h : InTurn s k o) (hs : FrameStep w s k s' k')
    (hfail : k.headers = true → w ≠ none → s.chDown = true)
    (hmessage : k.message = true → o.headers = false)
    (htrailers : k.trailers = true → o.headers = false ∧ o.messages = false) : InTurn s' k' o := by
  cases hs with
  | keep hsent hwritten hdown hclosed hk hk' hpast hmessages hends =>
    constructor
    · rw [hsent]
      exact h.good
    · rw [hwritten, hsent]
      exact h.unwritten
    · rw [hwritten, hsent, hk']
      exact fun hw => h.writing (.inr (hw.resolve_left nofun))
    · rw [hk']
      nofun
    · rw [hwritten, hsent, hdown]
      intro hw hp
      have := h.written hw hp
      rw [hk] at this
      exact .inr (this.resolve_left nofun)
    · rw [hwritten]
      rintro (hp | hp)
      · exact (hpast hp).elim (fun hp => h.past (.inl hp)) id
      · exact h.past (.inr hp)
    · rw [hclosed]
      exact fun he => h.ends (he.imp_left hends)
    · exact fun he => h.winner ⟨hends he.1, he.2⟩
    · rw [hsent, hclosed]
      intro hp
      obtain ⟨hc, h₁, h₂, h₃, h₄⟩ := h.ended hp
      refine ⟨hc, ?_, h₂, ?_, h₄⟩
      · rw [← Bool.not_eq_true]
        exact fun he => by simp [hends he] at h₁
      · rw [← Bool.not_eq_true]
        intro hm
        rcases hmessages hm with hm | hm
        · simp [hm] at h₃
        · simp [hc] at hm
  | claim hw hk =>
    have ho : ¬ o.headers = true := fun ho => by simp [(h.writing (.inr ho)).1] at hw
    have hstart := h.unwritten hw
    refine ⟨h.good, nofun, fun _ => ⟨rfl, hstart⟩, fun hx => ho hx.2, fun _ _ => .inl rfl,
      fun _ => rfl, h.ends, h.winner, fun hp => ?_⟩
    rw [hstart] at hp
    cases hp
  | win hc hk =>
    subst hk
    refine { h with ends := fun _ => rfl, winner := ?_, ended := ?_ }
    · rintro ⟨_, ho⟩
      rw [h.ends (.inr ho)] at hc
      cases hc
    · intro hp
      rw [(h.ended hp).1] at hc
      cases hc
  | headers hk hdown hk' hmessages hends =>
    obtain ⟨hw, hp⟩ := h.writing (.inl hk)
    have hopened : phase (s.sent ++ [s.headersFrame]) = .opened := by
      rw [phase_append, hp]
      rfl
    have ho : o.headers = false := Bool.eq_false_of_not_eq_true fun ho => h.single ⟨hk, ho⟩
    refine .of_written (.inl hopened) hw hk' ho (fun he => h.ends (he.imp_left hends))
      (fun he => h.winner ⟨hends he.1, he.2⟩) fun hx => ?_
    rw [hopened] at hx
    cases hx
  | failHeaders hk hw hk' =>
    subst hk'
    have hp := (h.writing (.inl hk)).2
    refine ⟨h.good, h.unwritten, fun hx => h.writing (hx.imp_left nofun), nofun,
      fun _ _ => .inr (.inr (hfail hk hw)), fun hx => h.past (hx.imp_left nofun),
      fun hx => h.ends (hx.imp_left nofun), nofun, fun hx => ?_⟩
    rw [hp] at hx
    cases hx
  | @message p more hk hdown =>
    subst hk
    have ho := hmessage rfl
    have hp := h.phase_opened rfl rfl ho hdown fun hp => by cases (h.ended hp).2.2.2.1
    have hopened : phase (s.sent ++ [.message p]) = .opened := by
      rw [phase_append, hp]
      rfl
    refine .of_written (.inl hopened) (h.past (.inl rfl)) rfl ho
      (fun hx => h.ends (hx.imp_left nofun)) nofun fun hx => ?_
    rw [hopened] at hx
    cases hx
  | @trailers st hk hdown =>
    subst hk
    obtain ⟨ho, hm⟩ := htrailers rfl
    have hc := h.ends (.inl rfl)
    have hp := h.phase_opened rfl rfl ho hdown fun hp => by cases (h.ended hp).2.1
    have hended : phase (s.sent ++ [s.trailersFrame st]) = .ended := by
      rw [phase_append, hp]
      rfl
    have hoe : o.ends = false := Bool.eq_false_of_not_eq_true fun he => h.winner ⟨rfl, he⟩
    exact .of_written (.inr hended) (h.past (.inl rfl)) rfl ho (fun _ => hc) nofun
      fun _ => ⟨hc, rfl, hoe, rfl, hm⟩

theorem CloseSendPc.turn_free (pc : CloseSendPc) :
    pc.turn.message = false ∧ pc.turn.messages = false ∧
      (pc.turn.headers = true → pc.turn.ends = true) := by
  cases pc with
  | headers pc => exact ⟨rfl, rfl, fun _ => rfl⟩
  | _ => exact ⟨rfl, rfl, nofun⟩

theorem DispatcherPc.turn_free (pc : DispatcherPc) :
    pc.turn.message = false ∧ pc.turn.messages = false ∧
      (pc.turn.headers = true → pc.turn.ends = true) := by
  cases pc with
  | closeSend e pc => exact pc.turn_free
  | _ => exact ⟨rfl, rfl, nofun⟩

theorem SendPc.turn_trailers (pc : SendPc) (h : pc.turn.trailers = true) : pc.turn.ends = true := by
  cases pc with
  | close e pc => cases pc <;> first | rfl | cases h
  | _ => cases h

theorem HandlerPc.turn_trailers (pc : HandlerPc) (h : pc.turn.trailers = true) :
    pc.turn.ends = true := by
  cases pc with
  | sendMsg m pc | response m pc => exact pc.turn_trailers h
  | closing err pc => cases pc <;> first | rfl | cases h
  | _ => cases h

namespace ServerState

/-- No message before the headers, no trailers inside a `SendMsg`, and no lost headers. -/
def TakesTurns (s : ServerState) : ServerAct → Prop
  | .handle a => (s.handler.turn.message = true → s.disp.turn.headers = false) ∧
      (s.handler.turn.headers = true → a.answer ≠ none → s.st.chDown = true)
  | .dispatch a => (s.disp.turn.trailers = true →
        s.handler.turn.headers = false ∧ s.handler.turn.messages = false) ∧
      (s.disp.turn.headers = true → a.answer ≠ none → s.st.chDown = true)
  | _ => True

instance (s : ServerState) : (a : ServerAct) → Decidable (s.TakesTurns a)
  | .dispatch _ => inferInstanceAs (Decidable ((_ = _ → _ = _ ∧ _ = _) ∧ (_ = _ → _ ≠ _ → _ = _)))
  | .handle _ => inferInstanceAs (Decidable ((_ = _ → _ = _) ∧ (_ = _ → _ ≠ _ → _ = _)))
  | .read _ | .lookup | .enter _ | .ctxDone _ | .chanDown | .chanClose _ => .isTrue trivial

theorem inTurn_handle {s s' : ServerState} (h : InTurn s.st s.handler.turn s.disp.turn)
    (hs : HandleStep kind s.st s.handler a s'.st s'.handler) (hok : s.TakesTurns (.handle a))
    (hdisp : s'.disp = s.disp) : InTurn s'.st s'.handler.turn s'.disp.turn := by
  obtain ⟨_, hmessages, hheaders⟩ := s.disp.turn_free
  rw [hdisp]
  refine h.step hs.frame hok.2 hok.1 fun ht => ⟨?_, hmessages⟩
  have hends := s.handler.turn_trailers ht
  exact Bool.eq_false_of_not_eq_true fun hh => h.winner ⟨hends, hheaders hh⟩

theorem inTurn_dispatch {s s' : ServerState} (h : InTurn s.st s.handler.turn s.disp.turn)
    (hs : DispatchStep s.st s.disp a s'.st s'.disp) (hok : s.TakesTurns (.dispatch a))
    (hhandler : s'.handler = s.handler) : InTurn s'.st s'.handler.turn s'.disp.turn := by
  rw [hhandler]
  refine (h.symm.step hs.frame hok.2 (fun hm => ?_) hok.1).symm
  rw [s.disp.turn_free.1] at hm
  cases hm

end ServerState

theorem RequestStep.turn (h : RequestStep s outcome t s' pc) :
    pc.turn = {} ∧ s'.sent = s.sent ∧ s'.headersWritten = s.headersWritten ∧
      s'.chDown = s.chDown := by
  cases h <;> exact ⟨rfl, rfl, rfl, rfl⟩

theorem ServerState.handlerAfter_turn {s : ServerState} (h : s.Sound) (st' : ServerStream) :
    (s.handlerAfter st').turn = s.handler.turn := by
  unfold handlerAfter
  split
  · rename_i hr
    simp only [Bool.and_eq_true, Bool.not_eq_true'] at hr
    rw [h.started.2 hr.2]
    rfl
  · rfl

theorem InTurn.of_eq (h : InTurn s k o) (hsent : s'.sent = s.sent)
    (hwritten : s'.headersWritten = s.headersWritten) (hclosed : s'.sendClosed = s.sendClosed)
    (hdown : s.chDown = true → s'.chDown = true) : InTurn s' k o := by
  constructor
  · rw [hsent]
    exact h.good
  · rw [hwritten, hsent]
    exact h.unwritten
  · rw [hwritten, hsent]
    exact h.writing
  · exact h.single
  · rw [hwritten, hsent]
    exact fun hw hp => (h.written hw hp).imp_right (.imp_right hdown)
  · rw [hwritten]
    exact h.past
  · rw [hclosed]
    exact h.ends
  · exact h.winner
  · rw [hsent, hclosed]
    exact h.ended

theorem ServerState.inTurn_step {s s' : ServerState} (h : InTurn s.st s.handler.turn s.disp.turn)
    (hsound : s.Sound) (hok : s.TakesTurns a) (hs : ServerStep kind s a s') :
    InTurn s'.st s'.handler.turn s'.disp.turn := by
  cases hs with
  | lookup | discard => exact h
  | enter ht hr =>
    obtain ⟨hturn, hsent, hwritten, hdown⟩ := hr.turn
    have hidle := hsound.found (by rw [ht]; nofun)
    simp only [handlerAfter_turn hsound, hturn]
    rw [hidle] at h
    exact h.of_eq hsent hwritten hr.wins.2 (hdown ▸ id)
  | dispatch hd => exact inTurn_dispatch h hd hok rfl
  | call hh | returns hh | handle hh => exact inTurn_handle h hh hok rfl
  | read | ctxDone | chanClose => exact h.of_eq rfl rfl rfl id
  | chanDown => exact h.of_eq rfl rfl rfl fun _ => rfl

theorem ServerState.inTurn {s : ServerState} (h : (serverMachine kind).ReachableWith TakesTurns s) :
    InTurn s.st s.handler.turn s.disp.turn := by
  induction h with
  | init hi =>
    obtain ⟨h, inbox, rfl⟩ := hi
    exact ⟨nofun, fun _ => rfl, nofun, nofun, nofun, nofun, nofun, nofun, nofun⟩
  | step hr hok hs ih => exact inTurn_step ih (sound hr) hok (serverStep_step hs)

/-- As long as the handler and the dispatcher take turns, the response frames are one headers
frame, then messages, then one trailers frame. -/
theorem responseFrames_grammatical {s : ServerState}
    (h : (serverMachine kind).ReachableWith ServerState.TakesTurns s) : Grammatical s.st.sent :=
  (grammatical_iff _).2 (ServerState.inTurn h).good

def oneMessageRun : List ServerAct :=
  ([.enter .accepted, .handle (.call (.sendMsg (.ok [])))] : List ServerAct) ++
    (List.replicate 7 (.handle (.step none)) : List ServerAct) ++
    ([.handle (.returns .nil)] : List ServerAct) ++
    (List.replicate 14 (.handle (.step none)) : List ServerAct)

theorem responseFrames_grammatical_one :
    ∃ s, (serverMachine .stream).Reachable s ∧ s.handler = .finished ∧
      phase s.st.sent = .ended ∧ Grammatical s.st.sent := by
  obtain ⟨s, hr, hfinished, hended⟩ : ∃ s,
      (serverMachine .stream).ReachableWith ServerState.TakesTurns s ∧ s.handler = .finished ∧
      phase s.st.sent = .ended :=
    (serverMachine .stream).exists_reachableWith ServerState.TakesTurns
      { found := some (.headers ⟨"m", none, 0⟩) } oneMessageRun ⟨_, _, rfl⟩ (by decide)
  exact ⟨s, hr.reachable, hfinished, hended, responseFrames_grammatical hr⟩

def overtakeRun : List ServerAct :=
  ([.enter .accepted, .handle (.call (.sendMsg (.ok [7]))), .handle (.step none),
    .handle (.step none), .lookup, .enter .accepted] : List ServerAct) ++
    (List.replicate 5 (.dispatch (.step none)) : List ServerAct)

theorem responseFrames_overtaken :
    ∃ s, (serverMachine .stream).Reachable s ∧
      s.st.sent = [.trailers (some ⟨.canceled, "request cancelled"⟩) none] ∧
      ¬ Grammatical s.st.sent := by
  obtain ⟨s, hr, hsent⟩ : ∃ s, (serverMachine .stream).Reachable s ∧
      s.st.sent = [.trailers (some ⟨.canceled, "request cancelled"⟩) none] :=
    (serverMachine .stream).exists_reachable
      { found := some (.headers ⟨"m", none, 0⟩), inbox := [.rstStream true] } overtakeRun
      ⟨_, _, rfl⟩ (by decide)
  refine ⟨s, hr, hsent, ?_⟩
  rw [grammatical_iff, hsent]
  exact fun h => h rfl

end Goutils.Rpc
