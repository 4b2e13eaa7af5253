import Goutils.Rpc.ServerMachine
import Goutils.Rpc.ClientMachine

namespace Goutils.Rpc
open Lib
open Lib.Wire (Bytes)
set_option autoImplicit true

def GoErr.notEof (e : GoErr) : Bool := !e.is .eof && !e.is .errExpectedClosure

def ClosePc.unrecorded : ClosePc → Bool
  | .recv .wait | .recv .close | .record => true
  | _ => false

variable {b b' : BaseStream τ}

namespace CloseStep

variable {err : Option GoErr} {expected : Bool} {pc pc' : ClosePc}
  (h : CloseStep err expected b pc b' pc')

include h

theorem recvClosed (hr : b'.recvClosed = true) :
    b.recvClosed = true ∨ (pc = .recv .cas ∧ pc'.unrecorded = true) := by
  cases h with
  | recv h =>
    cases h with
    | first => exact .inr ⟨rfl, rfl⟩
    | _ => exact .inl hr
  | _ => exact .inl hr

theorem unrecorded (hp : pc.unrecorded = true) :
    pc'.unrecorded = true ∨ b'.err = recordedErr err expected b.err := by
  cases h with
  | recv h =>
    cases h with
    | again | first => cases hp
    | waited | close => exact .inl rfl
  | record => exact .inr rfl
  | _ => cases hp

theorem errOr : b'.err = b.err ∨ b'.err = recordedErr err expected b.err := by
  cases h with
  | recv h => cases h <;> exact .inl rfl
  | record => exact .inr rfl
  | _ => exact .inl rfl

end CloseStep

theorem CloseRecvStep.err (h : CloseRecvStep b pc b' pc') : b'.err = b.err := by
  cases h <;> rfl

theorem DeliverStep.err (h : DeliverStep data b pc a b' res) :
    b'.err = b.err ∧ b'.recvClosed = b.recvClosed := by
  cases h <;> exact ⟨rfl, rfl⟩

theorem RecvStep.err (h : RecvStep b pc a b' pc' r) :
    b'.err = b.err ∧ b'.recvClosed = b.recvClosed := by
  rcases h.base with rfl | rfl <;> exact ⟨rfl, rfl⟩

theorem lastErr_eof (h : (lastErr err origErr).is .eof = true) :
    err = none ∨ ∃ e, err = some e ∧ e.notEof = false := by
  cases err with
  | none => exact .inl rfl
  | some e =>
    refine .inr ⟨e, rfl, ?_⟩
    simp only [lastErr] at h
    split at h
    · rename_i he
      simp [GoErr.notEof, he]
    · simp [GoErr.notEof, h]

theorem RecvStep.eof (h : RecvStep b pc a b' pc' r) (hr : r = some (.err e))
    (he : e.is .eof = true) :
    b.mu.canLock = true ∧ (∃ origErr, pc = .lock origErr) ∧
      (b.err = none ∨ ∃ e, b.err = some e ∧ e.notEof = false) := by
  cases h with
  | @empty origErr =>
    cases origErr with
    | none => cases hr
    | some c =>
      cases hr
      cases he
  | lock hm =>
    cases hr
    exact ⟨hm, ⟨_, rfl⟩, lastErr_eof he⟩
  | _ => cases hr

def CloseSendPc.closesNil (pc : CloseSendPc) : Bool := pc = .close (.recv .cas)

def SendPc.closesNil : SendPc → Bool
  | .close _ pc => pc.closesNil
  | _ => false

def HandlerPc.closesNil : HandlerPc → Bool
  | .sendMsg _ pc | .response _ pc | .closing _ pc => pc.closesNil
  | _ => false

def DispatcherPc.closesNil : DispatcherPc → Bool
  | .closeSend _ pc => pc.closesNil
  | _ => false

/-- No error is recorded, and `recvClosed` is set only by a close with a nil error. -/
def ServerStream.Quiet (s : ServerStream) (closesNil : Bool) (s' : ServerStream) : Prop :=
  s'.base.err = s.base.err ∧
    (s'.base.recvClosed = true → s.base.recvClosed = true ∨ closesNil = true)

variable {s s' : ServerStream}

theorem CloseSendStep.quiet (h : CloseSendStep me err w s pc s' pc') : s.Quiet pc.closesNil s' := by
  cases h with
  | headers h => exact ⟨by rw [h.base], fun hr => .inl (by rwa [h.base] at hr)⟩
  | close h =>
    refine ⟨?_, fun hr => ?_⟩
    · rcases h.errOr with he | he <;> exact he
    · rcases h.recvClosed hr with hr | ⟨rfl, _⟩
      · exact .inl hr
      · exact .inr rfl
  | _ => exact ⟨rfl, .inl⟩

theorem SendStep.quiet (h : SendStep m w s pc s' pc') : s.Quiet pc.closesNil s' := by
  cases h with
  | headers h => exact ⟨by rw [h.base], fun hr => .inl (by rwa [h.base] at hr)⟩
  | close h => exact h.quiet
  | _ => exact ⟨rfl, .inl⟩

theorem HandleStep.quiet (h : HandleStep kind s pc a s' pc') : s.Quiet pc.closesNil s' := by
  cases h with
  | headers h => exact ⟨by rw [h.base], fun hr => .inl (by rwa [h.base] at hr)⟩
  | send h | response h | close h => exact h.quiet
  | _ => exact ⟨rfl, .inl⟩

def DispatcherPc.endsRecv : DispatcherPc → Bool
  | .lockRecv | .closeRecv _ => true
  | _ => false

def DispatcherPc.unrecorded : DispatcherPc → Bool
  | .closeErr _ pc => pc.unrecorded
  | _ => false

def DispatcherPc.recording : DispatcherPc → Bool
  | .closeErr _ .record => true
  | _ => false

def RecvPc.locks : RecvPc → Bool
  | .lock _ => true
  | _ => false

theorem RecvStep.locks (h : RecvStep b pc a b' pc' r) (hl : pc'.locks = true) :
    b'.msgCh.closed = true := by
  cases h with
  | lastClosed _ hc => exact hc
  | _ => cases hl

/-- Nothing closes `msgCh` with a nil error before the client has ended its side. -/
def ServerState.EndsCleanly (s : ServerState) : ServerAct → Prop
  | .dispatch _ => s.disp.closesNil = true → s.st.base.recvClosed = true
  | .handle _ => s.handler.closesNil = true → s.st.base.recvClosed = true
  | .read _ => s.reader.locks = true → s.disp.recording = false
  | _ => True

instance (s : ServerState) : (a : ServerAct) → Decidable (s.EndsCleanly a)
  | .dispatch _ | .handle _ | .read _ => inferInstanceAs (Decidable (_ = _ → _ = _))
  | .lookup | .enter _ | .ctxDone _ | .chanDown | .chanClose _ => .isTrue trivial

namespace ServerState

structure EndInv (s : ServerState) : Prop where
  eos : s.disp.endsRecv = true → s.eosSeen = true
  violation : ∀ e pc, s.disp = .closeErr e pc → e.notEof = true
  err : ∀ e, s.st.base.err = some e → e.notEof = true
  recv : s.st.base.recvClosed = true →
    s.eosSeen = true ∨ s.st.base.err ≠ none ∨ s.disp.unrecorded = true
  locked : s.reader.locks = true → s.st.base.msgCh.closed = true
  result : ∀ e, .err e ∈ s.results → e.is .eof = true → s.eosSeen = true

theorem EndInv.init {s : ServerState} (h : (serverMachine kind).init s) : s.EndInv := by
  obtain ⟨h, inbox, rfl⟩ := h
  exact ⟨nofun, nofun, nofun, nofun, nofun, nofun⟩

end ServerState

theorem DispatchStep.ends (h : DispatchStep s pc a s' pc')
    (hok : pc.closesNil = true → s.base.recvClosed = true) :
    (s'.base.err = s.base.err ∨ ∃ e q, pc = .closeErr e q ∧ s'.base.err = some e) ∧
      (s'.base.recvClosed = true → s.base.recvClosed = true ∨ pc'.endsRecv = true ∨
        pc'.unrecorded = true) ∧
      (pc.unrecorded = true → pc'.unrecorded = true ∨ s'.base.err ≠ none) ∧
      (pc'.endsRecv = true → pc.endsRecv = true ∨ pc'.atEos = true) ∧
      (∀ e q, pc' = .closeErr e q → ∃ q, pc = .closeErr e q) := by
  cases h with
  | @deliver data pc _ _ res eos h =>
    refine ⟨.inl h.err.1, fun hr => .inl (h.err.2 ▸ hr), nofun, ?_, ?_⟩
    · intro he
      rcases res with _ | _ | _
      · cases he
      · cases he
      · cases eos with
        | false => cases he
        | true => exact .inr rfl
    · intro e q he
      rcases res with _ | _ | _
      · cases he
      · cases he
      · cases eos <;> cases he
  | lockRecv => exact ⟨.inl rfl, .inl, nofun, fun _ => .inl rfl, nofun⟩
  | unlockRecv | closedErr | closedSend => exact ⟨.inl rfl, .inl, nofun, nofun, nofun⟩
  | closeRecv h => exact ⟨.inl h.err, fun _ => .inr (.inl rfl), nofun, fun _ => .inl rfl, nofun⟩
  | @closeErr e pc _ pc' h =>
    refine ⟨?_, ?_, ?_, nofun, ?_⟩
    · exact h.errOr.imp id fun he => ⟨e, pc, rfl, he⟩
    · intro hr
      exact (h.recvClosed hr).imp id fun ⟨_, hu⟩ => .inr hu
    · intro hu
      exact (h.unrecorded hu).imp id fun he => by rw [he]; nofun
    · intro e' q he
      cases he
      exact ⟨pc, rfl⟩
  | closeSend h =>
    obtain ⟨herr, hrecv⟩ := h.quiet
    exact ⟨.inl herr, fun hr => .inl ((hrecv hr).elim id hok), nofun, nofun, nofun⟩

theorem RequestStep.ends (h : RequestStep s outcome t s' pc) :
    (pc.endsRecv = true → pc.atEos = true) ∧ ∀ e q, pc = .closeErr e q → e.notEof = true := by
  cases h with
  | nilPacket =>
    refine ⟨nofun, fun e q he => ?_⟩
    cases he
    rfl
  | eos => exact ⟨fun _ => rfl, nofun⟩
  | _ => exact ⟨nofun, nofun⟩

namespace ServerState.EndInv

variable {s s' : ServerState} {st : ServerStream} {base : BaseStream Goroutine}
  {disp : DispatcherPc} {handler : HandlerPc} {reader : RecvPc} (h : s.EndInv)

include h

theorem handle (hs : HandleStep kind s.st s.handler a st handler)
    (hok : s.handler.closesNil = true → s.st.base.recvClosed = true) :
    EndInv { s with st, handler } := by
  obtain ⟨herr, hrecv⟩ := hs.quiet
  refine { h with err := ?_, recv := ?_, locked := ?_ }
  · simp only [herr]
    exact h.err
  · intro hr
    simp only [herr]
    exact h.recv ((hrecv hr).elim id hok)
  · exact fun hl => hs.chanStep.closed (h.locked hl)

theorem dispatch (hs : DispatchStep s.st s.disp a st disp)
    (hok : s.disp.closesNil = true → s.st.base.recvClosed = true) :
    EndInv { s with st, disp, eosSeen := s.eosSeen || disp.atEos } := by
  obtain ⟨herr, hrecv, hunrec, hends, hviol⟩ := hs.ends hok
  have heos (he : s.eosSeen = true) : (s.eosSeen || disp.atEos) = true := by rw [he, Bool.true_or]
  have hends' (he : disp.endsRecv = true) : (s.eosSeen || disp.atEos) = true := by
    rcases hends he with he | he
    · exact heos (h.eos he)
    · rw [he, Bool.or_true]
  refine ⟨hends', ?_, ?_, ?_, ?_, ?_⟩
  · intro e pc he
    obtain ⟨q, hq⟩ := hviol e pc he
    exact h.violation e q hq
  · intro e he
    rcases herr with herr | ⟨e', q, hq, herr⟩
    · exact h.err e (herr ▸ he)
    · rw [herr] at he
      cases he
      exact h.violation e q hq
  · intro hr
    rcases hrecv hr with hr | hr | hr
    · rcases h.recv hr with he | he | he
      · exact .inl (heos he)
      · refine .inr (.inl ?_)
        rcases herr with herr | ⟨e', q, _, herr⟩
        · rwa [herr]
        · rw [herr]
          nofun
      · exact .inr (hunrec he).symm
    · exact .inl (hends' hr)
    · exact .inr (.inr hr)
  · exact fun hl => hs.msgCh_closed (h.locked hl)
  · exact fun e he heof => heos (h.result e he heof)

theorem enter (hs : RequestStep s.st outcome t st disp) (hidle : s.disp = .idle) :
    EndInv { s with st, disp, eosSeen := s.eosSeen || disp.atEos } := by
  obtain ⟨hends, hviol⟩ := hs.ends
  obtain ⟨buf, hbuf⟩ := hs.base
  have heos (he : s.eosSeen = true) : (s.eosSeen || disp.atEos) = true := by rw [he, Bool.true_or]
  refine ⟨?_, hviol, ?_, ?_, ?_, ?_⟩
  · intro he
    simp only [hends he, Bool.or_true]
  · simp only [hbuf]
    exact h.err
  · intro hr
    simp only [hbuf] at hr ⊢
    rcases h.recv hr with he | he | he
    · exact .inl (heos he)
    · exact .inr (.inl he)
    · rw [hidle] at he
      cases he
  · simp only [hbuf]
    exact h.locked
  · exact fun e he heof => heos (h.result e he heof)

theorem recorded (hsound : s.Sound) (hlocks : s.reader.locks = true)
    (hrec : s.disp.recording = false) :
    s.eosSeen = true ∨ s.st.base.err ≠ none := by
  have hclosed := h.locked hlocks
  have hle := recv_le hsound
  have hsum := hsound.recv
  rw [hclosed, Bool.toNat_true] at hle hsum
  have hr : s.st.base.recvClosed = true := by
    cases hr : s.st.base.recvClosed with
    | true => rfl
    | false => simp [hr] at hsum
  rcases h.recv hr with he | he | he
  · exact .inl he
  · exact .inr he
  · cases hd : s.disp with
    | closeErr e pc =>
      rw [hd] at he hrec hle
      cases pc with
      | recv pc => cases pc <;> simp_all [DispatcherPc.wins, ClosePc.wins, CloseRecvPc.wins,
          DispatcherPc.unrecorded, ClosePc.unrecorded]
      | record => cases hrec
      | _ => cases he
    | _ =>
      rw [hd] at he
      cases he

theorem read (hsound : s.Sound) (hs : RecvStep s.st.base s.reader a base reader r)
    (hok : s.reader.locks = true → s.disp.recording = false) :
    EndInv { s with st := { s.st with base }, reader, results := s.results ++ r.toList } := by
  obtain ⟨herr, hrecv⟩ := hs.err
  refine { h with err := ?_, recv := ?_, locked := hs.locks, result := ?_ }
  · simp only [herr]
    exact h.err
  · simp only [hrecv, herr]
    exact h.recv
  · intro e he heof
    rcases List.mem_append.1 he with he | he
    · exact h.result e he heof
    · obtain ⟨_, ⟨o, hpc⟩, hlast⟩ := hs.eof (Option.mem_toList.1 he) heof
      have hlocks : s.reader.locks = true := by rw [hpc]; rfl
      rcases h.recorded hsound hlocks (hok hlocks) with he | he
      · exact he
      · rcases hlast with hn | ⟨e', he', hne⟩
        · exact (he hn).elim
        · rw [h.err e' he'] at hne
          cases hne

theorem step (hsound : s.Sound) (hok : s.EndsCleanly a) (hs : ServerStep kind s a s') :
    s'.EndInv := by
  cases hs with
  | enter ht hr => exact { h.enter hr (hsound.found (by rw [ht]; nofun)) with }
  | dispatch hd => exact h.dispatch hd hok
  | call hh | returns hh | handle hh => exact { h.handle hh hok with }
  | read _ hr => exact h.read hsound hr hok
  | _ => exact { h with }

end ServerState.EndInv

theorem ServerState.endInv {s : ServerState}
    (h : (serverMachine kind).ReachableWith EndsCleanly s) : s.EndInv := by
  induction h with
  | init hi => exact .init hi
  | step hr hok hs ih => exact ih.step (sound hr) hok (serverStep_step hs)

def ResponsePc.unrecorded : ResponsePc → Bool
  | .violation _ pc | .closeTrailers _ pc => pc.unrecorded
  | _ => false

def ResponsePc.recording : ResponsePc → Bool
  | .violation _ .record => true
  | _ => false

def CloserPc.unrecorded : CloserPc → Bool
  | .closing (some _) _ pc => pc.unrecorded
  | _ => false

def CloserPc.closesNil : CloserPc → Bool
  | .closing none _ (.recv .cas) => true
  | _ => false

/-- Nothing closes `msgCh` with a nil error before the trailers, or with `io.EOF`. -/
def ClientState.EndsCleanly (s : ClientState) : ClientAct → Prop
  | .closer i w => (s.closers[i]?.any CloserPc.closesNil = true → s.cs.base.recvClosed = true) ∧
      w.all GoErr.notEof = true
  | .read _ => s.reader.locks = true → s.disp.recording = false
  | _ => True

instance (s : ClientState) : (a : ClientAct) → Decidable (s.EndsCleanly a)
  | .closer _ _ => inferInstanceAs (Decidable ((_ = _ → _ = _) ∧ _ = _))
  | .read _ => inferInstanceAs (Decidable (_ = _ → _ = _))
  | .lookup | .enter | .respond _ | .start _ | .ctxDone _ => .isTrue trivial

def CloserPc.Quiet : CloserPc → Prop
  | .write mode => mode ≠ .free
  | .closing err mode _ => mode ≠ .free ∧ ∀ e, err = some e → e.notEof = true
  | _ => True

theorem checkWriteErr_some (h : checkWriteErrForStreamClose w = some e) : w = some e := by
  unfold checkWriteErrForStreamClose at h
  split at h
  · cases h
  · exact h

theorem CloserStep.quiet {s s' : ClientStream} (h : CloserStep me w s pc s' pc') (hq : pc.Quiet)
    (hw : w.all GoErr.notEof = true) : pc'.Quiet := by
  have hwrite (e : GoErr) (he : checkWriteErrForStreamClose w = some e) : e.notEof = true := by
    rw [checkWriteErr_some he] at hw
    exact hw
  cases h with
  | cancel => exact ⟨nofun, nofun⟩
  | writeReset => exact ⟨nofun, hwrite⟩
  | lockHeaders | lockMessage | rlockMessage => exact nofun
  | failed he =>
    refine ⟨hq, fun e h => ?_⟩
    cases h
    exact hwrite _ he
  | close => exact hq
  | _ => trivial

theorem CloserStep.ends {s s' : ClientStream} (h : CloserStep me w s pc s' pc') (hq : pc.Quiet)
    (hok : pc.closesNil = true → s.base.recvClosed = true) :
    (s'.base.err = s.base.err ∨ ∃ e, s'.base.err = some e ∧ e.notEof = true) ∧
      (s'.base.recvClosed = true → s.base.recvClosed = true ∨ pc'.unrecorded = true) ∧
      (pc.unrecorded = true → pc'.unrecorded = true ∨ s'.base.err ≠ none) := by
  cases h with
  | @close err pc b pc' mode h =>
    cases err with
    | none =>
      refine ⟨?_, fun hr => ?_, nofun⟩
      · rcases h.errOr with he | he <;> exact .inl he
      · rcases h.recvClosed hr with hr | ⟨rfl, _⟩
        · exact .inl hr
        · exact .inl (hok rfl)
    | some e =>
      refine ⟨?_, fun hr => ?_, fun hu => ?_⟩
      · exact h.errOr.imp id fun he => ⟨e, he, hq.2 e rfl⟩
      · exact (h.recvClosed hr).imp id And.right
      · exact (h.unrecorded hu).imp id fun he => by rw [he]; nofun
  | @release err => cases err <;> exact ⟨.inl rfl, .inl, nofun⟩
  | _ => exact ⟨.inl rfl, .inl, nofun⟩

theorem RespondStep.ends {s s' : ClientStream} (h : RespondStep s pc a s' pc') :
    (s'.base.err = s.base.err ∨ (∃ e q, pc = .violation e q ∧ s'.base.err = some e) ∨
      ∃ err q, pc = .closeTrailers err q ∧ s'.base.err = some (err.getD .errExpectedClosure)) ∧
      (s'.base.recvClosed = true → s.base.recvClosed = true ∨ pc'.unrecorded = true) ∧
      (pc.unrecorded = true → pc'.unrecorded = true ∨ s'.base.err ≠ none) := by
  cases h with
  | deliver h => exact ⟨.inl h.err.1, fun hr => .inl (h.err.2 ▸ hr), nofun⟩
  | @violation e pc _ _ h =>
    refine ⟨?_, fun hr => ?_, fun hu => ?_⟩
    · exact h.errOr.imp id fun he => .inl ⟨e, pc, rfl, he⟩
    · exact (h.recvClosed hr).imp id And.right
    · exact (h.unrecorded hu).imp id fun he => by rw [he]; nofun
  | @closeTrailers err pc _ _ h =>
    have hrec (old : Option GoErr) :
        recordedErr err err.isNone old = some (err.getD .errExpectedClosure) := by
      cases err <;> rfl
    refine ⟨?_, fun hr => ?_, fun hu => ?_⟩
    · exact h.errOr.imp id fun he => .inr ⟨err, pc, rfl, he.trans (hrec _)⟩
    · exact (h.recvClosed hr).imp id And.right
    · exact (h.unrecorded hu).imp id fun he => by rw [he, hrec]; nofun
  | _ => exact ⟨.inl rfl, .inl, nofun⟩

theorem RespondStep.errs {s s' : ClientStream} (h : RespondStep s pc a s' pc') :
    (∀ e q, pc' = .violation e q → ∃ q, pc = .violation e q) ∧
      ∀ err q, pc' = .closeTrailers err q → (∃ q, pc = .closeTrailers err q) ∨
        (q = .cas ∧ ∃ st, err = statusErr st) := by
  cases h with
  | @deliver _ _ _ _ res h => cases res <;> exact ⟨nofun, nofun⟩
  | @violation e pc _ _ h =>
    refine ⟨fun e' q he => ?_, nofun⟩
    cases he
    exact ⟨pc, rfl⟩
  | @lockTrailers st md h =>
    refine ⟨nofun, fun err q he => ?_⟩
    cases he
    exact .inr ⟨rfl, st, rfl⟩
  | @closeTrailers err pc _ _ h =>
    refine ⟨nofun, fun err' q he => ?_⟩
    cases he
    exact .inl ⟨pc, rfl⟩
  | _ => exact ⟨nofun, nofun⟩

theorem RespondStep.msgCh_closed {s s' : ClientStream} (h : RespondStep s pc a s' pc')
    (hc : s.base.msgCh.closed = true) : s'.base.msgCh.closed = true := by
  cases h with
  | deliver h =>
    rcases h.msgCh with h | h
    · rw [h, hc]
    · rw [h, Chan.send_closed, hc]
  | violation h | closeTrailers h =>
    rcases h.msgCh with h | h
    · rw [h, hc]
    · rw [h, Chan.close_closed]
  | _ => exact hc

theorem CloserStep.msgCh_closed {s s' : ClientStream} (h : CloserStep me w s pc s' pc')
    (hc : s.base.msgCh.closed = true) : s'.base.msgCh.closed = true := by
  cases h with
  | close h =>
    rcases h.msgCh with h | h
    · rw [h, hc]
    · rw [h, Chan.close_closed]
  | _ => exact hc

theorem statusErr_notEof {st : Option Status} (h : statusErr st = some e) : e.notEof = true := by
  unfold statusErr at h
  split at h
  · cases h
  · obtain ⟨s, _, rfl⟩ := Option.map_eq_some_iff.1 h
    rfl

theorem ClientStream.onResponse_violation {s : ClientStream} {t : ResponseType}
    (h : (s.onResponse t).2 = .violation e pc) : e.notEof = true := by
  cases t with
  | headers md =>
    simp only [onResponse] at h
    split at h
    · cases h
      rfl
    · split at h <;> cases h
      rfl
  | message p =>
    simp only [onResponse] at h
    split at h
    · split at h
      · cases h
        rfl
      · cases hd : (processPacket s.base.packetBuf p).2 <;> simp [hd, ResponsePc.ofPacket] at h
    · cases h
      rfl
  | _ => cases h

theorem ClientStream.onResponse_not_closing (s : ClientStream) (t : ResponseType)
    (h : (s.onResponse t).2 = .closeTrailers err pc) : False := by
  have hm := (s.onResponse_free t).1
  rw [h] at hm
  cases hm

variable {s : ClientState}

namespace ClientState

structure EndInv (s : ClientState) : Prop where
  trailers : ∀ pc, s.disp = .closeTrailers none pc → s.okTrailers = true
  status : ∀ e pc, s.disp = .closeTrailers (some e) pc → e.notEof = true
  violation : ∀ e pc, s.disp = .violation e pc → e.notEof = true
  closers : ∀ pc ∈ s.closers, pc.Quiet
  err : ∀ e, s.cs.base.err = some e → e.notEof = true ∨ s.okTrailers = true
  recv : s.cs.base.recvClosed = true → s.cs.base.err ≠ none ∨ s.disp.unrecorded = true ∨
    ∃ pc ∈ s.closers, pc.unrecorded = true
  locked : s.reader.locks = true → s.cs.base.msgCh.closed = true
  result : ∀ e, .err e ∈ s.results → e.is .eof = true → s.okTrailers = true

theorem EndInv.init {id : UInt64} (h : (clientMachine id).init s) : s.EndInv := by
  obtain ⟨inbox, rfl⟩ := h
  refine ⟨nofun, nofun, nofun, ?_, nofun, nofun, nofun, nofun⟩
  intro pc hpc
  rw [List.mem_singleton.1 hpc]
  trivial

end ClientState

namespace ClientState.EndInv

variable {s' : ClientState} {cs : ClientStream} {base : BaseStream ClientGoroutine}
  {disp : ResponsePc} {reader : RecvPc} (h : s.EndInv)

include h

theorem respond (hs : RespondStep s.cs s.disp a cs disp) :
    EndInv { s with cs, disp, okTrailers := s.okTrailers || disp.atOkTrailers } := by
  obtain ⟨herr, hrecv, hunrec⟩ := hs.ends
  obtain ⟨hviol, htrail⟩ := hs.errs
  have hok (he : s.okTrailers = true) : (s.okTrailers || disp.atOkTrailers) = true := by
    rw [he, Bool.true_or]
  refine { h with
    trailers := ?_, status := ?_, violation := ?_, err := ?_, recv := ?_, locked := ?_
    result := ?_ }
  · intro pc hd
    rcases htrail none pc hd with ⟨q, hq⟩ | ⟨rfl, _⟩
    · exact hok (h.trailers q hq)
    · simp only [show disp = _ from hd]
      exact Bool.or_true _
  · intro e pc hd
    rcases htrail (some e) pc hd with ⟨q, hq⟩ | ⟨_, st, hst⟩
    · exact h.status e q hq
    · exact statusErr_notEof hst.symm
  · intro e pc hd
    obtain ⟨q, hq⟩ := hviol e pc hd
    exact h.violation e q hq
  · intro e he
    rcases herr with herr | ⟨e', q, hq, herr⟩ | ⟨err, q, hq, herr⟩
    · exact (h.err e (herr ▸ he)).imp id hok
    · rw [herr] at he
      cases he
      exact .inl (h.violation e q hq)
    · rw [herr] at he
      cases he
      cases err with
      | none => exact .inr (hok (h.trailers q hq))
      | some e => exact .inl (h.status e q hq)
  · intro hr
    have hkeep (he : s.cs.base.err ≠ none) : cs.base.err ≠ none := by
      rcases herr with herr | ⟨_, _, _, herr⟩ | ⟨_, _, _, herr⟩
      · rwa [herr]
      · rw [herr]
        nofun
      · rw [herr]
        nofun
    rcases hrecv hr with hr | hr
    · rcases h.recv hr with he | he | he
      · exact .inl (hkeep he)
      · exact (hunrec he).elim (fun h => .inr (.inl h)) .inl
      · exact .inr (.inr he)
    · exact .inr (.inl hr)
  · exact fun hl => hs.msgCh_closed (h.locked hl)
  · exact fun e he heof => hok (h.result e he heof)

theorem closer (hi : s.closers[i]? = some pc) (hs : CloserStep (.closer i) w s.cs pc cs pc')
    (hok : s.EndsCleanly (.closer i w)) :
    EndInv { s with cs, closers := s.closers.set i pc' } := by
  obtain ⟨hnil, hw⟩ := hok
  rw [hi] at hnil
  have hq := h.closers pc (List.mem_of_getElem? hi)
  obtain ⟨herr, hrecv, hunrec⟩ := hs.ends hq hnil
  have hmem : pc' ∈ s.closers.set i pc' := List.mem_set (List.getElem?_eq_some_iff.1 hi).1 pc'
  refine { h with closers := ?_, err := ?_, recv := ?_, locked := ?_ }
  · intro q hq'
    rcases List.mem_or_eq_of_mem_set hq' with hq' | rfl
    · exact h.closers q hq'
    · exact hs.quiet hq hw
  · intro e he
    rcases herr with herr | ⟨e', herr, hne⟩
    · exact h.err e (herr ▸ he)
    · rw [herr] at he
      cases he
      exact .inl hne
  · intro hr
    have hkeep (he : s.cs.base.err ≠ none) : cs.base.err ≠ none := by
      rcases herr with herr | ⟨_, herr, _⟩
      · rwa [herr]
      · rw [herr]
        nofun
    rcases hrecv hr with hr | hr
    · rcases h.recv hr with he | he | ⟨q, hq, he⟩
      · exact .inl (hkeep he)
      · exact .inr (.inl he)
      · obtain ⟨j, hj⟩ := List.mem_iff_getElem?.1 hq
        by_cases hij : i = j
        · subst hij
          rw [hi] at hj
          cases hj
          exact (hunrec he).elim (fun h => .inr (.inr ⟨pc', hmem, h⟩)) .inl
        · refine .inr (.inr ⟨q, ?_, he⟩)
          apply List.mem_of_getElem?
          rw [List.getElem?_set_ne hij, hj]
    · exact .inr (.inr ⟨pc', hmem, hr⟩)
  · exact fun hl => hs.msgCh_closed (h.locked hl)

theorem enter (hidle : s.disp = .idle) (t : ResponseType) :
    EndInv { s with cs := (s.cs.onResponse t).1, disp := (s.cs.onResponse t).2 } := by
  obtain ⟨buf, hbuf⟩ := s.cs.onResponse_base t
  refine { h with
    trailers := ?_, status := ?_, violation := ?_, err := ?_, recv := ?_, locked := ?_ }
  · exact fun pc hd => (s.cs.onResponse_not_closing t hd).elim
  · exact fun e pc hd => (s.cs.onResponse_not_closing t hd).elim
  · exact fun e pc hd => ClientStream.onResponse_violation hd
  · simp only [hbuf]
    exact h.err
  · intro hr
    simp only [hbuf] at hr ⊢
    rcases h.recv hr with he | he | he
    · exact .inl he
    · rw [hidle] at he
      cases he
    · exact .inr (.inr he)
  · simp only [hbuf]
    exact h.locked

theorem recorded (hsound : s.Sound) (hmu : s.cs.base.mu.canLock = true)
    (hlocks : s.reader.locks = true) (hrec : s.disp.recording = false) : s.cs.base.err ≠ none := by
  have hfree := hsound.mu.free_of_canLock hmu
  have hclosed := h.locked hlocks
  have hle := recv_le hsound
  have hsum := hsound.recv
  rw [hclosed, Bool.toNat_true] at hle hsum
  have hr : s.cs.base.recvClosed = true := by
    cases hr : s.cs.base.recvClosed with
    | true => rfl
    | false => simp [hr] at hsum
  rcases h.recv hr with he | he | ⟨pc, hpc, he⟩
  · exact he
  · cases hd : s.disp with
    | violation e pc =>
      rw [hd] at he hrec hle
      cases pc with
      | recv pc => cases pc <;> simp_all [ResponsePc.wins, ClosePc.wins, CloseRecvPc.wins,
          ResponsePc.unrecorded, ClosePc.unrecorded]
      | record => cases hrec
      | _ => cases he
    | closeTrailers err pc =>
      have hm := hfree .dispatcher
      rw [mode, hd] at hm
      cases hm
    | _ =>
      rw [hd] at he
      cases he
  · have hq := h.closers pc hpc
    obtain ⟨i, hi⟩ := List.mem_iff_getElem?.1 hpc
    have hm := hfree (.closer i)
    rw [mode, hi] at hm
    cases pc with
    | closing err mode pc => exact (hq.1 hm).elim
    | _ => cases he

theorem read (hsound : s.Sound) (hs : RecvStep s.cs.base s.reader a base reader r)
    (hok : s.reader.locks = true → s.disp.recording = false) :
    EndInv { s with cs := { s.cs with base }, reader, results := s.results ++ r.toList } := by
  obtain ⟨herr, hrecv⟩ := hs.err
  refine { h with err := ?_, recv := ?_, locked := hs.locks, result := ?_ }
  · simp only [herr]
    exact h.err
  · simp only [hrecv, herr]
    exact h.recv
  · intro e he heof
    rcases List.mem_append.1 he with he | he
    · exact h.result e he heof
    · obtain ⟨hmu, ⟨o, hpc⟩, hlast⟩ := hs.eof (Option.mem_toList.1 he) heof
      have hlocks : s.reader.locks = true := by rw [hpc]; rfl
      rcases hlast with hn | ⟨e', he', hne⟩
      · exact (h.recorded hsound hmu hlocks (hok hlocks) hn).elim
      · refine (h.err e' he').resolve_left fun hq => ?_
        rw [hq] at hne
        cases hne

theorem start (op : ClientOp) :
    EndInv { s with closers := s.closers ++ [op.entry] } := by
  refine { h with closers := ?_, recv := ?_ }
  · intro pc hpc
    rcases List.mem_append.1 hpc with hpc | hpc
    · exact h.closers pc hpc
    · rw [List.mem_singleton.1 hpc]
      cases op <;> trivial
  · intro hr
    refine (h.recv hr).imp id (.imp id ?_)
    rintro ⟨pc, hpc, hu⟩
    exact ⟨pc, List.mem_append_left _ hpc, hu⟩

theorem step {id : UInt64} (hsound : s.Sound) (hok : s.EndsCleanly a) (hs : ClientStep id s a s') :
    s'.EndInv := by
  cases hs with
  | enter ht => exact { h.enter (hsound.found (by rw [ht]; nofun)) _ with }
  | respond hr => exact h.respond hr
  | read hr => exact h.read hsound hr hok
  | start => exact h.start _
  | closer hi hc => exact h.closer hi hc hok
  | _ => exact { h with }

end ClientState.EndInv

theorem ClientState.endInv {id : UInt64} (h : (clientMachine id).ReachableWith EndsCleanly s) :
    s.EndInv := by
  induction h with
  | init hi => exact .init hi
  | step hr hok hs ih => exact ih.step (sound hr) hok (clientStep_step hs)

/-- `RecvMsg` reports `io.EOF` only behind a frame with `Eos`, or behind trailers with an OK
status. -/
theorem recvMsg_eof_clean {id : UInt64} {s : ServerState} {c : ClientState}
    (hs : (serverMachine kind).ReachableWith ServerState.EndsCleanly s)
    (hc : (clientMachine id).ReachableWith ClientState.EndsCleanly c) :
    (∀ e, .err e ∈ s.results → e.is .eof = true → s.eosSeen = true) ∧
      ∀ e, .err e ∈ c.results → e.is .eof = true → c.okTrailers = true :=
  ⟨(ServerState.endInv hs).result, (ClientState.endInv hc).result⟩

def eosRun : List ServerAct :=
  [.enter .accepted, .lookup, .enter .accepted, .dispatch (.step none), .dispatch (.step none),
    .dispatch (.step none), .dispatch (.step none), .dispatch (.step none), .read .call,
    .read .recv, .read .proceed, .read .proceed]

def okTrailersRun : List ClientAct :=
  ([.lookup, .enter, .respond .step, .respond .step, .lookup, .enter] : List ClientAct) ++
    (List.replicate 9 (.respond .step) : List ClientAct) ++
    ([.read .call, .read .recv, .read .proceed, .read .proceed] : List ClientAct)

theorem recvMsg_eof_clean_both :
    ∃ (s : ServerState) (c : ClientState), .err .eof ∈ s.results ∧ .err .eof ∈ c.results ∧
      (∀ e, .err e ∈ s.results → e.is .eof = true → s.eosSeen = true) ∧
      ∀ e, .err e ∈ c.results → e.is .eof = true → c.okTrailers = true := by
  obtain ⟨s, hr, hps⟩ : ∃ s, (serverMachine .stream).ReachableWith ServerState.EndsCleanly s ∧
      .err .eof ∈ s.results :=
    (serverMachine .stream).exists_reachableWith ServerState.EndsCleanly
      { found := some (.headers ⟨"m", none, 0⟩), inbox := [.message { eos := true }] } eosRun
      ⟨_, _, rfl⟩ (by decide)
  obtain ⟨c, hc, hpc⟩ : ∃ c, (clientMachine 1).ReachableWith ClientState.EndsCleanly c ∧
      .err .eof ∈ c.results :=
    (clientMachine 1).exists_reachableWith ClientState.EndsCleanly
      { inbox := [⟨some 1, .headers none⟩, ⟨some 1, .trailers none none⟩] } okTrailersRun ⟨_, rfl⟩
      (by decide)
  exact ⟨s, c, hps, hpc, recvMsg_eof_clean hr hc⟩

/-- The caller's context ends; a reader takes the stream that was reset for complete. -/
def resetRun : List ClientAct :=
  ([.read .call, .ctxDone .canceled] : List ClientAct) ++
    (List.replicate 12 (.closer 0 none) : List ClientAct) ++
    ([.read .recv, .read .proceed, .read .proceed] : List ClientAct)

theorem recvMsg_eof_on_reset :
    ∃ c, (clientMachine 1).Reachable c ∧ c.results = [.err .eof] ∧ c.okTrailers = false ∧
      c.cs.base.ctx = some .canceled := by
  exact (clientMachine 1).exists_reachable {} resetRun ⟨_, rfl⟩ (by decide)

end Goutils.Rpc
