import Goutils.Rpc.ServerOutput

namespace Goutils.Rpc
open Lib
open Lib.Wire (Bytes)
set_option autoImplicit true

def ResponseType.isTrailers : ResponseType → Bool
  | .trailers _ _ => true
  | _ => false

theorem SendLog.frames_trailers (l : SendLog) : l.frames.filter ResponseType.isTrailers = [] := by
  rw [List.filter_eq_nil_iff]
  intro f hf
  unfold frames at hf
  split at hf
  · cases hf
  · rcases List.mem_cons.1 hf with rfl | hf
    · nofun
    · obtain ⟨m, _, hm⟩ := List.mem_flatMap.1 hf
      obtain ⟨p, _, rfl⟩ := List.mem_map.1 hm
      nofun

/-- One trailers frame was written, with the status of what the handler returned. -/
def ServerState.Concluded (s : ServerState) (r : HandlerReturn) : Prop :=
  ∃ st md, s.st.sent.filter ResponseType.isTrailers = [.trailers st md] ∧
    Corresponds (fun _ => true) r.err st ∧ (statusCode st = .ok → r.err = none) ∧
      s.st.base.onDone ≠ 0

/-- Not an error that is dropped, nor one that carries the status OK. -/
def HandlerReturn.Concludes (kind : HandlerKind) (r : HandlerReturn) : Prop :=
  r.swallowed kind = false ∧ errorsIs r.err .errClosedPipe = false ∧
    (r.err = none ∨ statusCode (errorToStatus r.err) ≠ .ok)

theorem Corresponds.ok_iff (h : Corresponds reads err st) :
    (statusCode st = .ok → err = none) ↔
      (err = none ∨ statusCode (errorToStatus err) ≠ .ok) := by
  cases err with
  | none => exact iff_of_true (fun _ => rfl) (.inl rfl)
  | some e =>
    have hst : st = errorToStatus (some e) := h
    simp [hst]

theorem Ended.trailers_filter {o : Output} (h : Ended reads o l err)
    (hp : errorsIs err .errClosedPipe = false) :
    ∃ st, Corresponds reads err st ∧ o.sent.filter ResponseType.isTrailers =
      [.trailers st (metadataToProto l.trailer)] := by
  obtain ⟨st, hst, hsent⟩ := h.trailers hp
  refine ⟨st, hst, ?_⟩
  rw [hsent, List.filter_append, SendLog.frames_trailers]
  rfl

theorem not_concluded_of_frames {s : ServerState} {l : SendLog} (h : s.st.sent = l.frames)
    (r : HandlerReturn) : ¬ s.Concluded r := by
  rintro ⟨st, md, hs, _⟩
  rw [h, SendLog.frames_trailers] at hs
  cases hs

/-- A finished call that was left to its handler is concluded for exactly the values that nothing
on the way drops. -/
theorem finishedCall_concluded {s : ServerState}
    (h : (serverMachine kind).ReachableWith (ServerState.Undisturbed fun _ => true) s)
    (hf : s.handler = .finished) :
    ∃ r, s.returned = some r ∧ (s.Concluded r ↔ r.Concludes kind) := by
  have ho := (ServerState.outInv h).outputs
  rw [hf] at ho
  obtain ⟨r, hr, ⟨hswallowed, _, hupto⟩ | ⟨hswallowed, hended, hdone⟩⟩ := ho
  · refine ⟨r, hr, iff_of_false (not_concluded_of_frames hupto.sent r) ?_⟩
    rintro ⟨hs, _⟩
    rw [hswallowed] at hs
    cases hs
  · refine ⟨r, hr, ?_⟩
    cases hp : errorsIs r.err .errClosedPipe with
    | true =>
      refine iff_of_false (not_concluded_of_frames (hended.silent hp) r) ?_
      rintro ⟨_, hs, _⟩
      rw [hp] at hs
      cases hs
    | false =>
      obtain ⟨st, hst, hsent⟩ := hended.trailers_filter hp
      constructor
      · rintro ⟨st', md, hsent', hst', hok, _⟩
        exact ⟨hswallowed, hp, hst'.ok_iff.1 hok⟩
      · rintro ⟨_, _, herr⟩
        refine ⟨st, _, hsent, hst, hst.ok_iff.2 herr, ?_⟩
        rw [show s.st.base.onDone = 1 from hdone]
        exact Nat.one_ne_zero

instance : (a : HandlerAct) → Decidable a.Quiet
  | .call (.sendMsg _) => inferInstanceAs (Decidable (_ = _))
  | .call (.setHeader _) => .isTrue trivial
  | .call (.sendHeader _) | .call (.setTrailer _) | .returns _ => .isTrue trivial
  | .step _ => inferInstanceAs (Decidable (_ = _))

instance (s : ServerState) : (a : ServerAct) → Decidable (s.Undisturbed reads a)
  | .enter _ => inferInstanceAs (Decidable (_ = _))
  | .handle a => inferInstanceAs (Decidable (a.Quiet ∧ _))
  | .chanDown | .chanClose _ => .isFalse id
  | .lookup | .dispatch _ | .read _ | .ctxDone _ => .isTrue trivial

theorem finishedCall_concluded_one :
    ∃ s : ServerState, s.handler = .finished ∧ s.returned = some .nil ∧
      ∃ r, s.returned = some r ∧ (s.Concluded r ↔ r.Concludes .stream) := by
  obtain ⟨s, hr, hfinished, hret⟩ : ∃ s,
      (serverMachine .stream).ReachableWith (ServerState.Undisturbed fun _ => true) s ∧
      s.handler = .finished ∧ s.returned = some .nil :=
    (serverMachine .stream).exists_reachableWith (ServerState.Undisturbed fun _ => true)
      { found := some (.headers ⟨"m", none, 0⟩) } oneMessageRun ⟨_, _, rfl⟩ (by decide)
  exact ⟨s, hfinished, hret, finishedCall_concluded hr hfinished⟩

/-- A streaming handler that returns the `io.EOF` of its last `RecvMsg` leaves the call open. -/
theorem finishedCall_eof_open :
    ∃ s, (serverMachine .stream).ReachableWith (ServerState.Undisturbed fun _ => true) s ∧
      s.handler = .finished ∧ s.returned = some (.error .eof) ∧ s.st.sent = [] ∧
      s.st.base.onDone = 0 ∧ ¬ s.Concluded (.error .eof) := by
  obtain ⟨s, hr, hfinished, hret, hsent, hdone⟩ : ∃ s,
      (serverMachine .stream).ReachableWith (ServerState.Undisturbed fun _ => true) s ∧
      s.handler = .finished ∧ s.returned = some (.error .eof) ∧ s.st.sent = [] ∧
      s.st.base.onDone = 0 :=
    (serverMachine .stream).exists_reachableWith (ServerState.Undisturbed fun _ => true)
      { found := some (.headers ⟨"m", none, 0⟩) }
      [.enter .accepted, .handle (.returns (.error .eof))] ⟨_, _, rfl⟩ (by decide)
  refine ⟨s, hr, hfinished, hret, hsent, hdone, ?_⟩
  rintro ⟨_, _, _, _, _, hne⟩
  exact hne hdone

end Goutils.Rpc
