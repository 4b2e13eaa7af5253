import Goutils.Rpc.ServerToClient

namespace Goutils.Rpc
open Lib
open Lib.Wire (Bytes)
set_option autoImplicit true

def RecvResult.toError : RecvResult → Option GoErr
  | .err e => some e
  | _ => none

/-- Where a goroutine stands in `invoke`; `deferred` is before it takes the mutex. -/
inductive InvokePc where
  | newStream
  | writeHeaders (i : Nat) (err : Option GoErr)
  | writeMessage (i : Nat) (err : Option GoErr)
  | recvMsg
  | deferred (err : Option GoErr)
  | returned (err : Option GoErr)
  deriving DecidableEq

/-- A unary call, with the variables of its `grpc.Header` and `grpc.Trailer` options. -/
structure InvokeState where
  client : ClientState
  pc : InvokePc := .newStream
  header : Option MD := none
  trailer : Option MD := none

inductive InvokeAct where
  | client (a : ClientAct)
  | write (w : Option GoErr)
  | recv (a : RecvAct)
  | collect

def InvokePc.leaves (pc : InvokePc) : ClientAct → Bool
  | .closer i _ =>
    match pc with
    | .writeHeaders j _ | .writeMessage j _ => i ≠ j
    | _ => true
  | .start op => op = .close
  | .read _ => false
  | _ => true

def CloserPc.writeErr (s : ClientStream) (w err : Option GoErr) : CloserPc → Option GoErr
  | .write _ => w
  | .lockMessage _ => if s.sendClosed then some .errClosedPipe else err
  | _ => err

namespace InvokeState

def startWrite (s : InvokeState) (op : ClientOp) (next : Nat → Option GoErr → InvokePc) :
    InvokeState :=
  { s with
    client := { s.client with closers := s.client.closers ++ [op.entry] }
    pc := next s.client.closers.length none }

def runWrite (id : UInt64) (s : InvokeState) (w : Option GoErr) (i : Nat) (err : Option GoErr)
    (next : Nat → Option GoErr → InvokePc) : Option InvokeState :=
  s.client.closers[i]?.bind fun pc =>
    (clientStep id s.client (.closer i w)).map fun client =>
      { s with client, pc := next i (pc.writeErr s.client.cs w err) }

def received (s : InvokeState) (client : ClientState) (r : Option RecvResult) : InvokeState :=
  { s with
    client
    pc := match r with
      | none => .recvMsg
      | some r => .deferred r.toError }

/-- The deferred function: a nil map leaves the option's variable as it is. -/
def collect (s : InvokeState) (err : Option GoErr) : InvokeState :=
  { s with
    header := s.client.cs.headers.or s.header
    trailer := s.client.cs.trailers.or s.trailer
    pc := .returned err }

end InvokeState

def invokeStep (id : UInt64) (s : InvokeState) : InvokeAct → Option InvokeState
  | .client a =>
    if s.pc.leaves a then (clientStep id s.client a).map fun client => { s with client }
    else none
  | .write w =>
    match s.pc with
    | .newStream => some (s.startWrite .writeHeaders .writeHeaders)
    | .writeHeaders i err =>
      if s.client.closers[i]? = some .done then
        match err with
        | none => some (s.startWrite (.writeMessage true) .writeMessage)
        | some e => some { s with pc := .deferred (some e) }
      else s.runWrite id w i err .writeHeaders
    | .writeMessage i err =>
      if s.client.closers[i]? = some .done then
        match err with
        | none => (clientStep id s.client (.read .call)).map fun client =>
            { s with client, pc := .recvMsg }
        | some e => some { s with pc := .deferred (some e) }
      else s.runWrite id w i err .writeMessage
    | _ => none
  | .recv a =>
    if s.pc = .recvMsg then
      (recvMsg s.client.cs.base s.client.reader a).map fun (base, reader, r) =>
        s.received { s.client with
          cs := { s.client.cs with base }, reader, results := s.client.results ++ r.toList } r
    else none
  | .collect =>
    match s.pc with
    | .deferred err => if s.client.cs.base.mu.canLock then some (s.collect err) else none
    | _ => none

def invokeMachine (id : UInt64) (inbox : List Response) : Machine InvokeState InvokeAct where
  init s := s = { client := { inbox } }
  step := invokeStep id

def InvokePc.busy : InvokePc → Bool
  | .deferred _ | .returned _ => false
  | _ => true

inductive InvokeStep (id : UInt64) (s : InvokeState) : InvokeAct → InvokeState → Prop where
  | client : clientStep id s.client a = some c → InvokeStep id s (.client a) { s with client := c }
  | startWrite : s.pc.busy = true → (∀ i err, (next i err).busy = true) →
      InvokeStep id s (.write w) (s.startWrite op next)
  | runWrite : s.pc.busy = true → clientStep id s.client (.closer i w) = some c →
      pc'.busy = true → InvokeStep id s (.write w) { s with client := c, pc := pc' }
  | failed : s.pc.busy = true → InvokeStep id s (.write w) { s with pc := .deferred (some e) }
  | written : s.pc.busy = true → clientStep id s.client (.read .call) = some c →
      InvokeStep id s (.write w) { s with client := c, pc := .recvMsg }
  | recv : s.pc = .recvMsg → clientStep id s.client (.read a) = some c →
      c.results = s.client.results ++ r.toList → InvokeStep id s (.recv a) (s.received c r)
  | collect : s.pc = .deferred err → InvokeStep id s .collect (s.collect err)

variable {id : UInt64} {s s' : InvokeState}

theorem InvokeState.runWrite_step (h : s.runWrite id w i err next = some s')
    (hpc : s.pc.busy = true) (hnext : ∀ i err, (next i err).busy = true) :
    InvokeStep id s (.write w) s' := by
  obtain ⟨pc, _, h⟩ := Option.bind_eq_some_iff.1 h
  obtain ⟨c, hc, rfl⟩ := Option.map_eq_some_iff.1 h
  exact .runWrite hpc hc (hnext _ _)

theorem invokeStep_step (h : invokeStep id s a = some s') : InvokeStep id s a s' := by
  cases a with
  | client a =>
    simp only [invokeStep] at h
    split at h
    · obtain ⟨c, hc, rfl⟩ := Option.map_eq_some_iff.1 h
      exact .client hc
    · cases h
  | write w =>
    simp only [invokeStep] at h
    split at h
    · rename_i hpc
      cases h
      exact .startWrite (by rw [hpc]; rfl) fun _ _ => rfl
    · rename_i hpc
      have hbusy : s.pc.busy = true := by rw [hpc]; rfl
      split at h
      · split at h <;> cases h
        · exact .startWrite hbusy fun _ _ => rfl
        · exact .failed hbusy
      · exact InvokeState.runWrite_step h hbusy fun _ _ => rfl
    · rename_i hpc
      have hbusy : s.pc.busy = true := by rw [hpc]; rfl
      split at h
      · split at h
        · obtain ⟨c, hc, rfl⟩ := Option.map_eq_some_iff.1 h
          exact .written hbusy hc
        · cases h
          exact .failed hbusy
      · exact InvokeState.runWrite_step h hbusy fun _ _ => rfl
    · cases h
  | recv a =>
    simp only [invokeStep] at h
    split at h
    · obtain ⟨⟨base, reader, r⟩, hr, rfl⟩ := Option.map_eq_some_iff.1 h
      exact .recv ‹_› (clientStep_read hr) rfl
    · cases h
  | collect =>
    simp only [invokeStep] at h
    split at h
    · split at h <;> cases h
      exact .collect ‹_›
    · cases h

/-- What the dispatcher alone writes. -/
structure Received where
  headers : Option MD
  trailers : Option MD
  headersReceived : Bool
  trailersReceived : Bool

def ClientStream.received (s : ClientStream) : Received where
  headers := s.headers
  trailers := s.trailers
  headersReceived := s.headersReceived
  trailersReceived := s.trailersReceived

/-- Of the given frames, those that were processed left their metadata. -/
structure Received.TakenFrom (fs : List ResponseType) (v : Received) : Prop where
  headers : v.headersReceived = true → ∃ md, .headers md ∈ fs ∧ v.headers = metadataFromProto md
  none : v.trailersReceived = false → v.trailers = none
  trailers : v.trailersReceived = true →
    ∃ st md, .trailers st md ∈ fs ∧ v.trailers = metadataFromProto md

def Received.Delivers (fs : List ResponseType) (v : Received) : Prop :=
  v.headersReceived = true ∧ ∃ p, .message p ∈ fs

def ResponsePc.TakenFrom (fs : List ResponseType) (v : Received) : ResponsePc → Prop
  | .lockHeaders md => .headers md ∈ fs
  | .closeHeaders => ∃ md, .headers md ∈ fs ∧ v.headers = metadataFromProto md
  | .deliver _ _ => v.Delivers fs
  | .lockTrailers st md => .trailers st md ∈ fs
  | _ => True

def RecvPc.Drained (c : Chan Bytes) : RecvPc → Prop
  | .checkLast none => c.closed = true ∧ c.buf = []
  | _ => True

theorem ClientStream.received_onResponse (s : ClientStream) (t : ResponseType) :
    (s.onResponse t).1.received = s.received ∧
      (s.onResponse t).1.base.msgCh = s.base.msgCh := by
  cases t with
  | message p =>
    simp only [onResponse]
    split
    · split <;> exact ⟨rfl, rfl⟩
    · exact ⟨rfl, rfl⟩
  | _ => exact ⟨rfl, rfl⟩

theorem ClientStream.onResponse_takenFrom {s : ClientStream} (h : t ∈ fs) :
    (s.onResponse t).2.TakenFrom fs s.received := by
  cases t with
  | headers md =>
    simp only [onResponse]
    split
    · trivial
    · split
      · trivial
      · exact h
  | message p =>
    simp only [onResponse]
    split
    · rename_i hh
      split
      · trivial
      · cases (processPacket s.base.packetBuf p).2 with
        | none => trivial
        | some data => exact ⟨hh, p, h⟩
    · trivial
  | trailers st md => exact h
  | unset => trivial

theorem ResponsePc.TakenFrom.afterDeliver {v : Received} (h : v.Delivers fs)
    (data : Bytes) (res : Option Bool) : (ResponsePc.afterDeliver data res).TakenFrom fs v := by
  cases res with
  | none => exact h
  | some _ => trivial

theorem ClientStream.takeTrailers_takenFrom {s : ClientStream} (h : s.received.TakenFrom fs)
    (hmd : .trailers st md ∈ fs) : (s.takeTrailers md).received.TakenFrom fs := by
  refine ⟨h.headers, nofun, fun _ => ?_⟩
  cases md with
  | some md => exact ⟨st, some md, hmd, rfl⟩
  | none =>
    cases ht : s.trailersReceived with
    | true => exact h.trailers ht
    | false => exact ⟨st, none, hmd, h.none ht⟩

theorem RespondStep.takenFrom {s s' : ClientStream} (h : RespondStep s pc a s' pc')
    (hv : s.received.TakenFrom fs) (hpc : pc.TakenFrom fs s.received) :
    s'.received.TakenFrom fs ∧ pc'.TakenFrom fs s'.received ∧
      (s.received.Delivers fs → s'.received.Delivers fs) := by
  cases h with
  | lockHeaders =>
    refine ⟨⟨fun _ => ⟨_, hpc, rfl⟩, hv.none, hv.trailers⟩, ⟨_, hpc, rfl⟩, fun hd => hd⟩
  | closeHeaders => exact ⟨⟨fun _ => hpc, hv.none, hv.trailers⟩, trivial, fun hd => ⟨rfl, hd.2⟩⟩
  | deliver => exact ⟨hv, .afterDeliver hpc _ _, fun hd => hd⟩
  | lockTrailers =>
    exact ⟨s.takeTrailers_takenFrom hv hpc, trivial, fun hd => hd⟩
  | _ => exact ⟨hv, trivial, fun hd => hd⟩

theorem CloserStep.received {s s' : ClientStream} (h : CloserStep me w s pc s' pc') :
    s'.received = s.received ∧
      (s'.base.msgCh = s.base.msgCh ∨ s'.base.msgCh = s.base.msgCh.close) := by
  cases h with
  | close h => exact ⟨rfl, h.msgCh⟩
  | _ => exact ⟨rfl, .inl rfl⟩

theorem RecvPc.Drained.close {c : Chan Bytes} (h : Drained c pc) : Drained c.close pc := by
  cases pc with
  | checkLast o =>
    cases o with
    | none => exact ⟨Chan.close_closed c, (Chan.close_buf c).trans h.2⟩
    | some e => trivial
  | _ => trivial

theorem RecvPc.Drained.send {c : Chan Bytes} (h : Drained c pc) (hopen : c.closed = false)
    (data : Bytes) : Drained (c.send data) pc := by
  cases pc with
  | checkLast o =>
    cases o with
    | none => exact absurd (h.1.symm.trans hopen) nofun
    | some e => trivial
  | _ => trivial

theorem RecvStep.drained {b b' : BaseStream τ} (h : RecvStep b pc a b' pc' r)
    (hpc : pc.Drained b.msgCh) : pc'.Drained b'.msgCh ∧ (b'.msgCh.buf ≠ [] → b.msgCh.buf ≠ []) ∧
      ∀ x ∈ r, x.toError = none → b.msgCh.buf ≠ [] := by
  have hne {m rest} (hbuf : b.msgCh.buf = m :: rest) : b.msgCh.buf ≠ [] := by
    rw [hbuf]
    exact nofun
  cases h with
  | recv hbuf => exact ⟨trivial, fun _ => hne hbuf, fun _ _ _ => hne hbuf⟩
  | recvClosed hbuf hc => exact ⟨⟨hc, hbuf⟩, fun h => h, nofun⟩
  | last hbuf | lastNil hbuf => exact ⟨trivial, fun _ => hne hbuf, fun _ _ _ => hne hbuf⟩
  | @empty origErr _ hc =>
    cases origErr with
    | none => exact absurd (hpc.1.symm.trans hc) nofun
    | some e =>
      refine ⟨trivial, fun h => h, fun x hx he => ?_⟩
      cases hx
      cases he
  | lock =>
    refine ⟨trivial, fun h => h, fun x hx he => ?_⟩
    cases hx
    cases he
  | _ => exact ⟨trivial, fun h => h, nofun⟩

namespace ClientState

/-- Everything that the stream knows comes from the given frames. -/
structure TakenInv (id : UInt64) (fs : List ResponseType) (s : ClientState) : Prop where
  left : ∀ t ∈ s.todo id, t ∈ fs
  received : s.cs.received.TakenFrom fs
  disp : s.disp.TakenFrom fs s.cs.received
  buf : s.cs.base.msgCh.buf ≠ [] → s.cs.received.Delivers fs
  results : ∀ r ∈ s.results, r.toError = none → s.cs.received.Delivers fs
  reader : s.reader.Drained s.cs.base.msgCh

theorem TakenInv.init {l : List Response} (h : l.filterMap (ownFrame id) = fs) :
    TakenInv id fs { inbox := l } := by
  refine ⟨?_, ⟨nofun, fun _ => rfl, nofun⟩, trivial, fun hb => (hb rfl).elim, nofun, trivial⟩
  rw [todo, Option.toList_none, List.nil_append, h]
  exact fun _ ht => ht

theorem TakenInv.respond {s s' : ClientState} (h : s.TakenInv id fs) (hsound : s.Sound)
    (hs : RespondStep s.cs s.disp a s'.cs s'.disp) (htodo : s'.todo id = s.todo id)
    (hreader : s'.reader = s.reader) (hresults : s'.results = s.results) : s'.TakenInv id fs := by
  obtain ⟨hreceived, hdisp, hkeep⟩ := hs.takenFrom h.received h.disp
  have hresults' : ∀ r ∈ s'.results, r.toError = none → s'.cs.received.Delivers fs := by
    rw [hresults]
    exact fun r hr he => hkeep (h.results r hr he)
  rcases hs.msgCh with hc | hc | ⟨data, hpc, hc⟩
  · refine ⟨htodo ▸ h.left, hreceived, hdisp, ?_, hresults', ?_⟩
    · rw [hc]
      exact fun hb => hkeep (h.buf hb)
    · rw [hc, hreader]
      exact h.reader
  · refine ⟨htodo ▸ h.left, hreceived, hdisp, ?_, hresults', ?_⟩
    · rw [hc, Chan.close_buf]
      exact fun hb => hkeep (h.buf hb)
    · rw [hc, hreader]
      exact h.reader.close
  · -- The message that is sent came behind the headers.
    have hd := h.disp
    rw [hpc] at hd
    refine ⟨htodo ▸ h.left, hreceived, hdisp, fun _ => hkeep hd, hresults', ?_⟩
    rw [hc, hreader]
    exact h.reader.send (hsound.sending (by rw [hpc]; rfl)).1 data

theorem TakenInv.step {s s' : ClientState} (h : s.TakenInv id fs) (hsound : s.Sound)
    (hs : ClientStep id s a s') : s'.TakenInv id fs := by
  cases hs with
  | @lookup f l hdisp hfound hinbox hid hdone =>
    refine { h with left := ?_ }
    intro t ht
    apply h.left
    rw [todo, hfound, hinbox, Option.toList_none, List.nil_append, List.filterMap_cons]
    simp only [ownFrame, if_pos hid]
    exact ht
  | @discard f l hdisp hfound hinbox hskip =>
    refine { h with left := ?_ }
    intro t ht
    apply h.left
    simp only [todo, hfound, hinbox, Option.toList_none, List.nil_append, List.filterMap_cons]
      at ht ⊢
    split
    · exact ht
    · exact List.mem_cons_of_mem _ ht
  | @enter t ht =>
    have hmem : t ∈ fs := h.left t (by simp [todo, ht])
    obtain ⟨hv, hc⟩ := s.cs.received_onResponse t
    refine ⟨fun t' ht' => h.left t' ?_, ?_, ?_, ?_, ?_, ?_⟩
    · exact List.mem_append_right _ ht'
    · exact hv ▸ h.received
    · exact hv ▸ ClientStream.onResponse_takenFrom hmem
    · rw [hv, hc]
      exact h.buf
    · exact hv ▸ h.results
    · rw [hc]
      exact h.reader
  | respond hs => exact h.respond hsound hs rfl rfl rfl
  | read hs =>
    obtain ⟨hreader, hbuf, hnil⟩ := hs.drained h.reader
    refine ⟨h.left, h.received, h.disp, fun hb => h.buf (hbuf hb), ?_, hreader⟩
    intro x hx he
    rcases List.mem_append.1 hx with hx | hx
    · exact h.results x hx he
    · exact h.buf (hnil x (Option.mem_toList.1 hx) he)
  | start | ctxDone => exact { h with }
  | closer hi hs =>
    obtain ⟨hv, hc⟩ := hs.received
    refine ⟨h.left, ?_, ?_, ?_, ?_, ?_⟩
    · exact hv ▸ h.received
    · exact hv ▸ h.disp
    · rw [hv]
      rcases hc with hc | hc <;> rw [hc]
      · exact h.buf
      · rw [Chan.close_buf]
        exact h.buf
    · exact hv ▸ h.results
    · rcases hc with hc | hc <;> rw [hc]
      · exact h.reader
      · exact h.reader.close

end ClientState

theorem ClientStep.results {s s' : ClientState} (h : ClientStep id s a s') (hr : r ∈ s.results) :
    r ∈ s'.results := by
  cases h with
  | read => exact List.mem_append_left _ hr
  | _ => exact hr

namespace InvokeState

/-- A nil error of `invoke` is that of its `RecvMsg`; the options are set at the end only. -/
structure Inv (id : UInt64) (fs : List ResponseType) (s : InvokeState) : Prop where
  sound : s.client.Sound
  taken : s.client.TakenInv id fs
  unset : (∀ err, s.pc ≠ .returned err) → s.header = none ∧ s.trailer = none
  got : s.pc = .deferred none → ∃ r ∈ s.client.results, r.toError = none

theorem Inv.init {l : List Response} (h : l.filterMap (ownFrame id) = fs) :
    Inv id fs { client := { inbox := l } } :=
  ⟨.init id ⟨l, rfl⟩, .init h, fun _ => ⟨rfl, rfl⟩, nofun⟩

theorem Inv.client (h : s.Inv id fs) (hc : clientStep id s.client a = some c) :
    c.Sound ∧ c.TakenInv id fs :=
  ⟨h.sound.step (clientStep_step hc), h.taken.step h.sound (clientStep_step hc)⟩

theorem Inv.unset_of_busy (h : s.Inv id fs) (hpc : s.pc.busy = true) :
    s.header = none ∧ s.trailer = none := by
  apply h.unset
  intro err herr
  rw [herr] at hpc
  cases hpc

theorem ne_deferred_of_busy {pc : InvokePc} (h : pc.busy = true) (err : Option GoErr) :
    pc ≠ .deferred err := by
  rintro rfl
  cases h

theorem Inv.received {id : UInt64} {s : InvokeState} (h : s.Inv id fs) (hpc : s.pc = .recvMsg)
    (hc : clientStep id s.client (.read a) = some c)
    (hr : c.results = s.client.results ++ r.toList) : (s.received c r).Inv id fs := by
  refine ⟨(h.client hc).1, (h.client hc).2, fun _ => h.unset_of_busy (by rw [hpc]; rfl), ?_⟩
  cases r with
  | none => exact nofun
  | some x =>
    intro hx
    refine ⟨x, ?_, InvokePc.deferred.inj hx⟩
    change x ∈ c.results
    rw [hr]
    exact List.mem_append_right _ (List.mem_singleton_self x)

theorem Inv.step (h : s.Inv id fs) (hs : InvokeStep id s a s') : s'.Inv id fs := by
  cases hs with
  | client hc =>
    refine ⟨(h.client hc).1, (h.client hc).2, h.unset, fun hpc => ?_⟩
    obtain ⟨r, hr, he⟩ := h.got hpc
    exact ⟨r, (clientStep_step hc).results hr, he⟩
  | @startWrite next _ op hbusy hnext =>
    have hc : clientStep id s.client (.start op) = some { s.client with
        closers := s.client.closers ++ [op.entry] } := rfl
    exact ⟨(h.client hc).1, (h.client hc).2, fun _ => h.unset_of_busy hbusy,
      fun hpc => (ne_deferred_of_busy (hnext _ _) _ hpc).elim⟩
  | runWrite hbusy hc hpc' =>
    exact ⟨(h.client hc).1, (h.client hc).2, fun _ => h.unset_of_busy hbusy,
      fun hpc => (ne_deferred_of_busy hpc' _ hpc).elim⟩
  | failed hbusy => exact ⟨h.sound, h.taken, fun _ => h.unset_of_busy hbusy, nofun⟩
  | written hbusy hc =>
    exact ⟨(h.client hc).1, (h.client hc).2, fun _ => h.unset_of_busy hbusy, nofun⟩
  | recv hpc hc hr => exact h.received hpc hc hr
  | @collect err => exact ⟨h.sound, h.taken, fun hpc => (hpc err rfl).elim, nofun⟩

theorem inv {l : List Response} (hl : l.filterMap (ownFrame id) = fs)
    (h : (invokeMachine id l).Reachable s) : s.Inv id fs := by
  apply h.invariant
  · rintro s rfl
    exact .init hl
  · exact fun s a s' hI hs => hI.step (invokeStep_step hs)

end InvokeState

theorem HandleStep.unary_op {s s' : ServerStream}
    (h : HandleStep .unary s pc (.call op) s' pc') (l : SendLog) :
    (l.op op).body.getD [] = l.body.getD [] := by
  have hset (md : Option MD) : (l.setHeader md).body.getD [] = l.body.getD [] := by
    unfold SendLog.setHeader
    split <;> rfl
  cases h with
  | setHeader | setHeaderLate | sendHeader | sendHeaderLate => exact hset _
  | setTrailer => rfl
  | callSend h => cases h

theorem ServerState.unary_ops {s : ServerState}
    (h : (serverMachine .unary).ReachableWith ok s) :
    (SendLog.ofHandler s.ops none).body.getD [] = [] := by
  refine h.invariant (I := fun s => (SendLog.ofHandler s.ops none).body.getD [] = []) ?_ ?_
  · rintro s ⟨_, _, rfl⟩
    rfl
  · intro s a s' hI _ hs
    cases serverStep_step hs with
    | call h =>
      rw [SendLog.ofHandler_call]
      exact (h.unary_op _).trans hI
    | _ => exact hI

theorem ServerState.unary_body {s : ServerState} (h : (serverMachine .unary).ReachableWith ok s)
    (hm : m ∈ s.log.body.getD []) :
    s.returned = some (.response (.ok m)) ∧ s.log.body.getD [] = [m] := by
  have hops := unary_ops h
  unfold log at hm ⊢
  cases hret : s.returned with
  | none =>
    rw [hret, hops] at hm
    cases hm
  | some r =>
    rw [hret, SendLog.ofHandler_returned] at hm
    rw [SendLog.ofHandler_returned]
    cases r with
    | response x =>
      simp only [SendLog.returned, SendLog.send, hops, List.nil_append, Option.getD_some] at hm ⊢
      cases x with
      | error e => cases hm
      | ok m' =>
        cases List.mem_singleton.1 hm
        exact ⟨rfl, rfl⟩
    | nil | error e =>
      simp only [SendLog.returned, hops] at hm
      cases hm

theorem SendLog.message_mem {l : SendLog} (h : .message p ∈ l.fix.frames) :
    ∃ m, m ∈ l.body.getD [] := by
  rw [fix_frames] at h
  rcases List.mem_cons.1 h with h | h
  · cases h
  · obtain ⟨m, hm, _⟩ := List.mem_flatMap.1 h
    exact ⟨m, hm⟩

theorem ServerState.unary_reply {s : ServerState}
    (hs : (serverMachine .unary).ReachableWith (ServerState.Undisturbed reads) s)
    (hf : s.handler = .finished) (hp : .message p ∈ s.st.sent) :
    ∃ m ctx, s.returned = some (.response (.ok m)) ∧ reads ctx = true ∧
      s.st.sent = Reply.frames ⟨metadataToProto s.log.header, [m], errorToStatus (ctx.map .ctx),
        metadataToProto s.log.trailer⟩ := by
  have ho := (outInv hs).outputs
  rw [hf] at ho
  obtain ⟨r, hr, ⟨hswallowed, _⟩ | ⟨_, hended, _⟩⟩ := ho
  · cases r <;> cases hswallowed
  · have hresponse {m} (hm : m ∈ s.log.body.getD []) :
        r = .response (.ok m) ∧ s.log.body.getD [] = [m] := by
      obtain ⟨hret, hbody⟩ := unary_body hs hm
      rw [hr] at hret
      exact ⟨Option.some.inj hret, hbody⟩
    cases hpipe : errorsIs r.err .errClosedPipe with
    | true =>
      have hsent : s.st.sent = s.log.frames := hended.silent hpipe
      rw [hsent] at hp
      have hbody : s.log.body.isSome = true := by
        by_contra hnone
        rw [SendLog.frames_unfixed (by simpa using hnone)] at hp
        cases hp
      rw [← SendLog.fix_fixed hbody] at hp
      obtain ⟨m, hm⟩ := SendLog.message_mem hp
      obtain ⟨rfl, _⟩ := hresponse hm
      cases hpipe
    | false =>
      obtain ⟨st, hst, hsent⟩ := hended.trailers hpipe
      change s.st.sent = _ at hsent
      rw [hsent] at hp
      rcases List.mem_append.1 hp with hp | hp
      · obtain ⟨m, hm⟩ := SendLog.message_mem hp
        obtain ⟨rfl, hbody⟩ := hresponse hm
        obtain ⟨ctx, hctx, rfl⟩ := hst
        refine ⟨m, ctx, hr, hctx, ?_⟩
        rw [hsent, SendLog.fix_frames, hbody]
        rfl
      · cases List.mem_singleton.1 hp

namespace Reply

theorem headers_mem {r : Reply} (h : .headers md ∈ r.frames) : md = r.header := by
  rcases List.mem_cons.1 h with h | h
  · exact ResponseType.headers.inj h
  · rcases List.mem_append.1 h with h | h
    · obtain ⟨m, _, h⟩ := List.mem_flatMap.1 h
      obtain ⟨p, _, h⟩ := List.mem_map.1 h
      cases h
    · cases List.mem_singleton.1 h

theorem trailers_mem {r : Reply} (h : .trailers st md ∈ r.frames) : md = r.trailer := by
  rcases List.mem_cons.1 h with h | h
  · cases h
  · rcases List.mem_append.1 h with h | h
    · obtain ⟨m, _, h⟩ := List.mem_flatMap.1 h
      obtain ⟨p, _, h⟩ := List.mem_map.1 h
      cases h
    · exact (ResponseType.trailers.inj (List.mem_singleton.1 h)).2

end Reply

def InvokeState.Whole (v : InvokeState) (s : ServerState) (st : Option Status) : Prop :=
  statusErr st = none ∧ v.header = metadataToProto s.log.header ∧
    v.trailer = metadataToProto s.log.trailer

theorem statusErr_ctx (ctx : Option CtxErr) :
    statusErr (errorToStatus (ctx.map .ctx)) = none ↔ ctx = none := by
  match ctx with
  | none | some .canceled | some .deadlineExceeded => decide

/-- Where `invoke` is about to return nil, the response is whole just if the server's context was
live where `closeWithSendError` read it, and the trailers were processed or are empty. -/
theorem invoke_whole_response {s : ServerState} {id : UInt64} {inbox : List Response}
    {v v' : InvokeState}
    (hs : (serverMachine .unary).ReachableWith (ServerState.Undisturbed reads) s)
    (hf : s.handler = .finished) (hin : inbox.filterMap (ownFrame id) = s.st.sent)
    (hv : (invokeMachine id inbox).Reachable v) (hnil : v.pc = .deferred none)
    (hc : invokeStep id v .collect = some v') :
    ∃ m ctx, s.returned = some (.response (.ok m)) ∧ reads ctx = true ∧
      s.st.sent = Reply.frames ⟨metadataToProto s.log.header, [m], errorToStatus (ctx.map .ctx),
        metadataToProto s.log.trailer⟩ ∧
      (v'.Whole s (errorToStatus (ctx.map .ctx)) ↔ ctx = none ∧
        (v.client.cs.trailersReceived = true ∨ metadataToProto s.log.trailer = none)) := by
  have hinv := InvokeState.inv hin hv
  obtain ⟨r, hr, he⟩ := hinv.got hnil
  obtain ⟨hheaders, p, hp⟩ := hinv.taken.results r hr he
  obtain ⟨m, ctx, hret, hctx, hsent⟩ := ServerState.unary_reply hs hf hp
  refine ⟨m, ctx, hret, hctx, hsent, ?_⟩
  obtain ⟨hheader0, htrailer0⟩ := hinv.unset (by simp [hnil])
  have hv' : v' = v.collect none := by
    cases invokeStep_step hc with
    | collect hpc =>
      rw [hnil] at hpc
      cases hpc
      rfl
  have hh : v'.header = metadataToProto s.log.header := by
    obtain ⟨md, hmd, heq⟩ := hinv.taken.received.headers hheaders
    rw [hsent] at hmd
    change v.client.cs.headers = _ at heq
    rw [hv', InvokeState.collect, heq, hheader0, Option.or_none, Reply.headers_mem hmd,
      metadataFromProto_toProto]
  have ht : v'.trailer = v.client.cs.trailers := by
    rw [hv', InvokeState.collect, htrailer0, Option.or_none]
  unfold InvokeState.Whole
  rw [ht, statusErr_ctx]
  cases hrecv : v.client.cs.trailersReceived with
  | true =>
    obtain ⟨st', md, hmd, heq⟩ := hinv.taken.received.trailers hrecv
    rw [hsent] at hmd
    change v.client.cs.trailers = _ at heq
    rw [heq, Reply.trailers_mem hmd, metadataFromProto_toProto]
    simp [hh]
  | false =>
    have hnone : v.client.cs.trailers = none := hinv.taken.received.none hrecv
    rw [hnone]
    simp [hh, eq_comm]

/-- A unary handler sets trailer metadata and responds; `late` comes between the response and the
trailers. -/
def unaryRun (late : List ServerAct) : List ServerAct :=
  ([.enter .accepted, .handle (.call (.setTrailer (some [("b", ["2"])]))),
    .handle (.returns (.response (.ok [])))] : List ServerAct) ++
    (List.replicate 7 (.handle (.step none)) : List ServerAct) ++ late ++
    (List.replicate 14 (.handle (.step none)) : List ServerAct)

def deliveredRun : List InvokeAct :=
  (List.replicate 7 (.write none) : List InvokeAct) ++
    ([.client .lookup, .client .enter, .client (.respond .step), .client (.respond .step),
      .client .lookup, .client .enter, .client (.respond (.deliver .enter)),
      .client (.respond (.deliver .send))] : List InvokeAct)

theorem invoke_whole_response_one :
    ∃ (s : ServerState) (v v' : InvokeState), invokeStep 1 v .collect = some v' ∧
      v.client.cs.trailersReceived = true ∧ ∃ st, v'.Whole s st := by
  obtain ⟨s, hs, hps⟩ : ∃ s, (serverMachine .unary).execIf (ServerState.Undisturbed Option.isNone)
      { found := some (.headers ⟨"m", none, 0⟩) } (unaryRun []) = some s ∧
        decide (s.handler = .finished ∧ s.st.sent = [.headers none, .message { eom := true },
          .trailers none (some [("b", ["2"])])]) = true :=
    exists_of_any (by decide)
  obtain ⟨hf, hsent⟩ := of_decide_eq_true hps
  obtain ⟨v, hv, hpv⟩ : ∃ v, (invokeMachine 1 [⟨some 1, .headers none⟩,
      ⟨some 1, .message { eom := true }⟩, ⟨some 1, .trailers none (some [("b", ["2"])])⟩]).exec
      { client := { inbox := [⟨some 1, .headers none⟩, ⟨some 1, .message { eom := true }⟩,
        ⟨some 1, .trailers none (some [("b", ["2"])])⟩] } }
      (deliveredRun ++ ([.client .lookup, .client .enter] : List InvokeAct) ++
        (List.replicate 9 (.client (.respond .step)) : List InvokeAct) ++
        ([.recv .recv] : List InvokeAct)) = some v ∧
        decide (v.pc = .deferred none ∧ v.client.cs.trailersReceived = true ∧
          v.client.cs.base.mu.canLock = true) = true :=
    exists_of_any (by decide)
  obtain ⟨hnil, hreceived, hlock⟩ := of_decide_eq_true hpv
  have hc : invokeStep 1 v .collect = some (v.collect none) := by
    simp only [invokeStep, hnil, hlock, ↓reduceIte]
  obtain ⟨m, ctx, _, hctx, _, hwhole⟩ := invoke_whole_response (.execIf (.init ⟨_, _, rfl⟩) hs) hf
    (by rw [hsent]; rfl) (Machine.reachable_exec rfl hv) hnil hc
  exact ⟨s, v, _, hc, hreceived, _, hwhole.2 ⟨Option.isNone_iff_eq_none.1 hctx, .inl hreceived⟩⟩

/-- The deadline passes behind the response: `invoke` returns nil without the trailers' metadata. -/
theorem invoke_nil_early :
    ∃ (s : ServerState) (v v' : InvokeState),
      (serverMachine .unary).ReachableWith (ServerState.Undisturbed fun _ => true) s ∧
      s.handler = .finished ∧
      (invokeMachine 1 (s.st.sent.map (⟨some 1, ·⟩))).Reachable v ∧
      invokeStep 1 v .collect = some v' ∧ v'.pc = .returned none ∧
      s.st.sent = [.headers none, .message { eom := true },
        .trailers (some ⟨.deadlineExceeded, "context deadline exceeded"⟩)
          (some [("b", ["2"])])] ∧ v'.trailer = none := by
  obtain ⟨s, hs, hps⟩ : ∃ s, (serverMachine .unary).execIf (ServerState.Undisturbed fun _ => true)
      { found := some (.headers ⟨"m", none, 0⟩) } (unaryRun [.ctxDone .deadlineExceeded]) =
        some s ∧ decide (s.handler = .finished ∧ s.st.sent = [.headers none,
          .message { eom := true },
          .trailers (some ⟨.deadlineExceeded, "context deadline exceeded"⟩)
          (some [("b", ["2"])])]) = true :=
    exists_of_any (by decide)
  obtain ⟨hf, hsent⟩ := of_decide_eq_true hps
  obtain ⟨v, hv, hpv⟩ : ∃ v, (invokeMachine 1 (s.st.sent.map (⟨some 1, ·⟩))).exec
      { client := { inbox := s.st.sent.map (⟨some 1, ·⟩) } } (deliveredRun ++ [.recv .recv]) =
        some v ∧ decide (v.pc = .deferred none ∧ v.client.cs.trailers = none ∧ v.trailer = none ∧
          v.client.cs.base.mu.canLock = true) = true := by
    rw [hsent]
    exact exists_of_any (by decide)
  obtain ⟨hnil, hnone, htrailer, hlock⟩ := of_decide_eq_true hpv
  refine ⟨s, v, v.collect none, .execIf (.init ⟨_, _, rfl⟩) hs, hf, Machine.reachable_exec rfl hv,
    ?_, rfl, hsent, ?_⟩
  · simp only [invokeStep, hnil, hlock, ↓reduceIte]
  · simp only [InvokeState.collect, hnone, htrailer, Option.or_none]

end Goutils.Rpc
