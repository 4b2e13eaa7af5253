import Goutils.Rpc.ServerChannel

namespace Goutils.Rpc
open Lib
open Lib.Wire (Bytes)
set_option autoImplicit true

def behind (eos : Bool) (rest : List RequestType) (msgs : Option (List Bytes)) :
    Option (List Bytes) :=
  if eos then if rest = [] then some [] else none else msgs

/-- What the frames left complete when the buffer holds `buf`. -/
def remaining (buf : Bytes) : List RequestType → Option (List Bytes)
  | .message { hasMessage := true, packetMessage := some p, eos } :: rest =>
    match processPacket buf p with
    | (buf', none) => remaining buf' rest
    | (buf', some data) => (behind eos rest (remaining buf' rest)).map (data :: ·)
  | .message { hasMessage := false, eos, .. } :: rest => behind eos rest (remaining buf rest)
  | _ => none

def dataFrame (eos : Bool) (p : PacketMessage) : RequestType :=
  .message { hasMessage := true, packetMessage := some p, eos }

theorem remaining_parts (eos : Bool) (rest : List RequestType) (ps : List PacketMessage)
    (h : processPackets buf ps = (buf', [])) :
    remaining buf (ps.map (dataFrame eos) ++ rest) = remaining buf' rest := by
  induction ps generalizing buf with
  | nil =>
    cases h
    rfl
  | cons p ps ih =>
    simp only [processPackets, Prod.mk.injEq, List.append_eq_nil_iff,
      Option.toList_eq_nil_iff] at h
    obtain ⟨hbuf, hp, hps⟩ := h
    rw [← ih (Prod.ext hbuf hps)]
    simp only [List.map_cons, List.cons_append, dataFrame, remaining]
    rw [← Prod.eta (processPacket buf p), hp]

theorem remaining_message (eos : Bool) (rest : List RequestType) (data : Bytes)
    (hl : data.length ≤ MaxMessageSize) :
    remaining [] ((packets maxRequestMessagePacketDataSize data).map (dataFrame eos) ++ rest) =
      (behind eos rest (remaining [] rest)).map (data :: ·) := by
  have hn : 0 < maxRequestMessagePacketDataSize := by decide
  obtain ⟨ps, p, buf, hps, hparts, hlast⟩ := packets_complete hn data hl
  rw [hps, List.map_append, List.append_assoc, remaining_parts eos _ ps hparts]
  simp only [List.map_cons, List.map_nil, List.cons_append, List.nil_append, dataFrame, remaining,
    hlast]

namespace ClientCall

def body (c : ClientCall) : List RequestType :=
  (c.sends.flatMap fun m => (packets maxRequestMessagePacketDataSize m).map (dataFrame false)) ++
    match c.last with
    | .closeSend => [.message { packetMessage := some { eom := true }, eos := true }]
    | .unary m => (packets maxRequestMessagePacketDataSize m).map (dataFrame true)

theorem frames_body (c : ClientCall) :
    c.frames.map Request.type = .headers c.headers :: c.body := by
  rw [frames_eq, List.map_cons, List.map_append, List.map_flatMap, body]
  congr 2
  · simp only [messageFrames, List.map_map, Option.getD_some, Option.isSome_some]
    rfl
  · cases c.last with
    | closeSend => rfl
    | unary m =>
      simp only [endFrames, messageFrames, List.map_map, Option.getD_some, Option.isSome_some]
      rfl

theorem remaining_body (c : ClientCall) (hl : ∀ m ∈ c.messages, m.length ≤ MaxMessageSize) :
    remaining [] c.body = some c.messages := by
  obtain ⟨id, headers, sends, last⟩ := c
  simp only [body, messages] at hl ⊢
  induction sends with
  | nil =>
    cases last with
    | closeSend => rfl
    | unary m =>
      have h := remaining_message true [] m (hl m (by simp))
      rw [List.append_nil] at h
      exact h
  | cons m ms ih =>
    rw [List.flatMap_cons, List.append_assoc, remaining_message false _ m (hl m (by simp))]
    rw [ih fun m' hm' => hl m' (List.mem_cons_of_mem _ hm')]
    rfl

end ClientCall

/-- Nobody has begun to end the receive direction. -/
structure BaseStream.RecvOpen (b : BaseStream τ) : Prop where
  recvClosed : b.recvClosed = false
  msgCh : b.msgCh.closed = false

def FeedingAt (b : BaseStream Goroutine) (todo : List RequestType) (msgs : List Bytes) :
    DispatcherPc → Prop
  | .idle => b.mu.writer = none ∧ b.activeSenders = 0 ∧
      (b.RecvOpen ∧ (∃ rest, remaining b.packetBuf todo = some rest ∧
          b.msgCh.sent ++ rest = msgs) ∨
        b.recvClosed = true ∧ b.msgCh.closed = true ∧ todo = [] ∧ b.msgCh.sent = msgs)
  | .deliver data eos pc => b.mu.writer = none ∧ b.RecvOpen ∧
      b.activeSenders = (if pc = .send then 1 else 0) ∧
      ∃ rest, behind eos todo (remaining b.packetBuf todo) = some rest ∧
        b.msgCh.sent ++ data :: rest = msgs
  | .lockRecv => b.mu.writer = none ∧ b.RecvOpen ∧ b.activeSenders = 0 ∧ todo = [] ∧
      b.msgCh.sent = msgs
  | .closeRecv pc => b.mu.writer = some .dispatcher ∧ b.activeSenders = 0 ∧ todo = [] ∧
      b.msgCh.sent = msgs ∧ b.recvClosed = decide (pc ≠ .cas) ∧
      b.msgCh.closed = decide (pc = .ret)
  | _ => False

/-- What no step of the dispatcher or the reader changes. -/
def ServerStream.Steady (st : ServerStream) : Prop :=
  st.headersReceived = true ∧ st.base.ctx = none ∧ st.base.onDone = 0 ∧ st.base.mu.readers = [] ∧
    st.base.msgCh.cap = 1 ∧ st.base.msgCh.panicked = false

structure Feeding (st : ServerStream) (pc : DispatcherPc) (todo : List RequestType)
    (msgs : List Bytes) : Prop where
  steady : st.Steady
  room : st.base.msgCh.buf.length ≤ 1
  here : FeedingAt st.base todo msgs pc

variable {st st' : ServerStream}

theorem Feeding.onRequest (h : Feeding st .idle (t :: todo) msgs) (outcome : HeadersOutcome) :
    Feeding (st.onRequest outcome t).1 (st.onRequest outcome t).2 todo msgs := by
  obtain ⟨hsteady, hroom, hw, hact, hopen | hended⟩ := h
  · obtain ⟨hopen, rest, hrest, hmsgs⟩ := hopen
    cases t with
    | headers h | rstStream rst | unset => cases hrest
    | message m =>
      rw [ServerStream.onRequest_message hsteady.1]
      obtain ⟨hasMessage, packet, eos⟩ := m
      cases hasMessage with
      | false =>
        rw [ServerStream.processMessage_noData hopen.recvClosed]
        cases eos with
        | false => exact ⟨hsteady, hroom, hw, hact,
            .inl ⟨hopen, rest, hrest, hmsgs⟩⟩
        | true =>
          simp only [remaining, behind, ↓reduceIte] at hrest
          split at hrest
          · rename_i htodo
            cases hrest
            rw [List.append_nil] at hmsgs
            exact ⟨hsteady, hroom, hw, hopen, hact, htodo, hmsgs⟩
          · cases hrest
      | true =>
        cases packet with
        | none => cases hrest
        | some p =>
          rcases hp : processPacket st.base.packetBuf p with ⟨buf, data⟩
          rw [ServerStream.processMessage_data hopen.recvClosed hp]
          simp only [remaining, hp] at hrest
          cases data with
          | none => exact ⟨hsteady, hroom, hw, hact,
              .inl ⟨{ hopen with }, rest, hrest, hmsgs⟩⟩
          | some data =>
            obtain ⟨rest', hrest', rfl⟩ := Option.map_eq_some_iff.1 hrest
            exact ⟨hsteady, hroom, hw,
              { hopen with }, hact, rest', hrest', hmsgs⟩
  · cases hended.2.2.1

theorem Feeding.read (h : Feeding st pc todo msgs) (hr : RecvStep st.base rpc a b rpc' r) :
    Feeding { st with base := b } pc todo msgs := by
  obtain ⟨hsteady, hroom, hhere⟩ := h
  rcases hr.base with rfl | rfl
  · exact ⟨hsteady, hroom, hhere⟩
  · refine ⟨hsteady, ?_, ?_⟩
    · exact (List.length_tail.trans_le (Nat.sub_le _ _)).trans hroom
    cases pc with
    | idle =>
      obtain ⟨hw, hact, ⟨hopen, hrest⟩ | hended⟩ := hhere
      · exact ⟨hw, hact, .inl ⟨{ hopen with }, hrest⟩⟩
      · exact ⟨hw, hact, .inr hended⟩
    | deliver data eos pc | lockRecv =>
      obtain ⟨hw, hopen, hrest⟩ := hhere
      exact ⟨hw, { hopen with }, hrest⟩
    | closeRecv pc => exact hhere
    | closeErr e pc | closeSend e pc => cases hhere

def DispatcherPc.left : DispatcherPc → Nat
  | .deliver _ _ .enter => 7
  | .deliver _ _ .send => 6
  | .lockRecv => 5
  | .closeRecv .cas => 4
  | .closeRecv .wait => 3
  | .closeRecv .close => 2
  | .closeRecv .ret => 1
  | _ => 0

theorem Feeding.deliver (h : Feeding st (.deliver data eos pc) todo msgs)
    (hd : DeliverStep data st.base pc a b res) :
    Feeding { st with base := b } (.afterDeliver data eos res) todo msgs := by
  obtain ⟨hsteady, hroom, hw, hopen, hact, rest, hrest, hmsgs⟩ := h
  cases hd with
  | closed hlock hrecv => simp [hopen.recvClosed] at hrecv
  | enter hlock hrecv =>
    have hact' : st.base.activeSenders + 1 = 1 := by
      rw [hact]
      rfl
    exact ⟨hsteady, hroom, hw, ⟨hrecv, hopen.msgCh⟩, hact', rest,
      hrest, hmsgs⟩
  | ctxDone hdone => simp [hsteady.2.1] at hdone
  | send hfree =>
    have hact' : st.base.activeSenders - 1 = 0 := by
      rw [hact]
      rfl
    have hcap : st.base.msgCh.cap = 1 := hsteady.2.2.2.2.1
    have hroom' : (st.base.msgCh.buf ++ [data]).length ≤ 1 := by
      simp only [Chan.canSend, hopen.msgCh, Bool.false_or, hcap, decide_eq_true_eq] at hfree
      rw [List.length_append]
      exact hfree
    rw [Chan.send_open hopen.msgCh]
    cases eos with
    | false =>
      refine ⟨hsteady, hroom', hw, hact',
        .inl ⟨{ hopen with }, rest, hrest, ?_⟩⟩
      rw [← hmsgs]
      exact List.append_assoc ..
    | true =>
      simp only [behind, ↓reduceIte] at hrest
      split at hrest
      · rename_i htodo
        cases hrest
        exact ⟨hsteady, hroom', hw,
          { hopen with }, hact', htodo, hmsgs⟩
      · cases hrest

theorem Feeding.closeRecv (h : Feeding st (.closeRecv pc) todo msgs)
    (hc : CloseRecvStep st.base pc b pc') :
    Feeding { st with base := b } (.closeRecv pc') todo msgs := by
  obtain ⟨hsteady, hroom, hw, hact, htodo, hsent, hrecv, hclosed⟩ := h
  cases hc with
  | again hr => simp [hrecv] at hr
  | first _ =>
    exact ⟨hsteady, hroom, hw, hact, htodo, hsent, rfl, hclosed⟩
  | waited _ =>
    exact ⟨hsteady, hroom, hw, hact, htodo, hsent, hrecv, hclosed⟩
  | close =>
    rw [Chan.close_open hclosed]
    exact ⟨hsteady, hroom, hw, hact, htodo, hsent, hrecv, rfl⟩

theorem Feeding.dispatch (h : Feeding st pc todo msgs)
    (hd : DispatchStep st pc a st' pc') : Feeding st' pc' todo msgs := by
  cases hd with
  | deliver hd => exact h.deliver hd
  | lockRecv hlock =>
    obtain ⟨hsteady, hroom, hw, hopen, hact, htodo, hsent⟩ := h
    exact ⟨hsteady, hroom, rfl, hact, htodo, hsent, hopen.recvClosed,
      hopen.msgCh⟩
  | unlockRecv =>
    obtain ⟨hsteady, hroom, hw, hact, htodo, hsent, hrecv, hclosed⟩ :=
      h
    exact ⟨hsteady, hroom, rfl, hact,
      .inr ⟨hrecv, hclosed, htodo, hsent⟩⟩
  | closeRecv hc => exact h.closeRecv hc
  | closedErr | closeErr _ | closedSend | closeSend _ => exact h.here.elim

theorem Feeding.left_lt (h : Feeding st pc todo msgs) (hd : DispatchStep st pc a st' pc') :
    pc'.left < pc.left := by
  cases hd with
  | deliver hd =>
    cases hd with
    | closed _ hrecv => simp [h.here.2.1.recvClosed] at hrecv
    | enter _ _ => exact Nat.lt_succ_self 6
    | ctxDone hdone => simp [h.steady.2.1] at hdone
    | send _ =>
      simp only [DispatcherPc.afterDeliver]
      split <;> simp [DispatcherPc.left]
  | lockRecv _ => exact Nat.lt_succ_self 4
  | unlockRecv => exact Nat.zero_lt_one
  | closeRecv hc => cases hc <;> simp [DispatcherPc.left]
  | closedErr | closeErr _ | closedSend | closeSend _ => exact h.here.elim

theorem Feeding.progress (h : Feeding st pc todo msgs) (hpc : pc ≠ .idle) :
    (∃ a st' pc', Rpc.dispatch st pc a = some (st', pc')) ∨
      st.base.msgCh.buf ≠ [] ∧ st.base.msgCh.closed = false := by
  obtain ⟨⟨_, _, _, hreaders, hcap, _⟩, _, hhere⟩ := h
  cases pc with
  | idle => exact (hpc rfl).elim
  | deliver data eos pc =>
    obtain ⟨hw, hopen, hact, _⟩ := hhere
    cases pc with
    | enter =>
      have hlock := (st.base.mu.canLock_iff).2 ⟨hw, hreaders⟩
      refine .inl ⟨.deliver .enter, ?_⟩
      simp only [Rpc.dispatch, Rpc.deliver, hlock, ↓reduceIte, Option.map_some]
      exact ⟨_, _, rfl⟩
    | send =>
      by_cases hfree : st.base.msgCh.canSend = true
      · refine .inl ⟨.deliver .send, ?_⟩
        simp only [Rpc.dispatch, Rpc.deliver, hfree, ↓reduceIte, Option.map_some]
        exact ⟨_, _, rfl⟩
      · refine .inr ⟨?_, hopen.msgCh⟩
        intro hbuf
        simp [Chan.canSend, hbuf, hcap] at hfree
  | lockRecv =>
    have hlock := (st.base.mu.canLock_iff).2 ⟨hhere.1, hreaders⟩
    refine .inl ⟨.step none, ?_⟩
    simp only [Rpc.dispatch, hlock, ↓reduceIte]
    exact ⟨_, _, rfl⟩
  | closeRecv pc =>
    refine .inl ⟨.step none, ?_⟩
    cases pc with
    | wait =>
      simp only [Rpc.dispatch, Rpc.closeRecv, hhere.2.1, ↓reduceIte, Option.map_some]
      exact ⟨_, _, rfl⟩
    | _ => exact ⟨_, _, rfl⟩
  | closeErr e pc | closeSend e pc => cases hhere

def frameOf (id : UInt64) : Option Request → Option RequestType
  | some { stream := some id', type } => if id' = id then some type else none
  | _ => none

def waiting (inbox : List (Option Request)) (id : UInt64) : List RequestType :=
  inbox.filterMap (frameOf id)

@[simp] theorem waiting_cons_self (id : UInt64) (t : RequestType) (inbox : List (Option Request)) :
    waiting (some ⟨some id, t⟩ :: inbox) id = t :: waiting inbox id := by
  simp only [waiting, List.filterMap_cons, frameOf, ↓reduceIte]

theorem waiting_cons_of_ne {id id' : UInt64} (h : id' ≠ id) (t : RequestType)
    (inbox : List (Option Request)) :
    waiting (some ⟨some id', t⟩ :: inbox) id = waiting inbox id := by
  simp only [waiting, List.filterMap_cons, frameOf, if_neg h]

def ChannelState.pcAt (s : ChannelState) (i : Nat) : DispatcherPc :=
  if i = s.current then s.pc else .idle

theorem ChannelState.pcAt_idle {s : ChannelState} (h : s.pc = .idle) (i : Nat) :
    s.pcAt i = .idle := by
  unfold pcAt
  split
  · exact h
  · rfl

def RecvPc.Reading (closed : Bool) : RecvPc → Prop
  | .idle | .select => True
  | .checkLast none | .lock none => closed = true
  | _ => False

theorem RecvPc.Reading.step {b b' : BaseStream τ} (h : pc.Reading b.msgCh.closed)
    (hs : RecvStep b pc a b' pc' r) (hctx : b.ctx = none) (ha : a ≠ .stop) :
    pc'.Reading b'.msgCh.closed := by
  cases hs with
  | call | recv _ | last _ | lastNil _ | empty _ _ | lock _ => trivial
  | stop => exact (ha rfl).elim
  | ctxDone he => simp [hctx] at he
  | recvClosed _ hc => exact hc
  | @lastClosed origErr _ hc =>
    cases origErr with
    | none => exact hc
    | some e => exact h

theorem RecvPc.Reading.mono {pc : RecvPc} (h : pc.Reading closed)
    (hc : closed = true → closed' = true) : pc.Reading closed' := by
  unfold Reading at h ⊢
  split at h
  · trivial
  · trivial
  · exact hc h
  · exact hc h
  · exact h

/-- Calls that one channel of the server has room for and whose methods it handles. -/
structure Admissible (srv : WebrtcServer) (calls : List ClientCall) : Prop where
  ids : (calls.map (·.stream)).Nodup
  count : calls.length ≤ WebRTCMaxStreamCount
  methods : ∀ c ∈ calls, c.headers.method ∈ srv.handlers ∨ srv.unknownStreamDesc = true
  sizes : ∀ c ∈ calls, ∀ m ∈ c.messages, m.length ≤ MaxMessageSize

/-- A server that has not handled a call yet and is not being stopped. -/
structure WebrtcServer.Fresh (srv : WebrtcServer) : Prop where
  ctx : srv.ctx = none
  mu : srv.processHeadersMu.writer = none
  tickets : srv.callTickets = 0
  maxCalls : srv.maxCalls = DefaultWebRTCMaxGRPCCalls

def WebrtcServer.withCalls (srv : WebrtcServer) (n : Nat) : WebrtcServer :=
  { srv with processHeadersWorkers := srv.processHeadersWorkers + n, callTickets := n }

variable {srv : WebrtcServer}

theorem WebrtcServer.Fresh.withCalls_zero (h : srv.Fresh) : srv.withCalls 0 = srv := by
  obtain ⟨_, _, htickets, _⟩ := h
  cases srv
  cases htickets
  rfl

theorem runHeaders_accepted (h : srv.Fresh)
    (hm : method ∈ srv.handlers ∨ srv.unknownStreamDesc = true)
    (hn : n < DefaultWebRTCMaxGRPCCalls) :
    runHeaders (srv.withCalls n) method = some (srv.withCalls (n + 1), .accepted) := by
  have hlt : n < srv.maxCalls := h.maxCalls ▸ hn
  have hlock : srv.processHeadersMu.canRLock = true := (RWMutex.canRLock_iff _).2 h.mu
  simp only [runHeaders, drive, processHeaders, WebrtcServer.withCalls, if_pos hm, hlock,
    ↓reduceIte, h.ctx, Option.isSome_none, Bool.false_eq_true, if_pos hlt, Nat.add_assoc]

structure FeedInv (srv : WebrtcServer) (calls : List ClientCall) (s : ChannelState) : Prop where
  server : s.ch.server = srv.withCalls s.ch.streams.length
  ctx : s.ch.ctx = none
  ids : (s.ch.streams.map (·.id)).Nodup
  known : ∀ e ∈ s.ch.streams, ∃ c ∈ calls, e.id = c.stream
  inbox : ∀ m ∈ s.inbox, ∃ c ∈ calls, ∃ t, m = some ⟨some c.stream, t⟩
  current : s.pc = .idle ∨ s.current < s.ch.streams.length
  fresh : ∀ c ∈ calls, c.stream ∉ s.ch.streams.map (·.id) →
    waiting s.inbox c.stream = .headers c.headers :: c.body
  fed : ∀ c ∈ calls, ∀ i e, s.ch.streams[i]? = some e → e.id = c.stream →
    Feeding e.stream (s.pcAt i) (waiting s.inbox c.stream) c.messages
  reading : ∀ e ∈ s.ch.streams, e.reader.Reading e.stream.base.msgCh.closed

theorem ServerChannel.find?_eq_some {ch : ServerChannel} {id : UInt64} (hf : ch.find? id = some i) :
    ∃ e, ch.streams[i]? = some e ∧ e.id = id := by
  obtain ⟨hi, hp, _⟩ := List.findIdx?_eq_some_iff_getElem.1 hf
  simp only [Bool.and_eq_true, decide_eq_true_eq] at hp
  exact ⟨_, List.getElem?_eq_getElem hi, hp.1⟩

namespace FeedInv

variable {s : ChannelState} (h : FeedInv srv calls s)

include h

theorem set {s' : ChannelState} (he : s.ch.streams[i]? = some e) (hch : s'.ch = s.ch.setStream i e')
    (hid : e'.id = e.id) (hinbox : ∀ m ∈ s'.inbox, m ∈ s.inbox)
    (hwaiting : ∀ id ≠ e.id, waiting s'.inbox id = waiting s.inbox id)
    (hpc : ∀ j ≠ i, s'.pcAt j = s.pcAt j)
    (hcurrent : s'.pc = .idle ∨ s'.current < s.ch.streams.length)
    (hfed : ∀ c ∈ calls, e.id = c.stream →
      Feeding e'.stream (s'.pcAt i) (waiting s'.inbox c.stream) c.messages)
    (hreading : e'.reader.Reading e'.stream.base.msgCh.closed) : FeedInv srv calls s' := by
  have hi := (List.getElem?_eq_some_iff.1 he).1
  have hstreams : s'.ch.streams = s.ch.streams.set i e' := by
    rw [hch]
    rfl
  have hids : s'.ch.streams.map (·.id) = s.ch.streams.map (·.id) := by
    rw [hstreams]
    exact map_set_same he _ hid
  have hlen : s'.ch.streams.length = s.ch.streams.length := by
    rw [hstreams, List.length_set]
  constructor
  · rw [hlen, hch]
    exact h.server
  · rw [hch]
    exact h.ctx
  · rw [hids]
    exact h.ids
  · rw [hstreams]
    intro d hd
    rcases List.mem_or_eq_of_mem_set hd with hd | rfl
    · exact h.known d hd
    · rw [hid]
      exact h.known e (List.mem_of_getElem? he)
  · intro m hm
    exact h.inbox m (hinbox m hm)
  · rw [hlen]
    exact hcurrent
  · rw [hids]
    intro c hc hfresh
    rw [hwaiting, h.fresh c hc hfresh]
    rintro heq
    exact hfresh (heq ▸ List.mem_map_of_mem (List.mem_of_getElem? he))
  · rw [hstreams]
    intro c hc j d hd hdc
    by_cases hj : j = i
    · subst hj
      rw [List.getElem?_set_self hi] at hd
      cases hd
      exact hfed c hc (hid ▸ hdc)
    · rw [List.getElem?_set_ne (Ne.symm hj)] at hd
      rw [hpc j hj, hwaiting]
      · exact h.fed c hc j d hd hdc
      · rintro heq
        exact hj (index_unique h.ids hd he (hdc.trans heq))
  · rw [hstreams]
    intro d hd
    rcases List.mem_or_eq_of_mem_set hd with hd | rfl
    · exact h.reading d hd
    · exact hreading

theorem registered (he : e ∈ s.ch.streams) : e.registered = true := by
  obtain ⟨i, hi⟩ := List.getElem?_of_mem he
  obtain ⟨c, hc, hid⟩ := h.known e he
  exact decide_eq_true (h.fed c hc i e hi hid).steady.2.2.1

theorem find?_eq_none {id : UInt64} (hf : s.ch.find? id = none) : id ∉ s.ch.streams.map (·.id) := by
  rintro hid
  obtain ⟨e, he, rfl⟩ := List.mem_map.1 hid
  have := List.findIdx?_eq_none_iff.1 hf e he
  simp [h.registered he] at this

theorem length_lt (hc : c ∈ calls) (hfresh : c.stream ∉ s.ch.streams.map (·.id)) :
    s.ch.streams.length < calls.length := by
  have hsub : c.stream :: s.ch.streams.map (·.id) ⊆ calls.map (·.stream) := by
    intro id hid
    rcases List.mem_cons.1 hid with rfl | hid
    · exact List.mem_map_of_mem hc
    · obtain ⟨e, he, rfl⟩ := List.mem_map.1 hid
      obtain ⟨d, hd, hed⟩ := h.known e he
      exact hed ▸ List.mem_map_of_mem hd
  have hle := (List.subperm_of_subset (List.nodup_cons.2 ⟨hfresh, h.ids⟩) hsub).length_le
  simpa using hle

end FeedInv

theorem ServerChannel.onRequest_received {ch : ServerChannel} (he : ch.streams[i]? = some e)
    (hr : e.stream.headersReceived = true) (t : RequestType) :
    ch.onRequest i t =
      some (ch.setStream i { e with stream := (e.stream.onRequest .accepted t).1 },
        (e.stream.onRequest .accepted t).2) := by
  unfold onRequest
  cases t with
  | headers h =>
    simp only [he, hr, ↓reduceIte]
    rfl
  | _ =>
    simp only [he]
    rfl

def acceptedStream (id : UInt64) : ChannelStream := { id, stream := { headersReceived := true } }

theorem Feeding.accepted (c : ClientCall) (hl : ∀ m ∈ c.messages, m.length ≤ MaxMessageSize) :
    Feeding (acceptedStream c.stream).stream .idle c.body c.messages :=
  ⟨⟨rfl, rfl, rfl, rfl, rfl, rfl⟩, Nat.zero_le 1, rfl, rfl,
    .inl ⟨⟨rfl, rfl⟩, c.messages, c.remaining_body hl, List.nil_append _⟩⟩

theorem ServerChannel.onRequest_new {ch : ServerChannel} (hsrv : srv.Fresh)
    (hs : ch.server = srv.withCalls ch.streams.length) (hctx : ch.ctx = none)
    (hm : h.method ∈ srv.handlers ∨ srv.unknownStreamDesc = true)
    (hn : ch.streams.length < DefaultWebRTCMaxGRPCCalls) (id : UInt64) :
    ServerChannel.onRequest { ch with streams := ch.streams ++ [ch.newStream id] }
        ch.streams.length (.headers h) =
      some ({ server := srv.withCalls (ch.streams.length + 1)
              streams := ch.streams ++ [acceptedStream id] }, .idle) := by
  have hget : (ch.streams ++ [ch.newStream id])[ch.streams.length]? = some (ch.newStream id) := by
    simp
  have hset (e e' : ChannelStream) : (ch.streams ++ [e]).set ch.streams.length e' =
      ch.streams ++ [e'] := by
    simp
  have hrecv : (ch.newStream id).stream.headersReceived = false := rfl
  simp only [onRequest, hget, hrecv, hs, runHeaders_accepted hsrv hm hn, ServerStream.onRequest,
    setStream, hset, Bool.false_eq_true, ↓reduceIte, Option.map_some, hctx]
  simp only [newStream, hctx, acceptedStream, Option.isSome_none]

namespace FeedInv

variable {s : ChannelState} (h : FeedInv srv calls s)

include h

theorem next_known (hpc : s.pc = .idle) (hin : s.inbox = some ⟨some e.id, t⟩ :: rest)
    (he : s.ch.streams[i]? = some e) : FeedInv srv calls
      { ch := s.ch.setStream i { e with stream := (e.stream.onRequest .accepted t).1 }
        current := i
        pc := (e.stream.onRequest .accepted t).2
        inbox := rest } := by
  refine h.set he rfl rfl ?_ ?_ ?_ ?_ ?_ ?_
  · intro m hm
    rw [hin]
    exact List.mem_cons_of_mem _ hm
  · intro id hne
    rw [hin, waiting_cons_of_ne hne.symm]
  · intro j hj
    rw [ChannelState.pcAt_idle hpc]
    exact if_neg hj
  · exact .inr (List.getElem?_eq_some_iff.1 he).1
  · intro d hd hed
    have hfed := h.fed d hd i e he hed
    rw [ChannelState.pcAt_idle hpc, hin, ← hed, waiting_cons_self] at hfed
    rw [ChannelState.pcAt, if_pos rfl, ← hed]
    exact hfed.onRequest .accepted
  · obtain ⟨buf, hbuf⟩ := (e.stream.onRequest_step .accepted t).base
    simp only [hbuf]
    exact h.reading e (List.mem_of_getElem? he)

theorem next_new (hadm : Admissible srv calls) (hpc : s.pc = .idle)
    (hin : s.inbox = some ⟨some c.stream, t⟩ :: rest) (hc : c ∈ calls)
    (hfresh : c.stream ∉ s.ch.streams.map (·.id)) : FeedInv srv calls
      { ch := { server := srv.withCalls (s.ch.streams.length + 1)
                streams := s.ch.streams ++ [acceptedStream c.stream] }
        current := s.ch.streams.length
        pc := .idle
        inbox := rest } := by
  have hwaiting := h.fresh c hc hfresh
  rw [hin, waiting_cons_self] at hwaiting
  have hids : (s.ch.streams ++ [acceptedStream c.stream]).map (·.id) =
      s.ch.streams.map (·.id) ++ [c.stream] := by
    rw [List.map_append]
    rfl
  constructor
  · simp only [List.length_append, List.length_singleton]
  · rfl
  · rw [hids]
    exact List.nodup_append.2 ⟨h.ids, List.nodup_singleton _, by
      rintro a ha b hb rfl
      exact hfresh (List.mem_singleton.1 hb ▸ ha)⟩
  · intro e he
    rcases List.mem_append.1 he with he | he
    · exact h.known e he
    · exact ⟨c, hc, by rw [List.mem_singleton.1 he]; rfl⟩
  · intro m hm
    exact h.inbox m (hin ▸ List.mem_cons_of_mem _ hm)
  · exact .inl rfl
  · rw [hids]
    intro d hd hdfresh
    rw [← h.fresh d hd fun hmem => hdfresh (List.mem_append_left _ hmem), hin,
      waiting_cons_of_ne]
    rintro heq
    exact hdfresh (heq ▸ List.mem_append_right _ (List.mem_singleton_self _))
  · intro d hd j e he hed
    rw [ChannelState.pcAt_idle rfl]
    by_cases hj : j < s.ch.streams.length
    · rw [List.getElem?_append_left hj] at he
      have hfed := h.fed d hd j e he hed
      rw [ChannelState.pcAt_idle hpc, hin, waiting_cons_of_ne] at hfed
      · exact hfed
      · rintro heq
        exact hfresh (heq ▸ hed ▸ List.mem_map_of_mem (List.mem_of_getElem? he))
    · rw [List.getElem?_append_right (Nat.not_lt.1 hj)] at he
      obtain rfl := List.mem_singleton.1 (List.mem_of_getElem? he)
      obtain rfl := List.inj_on_of_nodup_map hadm.ids hc hd hed
      rw [(List.cons.inj hwaiting).2]
      exact Feeding.accepted c (hadm.sizes c hc)
  · intro e he
    rcases List.mem_append.1 he with he | he
    · exact h.reading e he
    · rw [List.mem_singleton.1 he]
      trivial

theorem next (hsrv : srv.Fresh) (hadm : Admissible srv calls) (hpc : s.pc = .idle)
    (hin : s.inbox = msg :: rest) :
    ∃ s', channelStep s .next = some s' ∧ FeedInv srv calls s' ∧ s'.inbox = rest := by
  obtain ⟨c, hc, t, rfl⟩ := h.inbox msg (hin ▸ List.mem_cons_self)
  simp only [channelStep, hpc, ↓reduceIte, hin]
  rcases hf : s.ch.find? c.stream with _ | i
  · have hfresh := h.find?_eq_none hf
    have hlt := h.length_lt hc hfresh
    have hwaiting := h.fresh c hc hfresh
    rw [hin, waiting_cons_self] at hwaiting
    obtain rfl := (List.cons.inj hwaiting).1
    have hroom : s.ch.streams.countP (·.registered) ≠ WebRTCMaxStreamCount := by
      have := List.countP_le_length (p := (·.registered)) (l := s.ch.streams)
      have := hadm.count
      omega
    simp only [ServerChannel.onChannelMessage, hf, if_neg hroom,
      ServerChannel.onRequest_new hsrv h.server h.ctx (hadm.methods c hc)
        (hlt.trans_le hadm.count), Option.map_some]
    exact ⟨_, rfl, h.next_new hadm hpc hin hc hfresh, rfl⟩
  · obtain ⟨e, he, hid⟩ := ServerChannel.find?_eq_some hf
    have hrecv := (h.fed c hc i e he hid).steady.1
    simp only [ServerChannel.onChannelMessage, hf, ServerChannel.onRequest_received he hrecv,
      Option.map_some]
    exact ⟨_, rfl, h.next_known hpc (hid ▸ hin) he, rfl⟩

theorem dispatch (he : s.ch.streams[s.current]? = some e)
    (hd : DispatchStep e.stream s.pc a st pc) :
    FeedInv srv calls { s with pc, ch := s.ch.setStream s.current { e with stream := st } } := by
  have hpc : s.pcAt s.current = s.pc := if_pos rfl
  refine h.set he rfl rfl (fun _ => id) (fun _ _ => rfl) ?_ ?_ ?_ ?_
  · intro j hj
    rw [ChannelState.pcAt, ChannelState.pcAt, if_neg hj, if_neg hj]
  · exact .inr (List.getElem?_eq_some_iff.1 he).1
  · intro c hc hid
    have hfed := h.fed c hc _ e he hid
    rw [hpc] at hfed
    rw [ChannelState.pcAt, if_pos rfl]
    exact hfed.dispatch hd
  · exact (h.reading e (List.mem_of_getElem? he)).mono hd.msgCh_closed

theorem read (he : s.ch.streams[i]? = some e) (hr : RecvStep e.stream.base e.reader a b reader r)
    (ha : a ≠ .stop) : FeedInv srv calls { s with
      ch := s.ch.setStream i { e with stream := { e.stream with base := b }, reader } } := by
  have hi := (List.getElem?_eq_some_iff.1 he).1
  obtain ⟨c, hc, hid⟩ := h.known e (List.mem_of_getElem? he)
  have hctx := (h.fed c hc i e he hid).steady.2.1
  refine h.set he rfl rfl (fun _ => id) (fun _ _ => rfl) (fun _ _ => rfl) h.current ?_ ?_
  · intro d hd hed
    exact (h.fed d hd i e he hed).read hr
  · exact (h.reading e (List.mem_of_getElem? he)).step hr hctx ha

end FeedInv

def KeepsReading (_ : ChannelState) (a : ChannelAct) : Prop := ∀ i, a ≠ .read i .stop

theorem FeedInv.step {s s' : ChannelState} (h : FeedInv srv calls s) (hsrv : srv.Fresh)
    (hadm : Admissible srv calls) (ha : KeepsReading s a) (hs : channelStep s a = some s') :
    FeedInv srv calls s' := by
  cases a with
  | next =>
    by_cases hpc : s.pc = .idle
    · cases hin : s.inbox with
      | nil => simp only [channelStep, hpc, hin, ↓reduceIte, reduceCtorEq] at hs
      | cons msg rest =>
        obtain ⟨t, ht, hinv, _⟩ := h.next hsrv hadm hpc hin
        rw [hs] at ht
        cases ht
        exact hinv
    · simp only [channelStep, if_neg hpc, reduceCtorEq] at hs
  | dispatch a =>
    simp only [channelStep] at hs
    split at hs
    · cases hs
    · obtain ⟨⟨st, pc⟩, hd, rfl⟩ := Option.map_eq_some_iff.1 hs
      exact h.dispatch ‹_› (dispatch_step hd)
  | read i a =>
    simp only [channelStep] at hs
    split at hs
    · cases hs
    · split at hs
      · obtain ⟨⟨b, reader, r⟩, hr, rfl⟩ := Option.map_eq_some_iff.1 hs
        exact h.read ‹_› (recvMsg_step hr) fun hstop => ha i (hstop ▸ rfl)
      · cases hs

/-- The frames on the channel are those of the calls, in the order of each call. -/
structure Interleaves (calls : List ClientCall) (fs : List Request) : Prop where
  own : ∀ f ∈ fs, ∃ c ∈ calls, f.stream = some c.stream
  order : ∀ c ∈ calls, fs.filter (·.stream = some c.stream) = c.frames

theorem waiting_map_some (fs : List Request) (id : UInt64) :
    waiting (fs.map some) id = (fs.filter (·.stream = some id)).map Request.type := by
  induction fs with
  | nil => rfl
  | cons f fs ih =>
    obtain ⟨_ | id', t⟩ := f
    · rw [List.filter_cons_of_neg (by simp)]
      exact ih
    · by_cases h : id' = id
      · subst h
        rw [List.filter_cons_of_pos (by simp), List.map_cons, List.map_cons, waiting_cons_self, ih]
      · rw [List.filter_cons_of_neg (by simpa using h), List.map_cons, waiting_cons_of_ne h, ih]

theorem FeedInv.init (hsrv : srv.Fresh) (hfs : Interleaves calls fs)
    (hs : (channelMachine srv (fs.map some)).init s) : FeedInv srv calls s := by
  subst hs
  constructor
  · exact hsrv.withCalls_zero.symm
  · rfl
  · exact List.nodup_nil
  · intro e he
    cases he
  · intro m hm
    obtain ⟨⟨id, t⟩, hf, rfl⟩ := List.mem_map.1 hm
    obtain ⟨c, hc, rfl⟩ := hfs.own _ hf
    exact ⟨c, hc, t, rfl⟩
  · exact .inl rfl
  · intro c hc _
    rw [waiting_map_some, hfs.order c hc, c.frames_body]
  · intro c _ i e he
    cases he
  · intro e he
    cases he

def ChannelState.Fed (s : ChannelState) : Prop := s.inbox = [] ∧ s.pc = .idle

def ChannelStream.unread (e : ChannelStream) : Nat :=
  2 * e.stream.base.msgCh.buf.length + if e.reader = .idle then 1 else 0

def ChannelState.work (s : ChannelState) : Nat :=
  64 * s.inbox.length + 8 * s.pc.left + (s.ch.streams[s.current]?.map (·.unread)).getD 0

theorem ChannelStream.unread_le {e : ChannelStream} (h : e.stream.base.msgCh.buf.length ≤ 1) :
    e.unread ≤ 3 := by
  unfold unread
  split <;> omega

theorem DispatcherPc.left_le (pc : DispatcherPc) : pc.left ≤ 7 := by
  unfold left
  split <;> decide

namespace FeedInv

variable {s : ChannelState} (h : FeedInv srv calls s)

include h

theorem room {e : ChannelStream} {i : Nat} (he : s.ch.streams[i]? = some e) :
    e.stream.base.msgCh.buf.length ≤ 1 := by
  obtain ⟨c, hc, hid⟩ := h.known e (List.mem_of_getElem? he)
  exact (h.fed c hc i e he hid).room

theorem work_le : s.work ≤ 64 * s.inbox.length + 59 := by
  have hpc := s.pc.left_le
  unfold ChannelState.work
  cases he : s.ch.streams[s.current]? with
  | none =>
    rw [Option.map_none, Option.getD_none]
    omega
  | some e =>
    have hle := ChannelStream.unread_le (h.room he)
    rw [Option.map_some, Option.getD_some]
    omega

theorem down_read (he : s.ch.streams[s.current]? = some e) (hrecv : e.stream.headersReceived = true)
    (hbuf : e.stream.base.msgCh.buf ≠ []) (hopen : e.stream.base.msgCh.closed = false) :
    ∃ a s', KeepsReading s a ∧ channelStep s a = some s' ∧ s'.work < s.work := by
  have hi := (List.getElem?_eq_some_iff.1 he).1
  have hwork (e' : ChannelStream) (hlt : e'.unread < e.unread) :
      ({ s with ch := s.ch.setStream s.current e' } : ChannelState).work < s.work := by
    simpa only [ChannelState.work, ServerChannel.setStream, List.getElem?_set_self hi, he,
      Option.map_some, Option.getD_some, Nat.add_lt_add_iff_left] using hlt
  have hreading := h.reading e (List.mem_of_getElem? he)
  rw [hopen] at hreading
  rcases hr : e.reader with _ | _ | (_ | _) | (_ | _) | _
  · have hcall : recvMsg e.stream.base e.reader .call = some (e.stream.base, .select, none) := by
      rw [hr]
      rfl
    refine ⟨_, _, ?_, channelStep_read he hrecv hcall, hwork _ ?_⟩
    · simp [KeepsReading]
    · simp [ChannelStream.unread, hr]
  · obtain ⟨m, rest, hm⟩ := List.exists_cons_of_ne_nil hbuf
    have hcall : recvMsg e.stream.base e.reader .recv =
        some ({ e.stream.base with msgCh := e.stream.base.msgCh.pop }, .idle, some (.msg m)) := by
      simp only [hr, recvMsg, hm]
    refine ⟨_, _, ?_, channelStep_read he hrecv hcall, hwork _ ?_⟩
    · simp [KeepsReading]
    · simp only [ChannelStream.unread, Chan.pop, hm, List.tail_cons, List.length_cons, hr,
        ↓reduceIte, reduceCtorEq]
      omega
  all_goals simp [hr, RecvPc.Reading] at hreading

theorem down (hsrv : srv.Fresh) (hadm : Admissible srv calls) (hfed : ¬ s.Fed) :
    ∃ a s', KeepsReading s a ∧ channelStep s a = some s' ∧ s'.work < s.work := by
  by_cases hpc : s.pc = .idle
  · cases hin : s.inbox with
    | nil => exact (hfed ⟨hin, hpc⟩).elim
    | cons msg rest =>
      obtain ⟨s', hs', hinv, hrest⟩ := h.next hsrv hadm hpc hin
      refine ⟨.next, s', by simp [KeepsReading], hs', ?_⟩
      have hle := hinv.work_le
      rw [hrest] at hle
      have hge : 64 * (rest.length + 1) ≤ s.work := by
        simp only [ChannelState.work, hin, List.length_cons]
        omega
      omega
  · have hcur := h.current.resolve_left hpc
    have he := List.getElem?_eq_getElem hcur
    obtain ⟨c, hc, hid⟩ := h.known _ (List.getElem_mem hcur)
    have hfeeding := h.fed c hc _ _ he hid
    rw [ChannelState.pcAt, if_pos rfl] at hfeeding
    rcases hfeeding.progress hpc with ⟨a, st, pc, hd⟩ | ⟨hbuf, hopen⟩
    · refine ⟨_, _, ?_, channelStep_dispatch he hd, ?_⟩
      · simp [KeepsReading]
      · have hlt := hfeeding.left_lt (dispatch_step hd)
        have hle := ChannelStream.unread_le
          ((h.dispatch he (dispatch_step hd)).room (List.getElem?_set_self hcur))
        simp only [ChannelState.work, ServerChannel.setStream, List.getElem?_set_self hcur, he,
          Option.map_some, Option.getD_some]
        omega
    · exact h.down_read he hfeeding.steady.1 hbuf hopen

end FeedInv

/-- A handler was given the beginning of what was sent, and the end behind the last. -/
def Delivers (c : ClientCall) (st : ServerStream) : Prop :=
  st.base.msgCh.sent <+: c.messages ∧ st.base.msgCh.panicked = false ∧
    (st.base.msgCh.closed = true → st.base.msgCh.sent = c.messages)

theorem Feeding.delivers (h : Feeding st pc todo c.messages) : Delivers c st := by
  obtain ⟨⟨_, _, _, _, _, hok⟩, _, hhere⟩ := h
  cases pc with
  | idle =>
    obtain ⟨_, _, ⟨hopen, rest, _, hmsgs⟩ | ⟨_, _, _, hsent⟩⟩ := hhere
    · exact ⟨⟨rest, hmsgs⟩, hok, fun hc => by simp [hopen.msgCh] at hc⟩
    · exact ⟨hsent ▸ List.prefix_rfl, hok, fun _ => hsent⟩
  | deliver data eos pc =>
    obtain ⟨_, hopen, _, rest, _, hmsgs⟩ := hhere
    exact ⟨⟨data :: rest, hmsgs⟩, hok, fun hc => by simp [hopen.msgCh] at hc⟩
  | lockRecv => exact ⟨hhere.2.2.2.2 ▸ List.prefix_rfl, hok, fun _ => hhere.2.2.2.2⟩
  | closeRecv pc => exact ⟨hhere.2.2.2.1 ▸ List.prefix_rfl, hok, fun _ => hhere.2.2.2.1⟩
  | closeErr e pc | closeSend e pc => cases hhere

theorem Feeding.ended (h : Feeding st .idle [] msgs) :
    st.base.msgCh.sent = msgs ∧ st.base.msgCh.closed = true := by
  obtain ⟨_, _, ⟨_, rest, hrest, _⟩ | ⟨_, hclosed, _, hsent⟩⟩ := h.here
  · cases hrest
  · exact ⟨hsent, hclosed⟩

/-- At no time is anything lost, merged, split, duplicated, reordered or moved to another stream,
and the dispatcher can always go on until every stream has received all. -/
theorem clientToServer_transport {srv : WebrtcServer} (hsrv : srv.Fresh)
    (hadm : Admissible srv calls) (hfs : Interleaves calls fs)
    (h : (channelMachine srv (fs.map some)).ReachableWith KeepsReading s) :
    (∀ e ∈ s.ch.streams, ∃ c ∈ calls, e.id = c.stream ∧ Delivers c e.stream) ∧
      (s.Fed → ∀ c ∈ calls, ∃ e ∈ s.ch.streams, e.id = c.stream ∧
        e.stream.base.msgCh.sent = c.messages ∧ e.stream.base.msgCh.closed = true) ∧
      (channelMachine srv (fs.map some)).CanReach KeepsReading ChannelState.Fed s := by
  have hinv : FeedInv srv calls s :=
    h.invariant (fun _ => .init hsrv hfs) fun _ _ _ hI ha hs => hI.step hsrv hadm ha hs
  refine ⟨?_, ?_, ?_⟩
  · intro e he
    obtain ⟨i, hi⟩ := List.getElem?_of_mem he
    obtain ⟨c, hc, hid⟩ := hinv.known e he
    exact ⟨c, hc, hid, (hinv.fed c hc i e hi hid).delivers⟩
  · intro ⟨hin, hpc⟩ c hc
    by_cases hfresh : c.stream ∈ s.ch.streams.map (·.id)
    · obtain ⟨e, he, hid⟩ := List.mem_map.1 hfresh
      obtain ⟨i, hi⟩ := List.getElem?_of_mem he
      have hfed := hinv.fed c hc i e hi hid
      rw [ChannelState.pcAt_idle hpc, hin] at hfed
      exact ⟨e, he, hid, hfed.ended⟩
    · have := hinv.fresh c hc hfresh
      rw [hin] at this
      cases this
  · exact .of_measure ChannelState.work (fun _ _ _ hI ha hs => hI.step hsrv hadm ha hs)
      (fun _ hI => hI.down hsrv hadm) hinv

/-- A client stream and a unary call, their frames interleaved on one channel. -/
theorem clientToServer_transport_two :
    let streaming : ClientCall :=
      { stream := 1, headers := { method := "/echo" }, sends := [[7], []], last := .closeSend }
    let unary : ClientCall :=
      { stream := 2, headers := { method := "/echo" }, sends := [], last := .unary [8, 9] }
    let data (id : UInt64) (data : Bytes) (eos : Bool) : Request :=
      ⟨some id, .message { hasMessage := true, packetMessage := some { data, eom := true }, eos }⟩
    let fs : List Request :=
      [⟨some 1, .headers streaming.headers⟩, data 1 [7] false, ⟨some 2, .headers unary.headers⟩,
        data 1 [] false, data 2 [8, 9] true,
        ⟨some 1, .message { packetMessage := some { eom := true }, eos := true }⟩]
    let srv : WebrtcServer := { handlers := ["/echo"] }
    Admissible srv [streaming, unary] ∧ Interleaves [streaming, unary] fs ∧
      (channelMachine srv (fs.map some)).CanReach KeepsReading ChannelState.Fed
        { ch := { server := srv }, inbox := fs.map some } := by
  intro streaming unary data fs srv
  have hsrv : srv.Fresh := ⟨rfl, rfl, rfl, rfl⟩
  have hadm : Admissible srv [streaming, unary] := by
    refine ⟨by decide, by decide, ?_, ?_⟩
    · simp [streaming, unary, srv]
    · simp [streaming, unary, ClientCall.messages, MaxMessageSize]
  have hshort (m : Bytes) (hm : m ≠ []) (hl : m.length ≤ 2) :
      packets maxRequestMessagePacketDataSize m = [{ data := m, eom := true }] :=
    packets_short hm (hl.trans (by decide))
  have hempty : packets maxRequestMessagePacketDataSize [] = [{ eom := true }] := rfl
  have hfs : Interleaves [streaming, unary] fs := by
    refine ⟨?_, ?_⟩
    · simp [fs, data, streaming, unary]
    · intro c hc
      rw [ClientCall.frames_eq]
      rcases List.mem_cons.1 hc with rfl | hc
      · simp [fs, data, streaming, ClientCall.messageFrames, ClientCall.endFrames, hshort,
          hempty]
      · obtain rfl := List.mem_singleton.1 hc
        simp [fs, data, unary, ClientCall.messageFrames, ClientCall.endFrames, hshort]
  exact ⟨hadm, hfs, (clientToServer_transport hsrv hadm hfs (.init rfl)).2.2⟩

end Goutils.Rpc
