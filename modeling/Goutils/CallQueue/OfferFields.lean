import Goutils.CallQueue.Lifecycle
import Goutils.CallQueue.RecvOffer

namespace Goutils.CallQueue
open Lib
set_option autoImplicit true

/-- `WebRTCCallOffer`, by what its methods return. Times are in nanoseconds. -/
structure WebRTCCallOffer where
  uuid : String
  sdp : String
  disableTrickleICE : Bool
  deadline : Int
  deriving DecidableEq

/-- A call of `SendOfferInit` with the UUID that it returned and the time of its `time.Now()`. -/
structure SentOffer where
  host : String
  sdp : String
  disableTrickle : Bool
  uuid : String
  startedAt : Int
  deriving DecidableEq

def bsonTime (t : Int) : Int := t / 1000000 * 1000000

theorem bsonTime_le (t : Int) : bsonTime t ≤ t := Int.ediv_mul_le t (by decide)

def MongoQueue.sendOfferInit (operatorID : String) (o : SentOffer) : MongoCall where
  id := o.uuid
  callerOperatorID := operatorID
  host := o.host
  startedAt := bsonTime o.startedAt
  callerSDP := o.sdp

def MongoCall.offer (defaultOfferDeadline : Int) (c : MongoCall) : WebRTCCallOffer where
  uuid := c.id
  sdp := c.callerSDP
  disableTrickleICE := c.disableTrickle
  deadline := c.startedAt + defaultOfferDeadline

def MemoryExchange.offer (deadline : Int) (e : MemoryExchange) : WebRTCCallOffer where
  uuid := e.uuid
  sdp := e.sdp
  disableTrickleICE := e.disableTrickle
  deadline := deadline

/-- What an answerer, or the goroutine of `RecvOffer`, writes to the document. -/
inductive AnswererOp where
  | initialSDP (sdp : String)
  | candidate (candidate : ICECandidateInit)
  | error (err : String)
  | done

def MongoQueue.answer (host uuid : String) (docs : Calls) : AnswererOp → Calls × UpdateResult
  | .initialSDP sdp => docs.updateOne (fun d => d.id = uuid) fun d => { d with answererSDP := sdp }
  | .candidate candidate => docs.updateOne (fun d => d.id = uuid) fun d =>
      { d with answererCandidates := d.answererCandidates ++ [iceCandidateToMongo candidate] }
  | .error err =>
    docs.updateOne (fun d => d.id = uuid) fun d => { d with answererError := some err }
  | .done => docs.updateOne (isOffer host uuid) fun d => { d with answererDone := true }

/-- The MongoDB queue with the offers that were sent. -/
structure SentMongo where
  recv : RecvState := {}
  sent : List SentOffer := []

inductive SentMongoAct where
  | sendOfferInit (operatorID : String) (o : SentOffer)
  | caller (host uuid : String) (op : CallerOp)
  | answerer (host uuid : String) (op : AnswererOp)
  | queue (a : QueueAct)

def sentMongoStep (s : SentMongo) : SentMongoAct → Option SentMongo
  | .sendOfferInit operatorID o =>
    (recvStep s.recv (.insert (MongoQueue.sendOfferInit operatorID o))).map fun recv =>
      { recv := recv, sent := s.sent ++ [o] }
  | .caller host uuid op =>
    some { s with recv := { s.recv with calls := (MongoQueue.call host uuid s.recv.calls op).1 } }
  | .answerer host uuid op =>
    some { s with recv := { s.recv with calls := (MongoQueue.answer host uuid s.recv.calls op).1 } }
  -- The writes to the collection are those above.
  | .queue (.insert _) | .queue (.change _) => none
  | .queue a => (recvStep s.recv a).map fun recv => { s with recv }

def sentMongoMachine : Machine SentMongo SentMongoAct where
  init s := s = {}
  step := sentMongoStep

/-- The in-memory queue with the offers sent and the deadlines of its exchanges. -/
structure SentMemory where
  queue : MemoryQueue := {}
  deadlines : List Int := []
  sent : List SentOffer := []

inductive SentMemoryAct where
  | sendOfferInit (o : SentOffer)
  | queue (a : MemoryAct)

def sentMemoryStep (defaultOfferDeadline : Int) (s : SentMemory) :
    SentMemoryAct → Option SentMemory
  | .sendOfferInit o =>
    (memoryStep s.queue (.sendOfferInit o.host o.sdp o.disableTrickle o.uuid)).map fun queue =>
      { queue := queue
        deadlines := s.deadlines ++ [o.startedAt + defaultOfferDeadline]
        sent := s.sent ++ [o] }
  | .queue (.sendOfferInit _ _ _ _) => none
  | .queue a => (memoryStep s.queue a).map fun queue => { s with queue }

def sentMemoryMachine (defaultOfferDeadline : Int) : Machine SentMemory SentMemoryAct where
  init s := s = {}
  step := sentMemoryStep defaultOfferDeadline

inductive CallQueueKind where
  | memory
  | mongoDB

inductive Arrives (defaultOfferDeadline : Int) :
    CallQueueKind → SentOffer → WebRTCCallOffer → Prop where
  | memory : (sentMemoryMachine defaultOfferDeadline).Reachable s → s.sent[x]? = some o →
      (hosts, x) ∈ s.queue.returned → s.queue.exchanges[x]? = some e →
      s.deadlines[x]? = some deadline → Arrives defaultOfferDeadline .memory o (e.offer deadline)
  | mongoDB : sentMongoMachine.Reachable s → o ∈ s.sent → r ∈ s.recv.offers →
      r.pc = .returned c → c.id = o.uuid →
      Arrives defaultOfferDeadline .mongoDB o (c.offer defaultOfferDeadline)

/-! ### The in-memory queue -/

def MemoryExchange.sent (e : MemoryExchange) : String × String × Bool :=
  (e.uuid, e.sdp, e.disableTrickle)

def SentOffer.fields (o : SentOffer) : String × String × Bool := (o.uuid, o.sdp, o.disableTrickle)

theorem memoryStep_sent {s s' : MemoryQueue} (h : memoryStep s a = some s')
    (ha : ∀ host sdp dt uuid, a ≠ .sendOfferInit host sdp dt uuid) :
    s'.exchanges.map MemoryExchange.sent = s.exchanges.map MemoryExchange.sent := by
  cases a with
  | sendOfferInit host sdp dt uuid => exact absurd rfl (ha host sdp dt uuid)
  | sendOfferUpdate host uuid c =>
    cases h
    simp only [MemoryQueue.sendOfferUpdate]
    split
    · rfl
    · exact map_modify_same (by intro e; rfl) _ _
  | sendOfferDone host uuid =>
    cases h
    simp only [MemoryQueue.sendOfferDone]
    split
    · rfl
    · exact map_modify_same (by intro e; rfl) _ _
  | sendOfferError host uuid err =>
    cases h
    simp only [MemoryQueue.sendOfferError]
    split
    · rfl
    · split
      · rfl
      · exact map_modify_same (by intro e; rfl) _ _
  | recvOffer hosts | senderDone i | receiverDone j | expire k =>
    cases h
    rfl
  | exchange i j =>
    simp only [memoryStep] at h
    split at h
    · split at h
      · cases h
        rfl
      · cases h
    · cases h

structure SentMemory.Kept (defaultOfferDeadline : Int) (s : SentMemory) : Prop where
  exchanges : s.queue.exchanges.map MemoryExchange.sent = s.sent.map SentOffer.fields
  deadlines : s.deadlines = s.sent.map fun o => o.startedAt + defaultOfferDeadline

theorem SentMemory.Kept.step {s s' : SentMemory} (h : s.Kept dl)
    (hs : sentMemoryStep dl s a = some s') : s'.Kept dl := by
  unfold sentMemoryStep at hs
  split at hs
  · rename_i o
    obtain ⟨queue, hq, rfl⟩ := Option.map_eq_some_iff.1 hs
    simp only [memoryStep] at hq
    split at hq
    · cases hq
    · cases hq
      refine ⟨?_, ?_⟩
      · show (s.queue.exchanges ++ [_]).map _ = _
        rw [List.map_append, List.map_append, h.exchanges]
        rfl
      · rw [List.map_append, h.deadlines]
        rfl
  · cases hs
  · rename_i ha
    obtain ⟨queue, hq, rfl⟩ := Option.map_eq_some_iff.1 hs
    exact ⟨(memoryStep_sent hq ha).trans h.exchanges, h.deadlines⟩

theorem SentMemory.kept_of_reachable (h : (sentMemoryMachine dl).Reachable s) : s.Kept dl := by
  apply h.invariant
  · rintro s rfl
    exact ⟨rfl, rfl⟩
  · exact fun s a s' hk hs => hk.step hs

theorem SentMemory.Kept.at {s : SentMemory} {x : Nat} (h : s.Kept dl) (ho : s.sent[x]? = some o)
    (he : s.queue.exchanges[x]? = some e) (hd : s.deadlines[x]? = some deadline) :
    e.sent = o.fields ∧ deadline = o.startedAt + dl := by
  have hx := congrArg (·[x]?) h.exchanges
  have hdl := congrArg (·[x]?) h.deadlines
  simp only [List.getElem?_map, ho, he, hd, Option.map_some, Option.some.injEq] at hx hdl
  exact ⟨hx, hdl⟩

/-! ### The MongoDB queue -/

def RecvPc.call : RecvPc → Option MongoCall
  | .take c | .took c | .returned c => some c
  | _ => none

structure RecvOffer.Docs (P : MongoCall → Prop) (r : RecvOffer) : Prop where
  event : ∀ c, r.eventChan = some c → P c
  call : ∀ c, r.pc.call = some c → P c

theorem RecvOffer.Docs.of_event {r : RecvOffer} (h : ∀ c, r.eventChan = some c → P c)
    (hpc : r.pc.call = none) : r.Docs P where
  event := h
  call c hc := by
    rw [hpc] at hc
    cases hc

/-- A property of every document in the collection, in an event or with a `RecvOffer`. -/
structure RecvState.Docs (P : MongoCall → Prop) (s : RecvState) : Prop where
  calls : ∀ c ∈ s.calls, P c
  inserted : ∀ c ∈ s.inserted, P c
  offers : ∀ r ∈ s.offers, r.Docs P

namespace RecvState.Docs
variable {P : MongoCall → Prop} {s s' : RecvState}

theorem mono {Q : MongoCall → Prop} (h : s.Docs P) (hPQ : ∀ c, P c → Q c) : s.Docs Q where
  calls c hc := hPQ c (h.calls c hc)
  inserted c hc := hPQ c (h.inserted c hc)
  offers r hr :=
    { event c hc := hPQ c ((h.offers r hr).event c hc)
      call c hc := hPQ c ((h.offers r hr).call c hc) }

theorem mem_update (h : s.Docs P) (hf : ∀ c, P c → P (f c)) (p : MongoCall → Bool) :
    ∀ c ∈ s.calls.update p f, P c := by
  intro c hc
  rcases Calls.mem_update hc with hc | ⟨c₀, hc₀, _, rfl⟩
  · exact h.calls c hc
  · exact hf c₀ (h.calls c₀ hc₀)

theorem insert (h : s.Docs P) (hc : P c) :
    Docs P { s with calls := s.calls ++ [c], inserted := s.inserted ++ [c] } :=
  ⟨List.forall_mem_append.2 ⟨h.calls, List.forall_mem_singleton.2 hc⟩,
    List.forall_mem_append.2 ⟨h.inserted, List.forall_mem_singleton.2 hc⟩, h.offers⟩

theorem setOffer {calls : Calls} {hs : List (Nat × MongoCall)} {as : List (Nat × String)}
    (h : s.Docs P) (hcalls : ∀ c ∈ calls, P c) (hr : r'.Docs P) :
    Docs P { s.setOffer i r' with calls := calls, handed := hs, attempts := as } := by
  refine ⟨hcalls, h.inserted, ?_⟩
  intro r hmem
  rcases List.mem_or_eq_of_mem_set hmem with hmem | rfl
  · exact h.offers r hmem
  · exact hr

theorem step (h : s.Docs P) (hacq : ∀ operatorID c, P c → P (acquire operatorID c))
    (hs : RecvStep s a s') (hins : ∀ c, a ≠ .insert c) (hch : ∀ c, a ≠ .change c) :
    s'.Docs P := by
  have hoffer : ∀ {i : Nat} {r}, s.offers[i]? = some r → r.Docs P := fun hr =>
    h.offers _ (List.mem_of_getElem? hr)
  have hfind : ∀ r startedAtWindow uuid, ∀ c ∈ (s.findOne r startedAtWindow uuid).1, P c :=
    fun r _ _ => h.mem_update (hacq r.operatorID) _
  have htake : ∀ r uuid, ∀ c ∈ (s.takeOne r uuid).1, P c := fun r uuid => by
    rw [RecvState.takeOne, Calls.updateOne_docs]
    exact h.mem_update (hacq r.operatorID) _
  cases hs with
  | insert => exact absurd rfl (hins _)
  | change => exact absurd rfl (hch _)
  | expire => exact { h with calls := fun c hc => h.calls c (List.mem_of_mem_filter hc) }
  | recv =>
    refine ⟨h.calls, h.inserted, List.forall_mem_append.2 ⟨h.offers, ?_⟩⟩
    exact List.forall_mem_singleton.2 (.of_event (by intro c hc; cases hc) rfl)
  | cancel hr | drop hr => exact h.setOffer h.calls ⟨(hoffer hr).event, (hoffer hr).call⟩
  | send hr _ hmem _ _ =>
    apply h.setOffer h.calls
    refine ⟨?_, (hoffer hr).call⟩
    rintro c ⟨⟩
    exact h.inserted _ hmem
  | subscribe _ _ hpc =>
    apply h.setOffer h.calls
    apply RecvOffer.Docs.of_event
    · intro c hc
      cases hc
    · rcases hpc with rfl | rfl <;> rfl
  | ready hr _ | findNone hr _ =>
    apply h.setOffer h.calls
    exact .of_event (hoffer hr).event rfl
  | giveUp hr _ _ hpc =>
    apply h.setOffer h.calls
    apply RecvOffer.Docs.of_event
    · exact (hoffer hr).event
    · rcases hpc with rfl | rfl <;> rfl
  | found hr _ hmem _ _ =>
    apply h.setOffer (hfind _ _ _)
    refine ⟨(hoffer hr).event, ?_⟩
    rintro c ⟨⟩
    exact h.calls _ hmem
  | findFails hr _ hcalls =>
    apply h.setOffer
    · rcases hcalls with rfl | ⟨_, _, rfl⟩
      · exact h.calls
      · exact hfind _ _ _
    · exact .of_event (hoffer hr).event rfl
  | receive hr _ hev =>
    apply h.setOffer h.calls
    refine ⟨(by intro c hc; cases hc), ?_⟩
    rintro c ⟨⟩
    exact (hoffer hr).event _ hev
  | takes hr hpc _ _ =>
    apply h.setOffer (htake _ _)
    refine ⟨(hoffer hr).event, ?_⟩
    rintro c ⟨⟩
    exact (hoffer hr).call _ (by rw [hpc]; rfl)
  | misses hr _ hpc hcalls =>
    apply h.setOffer
    · rcases hcalls with rfl | rfl
      · exact h.calls
      · exact htake _ _
    · apply RecvOffer.Docs.of_event
      · exact (hoffer hr).event
      · rcases hpc with rfl | rfl <;> rfl
  | returns hr hpc =>
    apply h.setOffer h.calls
    refine ⟨(hoffer hr).event, ?_⟩
    rintro c ⟨⟩
    exact (hoffer hr).call _ (by rw [hpc]; rfl)
  | cleanup hr hpc =>
    apply h.setOffer h.calls
    apply RecvOffer.Docs.of_event
    · exact (hoffer hr).event
    · rcases hpc with ⟨_, rfl⟩ | ⟨_, rfl⟩ <;> rfl

end RecvState.Docs

theorem RecvStep.inserted (h : RecvStep s a s') (ha : ∀ c, a ≠ .insert c) :
    s'.inserted = s.inserted := by
  cases h with
  | insert => exact absurd rfl (ha _)
  | _ => rfl

/-- The document is that of the offer, in the fields that the exchange shows. -/
structure MongoCall.Carries (c : MongoCall) (o : SentOffer) : Prop where
  id : c.id = o.uuid
  sdp : c.callerSDP = o.sdp
  startedAt : c.startedAt = bsonTime o.startedAt
  disableTrickle : c.disableTrickle = false

def SentIn (sent : List SentOffer) (c : MongoCall) : Prop := ∃ o ∈ sent, c.Carries o

theorem SentIn.congr (h : SentIn sent c) (hid : c'.id = c.id) (hsdp : c'.callerSDP = c.callerSDP)
    (hstart : c'.startedAt = c.startedAt) (hdt : c'.disableTrickle = c.disableTrickle) :
    SentIn sent c' := by
  obtain ⟨o, hmem, hc⟩ := h
  exact ⟨o, hmem, hid.trans hc.id, hsdp.trans hc.sdp, hstart.trans hc.startedAt,
    hdt.trans hc.disableTrickle⟩

structure SentMongo.Kept (s : SentMongo) : Prop where
  docs : s.recv.Docs (SentIn s.sent)
  inserted : s.recv.inserted.map MongoCall.id = s.sent.map SentOffer.uuid
  nodup : (s.sent.map SentOffer.uuid).Nodup

namespace SentMongo.Kept
variable {s s' : SentMongo}

theorem sendOfferInit (h : s.Kept) (hfresh : ∀ d ∈ s.recv.inserted, d.id ≠ o.uuid) :
    Kept {
      recv := { s.recv with
        calls := s.recv.calls ++ [MongoQueue.sendOfferInit operatorID o]
        inserted := s.recv.inserted ++ [MongoQueue.sendOfferInit operatorID o] }
      sent := s.sent ++ [o] } := by
  refine ⟨?_, ?_, ?_⟩
  · apply RecvState.Docs.insert
    · apply h.docs.mono
      rintro c ⟨o', hmem, hc⟩
      exact ⟨o', List.mem_append_left _ hmem, hc⟩
    · exact ⟨o, List.mem_append_right _ List.mem_cons_self, rfl, rfl, rfl, rfl⟩
  · rw [List.map_append, List.map_append, h.inserted]
    rfl
  · rw [List.map_append, List.map_singleton]
    apply List.nodup_append.2 ⟨h.nodup, List.nodup_singleton _, ?_⟩
    rw [← h.inserted]
    intro uuid hmem uuid' huuid
    obtain ⟨d, hd, rfl⟩ := List.mem_map.1 hmem
    rw [List.mem_singleton.1 huuid]
    exact hfresh d hd

theorem write (h : s.Kept) {p : MongoCall → Bool} {f : MongoCall → MongoCall}
    (hf : ∀ c, (f c).id = c.id ∧ (f c).callerSDP = c.callerSDP ∧ (f c).startedAt = c.startedAt ∧
      (f c).disableTrickle = c.disableTrickle) :
    Kept { s with recv := { s.recv with calls := (s.recv.calls.updateOne p f).1 } } := by
  rw [Calls.updateOne_docs]
  refine { h with docs := ⟨h.docs.mem_update ?_ p, h.docs.inserted, h.docs.offers⟩ }
  intro c hc
  obtain ⟨hid, hsdp, hstart, hdt⟩ := hf c
  exact hc.congr hid hsdp hstart hdt

theorem caller (h : s.Kept) (host uuid : String) (op : CallerOp) :
    Kept { s with recv := { s.recv with
      calls := (MongoQueue.call host uuid s.recv.calls op).1 } } := by
  cases op with
  | update c | done | error err => exact h.write (by intro c; exact ⟨rfl, rfl, rfl, rfl⟩)

theorem answerer (h : s.Kept) (host uuid : String) (op : AnswererOp) :
    Kept { s with recv := { s.recv with
      calls := (MongoQueue.answer host uuid s.recv.calls op).1 } } := by
  cases op with
  | initialSDP sdp => exact h.write (by intro c; exact ⟨rfl, rfl, rfl, rfl⟩)
  | candidate c | error err | done => exact h.write (by intro c; exact ⟨rfl, rfl, rfl, rfl⟩)

theorem step (h : s.Kept) (hs : sentMongoStep s a = some s') : s'.Kept := by
  unfold sentMongoStep at hs
  split at hs
  · obtain ⟨recv, hrecv, rfl⟩ := Option.map_eq_some_iff.1 hs
    cases recvStep_step hrecv with
    | insert hfresh _ => exact h.sendOfferInit hfresh
  · cases hs
    exact h.caller _ _ _
  · cases hs
    exact h.answerer _ _ _
  · cases hs
  · cases hs
  · rename_i hins hch
    obtain ⟨recv, hrecv, rfl⟩ := Option.map_eq_some_iff.1 hs
    have hstep := recvStep_step hrecv
    refine ⟨h.docs.step (fun _ _ hc => hc.congr rfl rfl rfl rfl) hstep hins hch, ?_, h.nodup⟩
    rw [hstep.inserted hins]
    exact h.inserted

end SentMongo.Kept

theorem SentMongo.kept_of_reachable (h : sentMongoMachine.Reachable s) : s.Kept := by
  apply h.invariant
  · rintro s rfl
    exact ⟨⟨List.forall_mem_nil _, List.forall_mem_nil _, List.forall_mem_nil _⟩, rfl, .nil⟩
  · exact fun s a s' hk hs => hk.step hs

/-- Every exchange that `RecvOffer` returns is that of an offer that was sent, and shows it as it
was sent. -/
theorem SentMongo.carries (h : sentMongoMachine.Reachable s) (hr : r ∈ s.recv.offers)
    (hpc : r.pc = .returned c) : SentIn s.sent c :=
  ((kept_of_reachable h).docs.offers r hr).call c (by rw [hpc]; rfl)

/-- The exchange has the offer's UUID and SDP, and the flag unless it is set and the queue is the
MongoDB one. -/
theorem offer_arrives (h : Arrives defaultOfferDeadline kind o e) :
    e.uuid = o.uuid ∧ e.sdp = o.sdp ∧ e.deadline ≤ o.startedAt + defaultOfferDeadline ∧
      (e.disableTrickleICE = o.disableTrickle ↔ kind = .memory ∨ o.disableTrickle = false) := by
  cases h with
  | memory hs ho _ he hd =>
    obtain ⟨hsent, rfl⟩ := (SentMemory.kept_of_reachable hs).at ho he hd
    simp only [MemoryExchange.sent, SentOffer.fields, Prod.mk.injEq] at hsent
    obtain ⟨huuid, hsdp, hdt⟩ := hsent
    exact ⟨huuid, hsdp, Int.le_refl _, fun _ => .inl rfl, fun _ => hdt⟩
  | mongoDB hs ho hr hpc hid =>
    obtain ⟨o', ho', hc⟩ := SentMongo.carries hs hr hpc
    have heq : o' = o := by
      apply List.inj_on_of_nodup_map (SentMongo.kept_of_reachable hs).nodup ho' ho
      exact hc.id.symm.trans hid
    subst heq
    refine ⟨hc.id, hc.sdp, ?_, ?_⟩
    · show _ + _ ≤ _
      rw [hc.startedAt]
      exact Int.add_le_add_right (bsonTime_le _) _
    · rw [MongoCall.offer, hc.disableTrickle]
      exact ⟨fun h => .inr h.symm, fun h => (h.resolve_left nofun).symm⟩

theorem mongoDB_arrives (o : SentOffer)
    (hrun : (sentMongoMachine.exec {} [.sendOfferInit "caller" o,
      .queue (.recv "answerer" [o.host]), .queue (.step 0 (.subscribe true)),
      .queue (.step 0 (.find 0 (some o.uuid))), .queue (.step 0 .cleanup)]).any
      (fun s => decide (o ∈ s.sent ∧ ∃ r ∈ s.recv.offers,
        r.pc = .returned (MongoQueue.sendOfferInit "caller" o))) = true) :
    Arrives dl .mongoDB o ((MongoQueue.sendOfferInit "caller" o).offer dl) := by
  obtain ⟨s, hs, hp⟩ := exists_of_any hrun
  obtain ⟨hsent, r, hr, hpc⟩ := of_decide_eq_true hp
  exact .mongoDB (Machine.reachable_exec rfl hs) hsent hr hpc rfl

def trickleOff : SentOffer :=
  { host := "host", sdp := "sdp", disableTrickle := true, uuid := "uuid", startedAt := 1500000 }

/-- The in-memory queue keeps the flag of an offer, and the MongoDB queue keeps it if it is not
set. -/
theorem offer_arrives_both :
    (∃ e, Arrives 10000000000 .memory trickleOff e ∧ e.disableTrickleICE = true) ∧
      ∃ e, Arrives 10000000000 .mongoDB { trickleOff with disableTrickle := false } e ∧
        e.disableTrickleICE = false := by
  refine ⟨?_, ?_⟩
  · obtain ⟨s, hr, hsent, hret, he, hd⟩ : ∃ s, (sentMemoryMachine 10000000000).Reachable s ∧
        s.sent[0]? = some trickleOff ∧ (["host"], 0) ∈ s.queue.returned ∧
        s.queue.exchanges[0]? =
          some { uuid := "uuid", host := "host", sdp := "sdp", disableTrickle := true } ∧
        s.deadlines[0]? = some 10001500000 :=
      (sentMemoryMachine 10000000000).exists_reachable {}
        [.sendOfferInit trickleOff, .queue (.recvOffer ["host"]), .queue (.exchange 0 0)] rfl
        (by decide +kernel)
    have harr := Arrives.memory hr hsent hret he hd
    exact ⟨_, harr, (offer_arrives harr).2.2.2.2 (.inl rfl)⟩
  · have harr : Arrives 10000000000 .mongoDB { trickleOff with disableTrickle := false } _ :=
      mongoDB_arrives _ (by decide +kernel)
    exact ⟨_, harr, (offer_arrives harr).2.2.2.2 (.inr rfl)⟩

/-- The document of an offer without Trickle ICE does not say so. -/
theorem offer_arrives_trickled :
    ∃ e, Arrives 10000000000 .mongoDB trickleOff e ∧
      e.disableTrickleICE ≠ trickleOff.disableTrickle :=
  ⟨_, mongoDB_arrives trickleOff (by decide +kernel), by decide⟩

end Goutils.CallQueue
