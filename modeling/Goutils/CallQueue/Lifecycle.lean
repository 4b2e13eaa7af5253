import Goutils.CallQueue.Memory

namespace Goutils.CallQueue
open Lib
set_option autoImplicit true

inductive CallerOp where
  | update (candidate : ICECandidateInit)
  | done
  | error (err : String)

def MemoryQueue.call (host uuid : String) (s : MemoryQueue) :
    CallerOp → MemoryQueue × Option InactiveOfferError
  | .update candidate => s.sendOfferUpdate host uuid candidate
  | .done => s.sendOfferDone host uuid
  | .error err => s.sendOfferError host uuid err

def MongoQueue.call (host uuid : String) (docs : Calls) :
    CallerOp → Calls × Option InactiveOfferError
  | .update candidate => sendOfferUpdate docs host uuid candidate
  | .done => sendOfferDone docs host uuid
  | .error err => sendOfferError docs host uuid err

inductive OfferPhase where
  | active
  | done
  | gone

def OfferPhase.call (uuid : String) : OfferPhase → CallerOp → OfferPhase × Option InactiveOfferError
  | .active, .update _ => (.active, none)
  | .active, .done => (.done, none)
  | .active, .error _ => (.gone, none)
  | .done, _ => (.done, none)
  | .gone, _ => (.gone, some ⟨uuid⟩)

def documentCall (uuid : String) (done : Bool) : CallerOp → Bool × Option InactiveOfferError
  | .update _ => (done, none)
  | .done => (true, none)
  | .error _ => (done, if done then some ⟨uuid⟩ else none)

namespace MemoryQueue

def HasUuid (s : MemoryQueue) (uuid : String) (x : Nat) : Prop :=
  ∃ e, s.exchanges[x]? = some e ∧ e.uuid = uuid

/-- The map of the host's queue `q` has the exchange at `x`, the only one with the UUID. -/
structure Holds (s : MemoryQueue) (host uuid : String) (done : Bool) (q x : Nat) : Prop where
  queue : s.hostQueues host = some q
  active : ∃ rest, s.activeOffers = (q, x) :: rest ∧ ∀ p ∈ rest, ¬ s.HasUuid uuid p.2
  exchange : ∃ e, s.exchanges[x]? = some e ∧ e.uuid = uuid ∧ e.callerDone = done

def InPhase (s : MemoryQueue) (host uuid : String) : OfferPhase → Prop
  | .active => ∃ q x, s.Holds host uuid false q x
  | .done => ∃ q x, s.Holds host uuid true q x
  | .gone => ∀ p ∈ s.activeOffers, ¬ s.HasUuid uuid p.2

variable {s : MemoryQueue}

theorem Holds.getOrMake (h : s.Holds host uuid done q x) :
    (s.getOrMakeHostsQueue [host]).2.Holds host uuid done q x ∧
      (s.getOrMakeHostsQueue [host]).1 = q :=
  ⟨{ h with queue := getOrMakeHostsQueue_keeps h.queue [host] },
    getOrMakeHostsQueue_registered h.queue⟩

theorem Holds.lookup (h : s.Holds host uuid done q x) : s.lookup q uuid = some x := by
  obtain ⟨rest, hactive, _⟩ := h.active
  obtain ⟨e, he, huuid, _⟩ := h.exchange
  simp [MemoryQueue.lookup, hactive, he, huuid]

theorem lookup_gone (h : ∀ p ∈ s.activeOffers, ¬ s.HasUuid uuid p.2) (q : Nat) :
    s.lookup q uuid = none := by
  cases hx : s.lookup q uuid with
  | none => rfl
  | some x =>
    obtain ⟨hmem, he⟩ := lookup_some hx
    exact absurd he (h _ hmem)

theorem hasUuid_modify {f : MemoryExchange → MemoryExchange} (hf : ∀ e, (f e).uuid = e.uuid)
    (h : (s.modify x f).HasUuid uuid y) : s.HasUuid uuid y := by
  obtain ⟨e, he, huuid⟩ := h
  simp only [modify, List.getElem?_modify] at he
  obtain ⟨e', he', rfl⟩ := Option.map_eq_some_iff.1 he
  refine ⟨e', he', ?_⟩
  split at huuid
  · rw [← huuid, hf]
  · exact huuid

theorem Holds.modify {f : MemoryExchange → MemoryExchange} (h : s.Holds host uuid done q x)
    (hf : ∀ e, (f e).uuid = e.uuid) (hdone : ∀ e, e.callerDone = done → (f e).callerDone = done') :
    (s.modify x f).Holds host uuid done' q x := by
  obtain ⟨rest, hactive, hrest⟩ := h.active
  obtain ⟨e, he, huuid, hd⟩ := h.exchange
  refine ⟨h.queue, ⟨rest, hactive, fun p hp hu => hrest p hp (hasUuid_modify hf hu)⟩, f e, ?_, ?_,
    hdone e hd⟩
  · simp only [MemoryQueue.modify, List.getElem?_modify_eq, he]
    rfl
  · rw [hf, huuid]

theorem Holds.erase (h : s.Holds host uuid done q x) :
    InPhase { s with activeOffers := s.activeOffers.erase (q, x) } host uuid .gone := by
  obtain ⟨rest, hactive, hrest⟩ := h.active
  intro p hp
  simp only [hactive, List.erase_cons_head] at hp
  exact hrest p hp

theorem InPhase.init (hI : s.Inv) (hfresh : ∀ e ∈ s.exchanges, e.uuid ≠ uuid) (host sdp : String)
    (dt : Bool) : (s.sendOfferInit host sdp dt uuid).InPhase host uuid .active := by
  refine ⟨_, s.exchanges.length, s.getOrMakeHostsQueue_single host, ⟨s.activeOffers, rfl, ?_⟩,
    { uuid, host, sdp, disableTrickle := dt }, List.getElem?_concat_length, rfl, rfl⟩
  rintro p hp ⟨e, he, huuid⟩
  obtain ⟨e', he', _⟩ := hI.active p hp
  have hlt := (List.getElem?_eq_some_iff.1 he').1
  change (s.exchanges ++ [_])[p.2]? = some e at he
  rw [List.getElem?_append_left hlt] at he
  exact hfresh e (List.mem_of_getElem? he) huuid

theorem InPhase.active_call (h : s.Holds host uuid false q x) (op : CallerOp) :
    (s.call host uuid op).2 = none ∧
      (s.call host uuid op).1.InPhase host uuid (OfferPhase.call uuid .active op).1 := by
  obtain ⟨ht, hq⟩ := h.getOrMake
  cases op with
  | update c =>
    simp only [call, sendOfferUpdate, hq, ht.lookup]
    exact ⟨trivial, q, x, ht.modify (fun _ => rfl) fun _ hd => hd⟩
  | done =>
    simp only [call, sendOfferDone, hq, ht.lookup]
    exact ⟨trivial, q, x, ht.modify (fun _ => rfl) fun _ _ => rfl⟩
  | error err =>
    obtain ⟨e, he, _, hd⟩ := ht.exchange
    have hopen : ¬ ((s.getOrMakeHostsQueue [host]).2.exchanges[x]?.any (·.callerDone)) = true := by
      simp [he, hd]
    simp only [call, sendOfferError, hq, ht.lookup, if_neg hopen]
    have hm := ht.modify (f := fun e => { e with callerErr := some err, callerDone := true })
      (fun _ => rfl) fun _ _ => (rfl : true = true)
    exact ⟨trivial, hm.erase⟩

theorem InPhase.done_call (h : s.Holds host uuid true q x) (op : CallerOp) :
    (s.call host uuid op).2 = none ∧ (s.call host uuid op).1.InPhase host uuid .done := by
  obtain ⟨ht, hq⟩ := h.getOrMake
  cases op with
  | update c =>
    simp only [call, sendOfferUpdate, hq, ht.lookup]
    exact ⟨trivial, q, x, ht.modify (fun _ => rfl) fun _ hd => hd⟩
  | done =>
    simp only [call, sendOfferDone, hq, ht.lookup]
    exact ⟨trivial, q, x, ht.modify (fun _ => rfl) fun _ _ => rfl⟩
  | error err =>
    obtain ⟨e, he, _, hd⟩ := ht.exchange
    have hdone : ((s.getOrMakeHostsQueue [host]).2.exchanges[x]?.any (·.callerDone)) = true := by
      simp [he, hd]
    simp only [call, sendOfferError, hq, ht.lookup, if_pos hdone]
    exact ⟨trivial, q, x, ht⟩

theorem InPhase.gone_call (h : s.InPhase host uuid .gone) (op : CallerOp) :
    (s.call host uuid op).2 = some ⟨uuid⟩ ∧ (s.call host uuid op).1.InPhase host uuid .gone := by
  have hnone : (s.getOrMakeHostsQueue [host]).2.lookup (s.getOrMakeHostsQueue [host]).1 uuid =
      none := by
    apply lookup_gone
    exact h
  cases op with
  | update c =>
    simp only [call, sendOfferUpdate, hnone]
    exact ⟨trivial, h⟩
  | done =>
    simp only [call, sendOfferDone, hnone]
    exact ⟨trivial, h⟩
  | error err =>
    simp only [call, sendOfferError, hnone]
    exact ⟨trivial, h⟩

theorem InPhase.call {φ : OfferPhase} (h : s.InPhase host uuid φ) (op : CallerOp) :
    (s.call host uuid op).2 = (φ.call uuid op).2 ∧
      (s.call host uuid op).1.InPhase host uuid (φ.call uuid op).1 := by
  cases φ with
  | active =>
    obtain ⟨q, x, h⟩ := h
    obtain ⟨hnil, hnext⟩ := active_call h op
    refine ⟨hnil.trans ?_, hnext⟩
    cases op <;> rfl
  | done =>
    obtain ⟨q, x, h⟩ := h
    exact done_call h op
  | gone => exact gone_call h op

end MemoryQueue

variable {docs : Calls}

theorem Calls.filter_update {p p' : MongoCall → Bool} {f : MongoCall → MongoCall}
    (h : docs.filter p = [d]) (hp' : ∀ d, p' d = true → p d = true) (hd : p' d = true)
    (hf : p (f d) = true) : (docs.update p' f).filter p = [f d] := by
  induction docs with
  | nil => cases h
  | cons d₀ docs ih =>
    rw [Calls.update]
    cases hp₀ : p d₀ with
    | false =>
      have hp₀' : ¬ p' d₀ = true := fun h₀ => by rw [hp' d₀ h₀] at hp₀; cases hp₀
      rw [List.filter_cons_of_neg (by simp [hp₀])] at h
      rw [if_neg hp₀', List.filter_cons_of_neg (by simp [hp₀]), ih h]
    | true =>
      rw [List.filter_cons_of_pos hp₀] at h
      obtain ⟨rfl, hrest⟩ := List.cons.inj h
      rw [if_pos hd, List.filter_cons_of_pos hf, hrest]

theorem Calls.update_none {p : MongoCall → Bool} {f : MongoCall → MongoCall}
    (h : ∀ d ∈ docs, p d = false) : docs.update p f = docs := by
  induction docs with
  | nil => rfl
  | cons d docs ih =>
    rw [Calls.update, if_neg (by simp [h d (List.mem_cons_self ..)]),
      ih fun d hd => h d (List.mem_cons_of_mem _ hd)]

namespace MongoQueue

def InState (docs : Calls) (host uuid : String) (done : Bool) : Prop :=
  ∃ d, docs.filter (isOffer host uuid) = [d] ∧ d.callerDone = done

theorem inactiveUnlessMatched_update {p : MongoCall → Bool} {f : MongoCall → MongoCall}
    (h : docs.any p = true) : inactiveUnlessMatched uuid (docs.updateOne p f).2 = none := by
  rw [inactiveUnlessMatched, Calls.updateOne_matched, h]
  rfl

theorem InState.update (h : InState docs host uuid done) (p : MongoCall → Bool)
    (f : MongoCall → MongoCall) (hf : ∀ d, isOffer host uuid (f d) = isOffer host uuid d)
    (hdone : ∀ d, d.callerDone = done → (f d).callerDone = done')
    (hp : ∀ d, isOffer host uuid d = true → d.callerDone = done → p d = true)
    (hp' : ∀ d, p d = true → isOffer host uuid d = true) :
    inactiveUnlessMatched uuid (docs.updateOne p f).2 = none ∧
      InState (docs.updateOne p f).1 host uuid done' := by
  obtain ⟨d, hfilter, hd⟩ := h
  have hmem : d ∈ docs.filter (isOffer host uuid) := by
    rw [hfilter]
    exact List.mem_singleton_self d
  obtain ⟨hdocs, hoffer⟩ := List.mem_filter.1 hmem
  have hpd := hp d hoffer hd
  refine ⟨inactiveUnlessMatched_update (List.any_eq_true.2 ⟨d, hdocs, hpd⟩), f d, ?_, hdone d hd⟩
  rw [Calls.updateOne_docs, Calls.filter_update hfilter hp' hpd ((hf d).trans hoffer)]

theorem InState.call (h : InState docs host uuid done) (op : CallerOp) :
    (MongoQueue.call host uuid docs op).2 = (documentCall uuid done op).2 ∧
      InState (MongoQueue.call host uuid docs op).1 host uuid (documentCall uuid done op).1 := by
  cases op with
  | update c =>
    exact h.update (isOffer host uuid)
      (fun d => { d with callerCandidates := d.callerCandidates ++ [iceCandidateToMongo c] })
      (fun _ => rfl) (fun _ hd => hd) (fun _ ho _ => ho) fun _ ho => ho
  | done =>
    exact h.update (isOffer host uuid) (fun d => { d with callerDone := true }) (fun _ => rfl)
      (fun _ _ => rfl) (fun _ ho _ => ho) fun _ ho => ho
  | error err =>
    cases done with
    | false =>
      refine h.update (fun d => isOffer host uuid d && !d.callerDone)
        (fun d => { d with callerError := some err }) (fun _ => rfl) (fun _ hd => hd) ?_ ?_
      · intro d ho hd
        simp [ho, hd]
      · intro d ho
        exact (Bool.and_eq_true_iff.1 ho).1
    | true =>
      have hnone : ∀ d ∈ docs, (isOffer host uuid d && !d.callerDone) = false := by
        obtain ⟨d₀, hfilter, hd₀⟩ := h
        intro d hd
        cases ho : isOffer host uuid d with
        | false => rfl
        | true =>
          have hmem : d ∈ docs.filter (isOffer host uuid) := List.mem_filter.2 ⟨hd, ho⟩
          rw [hfilter, List.mem_singleton] at hmem
          rw [hmem, hd₀]
          rfl
      have hany : docs.any (fun d => isOffer host uuid d && !d.callerDone) = false :=
        List.any_eq_false.2 fun d hd => by simp [hnone d hd]
      constructor
      · simp only [MongoQueue.call, sendOfferError, inactiveUnlessMatched, Calls.updateOne_matched,
          hany]
        rfl
      · simp only [MongoQueue.call, sendOfferError, Calls.updateOne_docs, Calls.update_none hnone]
        exact h

end MongoQueue

/-- No call comes behind an error, and no error behind a done. -/
def Compatible (ops : List CallerOp) : Prop :=
  ∀ pre err post, ops = pre ++ .error err :: post → post = [] ∧ .done ∉ pre

theorem compatible_update (c : ICECandidateInit) (ops : List CallerOp) :
    Compatible (.update c :: ops) ↔ Compatible ops := by
  constructor
  · intro h pre err post heq
    obtain ⟨hpost, hdone⟩ := h (.update c :: pre) err post (by rw [heq]; rfl)
    exact ⟨hpost, fun hmem => hdone (List.mem_cons_of_mem _ hmem)⟩
  · intro h pre err post heq
    cases pre with
    | nil => cases heq
    | cons op pre =>
      obtain ⟨rfl, htail⟩ := List.cons.inj heq
      obtain ⟨hpost, hdone⟩ := h pre err post htail
      refine ⟨hpost, fun hmem => ?_⟩
      rcases List.mem_cons.1 hmem with hmem | hmem
      · cases hmem
      · exact hdone hmem

theorem compatible_done (ops : List CallerOp) :
    Compatible (.done :: ops) ↔ ∀ err, .error err ∉ ops := by
  constructor
  · intro h err hmem
    obtain ⟨pre, post, heq⟩ := List.append_of_mem hmem
    exact (h (.done :: pre) err post (by rw [heq]; rfl)).2 (List.mem_cons_self ..)
  · intro h pre err post heq
    cases pre with
    | nil => cases heq
    | cons op pre =>
      obtain ⟨_, heq⟩ := List.cons.inj heq
      refine absurd ?_ (h err)
      rw [heq]
      exact List.mem_append_right _ (List.mem_cons_self ..)

theorem compatible_error (err : String) (ops : List CallerOp) :
    Compatible (.error err :: ops) ↔ ops = [] := by
  constructor
  · intro h
    exact (h [] err ops rfl).1
  · rintro rfl pre err' post heq
    cases pre with
    | nil =>
      cases heq
      exact ⟨rfl, nofun⟩
    | cons op pre =>
      obtain ⟨_, heq⟩ := List.cons.inj heq
      cases pre <;> cases heq

theorem outputs_gone (uuid : String) (ops : List CallerOp) :
    outputs (OfferPhase.call uuid) .gone ops = outputs (documentCall uuid) false ops ↔
      ops = [] := by
  constructor
  · intro h
    cases ops with
    | nil => rfl
    | cons op ops => cases op <;> cases (List.cons.inj h).1
  · rintro rfl
    rfl

theorem outputs_done (uuid : String) (ops : List CallerOp) :
    outputs (OfferPhase.call uuid) .done ops = outputs (documentCall uuid) true ops ↔
      ∀ err, .error err ∉ ops := by
  induction ops with
  | nil => simp [outputs]
  | cons op ops ih =>
    cases op with
    | error err =>
      constructor
      · intro h
        cases (List.cons.inj h).1
      · intro h
        exact absurd (List.mem_cons_self ..) (h err)
    | _ => simpa [outputs, OfferPhase.call, documentCall] using ih

theorem outputs_active (uuid : String) (ops : List CallerOp) :
    outputs (OfferPhase.call uuid) .active ops = outputs (documentCall uuid) false ops ↔
      Compatible ops := by
  induction ops with
  | nil =>
    refine ⟨fun _ pre err post heq => ?_, fun _ => rfl⟩
    cases pre <;> cases heq
  | cons op ops ih =>
    cases op with
    | update c => simpa [outputs, OfferPhase.call, documentCall, compatible_update] using ih
    | done =>
      simpa [outputs, OfferPhase.call, documentCall, compatible_done] using outputs_done uuid ops
    | error err =>
      simpa [outputs, OfferPhase.call, documentCall, compatible_error] using outputs_gone uuid ops

/-- The two queues answer a caller alike just if no call comes behind an error and no error behind
a done. -/
theorem caller_lifecycles_agree {s : MemoryQueue} {docs : Calls} {host sdp uuid : String}
    {dt : Bool} {call : MongoCall} (hs : memoryMachine.Reachable s)
    (hfresh : ∀ e ∈ s.exchanges, e.uuid ≠ uuid) (hdocs : ∀ d ∈ docs, d.id ≠ uuid)
    (hcall : call.id = uuid ∧ call.host = host ∧ call.callerDone = false) (ops : List CallerOp) :
    outputs (MemoryQueue.call host uuid) (s.sendOfferInit host sdp dt uuid) ops =
      outputs (MongoQueue.call host uuid) (docs ++ [call]) ops ↔ Compatible ops := by
  have hmemory : outputs (MemoryQueue.call host uuid) (s.sendOfferInit host sdp dt uuid) ops =
      outputs (OfferPhase.call uuid) .active ops :=
    outputs_eq (R := fun s φ => s.InPhase host uuid φ) (fun _ _ op h => h.call op)
      (.init (MemoryQueue.inv hs) hfresh host sdp dt) ops
  have hstate : MongoQueue.InState (docs ++ [call]) host uuid false := by
    refine ⟨call, ?_, hcall.2.2⟩
    have hnone : docs.filter (MongoQueue.isOffer host uuid) = [] :=
      List.filter_eq_nil_iff.2 fun d hd => by simp [MongoQueue.isOffer, hdocs d hd]
    have hone : MongoQueue.isOffer host uuid call = true := by
      simp [MongoQueue.isOffer, hcall.1, hcall.2.1]
    rw [List.filter_append, hnone, List.filter_cons_of_pos hone]
    rfl
  have hmongo : outputs (MongoQueue.call host uuid) (docs ++ [call]) ops =
      outputs (documentCall uuid) false ops :=
    outputs_eq (R := fun docs done => MongoQueue.InState docs host uuid done)
      (fun _ _ op h => h.call op) hstate ops
  rw [hmemory, hmongo]
  exact outputs_active uuid ops

theorem caller_lifecycles_agree_one :
    outputs (MemoryQueue.call "h" "u") (MemoryQueue.sendOfferInit {} "h" "" false "u")
        [.update ⟨"c", none, none, none⟩, .done] =
      outputs (MongoQueue.call "h" "u")
        ([] ++ [{ id := "u", callerOperatorID := "o", host := "h" }])
        [.update ⟨"c", none, none, none⟩, .done] := by
  refine (caller_lifecycles_agree ?_ ?_ ?_ ?_ _).2 ?_
  · exact .init rfl
  · exact List.forall_mem_nil _
  · exact List.forall_mem_nil _
  · exact ⟨rfl, rfl, rfl⟩
  · rw [compatible_update, compatible_done]
    exact nofun

/-- Behind an error the in-memory queue has no such offer, the other one still has; and an error
behind a done is accepted by the in-memory queue only. -/
theorem caller_lifecycles_differ :
    (outputs (MemoryQueue.call "h" "u") (MemoryQueue.sendOfferInit {} "h" "" false "u")
        [.error "e", .done] = [none, some ⟨"u"⟩] ∧
      outputs (MongoQueue.call "h" "u") [{ id := "u", callerOperatorID := "o", host := "h" }]
        [.error "e", .done] = [none, none]) ∧
    outputs (MemoryQueue.call "h" "u") (MemoryQueue.sendOfferInit {} "h" "" false "u")
        [.done, .error "e"] = [none, none] ∧
      outputs (MongoQueue.call "h" "u") [{ id := "u", callerOperatorID := "o", host := "h" }]
        [.done, .error "e"] = [none, some ⟨"u"⟩] := by
  decide

end Goutils.CallQueue
