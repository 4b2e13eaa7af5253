import Goutils.CallQueue.RecvOffer

namespace Goutils.CallQueue
open Lib
set_option autoImplicit true

/-- An acquisition: the hosts, the start of the window and the document it found. -/
structure Acquisition where
  hosts : List String
  startedAtWindow : Int
  doc : MongoCall

def Acquisition.Admissible (q : Acquisition) : Prop :=
  q.doc.host ∈ q.hosts ∧ q.doc.answered = false ∧ q.doc.callerError = none ∧
    q.startedAtWindow < q.doc.startedAt

/-- The queue with the present window of each `RecvOffer` and all acquisition updates so far. -/
structure AdmissionState where
  recv : RecvState := {}
  windows : Nat → Int := fun _ => 0
  acquired : List Acquisition := []

def AdmissionState.acquires (s : AdmissionState) (i : Nat) (r : RecvOffer) :
    RecvPc → RecvAct → List Acquisition
  | .find, .find startedAtWindow (some id) | .find, .findFails startedAtWindow (some id) =>
    (s.recv.findOne r startedAtWindow id).2.toList.map fun doc =>
      { hosts := r.hosts, startedAtWindow, doc }
  | .take c, .take | .take c, .takeFails true =>
    (s.recv.calls.find? (isUnanswered c.id)).toList.map fun doc =>
      { hosts := r.hosts, startedAtWindow := s.windows i, doc }
  | _, _ => []

/-- The window is computed before `FindOneAndUpdate` and kept while the `RecvOffer` waits. -/
def RecvAct.window? : RecvAct → Option Int
  | .find startedAtWindow _ | .findFails startedAtWindow _ => some startedAtWindow
  | _ => none

def admissionStep (s : AdmissionState) : QueueAct → Option AdmissionState
  | .step i a => s.recv.offers[i]?.bind fun r =>
      (s.recv.recvOffer i r r.pc a).map fun recv =>
        { recv
          windows := Function.update s.windows i (a.window?.getD (s.windows i))
          acquired := s.acquired ++ s.acquires i r r.pc a }
  | a => (recvStep s.recv a).map fun recv => { s with recv }

def admissionMachine : Machine AdmissionState QueueAct where
  init s := s = {}
  step := admissionStep

def RecvOffer.announced (r : RecvOffer) : Option MongoCall :=
  match r.pc with
  | .waitReady | .find | .wait => r.eventChan
  | .take c => some c
  | _ => none

variable {r : RecvOffer}

theorem RecvOffer.announced_of_event
    (h : RecvOffer.announced { r with eventChan := ev, receiveOnce := once } = some c) :
    r.announced = some c ∨ ev = some c ∧ ∀ c, r.pc ≠ .take c := by
  unfold announced at h ⊢
  cases hpc : r.pc with
  | waitReady | find | wait =>
    simp only [hpc] at h
    exact .inr ⟨h, fun _ => nofun⟩
  | take c' =>
    simp only [hpc] at h
    exact .inl h
  | _ =>
    simp only [hpc] at h
    cases h

/-- No caller gives up a call between its event and the attempt to take it. -/
def AnnouncedStay (s : AdmissionState) : QueueAct → Prop
  | .change c =>
    c.callerError = none ∨ ∀ r ∈ s.recv.offers, ∀ c' ∈ r.announced, c'.id ≠ c.id
  | .send i c =>
    (∀ d ∈ s.recv.calls, d.id = c.id → d.callerError = none) ∧
      ∀ r ∈ s.recv.offers[i]?, r.pc = .wait → s.windows i < c.startedAt
  | .step i (.find startedAtWindow none) =>
    ∀ r ∈ s.recv.offers[i]?, ∀ c ∈ r.eventChan, startedAtWindow < c.startedAt
  | _ => True

inductive AnnounceStep (r : RecvOffer) : RecvAct → RecvOffer → Prop where
  | none : r'.announced = none → AnnounceStep r a r'
  | ready : r.pc = .waitReady → AnnounceStep r a { r with pc := .find }
  | findNone : r.pc = .find → AnnounceStep r (.find startedAtWindow none) { r with pc := .wait }
  | receive : r.pc = .wait → r.eventChan = some c → a.window? = none →
      AnnounceStep r a { r with pc := .take c, eventChan := none }

theorem recvOffer_announce {s s' : RecvState} {i : Nat} (h : s.recvOffer i r r.pc a = some s') :
    ∃ r', s'.offers = s.offers.set i r' ∧ AnnounceStep r a r' ∧ r'.hosts = r.hosts := by
  generalize hpc : r.pc = pc at h
  unfold RecvState.recvOffer at h
  split at h
  · cases h
    refine ⟨_, rfl, .none ?_, rfl⟩
    split <;> rfl
  · cases h
    exact ⟨_, rfl, .ready hpc, rfl⟩
  · split at h
    · cases h
      exact ⟨_, rfl, .none rfl, rfl⟩
    · cases h
  · split at h
    · cases h
    · cases h
      exact ⟨_, rfl, .findNone hpc, rfl⟩
  · split at h
    · cases h
    · split at h
      · cases h
        exact ⟨_, rfl, .none rfl, rfl⟩
      · cases h
  · cases h
    exact ⟨_, rfl, .none rfl, rfl⟩
  · split at h
    · cases h
      exact ⟨_, rfl, .none rfl, rfl⟩
    · cases h
  · obtain ⟨c, hc, rfl⟩ := Option.map_eq_some_iff.1 h
    exact ⟨_, rfl, .receive hpc hc rfl, rfl⟩
  · split at h
    · cases h
    · cases h
      refine ⟨_, rfl, .none ?_, rfl⟩
      split <;> rfl
  · cases h
    exact ⟨_, rfl, .none rfl, rfl⟩
  · cases h
    exact ⟨_, rfl, .none rfl, rfl⟩
  · cases h
    exact ⟨_, rfl, .none rfl, rfl⟩
  · cases h
    exact ⟨_, rfl, .none rfl, rfl⟩
  · cases h

/-- The fields of a document that no acquisition update changes. -/
structure SameOffer (d₀ d : MongoCall) : Prop where
  id : d₀.id = d.id
  host : d₀.host = d.host
  startedAt : d₀.startedAt = d.startedAt
  callerError : d₀.callerError = d.callerError

theorem acquire_sameOffer {docs : Calls} (h : d ∈ docs.update p (acquire op)) :
    ∃ d₀ ∈ docs, SameOffer d₀ d := by
  rcases Calls.mem_update h with h | ⟨d₀, h₀, _, rfl⟩
  · exact ⟨d, h, ⟨rfl, rfl, rfl, rfl⟩⟩
  · exact ⟨d₀, h₀, ⟨rfl, rfl, rfl, rfl⟩⟩

theorem recvOffer_docs {s s' : RecvState} {i : Nat} (hr : s.offers[i]? = some r)
    (h : s.recvOffer i r r.pc a = some s') :
    s'.inserted = s.inserted ∧ ∀ d ∈ s'.calls, ∃ d₀ ∈ s.calls, SameOffer d₀ d := by
  have hsame : ∀ d ∈ s.calls, ∃ d₀ ∈ s.calls, SameOffer d₀ d :=
    fun d hd => ⟨d, hd, ⟨rfl, rfl, rfl, rfl⟩⟩
  have htake : ∀ (r : RecvOffer) uuid, ∀ d ∈ (s.takeOne r uuid).1,
      ∃ d₀ ∈ s.calls, SameOffer d₀ d := by
    intro r uuid d hd
    rw [RecvState.takeOne, Calls.updateOne_docs] at hd
    exact acquire_sameOffer hd
  cases recvOffer_step hr h with
  | subscribe | ready | giveUp | findNone | receive | returns | cleanup => exact ⟨rfl, hsame⟩
  | found => exact ⟨rfl, fun d hd => acquire_sameOffer hd⟩
  | findFails _ _ hcalls =>
    rcases hcalls with rfl | ⟨startedAtWindow, uuid, rfl⟩
    · exact ⟨rfl, hsame⟩
    · exact ⟨rfl, fun d hd => acquire_sameOffer hd⟩
  | takes => exact ⟨rfl, htake _ _⟩
  | misses _ _ _ hcalls =>
    rcases hcalls with rfl | rfl
    · exact ⟨rfl, hsame⟩
    · exact ⟨rfl, htake _ _⟩

theorem AdmissionState.mem_acquires {s : AdmissionState} {i : Nat} (h : q ∈ s.acquires i r pc a) :
    q.hosts = r.hosts ∧ (isWaiting r.hosts q.startedAtWindow q.doc = true ∨
      q.doc ∈ s.recv.calls ∧ q.startedAtWindow = s.windows i ∧
        ∃ c, pc = .take c ∧ isUnanswered c.id q.doc = true) := by
  unfold acquires at h
  split at h
  · obtain ⟨doc, hdoc, rfl⟩ := List.mem_map.1 h
    have hfind := List.find?_some (Option.mem_toList.1 hdoc)
    rw [Bool.and_eq_true] at hfind
    exact ⟨rfl, .inl hfind.1⟩
  · obtain ⟨doc, hdoc, rfl⟩ := List.mem_map.1 h
    have hfind := List.find?_some (Option.mem_toList.1 hdoc)
    rw [Bool.and_eq_true] at hfind
    exact ⟨rfl, .inl hfind.1⟩
  · obtain ⟨doc, hdoc, rfl⟩ := List.mem_map.1 h
    have hfind := Option.mem_toList.1 hdoc
    exact ⟨rfl, .inr ⟨List.mem_of_find?_eq_some hfind, rfl, _, rfl, List.find?_some hfind⟩⟩
  · obtain ⟨doc, hdoc, rfl⟩ := List.mem_map.1 h
    have hfind := Option.mem_toList.1 hdoc
    exact ⟨rfl, .inr ⟨List.mem_of_find?_eq_some hfind, rfl, _, rfl, List.find?_some hfind⟩⟩
  · cases h

/-- The call of an event is one that was inserted for a host of the `RecvOffer`, and its caller has
not given it up. -/
structure AdmissionState.Fresh (s : AdmissionState) (i : Nat) (r : RecvOffer) (c : MongoCall) :
    Prop where
  inserted : c ∈ s.recv.inserted
  host : c.host ∈ r.hosts
  callerError : ∀ d ∈ s.recv.calls, d.id = c.id → d.callerError = none
  window : r.pc = .wait ∨ r.pc = .take c → s.windows i < c.startedAt

structure AdmissionState.Inv (s : AdmissionState) : Prop where
  ids : (s.recv.inserted.map MongoCall.id).Nodup
  docs : ∀ d ∈ s.recv.calls, ∃ c ∈ s.recv.inserted,
    c.id = d.id ∧ c.host = d.host ∧ c.startedAt = d.startedAt
  events : ∀ (i : Nat) r c, s.recv.offers[i]? = some r → r.announced = some c → s.Fresh i r c
  acquired : ∀ q ∈ s.acquired, q.Admissible

namespace AdmissionState.Inv
variable {s s' : AdmissionState}

theorem doc_of_id (h : s.Inv) (hd : d ∈ s.recv.calls) (hc : c ∈ s.recv.inserted)
    (hid : d.id = c.id) : d.host = c.host ∧ d.startedAt = c.startedAt := by
  obtain ⟨c', hc', hid', hhost, hstarted⟩ := h.docs d hd
  have hcc : c' = c := List.inj_on_of_nodup_map h.ids hc' hc (hid'.trans hid)
  subst hcc
  exact ⟨hhost.symm, hstarted.symm⟩

theorem acquires_admissible {i : Nat} (h : s.Inv) (hr : s.recv.offers[i]? = some r)
    (hq : q ∈ s.acquires i r r.pc a) : q.Admissible := by
  obtain ⟨hhosts, hpath⟩ := AdmissionState.mem_acquires hq
  rcases hpath with hw | ⟨hdoc, hwindow, c, hpc, hun⟩
  · simp only [isWaiting, Bool.and_eq_true, List.contains_iff_mem, Option.isNone_iff_eq_none,
      Bool.not_eq_true', decide_eq_true_eq] at hw
    obtain ⟨⟨⟨hhost, herr⟩, hans⟩, hstarted⟩ := hw
    exact ⟨hhosts ▸ hhost, hans, herr, hstarted⟩
  · have hev := h.events i r c hr (by rw [RecvOffer.announced, hpc])
    rw [isUnanswered, Bool.and_eq_true, decide_eq_true_eq, Bool.not_eq_true'] at hun
    obtain ⟨hhost, hstarted⟩ := h.doc_of_id hdoc hev.inserted hun.1
    refine ⟨?_, hun.2, hev.callerError _ hdoc hun.1, ?_⟩
    · rw [hhosts, hhost]
      exact hev.host
    · rw [hwindow, hstarted]
      exact hev.window (.inr hpc)

theorem docs_step {recv : RecvState} (h : s.Inv) (hoffers : recv.offers = s.recv.offers)
    (hids : (recv.inserted.map MongoCall.id).Nodup) (hsub : s.recv.inserted ⊆ recv.inserted)
    (hdocs : ∀ d ∈ recv.calls, ∃ c ∈ recv.inserted,
      c.id = d.id ∧ c.host = d.host ∧ c.startedAt = d.startedAt)
    (herr : ∀ (i : Nat) r c, s.recv.offers[i]? = some r → r.announced = some c → s.Fresh i r c →
      ∀ d ∈ recv.calls, d.id = c.id → d.callerError = none) : Inv { s with recv } := by
  refine ⟨hids, hdocs, ?_, h.acquired⟩
  intro i r c hr hc
  have hr : s.recv.offers[i]? = some r := hoffers ▸ hr
  have hev := h.events i r c hr hc
  exact ⟨hsub hev.inserted, hev.host, herr i r c hr hc hev, hev.window⟩

theorem offer_step {i : Nat} (h : s.Inv) (hoffers : s'.recv.offers = s.recv.offers.set i r')
    (hinserted : s'.recv.inserted = s.recv.inserted)
    (hdocs : ∀ d ∈ s'.recv.calls, ∃ d₀ ∈ s.recv.calls, SameOffer d₀ d)
    (hwindows : ∀ j, j ≠ i → s'.windows j = s.windows j)
    (hevent : ∀ c, r'.announced = some c → Fresh { s with windows := s'.windows } i r' c)
    (hacquired : ∀ q ∈ s'.acquired, q.Admissible) : s'.Inv := by
  have herr : ∀ c : MongoCall, (∀ d ∈ s.recv.calls, d.id = c.id → d.callerError = none) →
      ∀ d ∈ s'.recv.calls, d.id = c.id → d.callerError = none := by
    intro c hc d hd hid
    obtain ⟨d₀, h₀, hsame⟩ := hdocs d hd
    rw [← hsame.callerError]
    exact hc d₀ h₀ (hsame.id.trans hid)
  refine ⟨hinserted ▸ h.ids, ?_, ?_, hacquired⟩
  · intro d hd
    obtain ⟨d₀, h₀, hsame⟩ := hdocs d hd
    obtain ⟨c, hc, hid, hhost, hstarted⟩ := h.docs d₀ h₀
    exact ⟨c, hinserted ▸ hc, hid.trans hsame.id, hhost.trans hsame.host,
      hstarted.trans hsame.startedAt⟩
  · intro j q c hq hc
    rw [hoffers] at hq
    rcases getElem?_set_cases hq with ⟨rfl, rfl⟩ | ⟨hne, hq⟩
    · have hev := hevent c hc
      exact ⟨hinserted ▸ hev.inserted, hev.host, herr c hev.callerError, hev.window⟩
    · have hev := h.events j q c hq hc
      refine ⟨hinserted ▸ hev.inserted, hev.host, herr c hev.callerError, ?_⟩
      rw [hwindows j hne]
      exact hev.window

theorem announce_step {r' : RecvOffer} {i : Nat} (h : s.Inv) (hok : AnnouncedStay s (.step i a))
    (hr : s.recv.offers[i]? = some r) (hs : AnnounceStep r a r') (hhosts : r'.hosts = r.hosts)
    (hc : r'.announced = some c) :
    Fresh { s with windows := Function.update s.windows i (a.window?.getD (s.windows i)) } i r'
      c := by
  cases hs with
  | none hnone =>
    rw [hnone] at hc
    cases hc
  | ready hpc =>
    have hev := h.events i r c hr (by rw [RecvOffer.announced, hpc]; exact hc)
    refine { hev with window := ?_ }
    rintro (h | h) <;> cases h
  | findNone hpc =>
    have hev := h.events i r c hr (by rw [RecvOffer.announced, hpc]; exact hc)
    refine { hev with window := fun _ => ?_ }
    simp only [Function.update_self]
    exact hok r hr c hc
  | receive hpc hevent hwindow =>
    have hev := h.events i r c hr (by rw [RecvOffer.announced, hpc, hevent]; exact hc)
    refine { hev with window := fun _ => ?_ }
    simp only [hwindow, Function.update_self]
    exact hev.window (.inl hpc)

theorem step (h : s.Inv) (hok : AnnouncedStay s a) (hs : admissionStep s a = some s') :
    s'.Inv := by
  cases a with
  | insert c =>
    obtain ⟨recv, hrecv, rfl⟩ := Option.map_eq_some_iff.1 hs
    simp only [recvStep] at hrecv
    split at hrecv
    · rename_i hc
      cases hrecv
      refine h.docs_step rfl ?_ (List.subset_append_left _ _) ?_ ?_
      · rw [List.map_append, List.nodup_append]
        refine ⟨h.ids, List.nodup_singleton _, ?_⟩
        intro x hx y hy
        obtain ⟨d, hd, rfl⟩ := List.mem_map.1 hx
        rw [List.map_singleton, List.mem_singleton] at hy
        rw [hy]
        exact hc.1 d hd
      · intro d hd
        rcases List.mem_append.1 hd with hd | hd
        · obtain ⟨c', hc', hsame⟩ := h.docs d hd
          exact ⟨c', List.mem_append_left _ hc', hsame⟩
        · exact ⟨d, List.mem_append_right _ hd, rfl, rfl, rfl⟩
      · intro i r c' _ _ hev d hd hid
        rcases List.mem_append.1 hd with hd | hd
        · exact hev.callerError d hd hid
        · rw [List.mem_singleton.1 hd] at hid
          exact absurd hid.symm (hc.1 c' hev.inserted)
    · cases hrecv
  | change c =>
    cases hs
    refine h.docs_step rfl h.ids (List.Subset.refl _) ?_ ?_
    · intro d hd
      rcases Calls.mem_update hd with hd | ⟨d₀, h₀, hp, rfl⟩
      · exact h.docs d hd
      · obtain ⟨hid, hhost, hstarted, _⟩ := of_decide_eq_true hp
        obtain ⟨c', hc', hid', hhost', hstarted'⟩ := h.docs d₀ h₀
        exact ⟨c', hc', hid'.trans hid, hhost'.trans hhost, hstarted'.trans hstarted⟩
    · intro i r c' hr hc' hev d hd hid
      rcases Calls.mem_update hd with hd | ⟨_, _, _, rfl⟩
      · exact hev.callerError d hd hid
      · rcases hok with hnone | hother
        · exact hnone
        · exact absurd hid.symm (hother r (List.mem_of_getElem? hr) c' hc')
  | expire id =>
    cases hs
    refine h.docs_step rfl h.ids (List.Subset.refl _) ?_ ?_
    · intro d hd
      exact h.docs d (List.mem_of_mem_filter hd)
    · intro i r c _ _ hev d hd hid
      exact hev.callerError d (List.mem_of_mem_filter hd) hid
  | recv operatorID hosts =>
    cases hs
    refine { h with events := ?_ }
    intro j q c hq hc
    rcases getElem?_concat_cases hq with hq | ⟨_, rfl⟩
    · have hev := h.events j q c hq hc
      exact { hev with }
    · cases hc
  | cancel i =>
    obtain ⟨recv, hrecv, rfl⟩ := Option.map_eq_some_iff.1 hs
    obtain ⟨r, hr, rfl⟩ := Option.map_eq_some_iff.1 hrecv
    refine h.offer_step rfl rfl (fun d hd => ⟨d, hd, ⟨rfl, rfl, rfl, rfl⟩⟩) (fun _ _ => rfl) ?_
      h.acquired
    intro c hc
    have hev := h.events i r c hr hc
    exact { hev with }
  | send i c =>
    obtain ⟨recv, hrecv, rfl⟩ := Option.map_eq_some_iff.1 hs
    obtain ⟨r, hr, hrecv⟩ := Option.bind_eq_some_iff.1 hrecv
    split at hrecv
    · rename_i hc
      cases hrecv
      have hdocs : ∀ d ∈ s.recv.calls, ∃ d₀ ∈ s.recv.calls, SameOffer d₀ d :=
        fun d hd => ⟨d, hd, ⟨rfl, rfl, rfl, rfl⟩⟩
      unfold RecvState.send
      split
      · refine h.offer_step rfl rfl hdocs (fun _ _ => rfl) ?_ h.acquired
        intro c' hc'
        rcases RecvOffer.announced_of_event hc' with hold | ⟨hnew, hpc⟩
        · have hev := h.events i r c' hr hold
          exact { hev with }
        · cases hnew
          refine ⟨hc.2.2.1, hc.2.2.2, hok.1, ?_⟩
          rintro (hwait | htake)
          · exact hok.2 r hr hwait
          · exact absurd htake (hpc c)
      · refine h.offer_step rfl rfl hdocs (fun _ _ => rfl) ?_ h.acquired
        intro c' hc'
        have hev := h.events i r c' hr hc'
        exact { hev with }
    · cases hrecv
  | step i a =>
    obtain ⟨r, hr, hs⟩ := Option.bind_eq_some_iff.1 hs
    obtain ⟨recv, hrecv, rfl⟩ := Option.map_eq_some_iff.1 hs
    obtain ⟨r', hoffers, hann, hhosts⟩ := recvOffer_announce hrecv
    obtain ⟨hinserted, hdocs⟩ := recvOffer_docs hr hrecv
    refine h.offer_step hoffers hinserted hdocs (fun j hne => Function.update_of_ne hne _ _) ?_ ?_
    · intro c hc
      exact h.announce_step hok hr hann hhosts hc
    · intro q hq
      rcases List.mem_append.1 hq with hq | hq
      · exact h.acquired q hq
      · exact h.acquires_admissible hr hq

end AdmissionState.Inv

/-- While announced calls stay, both paths acquire only unanswered calls for the requested hosts,
within the window. -/
theorem acquired_admissible {s : AdmissionState}
    (h : admissionMachine.ReachableWith AnnouncedStay s) : ∀ q ∈ s.acquired, q.Admissible := by
  have hinv : s.Inv := by
    refine h.invariant ?_ fun _ _ _ hI hok hs => hI.step hok hs
    rintro s rfl
    refine ⟨List.nodup_nil, ?_, ?_, ?_⟩
    · intro d hd
      cases hd
    · intro i r c hr
      cases hr
    · intro q hq
      cases hq
  exact hinv.acquired

instance (s : AdmissionState) : (a : QueueAct) → Decidable (AnnouncedStay s a)
  | .change c => inferInstanceAs (Decidable (c.callerError = none ∨
      ∀ r ∈ s.recv.offers, ∀ c' ∈ r.announced, c'.id ≠ c.id))
  | .send i c => inferInstanceAs (Decidable ((∀ d ∈ s.recv.calls, d.id = c.id →
      d.callerError = none) ∧ ∀ r ∈ s.recv.offers[i]?, r.pc = .wait → s.windows i < c.startedAt))
  | .step i (.find w none) => inferInstanceAs (Decidable
      (∀ r ∈ s.recv.offers[i]?, ∀ c ∈ r.eventChan, w < c.startedAt))
  | .step _ (.find _ (some _)) | .step _ (.subscribe _) | .step _ .ready | .step _ .giveUp
  | .step _ (.findFails _ _) | .step _ .receive | .step _ .take | .step _ (.takeFails _)
  | .step _ .cleanup | .insert _ | .expire _ | .recv _ _ | .cancel _ => .isTrue trivial

/-- A `RecvOffer` takes the call of its event, a second one finds a call that is there already. -/
theorem acquired_admissible_both :
    ∃ s, admissionMachine.Reachable s ∧ s.acquired.length = 2 ∧
      ∀ q ∈ s.acquired, q.Admissible := by
  let x : MongoCall := { id := "x", callerOperatorID := "o", host := "h", startedAt := 9 }
  let y : MongoCall := { id := "y", callerOperatorID := "o", host := "g", startedAt := 8 }
  let run : List QueueAct :=
    [.recv "o" ["h"], .step 0 (.subscribe true), .step 0 (.find 5 none), .insert x, .insert y,
      .send 0 x, .step 0 .receive, .step 0 .take, .recv "o" ["g"], .step 1 (.subscribe true),
      .step 1 (.find 6 (some "y"))]
  obtain ⟨s, hr, hp⟩ : ∃ s, admissionMachine.ReachableWith AnnouncedStay s ∧
      s.acquired.length = 2 :=
    admissionMachine.exists_reachableWith AnnouncedStay {} run rfl (by decide +kernel)
  exact ⟨s, hr.reachable, hp, acquired_admissible hr⟩

/-- The caller reports an error between the event and `UpdateOne`: the call is acquired. -/
theorem acquires_abandoned :
    ∃ s, admissionMachine.Reachable s ∧ ∃ q ∈ s.acquired, q.doc.callerError = some "gone" ∧
      s.recv.offers.map RecvOffer.pc = [.took { q.doc with callerError := none }] := by
  let x : MongoCall := { id := "x", callerOperatorID := "o", host := "h", startedAt := 9 }
  let run : List QueueAct :=
    [.recv "o" ["h"], .step 0 (.subscribe true), .step 0 (.find 5 none), .insert x, .send 0 x,
      .step 0 .receive, .change { x with callerError := some "gone" }, .step 0 .take]
  exact admissionMachine.exists_reachable {} run rfl (by decide +kernel)

end Goutils.CallQueue
