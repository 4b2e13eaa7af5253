import Mathlib

namespace Goutils.CallQueue
set_option autoImplicit true

structure ICECandidateInit where
  candidate : String
  sdpMid : Option String := none
  sdpMLineIndex : Option UInt16 := none
  usernameFragment : Option String := none
  deriving DecidableEq

structure MongoICECandidate where
  candidate : String
  sdpMid : Option String := none
  sdpMLineIndex : Option UInt16 := none
  usernameFragment : Option String := none
  deriving DecidableEq

def iceCandidateFromMongo (i : MongoICECandidate) : ICECandidateInit where
  candidate := i.candidate
  sdpMid := i.sdpMid
  sdpMLineIndex := i.sdpMLineIndex
  usernameFragment := i.usernameFragment

def iceCandidateToMongo (i : ICECandidateInit) : MongoICECandidate where
  candidate := i.candidate
  sdpMid := i.sdpMid
  sdpMLineIndex := i.sdpMLineIndex
  usernameFragment := i.usernameFragment

@[simp] theorem iceCandidateFromMongo_toMongo (i : ICECandidateInit) :
    iceCandidateFromMongo (iceCandidateToMongo i) = i := rfl

/-- `mongodbWebRTCCall`, a document of the calls collection. An error that was never set is a
missing field. -/
structure MongoCall where
  id : String
  callerOperatorID : String
  answererOperatorID : String := ""
  host : String
  startedAt : Int := 0
  callerSDP : String := ""
  callerCandidates : List MongoICECandidate := []
  callerDone : Bool := false
  callerError : Option String := none
  disableTrickle : Bool := false
  answered : Bool := false
  answererSDP : String := ""
  answererCandidates : List MongoICECandidate := []
  answererDone : Bool := false
  answererError : Option String := none
  deriving DecidableEq

/-- The inactive-offer error with the UUID of the offer. -/
structure InactiveOfferError where
  uuid : String
  deriving DecidableEq

abbrev Calls := List MongoCall

structure UpdateResult where
  matchedCount : Nat
  modifiedCount : Nat

namespace Calls

def update (p : MongoCall → Bool) (f : MongoCall → MongoCall) : Calls → Calls
  | [] => []
  | d :: docs => if p d then f d :: docs else d :: update p f docs

def updateOne (docs : Calls) (p : MongoCall → Bool) (f : MongoCall → MongoCall) :
    Calls × UpdateResult :=
  match docs.find? p with
  | none => (docs, ⟨0, 0⟩)
  | some d => (docs.update p f, ⟨1, if f d = d then 0 else 1⟩)

/-- `FindOneAndUpdate` returns the document as it was before the update. -/
def findOneAndUpdate (docs : Calls) (p : MongoCall → Bool) (f : MongoCall → MongoCall) :
    Calls × Option MongoCall :=
  (docs.update p f, docs.find? p)

@[simp] theorem updateOne_docs (docs : Calls) (p : MongoCall → Bool) (f : MongoCall → MongoCall) :
    (docs.updateOne p f).1 = docs.update p f := by
  unfold updateOne
  split
  · rename_i h
    induction docs with
    | nil => rfl
    | cons d docs ih =>
      rw [List.find?_cons] at h
      split at h
      · cases h
      · rename_i hp
        rw [update, if_neg (by simp [hp]), ← ih h]
  · rfl

@[simp] theorem updateOne_matched (docs : Calls) (p : MongoCall → Bool)
    (f : MongoCall → MongoCall) :
    (docs.updateOne p f).2.matchedCount = if docs.any p then 1 else 0 := by
  unfold updateOne
  split
  · rename_i h
    rw [List.find?_eq_none] at h
    rw [if_neg]
    simpa using h
  · rename_i d h
    have hany : docs.any p = true :=
      List.any_eq_true.2 ⟨d, List.mem_of_find?_eq_some h, List.find?_some h⟩
    simp only [hany, ↓reduceIte]

theorem mem_update {docs : Calls} (h : d ∈ docs.update p f) :
    d ∈ docs ∨ ∃ d₀ ∈ docs, p d₀ = true ∧ d = f d₀ := by
  induction docs with
  | nil => cases h
  | cons e docs ih =>
    rw [update] at h
    split at h
    · rename_i hp
      rcases List.mem_cons.1 h with rfl | h
      · exact .inr ⟨e, List.mem_cons_self, hp, rfl⟩
      · exact .inl (List.mem_cons_of_mem e h)
    · rcases List.mem_cons.1 h with rfl | h
      · exact .inl List.mem_cons_self
      · rcases ih h with h | ⟨d₀, h₀, hp, hd⟩
        · exact .inl (List.mem_cons_of_mem e h)
        · exact .inr ⟨d₀, List.mem_cons_of_mem e h₀, hp, hd⟩

theorem update_ids {docs : Calls} (hf : ∀ d, p d = true → (f d).id = d.id) :
    (docs.update p f).map MongoCall.id = docs.map MongoCall.id := by
  induction docs with
  | nil => rfl
  | cons e docs ih =>
    rw [update]
    split
    · rename_i hp
      rw [List.map_cons, List.map_cons, hf e hp]
    · rw [List.map_cons, List.map_cons, ih]

theorem mem_update_of_id {docs : Calls} (hn : (docs.map MongoCall.id).Nodup) (h₀ : d₀ ∈ docs)
    (hp₀ : p d₀ = true) (hp : ∀ d, p d = true → d.id = d₀.id) (h : d ∈ docs.update p f)
    (hd : d.id = d₀.id) : d = f d₀ := by
  induction docs with
  | nil => cases h
  | cons e docs ih =>
    rw [List.map_cons, List.nodup_cons] at hn
    rw [update] at h
    split at h
    · rename_i hpe
      have he : d₀ = e := by
        rcases List.mem_cons.1 h₀ with he | h₀
        · exact he
        · exact absurd (List.mem_map.2 ⟨d₀, h₀, (hp e hpe).symm⟩) hn.1
      subst he
      rcases List.mem_cons.1 h with h | h
      · exact h
      · exact absurd (List.mem_map.2 ⟨d, h, hd⟩) hn.1
    · rename_i hpe
      rcases List.mem_cons.1 h₀ with rfl | hmem
      · exact absurd hp₀ hpe
      rcases List.mem_cons.1 h with rfl | h
      · exact absurd (List.mem_map.2 ⟨d₀, hmem, hd.symm⟩) hn.1
      · exact ih hn.2 hmem h

end Calls

/-- `SendOfferUpdate`, `SendOfferDone` and `SendOfferError` report an offer they do not find. -/
def inactiveUnlessMatched (uuid : String) (r : UpdateResult) : Option InactiveOfferError :=
  if r.matchedCount = 0 then some ⟨uuid⟩ else none

namespace MongoQueue

def isOffer (host uuid : String) (d : MongoCall) : Bool := d.id = uuid ∧ d.host = host

def sendOfferUpdate (docs : Calls) (host uuid : String) (candidate : ICECandidateInit) :
    Calls × Option InactiveOfferError :=
  let r := docs.updateOne (isOffer host uuid) fun d =>
    { d with callerCandidates := d.callerCandidates ++ [iceCandidateToMongo candidate] }
  (r.1, inactiveUnlessMatched uuid r.2)

def sendOfferDone (docs : Calls) (host uuid : String) : Calls × Option InactiveOfferError :=
  let r := docs.updateOne (isOffer host uuid) fun d => { d with callerDone := true }
  (r.1, inactiveUnlessMatched uuid r.2)

def sendOfferError (docs : Calls) (host uuid : String) (err : String) :
    Calls × Option InactiveOfferError :=
  let r := docs.updateOne (fun d => isOffer host uuid d && !d.callerDone) fun d =>
    { d with callerError := some err }
  (r.1, inactiveUnlessMatched uuid r.2)

end MongoQueue

end Goutils.CallQueue
