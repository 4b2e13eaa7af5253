import Goutils.Lib.Machine

namespace Goutils.Web
open Lib
set_option autoImplicit true

/-- `Session`; its data is a map, which may be nil. -/
structure Session (δ : Type) where
  id : String
  data : Option δ
  isNew : Bool

/-- How the driver writes data into a document, and what it reads from one. -/
structure Bson (δ : Type) where
  marshal : δ → List UInt8
  unmarshal : List UInt8 → δ

def Bson.Keeps (bson : Bson δ) (data : δ) : Prop := bson.unmarshal (bson.marshal data) = data

/-- `memorySessionStore` or `mongoDBSessionStore`; a nil entry is like a missing one. -/
inductive Store (δ : Type) where
  | memory (data : Option (String → Option (Session δ)))
  | mongo (bson : Bson δ) (collection : String → Option (Option (List UInt8)))

inductive StoreError where
  | noSession
  | db (text : String)

inductive Got (δ : Type) where
  | session (s : Session δ)
  | missing (err : Option StoreError)
  | panic (text : String)

namespace Store

def get (st : Store δ) (err : Option String) (id : String) : Got δ :=
  match st with
  | .memory none => .missing (some .noSession)
  | .memory (some data) =>
    match data id with
    | some s => .session s
    | none => .missing none
  | .mongo bson collection =>
    match err, collection id with
    | some text, _ => .missing (some (.db text))
    | none, none => .missing (some .noSession)
    | none, some (some data) => .session ⟨id, some (bson.unmarshal data), false⟩
    | none, some none => .panic "interface conversion: interface {} is nil, not primitive.M"

def save (st : Store δ) (err : Option String) (s : Session δ) : Store δ × Option String :=
  match st with
  | .memory data => (.memory (some (Function.update (data.getD fun _ => none) s.id (some s))), none)
  | .mongo bson collection =>
    (if err.isSome then st
      else .mongo bson (Function.update collection s.id (some (s.data.map bson.marshal))), err)

def delete (st : Store δ) (err : Option String) (id : String) : Store δ × Option String :=
  match st with
  | .memory none => (st, none)
  | .memory (some data) => (.memory (some (Function.update data id none)), none)
  | .mongo bson collection =>
    (if err.isSome then st else .mongo bson (Function.update collection id none), err)

def content : Store δ → String → Option (String × Option δ)
  | .memory none, _ => none
  | .memory (some data), id => (data id).map fun s => (s.id, s.data)
  | .mongo bson collection, id =>
    (collection id).map fun data => (id, data.map bson.unmarshal)

/-- The data of a session once it has been saved. -/
def readBack : Store δ → Option δ → Option δ
  | .memory _, data => data
  | .mongo bson _, data => (data.map bson.marshal).map bson.unmarshal

end Store

inductive SessionError where
  | noSession
  | error (text : String)
  | panic (text : String)

variable {δ : Type}

/-- `SessionManager.Get` with the cookie and the id that `newID` has produced. -/
def sessionManagerGet [EmptyCollection δ] (st : Store δ) (err cookie : Option String)
    (createIfNotExist : Bool) (newID : Except String String) :
    Except SessionError (Session δ) × Option String :=
  let create := fun (id : String) =>
    if createIfNotExist = false then (.error .noSession, none)
    else if id = "" then
      match newID with
      | .error text => (.error (.error ("couldn't create new id: " ++ text)), none)
      | .ok id => (.ok ⟨id, some ∅, true⟩, some id)
    else (.ok ⟨id, some ∅, true⟩, none)
  match cookie with
  | none => create ""
  | some id =>
    match st.get err id with
    | .session s => (.ok s, none)
    | .panic text => (.error (.panic text), none)
    | .missing (some (.db text)) =>
      (.error (.error ("couldn't get cookie from store: couldn't load session from db: " ++ text)),
        none)
    | .missing _ => create id

/-- The store, the sessions that requests have got, and the ids that `newID` has produced. -/
structure WebState (δ : Type) where
  store : Store δ
  held : List (Session δ) := []
  issued : List String := []

inductive WebAct (δ : Type) where
  | get (cookie : Option String) (createIfNotExist : Bool) (newID : Except String String)
      (err : Option String)
  | save (i : Nat) (data : Option δ) (err : Option String)
  | deleteSession (cookie err : Option String)

def webStep [EmptyCollection δ] (s : WebState δ) : WebAct δ → Option (WebState δ)
  | .get cookie createIfNotExist newID err =>
    let got := sessionManagerGet s.store err cookie createIfNotExist newID
    some { s with
      held := s.held ++ got.1.toOption.toList
      issued := s.issued ++ got.2.toList }
  | .save i data err =>
    match s.held[i]? with
    | none => none
    | some x =>
      let x := { x with data, isNew := false }
      some { s with store := (s.store.save err x).1, held := s.held.set i x }
  | .deleteSession none _ => some s
  | .deleteSession (some id) err => some { s with store := (s.store.delete err id).1 }

def webMachine (δ : Type) [EmptyCollection δ] : Machine (WebState δ) (WebAct δ) where
  init s := s = { store := .memory none } ∨ ∃ bson, s = { store := .mongo bson fun _ => none }
  step := webStep

/-- Where a session may be created, the cookie is missing or empty, or names a session. -/
def KnownCookie (s : WebState δ) : WebAct δ → Prop
  | .get (some id) true _ _ => id = "" ∨ (s.store.content id).isSome = true
  | _ => True

namespace Store

variable {st : Store δ} {s : Session δ} {err : Option String} {id : String}

theorem content_save (st : Store δ) (s : Session δ) :
    (st.save none s).1.content =
      Function.update st.content s.id (some (s.id, st.readBack s.data)) := by
  funext id
  rw [Function.update_apply]
  match st with
  | .memory none | .memory (some data) | .mongo bson collection =>
    simp only [save, content, readBack, Option.getD, Function.update_apply, Option.isSome_none,
      Bool.false_eq_true, ↓reduceIte]
    split <;> simp_all

theorem content_delete (st : Store δ) (id : String) :
    (st.delete none id).1.content = Function.update st.content id none := by
  funext id'
  rw [Function.update_apply]
  match st with
  | .memory none | .memory (some data) | .mongo bson collection =>
    simp only [delete, content, Function.update_apply, Option.isSome_none, Bool.false_eq_true,
      ↓reduceIte]
    split <;> rfl

theorem save_err (st : Store δ) (s : Session δ) (err : Option String) :
    (st.save err s).1 = st ∨ (st.save err s).1 = (st.save none s).1 := by
  match st, err with
  | .memory data, _ | .mongo bson collection, none => exact .inr rfl
  | .mongo bson collection, some text => exact .inl rfl

theorem delete_err (st : Store δ) (id : String) (err : Option String) :
    (st.delete err id).1 = st ∨ (st.delete err id).1 = (st.delete none id).1 := by
  match st, err with
  | .memory none, _ => exact .inl rfl
  | .memory (some data), _ | .mongo bson collection, none => exact .inr rfl
  | .mongo bson collection, some text => exact .inl rfl

theorem get_session (h : st.get err id = .session s) : st.content id = some (s.id, s.data) := by
  match st with
  | .memory (some data) =>
    simp only [get] at h
    split at h <;> cases h
    simp only [content, ‹data id = _›, Option.map_some]
  | .mongo bson collection =>
    simp only [get] at h
    split at h <;> cases h
    simp only [content, ‹collection id = _›, Option.map_some]

theorem content_eq_none (h : st.get err id = .missing e) (he : ∀ text, e ≠ some (.db text)) :
    st.content id = none := by
  match st with
  | .memory none => rfl
  | .memory (some data) =>
    simp only [get] at h
    split at h <;> cases h
    simp only [content, ‹data id = _›, Option.map_none]
  | .mongo bson collection =>
    simp only [get] at h
    split at h <;> cases h
    · exact absurd rfl (he _)
    · simp only [content, ‹collection id = _›, Option.map_none]

def Within (P : String → Prop) (st : Store δ) : Prop :=
  ∀ id x, st.content id = some x → x.1 = id ∧ P id

theorem Within.save (h : st.Within P) (hs : P s.id) (err : Option String) :
    (st.save err s).1.Within P := by
  rcases st.save_err s err with heq | heq
  · rw [heq]
    exact h
  · intro id x hx
    rw [heq, content_save, Function.update_apply] at hx
    split at hx
    · cases hx
      exact ⟨Eq.symm ‹_›, ‹id = _› ▸ hs⟩
    · exact h id x hx

theorem Within.delete (h : st.Within P) (err : Option String) (id : String) :
    (st.delete err id).1.Within P := by
  rcases st.delete_err id err with heq | heq
  · rw [heq]
    exact h
  · intro id' x hx
    rw [heq, content_delete, Function.update_apply] at hx
    split at hx
    · cases hx
    · exact h id' x hx

end Store

section Manager
variable [EmptyCollection δ] {s s' : WebState δ} {P : String → Prop}

theorem sessionManagerGet_ok {st : Store δ}
    (h : sessionManagerGet st err cookie createIfNotExist newID = (.ok x, issued)) :
    (∃ id, st.content id = some (x.id, x.data)) ∨ issued = some x.id ∨
      (createIfNotExist = true ∧ cookie = some x.id ∧ x.id ≠ "" ∧ st.content x.id = none) := by
  unfold sessionManagerGet at h
  cases cookie with
  | none =>
    simp only at h
    split at h
    · cases h
    · rw [if_pos trivial] at h
      split at h <;> cases h
      exact .inr (.inl rfl)
  | some id =>
    simp only at h
    split at h
    · cases h
      exact .inl ⟨id, Store.get_session ‹_›⟩
    · cases h
    · cases h
    · rename_i e hnot hget
      split at h
      · cases h
      · rename_i hc
        split at h
        · split at h <;> cases h
          exact .inr (.inl rfl)
        · cases h
          have hnone := Store.content_eq_none hget fun text he => hnot text he
          exact .inr (.inr ⟨by simpa using hc, rfl, ‹_›, hnone⟩)

/-- Every session of the store, and every one that a request has, has an id of `newID`. -/
structure WebState.Issued (s : WebState δ) : Prop where
  store : s.store.Within (· ∈ s.issued)
  held : ∀ x ∈ s.held, x.id ∈ s.issued

theorem WebState.Issued.step (h : s.Issued) (hok : KnownCookie s a) (hs : webStep s a = some s') :
    s'.Issued := by
  cases a with
  | get cookie createIfNotExist newID err =>
    cases hs
    refine ⟨fun id x hx => (h.store id x hx).imp_right (List.mem_append_left _), fun x hx => ?_⟩
    rcases List.mem_append.1 hx with hx | hx
    · exact List.mem_append_left _ (h.held x hx)
    · generalize hgot : sessionManagerGet s.store err cookie createIfNotExist newID = got at hx ⊢
      obtain ⟨r, issued⟩ := got
      cases r with
      | error e => cases hx
      | ok y =>
        cases List.mem_singleton.1 hx
        rcases sessionManagerGet_ok hgot with ⟨id, hid⟩ | rfl | ⟨rfl, rfl, hne, hnone⟩
        · obtain ⟨heq, hmem⟩ := h.store id _ hid
          cases heq
          exact List.mem_append_left _ hmem
        · exact List.mem_append_right _ List.mem_cons_self
        · rcases hok with hid | hid
          · exact absurd hid hne
          · rw [hnone] at hid
            cases hid
  | save i data err =>
    simp only [webStep] at hs
    split at hs <;> cases hs
    rename_i x hx
    have hid := h.held x (List.mem_of_getElem? hx)
    refine ⟨h.store.save (s := { x with data, isNew := false }) hid err, fun y hy => ?_⟩
    rcases List.mem_or_eq_of_mem_set hy with hy | rfl
    · exact h.held y hy
    · exact hid
  | deleteSession cookie err =>
    cases cookie with
    | none =>
      cases hs
      exact h
    | some id =>
      cases hs
      exact ⟨h.store.delete err id, h.held⟩

/-- Every id that is ever in the store, or that of a session a request gets, was produced by
`newID`. -/
theorem session_ids_issued (h : (webMachine δ).ReachableWith KnownCookie s) :
    (∀ id, (s.store.content id).isSome = true → id ∈ s.issued) ∧ ∀ x ∈ s.held, x.id ∈ s.issued := by
  have hissued : s.Issued := by
    apply h.invariant
    · rintro s (rfl | ⟨bson, rfl⟩)
      · exact ⟨nofun, nofun⟩
      · exact ⟨nofun, nofun⟩
    · exact fun _ _ _ hi hok hs => hi.step hok hs
  refine ⟨fun id hid => ?_, hissued.held⟩
  obtain ⟨x, hx⟩ := Option.isSome_iff_exists.1 hid
  exact (hissued.store id x hx).2

end Manager

theorem session_ids_issued_save :
    ∃ s : WebState (List Nat), (webMachine (List Nat)).ReachableWith KnownCookie s ∧
      s.store.content "n" = some ("n", some [1]) ∧ s.issued = ["n"] ∧
      ∀ id, (s.store.content id).isSome = true → id ∈ s.issued := by
  have hreach : (webMachine (List Nat)).ReachableWith KnownCookie _ :=
    .step (a := WebAct.save 0 (some [1]) none)
      (.step (a := WebAct.get none true (.ok "n") none) (.init (.inl rfl)) trivial rfl) trivial rfl
  exact ⟨_, hreach, rfl, rfl, (session_ids_issued hreach).1⟩

/-- The id of an unknown cookie is taken for the new session. -/
theorem session_id_adopted :
    ∃ s : WebState (List Nat), (webMachine (List Nat)).Reachable s ∧
      (s.store.content "chosen by the client").isSome = true ∧ s.issued = [] := by
  have hreach : (webMachine (List Nat)).Reachable _ :=
    .step (a := WebAct.save 0 (some [1]) none)
      (.step (a := WebAct.get (some "chosen by the client") true (.ok "n") none) (.init (.inl rfl))
        trivial rfl) trivial rfl
  exact ⟨_, hreach, rfl, rfl⟩

inductive StoreOp (δ : Type) where
  | save (s : Session δ)
  | delete (id : String)
  | get (id : String)

def Store.after (st : Store δ) : List (StoreOp δ) → Store δ
  | [] => st
  | .save s :: ops => ((st.after ops).save none s).1
  | .delete id :: ops => ((st.after ops).delete none id).1
  | .get _ :: ops => st.after ops

def lastSaved (id : String) : List (StoreOp δ) → Option (Option δ)
  | [] => none
  | .save s :: ops => if id = s.id then some s.data else lastSaved id ops
  | .delete id' :: ops => if id = id' then none else lastSaved id ops
  | .get _ :: ops => lastSaved id ops

def expected (id : String) (ops : List (StoreOp δ)) : Got δ :=
  match lastSaved id ops with
  | some data => .session ⟨id, data, false⟩
  | none => .missing (some .noSession)

def Got.saved : Got δ → Got δ
  | .session s => .session { s with isNew := false }
  | g => g

def noSave : List (StoreOp δ) → Bool
  | [] => true
  | .save _ :: _ => false
  | _ :: ops => noSave ops

theorem memory_after (ops : List (StoreOp δ)) :
    ∃ data, (Store.memory none).after ops = .memory data ∧ data.isNone = noSave ops := by
  induction ops with
  | nil => exact ⟨_, rfl, rfl⟩
  | cons op ops ih =>
    obtain ⟨data, hst, hdata⟩ := ih
    cases op with
    | save s => exact ⟨_, by rw [Store.after, hst]; rfl, rfl⟩
    | delete id =>
      cases data with
      | none => exact ⟨none, by rw [Store.after, hst]; rfl, hdata⟩
      | some data =>
        exact ⟨some (Function.update data id none), by rw [Store.after, hst]; rfl, hdata⟩
    | get id => exact ⟨data, hst, hdata⟩

theorem content_after (ops : List (StoreOp δ)) (id : String) :
    ((Store.memory none).after ops).content id = (lastSaved id ops).map fun data => (id, data) := by
  induction ops with
  | nil => rfl
  | cons op ops ih =>
    cases op with
    | save s =>
      obtain ⟨data, hst, -⟩ := memory_after ops
      rw [Store.after, Store.content_save, Function.update_apply, lastSaved, ih, hst]
      split
      · subst id
        rfl
      · rfl
    | delete id' =>
      rw [Store.after, Store.content_delete, Function.update_apply, lastSaved, ih]
      split <;> rfl
    | get => exact ih

theorem mongo_after (bson : Bson δ) (ops : List (StoreOp δ)) :
    (Store.mongo bson fun _ => none).after ops =
      .mongo bson fun id => (lastSaved id ops).map (Option.map bson.marshal) := by
  induction ops with
  | nil => rfl
  | cons op ops ih =>
    cases op with
    | save s | delete id =>
      rw [Store.after, ih]
      refine congrArg (Store.mongo bson) (funext fun id' => ?_)
      rw [lastSaved, Function.update_apply]
      split <;> rfl
    | get id => exact ih

/-- The memory store answers as expected just if the id has a session or nothing was saved; the
database just if no nil data was, and the data is kept by its encoding. -/
theorem session_stores_agree_iff (bson : Bson δ) (ops : List (StoreOp δ)) (id : String) :
    ((((Store.memory none).after ops).get none id).saved = expected id ops ↔
      (lastSaved id ops).isSome = true ∨ noSave ops = true) ∧
    ((((Store.mongo bson fun _ => none).after ops).get none id).saved = expected id ops ↔
      ∀ data, lastSaved id ops = some data → ∃ d, data = some d ∧ bson.Keeps d) := by
  rw [mongo_after, expected]
  constructor
  · obtain ⟨data, hst, hdata⟩ := memory_after ops
    have hid := content_after ops id
    rw [hst] at hid ⊢
    rw [← hdata]
    cases data with
    | none =>
      rw [Option.map_eq_none_iff.1 hid.symm]
      simp [Store.get, Got.saved]
    | some data =>
      cases hlast : lastSaved id ops with
      | none =>
        rw [hlast] at hid
        simp [Store.get, Option.map_eq_none_iff.1 hid, Got.saved]
      | some d =>
        rw [hlast] at hid
        obtain ⟨s, hs, heq⟩ := Option.map_eq_some_iff.1 hid
        cases heq
        simp [Store.get, hs, Got.saved]
  · match hlast : lastSaved id ops with
    | none | some none | some (some d) => simp [Store.get, hlast, Got.saved, Bson.Keeps]

/-- A number with its Go type. -/
inductive Number where
  | int (n : UInt8)
  | int32 (n : UInt8)

/-- A small `int` is written as an `int32`, and read as one. -/
def numberBson : Bson Number where
  marshal
    | .int n | .int32 n => [n]
  unmarshal data := .int32 (data.headD 0)

/-- After a `Save` the memory store has no error for an id without a session; nil data cannot be
read from the database, and an `int` comes back as an `int32`. -/
theorem session_stores_differ :
    let ops : List (StoreOp Number) := [.save ⟨"a", none, false⟩, .save ⟨"c", some (.int 1), false⟩]
    let memory := (Store.memory none).after ops
    let mongo := (Store.mongo numberBson fun _ => none).after ops
    memory.get none "b" = .missing none ∧ mongo.get none "b" = .missing (some .noSession) ∧
      (∃ text, mongo.get none "a" = .panic text) ∧
      memory.get none "c" = .session ⟨"c", some (.int 1), false⟩ ∧
      mongo.get none "c" = .session ⟨"c", some (.int32 1), false⟩ :=
  ⟨rfl, rfl, ⟨_, rfl⟩, rfl, rfl⟩

end Goutils.Web
