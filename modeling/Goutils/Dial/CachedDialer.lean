import Goutils.Lib.Machine
import Goutils.Lib.Sync

namespace Goutils.Dial
open Lib
set_option autoImplicit true

/-- A `refCountedConnWrapper`: its count, -1 once released, and how often it was closed. -/
structure Wrapper (ω : Type) where
  opts : ω
  count : Int := 0
  stored : Bool := false
  refCloses : Nat := 0
  dialCloses : Nat := 0

/-- Where a goroutine stands in `DialFunc`; from `redundant` on it holds the mutex. -/
inductive DialPc where
  | lookup
  | found (c : Nat)
  | dialing
  | lock (w : Nat)
  | redundant (w c : Nat)
  | share (w c : Nat)
  | store (w : Nat)
  | returned (dialed : Option Nat) (c : Nat)
  | failed
  | panicked
  deriving DecidableEq

/-- Where a reference stands in `Close`: `unref` takes the wrapper off the map. -/
inductive RefPc where
  | live
  | closing
  | unref
  | closed (last : Bool)
  | panicked
  deriving DecidableEq

/-- `cachedDialer` with the goroutines in `DialFunc` and the references returned. -/
structure DialerState (ω κ : Type) where
  conns : κ → Option Nat := fun _ => none
  mu : Option Nat := none
  wrappers : List (Wrapper ω) := []
  dials : List (ω × DialPc) := []
  refs : List (Nat × RefPc) := []

inductive DialAct (ω : Type) where
  | call (o : ω)
  | dial (d : Nat) (ok : Bool)
  | close (r : Nat)

section
variable {ω κ : Type} [DecidableEq κ] (key : ω → κ)

namespace DialerState

def setDial (s : DialerState ω κ) (d : Nat) (o : ω) (pc : DialPc) : DialerState ω κ :=
  { s with dials := s.dials.set d (o, pc) }

def ref (s : DialerState ω κ) (d : Nat) (o : ω) (dialed : Option Nat) (c : Nat) :
    DialerState ω κ :=
  if s.wrappers[c]?.any fun w => w.count = -1 then s.setDial d o .panicked
  else { s.setDial d o (.returned dialed c) with
    wrappers := s.wrappers.modify c fun w => { w with count := w.count + 1 }
    refs := s.refs ++ [(c, .live)] }

def unlock (s : DialerState ω κ) : DialerState ω κ := { s with mu := none }

/-- One step of `DialFunc`; `ok` is the outcome of `dialNew` or of closing a connection. -/
def dialFunc (s : DialerState ω κ) (ok : Bool) (d : Nat) (o : ω) :
    DialPc → Option (DialerState ω κ)
  | .lookup =>
    if s.mu = none then
      some (s.setDial d o (match s.conns (key o) with
        | some c => .found c
        | none => .dialing))
    else none
  | .found c => some (s.ref d o none c)
  | .dialing =>
    some (if ok then
      { s.setDial d o (.lock s.wrappers.length) with wrappers := s.wrappers ++ [{ opts := o }] }
    else s.setDial d o .failed)
  | .lock w =>
    if s.mu = none then
      match s.conns (key o) with
      | some c => some { s.setDial d o (.redundant w c) with mu := some d }
      | none => some { s.setDial d o (.store w) with
          mu := some d
          conns := Function.update s.conns (key o) (some w)
          wrappers := s.wrappers.modify w fun w => { w with stored := true } }
    else none
  | .redundant w c =>
    let s := { s with
      wrappers := s.wrappers.modify w fun w => { w with dialCloses := w.dialCloses + 1 } }
    some (if ok then s.setDial d o (.share w c) else (s.setDial d o .failed).unlock)
  | .share w c => some (s.ref d o (some w) c).unlock
  | .store w => some (s.ref d o (some w) w).unlock
  | _ => none

def closeRef (s : DialerState ω κ) (r w : Nat) : RefPc → Option (DialerState ω κ)
  | .live =>
    s.wrappers[w]?.map fun x =>
      if x.count ≤ 0 then { s with refs := s.refs.set r (w, .panicked) }
      else if x.count = 1 then { s with
        wrappers := s.wrappers.modify w fun x => { x with count := -1 }
        refs := s.refs.set r (w, .closing) }
      else { s with
        wrappers := s.wrappers.modify w fun x => { x with count := x.count - 1 }
        refs := s.refs.set r (w, .closed false) }
  | .closing => some { s with
      wrappers := s.wrappers.modify w fun x => { x with refCloses := x.refCloses + 1 }
      refs := s.refs.set r (w, .unref) }
  | .unref =>
    if s.mu = none then
      s.wrappers[w]?.map fun x => { s with
        conns := Function.update s.conns (key x.opts) none
        refs := s.refs.set r (w, .closed true) }
    else none
  | _ => none

end DialerState

def dialerStep (s : DialerState ω κ) : DialAct ω → Option (DialerState ω κ)
  | .call o => some { s with dials := s.dials ++ [(o, .lookup)] }
  | .dial d ok => s.dials[d]?.bind fun p => s.dialFunc key ok d p.1 p.2
  | .close r => s.refs[r]?.bind fun p => s.closeRef key r p.1 p.2

def dialerMachine : Machine (DialerState ω κ) (DialAct ω) where
  init s := s = {}
  step := dialerStep key

def DialPc.target : DialPc → Option (Option Nat × Nat)
  | .found c => some (none, c)
  | .share w c => some (some w, c)
  | .store w => some (some w, w)
  | _ => none

def DialPc.shared : DialPc → Option Nat
  | .found c | .redundant _ c | .share _ c => some c
  | _ => none

def DialPc.pending : DialPc → Option Nat
  | .lock w | .redundant w _ => some w
  | _ => none

def DialPc.locks : DialPc → Bool
  | .redundant .. | .share .. | .store .. => true
  | _ => false

inductive DialerStep (s : DialerState ω κ) : DialAct ω → DialerState ω κ → Prop where
  | call : DialerStep s (.call o) { s with dials := s.dials ++ [(o, .lookup)] }
  | hit : s.dials[d]? = some (o, .lookup) → s.mu = none → s.conns (key o) = some c →
      DialerStep s (.dial d ok) (s.setDial d o (.found c))
  | miss : s.dials[d]? = some (o, .lookup) → DialerStep s (.dial d ok) (s.setDial d o .dialing)
  | dialed : s.dials[d]? = some (o, .dialing) → DialerStep s (.dial d ok)
      { s.setDial d o (.lock s.wrappers.length) with wrappers := s.wrappers ++ [{ opts := o }] }
  | dialFailed : s.dials[d]? = some (o, .dialing) →
      DialerStep s (.dial d ok) (s.setDial d o .failed)
  | redundant : s.dials[d]? = some (o, .lock w) → s.mu = none → s.conns (key o) = some c →
      DialerStep s (.dial d ok) { s.setDial d o (.redundant w c) with mu := some d }
  | store : s.dials[d]? = some (o, .lock w) → s.mu = none →
      DialerStep s (.dial d ok) { s.setDial d o (.store w) with
        mu := some d
        conns := Function.update s.conns (key o) (some w)
        wrappers := s.wrappers.modify w fun w => { w with stored := true } }
  | closeRedundant : s.dials[d]? = some (o, .redundant w c) →
      pc = .share w c ∧ m = s.mu ∨ pc = .failed ∧ m = none →
      DialerStep s (.dial d ok) { s.setDial d o pc with
        mu := m
        wrappers := s.wrappers.modify w fun w => { w with dialCloses := w.dialCloses + 1 } }
  | ref : s.dials[d]? = some (o, pc) → pc.target = some (dialed, c) →
      (∀ x, s.wrappers[c]? = some x → x.count ≠ -1) →
      DialerStep s (.dial d ok) { s.setDial d o (.returned dialed c) with
        mu := if pc.locks then none else s.mu
        wrappers := s.wrappers.modify c fun w => { w with count := w.count + 1 }
        refs := s.refs ++ [(c, .live)] }
  | panic : s.dials[d]? = some (o, pc) → pc.target = some (dialed, c) →
      s.wrappers[c]? = some x → x.count = -1 →
      DialerStep s (.dial d ok)
        { s.setDial d o .panicked with mu := if pc.locks then none else s.mu }
  | derefPanic : s.refs[r]? = some (w, .live) → s.wrappers[w]? = some x → x.count ≤ 0 →
      DialerStep s (.close r) { s with refs := s.refs.set r (w, .panicked) }
  | derefLast : s.refs[r]? = some (w, .live) → s.wrappers[w]? = some x → x.count = 1 →
      DialerStep s (.close r) { s with
        wrappers := s.wrappers.modify w fun x => { x with count := -1 }
        refs := s.refs.set r (w, .closing) }
  | deref : s.refs[r]? = some (w, .live) → s.wrappers[w]? = some x → 1 < x.count →
      DialerStep s (.close r) { s with
        wrappers := s.wrappers.modify w fun x => { x with count := x.count - 1 }
        refs := s.refs.set r (w, .closed false) }
  | closeConn : s.refs[r]? = some (w, .closing) → DialerStep s (.close r) { s with
      wrappers := s.wrappers.modify w fun x => { x with refCloses := x.refCloses + 1 }
      refs := s.refs.set r (w, .unref) }
  | onUnref : s.refs[r]? = some (w, .unref) → s.wrappers[w]? = some x →
      DialerStep s (.close r) { s with
        conns := Function.update s.conns (key x.opts) none
        refs := s.refs.set r (w, .closed true) }

variable {key}

theorem DialerState.ref_step {s s' : DialerState ω κ} {m : Option Nat}
    (hd : s.dials[d]? = some (o, pc)) (ht : pc.target = some (dialed, c))
    (hm : m = if pc.locks then none else s.mu)
    (h : { s.ref d o dialed c with mu := m } = s') : DialerStep key s (.dial d ok) s' := by
  subst h hm
  unfold DialerState.ref
  split
  · rename_i hany
    obtain ⟨x, hx, hcount⟩ := (Option.any_eq_true ..).1 hany
    exact .panic hd ht hx (of_decide_eq_true hcount)
  · rename_i hany
    refine .ref hd ht fun x hx hcount => hany ?_
    rw [hx]
    exact decide_eq_true hcount

omit [DecidableEq κ] in
theorem DialerState.ref_mu (s : DialerState ω κ) (d : Nat) (o : ω) (dialed : Option Nat) (c : Nat) :
    { s.ref d o dialed c with mu := s.mu } = s.ref d o dialed c := by
  unfold DialerState.ref
  split <;> rfl

theorem dialerStep_step {s s' : DialerState ω κ} (h : dialerStep key s a = some s') :
    DialerStep key s a s' := by
  cases a with
  | call o =>
    cases h
    exact .call
  | dial d ok =>
    obtain ⟨⟨o, pc⟩, hd, h⟩ := Option.bind_eq_some_iff.1 h
    cases pc with
    | lookup =>
      simp only [DialerState.dialFunc] at h
      split at h
      · rename_i hmu
        cases h
        cases hc : s.conns (key o) with
        | none => exact .miss hd
        | some c => exact .hit hd hmu hc
      · cases h
    | found c => exact DialerState.ref_step hd rfl rfl ((s.ref_mu ..).trans (Option.some.inj h))
    | dialing =>
      cases h
      split
      · exact .dialed hd
      · exact .dialFailed hd
    | lock w =>
      simp only [DialerState.dialFunc] at h
      split at h
      · split at h <;> cases h
        · exact .redundant hd ‹_› ‹_›
        · exact .store hd ‹_›
      · cases h
    | redundant w c =>
      cases h
      split
      · exact .closeRedundant hd (.inl ⟨rfl, rfl⟩)
      · exact .closeRedundant hd (.inr ⟨rfl, rfl⟩)
    | share w c | store w => exact DialerState.ref_step hd rfl rfl (Option.some.inj h)
    | _ => cases h
  | close r =>
    obtain ⟨⟨w, pc⟩, hr, h⟩ := Option.bind_eq_some_iff.1 h
    cases pc with
    | live =>
      obtain ⟨x, hx, rfl⟩ := Option.map_eq_some_iff.1 h
      split
      · exact .derefPanic hr hx ‹_›
      · split
        · exact .derefLast hr hx ‹_›
        · exact .deref hr hx (by omega)
    | closing =>
      cases h
      exact .closeConn hr
    | unref =>
      simp only [DialerState.closeRef] at h
      split at h
      · obtain ⟨x, hx, rfl⟩ := Option.map_eq_some_iff.1 h
        exact .onUnref hr hx
      · cases h
    | _ => cases h

end

section
variable {ω κ : Type}

def Wrapper.On (key : ω → κ) (k : κ) (x : Wrapper ω) : Prop :=
  x.stored = true ∧ x.dialCloses = 0 ∧ key x.opts = k

def Wrapper.New (o : ω) (x : Wrapper ω) : Prop :=
  x.stored = false ∧ x.dialCloses = 0 ∧ x.opts = o

def Wrapper.Discarded (x : Wrapper ω) : Prop := x.stored = false ∧ x.dialCloses = 1

theorem Wrapper.New.not_on {key : ω → κ} {x : Wrapper ω} (h : x.New o) : ¬ x.On key k := by
  intro hon
  exact Bool.false_ne_true (h.1.symm.trans hon.1)

theorem Wrapper.Discarded.not_new {x : Wrapper ω} (h : x.Discarded) : ¬ x.New o := by
  intro hnew
  have := h.2.symm.trans hnew.2.1
  omega

def DialPc.Sound (key : ω → κ) (ws : List (Wrapper ω)) (o : ω) : DialPc → Prop
  | .found c => At ws c (Wrapper.On key (key o))
  | .lock w => At ws w (Wrapper.New o)
  | .redundant w c => At ws w (Wrapper.New o) ∧ At ws c (Wrapper.On key (key o))
  | .share w c => At ws w Wrapper.Discarded ∧ At ws c (Wrapper.On key (key o))
  | .store w => At ws w (Wrapper.On key (key o))
  | .returned dialed c => At ws c (Wrapper.On key (key o)) ∧
    ∀ w, dialed = some w → w = c ∨ At ws w Wrapper.Discarded
  | _ => True

structure Frame (key : ω → κ) (ws ws' : List (Wrapper ω)) (p : Option Nat) : Prop where
  on : ∀ c k, At ws c (Wrapper.On key k) → At ws' c (Wrapper.On key k)
  new : ∀ w o, p ≠ some w → At ws w (Wrapper.New o) → At ws' w (Wrapper.New o)
  discarded : ∀ w, At ws w Wrapper.Discarded → At ws' w Wrapper.Discarded

namespace Frame
variable {key : ω → κ} {ws : List (Wrapper ω)}

theorem refl : Frame key ws ws p := ⟨fun _ _ h => h, fun _ _ _ h => h, fun _ h => h⟩

theorem append (l : List (Wrapper ω)) : Frame key ws (ws ++ l) p :=
  ⟨fun _ _ h => h.append l, fun _ _ _ h => h.append l, fun _ h => h.append l⟩

theorem counters (w : Nat) {f : Wrapper ω → Wrapper ω}
    (hf : ∀ x, (f x).opts = x.opts ∧ (f x).stored = x.stored ∧ (f x).dialCloses = x.dialCloses) :
    Frame key ws (ws.modify w f) p := by
  constructor
  · intro c k h
    refine h.modify w fun x hx => ?_
    simpa only [Wrapper.On, hf] using hx
  · intro c o _ h
    refine h.modify w fun x hx => ?_
    simpa only [Wrapper.New, hf] using hx
  · intro c h
    refine h.modify w fun x hx => ?_
    simpa only [Wrapper.Discarded, hf] using hx

theorem modify_new (hw : At ws w (Wrapper.New o)) (f : Wrapper ω → Wrapper ω) :
    Frame key ws (ws.modify w f) (some w) := by
  constructor
  · intro c k h
    exact h.modify_ne (hw.ne h fun _ hx => hx.not_on)
  · intro c o hne h
    exact h.modify_ne fun he => hne (congrArg some he)
  · intro c h
    exact h.modify_ne (h.ne hw fun _ hx => hx.not_new).symm

end Frame

namespace DialPc.Sound
variable {key : ω → κ} {ws ws' : List (Wrapper ω)} {pc : DialPc} {o : ω}
  (h : pc.Sound key ws o)

include h

theorem frame (hf : Frame key ws ws' p) (hp : ∀ w, pc.pending = some w → p ≠ some w) :
    pc.Sound key ws' o := by
  cases pc with
  | found c => exact hf.on c _ h
  | lock w => exact hf.new w o (hp w rfl) h
  | redundant w c => exact ⟨hf.new w o (hp w rfl) h.1, hf.on c _ h.2⟩
  | share w c => exact ⟨hf.discarded w h.1, hf.on c _ h.2⟩
  | store w => exact hf.on w _ h
  | returned dialed c =>
    refine ⟨hf.on c _ h.1, fun w hw => ?_⟩
    exact (h.2 w hw).imp_right (hf.discarded w)
  | _ => trivial

theorem pending (hp : pc.pending = some w) : At ws w (Wrapper.New o) := by
  cases pc with
  | lock w => cases hp; exact h
  | redundant w c => cases hp; exact h.1
  | _ => cases hp

theorem target (ht : pc.target = some (dialed, c)) : (DialPc.returned dialed c).Sound key ws o := by
  cases pc with
  | found c =>
    cases ht
    exact ⟨h, nofun⟩
  | share w c =>
    cases ht
    exact ⟨h.2, fun w hw => .inr (Option.some.inj hw ▸ h.1)⟩
  | store w =>
    cases ht
    exact ⟨h, fun w hw => .inl (Option.some.inj hw).symm⟩
  | _ => cases ht

theorem shared (hc : pc.shared = some c) : At ws c (Wrapper.On key (key o)) := by
  cases pc with
  | found c => cases hc; exact h
  | redundant w c | share w c => cases hc; exact h.2
  | _ => cases hc

end DialPc.Sound

def RefPc.isLive : RefPc → Bool
  | .live => true
  | _ => false

def RefPc.isLast : RefPc → Bool
  | .closing | .unref => true
  | .closed last => last
  | _ => false

def RefPc.closedConn : RefPc → Bool
  | .unref => true
  | .closed last => last
  | _ => false

def refsAt (p : RefPc → Bool) (refs : List (Nat × RefPc)) (w : Nat) : Nat :=
  refs.countP fun r => decide (r.1 = w) && p r.2

theorem refsAt_append (p : RefPc → Bool) (refs : List (Nat × RefPc)) (w c : Nat) (pc : RefPc) :
    refsAt p (refs ++ [(c, pc)]) w = refsAt p refs w + if c = w ∧ p pc = true then 1 else 0 := by
  simp only [refsAt, List.countP_append, List.countP_singleton, Bool.and_eq_true, decide_eq_true_eq]

theorem refsAt_set {refs : List (Nat × RefPc)} (h : refs[r]? = some (c, pc)) (p : RefPc → Bool)
    (pc' : RefPc) (w : Nat) :
    refsAt p (refs.set r (c, pc')) w + (if c = w ∧ p pc = true then 1 else 0) =
      refsAt p refs w + if c = w ∧ p pc' = true then 1 else 0 := by
  have hmove := countP_move h (c, pc') fun r => decide (r.1 = w) && p r.2
  simpa only [refsAt, Bool.and_eq_true, decide_eq_true_eq] using hmove

section Move

variable {refs : List (Nat × RefPc)} {r w : Nat} {pc : RefPc} {p : RefPc → Bool}
  (h : refs[r]? = some (w, pc)) (pc' : RefPc)

include h

theorem refsAt_same (hp : p pc' = p pc) : refsAt p (refs.set r (w, pc')) w = refsAt p refs w := by
  have hmove := refsAt_set h p pc' w
  rw [hp] at hmove
  exact Nat.add_right_cancel hmove

theorem refsAt_enter (hp : p pc = false) (hp' : p pc' = true) :
    refsAt p (refs.set r (w, pc')) w = refsAt p refs w + 1 := by
  simpa [hp, hp'] using refsAt_set h p pc' w

theorem refsAt_leave (hp : p pc = true) (hp' : p pc' = false) :
    refsAt p (refs.set r (w, pc')) w + 1 = refsAt p refs w := by
  simpa [hp, hp'] using refsAt_set h p pc' w

end Move

theorem refsAt_set_ne {refs : List (Nat × RefPc)} (h : refs[r]? = some (c, pc)) (p : RefPc → Bool)
    (pc' : RefPc) (hw : w ≠ c) : refsAt p (refs.set r (c, pc')) w = refsAt p refs w := by
  have hmove := refsAt_set h p pc' w
  have hne : ∀ q : Prop, ¬ (c = w ∧ q) := fun q hq => hw hq.1.symm
  simpa only [if_neg (hne _), Nat.add_zero] using hmove

theorem refsAt_pos {refs : List (Nat × RefPc)} {p : RefPc → Bool} {r : Nat}
    (h : refs[r]? = some (w, pc))
    (hp : p pc = true) : 0 < refsAt p refs w := by
  rw [refsAt, List.countP_pos_iff]
  refine ⟨_, List.mem_of_getElem? h, ?_⟩
  simp only [hp, decide_true, Bool.and_self]

/-- The reference count counts the live references until the last one is closed, which closes the
connection. -/
def Wrapper.Counts (refs : List (Nat × RefPc)) (w : Nat) (x : Wrapper ω) : Prop :=
  x.refCloses = refsAt RefPc.closedConn refs w ∧
    (x.count = -1 ∧ refsAt RefPc.isLive refs w = 0 ∧ refsAt RefPc.isLast refs w = 1 ∨
      x.count = refsAt RefPc.isLive refs w ∧ refsAt RefPc.isLast refs w = 0 ∧
        (refsAt (fun _ => true) refs w = 0 ∨ 0 < refsAt RefPc.isLive refs w))

namespace Wrapper.Counts
variable {refs : List (Nat × RefPc)} {x : Wrapper ω} {w : Nat} (h : x.Counts refs w)

include h

theorem append_ne (hw : w ≠ c) (pc : RefPc) : x.Counts (refs ++ [(c, pc)]) w := by
  have hne : ∀ q : Prop, ¬ (c = w ∧ q) := fun q hq => hw hq.1.symm
  simpa only [Counts, refsAt_append, if_neg (hne _), Nat.add_zero] using h

theorem set_ne (hr : refs[r]? = some (c, pc)) (hw : w ≠ c) (pc' : RefPc) :
    x.Counts (refs.set r (c, pc')) w := by
  simpa only [Counts, refsAt_set_ne hr _ pc' hw] using h

theorem ref (hcount : x.count ≠ -1) :
    { x with count := x.count + 1 : Wrapper ω }.Counts (refs ++ [(w, .live)]) w := by
  obtain ⟨hcloses, ⟨hc, -⟩ | ⟨hc, hlast, -⟩⟩ := h
  · exact absurd hc hcount
  · have hzero : ∀ p : RefPc → Bool, p .live = false →
        refsAt p (refs ++ [(w, .live)]) w = refsAt p refs w := by
      intro p hp
      simp only [refsAt_append, hp, Bool.false_eq_true, and_false, ↓reduceIte, Nat.add_zero]
    refine ⟨hcloses.trans (hzero _ rfl).symm, .inr ?_⟩
    rw [refsAt_append RefPc.isLive, if_pos ⟨rfl, rfl⟩]
    refine ⟨?_, (hzero _ rfl).trans hlast, .inr (Nat.succ_pos _)⟩
    simp only [hc, Nat.cast_add, Nat.cast_one]

theorem live {r : Nat} (hr : refs[r]? = some (w, .live)) : 0 < x.count := by
  have hpos : 0 < refsAt RefPc.isLive refs w := refsAt_pos hr rfl
  obtain ⟨-, ⟨-, hzero, -⟩ | ⟨hc, -⟩⟩ := h
  · omega
  · omega

theorem derefLast (hr : refs[r]? = some (w, .live)) (hcount : x.count = 1) :
    { x with count := -1 : Wrapper ω }.Counts (refs.set r (w, .closing)) w := by
  have hlive := refsAt_leave (p := RefPc.isLive) hr .closing rfl rfl
  have hlast := refsAt_enter (p := RefPc.isLast) hr .closing rfl rfl
  obtain ⟨hcloses, hc⟩ := h
  refine ⟨hcloses.trans (refsAt_same hr .closing rfl).symm, .inl ⟨rfl, ?_, ?_⟩⟩ <;> omega

theorem deref (hr : refs[r]? = some (w, .live)) (hcount : 1 < x.count) :
    { x with count := x.count - 1 : Wrapper ω }.Counts (refs.set r (w, .closed false)) w := by
  have hlive := refsAt_leave (p := RefPc.isLive) hr (.closed false) rfl rfl
  have hlast := refsAt_same (p := RefPc.isLast) hr (.closed false) rfl
  obtain ⟨hcloses, hc⟩ := h
  refine ⟨hcloses.trans (refsAt_same hr (.closed false) rfl).symm, .inr ⟨?_, ?_, .inr ?_⟩⟩
  · simp only
    omega
  · omega
  · omega

theorem closeConn (hr : refs[r]? = some (w, .closing)) :
    { x with refCloses := x.refCloses + 1 : Wrapper ω }.Counts (refs.set r (w, .unref)) w := by
  unfold Counts
  rw [refsAt_enter (p := RefPc.closedConn) hr .unref rfl rfl,
    refsAt_same (p := RefPc.isLive) hr .unref rfl, refsAt_same (p := RefPc.isLast) hr .unref rfl,
    refsAt_same (p := fun _ => true) hr .unref rfl]
  exact ⟨congrArg (· + 1) h.1, h.2⟩

theorem onUnref (hr : refs[r]? = some (w, .unref)) : x.Counts (refs.set r (w, .closed true)) w := by
  unfold Counts
  have hsame {p : RefPc → Bool} := refsAt_same (p := p) hr (.closed true)
  rw [hsame (p := RefPc.closedConn) rfl, hsame (p := RefPc.isLive) rfl,
    hsame (p := RefPc.isLast) rfl, hsame (p := fun _ => true) rfl]
  exact h

theorem refCloses_le : x.refCloses ≤ refsAt RefPc.isLast refs w := by
  rw [h.1]
  refine List.countP_mono_left fun r _ hr => ?_
  obtain ⟨w', pc⟩ := r
  cases pc <;> simp_all [RefPc.closedConn, RefPc.isLast]

theorem refCloses_le_one : x.refCloses ≤ 1 := by
  have hle := h.refCloses_le
  obtain ⟨-, ⟨-, -, hlast⟩ | ⟨-, hlast, -⟩⟩ := h <;> omega

theorem not_closed_of_live {r : Nat} (hr : refs[r]? = some (w, .live)) : x.refCloses = 0 := by
  have hle := h.refCloses_le
  have hpos : 0 < refsAt RefPc.isLive refs w := refsAt_pos hr rfl
  obtain ⟨-, ⟨-, hzero, -⟩ | ⟨-, hlast, -⟩⟩ := h <;> omega

theorem closed_of_closed (hex : ∃ p ∈ refs, p.1 = w)
    (hall : ∀ p ∈ refs, p.1 = w → ∃ last, p.2 = .closed last) : x.refCloses = 1 := by
  have hlive : refsAt RefPc.isLive refs w = 0 := by
    rw [refsAt, List.countP_eq_zero]
    rintro ⟨w', pc⟩ hmem hp
    simp only [Bool.and_eq_true, decide_eq_true_eq] at hp
    obtain ⟨last, rfl⟩ := hall _ hmem hp.1
    cases hp.2
  have hlast : refsAt RefPc.closedConn refs w = refsAt RefPc.isLast refs w := by
    refine List.countP_congr fun r hmem => ?_
    simp only [Bool.and_eq_true, decide_eq_true_eq]
    refine and_congr_right fun hw => ?_
    obtain ⟨last, hlast⟩ := hall r hmem hw
    rw [hlast]
    rfl
  have hpos : 0 < refsAt (fun _ => true) refs w := by
    obtain ⟨p, hmem, hp⟩ := hex
    rw [refsAt, List.countP_pos_iff]
    exact ⟨p, hmem, by simp only [hp, decide_true, Bool.and_self]⟩
  obtain ⟨hcloses, ⟨-, -, hone⟩ | ⟨-, -, hnone | hsome⟩⟩ := h <;> omega

theorem count_of_none (hnone : ∀ (r : Nat) pc, refs[r]? ≠ some (w, pc)) : x.count ≠ -1 := by
  have hzero : refsAt RefPc.isLast refs w = 0 := by
    rw [refsAt, List.countP_eq_zero]
    rintro ⟨w', pc⟩ hmem hp
    simp only [Bool.and_eq_true, decide_eq_true_eq] at hp
    obtain ⟨r, hr⟩ := List.getElem?_of_mem hmem
    exact hnone r pc (hp.1 ▸ hr)
  obtain ⟨-, ⟨-, -, hone⟩ | ⟨hc, -⟩⟩ := h <;> omega

theorem count_ge : -1 ≤ x.count := by
  obtain ⟨-, ⟨hc, -⟩ | ⟨hc, -⟩⟩ := h <;> omega

end Wrapper.Counts

end

section
variable {ω κ : Type} {key : ω → κ}

namespace DialerState

structure Inv (key : ω → κ) (s : DialerState ω κ) : Prop where
  dial : ∀ (d : Nat) (o : ω) (pc : DialPc), s.dials[d]? = some (o, pc) →
    pc.Sound key s.wrappers o
  locks : ∀ (d : Nat) (o : ω) (pc : DialPc), s.dials[d]? = some (o,
    pc) → pc.locks = true → s.mu = some d
  pending : ∀ (d d' : Nat) (o o' : ω) (pc pc' : DialPc) (w : Nat), s.dials[d]? = some (o, pc) →
    s.dials[d']? = some (o', pc') → pc.pending = some w → pc'.pending = some w → d = d'
  kept : ∀ (w : Nat) (x : Wrapper ω), s.wrappers[w]? = some x → x.stored = true ∨ x.Discarded ∨
    ∃ (d : Nat) (o : ω) (pc : DialPc), s.dials[d]? = some (o, pc) ∧ pc.pending = some w
  conn : ∀ k c, s.conns k = some c → At s.wrappers c (Wrapper.On key k)
  ref : ∀ (r w : Nat) (pc : RefPc), s.refs[r]? = some (w, pc) →
    pc ≠ .panicked ∧ At s.wrappers w fun x => ∃ k, x.On key k
  counts : ∀ (w : Nat) (x : Wrapper ω), s.wrappers[w]? = some x → x.Counts s.refs w
  /-- A wrapper that its call is about to reference first is with nobody else. -/
  store : ∀ (d : Nat) (o : ω) (w : Nat), s.dials[d]? = some (o, .store w) →
    (∀ (d' : Nat) (o' : ω) (pc : DialPc), s.dials[d']? = some (o', pc) → pc.shared ≠ some w) ∧
      ∀ (r : Nat) pc, s.refs[r]? ≠ some (w, pc)

namespace Inv
variable {s : DialerState ω κ} {d : Nat} {pc pc' : DialPc} {ws : List (Wrapper ω)}
  {rs : List (Nat × RefPc)}

theorem pending_of_target (ht : pc.target = some (dialed, c)) : pc.pending = none := by
  cases pc with
  | found c | share w c | store w => rfl
  | _ => cases ht

theorem released (hp : pc'.locks = false) (mu : Option Nat) :
    (if pc.locks then none else mu) = mu ∧ (pc'.locks = true → pc.locks = true) ∨
      mu = none ∧ (if pc.locks then none else mu) = some d ∨
        pc.locks = true ∧ pc'.locks = false := by
  by_cases hl : pc.locks = true
  · exact .inr (.inr ⟨hl, hp⟩)
  · rw [if_neg hl, hp]
    exact .inl ⟨rfl, nofun⟩

variable (hi : s.Inv key)

include hi

section

variable {o : ω} (hd : s.dials[d]? = some (o, pc))

include hd

theorem move_dial (hf : Frame key s.wrappers ws pc.pending) (hpc : pc'.Sound key ws o) (d' : Nat)
    (o' : ω) (pc'' : DialPc) (h : (s.dials.set d (o, pc'))[d']? = some (o', pc'')) :
    pc''.Sound key ws o' := by
  obtain ⟨rfl, heq⟩ | ⟨hne, hd'⟩ := getElem?_set_cases h
  · cases heq
    exact hpc
  · refine (hi.dial _ _ _ hd').frame hf fun w hw hw' => hne ?_
    exact hi.pending _ _ _ _ _ _ w hd' hd hw hw'

theorem move_pending (hpc : ∀ w, pc'.pending = some w → pc.pending = some w ∨ w = s.wrappers.length)
    (d₁ d₂ : Nat) (o₁ o₂ : ω) (pc₁ pc₂ : DialPc) (w : Nat)
    (h₁ : (s.dials.set d (o, pc'))[d₁]? = some (o₁, pc₁))
    (h₂ : (s.dials.set d (o, pc'))[d₂]? = some (o₂, pc₂)) (hw₁ : pc₁.pending = some w)
    (hw₂ : pc₂.pending = some w) : d₁ = d₂ := by
  have hother : ∀ (d' : Nat) o' pc'', s.dials[d']? = some (o', pc'') → pc''.pending = some w →
      pc'.pending = some w → d = d' := by
    intro d' o' pc'' hd' hw' hw
    rcases hpc w hw with hold | hnew
    · exact hi.pending _ _ _ _ _ _ w hd hd' hold hw'
    · obtain ⟨x, hx, -⟩ := (hi.dial _ _ _ hd').pending hw'
      have := (List.getElem?_eq_some_iff.1 hx).1
      omega
  rcases getElem?_set_cases h₁ with ⟨rfl, heq₁⟩ | ⟨-, h₁'⟩ <;>
    rcases getElem?_set_cases h₂ with ⟨rfl, heq₂⟩ | ⟨-, h₂'⟩
  · rfl
  · cases heq₁
    exact hother _ _ _ h₂' hw₂ hw₁
  · cases heq₂
    exact (hother _ _ _ h₁' hw₁ hw₂).symm
  · exact hi.pending _ _ _ _ _ _ w h₁' h₂' hw₁ hw₂

theorem move_locks
    (hm : m = s.mu ∧ (pc'.locks = true → pc.locks = true) ∨ s.mu = none ∧ m = some d ∨
      pc.locks = true ∧ pc'.locks = false) (d' : Nat) (o' : ω) (pc'' : DialPc)
    (h : (s.dials.set d (o, pc'))[d']? = some (o', pc'')) (hl : pc''.locks = true) :
    m = some d' := by
  obtain ⟨rfl, heq⟩ | ⟨hne, hd'⟩ := getElem?_set_cases h
  · cases heq
    rcases hm with ⟨rfl, hp⟩ | ⟨-, rfl⟩ | ⟨-, hfalse⟩
    · exact hi.locks _ _ _ hd (hp hl)
    · rfl
    · rw [hfalse] at hl
      cases hl
  · have hmu := hi.locks _ _ _ hd' hl
    rcases hm with ⟨rfl, -⟩ | ⟨hnone, -⟩ | ⟨hlocks, -⟩
    · exact hmu
    · rw [hnone] at hmu
      cases hmu
    · rw [hi.locks _ _ _ hd hlocks] at hmu
      exact absurd (Option.some.inj hmu).symm hne

theorem move_store (hne : ∀ w, pc' ≠ .store w)
    (hsh : ∀ c, pc'.shared = some c → pc.shared = some c ∨ s.mu = none)
    (hrefs : ∀ (w r : Nat) (p : RefPc), rs[r]? = some (w, p) →
      (∃ (r : Nat) (p : RefPc), s.refs[r]? = some (w, p)) ∨ ∃ dialed, pc.target = some (dialed, w))
    (d₁ : Nat) (o₁ : ω) (w : Nat) (h₁ : (s.dials.set d (o, pc'))[d₁]? = some (o₁, .store w)) :
    (∀ (d₂ : Nat) o₂ pc₂, (s.dials.set d (o, pc'))[d₂]? = some (o₂, pc₂) → pc₂.shared ≠ some w) ∧
      ∀ (r : Nat) p, rs[r]? ≠ some (w, p) := by
  obtain ⟨rfl, heq⟩ | ⟨hd₁, h₁⟩ := getElem?_set_cases h₁
  · cases heq
    exact absurd rfl (hne w)
  obtain ⟨hshared, hnone⟩ := hi.store _ _ _ h₁
  have hmu := hi.locks _ _ _ h₁ rfl
  constructor
  · intro d₂ o₂ pc₂ h₂ hw
    obtain ⟨rfl, heq⟩ | ⟨-, h₂⟩ := getElem?_set_cases h₂
    · cases heq
      rcases hsh w hw with hold | hfree
      · exact hshared _ _ _ hd hold
      · rw [hfree] at hmu
        cases hmu
    · exact hshared _ _ _ h₂ hw
  · intro r p hr
    rcases hrefs w r p hr with ⟨r, p, hr⟩ | ⟨dialed, ht⟩
    · exact hnone r p hr
    · -- The call that references it first is the only one that holds the mutex.
      cases pc with
      | found c | share w' c =>
        cases ht
        exact hshared _ _ _ hd rfl
      | store w' =>
        rw [hi.locks _ _ _ hd rfl] at hmu
        exact hd₁ (Option.some.inj hmu).symm
      | _ => cases ht

theorem move_kept
    (hws : ∀ (w : Nat) (x' : Wrapper ω),
      ws[w]? = some x' → pc'.pending = some w ∨ x'.stored = true ∨ x'.Discarded ∨
      pc.pending ≠ some w ∧
        ∃ x, s.wrappers[w]? = some x ∧ x'.stored = x.stored ∧ x'.dialCloses = x.dialCloses)
    (w : Nat) (x' : Wrapper ω) (h : ws[w]? = some x') : x'.stored = true ∨ x'.Discarded ∨
      ∃ (d' : Nat) (o' : ω) (pc'' : DialPc),
        (s.dials.set d (o, pc'))[d']? = some (o', pc'') ∧ pc''.pending = some w := by
  have hlen := (List.getElem?_eq_some_iff.1 hd).1
  rcases hws w x' h with hp | hs | hdis | ⟨hp, x, hx, hst, hcl⟩
  · exact .inr (.inr ⟨d, o, pc', List.getElem?_set_self hlen, hp⟩)
  · exact .inl hs
  · exact .inr (.inl hdis)
  · rcases hi.kept w x hx with hs | hdis | ⟨d', o', pc'', hd', hp'⟩
    · exact .inl (hst.trans hs)
    · exact .inr (.inl ⟨hst.trans hdis.1, hcl.trans hdis.2⟩)
    · refine .inr (.inr ⟨d', o', pc'', ?_, hp'⟩)
      have hne : d ≠ d' := by
        rintro rfl
        rw [hd] at hd'
        cases hd'
        exact hp hp'
      rw [List.getElem?_set_ne hne]
      exact hd'

theorem move (hpc : pc'.Sound key s.wrappers o) (hp : pc'.pending = pc.pending)
    (hm : m = s.mu ∧ (pc'.locks = true → pc.locks = true) ∨ s.mu = none ∧ m = some d ∨
      pc.locks = true ∧ pc'.locks = false) (hne : ∀ w, pc' ≠ .store w)
    (hsh : ∀ c, pc'.shared = some c → pc.shared = some c ∨ s.mu = none) :
    Inv key { s.setDial d o pc' with mu := m } where
  __ := hi
  dial := hi.move_dial hd .refl hpc
  locks := hi.move_locks hd hm
  pending := hi.move_pending hd fun w hw => .inl (hp ▸ hw)
  kept := hi.move_kept hd fun w x hx => by
    by_cases hw : pc.pending = some w
    · exact .inl (hp.trans hw)
    · exact .inr (.inr (.inr ⟨hw, x, hx, rfl, rfl⟩))
  store := hi.move_store hd hne hsh fun w r p hr => .inl ⟨r, p, hr⟩

end

theorem called (o : ω) : Inv key { s with dials := s.dials ++ [(o,
  .lookup)] } where
  __ := hi
  dial d o' pc hd := by
    rcases getElem?_concat_cases hd with hd | ⟨-, heq⟩
    · exact hi.dial _ _ _ hd
    · cases heq
      trivial
  locks d o' pc hd hl := by
    rcases getElem?_concat_cases hd with hd | ⟨-, heq⟩
    · exact hi.locks _ _ _ hd hl
    · cases heq
      cases hl
  pending d₁ d₂ o₁ o₂ pc₁ pc₂ w h₁ h₂ hw₁ hw₂ := by
    rcases getElem?_concat_cases h₁ with h₁ | ⟨-, heq⟩
    · rcases getElem?_concat_cases h₂ with h₂ | ⟨-, heq⟩
      · exact hi.pending _ _ _ _ _ _ w h₁ h₂ hw₁ hw₂
      · cases heq
        cases hw₂
    · cases heq
      cases hw₁
  kept w x hx := by
    rcases hi.kept w x hx with hs | hdis | ⟨d, o', pc, hd, hp⟩
    · exact .inl hs
    · exact .inr (.inl hdis)
    · refine .inr (.inr ⟨d, o', pc, ?_, hp⟩)
      rw [List.getElem?_append_left (List.getElem?_eq_some_iff.1 hd).1]
      exact hd
  store d o' w hd := by
    rcases getElem?_concat_cases hd with hd | ⟨-, heq⟩
    · refine ⟨fun d' o'' pc hd' => ?_, (hi.store _ _ _ hd).2⟩
      rcases getElem?_concat_cases hd' with hd' | ⟨-, heq⟩
      · exact (hi.store _ _ _ hd).1 _ _ _ hd'
      · cases heq
        nofun
    · cases heq

theorem dialNew (hd : s.dials[d]? = some (o, .dialing)) :
    Inv key { s.setDial d o (.lock s.wrappers.length) with
      wrappers := s.wrappers ++ [{ opts := o }] } where
  dial := hi.move_dial hd (.append _) ⟨_, List.getElem?_concat_length, rfl, rfl, rfl⟩
  locks := hi.move_locks hd (.inl ⟨rfl, nofun⟩)
  pending := hi.move_pending hd fun w hw => .inr (Option.some.inj hw).symm
  kept := hi.move_kept hd fun w x hx => by
    rcases getElem?_concat_cases hx with hx | ⟨rfl, -⟩
    · exact .inr (.inr (.inr ⟨nofun, x, hx, rfl, rfl⟩))
    · exact .inl rfl
  conn k c hc := (hi.conn k c hc).append _
  ref r w pc hr := (hi.ref r w pc hr).imp_right fun hx => hx.append _
  counts w x hx := by
    rcases getElem?_concat_cases hx with hx | ⟨rfl, rfl⟩
    · exact hi.counts w x hx
    · -- No reference is to a wrapper that was not there.
      have hzero : ∀ p, refsAt p s.refs s.wrappers.length = 0 := by
        intro p
        rw [refsAt, List.countP_eq_zero]
        rintro ⟨w, pc⟩ hmem hw
        obtain ⟨r, hr⟩ := List.getElem?_of_mem hmem
        obtain ⟨x, hx, -⟩ := (hi.ref r w pc hr).2
        have hlt := (List.getElem?_eq_some_iff.1 hx).1
        simp only [Bool.and_eq_true, decide_eq_true_eq] at hw
        omega
      refine ⟨(hzero _).symm, .inr ⟨?_, hzero _, .inl (hzero _)⟩⟩
      exact congrArg Nat.cast (hzero RefPc.isLive).symm
  store := hi.move_store hd nofun nofun fun w r p hr => .inl ⟨r, p, hr⟩

theorem ref_frame (hframe : Frame key s.wrappers ws p) {r w : Nat} {q : RefPc}
    (hr : s.refs[r]? = some (w, q)) : q ≠ .panicked ∧ At ws w fun x => ∃ k, Wrapper.On key k x := by
  obtain ⟨hp, x, hx, k, hk⟩ := hi.ref r w q hr
  exact ⟨hp, (hframe.on w k ⟨x, hx, hk⟩).imp fun _ h => ⟨k, h⟩⟩

theorem counts_modify (w : Nat) (f : Wrapper ω → Wrapper ω)
    (hf : ∀ x, (f x).count = x.count ∧ (f x).refCloses = x.refCloses) {w' : Nat} {x' : Wrapper ω}
    (hx' : (s.wrappers.modify w f)[w']? = some x') : x'.Counts s.refs w' := by
  rcases getElem?_modify_cases hx' with ⟨rfl, x, hx, rfl⟩ | ⟨-, hx⟩
  · have h := hi.counts w' x hx
    rw [Wrapper.Counts, ← (hf x).1, ← (hf x).2] at h
    exact h
  · exact hi.counts w' x' hx

theorem stored [DecidableEq κ] (hd : s.dials[d]? = some (o, .lock w)) (hmu : s.mu = none) :
    Inv key { s.setDial d o (.store w) with
      mu := some d
      conns := Function.update s.conns (key o) (some w)
      wrappers := s.wrappers.modify w fun w => { w with stored := true } } := by
  have hnew : At s.wrappers w (Wrapper.New o) := hi.dial _ _ _ hd
  have hframe : Frame key s.wrappers
      (s.wrappers.modify w fun w => { w with stored := true }) (some w) := .modify_new hnew _
  have hon : At (s.wrappers.modify w fun w => { w with stored := true }) w
      (Wrapper.On key (key o)) := by
    refine hnew.modify_self fun x hx => ?_
    exact ⟨rfl, hx.2.1, congrArg key hx.2.2⟩
  constructor
  · exact hi.move_dial hd hframe hon
  · exact hi.move_locks hd (.inr (.inl ⟨hmu, rfl⟩))
  · exact hi.move_pending hd nofun
  · refine hi.move_kept hd fun w' x' hx' => ?_
    rcases getElem?_modify_cases hx' with ⟨rfl, x, hx, rfl⟩ | ⟨hne, hx⟩
    · exact .inr (.inl rfl)
    · exact .inr (.inr (.inr ⟨fun hw => hne (Option.some.inj hw).symm, x', hx, rfl, rfl⟩))
  · intro k c hc
    replace hc : Function.update s.conns (key o) (some w) k = some c := hc
    by_cases hk : k = key o
    · subst hk
      rw [Function.update_self] at hc
      cases hc
      exact hon
    · rw [Function.update_of_ne hk] at hc
      exact hframe.on c k (hi.conn k c hc)
  · exact fun _ _ _ hr => hi.ref_frame hframe hr
  · intro _ _ hx
    refine hi.counts_modify w _ ?_ hx
    exact fun _ => ⟨rfl, rfl⟩
  · intro d₁ o₁ w₁ h₁
    obtain ⟨rfl, heq⟩ | ⟨hne, h₁'⟩ := getElem?_set_cases h₁
    · cases heq
      -- Whoever else has a wrapper has one that was stored before.
      constructor
      · intro d₂ o₂ pc₂ h₂ hw
        obtain ⟨rfl, heq⟩ | ⟨-, h₂'⟩ := getElem?_set_cases h₂
        · cases heq
          cases hw
        · exact hnew.ne ((hi.dial _ _ _ h₂').shared hw) (fun _ hx => hx.not_on) rfl
      · intro r p hr
        obtain ⟨-, hk⟩ := hi.ref r w p hr
        refine hnew.ne hk (fun x hx hk => ?_) rfl
        obtain ⟨k, hk⟩ := hk
        exact hx.not_on hk
    · have := hi.locks _ _ _ h₁' rfl
      rw [hmu] at this
      cases this

theorem closeRedundant (hd : s.dials[d]? = some (o, .redundant w c))
    (hpc : pc' = .share w c ∧ m = s.mu ∨ pc' = .failed ∧ m = none) :
    Inv key { s.setDial d o pc' with
      mu := m
      wrappers := s.wrappers.modify w fun w => { w with dialCloses := w.dialCloses + 1 } } := by
  obtain ⟨hnew, hc⟩ : At s.wrappers w (Wrapper.New o) ∧ At s.wrappers c (Wrapper.On key (key o)) :=
    hi.dial _ _ _ hd
  have hframe : Frame key s.wrappers
      (s.wrappers.modify w fun w => { w with dialCloses := w.dialCloses + 1 }) (some w) :=
    .modify_new hnew _
  have hdis : At (s.wrappers.modify w fun w => { w with dialCloses := w.dialCloses + 1 }) w
      Wrapper.Discarded := by
    refine hnew.modify_self fun x hx => ⟨hx.1, ?_⟩
    simp only [hx.2.1]
  constructor
  · refine hi.move_dial hd hframe ?_
    rcases hpc with ⟨rfl, -⟩ | ⟨rfl, -⟩
    · exact ⟨hdis, hframe.on c _ hc⟩
    · trivial
  · refine hi.move_locks hd ?_
    rcases hpc with ⟨rfl, rfl⟩ | ⟨rfl, rfl⟩
    · exact .inl ⟨rfl, fun _ => rfl⟩
    · exact .inr (.inr ⟨rfl, rfl⟩)
  · refine hi.move_pending hd ?_
    rcases hpc with ⟨rfl, -⟩ | ⟨rfl, -⟩ <;> nofun
  · refine hi.move_kept hd fun w' x' hx' => ?_
    rcases getElem?_modify_cases hx' with ⟨rfl, x, hx, rfl⟩ | ⟨hne, hx⟩
    · obtain ⟨y, hy, hdis⟩ := hdis
      rw [hx'] at hy
      cases hy
      exact .inr (.inr (.inl hdis))
    · exact .inr (.inr (.inr ⟨fun hw => hne (Option.some.inj hw).symm, x', hx, rfl, rfl⟩))
  · intro k c hc
    exact hframe.on c k (hi.conn k c hc)
  · exact fun _ _ _ hr => hi.ref_frame hframe hr
  · intro _ _ hx
    refine hi.counts_modify w _ ?_ hx
    exact fun _ => ⟨rfl, rfl⟩
  · refine hi.move_store hd ?_ ?_ fun w r p hr => .inl ⟨r, p, hr⟩
    · rcases hpc with ⟨rfl, -⟩ | ⟨rfl, -⟩ <;> nofun
    · rcases hpc with ⟨rfl, -⟩ | ⟨rfl, -⟩
      · exact fun _ h => .inl h
      · nofun

theorem refd (hd : s.dials[d]? = some (o, pc)) (ht : pc.target = some (dialed, c))
    (hcount : ∀ x, s.wrappers[c]? = some x → x.count ≠ -1) :
    Inv key { s.setDial d o (.returned dialed c) with
      mu := if pc.locks then none else s.mu
      wrappers := s.wrappers.modify c fun w => { w with count := w.count + 1 }
      refs := s.refs ++ [(c, .live)] } := by
  have hframe : ∀ p, Frame key s.wrappers
      (s.wrappers.modify c fun w => { w with count := w.count + 1 }) p := fun p =>
    .counters c fun x => ⟨rfl, rfl, rfl⟩
  have hret : (DialPc.returned dialed c).Sound key s.wrappers o := (hi.dial _ _ _ hd).target ht
  constructor
  · exact hi.move_dial hd (hframe _) (hret.frame (hframe none) nofun)
  · exact hi.move_locks hd (released rfl s.mu)
  · exact hi.move_pending hd nofun
  · refine hi.move_kept hd fun w' x' hx' => .inr (.inr (.inr ⟨?_, ?_⟩))
    · rw [pending_of_target ht]
      nofun
    · rcases getElem?_modify_cases hx' with ⟨rfl, x, hx, rfl⟩ | ⟨-, hx⟩
      · exact ⟨x, hx, rfl, rfl⟩
      · exact ⟨x', hx, rfl, rfl⟩
  · intro k c hc
    exact (hframe none).on c k (hi.conn k c hc)
  · intro r w' p hr
    rcases getElem?_concat_cases hr with hr | ⟨-, heq⟩
    · exact hi.ref_frame (hframe none) hr
    · cases heq
      exact ⟨nofun, ((hframe none).on c _ hret.1).imp fun _ h => ⟨_, h⟩⟩
  · intro w' x' hx'
    rcases getElem?_modify_cases hx' with ⟨rfl, x, hx, rfl⟩ | ⟨hne, hx⟩
    · exact (hi.counts _ x hx).ref (hcount x hx)
    · exact (hi.counts w' x' hx).append_ne hne .live
  · refine hi.move_store hd nofun nofun fun w r p hr => ?_
    rcases getElem?_concat_cases hr with hr | ⟨-, heq⟩
    · exact .inl ⟨r, p, hr⟩
    · cases heq
      exact .inr ⟨dialed, ht⟩

theorem close {r : Nat} {p p' : RefPc} (hr : s.refs[r]? = some (w, p)) (hp : p' ≠ .panicked)
    (hframe : ∀ p, Frame key s.wrappers ws p)
    (hws : ∀ (w' : Nat) x', ws[w']? = some x' → (∃ x, s.wrappers[w']? = some x ∧
      x'.stored = x.stored ∧ x'.dialCloses = x.dialCloses) ∧ x'.Counts (s.refs.set r (w, p')) w')
    (hconns : ∀ k c, cs k = some c → s.conns k = some c) :
    Inv key { s with conns := cs, wrappers := ws, refs := s.refs.set r (w, p') } := by
  have hrefs : ∀ (w' r' : Nat) (q : RefPc), (s.refs.set r (w, p'))[r']? = some (w', q) →
      ∃ q', s.refs[r']? = some (w', q') ∧ q ≠ .panicked := by
    intro w' r' q hr'
    obtain ⟨rfl, heq⟩ | ⟨-, hr'⟩ := getElem?_set_cases hr'
    · cases heq
      exact ⟨p, hr, hp⟩
    · exact ⟨q, hr', (hi.ref _ _ _ hr').1⟩
  constructor
  · intro d o pc hd
    exact (hi.dial d o pc hd).frame (hframe none) nofun
  · exact hi.locks
  · exact hi.pending
  · intro w' x' hx'
    obtain ⟨⟨x, hx, hst, hcl⟩, -⟩ := hws w' x' hx'
    simpa only [Wrapper.Discarded, hst, hcl] using hi.kept w' x hx
  · intro k c hc
    exact (hframe none).on c k (hi.conn k c (hconns k c hc))
  · intro r' w' q hr'
    obtain ⟨q', hq', hne⟩ := hrefs w' r' q hr'
    exact ⟨hne, (hi.ref_frame (hframe none) hq').2⟩
  · intro w' x' hx'
    exact (hws w' x' hx').2
  · intro d o w' hd
    refine ⟨(hi.store d o w' hd).1, fun r' q hr' => ?_⟩
    obtain ⟨q', hq', -⟩ := hrefs w' r' q hr'
    exact (hi.store d o w' hd).2 r' q' hq'

theorem close_modify {r : Nat} {p p' : RefPc} {f : Wrapper ω → Wrapper ω}
    (hr : s.refs[r]? = some (w, p)) (hp : p' ≠ .panicked)
    (hf : ∀ x, (f x).opts = x.opts ∧ (f x).stored = x.stored ∧ (f x).dialCloses = x.dialCloses)
    (hc : ∀ x, s.wrappers[w]? = some x → (f x).Counts (s.refs.set r (w, p')) w) :
    Inv key { s with wrappers := s.wrappers.modify w f, refs := s.refs.set r (w, p') } := by
  refine hi.close hr hp (fun _ => .counters w hf) (fun w' x' hx' => ?_) fun _ _ h => h
  rcases getElem?_modify_cases hx' with ⟨rfl, x, hx, rfl⟩ | ⟨hne, hx⟩
  · exact ⟨⟨x, hx, (hf x).2⟩, hc x hx⟩
  · exact ⟨⟨x', hx, rfl, rfl⟩, (hi.counts w' x' hx).set_ne hr hne p'⟩

theorem step [DecidableEq κ] (h : DialerStep key s a s') : s'.Inv key := by
  cases h with
  | call => exact hi.called _
  | hit hd hmu hc =>
    exact hi.move hd (hi.conn _ _ hc) rfl (.inl ⟨rfl, nofun⟩) nofun fun _ _ => .inr hmu
  | miss hd | dialFailed hd => exact hi.move hd trivial rfl (.inl ⟨rfl, nofun⟩) nofun nofun
  | dialed hd => exact hi.dialNew hd
  | redundant hd hmu hc =>
    exact hi.move hd ⟨hi.dial _ _ _ hd, hi.conn _ _ hc⟩ rfl (.inr (.inl ⟨hmu, rfl⟩)) nofun
      fun _ _ => .inr hmu
  | store hd hmu => exact hi.stored hd hmu
  | closeRedundant hd hpc => exact hi.closeRedundant hd hpc
  | ref hd ht hcount => exact hi.refd hd ht hcount
  | panic hd ht hx hcount =>
    exact hi.move hd trivial (pending_of_target ht).symm (released rfl s.mu) nofun nofun
  | derefPanic hr hx hcount =>
    have hpos := (hi.counts _ _ hx).live hr
    omega
  | derefLast hr hx hcount =>
    refine hi.close_modify hr nofun (fun x => ⟨rfl, rfl, rfl⟩) fun y hy => ?_
    rw [hx] at hy
    cases hy
    exact (hi.counts _ _ hx).derefLast hr hcount
  | deref hr hx hcount =>
    refine hi.close_modify hr nofun (fun x => ⟨rfl, rfl, rfl⟩) fun y hy => ?_
    rw [hx] at hy
    cases hy
    exact (hi.counts _ _ hx).deref hr hcount
  | closeConn hr =>
    refine hi.close_modify hr nofun (fun x => ⟨rfl, rfl, rfl⟩) fun x hx => ?_
    exact (hi.counts _ _ hx).closeConn hr
  | @onUnref r w x hr hx =>
    refine hi.close hr nofun (fun _ => .refl) (fun w' x' hx' => ⟨⟨x', hx', rfl, rfl⟩, ?_⟩) ?_
    · by_cases hw : w' = w
      · subst hw
        exact (hi.counts _ _ hx').onUnref hr
      · exact (hi.counts _ _ hx').set_ne hr hw _
    · intro k c hc
      by_cases hk : k = key x.opts
      · rw [hk, Function.update_self] at hc
        cases hc
      · rw [Function.update_of_ne hk] at hc
        exact hc

end Inv

theorem Inv.init : Inv key ({} : DialerState ω κ) where
  dial _ _ _ hd := by cases hd
  locks _ _ _ hd := by cases hd
  pending _ _ _ _ _ _ _ hd := by cases hd
  kept _ _ hx := by cases hx
  conn _ _ hc := by cases hc
  ref _ _ _ hr := by cases hr
  counts _ _ hx := by cases hx
  store _ _ _ hd := by cases hd

end DialerState

namespace DialerStep
variable [DecidableEq κ] {s s' : DialerState ω κ}

end DialerStep

theorem dialerMachine_inv [DecidableEq κ] {ok : DialerState ω κ → DialAct ω → Prop}
    {s : DialerState ω κ} (h : (dialerMachine key).ReachableWith ok s) : s.Inv key := by
  refine h.invariant (fun s hs => ?_) fun s a s' hi _ hstep => hi.step (dialerStep_step hstep)
  subst hs
  exact .init

def DialPc.reads : DialPc → Bool
  | .lookup | .lock _ => true
  | _ => false

/-- No wrapper is looked up, and not referenced yet, when its last reference is closed. -/
def NoRace (key : ω → κ) (s : DialerState ω κ) : DialAct ω → Prop
  | .call _ => True
  | .dial d _ => ∀ p ∈ s.dials[d]?, p.2.reads = true → ∀ c ∈ s.conns (key p.1),
      ∀ x ∈ s.wrappers[c]?, x.count ≠ -1
  | .close r => ∀ p ∈ s.refs[r]?, p.2 = .live → (∃ x ∈ s.wrappers[p.1]?, x.count = 1) →
      ∀ q ∈ s.dials, q.2.shared ≠ some p.1

instance [DecidableEq κ] (key : ω → κ) (s : DialerState ω κ) :
    (a : DialAct ω) → Decidable (NoRace key s a)
  | .call _ => .isTrue trivial
  | .dial d _ => inferInstanceAs (Decidable (∀ p ∈ s.dials[d]?, p.2.reads = true →
      ∀ c ∈ s.conns (key p.1), ∀ x ∈ s.wrappers[c]?, x.count ≠ -1))
  | .close r => inferInstanceAs (Decidable (∀ p ∈ s.refs[r]?, p.2 = .live →
      (∃ x ∈ s.wrappers[p.1]?, x.count = 1) → ∀ q ∈ s.dials, q.2.shared ≠ some p.1))

def DialerState.Unreleased (s : DialerState ω κ) : Prop :=
  ∀ (d : Nat) (o : ω) (pc : DialPc), s.dials[d]? = some (o, pc) →
    pc ≠ .panicked ∧ ∀ c, pc.shared = some c → ∀ x, s.wrappers[c]? = some x → x.count ≠ -1

namespace DialerState.Unreleased
variable {s : DialerState ω κ} {pc pc' : DialPc} {ws : List (Wrapper ω)}

theorem move (hu : s.Unreleased) (hd : s.dials[d]? = some (o, pc)) (hp : pc' ≠ .panicked)
    (hws : ∀ (c : Nat) x', ws[c]? = some x' → x'.count = -1 →
      ∃ x, s.wrappers[c]? = some x ∧ x.count = -1)
    (hsh : ∀ c, pc'.shared = some c → pc.shared = some c ∨
      ∀ x, s.wrappers[c]? = some x → x.count ≠ -1) :
    Unreleased { s.setDial d o pc' with mu := m, conns := cs, wrappers := ws, refs := rs } := by
  intro d' o' pc'' hd'
  obtain ⟨rfl, heq⟩ | ⟨-, hd'⟩ := getElem?_set_cases hd'
  · cases heq
    refine ⟨hp, fun c hc x' hx' hrel => ?_⟩
    obtain ⟨x, hx, hrel⟩ := hws c x' hx' hrel
    rcases hsh c hc with hold | hnew
    · exact (hu d' o pc hd).2 c hold x hx hrel
    · exact hnew x hx hrel
  · refine ⟨(hu d' o' pc'' hd').1, fun c hc x' hx' hrel => ?_⟩
    obtain ⟨x, hx, hrel⟩ := hws c x' hx' hrel
    exact (hu d' o' pc'' hd').2 c hc x hx hrel

theorem target {d : Nat} (hi : s.Inv key) (hu : s.Unreleased) (hd : s.dials[d]? = some (o, pc))
    (ht : pc.target = some (dialed, c)) (hx : s.wrappers[c]? = some x) : x.count ≠ -1 := by
  cases pc with
  | found c | share w c =>
    cases ht
    exact (hu d o _ hd).2 _ rfl x hx
  | store w =>
    cases ht
    exact (hi.counts _ x hx).count_of_none (hi.store d o _ hd).2
  | _ => cases ht

theorem close (hu : s.Unreleased) (hws : ∀ (c : Nat) x', ws[c]? = some x' → x'.count = -1 →
      (∃ x, s.wrappers[c]? = some x ∧ x.count = -1) ∨ ∀ q ∈ s.dials, q.2.shared ≠ some c) :
    Unreleased { s with conns := cs, wrappers := ws, refs := rs } := by
  intro d o pc hd
  refine ⟨(hu d o pc hd).1, fun c hc x' hx' hrel => ?_⟩
  rcases hws c x' hx' hrel with ⟨x, hx, hrel⟩ | hnone
  · exact (hu d o pc hd).2 c hc x hx hrel
  · exact hnone _ (List.mem_of_getElem? hd) hc

theorem step [DecidableEq κ] (hi : s.Inv key) (hu : s.Unreleased) (hrace : NoRace key s a)
    (h : DialerStep key s a s') : s'.Unreleased := by
  -- Only the last close of a reference lets the count go to -1.
  have hsame : ∀ {f : Wrapper ω → Wrapper ω} {w : Nat}, (∀ x, s.wrappers[w]? = some x →
      (f x).count = -1 → x.count = -1) → ∀ (c : Nat) x', (s.wrappers.modify w f)[c]? = some x' →
        x'.count = -1 → ∃ x, s.wrappers[c]? = some x ∧ x.count = -1 := by
    intro f w hf c x' hx' hrel
    rcases getElem?_modify_cases hx' with ⟨rfl, x, hx, rfl⟩ | ⟨-, hx⟩
    · exact ⟨x, hx, hf x hx hrel⟩
    · exact ⟨x', hx, hrel⟩
  have hrefl : ∀ (c : Nat) x', s.wrappers[c]? = some x' → x'.count = -1 →
      ∃ x, s.wrappers[c]? = some x ∧ x.count = -1 := fun c x' hx' hrel => ⟨x', hx', hrel⟩
  cases h with
  | call =>
    intro d o pc hd
    rcases getElem?_concat_cases hd with hd | ⟨-, heq⟩
    · exact hu d o pc hd
    · cases heq
      exact ⟨nofun, nofun⟩
  | hit hd hmu hc =>
    refine hu.move hd nofun hrefl fun c' hc' => .inr fun x hx => ?_
    cases hc'
    exact hrace _ hd rfl _ hc x hx
  | miss hd => exact hu.move hd nofun hrefl nofun
  | dialed hd =>
    refine hu.move hd nofun (fun c x' hx' hrel => ?_) nofun
    rcases getElem?_concat_cases hx' with hx' | ⟨-, rfl⟩
    · exact ⟨x', hx', hrel⟩
    · cases hrel
  | dialFailed hd => exact hu.move hd nofun hrefl nofun
  | redundant hd hmu hc =>
    refine hu.move hd nofun hrefl fun c' hc' => .inr fun x hx => ?_
    cases hc'
    exact hrace _ hd rfl _ hc x hx
  | store hd hmu => exact hu.move hd nofun (hsame fun _ _ h => h) nofun
  | closeRedundant hd hpc =>
    rcases hpc with ⟨rfl, -⟩ | ⟨rfl, -⟩
    · exact hu.move hd nofun (hsame fun _ _ h => h) fun _ h => .inl h
    · exact hu.move hd nofun (hsame fun _ _ h => h) nofun
  | ref hd ht hcount =>
    refine hu.move hd nofun (hsame fun x hx hrel => ?_) nofun
    have hge := (hi.counts _ x hx).count_ge
    simp only at hrel
    omega
  | panic hd ht hx hcount => exact absurd hcount (target hi hu hd ht hx)
  | derefPanic hr hx hcount => exact hu.close fun c x' hx' hrel => .inl ⟨x', hx', hrel⟩
  | @derefLast r w x hr hx hcount =>
    refine hu.close fun c x' hx' hrel => ?_
    rcases getElem?_modify_cases hx' with ⟨rfl, -⟩ | ⟨-, hx'⟩
    · exact .inr (hrace _ hr rfl ⟨x, hx, hcount⟩)
    · exact .inl ⟨x', hx', hrel⟩
  | @deref r w x hr hx hcount =>
    refine hu.close fun c x' hx' hrel => .inl (hsame (fun y hy hrel => ?_) c x' hx' hrel)
    rw [hx] at hy
    cases hy
    simp only at hrel
    omega
  | closeConn hr =>
    refine hu.close fun c x' hx' hrel => .inl (hsame ?_ c x' hx' hrel)
    exact fun _ _ h => h
  | onUnref hr hx => exact hu.close fun c x' hx' hrel => .inl ⟨x', hx', hrel⟩

end DialerState.Unreleased

/-- Nothing panics; a connection is open while referenced and closed once in the end. -/
structure DialerState.RefsSound (s : DialerState ω κ) : Prop where
  dials : ∀ (d : Nat) o pc, s.dials[d]? = some (o, pc) → pc ≠ .panicked
  refs : ∀ (r w : Nat) pc, s.refs[r]? = some (w, pc) → pc ≠ .panicked
  live : ∀ (r w : Nat), s.refs[r]? = some (w, .live) →
    ∃ x, s.wrappers[w]? = some x ∧ x.refCloses = 0 ∧ x.dialCloses = 0
  once : ∀ (w : Nat) x, s.wrappers[w]? = some x → x.refCloses ≤ 1
  closed : ∀ (w : Nat) x, s.wrappers[w]? = some x → (∃ p ∈ s.refs, p.1 = w) →
    (∀ p ∈ s.refs, p.1 = w → ∃ last, p.2 = .closed last) → x.refCloses = 1
  redundant : ∀ (d : Nat) o w c, s.dials[d]? = some (o, .returned (some w) c) → w ≠ c →
    ∃ x, s.wrappers[w]? = some x ∧ x.dialCloses = 1
  discarded : ∀ (w : Nat) x, s.wrappers[w]? = some x → x.stored = false → x.dialCloses = 1 ∨
    ∃ (d : Nat) (o : ω) (pc : DialPc), s.dials[d]? = some (o, pc) ∧ pc.pending = some w

/-- The dial cache hands out open connections only, as long as no call looks up a connection whose
last reference is being closed. -/
theorem cachedDialer_refs [DecidableEq κ] {s : DialerState ω κ}
    (h : (dialerMachine key).ReachableWith (NoRace key) s) : s.RefsSound := by
  have hi : s.Inv key := dialerMachine_inv h
  have hu : s.Inv key ∧ s.Unreleased := by
    refine h.invariant (I := fun s => s.Inv key ∧ s.Unreleased) (fun s hs => ?_)
      fun s a s' hI hrace hstep => ?_
    · subst hs
      exact ⟨.init, fun _ _ _ hd => by cases hd⟩
    · have hs := dialerStep_step hstep
      exact ⟨hI.1.step hs, hI.2.step hI.1 hrace hs⟩
  constructor
  · exact fun d o pc hd => (hu.2 d o pc hd).1
  · exact fun r w pc hr => (hi.ref r w pc hr).1
  · intro r w hr
    obtain ⟨-, x, hx, k, hk⟩ := hi.ref r w _ hr
    exact ⟨x, hx, (hi.counts w x hx).not_closed_of_live hr, hk.2.1⟩
  · exact fun w x hx => (hi.counts w x hx).refCloses_le_one
  · exact fun w x hx hex hall => (hi.counts w x hx).closed_of_closed hex hall
  · intro d o w c hd hne
    obtain ⟨x, hx, hdis⟩ := ((hi.dial d o _ hd).2 w rfl).resolve_left hne
    exact ⟨x, hx, hdis.2⟩
  · intro w x hx hs
    rcases hi.kept w x hx with hst | hdis | hpend
    · rw [hs] at hst
      cases hst
    · exact .inl hdis.2
    · exact .inr hpend

end

def sharedRun : List (DialAct Nat) :=
  [.call 0, .call 0, .dial 0 true, .dial 1 true, .dial 0 true, .dial 1 true, .dial 0 true,
    .dial 0 true, .dial 1 true, .dial 1 true, .dial 1 true, .close 0, .close 1, .close 1, .close 1]

theorem cachedDialer_refs_two : ∃ s : DialerState Nat Nat,
    (dialerMachine id).ReachableWith (NoRace id) s ∧
      s.refs = [(0, .closed false), (0, .closed true)] ∧ s.RefsSound := by
  obtain ⟨s, hreach, hp⟩ : ∃ s : DialerState Nat Nat,
      (dialerMachine id).ReachableWith (NoRace id) s ∧
      s.refs = [(0, .closed false), (0, .closed true)] :=
    (dialerMachine id).exists_reachableWith (NoRace id) {} sharedRun rfl (by decide)
  exact ⟨s, hreach, hp, cachedDialer_refs hreach⟩

/-- The last reference is closed after a second call has found the wrapper on the map and before
it calls `Ref`. -/
theorem cachedDialer_ref_panics : ∃ s : DialerState Nat Nat, (dialerMachine id).Reachable s ∧
    s.dials = [(0, .returned (some 0) 0), (0, .panicked)] ∧ s.refs = [(0, .closing)] := by
  exact (dialerMachine id).exists_reachable {}
    [.call 0, .dial 0 true, .dial 0 true, .dial 0 true, .dial 0 true, .call 0, .dial 1 true,
    .close 0, .dial 1 true] rfl (by decide)

end Goutils.Dial
