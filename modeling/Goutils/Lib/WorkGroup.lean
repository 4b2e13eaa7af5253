import Goutils.Lib.Machine
import Goutils.Lib.Sync

namespace Lib
set_option autoImplicit true

theorem once_of_last (managed : Bool) : managed = true → false = false := fun _ => rfl

theorem once_of_unmanaged (doneFirst : Bool) : false = true → doneFirst = false :=
  fun h => absurd h Bool.false_ne_true

/-- A counted goroutine: `managed` is run again on panic, `doneFirst` calls `Done` first. -/
structure Routine (ω : Type) where
  body : List ω
  deferred : List ω := []
  onComplete : List ω := []
  managed : Bool := false
  doneFirst : Bool := false
  once : managed = true → doneFirst = false := by
    first
    | exact once_of_last _
    | exact once_of_unmanaged _

inductive Stmt (ω : Type) where
  | op (o : ω)
  | done
  deriving DecidableEq

def Stmt.isDone : Stmt ω → Bool
  | .op _ => false
  | .done => true

namespace Routine

def ending (r : Routine ω) : List (Stmt ω) := if r.doneFirst then [] else [.done]

def after (r : Routine ω) : List (Stmt ω) := (r.deferred ++ r.onComplete).map .op ++ r.ending

def program (r : Routine ω) : List (Stmt ω) :=
  if r.doneFirst then .done :: (r.body.map .op ++ r.after) else r.body.map .op ++ r.after

def afterPanic (r : Routine ω) : List (Stmt ω) :=
  r.deferred.map .op ++ if r.managed then r.program else r.ending

inductive Shape (r : Routine ω) : List (Stmt ω) → Prop where
  | first (ops : List ω) : r.doneFirst = true → Shape r (.done :: ops.map .op)
  | counted (ops : List ω) : r.doneFirst = true → Shape r (ops.map .op)
  | last (ops : List ω) : r.doneFirst = false → Shape r (ops.map .op ++ [.done])
  | finished : r.doneFirst = false → Shape r []

section

variable {ω : Type} (r : Routine ω)

theorem after_eq (h : r.doneFirst = true) : r.after = (r.deferred ++ r.onComplete).map .op := by
  rw [after, ending, if_pos h, List.append_nil]

theorem after_eq_last (h : r.doneFirst = false) :
    r.after = (r.deferred ++ r.onComplete).map .op ++ [.done] := by
  rw [after, ending, h]
  rfl

theorem program_eq (h : r.doneFirst = false) : r.program = r.body.map .op ++ r.after := by
  rw [program, h]
  rfl

theorem shape_after : r.Shape r.after := by
  cases h : r.doneFirst with
  | true =>
    rw [r.after_eq h]
    exact .counted _ h
  | false =>
    rw [r.after_eq_last h]
    exact .last _ h

theorem shape_program : r.Shape r.program := by
  cases h : r.doneFirst with
  | true =>
    rw [program, if_pos h, r.after_eq h, ← List.map_append]
    exact .first _ h
  | false =>
    rw [r.program_eq h, r.after_eq_last h, ← List.append_assoc, ← List.map_append]
    exact .last _ h

variable {r} in
theorem Shape.prepend (h : r.Shape rest) (hd : rest.any Stmt.isDone = !r.doneFirst)
    (ops : List ω) : r.Shape (ops.map .op ++ rest) := by
  cases h with
  | first ops' hf | finished hf =>
    rw [hf] at hd
    cases hd
  | counted ops' hf =>
    rw [← List.map_append]
    exact .counted _ hf
  | last ops' hf =>
    rw [← List.append_assoc, ← List.map_append]
    exact .last _ hf

@[simp] theorem any_isDone_map (ops : List ω) : (ops.map Stmt.op).any Stmt.isDone = false := by
  rw [List.any_map]
  exact List.any_eq_false.2 fun o _ => by simp [Stmt.isDone]

theorem any_isDone_after : r.after.any Stmt.isDone = !r.doneFirst := by
  cases h : r.doneFirst with
  | true =>
    rw [r.after_eq h, any_isDone_map]
    rfl
  | false =>
    rw [r.after_eq_last h, List.any_append, any_isDone_map]
    rfl

theorem any_isDone_program : r.program.any Stmt.isDone = true := by
  cases h : r.doneFirst with
  | true =>
    rw [program, if_pos h]
    rfl
  | false =>
    rw [r.program_eq h, List.any_append, any_isDone_after, h]
    exact Bool.or_true _

theorem any_isDone_ending : r.ending.any Stmt.isDone = !r.doneFirst := by
  cases h : r.doneFirst with
  | true | false =>
    rw [ending, h]
    rfl

theorem shape_ending : r.Shape r.ending := by
  cases h : r.doneFirst with
  | true =>
    rw [ending, h]
    exact .counted [] h
  | false =>
    rw [ending, h]
    exact .last [] h

theorem any_isDone_afterPanic : r.afterPanic.any Stmt.isDone = !r.doneFirst := by
  rw [afterPanic, List.any_append, any_isDone_map, Bool.false_or]
  cases hm : r.managed with
  | true =>
    rw [if_pos rfl, any_isDone_program, r.once hm]
    rfl
  | false =>
    exact r.any_isDone_ending

theorem shape_afterPanic : r.Shape r.afterPanic := by
  rw [afterPanic]
  cases hm : r.managed with
  | true =>
    apply r.shape_program.prepend
    rw [any_isDone_program, r.once hm]
    rfl
  | false => exact r.shape_ending.prepend r.any_isDone_ending _

end

theorem Shape.tail_op {r : Routine ω} (h : r.Shape (.op o :: rest)) : r.Shape rest := by
  generalize heq : Stmt.op o :: rest = l at h
  cases h with
  | first ops hf | finished hf => cases heq
  | counted ops hf =>
    cases ops with
    | nil => cases heq
    | cons o' ops =>
      cases heq
      exact .counted ops hf
  | last ops hf =>
    cases ops with
    | nil => cases heq
    | cons o' ops =>
      cases heq
      exact .last ops hf

theorem Shape.tail_done {r : Routine ω} (h : r.Shape (.done :: rest)) :
    r.Shape rest ∧ rest.any Stmt.isDone = false := by
  generalize heq : Stmt.done :: rest = l at h
  cases h with
  | first ops hf =>
    cases heq
    exact ⟨.counted ops hf, any_isDone_map ops⟩
  | counted ops hf =>
    cases ops with
    | nil | cons o' ops => cases heq
  | last ops hf =>
    cases ops with
    | nil =>
      cases heq
      exact ⟨.finished hf, rfl⟩
    | cons o' ops => cases heq
  | finished hf => cases heq

theorem Shape.any_isDone {r : Routine ω} (h : r.Shape (.op o :: rest)) :
    (Stmt.op o :: rest).any Stmt.isDone = !r.doneFirst := by
  generalize heq : Stmt.op o :: rest = l at h
  cases h with
  | first ops hf | finished hf => cases heq
  | counted ops hf => rw [any_isDone_map, hf]; rfl
  | last ops hf =>
    rw [List.any_append, hf]
    exact Bool.or_true _

theorem Shape.eq_nil {r : Routine ω} (h : r.Shape rest) (hf : r.doneFirst = false)
    (hd : rest.any Stmt.isDone = false) : rest = [] := by
  cases h with
  | first ops hf' | counted ops hf' =>
    rw [hf] at hf'
    cases hf'
  | last ops _ =>
    rw [List.any_append, any_isDone_map] at hd
    cases hd
  | finished _ => rfl

end Routine

/-- A counted goroutine: its place, what is left of it, and when it was counted. -/
structure Worker (κ ω : Type) where
  site : κ
  rest : List (Stmt ω)
  inTime : Bool
  deriving DecidableEq

def Worker.pending (w : Worker κ ω) : Bool := w.rest.any Stmt.isDone

/-- Where one that starts a goroutine stands: it checks and adds under the read lock. -/
inductive AdmitPc where
  | rlock
  | check
  | add
  | runlock (admitted : Bool)
  | spawn
  | gone

structure Admission (κ : Type) where
  site : κ
  pc : AdmitPc := .rlock

def AdmitPc.pending : AdmitPc → Bool
  | .runlock admitted => admitted
  | .spawn => true
  | _ => false

def AdmitPc.mode : AdmitPc → LockMode
  | .check | .add | .runlock _ => .read
  | _ => .free

/-- Where the goroutine stands that closes the group. -/
inductive ShutPc where
  | idle
  | lock
  | cancel
  | unlock
  | wait
  | returned
  deriving DecidableEq

def ShutPc.cancelled : ShutPc → Bool
  | .unlock | .wait | .returned => true
  | _ => false

inductive GroupThread where
  | admission (i : Nat)
  | shut
  deriving DecidableEq

/-- A wait group with the goroutines that it counts. `closed` is the flag that closing it sets. -/
structure Group (κ ω : Type) where
  mu : RWMutex GroupThread := {}
  closed : Bool := false
  count : Nat := 0
  admissions : List (Admission κ) := []
  workers : List (Worker κ ω) := []
  shut : ShutPc := .idle

/-- What a component starts, from which places; `guarded` ones use the lock and the flag. -/
structure GroupSpec (κ ω : Type) where
  routine : κ → Routine ω
  guarded : Bool
  initial : List κ := []
  startedBy : κ → Option (κ × ω) := fun _ => none

inductive GroupAct (κ : Type) where
  | start (k : κ)
  | enter (i : Nat)
  | register (k : κ)
  | work (i : Nat)
  | ret (i : Nat)
  | panics (i : Nat)
  | close

def GroupSpec.worker (S : GroupSpec κ ω) (k : κ) (inTime : Bool) : Worker κ ω :=
  ⟨k, (S.routine k).program, inTime⟩

namespace Group

variable {κ ω : Type} (S : GroupSpec κ ω) (g : Group κ ω)

def init : Group κ ω where
  count := S.initial.length
  workers := S.initial.map fun k => S.worker k true

def setAdmission (i : Nat) (a : Admission κ) : Group κ ω :=
  { g with admissions := g.admissions.set i a }

def setWorker (i : Nat) (w : Worker κ ω) : Group κ ω :=
  { g with workers := g.workers.set i w }

def spawn (k : κ) : Group κ ω :=
  { g with workers := g.workers ++ [S.worker k (g.shut != .returned)] }

def mayStart [DecidableEq κ] [DecidableEq ω] (S : GroupSpec κ ω) (g : Group κ ω) (k : κ) : Bool :=
  (S.startedBy k).all fun (k', o) =>
    g.workers.any fun w => decide (w.site = k' ∧ w.rest.head? = some (.op o))

def admitStep (i : Nat) (k : κ) : AdmitPc → Option (Group κ ω × AdmitPc)
  | .rlock =>
    if g.mu.canRLock then some ({ g with mu := g.mu.rlock (.admission i) }, .check) else none
  | .check => some (g, if g.closed then .runlock false else .add)
  | .add => some ({ g with count := g.count + 1 }, .runlock true)
  | .runlock admitted =>
    some ({ g with mu := g.mu.runlock (.admission i) }, if admitted then .spawn else .gone)
  | .spawn => some (g.spawn S k, .gone)
  | .gone => none

def workStep (i : Nat) (w : Worker κ ω) : Option (Group κ ω) :=
  match w.rest with
  | .op _ :: rest => some (g.setWorker i { w with rest })
  | .done :: rest => some ({ g with count := g.count - 1 }.setWorker i { w with rest })
  | [] => none

def leave (i : Nat) (w : Worker κ ω) (rest : List (Stmt ω)) : Option (Group κ ω) :=
  match w.rest with
  | .op _ :: _ =>
    if (S.routine w.site).after.length < w.rest.length then some (g.setWorker i { w with rest })
    else none
  | _ => none

def shutStep : Option (Group κ ω) :=
  match g.shut with
  | .idle => some { g with shut := if S.guarded then .lock else .cancel }
  | .lock =>
    if g.mu.canLock then some { g with mu := g.mu.lock .shut, shut := .cancel } else none
  | .cancel => some { g with closed := true, shut := if S.guarded then .unlock else .wait }
  | .unlock => some { g with mu := g.mu.unlock, shut := .wait }
  | .wait => if g.count = 0 then some { g with shut := .returned } else none
  | .returned => none

def step [DecidableEq κ] [DecidableEq ω] (S : GroupSpec κ ω) (g : Group κ ω) :
    GroupAct κ → Option (Group κ ω)
  | .start k =>
    if S.guarded && g.mayStart S k then some { g with admissions := g.admissions ++ [⟨k, .rlock⟩] }
    else none
  | .enter i =>
    g.admissions[i]?.bind fun a =>
      (g.admitStep S i a.site a.pc).map fun (g', pc) => g'.setAdmission i ⟨a.site, pc⟩
  | .register k =>
    if !S.guarded && g.mayStart S k then some ({ g with count := g.count + 1 }.spawn S k) else none
  | .work i => g.workers[i]?.bind fun w => g.workStep i w
  | .ret i => g.workers[i]?.bind fun w => g.leave S i w (S.routine w.site).after
  | .panics i => g.workers[i]?.bind fun w => g.leave S i w (S.routine w.site).afterPanic
  | .close => g.shutStep S

end Group

def groupMachine [DecidableEq κ] [DecidableEq ω] (S : GroupSpec κ ω) :
    Machine (Group κ ω) (GroupAct κ) where
  init g := g = .init S
  step := Group.step S

section
variable {κ ω : Type} {S : GroupSpec κ ω} {g g' : Group κ ω}

inductive GroupStep (S : GroupSpec κ ω) (g : Group κ ω) : GroupAct κ → Group κ ω → Prop where
  | start : S.guarded = true →
      GroupStep S g (.start k) { g with admissions := g.admissions ++ [⟨k, .rlock⟩] }
  | rlock : g.admissions[i]? = some ⟨k, .rlock⟩ → g.mu.canRLock = true →
      GroupStep S g (.enter i)
        ({ g with mu := g.mu.rlock (.admission i) }.setAdmission i ⟨k, .check⟩)
  | refuse : g.admissions[i]? = some ⟨k, .check⟩ → g.closed = true →
      GroupStep S g (.enter i) (g.setAdmission i ⟨k, .runlock false⟩)
  | accept : g.admissions[i]? = some ⟨k, .check⟩ → g.closed = false →
      GroupStep S g (.enter i) (g.setAdmission i ⟨k, .add⟩)
  | add : g.admissions[i]? = some ⟨k, .add⟩ →
      GroupStep S g (.enter i) ({ g with count := g.count + 1 }.setAdmission i ⟨k, .runlock true⟩)
  | runlock : g.admissions[i]? = some ⟨k, .runlock admitted⟩ →
      GroupStep S g (.enter i) ({ g with mu := g.mu.runlock (.admission i) }.setAdmission i
        ⟨k, if admitted then .spawn else .gone⟩)
  | spawn : g.admissions[i]? = some ⟨k, .spawn⟩ →
      GroupStep S g (.enter i) ((g.spawn S k).setAdmission i ⟨k, .gone⟩)
  | register : S.guarded = false →
      GroupStep S g (.register k) ({ g with count := g.count + 1 }.spawn S k)
  | op : g.workers[i]? = some w → w.rest = .op o :: rest →
      GroupStep S g (.work i) (g.setWorker i { w with rest })
  | done : g.workers[i]? = some w → w.rest = .done :: rest →
      GroupStep S g (.work i) ({ g with count := g.count - 1 }.setWorker i { w with rest })
  | leave : g.workers[i]? = some w → w.rest = .op o :: rest₀ →
      (a = .ret i ∧ rest = (S.routine w.site).after) ∨
        (a = .panics i ∧ rest = (S.routine w.site).afterPanic) →
      GroupStep S g a (g.setWorker i { w with rest })
  | close : g.shut = .idle →
      GroupStep S g .close { g with shut := if S.guarded then .lock else .cancel }
  | lock : g.shut = .lock → g.mu.canLock = true →
      GroupStep S g .close { g with mu := g.mu.lock .shut, shut := .cancel }
  | cancel : g.shut = .cancel →
      GroupStep S g .close { g with closed := true, shut := if S.guarded then .unlock else .wait }
  | unlock : g.shut = .unlock → GroupStep S g .close { g with mu := g.mu.unlock, shut := .wait }
  | wait : g.shut = .wait → g.count = 0 → GroupStep S g .close { g with shut := .returned }

namespace Group

theorem leave_step (hw : g.workers[i]? = some w) (h : g.leave S i w rest = some g')
    (ha : (a = .ret i ∧ rest = (S.routine w.site).after) ∨
      (a = .panics i ∧ rest = (S.routine w.site).afterPanic)) : GroupStep S g a g' := by
  unfold leave at h
  split at h
  · rename_i hrest
    split at h <;> cases h
    exact .leave hw hrest ha
  · cases h

theorem shutStep_step (h : g.shutStep S = some g') : GroupStep S g .close g' := by
  unfold shutStep at h
  split at h
  · cases h
    exact .close ‹_›
  · split at h <;> cases h
    exact .lock ‹_› ‹_›
  · cases h
    exact .cancel ‹_›
  · cases h
    exact .unlock ‹_›
  · split at h <;> cases h
    exact .wait ‹_› ‹_›
  · cases h

theorem admitStep_step (hi : g.admissions[i]? = some ⟨k, pc⟩)
    (h : g.admitStep S i k pc = some (g₁, pc')) :
    GroupStep S g (.enter i) (g₁.setAdmission i ⟨k, pc'⟩) := by
  cases pc with
  | rlock =>
    simp only [admitStep] at h
    split at h <;> cases h
    exact .rlock hi ‹_›
  | check =>
    simp only [admitStep, Option.some.injEq, Prod.mk.injEq] at h
    obtain ⟨rfl, rfl⟩ := h
    cases hc : g.closed with
    | true => exact .refuse hi hc
    | false => exact .accept hi hc
  | add =>
    cases h
    exact .add hi
  | runlock admitted =>
    cases h
    exact .runlock hi
  | spawn =>
    cases h
    exact .spawn hi
  | gone => cases h

theorem step_step [DecidableEq κ] [DecidableEq ω] (h : g.step S a = some g') :
    GroupStep S g a g' := by
  cases a with
  | start k =>
    simp only [step] at h
    split at h <;> cases h
    rename_i hk
    exact .start (Bool.and_eq_true_iff.1 hk).1
  | enter i =>
    obtain ⟨⟨k, pc⟩, hi, h⟩ := Option.bind_eq_some_iff.1 h
    obtain ⟨⟨g₁, pc'⟩, hs, rfl⟩ := Option.map_eq_some_iff.1 h
    exact admitStep_step hi hs
  | register k =>
    simp only [step] at h
    split at h <;> cases h
    rename_i hk
    exact .register (Bool.not_eq_true_eq_eq_false _ ▸ (Bool.and_eq_true_iff.1 hk).1)
  | work i =>
    obtain ⟨w, hw, h⟩ := Option.bind_eq_some_iff.1 h
    unfold workStep at h
    split at h <;> cases h
    · exact .op hw ‹_›
    · exact .done hw ‹_›
  | ret i =>
    obtain ⟨w, hw, h⟩ := Option.bind_eq_some_iff.1 h
    exact leave_step hw h (.inl ⟨rfl, rfl⟩)
  | panics i =>
    obtain ⟨w, hw, h⟩ := Option.bind_eq_some_iff.1 h
    exact leave_step hw h (.inr ⟨rfl, rfl⟩)
  | close => exact shutStep_step h

theorem worker_step (hw : g.workers[i]? = some w) (hs : GroupStep S g a g') :
    g'.workers[i]? = some w ∨ (a = .work i ∨ a = .ret i ∨ a = .panics i) ∧
      ∃ rest, g'.workers[i]? = some { w with rest } := by
  have hlt := (List.getElem?_eq_some_iff.1 hw).1
  have hset {j : Nat} {w' : Worker κ ω} {rest : List (Stmt ω)} (hj : g.workers[j]? = some w')
      (ha : a = .work j ∨ a = .ret j ∨ a = .panics j) :
      (g.workers.set j { w' with rest })[i]? = some w ∨
        (a = .work i ∨ a = .ret i ∨ a = .panics i) ∧
          ∃ rest', (g.workers.set j { w' with rest })[i]? = some { w with rest := rest' } := by
    by_cases hij : j = i
    · subst hij
      rw [hw] at hj
      cases hj
      exact .inr ⟨ha, rest, List.getElem?_set_self hlt⟩
    · rw [List.getElem?_set_ne hij]
      exact .inl hw
  cases hs with
  | spawn _ | register _ => exact .inl ((List.getElem?_append_left hlt).trans hw)
  | op hj _ | done hj _ => exact hset hj (.inl rfl)
  | leave hj _ ha =>
    rcases ha with ⟨rfl, _⟩ | ⟨rfl, _⟩
    · exact hset hj (.inr (.inl rfl))
    · exact hset hj (.inr (.inr rfl))
  | _ => exact .inl hw

theorem returned_step (hret : g.shut = .returned) (hs : GroupStep S g a g') :
    g'.shut = .returned := by
  cases hs with
  | close hpc | lock hpc _ | cancel hpc | unlock hpc =>
    rw [hret] at hpc
    cases hpc
  | wait _ _ => rfl
  | _ => exact hret

def mode (S : GroupSpec κ ω) (g : Group κ ω) : GroupThread → LockMode
  | .admission i => modeAt g.admissions (fun a => a.pc.mode) i
  | .shut =>
    match g.shut with
    | .cancel => if S.guarded then .write else .free
    | .unlock => .write
    | _ => .free

theorem mode_setAdmission (hi : g.admissions[i]? = some b) (a : Admission κ) :
    (g.setAdmission i a).mode S = Function.update (g.mode S) (.admission i) a.pc.mode := by
  funext t
  cases t with
  | shut =>
    rw [Function.update_of_ne GroupThread.noConfusion]
    rfl
  | admission j =>
    show modeAt (g.admissions.set i a) _ j = _
    rw [modeAt_set hi]
    by_cases hj : j = i
    · subst hj
      rw [Function.update_self, Function.update_self]
    · have hne : GroupThread.admission j ≠ .admission i :=
        fun he => hj (GroupThread.admission.inj he)
      rw [Function.update_of_ne hj, Function.update_of_ne hne]
      rfl

theorem mode_shut (g : Group κ ω) (pc : ShutPc) :
    mode S { g with shut := pc } =
      Function.update (g.mode S) .shut (mode S { g with shut := pc } .shut) := by
  funext t
  cases t with
  | shut => rw [Function.update_self]
  | admission j =>
    rw [Function.update_of_ne GroupThread.noConfusion]
    rfl

structure Inv (S : GroupSpec κ ω) (g : Group κ ω) : Prop where
  owned : g.mu.Owned (g.mode S)
  barred : g.closed = true → ∀ a ∈ g.admissions, a.pc ≠ .add
  unguarded : S.guarded = false → g.admissions = []
  locks : g.shut = .lock → S.guarded = true
  closed : g.closed = g.shut.cancelled
  shape : ∀ w ∈ g.workers, (S.routine w.site).Shape w.rest
  count : g.count = g.admissions.countP (fun a => a.pc.pending) + g.workers.countP Worker.pending
  waited : g.shut = .returned →
    (∀ w ∈ g.workers, w.inTime = true → w.pending = false) ∧
      ∀ a ∈ g.admissions, a.pc.pending = false
  inTime : S.guarded = true → ∀ w ∈ g.workers, w.inTime = true

namespace Inv

theorem init (S : GroupSpec κ ω) : (Group.init S).Inv S where
  owned := by
    have hfree : (Group.init S).mode S = fun _ => .free := by
      funext t
      cases t <;> rfl
    rw [hfree]
    exact ⟨by simp [Group.init], by simp [Group.init], List.nodup_nil, .inl rfl⟩
  barred h := by cases h
  unguarded _ := rfl
  locks h := by cases h
  closed := rfl
  shape w hw := by
    obtain ⟨k, _, rfl⟩ := List.mem_map.1 hw
    exact (S.routine k).shape_program
  count := by
    show S.initial.length = 0 + (S.initial.map fun k => S.worker k true).countP Worker.pending
    have hall : (S.initial.map fun k => S.worker k true).countP Worker.pending =
        S.initial.length := by
      rw [← List.length_map (f := fun k => S.worker k true), List.countP_eq_length]
      intro w hw
      obtain ⟨k, _, rfl⟩ := List.mem_map.1 hw
      exact (S.routine k).any_isDone_program
    rw [hall, Nat.zero_add]
  waited h := by cases h
  inTime _ w hw := by
    obtain ⟨k, _, rfl⟩ := List.mem_map.1 hw
    rfl

theorem mem_set {l : List (Admission κ)} (h : a ∈ l.set i b) : a = b ∨ a ∈ l := by
  rcases List.mem_or_eq_of_mem_set h with h | h
  · exact .inr h
  · exact .inl h

theorem shape_spawn (h : g.Inv S) (k : κ) :
    ∀ w ∈ (g.spawn S k).workers, (S.routine w.site).Shape w.rest := by
  intro w hw
  rcases List.mem_append.1 hw with hw | hw
  · exact h.shape w hw
  · rw [List.mem_singleton.1 hw]
    exact (S.routine k).shape_program

theorem countP_spawn (g : Group κ ω) (k : κ) :
    (g.spawn S k).workers.countP Worker.pending = g.workers.countP Worker.pending + 1 := by
  have hone : [S.worker k (g.shut != .returned)].countP Worker.pending = 1 := by
    rw [List.countP_singleton, if_pos]
    exact (S.routine k).any_isDone_program
  rw [Group.spawn, List.countP_append, hone]

theorem admitted (h : g.Inv S) (hi : g.admissions[i]? = some ⟨k, pc⟩)
    (hmode : LockStep (.admission i) g.mu pc.mode m pc'.mode) (hpending : pc'.pending = pc.pending)
    (hadd : pc' = .add → g.closed = false) :
    ({ g with mu := m }.setAdmission i ⟨k, pc'⟩).Inv S := by
  refine ⟨?_, ?_, ?_, h.locks, h.closed, h.shape, ?_, ?_, h.inTime⟩
  · have hkeep : ({ g with mu := m }.setAdmission i ⟨k, pc'⟩).mode S =
        Function.update (g.mode S) (.admission i) pc'.mode :=
      mode_setAdmission (g := { g with mu := m }) hi _
    rw [hkeep]
    apply h.owned.step
    have hpc : g.mode S (.admission i) = pc.mode := modeAt_eq hi _
    rw [hpc]
    exact hmode
  · intro hc a ha
    rcases mem_set ha with rfl | ha
    · intro hpc
      rw [hadd hpc] at hc
      cases hc
    · exact h.barred hc a ha
  · intro hg
    have hnil := h.unguarded hg
    rw [hnil] at hi
    cases hi
  · have hmove := countP_move hi ⟨k, pc'⟩ (fun a => a.pc.pending)
    rw [hpending] at hmove
    show g.count = (g.admissions.set i ⟨k, pc'⟩).countP _ + _
    rw [Nat.add_right_cancel hmove]
    exact h.count
  · intro hret
    refine ⟨(h.waited hret).1, ?_⟩
    intro a ha
    rcases mem_set ha with rfl | ha
    · rw [hpending]
      exact (h.waited hret).2 _ (List.mem_of_getElem? hi)
    · exact (h.waited hret).2 a ha

theorem add (h : g.Inv S) (hi : g.admissions[i]? = some ⟨k, .add⟩) :
    ({ g with count := g.count + 1 }.setAdmission i ⟨k, .runlock true⟩).Inv S := by
  have hopen : g.closed = false := by
    apply Bool.eq_false_of_not_eq_true
    intro hc
    exact h.barred hc _ (List.mem_of_getElem? hi) rfl
  have hmode : ({ g with count := g.count + 1 }.setAdmission i ⟨k, .runlock true⟩).mode S =
      Function.update (g.mode S) (.admission i) .read :=
    mode_setAdmission (g := { g with count := g.count + 1 }) hi _
  refine ⟨?_, ?_, ?_, h.locks, h.closed, h.shape, ?_, ?_, h.inTime⟩
  · rw [hmode]
    apply h.owned.step
    have hpc : g.mode S (.admission i) = .read := modeAt_eq hi _
    rw [hpc]
    exact .keep
  · intro hc
    rw [show g.closed = true from hc] at hopen
    cases hopen
  · intro hg
    rw [h.unguarded hg] at hi
    cases hi
  · have hmove : (g.admissions.set i ⟨k, .runlock true⟩).countP (fun a => a.pc.pending) =
        g.admissions.countP (fun a => a.pc.pending) + 1 :=
      countP_move hi ⟨k, .runlock true⟩ (fun a => a.pc.pending)
    show g.count + 1 = (g.admissions.set i ⟨k, .runlock true⟩).countP _ +
      g.workers.countP Worker.pending
    rw [hmove, h.count, Nat.add_right_comm]
  · intro hret
    have hc := h.closed
    rw [show g.shut = .returned from hret, hopen] at hc
    cases hc

theorem spawn (h : g.Inv S) (hi : g.admissions[i]? = some ⟨k, .spawn⟩) :
    ((g.spawn S k).setAdmission i ⟨k, .gone⟩).Inv S := by
  have hwaits : g.shut ≠ .returned := by
    intro hret
    have hp := (h.waited hret).2 _ (List.mem_of_getElem? hi)
    cases hp
  have hmode : ((g.spawn S k).setAdmission i ⟨k, .gone⟩).mode S =
      Function.update (g.mode S) (.admission i) .free :=
    mode_setAdmission (g := g.spawn S k) hi _
  refine ⟨?_, ?_, ?_, h.locks, h.closed, h.shape_spawn k, ?_, fun hret => absurd hret hwaits, ?_⟩
  · rw [hmode]
    apply h.owned.step
    have hpc : g.mode S (.admission i) = .free := modeAt_eq hi _
    rw [hpc]
    exact .keep
  · intro hc a ha
    rcases mem_set ha with rfl | ha
    · exact AdmitPc.noConfusion
    · exact h.barred hc a ha
  · intro hg
    rw [h.unguarded hg] at hi
    cases hi
  · have hmove : (g.admissions.set i ⟨k, .gone⟩).countP (fun a => a.pc.pending) + 1 =
        g.admissions.countP (fun a => a.pc.pending) :=
      countP_move hi ⟨k, .gone⟩ (fun a => a.pc.pending)
    show g.count = (g.admissions.set i ⟨k, .gone⟩).countP _ + (g.spawn S k).workers.countP _
    rw [countP_spawn, h.count, ← hmove, Nat.add_right_comm]
    rfl
  · intro hg w hw
    rcases List.mem_append.1 hw with hw | hw
    · exact h.inTime hg w hw
    · rw [List.mem_singleton.1 hw]
      exact bne_iff_ne.2 hwaits

theorem register (h : g.Inv S) (hg : S.guarded = false) (k : κ) :
    ({ g with count := g.count + 1 }.spawn S k).Inv S := by
  refine { h with shape := h.shape_spawn k, count := ?_, waited := ?_, inTime := ?_ }
  · show g.count + 1 = g.admissions.countP _ + (g.spawn S k).workers.countP _
    rw [countP_spawn, h.count, Nat.add_assoc]
  · intro hret
    refine ⟨?_, (h.waited hret).2⟩
    intro w hw hin
    rcases List.mem_append.1 hw with hw | hw
    · exact (h.waited hret).1 w hw hin
    · rw [List.mem_singleton.1 hw] at hin
      rw [show g.shut = .returned from hret] at hin
      cases hin
  · intro hg'
    rw [hg] at hg'
    cases hg'

theorem worked {w : Worker κ ω} (h : g.Inv S) (hw : g.workers[i]? = some w)
    (hs : (S.routine w.site).Shape rest)
    (hle : rest.any Stmt.isDone = true → w.pending = true)
    (hcount : n + w.pending.toNat = g.count + (rest.any Stmt.isDone).toNat) :
    ({ g with count := n }.setWorker i { w with rest }).Inv S := by
  refine { h with shape := ?_, count := ?_, waited := ?_, inTime := ?_ }
  · intro w' hw'
    rcases List.mem_or_eq_of_mem_set hw' with hw' | rfl
    · exact h.shape w' hw'
    · exact hs
  · have hmove := countP_move hw { w with rest } Worker.pending
    have hold : (if w.pending then 1 else 0) = w.pending.toNat := by cases w.pending <;> rfl
    have hnew : (if Worker.pending { w with rest } then 1 else 0) =
        (rest.any Stmt.isDone).toNat := by
      rw [Worker.pending]
      cases rest.any Stmt.isDone <;> rfl
    rw [hold, hnew] at hmove
    have hg := h.count
    show n = g.admissions.countP _ + (g.workers.set i { w with rest }).countP _
    omega
  · intro hret
    refine ⟨?_, (h.waited hret).2⟩
    intro w' hw' hin
    rcases List.mem_or_eq_of_mem_set hw' with hw' | rfl
    · exact (h.waited hret).1 w' hw' hin
    · have hp := (h.waited hret).1 w (List.mem_of_getElem? hw) hin
      apply Bool.eq_false_of_not_eq_true
      intro hd
      rw [hle hd] at hp
      cases hp
  · intro hg w' hw'
    rcases List.mem_or_eq_of_mem_set hw' with hw' | rfl
    · exact h.inTime hg w' hw'
    · exact h.inTime hg w (List.mem_of_getElem? hw)

theorem shut (h : g.Inv S) (hmode : LockStep .shut g.mu (g.mode S .shut) m
      (mode S { g with shut := pc } .shut))
    (hbarred : b = true → ∀ a ∈ g.admissions, a.pc ≠ .add) (hclosed : b = pc.cancelled)
    (hlocks : pc = .lock → S.guarded = true) (hcount : pc = .returned → g.count = 0) :
    Inv S { g with mu := m, closed := b, shut := pc } := by
  refine ⟨?_, hbarred, h.unguarded, hlocks, hclosed, h.shape, h.count, ?_, h.inTime⟩
  · have hupdate : mode S { g with mu := m, closed := b, shut := pc } =
        Function.update (g.mode S) .shut (mode S { g with shut := pc } .shut) :=
      mode_shut g pc
    rw [hupdate]
    exact h.owned.step hmode
  · intro hret
    have hzero := h.count
    rw [hcount hret] at hzero
    obtain ⟨ha, hw⟩ := Nat.add_eq_zero_iff.1 hzero.symm
    refine ⟨fun w hmem _ => ?_, fun a hmem => ?_⟩
    · exact Bool.eq_false_of_not_eq_true (List.countP_eq_zero.1 hw w hmem)
    · exact Bool.eq_false_of_not_eq_true (List.countP_eq_zero.1 ha a hmem)

theorem no_add (h : g.Inv S) (hpc : g.shut = .cancel) : ∀ a ∈ g.admissions, a.pc ≠ .add := by
  intro a ha
  cases hg : S.guarded with
  | false =>
    rw [h.unguarded hg] at ha
    cases ha
  | true =>
    obtain ⟨i, hi⟩ := List.mem_iff_getElem?.1 ha
    have hwrite : g.mode S .shut = .write := by
      simp only [mode, hpc, hg, if_true]
    have hread : g.mu.readers = [] := by
      apply h.owned.excl.resolve_left
      rw [(h.owned.writer .shut).2 hwrite]
      exact Option.some_ne_none _
    intro hadd
    have hmode : g.mode S (.admission i) = .read := by
      rw [mode, modeAt_eq hi, hadd]
      rfl
    have hmem := (h.owned.readers _).2 hmode
    rw [hread] at hmem
    cases hmem

theorem start (h : g.Inv S) (hg : S.guarded = true) (k : κ) :
    Inv S { g with admissions := g.admissions ++ [⟨k, .rlock⟩] } := by
  have hmode : mode S { g with admissions := g.admissions ++ [⟨k, .rlock⟩] } =
      g.mode S := by
    funext t
    cases t with
    | shut => rfl
    | admission j => exact congrFun (modeAt_concat g.admissions (a := ⟨k, .rlock⟩) rfl) j
  refine ⟨?_, ?_, ?_, h.locks, h.closed, h.shape, ?_, ?_, h.inTime⟩
  · rw [hmode]
    exact h.owned
  · intro hc a ha
    rcases List.mem_append.1 ha with ha | ha
    · exact h.barred hc a ha
    · rw [List.mem_singleton.1 ha]
      exact AdmitPc.noConfusion
  · intro hg'
    rw [hg] at hg'
    cases hg'
  · show g.count = (g.admissions ++ [Admission.mk k .rlock]).countP _ + _
    rw [List.countP_append]
    exact h.count
  · intro hret
    refine ⟨(h.waited hret).1, ?_⟩
    intro a ha
    rcases List.mem_append.1 ha with ha | ha
    · exact (h.waited hret).2 a ha
    · rw [List.mem_singleton.1 ha]
      rfl

section
variable {i : Nat} {w : Worker κ ω} {rest : List (Stmt ω)} (h : g.Inv S)
  (hw : g.workers[i]? = some w)
include h hw

theorem shape_of_rest (hrest : w.rest = rest) : (S.routine w.site).Shape rest :=
  hrest ▸ h.shape w (List.mem_of_getElem? hw)

theorem workedSame (hshape : (S.routine w.site).Shape rest)
    (hsame : w.pending = rest.any Stmt.isDone) : (g.setWorker i { w with rest }).Inv S :=
  h.worked hw hshape (fun hd => hsame.trans hd) (by rw [hsame])

theorem op {o : ω} (hrest : w.rest = .op o :: rest) : (g.setWorker i { w with rest }).Inv S := by
  have hsame : w.pending = rest.any Stmt.isDone := by
    rw [Worker.pending, hrest]
    rfl
  exact h.workedSame hw (h.shape_of_rest hw hrest).tail_op hsame

theorem done (hrest : w.rest = .done :: rest) :
    ({ g with count := g.count - 1 }.setWorker i { w with rest }).Inv S := by
  obtain ⟨hshape, hdone⟩ := (h.shape_of_rest hw hrest).tail_done
  have hpending : w.pending = true := by
    rw [Worker.pending, hrest]
    rfl
  refine h.worked hw hshape (fun _ => hpending) ?_
  have hpos : 0 < g.workers.countP Worker.pending :=
    List.countP_pos_iff.2 ⟨w, List.mem_of_getElem? hw, hpending⟩
  have hcount := h.count
  rw [hpending, hdone, Bool.toNat_true, Bool.toNat_false]
  omega

theorem leave {o : ω} {rest₀ : List (Stmt ω)} (hrest : w.rest = .op o :: rest₀)
    (ha : rest = (S.routine w.site).after ∨ rest = (S.routine w.site).afterPanic) :
    (g.setWorker i { w with rest }).Inv S := by
  have hpending : w.pending = !(S.routine w.site).doneFirst := by
    rw [Worker.pending, hrest]
    exact (h.shape_of_rest hw hrest).any_isDone
  rcases ha with rfl | rfl
  · exact h.workedSame hw (S.routine w.site).shape_after
      (hpending.trans (S.routine w.site).any_isDone_after.symm)
  · exact h.workedSame hw (S.routine w.site).shape_afterPanic
      (hpending.trans (S.routine w.site).any_isDone_afterPanic.symm)

end

theorem shutKept (h : g.Inv S) (hmode : LockStep .shut g.mu (g.mode S .shut) m
      (mode S { g with shut := pc } .shut))
    (hclosed : g.shut.cancelled = pc.cancelled) (hlocks : pc = .lock → S.guarded = true)
    (hcount : pc = .returned → g.count = 0) :
    Inv S { g with mu := m, shut := pc } :=
  h.shut hmode h.barred (h.closed.trans hclosed) hlocks hcount

theorem step (h : g.Inv S) (hs : GroupStep S g a g') : g'.Inv S := by
  cases hs with
  | start hg => exact h.start hg _
  | rlock hi hfree => exact h.admitted hi (.rlock hfree) rfl AdmitPc.noConfusion
  | refuse hi _ => exact h.admitted hi .keep rfl AdmitPc.noConfusion
  | accept hi hopen => exact h.admitted hi .keep rfl fun _ => hopen
  | add hi => exact h.add hi
  | @runlock i k admitted hi =>
    cases admitted with
    | true | false => exact h.admitted hi .runlock rfl AdmitPc.noConfusion
  | spawn hi => exact h.spawn hi
  | register hg => exact h.register hg _
  | op hw hrest => exact h.op hw hrest
  | done hw hrest => exact h.done hw hrest
  | leave hw hrest ha => exact h.leave hw hrest (ha.imp And.right And.right)
  | close hpc =>
    cases hg : S.guarded with
    | true =>
      refine h.shutKept ?_ (by rw [hpc]; rfl) (fun _ => hg) ShutPc.noConfusion
      simp only [mode, hpc]
      exact .keep
    | false =>
      refine h.shutKept ?_ (by rw [hpc]; rfl) ShutPc.noConfusion ShutPc.noConfusion
      simp only [mode, hpc, hg]
      exact .keep
  | lock hpc hfree =>
    refine h.shutKept ?_ (by rw [hpc]; rfl) ShutPc.noConfusion ShutPc.noConfusion
    simp only [mode, hpc, h.locks hpc, if_true]
    exact .lock hfree
  | cancel hpc =>
    cases hg : S.guarded with
    | true =>
      refine h.shut ?_ (fun _ => h.no_add hpc) rfl ShutPc.noConfusion ShutPc.noConfusion
      simp only [mode, hpc, hg, if_true]
      exact .keep
    | false =>
      refine h.shut ?_ (fun _ => h.no_add hpc) rfl ShutPc.noConfusion ShutPc.noConfusion
      simp only [mode, hpc, hg]
      exact .keep
  | unlock hpc =>
    refine h.shutKept ?_ (by rw [hpc]; rfl) ShutPc.noConfusion ShutPc.noConfusion
    simp only [mode, hpc]
    exact .unlock
  | wait hpc hzero =>
    refine h.shutKept ?_ (by rw [hpc]; rfl) ShutPc.noConfusion fun _ => hzero
    simp only [mode, hpc]
    exact .keep

/-- Once the wait has returned, a goroutine that was counted before and calls `Done` at its end is
finished. -/
theorem finished (h : g.Inv S) (hret : g.shut = .returned) (hw : w ∈ g.workers)
    (hin : w.inTime = true) (hlast : (S.routine w.site).doneFirst = false) : w.rest = [] :=
  (h.shape w hw).eq_nil hlast ((h.waited hret).1 w hw hin)

theorem count_le (h : g.Inv S) (hg : S.guarded = true) (hc : g.closed = true)
    (hs : GroupStep S g a g') : g'.count ≤ g.count := by
  cases hs with
  | add hi => exact absurd rfl (h.barred hc _ (List.mem_of_getElem? hi))
  | register hg' =>
    rw [hg] at hg'
    cases hg'
  | done _ _ => exact Nat.sub_le _ _
  | _ => exact Nat.le_refl _

theorem closed_mono (hc : g.closed = true) (hs : GroupStep S g a g') : g'.closed = true := by
  cases hs with
  | cancel _ => rfl
  | _ => exact hc

end Inv

theorem inv [DecidableEq κ] [DecidableEq ω] (h : (groupMachine S).Reachable g) : g.Inv S := by
  apply h.invariant
  · rintro g rfl
    exact .init S
  · exact fun g a g' hI hs => hI.step (step_step hs)

end Group

end

end Lib
