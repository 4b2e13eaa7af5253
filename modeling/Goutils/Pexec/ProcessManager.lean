import Goutils.Lib.Keyed
import Goutils.Lib.Machine

namespace Goutils.Pexec
open Lib
set_option autoImplicit true

structure Process where
  object : Nat
  id : String
  deriving DecidableEq

structure ProcessManager where
  processesByID : Keyed Process.id := .empty
  started : Bool := false
  stopped : Bool := false

inductive Manager where
  | noop
  | manager (pm : ProcessManager)

inductive ManagerErr where
  | alreadyStopped
  | unsupported
  | start (text : String)

/-- The manager after a call, and what it returned, stopped and took on. -/
structure Outcome where
  manager : Manager
  returned : List Process := []
  stopped : List Process := []
  added : List Process := []
  err : Option ManagerErr := none

namespace Manager

def processes : Manager → List Process
  | .noop => []
  | .manager pm => pm.processesByID.list

def processIDs (m : Manager) : List String := m.processes.map Process.id

def processByID (id : String) : Manager → Option Process
  | .noop => none
  | .manager pm => if pm.stopped then none else pm.processesByID.get id

def removeProcessByID (id : String) : Manager → Outcome
  | .noop => { manager := .noop }
  | .manager pm =>
    if pm.stopped then { manager := .manager pm }
    else match pm.processesByID.get id with
      | none => { manager := .manager pm }
      | some proc => {
          manager := .manager { pm with processesByID := pm.processesByID.erase id }
          returned := [proc] }

def stopAll (pm : ProcessManager) : Outcome where
  manager := .manager { pm with stopped := true, processesByID := .empty }
  stopped := pm.processesByID.list

def start (fails : Option String) : Manager → Outcome
  | .noop => { manager := .noop }
  | .manager pm =>
    if pm.stopped then { manager := .manager pm, err := some .alreadyStopped }
    else if pm.started then { manager := .manager pm }
    else match fails with
      | none => { manager := .manager { pm with started := true } }
      | some text =>
        if pm.processesByID.list = [] then { manager := .manager { pm with started := true } }
        else { stopAll pm with err := some (.start text) }

def addProcess (proc : Process) (start : Bool) (fails : Option String) : Manager → Outcome
  | .noop => { manager := .noop, err := some .unsupported }
  | .manager pm =>
    if pm.stopped then { manager := .manager pm, err := some .alreadyStopped }
    else match (if pm.started && start then fails else none) with
      | some text => { manager := .manager pm, err := some (.start text) }
      | none => {
          manager := .manager { pm with processesByID := pm.processesByID.insert proc }
          returned := (pm.processesByID.get proc.id).toList
          added := [proc] }

def stop : Manager → Outcome
  | .noop => { manager := .noop }
  | .manager pm => if pm.stopped then { manager := .manager pm } else stopAll pm

end Manager

/-- A merge: ids left and what it has collected; one that failed has returned nil. -/
inductive Merge where
  | start (add : Bool) (dst src : Nat)
  | next (add : Bool) (dst src : Nat) (ids : List String) (collected : List Process)
  | fetched (dst src : Nat) (proc : Process) (ids : List String) (collected : List Process)
  | finished (dst : Nat)
  | failed (dst : Nat) (collected : List Process)
  deriving DecidableEq

/-- Managers and merges, with what was ever managed, returned and stopped by each. -/
structure Managers where
  managers : List Manager := []
  merges : List Merge := []
  added : List (Nat × Process) := []
  returned : List (Nat × Process) := []
  stopped : List (Nat × Process) := []

namespace Managers

def record (m : Nat) (log : List (Nat × Process)) (procs : List Process) : List (Nat × Process) :=
  log ++ procs.map fun p => (m, p)

def effect (s : Managers) (m : Nat) (o : Outcome) : Managers :=
  { s with
    managers := s.managers.set m o.manager
    added := record m s.added o.added
    stopped := record m s.stopped o.stopped }

def give (s : Managers) (m : Nat) (procs : List Process) : Managers :=
  { s with returned := record m s.returned procs }

def call (s : Managers) (m : Nat) (method : Manager → Outcome) : Option Managers :=
  s.managers[m]?.map fun mg => (s.effect m (method mg)).give m (method mg).returned

def setMerge (s : Managers) (k : Nat) (merge : Merge) : Managers :=
  { s with merges := s.merges.set k merge }

def runMerge (s : Managers) (k : Nat) (order : List String) : Merge → Option Managers
  | .start add dst src =>
    s.managers[src]?.bind fun mg =>
      if order.isPerm mg.processIDs then some (s.setMerge k (.next add dst src order [])) else none
  | .next _ dst _ [] collected => some ((s.setMerge k (.finished dst)).give dst collected)
  | .next true dst src (id :: ids) collected =>
    s.managers[src]?.map fun mg =>
      s.setMerge k (match mg.processByID id with
        | none => .next true dst src ids collected
        | some proc => .fetched dst src proc ids collected)
  | .next false dst src (id :: ids) collected =>
    s.managers[dst]?.map fun mg =>
      let o := mg.removeProcessByID id
      (s.effect dst o).setMerge k (.next false dst src ids (collected ++ o.returned))
  | .fetched dst src proc ids collected =>
    s.managers[dst]?.map fun mg =>
      let o := mg.addProcess proc false none
      (s.effect dst o).setMerge k (if o.err = none then
        .next true dst src ids (collected ++ o.returned) else .failed dst collected)
  | .finished _ | .failed _ _ => none

end Managers

inductive ManagersAct where
  | addProcess (m : Nat) (proc : Process) (start : Bool) (fails : Option String)
  | removeProcessByID (m : Nat) (id : String)
  | start (m : Nat) (fails : Option String)
  | stop (m : Nat)
  | mergeAdd (dst src : Nat)
  | mergeRemove (dst src : Nat)
  | merge (k : Nat) (order : List String)

/-- A method holds the lock of its manager to its end, so that it is one step. -/
def managersStep (s : Managers) : ManagersAct → Option Managers
  | .addProcess m proc start fails => s.call m (Manager.addProcess proc start fails)
  | .removeProcessByID m id => s.call m (Manager.removeProcessByID id)
  | .start m fails => s.call m (Manager.start fails)
  | .stop m => s.call m Manager.stop
  | .mergeAdd dst src => some { s with merges := s.merges ++ [.start true dst src] }
  | .mergeRemove dst src => some { s with merges := s.merges ++ [.start false dst src] }
  | .merge k order => s.merges[k]?.bind (s.runMerge k order)

def Managers.Manages (s : Managers) (m : Nat) (p : Process) : Prop :=
  ∃ mg, s.managers[m]? = some mg ∧ p ∈ mg.processes

def Managers.of (managers : List Manager) : Managers where
  managers := managers
  added := managers.zipIdx.flatMap fun x => x.1.processes.map fun p => (x.2, p)

def managersMachine : Machine Managers ManagersAct where
  init s := s = .of s.managers
  step := managersStep

structure Outcome.Conserves (o : Outcome) (mg : Manager) : Prop where
  kept : ∀ p, p ∈ mg.processes ∨ p ∈ o.added →
    p ∈ o.manager.processes ∨ p ∈ o.returned ∨ p ∈ o.stopped
  known : ∀ p ∈ o.manager.processes, p ∈ mg.processes ∨ p ∈ o.added

namespace Manager

open Outcome (Conserves)

theorem conserves_same {mg : Manager} {o : Outcome} (h : o.manager.processes = mg.processes)
    (ha : o.added = []) : o.Conserves mg := by
  constructor
  · rintro p (hp | hp)
    · exact .inl (h ▸ hp)
    · rw [ha] at hp
      cases hp
  · intro p hp
    exact .inl (h ▸ hp)

theorem stopAll_conserves (pm : ProcessManager) (err : Option ManagerErr) :
    Conserves { stopAll pm with err } (.manager pm) := by
  constructor
  · rintro p (hp | hp)
    · exact .inr (.inr hp)
    · cases hp
  · intro p hp
    cases hp

theorem removeProcessByID_conserves (id : String) (mg : Manager) :
    (removeProcessByID id mg).Conserves mg := by
  cases mg with
  | noop => exact conserves_same rfl rfl
  | manager pm =>
    simp only [removeProcessByID]
    split
    · exact conserves_same rfl rfl
    · split
      · exact conserves_same rfl rfl
      · rename_i proc hget
        constructor
        · rintro p (hp | hp)
          · rcases Keyed.mem_erase_or_get hp id with hkept | hgot
            · exact .inl hkept
            · rw [hget] at hgot
              cases hgot
              exact .inr (.inl List.mem_cons_self)
          · cases hp
        · intro p hp
          exact .inl (Keyed.mem_erase.1 hp).1

theorem start_conserves (fails : Option String) (mg : Manager) : (start fails mg).Conserves mg := by
  cases mg with
  | noop => exact conserves_same rfl rfl
  | manager pm =>
    simp only [start]
    split
    · exact conserves_same rfl rfl
    · split
      · exact conserves_same rfl rfl
      · split
        · exact conserves_same rfl rfl
        · split
          · exact conserves_same rfl rfl
          · exact stopAll_conserves pm _

theorem addProcess_conserves (proc : Process) (start : Bool) (fails : Option String)
    (mg : Manager) : (addProcess proc start fails mg).Conserves mg := by
  cases mg with
  | noop => exact conserves_same rfl rfl
  | manager pm =>
    simp only [addProcess]
    split
    · exact conserves_same rfl rfl
    · split
      · exact conserves_same rfl rfl
      · constructor
        · rintro p (hp | hp)
          · apply (Keyed.mem_insert_or_get hp proc).imp_right
            intro hgot
            exact .inl (Option.mem_toList.2 hgot)
          · exact .inl (Keyed.mem_insert.2 (.inr (List.mem_singleton.1 hp)))
        · intro p hp
          apply (Keyed.mem_insert.1 hp).imp
          · exact fun hold => hold.1
          · exact fun hnew => List.mem_singleton.2 hnew

theorem stop_conserves (mg : Manager) : (stop mg).Conserves mg := by
  cases mg with
  | noop => exact conserves_same rfl rfl
  | manager pm =>
    simp only [stop]
    split
    · exact conserves_same rfl rfl
    · exact stopAll_conserves pm none

theorem addProcess_err (proc : Process) (start : Bool) (fails : Option String) (mg : Manager) :
    (addProcess proc start fails mg).err = none ∨
      (addProcess proc start fails mg).returned = [] := by
  cases mg with
  | noop => exact .inr rfl
  | manager pm =>
    simp only [addProcess]
    split
    · exact .inr rfl
    · split
      · exact .inr rfl
      · exact .inl rfl

end Manager

def Merge.Holds (m : Nat) (p : Process) : Merge → Prop
  | .start _ _ _ => False
  | .next _ dst _ _ collected | .fetched dst _ _ _ collected => dst = m ∧ p ∈ collected
  | .finished _ => False
  | .failed dst collected => dst = m ∧ p ∈ collected

namespace Managers

def Collected (s : Managers) (m : Nat) (p : Process) : Prop := ∃ merge ∈ s.merges, merge.Holds m p

theorem mem_record {log : List (Nat × Process)} {procs : List Process} {m j : Nat} {p : Process} :
    (j, p) ∈ record m log procs ↔ (j, p) ∈ log ∨ j = m ∧ p ∈ procs := by
  simp only [record, List.mem_append, List.mem_map, Prod.mk.injEq]
  constructor
  · rintro (h | ⟨q, hq, rfl, rfl⟩)
    · exact .inl h
    · exact .inr ⟨rfl, hq⟩
  · rintro (h | ⟨rfl, hp⟩)
    · exact .inl h
    · exact .inr ⟨p, hp, rfl, rfl⟩

/-- Each process that was ever managed is where it should be, or one of those in `extra`. -/
structure Accounted (s : Managers) (extra : Nat → Process → Prop) : Prop where
  known : ∀ m p, s.Manages m p → (m, p) ∈ s.added
  kept : ∀ m p, (m, p) ∈ s.added → s.Manages m p ∨ (m, p) ∈ s.returned ∨ (m, p) ∈ s.stopped ∨
    s.Collected m p ∨ extra m p

namespace Accounted

variable {s s' : Managers} {extra extra' : Nat → Process → Prop} {m : Nat} {mg : Manager}
  {o : Outcome}

theorem effect (h : s.Accounted fun _ _ => False) (hm : s.managers[m]? = some mg)
    (ho : o.Conserves mg) : (s.effect m o).Accounted fun j p => j = m ∧ p ∈ o.returned := by
  have hself : (s.managers.set m o.manager)[m]? = some o.manager :=
    List.getElem?_set_self (List.getElem?_eq_some_iff.1 hm).1
  have hother {j : Nat} (hj : j ≠ m) : (s.managers.set m o.manager)[j]? = s.managers[j]? :=
    List.getElem?_set_ne hj.symm
  have hkept (p : Process) (hp : p ∈ mg.processes ∨ p ∈ o.added) :
      (s.effect m o).Manages m p ∨ p ∈ o.returned ∨ (m, p) ∈ (s.effect m o).stopped := by
    rcases ho.kept p hp with hk | hk | hk
    · exact .inl ⟨o.manager, hself, hk⟩
    · exact .inr (.inl hk)
    · exact .inr (.inr (mem_record.2 (.inr ⟨rfl, hk⟩)))
  constructor
  · rintro j p ⟨mg', hj, hp⟩
    apply mem_record.2
    by_cases hjm : j = m
    · subst hjm
      change (s.managers.set j o.manager)[j]? = _ at hj
      rw [hself] at hj
      cases hj
      apply (ho.known p hp).imp
      · exact fun hold => h.known j p ⟨mg, hm, hold⟩
      · exact fun hnew => ⟨rfl, hnew⟩
    · change (s.managers.set m o.manager)[j]? = _ at hj
      rw [hother hjm] at hj
      exact .inl (h.known j p ⟨mg', hj, hp⟩)
  · intro j p hp
    have hnow (hk : p ∈ mg.processes ∨ p ∈ o.added) (hjm : j = m) :
        (s.effect m o).Manages j p ∨ (j, p) ∈ s.returned ∨ (j, p) ∈ (s.effect m o).stopped ∨
          s.Collected j p ∨ j = m ∧ p ∈ o.returned := by
      subst hjm
      rcases hkept p hk with hk | hk | hk
      · exact .inl hk
      · exact .inr (.inr (.inr (.inr ⟨rfl, hk⟩)))
      · exact .inr (.inr (.inl hk))
    rcases mem_record.1 hp with hold | ⟨hjm, hnew⟩
    · rcases h.kept j p hold with ⟨mg', hj, hk⟩ | hk | hk | hk | hk
      · by_cases hjm : j = m
        · subst hjm
          rw [hm] at hj
          cases hj
          exact hnow (.inl hk) rfl
        · refine .inl ⟨mg', ?_, hk⟩
          exact (hother hjm).trans hj
      · exact .inr (.inl hk)
      · exact .inr (.inr (.inl (mem_record.2 (.inl hk))))
      · exact .inr (.inr (.inr (.inl hk)))
      · exact hk.elim
    · exact hnow (.inr hnew) hjm

theorem give (h : s.Accounted fun j p => j = m ∧ p ∈ procs) :
    (s.give m procs).Accounted fun _ _ => False := by
  refine ⟨h.known, ?_⟩
  intro j p hp
  rcases h.kept j p hp with hk | hk | hk | hk | hk
  · exact .inl hk
  · exact .inr (.inl (mem_record.2 (.inl hk)))
  · exact .inr (.inr (.inl hk))
  · exact .inr (.inr (.inr (.inl hk)))
  · exact .inr (.inl (mem_record.2 (.inr hk)))

theorem setMerge (h : s.Accounted extra) (hk : s.merges[k]? = some merge)
    (hhold : ∀ m p, merge.Holds m p → new.Holds m p ∨ extra' m p)
    (hextra : ∀ m p, extra m p → new.Holds m p ∨ extra' m p) :
    (s.setMerge k new).Accounted extra' := by
  have hnew (j : Nat) (p : Process) (hj : new.Holds j p ∨ extra' j p) :
      (s.setMerge k new).Collected j p ∨ extra' j p := by
    apply hj.imp_left
    intro hj
    refine ⟨new, ?_, hj⟩
    exact List.mem_set (List.getElem?_eq_some_iff.1 hk).1 new
  refine ⟨h.known, ?_⟩
  intro j p hp
  rcases h.kept j p hp with hr | hr | hr | ⟨merge', hmem, hr⟩ | hr
  · exact .inl hr
  · exact .inr (.inl hr)
  · exact .inr (.inr (.inl hr))
  · apply Or.inr
    apply Or.inr
    apply Or.inr
    obtain ⟨i, hi⟩ := List.mem_iff_getElem?.1 hmem
    by_cases hik : i = k
    · subst hik
      rw [hk] at hi
      cases hi
      exact hnew j p (hhold j p hr)
    · refine .inl ⟨merge', ?_, hr⟩
      apply List.mem_of_getElem? (i := i)
      exact (List.getElem?_set_ne (Ne.symm hik)).trans hi
  · exact .inr (.inr (.inr (hnew j p (hextra j p hr))))

theorem call {method : Manager → Outcome} (h : s.Accounted fun _ _ => False)
    (ho : ∀ mg, (method mg).Conserves mg) (hs : s.call m method = some s') :
    s'.Accounted fun _ _ => False := by
  obtain ⟨mg, hm, rfl⟩ := Option.map_eq_some_iff.1 hs
  exact (h.effect hm (ho mg)).give

theorem runMerge (h : s.Accounted fun _ _ => False) (hk : s.merges[k]? = some merge)
    (hs : s.runMerge k order merge = some s') : s'.Accounted fun _ _ => False := by
  unfold Managers.runMerge at hs
  split at hs
  · obtain ⟨mg, _, hs⟩ := Option.bind_eq_some_iff.1 hs
    split at hs
    · cases hs
      exact h.setMerge hk nofun nofun
    · cases hs
  · rename_i dst _ collected
    cases hs
    apply Accounted.give
    apply h.setMerge hk _ nofun
    rintro m p ⟨rfl, hp⟩
    exact .inr ⟨rfl, hp⟩
  · obtain ⟨mg, _, rfl⟩ := Option.map_eq_some_iff.1 hs
    apply h.setMerge hk _ nofun
    intro m p hp
    split
    · exact .inl hp
    · exact .inl hp
  · rename_i dst src id ids collected
    obtain ⟨mg, hm, rfl⟩ := Option.map_eq_some_iff.1 hs
    apply (h.effect hm (mg.removeProcessByID_conserves id)).setMerge hk
    · rintro m p ⟨rfl, hp⟩
      exact .inl ⟨rfl, List.mem_append_left _ hp⟩
    · rintro m p ⟨rfl, hp⟩
      exact .inl ⟨rfl, List.mem_append_right _ hp⟩
  · rename_i dst src proc ids collected
    obtain ⟨mg, hm, rfl⟩ := Option.map_eq_some_iff.1 hs
    apply (h.effect hm (mg.addProcess_conserves proc false none)).setMerge hk
    · rintro m p ⟨rfl, hp⟩
      split
      · exact .inl ⟨rfl, List.mem_append_left _ hp⟩
      · exact .inl ⟨rfl, hp⟩
    · rintro m p ⟨rfl, hp⟩
      split
      · exact .inl ⟨rfl, List.mem_append_right _ hp⟩
      · rename_i herr
        rw [(mg.addProcess_err proc false none).resolve_left herr] at hp
        cases hp
  · cases hs
  · cases hs

theorem addMerge (h : s.Accounted extra) (merge : Merge) :
    Accounted { s with merges := s.merges ++ [merge] } extra := by
  refine ⟨h.known, ?_⟩
  intro j p hp
  rcases h.kept j p hp with hk | hk | hk | ⟨merge', hmem, hk⟩ | hk
  · exact .inl hk
  · exact .inr (.inl hk)
  · exact .inr (.inr (.inl hk))
  · exact .inr (.inr (.inr (.inl ⟨merge', List.mem_append_left _ hmem, hk⟩)))
  · exact .inr (.inr (.inr (.inr hk)))

theorem step (h : s.Accounted fun _ _ => False) (hs : managersStep s a = some s') :
    s'.Accounted fun _ _ => False := by
  cases a with
  | addProcess m proc start fails => exact h.call (Manager.addProcess_conserves proc start fails) hs
  | removeProcessByID m id => exact h.call (Manager.removeProcessByID_conserves id) hs
  | start m fails => exact h.call (Manager.start_conserves fails) hs
  | stop m => exact h.call Manager.stop_conserves hs
  | mergeAdd dst src | mergeRemove dst src =>
    cases hs
    exact h.addMerge _
  | merge k order =>
    obtain ⟨merge, hk, hs⟩ := Option.bind_eq_some_iff.1 hs
    exact h.runMerge hk hs

end Accounted

theorem mem_added_of {managers : List Manager} {m : Nat} {p : Process} :
    (m, p) ∈ (Managers.of managers).added ↔ (Managers.of managers).Manages m p := by
  simp only [Managers.of, Manages, List.mem_flatMap, List.mem_map, Prod.mk.injEq]
  constructor
  · rintro ⟨⟨mg, j⟩, hmem, q, hq, rfl, rfl⟩
    exact ⟨mg, List.mem_zipIdx_iff_getElem?.1 hmem, hq⟩
  · rintro ⟨mg, hm, hp⟩
    exact ⟨(mg, m), List.mem_zipIdx_iff_getElem?.2 hm, p, hp, rfl, rfl⟩

theorem accounted_of_reachable (h : managersMachine.Reachable s) :
    s.Accounted fun _ _ => False := by
  apply h.invariant
  · intro s hs
    have hadded (m : Nat) (p : Process) : (m, p) ∈ s.added ↔ s.Manages m p := by
      rw [hs]
      exact mem_added_of
    exact ⟨fun m p => (hadded m p).2, fun m p hp => .inl ((hadded m p).1 hp)⟩
  · exact fun s a s' hi hs => hi.step hs

end Managers

def Merge.Running : Merge → Prop
  | .finished _ | .failed _ _ => False
  | _ => True

/-- A process that was ever managed is managed, was returned or stopped, or is held by a merge that
still runs, unless a merge that had replaced something failed. -/
theorem process_not_lost {s : Managers} (h : managersMachine.Reachable s)
    (hmerge : ∀ dst collected, .failed dst collected ∈ s.merges → collected = []) :
    (∀ m p, s.Manages m p → (m, p) ∈ s.added) ∧
      ∀ m p, (m, p) ∈ s.added → s.Manages m p ∨ (m, p) ∈ s.returned ∨ (m, p) ∈ s.stopped ∨
        ∃ merge ∈ s.merges, merge.Running ∧ merge.Holds m p := by
  have hacc := Managers.accounted_of_reachable h
  refine ⟨hacc.known, ?_⟩
  intro m p hp
  rcases hacc.kept m p hp with hk | hk | hk | ⟨merge, hmem, hk⟩ | hk
  · exact .inl hk
  · exact .inr (.inl hk)
  · exact .inr (.inr (.inl hk))
  · refine .inr (.inr (.inr ⟨merge, hmem, ?_, hk⟩))
    cases merge with
    | failed dst collected =>
      obtain ⟨_, hp⟩ := hk
      rw [hmerge dst collected hmem] at hp
      cases hp
    | finished dst => exact hk.elim
    | _ => trivial
  · exact hk.elim

def twoManagers : List Manager :=
  [.manager { processesByID := Keyed.empty.insert ⟨0, "a"⟩ },
    .manager { processesByID := (Keyed.empty.insert ⟨1, "a"⟩).insert ⟨2, "b"⟩ }]

theorem init_twoManagers : managersMachine.init (.of twoManagers) := rfl

/-- A merge returns what it has replaced, after which a failed `Start` stops everything. -/
theorem process_not_lost_merge :
    ∃ s, managersMachine.Reachable s ∧ s.merges = [.finished 0] ∧
      s.returned = [(0, ⟨0, "a"⟩)] ∧ s.stopped = [(0, ⟨1, "a"⟩), (0, ⟨2, "b"⟩)] ∧
      ∀ m p, (m, p) ∈ s.added → s.Manages m p ∨ (m, p) ∈ s.returned ∨ (m, p) ∈ s.stopped := by
  obtain ⟨s, hr, hmerges, hreturned, hstopped⟩ : ∃ s, managersMachine.Reachable s ∧
      s.merges = [.finished 0] ∧ s.returned = [(0, ⟨0, "a"⟩)] ∧
      s.stopped = [(0, ⟨1, "a"⟩), (0, ⟨2, "b"⟩)] :=
    managersMachine.exists_reachable (.of twoManagers)
      [.mergeAdd 0 1, .merge 0 ["a", "b"], .merge 0 [], .merge 0 [], .merge 0 [], .merge 0 [],
      .merge 0 [], .start 0 "not found"] init_twoManagers (by decide +kernel)
  have hok : ∀ dst collected, .failed dst collected ∈ s.merges → collected = [] := by
    intro dst collected hmem
    rw [hmerges] at hmem
    cases List.mem_singleton.1 hmem
  refine ⟨s, hr, hmerges, hreturned, hstopped, ?_⟩
  intro m p hmem
  rcases (process_not_lost hr hok).2 m p hmem with hk | hk | hk | ⟨merge, hk, _, hholds⟩
  · exact .inl hk
  · exact .inr (.inl hk)
  · exact .inr (.inr hk)
  · rw [hmerges] at hk
    rw [List.mem_singleton.1 hk] at hholds
    exact hholds.elim

/-- The target of a merge is stopped midway. The process that the merge had replaced before is
neither returned nor stopped, and no manager manages it. -/
theorem merge_loses_process :
    ∃ s, managersMachine.Reachable s ∧ (0, ⟨0, "a"⟩) ∈ s.added ∧ s.merges = [.failed 0 [⟨0, "a"⟩]] ∧
      s.returned = [] ∧ s.stopped = [(0, ⟨1, "a"⟩)] ∧ ¬ s.Manages 0 ⟨0, "a"⟩ ∧
      ¬ s.Manages 1 ⟨0, "a"⟩ := by
  obtain ⟨s, hr, hadded, hmerges, hreturned, hstopped, hprocs⟩ : ∃ s, managersMachine.Reachable s ∧
      (0, ⟨0, "a"⟩) ∈ s.added ∧ s.merges = [.failed 0 [⟨0, "a"⟩]] ∧ s.returned = [] ∧
      s.stopped = [(0, ⟨1, "a"⟩)] ∧ s.managers.map Manager.processes = [[], [⟨1, "a"⟩, ⟨2, "b"⟩]] :=
    managersMachine.exists_reachable (.of twoManagers)
      [.mergeAdd 0 1, .merge 0 ["a", "b"], .merge 0 [], .merge 0 [], .stop 0, .merge 0 [],
      .merge 0 []] init_twoManagers (by decide +kernel)
  have hmanages (m : Nat) (h : s.Manages m ⟨0, "a"⟩) :
      ∃ procs ∈ [[], [⟨1, "a"⟩, ⟨2, "b"⟩]], (⟨0, "a"⟩ : Process) ∈ procs := by
    obtain ⟨mg, hm, hmem⟩ := h
    refine ⟨mg.processes, ?_, hmem⟩
    rw [← hprocs]
    exact List.mem_map_of_mem (List.mem_of_getElem? hm)
  have hnot : ¬ ∃ procs ∈ [[], [⟨1, "a"⟩, ⟨2, "b"⟩]], (⟨0, "a"⟩ : Process) ∈ procs := by decide
  exact ⟨s, hr, hadded, hmerges, hreturned, hstopped,
    fun h => hnot (hmanages 0 h), fun h => hnot (hmanages 1 h)⟩

end Goutils.Pexec
