import Mathlib

namespace Lib
set_option autoImplicit true

/-- A labelled machine. An action that is not enabled in a state gives no successor. -/
structure Machine (σ α : Type) where
  init : σ → Prop
  step : σ → α → Option σ

theorem exists_of_any {o : Option σ} {p : σ → Bool} (h : o.any p = true) :
    ∃ s, o = some s ∧ p s = true := by
  cases o with
  | none => cases h
  | some s => exact ⟨s, rfl, h⟩

namespace Machine

/-- The states of the runs all of whose steps satisfy the side condition `ok`. -/
inductive ReachableWith (M : Machine σ α) (ok : σ → α → Prop) : σ → Prop where
  | init : M.init s → ReachableWith M ok s
  | step : ReachableWith M ok s → ok s a → M.step s a = some s' → ReachableWith M ok s'

def Reachable (M : Machine σ α) : σ → Prop := M.ReachableWith fun _ _ => True

variable {M : Machine σ α} {ok : σ → α → Prop}

theorem ReachableWith.mono {ok' : σ → α → Prop} (h : M.ReachableWith ok s)
    (hok : ∀ s a, ok s a → ok' s a) : M.ReachableWith ok' s := by
  induction h with
  | init hi => exact .init hi
  | step hr ha hs ih => exact .step ih (hok _ _ ha) hs

theorem ReachableWith.reachable (h : M.ReachableWith ok s) : M.Reachable s :=
  h.mono fun _ _ _ => trivial

/-- An inductive invariant of the steps that a run may take holds in each of its states. -/
theorem ReachableWith.invariant {I : σ → Prop} (h : M.ReachableWith ok s)
    (hinit : ∀ s, M.init s → I s) (hstep : ∀ s a s', I s → ok s a → M.step s a = some s' → I s') :
    I s := by
  induction h with
  | init hi => exact hinit _ hi
  | step hr ha hs ih => exact hstep _ _ _ ih ha hs

theorem Reachable.invariant {I : σ → Prop} (h : M.Reachable s) (hinit : ∀ s, M.init s → I s)
    (hstep : ∀ s a s', I s → M.step s a = some s' → I s') : I s :=
  ReachableWith.invariant h hinit fun s a s' hI _ hs => hstep s a s' hI hs

def exec (M : Machine σ α) : σ → List α → Option σ
  | s, [] => some s
  | s, a :: as => (M.step s a).bind fun t => M.exec t as

def Allows (M : Machine σ α) (ok : σ → α → Prop) : σ → List α → Prop
  | _, [] => True
  | s, a :: as => ok s a ∧ ∀ t, M.step s a = some t → M.Allows ok t as

variable {as : List α}

theorem ReachableWith.exec (h : M.ReachableWith ok s) (ha : M.Allows ok s as)
    (he : M.exec s as = some s') : M.ReachableWith ok s' := by
  induction as generalizing s with
  | nil =>
    cases he
    exact h
  | cons a as ih =>
    obtain ⟨t, ht, he⟩ := Option.bind_eq_some_iff.1 he
    exact ih (.step h ha.1 ht) (ha.2 t ht) he

def execIf (M : Machine σ α) (ok : σ → α → Prop) [∀ s a, Decidable (ok s a)] :
    σ → List α → Option σ
  | s, [] => some s
  | s, a :: as => if ok s a then (M.step s a).bind fun t => M.execIf ok t as else none

theorem ReachableWith.execIf [∀ s a, Decidable (ok s a)] (h : M.ReachableWith ok s)
    (he : M.execIf ok s as = some s') : M.ReachableWith ok s' := by
  induction as generalizing s with
  | nil =>
    cases he
    exact h
  | cons a as ih =>
    simp only [Machine.execIf] at he
    split at he
    · obtain ⟨t, ht, he⟩ := Option.bind_eq_some_iff.1 he
      exact ih (.step h ‹_› ht) he
    · cases he

def CanReach (M : Machine σ α) (ok : σ → α → Prop) (P : σ → Prop) (s : σ) : Prop :=
  ∃ as s', M.exec s as = some s' ∧ M.Allows ok s as ∧ P s'

theorem CanReach.head {P : σ → Prop} (h : M.CanReach ok P s') (ha : ok s a)
    (hs : M.step s a = some s') : M.CanReach ok P s := by
  obtain ⟨as, t, he, hall, hP⟩ := h
  refine ⟨a :: as, t, ?_, ⟨ha, ?_⟩, hP⟩
  · simp only [exec, hs, Option.bind_some, he]
  · intro u hu
    rw [hs] at hu
    cases hu
    exact hall

theorem CanReach.refl {P : σ → Prop} (h : P s) : M.CanReach ok P s :=
  ⟨[], s, rfl, trivial, h⟩

theorem CanReach.imp {P Q : σ → Prop} (h : M.CanReach ok P s) (hPQ : ∀ s, P s → Q s) :
    M.CanReach ok Q s := by
  obtain ⟨as, s', he, ha, hP⟩ := h
  exact ⟨as, s', he, ha, hPQ s' hP⟩

/-- If some allowed step lowers a measure wherever `P` does not hold yet, `P` can be reached. -/
theorem CanReach.of_measure {I P : σ → Prop} (μ : σ → Nat)
    (hstep : ∀ s a s', I s → ok s a → M.step s a = some s' → I s')
    (hdown : ∀ s, I s → ¬ P s → ∃ a s', ok s a ∧ M.step s a = some s' ∧ μ s' < μ s) (h : I s) :
    M.CanReach ok P s := by
  induction hn : μ s using Nat.strong_induction_on generalizing s with
  | _ n ih =>
    by_cases hP : P s
    · exact .refl hP
    · obtain ⟨a, s', ha, hs, hlt⟩ := hdown s h hP
      exact (ih (μ s') (hn ▸ hlt) (hstep s a s' h ha hs) rfl).head ha hs

/-- If every allowed step lowers a measure, it bounds the length of the runs of allowed steps. -/
theorem length_le_of_measure {I : σ → Prop} (μ : σ → Nat)
    (hstep : ∀ s a s', I s → ok s a → M.step s a = some s' → I s' ∧ μ s' < μ s) (h : I s)
    (ha : M.Allows ok s as) (he : M.exec s as = some s') : as.length ≤ μ s := by
  induction as generalizing s with
  | nil => exact Nat.zero_le _
  | cons a as ih =>
    obtain ⟨t, ht, he⟩ := Option.bind_eq_some_iff.1 he
    obtain ⟨hI, hlt⟩ := hstep s a t h ha.1 ht
    have hle := ih hI (ha.2 t ht) he
    exact Nat.succ_le_of_lt (Nat.lt_of_le_of_lt hle hlt)

theorem allows_of_forall (h : ∀ a ∈ as, ∀ s, ok s a) (s : σ) : M.Allows ok s as := by
  induction as generalizing s with
  | nil => trivial
  | cons a as ih =>
    refine ⟨h a List.mem_cons_self s, fun t _ => ?_⟩
    exact ih (fun b hb => h b (List.mem_cons_of_mem a hb)) t

theorem allows_true (M : Machine σ α) (s : σ) (as : List α) :
    M.Allows (fun _ _ => True) s as :=
  allows_of_forall (fun _ _ _ => trivial) s

theorem reachable_exec (hi : M.init s) (he : M.exec s as = some s') : M.Reachable s' :=
  (ReachableWith.init hi).exec (M.allows_true s as) he

theorem exists_reachableWith (M : Machine σ α) (ok : σ → α → Prop)
    [∀ s a, Decidable (ok s a)] (s : σ) (as : List α) (hi : M.init s) {p : σ → Prop}
    [DecidablePred p] (h : (M.execIf ok s as).any (fun t => decide (p t)) = true) :
    ∃ t, M.ReachableWith ok t ∧ p t := by
  obtain ⟨t, ht, hp⟩ := exists_of_any h
  exact ⟨t, .execIf (.init hi) ht, of_decide_eq_true hp⟩

theorem exists_reachable (M : Machine σ α) (s : σ) (as : List α) (hi : M.init s)
    {p : σ → Prop} [DecidablePred p] (h : (M.exec s as).any (fun t => decide (p t)) = true) :
    ∃ t, M.Reachable t ∧ p t := by
  obtain ⟨t, ht, hp⟩ := exists_of_any h
  exact ⟨t, reachable_exec hi ht, of_decide_eq_true hp⟩

end Machine

/-- A goroutine that runs alone, for at most the given number of its steps. -/
def drive (step : σ → π → Option (σ × π)) : Nat → σ → π → σ × π
  | 0, s, pc => (s, pc)
  | n + 1, s, pc =>
    match step s pc with
    | none => (s, pc)
    | some (s', pc') => drive step n s' pc'

def outputs (step : σ → α → σ × β) : σ → List α → List β
  | _, [] => []
  | s, a :: as => (step s a).2 :: outputs step (step s a).1 as

theorem outputs_eq {f : σ → α → σ × β} {g : τ → α → τ × β} {R : σ → τ → Prop}
    (hstep : ∀ s t a, R s t → (f s a).2 = (g t a).2 ∧ R (f s a).1 (g t a).1) (h : R s t)
    (as : List α) : outputs f s as = outputs g t as := by
  induction as generalizing s t with
  | nil => rfl
  | cons a as ih =>
    obtain ⟨hout, hR⟩ := hstep s t a h
    rw [outputs, outputs, hout, ih hR]

end Lib
