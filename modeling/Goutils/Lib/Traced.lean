import Goutils.Lib.Machine

namespace Lib
set_option autoImplicit true

def Traced (ε τ α : Type) := List τ → List τ × Except ε α

namespace Traced

variable {ε τ α β γ : Type} {f : τ → Option γ}

instance : Monad (Traced ε τ) where
  pure a := fun trace => (trace, .ok a)
  bind x f := fun trace =>
    match x trace with
    | (trace', .ok a) => f a trace'
    | (trace', .error e) => (trace', .error e)

def fail (e : ε) : Traced ε τ α := fun trace => (trace, .error e)

def emit (t : τ) : Traced ε τ Unit := fun trace => (trace ++ [t], .ok ())

def ask (answer : List τ → Except ε α) : Traced ε τ α := fun trace => (trace, answer trace)

def outcome (x : Traced ε τ α) : Traced ε τ (Except ε α) :=
  fun trace => ((x trace).1, .ok (x trace).2)

/-- The computation ends with `a`, and what `f` picks of the entries that it adds is `l`. -/
def Yields (f : τ → Option γ) (l : List γ) (a : α) (x : Traced ε τ α) : Prop :=
  ∀ trace, ∃ added, x trace = (trace ++ added, .ok a) ∧ added.filterMap f = l

theorem Yields.filterMap_eq {x : Traced ε τ α} (h : Yields f l a x) :
    (x []).1.filterMap f = l := by
  obtain ⟨added, hrun, hl⟩ := h []
  rw [hrun]
  exact hl

theorem Yields.pure (a : α) : Yields f [] a (pure a : Traced ε τ α) :=
  fun trace => ⟨[], by rw [List.append_nil]; rfl, rfl⟩

theorem Yields.ask {answer : List τ → Except ε α} (h : ∀ trace, answer trace = .ok a) :
    Yields f [] a (ask answer) :=
  fun trace => ⟨[], by rw [List.append_nil, Traced.ask, h], rfl⟩

theorem Yields.emit (f : τ → Option γ) (t : τ) :
    Yields f (f t).toList () (emit t : Traced ε τ Unit) := by
  refine fun trace => ⟨[t], rfl, ?_⟩
  cases h : f t <;> simp [h]

theorem Yields.bind {x : Traced ε τ α} {g : α → Traced ε τ β} (hx : Yields f l a x)
    (hg : Yields f l' b (g a)) : Yields f (l ++ l') b (x >>= g) := by
  intro trace
  obtain ⟨added, hrun, rfl⟩ := hx trace
  obtain ⟨added', hrun', rfl⟩ := hg (trace ++ added)
  refine ⟨added ++ added', ?_, List.filterMap_append⟩
  rw [← List.append_assoc, ← hrun']
  simp only [Bind.bind, hrun]

theorem Yields.outcome {x : Traced ε τ α} (hx : Yields f l a x) :
    Yields f l (.ok a) x.outcome := by
  intro trace
  obtain ⟨added, hrun, hl⟩ := hx trace
  exact ⟨added, by rw [Traced.outcome, hrun], hl⟩

end Traced

end Lib
