import Mathlib.Logic.Basic

namespace Lib
set_option autoImplicit true

/-- Computations that change a state and may fail. A failure keeps the changes made before it. -/
def Stateful (σ ε α : Type) : Type := σ → σ × Except ε α

namespace Stateful

variable {σ ε α β : Type}

def bind (m : Stateful σ ε α) (f : α → Stateful σ ε β) : Stateful σ ε β := fun s =>
  match m s with
  | (s', .ok a) => f a s'
  | (s', .error e) => (s', .error e)

instance : Monad (Stateful σ ε) where
  pure a := fun s => (s, .ok a)
  bind := bind

def fail (e : ε) : Stateful σ ε α := fun s => (s, .error e)

def get : Stateful σ ε σ := fun s => (s, .ok s)

def modify (f : σ → σ) : Stateful σ ε Unit := fun s => (f s, .ok ())

def mapError (f : ε → ε) (m : Stateful σ ε α) : Stateful σ ε α := fun s =>
  match m s with
  | (s', .error e) => (s', .error (f e))
  | (s', .ok a) => (s', .ok a)

def Outcome (Q : α → σ → Prop) (E : σ → Prop) : σ × Except ε α → Prop
  | (s, .ok a) => Q a s
  | (s, .error _) => E s

/-- From a state with `P` the computation gets to a state with `Q`, or fails in one with `E`. -/
def Triple (P : σ → Prop) (m : Stateful σ ε α) (Q : α → σ → Prop) (E : σ → Prop) : Prop :=
  ∀ s, P s → Outcome Q E (m s)

variable {m : Stateful σ ε α}

namespace Triple

variable {P P' E E' : σ → Prop} {Q Q' : α → σ → Prop} {R : β → σ → Prop}

theorem pure (h : ∀ s, P s → Q a s) : Triple P (Pure.pure a : Stateful σ ε α) Q E := h

theorem fail {e : ε} (h : ∀ s, P s → E s) : Triple P (Stateful.fail e : Stateful σ ε α) Q E := h

theorem modify {f : σ → σ} {Q : Unit → σ → Prop} (h : ∀ s, P s → Q () (f s)) :
    Triple P (Stateful.modify f : Stateful σ ε Unit) Q E := h

theorem bind {f : α → Stateful σ ε β} (hm : Triple P m Q E) (hf : ∀ a, Triple (Q a) (f a) R E) :
    Triple P (m >>= f) R E := by
  intro s hs
  change Outcome R E (Stateful.bind m f s)
  unfold Stateful.bind
  have h := hm s hs
  revert h
  rcases m s with ⟨s', e | a⟩ <;> intro h
  · exact h
  · exact hf a s' h

theorem get_bind {f : σ → Stateful σ ε β} (hf : ∀ s₀, P s₀ → Triple (· = s₀) (f s₀) R E) :
    Triple P (Stateful.get >>= f) R E := fun s hs => hf s hs s rfl

theorem of_forall (h : ∀ s₀, P s₀ → Triple (· = s₀) m Q E) :
    Triple P m Q E := fun s hs => h s hs s rfl

theorem pre (h : Triple P m Q E) (hP : ∀ s, P' s → P s) : Triple P' m Q E :=
  fun s hs => h s (hP s hs)

theorem imp (h : Triple P m Q E) (hQ : ∀ a s, Q a s → Q' a s) (hE : ∀ s, E s → E' s) :
    Triple P m Q' E' := by
  intro s hs
  have h := h s hs
  revert h
  rcases m s with ⟨s', e | a⟩ <;> intro h
  · exact hE s' h
  · exact hQ a s' h

theorem post (h : Triple P m Q E) (hQ : ∀ a s, Q a s → Q' a s) : Triple P m Q' E :=
  h.imp hQ fun _ h => h

theorem error (h : Triple P m Q E) (hE : ∀ s, E s → E' s) : Triple P m Q E' :=
  h.imp (fun _ _ h => h) hE

theorem and (h : Triple P m Q E) (h' : Triple P m Q' E') :
    Triple P m (fun a s => Q a s ∧ Q' a s) (fun s => E s ∧ E' s) := by
  intro s hs
  have h := And.intro (h s hs) (h' s hs)
  revert h
  rcases m s with ⟨s', e | a⟩ <;> intro h
  · exact h
  · exact h

theorem mapError (hm : Triple P m Q E) (f : ε → ε) : Triple P (m.mapError f) Q E := by
  intro s hs
  unfold Stateful.mapError
  have h := hm s hs
  revert h
  rcases m s with ⟨s', e | a⟩ <;> intro h
  · exact h
  · exact h

theorem run (h : Triple P m Q fun _ => False) (hs : P s) : ∃ a s', m s = (s', .ok a) ∧ Q a s' := by
  have h := h s hs
  revert h
  rcases m s with ⟨s', e | a⟩ <;> intro h
  · exact h.elim
  · exact ⟨a, s', rfl, h⟩

theorem ok (h : Triple P m Q E) (hs : P s) (hm : m s = (s', .ok a)) : Q a s' := by
  have h := h s hs
  rw [hm] at h
  exact h

end Triple

def Keeps (I : σ → Prop) (m : Stateful σ ε α) : Prop := Triple I m (fun _ => I) I

namespace Keeps

variable {I : σ → Prop}

theorem pure {a : α} : Keeps I (Pure.pure a : Stateful σ ε α) := fun _ h => h

theorem fail {e : ε} : Keeps I (Stateful.fail e : Stateful σ ε α) := fun _ h => h

theorem modify {f : σ → σ} (h : ∀ s, I s → I (f s)) :
    Keeps I (Stateful.modify f : Stateful σ ε Unit) := h

theorem bind {f : α → Stateful σ ε β} (hm : Keeps I m) (hf : ∀ a, Keeps I (f a)) :
    Keeps I (m >>= f) := Triple.bind hm hf

theorem get_bind {f : σ → Stateful σ ε β} (hf : ∀ s, I s → Keeps I (f s)) :
    Keeps I (Stateful.get >>= f) := fun s hs => hf s hs s hs

theorem mapError (hm : Keeps I m) (f : ε → ε) : Keeps I (m.mapError f) :=
  Triple.mapError hm f

theorem orFails (h : Keeps I m) : Triple I m (fun _ => I) fun _ => True :=
  h.error fun _ _ => trivial

theorem state (h : Keeps I m) (hs : I s) : I (m s).1 := by
  have h := h s hs
  revert h
  rcases m s with ⟨s', e | a⟩ <;> intro h
  · exact h
  · exact h

end Keeps

end Stateful

end Lib
