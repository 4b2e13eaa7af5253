import Goutils.Lib.Machine

namespace Lib
set_option autoImplicit true

/-- A channel of a fixed capacity. Sending on a closed channel and closing it again panic. -/
structure Chan (α : Type) where
  cap : Nat
  buf : List α := []
  closed : Bool := false
  sent : List α := []
  panicked : Bool := false

namespace Chan

def canSend (c : Chan α) : Bool := c.closed || decide (c.buf.length < c.cap)

def send (c : Chan α) (a : α) : Chan α :=
  if c.closed then { c with panicked := true }
  else { c with buf := c.buf ++ [a], sent := c.sent ++ [a] }

def close (c : Chan α) : Chan α :=
  if c.closed then { c with panicked := true } else { c with closed := true }

def pop (c : Chan α) : Chan α := { c with buf := c.buf.tail }

variable {α : Type} (c : Chan α)

@[simp] theorem send_closed (a : α) : (c.send a).closed = c.closed := by
  unfold send
  split <;> rfl

@[simp] theorem send_cap (a : α) : (c.send a).cap = c.cap := by
  unfold send
  split <;> rfl

@[simp] theorem close_closed : c.close.closed = true := by
  unfold close
  split
  · assumption
  · rfl

@[simp] theorem close_buf : c.close.buf = c.buf := by
  unfold close
  split <;> rfl

@[simp] theorem close_cap : c.close.cap = c.cap := by
  unfold close
  split <;> rfl

@[simp] theorem close_sent : c.close.sent = c.sent := by
  unfold close
  split <;> rfl

@[simp] theorem pop_closed : c.pop.closed = c.closed := rfl
@[simp] theorem pop_cap : c.pop.cap = c.cap := rfl
@[simp] theorem pop_sent : c.pop.sent = c.sent := rfl
@[simp] theorem pop_panicked : c.pop.panicked = c.panicked := rfl

@[simp] theorem canSend_close : c.close.canSend = true := by
  simp only [canSend, close_closed, Bool.true_or]

variable {c}

theorem exists_of_full (hcap : 0 < c.cap) (h : c.canSend = false) :
    ∃ a rest, c.buf = a :: rest := by
  cases hb : c.buf with
  | nil => simp [canSend, hb, hcap] at h
  | cons a rest => exact ⟨a, rest, rfl⟩

theorem send_open (h : c.closed = false) (a : α) :
    c.send a = { c with buf := c.buf ++ [a], sent := c.sent ++ [a] } := by
  simp only [send, h, Bool.false_eq_true, ↓reduceIte]

theorem send_sent_ne_nil (h : c.closed = false) (a : α) : (c.send a).sent ≠ [] := by
  rw [send_open h]
  exact List.concat_ne_nil a c.sent

theorem close_open (h : c.closed = false) : c.close = { c with closed := true } := by
  simp only [close, h, Bool.false_eq_true, ↓reduceIte]

end Chan

/-- A reader-writer lock that remembers which goroutines hold it. -/
structure RWMutex (τ : Type) where
  writer : Option τ := none
  readers : List τ := []

namespace RWMutex

def canLock (m : RWMutex τ) : Bool := m.writer.isNone && m.readers.isEmpty

/-- Unlike with `sync.RWMutex` a reader may pass a waiting `Lock`, which only adds runs. -/
def canRLock (m : RWMutex τ) : Bool := m.writer.isNone

def lock (m : RWMutex τ) (t : τ) : RWMutex τ := { m with writer := some t }

def unlock (m : RWMutex τ) : RWMutex τ := { m with writer := none }

def rlock (m : RWMutex τ) (t : τ) : RWMutex τ := { m with readers := t :: m.readers }

def runlock [DecidableEq τ] (m : RWMutex τ) (t : τ) : RWMutex τ :=
  { m with readers := m.readers.erase t }

def Holds (m : RWMutex τ) (t : τ) : Prop := m.writer = some t ∨ t ∈ m.readers

variable {τ : Type} (m : RWMutex τ)

theorem canLock_iff : m.canLock = true ↔ m.writer = none ∧ m.readers = [] := by
  simp only [canLock, Bool.and_eq_true, Option.isNone_iff_eq_none, List.isEmpty_iff]

theorem canRLock_iff : m.canRLock = true ↔ m.writer = none :=
  Option.isNone_iff_eq_none

variable {m} in
theorem canRLock_of_canLock (h : m.canLock = true) : m.canRLock = true :=
  (canRLock_iff m).2 ((canLock_iff m).1 h).1

@[simp] theorem lock_writer (t : τ) : (m.lock t).writer = some t := rfl
@[simp] theorem lock_readers (t : τ) : (m.lock t).readers = m.readers := rfl
@[simp] theorem unlock_writer : m.unlock.writer = none := rfl
@[simp] theorem unlock_readers : m.unlock.readers = m.readers := rfl
@[simp] theorem rlock_writer (t : τ) : (m.rlock t).writer = m.writer := rfl
@[simp] theorem rlock_readers (t : τ) : (m.rlock t).readers = t :: m.readers := rfl
@[simp] theorem runlock_writer [DecidableEq τ] (t : τ) : (m.runlock t).writer = m.writer := rfl
@[simp] theorem runlock_readers [DecidableEq τ] (t : τ) :
    (m.runlock t).readers = m.readers.erase t := rfl

end RWMutex

/-- How a goroutine holds a reader-writer lock. -/
inductive LockMode where
  | free
  | read
  | write
  deriving DecidableEq

/-- What a step of a goroutine does to a lock and to the mode in which the goroutine holds it. -/
inductive LockStep [DecidableEq τ] (me : τ) (m : RWMutex τ) :
    LockMode → RWMutex τ → LockMode → Prop where
  | keep : LockStep me m k m k
  | lock : m.canLock = true → LockStep me m .free (m.lock me) .write
  | unlock : LockStep me m .write m.unlock .free
  | rlock : m.canRLock = true → LockStep me m .free (m.rlock me) .read
  | runlock : LockStep me m .read (m.runlock me) .free

def RWMutex.release [DecidableEq τ] (m : RWMutex τ) (me : τ) : LockMode → RWMutex τ
  | .free => m
  | .read => m.runlock me
  | .write => m.unlock

theorem LockStep.release [DecidableEq τ] {m : RWMutex τ} {me : τ} {k : LockMode} :
    LockStep me m k (m.release me k) .free := by
  cases k with
  | free => exact .keep
  | read => exact .runlock
  | write => exact .unlock

structure RWMutex.Owned (m : RWMutex τ) (mode : τ → LockMode) : Prop where
  writer : ∀ t, m.writer = some t ↔ mode t = .write
  readers : ∀ t, t ∈ m.readers ↔ mode t = .read
  nodup : m.readers.Nodup
  excl : m.writer = none ∨ m.readers = []

namespace RWMutex.Owned

theorem free {m : RWMutex τ} {mode : τ → LockMode} (h : m.Owned mode)
    (hm : ∀ t, mode t = .free) : m.canLock = true := by
  rw [canLock_iff]
  constructor
  · rw [Option.eq_none_iff_forall_ne_some]
    intro t ht
    simpa [hm t] using (h.writer t).1 ht
  · rw [List.eq_nil_iff_forall_not_mem]
    intro t ht
    simpa [hm t] using (h.readers t).1 ht

theorem free_of_canLock {m : RWMutex τ} {mode : τ → LockMode} (h : m.Owned mode)
    (hm : m.canLock = true) (t : τ) : mode t = .free := by
  obtain ⟨hw, hr⟩ := (canLock_iff m).1 hm
  cases hk : mode t with
  | free => rfl
  | read => simpa [hr] using (h.readers t).2 hk
  | write => simpa [hw] using (h.writer t).2 hk

theorem step [DecidableEq τ] {m m' : RWMutex τ} {mode : τ → LockMode} (h : m.Owned mode)
    (hs : LockStep me m (mode me) m' k) : m'.Owned (Function.update mode me k) := by
  generalize hk : mode me = k₀ at hs
  cases hs with
  | keep =>
    rw [← hk, Function.update_eq_self]
    exact h
  | lock hm =>
    have hfree := h.free_of_canLock hm
    obtain ⟨_, hr⟩ := (canLock_iff m).1 hm
    refine ⟨?_, ?_, h.nodup, .inr hr⟩
    · intro t
      by_cases ht : t = me
      · subst ht
        simp
      · simp [Function.update_of_ne ht, hfree t, Ne.symm ht]
    · intro t
      by_cases ht : t = me
      · subst ht
        simp [hr]
      · simp [Function.update_of_ne ht, hfree t, hr]
  | unlock =>
    have hw := (h.writer me).2 hk
    refine ⟨?_, ?_, h.nodup, .inl rfl⟩
    · intro t
      by_cases ht : t = me
      · subst ht
        simp
      · have : mode t ≠ .write := fun hm => ht (Option.some.inj (((h.writer t).2 hm).symm.trans hw))
        simp [Function.update_of_ne ht, this]
    · intro t
      by_cases ht : t = me
      · subst ht
        have := (h.readers t).not.2 (by rw [hk]; decide)
        simpa using this
      · simpa [Function.update_of_ne ht] using h.readers t
  | rlock hm =>
    have hw := (canRLock_iff m).1 hm
    refine ⟨?_, ?_, List.nodup_cons.2 ⟨(h.readers me).not.2 (by rw [hk]; decide), h.nodup⟩, .inl hw⟩
    · intro t
      by_cases ht : t = me
      · subst ht
        simp [hw]
      · simpa [Function.update_of_ne ht] using h.writer t
    · intro t
      by_cases ht : t = me
      · subst ht
        simp
      · simpa [Function.update_of_ne ht, ht] using h.readers t
  | runlock =>
    have hr := (h.readers me).2 hk
    have hw : m.writer = none := h.excl.resolve_right (List.ne_nil_of_mem hr)
    refine ⟨?_, ?_, h.nodup.erase me, .inl hw⟩
    · intro t
      by_cases ht : t = me
      · subst ht
        simp [hw]
      · simpa [Function.update_of_ne ht] using h.writer t
    · intro t
      by_cases ht : t = me
      · subst ht
        simpa using h.nodup.not_mem_erase
      · simpa [Function.update_of_ne ht, List.mem_erase_of_ne ht] using h.readers t

end RWMutex.Owned

section

variable {α β : Type*} {l : List α} {i j : Nat} {a b : α}

theorem countP_move (h : l[i]? = some b) (a : α) (p : α → Bool) :
    (l.set i a).countP p + (if p b then 1 else 0) = l.countP p + if p a then 1 else 0 := by
  obtain ⟨hi, hb⟩ := List.getElem?_eq_some_iff.1 h
  have hpos : (if p b then 1 else 0) ≤ l.countP p := by
    split
    · rename_i hp
      exact List.countP_pos_iff.2 ⟨b, hb ▸ List.getElem_mem hi, hp⟩
    · exact Nat.zero_le _
  rw [List.countP_set hi, hb]
  omega

theorem sum_move (h : l[i]? = some b) (a : α) (f : α → Nat) :
    ((l.set i a).map f).sum + f b = (l.map f).sum + f a := by
  induction l generalizing i with
  | nil => cases h
  | cons x l ih =>
    cases i with
    | zero =>
      cases h
      simp only [List.set_cons_zero, List.map_cons, List.sum_cons]
      omega
    | succ i =>
      have := ih h
      simp only [List.set_cons_succ, List.map_cons, List.sum_cons]
      omega

theorem map_set_same (h : l[i]? = some b) (f : α → β) (hf : f a = f b) :
    (l.set i a).map f = l.map f := by
  apply List.ext_getElem?
  intro j
  rw [List.getElem?_map, List.getElem?_map, List.getElem?_set]
  split
  · rename_i hj
    subst hj
    simp only [h, (List.getElem?_eq_some_iff.1 h).1, ↓reduceIte, Option.map_some, hf]
  · rfl

theorem index_unique {f : α → β} (hn : (l.map f).Nodup) (hi : l[i]? = some a) (hj : l[j]? = some b)
    (hf : f a = f b) : i = j := by
  refine (List.getElem?_inj ?_ hn).1 ?_
  · rw [List.length_map]
    exact (List.getElem?_eq_some_iff.1 hi).1
  · rw [List.getElem?_map, List.getElem?_map, hi, hj, Option.map_some, Option.map_some, hf]

theorem getElem?_set_cases (h : (l.set i a)[j]? = some b) :
    j = i ∧ b = a ∨ j ≠ i ∧ l[j]? = some b := by
  rw [List.getElem?_set] at h
  by_cases hij : i = j
  · rw [if_pos hij] at h
    split at h
    · exact .inl ⟨hij.symm, (Option.some.inj h).symm⟩
    · cases h
  · rw [if_neg hij] at h
    exact .inr ⟨Ne.symm hij, h⟩

theorem getElem?_concat_cases (h : (l ++ [a])[j]? = some b) :
    l[j]? = some b ∨ j = l.length ∧ b = a := by
  by_cases hj : j < l.length
  · rw [List.getElem?_append_left hj] at h
    exact .inl h
  · rw [List.getElem?_append_right (Nat.le_of_not_lt hj), List.getElem?_singleton] at h
    split at h
    · exact .inr ⟨by omega, (Option.some.inj h).symm⟩
    · cases h

theorem getElem?_modify_cases {f : α → α} (h : (l.modify i f)[j]? = some b) :
    j = i ∧ (∃ a, l[i]? = some a ∧ b = f a) ∨ j ≠ i ∧ l[j]? = some b := by
  rw [List.getElem?_modify] at h
  obtain ⟨a, ha, rfl⟩ := Option.map_eq_some_iff.1 h
  by_cases hij : i = j
  · subst hij
    exact .inl ⟨rfl, a, ha, if_pos rfl⟩
  · rw [if_neg hij]
    exact .inr ⟨Ne.symm hij, ha⟩

def At (l : List α) (i : Nat) (P : α → Prop) : Prop := ∃ a, l[i]? = some a ∧ P a

namespace At

variable {P Q : α → Prop}

theorem imp (h : At l i P) (hPQ : ∀ a, P a → Q a) : At l i Q := by
  obtain ⟨a, ha, hP⟩ := h
  exact ⟨a, ha, hPQ a hP⟩

theorem append (h : At l i P) (l' : List α) : At (l ++ l') i P := by
  obtain ⟨a, ha, hP⟩ := h
  refine ⟨a, ?_, hP⟩
  rw [List.getElem?_append_left (List.getElem?_eq_some_iff.1 ha).1]
  exact ha

theorem modify (h : At l i P) (j : Nat) {f : α → α} (hf : ∀ a, P a → P (f a)) :
    At (l.modify j f) i P := by
  obtain ⟨a, ha, hP⟩ := h
  refine ⟨if j = i then f a else a, ?_, ?_⟩
  · rw [List.getElem?_modify, ha]
    split <;> rfl
  · split
    · exact hf a hP
    · exact hP

theorem modify_ne (h : At l i P) {f : α → α} (hij : j ≠ i) : At (l.modify j f) i P := by
  obtain ⟨a, ha, hP⟩ := h
  refine ⟨a, ?_, hP⟩
  rw [List.getElem?_modify, ha]
  exact congrArg some (if_neg hij)

theorem modify_self (h : At l i P) {f : α → α} (hf : ∀ a, P a → Q (f a)) :
    At (l.modify i f) i Q := by
  obtain ⟨a, ha, hP⟩ := h
  refine ⟨f a, ?_, hf a hP⟩
  rw [List.getElem?_modify_eq, ha]
  rfl

theorem set_iff (h : l[i]? = some b) (hP : P a ↔ P b) : At (l.set i a) j P ↔ At l j P := by
  constructor
  · rintro ⟨x, hx, hPx⟩
    rcases getElem?_set_cases hx with ⟨rfl, rfl⟩ | ⟨_, hx⟩
    · exact ⟨b, h, hP.1 hPx⟩
    · exact ⟨x, hx, hPx⟩
  · rintro ⟨x, hx, hPx⟩
    by_cases hij : i = j
    · subst hij
      rw [h] at hx
      cases hx
      exact ⟨a, List.getElem?_set_self (List.getElem?_eq_some_iff.1 h).1, hP.2 hPx⟩
    · exact ⟨x, by rwa [List.getElem?_set_ne hij], hPx⟩

theorem set_drop (hP : ¬ P a) : At (l.set i a) j P ↔ At l j P ∧ j ≠ i := by
  constructor
  · rintro ⟨x, hx, hPx⟩
    rcases getElem?_set_cases hx with ⟨-, rfl⟩ | ⟨hji, hx⟩
    · exact absurd hPx hP
    · exact ⟨⟨x, hx, hPx⟩, hji⟩
  · rintro ⟨⟨x, hx, hPx⟩, hji⟩
    exact ⟨x, by rwa [List.getElem?_set_ne (Ne.symm hji)], hPx⟩

theorem concat : At (l ++ [a]) j P ↔ At l j P ∨ P a ∧ j = l.length := by
  constructor
  · rintro ⟨x, hx, hPx⟩
    rcases getElem?_concat_cases hx with hx | ⟨hj, rfl⟩
    · exact .inl ⟨x, hx, hPx⟩
    · exact .inr ⟨hPx, hj⟩
  · rintro (h | ⟨hP, rfl⟩)
    · exact h.append [a]
    · exact ⟨a, List.getElem?_concat_length, hP⟩

theorem concat_iff (hP : ¬ P a) : At (l ++ [a]) j P ↔ At l j P :=
  concat.trans (or_iff_left fun h => hP h.1)

theorem ne (h : At l i P) (h' : At l j Q) (hPQ : ∀ a, P a → ¬ Q a) : i ≠ j := by
  rintro rfl
  obtain ⟨a, ha, hP⟩ := h
  obtain ⟨b, hb, hQ⟩ := h'
  rw [ha] at hb
  cases hb
  exact hPQ a hP hQ

end At

end

section Indices

variable {α : Type} {l : List α} {ks : List Nat} {p : α → Prop} [DecidablePred p]

theorem indices_perm (hn : ks.Nodup) (hmem : ∀ k, k ∈ ks ↔ At l k p) :
    ks.Perm ((l.zipIdx.filter fun x => p x.1).map Prod.snd) := by
  have hnodup : (l.zipIdx.map Prod.snd).Nodup := by
    rw [List.zipIdx_map_snd]
    exact List.nodup_range'
  rw [List.perm_ext_iff_of_nodup hn (hnodup.sublist (List.filter_sublist.map _))]
  intro k
  rw [hmem]
  simp only [At, List.mem_map, List.mem_filter, decide_eq_true_eq, Prod.exists,
    List.mk_mem_zipIdx_iff_getElem?, exists_eq_right]

theorem filter_zipIdx (l : List α) (p : α → Prop) [DecidablePred p] :
    (l.zipIdx.filter fun x => p x.1).map Prod.fst = l.filter p := by
  nth_rewrite 2 [← List.zipIdx_map_fst 0 l]
  rw [List.filter_map]
  rfl

theorem length_of_indices (hn : ks.Nodup) (hmem : ∀ k, k ∈ ks ↔ At l k p) :
    ks.length = (l.filter p).length := by
  rw [(indices_perm hn hmem).length_eq, List.length_map, ← filter_zipIdx l p, List.length_map]

theorem elements_perm (hn : ks.Nodup) (hmem : ∀ k, k ∈ ks ↔ At l k p) :
    (ks.filterMap (l[·]?)).Perm (l.filter p) := by
  refine ((indices_perm hn hmem).filterMap _).trans (.of_eq ?_)
  have hget : ∀ x ∈ l.zipIdx.filter fun x => p x.1, ((l[·]?) ∘ Prod.snd) x = some x.1 :=
    fun x hx => List.mem_zipIdx_iff_getElem?.1 (List.mem_of_mem_filter hx)
  rw [List.filterMap_map, List.filterMap_congr hget, List.filterMap_eq_map', filter_zipIdx]

end Indices

def Forces (P Q : α → Prop) (l : List α) : Prop := ∀ a ∈ l, P a → ∀ b ∈ l, Q b

namespace Forces

variable {P Q : α → Prop} {l : List α} {a b : α}

theorem set (h : Forces P Q l) (hb : l[i]? = some b) (hmoved : ∀ x ∈ l, P x → Q b → Q a)
    (hnew : P a → P b ∨ Q a ∧ ∀ x ∈ l, Q x) : Forces P Q (l.set i a) := by
  have hmem : b ∈ l := List.mem_of_getElem? hb
  have hold {x : α} (hx : x ∈ l) (hP : P x) : ∀ y ∈ l.set i a, Q y := by
    intro y hy
    rcases List.mem_or_eq_of_mem_set hy with hy | rfl
    · exact h x hx hP y hy
    · exact hmoved x hx hP (h x hx hP b hmem)
  intro x hx hP
  rcases List.mem_or_eq_of_mem_set hx with hx | rfl
  · exact hold hx hP
  · rcases hnew hP with hP | ⟨hQ, hall⟩
    · exact hold hmem hP
    · intro y hy
      rcases List.mem_or_eq_of_mem_set hy with hy | rfl
      · exact hall y hy
      · exact hQ

theorem concat (h : Forces P Q l) (hP : ¬ P a) (hQ : Q a) : Forces P Q (l ++ [a]) := by
  have hmem {x : α} (hx : x ∈ l ++ [a]) : x ∈ l ∨ x = a := by
    rcases List.mem_append.1 hx with hx | hx
    · exact .inl hx
    · exact .inr (List.mem_singleton.1 hx)
  intro x hx hPx y hy
  rcases hmem hx with hx | rfl
  · rcases hmem hy with hy | rfl
    · exact h x hx hPx y hy
    · exact hQ
  · exact absurd hPx hP

end Forces

def Precedes (a b : α) (l : List α) : Prop := ∀ pre post, l = pre ++ b :: post → a ∈ pre

theorem Precedes.of_not_mem {l : List α} (h : b ∉ l) : Precedes a b l := by
  rintro pre post rfl
  exact absurd (List.mem_append_right pre List.mem_cons_self) h

theorem Precedes.append {l l' : List α} (h : Precedes a b l) (hb : b ∈ l' → a ∈ l) :
    Precedes a b (l ++ l') := by
  intro pre post heq
  rcases List.append_eq_append_iff.1 heq with ⟨as, rfl, hl'⟩ | ⟨bs, hl, hbs⟩
  · have hmem : b ∈ l' := by
      rw [hl']
      exact List.mem_append_right as List.mem_cons_self
    exact List.mem_append_left as (hb hmem)
  · cases bs with
    | nil =>
      have hmem : b ∈ l' := by
        rw [← List.nil_append l', ← hbs]
        exact List.mem_cons_self
      rw [List.append_nil] at hl
      exact hl ▸ hb hmem
    | cons c bs =>
      cases hbs
      exact h pre bs hl

/-- What a step of a goroutine does to a plain lock, and whether the goroutine holds it before and
after the step. -/
inductive MutexStep (me : τ) (mu : Option τ) : Bool → Option τ → Bool → Prop where
  | keep : MutexStep me mu b mu b
  | lock : mu = none → MutexStep me mu false (some me) true
  | unlock : MutexStep me mu true none false

def MutexOwned (mu : Option τ) (held : τ → Bool) : Prop := ∀ t, mu = some t ↔ held t = true

namespace MutexOwned

theorem unique {mu : Option τ} {held : τ → Bool} (h : MutexOwned mu held) (ht : held t = true)
    (ht' : held t' = true) : t = t' :=
  Option.some.inj (((h t).2 ht).symm.trans ((h t').2 ht'))

theorem step [DecidableEq τ] {mu mu' : Option τ} {held : τ → Bool} (h : MutexOwned mu held)
    (hs : MutexStep me mu (held me) mu' b) : MutexOwned mu' (Function.update held me b) := by
  generalize hb : held me = b₀ at hs
  intro t
  cases hs with
  | keep =>
    rw [← hb, Function.update_eq_self]
    exact h t
  | lock hmu =>
    by_cases ht : t = me
    · subst ht
      simp
    · have hfree : held t = false := by
        rw [← Bool.not_eq_true, ← h t, hmu]
        simp
      simp [Function.update_of_ne ht, hfree, Ne.symm ht]
  | unlock =>
    by_cases ht : t = me
    · subst ht
      simp
    · have hfree : held t = false := by
        rw [← Bool.not_eq_true]
        exact fun hheld => ht (h.unique hheld hb)
      simp [Function.update_of_ne ht, hfree]

end MutexOwned

section

variable {α β : Type*} {l : List α} {i : Nat} {a b : α}

theorem getD_map_set (h : l[i]? = some b) (a : α) (f : α → β) (d : β) :
    (fun j : Nat => ((l.set i a)[j]?.map f).getD d) =
      Function.update (fun j : Nat => (l[j]?.map f).getD d) i (f a) := by
  funext j
  have hi := (List.getElem?_eq_some_iff.1 h).1
  by_cases hj : j = i
  · subst hj
    rw [Function.update_self, List.getElem?_set_self hi, Option.map_some, Option.getD_some]
  · rw [Function.update_of_ne hj, List.getElem?_set_ne (Ne.symm hj)]

theorem getD_map_append {l l' : List α} {f : α → β} {d : β} (h : ∀ a ∈ l', f a = d) :
    (fun j : Nat => ((l ++ l')[j]?.map f).getD d) = fun j => (l[j]?.map f).getD d := by
  funext j
  by_cases hj : j < l.length
  · rw [List.getElem?_append_left hj]
  · have hlen : l.length ≤ j := Nat.le_of_not_lt hj
    rw [List.getElem?_append_right hlen, List.getElem?_eq_none hlen]
    cases hget : l'[j - l.length]? with
    | none => rfl
    | some a => exact h a (List.mem_of_getElem? hget)

def modeAt (l : List α) (f : α → LockMode) (i : Nat) : LockMode := (l[i]?.map f).getD .free

theorem modeAt_eq (h : l[i]? = some a) (f : α → LockMode) : modeAt l f i = f a := by
  rw [modeAt, h, Option.map_some, Option.getD_some]

theorem modeAt_set (h : l[i]? = some b) (a : α) (f : α → LockMode) :
    modeAt (l.set i a) f = Function.update (modeAt l f) i (f a) :=
  getD_map_set h a f .free

theorem modeAt_concat (l : List α) {a : α} {f : α → LockMode} (ha : f a = .free) :
    modeAt (l ++ [a]) f = modeAt l f := by
  apply getD_map_append
  intro b hb
  rw [List.mem_singleton.1 hb, ha]

theorem modeAt_map (l : List α) (g : α → β) {f : β → LockMode} {f' : α → LockMode}
    (h : ∀ a, f (g a) = f' a) : modeAt (l.map g) f = modeAt l f' := by
  funext i
  have hfg : f ∘ g = f' := funext h
  rw [modeAt, List.getElem?_map, Option.map_map, hfg, modeAt]

def testAt (l : List α) (f : α → Bool) (i : Nat) : Bool := (l[i]?.map f).getD false

theorem testAt_eq (h : l[i]? = some a) (f : α → Bool) : testAt l f i = f a := by
  rw [testAt, h]
  rfl

theorem testAt_set (h : l[i]? = some b) (a : α) (f : α → Bool) :
    testAt (l.set i a) f = Function.update (testAt l f) i (f a) :=
  getD_map_set h a f false

theorem testAt_append {l l' : List α} {f : α → Bool} (h : ∀ a ∈ l', f a = false) :
    testAt (l ++ l') f = testAt l f :=
  getD_map_append h

theorem map_modify_same {f : α → α} {g : α → β} (hg : ∀ a, g (f a) = g a) (l : List α) (i : Nat) :
    (l.modify i f).map g = l.map g := by
  apply List.ext_getElem?
  intro j
  rw [List.getElem?_map, List.getElem?_map, List.getElem?_modify]
  cases l[j]? with
  | none => rfl
  | some a =>
    by_cases hij : i = j
    · simp [hij, hg]
    · simp [hij]

end

/-- `sync.Once`: its function has not been called, is being run, or has returned. -/
inductive OnceState where
  | fresh
  | running
  | finished
  deriving DecidableEq

/-- What a goroutine does with a `sync.Once` whose function says a word: nothing, it is in `Do`, or
it runs the function. -/
inductive Voice (τ : Type) where
  | idle
  | calls (t : τ)
  | runs (t : τ)

namespace Voice

def isRunning : Voice τ → Bool
  | .runs _ => true
  | _ => false

def word : Voice τ → Option τ
  | .idle => none
  | .calls t | .runs t => some t

end Voice

/-- What a step does to a `sync.Once` if it comes to `Do` only with words of `P`. -/
inductive OnceStep (P : τ → Prop) :
    OnceState → List τ → Voice τ → OnceState → List τ → Voice τ → Prop where
  | keep : v.isRunning = false → v'.isRunning = false → (∀ t, v'.word = some t → P t) →
      OnceStep P o l v o l v'
  | begins : OnceStep P .fresh l (.calls t) .running l (.runs t)
  | skips : OnceStep P .finished l (.calls t) .finished l .idle
  | speaks : OnceStep P o l (.runs t) .finished (l ++ [t]) .idle

theorem OnceStep.finished {P : τ → Prop} (h : OnceStep P o l v o' l' v') (ho : o = .finished) :
    o' = .finished := by
  cases h with
  | keep => exact ho
  | begins => cases ho
  | skips | speaks => rfl

/-- A word was said just if the function has returned, only one goroutine runs it, and all the words
are of `P`. -/
structure OnceInv (P : τ → Prop) (o : OnceState) (said : List τ) (voices : List (Voice τ)) :
    Prop where
  running : voices.countP Voice.isRunning = if o = .running then 1 else 0
  length : said.length = if o = .finished then 1 else 0
  words : ∀ v ∈ voices, ∀ t, v.word = some t → P t
  told : ∀ t ∈ said, P t

namespace OnceInv
variable {P Q : τ → Prop} {o o' : OnceState} {said said' : List τ} {voices : List (Voice τ)}

theorem mono (h : OnceInv P o said voices) (hPQ : ∀ t, P t → Q t) : OnceInv Q o said voices :=
  ⟨h.running, h.length, fun v hv t ht => hPQ t (h.words v hv t ht), fun t ht => hPQ t (h.told t ht)⟩

theorem append_idle (h : OnceInv P o said voices) : OnceInv P o said (voices ++ [.idle]) where
  __ := h
  running := by simpa [Voice.isRunning] using h.running
  words v hv t ht := by
    rcases List.mem_append.1 hv with hv | hv
    · exact h.words v hv t ht
    · rw [List.mem_singleton.1 hv] at ht
      cases ht

theorem running_of_runs {i : Nat} (h : OnceInv P o said voices) (hv : voices[i]? = some (.runs t)) :
    o = .running := by
  have hpos : 0 < voices.countP Voice.isRunning :=
    List.countP_pos_iff.2 ⟨_, List.mem_of_getElem? hv, rfl⟩
  by_contra hne
  rw [h.running, if_neg hne] at hpos
  exact absurd hpos (Nat.lt_irrefl 0)

theorem said_eq_nil (h : OnceInv P o said voices) (ho : o ≠ .finished) : said = [] :=
  List.eq_nil_of_length_eq_zero (h.length.trans (if_neg ho))

theorem said_singleton (h : OnceInv P .finished said voices) : ∃ t, said = [t] ∧ P t := by
  obtain ⟨t, ht⟩ := List.length_eq_one_iff.1 h.length
  exact ⟨t, ht, h.told t (ht ▸ List.mem_singleton_self t)⟩

theorem step (h : OnceInv P o said voices) (hv : voices[i]? = some v)
    (hs : OnceStep P o said v o' said' v') : OnceInv P o' said' (voices.set i v') := by
  have hmove := countP_move hv v' Voice.isRunning
  have hword : ∀ t, v.word = some t → P t := h.words v (List.mem_of_getElem? hv)
  have hwords : (∀ t, v'.word = some t → P t) →
      ∀ w ∈ voices.set i v', ∀ t, w.word = some t → P t := by
    intro hnew w hw t ht
    rcases List.mem_or_eq_of_mem_set hw with hw | rfl
    · exact h.words w hw t ht
    · exact hnew t ht
  have hrun := h.running
  cases hs with
  | keep hold hnew hP =>
    rw [hold, hnew] at hmove
    exact ⟨hmove.trans hrun, h.length, hwords hP, h.told⟩
  | begins =>
    exact ⟨by simpa [Voice.isRunning, hrun] using hmove, h.length, hwords hword, h.told⟩
  | skips =>
    exact ⟨by simpa [Voice.isRunning, hrun] using hmove, h.length, hwords nofun, h.told⟩
  | @speaks _ _ t =>
    have hrunning := h.running_of_runs hv
    subst hrunning
    have hnil : said = [] := h.said_eq_nil OnceState.noConfusion
    subst hnil
    refine ⟨by simpa [Voice.isRunning, hrun] using hmove, rfl, hwords nofun, ?_⟩
    intro u hu
    rw [List.mem_singleton.1 hu]
    exact hword t rfl

end OnceInv

end Lib
