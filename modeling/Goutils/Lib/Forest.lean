import Mathlib.Data.List.Infix

namespace Lib
set_option autoImplicit true

/-- Trees of maps as a file system has them, with the entries in the order of listing. -/
inductive Forest (ν α : Type) where
  | nil
  | leaf (name : ν) (a : α) (rest : Forest ν α)
  | node (name : ν) (children rest : Forest ν α)
  deriving DecidableEq

inductive Entry (ν α : Type) where
  | leaf (a : α)
  | node (children : Forest ν α)
  deriving DecidableEq

inductive Kind (α : Type) where
  | leaf (a : α)
  | node
  deriving DecidableEq

namespace Forest

def cons (name : ν) (rest : Forest ν α) : Entry ν α → Forest ν α
  | .leaf a => .leaf name a rest
  | .node c => .node name c rest

def names : Forest ν α → List ν
  | .nil => []
  | .leaf n _ rest | .node n _ rest => n :: rest.names

def Distinct : Forest ν α → Prop
  | .nil => True
  | .leaf n _ rest => n ∉ rest.names ∧ rest.Distinct
  | .node n c rest => n ∉ rest.names ∧ c.Distinct ∧ rest.Distinct

def Distinct.decide [DecidableEq ν] : (t : Forest ν α) → Decidable t.Distinct
  | .nil => isTrue trivial
  | .leaf _ _ rest => @instDecidableAnd _ _ _ (Distinct.decide rest)
  | .node _ c rest =>
    @instDecidableAnd _ _ _ (@instDecidableAnd _ _ (Distinct.decide c) (Distinct.decide rest))

instance [DecidableEq ν] (t : Forest ν α) : Decidable t.Distinct := Distinct.decide t

variable [DecidableEq ν]

def get : Forest ν α → ν → Option (Entry ν α)
  | .nil, _ => none
  | .leaf n a rest, x => if n = x then some (.leaf a) else rest.get x
  | .node n c rest, x => if n = x then some (.node c) else rest.get x

def set (x : ν) (e : Entry ν α) : Forest ν α → Forest ν α
  | .nil => cons x .nil e
  | .leaf n a rest => if n = x then cons x rest e else .leaf n a (set x e rest)
  | .node n c rest => if n = x then cons x rest e else .node n c (set x e rest)

def erase (x : ν) : Forest ν α → Forest ν α
  | .nil => .nil
  | .leaf n a rest => if n = x then erase x rest else .leaf n a (erase x rest)
  | .node n c rest => if n = x then erase x rest else .node n c (erase x rest)

def kindAt (t : Forest ν α) : List ν → Option (Kind α)
  | [] => some .node
  | x :: p =>
    match t.get x with
    | none => none
    | some (.leaf a) => if p = [] then some (.leaf a) else none
    | some (.node c) => c.kindAt p

def sub (t : Forest ν α) (x : ν) : Forest ν α :=
  match t.get x with
  | some (.node c) => c
  | _ => .nil

/-- The assignment to a path: what stands on the way and is not a map is replaced by one. -/
def put (t : Forest ν α) (e : Entry ν α) : List ν → Forest ν α
  | [] => t
  | [x] => t.set x e
  | x :: y :: p => t.set x (.node ((t.sub x).put e (y :: p)))

def remove (t : Forest ν α) : List ν → Forest ν α
  | [] => t
  | [x] => t.erase x
  | x :: y :: p =>
    match t.get x with
    | some (.node c) => t.set x (.node (c.remove (y :: p)))
    | _ => t

/-- Make maps along a path, unless there is a leaf on it. -/
def makeAll (t : Forest ν α) : List ν → Option (Forest ν α)
  | [] => some t
  | x :: p =>
    match t.get x with
    | none => (makeAll .nil p).map fun c => t.set x (.node c)
    | some (.leaf _) => none
    | some (.node c) => (c.makeAll p).map fun c' => t.set x (.node c')

end Forest

def Entry.kindAt [DecidableEq ν] : Entry ν α → List ν → Option (Kind α)
  | .leaf a, p => if p = [] then some (.leaf a) else none
  | .node c, p => c.kindAt p

def Entry.children : Entry ν α → Forest ν α
  | .leaf _ => .nil
  | .node c => c

def Forest.find [DecidableEq ν] (t : Forest ν α) : List ν → Option (Entry ν α)
  | [] => none
  | x :: p => (t.get x).bind fun e => if p = [] then some e else e.children.find p

namespace Forest

variable [DecidableEq ν]

@[simp] theorem get_cons (x y : ν) (e : Entry ν α) (t : Forest ν α) :
    (cons x t e).get y = if x = y then some e else t.get y := by
  cases e <;> rfl

@[simp] theorem kindAt_nil (t : Forest ν α) : t.kindAt [] = some .node := by
  cases t <;> rfl

theorem kindAt_cons (t : Forest ν α) (x : ν) (p : List ν) :
    t.kindAt (x :: p) = (t.get x).bind fun e => e.kindAt p := by
  rw [kindAt]
  cases t.get x with
  | none => rfl
  | some e => cases e <;> rfl

@[simp] theorem nil_kindAt_cons (x : ν) (p : List ν) :
    (nil : Forest ν α).kindAt (x :: p) = none := rfl

@[simp] theorem get_set (t : Forest ν α) (x y : ν) (e : Entry ν α) :
    (t.set x e).get y = if x = y then some e else t.get y := by
  induction t with
  | nil => exact get_cons x y e .nil
  | leaf n a rest ih | node n c rest _ ih => grind [set, get, get_cons]

@[simp] theorem get_erase (t : Forest ν α) (x y : ν) :
    (t.erase x).get y = if x = y then none else t.get y := by
  induction t with
  | nil => simp [erase, get]
  | leaf n a rest ih | node n c rest _ ih => grind [erase, get]

variable {t t' : Forest ν α}

theorem set_of_get (h : t.get x = some e) : t.set x e = t := by
  induction t with
  | nil => cases h
  | leaf n a rest ih | node n c rest _ ih =>
    rw [get] at h
    rw [set]
    split at h
    · subst_vars
      cases h
      exact if_pos rfl
    · rw [if_neg ‹_›, ih h]

theorem get_isSome (t : Forest ν α) (x : ν) : (t.get x).isSome = true ↔ x ∈ t.names := by
  induction t with
  | nil => simp [get, names]
  | leaf n a rest ih | node n c rest _ ih => grind [get, names]

theorem mem_names_of_kindAt (h : t.kindAt (x :: p) = some k) : x ∈ t.names := by
  rw [← get_isSome]
  rw [kindAt_cons] at h
  obtain ⟨e, he, _⟩ := Option.bind_eq_some_iff.1 h
  rw [he]
  rfl

theorem kindAt_of_not_mem (h : x ∉ t.names) (p : List ν) : t.kindAt (x :: p) = none := by
  by_contra hne
  obtain ⟨k, hk⟩ := Option.ne_none_iff_exists'.1 hne
  exact h (mem_names_of_kindAt hk)

variable {e : Entry ν α}

omit [DecidableEq ν] in
theorem mem_names_cons : y ∈ (cons x t e).names ↔ y = x ∨ y ∈ t.names := by
  cases e <;> exact List.mem_cons

theorem kindAt_cons_self (t : Forest ν α) (e : Entry ν α) (x : ν) (p : List ν) :
    (cons x t e).kindAt (x :: p) = e.kindAt p := by
  rw [kindAt_cons, get_cons, if_pos rfl]
  rfl

theorem kindAt_cons_other (e : Entry ν α) (hx : x ∉ t.names) (hy : y ∈ t.names) (p : List ν) :
    (cons x t e).kindAt (y :: p) = t.kindAt (y :: p) := by
  have hne : x ≠ y := by
    rintro rfl
    exact hx hy
  rw [kindAt_cons, get_cons, if_neg hne, ← kindAt_cons]

theorem kindAt_rest (e : Entry ν α) (hx : x ∉ t.names) (h : t.kindAt p = some k) :
    (cons x t e).kindAt p = some k := by
  cases p with
  | nil => rw [kindAt_nil, ← h, kindAt_nil]
  | cons y p => rw [kindAt_cons_other e hx (mem_names_of_kindAt h), h]

theorem kindAt_of_cons (hp : p ≠ []) (h : (cons x t e).kindAt p = some k) :
    (∃ q, p = x :: q ∧ e.kindAt q = some k) ∨ t.kindAt p = some k := by
  cases p with
  | nil => exact absurd rfl hp
  | cons y p =>
    rw [kindAt_cons, get_cons] at h
    split at h
    · subst_vars
      exact .inl ⟨p, rfl, h⟩
    · rw [← kindAt_cons] at h
      exact .inr h

theorem leaf_of_cons (h : (cons x t e).kindAt p = some (.leaf a)) :
    (∃ q, p = x :: q ∧ e.kindAt q = some (.leaf a)) ∨ t.kindAt p = some (.leaf a) := by
  apply kindAt_of_cons _ h
  rintro rfl
  rw [kindAt_nil] at h
  cases h

theorem kindAt_of_isPrefix (hp : p <+: q) (hne : p ≠ q) (hq : t.kindAt q = some k) :
    t.kindAt p = some .node := by
  induction p generalizing t q with
  | nil => exact kindAt_nil t
  | cons x p ih =>
    obtain ⟨r, rfl⟩ := hp
    rw [List.cons_append, kindAt_cons] at hq
    obtain ⟨e, he, hk⟩ := Option.bind_eq_some_iff.1 hq
    rw [kindAt_cons, he]
    have hr : r ≠ [] := by
      rintro rfl
      exact hne (List.append_nil _).symm
    cases e with
    | leaf a =>
      have hnil : p ++ r ≠ [] := by simp [hr]
      rw [Entry.kindAt, if_neg hnil] at hk
      cases hk
    | node c =>
      apply ih (List.prefix_append p r) _ hk
      simp [hr]

section

variable (t)

theorem kindAt_set (x y : ν) (e : Entry ν α) (p : List ν) :
    (t.set x e).kindAt (y :: p) = if x = y then e.kindAt p else t.kindAt (y :: p) := by
  rw [kindAt_cons, get_set, kindAt_cons]
  split <;> rfl

theorem sub_kindAt (x : ν) (hp : p ≠ []) : (t.sub x).kindAt p = t.kindAt (x :: p) := by
  obtain ⟨y, p, rfl⟩ := List.exists_cons_of_ne_nil hp
  rw [kindAt_cons t, sub]
  cases t.get x with
  | none => rfl
  | some e => cases e <;> rfl

/-- An assignment to a path determines what stands below it, makes maps on the way to it and
leaves the rest alone. -/
theorem kindAt_put (e : Entry ν α) (hp : p ≠ []) (q : List ν) : (t.put e p).kindAt q =
    if p <+: q then e.kindAt (q.drop p.length)
    else if q <+: p then some .node else t.kindAt q := by
  induction p generalizing t q with
  | nil => exact absurd rfl hp
  | cons x p ih =>
    cases q with
    | nil => simp
    | cons z q =>
      cases p with
      | nil =>
        rw [put, kindAt_set]
        by_cases hx : x = z
        · simp [hx]
        · simp [hx, Ne.symm hx]
      | cons y p =>
        rw [put, kindAt_set]
        by_cases hx : x = z
        · subst hx
          simp only [if_true, Entry.kindAt, ih _ (List.cons_ne_nil y p), List.cons_prefix_cons,
            true_and, List.length_cons, List.drop_succ_cons]
          split
          · rfl
          · split
            · rfl
            · rename_i hq
              apply sub_kindAt
              rintro rfl
              exact hq List.nil_prefix
        · simp [hx, Ne.symm hx]

theorem kindAt_remove (hp : p ≠ []) (q : List ν) :
    (t.remove p).kindAt q = if p <+: q then none else t.kindAt q := by
  induction p generalizing t q with
  | nil => exact absurd rfl hp
  | cons x p ih =>
    cases q with
    | nil => simp
    | cons z q =>
      cases p with
      | nil =>
        rw [remove, kindAt_cons, get_erase, kindAt_cons]
        by_cases hx : x = z
        · simp [hx]
        · simp [hx]
      | cons y p =>
        by_cases hx : x = z
        · subst hx
          simp only [List.cons_prefix_cons, true_and]
          cases hget : t.get x with
          | none => simp [remove, hget, kindAt_cons]
          | some e =>
            cases e with
            | leaf a =>
              simp only [remove, hget, kindAt_cons, Option.bind_some, Entry.kindAt]
              split
              · rename_i hq
                rw [hq, if_neg (by simp)]
              · split <;> rfl
            | node c =>
              simp only [remove, hget]
              rw [kindAt_set, if_pos rfl, Entry.kindAt, ih _ (List.cons_ne_nil y p),
                kindAt_cons t, hget]
              rfl
        · have hne : ¬ (x :: y :: p <+: z :: q) := by simp [hx]
          rw [if_neg hne]
          cases hget : t.get x with
          | none => simp [remove, hget]
          | some e =>
            cases e with
            | leaf a => simp [remove, hget]
            | node c =>
              simp only [remove, hget]
              rw [kindAt_set, if_neg hx]

end

theorem kindAt_makeAll (h : t.makeAll p = some t') (q : List ν) :
    t'.kindAt q = if q <+: p then some .node else t.kindAt q := by
  induction p generalizing t t' q with
  | nil =>
    cases h
    cases q with
    | nil | cons z q => simp
  | cons x p ih =>
    cases q with
    | nil => simp
    | cons z q =>
      cases hget : t.get x with
      | none =>
        simp only [makeAll, hget] at h
        obtain ⟨c, hc, rfl⟩ := Option.map_eq_some_iff.1 h
        rw [kindAt_set]
        by_cases hx : x = z
        · subst hx
          simp only [if_true, Entry.kindAt, ih hc, List.cons_prefix_cons, true_and]
          rw [kindAt_cons, hget]
          split
          · rfl
          · cases q with
            | nil => simp_all
            | cons => rfl
        · simp [hx, Ne.symm hx]
      | some e =>
        cases e with
        | leaf a => simp [makeAll, hget] at h
        | node c =>
          simp only [makeAll, hget] at h
          obtain ⟨c', hc, rfl⟩ := Option.map_eq_some_iff.1 h
          rw [kindAt_set]
          by_cases hx : x = z
          · subst hx
            simp only [if_true, Entry.kindAt, ih hc, List.cons_prefix_cons, true_and]
            rw [kindAt_cons, hget]
            rfl
          · simp [hx, Ne.symm hx]

theorem makeAll_isSome (h : ∀ q a, q <+: p → t.kindAt q ≠ some (.leaf a)) :
    ∃ t', t.makeAll p = some t' := by
  induction p generalizing t with
  | nil => exact ⟨t, rfl⟩
  | cons x p ih =>
    cases hget : t.get x with
    | none =>
      obtain ⟨c, hc⟩ := ih (t := .nil) (by
        intro q a _
        cases q <;> simp)
      exact ⟨t.set x (.node c), by simp [makeAll, hget, hc]⟩
    | some e =>
      cases e with
      | leaf a =>
        exfalso
        apply h [x] a
        · simp
        · rw [kindAt_cons, hget]
          rfl
      | node c =>
        obtain ⟨c', hc⟩ := ih (t := c) (by
          intro q a hq hk
          apply h (x :: q) a
          · simpa using hq
          · rw [kindAt_cons, hget]
            exact hk)
        exact ⟨t.set x (.node c'), by simp [makeAll, hget, hc]⟩

section Find

variable (t) (e)

theorem find_cons (x : ν) (p : List ν) :
    t.find (x :: p) = (t.get x).bind fun e => if p = [] then some e else e.children.find p := rfl

theorem find_cons_of_ne_nil (x : ν) (hp : p ≠ []) : t.find (x :: p) = (t.sub x).find p := by
  obtain ⟨y, p, rfl⟩ := List.exists_cons_of_ne_nil hp
  rw [find_cons, sub]
  cases t.get x with
  | none => rfl
  | some e => cases e <;> rfl

theorem find_set (x y : ν) (e : Entry ν α) (p : List ν) :
    (t.set x e).find (y :: p) =
      if x = y then if p = [] then some e else e.children.find p else t.find (y :: p) := by
  rw [find_cons, get_set]
  split <;> rfl

theorem find_put_self (hp : p ≠ []) : (t.put e p).find p = some e := by
  induction p generalizing t with
  | nil => exact absurd rfl hp
  | cons x p ih =>
    cases p with
    | nil => rw [put, find_set, if_pos rfl, if_pos rfl]
    | cons y p =>
      have hne := List.cons_ne_nil y p
      rw [put, find_set, if_pos rfl, if_neg hne]
      exact ih (t.sub x) hne

theorem find_put_above (hq : q ≠ []) (hqp : q <+: p) (hne : q ≠ p) :
    ∃ c, (t.put e p).find q = some (.node c) := by
  induction p generalizing t q with
  | nil => exact absurd (List.prefix_nil.1 hqp) hq
  | cons x p ih =>
    obtain ⟨z, q, rfl⟩ := List.exists_cons_of_ne_nil hq
    obtain ⟨rfl, hpre⟩ := List.cons_prefix_cons.1 hqp
    have hne : q ≠ p := by
      rintro rfl
      exact hne rfl
    cases p with
    | nil => exact absurd (List.prefix_nil.1 hpre) hne
    | cons y p =>
      rw [put, find_set, if_pos rfl]
      split
      · exact ⟨_, rfl⟩
      · exact ih (t.sub z) ‹_› hpre hne

theorem find_put_below (hp : p ≠ []) (hr : r ≠ []) :
    (t.put e p).find (p ++ r) = e.children.find r := by
  induction p generalizing t with
  | nil => exact absurd rfl hp
  | cons x p ih =>
    rw [List.cons_append]
    cases p with
    | nil => rw [List.nil_append, put, find_set, if_pos rfl, if_neg hr]
    | cons y p =>
      have hne := List.cons_ne_nil y p
      rw [put, find_set, if_pos rfl, if_neg (List.append_ne_nil_of_left_ne_nil hne r)]
      exact ih (t.sub x) hne

theorem find_put_other (hpq : ¬ p <+: q) (hqp : ¬ q <+: p) : (t.put e p).find q = t.find q := by
  induction p generalizing t q with
  | nil => rfl
  | cons x p ih =>
    cases q with
    | nil => exact absurd List.nil_prefix hqp
    | cons z q =>
      rw [List.cons_prefix_cons, not_and] at hpq hqp
      by_cases hx : x = z
      · subst hx
        have hpq := hpq rfl
        have hqp := hqp rfl
        have hq : q ≠ [] := by
          rintro rfl
          exact hqp List.nil_prefix
        cases p with
        | nil => exact absurd List.nil_prefix hpq
        | cons y p =>
          rw [put, find_set, if_pos rfl, if_neg hq, Entry.children, ih (t.sub x) hpq hqp,
            find_cons_of_ne_nil t x hq]
      · cases p with
        | nil | cons y p => rw [put, find_set, if_neg hx]

theorem find_remove_below (hp : p ≠ []) (hpq : p <+: q) : (t.remove p).find q = none := by
  induction p generalizing t q with
  | nil => exact absurd rfl hp
  | cons x p ih =>
    obtain ⟨r, rfl⟩ := hpq
    rw [List.cons_append]
    cases p with
    | nil => rw [remove, find_cons, get_erase, if_pos rfl, Option.bind_none]
    | cons y p =>
      have hne := List.cons_ne_nil y p
      have hr := List.append_ne_nil_of_left_ne_nil hne r
      cases hget : t.get x with
      | none => simp only [remove, hget, find_cons, Option.bind_none]
      | some e =>
        cases e with
        | leaf a =>
          simp only [remove, hget, find_cons, Option.bind_some, if_neg hr, Entry.children]
          rfl
        | node c =>
          simp only [remove, hget]
          rw [find_set, if_pos rfl, if_neg hr]
          exact ih c hne (List.prefix_append _ r)

theorem find_remove_other (hpq : ¬ p <+: q) (hqp : ¬ q <+: p) : (t.remove p).find q = t.find q := by
  induction p generalizing t q with
  | nil => rfl
  | cons x p ih =>
    cases q with
    | nil => exact absurd List.nil_prefix hqp
    | cons z q =>
      rw [List.cons_prefix_cons, not_and] at hpq hqp
      cases p with
      | nil =>
        have hx : x ≠ z := fun hx => hpq hx List.nil_prefix
        rw [remove, find_cons, get_erase, if_neg hx, find_cons]
      | cons y p =>
        cases hget : t.get x with
        | none => simp only [remove, hget]
        | some e =>
          cases e with
          | leaf a => simp only [remove, hget]
          | node c =>
            simp only [remove, hget]
            rw [find_set]
            split
            · rename_i hx
              subst hx
              have hq : q ≠ [] := by
                rintro rfl
                exact hqp rfl List.nil_prefix
              rw [if_neg hq, Entry.children, ih c (hpq rfl) (hqp rfl), find_cons, hget,
                Option.bind_some, if_neg hq, Entry.children]
            · rfl

end Find

section Distinct

theorem mem_names_set (t : Forest ν α) (x : ν) (e : Entry ν α) (y : ν) :
    y ∈ (t.set x e).names ↔ y = x ∨ y ∈ t.names := by
  rw [← get_isSome, get_set, ← get_isSome]
  by_cases hx : x = y
  · simp [hx]
  · simp [hx, Ne.symm hx]

theorem mem_names_erase (t : Forest ν α) (x y : ν) :
    y ∈ (t.erase x).names ↔ y ≠ x ∧ y ∈ t.names := by
  rw [← get_isSome, get_erase, ← get_isSome]
  by_cases hx : x = y
  · simp [hx]
  · simp [hx, Ne.symm hx]

variable (h : t.Distinct)

include h

theorem Distinct.get (hget : t.get x = some (.node c)) : c.Distinct := by
  induction t with
  | nil => cases hget
  | leaf n a rest ih =>
    simp only [Forest.get] at hget
    split at hget
    · cases hget
    · exact ih h.2 hget
  | node n c' rest _ ih =>
    simp only [Forest.get] at hget
    split at hget
    · cases hget
      exact h.2.1
    · exact ih h.2.2 hget

omit [DecidableEq ν] in
theorem Distinct.cons (hx : x ∉ t.names) (he : ∀ c, e = .node c → c.Distinct) :
    (Forest.cons x t e).Distinct := by
  cases e with
  | leaf a => exact ⟨hx, h⟩
  | node c => exact ⟨hx, he c rfl, h⟩

theorem Distinct.set (he : ∀ c, e = .node c → c.Distinct) (x : ν) : (t.set x e).Distinct := by
  induction t with
  | nil => exact Distinct.cons (t := .nil) trivial (by simp [names]) he
  | leaf n a rest ih =>
    simp only [Forest.set]
    split
    · subst_vars
      exact h.2.cons h.1 he
    · refine ⟨?_, ih h.2⟩
      rw [mem_names_set]
      simp_all [h.1]
  | node n c rest _ ih =>
    simp only [Forest.set]
    split
    · subst_vars
      exact h.2.2.cons h.1 he
    · refine ⟨?_, h.2.1, ih h.2.2⟩
      rw [mem_names_set]
      simp_all [h.1]

theorem Distinct.erase (x : ν) : (t.erase x).Distinct := by
  induction t with
  | nil => trivial
  | leaf n a rest ih =>
    simp only [Forest.erase]
    split
    · exact ih h.2
    · refine ⟨?_, ih h.2⟩
      rw [mem_names_erase]
      exact fun hn => h.1 hn.2
  | node n c rest _ ih =>
    simp only [Forest.erase]
    split
    · exact ih h.2.2
    · refine ⟨?_, h.2.1, ih h.2.2⟩
      rw [mem_names_erase]
      exact fun hn => h.1 hn.2

theorem Distinct.sub (x : ν) : (t.sub x).Distinct := by
  unfold Forest.sub
  split
  · exact h.get ‹_›
  · trivial

theorem Distinct.put (he : ∀ c, e = .node c → c.Distinct) (p : List ν) : (t.put e p).Distinct := by
  induction p generalizing t with
  | nil => exact h
  | cons x p ih =>
    cases p with
    | nil => exact h.set he x
    | cons y p =>
      apply h.set
      intro c hc
      cases hc
      exact ih (h.sub x)

theorem Distinct.remove (p : List ν) : (t.remove p).Distinct := by
  induction p generalizing t with
  | nil => exact h
  | cons x p ih =>
    cases p with
    | nil => exact h.erase x
    | cons y p =>
      simp only [Forest.remove]
      split
      · apply h.set
        intro c hc
        cases hc
        exact ih (h.get ‹_›)
      · exact h

theorem Distinct.makeAll (ht : t.makeAll p = some t') : t'.Distinct := by
  induction p generalizing t t' with
  | nil =>
    cases ht
    exact h
  | cons x p ih =>
    simp only [Forest.makeAll] at ht
    split at ht
    · obtain ⟨c, hc, rfl⟩ := Option.map_eq_some_iff.1 ht
      apply h.set
      intro c' hc'
      cases hc'
      have hnil : (nil : Forest ν α).Distinct := trivial
      exact ih hnil hc
    · cases ht
    · rename_i hget
      obtain ⟨c, hc, rfl⟩ := Option.map_eq_some_iff.1 ht
      apply h.set
      intro c' hc'
      cases hc'
      exact ih (h.get hget) hc

end Distinct

end Forest

/-- A tree of maps in which no map has two entries of one name. -/
structure FileTree (ν α : Type) where
  forest : Forest ν α
  distinct : forest.Distinct

namespace FileTree

variable [DecidableEq ν]

def empty : FileTree ν α := ⟨.nil, trivial⟩

def kindAt (t : FileTree ν α) (p : List ν) : Option (Kind α) := t.forest.kindAt p

def store (t : FileTree ν α) (p : List ν) (a : α) : FileTree ν α :=
  ⟨t.forest.put (.leaf a) p, t.distinct.put (by intro c h; cases h) p⟩

def makeNode (t : FileTree ν α) (p : List ν) : FileTree ν α :=
  ⟨t.forest.put (.node .nil) p, t.distinct.put (by intro c h; cases h; trivial) p⟩

def remove (t : FileTree ν α) (p : List ν) : FileTree ν α :=
  ⟨t.forest.remove p, t.distinct.remove p⟩

def makeAll (t : FileTree ν α) (p : List ν) : Option (FileTree ν α) :=
  match h : t.forest.makeAll p with
  | none => none
  | some t' => some ⟨t', t.distinct.makeAll h⟩

theorem empty_kindAt (p : List ν) :
    (empty : FileTree ν α).kindAt p = if p = [] then some .node else none := by
  cases p with
  | nil => exact Forest.kindAt_nil _
  | cons x p => exact Forest.nil_kindAt_cons x p

theorem kindAt_nil (t : FileTree ν α) : t.kindAt [] = some .node := Forest.kindAt_nil _

theorem kindAt_of_isPrefix {t : FileTree ν α} (hp : p <+: q) (hne : p ≠ q)
    (hq : t.kindAt q = some k) : t.kindAt p = some .node :=
  Forest.kindAt_of_isPrefix hp hne hq

omit [DecidableEq ν] in
theorem drop_eq_nil_of_isPrefix {p q : List ν} (h : p <+: q) : q.drop p.length = [] ↔ q = p := by
  obtain ⟨r, rfl⟩ := h
  simp

theorem kindAt_store (t : FileTree ν α) (hp : p ≠ []) (a : α) (q : List ν) :
    (t.store p a).kindAt q =
      if q = p then some (.leaf a) else if p <+: q then none
      else if q <+: p then some .node else t.kindAt q := by
  rw [store, kindAt, Forest.kindAt_put _ _ hp]
  by_cases hpq : p <+: q
  · simp only [hpq, if_true, Entry.kindAt, drop_eq_nil_of_isPrefix hpq]
  · have hne : q ≠ p := by
      rintro rfl
      exact hpq List.prefix_rfl
    simp [hpq, hne, kindAt]

theorem kindAt_makeNode (t : FileTree ν α) (hp : p ≠ []) (q : List ν) :
    (t.makeNode p).kindAt q =
      if q = p then some .node else if p <+: q then none
      else if q <+: p then some .node else t.kindAt q := by
  rw [makeNode, kindAt, Forest.kindAt_put _ _ hp]
  by_cases hpq : p <+: q
  · have hdrop := drop_eq_nil_of_isPrefix hpq
    simp only [hpq, if_true, Entry.kindAt]
    by_cases hq : q = p
    · rw [hdrop.2 hq, if_pos hq, Forest.kindAt_nil]
    · obtain ⟨x, r, hr⟩ := List.exists_cons_of_ne_nil (mt hdrop.1 hq)
      rw [hr, if_neg hq, Forest.nil_kindAt_cons]
  · have hne : q ≠ p := by
      rintro rfl
      exact hpq List.prefix_rfl
    simp [hpq, hne, kindAt]

theorem kindAt_remove (t : FileTree ν α) (hp : p ≠ []) (q : List ν) :
    (t.remove p).kindAt q = if p <+: q then none else t.kindAt q :=
  Forest.kindAt_remove _ hp q

theorem kindAt_makeAll {t t' : FileTree ν α} (h : t.makeAll p = some t') (q : List ν) :
    t'.kindAt q = if q <+: p then some .node else t.kindAt q := by
  unfold makeAll at h
  split at h
  · cases h
  · rename_i hm
    cases h
    exact Forest.kindAt_makeAll hm q

omit [DecidableEq ν] in
theorem not_prefix_dropLast {p : List ν} (hp : p ≠ []) : ¬ p <+: p.dropLast := by
  intro h
  have hle := h.length_le
  have hpos := List.length_pos_of_ne_nil hp
  rw [List.length_dropLast] at hle
  exact absurd hle (Nat.not_le_of_lt (Nat.sub_lt hpos Nat.one_pos))

theorem kindAt_makeAll_store {t t' : FileTree ν α} (hp : p ≠ [])
    (h : t.makeAll p.dropLast = some t') (a : α) (q : List ν) :
    (t'.store p a).kindAt q = (t.store p a).kindAt q := by
  rw [kindAt_store _ hp, kindAt_store _ hp, kindAt_makeAll h]
  by_cases hq : q <+: p
  · simp [hq]
  · have hparent := List.dropLast_prefix p
    have hd : ¬ q <+: p.dropLast := fun hd => hq (hd.trans hparent)
    rw [if_neg hd]

theorem makeAll_isSome {t : FileTree ν α} (h : ∀ q a, q <+: p → t.kindAt q ≠ some (.leaf a)) :
    ∃ t', t.makeAll p = some t' := by
  obtain ⟨f, hf⟩ := Forest.makeAll_isSome h
  unfold makeAll
  split
  · rename_i hn
    rw [hf] at hn
    cases hn
  · exact ⟨_, rfl⟩

def Frame (p names : List ν) (t t' : FileTree ν α) : Prop :=
  ∀ q, (∀ x ∈ names, ¬ p ++ [x] <+: q) → t'.kindAt q = t.kindAt q

namespace Frame

variable {p q : List ν} {t t' t'' : FileTree ν α}

theorem refl (p names : List ν) (t : FileTree ν α) : Frame p names t t := fun _ _ => rfl

theorem trans (h : Frame p names t t') (h' : Frame p names' t' t'') :
    Frame p (names ++ names') t t'' := by
  intro q hq
  rw [h' q fun x hx => hq x (List.mem_append_right _ hx),
    h q fun x hx => hq x (List.mem_append_left _ hx)]

theorem mono (h : Frame p names t t') (hsub : ∀ x ∈ names, x ∈ names') : Frame p names' t t' :=
  fun q hq => h q fun x hx => hq x (hsub x hx)

theorem below (h : Frame (p ++ [x]) names t t') : Frame p [x] t t' := by
  intro q hq
  apply h
  intro y _ hy
  exact hq x List.mem_cons_self ((List.prefix_append _ _).trans hy)

theorem kindAt_self (h : Frame p names t t') : t'.kindAt p = t.kindAt p := by
  apply h
  intro x _ hx
  have hle := hx.length_le
  rw [List.length_append, List.length_singleton] at hle
  exact Nat.not_succ_le_self _ hle

theorem of_not_mem (h : Frame p names t t') (hx : x ∉ names) (hq : p ++ [x] <+: q) :
    t'.kindAt q = t.kindAt q := by
  apply h
  intro y hy hyq
  have heq : p ++ [x] = p ++ [y] :=
    (List.prefix_of_prefix_length_le hq hyq (by simp)).eq_of_length (by simp)
  obtain rfl : x = y := by simpa using heq
  exact hx hy

theorem of_put (h : t.kindAt p = some .node)
    (hput : ∀ q, q ≠ p ++ [x] → t'.kindAt q =
      if p ++ [x] <+: q then none else if q <+: p ++ [x] then some .node else t.kindAt q) :
    Frame p [x] t t' := by
  intro q hq
  have hq := hq x List.mem_cons_self
  have hne : q ≠ p ++ [x] := by
    rintro rfl
    exact hq List.prefix_rfl
  rw [hput q hne, if_neg hq]
  split
  · rename_i hpre
    have hqp := (List.prefix_concat_iff.1 hpre).resolve_left hne
    by_cases heq : q = p
    · rw [heq, h]
    · rw [kindAt_of_isPrefix hqp heq h]
  · rfl

theorem store (h : t.kindAt p = some .node) (x : ν) (a : α) :
    Frame p [x] t (t.store (p ++ [x]) a) := by
  apply of_put h
  intro q hne
  rw [kindAt_store _ (by simp), if_neg hne]

theorem remove (t : FileTree ν α) (p : List ν) (x : ν) :
    Frame p [x] t (t.remove (p ++ [x])) := by
  intro q hq
  rw [kindAt_remove _ (by simp), if_neg (hq x List.mem_cons_self)]

theorem makeNode (h : t.kindAt p = some .node) (x : ν) :
    Frame p [x] t (t.makeNode (p ++ [x])) := by
  apply of_put h
  intro q hne
  rw [kindAt_makeNode _ (by simp), if_neg hne]

end Frame

end FileTree

end Lib
