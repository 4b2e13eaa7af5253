import Mathlib.Data.List.Nodup
import Mathlib.Tactic.Tauto

namespace Lib
set_option autoImplicit true

/-- A map whose values know their keys, as the list of its values. -/
structure Keyed {α κ : Type} (key : α → κ) where
  list : List α
  distinct : (list.map key).Nodup

namespace Keyed

variable {α κ : Type} {key : α → κ} {m : Keyed key} {a b : α} {k : κ}

instance [DecidableEq α] : DecidableEq (Keyed key) := fun m m' =>
  decidable_of_iff (m.list = m'.list) (by cases m; cases m'; simp)

def empty : Keyed key := ⟨[], List.nodup_nil⟩

theorem eq_of_key (ha : a ∈ m.list) (hb : b ∈ m.list) (h : key a = key b) : a = b :=
  List.inj_on_of_nodup_map m.distinct ha hb h

theorem nodup (m : Keyed key) : m.list.Nodup := m.distinct.of_map key

theorem nodup_map_filter (m : Keyed key) (p : α → Bool) : ((m.list.filter p).map key).Nodup :=
  m.distinct.sublist (List.filter_sublist.map key)

variable [DecidableEq κ]

def get (m : Keyed key) (k : κ) : Option α := m.list.find? fun a => key a = k

def erase (m : Keyed key) (k : κ) : Keyed key :=
  ⟨m.list.filter fun a => key a ≠ k, m.nodup_map_filter _⟩

def insert (m : Keyed key) (a : α) : Keyed key where
  list := (m.erase (key a)).list ++ [a]
  distinct := by
    rw [List.map_append, List.nodup_append]
    refine ⟨(m.erase (key a)).distinct, List.nodup_singleton _, ?_⟩
    intro k hk k' hk'
    obtain ⟨b, hb, rfl⟩ := List.mem_map.1 hk
    rw [List.mem_singleton.1 hk']
    exact of_decide_eq_true (List.mem_filter.1 hb).2

theorem get_eq_some (h : m.get k = some a) : a ∈ m.list ∧ key a = k := by
  refine ⟨List.mem_of_find?_eq_some h, ?_⟩
  simpa using List.find?_some h

theorem get_of_mem (h : a ∈ m.list) : m.get (key a) = some a := by
  cases hget : m.get (key a) with
  | none => exact absurd (by simp) (List.find?_eq_none.1 hget a h)
  | some b =>
    obtain ⟨hb, hkey⟩ := get_eq_some hget
    rw [eq_of_key hb h hkey]

theorem mem_erase : a ∈ (m.erase k).list ↔ a ∈ m.list ∧ key a ≠ k := by
  simp [erase]

theorem mem_insert : a ∈ (m.insert b).list ↔ (a ∈ m.list ∧ key a ≠ key b) ∨ a = b := by
  simp [insert, mem_erase]

theorem get_insert (m : Keyed key) (a : α) (k : κ) :
    (m.insert a).get k = if key a = k then some a else m.get k := by
  split
  · rename_i hk
    subst hk
    exact get_of_mem (mem_insert.2 (.inr rfl))
  · rename_i hk
    cases hget : m.get k with
    | none =>
      apply List.find?_eq_none.2
      intro b hb
      rcases mem_insert.1 hb with ⟨hb, _⟩ | rfl
      · exact List.find?_eq_none.1 hget b hb
      · simpa using hk
    | some b =>
      obtain ⟨hb, rfl⟩ := get_eq_some hget
      exact get_of_mem (mem_insert.2 (.inl ⟨hb, Ne.symm hk⟩))

theorem mem_erase_or_get (h : a ∈ m.list) (k : κ) : a ∈ (m.erase k).list ∨ m.get k = some a := by
  by_cases hk : key a = k
  · subst hk
    exact .inr (get_of_mem h)
  · exact .inl (mem_erase.2 ⟨h, hk⟩)

theorem mem_insert_or_get (h : a ∈ m.list) (b : α) :
    a ∈ (m.insert b).list ∨ m.get (key b) = some a := by
  apply (mem_erase_or_get h (key b)).imp_left
  intro ha
  exact mem_insert.2 (.inl (mem_erase.1 ha))

omit [DecidableEq κ] in
theorem perm_iff {m m' : Keyed key} : m.list.Perm m'.list ↔ ∀ a, a ∈ m.list ↔ a ∈ m'.list :=
  List.perm_ext_iff_of_nodup m.nodup m'.nodup

section Insertions

variable {l : List α}

theorem mem_of_mem_foldl_insert (h : a ∈ (l.foldl insert m).list) : a ∈ m.list ∨ a ∈ l := by
  induction l generalizing m with
  | nil => exact .inl h
  | cons b l ih =>
    rcases ih h with hm | hl
    · rcases mem_insert.1 hm with ⟨hold, _⟩ | rfl
      · exact .inl hold
      · exact .inr List.mem_cons_self
    · exact .inr (List.mem_cons_of_mem b hl)

theorem mem_foldl_insert (hl : (l.map key).Nodup) (hnew : ∀ a ∈ m.list, key a ∉ l.map key) :
    a ∈ (l.foldl insert m).list ↔ a ∈ m.list ∨ a ∈ l := by
  induction l generalizing m with
  | nil => simp
  | cons b l ih =>
    rw [List.map_cons, List.nodup_cons] at hl
    rw [List.foldl_cons, ih hl.2, mem_insert]
    · have hne : a ∈ m.list → key a ≠ key b := by
        intro ha heq
        exact hnew a ha (heq ▸ List.mem_cons_self)
      rw [List.mem_cons]
      tauto
    · intro c hc
      rcases mem_insert.1 hc with ⟨hold, _⟩ | rfl
      · exact fun hmem => hnew c hold (List.mem_cons_of_mem _ hmem)
      · exact hl.1

end Insertions

end Keyed

end Lib
