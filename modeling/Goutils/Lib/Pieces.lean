import Goutils.Lib.Machine

namespace Lib
set_option autoImplicit true

/-- Cut a list into pieces of length `n`; the flag marks the last one. -/
def pieces (n : Nat) (l : List α) : List (List α × Bool) :=
  if _h : l = [] ∨ n = 0 then []
  else (l.take n, (l.drop n).isEmpty) :: pieces n (l.drop n)
termination_by l.length
decreasing_by
  have hl : 0 < l.length := List.length_pos_iff.2 (by tauto)
  rw [List.length_drop]
  omega

@[simp] theorem pieces_nil (n : Nat) : pieces n ([] : List α) = [] := by
  rw [pieces, dif_pos (.inl rfl)]

theorem pieces_last (hl : l ≠ []) (hn : l.length ≤ n) : pieces n l = [(l, true)] := by
  have h0 : n ≠ 0 := by
    have := List.length_pos_iff.2 hl
    omega
  have hd : l.drop n = [] := List.drop_eq_nil_iff.2 hn
  rw [pieces, dif_neg (by tauto), hd, List.take_of_length_le hn, pieces_nil]
  rfl

theorem pieces_more (h0 : 0 < n) (hn : n < l.length) :
    pieces n l = (l.take n, false) :: pieces n (l.drop n) := by
  have hl : l ≠ [] := by
    rintro rfl
    simp at hn
  have hd : l.drop n ≠ [] := by
    rw [Ne, List.drop_eq_nil_iff]
    omega
  rw [pieces, dif_neg (by simp only [hl, false_or]; omega)]
  simp only [List.isEmpty_eq_false_iff.2 hd]

/-- Induction along the pieces of a non-empty list: the last piece, then one more in front. -/
@[elab_as_elim]
theorem pieces_induction {P : List α → Prop} (h0 : 0 < n)
    (last : ∀ l, l ≠ [] → l.length ≤ n → P l)
    (more : ∀ l, n < l.length → P (l.drop n) → P l) (l : List α) (hl : l ≠ []) : P l := by
  induction hk : l.length using Nat.strong_induction_on generalizing l with
  | _ k ih =>
    by_cases hn : l.length ≤ n
    · exact last l hl hn
    · refine more l (by omega) (ih (l.drop n).length ?_ _ ?_ rfl)
      · rw [List.length_drop]
        omega
      · rw [Ne, List.drop_eq_nil_iff]
        omega

theorem pieces_length_le (h0 : 0 < n) (l : List α) : ∀ p ∈ pieces n l, p.1.length ≤ n := by
  by_cases hl : l = []
  · simp [hl]
  · refine pieces_induction h0 ?last ?more l hl
    case last =>
      intro l hl hn p hp
      rw [pieces_last hl hn, List.mem_singleton] at hp
      rwa [hp]
    case more =>
      intro l hn ih p hp
      rw [pieces_more h0 hn] at hp
      rcases List.mem_cons.1 hp with rfl | hp
      · exact List.length_take_le n l
      · exact ih p hp

theorem pieces_lengths (h0 : 0 < n) (l : List α) :
    (pieces n l).map (fun p => p.1.length) =
      List.replicate (l.length / n) n ++ if l.length % n = 0 then [] else [l.length % n] := by
  by_cases hl : l = []
  · simp [hl]
  · refine pieces_induction h0 ?last ?more l hl
    case last =>
      intro l hl hn
      have hpos := List.length_pos_iff.2 hl
      rw [pieces_last hl hn]
      obtain heq | hlt := Nat.eq_or_lt_of_le hn
      · simp [heq, Nat.div_self h0]
      · simp [Nat.div_eq_of_lt hlt, Nat.mod_eq_of_lt hlt, hl]
    case more =>
      intro l hn ih
      have hsub : l.length = (l.drop n).length + n := by
        rw [List.length_drop]
        omega
      rw [pieces_more h0 hn, List.map_cons, ih, hsub, Nat.add_div_right _ h0, Nat.add_mod_right,
        List.replicate_succ, List.cons_append, List.length_take_of_le (Nat.le_of_lt hn)]

/-- The end of a piece moves to the beginning of the next one. -/
inductive Shift : List (List α) → List (List α) → Prop where
  | next : Shift ((x ++ z) :: y :: l) (x :: (z ++ y) :: l)
  | cons : Shift l l' → Shift (x :: l) (x :: l')

def Recut : List (List α) → List (List α) → Prop := Relation.EqvGen Shift

theorem Recut.cons {l l' : List (List α)} (h : Recut l l') (x : List α) :
    Recut (x :: l) (x :: l') := by
  induction h with
  | rel _ _ h => exact .rel _ _ (.cons h)
  | refl => exact .refl _
  | symm _ _ _ ih => exact .symm _ _ ih
  | trans _ _ _ _ _ ih ih' => exact .trans _ _ _ ih ih'

end Lib
