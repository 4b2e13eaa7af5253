import Goutils.Lib.Machine

namespace Lib.Wire
set_option autoImplicit true

abbrev Bytes := List UInt8

def groups : Nat → Nat → Bytes
  | 0, n => [UInt8.ofNat n]
  | fuel + 1, n =>
    if n < 128 then [UInt8.ofNat n] else UInt8.ofNat (n % 128 + 128) :: groups fuel (n / 128)

def varint (n : Nat) : Bytes := groups 9 n

def varintKey (field : Nat) : Bytes := varint (field * 8)

def bytesKey (field : Nat) : Bytes := varint (field * 8 + 2)

def uintField (field n : Nat) : Bytes :=
  if n = 0 then [] else varintKey field ++ varint n

def boolField (field : Nat) (b : Bool) : Bytes :=
  if b then varintKey field ++ varint 1 else []

def bytesField (field : Nat) (bs : Bytes) : Bytes :=
  if bs = [] then [] else bytesKey field ++ varint bs.length ++ bs

def messageField (field : Nat) : Option Bytes → Bytes
  | none => []
  | some body => bytesKey field ++ varint body.length ++ body

theorem groups_length_le (hn : n < 128 ^ (k + 1)) (hk : k ≤ fuel) :
    (groups fuel n).length ≤ k + 1 := by
  -- induction on the fuel: a group less on both sides of the bound
  induction fuel generalizing n k with
  | zero => simp only [groups, List.length_singleton]; omega
  | succ fuel ih =>
    simp only [groups]
    split
    · simp only [List.length_singleton]; omega
    · cases k with
      | zero => omega
      | succ k =>
        have hdiv : n / 128 < 128 ^ (k + 1) := by
          apply Nat.div_lt_of_lt_mul
          rwa [Nat.mul_comm, ← Nat.pow_succ]
        have := ih hdiv (by omega)
        simp only [List.length_cons]
        omega

theorem lt_groups_length (hn : 128 ^ k ≤ n) (hk : k ≤ fuel) : k < (groups fuel n).length := by
  induction fuel generalizing n k with
  | zero => simp only [groups, List.length_singleton]; omega
  | succ fuel ih =>
    simp only [groups]
    cases k with
    | zero => split <;> simp
    | succ k =>
      have h128 : 128 ≤ n := by
        calc 128 = 128 ^ 1 := rfl
          _ ≤ 128 ^ (k + 1) := Nat.pow_le_pow_right (by decide) (by omega)
          _ ≤ n := hn
      rw [if_neg (by omega)]
      have hdiv : 128 ^ k ≤ n / 128 := by
        rw [Nat.le_div_iff_mul_le (by decide), ← Nat.pow_succ]
        exact hn
      have := ih hdiv (by omega)
      simp only [List.length_cons]
      omega

theorem varint_length_le (hn : n < 128 ^ (k + 1)) (hk : k ≤ 9) : (varint n).length ≤ k + 1 :=
  groups_length_le hn hk

theorem lt_varint_length (hn : 128 ^ k ≤ n) (hk : k ≤ 9) : k < (varint n).length :=
  lt_groups_length hn hk

theorem varint_length_pos (n : Nat) : 0 < (varint n).length := by
  simp only [varint, groups]
  split <;> simp

variable {field : Nat} (hf : field < 16)

include hf

theorem varintKey_length : (varintKey field).length = 1 := by
  have hle : (varintKey field).length ≤ 0 + 1 := varint_length_le (by omega) (by decide)
  have hpos : 0 < (varintKey field).length := varint_length_pos _
  omega

theorem bytesKey_length : (bytesKey field).length = 1 := by
  have hle : (bytesKey field).length ≤ 0 + 1 := varint_length_le (by omega) (by decide)
  have hpos : 0 < (bytesKey field).length := varint_length_pos _
  omega

theorem uintField_length (hn : n ≠ 0) : (uintField field n).length = 1 + (varint n).length := by
  rw [uintField, if_neg hn, List.length_append, varintKey_length hf]

theorem uintField_length_le : (uintField field n).length ≤ 1 + (varint n).length := by
  by_cases hn : n = 0
  · simp [uintField, hn]
  · exact (uintField_length hf hn).le

theorem boolField_length (b : Bool) : (boolField field b).length = if b then 2 else 0 := by
  cases b with
  | false => rfl
  | true =>
    simp only [boolField, ↓reduceIte, List.length_append, varintKey_length hf]
    rfl

theorem bytesField_length (hb : bs ≠ []) :
    (bytesField field bs).length = 1 + (varint bs.length).length + bs.length := by
  rw [bytesField, if_neg hb, List.length_append, List.length_append, bytesKey_length hf]

theorem bytesField_length_le :
    (bytesField field bs).length ≤ 1 + (varint bs.length).length + bs.length := by
  by_cases hb : bs = []
  · simp [bytesField, hb]
  · exact (bytesField_length hf hb).le

theorem messageField_length (body : Bytes) : (messageField field (some body)).length =
    1 + (varint body.length).length + body.length := by
  rw [messageField, List.length_append, List.length_append, bytesKey_length hf]

end Lib.Wire
