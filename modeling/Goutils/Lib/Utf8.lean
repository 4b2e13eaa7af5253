import Mathlib.Data.List.Basic

namespace Lib.Utf8
set_option autoImplicit true

def encode (cs : List Char) : List UInt8 := cs.flatMap String.utf8EncodeChar

/-- The runes of at most so many bytes; a byte that begins none is U+FFFD. -/
def runesUpTo : Nat → List UInt8 → List Char
  | 0, _ | _, [] => []
  | n + 1, b :: bs =>
    match (b :: bs).toByteArray.utf8DecodeChar? 0 with
    | some c => c :: runesUpTo n ((b :: bs).drop c.utf8Size)
    | none => Char.ofNat 0xFFFD :: runesUpTo n bs

def runes (bs : List UInt8) : List Char := runesUpTo bs.length bs

def Valid (bs : List UInt8) : Prop := ∃ cs, bs = encode cs

@[simp] theorem encode_cons (c : Char) (cs : List Char) :
    encode (c :: cs) = String.utf8EncodeChar c ++ encode cs := rfl

theorem runesUpTo_encode {n : Nat} (cs : List Char) (h : (encode cs).length ≤ n) :
    runesUpTo n (encode cs) = cs := by
  induction cs generalizing n with
  | nil => cases n <;> rfl
  | cons c cs ih =>
    have hsize := String.length_utf8EncodeChar c
    have hpos := c.utf8Size_pos
    have hdrop : (encode (c :: cs)).drop c.utf8Size = encode cs := by
      rw [encode_cons, List.drop_append_of_le_length (Nat.le_of_eq hsize.symm), ← hsize,
        List.drop_length, List.nil_append]
    have hdecode : (encode (c :: cs)).toByteArray.utf8DecodeChar? 0 = some c := by
      rw [encode_cons, List.toByteArray_append]
      exact ByteArray.utf8DecodeChar?_utf8EncodeChar_append
    obtain ⟨b, bs, hcons⟩ : ∃ b bs, encode (c :: cs) = b :: bs := by
      apply List.exists_cons_of_length_pos
      rw [encode_cons, List.length_append]
      omega
    cases n with
    | zero =>
      rw [hcons, List.length_cons] at h
      omega
    | succ n =>
      rw [encode_cons, List.length_append] at h
      rw [hcons] at hdrop hdecode ⊢
      rw [runesUpTo, hdecode]
      simp only [hdrop]
      rw [ih (by omega)]

@[simp] theorem runes_encode (cs : List Char) : runes (encode cs) = cs :=
  runesUpTo_encode cs Nat.le.refl

theorem encode_runes_iff {bs : List UInt8} : encode (runes bs) = bs ↔ Valid bs := by
  constructor
  · intro h
    exact ⟨runes bs, h.symm⟩
  · rintro ⟨cs, rfl⟩
    rw [runes_encode]

end Lib.Utf8

def Lib.goString (s : String) : List UInt8 := Utf8.encode s.toList
