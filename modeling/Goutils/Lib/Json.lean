import Goutils.Lib.Forest

namespace Lib
set_option autoImplicit true

inductive Scalar where
  | null
  | num (n : Int)
  | str (s : String)

abbrev Json := Entry String Scalar

namespace Json

abbrev Members := Forest String Scalar

/-- `json.UnmarshalTypeError`: a value of some kind for a Go type that cannot hold it. -/
structure UnmarshalTypeError where
  value : String
  type : String
  deriving DecidableEq

/-- Simple case folding, exact for the letters of ASCII. -/
def foldRune (c : Char) : Char :=
  if c.toNat = 0x17F then 'S' else if c.toNat = 0x212A then 'K' else c.toUpper

def foldName (s : String) : List Char := s.toList.map foldRune

/-- The field of a struct that a key stands for: that of this name, or else the first one whose
name is equal up to case. -/
def field? (names : List String) (key : String) : Option String :=
  if key ∈ names then some key else names.find? fun name => foldName name == foldName key

/-- What is decoded so far, and the first type error. A type error does not end the decoding. -/
abbrev Decoding (σ : Type) := σ × Option UnmarshalTypeError

def saveError (value type : String) (s : Decoding σ) : Decoding σ :=
  (s.1, s.2 <|> some ⟨value, type⟩)

def kind : Json → String
  | .leaf .null => "null"
  | .leaf (.num _) => "number"
  | .leaf (.str _) => "string"
  | .node _ => "object"

def intoInt (v : Json) (s : Decoding Int) : Decoding Int :=
  match v with
  | .leaf .null => s
  | .leaf (.num n) => (n, s.2)
  | _ => saveError v.kind "int" s

/-- Decode into a `*int`, which points to an `int` before the type of the value is looked at. -/
def intoIntPtr (v : Json) (s : Decoding (Option Int)) : Decoding (Option Int) :=
  match v with
  | .leaf .null => (none, s.2)
  | .leaf (.num n) => (some n, s.2)
  | _ => saveError v.kind "int" (some (s.1.getD 0), s.2)

def intoString (v : Json) (s : Decoding String) : Decoding String :=
  match v with
  | .leaf .null => s
  | .leaf (.str t) => (t, s.2)
  | _ => saveError v.kind "string" s

def intoPart (get : σ → τ) (set : τ → σ → σ) (into : Json → Decoding τ → Decoding τ) (v : Json)
    (s : Decoding σ) : Decoding σ :=
  let part := into v (get s.1, s.2)
  (set part.1 s.1, part.2)

def intoField (names : List String) (into : String → Json → Decoding σ → Decoding σ) (key : String)
    (v : Json) (s : Decoding σ) : Decoding σ :=
  match field? names key with
  | none => s
  | some field => into field v s

def intoStruct (names : List String) (into : String → Json → Decoding σ → Decoding σ) :
    Members → Decoding σ → Decoding σ
  | .nil, s => s
  | .leaf key v rest, s => intoStruct names into rest (intoField names into key (.leaf v) s)
  | .node key ms rest, s => intoStruct names into rest (intoField names into key (.node ms) s)

def AllObjects : Members → Prop
  | .nil => True
  | .leaf _ _ _ => False
  | .node _ _ rest => AllObjects rest

theorem intoStruct_objects {names : List String} {into : String → Json → Decoding σ → Decoding σ}
    {P : Decoding σ → Prop} {members : Members} (hm : AllObjects members)
    (hinto : ∀ field ms s, P s → P (into field (.node ms) s)) (h : P s) :
    P (intoStruct names into members s) := by
  induction members generalizing s with
  | nil => exact h
  | leaf key v rest ih => exact hm.elim
  | node key ms rest _ ih =>
    apply ih hm
    unfold intoField
    split
    · exact h
    · exact hinto _ ms s h

end Json

end Lib
