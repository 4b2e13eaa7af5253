import Goutils.Lib.Machine

namespace Lib.Jwt
set_option autoImplicit true

inductive SigningMethod where
  | es256 | es384 | es512
  | hs256 | hs384 | hs512
  | ps256 | ps384 | ps512
  | rs256 | rs384 | rs512
  | edDSA
  | none
  deriving DecidableEq

def SigningMethod.alg : SigningMethod → String
  | .es256 => "ES256"
  | .es384 => "ES384"
  | .es512 => "ES512"
  | .hs256 => "HS256"
  | .hs384 => "HS384"
  | .hs512 => "HS512"
  | .ps256 => "PS256"
  | .ps384 => "PS384"
  | .ps512 => "PS512"
  | .rs256 => "RS256"
  | .rs384 => "RS384"
  | .rs512 => "RS512"
  | .edDSA => "EdDSA"
  | .none => "none"

/-- A token with claims `γ`. The key id is missing if the header has none or not a string. -/
structure Token (γ : Type) where
  method : SigningMethod
  kid : Option String := none
  claims : γ
  deriving DecidableEq

/-- A token library: decoding, signatures, and the validity of claims at a time. -/
structure Library (γ κ σ : Type) where
  parseUnverified : String → Except String (Token γ)
  verify : SigningMethod → String → Option κ → Option String
  valid : Int → γ → Option String
  signedString : Token γ → Option σ → Except String String

/-- Parse, ask `keyFunc`, then check; a bad signature is reported before bad claims. -/
def Library.parseWithClaims (lib : Library γ κ σ) (now : Int) (raw : String)
    (keyFunc : Token γ → Except String (α × Option κ)) (validMethods : List String) :
    Except String (Token γ × α) :=
  match lib.parseUnverified raw with
  | .error e => .error e
  | .ok token =>
    if token.method.alg ∈ validMethods then
      match keyFunc token with
      | .error e => .error e
      | .ok (a, key) =>
        match lib.verify token.method raw key with
        | some e => .error e
        | none =>
          match lib.valid now token.claims with
          | some e => .error e
          | none => .ok (token, a)
    else .error ("signing method " ++ token.method.alg ++ " is invalid")

theorem Library.parseWithClaims_eq_ok_iff (lib : Library γ κ σ) :
    lib.parseWithClaims now raw keyFunc validMethods = .ok (token, a) ↔
      lib.parseUnverified raw = .ok token ∧ token.method.alg ∈ validMethods ∧
        (∃ key, keyFunc token = .ok (a, key) ∧ lib.verify token.method raw key = none) ∧
        lib.valid now token.claims = none := by
  constructor
  · intro h
    unfold parseWithClaims at h
    split at h
    · cases h
    rename_i t hparse
    split at h
    · rename_i hmethod
      split at h
      · cases h
      rename_i b key hkey
      split at h
      · cases h
      rename_i hverify
      split at h
      · cases h
      rename_i hvalid
      cases h
      exact ⟨hparse, hmethod, ⟨key, hkey, hverify⟩, hvalid⟩
    · cases h
  · rintro ⟨hparse, hmethod, ⟨key, hkey, hverify⟩, hvalid⟩
    simp only [parseWithClaims, hparse, if_pos hmethod, hkey, hverify, hvalid]

def verifyAud (aud : List String) (cmp : String) (required : Bool) : Bool :=
  if aud.length = 0 then !required
  else if aud.all (· = "") then !required
  else aud.contains cmp

end Lib.Jwt
