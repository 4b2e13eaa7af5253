import Goutils.Auth.Options
import Goutils.Auth.Decision

namespace Goutils.Auth
open Lib.Jwt
open Goutils.Rpc (GoErr)
set_option autoImplicit true

/-- A key of the server, registered under its own id, for a method that tokens may have. -/
structure OwnKey (keys : KeyFunctions κ σ) (id : String) (data : AuthKeyData κ σ) : Prop where
  id : data.id = id
  pair : ∃ priv, data.privateKey = some priv ∧ data.publicKey = some (keys.publicKey priv)
  method : ∃ method, data.method = some method ∧ method.alg ∈ validSigningMethods

def OwnKeys (keys : KeyFunctions κ σ) (authKeys : AList fun _ : String => AuthKeyData κ σ) : Prop :=
  ∀ id data, authKeys.lookup id = some data → OwnKey keys id data

variable {o : ServerOptions κ σ δ}

theorem OwnKeys.addKey (h : OwnKeys keys o.authKeys) (hmethod : method.alg ∈ validSigningMethods)
    (id : String) (priv : σ) :
    OwnKeys keys (o.addKey method id priv (keys.publicKey priv)).authKeys := by
  intro id' data hdata
  simp only [ServerOptions.addKey] at hdata
  by_cases hid : id' = id
  · subst hid
    rw [AList.lookup_insert] at hdata
    cases hdata
    exact ⟨rfl, ⟨priv, rfl, rfl⟩, method, rfl, hmethod⟩
  · rw [AList.lookup_insert_ne hid] at hdata
    exact h id' data hdata

theorem addHandlers_authKeys (h : o.addHandlers forType handler = .ok o') :
    o'.authKeys = o.authKeys := by
  unfold ServerOptions.addHandlers at h
  split at h
  · cases h
  split at h
  · cases h
  cases hm : mergeCredAuthHandlers forType ((o.authHandlersForCreds.lookup forType).getD {})
      handler with
  | error err => simp [hm, Except.map] at h
  | ok merged =>
    simp only [hm, Except.map, Except.ok.injEq] at h
    rw [← h]

theorem OwnKeys.apply (h : OwnKeys keys o.authKeys) (ho : o.apply keys opt = .ok o') :
    OwnKeys keys o'.authKeys := by
  cases opt with
  | withAuthRSAPrivateKey priv | withAuthED25519PrivateKey priv =>
    cases ho
    exact h.addKey (by decide) _ priv
  | withCredAuthHandlers forType handler =>
    rw [addHandlers_authKeys ho]
    exact h
  | withInstanceNames | withAuthAudience | withAuthIssuer =>
    simp only [ServerOptions.apply] at ho
    split at ho <;> cases ho
    exact h
  | _ =>
    cases ho
    exact h

theorem OwnKeys.applyAll (h : OwnKeys keys o.authKeys) (ho : o.applyAll keys opts = .ok o') :
    OwnKeys keys o'.authKeys := by
  induction opts generalizing o with
  | nil =>
    cases ho
    exact h
  | cons opt opts ih =>
    simp only [ServerOptions.applyAll] at ho
    split at ho
    · cases ho
    · rename_i o₁ happly
      exact ih (h.apply happly) ho

/-- What `NewServer` guarantees of the signing key and the audience. -/
structure Admitted (keys : KeyFunctions κ σ) (ss : SimpleServer κ σ δ) : Prop where
  audience : ss.authAudience ≠ []
  signing : (∀ forType, ss.authHandlersForCreds.lookup forType = none) ∨
    OwnKey keys ss.authKeyForJWTSigning.id ss.authKeyForJWTSigning ∧
      ss.authKeys.lookup ss.authKeyForJWTSigning.id = some ss.authKeyForJWTSigning

end Goutils.Auth
