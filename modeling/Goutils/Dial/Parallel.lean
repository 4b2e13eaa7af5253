import Goutils.Dial.Multicast

namespace Goutils.Dial.Parallel
open Goutils.Rpc (GoErr)
set_option autoImplicit true

structure DialResult (C : Type) where
  conn : Option C := none
  cached : Bool := false
  err : Option GoErr := none
  skipDirect : Bool := false

def multicastResult : Except GoErr (C × Bool) → DialResult C
  | .error err => { err := some err }
  | .ok (conn, cached) => { conn := some conn, cached }

/-- What the goroutine of the attempt by WebRTC sends when it has dialed, with the error of
`ctxParallel`. -/
def webrtcResult (ctxErr : Option GoErr) : Except GoErr (C × Bool) → DialResult C
  | .ok (conn, cached) => { conn := some conn, cached }
  | .error err =>
    if !err.is errNoWebRTCSignaler then { err := some err, skipDirect := true }
    else
      match ctxErr with
      | some ctxErr => { err := some ctxErr, skipDirect := true }
      | none => { err := some err }

def addressResult (err : GoErr) : DialResult C := { err := some err, skipDirect := true }

/-- The results that attempts send on `dialCh`. -/
inductive DialResult.Sent : DialResult C → Prop where
  | multicast (outcome : Except GoErr (C × Bool)) : Sent (multicastResult outcome)
  | webrtc (ctxErr : Option GoErr) (outcome : Except GoErr (C × Bool)) :
      Sent (webrtcResult ctxErr outcome)
  | address (err : GoErr) : Sent (addressResult err)

theorem DialResult.Sent.err_of_skipDirect {r : DialResult C} (h : r.Sent)
    (hs : r.skipDirect = true) : ∃ err, r.err = some err := by
  cases h with
  | multicast outcome => cases outcome <;> cases hs
  | webrtc ctxErr outcome =>
    cases outcome with
    | ok c => cases hs
    | error err =>
      unfold webrtcResult
      dsimp only
      split
      · exact ⟨err, rfl⟩
      · cases ctxErr with
        | none => exact ⟨err, rfl⟩
        | some e => exact ⟨e, rfl⟩
  | address err => exact ⟨err, rfl⟩

/-- The variables of the loop of `dial`, and what it has closed and cancelled. -/
structure Loop (C : Type) where
  conn : Option C := none
  cached : Bool := false
  fatalErr : Option GoErr := none
  nonFatalErr : Option GoErr := none
  closed : List C := []
  canceled : Bool := false

def combineErr (acc : Option GoErr) (err : GoErr) : Option GoErr :=
  some (acc.elim err fun acc => .combine acc err)

def Loop.receive (s : Loop C) (r : DialResult C) : Loop C :=
  match r.err, r.conn with
  | none, some conn =>
    { s with
      closed := s.closed ++ s.conn.toList
      conn := some conn
      cached := r.cached
      canceled := true }
  | none, none => s
  | some err, _ =>
    if r.skipDirect then { s with fatalErr := combineErr s.fatalErr err }
    else { s with nonFatalErr := combineErr s.nonFatalErr err }

/-- What `dial` returns, the connections that it has closed and whether it has dialed directly. -/
structure Outcome (C : Type) where
  result : Except GoErr (C × Bool)
  closed : List C
  direct : Bool

/-- The rest of `dial`, with what dialing directly gives. -/
def Loop.finish (s : Loop C) (disableDirect : Bool) (direct : Except GoErr (C × Bool)) :
    Outcome C :=
  match s.conn, s.fatalErr with
  | some conn, _ => { result := .ok (conn, s.cached), closed := s.closed, direct := false }
  | none, some err => { result := .error err, closed := s.closed, direct := false }
  | none, none =>
    if disableDirect then
      { result := .error errConnectionOptionsExhausted, closed := s.closed, direct := false }
    else
      { result := direct.mapError fun err => s.nonFatalErr.elim err fun e => .combine err e
        closed := s.closed
        direct := true }

/-- `dial` from its loop on, for the results that come in on `dialCh`. -/
def dial (disableDirect : Bool) (direct : Except GoErr (C × Bool)) (results : List (DialResult C)) :
    Outcome C :=
  (results.foldl Loop.receive {}).finish disableDirect direct

def successes (results : List (DialResult C)) : List C :=
  results.filterMap fun r => if r.err.isNone then r.conn else none

def fatals (results : List (DialResult C)) : List GoErr :=
  results.filterMap fun r => if r.skipDirect then r.err else none

/-- What the loop has done after some results: it holds the last connection that came in, and has
closed those before it. -/
structure Loop.Follows (s t : Loop C) (results : List (DialResult C)) : Prop where
  conn : t.conn = (s.conn.toList ++ successes results).getLast?
  closed : t.closed = s.closed ++ (s.conn.toList ++ successes results).dropLast
  fatalErr : t.fatalErr = (fatals results).foldl combineErr s.fatalErr

theorem Loop.foldl_receive (s : Loop C) (results : List (DialResult C)) :
    s.Follows (results.foldl receive s) results := by
  induction results generalizing s with
  | nil =>
    constructor
    · cases hc : s.conn <;> simp [successes, hc]
    · cases hc : s.conn <;> simp [successes]
    · rfl
  | cons r results ih =>
    obtain ⟨conn, cached, err, skipDirect⟩ := r
    obtain ⟨hconn, hclosed, hfatal⟩ := ih (s.receive ⟨conn, cached, err, skipDirect⟩)
    rw [List.foldl_cons]
    cases err with
    | none =>
      cases conn with
      | none => cases skipDirect <;> exact ⟨hconn, hclosed, hfatal⟩
      | some c =>
        have hnew : successes (⟨some c, cached, none, skipDirect⟩ :: results) =
          c :: successes results := rfl
        refine ⟨?_, ?_, ?_⟩
        · rw [hconn, hnew]
          cases s.conn <;> simp [receive]
        · rw [hclosed, hnew]
          cases hc : s.conn <;> simp [receive, hc]
        · cases skipDirect <;> exact hfatal
    | some e =>
      cases skipDirect with
      | false | true => exact ⟨hconn, hclosed, hfatal⟩

/-- The documented policy: the first connection is used and the others are closed. -/
structure FirstWins [DecidableEq C] (disableDirect : Bool) (direct : Except GoErr (C × Bool))
    (results : List (DialResult C)) (o : Outcome C) : Prop where
  first : ∀ c cs, successes results = c :: cs →
    (∃ cached, o.result = .ok (c, cached)) ∧ c ∉ o.closed ∧ ∀ c' ∈ cs, o.closed.count c' = 1
  fatal : successes results = [] → (∃ r ∈ results, r.skipDirect = true) →
    (∃ err, (fatals results).foldl combineErr none = some err ∧ o.result = .error err) ∧
      o.direct = false
  fallback : successes results = [] → (∀ r ∈ results, r.skipDirect = false) →
    if disableDirect then o.result = .error errConnectionOptionsExhausted ∧ o.direct = false
    else o.direct = true ∧ ∀ c, direct = .ok c → o.result = .ok c

section

variable (disableDirect : Bool) (direct : Except GoErr (C × Bool)) {results : List (DialResult C)}

theorem dial_of_success (h : (successes results).getLast? = some c) :
    (∃ cached, (dial disableDirect direct results).result = .ok (c, cached)) ∧
      (dial disableDirect direct results).closed = (successes results).dropLast := by
  obtain ⟨hconn, hclosed, _⟩ := Loop.foldl_receive {} results
  have hc : (results.foldl Loop.receive {}).conn = some c := by
    rw [hconn, ← h]
    rfl
  unfold dial Loop.finish
  rw [hc, hclosed]
  exact ⟨⟨_, rfl⟩, rfl⟩

theorem dial_of_none (h : successes results = []) :
    (results.foldl Loop.receive {}).conn = none := by
  rw [(Loop.foldl_receive {} results).conn, h]
  rfl

theorem foldl_combineErr_isSome (acc : Option GoErr) (errs : List GoErr)
    (h : acc.isSome = true ∨ errs ≠ []) : (errs.foldl combineErr acc).isSome = true := by
  induction errs generalizing acc with
  | nil => exact h.resolve_right fun hne => hne rfl
  | cons err errs ih => exact ih (combineErr acc err) (.inl rfl)

theorem dial_fatal (hsent : ∀ r ∈ results, r.Sent) (h : successes results = [])
    (hskip : ∃ r ∈ results, r.skipDirect = true) :
    (∃ err, (fatals results).foldl combineErr none = some err ∧
      (dial disableDirect direct results).result = .error err) ∧
      (dial disableDirect direct results).direct = false := by
  have hne : fatals results ≠ [] := by
    obtain ⟨r, hr, hs⟩ := hskip
    obtain ⟨err, herr⟩ := (hsent r hr).err_of_skipDirect hs
    apply List.ne_nil_of_mem (a := err)
    rw [fatals, List.mem_filterMap]
    exact ⟨r, hr, by rw [hs, if_pos rfl, herr]⟩
  obtain ⟨err, herr⟩ := Option.isSome_iff_exists.1
    (foldl_combineErr_isSome none (fatals results) (.inr hne))
  have hfatal : (results.foldl Loop.receive {}).fatalErr = some err := by
    rw [(Loop.foldl_receive {} results).fatalErr, ← herr]
  unfold dial Loop.finish
  rw [dial_of_none h, hfatal]
  exact ⟨⟨err, herr, rfl⟩, rfl⟩

theorem dial_fallback (h : successes results = []) (hskip : ∀ r ∈ results, r.skipDirect = false) :
    if disableDirect then (dial disableDirect direct results).result =
        .error errConnectionOptionsExhausted ∧ (dial disableDirect direct results).direct = false
    else (dial disableDirect direct results).direct = true ∧
      ∀ c, direct = .ok c → (dial disableDirect direct results).result = .ok c := by
  have hnil : fatals results = [] := by
    rw [fatals, List.filterMap_eq_nil_iff]
    intro r hr
    rw [hskip r hr]
    rfl
  have hfatal : (results.foldl Loop.receive {}).fatalErr = none := by
    rw [(Loop.foldl_receive {} results).fatalErr, hnil]
    rfl
  unfold dial Loop.finish
  rw [dial_of_none h, hfatal]
  cases disableDirect with
  | true => exact ⟨rfl, rfl⟩
  | false =>
    refine ⟨rfl, ?_⟩
    rintro c rfl
    rfl

/-- `dial` follows the documented policy just if at most one attempt succeeds; if more do it uses
the last connection and has closed the first. -/
theorem dial_firstWins_iff [DecidableEq C] (hsent : ∀ r ∈ results, r.Sent) :
    FirstWins disableDirect direct results (dial disableDirect direct results) ↔
      (successes results).length ≤ 1 := by
  constructor
  · intro h
    by_contra hlen
    obtain ⟨c, c', cs, hcs⟩ : ∃ c c' cs, successes results = c :: c' :: cs := by
      match hs : successes results with
      | [] | [c] => simp [hs] at hlen
      | c :: c' :: cs => exact ⟨c, c', cs, rfl⟩
    have hne : successes results ≠ [] := by
      rw [hcs]
      exact List.cons_ne_nil c (c' :: cs)
    have hlast := List.getLast?_eq_some_getLast hne
    obtain ⟨_, hclosed⟩ := dial_of_success disableDirect direct hlast
    apply (h.first c (c' :: cs) hcs).2.1
    rw [hclosed, hcs]
    exact List.mem_cons_self
  · intro hlen
    refine ⟨?_, dial_fatal disableDirect direct hsent, dial_fallback disableDirect direct⟩
    intro c cs hcs
    rw [hcs, List.length_cons] at hlen
    have hnil : cs = [] := List.length_eq_zero_iff.1 (by omega)
    subst hnil
    have hlast : (successes results).getLast? = some c := by
      rw [hcs]
      rfl
    obtain ⟨hresult, hclosed⟩ := dial_of_success disableDirect direct hlast
    refine ⟨hresult, ?_, fun c' hc' => absurd hc' List.not_mem_nil⟩
    rw [hclosed, hcs]
    exact List.not_mem_nil

end

def oneSuccess : List (DialResult Nat) :=
  [multicastResult (.error (.text "no mDNS service")), webrtcResult none (.ok (1, false))]

theorem oneSuccess_sent : ∀ r ∈ oneSuccess, r.Sent := by
  intro r hr
  rcases List.mem_pair.1 hr with rfl | rfl
  · exact .multicast _
  · exact .webrtc _ _

theorem dial_firstWins_oneSuccess :
    FirstWins false (.error .eof) oneSuccess (dial false (.error .eof) oneSuccess) :=
  (dial_firstWins_iff false (.error .eof) oneSuccess_sent).2 (by decide)

/-- Both attempts connect, the one by mDNS first: its connection is closed and the slower one is
returned. -/
theorem dial_uses_last :
    ∃ results : List (DialResult Nat), (∀ r ∈ results, r.Sent) ∧ successes results = [1, 2] ∧
      (dial false (.error .eof) results).result = .ok (2, false) ∧
      (dial false (.error .eof) results).closed = [1] := by
  refine ⟨[multicastResult (.ok (1, false)), webrtcResult none (.ok (2, false))], ?_, rfl, rfl, rfl⟩
  intro r hr
  rcases List.mem_pair.1 hr with rfl | rfl
  · exact .multicast _
  · exact .webrtc _ _

end Goutils.Dial.Parallel
