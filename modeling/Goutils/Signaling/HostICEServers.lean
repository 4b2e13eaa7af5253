import Goutils.Lib.Sync
import Goutils.Lib.Wire

namespace Goutils.Signaling
open Lib
open Lib.Wire (Bytes)
set_option autoImplicit true

/-- `hostICEServers`, with the hosts that the servers were cached for. -/
structure HostICEServers where
  hosts : List Bytes
  servers : List String
  expires : Nat
  deriving DecidableEq

/-- Where a call stands; `additionalICEServers` is from `read` to `store`. -/
inductive ICEPc where
  | recvOffer
  | read
  | check (hostServers : Option HostICEServers)
  | config
  | store (servers : List String) (expires : Nat)
  | exchange
  | clear
  | returned
  deriving DecidableEq

/-- A call of `Answer`, or of `OptionalWebRTCConfig`, which does not cache. -/
structure ICECall where
  answer : Bool
  hosts : List Bytes
  pc : ICEPc

/-- The server, with the hosts that were `served` from the cache. -/
structure ICEState where
  provider : Bool := true
  cache : Bytes → Option HostICEServers := fun _ => none
  calls : List ICECall := []
  served : List (List Bytes × List Bytes) := []

def hostsKey (hosts : List Bytes) : Bytes := [44].intercalate hosts

def ICECall.next (c : ICECall) (ok : Bool) : ICEPc :=
  if c.answer = false then .returned else if ok then .exchange else .clear

inductive ICECallAct where
  | recvOffer (ok : Bool)
  | read
  | check (now : Nat)
  | config (r : Option (List String × Nat))
  | store
  | finish
  | clear

def clearAdditionalICEServers (cache : Bytes → Option HostICEServers) (hosts : List Bytes) :
    Bytes → Option HostICEServers :=
  hosts.foldl (fun cache host => Function.update cache host none) cache

def ICECall.step (s : ICEState) (c : ICECall) : ICECallAct → Option (ICEState × ICEPc)
  | .recvOffer ok => if c.pc = .recvOffer then some (s, if ok then .read else .clear) else none
  | .read =>
    if c.pc = .read then
      some (s, if s.provider then .check (s.cache (hostsKey c.hosts)) else c.next true)
    else none
  | .check now =>
    match c.pc with
    | .check (some e) =>
      if now < e.expires then
        some ({ s with served := s.served ++ [(c.hosts, e.hosts)] }, c.next true)
      else some (s, .config)
    | .check none => some (s, .config)
    | _ => none
  | .config r =>
    if c.pc = .config then
      match r with
      | none => some (s, c.next false)
      | some (servers, expires) =>
        some (s, if c.answer then .store servers expires else .returned)
    else none
  | .store =>
    match c.pc with
    | .store servers expires =>
      some ({ s with
        cache := Function.update s.cache (hostsKey c.hosts) (some ⟨c.hosts, servers, expires⟩) },
        .exchange)
    | _ => none
  | .finish => if c.pc = .exchange then some (s, .clear) else none
  | .clear =>
    if c.pc = .clear then
      some ({ s with cache := clearAdditionalICEServers s.cache c.hosts }, .returned)
    else none

inductive ICEAct where
  | start (answer : Bool) (hosts : List Bytes)
  | call (i : Nat) (a : ICECallAct)

/-- A call begins when its hosts are validated; there is at least one. -/
def iceStep (s : ICEState) : ICEAct → Option ICEState
  | .start answer hosts =>
    if hosts = [] then none
    else some { s with
      calls := s.calls ++ [⟨answer, hosts, if answer then .recvOffer else .read⟩] }
  | .call i a =>
    match s.calls[i]? with
    | none => none
    | some c => (c.step s a).map fun (s', pc) => { s' with calls := s.calls.set i { c with pc } }

def iceMachine : Machine ICEState ICEAct where
  init s := s = { provider := s.provider }
  step := iceStep

inductive ICECall.Step (s : ICEState) (c : ICECall) : ICEState → ICEPc → Prop where
  | move {q : ICEPc} : (c.pc = .exchange → q = .clear) → c.pc ≠ .clear → (∀ e, q ≠ .check e) →
      (∀ servers expires, q = .store servers expires → c.answer = true) → Step s c s q
  | read : c.pc = .read → Step s c s (.check (s.cache (hostsKey c.hosts)))
  | hit : c.pc = .check (some e) →
      Step s c { s with served := s.served ++ [(c.hosts, e.hosts)] } (c.next true)
  | store : c.pc = .store servers expires → Step s c { s with
      cache := Function.update s.cache (hostsKey c.hosts) (some ⟨c.hosts, servers, expires⟩) }
      .exchange
  | clear : Step s c { s with cache := clearAdditionalICEServers s.cache c.hosts } .returned

namespace ICECall
variable {s s' : ICEState} {c : ICECall} {q : ICEPc}

theorem next_cases (c : ICECall) (ok : Bool) :
    c.next ok = .returned ∨ c.next ok = .exchange ∨ c.next ok = .clear := by
  unfold next
  split
  · exact .inl rfl
  · split
    · exact .inr (.inl rfl)
    · exact .inr (.inr rfl)

theorem Step.next (hpc : c.pc ≠ .exchange ∧ c.pc ≠ .clear) (ok : Bool) :
    c.Step s s (c.next ok) := by
  rcases c.next_cases ok with h | h | h <;> rw [h]
  all_goals exact .move (fun he => absurd he hpc.1) hpc.2 nofun nofun

theorem step_step (h : c.step s a = some (s', q)) : c.Step s s' q := by
  unfold step at h
  cases a with
  | recvOffer ok =>
    simp only at h
    split at h <;> cases h
    rename_i hpc
    split
    all_goals exact .move (by rw [hpc]; nofun) (by rw [hpc]; nofun) nofun nofun
  | read =>
    simp only at h
    split at h <;> cases h
    rename_i hpc
    split
    · exact .read hpc
    · exact .next (by rw [hpc]; exact ⟨nofun, nofun⟩) true
  | check now =>
    simp only at h
    split at h
    · rename_i hpc
      split at h <;> cases h
      · exact .hit hpc
      · exact .move (by rw [hpc]; nofun) (by rw [hpc]; nofun) nofun nofun
    · rename_i hpc
      cases h
      exact .move (by rw [hpc]; nofun) (by rw [hpc]; nofun) nofun nofun
    · cases h
  | config r =>
    simp only at h
    split at h
    · rename_i hpc
      split at h <;> cases h
      · exact .next (by rw [hpc]; exact ⟨nofun, nofun⟩) false
      · split
        · exact .move (by rw [hpc]; nofun) (by rw [hpc]; nofun) nofun fun _ _ _ => ‹_›
        · exact .move (by rw [hpc]; nofun) (by rw [hpc]; nofun) nofun nofun
    · cases h
  | store =>
    simp only at h
    split at h <;> cases h
    exact .store ‹_›
  | finish =>
    simp only at h
    split at h <;> cases h
    exact .move (fun _ => rfl) (by rw [‹c.pc = _›]; nofun) nofun nofun
  | clear =>
    simp only at h
    split at h <;> cases h
    exact .clear

end ICECall

theorem mem_clearAdditionalICEServers {cache : Bytes → Option HostICEServers} {hosts : List Bytes}
    (h : clearAdditionalICEServers cache hosts k = some e) : k ∉ hosts ∧ cache k = some e := by
  induction hosts generalizing cache with
  | nil => exact ⟨List.not_mem_nil, h⟩
  | cons host hosts ih =>
    obtain ⟨hmem, hcache⟩ := ih h
    by_cases hk : k = host
    · rw [hk] at hcache
      simp at hcache
    · have hold : cache k = some e := (Function.update_of_ne hk _ _).symm.trans hcache
      exact ⟨List.not_mem_cons_of_ne_of_not_mem hk hmem, hold⟩

def OneHost (_ : ICEState) : ICEAct → Prop
  | .start true hosts => hosts.length = 1
  | _ => True

def NoComma (_ : ICEState) : ICEAct → Prop
  | .start _ hosts => ∀ host ∈ hosts, 44 ∉ host
  | _ => True

theorem iceStep_cases {s s' : ICEState} (h : iceStep s a = some s') :
    (∃ answer hosts, a = .start answer hosts ∧ hosts ≠ [] ∧ s' = { s with
      calls := s.calls ++ [⟨answer, hosts, if answer then .recvOffer else .read⟩] }) ∨
    ∃ (i : Nat) (c : ICECall) (s₁ : ICEState) (q : ICEPc), s.calls[i]? = some c ∧ c.Step s s₁ q ∧
      s' = { s₁ with calls := s.calls.set i { c with pc := q } } := by
  cases a with
  | start answer hosts =>
    simp only [iceStep] at h
    split at h <;> cases h
    exact .inl ⟨answer, hosts, rfl, ‹_›, rfl⟩
  | call i a =>
    simp only [iceStep] at h
    split at h
    · cases h
    · rename_i c hc
      obtain ⟨⟨s₁, q⟩, hstep, rfl⟩ := Option.map_eq_some_iff.1 h
      exact .inr ⟨i, c, s₁, q, hc, ICECall.step_step hstep, rfl⟩

def Plain (hosts : List Bytes) : Prop := hosts ≠ [] ∧ ∀ host ∈ hosts, 44 ∉ host

theorem hostsKey_inj {hosts hosts' : List Bytes} (h : Plain hosts) (h' : Plain hosts')
    (heq : hostsKey hosts = hostsKey hosts') : hosts = hosts' := by
  rw [← List.splitOn_intercalate 44 h.2 h.1, ← List.splitOn_intercalate 44 h'.2 h'.1]
  exact congrArg _ heq

namespace ICEState
variable {s s' : ICEState} {c : ICECall} {q : ICEPc}

/-- What is cached is that of an `Answer` with this host alone, which will clear it. -/
structure Owned (s : ICEState) : Prop where
  single : ∀ c ∈ s.calls, c.answer = true → ∃ host, c.hosts = [host]
  owner : ∀ k e, s.cache k = some e → ∃ (i : Nat) (c : ICECall), s.calls[i]? = some c ∧
    c.answer = true ∧ c.hosts = [k] ∧ (c.pc = .exchange ∨ c.pc = .clear)
  stores : ∀ c ∈ s.calls, ∀ servers expires, c.pc = .store servers expires → c.answer = true

namespace Owned

theorem kept (h : s.Owned) (hc : s.calls[i]? = some c) (hk : s.cache k = some e)
    (hq : c.hosts = [k] → c.pc = .exchange ∨ c.pc = .clear → q = .clear) :
    ∃ (j : Nat) (d : ICECall), (s.calls.set i { c with pc := q })[j]? = some d ∧
      d.answer = true ∧ d.hosts = [k] ∧ (d.pc = .exchange ∨ d.pc = .clear) := by
  obtain ⟨j, d, hj, ha, hh, hpc⟩ := h.owner k e hk
  by_cases hij : j = i
  · subst hij
    rw [hc] at hj
    cases hj
    refine ⟨j, _, List.getElem?_set_self (List.getElem?_eq_some_iff.1 hc).1, ha, hh, .inr ?_⟩
    exact hq hh hpc
  · exact ⟨j, d, (List.getElem?_set_ne (Ne.symm hij)).trans hj, ha, hh, hpc⟩

theorem call (h : s.Owned) (hc : s.calls[i]? = some c) (hs : c.Step s s' q) :
    Owned { s' with calls := s.calls.set i { c with pc := q } } := by
  have hmem := List.mem_of_getElem? hc
  refine ⟨fun d hd => ?_, fun k e hk => ?_, fun d hd servers expires hpc => ?_⟩
  · rcases List.mem_or_eq_of_mem_set hd with hd | rfl
    · exact h.single d hd
    · exact h.single c hmem
  · cases hs with
    | move hnext hne =>
      exact h.kept hc hk fun _ hpc => hpc.elim hnext fun he => absurd he hne
    | read hpc => exact h.kept hc hk fun _ he => absurd (hpc ▸ he) (by decide)
    | hit hpc => exact h.kept hc hk fun _ he => absurd (hpc ▸ he) nofun
    | store hpc =>
      by_cases hkey : k = hostsKey c.hosts
      · have ha := h.stores c hmem _ _ hpc
        obtain ⟨host, hhost⟩ := h.single c hmem ha
        have hk' : c.hosts = [k] := by
          rw [hkey, hhost]
          simp [hostsKey]
        exact ⟨i, _, List.getElem?_set_self (List.getElem?_eq_some_iff.1 hc).1, ha, hk', .inl rfl⟩
      · have hold : s.cache k = some e := (Function.update_of_ne hkey _ _).symm.trans hk
        exact h.kept hc hold fun _ he => absurd (hpc ▸ he) nofun
    | clear =>
      obtain ⟨hnot, hold⟩ := mem_clearAdditionalICEServers hk
      exact h.kept hc hold fun hh => absurd (hh ▸ List.mem_cons_self) hnot
  · rcases List.mem_or_eq_of_mem_set hd with hd | rfl
    · exact h.stores d hd servers expires hpc
    · cases hs with
      | move _ _ _ hstore => exact hstore _ _ hpc
      | hit =>
        rcases c.next_cases true with he | he | he <;> rw [he] at hpc <;> cases hpc
      | _ => cases hpc

theorem step (h : s.Owned) (hok : OneHost s a) (hs : iceStep s a = some s') : s'.Owned := by
  rcases iceStep_cases hs with ⟨answer, hosts, rfl, -, rfl⟩ | ⟨i, c, s₁, q, hc, hstep, rfl⟩
  · refine ⟨fun c hc ha => ?_, fun k e hk => ?_, fun c hc servers expires hpc => ?_⟩
    · rcases List.mem_append.1 hc with hc | hc
      · exact h.single c hc ha
      · cases List.mem_singleton.1 hc
        cases ha
        exact List.length_eq_one_iff.1 hok
    · obtain ⟨i, c, hc, hrest⟩ := h.owner k e hk
      exact ⟨i, c, (List.getElem?_append_left (List.getElem?_eq_some_iff.1 hc).1).trans hc, hrest⟩
    · rcases List.mem_append.1 hc with hc | hc
      · exact h.stores c hc servers expires hpc
      · cases List.mem_singleton.1 hc
        cases answer <;> cases hpc
  · exact h.call hc hstep

end Owned

/-- What is cached under the key of some hosts was cached for them. -/
structure Matching (s : ICEState) : Prop where
  plain : ∀ c ∈ s.calls, Plain c.hosts
  cached : ∀ k e, s.cache k = some e → hostsKey e.hosts = k ∧ Plain e.hosts
  checks : ∀ c ∈ s.calls, ∀ e, c.pc = .check (some e) → hostsKey e.hosts = hostsKey c.hosts ∧
    Plain e.hosts
  served : ∀ x ∈ s.served, x.1 = x.2

namespace Matching

theorem call (h : s.Matching) (hc : s.calls[i]? = some c) (hs : c.Step s s' q) :
    Matching { s' with calls := s.calls.set i { c with pc := q } } := by
  have hmem := List.mem_of_getElem? hc
  refine ⟨fun d hd => ?_, fun k e hk => ?_, fun d hd e hpc => ?_, fun x hx => ?_⟩
  · rcases List.mem_or_eq_of_mem_set hd with hd | rfl
    · exact h.plain d hd
    · exact h.plain c hmem
  · cases hs with
    | store =>
      by_cases hkey : k = hostsKey c.hosts
      · subst hkey
        cases (Function.update_self _ _ _).symm.trans hk
        exact ⟨rfl, h.plain c hmem⟩
      · exact h.cached k e ((Function.update_of_ne hkey _ _).symm.trans hk)
    | clear => exact h.cached k e (mem_clearAdditionalICEServers hk).2
    | _ => exact h.cached k e hk
  · rcases List.mem_or_eq_of_mem_set hd with hd | rfl
    · exact h.checks d hd e hpc
    · cases hs with
      | move _ _ hcheck => exact absurd hpc (hcheck _)
      | read => exact h.cached _ e (ICEPc.check.inj hpc)
      | hit =>
        rcases c.next_cases true with he | he | he <;> rw [he] at hpc <;> cases hpc
      | _ => cases hpc
  · cases hs with
    | hit hpc =>
      rcases List.mem_append.1 hx with hx | hx
      · exact h.served x hx
      · obtain ⟨hkey, hplain⟩ := h.checks c hmem _ hpc
        cases List.mem_singleton.1 hx
        exact hostsKey_inj (h.plain c hmem) hplain hkey.symm
    | _ => exact h.served x hx

theorem step (h : s.Matching) (hok : NoComma s a) (hs : iceStep s a = some s') : s'.Matching := by
  rcases iceStep_cases hs with ⟨answer, hosts, rfl, hne, rfl⟩ | ⟨i, c, s₁, q, hc, hstep, rfl⟩
  · refine ⟨fun c hc => ?_, h.cached, fun c hc e hpc => ?_, h.served⟩
    · rcases List.mem_append.1 hc with hc | hc
      · exact h.plain c hc
      · cases List.mem_singleton.1 hc
        exact ⟨hne, hok⟩
    · rcases List.mem_append.1 hc with hc | hc
      · exact h.checks c hc e hpc
      · cases List.mem_singleton.1 hc
        cases answer <;> cases hpc
  · exact h.call hc hstep

end Matching

end ICEState

/-- Nothing is cached while no `Answer` is in progress, and servers are returned for the hosts they
were cached for. -/
theorem cached_ice_servers_cleared (s : ICEState) :
    (iceMachine.ReachableWith OneHost s → (∀ c ∈ s.calls, c.answer = true → c.pc = .returned) →
      ∀ k, s.cache k = none) ∧
    (iceMachine.ReachableWith NoComma s → ∀ x ∈ s.served, x.1 = x.2) := by
  constructor
  · intro h hreturned k
    have howned : s.Owned := by
      refine h.invariant (fun s hs => ?_) fun _ _ _ hi hok hs => hi.step hok hs
      rw [show s = { provider := s.provider } from hs]
      exact ⟨nofun, nofun, nofun⟩
    cases hk : s.cache k with
    | none => rfl
    | some e =>
      obtain ⟨i, c, hc, ha, -, hpc⟩ := howned.owner k e hk
      rw [hreturned c (List.mem_of_getElem? hc) ha] at hpc
      rcases hpc with hpc | hpc <;> cases hpc
  · intro h
    have hmatching : s.Matching := by
      refine h.invariant (fun s hs => ?_) fun _ _ _ hi hok hs => hi.step hok hs
      rw [show s = { provider := s.provider } from hs]
      exact ⟨nofun, nofun, nofun, nofun⟩
    exact hmatching.served

instance (s : ICEState) : (a : ICEAct) → Decidable (OneHost s a ∧ NoComma s a)
  | .start true hosts =>
    inferInstanceAs (Decidable (hosts.length = 1 ∧ ∀ host ∈ hosts, 44 ∉ host))
  | .start false hosts => inferInstanceAs (Decidable (True ∧ ∀ host ∈ hosts, 44 ∉ host))
  | .call _ _ => inferInstanceAs (Decidable (True ∧ True))

def answerRun (hosts : List Bytes) : List ICEAct :=
  .start true hosts ::
    [.recvOffer true, .read, .check 1, .config (some (["turn"], 5)), .store].map (.call 0)

def configRun (hosts : List Bytes) : List ICEAct :=
  .start false hosts :: [.read, .check 2].map (.call 1)

theorem cached_ice_servers_cleared_one :
    ∃ s : ICEState, (∀ c ∈ s.calls, c.pc = .returned) ∧ s.served = [([[97]], [[97]])] ∧
      (∀ k, s.cache k = none) ∧ ∀ x ∈ s.served, x.1 = x.2 := by
  obtain ⟨s, hreach, hreturned, hserved⟩ : ∃ s,
      iceMachine.ReachableWith (fun s a => OneHost s a ∧ NoComma s a) s ∧
      (∀ c ∈ s.calls, c.pc = .returned) ∧ s.served = [([[97]], [[97]])] :=
    iceMachine.exists_reachableWith (fun s a => OneHost s a ∧ NoComma s a) {}
      (answerRun [[97]] ++ configRun [[97]] ++ [.call 0 .finish, .call 0 .clear]) rfl
      (by decide +kernel)
  have hcleared := (cached_ice_servers_cleared s).1 (hreach.mono fun _ _ h => h.1)
    fun c hc _ => hreturned c hc
  have hmatch := (cached_ice_servers_cleared s).2 (hreach.mono fun _ _ h => h.2)
  exact ⟨s, hreturned, hserved, hcleared, hmatch⟩

/-- What is cached for two hosts is never cleared, and it is found for one host with a comma. -/
theorem cached_ice_servers_left :
    (∃ s : ICEState, iceMachine.Reachable s ∧ (∀ c ∈ s.calls, c.pc = .returned) ∧
      (s.cache (hostsKey [[97], [98]])).isSome = true) ∧
    ∃ s : ICEState, iceMachine.Reachable s ∧ s.served = [([[97], [98]], [[97, 44, 98]])] := by
  constructor
  · exact iceMachine.exists_reachable {}
      (answerRun [[97], [98]] ++ [.call 0 .finish, .call 0 .clear]) rfl (by decide +kernel)
  · exact iceMachine.exists_reachable {} (answerRun [[97, 44, 98]] ++ configRun [[97], [98]]) rfl
      (by decide +kernel)

end Goutils.Signaling
