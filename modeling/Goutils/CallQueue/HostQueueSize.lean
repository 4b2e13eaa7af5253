import Goutils.CallQueue.Subscriptions

namespace Goutils.CallQueue
open Lib
set_option autoImplicit true

/-- `callerAnswererQueueSizes`: the callers and the answerers. -/
abbrev QueueSizes := Nat × Nat

def CallExchange.sizes (e : CallExchange) : QueueSizes :=
  if e.side = "caller" then (1, 0) else (0, 1)

/-- What the loops of `operatorLivenessLoop` add to which host, with the orders of their ranges. -/
def SubsState.counted (s : SubsState) (waiting exchanges : List (String × List Nat)) :
    List (String × QueueSizes) :=
  waiting.map (fun e => (e.1, (0, e.2.length))) ++
    exchanges.flatMap fun e => (e.2.filterMap (s.exchanges[·]?)).map fun e => (e.host, e.sizes)

def addSizes (hosts : String → Option QueueSizes) (e : String × QueueSizes) :
    String → Option QueueSizes :=
  Function.update hosts e.1 (some ((hosts e.1).getD 0 + e.2))

def total (host : String) (entries : List (String × QueueSizes)) : QueueSizes :=
  (entries.map fun e => if e.1 = host then e.2 else 0).sum

def maxHostAnswerersSize : Nat := 2

/-- The pipeline over the `hosts` of the operators, which are missing until their first update:
`$match`, `$project` with `$unwind`, `$match`, `$group` and the last `$match`. -/
def checkHostQueueSize (maxHostCallers : Nat)
    (operators : List (Option (List (String × QueueSizes)))) (forCaller : Bool)
    (hosts : List String) : Bool :=
  let operators := operators.filter fun doc => (doc.getD []).any (·.1 ∈ hosts)
  let entries := (operators.flatMap (·.getD [])).filter (·.1 ∈ hosts)
  (entries.map Prod.fst).dedup.any fun host =>
    if forCaller then maxHostCallers ≤ (total host entries).1
    else maxHostAnswerersSize * 2 ≤ (total host entries).2

/-- A range over a table and over the inner maps, in any order. -/
structure Ranges (order : List (String × List Nat)) (table : String → Option (Finset Nat)) :
    Prop where
  keys : (order.map Prod.fst).Nodup
  nodup : ∀ e ∈ order, e.2.Nodup
  entries : ∀ key subs, table key = some subs ↔ ∃ e ∈ order, e.1 = key ∧ e.2.toFinset = subs

/-- An operator as it was at its last update, with the orders of its loops. -/
structure Operator where
  state : SubsState
  waiting : List (String × List Nat)
  exchanges : List (String × List Nat)
  hosts : List (String × QueueSizes)

structure Operator.Reported (o : Operator) : Prop where
  reachable : subsMachine.Reachable o.state
  waiting : Ranges o.waiting o.state.waitingForNewCallSubs
  exchanges : Ranges o.exchanges o.state.exchangesOf
  nodup : (o.hosts.map Prod.fst).Nodup
  hosts : ∀ e, e ∈ o.hosts ↔
    (o.state.counted o.waiting o.exchanges).foldl addSizes (fun _ => none) e.1 = some e.2

namespace SubsState

def handlersOf (s : SubsState) (host : String) : List NewCallHandler :=
  s.handlers.filter fun h => h.phase ≠ .unsubscribed ∧ host ∈ h.hosts

def exchangesFor (s : SubsState) (host : String) : List CallExchange :=
  s.exchanges.filter fun e => e.live ∧ e.host = host

def sizes (s : SubsState) (host : String) : QueueSizes :=
  (0, (s.handlersOf host).length) + ((s.exchangesFor host).map CallExchange.sizes).sum

end SubsState

section Total

variable {l l' : List (String × QueueSizes)} {host : String}

theorem total_append (host : String) (l l' : List (String × QueueSizes)) :
    total host (l ++ l') = total host l + total host l' := by
  rw [total, List.map_append, List.sum_append]
  rfl

theorem total_of_not_mem (h : host ∉ l.map Prod.fst) : total host l = 0 := by
  apply List.sum_eq_zero
  intro z hz
  obtain ⟨e, he, rfl⟩ := List.mem_map.1 hz
  refine if_neg fun heq => h ?_
  exact heq ▸ List.mem_map_of_mem he

theorem total_of_mem (hn : (l.map Prod.fst).Nodup) (he : e ∈ l) : total e.1 l = e.2 := by
  obtain ⟨l₁, l₂, rfl⟩ := List.append_of_mem he
  rw [List.map_append, List.map_cons, List.nodup_middle, List.nodup_cons, ← List.map_append] at hn
  have hrest := total_of_not_mem hn.1
  rw [total_append] at hrest
  have hcons : total e.1 (e :: l₂) = e.2 + total e.1 l₂ := by simp [total]
  rw [total_append, hcons, add_left_comm, hrest, add_zero]

theorem foldl_addSizes (l : List (String × QueueSizes)) (hosts : String → Option QueueSizes)
    (host : String) : l.foldl addSizes hosts host =
      if host ∈ l.map Prod.fst then some ((hosts host).getD 0 + total host l) else hosts host := by
  induction l generalizing hosts with
  | nil => rfl
  | cons e l ih =>
    rw [List.foldl_cons, ih]
    by_cases he : host = e.1
    · subst he
      simp only [addSizes, total, Function.update_self, Option.getD_some, List.map_cons,
        List.mem_cons, true_or, if_true, List.sum_cons, add_assoc]
      split
      · rfl
      · have hzero := total_of_not_mem ‹_›
        rw [total] at hzero
        rw [hzero, add_zero]
    · simp only [addSizes, total, Function.update_of_ne he, List.map_cons, List.mem_cons, he,
        false_or, Ne.symm he, if_false, List.sum_cons, zero_add]

end Total

namespace Ranges

variable {order : List (String × List Nat)} {table : String → Option (Finset Nat)}
  {p : String → Nat → Prop} (h : Ranges order table) (hf : ∀ key, Files (table key) (p key))

include h hf

theorem mem_iff (he : e ∈ order) (k : Nat) : k ∈ e.2 ↔ p e.1 k := by
  have htable := (h.entries e.1 _).2 ⟨e, he, rfl, rfl⟩
  rw [← (hf e.1).mem k, htable, Option.getD_some, List.mem_toFinset]

theorem exists_of (hp : p key k) : ∃ e ∈ order, e.1 = key ∧ k ∈ e.2 := by
  have hmem := ((hf key).mem k).2 hp
  cases htable : table key with
  | none => simp [htable] at hmem
  | some subs =>
    obtain ⟨e, he, rfl, -⟩ := (h.entries key subs).1 htable
    exact ⟨e, he, rfl, (h.mem_iff hf he k).2 hp⟩

theorem exists_mem (he : e ∈ order) : ∃ k, p e.1 k := by
  obtain ⟨key, ks⟩ := e
  cases ks with
  | nil => exact absurd ((h.entries key ∅).2 ⟨_, he, rfl, rfl⟩) (hf key).nonempty
  | cons k ks => exact ⟨k, (h.mem_iff hf he k).1 List.mem_cons_self⟩

end Ranges

namespace SubsState

variable {s : SubsState} {waiting exchanges : List (String × List Nat)} (hI : s.Inv)
  (hw : Ranges waiting s.waitingForNewCallSubs) (he : Ranges exchanges s.exchangesOf)

include hI

section
include hw

theorem waiting_iff (host : String) : host ∈ waiting.map Prod.fst ↔ s.handlersOf host ≠ [] := by
  rw [handlersOf, Ne, List.filter_eq_nil_iff]
  constructor
  · intro hmem hnone
    obtain ⟨e, he, rfl⟩ := List.mem_map.1 hmem
    obtain ⟨k, h, hk, hlive⟩ := hw.exists_mem hI.handlers he
    exact hnone h (List.mem_of_getElem? hk) (decide_eq_true hlive)
  · intro hsome
    push Not at hsome
    obtain ⟨h, hmem, hlive⟩ := hsome
    obtain ⟨k, hk⟩ := List.mem_iff_getElem?.1 hmem
    obtain ⟨e, he, rfl, -⟩ : ∃ e ∈ waiting, e.1 = host ∧ k ∈ e.2 :=
      hw.exists_of hI.handlers ⟨h, hk, of_decide_eq_true hlive⟩
    exact List.mem_map_of_mem he

theorem total_waiting (host : String) :
    total host (waiting.map fun e => (e.1, (0, e.2.length))) = (0, (s.handlersOf host).length) := by
  have hkeys : (waiting.map fun e => (e.1, ((0, e.2.length) : QueueSizes))).map Prod.fst =
      waiting.map Prod.fst := by
    rw [List.map_map]
    rfl
  by_cases hhost : host ∈ waiting.map Prod.fst
  · obtain ⟨e, he, rfl⟩ := List.mem_map.1 hhost
    rw [handlersOf, ← length_of_indices (hw.nodup e he) (hw.mem_iff hI.handlers he)]
    exact total_of_mem (hkeys ▸ hw.keys)
      (List.mem_map_of_mem (f := fun e => (e.1, ((0, e.2.length) : QueueSizes))) he)
  · have hnil := not_not.1 ((waiting_iff hI hw host).not.1 hhost)
    rw [hnil]
    exact total_of_not_mem (hkeys ▸ hhost)

end

include he

theorem counted_exchanges :
    (exchanges.flatMap fun e =>
      (e.2.filterMap (s.exchanges[·]?)).map fun e => (e.host, e.sizes)).Perm
      ((s.exchanges.filter fun e => e.live = true).map fun e => (e.host, e.sizes)) := by
  have hfiles := hI.exchanges.files
  have hflat : (exchanges.flatMap Prod.snd).Nodup := by
    refine List.nodup_flatMap.2 ⟨he.nodup, (List.pairwise_map.1 he.keys).imp_of_mem ?_⟩
    intro e e' hmem hmem' hne k hk hk'
    obtain ⟨x, hx, -, hid⟩ := (he.mem_iff hfiles hmem k).1 hk
    obtain ⟨x', hx', -, hid'⟩ := (he.mem_iff hfiles hmem' k).1 hk'
    rw [hx] at hx'
    cases hx'
    exact hne (hid.symm.trans hid')
  have hmem : ∀ k, k ∈ exchanges.flatMap Prod.snd ↔ At s.exchanges k fun e => e.live = true := by
    intro k
    rw [List.mem_flatMap]
    constructor
    · rintro ⟨e, hmem, hk⟩
      exact ((he.mem_iff hfiles hmem k).1 hk).imp fun _ h => h.1
    · rintro ⟨x, hx, hlive⟩
      obtain ⟨e, hmem, -, hk⟩ : ∃ e ∈ exchanges, e.1 = x.callID ∧ k ∈ e.2 :=
        he.exists_of hfiles ⟨x, hx, hlive, rfl⟩
      exact ⟨e, hmem, hk⟩
  have hperm := (elements_perm hflat hmem).map fun e => (e.host, e.sizes)
  rw [List.filterMap_flatMap, List.map_flatMap] at hperm
  exact hperm

include hw

theorem total_counted (host : String) :
    total host (s.counted waiting exchanges) = s.sizes host := by
  have hperm := (counted_exchanges hI he).map fun e => if e.1 = host then e.2 else 0
  rw [counted, total_append, total_waiting hI hw, total, hperm.sum_eq, List.map_map]
  have hsum := List.sum_map_ite (fun e : CallExchange => e.host = host) CallExchange.sizes
    (fun _ => 0) (s.exchanges.filter fun e => e.live = true)
  refine congrArg _ (hsum.trans ?_)
  simp [exchangesFor, List.filter_filter, Bool.and_comm]

theorem mem_counted (host : String) : host ∈ (s.counted waiting exchanges).map Prod.fst ↔
    s.handlersOf host ≠ [] ∨ s.exchangesFor host ≠ [] := by
  have hperm := ((counted_exchanges hI he).map Prod.fst).mem_iff (a := host)
  rw [counted, List.map_append, List.mem_append, hperm, List.map_map, List.map_map]
  refine or_congr (waiting_iff hI hw host) ?_
  simp [exchangesFor, and_assoc]

end SubsState

theorem Operator.Reported.entries {o : Operator} (h : o.Reported) (host : String) :
    total host o.hosts = o.state.sizes host ∧ (host ∈ o.hosts.map Prod.fst ↔
      o.state.handlersOf host ≠ [] ∨ o.state.exchangesFor host ≠ []) := by
  have hI := subs_inv h.reachable
  have hmem := SubsState.mem_counted hI h.waiting h.exchanges host
  have htotal := SubsState.total_counted hI h.waiting h.exchanges host
  have hentry (z : QueueSizes) := h.hosts (host, z)
  simp only [foldl_addSizes, Option.getD_none, zero_add, htotal] at hentry
  by_cases hhost : host ∈ (o.state.counted o.waiting o.exchanges).map Prod.fst
  · have he := (hentry _).2 (if_pos hhost)
    exact ⟨total_of_mem h.nodup he, iff_of_true (List.mem_map_of_mem he) (hmem.1 hhost)⟩
  · have hnot : host ∉ o.hosts.map Prod.fst := by
      rintro hin
      obtain ⟨e, he, rfl⟩ := List.mem_map.1 hin
      exact nomatch (if_neg hhost).symm.trans ((hentry e.2).1 he)
    refine ⟨?_, iff_of_false hnot (hmem.not.1 hhost)⟩
    rw [total_of_not_mem hnot, ← htotal, total_of_not_mem hhost]

theorem filter_match (operators : List (Option (List (String × QueueSizes))))
    (hosts : List String) :
    ((operators.filter fun doc => (doc.getD []).any (·.1 ∈ hosts)).flatMap (·.getD [])).filter
      (·.1 ∈ hosts) = (operators.flatMap (·.getD [])).filter (·.1 ∈ hosts) := by
  induction operators with
  | nil => rfl
  | cons doc operators ih =>
    rw [List.filter_cons]
    split
    · rw [List.flatMap_cons, List.flatMap_cons, List.filter_append, ih, List.filter_append]
    · rename_i hnone
      have hnil : (doc.getD []).filter (·.1 ∈ hosts) = [] :=
        List.filter_eq_nil_iff.2 fun e he hmem => hnone (List.any_eq_true.2 ⟨e, he, hmem⟩)
      rw [ih, List.flatMap_cons, List.filter_append, hnil, List.nil_append]

theorem total_match {hosts : List String} (h : host ∈ hosts) (l : List (String × QueueSizes)) :
    total host (l.filter (·.1 ∈ hosts)) = total host l := by
  induction l with
  | nil => rfl
  | cons e l ih =>
    rw [List.filter_cons]
    split
    · exact congrArg (_ + ·) ih
    · rename_i hne
      have hhost : e.1 ≠ host := fun heq => hne (decide_eq_true (heq ▸ h))
      simpa [total, hhost] using ih

def sizesOfAll (ops : List Operator) (host : String) : QueueSizes :=
  (ops.map fun o => o.state.sizes host).sum

theorem total_flatMap {ops : List Operator} (h : ∀ o ∈ ops, o.Reported) (host : String) :
    total host (ops.flatMap (·.hosts)) = sizesOfAll ops host := by
  induction ops with
  | nil => rfl
  | cons o ops ih =>
    rw [List.flatMap_cons, total_append, ih fun o ho => h o (List.mem_cons_of_mem _ ho),
      ((h o List.mem_cons_self).entries host).1]
    rfl

/-- Connections are refused just if the operators together had, at their last updates, as many live
subscriptions for one of the hosts as are allowed, and at least one. -/
theorem checkHostQueueSize_exact {ops : List Operator} (h : ∀ o ∈ ops, o.Reported)
    (maxHostCallers : Nat) (forCaller : Bool) (hosts : List String) :
    checkHostQueueSize maxHostCallers (ops.map fun o => some o.hosts) forCaller hosts = true ↔
      ∃ host ∈ hosts,
        (∃ o ∈ ops, o.state.handlersOf host ≠ [] ∨ o.state.exchangesFor host ≠ []) ∧
        if forCaller then maxHostCallers ≤ (sizesOfAll ops host).1
        else 4 ≤ (sizesOfAll ops host).2 := by
  have hentries : (ops.map fun o => some o.hosts).flatMap (·.getD []) = ops.flatMap (·.hosts) := by
    simp [List.flatMap_map]
  simp only [checkHostQueueSize, filter_match, hentries, List.any_eq_true, List.mem_dedup]
  apply exists_congr
  intro host
  have hmem : host ∈ ((ops.flatMap (·.hosts)).filter (·.1 ∈ hosts)).map Prod.fst ↔
      host ∈ hosts ∧ ∃ o ∈ ops, o.state.handlersOf host ≠ [] ∨ o.state.exchangesFor host ≠ [] := by
    simp only [List.mem_map, List.mem_filter, List.mem_flatMap, decide_eq_true_eq]
    constructor
    · rintro ⟨e, ⟨⟨o, ho, he⟩, hhosts⟩, rfl⟩
      exact ⟨hhosts, o, ho, ((h o ho).entries e.1).2.1 (List.mem_map_of_mem he)⟩
    · rintro ⟨hhosts, o, ho, hsub⟩
      obtain ⟨e, he, rfl⟩ := List.mem_map.1 (((h o ho).entries host).2.2 hsub)
      exact ⟨e, ⟨⟨o, ho, he⟩, hhosts⟩, rfl⟩
  rw [hmem, and_assoc]
  refine and_congr_right fun hhosts => and_congr_right fun _ => ?_
  rw [total_match hhosts, total_flatMap h]
  cases forCaller <;> exact decide_eq_true_iff

/-- A host with one call and room for one caller. -/
theorem checkHostQueueSize_exact_one : ∃ o : Operator, o.Reported ∧
    checkHostQueueSize 1 [some o.hosts] true ["a"] = true := by
  let s := ({} : SubsState).subscribeToCall "a" "c" "caller"
  let o : Operator := ⟨s, [], [("c", [0])], [("a", (1, 0))]⟩
  have hone {τ : Type} (key key' : String) (z z' : τ) :
      Function.update (fun _ => none) key (some z) key' = some z' ↔ key' = key ∧ z' = z := by
    by_cases hkey : key' = key <;> simp [Function.update, hkey, eq_comm]
  have hreported : o.Reported := by
    refine ⟨.step (a := .subscribeToCall "a" "c" "caller") (.init rfl) trivial rfl,
      ⟨.nil, by simp [o], fun _ _ => ⟨fun h => (by cases h), by simp [o]⟩⟩,
      ⟨by decide, by decide, fun key subs => ?_⟩, by decide, fun e => ?_⟩
    · simp [o, s, SubsState.exchangesOf, SubsState.subscribeToCall, SubsState.findExchangeSubs,
        hone, eq_comm]
    · refine Iff.trans ?_ (hone "a" e.1 ((1, 0) : QueueSizes) e.2).symm
      simp [o, Prod.ext_iff]
  have hops : ∀ o' ∈ [o], o'.Reported := fun _ ho => List.mem_singleton.1 ho ▸ hreported
  refine ⟨o, hreported, (checkHostQueueSize_exact hops 1 true ["a"]).2 ?_⟩
  have hcall : s.exchangesFor "a" ≠ [] := List.cons_ne_nil _ _
  exact ⟨"a", List.mem_singleton_self _, ⟨o, List.mem_singleton_self _, .inr hcall⟩, Nat.le_refl 1⟩

end Goutils.CallQueue
