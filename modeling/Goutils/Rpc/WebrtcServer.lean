import Goutils.Rpc.ServerStream

namespace Goutils.Rpc
open Lib
set_option autoImplicit true

def DefaultWebRTCMaxGRPCCalls : Nat := 256

/-- The part of `webrtcServer` that incoming headers go through. -/
structure WebrtcServer where
  handlers : List String := []
  unknownStreamDesc : Bool := false
  ctx : Option CtxErr := none
  processHeadersMu : RWMutex Unit := {}
  processHeadersWorkers : Nat := 0
  maxCalls : Nat := DefaultWebRTCMaxGRPCCalls
  callTickets : Nat := 0

inductive HeadersPc where
  | lookup (method : String)
  | add
  | checkCtx
  | done
  | ticket
  | ret (outcome : HeadersOutcome)

def processHeaders (srv : WebrtcServer) : HeadersPc → Option (WebrtcServer × HeadersPc)
  | .lookup method =>
    some (srv, if method ∈ srv.handlers ∨ srv.unknownStreamDesc = true then .add
      else .ret .unimplemented)
  | .add =>
    if srv.processHeadersMu.canRLock then
      some ({ srv with processHeadersWorkers := srv.processHeadersWorkers + 1 }, .checkCtx)
    else none
  | .checkCtx => some (srv, if srv.ctx.isSome then .done else .ticket)
  | .done =>
    some ({ srv with processHeadersWorkers := srv.processHeadersWorkers - 1 }, .ret .stopped)
  | .ticket =>
    -- A full pool returns here with the worker still counted.
    some (if srv.callTickets < srv.maxCalls then
        ({ srv with callTickets := srv.callTickets + 1 }, .ret .accepted)
      else (srv, .ret .exhausted))
  | .ret _ => none

/-- A call from the arrival of its headers frame to the end of its handler's cleanup. -/
inductive CallPc where
  | headers (pc : HeadersPc)
  | running
  | done
  | release
  | gone

def CallPc.step (srv : WebrtcServer) : CallPc → Option (WebrtcServer × CallPc)
  | .headers (.ret .accepted) => some (srv, .running)
  | .headers (.ret _) => some (srv, .gone)
  | .headers pc => (processHeaders srv pc).map fun (srv', pc') => (srv', .headers pc')
  | .running => some (srv, .done)
  | .done =>
    some ({ srv with processHeadersWorkers := srv.processHeadersWorkers - 1 }, .release)
  | .release =>
    if srv.callTickets = 0 then none
    else some ({ srv with callTickets := srv.callTickets - 1 }, .gone)
  | .gone => none

inductive StopPc where
  | notCalled
  | lock
  | wait
  | returned

def stop (srv : WebrtcServer) : StopPc → Option (WebrtcServer × StopPc)
  | .notCalled => some ({ srv with ctx := srv.ctx.or (some .canceled) }, .lock)
  | .lock =>
    if srv.processHeadersMu.canLock then
      some ({ srv with processHeadersMu := srv.processHeadersMu.lock () }, .wait)
    else none
  | .wait =>
    if srv.processHeadersWorkers = 0 then
      some ({ srv with processHeadersMu := srv.processHeadersMu.unlock }, .returned)
    else none
  | .returned => none

structure CallLoad where
  srv : WebrtcServer := {}
  calls : List CallPc := []
  stop : StopPc := .notCalled

inductive CallAct where
  | arrive (method : String)
  | step (i : Nat)
  | stop

def callMachine : Machine CallLoad CallAct where
  init s := s.calls = [] ∧ s.stop = .notCalled ∧ s.srv.processHeadersWorkers = 0 ∧
    s.srv.callTickets = 0 ∧ s.srv.processHeadersMu = {}
  step s
    | .arrive method => some { s with calls := s.calls ++ [.headers (.lookup method)] }
    | .step i =>
      match s.calls[i]? with
      | none => none
      | some pc =>
        (pc.step s.srv).map fun (srv, pc') => { s with srv, calls := s.calls.set i pc' }
    | .stop => (Rpc.stop s.srv s.stop).map fun (srv, pc) => { s with srv, stop := pc }

def CallPc.countsWorker : CallPc → Bool
  | .headers .checkCtx | .headers .done | .headers .ticket | .headers (.ret .accepted)
  | .running | .done => true
  | _ => false

def CallPc.holdsTicket : CallPc → Bool
  | .headers (.ret .accepted) | .running | .done | .release => true
  | _ => false

def CallPc.isRunning : CallPc → Bool
  | .running => true
  | _ => false

structure CallLoad.Balanced (s : CallLoad) : Prop where
  workers : s.srv.processHeadersWorkers = s.calls.countP CallPc.countsWorker
  tickets : s.srv.callTickets = s.calls.countP CallPc.holdsTicket
  bound : s.srv.callTickets ≤ s.srv.maxCalls

def TicketFree (s : CallLoad) : CallAct → Prop
  | .step i => s.calls[i]? = some (.headers .ticket) → s.srv.callTickets < s.srv.maxCalls
  | _ => True

theorem CallPc.step_counts {srv srv' : WebrtcServer} {pc pc' : CallPc}
    (hs : pc.step srv = some (srv', pc'))
    (hok : pc = .headers .ticket → srv.callTickets < srv.maxCalls)
    (hw : (if pc.countsWorker then 1 else 0) ≤ srv.processHeadersWorkers)
    (ht : srv.callTickets ≤ srv.maxCalls) :
    srv'.processHeadersWorkers + (if pc.countsWorker then 1 else 0) =
        srv.processHeadersWorkers + (if pc'.countsWorker then 1 else 0) ∧
      srv'.callTickets + (if pc.holdsTicket then 1 else 0) =
        srv.callTickets + (if pc'.holdsTicket then 1 else 0) ∧
      srv'.callTickets ≤ srv'.maxCalls := by
  cases pc with
  | headers pc =>
    cases pc with
    | lookup method | checkCtx =>
      simp only [CallPc.step, processHeaders] at hs
      split at hs <;> cases hs <;> exact ⟨rfl, rfl, ht⟩
    | add =>
      simp only [CallPc.step, processHeaders] at hs
      split at hs
      · cases hs
        exact ⟨rfl, rfl, ht⟩
      · cases hs
    | done =>
      cases hs
      exact ⟨Nat.sub_add_cancel hw, rfl, ht⟩
    | ticket =>
      have hlt := hok rfl
      simp only [CallPc.step, processHeaders, if_pos hlt] at hs
      cases hs
      exact ⟨rfl, rfl, hlt⟩
    | ret outcome => cases outcome <;> cases hs <;> exact ⟨rfl, rfl, ht⟩
  | running =>
    cases hs
    exact ⟨rfl, rfl, ht⟩
  | done =>
    cases hs
    exact ⟨Nat.sub_add_cancel hw, rfl, ht⟩
  | release =>
    simp only [CallPc.step] at hs
    split at hs
    · cases hs
    · rename_i h0
      cases hs
      exact ⟨rfl, Nat.sub_add_cancel (Nat.pos_of_ne_zero h0), (Nat.sub_le _ _).trans ht⟩
  | gone => cases hs

theorem CallLoad.Balanced.init {s : CallLoad} (h : callMachine.init s) : s.Balanced := by
  obtain ⟨hc, _, hw, ht, _⟩ := h
  exact ⟨by rw [hw, hc]; rfl, by rw [ht, hc]; rfl, by rw [ht]; exact Nat.zero_le _⟩

theorem CallLoad.Balanced.step {s s' : CallLoad} (h : s.Balanced) (hok : TicketFree s a)
    (hs : callMachine.step s a = some s') : s'.Balanced := by
  obtain ⟨hworkers, htickets, hbound⟩ := h
  cases a with
  | arrive method =>
    cases hs
    exact ⟨by simpa [CallPc.countsWorker] using hworkers,
      by simpa [CallPc.holdsTicket] using htickets, hbound⟩
  | step i =>
    simp only [callMachine] at hs
    split at hs
    · cases hs
    · rename_i pc hi
      obtain ⟨⟨srv', pc'⟩, hpc, rfl⟩ := Option.map_eq_some_iff.1 hs
      have hw := countP_move hi pc' CallPc.countsWorker
      have ht := countP_move hi pc' CallPc.holdsTicket
      have hle : (if pc.countsWorker then 1 else 0) ≤ s.srv.processHeadersWorkers := by
        rw [hworkers]
        split
        · rename_i hc
          exact List.countP_pos_iff.2 ⟨pc, List.mem_of_getElem? hi, hc⟩
        · exact Nat.zero_le _
      obtain ⟨hw', ht', hb⟩ := CallPc.step_counts hpc (fun he => hok (he ▸ hi)) hle hbound
      exact ⟨by simp only; omega, by simp only; omega, hb⟩
  | stop =>
    obtain ⟨⟨srv', pc'⟩, hpc, rfl⟩ := Option.map_eq_some_iff.1 hs
    cases hstop : s.stop with
    | notCalled =>
      rw [hstop] at hpc
      cases hpc
      exact ⟨hworkers, htickets, hbound⟩
    | lock | wait =>
      simp only [hstop, Rpc.stop] at hpc
      split at hpc
      · cases hpc
        exact ⟨hworkers, htickets, hbound⟩
      · cases hpc
    | returned =>
      rw [hstop] at hpc
      cases hpc

theorem CallLoad.balanced {s : CallLoad} (h : callMachine.ReachableWith TicketFree s) :
    s.Balanced :=
  h.invariant (fun _ => .init) fun _ _ _ hI hok hs => hI.step hok hs

def CallLoad.Quiet (s : CallLoad) : Prop := ∀ pc ∈ s.calls, pc = .running ∨ pc = .gone

def CallLoad.running (s : CallLoad) : Nat := s.calls.countP CallPc.isRunning

theorem CallLoad.Quiet.countP_eq {s : CallLoad} (h : s.Quiet) {p : CallPc → Bool}
    (hr : p .running = true) (hg : p .gone = false) : s.calls.countP p = s.running := by
  apply List.countP_congr
  intro pc hpc
  rcases h pc hpc with rfl | rfl
  · simp only [hr, CallPc.isRunning]
  · simp only [hg, CallPc.isRunning]

/-- If no call finds the ticket pool full, the counters of a quiet server are the number of its
running handlers. -/
theorem callTickets_balanced {s : CallLoad} (h : callMachine.ReachableWith TicketFree s)
    (hq : s.Quiet) :
    s.srv.processHeadersWorkers = s.running ∧ s.srv.callTickets = s.running ∧
      s.srv.callTickets ≤ s.srv.maxCalls ∧
      (s.running = 0 → s.stop = .wait → ∃ s', callMachine.step s .stop = some s') := by
  obtain ⟨hworkers, htickets, hbound⟩ := CallLoad.balanced h
  rw [hq.countP_eq rfl rfl] at hworkers htickets
  refine ⟨hworkers, htickets, hbound, ?_⟩
  intro h0 hstop
  simp only [callMachine, hstop, Rpc.stop, hworkers, h0, ↓reduceIte, Option.map_some]
  exact ⟨_, rfl⟩

def runningCalls (n : Nat) : CallLoad :=
  { srv := { handlers := ["/echo"], processHeadersWorkers := n, callTickets := n }
    calls := List.replicate n .running }

def oneMore (n : Nat) (srv : WebrtcServer) (pc : CallPc) : CallLoad :=
  { srv, calls := List.replicate n .running ++ [pc] }

theorem oneMore_step {ok : CallLoad → CallAct → Prop}
    (h : callMachine.ReachableWith ok (oneMore n srv pc)) (hok : ok (oneMore n srv pc) (.step n))
    (hs : pc.step srv = some (srv', pc')) : callMachine.ReachableWith ok (oneMore n srv' pc') := by
  have hget : (List.replicate n CallPc.running ++ [pc])[n]? = some pc := by simp
  have hset : (List.replicate n CallPc.running ++ [pc]).set n pc' =
      List.replicate n CallPc.running ++ [pc'] := by simp
  apply Machine.ReachableWith.step h hok
  simp only [callMachine, oneMore, hget, hs, hset, Option.map_some]

theorem oneMore_ticketFree (h : pc = .headers .ticket → srv.callTickets < srv.maxCalls) :
    TicketFree (oneMore n srv pc) (.step n) := by
  intro hget
  have hpc : (List.replicate n CallPc.running ++ [pc])[n]? = some pc := by simp
  exact h (Option.some.inj (hpc.symm.trans hget))

theorem runningCalls_ticket (h : callMachine.ReachableWith TicketFree (runningCalls n)) :
    callMachine.ReachableWith TicketFree
      (oneMore n { (runningCalls n).srv with processHeadersWorkers := n + 1 }
        (.headers .ticket)) := by
  have harrive : callMachine.ReachableWith TicketFree
      (oneMore n (runningCalls n).srv (.headers (.lookup "/echo"))) := by
    have hok : TicketFree (runningCalls n) (.arrive "/echo") := trivial
    exact .step h hok rfl
  have hlookup : callMachine.ReachableWith TicketFree
      (oneMore n (runningCalls n).srv (.headers .add)) :=
    oneMore_step harrive (oneMore_ticketFree nofun) rfl
  have hadd : callMachine.ReachableWith TicketFree
      (oneMore n { (runningCalls n).srv with processHeadersWorkers := n + 1 }
        (.headers .checkCtx)) :=
    oneMore_step hlookup (oneMore_ticketFree nofun) rfl
  exact oneMore_step hadd (oneMore_ticketFree nofun) rfl

theorem runningCalls_succ (hn : n < DefaultWebRTCMaxGRPCCalls)
    (h : callMachine.ReachableWith TicketFree (runningCalls n)) :
    callMachine.ReachableWith TicketFree (runningCalls (n + 1)) := by
  have hrun : oneMore n (runningCalls (n + 1)).srv .running = runningCalls (n + 1) := by
    rw [oneMore, runningCalls, List.replicate_succ']
  rw [← hrun]
  have haccept : callMachine.ReachableWith TicketFree
      (oneMore n (runningCalls (n + 1)).srv (.headers (.ret .accepted))) := by
    apply oneMore_step (runningCalls_ticket h) (oneMore_ticketFree fun _ => hn)
    simp only [CallPc.step, processHeaders, runningCalls, hn, ↓reduceIte, Option.map_some]
  exact oneMore_step haccept (oneMore_ticketFree nofun) rfl

theorem runningCalls_reachable (hn : n ≤ DefaultWebRTCMaxGRPCCalls) :
    callMachine.ReachableWith TicketFree (runningCalls n) := by
  induction n with
  | zero => exact .init ⟨rfl, rfl, rfl, rfl, rfl⟩
  | succ n ih => exact runningCalls_succ hn (ih (Nat.le_of_succ_le hn))

theorem runningCalls_quiet (n : Nat) : (runningCalls n).Quiet := by
  intro pc hpc
  exact .inl (List.eq_of_mem_replicate hpc)

theorem callTickets_balanced_one : (runningCalls 1).srv.processHeadersWorkers = 1 :=
  (callTickets_balanced (runningCalls_reachable (by decide)) (runningCalls_quiet 1)).1

/-- The call that finds the pool full stays counted after it is gone. -/
theorem callTickets_full_leaks :
    ¬ ∀ s, callMachine.Reachable s → s.Quiet → s.srv.processHeadersWorkers = s.running ∧
      s.srv.callTickets = s.running ∧ s.srv.callTickets ≤ s.srv.maxCalls := by
  intro h
  let n := DefaultWebRTCMaxGRPCCalls
  let srv : WebrtcServer := { (runningCalls n).srv with processHeadersWorkers := n + 1 }
  let full : CallLoad := oneMore n srv .gone
  have hticket : callMachine.Reachable (oneMore n srv (.headers .ticket)) :=
    (runningCalls_ticket (runningCalls_reachable le_rfl)).reachable
  have hexhausted : callMachine.Reachable (oneMore n srv (.headers (.ret .exhausted))) :=
    oneMore_step hticket trivial rfl
  have hreach : callMachine.Reachable full := oneMore_step hexhausted trivial rfl
  have hquiet : full.Quiet := by
    intro pc hpc
    rcases List.mem_append.1 hpc with hpc | hpc
    · exact .inl (List.eq_of_mem_replicate hpc)
    · exact .inr (List.mem_singleton.1 hpc)
  have hleak := (h full hreach hquiet).1
  have hrunning : full.running = n := by
    simp [CallLoad.running, full, oneMore, List.countP_replicate, CallPc.isRunning]
  rw [hrunning] at hleak
  exact Nat.succ_ne_self n hleak

end Goutils.Rpc
