import Goutils.Rpc.ClientStream

namespace Goutils.Rpc
open Lib
open Lib.Wire (Bytes)
set_option autoImplicit true

/-- One client stream with its goroutines, the frames on the channel and what was read. -/
structure ClientState where
  cs : ClientStream := {}
  found : Option ResponseType := none
  disp : ResponsePc := .idle
  reader : RecvPc := .idle
  closers : List CloserPc := [.awaitDone]
  inbox : List Response := []
  results : List RecvResult := []
  okTrailers : Bool := false

inductive ClientOp where
  | close
  | writeHeaders
  | writeMessage (eos : Bool)
  deriving DecidableEq

def ClientOp.entry : ClientOp → CloserPc
  | .close => .lockClose
  | .writeHeaders => .lockHeaders
  | .writeMessage eos => .lockMessage eos

inductive ClientAct where
  | lookup
  | enter
  | respond (a : ResponseAct)
  | read (a : RecvAct)
  | start (op : ClientOp)
  | closer (i : Nat) (w : Option GoErr)
  | ctxDone (e : CtxErr)

def ResponsePc.atOkTrailers (pc : ResponsePc) : Bool := pc = .closeTrailers none .cas

def clientStep (id : UInt64) (s : ClientState) : ClientAct → Option ClientState
  | .lookup =>
    match s.disp, s.found, s.inbox with
    | .idle, none, f :: inbox =>
      some (if f.stream = some id ∧ s.cs.base.onDone = 0 then
        { s with found := some f.type, inbox } else { s with inbox })
    | _, _, _ => none
  | .enter =>
    s.found.map fun t =>
      let (cs, disp) := s.cs.onResponse t
      { s with cs, disp, found := none }
  | .respond a =>
    (respond s.cs s.disp a).map fun (cs, disp) =>
      { s with cs, disp, okTrailers := s.okTrailers || disp.atOkTrailers }
  | .read a =>
    (recvMsg s.cs.base s.reader a).map fun (base, reader, r) =>
      { s with cs := { s.cs with base }, reader, results := s.results ++ r.toList }
  | .start op => some { s with closers := s.closers ++ [op.entry] }
  | .closer i w =>
    s.closers[i]?.bind fun pc =>
      (closer (.closer i) w s.cs pc).map fun (cs, pc') =>
        { s with cs, closers := s.closers.set i pc' }
  | .ctxDone e => some { s with cs := s.cs.withCtx e }

variable {id : UInt64} {s s' : ClientState}

theorem clientStep_read (h : recvMsg s.cs.base s.reader a = some r) :
    clientStep id s (.read a) = some { s with
      cs := { s.cs with base := r.1 }, reader := r.2.1, results := s.results ++ r.2.2.toList } := by
  simp only [clientStep, h, Option.map_some]

theorem clientStep_enter (h : s.found = some t) :
    clientStep id s .enter = some { s with
      cs := (s.cs.onResponse t).1, disp := (s.cs.onResponse t).2, found := none } := by
  simp only [clientStep, h, Option.map_some]

theorem clientStep_respond (h : respond s.cs s.disp a = some r) :
    clientStep id s (.respond a) = some { s with
      cs := r.1, disp := r.2, okTrailers := s.okTrailers || r.2.atOkTrailers } := by
  simp only [clientStep, h, Option.map_some]

theorem clientStep_closer {i : Nat} (hi : s.closers[i]? = some pc)
    (h : closer (.closer i) w s.cs pc = some r) :
    clientStep id s (.closer i w) = some { s with
      cs := r.1, closers := s.closers.set i r.2 } := by
  simp only [clientStep, hi, Option.bind_some, h, Option.map_some]

def clientMachine (id : UInt64) : Machine ClientState ClientAct where
  init s := ∃ inbox, s = { inbox }
  step := clientStep id

inductive ClientStep (id : UInt64) (s : ClientState) : ClientAct → ClientState → Prop where
  | lookup : s.disp = .idle → s.found = none → s.inbox = f :: inbox → f.stream = some id →
      s.cs.base.onDone = 0 → ClientStep id s .lookup { s with found := some f.type, inbox }
  | discard : s.disp = .idle → s.found = none → s.inbox = f :: inbox →
      ¬ (f.stream = some id ∧ s.cs.base.onDone = 0) → ClientStep id s .lookup { s with inbox }
  | enter : s.found = some t → ClientStep id s .enter
      { s with cs := (s.cs.onResponse t).1, disp := (s.cs.onResponse t).2, found := none }
  | respond : RespondStep s.cs s.disp a cs disp → ClientStep id s (.respond a)
      { s with cs, disp, okTrailers := s.okTrailers || disp.atOkTrailers }
  | read : RecvStep s.cs.base s.reader a base reader r → ClientStep id s (.read a)
      { s with cs := { s.cs with base }, reader, results := s.results ++ r.toList }
  | start : ClientStep id s (.start op) { s with closers := s.closers ++ [op.entry] }
  | closer : s.closers[i]? = some pc → CloserStep (.closer i) w s.cs pc cs pc' →
      ClientStep id s (.closer i w) { s with cs, closers := s.closers.set i pc' }
  | ctxDone : ClientStep id s (.ctxDone e) { s with cs := s.cs.withCtx e }

theorem clientStep_step (h : clientStep id s a = some s') : ClientStep id s a s' := by
  cases a with
  | lookup =>
    simp only [clientStep] at h
    split at h
    · simp only [Option.some.injEq] at h
      split at h
      · rename_i hf
        subst h
        exact .lookup ‹_› ‹_› ‹_› hf.1 hf.2
      · subst h
        exact .discard ‹_› ‹_› ‹_› ‹_›
    · cases h
  | enter =>
    obtain ⟨t, ht, rfl⟩ := Option.map_eq_some_iff.1 h
    exact .enter ht
  | respond a =>
    obtain ⟨⟨cs, disp⟩, hd, rfl⟩ := Option.map_eq_some_iff.1 h
    exact .respond (respond_step hd)
  | read a =>
    obtain ⟨⟨base, reader, r⟩, hr, rfl⟩ := Option.map_eq_some_iff.1 h
    exact .read (recvMsg_step hr)
  | start op =>
    cases h
    exact .start
  | closer i w =>
    obtain ⟨pc, hpc, h⟩ := Option.bind_eq_some_iff.1 h
    obtain ⟨⟨cs, pc'⟩, hc, rfl⟩ := Option.map_eq_some_iff.1 h
    exact .closer hpc (closer_step hc)
  | ctxDone e =>
    cases h
    exact .ctxDone

theorem ClientStream.onResponse_base (s : ClientStream) (t : ResponseType) :
    ∃ buf, (s.onResponse t).1 = { s with base := { s.base with packetBuf := buf } } := by
  cases t with
  | message p =>
    simp only [onResponse]
    split
    · split <;> exact ⟨_, rfl⟩
    · exact ⟨_, rfl⟩
  | _ => exact ⟨_, rfl⟩

theorem ClientStream.onResponse_free (s : ClientStream) (t : ResponseType) :
    (s.onResponse t).2.mode = .free ∧ (s.onResponse t).2.wins = {} ∧
      (s.onResponse t).2.senders = 0 := by
  cases t with
  | headers md =>
    simp only [onResponse]
    split
    · exact ⟨rfl, rfl, rfl⟩
    · split <;> exact ⟨rfl, rfl, rfl⟩
  | message p =>
    simp only [onResponse]
    split
    · split
      · exact ⟨rfl, rfl, rfl⟩
      · cases (processPacket s.base.packetBuf p).2 <;> exact ⟨rfl, rfl, rfl⟩
    · exact ⟨rfl, rfl, rfl⟩
  | _ => exact ⟨rfl, rfl, rfl⟩

namespace ClientState

def mode (s : ClientState) : ClientGoroutine → LockMode
  | .dispatcher => s.disp.mode
  | .reader => .free
  | .closer i => (s.closers[i]?.map CloserPc.mode).getD .free

def count (s : ClientState) (f : Wins → Nat) : Nat := (s.closers.map fun pc => f pc.wins).sum

variable {cs : ClientStream} {disp : ResponsePc}

theorem count_set (h : s.closers[i]? = some pc) (f : Wins → Nat) :
    count { s with cs, closers := s.closers.set i pc' } f + f pc.wins = s.count f + f pc'.wins :=
  sum_move h pc' fun pc => f pc.wins

theorem le_count {i : Nat} {pc : CloserPc} (h : s.closers[i]? = some pc) (f : Wins → Nat) :
    f pc.wins ≤ s.count f :=
  List.single_le_sum (fun _ _ => Nat.zero_le _) _
    (List.mem_map.2 ⟨pc, List.mem_of_getElem? h, rfl⟩)

theorem count_le {f g : Wins → Nat} (h : ∀ pc : CloserPc, f pc.wins ≤ g pc.wins) :
    s.count f ≤ s.count g :=
  List.sum_le_sum fun pc _ => h pc

theorem mode_set (h : s.closers[i]? = some pc) :
    mode { s with cs, closers := s.closers.set i pc' } =
      Function.update s.mode (.closer i) pc'.mode := by
  have hi := (List.getElem?_eq_some_iff.1 h).1
  funext t
  cases t with
  | dispatcher | reader => simp [mode]
  | closer j =>
    by_cases hj : j = i
    · subst hj
      simp [mode, hi]
    · simp [mode, hj, Ne.symm hj]

structure Sound (s : ClientState) : Prop where
  mu : s.cs.base.mu.Owned s.mode
  senders : s.cs.base.activeSenders = s.disp.senders
  recv : s.disp.wins.recv + s.count Wins.recv + s.cs.base.msgCh.closed.toNat =
    s.cs.base.recvClosed.toNat
  close : s.disp.wins.close + s.count Wins.close + s.cs.base.onDone = s.cs.base.closed.toNat
  sending : s.disp.senders = 1 → s.cs.base.msgCh.closed = false ∧ s.count Wins.ready = 0
  panicked : s.cs.base.msgCh.panicked = false
  found : s.found ≠ none → s.disp = .idle

theorem Sound.init (id' : UInt64) (h : (clientMachine id').init s) : s.Sound := by
  obtain ⟨inbox, rfl⟩ := h
  refine ⟨⟨?_, ?_, List.nodup_nil, .inl rfl⟩, rfl, rfl, rfl, nofun, rfl, fun _ => rfl⟩
  · intro t
    cases t with
    | closer i => cases i <;> exact ⟨nofun, nofun⟩
    | _ => exact ⟨nofun, nofun⟩
  · intro t
    cases t with
    | closer i => cases i <;> exact ⟨nofun, nofun⟩
    | _ => exact ⟨nofun, nofun⟩

def others (s : ClientState) : Wins :=
  { recv := s.count Wins.recv, ready := s.count Wins.ready, close := s.count Wins.close }

theorem Sound.races (h : s.Sound) : Races s.cs.base s.disp.senders s.disp.wins s.others :=
  { h with }

theorem Sound.of_races (hmu : s.cs.base.mu.Owned s.mode)
    (h : Races s.cs.base s.disp.senders s.disp.wins s.others)
    (hfound : s.found ≠ none → s.disp = .idle) : s.Sound :=
  { h with mu := hmu, found := hfound }

theorem recv_le (h : s.Sound) :
    s.disp.wins.recv + s.count Wins.recv + s.cs.base.msgCh.closed.toNat ≤ 1 :=
  h.races.recv_le

theorem Sound.respond (h : s.Sound) (hs : RespondStep s.cs s.disp a cs disp) :
    Sound { s with cs, disp } := by
  have hmode : mode { s with cs, disp } = Function.update s.mode .dispatcher disp.mode := by
    funext t
    cases t <;> simp [mode]
  have hrace := hs.race fun hsending => (h.sending hsending).1
  apply Sound.of_races
  · rw [hmode]
    exact h.mu.step hs.lockStep
  · apply h.races.step_own hrace (hs.activeSenders h.senders)
    intro hsending
    obtain ⟨hrecv, hbase'⟩ := hs.sending hsending
    obtain ⟨hopen, hzero⟩ := h.races.of_open hrecv
    have hready : s.others.ready ≤ s.others.recv := s.count_le CloserPc.ready_le
    rw [hbase']
    exact ⟨hopen, by omega⟩
  · intro hne
    rw [h.found hne] at hs
    cases hs

theorem Sound.closer (h : s.Sound) (hi : s.closers[i]? = some pc)
    (hs : CloserStep (.closer i) w s.cs pc cs pc') :
    Sound { s with cs, closers := s.closers.set i pc' } := by
  obtain ⟨hrace, hsenders⟩ := hs.race
  apply Sound.of_races
  · rw [mode_set hi]
    refine h.mu.step ?_
    simp only [mode, hi, Option.map_some, Option.getD_some]
    exact hs.lockStep
  · exact h.races.step_others hrace hsenders (le_count hi Wins.recv) (le_count hi Wins.ready)
      (count_set hi Wins.recv) (count_set hi Wins.ready) (count_set hi Wins.close)
  · exact h.found

theorem Sound.enter (h : s.Sound) (ht : s.found = some t) :
    Sound { s with
      cs := (s.cs.onResponse t).1, disp := (s.cs.onResponse t).2, found := none } := by
  have hidle : s.disp = .idle := h.found (by rw [ht]; nofun)
  obtain ⟨buf, hbuf⟩ := s.cs.onResponse_base t
  obtain ⟨hdmode, hwins, hsenders⟩ := s.cs.onResponse_free t
  have hmode : mode { s with
      cs := (s.cs.onResponse t).1, disp := (s.cs.onResponse t).2, found := none } = s.mode := by
    funext t
    cases t with
    | dispatcher => exact hdmode.trans (by rw [mode, hidle]; rfl)
    | reader | closer i => rfl
  have hrecv := h.recv
  have hclose := h.close
  rw [hidle] at hrecv hclose
  refine ⟨?_, ?_, ?_, ?_, ?_, ?_, nofun⟩
  · rw [hmode]
    simp only [hbuf]
    exact h.mu
  · simp only [hbuf, hsenders]
    exact h.senders.trans (by rw [hidle]; rfl)
  · simp only [hbuf, hwins]
    exact hrecv
  · simp only [hbuf, hwins]
    exact hclose
  · simp [hsenders]
  · simp only [hbuf]
    exact h.panicked

theorem ClientOp.entry_free (op : ClientOp) : op.entry.mode = .free ∧ op.entry.wins = {} := by
  cases op <;> exact ⟨rfl, rfl⟩

theorem Sound.start (h : s.Sound) (op : ClientOp) :
    Sound { s with closers := s.closers ++ [op.entry] } := by
  obtain ⟨hfree, hwins⟩ := ClientOp.entry_free op
  have hmode : mode { s with closers := s.closers ++ [op.entry] } = s.mode := by
    funext t
    cases t with
    | closer i =>
      simp only [mode, List.getElem?_append]
      split
      · rfl
      · rename_i hi
        rw [List.getElem?_eq_none (Nat.le_of_not_lt hi)]
        cases i - s.closers.length <;> simp [hfree]
    | _ => rfl
  have hcount (f : Wins → Nat) (hf : f {} = 0) :
      count { s with closers := s.closers ++ [op.entry] } f = s.count f := by
    simp [count, hwins, hf]
  refine { h with mu := ?_, recv := ?_, close := ?_, sending := ?_ }
  · rw [hmode]
    exact h.mu
  · rw [hcount _ rfl]
    exact h.recv
  · rw [hcount _ rfl]
    exact h.close
  · rw [hcount _ rfl]
    exact h.sending

theorem Sound.step (h : s.Sound) (hs : ClientStep id s a s') : s'.Sound := by
  cases hs with
  | lookup hidle => exact { h with found := fun _ => hidle }
  | discard | ctxDone => exact { h with }
  | enter ht => exact h.enter ht
  | respond hr => exact { h.respond hr with }
  | read hr =>
    apply Sound.of_races
    · simp only [hr.mu.1]
      exact h.mu
    · exact h.races.step_others (hr.race {}) hr.mu.2 (Nat.zero_le _) (Nat.zero_le _) rfl rfl rfl
    · exact h.found
  | start => exact h.start _
  | closer hi hc => exact h.closer hi hc

theorem sound (h : (clientMachine id).ReachableWith ok s) : s.Sound :=
  h.invariant (fun _ => .init id) fun _ _ _ hI _ hs => hI.step (clientStep_step hs)

end ClientState

end Goutils.Rpc
