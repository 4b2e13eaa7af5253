import Goutils.Rpc.ServerHandler

namespace Goutils.Rpc
open Lib
open Lib.Wire (Bytes)
set_option autoImplicit true

def MD.values (md : MD) (k : String) : List String :=
  (md.filter fun kv => kv.1 = k).flatMap Prod.snd

namespace MD

theorem values_cons (kv : String × List String) (md : MD) (k : String) :
    values (kv :: md) k = (if kv.1 = k then kv.2 else []) ++ values md k := by
  by_cases h : kv.1 = k
  · simp [values, h]
  · simp [values, h]

theorem values_of_not_mem {md : MD} (h : k ∉ md.map Prod.fst) : md.values k = [] := by
  induction md with
  | nil => rfl
  | cons kv md ih =>
    rw [List.map_cons, List.mem_cons, not_or] at h
    rw [values_cons, if_neg (Ne.symm h.1), ih h.2, List.nil_append]

theorem mem_keys_append {md : MD} :
    k' ∈ (md.append k vs).map Prod.fst ↔ k' ∈ md.map Prod.fst ∨ k' = k := by
  induction md with
  | nil => simp [append]
  | cons kv md ih =>
    by_cases h : kv.1 = k
    · simp only [append, h, if_true, List.map_cons, List.mem_cons]
      tauto
    · simp only [append, h, if_false, List.map_cons, List.mem_cons, ih]
      tauto

theorem nodup_append {md : MD} (h : (md.map Prod.fst).Nodup) :
    ((md.append k vs).map Prod.fst).Nodup := by
  induction md with
  | nil => simp [append]
  | cons kv md ih =>
    rw [List.map_cons, List.nodup_cons] at h
    by_cases hk : kv.1 = k
    · simp only [append, hk, if_true, List.map_cons, List.nodup_cons]
      exact hk ▸ h
    · simp only [append, if_neg hk, List.map_cons, List.nodup_cons, mem_keys_append, not_or]
      exact ⟨⟨h.1, hk⟩, ih h.2⟩

theorem values_append {md : MD} (h : (md.map Prod.fst).Nodup) :
    (md.append k vs).values k' = md.values k' ++ if k = k' then vs else [] := by
  induction md with
  | nil =>
    rw [append, values_cons]
    exact List.append_nil _
  | cons kv md ih =>
    rw [List.map_cons, List.nodup_cons] at h
    by_cases hk : kv.1 = k
    · simp only [append, hk, if_true, values_cons]
      by_cases hk' : k = k'
      · subst hk'
        simp [values_of_not_mem (hk ▸ h.1)]
      · simp [hk']
    · simp only [append, hk, if_false, values_cons, ih h.2, List.append_assoc]

theorem values_foldl (out md : MD) (k : String) (h : (out.map Prod.fst).Nodup) :
    (md.foldl (fun out kv => out.append kv.1 kv.2) out).values k = out.values k ++ md.values k := by
  induction md generalizing out with
  | nil => simp [values]
  | cons kv md ih =>
    rw [List.foldl_cons, ih _ (nodup_append h), values_append h, values_cons, List.append_assoc]

theorem values_join (md other : MD) (k : String) :
    (md.join other).values k = md.values k ++ other.values k := by
  rw [join, values_foldl [] _ _ List.nodup_nil]
  simp [values]

end MD

def mdValues (md : Option MD) (k : String) : List String := (md.getD []).values k

theorem mdValues_merge (old md : Option MD) (k : String) :
    mdValues (mergeMD old md) k = mdValues old k ++ mdValues md k := by
  cases old with
  | none => rfl
  | some old =>
    cases md with
    | none => exact (List.append_nil _).symm
    | some md => exact old.values_join md k

theorem mdValues_toProto (md : Option MD) (k : String) :
    mdValues (metadataToProto md) k = mdValues md k := by
  unfold metadataToProto
  split
  · rename_i h
    rw [mdValues, mdValues, List.length_eq_zero_iff.1 h]
    rfl
  · rfl

def errIllegalHeaderWrite : GoErr :=
  .text "transport: the stream is done or WriteHeader was already called"

inductive SetPc where
  | lock
  | check
  | merge
  | unlock (err : Option GoErr)

inductive HeaderFramePc where
  | cas
  | rlock
  | read
  | runlock (md : Option MD)
  | write (md : Option MD)

inductive AfterHeaders where
  | ret
  | send (m : Except GoErr Bytes)
  | trailers (err : Option GoErr)

/-- Where a goroutine stands in `SetHeader`, `SendHeader` (`set` with `send`), `SendMsg` or
`closeWithSendError`. -/
inductive HeaderPc where
  | set (pc : SetPc) (send : Bool)
  | headers (pc : HeaderFramePc) (next : AfterHeaders)
  | load (m : Except GoErr Bytes)
  | rlock (m : Except GoErr Bytes)
  | marshal (m : Except GoErr Bytes)
  | packets (ps : List PacketMessage)
  | runlock (err : Option GoErr)
  | closeCas (err : Option GoErr)
  | checkClosed (err : Option GoErr)
  | status (err : Option GoErr)
  | trailers (st : Option Status)
  | lock
  | close
  | unlock
  | ret

/-- A call with the metadata it sets, if any, and what its `SetHeader` has returned. -/
structure HeaderCall where
  md : Option MD := none
  setResult : Option (Option GoErr) := none
  pc : HeaderPc

/-- The fields of `webrtcServerStream` that the sending methods use, with any number of calls of
them. Writes succeed. -/
structure HeaderStream where
  mu : RWMutex Nat := {}
  ctx : Option CtxErr := none
  headersWritten : Bool := false
  header : Option MD := none
  trailer : Option MD := none
  sendClosed : Bool := false
  closed : Bool := false
  chClosed : Bool := false
  sent : List ResponseType := []
  calls : List HeaderCall := []

def headerFrameStep (s : HeaderStream) (i : Nat) :
    HeaderFramePc → Option (HeaderStream × Option HeaderFramePc)
  | .cas =>
    some (if s.headersWritten then (s, none) else ({ s with headersWritten := true }, some .rlock))
  | .rlock => if s.mu.canRLock then some ({ s with mu := s.mu.rlock i }, some .read) else none
  | .read => some (s, some (.runlock (metadataToProto s.header)))
  | .runlock md => some ({ s with mu := s.mu.runlock i }, some (.write md))
  | .write md => some ({ s with sent := s.sent ++ [.headers md] }, none)

def AfterHeaders.pc : AfterHeaders → HeaderPc
  | .ret => .ret
  | .send m => .rlock m
  | .trailers err => .status err

def HeaderCall.step (s : HeaderStream) (i : Nat) (c : HeaderCall) :
    Option (HeaderStream × HeaderCall) :=
  match c.pc with
  | .set .lock send =>
    if s.mu.canLock then some ({ s with mu := s.mu.lock i }, { c with pc := .set .check send })
    else none
  | .set .check send =>
    some (s, { c with
      pc := if s.headersWritten then .set (.unlock (some errIllegalHeaderWrite)) send
        else .set .merge send })
  | .set .merge send =>
    some ({ s with header := mergeMD s.header c.md }, { c with pc := .set (.unlock none) send })
  | .set (.unlock err) send =>
    some ({ s with mu := s.mu.unlock }, { c with
      setResult := some err
      pc := if err.isNone ∧ send then .headers .cas .ret else .ret })
  | .headers pc next =>
    (headerFrameStep s i pc).map fun (s', pc') =>
      (s', { c with pc := (pc'.map fun pc => .headers pc next).getD next.pc })
  | .load m => some (s, { c with pc := if s.sendClosed then .ret else .headers .cas (.send m) })
  | .rlock m =>
    if s.mu.canRLock then some ({ s with mu := s.mu.rlock i }, { c with pc := .marshal m })
    else none
  | .marshal (.error e) => some (s, { c with pc := .runlock (some e) })
  | .marshal (.ok data) =>
    some (s, { c with pc := .packets (Rpc.packets maxResponseMessagePacketDataSize data) })
  | .packets [] => some (s, { c with pc := .runlock none })
  | .packets (p :: ps) =>
    some ({ s with sent := s.sent ++ [.message p] }, { c with pc := .packets ps })
  | .runlock err =>
    some ({ s with mu := s.mu.runlock i }, { c with
      pc := if err.isSome then .closeCas err else .ret })
  | .closeCas err =>
    some (if s.sendClosed then (s, { c with pc := .ret })
      else ({ s with sendClosed := true }, { c with pc := .checkClosed err }))
  | .checkClosed err =>
    some (s, { c with
      pc := if errorsIs err .errClosedPipe || s.closed || s.chClosed then .lock
        else .headers .cas (.trailers err) })
  | .status err =>
    some (s, { c with pc := .trailers (errorToStatus (err.or (s.ctx.map .ctx))) })
  | .trailers st =>
    some ({ s with sent := s.sent ++ [.trailers st (metadataToProto s.trailer)] },
      { c with pc := .lock })
  | .lock =>
    if s.mu.canLock then some ({ s with mu := s.mu.lock i }, { c with pc := .close }) else none
  | .close => some ({ s with closed := true }, { c with pc := .unlock })
  | .unlock => some ({ s with mu := s.mu.unlock }, { c with pc := .ret })
  | .ret => none

inductive HeaderAct where
  | setHeader (md : Option MD)
  | sendHeader (md : Option MD)
  | sendMsg (m : Except GoErr Bytes)
  | closeWithSendError (err : Option GoErr)
  | step (i : Nat)
  | setTrailer (md : Option MD)
  | ctxDone (e : CtxErr)
  | chClose

def HeaderStream.start (s : HeaderStream) (c : HeaderCall) : HeaderStream :=
  { s with calls := s.calls ++ [c] }

def headerStep (s : HeaderStream) : HeaderAct → Option HeaderStream
  | .setHeader md => some (s.start { md, pc := .set .lock false })
  | .sendHeader md => some (s.start { md, pc := .set .lock true })
  | .sendMsg m => some (s.start { pc := .load m })
  | .closeWithSendError err => some (s.start { pc := .closeCas err })
  | .step i =>
    s.calls[i]?.bind fun c =>
      (c.step s i).map fun (s', c') => { s' with calls := s.calls.set i c' }
  | .setTrailer md => some { s with trailer := mergeMD s.trailer md }
  | .ctxDone e => some { s with ctx := s.ctx.or (some e) }
  | .chClose => some { s with chClosed := true }

def headerMachine : Machine HeaderStream HeaderAct where
  init s := s = {}
  step := headerStep

namespace HeaderPc

def mode : HeaderPc → LockMode
  | .set .check _ | .set .merge _ | .set (.unlock _) _ | .close | .unlock => .write
  | .headers .read _ | .headers (.runlock _) _ | .marshal _ | .packets _ | .runlock _ => .read
  | _ => .free

def writes : HeaderPc → Bool
  | .headers .cas _ => false
  | .headers _ _ => true
  | _ => false

def read : HeaderPc → Option (Option MD)
  | .headers (.runlock md) _ | .headers (.write md) _ => some md
  | _ => none

def merges : HeaderPc → Bool
  | .set .merge _ => true
  | _ => false

def setting : HeaderPc → Bool
  | .set _ _ => true
  | _ => false

def returns : HeaderPc → Option (Option GoErr)
  | .set (.unlock err) _ => some err
  | _ => none

theorem writes_of_read {pc : HeaderPc} (h : pc.read = some md) : pc.writes = true := by
  cases pc with
  | headers pc next => cases pc <;> first | rfl | cases h
  | _ => cases h

theorem mode_of_merges {pc : HeaderPc} (h : pc.merges = true) : pc.mode = .write := by
  cases pc with
  | set pc send => cases pc <;> first | rfl | cases h
  | _ => cases h

end HeaderPc

namespace AfterHeaders

variable (next : AfterHeaders)

@[simp] theorem mode_pc : next.pc.mode = .free := by
  cases next <;> rfl

@[simp] theorem writes_pc : next.pc.writes = false := by
  cases next <;> rfl

@[simp] theorem read_pc : next.pc.read = none := by
  cases next <;> rfl

@[simp] theorem merges_pc : next.pc.merges = false := by
  cases next <;> rfl

@[simp] theorem setting_pc : next.pc.setting = false := by
  cases next <;> rfl

end AfterHeaders

variable {c : HeaderCall}

namespace HeaderCall

def result (c : HeaderCall) : Option (Option GoErr) := c.pc.returns.or c.setResult

/-- `SetHeader` has not returned while it runs, and fails in one way only. -/
structure Wf (c : HeaderCall) : Prop where
  running : c.pc.setting = true → c.setResult = none
  illegal : ∀ e, c.result = some (some e) → e = errIllegalHeaderWrite

/-- The step does not settle what `SetHeader` returns in favour of the metadata. -/
structure Kept (c c' : HeaderCall) : Prop where
  md : c'.md = c.md
  accepted : c.Wf → (c'.result = some none ↔ c.result = some none)
  wf : c.Wf → c'.Wf

/-- The step has nothing to do with setting, reading or writing the headers. -/
structure Quiet (c c' : HeaderCall) : Prop extends Kept c c' where
  writes : c'.pc.writes = c.pc.writes
  read : c'.pc.read = c.pc.read
  merges : c'.pc.merges = false

theorem Kept.of_result {c' : HeaderCall} (hmd : c'.md = c.md) (hresult : c'.result = c.result)
    (hs : c'.pc.setting = false) : Kept c c' := by
  refine ⟨hmd, fun _ => by rw [hresult], ?_⟩
  intro hwf
  refine ⟨?_, hresult ▸ hwf.illegal⟩
  intro h
  rw [hs] at h
  cases h

theorem result_of_not_setting (h : c.pc.setting = false) : c.result = c.setResult := by
  unfold result
  cases hpc : c.pc with
  | set pc send =>
    rw [hpc] at h
    cases h
  | _ => rfl

theorem Kept.move {pc : HeaderPc} (hs : c.pc.setting = false) (hs' : pc.setting = false) :
    Kept c { c with pc } := by
  refine .of_result rfl ?_ hs'
  rw [result_of_not_setting hs, result_of_not_setting hs']

theorem Kept.quiet {c' : HeaderCall} (h : Kept c c') (hs : c'.pc.setting = false)
    (hw : c'.pc.writes = c.pc.writes) (hr : c'.pc.read = c.pc.read) : Quiet c c' := by
  refine ⟨h, hw, hr, ?_⟩
  cases hpc : c'.pc with
  | set pc send =>
    rw [hpc] at hs
    cases hs
  | _ => rfl

/-- Most steps move a call that is outside of `SetHeader` and of `writeHeaders`. -/
theorem Quiet.move {pc : HeaderPc}
    (hs : c.pc.setting = false := by rfl) (hs' : pc.setting = false := by rfl)
    (hw : c.pc.writes = false := by rfl) (hw' : pc.writes = false := by rfl)
    (hr : c.pc.read = none := by rfl) (hr' : pc.read = none := by rfl) : Quiet c { c with pc } :=
  (Kept.move hs hs').quiet hs' (hw'.trans hw.symm) (hr'.trans hr.symm)

end HeaderCall

inductive HeaderCallStep (s : HeaderStream) (i : Nat) (c : HeaderCall) :
    HeaderStream → HeaderCall → Prop where
  | quiet : LockStep i s.mu c.pc.mode mu c'.pc.mode → (∀ md, .headers md ∉ frames) → c.Quiet c' →
      HeaderCallStep s i c { s with mu, sent := s.sent ++ frames, sendClosed, closed } c'
  | pass : c.pc = .set .check send → s.headersWritten = false →
      HeaderCallStep s i c s { c with pc := .set .merge send }
  | merge : c.pc = .set .merge send →
      HeaderCallStep s i c { s with header := mergeMD s.header c.md }
        { c with pc := .set (.unlock none) send }
  | win : c.pc = .headers .cas next → s.headersWritten = false →
      HeaderCallStep s i c { s with headersWritten := true } { c with pc := .headers .rlock next }
  | read : c.pc = .headers .read next →
      HeaderCallStep s i c s { c with pc := .headers (.runlock (metadataToProto s.header)) next }
  | write : c.pc = .headers (.write md) next →
      HeaderCallStep s i c { s with sent := s.sent ++ [.headers md] } { c with pc := next.pc }

variable {s : HeaderStream}

theorem HeaderCallStep.silent {c' : HeaderCall} (hlock : LockStep i s.mu c.pc.mode mu c'.pc.mode)
    (hq : c.Quiet c') : HeaderCallStep s i c { s with mu, sendClosed, closed } c' := by
  have h : HeaderCallStep s i c { s with mu, sent := s.sent ++ [], sendClosed, closed } c' :=
    .quiet hlock (fun _ => List.not_mem_nil) hq
  rwa [List.append_nil] at h

theorem headerFrameStep_step (hpc : c.pc = .headers pc next)
    (h : headerFrameStep s i pc = some (s', pc')) :
    HeaderCallStep s i c s'
      { c with pc := (pc'.map fun pc => .headers pc next).getD next.pc } := by
  have hset : c.pc.setting = false := by rw [hpc]; rfl
  cases pc with
  | cas =>
    simp only [headerFrameStep, Option.some.injEq] at h
    split at h <;> cases h
    · apply HeaderCallStep.silent
      · rw [hpc]
        simp only [Option.map_none, Option.getD_none, AfterHeaders.mode_pc]
        exact .keep
      · apply (HeaderCall.Kept.move hset next.setting_pc).quiet next.setting_pc
        · rw [hpc]
          exact next.writes_pc
        · rw [hpc]
          exact next.read_pc
    · exact .win hpc (Bool.eq_false_of_not_eq_true ‹_›)
  | rlock =>
    simp only [headerFrameStep] at h
    split at h <;> cases h
    apply HeaderCallStep.silent
    · rw [hpc]
      exact .rlock ‹_›
    · apply (HeaderCall.Kept.move hset rfl).quiet rfl <;> rw [hpc] <;> rfl
  | read =>
    cases h
    exact .read hpc
  | runlock md =>
    cases h
    apply HeaderCallStep.silent
    · rw [hpc]
      exact .runlock
    · apply (HeaderCall.Kept.move hset rfl).quiet rfl <;> rw [hpc] <;> rfl
  | write md =>
    cases h
    exact .write hpc

theorem HeaderCall.step_step {s s' : HeaderStream} {c c' : HeaderCall}
    (h : c.step s i = some (s', c')) : HeaderCallStep s i c s' c' := by
  obtain ⟨md, setResult, pc⟩ := c
  cases pc with
  | set pc send =>
    cases pc with
    | lock =>
      simp only [step] at h
      split at h <;> cases h
      refine .silent (.lock ‹_›) ⟨⟨rfl, fun _ => .rfl, ?_⟩, rfl, rfl, rfl⟩
      exact fun hwf => { hwf with }
    | check =>
      simp only [step, Option.some.injEq, Prod.mk.injEq] at h
      obtain ⟨rfl, rfl⟩ := h
      split
      · refine .silent .keep ⟨⟨rfl, ?_, ?_⟩, rfl, rfl, rfl⟩
        · intro hwf
          obtain rfl : setResult = none := hwf.running rfl
          simp [result, HeaderPc.returns]
        · intro hwf
          refine ⟨hwf.running, ?_⟩
          intro e he
          cases he
          rfl
      · exact .pass rfl (Bool.eq_false_of_not_eq_true ‹_›)
    | merge =>
      cases h
      exact .merge rfl
    | unlock err =>
      simp only [step, Option.some.injEq, Prod.mk.injEq] at h
      obtain ⟨rfl, rfl⟩ := h
      split
      · exact .silent .unlock (Kept.quiet (.of_result rfl rfl rfl) rfl rfl rfl)
      · exact .silent .unlock (Kept.quiet (.of_result rfl rfl rfl) rfl rfl rfl)
  | headers pc next =>
    simp only [step] at h
    obtain ⟨⟨s₁, pc₁⟩, hs, he⟩ := Option.map_eq_some_iff.1 h
    cases he
    exact headerFrameStep_step rfl hs
  | load m | checkClosed err =>
    simp only [step, Option.some.injEq, Prod.mk.injEq] at h
    obtain ⟨rfl, rfl⟩ := h
    split
    · exact .silent .keep .move
    · exact .silent .keep .move
  | rlock m =>
    simp only [step] at h
    split at h <;> cases h
    exact .silent (.rlock ‹_›) .move
  | marshal m =>
    cases m with
    | error e | ok data =>
      cases h
      exact .silent .keep .move
  | packets ps =>
    cases ps with
    | nil =>
      cases h
      exact .silent .keep .move
    | cons p ps =>
      cases h
      exact .quiet .keep (by simp) .move
  | runlock err =>
    simp only [step, Option.some.injEq, Prod.mk.injEq] at h
    obtain ⟨rfl, rfl⟩ := h
    split
    · exact .silent .runlock .move
    · exact .silent .runlock .move
  | closeCas err =>
    simp only [step, Option.some.injEq] at h
    split at h <;> cases h
    · exact .silent .keep .move
    · exact .silent .keep .move
  | status err | close =>
    cases h
    exact .silent .keep .move
  | trailers st =>
    cases h
    exact .quiet .keep (by simp) .move
  | lock =>
    simp only [step] at h
    split at h <;> cases h
    exact .silent (.lock ‹_›) .move
  | unlock =>
    cases h
    exact .silent .unlock .move
  | ret => cases h

def ResponseType.isHeaders : ResponseType → Bool
  | .headers _ => true
  | _ => false

theorem countP_isHeaders {frames : List ResponseType} (h : ∀ md, .headers md ∉ frames) :
    frames.countP ResponseType.isHeaders = 0 := by
  rw [List.countP_eq_zero]
  intro f hf hheaders
  cases f with
  | headers md => exact h md hf
  | _ => cases hheaders

def HeaderStream.Read (s : HeaderStream) (md : Option MD) : Prop :=
  (∃ c ∈ s.calls, c.pc.read = some md) ∨ .headers md ∈ s.sent

/-- The calls of `SetHeader` that were accepted, in their order, and the metadata they make up. -/
structure HeaderStream.Accepts (s : HeaderStream) (order : List (Nat × Option MD)) : Prop where
  nodup : (order.map Prod.fst).Nodup
  values : ∀ k, mdValues s.header k = order.flatMap fun p => mdValues p.2 k
  mem : ∀ i md, (i, md) ∈ order ↔ At s.calls i fun c => c.md = md ∧ c.result = some none

structure HeaderStream.Inv (s : HeaderStream) : Prop where
  owned : s.mu.Owned (modeAt s.calls fun c => c.pc.mode)
  wf : ∀ c ∈ s.calls, c.Wf
  written : s.sent.countP ResponseType.isHeaders + s.calls.countP (fun c => c.pc.writes) =
    if s.headersWritten then 1 else 0
  read : ∀ md, s.Read md → md = metadataToProto s.header ∧ ∀ c ∈ s.calls, c.pc.merges = false
  accepts : ∃ order, s.Accepts order

namespace HeaderCallStep

theorem lockStep {s' : HeaderStream} {c' : HeaderCall} (h : HeaderCallStep s i c s' c') :
    LockStep i s.mu c.pc.mode s'.mu c'.pc.mode := by
  cases h with
  | quiet hlock => exact hlock
  | pass hpc | merge hpc | win hpc | read hpc =>
    rw [hpc]
    exact .keep
  | write hpc =>
    rw [hpc]
    simp only [AfterHeaders.mode_pc]
    exact .keep

theorem written {s' : HeaderStream} {c' : HeaderCall} (h : HeaderCallStep s i c s' c') :
    s'.sent.countP ResponseType.isHeaders + (if c'.pc.writes then 1 else 0) +
        (if s.headersWritten then 1 else 0) =
      s.sent.countP ResponseType.isHeaders + (if c.pc.writes then 1 else 0) +
        if s'.headersWritten then 1 else 0 := by
  cases h with
  | quiet _ hframes hq =>
    rw [List.countP_append, countP_isHeaders hframes, hq.writes, Nat.add_zero]
  | pass hpc | merge hpc | read hpc =>
    rw [hpc]
    rfl
  | win hpc hflag =>
    simp [hpc, hflag, HeaderPc.writes]
  | write hpc =>
    have hw : c.pc.writes = true := by rw [hpc]; rfl
    simp [hw, ResponseType.isHeaders]

theorem read_cases {s' : HeaderStream} {c' : HeaderCall} (hc : s.calls[i]? = some c)
    (h : HeaderCallStep s i c s' c')
    (hr : HeaderStream.Read { s' with calls := s.calls.set i c' } md) :
    s.Read md ∨ md = metadataToProto s.header ∧ c.pc.mode = .read := by
  have hkeep : (∃ c₁ ∈ s.calls.set i c', c₁.pc.read = some md) → c'.pc.read ≠ some md →
      s.Read md := by
    rintro ⟨c₁, hmem, hread⟩ hne
    obtain ⟨j, hj⟩ := List.mem_iff_getElem?.1 hmem
    rcases getElem?_set_cases hj with ⟨_, rfl⟩ | ⟨_, hj⟩
    · exact absurd hread hne
    · exact .inl ⟨c₁, List.mem_of_getElem? hj, hread⟩
  have hmine : c.pc.read = some md → s.Read md := fun hread =>
    .inl ⟨c, List.mem_of_getElem? hc, hread⟩
  cases h with
  | quiet _ hframes hq =>
    left
    rcases hr with hcalls | hsent
    · by_cases hread : c'.pc.read = some md
      · exact hmine (hq.read ▸ hread)
      · exact hkeep hcalls hread
    · rcases List.mem_append.1 hsent with hsent | hsent
      · exact .inr hsent
      · exact absurd hsent (hframes md)
  | pass | merge | win => exact .inl (hr.elim (hkeep · (by simp [HeaderPc.read])) .inr)
  | read hpc =>
    rcases hr with hcalls | hsent
    · by_cases hmd : md = metadataToProto s.header
      · right
        refine ⟨hmd, ?_⟩
        rw [hpc]
        rfl
      · left
        apply hkeep hcalls
        intro hread
        exact hmd (Option.some.inj hread).symm
    · exact .inl (.inr hsent)
  | write hpc =>
    left
    rcases hr with hcalls | hsent
    · exact hkeep hcalls (by simp)
    · rcases List.mem_append.1 hsent with hsent | hsent
      · exact .inr hsent
      · cases List.mem_singleton.1 hsent
        apply hmine
        rw [hpc]
        rfl

end HeaderCallStep

namespace HeaderStream.Inv

theorem headersWritten_of_read (h : s.Inv) (hr : s.Read md) : s.headersWritten = true := by
  have hcount := h.written
  have hpos : 0 < s.sent.countP ResponseType.isHeaders + s.calls.countP (fun c => c.pc.writes) := by
    rcases hr with ⟨c, hmem, hread⟩ | hsent
    · exact Nat.add_pos_right _ (List.countP_pos_iff.2 ⟨c, hmem, HeaderPc.writes_of_read hread⟩)
    · exact Nat.add_pos_left (List.countP_pos_iff.2 ⟨_, hsent, rfl⟩) _
  by_contra hflag
  rw [if_neg hflag] at hcount
  omega

theorem not_merges {i : Nat} (h : s.Inv) (hc : s.calls[i]? = some c) (hmode : c.pc.mode = .read) :
    ∀ c₁ ∈ s.calls, c₁.pc.merges = false := by
  intro c₁ hmem
  by_contra hm
  obtain ⟨j, hj⟩ := List.mem_iff_getElem?.1 hmem
  have hwrite := HeaderPc.mode_of_merges (Bool.eq_true_of_not_eq_false hm)
  have hwriter := (h.owned.writer j).2 ((modeAt_eq hj _).trans hwrite)
  have hreader := (h.owned.readers i).2 ((modeAt_eq hc _).trans hmode)
  rcases h.owned.excl with hnone | hnil
  · rw [hnone] at hwriter
    cases hwriter
  · rw [hnil] at hreader
    cases hreader

end HeaderStream.Inv

namespace HeaderStream.Accepts

theorem set {s' : HeaderStream} {i : Nat} {c' : HeaderCall} (h : s.Accepts order)
    (hc : s.calls[i]? = some c) (hheader : s'.header = s.header) (hmd : c'.md = c.md)
    (hresult : c'.result = some none ↔ c.result = some none) :
    Accepts { s' with calls := s.calls.set i c' } order := by
  refine ⟨h.nodup, by rw [hheader]; exact h.values, ?_⟩
  intro j md
  rw [h.mem]
  exact (At.set_iff hc (by rw [hmd, hresult])).symm

theorem merge {i : Nat} {c' : HeaderCall} (h : s.Accepts order) (hc : s.calls[i]? = some c)
    (hnew : c.result ≠ some none) (hmd : c'.md = c.md) (hresult : c'.result = some none) :
    Accepts { s with header := mergeMD s.header c.md, calls := s.calls.set i c' }
      (order ++ [(i, c.md)]) := by
  have hfresh : ∀ md, (i, md) ∉ order := by
    intro md hmem
    obtain ⟨c₁, hc₁, _, hres⟩ := (h.mem i md).1 hmem
    rw [hc] at hc₁
    cases hc₁
    exact hnew hres
  have hi := (List.getElem?_eq_some_iff.1 hc).1
  refine ⟨?_, ?_, ?_⟩
  · rw [List.map_append, List.nodup_append]
    refine ⟨h.nodup, List.nodup_singleton i, ?_⟩
    intro j hj k hk
    obtain ⟨⟨_, md⟩, hmem, rfl⟩ := List.mem_map.1 hj
    rintro rfl
    cases List.mem_singleton.1 hk
    exact hfresh md hmem
  · intro k
    rw [mdValues_merge, h.values k, List.flatMap_append, List.flatMap_singleton]
  · intro j md
    rw [List.mem_append, List.mem_singleton, h.mem, Prod.mk.injEq]
    by_cases hj : j = i
    · subst hj
      constructor
      · rintro (hold | ⟨_, rfl⟩)
        · exact absurd ((h.mem j md).2 hold) (hfresh md)
        · exact ⟨c', List.getElem?_set_self hi, hmd, hresult⟩
      · rintro ⟨c₁, hc₁, rfl, _⟩
        rw [List.getElem?_set_self hi] at hc₁
        cases hc₁
        exact .inr ⟨rfl, hmd⟩
    · simp only [At, List.getElem?_set_ne (Ne.symm hj), hj, false_and, or_false]

end HeaderStream.Accepts

theorem HeaderCallStep.accepts {s s' : HeaderStream} {c c' : HeaderCall}
    (h : HeaderCallStep s i c s' c') (hc : s.calls[i]? = some c) (hwf : c.Wf)
    (ha : s.Accepts order) :
    c'.Wf ∧ ∃ order', HeaderStream.Accepts { s' with calls := s.calls.set i c' } order' := by
  have hkept : c.Kept c' → s'.header = s.header →
      c'.Wf ∧ ∃ order', HeaderStream.Accepts { s' with calls := s.calls.set i c' } order' :=
    fun hk hheader => ⟨hk.wf hwf, order, ha.set hc hheader hk.md (hk.accepted hwf)⟩
  cases h with
  | quiet _ _ hq => exact hkept hq.toKept rfl
  | pass hpc =>
    obtain ⟨md, setResult, pc⟩ := c
    cases hpc
    exact hkept ⟨rfl, fun _ => .rfl, fun hwf => { hwf with }⟩ rfl
  | merge hpc =>
    have hnone := hwf.running (by rw [hpc]; rfl)
    constructor
    · refine ⟨fun _ => hnone, ?_⟩
      intro e he
      cases he
    · refine ⟨_, ha.merge hc ?_ rfl rfl⟩
      rw [HeaderCall.result, hpc, hnone]
      exact fun h => nomatch h
  | win hpc | read hpc => exact hkept (.move (by rw [hpc]; rfl) rfl) rfl
  | write hpc => exact hkept (.move (by rw [hpc]; rfl) (AfterHeaders.setting_pc _)) rfl

theorem HeaderCallStep.merges {s' : HeaderStream} {c' : HeaderCall} (h : HeaderCallStep s i c s' c')
    (hm : c'.pc.merges = true) : s.headersWritten = false ∧ c.pc.mode = .write := by
  cases h with
  | pass hpc hflag =>
    rw [hpc]
    exact ⟨hflag, rfl⟩
  | quiet _ _ hq =>
    rw [hq.merges] at hm
    cases hm
  | merge | win | read => cases hm
  | write => simp at hm

theorem HeaderCallStep.header {s s' : HeaderStream} {c c' : HeaderCall}
    (h : HeaderCallStep s i c s' c') : s'.header = s.header ∨ c.pc.merges = true := by
  cases h with
  | merge hpc =>
    right
    rw [hpc]
    rfl
  | _ => exact .inl rfl

namespace HeaderStream.Inv

theorem call {s' : HeaderStream} {i : Nat} {c' : HeaderCall} (h : s.Inv) (hc : s.calls[i]? = some c)
    (hs : HeaderCallStep s i c s' c') : Inv { s' with calls := s.calls.set i c' } := by
  have hmem := List.mem_of_getElem? hc
  obtain ⟨order, ha⟩ := h.accepts
  obtain ⟨hwf', haccepts⟩ := hs.accepts hc (h.wf c hmem) ha
  have hstill : (∀ c₁ ∈ s.calls, c₁.pc.merges = false) → c'.pc.merges = false →
      s'.header = s.header ∧ ∀ c₁ ∈ s.calls.set i c', c₁.pc.merges = false := by
    intro hmerges hnew
    constructor
    · rcases hs.header with heq | hm
      · exact heq
      · rw [hmerges c hmem] at hm
        cases hm
    · intro c₁ hmem₁
      rcases List.mem_or_eq_of_mem_set hmem₁ with hold | rfl
      · exact hmerges c₁ hold
      · exact hnew
  refine ⟨?_, ?_, ?_, ?_, haccepts⟩
  · rw [modeAt_set hc]
    apply h.owned.step
    rw [modeAt_eq hc]
    exact hs.lockStep
  · intro c₁ hmem₁
    rcases List.mem_or_eq_of_mem_set hmem₁ with hold | rfl
    · exact h.wf c₁ hold
    · exact hwf'
  · have hold := h.written
    have hmove := countP_move hc c' fun c => c.pc.writes
    have hflag := hs.written
    simp only at hmove ⊢
    omega
  · intro md hr
    rcases hs.read_cases hc hr with hold | ⟨rfl, hmode⟩
    · obtain ⟨hmd, hmerges⟩ := h.read md hold
      have hnew : c'.pc.merges = false := by
        by_contra hm
        have hflag := (hs.merges (Bool.eq_true_of_not_eq_false hm)).1
        rw [h.headersWritten_of_read hold] at hflag
        cases hflag
      obtain ⟨hheader, hmerges'⟩ := hstill hmerges hnew
      exact ⟨by rw [hheader, hmd], hmerges'⟩
    · -- the call holds the lock that `SetHeader` needs
      have hnew : c'.pc.merges = false := by
        by_contra hm
        have hwrite := (hs.merges (Bool.eq_true_of_not_eq_false hm)).2
        rw [hmode] at hwrite
        cases hwrite
      obtain ⟨hheader, hmerges'⟩ := hstill (h.not_merges hc hmode) hnew
      exact ⟨by rw [hheader], hmerges'⟩

theorem start (h : s.Inv) (hmode : c.pc.mode = .free) (hwf : c.Wf) (hw : c.pc.writes = false)
    (hr : c.pc.read = none) (hm : c.pc.merges = false) (hresult : c.result = none) :
    (s.start c).Inv := by
  obtain ⟨order, ha⟩ := h.accepts
  refine ⟨?_, ?_, ?_, ?_, order, ha.nodup, ha.values, ?_⟩
  · rw [HeaderStream.start, modeAt_concat s.calls hmode]
    exact h.owned
  · intro c₁ hmem
    rcases List.mem_append.1 hmem with hold | hnew
    · exact h.wf c₁ hold
    · rwa [List.mem_singleton.1 hnew]
  · rw [HeaderStream.start, List.countP_append, List.countP_singleton, hw]
    exact h.written
  · intro md hread
    have hold : s.Read md := by
      rcases hread with ⟨c₁, hmem, hread⟩ | hsent
      · rcases List.mem_append.1 hmem with hold | hnew
        · exact .inl ⟨c₁, hold, hread⟩
        · rw [List.mem_singleton.1 hnew, hr] at hread
          cases hread
      · exact .inr hsent
    obtain ⟨hmd, hmerges⟩ := h.read md hold
    refine ⟨hmd, ?_⟩
    intro c₁ hmem
    rcases List.mem_append.1 hmem with hold | hnew
    · exact hmerges c₁ hold
    · rwa [List.mem_singleton.1 hnew]
  · intro i md
    rw [ha.mem]
    apply (At.concat_iff _).symm
    rintro ⟨_, hres⟩
    rw [hresult] at hres
    cases hres

theorem init : Inv {} := by
  refine ⟨?_, by simp, rfl, ?_, [], .nil, fun _ => rfl, ?_⟩
  · refine ⟨?_, ?_, .nil, .inl rfl⟩ <;> intro t <;> simp [modeAt]
  · rintro md (⟨c, hmem, _⟩ | hsent)
    · cases hmem
    · cases hsent
  · simp [At]

theorem step {s s' : HeaderStream} (h : s.Inv) (hs : headerStep s a = some s') : s'.Inv := by
  cases a with
  | setHeader md | sendHeader md | sendMsg m | closeWithSendError err =>
    cases hs
    exact h.start rfl ⟨fun _ => rfl, fun _ he => nomatch he⟩ rfl rfl rfl rfl
  | step i =>
    obtain ⟨c, hc, hs⟩ := Option.bind_eq_some_iff.1 hs
    obtain ⟨⟨s₁, c'⟩, hstep, rfl⟩ := Option.map_eq_some_iff.1 hs
    exact h.call hc (HeaderCall.step_step hstep)
  | setTrailer md | ctxDone e | chClose =>
    cases hs
    exact { h with accepts := h.accepts.imp fun _ ha => { ha with } }

end HeaderStream.Inv

/-- At most one headers frame is written, with the metadata of the calls of `SetHeader` that
returned nil, once each. -/
theorem header_metadata_linearizable {s : HeaderStream} (h : headerMachine.Reachable s) :
    s.sent.countP ResponseType.isHeaders ≤ 1 ∧
    ∀ md, .headers md ∈ s.sent → ∃ order : List (Nat × Option MD),
      (order.map Prod.fst).Nodup ∧
      (∀ k, mdValues md k = order.flatMap fun p => mdValues p.2 k) ∧
      (∀ i md', (i, md') ∈ order → ∃ c, s.calls[i]? = some c ∧ c.md = md') ∧
      ∀ (i : Nat) (c : HeaderCall) r, s.calls[i]? = some c → c.setResult = some r →
        (r = none ↔ (i, c.md) ∈ order) ∧
        (r ≠ none → r = some errIllegalHeaderWrite ∧ ∀ md', (i, md') ∉ order) := by
  have hinv : s.Inv :=
    h.invariant (fun s hi => hi ▸ HeaderStream.Inv.init) fun _ _ _ hI hs => hI.step hs
  constructor
  · have hcount := hinv.written
    split at hcount <;> omega
  · intro md hsent
    obtain ⟨order, ha⟩ := hinv.accepts
    refine ⟨order, ha.nodup, ?_, ?_, ?_⟩
    · intro k
      rw [(hinv.read md (.inr hsent)).1, mdValues_toProto, ha.values k]
    · intro i md' hmem
      obtain ⟨c, hc, hmd, _⟩ := (ha.mem i md').1 hmem
      exact ⟨c, hc, hmd⟩
    · intro i c r hc hr
      have hwf := hinv.wf c (List.mem_of_getElem? hc)
      have hresult : c.result = some r := by
        rw [HeaderCall.result_of_not_setting, hr]
        by_contra hset
        have := hwf.running (Bool.eq_true_of_not_eq_false hset)
        rw [hr] at this
        cases this
      have hnot : r ≠ none → ∀ md', (i, md') ∉ order := by
        intro hne md' hmem
        obtain ⟨c₁, hc₁, _, hres⟩ := (ha.mem i md').1 hmem
        rw [hc] at hc₁
        cases hc₁
        rw [hresult] at hres
        exact hne (Option.some.inj hres)
      constructor
      · constructor
        · rintro rfl
          exact (ha.mem i c.md).2 ⟨c, hc, rfl, hresult⟩
        · intro hmem
          by_contra hne
          exact hnot hne c.md hmem
      · intro hne
        refine ⟨?_, hnot hne⟩
        obtain ⟨e, rfl⟩ := Option.ne_none_iff_exists'.1 hne
        rw [hwf.illegal e hresult]

/-- A `SetHeader` holds the lock while `SendMsg` sets the flag: its metadata is in the frame, and
that of a `SendHeader` behind it is not. -/
theorem header_metadata_linearizable_race :
    ∃ s, headerMachine.Reachable s ∧ s.sent = [.headers (some [("a", ["1"])])] ∧
      s.calls.map HeaderCall.setResult = [some none, none, some (some errIllegalHeaderWrite)] ∧
      s.sent.countP ResponseType.isHeaders ≤ 1 ∧
      ∃ order : List (Nat × Option MD), (∀ k, mdValues (some [("a", ["1"])]) k =
        order.flatMap fun p => mdValues p.2 k) ∧ ∀ md, (2, md) ∉ order := by
  let run : List (List HeaderAct) :=
    [[.setHeader (some [("a", ["1"])]), .sendMsg (.ok [7]), .sendHeader (some [("b", ["2"])])],
      [.step 0, .step 0, .step 1, .step 1, .step 0, .step 0], List.replicate 4 (.step 1),
      List.replicate 3 (.step 2)]
  obtain ⟨s, hr, hsent, hresults⟩ : ∃ s, headerMachine.Reachable s ∧
      s.sent = [.headers (some [("a", ["1"])])] ∧
      s.calls.map HeaderCall.setResult = [some none, none, some (some errIllegalHeaderWrite)] :=
    headerMachine.exists_reachable {} run.flatten rfl (by decide +kernel)
  obtain ⟨hone, hframe⟩ := header_metadata_linearizable hr
  obtain ⟨order, _, hvalues, _, hcalls⟩ := hframe (some [("a", ["1"])]) (by rw [hsent]; simp)
  refine ⟨s, hr, hsent, hresults, hone, order, hvalues, ?_⟩
  obtain ⟨c, hc, hres⟩ : ∃ c, s.calls[2]? = some c ∧
      c.setResult = some (some errIllegalHeaderWrite) := by
    have hget : (s.calls.map HeaderCall.setResult)[2]? =
        some (some (some errIllegalHeaderWrite)) := by
      rw [hresults]
      rfl
    rw [List.getElem?_map] at hget
    exact Option.map_eq_some_iff.1 hget
  exact ((hcalls 2 c _ hc hres).2 (Option.some_ne_none _)).2

end Goutils.Rpc
