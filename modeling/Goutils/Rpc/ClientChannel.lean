import Goutils.Rpc.ServerChannel

namespace Goutils.Rpc
open Lib
set_option autoImplicit true

/-- What the registry needs of a `webrtcClientStream`. -/
structure StreamObject where
  id : UInt64
  ctxDone : Bool := false
  registered : Bool := false
  closed : Bool := false
  onDone : Bool := false

inductive ChannelHolder where
  | opener (i : Nat)
  | closer (i : Nat)
  | frame (i : Nat)
  | closing (i : Nat)
  deriving DecidableEq

/-- `webrtcClientChannel`. A stream is its index in `objects`, and `handed` are the response frames
handed to streams. -/
structure ClientChannel where
  streamIDCounter : UInt64 := 0
  mu : Option ChannelHolder := none
  streams : AList (fun _ : UInt64 => Nat) := ∅
  objects : List StreamObject := []
  handed : List (UInt64 × Nat) := []

def errWebRTCMaxStreams : GoErr := .text "stream limit hit"

inductive NewStreamPc where
  | nextStreamID
  | lock (id : UInt64)
  | lookup (id : UInt64)
  | create (id : UInt64)
  | insert (id : UInt64) (o : Nat)
  | unlock (id : UInt64) (r : Except GoErr Nat)
  | ret (id : UInt64) (r : Except GoErr Nat)

def newStream (ch : ClientChannel) (i : Nat) (ctxDone : Bool) :
    NewStreamPc → Option (ClientChannel × NewStreamPc)
  | .nextStreamID =>
    let id := ch.streamIDCounter + 1
    some ({ ch with streamIDCounter := id }, .lock id)
  | .lock id => if ch.mu.isNone then some ({ ch with mu := some (.opener i) }, .lookup id) else none
  | .lookup id =>
    match ch.streams.lookup id with
    | some o => some (ch, .unlock id (.ok o))
    | none =>
      if ch.streams.entries.length = WebRTCMaxStreamCount then
        some (ch, .unlock id (.error errWebRTCMaxStreams))
      else some (ch, .create id)
  | .create id =>
    some ({ ch with objects := ch.objects ++ [{ id, ctxDone }] }, .insert id ch.objects.length)
  | .insert id o =>
    some ({ ch with
      streams := ch.streams.insert id o
      objects := ch.objects.modify o fun obj => { obj with registered := true } },
      .unlock id (.ok o))
  | .unlock id r => some ({ ch with mu := none }, .ret id r)
  | .ret _ _ => none

inductive RemovePc where
  | cas
  | cancel
  | lock
  | delete
  | unlock
  | ret

def closeStream (ch : ClientChannel) (i o : Nat) : RemovePc → Option (ClientChannel × RemovePc)
  | .cas =>
    ch.objects[o]?.map fun obj =>
      if obj.closed then (ch, .ret)
      else
        ({ ch with objects := ch.objects.modify o fun obj => { obj with closed := true } }, .cancel)
  | .cancel =>
    some ({ ch with objects := ch.objects.modify o fun obj => { obj with ctxDone := true } }, .lock)
  | .lock => if ch.mu.isNone then some ({ ch with mu := some (.closer i) }, .delete) else none
  | .delete =>
    ch.objects[o]?.map fun obj =>
      ({ ch with
        streams := ch.streams.erase obj.id
        objects := ch.objects.modify o fun obj => { obj with onDone := true } }, .unlock)
  | .unlock => some ({ ch with mu := none }, .ret)
  | .ret => none

inductive FramePc where
  | enter
  | lookup (id : UInt64)
  | unlock (id : UInt64) (found : Option Nat)
  | onResponse (id : UInt64) (o : Nat)
  | ret

def onChannelMessage (ch : ClientChannel) (i : Nat) (stream : Option UInt64) :
    FramePc → Option (ClientChannel × FramePc)
  | .enter =>
    match stream with
    | none => some (ch, .ret)
    | some id => if ch.mu.isNone then some ({ ch with mu := some (.frame i) }, .lookup id) else none
  | .lookup id => some (ch, .unlock id (ch.streams.lookup id))
  | .unlock id found =>
    some ({ ch with mu := none },
      match found with
      | none => .ret
      | some o => .onResponse id o)
  | .onResponse id o => some ({ ch with handed := ch.handed ++ [(id, o)] }, .ret)
  | .ret => none

inductive ChannelClosePc where
  | lock
  | copy
  | unlock (streamsToClose : List Nat)
  | close (streamsToClose : List Nat)
  | ret

def closeChannel (ch : ClientChannel) (i : Nat) :
    ChannelClosePc → Option (ClientChannel × ChannelClosePc × Option Nat)
  | .lock => if ch.mu.isNone then some ({ ch with mu := some (.closing i) }, .copy, none) else none
  | .copy => some (ch, .unlock (ch.streams.entries.map fun e => e.2), none)
  | .unlock streamsToClose => some ({ ch with mu := none }, .close streamsToClose, none)
  | .close [] => some (ch, .ret, none)
  | .close (o :: rest) => some (ch, .close rest, some o)
  | .ret => none

/-- The ways to the end of a stream. -/
inductive StreamClosePath where
  | close
  | trailers
  | error
  | resetStream

structure Opener where
  ctxDone : Bool
  pc : NewStreamPc := .nextStreamID

structure Closer where
  obj : Nat
  pc : RemovePc := .cas

structure FrameHandler where
  stream : Option UInt64
  pc : FramePc := .enter

/-- A client channel with the goroutines in its methods and in those of its streams. -/
structure ClientChannelState where
  ch : ClientChannel := {}
  openers : List Opener := []
  closers : List Closer := []
  frames : List FrameHandler := []
  closings : List ChannelClosePc := []

inductive ClientChannelAct where
  | startNewStream (ctxDone : Bool)
  | newStream (i : Nat)
  | ctxDone (o : Nat)
  | startClose (o : Nat) (path : StreamClosePath)
  | close (i : Nat)
  | startFrame (stream : Option UInt64)
  | frame (i : Nat)
  | startClosing
  | closing (i : Nat)

/-- A stream is reset only once its context is done and if nobody has closed it. -/
def StreamObject.closable (obj : StreamObject) : StreamClosePath → Bool
  | .resetStream => obj.ctxDone && !obj.closed
  | _ => true

def clientChannelStep (s : ClientChannelState) : ClientChannelAct → Option ClientChannelState
  | .startNewStream ctxDone => some { s with openers := s.openers ++ [{ ctxDone }] }
  | .newStream i =>
    s.openers[i]?.bind fun op =>
      (newStream s.ch i op.ctxDone op.pc).map fun (ch, pc) =>
        { s with ch, openers := s.openers.set i { op with pc } }
  | .ctxDone o =>
    some { s with
      ch := { s.ch with objects := s.ch.objects.modify o fun obj => { obj with ctxDone := true } } }
  | .startClose o path =>
    s.ch.objects[o]?.bind fun obj =>
      if obj.closable path then some { s with closers := s.closers ++ [{ obj := o }] } else none
  | .close i =>
    s.closers[i]?.bind fun cl =>
      (closeStream s.ch i cl.obj cl.pc).map fun (ch, pc) =>
        { s with ch, closers := s.closers.set i { cl with pc } }
  | .startFrame stream => some { s with frames := s.frames ++ [{ stream }] }
  | .frame i =>
    s.frames[i]?.bind fun f =>
      (onChannelMessage s.ch i f.stream f.pc).map fun (ch, pc) =>
        { s with ch, frames := s.frames.set i { f with pc } }
  | .startClosing => some { s with closings := s.closings ++ [.lock] }
  | .closing i =>
    s.closings[i]?.bind fun pc =>
      (closeChannel s.ch i pc).map fun (ch, pc', o) =>
        { s with
          ch
          closings := s.closings.set i pc'
          closers := s.closers ++ (o.map fun obj => { obj }).toList }

def clientChannelMachine : Machine ClientChannelState ClientChannelAct where
  init s := s = {}
  step := clientChannelStep

inductive NewStreamStep (ch : ClientChannel) (i : Nat) (ctxDone : Bool) :
    NewStreamPc → ClientChannel → NewStreamPc → Prop where
  | nextStreamID : NewStreamStep ch i ctxDone .nextStreamID
      { ch with streamIDCounter := ch.streamIDCounter + 1 } (.lock (ch.streamIDCounter + 1))
  | lock : ch.mu = none →
      NewStreamStep ch i ctxDone (.lock sid) { ch with mu := some (.opener i) } (.lookup sid)
  | found : ch.streams.lookup sid = some o →
      NewStreamStep ch i ctxDone (.lookup sid) ch (.unlock sid (.ok o))
  | full : ch.streams.lookup sid = none →
      NewStreamStep ch i ctxDone (.lookup sid) ch (.unlock sid (.error errWebRTCMaxStreams))
  | room : ch.streams.lookup sid = none → ch.streams.entries.length ≠ WebRTCMaxStreamCount →
      NewStreamStep ch i ctxDone (.lookup sid) ch (.create sid)
  | create : NewStreamStep ch i ctxDone (.create sid)
      { ch with objects := ch.objects ++ [{ id := sid, ctxDone }] } (.insert sid ch.objects.length)
  | insert : NewStreamStep ch i ctxDone (.insert sid o)
      { ch with
        streams := ch.streams.insert sid o
        objects := ch.objects.modify o fun obj => { obj with registered := true } }
      (.unlock sid (.ok o))
  | unlock : NewStreamStep ch i ctxDone (.unlock sid r) { ch with mu := none } (.ret sid r)

theorem newStream_step (h : newStream ch i ctxDone pc = some (ch', pc')) :
    NewStreamStep ch i ctxDone pc ch' pc' := by
  cases pc with
  | nextStreamID =>
    cases h
    exact .nextStreamID
  | lock id =>
    simp only [newStream] at h
    split at h <;> cases h
    exact .lock (Option.isNone_iff_eq_none.1 ‹_›)
  | lookup id =>
    simp only [newStream] at h
    split at h
    · cases h
      exact .found ‹_›
    · split at h <;> cases h
      · exact .full ‹_›
      · exact .room ‹_› ‹_›
  | create id =>
    cases h
    exact .create
  | insert id o =>
    cases h
    exact .insert
  | unlock id r =>
    cases h
    exact .unlock
  | ret id r => cases h

inductive CloseStreamStep (ch : ClientChannel) (i o : Nat) :
    RemovePc → ClientChannel → RemovePc → Prop where
  | again : CloseStreamStep ch i o .cas ch .ret
  | first : CloseStreamStep ch i o .cas
      { ch with objects := ch.objects.modify o fun obj => { obj with closed := true } } .cancel
  | cancel : CloseStreamStep ch i o .cancel
      { ch with objects := ch.objects.modify o fun obj => { obj with ctxDone := true } } .lock
  | lock : ch.mu = none → CloseStreamStep ch i o .lock { ch with mu := some (.closer i) } .delete
  | delete : ch.objects[o]? = some obj → CloseStreamStep ch i o .delete
      { ch with
        streams := ch.streams.erase obj.id
        objects := ch.objects.modify o fun obj => { obj with onDone := true } } .unlock
  | unlock : CloseStreamStep ch i o .unlock { ch with mu := none } .ret

theorem closeStream_step (h : closeStream ch i o pc = some (ch', pc')) :
    CloseStreamStep ch i o pc ch' pc' := by
  cases pc with
  | cas =>
    obtain ⟨obj, _, he⟩ := Option.map_eq_some_iff.1 h
    split at he <;> cases he
    · exact .again
    · exact .first
  | cancel =>
    cases h
    exact .cancel
  | lock =>
    simp only [closeStream] at h
    split at h <;> cases h
    exact .lock (Option.isNone_iff_eq_none.1 ‹_›)
  | delete =>
    obtain ⟨obj, hobj, he⟩ := Option.map_eq_some_iff.1 h
    cases he
    exact .delete hobj
  | unlock =>
    cases h
    exact .unlock
  | ret => cases h

inductive ChannelMessageStep (ch : ClientChannel) (i : Nat) :
    FramePc → ClientChannel → FramePc → Prop where
  | discard : ChannelMessageStep ch i .enter ch .ret
  | lock : ch.mu = none →
      ChannelMessageStep ch i .enter { ch with mu := some (.frame i) } (.lookup sid)
  | lookup : ChannelMessageStep ch i (.lookup sid) ch (.unlock sid (ch.streams.lookup sid))
  | unknown : ChannelMessageStep ch i (.unlock sid none) { ch with mu := none } .ret
  | unlock :
      ChannelMessageStep ch i (.unlock sid (some o)) { ch with mu := none } (.onResponse sid o)
  | onResponse : ChannelMessageStep ch i (.onResponse sid o)
      { ch with handed := ch.handed ++ [(sid, o)] } .ret

theorem onChannelMessage_step (h : onChannelMessage ch i stream pc = some (ch', pc')) :
    ChannelMessageStep ch i pc ch' pc' := by
  cases pc with
  | enter =>
    cases stream with
    | none =>
      cases h
      exact .discard
    | some id =>
      simp only [onChannelMessage] at h
      split at h <;> cases h
      exact .lock (Option.isNone_iff_eq_none.1 ‹_›)
  | lookup id =>
    cases h
    exact .lookup
  | unlock id found =>
    cases found with
    | none =>
      cases h
      exact .unknown
    | some o =>
      cases h
      exact .unlock
  | onResponse id o =>
    cases h
    exact .onResponse
  | ret => cases h

inductive ChannelCloseStep (ch : ClientChannel) (i : Nat) :
    ChannelClosePc → ClientChannel → ChannelClosePc → Prop where
  | lock : ch.mu = none → ChannelCloseStep ch i .lock { ch with mu := some (.closing i) } .copy
  | copy : ChannelCloseStep ch i .copy ch (.unlock streamsToClose)
  | unlock : ChannelCloseStep ch i (.unlock streamsToClose) { ch with mu := none }
      (.close streamsToClose)
  | close : ChannelCloseStep ch i (.close (o :: rest)) ch (.close rest)
  | closed : ChannelCloseStep ch i (.close []) ch .ret

theorem closeChannel_step (h : closeChannel ch i pc = some (ch', pc', o)) :
    ChannelCloseStep ch i pc ch' pc' := by
  cases pc with
  | lock =>
    simp only [closeChannel] at h
    split at h <;> cases h
    exact .lock (Option.isNone_iff_eq_none.1 ‹_›)
  | copy =>
    cases h
    exact .copy
  | unlock streamsToClose =>
    cases h
    exact .unlock
  | close streamsToClose =>
    cases streamsToClose with
    | nil =>
      cases h
      exact .closed
    | cons o rest =>
      cases h
      exact .close
  | ret => cases h

inductive ClientChannelStep (s : ClientChannelState) :
    ClientChannelAct → ClientChannelState → Prop where
  | startNewStream :
      ClientChannelStep s (.startNewStream ctxDone) { s with openers := s.openers ++ [{ ctxDone }] }
  | newStream : s.openers[i]? = some op → NewStreamStep s.ch i op.ctxDone op.pc ch pc →
      ClientChannelStep s (.newStream i) { s with ch, openers := s.openers.set i { op with pc } }
  | ctxDone : ClientChannelStep s (.ctxDone o) { s with
      ch := { s.ch with objects := s.ch.objects.modify o fun obj => { obj with ctxDone := true } } }
  | startClose :
      ClientChannelStep s (.startClose o path) { s with closers := s.closers ++ [{ obj := o }] }
  | close : s.closers[i]? = some cl → CloseStreamStep s.ch i cl.obj cl.pc ch pc →
      ClientChannelStep s (.close i) { s with ch, closers := s.closers.set i { cl with pc } }
  | startFrame :
      ClientChannelStep s (.startFrame stream) { s with frames := s.frames ++ [{ stream }] }
  | frame : s.frames[i]? = some f → ChannelMessageStep s.ch i f.pc ch pc →
      ClientChannelStep s (.frame i) { s with ch, frames := s.frames.set i { f with pc } }
  | startClosing : ClientChannelStep s .startClosing { s with closings := s.closings ++ [.lock] }
  | closing : s.closings[i]? = some pc → ChannelCloseStep s.ch i pc ch pc' →
      (∀ cl ∈ new, cl.pc = .cas) →
      ClientChannelStep s (.closing i) { s with
        ch, closings := s.closings.set i pc', closers := s.closers ++ new }

theorem clientChannelStep_step (h : clientChannelStep s a = some s') :
    ClientChannelStep s a s' := by
  cases a with
  | startNewStream ctxDone =>
    cases h
    exact .startNewStream
  | newStream i =>
    obtain ⟨op, hop, h⟩ := Option.bind_eq_some_iff.1 h
    obtain ⟨⟨ch, pc⟩, hs, rfl⟩ := Option.map_eq_some_iff.1 h
    exact .newStream hop (newStream_step hs)
  | ctxDone o =>
    cases h
    exact .ctxDone
  | startClose o path =>
    obtain ⟨obj, _, h⟩ := Option.bind_eq_some_iff.1 h
    split at h <;> cases h
    exact .startClose
  | close i =>
    obtain ⟨cl, hcl, h⟩ := Option.bind_eq_some_iff.1 h
    obtain ⟨⟨ch, pc⟩, hs, rfl⟩ := Option.map_eq_some_iff.1 h
    exact .close hcl (closeStream_step hs)
  | startFrame stream =>
    cases h
    exact .startFrame
  | frame i =>
    obtain ⟨f, hf, h⟩ := Option.bind_eq_some_iff.1 h
    obtain ⟨⟨ch, pc⟩, hs, rfl⟩ := Option.map_eq_some_iff.1 h
    exact .frame hf (onChannelMessage_step hs)
  | startClosing =>
    cases h
    exact .startClosing
  | closing i =>
    obtain ⟨pc, hpc, h⟩ := Option.bind_eq_some_iff.1 h
    obtain ⟨⟨ch, pc', o⟩, hs, rfl⟩ := Option.map_eq_some_iff.1 h
    refine .closing hpc (closeChannel_step hs) ?_
    intro cl hcl
    obtain ⟨obj, _, rfl⟩ := Option.map_eq_some_iff.1 (Option.mem_toList.1 hcl)
    rfl

def NewStreamPc.holds : NewStreamPc → Bool
  | .lookup _ | .create _ | .insert _ _ | .unlock _ _ => true
  | _ => false

def RemovePc.holds : RemovePc → Bool
  | .delete | .unlock => true
  | _ => false

def FramePc.holds : FramePc → Bool
  | .lookup _ | .unlock _ _ => true
  | _ => false

def ChannelClosePc.holds : ChannelClosePc → Bool
  | .copy | .unlock _ => true
  | _ => false

namespace ClientChannelState

def held (s : ClientChannelState) : ChannelHolder → Bool
  | .opener i => testAt s.openers (fun op => op.pc.holds) i
  | .closer i => testAt s.closers (fun cl => cl.pc.holds) i
  | .frame i => testAt s.frames (fun f => f.pc.holds) i
  | .closing i => testAt s.closings ChannelClosePc.holds i

end ClientChannelState

theorem NewStreamStep.mutex (h : NewStreamStep ch i ctxDone pc ch' pc') :
    MutexStep (.opener i) ch.mu pc.holds ch'.mu pc'.holds := by
  cases h with
  | lock hmu => exact .lock hmu
  | unlock => exact .unlock
  | _ => exact .keep

theorem CloseStreamStep.mutex (h : CloseStreamStep ch i o pc ch' pc') :
    MutexStep (.closer i) ch.mu pc.holds ch'.mu pc'.holds := by
  cases h with
  | lock hmu => exact .lock hmu
  | unlock => exact .unlock
  | _ => exact .keep

theorem ChannelMessageStep.mutex (h : ChannelMessageStep ch i pc ch' pc') :
    MutexStep (.frame i) ch.mu pc.holds ch'.mu pc'.holds := by
  cases h with
  | lock hmu => exact .lock hmu
  | unlock | unknown => exact .unlock
  | _ => exact .keep

theorem ChannelCloseStep.mutex (h : ChannelCloseStep ch i pc ch' pc') :
    MutexStep (.closing i) ch.mu pc.holds ch'.mu pc'.holds := by
  cases h with
  | lock hmu => exact .lock hmu
  | unlock => exact .unlock
  | _ => exact .keep

variable {s s' : ClientChannelState}

namespace ClientChannelState

theorem held_newStream (s : ClientChannelState) (ch : ClientChannel) (hop : s.openers[i]? = some op)
    (new : Opener) : held { s with ch, openers := s.openers.set i new } =
      Function.update s.held (.opener i) new.pc.holds := by
  funext t
  cases t with
  | opener j =>
    simp only [held, testAt_set hop, Function.update_apply, ChannelHolder.opener.injEq]
  | _ => rfl

theorem held_close (s : ClientChannelState) (ch : ClientChannel) (hcl : s.closers[i]? = some cl)
    (new : Closer) : held { s with ch, closers := s.closers.set i new } =
      Function.update s.held (.closer i) new.pc.holds := by
  funext t
  cases t with
  | closer j =>
    simp only [held, testAt_set hcl, Function.update_apply, ChannelHolder.closer.injEq]
  | _ => rfl

theorem held_frame (s : ClientChannelState) (ch : ClientChannel) (hf : s.frames[i]? = some f)
    (new : FrameHandler) : held { s with ch, frames := s.frames.set i new } =
      Function.update s.held (.frame i) new.pc.holds := by
  funext t
  cases t with
  | frame j =>
    simp only [held, testAt_set hf, Function.update_apply, ChannelHolder.frame.injEq]
  | _ => rfl

theorem held_closing (s : ClientChannelState) (ch : ClientChannel) (hpc : s.closings[i]? = some pc)
    (pc' : ChannelClosePc) {new : List Closer} (hnew : ∀ cl ∈ new, cl.pc = .cas) :
    held { s with ch, closings := s.closings.set i pc', closers := s.closers ++ new } =
      Function.update s.held (.closing i) pc'.holds := by
  have hfree : ∀ cl ∈ new, cl.pc.holds = false := by
    intro cl hcl
    rw [hnew cl hcl]
    rfl
  funext t
  cases t with
  | closing j =>
    simp only [held, testAt_set hpc, Function.update_apply, ChannelHolder.closing.injEq]
  | closer j => exact congrFun (testAt_append hfree) j
  | _ => rfl

theorem mutex_step (h : MutexOwned s.ch.mu s.held) (hs : ClientChannelStep s a s') :
    MutexOwned s'.ch.mu s'.held := by
  have hstart : ∀ {s' : ClientChannelState}, s'.held = s.held → MutexOwned s.ch.mu s'.held :=
    fun heq => heq ▸ h
  cases hs with
  | startNewStream =>
    apply hstart
    funext t
    cases t with
    | opener j => exact congrFun (testAt_append (by simp [NewStreamPc.holds])) j
    | _ => rfl
  | newStream hop hstep =>
    rw [held_newStream s _ hop]
    exact h.step (by simpa only [held, testAt_eq hop] using hstep.mutex)
  | ctxDone => exact h
  | startClose =>
    apply hstart
    funext t
    cases t with
    | closer j => exact congrFun (testAt_append (by simp [RemovePc.holds])) j
    | _ => rfl
  | close hcl hstep =>
    rw [held_close s _ hcl]
    exact h.step (by simpa only [held, testAt_eq hcl] using hstep.mutex)
  | startFrame =>
    apply hstart
    funext t
    cases t with
    | frame j => exact congrFun (testAt_append (by simp [FramePc.holds])) j
    | _ => rfl
  | frame hf hstep =>
    rw [held_frame s _ hf]
    exact h.step (by simpa only [held, testAt_eq hf] using hstep.mutex)
  | startClosing =>
    apply hstart
    funext t
    cases t with
    | closing j => exact congrFun (testAt_append (by simp [ChannelClosePc.holds])) j
    | _ => rfl
  | closing hpc hstep hnew =>
    rw [held_closing s _ hpc _ hnew]
    exact h.step (by simpa only [held, testAt_eq hpc] using hstep.mutex)

theorem mutex (h : clientChannelMachine.Reachable s) : MutexOwned s.ch.mu s.held := by
  refine h.invariant ?_ fun _ _ _ hI hs => mutex_step hI (clientChannelStep_step hs)
  rintro s rfl t
  cases t <;> simp [held, testAt]

end ClientChannelState

def NewStreamPc.givenID : NewStreamPc → Option UInt64
  | .nextStreamID => none
  | .lock id | .lookup id | .create id | .insert id _ | .unlock id _ | .ret id _ => some id

def NewStreamPc.pendingID : NewStreamPc → Option UInt64
  | .lock id | .lookup id | .create id => some id
  | _ => none

variable {ch ch' : ClientChannel} {id : UInt64}

namespace ClientChannel

def ids (ch : ClientChannel) : List UInt64 := ch.objects.map fun obj => obj.id

def entries (ch : ClientChannel) : List (UInt64 × Bool × Bool) :=
  ch.objects.map fun obj => (obj.id, obj.registered, obj.onDone)

theorem ids_eq (ch : ClientChannel) : ch.ids = ch.entries.map fun e => e.1 := by
  rw [ids, entries, List.map_map]
  rfl

theorem entries_eq_some {o : Nat} : ch.entries[o]? = some (id, r, d) ↔
    ∃ obj : StreamObject, ch.objects[o]? = some obj ∧ obj.id = id ∧ obj.registered = r ∧
      obj.onDone = d := by
  simp [entries]

/-- The map holds exactly the streams that were registered and not removed, within the limit. -/
structure Exact (ch : ClientChannel) : Prop where
  streams : ∀ id o, ch.streams.lookup id = some o ↔ ch.entries[o]? = some (id, true, false)
  size : ch.streams.entries.length ≤ WebRTCMaxStreamCount

theorem Exact.of_eq (h : ch.Exact) (hs : ch'.streams = ch.streams) (he : ch'.entries = ch.entries) :
    ch'.Exact := by
  constructor
  · rw [hs, he]
    exact h.streams
  · rw [hs]
    exact h.size

end ClientChannel

def NewStreamPc.Ready (ch : ClientChannel) : NewStreamPc → Prop
  | .create _ => ch.streams.entries.length < WebRTCMaxStreamCount
  | .insert id o =>
    ch.entries[o]? = some (id, false, false) ∧ ch.streams.entries.length < WebRTCMaxStreamCount
  | _ => True

theorem NewStreamPc.ready_of_free {pc : NewStreamPc} (h : pc.holds = false) (ch : ClientChannel) :
    pc.Ready ch := by
  cases pc with
  | create id | insert id o => cases h
  | _ => trivial

theorem NewStreamPc.Ready.of_eq (h : Ready ch pc) (hs : ch'.streams = ch.streams)
    (he : ch'.entries = ch.entries) : Ready ch' pc := by
  unfold Ready at h ⊢
  rwa [hs, he]

namespace ClientChannel

theorem index_of_id {o o' : Nat} (hn : ch.ids.Nodup) (ho : ch.entries[o]? = some (id, r, d))
    (ho' : ch.entries[o']? = some (id, r', d')) : o = o' := by
  rw [ids_eq] at hn
  exact index_unique hn ho ho' rfl

theorem entries_modify (ho : ch.objects[o]? = some obj) (f : StreamObject → StreamObject)
    (streams : AList fun _ : UInt64 => Nat) (j : Nat) :
    (entries { ch with streams, objects := ch.objects.modify o f })[j]? =
      if o = j then some ((f obj).id, (f obj).registered, (f obj).onDone) else ch.entries[j]? := by
  simp only [entries, List.getElem?_map, List.getElem?_modify]
  split
  · subst_vars
    rw [ho]
    rfl
  · simp

theorem Exact.create (h : ch.Exact) (id : UInt64) (ctxDone : Bool) :
    Exact { ch with objects := ch.objects ++ [{ id, ctxDone }] } := by
  have he : entries { ch with objects := ch.objects ++ [{ id, ctxDone }] } =
      ch.entries ++ [(id, false, false)] := by
    simp [entries]
  constructor
  · intro id' o
    rw [he]
    constructor
    · intro hl
      have ho := (h.streams id' o).1 hl
      rw [List.getElem?_append_left (List.getElem?_eq_some_iff.1 ho).1]
      exact ho
    · intro ho
      apply (h.streams id' o).2
      obtain ho | ⟨_, heq⟩ := getElem?_concat_cases ho
      · exact ho
      · cases heq
  · exact h.size

theorem Exact.insert (h : ch.Exact) (hn : ch.ids.Nodup) (hr : NewStreamPc.Ready ch (.insert id o)) :
    Exact { ch with
      streams := ch.streams.insert id o
      objects := ch.objects.modify o fun obj => { obj with registered := true } } := by
  obtain ⟨ho, hlen⟩ := hr
  obtain ⟨obj, hobj, rfl, hreg, hdone⟩ := entries_eq_some.1 ho
  constructor
  · intro id' o'
    rw [entries_modify hobj]
    by_cases hid : id' = obj.id
    · subst hid
      rw [AList.lookup_insert]
      split
      · simp_all
      · rename_i hne
        constructor
        · intro heq
          exact absurd (Option.some.inj heq) hne
        · intro ho'
          exact absurd (index_of_id hn ho ho') hne
    · rw [AList.lookup_insert_ne hid, h.streams]
      split
      · subst_vars
        simp [ho, Ne.symm hid]
      · rfl
  · change (List.kerase obj.id ch.streams.entries).length + 1 ≤ _
    have hle := (List.kerase_sublist obj.id ch.streams.entries).length_le
    omega

theorem Exact.erase (h : ch.Exact) (hn : ch.ids.Nodup) (hobj : ch.objects[o]? = some obj) :
    Exact { ch with
      streams := ch.streams.erase obj.id
      objects := ch.objects.modify o fun obj => { obj with onDone := true } } := by
  have ho := entries_eq_some.2 ⟨obj, hobj, rfl, rfl, rfl⟩
  constructor
  · intro id' o'
    rw [entries_modify hobj]
    by_cases hid : id' = obj.id
    · subst hid
      rw [AList.lookup_erase]
      split
      · simp
      · rename_i hne
        constructor
        · intro heq
          cases heq
        · intro ho'
          exact absurd (index_of_id hn ho ho') hne
    · rw [AList.lookup_erase_ne hid, h.streams]
      split
      · subst_vars
        simp [ho, Ne.symm hid]
      · rfl
  · exact (List.kerase_sublist obj.id ch.streams.entries).length_le.trans h.size

end ClientChannel

namespace NewStreamStep

variable {i : Nat} {ctxDone : Bool} {pc pc' : NewStreamPc}
  (hs : NewStreamStep ch i ctxDone pc ch' pc')

include hs

theorem exact (h : ch.Exact) (hn : ch.ids.Nodup) (hr : pc.Ready ch) :
    ch'.Exact ∧ pc'.Ready ch' := by
  cases hs with
  | nextStreamID | lock hmu | unlock => exact ⟨h.of_eq rfl rfl, trivial⟩
  | found hl | full hl => exact ⟨h, trivial⟩
  | room hl hne => exact ⟨h, Nat.lt_of_le_of_ne h.size hne⟩
  | create =>
    refine ⟨h.create _ _, ?_, hr⟩
    simp [ClientChannel.entries]
  | insert => exact ⟨h.insert hn hr, trivial⟩

theorem frame : pc.holds = true ∨ ch'.streams = ch.streams ∧ ch'.entries = ch.entries := by
  cases hs with
  | nextStreamID | lock hmu => exact .inr ⟨rfl, rfl⟩
  | _ => exact .inl rfl

theorem ids : pc = .nextStreamID ∧ pc' = .lock (ch.streamIDCounter + 1) ∧
      ch'.streamIDCounter = ch.streamIDCounter + 1 ∧ ch'.ids = ch.ids ∨
    ch'.streamIDCounter = ch.streamIDCounter ∧ pc'.givenID = pc.givenID ∧
      ∀ id, (if pc'.pendingID == some id then 1 else 0) + ch'.ids.count id ≤
        (if pc.pendingID == some id then 1 else 0) + ch.ids.count id := by
  cases hs with
  | nextStreamID => exact .inl ⟨rfl, rfl, rfl, rfl⟩
  | create =>
    refine .inr ⟨rfl, rfl, ?_⟩
    intro id
    simp [ClientChannel.ids, NewStreamPc.pendingID, List.count_singleton, Nat.add_comm]
  | insert =>
    refine .inr ⟨rfl, rfl, ?_⟩
    intro id
    have hids : ∀ o, (ch.objects.modify o fun obj => { obj with registered := true }).map
        (fun obj => obj.id) = ch.ids := map_modify_same (by intro obj; rfl) _
    simp only [ClientChannel.ids, hids]
    exact Nat.le_refl _
  | _ =>
    refine .inr ⟨rfl, rfl, ?_⟩
    intro id
    simp [ClientChannel.ids, NewStreamPc.pendingID]

theorem ids_prefix : ch.ids <+: ch'.ids := by
  cases hs with
  | create =>
    rw [ClientChannel.ids, ClientChannel.ids, List.map_append]
    exact List.prefix_append _ _
  | insert =>
    refine ⟨[], ?_⟩
    rw [List.append_nil]
    exact (map_modify_same (by intro obj; rfl) _ _).symm
  | _ => exact List.prefix_rfl

theorem handed : ch'.handed = ch.handed := by
  cases hs <;> rfl

end NewStreamStep

namespace CloseStreamStep

variable {i o : Nat} {pc pc' : RemovePc} (hs : CloseStreamStep ch i o pc ch' pc')

include hs

theorem exact (h : ch.Exact) (hn : ch.ids.Nodup) : ch'.Exact := by
  cases hs with
  | again => exact h
  | first | cancel => exact h.of_eq rfl (map_modify_same (by intro obj; rfl) _ _)
  | lock hmu | unlock => exact h.of_eq rfl rfl
  | delete hobj => exact h.erase hn hobj

theorem frame : pc.holds = true ∨ ch'.streams = ch.streams ∧ ch'.entries = ch.entries := by
  cases hs with
  | again | lock hmu => exact .inr ⟨rfl, rfl⟩
  | first | cancel => exact .inr ⟨rfl, map_modify_same (by intro obj; rfl) _ _⟩
  | _ => exact .inl rfl

theorem ids_eq : ch'.ids = ch.ids := by
  cases hs with
  | first | cancel | delete hobj => exact map_modify_same (by intro obj; rfl) _ _
  | _ => rfl

theorem keeps : ch'.streamIDCounter = ch.streamIDCounter ∧ ch'.handed = ch.handed := by
  cases hs <;> exact ⟨rfl, rfl⟩

end CloseStreamStep

namespace ClientChannelState

def givenIDs (s : ClientChannelState) : List (Option UInt64) :=
  s.openers.map fun op => op.pc.givenID

def pendingIDs (s : ClientChannelState) : List (Option UInt64) :=
  s.openers.map fun op => op.pc.pendingID

def opened (s : ClientChannelState) : Nat := s.givenIDs.countP Option.isSome

/-- Every identifier is given out once, and serves one stream at most. -/
structure Ids (s : ClientChannelState) : Prop where
  counter : s.ch.streamIDCounter.toNat = s.opened
  le : ∀ id, some id ∈ s.givenIDs → id.toNat ≤ s.opened
  once : ∀ id, s.givenIDs.count (some id) ≤ 1
  used : ∀ id, s.pendingIDs.count (some id) + s.ch.ids.count id ≤ s.givenIDs.count (some id)

theorem Ids.nodup (h : s.Ids) : s.ch.ids.Nodup := by
  rw [List.nodup_iff_count_le_one]
  intro id
  have hu := h.used id
  have ho := h.once id
  omega

theorem Ids.of_eq (h : s.Ids) (hc : s'.ch.streamIDCounter = s.ch.streamIDCounter)
    (hi : s'.ch.ids = s.ch.ids)
    (hg : ∀ id, s'.givenIDs.count (some id) = s.givenIDs.count (some id))
    (hp : ∀ id, s'.pendingIDs.count (some id) = s.pendingIDs.count (some id))
    (ho : s'.opened = s.opened) : s'.Ids where
  counter := by rw [hc, ho, h.counter]
  le id hid := by
    rw [ho]
    apply h.le id
    rw [← List.count_pos_iff, ← hg]
    exact List.count_pos_iff.2 hid
  once id := by
    rw [hg]
    exact h.once id
  used id := by
    rw [hg, hp, hi]
    exact h.used id

end ClientChannelState

namespace ClientChannelState

section newStream

variable {s s' : ClientChannelState} {op : Opener} {pc : NewStreamPc} {i : Nat}
  (hop : s.openers[i]? = some op)

include hop

theorem count_openers (ho : s'.openers = s.openers.set i { op with pc }) (f : NewStreamPc → β)
    (p : β → Bool) : (s'.openers.map fun op => f op.pc).countP p + (if p (f op.pc) then 1 else 0) =
    (s.openers.map fun op => f op.pc).countP p + if p (f pc) then 1 else 0 := by
  rw [ho, List.map_set]
  apply countP_move
  rw [List.getElem?_map, hop]
  rfl

theorem opened_next (hpc : op.pc = .nextStreamID)
    (ho : s'.openers = s.openers.set i { op with pc := .lock id }) : s'.opened = s.opened + 1 := by
  have h := count_openers hop ho NewStreamPc.givenID Option.isSome
  rw [hpc] at h
  exact h

theorem Ids.next (h : s.Ids) (hpc : op.pc = .nextStreamID)
    (ho : s'.openers = s.openers.set i { op with pc := .lock (s.ch.streamIDCounter + 1) })
    (hc : s'.ch.streamIDCounter = s.ch.streamIDCounter + 1) (hi : s'.ch.ids = s.ch.ids)
    (hopen : s'.opened < 2 ^ 64) : s'.Ids := by
  have hopened := opened_next hop hpc ho
  have hnew : (s.ch.streamIDCounter + 1).toNat = s.opened + 1 := by
    rw [UInt64.toNat_add, h.counter]
    exact Nat.mod_eq_of_lt (hopened ▸ hopen)
  have hgiven : ∀ id, s'.givenIDs.count (some id) = s.givenIDs.count (some id) +
      if some (s.ch.streamIDCounter + 1) == some id then 1 else 0 := by
    intro id
    have hcount := count_openers hop ho NewStreamPc.givenID (· == some id)
    rw [hpc] at hcount
    exact hcount
  have hpend : ∀ id, s'.pendingIDs.count (some id) = s.pendingIDs.count (some id) +
      if some (s.ch.streamIDCounter + 1) == some id then 1 else 0 := by
    intro id
    have hcount := count_openers hop ho NewStreamPc.pendingID (· == some id)
    rw [hpc] at hcount
    exact hcount
  have hfresh : s.givenIDs.count (some (s.ch.streamIDCounter + 1)) = 0 := by
    rw [List.count_eq_zero]
    intro hmem
    have hle := h.le _ hmem
    omega
  constructor
  · rw [hc, hnew, hopened]
  · intro id hid
    rw [hopened]
    by_cases heq : s.ch.streamIDCounter + 1 = id
    · rw [← heq, hnew]
    · have hpos := List.count_pos_iff.2 hid
      rw [hgiven] at hpos
      simp only [Option.some_beq_some, beq_iff_eq, heq, if_false, Nat.add_zero] at hpos
      exact Nat.le_succ_of_le (h.le id (List.count_pos_iff.1 hpos))
  · intro id
    rw [hgiven]
    by_cases heq : s.ch.streamIDCounter + 1 = id
    · rw [← heq, hfresh]
      simp
    · simp only [Option.some_beq_some, beq_iff_eq, heq, if_false, Nat.add_zero]
      exact h.once id
  · intro id
    rw [hgiven, hpend, hi]
    have hu := h.used id
    omega

theorem Ids.move (h : s.Ids) (ho : s'.openers = s.openers.set i { op with pc })
    (hc : s'.ch.streamIDCounter = s.ch.streamIDCounter) (hg : pc.givenID = op.pc.givenID)
    (hu : ∀ id, (if pc.pendingID == some id then 1 else 0) + s'.ch.ids.count id ≤
      (if op.pc.pendingID == some id then 1 else 0) + s.ch.ids.count id) : s'.Ids := by
  have hgiven : s'.givenIDs = s.givenIDs := by
    rw [givenIDs, ho]
    exact map_set_same hop _ hg
  constructor
  · rw [hc, h.counter, opened, opened, hgiven]
  · rw [opened, hgiven]
    exact h.le
  · rw [hgiven]
    exact h.once
  · intro id
    have hpend := count_openers hop ho NewStreamPc.pendingID (· == some id)
    have hused := h.used id
    have hle := hu id
    rw [hgiven]
    simp only [List.count, pendingIDs] at *
    omega

theorem opened_le (hs : NewStreamStep s.ch i op.ctxDone op.pc s'.ch pc)
    (ho : s'.openers = s.openers.set i { op with pc }) : s.opened ≤ s'.opened := by
  obtain ⟨hpc, rfl, _⟩ | ⟨_, hg, _⟩ := hs.ids
  · rw [opened_next hop hpc ho]
    exact Nat.le_succ _
  · apply Nat.le_of_eq
    rw [opened, opened, givenIDs, givenIDs, ho, map_set_same hop _ hg]

theorem Ids.newStream (h : s.Ids) (hs : NewStreamStep s.ch i op.ctxDone op.pc s'.ch pc)
    (ho : s'.openers = s.openers.set i { op with pc }) (hopen : s'.opened < 2 ^ 64) : s'.Ids := by
  obtain ⟨hpc, rfl, hc, hi⟩ | ⟨hc, hg, hu⟩ := hs.ids
  · exact h.next hop hpc ho hc hi hopen
  · exact h.move hop ho hc hg hu

end newStream

end ClientChannelState

def FramePc.Found (ch : ClientChannel) : FramePc → Prop
  | .unlock id (some o) | .onResponse id o => ch.ids[o]? = some id
  | _ => True

theorem getElem?_of_prefix {l l' : List α} {i : Nat} (hp : l <+: l') (h : l[i]? = some a) :
    l'[i]? = some a := by
  obtain ⟨t, rfl⟩ := hp
  rw [List.getElem?_append_left (List.getElem?_eq_some_iff.1 h).1]
  exact h

theorem FramePc.Found.mono {pc : FramePc} (h : pc.Found ch) (hp : ch.ids <+: ch'.ids) :
    pc.Found ch' := by
  unfold Found at h ⊢
  split at h
  · exact getElem?_of_prefix hp h
  · exact getElem?_of_prefix hp h
  · trivial

theorem ClientChannel.Exact.found (h : ch.Exact) (id : UInt64) :
    (FramePc.unlock id (ch.streams.lookup id)).Found ch := by
  cases hl : ch.streams.lookup id with
  | none => trivial
  | some o =>
    have ho := (h.streams id o).1 hl
    rw [FramePc.Found, ClientChannel.ids_eq, List.getElem?_map, ho]
    rfl

theorem ChannelMessageStep.found (hs : ChannelMessageStep ch i pc ch' pc') (h : ch.Exact)
    (hf : pc.Found ch) (hh : ∀ p ∈ ch.handed, ch.ids[p.2]? = some p.1) :
    pc'.Found ch' ∧ ∀ p ∈ ch'.handed, ch.ids[p.2]? = some p.1 := by
  cases hs with
  | discard | lock hmu | unknown => exact ⟨trivial, hh⟩
  | lookup => exact ⟨h.found _, hh⟩
  | unlock => exact ⟨hf, hh⟩
  | onResponse =>
    refine ⟨trivial, ?_⟩
    intro p hp
    obtain hp | hp := List.mem_append.1 hp
    · exact hh p hp
    · rw [List.mem_singleton.1 hp]
      exact hf

theorem ChannelMessageStep.keeps (hs : ChannelMessageStep ch i pc ch' pc') :
    ch'.streamIDCounter = ch.streamIDCounter ∧ ch'.streams = ch.streams ∧
      ch'.objects = ch.objects := by
  cases hs <;> exact ⟨rfl, rfl, rfl⟩

theorem ChannelCloseStep.keeps (hs : ChannelCloseStep ch i pc ch' pc') :
    ch'.streamIDCounter = ch.streamIDCounter ∧ ch'.streams = ch.streams ∧
      ch'.objects = ch.objects ∧ ch'.handed = ch.handed := by
  cases hs <;> exact ⟨rfl, rfl, rfl, rfl⟩

namespace ClientChannelState

structure Inv (s : ClientChannelState) : Prop where
  ids : s.Ids
  registry : s.ch.Exact
  openers : ∀ (i : Nat) op, s.openers[i]? = some op → op.pc.Ready s.ch
  frames : ∀ f ∈ s.frames, f.pc.Found s.ch
  handed : ∀ p ∈ s.ch.handed, s.ch.ids[p.2]? = some p.1

theorem Inv.init : Inv ({} : ClientChannelState) where
  ids := ⟨rfl, by simp [givenIDs], by simp [givenIDs], by simp [pendingIDs, ClientChannel.ids]⟩
  registry := ⟨by simp [ClientChannel.entries], by decide⟩
  openers := by simp
  frames := by simp
  handed := by simp

section

variable {s s' : ClientChannelState}

theorem ready_of_frame {t : ChannelHolder} {j : Nat} (hm : MutexOwned s.ch.mu s.held)
    (hop : s.openers[j]? = some op) (hr : op.pc.Ready s.ch) (hne : t ≠ .opener j)
    (hframe : s.held t = true ∨ ch.streams = s.ch.streams ∧ ch.entries = s.ch.entries) :
    op.pc.Ready ch := by
  obtain ht | ⟨hs, he⟩ := hframe
  · apply NewStreamPc.ready_of_free
    rw [← Bool.not_eq_true]
    intro hj
    exact hne (hm.unique ht ((testAt_eq hop _).trans hj))
  · exact hr.of_eq hs he

theorem Inv.newStream (h : s.Inv) (hm : MutexOwned s.ch.mu s.held) (hop : s.openers[i]? = some op)
    (hs : NewStreamStep s.ch i op.ctxDone op.pc ch' pc)
    (hids : Ids { s with ch := ch', openers := s.openers.set i { op with pc } }) :
    Inv { s with ch := ch', openers := s.openers.set i { op with pc } } := by
  obtain ⟨hexact, hready⟩ := hs.exact h.registry h.ids.nodup (h.openers i op hop)
  refine ⟨hids, hexact, ?_, ?_, ?_⟩
  · intro j op' hj
    obtain ⟨_, rfl⟩ | ⟨hne, hj⟩ := getElem?_set_cases hj
    · exact hready
    · apply ready_of_frame hm hj (h.openers j op' hj) (t := .opener i)
      · intro heq
        exact hne (ChannelHolder.opener.inj heq).symm
      · obtain hh | hf := hs.frame
        · exact .inl ((testAt_eq hop _).trans hh)
        · exact .inr hf
  · intro f hf
    exact (h.frames f hf).mono hs.ids_prefix
  · intro p hp
    rw [hs.handed] at hp
    exact getElem?_of_prefix hs.ids_prefix (h.handed p hp)

theorem Inv.close (h : s.Inv) (hm : MutexOwned s.ch.mu s.held) (hcl : s.closers[i]? = some cl)
    (hs : CloseStreamStep s.ch i cl.obj cl.pc ch' pc) :
    Inv { s with ch := ch', closers := s.closers.set i { cl with pc } } := by
  obtain ⟨hc, hh⟩ := hs.keeps
  refine ⟨h.ids.of_eq hc hs.ids_eq (fun _ => rfl) (fun _ => rfl) rfl,
    hs.exact h.registry h.ids.nodup, ?_, ?_, ?_⟩
  · intro j op hj
    apply ready_of_frame hm hj (h.openers j op hj) (t := .closer i)
    · intro heq
      cases heq
    · obtain hh | hf := hs.frame
      · exact .inl ((testAt_eq hcl _).trans hh)
      · exact .inr hf
  · intro f hf
    exact (h.frames f hf).mono (hs.ids_eq ▸ List.prefix_rfl)
  · intro p hp
    rw [hh] at hp
    rw [hs.ids_eq]
    exact h.handed p hp

theorem Inv.frame (h : s.Inv) (hf : s.frames[i]? = some f)
    (hs : ChannelMessageStep s.ch i f.pc ch' pc) :
    Inv { s with ch := ch', frames := s.frames.set i { f with pc } } := by
  obtain ⟨hfound, hhanded⟩ := hs.found h.registry (h.frames f (List.mem_of_getElem? hf)) h.handed
  obtain ⟨hc, hst, ho⟩ := hs.keeps
  have he : ch'.entries = s.ch.entries := congrArg (List.map _) ho
  have hi : ch'.ids = s.ch.ids := congrArg (List.map _) ho
  refine ⟨h.ids.of_eq hc hi (fun _ => rfl) (fun _ => rfl) rfl, h.registry.of_eq hst he, ?_, ?_, ?_⟩
  · intro j op hj
    exact (h.openers j op hj).of_eq hst he
  · intro f' hf'
    obtain hf' | rfl := List.mem_or_eq_of_mem_set hf'
    · exact (h.frames f' hf').mono (hi ▸ List.prefix_rfl)
    · exact hfound
  · intro p hp
    rw [hi]
    exact hhanded p hp

theorem Inv.of_eq (h : s.Inv) (hc : s'.ch.streamIDCounter = s.ch.streamIDCounter)
    (hs : s'.ch.streams = s.ch.streams) (he : s'.ch.entries = s.ch.entries)
    (hh : s'.ch.handed = s.ch.handed) (ho : s'.openers = s.openers) (hf : s'.frames = s.frames) :
    s'.Inv := by
  have hi : s'.ch.ids = s.ch.ids := by
    rw [ClientChannel.ids_eq, ClientChannel.ids_eq, he]
  have hg : s'.givenIDs = s.givenIDs := by rw [givenIDs, givenIDs, ho]
  have hp : s'.pendingIDs = s.pendingIDs := by rw [pendingIDs, pendingIDs, ho]
  refine ⟨h.ids.of_eq hc hi (fun _ => by rw [hg]) (fun _ => by rw [hp])
    (by rw [opened, opened, hg]), h.registry.of_eq hs he, ?_, ?_, ?_⟩
  · intro j op hj
    rw [ho] at hj
    exact (h.openers j op hj).of_eq hs he
  · intro f hmem
    rw [hf] at hmem
    exact (h.frames f hmem).mono (hi ▸ List.prefix_rfl)
  · intro p hmem
    rw [hh] at hmem
    rw [hi]
    exact h.handed p hmem

theorem Inv.startNewStream (h : s.Inv) (ctxDone : Bool) :
    Inv { s with openers := s.openers ++ [{ ctxDone }] } := by
  refine { h with ids := h.ids.of_eq rfl rfl ?_ ?_ ?_, openers := ?_ }
  · intro id
    simp [givenIDs, NewStreamPc.givenID]
  · intro id
    simp [pendingIDs, NewStreamPc.pendingID]
  · simp [opened, givenIDs, NewStreamPc.givenID]
  · intro j op hj
    obtain hj | ⟨_, rfl⟩ := getElem?_concat_cases hj
    · exact h.openers j op hj
    · trivial

theorem Inv.step (h : s.Inv) (hm : MutexOwned s.ch.mu s.held) (hs : ClientChannelStep s a s')
    (hopen : s'.opened < 2 ^ 64) : s'.Inv := by
  cases hs with
  | startNewStream => exact h.startNewStream _
  | newStream hop hstep => exact h.newStream hm hop hstep (h.ids.newStream hop hstep rfl hopen)
  | ctxDone => exact h.of_eq rfl rfl (map_modify_same (by intro obj; rfl) _ _) rfl rfl rfl
  | startClose | startClosing => exact h.of_eq rfl rfl rfl rfl rfl rfl
  | close hcl hstep => exact h.close hm hcl hstep
  | startFrame =>
    refine { h with ids := h.ids.of_eq rfl rfl (fun _ => rfl) (fun _ => rfl) rfl, frames := ?_ }
    intro f hf
    obtain hf | hf := List.mem_append.1 hf
    · exact h.frames f hf
    · rw [List.mem_singleton.1 hf]
      trivial
  | frame hf hstep => exact h.frame hf hstep
  | closing hpc hstep hnew =>
    obtain ⟨hc, hst, ho, hh⟩ := hstep.keeps
    exact h.of_eq hc hst (congrArg (List.map _) ho) hh rfl rfl

theorem opened_mono (hs : ClientChannelStep s a s') : s.opened ≤ s'.opened := by
  cases hs with
  | startNewStream =>
    simp [opened, givenIDs]
  | newStream hop hstep => exact opened_le hop hstep rfl
  | _ => exact Nat.le_refl _

end

theorem inv (h : clientChannelMachine.Reachable s) (hopen : s.opened < 2 ^ 64) : s.Inv := by
  induction h with
  | init hi =>
    cases hi
    exact .init
  | step hr _ hs ih =>
    have hstep := clientChannelStep_step hs
    have hlt := Nat.lt_of_le_of_lt (opened_mono hstep) hopen
    exact (ih hlt).step (mutex hr) hstep hopen

end ClientChannelState

/-- The map holds exactly the streams that were registered and not removed, each under an
identifier of its own. -/
theorem clientStreams_registry {s : ClientChannelState} (h : clientChannelMachine.Reachable s)
    (hopen : s.opened < 2 ^ 64) :
    (s.ch.mu = none → ∀ id o, s.ch.streams.lookup id = some o ↔
      ∃ obj, s.ch.objects[o]? = some obj ∧ obj.id = id ∧ obj.registered = true ∧
        obj.onDone = false) ∧
      (s.ch.objects.map StreamObject.id).Nodup ∧ (∀ id, s.givenIDs.count (some id) ≤ 1) ∧
      (∀ obj ∈ s.ch.objects, some obj.id ∈ s.givenIDs) ∧
      s.ch.streams.entries.length ≤ WebRTCMaxStreamCount ∧
      ∀ id o, (id, o) ∈ s.ch.handed →
        ∃ obj, s.ch.objects[o]? = some obj ∧ obj.id = id := by
  have hI := ClientChannelState.inv h hopen
  refine ⟨?_, hI.ids.nodup, hI.ids.once, ?_, hI.registry.size, ?_⟩
  · intro _ id o
    rw [hI.registry.streams, ClientChannel.entries_eq_some]
  · intro obj hobj
    have hpos : 0 < s.ch.ids.count obj.id := List.count_pos_iff.2 (List.mem_map_of_mem hobj)
    have hused := hI.ids.used obj.id
    apply List.count_pos_iff.1
    omega
  · intro id o hmem
    have ho := hI.handed (id, o) hmem
    rw [ClientChannel.ids, List.getElem?_map] at ho
    exact Option.map_eq_some_iff.1 ho

/-- The goroutine of the first stream resets it before `newStream` has returned. Then a frame comes
for each. -/
theorem clientStreams_registry_reset :
    ∃ s, clientChannelMachine.Reachable s ∧ s.opened < 2 ^ 64 ∧ s.ch.mu = none ∧
      s.ch.objects.map (fun obj => (obj.id, obj.registered, obj.onDone)) =
        [(1, true, true), (2, true, false)] ∧
      s.ch.handed = [(2, 1)] ∧ (s.ch.streams.lookup 2 = some 1 ↔
        ∃ obj, s.ch.objects[1]? = some obj ∧ obj.id = 2 ∧ obj.registered = true ∧
          obj.onDone = false) := by
  let run : List (List ClientChannelAct) :=
    [[.startNewStream true, .startNewStream false], List.replicate 4 (.newStream 0),
      [.startClose 0 .resetStream, .close 0, .close 0, .newStream 1],
      List.replicate 2 (.newStream 0), List.replicate 3 (.close 0),
      List.replicate 5 (.newStream 1), [.startFrame (some 1), .startFrame (some 2)],
      List.replicate 3 (.frame 0), List.replicate 4 (.frame 1)]
  obtain ⟨s, hr, hopen, hmu, hobjs, hhanded⟩ : ∃ s, clientChannelMachine.Reachable s ∧
      s.opened < 2 ^ 64 ∧ s.ch.mu = none ∧
      s.ch.objects.map (fun obj => (obj.id, obj.registered, obj.onDone)) =
      [(1, true, true), (2, true, false)] ∧ s.ch.handed = [(2, 1)] :=
    clientChannelMachine.exists_reachable {} run.flatten rfl (by decide +kernel)
  exact ⟨s, hr, hopen, hmu, hobjs, hhanded, (clientStreams_registry hr hopen).1 hmu 2 1⟩

end Goutils.Rpc
