import Goutils.Rpc.ServerChannel

namespace Goutils.Rpc.Browser
open Lib
set_option autoImplicit true

def MaxStreamCount : Nat := 256

/-- `ClientChannel` of a browser, with the ids of its active streams. -/
structure ClientChannel where
  closed : Bool := false
  streamIDCounter : UInt64 := 0
  streams : List UInt64 := []

inductive Transport where
  | failing (text : String)
  | stream (id : UInt64)

namespace ClientChannel

def nextStreamID (ch : ClientChannel) : ClientChannel × UInt64 :=
  ({ ch with streamIDCounter := ch.streamIDCounter + 1 }, ch.streamIDCounter)

def newStream (ch : ClientChannel) (id : UInt64) : ClientChannel × Transport :=
  if ch.closed then (ch, .failing "connection closed")
  else if id ∈ ch.streams then (ch, .stream id)
  else if ch.streams.length > MaxStreamCount then (ch, .failing "stream limit hit")
  else ({ ch with streams := ch.streams ++ [id] }, .stream id)

def removeStreamByID (ch : ClientChannel) (id : UInt64) : ClientChannel :=
  { ch with streams := ch.streams.filter (· ≠ id) }

def transport (ch : ClientChannel) : ClientChannel × Transport :=
  let (ch, id) := ch.nextStreamID
  ch.newStream id

end ClientChannel

inductive ChannelCall where
  | newStream (id : UInt64)
  | transport
  | removeStreamByID (id : UInt64)
  | close

def channelMachine : Machine ClientChannel ChannelCall where
  init ch := ch = {}
  step ch
    | .newStream id => some (ch.newStream id).1
    | .transport => some ch.transport.1
    | .removeStreamByID id => some (ch.removeStreamByID id)
    | .close => some { ch with closed := true }

def AsksBelowLimit (ch : ClientChannel) : ChannelCall → Prop
  | .newStream _ | .transport => ch.streams.length ≠ MaxStreamCount
  | _ => True

instance (ch : ClientChannel) : (c : ChannelCall) → Decidable (AsksBelowLimit ch c)
  | .newStream _ | .transport => inferInstanceAs (Decidable (_ ≠ _))
  | .removeStreamByID _ | .close => .isTrue trivial

def table (srv : ServerChannel) : List UInt64 := (srv.streams.filter (·.registered)).map (·.id)

/-- The table, whose keys are distinct, has only active streams of the client. -/
structure OnlyActive (srv : ServerChannel) (ch : ClientChannel) : Prop where
  distinct : (table srv).Nodup
  active : ∀ id ∈ table srv, id ∈ ch.streams

theorem newStream_within {ch : ClientChannel} (h : ch.streams.length ≤ MaxStreamCount)
    (hok : ch.streams.length ≠ MaxStreamCount) (id : UInt64) :
    (ch.newStream id).1.streams.length ≤ MaxStreamCount := by
  unfold ClientChannel.newStream
  split
  · exact h
  · split
    · exact h
    · split
      · exact h
      · rw [List.length_append, List.length_singleton]
        omega

theorem step_within {ch ch' : ClientChannel} (h : ch.streams.length ≤ MaxStreamCount)
    (hok : AsksBelowLimit ch c) (hs : channelMachine.step ch c = some ch') :
    ch'.streams.length ≤ MaxStreamCount := by
  cases c with
  | newStream id =>
    cases hs
    exact newStream_within h hok id
  | transport =>
    cases hs
    have hnext : ch.nextStreamID.1.streams.length ≤ MaxStreamCount := h
    exact newStream_within hnext hok _
  | removeStreamByID id =>
    cases hs
    exact (List.length_filter_le _ _).trans h
  | close =>
    cases hs
    exact h

theorem OnlyActive.taken {srv : ServerChannel} {ch : ClientChannel} {id : UInt64}
    (h : OnlyActive srv ch) (hle : ch.streams.length ≤ MaxStreamCount) (hid : id ∈ ch.streams)
    (headers : RequestHeaders) :
    (srv.onChannelMessage (some ⟨some id, .headers headers⟩)).2.isSome = true := by
  simp only [ServerChannel.onChannelMessage]
  split
  · rfl
  · rename_i hnone
    have hnew : id ∉ table srv := by
      intro hmem
      obtain ⟨e, he, rfl⟩ := List.mem_map.1 hmem
      obtain ⟨he, hreg⟩ := List.mem_filter.1 he
      have := List.findIdx?_eq_none_iff.1 hnone e he
      simp [hreg] at this
    have hsub : id :: table srv ⊆ ch.streams := List.cons_subset.2 ⟨hid, h.active⟩
    have hlen := (List.Nodup.subperm (List.nodup_cons.2 ⟨hnew, h.distinct⟩) hsub).length_le
    have hcount : srv.streams.countP (·.registered) = (table srv).length := by
      rw [table, List.length_map, List.countP_eq_length_filter]
    have hroom : srv.streams.countP (·.registered) ≠ WebRTCMaxStreamCount := by
      simp only [List.length_cons, MaxStreamCount] at hlen hle
      rw [hcount, WebRTCMaxStreamCount]
      omega
    rw [if_neg hroom]
    rfl

/-- As long as no stream is asked for at the limit, no headers frame of an active stream is
dropped. -/
theorem browser_respects_limit {ch : ClientChannel}
    (h : channelMachine.ReachableWith AsksBelowLimit ch) :
    ch.streams.length ≤ MaxStreamCount ∧
    ∀ (srv : ServerChannel) (id : UInt64) (headers : RequestHeaders), OnlyActive srv ch →
      id ∈ ch.streams →
      (srv.onChannelMessage (some ⟨some id, .headers headers⟩)).2.isSome = true := by
  have hle : ch.streams.length ≤ MaxStreamCount := by
    apply h.invariant
    · rintro _ rfl
      exact Nat.zero_le _
    · exact fun _ _ _ hle hok hs => step_within hle hok hs
  exact ⟨hle, fun srv id headers hactive hid => hactive.taken hle hid headers⟩

theorem browser_respects_limit_two :
    ∃ ch, channelMachine.ReachableWith AsksBelowLimit ch ∧ ch.streams = [0, 2] ∧
      ∀ headers, (ServerChannel.onChannelMessage { streams := [{ id := 0 }] }
        (some ⟨some 2, .headers headers⟩)).2.isSome = true := by
  obtain ⟨ch, hreach, hstreams⟩ : ∃ ch, channelMachine.ReachableWith AsksBelowLimit ch ∧
      ch.streams = [0, 2] :=
    channelMachine.exists_reachableWith AsksBelowLimit {}
      [.transport, .transport, .removeStreamByID 1, .transport] rfl (by decide +kernel)
  refine ⟨ch, hreach, hstreams, fun headers => ?_⟩
  have htable : table { streams := [{ id := 0 }] } = [0] := rfl
  refine (browser_respects_limit hreach).2 _ 2 headers ⟨?_, ?_⟩ ?_
  · exact htable ▸ List.nodup_singleton 0
  · simp [htable, hstreams]
  · simp [hstreams]

def firstIDs (n : Nat) : List UInt64 := (List.range n).map UInt64.ofNat

theorem firstIDs_succ (n : Nat) : firstIDs (n + 1) = firstIDs n ++ [UInt64.ofNat n] := by
  simp [firstIDs, List.range_succ]

theorem not_mem_firstIDs (h : n ≤ 256) : UInt64.ofNat n ∉ firstIDs n := by
  intro hmem
  obtain ⟨i, hi, heq⟩ := List.mem_map.1 hmem
  have hlt := List.mem_range.1 hi
  have hnat := congrArg UInt64.toNat heq
  rw [UInt64.toNat_ofNat', UInt64.toNat_ofNat'] at hnat
  omega

theorem nodup_firstIDs (h : n ≤ 257) : (firstIDs n).Nodup := by
  induction n with
  | zero => exact List.nodup_nil
  | succ n ih =>
    rw [firstIDs_succ, List.nodup_append_comm]
    exact List.nodup_cons.2 ⟨not_mem_firstIDs (by omega), ih (by omega)⟩

theorem reachable_firstIDs (h : n ≤ 257) :
    channelMachine.Reachable { streamIDCounter := UInt64.ofNat n, streams := firstIDs n } := by
  induction n with
  | zero => exact .init rfl
  | succ n ih =>
    refine .step (a := .transport) (ih (by omega)) trivial ?_
    have hlen : ¬ (firstIDs n).length > MaxStreamCount := by
      simp only [firstIDs, List.length_map, List.length_range, MaxStreamCount]
      omega
    simp only [channelMachine, ClientChannel.transport, ClientChannel.nextStreamID,
      ClientChannel.newStream, Bool.false_eq_true, not_mem_firstIDs (by omega : n ≤ 256), hlen,
      ↓reduceIte, firstIDs_succ, UInt64.ofNat_add]
    rfl

/-- One stream too many is accepted, and the server drops its headers. -/
theorem browser_exceeds_limit :
    ∃ (ch : ClientChannel) (srv : ServerChannel), channelMachine.Reachable ch ∧
      ch.streams.length = MaxStreamCount + 1 ∧ 256 ∈ ch.streams ∧ OnlyActive srv ch ∧
      ∀ headers, srv.onChannelMessage (some ⟨some 256, .headers headers⟩) = (srv, none) := by
  let srv : ServerChannel := { streams := (firstIDs 256).map fun id => { id } }
  have hall : srv.streams.filter (·.registered) = srv.streams :=
    List.filter_eq_self.2 (by simp [srv, ChannelStream.registered])
  have htable : table srv = firstIDs 256 := by simp [table, hall, srv, Function.comp_def]
  have hfind : srv.find? 256 = none := by
    apply List.findIdx?_eq_none_iff.2
    intro e he
    obtain ⟨id, hid, rfl⟩ := List.mem_map.1 he
    have hne : id ≠ 256 := by
      rintro rfl
      exact not_mem_firstIDs le_rfl hid
    simp [hne]
  have hcount : srv.streams.countP (·.registered) = WebRTCMaxStreamCount := by
    rw [List.countP_eq_length_filter, hall]
    simp [srv, firstIDs, WebRTCMaxStreamCount]
  refine ⟨_, srv, reachable_firstIDs le_rfl, ?_, ?_, ⟨?_, ?_⟩, fun headers => ?_⟩
  · simp [firstIDs, MaxStreamCount]
  · rw [firstIDs_succ]
    exact List.mem_append_right _ List.mem_cons_self
  · rw [htable]
    exact nodup_firstIDs (by omega)
  · rw [htable, firstIDs_succ 256]
    exact fun id hid => List.mem_append_left _ hid
  · simp only [ServerChannel.onChannelMessage, hfind, hcount, ↓reduceIte]

end Goutils.Rpc.Browser
