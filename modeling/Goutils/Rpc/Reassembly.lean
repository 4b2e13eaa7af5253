import Goutils.Rpc.ServerStream

namespace Goutils.Rpc
open Lib
open Lib.Wire (Bytes)
set_option autoImplicit true

def concatenations (buf : Bytes) : List PacketMessage → List Bytes
  | [] => []
  | p :: ps =>
    if p.eom then (buf ++ p.data) :: concatenations [] ps else concatenations (buf ++ p.data) ps

def openPart (buf : Bytes) : List PacketMessage → Bytes
  | [] => buf
  | p :: ps => if p.eom then openPart [] ps else openPart (buf ++ p.data) ps

def WithinLimit (buf : Bytes) (ps : List PacketMessage) : Prop :=
  ∀ m ∈ openPart buf ps :: concatenations buf ps, m.length ≤ MaxMessageSize

def EmptyEndsAlone (buf : Bytes) : List PacketMessage → Prop
  | [] => True
  | p :: ps =>
    (p.eom = true → p.data = [] → buf = []) ∧
      EmptyEndsAlone (if p.eom then [] else buf ++ p.data) ps

namespace WithinLimit

theorem buf_le (h : WithinLimit buf ps) : buf.length ≤ MaxMessageSize := by
  induction ps generalizing buf with
  | nil => exact h buf List.mem_cons_self
  | cons p ps ih =>
    cases he : p.eom with
    | true =>
      have hm := h (buf ++ p.data) (by simp [concatenations, he])
      rw [List.length_append] at hm
      omega
    | false =>
      have hrest : WithinLimit (buf ++ p.data) ps := by
        intro m hm
        apply h m
        simpa [concatenations, openPart, he] using hm
      have hle := ih hrest
      rw [List.length_append] at hle
      omega

theorem cons (h : WithinLimit buf (p :: ps)) :
    buf.length + p.data.length ≤ MaxMessageSize ∧
      WithinLimit (if p.eom then [] else buf ++ p.data) ps := by
  cases he : p.eom with
  | true =>
    constructor
    · have hm := h (buf ++ p.data) (by simp [concatenations, he])
      rwa [List.length_append] at hm
    · intro m hm
      apply h m
      simp only [concatenations, openPart, he, if_true] at hm ⊢
      rcases List.mem_cons.1 hm with rfl | hm
      · exact List.mem_cons_self
      · exact List.mem_cons_of_mem _ (List.mem_cons_of_mem _ hm)
  | false =>
    have hrest : WithinLimit (buf ++ p.data) ps := by
      intro m hm
      apply h m
      simpa [concatenations, openPart, he] using hm
    constructor
    · have hle := hrest.buf_le
      rwa [List.length_append] at hle
    · exact hrest

end WithinLimit

theorem processPacket_within (h : buf.length + p.data.length ≤ MaxMessageSize) :
    processPacket buf p =
      if p.data = [] ∧ p.eom = true then (buf, some [])
      else if p.eom then ([], some (buf ++ p.data)) else (buf ++ p.data, none) := by
  have hn : ¬ MaxMessageSize < p.data.length + buf.length := by omega
  simp only [processPacket, List.length_eq_zero_iff, hn, if_false]

theorem processPackets_eq_iff (h : WithinLimit buf ps) :
    (processPackets buf ps).2 = concatenations buf ps ↔ EmptyEndsAlone buf ps := by
  induction ps generalizing buf with
  | nil => simp [processPackets, concatenations, EmptyEndsAlone]
  | cons p ps ih =>
    obtain ⟨hle, hrest⟩ := h.cons
    simp only [processPackets, processPacket_within hle, concatenations, EmptyEndsAlone]
    cases he : p.eom with
    | true =>
      simp only [he, if_true] at hrest
      by_cases hd : p.data = []
      · -- the case of its own: the message is empty, and the buffer must have been
        simp only [hd, true_and, if_true, Option.toList_some, List.cons_append, List.nil_append,
          List.append_nil, List.cons.injEq, forall_const]
        constructor
        · rintro ⟨hbuf, hps⟩
          obtain rfl := hbuf.symm
          exact ⟨rfl, (ih hrest).1 hps⟩
        · rintro ⟨rfl, hps⟩
          exact ⟨rfl, (ih hrest).2 hps⟩
      · simp only [hd, false_and, if_false, if_true, Option.toList_some, List.cons_append,
          List.nil_append, List.cons.injEq, true_and, false_implies, implies_true]
        exact ih hrest
    | false =>
      simp only [he, Bool.false_eq_true, if_false] at hrest
      simp only [Bool.false_eq_true, and_false, if_false, Option.toList_none, List.nil_append,
        false_implies, true_and]
      exact ih hrest

theorem processPacket_buf (h : buf.length + p.data.length ≤ MaxMessageSize)
    (halone : p.eom = true → p.data = [] → buf = []) :
    (processPacket buf p).1 = if p.eom then [] else buf ++ p.data := by
  rw [processPacket_within h]
  split
  · rename_i hc
    rw [if_pos hc.2, halone hc.2 hc.1]
  · split <;> rfl

theorem processPackets_eom (h : WithinLimit buf (qs ++ p :: rs))
    (hend : EmptyEndsAlone buf (qs ++ p :: rs)) (he : p.eom = true) :
    (processPackets buf (qs ++ [p])).1 = [] := by
  induction qs generalizing buf with
  | nil =>
    have hp := processPacket_buf h.cons.1 hend.1
    rw [if_pos he] at hp
    exact hp
  | cons q qs ih =>
    obtain ⟨hle, hrest⟩ := h.cons
    rw [← processPacket_buf hle hend.1] at hrest
    apply ih hrest
    rw [processPacket_buf hle hend.1]
    exact hend.2

/-- The packet buffer of `BaseStream.ts`: the packets and their size in bytes. -/
structure PacketBuf where
  packetBuf : List Bytes := []
  packetBufSize : Nat := 0
  size_eq : packetBufSize = packetBuf.flatten.length := by rfl

def uint8ArraySet (data partialData : Bytes) (position : Nat) : Bytes :=
  data.take position ++ partialData ++ data.drop (position + partialData.length)

namespace PacketBuf

def push (b : PacketBuf) (data : Bytes) : PacketBuf where
  packetBuf := b.packetBuf ++ [data]
  packetBufSize := b.packetBufSize + data.length
  size_eq := by
    rw [List.flatten_concat, List.length_append, b.size_eq]

def copyRound (acc : Bytes × Nat) (partialData : Bytes) : Bytes × Nat :=
  (uint8ArraySet acc.1 partialData acc.2, acc.2 + partialData.length)

def copy (b : PacketBuf) : Bytes :=
  (b.packetBuf.foldl copyRound (List.replicate b.packetBufSize 0, 0)).1

def processPacketMessage (b : PacketBuf) (msg : PacketMessage) : PacketBuf × Option Bytes :=
  if MaxMessageSize < msg.data.length + b.packetBufSize then ({}, none)
  else
    let b' := b.push msg.data
    if msg.eom then ({}, some b'.copy) else (b', none)

def processPacketMessages (b : PacketBuf) : List PacketMessage → List Bytes
  | [] => []
  | p :: ps =>
    let (b', msg) := b.processPacketMessage p
    msg.toList ++ b'.processPacketMessages ps

theorem foldl_copyRound (copied : Bytes) (rest : List Bytes) :
    (rest.foldl copyRound (copied ++ List.replicate rest.flatten.length 0, copied.length)).1 =
      copied ++ rest.flatten := by
  induction rest generalizing copied with
  | nil => simp
  | cons d rest ih =>
    have hround : copyRound (copied ++ List.replicate (d :: rest).flatten.length 0, copied.length)
        d = ((copied ++ d) ++ List.replicate rest.flatten.length 0, (copied ++ d).length) := by
      simp [copyRound, uint8ArraySet]
    rw [List.foldl_cons, hround, ih, List.flatten_cons, List.append_assoc]

theorem copy_eq (b : PacketBuf) : b.copy = b.packetBuf.flatten := by
  rw [copy, b.size_eq]
  exact foldl_copyRound [] b.packetBuf

theorem processPacketMessages_eq {b : PacketBuf} (h : WithinLimit b.packetBuf.flatten ps) :
    b.processPacketMessages ps = concatenations b.packetBuf.flatten ps := by
  induction ps generalizing b with
  | nil => rfl
  | cons p ps ih =>
    obtain ⟨hle, hrest⟩ := h.cons
    have hn : ¬ MaxMessageSize < p.data.length + b.packetBufSize := by
      rw [b.size_eq]
      omega
    have hpush : (b.push p.data).packetBuf.flatten = b.packetBuf.flatten ++ p.data :=
      List.flatten_concat
    simp only [processPacketMessages, processPacketMessage, if_neg hn, concatenations]
    cases he : p.eom with
    | true =>
      simp only [he, if_true] at hrest
      simp only [if_true, Option.toList_some, List.cons_append, List.nil_append, copy_eq, hpush]
      rw [ih (b := {}) hrest]
      rfl
    | false =>
      simp only [he, Bool.false_eq_true, if_false] at hrest
      simp only [Bool.false_eq_true, if_false, Option.toList_none, List.nil_append]
      rw [ih (by rw [hpush]; exact hrest), hpush]

end PacketBuf

/-- The TypeScript stream returns the concatenations; the Go stream does just if each empty packet
with `Eom` is all of its message. -/
theorem reassembly_concatenates {ps : List PacketMessage} (h : WithinLimit [] ps) :
    PacketBuf.processPacketMessages {} ps = concatenations [] ps ∧
      ((processPackets [] ps).2 = concatenations [] ps ↔ EmptyEndsAlone [] ps) ∧
      (EmptyEndsAlone [] ps → ∀ qs p rs, ps = qs ++ p :: rs → p.eom = true →
        (processPackets [] (qs ++ [p])).1 = []) := by
  refine ⟨PacketBuf.processPacketMessages_eq h, processPackets_eq_iff h, ?_⟩
  rintro hend qs p rs rfl he
  exact processPackets_eom h hend he

theorem reassembly_concatenates_parts :
    PacketBuf.processPacketMessages {} [{ data := [1] }, { data := [2], eom := true },
        { eom := true }] = [[1, 2], []] ∧
      (processPackets [] [{ data := [1] }, { data := [2], eom := true }, { eom := true }]).2 =
        [[1, 2], []] := by
  have h : WithinLimit [] [{ data := [1] }, { data := [2], eom := true }, { eom := true }] := by
    unfold WithinLimit
    decide
  obtain ⟨hts, hgo, _⟩ := reassembly_concatenates h
  exact ⟨hts, hgo.2 (by simp [EmptyEndsAlone])⟩

/-- The end of a message comes in a packet of its own: the message is lost and its data is put
before the next one. -/
theorem reassembly_keeps_buffer :
    processPackets [] [{ data := [1] }, { eom := true }, { data := [2], eom := true }] =
        ([], [[], [1, 2]]) ∧
      PacketBuf.processPacketMessages {} [{ data := [1] }, { eom := true },
        { data := [2], eom := true }] = [[1], [2]] := by
  decide

/-- The packets of a message: `Eom` on the last one only, and data in each unless the message is
empty. -/
inductive Split : Bytes → List PacketMessage → Prop where
  | last (data : Bytes) : Split data [{ data, eom := true }]
  | more : d ≠ [] → data ≠ [] → Split data ps → Split (d ++ data) ({ data := d } :: ps)

theorem packets_split (hn : 0 < n) (data : Bytes) : Split data (packets n data) := by
  unfold packets
  split
  · rename_i h
    rw [List.length_eq_zero_iff.1 h]
    exact .last []
  · rename_i h
    have hd : data ≠ [] := mt List.length_eq_zero_iff.2 h
    refine pieces_induction hn ?last ?more data hd
    case last =>
      intro data hd hl
      rw [pieces_last hd hl]
      exact .last data
    case more =>
      intro data hl ih
      rw [pieces_more hn hl, List.map_cons]
      have hfirst : data.take n ≠ [] := by
        rw [Ne, List.take_eq_nil_iff]
        rintro (h | rfl)
        · omega
        · simp at hl
      have hrest : data.drop n ≠ [] := by
        rw [Ne, List.drop_eq_nil_iff]
        omega
      have hsplit := Split.more hfirst hrest ih
      rwa [List.take_append_drop] at hsplit

def lastOverflows (size : Nat) : List Nat → Bool
  | [] => false
  | [n] => decide (MaxMessageSize < n + size)
  | n :: m :: ns => lastOverflows (if MaxMessageSize < n + size then 0 else n + size) (m :: ns)

def sizes (ps : List PacketMessage) : List Nat := ps.map fun p => p.data.length

theorem Split.sizes_ne_nil (h : Split data ps) : ∃ n ns, sizes ps = n :: ns := by
  cases h with
  | last | more => exact ⟨_, _, rfl⟩

theorem Split.lastOverflows_more (h : Split data ps) (d : Bytes) (size : Nat) :
    lastOverflows size (sizes ({ data := d } :: ps)) =
      lastOverflows (if MaxMessageSize < d.length + size then 0 else d.length + size)
        (sizes ps) := by
  obtain ⟨n, ns, hps⟩ := h.sizes_ne_nil
  simp only [sizes, List.map_cons] at hps ⊢
  rw [hps, lastOverflows]

theorem processPacket_more (buf d : Bytes) :
    processPacket buf { data := d } =
      (if MaxMessageSize < d.length + buf.length then [] else buf ++ d, none) := by
  simp only [processPacket, Bool.false_eq_true, and_false, if_false]
  split <;> rfl

theorem processPacket_last (hd : buf = [] ∨ data ≠ []) :
    processPacket buf { data, eom := true } =
      ([], if MaxMessageSize < data.length + buf.length then none else some (buf ++ data)) := by
  by_cases hnil : data = []
  · obtain rfl := hd.resolve_right fun h => h hnil
    subst hnil
    rfl
  · simp only [processPacket, List.length_eq_zero_iff, hnil, false_and, if_false]
    split <;> rfl

/-- What came since the buffer was last dropped is delivered. -/
theorem Split.processPackets (h : Split data ps) (buf : Bytes) (hbuf : buf = [] ∨ data ≠ []) :
    ∃ tail, tail <:+ buf ++ data ∧ tail.length ≤ MaxMessageSize ∧ Rpc.processPackets buf ps =
      ([], if lastOverflows buf.length (sizes ps) = true then [] else [tail]) := by
  induction h generalizing buf with
  | last data =>
    simp only [Rpc.processPackets, processPacket_last hbuf, sizes, List.map_cons, List.map_nil,
      lastOverflows, decide_eq_true_eq]
    by_cases hover : MaxMessageSize < data.length + buf.length
    · exact ⟨[], List.nil_suffix, Nat.zero_le _, by simp [hover]⟩
    · refine ⟨buf ++ data, List.suffix_rfl, ?_, by simp [hover]⟩
      rw [List.length_append]
      omega
  | @more d data ps _ hdata hs ih =>
    rw [hs.lastOverflows_more]
    simp only [Rpc.processPackets, processPacket_more, Option.toList_none, List.nil_append]
    by_cases hover : MaxMessageSize < d.length + buf.length
    · obtain ⟨tail, hsuf, hle, heq⟩ := ih [] (.inl rfl)
      refine ⟨tail, ?_, hle, by simpa [hover] using heq⟩
      rw [← List.append_assoc]
      exact hsuf.trans (List.suffix_append _ _)
    · obtain ⟨tail, hsuf, hle, heq⟩ := ih (buf ++ d) (.inr hdata)
      refine ⟨tail, by rwa [List.append_assoc] at hsuf, hle, ?_⟩
      rw [List.length_append, Nat.add_comm] at heq
      simpa [hover] using heq

theorem Split.processPackets_fits (h : Split data ps) (buf : Bytes) (hbuf : buf = [] ∨ data ≠ [])
    (hfit : buf.length + data.length ≤ MaxMessageSize) :
    Rpc.processPackets buf ps = ([], [buf ++ data]) := by
  induction h generalizing buf with
  | last data =>
    have hover : ¬ MaxMessageSize < data.length + buf.length := by omega
    simp [Rpc.processPackets, processPacket_last hbuf, hover]
  | @more d data ps _ hdata _ ih =>
    rw [List.length_append] at hfit
    have hover : ¬ MaxMessageSize < d.length + buf.length := by omega
    have hrest := ih (buf ++ d) (.inr hdata) (by rw [List.length_append]; omega)
    simp [Rpc.processPackets, processPacket_more, hover, hrest]

theorem processPackets_splits (h : List.Forall₂ Split msgs qss)
    (hm : ∀ m ∈ msgs, m.length ≤ MaxMessageSize) :
    processPackets [] qss.flatten = ([], msgs) := by
  induction h with
  | nil => rfl
  | @cons m qs msgs qss hs _ ih =>
    obtain ⟨hfit, hrest⟩ := List.forall_mem_cons.1 hm
    have hfirst := hs.processPackets_fits [] (.inl rfl) (by rwa [List.length_nil, Nat.zero_add])
    rw [List.flatten_cons, processPackets_append, hfirst, ih hrest]
    rfl

/-- The messages a server stream takes out of frames, and whether it closes behind them. -/
def ServerStream.received (s : ServerStream) : List RequestMessage → List Bytes × Bool
  | [] => ([], false)
  | m :: ms =>
    match s.processMessage m with
    | (s', .deliver data eos _) =>
      if eos then ([data], true) else (data :: (s'.received ms).1, (s'.received ms).2)
    | (_, .lockRecv) => ([], true)
    | (s', .idle) => s'.received ms
    | _ => ([], false)

def packetFrame (eos : PacketMessage → Bool) (p : PacketMessage) : RequestMessage :=
  { hasMessage := true, packetMessage := some p, eos := eos p }

theorem Split.received (h : Split data ps) (hbuf : s.base.packetBuf = [] ∨ data ≠ [])
    (hrecv : s.base.recvClosed = false) (heos : ∀ p, p.eom = true → eos p = true) :
    ServerStream.received s (ps.map (packetFrame eos)) =
      ((Rpc.processPackets s.base.packetBuf ps).2,
        !lastOverflows s.base.packetBuf.length (sizes ps)) := by
  induction h generalizing s with
  | last data =>
    have heos := heos { data, eom := true } rfl
    have hp := processPacket_last hbuf
    simp only [List.map_cons, List.map_nil, packetFrame, heos, ServerStream.received,
      Rpc.processPackets, sizes, lastOverflows]
    by_cases hover : MaxMessageSize < data.length + s.base.packetBuf.length
    · rw [if_pos hover] at hp
      simp [ServerStream.processMessage_data hrecv hp, hp, hover]
    · rw [if_neg hover] at hp
      simp [ServerStream.processMessage_data hrecv hp, hp, hover]
  | @more d data ps _ hdata hs ih =>
    have hp := processPacket_more s.base.packetBuf d
    rw [hs.lastOverflows_more]
    simp only [List.map_cons, packetFrame, ServerStream.received,
      ServerStream.processMessage_data hrecv hp, Rpc.processPackets, hp]
    rw [ih (.inr hdata)]
    · by_cases hover : MaxMessageSize < d.length + s.base.packetBuf.length
      · simp [hover]
      · simp [hover, Nat.add_comm]
    · exact hrecv

/-- Nothing of a message that is too large is delivered just if its last packet takes the buffer
over the limit, and then a server stream misses the end that it carries. -/
theorem oversized_discarded_iff (h : Split data ps) (hbig : MaxMessageSize < data.length)
    (hq : List.Forall₂ Split msgs qss) (hm : ∀ m ∈ msgs, m.length ≤ MaxMessageSize) :
    ∃ frag, processPackets [] (ps ++ qss.flatten) = ([], frag ++ msgs) ∧
      (frag = [] ↔ lastOverflows 0 (sizes ps) = true) ∧ (∀ m ∈ frag, m <:+ data ∧ m ≠ data) ∧
      ∀ (s : ServerStream) (eos : PacketMessage → Bool),
        s.base.recvClosed = false → s.base.packetBuf = [] → (∀ p, p.eom = true → eos p = true) →
        s.received (ps.map (packetFrame eos)) = (frag, !lastOverflows 0 (sizes ps)) := by
  obtain ⟨tail, hsuf, hle, heq⟩ := h.processPackets [] (.inl rfl)
  rw [List.length_nil] at heq
  refine ⟨if lastOverflows 0 (sizes ps) = true then [] else [tail], ?_, ?_, ?_, ?_⟩
  · rw [processPackets_append, heq, processPackets_splits hq hm]
  · split <;> simp [*]
  · intro m hmem
    split at hmem
    · cases hmem
    · obtain rfl := List.mem_singleton.1 hmem
      refine ⟨hsuf, ?_⟩
      rintro rfl
      omega
  · intro s eos hrecv hbuf heos
    rw [h.received (.inl hbuf) hrecv heos, hbuf, heq, List.length_nil]

theorem sizes_packets (hn : 0 < n) (hd : data ≠ []) :
    sizes (packets n data) = List.replicate (data.length / n) n ++
      if data.length % n = 0 then [] else [data.length % n] := by
  rw [packets, if_neg (mt List.length_eq_zero_iff.1 hd), sizes, List.map_map]
  exact pieces_lengths hn data

/-- The 513th full packet takes the buffer over the limit, and the byte behind it is delivered as a
message of its own. -/
theorem oversized_discarded_iff_fragment :
    ∃ data : Bytes, data.length = 513 * maxRequestMessagePacketDataSize + 1 ∧
      ∃ frag, frag ≠ [] ∧ processPackets [] (packets maxRequestMessagePacketDataSize data ++
        [[{ data := [7], eom := true }]].flatten) = ([], frag ++ [[7]]) := by
  obtain ⟨data, hdata⟩ : ∃ data : Bytes,
      data.length = 513 * maxRequestMessagePacketDataSize + 1 :=
    ⟨List.replicate _ 0, List.length_replicate⟩
  have hnil : data ≠ [] := List.length_pos_iff.1 (by omega)
  have hlast : lastOverflows 0 (sizes (packets maxRequestMessagePacketDataSize data)) = false := by
    rw [sizes_packets (by decide) hnil, hdata]
    decide +kernel
  have hq : List.Forall₂ Split [[7]] [[{ data := [7], eom := true }]] :=
    .cons (.last [7]) .nil
  have hsplit := packets_split (n := maxRequestMessagePacketDataSize) (by decide) data
  obtain ⟨frag, heq, hfrag, _⟩ := oversized_discarded_iff hsplit (by rw [hdata]; decide) hq
    (by decide)
  refine ⟨data, hdata, frag, ?_, heq⟩
  rw [Ne, hfrag, hlast]
  decide

/-- A message of 513 full packets is dropped at the last of them, with the end of the stream. -/
theorem oversized_eos_missed :
    ∃ data : Bytes, data.length = 513 * maxRequestMessagePacketDataSize ∧
      ServerStream.received {} ((packets maxRequestMessagePacketDataSize data).map
        (packetFrame fun _ => true)) = ([], false) := by
  obtain ⟨data, hdata⟩ : ∃ data : Bytes, data.length = 513 * maxRequestMessagePacketDataSize :=
    ⟨List.replicate _ 0, List.length_replicate⟩
  have hnil : data ≠ [] := by
    apply List.length_pos_iff.1
    rw [hdata]
    decide
  have hlast : lastOverflows 0 (sizes (packets maxRequestMessagePacketDataSize data)) = true := by
    rw [sizes_packets (by decide) hnil, hdata]
    decide +kernel
  have hsplit := packets_split (n := maxRequestMessagePacketDataSize) (by decide) data
  obtain ⟨tail, _, _, heq⟩ := hsplit.processPackets [] (.inl rfl)
  refine ⟨data, hdata, ?_⟩
  rw [hsplit.received (.inl rfl) rfl fun _ _ => rfl]
  show ((processPackets [] _).2, !lastOverflows ([] : Bytes).length _) = _
  rw [heq, List.length_nil, hlast]
  rfl

end Goutils.Rpc
