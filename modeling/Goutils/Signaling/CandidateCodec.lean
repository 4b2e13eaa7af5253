import Goutils.Signaling.Call

namespace Goutils.Signaling
open CallQueue
set_option autoImplicit true

/-- `RTCIceCandidateInit` of a browser; a field that is null counts as missing. -/
structure RTCIceCandidateInit where
  candidate : String
  sdpMid : Option String := none
  sdpMLineIndex : Option Nat := none
  usernameFragment : Option String := none
  deriving DecidableEq

namespace Browser

/-- A field is set if its value counts as true, which `""` and `0` do not. -/
def iceCandidateToProto (i : RTCIceCandidateInit) : ProtoICECandidate where
  candidate := i.candidate
  sdpMid := i.sdpMid.filter (· ≠ "")
  sdpmLineIndex := (i.sdpMLineIndex.filter (· ≠ 0)).map UInt32.ofNat
  usernameFragment := i.usernameFragment.filter (· ≠ "")

def iceCandidateFromProto (i : ProtoICECandidate) : RTCIceCandidateInit where
  candidate := i.candidate
  sdpMid := i.sdpMid
  sdpMLineIndex := i.sdpmLineIndex.map UInt32.toNat
  usernameFragment := i.usernameFragment

def ofInit (c : ICECandidateInit) : RTCIceCandidateInit where
  candidate := c.candidate
  sdpMid := c.sdpMid
  sdpMLineIndex := c.sdpMLineIndex.map UInt16.toNat
  usernameFragment := c.usernameFragment

end Browser

/-- What the answerer receives of a candidate of a browser. -/
def answererReceives (queued : ICECandidateInit → ICECandidateInit) (i : RTCIceCandidateInit) :
    ICECandidateInit :=
  iceCandidateFromProto (iceCandidateInitToProto (queued
    (iceCandidateFromProto (Browser.iceCandidateToProto i))))

def truthyPart (c : ICECandidateInit) : ICECandidateInit where
  candidate := c.candidate
  sdpMid := c.sdpMid.filter (· ≠ "")
  sdpMLineIndex := c.sdpMLineIndex.filter (· ≠ 0)
  usernameFragment := c.usernameFragment.filter (· ≠ "")

def AllTruthy (c : ICECandidateInit) : Prop :=
  c.sdpMid ≠ some "" ∧ c.sdpMLineIndex ≠ some 0 ∧ c.usernameFragment ≠ some ""

theorem filter_eq_self_iff [DecidableEq α] (o : Option α) (falsy : α) :
    o.filter (· ≠ falsy) = o ↔ o ≠ some falsy := by
  cases o with
  | none => simp
  | some a => simp [Option.filter]

theorem iceCandidateFromProto_initToProto (c : ICECandidateInit) :
    iceCandidateFromProto (iceCandidateInitToProto c) = c := by
  have hindex : (UInt32.toUInt16 ∘ UInt16.toUInt32) = id := funext UInt16.toUInt16_toUInt32
  simp only [iceCandidateFromProto, iceCandidateInitToProto, Option.map_map, hindex, Option.map_id]
  rfl

namespace Browser

theorem iceCandidateToProto_ofInit (c : ICECandidateInit) :
    iceCandidateToProto (ofInit c) = iceCandidateInitToProto (truthyPart c) := by
  obtain ⟨candidate, sdpMid, index, fragment⟩ := c
  cases index with
  | none => rfl
  | some n =>
    by_cases hn : n = 0
    · subst hn
      rfl
    · have hne : n.toNat ≠ 0 := fun h => hn (UInt16.toNat_inj.1 (h.trans UInt16.toNat_zero.symm))
      have hof : UInt32.ofNat n.toNat = n.toUInt32 := UInt32.toNat_inj.1 (by simp)
      simp [iceCandidateToProto, ofInit, iceCandidateInitToProto, truthyPart, Option.filter, hn,
        hne, hof]

theorem iceCandidateFromProto_initToProto (c : ICECandidateInit) :
    Browser.iceCandidateFromProto (iceCandidateInitToProto c) = ofInit c := by
  have hindex : (UInt32.toNat ∘ UInt16.toUInt32) = UInt16.toNat := rfl
  simp only [iceCandidateFromProto, iceCandidateInitToProto, ofInit, Option.map_map, hindex]

theorem ofInit_inj {c c' : ICECandidateInit} (h : ofInit c = ofInit c') : c = c' := by
  obtain ⟨candidate, sdpMid, index, fragment⟩ := c
  obtain ⟨candidate', sdpMid', index', fragment'⟩ := c'
  simp only [ofInit, RTCIceCandidateInit.mk.injEq] at h
  obtain ⟨rfl, rfl, hindex, rfl⟩ := h
  rw [Option.map_injective (fun _ _ => UInt16.toNat_inj.1) hindex]

end Browser

theorem truthyPart_eq_iff (c : ICECandidateInit) : truthyPart c = c ↔ AllTruthy c := by
  obtain ⟨candidate, sdpMid, index, fragment⟩ := c
  simp only [truthyPart, ICECandidateInit.mk.injEq, filter_eq_self_iff, true_and, AllTruthy]

/-- The codecs of the servers are lossless; those of a browser keep a candidate just if no field is
empty or zero. -/
theorem candidate_codecs_lossless_iff (c : ICECandidateInit) :
    iceCandidateFromProto (iceCandidateInitToProto c) = c ∧
    iceCandidateFromMongo (iceCandidateToMongo c) = c ∧
    (Browser.iceCandidateFromProto (Browser.iceCandidateToProto (Browser.ofInit c)) =
      Browser.ofInit c ↔ AllTruthy c) ∧
    (answererReceives id (Browser.ofInit c) = c ↔ AllTruthy c) ∧
    (answererReceives (fun i => iceCandidateFromMongo (iceCandidateToMongo i)) (Browser.ofInit c) =
      c ↔ AllTruthy c) := by
  have hreceives : answererReceives id (Browser.ofInit c) = c ↔ AllTruthy c := by
    rw [answererReceives, Browser.iceCandidateToProto_ofInit, iceCandidateFromProto_initToProto,
      id, iceCandidateFromProto_initToProto]
    exact truthyPart_eq_iff c
  refine ⟨iceCandidateFromProto_initToProto c, rfl, ?_, hreceives, hreceives⟩
  rw [Browser.iceCandidateToProto_ofInit, Browser.iceCandidateFromProto_initToProto]
  constructor
  · intro h
    exact (truthyPart_eq_iff c).1 (Browser.ofInit_inj h)
  · intro h
    rw [(truthyPart_eq_iff c).2 h]

/-- The first media line of an offer has the index 0. -/
theorem candidate_codecs_lose_zero :
    let c : ICECandidateInit :=
      { candidate := "candidate:1 1 udp 1 10.0.0.1 9 typ host", sdpMid := some "0"
        sdpMLineIndex := some 0 }
    Browser.iceCandidateFromProto (Browser.iceCandidateToProto (Browser.ofInit c)) ≠
        Browser.ofInit c ∧
      answererReceives id (Browser.ofInit c) = { c with sdpMLineIndex := none } := by
  decide

end Goutils.Signaling
