import Goutils.Dial.CacheKey

namespace Goutils.Rpc
open Lib.Wire (Bytes)
open Dial (hexDigit hexEncode)
set_option autoImplicit true

abbrev Metadata := String → List Bytes

abbrev FixedBytes (n : Nat) := { b : Bytes // b.length = n }

/-- `trace.SpanContext`, without the state that is not sent. -/
structure SpanContext where
  traceID : FixedBytes 16
  spanID : FixedBytes 8
  traceOptions : UInt32

def FixedBytes.copy (n : Nat) (src : Bytes) : FixedBytes n :=
  ⟨(src ++ List.replicate n 0).take n, by simp⟩

inductive HexError where
  | invalidByte (b : UInt8)
  | oddLength

inductive NumError where
  | invalid
  | range

inductive SpanError where
  | error (text : String)
  | hex (text : String) (err : HexError)
  | num (text : String) (err : NumError)
  | panic (text : String)

def fromHexChar (c : UInt8) : Option Nat :=
  if 48 ≤ c ∧ c ≤ 57 then some (c.toNat - 48)
  else if 97 ≤ c ∧ c ≤ 102 then some (c.toNat - 87)
  else if 65 ≤ c ∧ c ≤ 70 then some (c.toNat - 55)
  else none

def decodeString : Bytes → Except HexError Bytes
  | [] => .ok []
  | [p] => .error (if (fromHexChar p).isSome then .oddLength else .invalidByte p)
  | p :: q :: src =>
    match fromHexChar p, fromHexChar q with
    | none, _ => .error (.invalidByte p)
    | some _, none => .error (.invalidByte q)
    | some a, some b => (decodeString src).map (UInt8.ofNat (16 * a + b) :: ·)

def parseDigit (n : Nat) (c : UInt8) : Except NumError Nat :=
  if 48 ≤ c ∧ c ≤ 57 then
    if 10 * n + (c.toNat - 48) < 2 ^ 32 then .ok (10 * n + (c.toNat - 48)) else .error .range
  else .error .invalid

def parseUint (s : Bytes) : Except NumError Nat :=
  if s = [] then .error .invalid else s.foldlM parseDigit 0

def decimal (n : Nat) : Bytes := (Nat.toDigits 10 n).map Char.toUInt8

/-- A context without metadata is `none`. The first value under `span-id` is taken without a look
at how many there are. -/
def remoteSpanContextFromContext (ctx : Option Metadata) : Except SpanError SpanContext :=
  match ctx with
  | none => .error (.error "no metadata in context")
  | some md =>
    match md "trace-id" with
    | [] => .error (.error "trace-id is missing from metadata")
    | traceID :: _ =>
      match decodeString traceID with
      | .error err => .error (.hex "trace-id could not be decoded: %w" err)
      | .ok traceIDBytes =>
        match md "span-id" with
        | [] => .error (.panic "runtime error: index out of range [0] with length 0")
        | spanID :: _ =>
          match decodeString spanID with
          | .error err => .error (.hex "span-id could not be decoded: %w" err)
          | .ok spanIDBytes =>
            match md "trace-options" with
            | [] => .error (.error "trace-options is missing from metadata")
            | traceOptions :: _ =>
              match parseUint traceOptions with
              | .error err => .error (.num "trace-options could not be parsed as uint: %w" err)
              | .ok n => .ok ⟨.copy 16 traceIDBytes, .copy 8 spanIDBytes, UInt32.ofNat n⟩

def Metadata.append (md : Metadata) (key : String) (value : Bytes) : Metadata :=
  Function.update md key (md key ++ [value])

def contextWithSpanMetadata (md : Metadata) (span : Option SpanContext) : Metadata :=
  match span with
  | none => md
  | some span =>
    ((md.append "trace-id" (hexEncode span.traceID)).append "span-id"
      (hexEncode span.spanID)).append "trace-options" (decimal span.traceOptions.toNat)

theorem fromHexChar_hexDigit (h : n < 16) : fromHexChar (hexDigit n) = some n := by
  have hall : ∀ n : Fin 16, fromHexChar (hexDigit n) = some n.val := by decide
  exact hall ⟨n, h⟩

theorem decodeString_hexEncode (l : Bytes) : decodeString (hexEncode l) = .ok l := by
  induction l with
  | nil => rfl
  | cons b l ih =>
    have hb := b.toNat_lt
    have hhigh := fromHexChar_hexDigit (n := b.toNat / 16) (by omega)
    have hlow := fromHexChar_hexDigit (n := b.toNat % 16) (by omega)
    have hbyte : UInt8.ofNat (16 * (b.toNat / 16) + b.toNat % 16) = b := by
      rw [Nat.div_add_mod]
      exact UInt8.ofNat_toNat
    change decodeString (hexDigit (b.toNat / 16) :: hexDigit (b.toNat % 16) :: hexEncode l) = _
    rw [decodeString, hhigh, hlow]
    simp only [ih, Except.map, hbyte]

theorem FixedBytes.copy_self (b : FixedBytes n) : copy n b = b := by
  apply Subtype.ext
  change (b.val ++ List.replicate n 0).take n = b.val
  rw [List.take_append_of_le_length (Nat.le_of_eq b.2.symm)]
  exact List.take_of_length_le (Nat.le_of_eq b.2)

theorem parseDigit_digitChar (hd : d < 10) (hn : 10 * n + d < 2 ^ 32) :
    parseDigit n d.digitChar.toUInt8 = .ok (10 * n + d) := by
  have hall : ∀ d : Fin 10, 48 ≤ d.val.digitChar.toUInt8 ∧ d.val.digitChar.toUInt8 ≤ 57 ∧
      d.val.digitChar.toUInt8.toNat - 48 = d := by decide
  obtain ⟨hle, hge, hval⟩ := hall ⟨d, hd⟩
  rw [parseDigit, if_pos ⟨hle, hge⟩, hval, if_pos hn]

theorem parseUint_decimal (h : n < 2 ^ 32) : parseUint (decimal n) = .ok n := by
  have hne : decimal n ≠ [] := by simp [decimal]
  rw [parseUint, if_neg hne]
  clear hne
  induction n using Nat.strong_induction_on with
  | _ n ih =>
    rw [decimal, Nat.toDigits_eq_if (by decide)]
    split
    · rename_i hlt
      have hdigit := parseDigit_digitChar (n := 0) hlt (by omega)
      simpa using hdigit
    · have hrest := ih (n / 10) (by omega) (by omega)
      have hdigit := parseDigit_digitChar (n := n / 10) (Nat.mod_lt n (by decide)) (by omega)
      rw [Nat.div_add_mod] at hdigit
      rw [decimal] at hrest
      rw [List.map_append, List.foldlM_append, hrest]
      change parseDigit (n / 10) (n % 10).digitChar.toUInt8 >>= pure = _
      rw [hdigit]
      rfl

theorem remoteSpanContext_panic {md : Metadata}
    (h : remoteSpanContextFromContext (some md) = .error (.panic text)) :
    ∃ traceID values traceIDBytes, md "trace-id" = traceID :: values ∧
      decodeString traceID = .ok traceIDBytes ∧ md "span-id" = [] := by
  simp only [remoteSpanContextFromContext] at h
  split at h
  · cases h
  · rename_i traceID values htrace
    split at h
    · cases h
    · rename_i traceIDBytes hdecode
      split at h
      · exact ⟨traceID, values, traceIDBytes, htrace, hdecode, ‹_›⟩
      · -- No other access is without a test.
        repeat (split at h; cases h)
        cases h

/-- The decoding of span metadata is out of range just if a trace id that can be decoded comes
without a span id, and it undoes the encoding. -/
theorem spanMetadata_total_iff (ctx : Option Metadata) (outgoing : Metadata) (span : SpanContext) :
    ((∃ text, remoteSpanContextFromContext ctx = .error (.panic text)) ↔
      ∃ md traceID values traceIDBytes, ctx = some md ∧ md "trace-id" = traceID :: values ∧
        decodeString traceID = .ok traceIDBytes ∧ md "span-id" = []) ∧
    (outgoing "trace-id" = [] → outgoing "span-id" = [] → outgoing "trace-options" = [] →
      remoteSpanContextFromContext (some (contextWithSpanMetadata outgoing (some span))) =
        .ok span) := by
  constructor
  · constructor
    · rintro ⟨text, h⟩
      cases ctx with
      | none => cases h
      | some md =>
        obtain ⟨traceID, values, traceIDBytes, h⟩ := remoteSpanContext_panic h
        exact ⟨md, traceID, values, traceIDBytes, rfl, h⟩
    · rintro ⟨md, traceID, values, traceIDBytes, rfl, htrace, hdecode, hspan⟩
      exact ⟨_, by simp only [remoteSpanContextFromContext, htrace, hdecode, hspan]; rfl⟩
  · intro htrace hspan hoptions
    have hdigits := parseUint_decimal span.traceOptions.toNat_lt
    simp only [remoteSpanContextFromContext, contextWithSpanMetadata, Metadata.append,
      Function.update_apply, htrace, hspan, hoptions, String.reduceEq, ↓reduceIte, List.nil_append,
      decodeString_hexEncode, hdigits, FixedBytes.copy_self, UInt32.ofNat_toNat]

theorem spanMetadata_total_iff_sampled :
    ∃ span : SpanContext, span.traceOptions = 1 ∧ span.spanID.val = [1, 2, 3, 4, 5, 6, 7, 171] ∧
      remoteSpanContextFromContext (some (contextWithSpanMetadata (fun _ => []) (some span))) =
        .ok span := by
  let span : SpanContext :=
    ⟨⟨List.replicate 16 9, rfl⟩, ⟨[1, 2, 3, 4, 5, 6, 7, 171], rfl⟩, 1⟩
  exact ⟨span, rfl, rfl, (spanMetadata_total_iff none (fun _ => []) span).2 rfl rfl rfl⟩

/-- A trace id alone. -/
theorem spanMetadata_panics :
    ∃ text, remoteSpanContextFromContext
      (some fun key => if key = "trace-id" then [hexEncode (List.replicate 16 1)] else []) =
        .error (.panic text) :=
  ⟨_, rfl⟩

end Goutils.Rpc
