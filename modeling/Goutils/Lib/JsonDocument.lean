import Goutils.Lib.Json
import Goutils.Lib.Keyed
import Goutils.Lib.Utf8

namespace Lib
set_option autoImplicit true

inductive Document where
  | null
  | bool (b : Bool)
  | num (literal : String)
  | str (s : String)
  | array (elems : List Document)
  | object (members : List (String × Document))

abbrev StringMap := Keyed (Prod.fst : List UInt8 × List UInt8 → List UInt8)

namespace Document

open Json (Decoding UnmarshalTypeError saveError field?)

/-- `json.Marshal` of a string: what is not UTF-8 in it becomes U+FFFD. -/
def ofString (s : List UInt8) : Document := .str (String.ofList (Utf8.runes s))

def ofStrings : Option (List (List UInt8)) → Document
  | none => .null
  | some l => .array (l.map ofString)

def ofStringMap : Option StringMap → Document
  | none => .null
  | some m => .object ((m.list.mergeSort fun a b => decide (a.1 ≤ b.1)).map fun a =>
      (String.ofList (Utf8.runes a.1), ofString a.2))

def kind : Document → String
  | .null => "null"
  | .bool _ => "bool"
  | .num _ => "number"
  | .str _ => "string"
  | .array _ => "array"
  | .object _ => "object"

def intoString (v : Document) (s : Decoding (List UInt8)) : Decoding (List UInt8) :=
  match v with
  | .null => s
  | .str t => (goString t, s.2)
  | _ => saveError v.kind "string" s

def intoBool (v : Document) (s : Decoding Bool) : Decoding Bool :=
  match v with
  | .null => s
  | .bool b => (b, s.2)
  | _ => saveError v.kind "bool" s

def intoElems : List Document → Decoding (List (List UInt8)) → Decoding (List (List UInt8))
  | [], s => ([], s.2)
  | v :: vs, s =>
    let elem := intoString v (s.1.headD [], s.2)
    let rest := intoElems vs (s.1.tail, elem.2)
    (elem.1 :: rest.1, rest.2)

def intoStrings (v : Document) (s : Decoding (Option (List (List UInt8)))) :
    Decoding (Option (List (List UInt8))) :=
  match v with
  | .null => (none, s.2)
  | .array vs =>
    let elems := intoElems vs (s.1.getD [], s.2)
    (some elems.1, elems.2)
  | _ => saveError v.kind "[]string" s

def intoMembers : List (String × Document) → Decoding StringMap → Decoding StringMap
  | [], s => s
  | (k, v) :: ms, s =>
    let elem := intoString v ([], s.2)
    intoMembers ms (s.1.insert (goString k, elem.1), elem.2)

def intoStringMap (v : Document) (s : Decoding (Option StringMap)) :
    Decoding (Option StringMap) :=
  match v with
  | .null => (none, s.2)
  | .object ms =>
    let members := intoMembers ms (s.1.getD .empty, s.2)
    (some members.1, members.2)
  | _ => saveError v.kind "map[string]string" s

def intoPart (get : σ → τ) (set : τ → σ → σ) (into : Document → Decoding τ → Decoding τ)
    (v : Document) (s : Decoding σ) : Decoding σ :=
  let part := into v (get s.1, s.2)
  (set part.1 s.1, part.2)

def intoStruct (names : List String) (into : String → Document → Decoding σ → Decoding σ) :
    List (String × Document) → Decoding σ → Decoding σ
  | [], s => s
  | (k, v) :: ms, s =>
    intoStruct names into ms (match field? names k with
      | none => s
      | some field => into field v s)

def sanitize (s : List UInt8) : List UInt8 := Utf8.encode (Utf8.runes s)

theorem sanitize_eq_iff {s : List UInt8} : sanitize s = s ↔ Utf8.Valid s := Utf8.encode_runes_iff

theorem valid_sanitize (s : List UInt8) : Utf8.Valid (sanitize s) := ⟨Utf8.runes s, rfl⟩

@[simp] theorem goString_ofList (s : List UInt8) :
    goString (String.ofList (Utf8.runes s)) = sanitize s := by
  rw [goString, String.toList_ofList, sanitize]

@[simp] theorem intoString_ofString (s : List UInt8) (d : Decoding (List UInt8)) :
    intoString (ofString s) d = (sanitize s, d.2) := by
  simp only [ofString, intoString, goString_ofList]

theorem intoStruct_cons {names : List String} {into : String → Document → Decoding σ → Decoding σ}
    {k : String} {v : Document} {ms : List (String × Document)} {s : Decoding σ} (h : k ∈ names) :
    intoStruct names into ((k, v) :: ms) s = intoStruct names into ms (into k v s) := by
  rw [intoStruct, field?, if_pos h]

theorem intoElems_map (l old : List (List UInt8)) (err : Option UnmarshalTypeError) :
    intoElems (l.map ofString) (old, err) = (l.map sanitize, err) := by
  induction l generalizing old with
  | nil => rfl
  | cons s l ih =>
    rw [List.map_cons, intoElems, intoString_ofString]
    simp only [ih, List.map_cons]

@[simp] theorem intoStrings_ofStrings (l : Option (List (List UInt8)))
    (d : Decoding (Option (List (List UInt8)))) :
    intoStrings (ofStrings l) d = (l.map (List.map sanitize), d.2) := by
  cases l with
  | none => rfl
  | some l =>
    rw [ofStrings, intoStrings]
    simp only [intoElems_map, Option.map_some]

theorem intoMembers_map (l : List (List UInt8 × List UInt8)) (m : StringMap)
    (err : Option UnmarshalTypeError) :
    intoMembers (l.map fun a => (String.ofList (Utf8.runes a.1), ofString a.2)) (m, err) =
      ((l.map fun a => (sanitize a.1, sanitize a.2)).foldl Keyed.insert m, err) := by
  induction l generalizing m with
  | nil => rfl
  | cons a l ih =>
    rw [List.map_cons, intoMembers, intoString_ofString, goString_ofList]
    simp only [ih, List.map_cons, List.foldl_cons]

def readBack (m : StringMap) : StringMap :=
  ((m.list.mergeSort fun a b => decide (a.1 ≤ b.1)).map fun a =>
    (sanitize a.1, sanitize a.2)).foldl Keyed.insert .empty

@[simp] theorem intoStringMap_ofStringMap (m : Option StringMap)
    (err : Option UnmarshalTypeError) :
    intoStringMap (ofStringMap m) (none, err) = (m.map readBack, err) := by
  cases m with
  | none => rfl
  | some m =>
    rw [ofStringMap, intoStringMap]
    simp only [intoMembers_map, Option.map_some, Option.getD_none, readBack]

def ValidMap (m : StringMap) : Prop := ∀ a ∈ m.list, Utf8.Valid a.1 ∧ Utf8.Valid a.2

theorem readBack_perm_iff {m : StringMap} : (readBack m).list.Perm m.list ↔ ValidMap m := by
  have hsort := List.mergeSort_perm m.list fun a b => decide (a.1 ≤ b.1)
  constructor
  · intro h a ha
    have hback := (Keyed.perm_iff.1 h a).2 ha
    rcases Keyed.mem_of_mem_foldl_insert hback with hempty | hmem
    · cases hempty
    · obtain ⟨b, _, rfl⟩ := List.mem_map.1 hmem
      exact ⟨valid_sanitize _, valid_sanitize _⟩
  · intro h
    have hsame : ((m.list.mergeSort fun a b => decide (a.1 ≤ b.1)).map fun a =>
        (sanitize a.1, sanitize a.2)) = m.list.mergeSort fun a b => decide (a.1 ≤ b.1) := by
      have hvalid : ∀ a ∈ m.list.mergeSort fun a b => decide (a.1 ≤ b.1),
          (sanitize a.1, sanitize a.2) = id a := by
        intro a ha
        obtain ⟨hkey, hvalue⟩ := h a (hsort.mem_iff.1 ha)
        rw [sanitize_eq_iff.2 hkey, sanitize_eq_iff.2 hvalue]
        rfl
      rw [List.map_congr_left hvalid, List.map_id]
    apply Keyed.perm_iff.2
    intro a
    rw [readBack, hsame, Keyed.mem_foldl_insert ((hsort.map _).nodup_iff.2 m.distinct) (by
      intro a ha
      cases ha)]
    simp [Keyed.empty, hsort.mem_iff]

end Document

end Lib
