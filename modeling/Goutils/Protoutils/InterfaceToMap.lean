import Mathlib.Algebra.Group.Nat.Defs
import Goutils.Lib.Keyed
import Goutils.Lib.Strings
import Goutils.Lib.Utf8

namespace Goutils.Protoutils
open Lib
set_option autoImplicit true

inductive IntSize where
  | word
  | w8
  | w16
  | w32
  | w64
  deriving DecidableEq

/-- The kinds of values that are converted; a `nil` stands in a variable of an interface type. -/
inductive Kind where
  | bool
  | int (size : IntSize)
  | uint (size : IntSize)
  | uintptr
  | float64
  | interface
  | map
  | pointer
  | slice
  | string
  | struct
  deriving DecidableEq

def IntSize.suffix : IntSize → String
  | .word => ""
  | .w8 => "8"
  | .w16 => "16"
  | .w32 => "32"
  | .w64 => "64"

def Kind.text : Kind → String
  | .bool => "bool"
  | .int size => "int" ++ size.suffix
  | .uint size => "uint" ++ size.suffix
  | .uintptr => "uintptr"
  | .float64 => "float64"
  | .interface => "interface"
  | .map => "map"
  | .pointer => "ptr"
  | .slice => "slice"
  | .string => "string"
  | .struct => "struct"

inductive MapKey where
  | string (s : List UInt8)
  | stringer (s : List UInt8)
  | other (kind : String)

/-- A field of a struct with its `json` tag, which is empty if it has none. -/
structure Field (α : Type) where
  name : List UInt8
  tag : List UInt8 := []
  exported : Bool := true
  value : α

/-- A Go value with the name of its type. A float is given by its bits. -/
inductive GoValue where
  | nil
  | bool (type : String) (b : Bool)
  | int (type : String) (size : IntSize) (i : Int)
  | uint (type : String) (size : IntSize) (n : Nat)
  | uintptr (type : String) (n : Nat)
  | float64 (type : String) (bits : UInt64)
  | string (type : String) (s : List UInt8)
  | slice (type : String) (elems : List GoValue)
  | map (type : String) (entries : List (MapKey × GoValue))
  | struct (type : String) (fields : List (Field GoValue))
  | ptr (type : String) (elem : GoValue)
  | nilPtr (type : String) (elem : Kind)

namespace GoValue

def typeName : GoValue → String
  | .nil => "<nil>"
  | .bool type _ | .int type _ _ | .uint type _ _ | .uintptr type _ | .float64 type _
  | .string type _ | .slice type _ | .map type _ | .struct type _ | .ptr type _
  | .nilPtr type _ => type

def kind : GoValue → Kind
  | .nil => .interface
  | .bool _ _ => .bool
  | .int _ size _ => .int size
  | .uint _ size _ => .uint size
  | .uintptr _ _ => .uintptr
  | .float64 _ _ => .float64
  | .string _ _ => .string
  | .slice _ _ => .slice
  | .map _ _ => .map
  | .struct _ _ => .struct
  | .ptr _ _ | .nilPtr _ _ => .pointer

def elemKind : GoValue → Kind
  | .ptr _ elem => elem.kind
  | .nilPtr _ elem => elem
  | data => data.kind

end GoValue

/-- An error is returned, or a method of `reflect` panics. -/
inductive Failure where
  | error (text : String)
  | panic (text : String)

abbrev Result := Keyed (Prod.fst : List UInt8 × GoValue → List UInt8)

def Result.value (m : Result) : GoValue :=
  .map "map[string]interface {}" (m.list.map fun kv => (.string kv.1, kv.2))

def isEmptyValue : GoValue → Bool
  | .slice _ elems => elems.isEmpty
  | .map _ entries => entries.isEmpty
  | .string _ s => s.isEmpty
  | .bool _ b => !b
  | .int _ _ i => i == 0
  | .uint _ _ n | .uintptr _ n => n == 0
  | .float64 _ bits => bits == 0 || bits == 0x8000000000000000
  | .nilPtr _ _ => true
  | _ => false

namespace Field

def key (field : Field GoValue) : List UInt8 :=
  let tagName := (field.tag.splitOn ','.toUInt8).headD []
  if tagName = [] then field.name else tagName

def skipped (ignoreOmitEmpty : Bool) (field : Field GoValue) : Bool :=
  field.tag == goString "-" || !field.exported ||
    (!ignoreOmitEmpty && contains field.tag (goString "omitempty") && isEmptyValue field.value)

end Field

def MapKey.text : MapKey → Except Failure (List UInt8)
  | .string s | .stringer s => .ok s
  | .other kind => .error (.error
      ("map keys of type " ++ kind ++ " are not strings and do not implement String"))

section Convert
variable (ignoreOmitEmpty : Bool)

mutual

/-- By the kind that is left when one pointer is stripped; a nil one has none. -/
def toInterface : GoValue → Except Failure GoValue
  | .nil => .ok .nil
  | .uintptr type n => .ok
      (if type = "syscall.Errno" then .int "int" .word (Int.bmod n (2 ^ 64)) else .uintptr type n)
  | .struct _ fields | .ptr _ (.struct _ fields) => (structFields .empty fields).map Result.value
  | .nilPtr _ .struct => .ok (Result.value .empty)
  | .map _ entries => (mapEntries .empty entries).map Result.value
  | .ptr type (.map _ _) => .error (.error ("data of type " ++ type ++ " is not a map"))
  | .nilPtr type .map => .error (.error ("data of type " ++ type ++ " is not a map"))
  | .slice _ elems => (sliceElems elems).map (.slice "[]interface {}")
  | .ptr type (.slice _ _) => .error (.error ("data of type " ++ type ++ " is not a slice"))
  | .nilPtr type .slice => .error (.error ("data of type " ++ type ++ " is not a slice"))
  | .string _ s | .ptr _ (.string _ s) => .ok (.string "string" s)
  | .nilPtr _ .string => .ok (.string "string" (goString "<invalid Value>"))
  | .uint _ _ n | .ptr _ (.uint _ _ n) => .ok (.uint "uint64" .w64 n)
  | .nilPtr _ (.uint _) => .error (.panic "reflect: call of reflect.Value.Uint on zero Value")
  | .int _ _ i | .ptr _ (.int _ _ i) => .ok (.int "int64" .w64 i)
  | .nilPtr _ (.int _) => .error (.panic "reflect: call of reflect.Value.Int on zero Value")
  | data => .ok data

def structFields (res : Result) : List (Field GoValue) → Except Failure Result
  | [] => .ok res
  | ⟨name, tag, exported, value⟩ :: fields =>
    if Field.skipped ignoreOmitEmpty ⟨name, tag, exported, value⟩ then structFields res fields
    else match toInterface value with
      | .error e => .error e
      | .ok data => structFields (res.insert (Field.key ⟨name, tag, exported, value⟩, data)) fields

def mapEntries (result : Result) : List (MapKey × GoValue) → Except Failure Result
  | [] => .ok result
  | (k, v) :: entries =>
    match k.text with
    | .error e => .error e
    | .ok key =>
      match toInterface v with
      | .error e => .error e
      | .ok data => mapEntries (result.insert (key, data)) entries

def sliceElems : List GoValue → Except Failure (List GoValue)
  | [] => .ok []
  | value :: elems =>
    match toInterface value with
    | .error e => .error e
    | .ok data => (sliceElems elems).map (data :: ·)

end

def structToMap : GoValue → Except Failure Result
  | .struct _ fields | .ptr _ (.struct _ fields) => structFields ignoreOmitEmpty .empty fields
  | .nilPtr _ .struct => .ok .empty
  | data => .error (.error ("data of type " ++ data.typeName ++ " is not a struct"))

def marshalMap : GoValue → Except Failure Result
  | .map _ entries => mapEntries ignoreOmitEmpty .empty entries
  | data => .error (.error ("data of type " ++ data.typeName ++ " is not a map"))

def interfaceToMapHelper (data : GoValue) : Except Failure Result :=
  match data with
  | .nil => .error (.error "no data passed in")
  | data =>
    match data.elemKind with
    | .struct => structToMap ignoreOmitEmpty data
    | .map => marshalMap ignoreOmitEmpty data
    | kind => .error (.error ("data of type " ++ data.typeName ++ " and kind " ++ kind.text ++
        " not a struct or a map-like object"))

end Convert

def interfaceToMap (data : GoValue) : Except Failure Result := interfaceToMapHelper false data

/-- A struct or a map, or a pointer to one. -/
def GoValue.mapLike (data : GoValue) : Bool := data.elemKind == .struct || data.elemKind == .map

theorem interfaceToMapHelper_cases (ignoreOmitEmpty : Bool) (data : GoValue) :
    (data.mapLike = false ∧
      ∃ text, interfaceToMapHelper ignoreOmitEmpty data = .error (.error text)) ∨
    data.mapLike = true ∧ toInterface ignoreOmitEmpty data =
      (interfaceToMapHelper ignoreOmitEmpty data).map Result.value := by
  cases data with
  | struct type fields | map type entries => exact .inr ⟨rfl, by rw [toInterface]; rfl⟩
  | ptr type elem =>
    cases elem with
    | struct type' fields | map type' entries => exact .inr ⟨rfl, by rw [toInterface]; rfl⟩
    | _ => exact .inl ⟨rfl, _, rfl⟩
  | nilPtr type elem =>
    cases elem with
    | struct | map => exact .inr ⟨rfl, by rw [toInterface]; rfl⟩
    | _ => exact .inl ⟨rfl, _, rfl⟩
  | _ => exact .inl ⟨rfl, _, rfl⟩

def numericTypes : List String :=
  ["int", "int32", "int64", "uint", "uint32", "uint64", "float32", "float64"]

mutual

/-- `structpb.NewValue` takes the value, by its type itself. UTF-8 is left aside. -/
def acceptable : GoValue → Bool
  | .nil => true
  | .bool type _ => type == "bool"
  | .int type _ _ | .uint type _ _ | .float64 type _ => numericTypes.contains type
  | .string type _ => type == "string"
  | .slice type elems => type == "[]interface {}" && acceptableElems elems
  | .map type entries => type == "map[string]interface {}" && acceptableEntries entries
  | _ => false

def acceptableElems : List GoValue → Bool
  | [] => true
  | value :: elems => acceptable value && acceptableElems elems

def acceptableEntries : List (MapKey × GoValue) → Bool
  | [] => true
  | (_, value) :: entries => acceptable value && acceptableEntries entries

end

/-- What ends a conversion. -/
inductive Stop where
  | error
  | panic

section Converted
variable (ignoreOmitEmpty : Bool)

def fieldKeys (fields : List (Field GoValue)) : List (List UInt8) :=
  (fields.filter fun field => !field.skipped ignoreOmitEmpty).map Field.key

theorem fieldKeys_cons (field : Field GoValue) (fields : List (Field GoValue)) :
    fieldKeys ignoreOmitEmpty (field :: fields) = if field.skipped ignoreOmitEmpty then
      fieldKeys ignoreOmitEmpty fields else field.key :: fieldKeys ignoreOmitEmpty fields := by
  unfold fieldKeys
  cases h : field.skipped ignoreOmitEmpty <;> simp [h]

def entryKeys (entries : List (MapKey × GoValue)) : List (List UInt8) :=
  entries.filterMap fun kv => kv.1.text.toOption

mutual

/-- The first thing in a value that cannot be converted: an error is one of a pointer to a slice or
a map or of a key, a panic one of a nil pointer to an integer. -/
def stop : GoValue → Option Stop
  | .slice _ elems => stopElems elems
  | .map _ entries => stopEntries entries
  | .struct _ fields | .ptr _ (.struct _ fields) => stopFields fields
  | .ptr _ (.slice _ _) | .ptr _ (.map _ _) | .nilPtr _ .slice | .nilPtr _ .map => some .error
  | .nilPtr _ (.int _) | .nilPtr _ (.uint _) => some .panic
  | _ => none

def stopElems : List GoValue → Option Stop
  | [] => none
  | value :: elems => (stop value).or (stopElems elems)

def stopEntries : List (MapKey × GoValue) → Option Stop
  | [] => none
  | (.other _, _) :: _ => some .error
  | (_, value) :: entries => (stop value).or (stopEntries entries)

def stopFields : List (Field GoValue) → Option Stop
  | [] => none
  | ⟨name, tag, exported, value⟩ :: fields =>
    if Field.skipped ignoreOmitEmpty ⟨name, tag, exported, value⟩ then stopFields fields
    else (stop value).or (stopFields fields)

end

mutual

/-- Something in a value stays as it is although `NewValue` refuses it, under a key that does not
come again. -/
def keeps : GoValue → Bool
  | .bool type _ => type != "bool"
  | .uintptr type _ => type != "syscall.Errno"
  | .float64 type _ => !numericTypes.contains type
  | .slice _ elems => keepsElems elems
  | .map _ entries => keepsEntries entries
  | .struct _ fields | .ptr _ (.struct _ fields) => keepsFields fields
  | .ptr _ (.int _ _ _) | .ptr _ (.uint _ _ _) | .ptr _ (.string _ _) => false
  | .nilPtr _ .struct | .nilPtr _ .string => false
  | .ptr _ _ | .nilPtr _ _ => true
  | _ => false

def keepsElems : List GoValue → Bool
  | [] => false
  | value :: elems => keeps value || keepsElems elems

def keepsEntries : List (MapKey × GoValue) → Bool
  | [] => false
  | (k, value) :: entries =>
    (keeps value && !k.text.toOption.any (entryKeys entries).contains) || keepsEntries entries

def keepsFields : List (Field GoValue) → Bool
  | [] => false
  | ⟨name, tag, exported, value⟩ :: fields =>
    let field : Field GoValue := ⟨name, tag, exported, value⟩
    (!field.skipped ignoreOmitEmpty && keeps value &&
      !(fieldKeys ignoreOmitEmpty fields).contains field.key) || keepsFields fields

end

end Converted

/-- The conversion ends as foretold, and what it returns is as foretold. -/
def Ends (stop : Option Stop) (P : α → Prop) : Except Failure α → Prop
  | .ok a => stop = none ∧ P a
  | .error (.error _) => stop = some .error
  | .error (.panic _) => stop = some .panic

namespace Ends

theorem map {P : α → Prop} {Q : β → Prop} {r : Except Failure α} {f : α → β} (h : Ends o P r)
    (hf : ∀ a, P a → Q (f a)) : Ends o Q (r.map f) := by
  match r with
  | .ok a => exact ⟨h.1, hf a h.2⟩
  | .error (.error text) | .error (.panic text) => exact h

theorem of_map {P : β → Prop} {r : Except Failure α} {f : α → β} (h : Ends o P (r.map f)) :
    Ends o (fun a => P (f a)) r := by
  match r with
  | .ok a | .error (.error text) | .error (.panic text) => exact h

/-- What is returned satisfies a property, if anything is returned, and there is no panic. -/
theorem iff {q : Prop} {P : α → Prop} {r : Except Failure α} (h : Ends o (fun a => P a ↔ q) r) :
    ((∀ text, r ≠ .error (.panic text)) ∧ ∀ a, r = .ok a → P a) ↔
      o ≠ some .panic ∧ (o = none → q) := by
  match r with
  | .ok a => simp [h.1, ← h.2]
  | .error (.error text) =>
    replace h : o = _ := h
    simp [h]
  | .error (.panic text) =>
    replace h : o = _ := h
    simp [h]

theorem of_error {P : α → Prop} {Q : β → Prop} {e : Failure} (h : Ends o P (.error e)) :
    Ends (o.or o') Q (.error e) := by
  cases e with
  | error text | panic text =>
    replace h : o = _ := h
    rw [h]
    rfl

end Ends

/-- All values are acceptable but those under some keys. -/
def Result.AcceptableBut (m : Result) (keys : List (List UInt8)) : Prop :=
  ∀ kv ∈ m.list, acceptable kv.2 = true ∨ kv.1 ∈ keys

namespace Result

theorem acceptable_value (m : Result) : acceptable m.value = true ↔ m.AcceptableBut [] := by
  have hall (l : List (List UInt8 × GoValue)) :
      acceptableEntries (l.map fun kv => (.string kv.1, kv.2)) = true ↔
        ∀ kv ∈ l, acceptable kv.2 = true := by
    induction l with
    | nil => simp [acceptableEntries]
    | cons kv l ih =>
      rw [List.map_cons, acceptableEntries, Bool.and_eq_true, ih, List.forall_mem_cons]
  simp [value, acceptable, hall, AcceptableBut]

theorem acceptableBut_insert {m : Result} :
    AcceptableBut (Keyed.insert m (key, v)) keys ↔
      (acceptable v = true ∨ key ∈ keys) ∧ m.AcceptableBut (key :: keys) := by
  simp only [AcceptableBut, Keyed.mem_insert, List.mem_cons]
  constructor
  · intro h
    refine ⟨h (key, v) (.inr rfl), fun kv hkv => ?_⟩
    by_cases hk : kv.1 = key
    · exact .inr (.inl hk)
    · exact (h kv (.inl ⟨hkv, hk⟩)).imp_right .inr
  · rintro ⟨hv, h⟩ kv (⟨hkv, hk⟩ | rfl)
    · exact (h kv hkv).imp_right fun h => h.resolve_left hk
    · exact hv

end Result

/-- One more value is converted and put into the result. -/
theorem insert_ends {r : Except Failure GoValue} {rest : Result → Except Failure Result} :
    Ends first (fun data => acceptable data = true ↔ kept = false) r →
    (∀ res : Result, Ends later (fun m : Result => m.AcceptableBut [] ↔
      keptLater = false ∧ res.AcceptableBut keys) (rest res)) →
    ∀ (res : Result) (key : List UInt8), Ends (first.or later)
      (fun m : Result => m.AcceptableBut [] ↔
        ((kept && !keys.contains key) || keptLater) = false ∧ res.AcceptableBut (key :: keys))
      (match r with
        | .error e => .error e
        | .ok data => rest (res.insert (key, data))) := by
  intro hr hrest res key
  match r with
  | .error e => exact hr.of_error
  | .ok data =>
    obtain ⟨rfl, hdata⟩ := hr
    have hthen := hrest (res.insert (key, data))
    simp only [Result.acceptableBut_insert, hdata] at hthen
    have hiff :
        (keptLater = false ∧ (kept = false ∨ key ∈ keys) ∧ res.AcceptableBut (key :: keys)) ↔
        ((kept && !keys.contains key) || keptLater) = false ∧ res.AcceptableBut (key :: keys) := by
      cases kept <;> cases keptLater <;> simp
    simp only [hiff] at hthen
    exact hthen

section Converted
variable {ignoreOmitEmpty : Bool}

mutual

theorem toInterface_ends : ∀ data, Ends (stop ignoreOmitEmpty data)
    (fun r => acceptable r = true ↔ keeps ignoreOmitEmpty data = false)
    (toInterface ignoreOmitEmpty data)
  | .nil | .int _ _ _ | .uint _ _ _ | .string _ _ => by
    simp [toInterface, stop, keeps, Ends, acceptable, numericTypes]
  | .bool _ _ | .float64 _ _ => by simp [toInterface, stop, keeps, Ends, acceptable]
  | .uintptr type n => by
    simp only [toInterface, stop, keeps]
    by_cases h : type = "syscall.Errno" <;> simp [h, Ends, acceptable, numericTypes]
  | .slice _ elems => by
    rw [toInterface, stop, keeps]
    exact (sliceElems_ends elems).map fun l hl => by simpa [acceptable] using hl
  | .map _ entries => by
    rw [toInterface, stop, keeps]
    exact (mapEntries_ends entries .empty).map fun m hm => by
      simpa [Result.acceptable_value, Result.AcceptableBut, Keyed.empty] using hm
  | .struct _ fields => by
    rw [toInterface, stop, keeps]
    exact (structFields_ends fields .empty).map fun m hm => by
      simpa [Result.acceptable_value, Result.AcceptableBut, Keyed.empty] using hm
  | .ptr _ elem => by
    cases elem with
    | struct _ fields =>
      rw [toInterface, stop, keeps]
      exact (structFields_ends fields .empty).map fun m hm => by
        simpa [Result.acceptable_value, Result.AcceptableBut, Keyed.empty] using hm
    | _ => simp [toInterface, stop, keeps, Ends, acceptable, numericTypes]
  | .nilPtr _ elem => by
    cases elem <;> simp [toInterface, stop, keeps, Ends, acceptable, Result.value, Keyed.empty,
      acceptableEntries]

theorem structFields_ends : ∀ fields (res : Result), Ends (stopFields ignoreOmitEmpty fields)
    (fun m => m.AcceptableBut [] ↔ keepsFields ignoreOmitEmpty fields = false ∧
      res.AcceptableBut (fieldKeys ignoreOmitEmpty fields))
    (structFields ignoreOmitEmpty res fields)
  | [], res => by simp [structFields, stopFields, keepsFields, fieldKeys, Ends]
  | ⟨name, tag, exported, value⟩ :: fields, res => by
    have hfields := structFields_ends fields
    rw [structFields, stopFields, keepsFields, fieldKeys_cons]
    cases hskip : Field.skipped ignoreOmitEmpty ⟨name, tag, exported, value⟩ with
    | true => exact hfields res
    | false => exact insert_ends (toInterface_ends value) hfields res _

theorem mapEntries_ends : ∀ entries (res : Result), Ends (stopEntries ignoreOmitEmpty entries)
    (fun m => m.AcceptableBut [] ↔ keepsEntries ignoreOmitEmpty entries = false ∧
      res.AcceptableBut (entryKeys entries))
    (mapEntries ignoreOmitEmpty res entries)
  | [], res => by simp [mapEntries, stopEntries, keepsEntries, entryKeys, Ends]
  | (.other kind, v) :: entries, res => by simp [mapEntries, stopEntries, MapKey.text, Ends]
  | (.string key, v) :: entries, res => by
    rw [mapEntries, stopEntries, keepsEntries]
    · exact insert_ends (toInterface_ends v) (mapEntries_ends entries) res key
    · nofun
  | (.stringer key, v) :: entries, res => by
    rw [mapEntries, stopEntries, keepsEntries]
    · exact insert_ends (toInterface_ends v) (mapEntries_ends entries) res key
    · nofun

theorem sliceElems_ends : ∀ elems, Ends (stopElems ignoreOmitEmpty elems)
    (fun l => acceptableElems l = true ↔ keepsElems ignoreOmitEmpty elems = false)
    (sliceElems ignoreOmitEmpty elems)
  | [] => by simp [sliceElems, stopElems, keepsElems, Ends, acceptableElems]
  | value :: elems => by
    have hvalue := toInterface_ends value
    rw [sliceElems, stopElems, keepsElems]
    split
    · rename_i he
      rw [he] at hvalue
      exact hvalue.of_error
    · rename_i hdata
      rw [hdata] at hvalue
      obtain ⟨hnone, hvalue⟩ := hvalue
      rw [hnone]
      apply (sliceElems_ends elems).map
      intro l hl
      rw [acceptableElems, Bool.and_eq_true, Bool.or_eq_false_iff]
      exact and_congr hvalue hl

end

/-- A struct or a map is converted without a panic and to what `structpb.NewStruct` takes exactly if
nothing in it panics before something else ends the conversion, and, if nothing does, nothing is
kept as it is that `NewStruct` refuses. -/
theorem interfaceToMap_acceptable_iff (ignoreOmitEmpty : Bool) (data : GoValue) :
    ((∀ text, interfaceToMapHelper ignoreOmitEmpty data ≠ .error (.panic text)) ∧
      ∀ m, interfaceToMapHelper ignoreOmitEmpty data = .ok m → acceptable m.value = true) ↔
    (data.mapLike = true → stop ignoreOmitEmpty data ≠ some .panic ∧
      (stop ignoreOmitEmpty data = none → keeps ignoreOmitEmpty data = false)) := by
  rcases interfaceToMapHelper_cases ignoreOmitEmpty data with ⟨hlike, text, he⟩ | ⟨hlike, heq⟩
  · simp [he, hlike]
  · have hends := @toInterface_ends ignoreOmitEmpty data
    rw [heq] at hends
    rw [hlike, hends.of_map.iff]
    simp

end Converted

/-- A pointer to a slice before a nil pointer to an integer is what ends the conversion. -/
example : ∃ text, interfaceToMap (.struct "main.T" [
      { name := goString "A", value := .ptr "*[]int" (.slice "[]int" []) },
      { name := goString "N", value := .nilPtr "*int" (.int .word) }]) = .error (.error text) :=
  ⟨_, rfl⟩

/-- A nil pointer to an integer panics, and a pointer to a boolean stays a pointer. -/
theorem interfaceToMap_keeps_pointer :
    (∃ data text, data = .struct "main.T" [⟨goString "N", [], true, .nilPtr "*int" (.int .word)⟩] ∧
      interfaceToMap data = .error (.panic text)) ∧
    ∃ data m, data = .struct "main.T"
        [⟨goString "On", [], true, .ptr "*bool" (.bool "bool" true)⟩] ∧
      interfaceToMap data = .ok m ∧
      (goString "On", .ptr "*bool" (.bool "bool" true)) ∈ m.list ∧ acceptable m.value = false := by
  refine ⟨⟨_, _, rfl, rfl⟩, _, _, rfl, rfl, List.mem_singleton_self _, rfl⟩

end Goutils.Protoutils
