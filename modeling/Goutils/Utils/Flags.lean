import Mathlib.Data.List.Pairwise
import Goutils.Lib.FlagSet

namespace Goutils.Utils
open Lib
open Lib.FlagSet (ParseError ValidName Reads given)
set_option autoImplicit true

/-- A field of a struct of strings, integers and booleans, with its `flag` tag. -/
structure FlagField where
  name : List UInt8
  exported : Bool := true
  tag : Option (List UInt8)
  value : FlagValue
  deriving DecidableEq

/-- A struct, whose fields have different names. -/
structure FlagStruct where
  fields : List FlagField
  distinct : (fields.map FlagField.name).Nodup

/-- Why a tag is refused. -/
inductive TagError where
  | defaultWithoutValue
  | badDefault
  | usageWithoutText
  | extraNotStrings
  deriving DecidableEq

/-- The errors of `ParseFlags`. `badName` and `redefined` are panics of `FlagSet.Var`, and
`unexported` one of `reflect`. -/
inductive FlagError where
  | tag (field : List UInt8) (e : TagError)
  | badName (name : List UInt8)
  | redefined (name : List UInt8)
  | parse (e : ParseError)
  | required (name : List UInt8)
  | positional (position : Int)
  | unexported (field : List UInt8)
  | unspecified (args : List (List UInt8))
  deriving DecidableEq

/-- `flagInfo` of a field that is not a `flag.Value`. It is positional when it has a position. -/
structure FlagInfo where
  name : List UInt8
  default : List UInt8 := []
  defaultIfc : Option FlagValue := none
  defaultSet : Bool := false
  usage : List UInt8 := []
  required : Bool := false
  position : Option Int := none
  deriving DecidableEq

section Model
variable (parseInt : Nat → List UInt8 → Option Int)

def parseOption (field : FlagField) (info : FlagInfo) (part : List UInt8) :
    Except FlagError FlagInfo :=
  let parted := FlagSet.cut '='.toUInt8 part
  if parted.1 = goString "required" then .ok { info with required := true }
  else if parted.1 = goString "default" then
    match parted.2 with
    | none => .error (.tag field.name .defaultWithoutValue)
    | some text =>
      match FlagValue.parse parseInt 10 field.value.kind text with
      | none => .error (.tag field.name .badDefault)
      | some value =>
        .ok { info with defaultSet := true, default := text, defaultIfc := some value }
  else if parted.1 = goString "usage" then
    match parted.2 with
    | none => .error (.tag field.name .usageWithoutText)
    | some usage => .ok { info with usage }
  else if parted.1 = goString "extra" then .error (.tag field.name .extraNotStrings)
  else .ok info

def parseOptions (field : FlagField) : FlagInfo → List (List UInt8) → Except FlagError FlagInfo
  | info, [] => .ok info
  | info, part :: parts =>
    match parseOption parseInt field info part with
    | .error e => .error e
    | .ok info => parseOptions field info parts

/-- A tag whose name is a number makes the field positional. -/
def parseFlagInfo (field : FlagField) (val : List UInt8) : Except FlagError FlagInfo :=
  let valParts := val.splitOn ','.toUInt8
  let name := if valParts.headD [] = [] then field.name else valParts.headD []
  let info : FlagInfo := match parseInt 10 name with
    | some posIdx =>
      { name := goString ("positional_arg_" ++ toString posIdx), position := some posIdx }
    | none => { name }
  parseOptions parseInt field info valParts.tail

def FlagInfo.initial (info : FlagInfo) : FlagKind → FlagValue
  | .string => .string info.default
  | .bool => .bool (match info.default, info.defaultIfc with
      | _ :: _, some (.bool b) => b
      | _, _ => false)
  | .int => .int (match info.default, info.defaultIfc with
      | _ :: _, some (.int i) => i
      | _, _ => 0)

def define (fs : FlagSet) (flag : Flag) : Except FlagError FlagSet :=
  if ¬ ValidName flag.name then .error (.badName flag.name)
  else if (fs.get flag.name).isSome then .error (.redefined flag.name)
  else .ok (fs.insert flag)

def extractField (fs : FlagSet) (field : FlagField) : Except FlagError FlagSet :=
  match field.exported, field.tag with
  | true, some tag =>
    match parseFlagInfo parseInt field tag with
    | .error e => .error e
    | .ok info => define fs { name := info.name, value := info.initial field.value.kind }
  | _, _ => .ok fs

def extractFlags : FlagSet → List FlagField → Except FlagError FlagSet
  | fs, [] => .ok fs
  | fs, field :: fields =>
    match extractField parseInt fs field with
    | .error e => .error e
    | .ok fs => extractFlags fs fields

def argAt (args : List (List UInt8)) (position : Int) : List UInt8 :=
  if position < 0 then [] else (args[position.toNat]?).getD []

def fieldValue (fs : FlagSet) (args : List (List UInt8)) (kind : FlagKind) (info : FlagInfo) :
    Except FlagError (Option FlagValue) :=
  match info.position with
  | some position =>
    if argAt args position = [] then .ok info.defaultIfc
    else match FlagValue.parse parseInt 10 kind (argAt args position) with
      | none => .error (.positional position)
      | some value => .ok (some value)
  | none =>
    match fs.get info.name with
    | none => if info.required then .error (.required info.name) else .ok info.defaultIfc
    | some flag => .ok (some flag.value)

def assignField (field : FlagField) (info : FlagInfo) (val : Option FlagValue) :
    Except FlagError FlagField :=
  if info.required && val.all FlagValue.isZero then .error (.required info.name)
  else match val with
    | none => .ok field
    | some value =>
      if !info.defaultSet && value.isZero then .ok field
      else if field.exported then .ok { field with value }
      else .error (.unexported field.name)

def unmarshalField (fs : FlagSet) (args : List (List UInt8)) (field : FlagField) :
    Except FlagError FlagField :=
  match field.tag with
  | none => .ok field
  | some tag =>
    match parseFlagInfo parseInt field tag with
    | .error e => .error e
    | .ok info =>
      match fieldValue parseInt fs args field.value.kind info with
      | .error e => .error e
      | .ok val => assignField field info val

/-- The loop of `UnmarshalFlags`: the fields before one that fails keep what they were set to. -/
def unmarshalFields (fs : FlagSet) (args : List (List UInt8)) :
    List FlagField → List FlagField × Option FlagError
  | [] => ([], none)
  | field :: fields =>
    match unmarshalField parseInt fs args field with
    | .error e => (field :: fields, some e)
    | .ok field =>
      (field :: (unmarshalFields fs args fields).1, (unmarshalFields fs args fields).2)

def flagInfo (field : FlagField) : Option FlagInfo :=
  field.tag.bind fun tag => (parseFlagInfo parseInt field tag).toOption

def unmarshalFlags (fs : FlagSet) (args : List (List UInt8)) (fields : List FlagField) :
    List FlagField × Option FlagError :=
  match unmarshalFields parseInt fs args fields with
  | (fields', some e) => (fields', some e)
  | (fields', none) =>
    let positions := fields.filterMap fun field => (flagInfo parseInt field).bind (·.position)
    match args.zipIdx.filter fun arg => (arg.2 : Int) ∉ positions with
    | [] => (fields', none)
    | left => (fields', some (.unspecified (left.map Prod.fst)))

def parseFlags (args : List (List UInt8)) (fields : List FlagField) :
    List FlagField × Option FlagError :=
  match args with
  | [] => (fields, none)
  | _ :: args =>
    match extractFlags parseInt .empty fields with
    | .error e => (fields, some e)
    | .ok fs =>
      match fs.parse parseInt args with
      | .error e => (fields, some (.parse e))
      | .ok (fs, rest) => unmarshalFlags parseInt fs rest fields

variable {parseInt} {field f g : FlagField} {info : FlagInfo} {fs fs' : FlagSet}
  {fields fields' : List FlagField}

theorem parseOption_error (h : parseOption parseInt field info part = .error e) :
    ∃ te, e = .tag field.name te := by
  simp only [parseOption] at h
  split at h
  · cases h
  · split at h
    · split at h
      · cases h
        exact ⟨_, rfl⟩
      · split at h
        · cases h
          exact ⟨_, rfl⟩
        · cases h
    · split at h
      · split at h
        · cases h
          exact ⟨_, rfl⟩
        · cases h
      · split at h
        · cases h
          exact ⟨_, rfl⟩
        · cases h

theorem parseOptions_error (h : parseOptions parseInt field info parts = .error e) :
    ∃ te, e = .tag field.name te := by
  induction parts generalizing info with
  | nil => cases h
  | cons part parts ih =>
    rw [parseOptions] at h
    split at h
    · rename_i hpart
      cases h
      exact parseOption_error hpart
    · exact ih h

theorem parseFlagInfo_error (h : parseFlagInfo parseInt field tag = .error e) :
    ∃ te, e = .tag field.name te := parseOptions_error h

theorem flagInfo_of_ok (htag : field.tag = some tag)
    (h : parseFlagInfo parseInt field tag = .ok info) : flagInfo parseInt field = some info := by
  rw [flagInfo, htag, Option.bind_some, h]
  rfl

theorem flagInfo_of_error (htag : field.tag = some tag)
    (h : parseFlagInfo parseInt field tag = .error e) : flagInfo parseInt field = none := by
  rw [flagInfo, htag, Option.bind_some, h]
  rfl

theorem exists_of_flagInfo (h : flagInfo parseInt field = some info) :
    ∃ tag, field.tag = some tag ∧ parseFlagInfo parseInt field tag = .ok info := by
  obtain ⟨tag, htag, hinfo⟩ := Option.bind_eq_some_iff.1 h
  refine ⟨tag, htag, ?_⟩
  cases hparse : parseFlagInfo parseInt field tag with
  | error e =>
    rw [hparse] at hinfo
    cases hinfo
  | ok info' =>
    rw [hparse] at hinfo
    cases hinfo
    rfl

def fieldFlag (parseInt : Nat → List UInt8 → Option Int) (field : FlagField) : Option Flag :=
  if field.exported then
    (flagInfo parseInt field).map fun info =>
      { name := info.name, value := info.initial field.value.kind }
  else none

inductive Defines (fs : FlagSet) (flag : Flag) : Except FlagError FlagSet → Prop where
  | badName : ¬ ValidName flag.name → Defines fs flag (.error (.badName flag.name))
  | redefined : fs.get flag.name = some flag' → Defines fs flag (.error (.redefined flag.name))
  | new : fs.get flag.name = none → Defines fs flag (.ok (fs.insert flag))

theorem define_defines (fs : FlagSet) (flag : Flag) : Defines fs flag (define fs flag) := by
  unfold define
  split
  · exact .badName ‹_›
  · cases hget : fs.get flag.name with
    | none => exact .new hget
    | some flag' => exact .redefined hget

inductive Extracts (parseInt : Nat → List UInt8 → Option Int) (fs : FlagSet) (field : FlagField) :
    Except FlagError FlagSet → Prop where
  | skip : fieldFlag parseInt field = none → Extracts parseInt fs field (.ok fs)
  | badTag : flagInfo parseInt field = none →
      Extracts parseInt fs field (.error (.tag field.name te))
  | define : fieldFlag parseInt field = some flag → Defines fs flag r →
      Extracts parseInt fs field r

theorem extractField_extracts (fs : FlagSet) (field : FlagField) :
    Extracts parseInt fs field (extractField parseInt fs field) := by
  unfold extractField
  split
  · rename_i tag hexp htag
    cases hinfo : parseFlagInfo parseInt field tag with
    | error e =>
      obtain ⟨te, rfl⟩ := parseFlagInfo_error hinfo
      exact .badTag (flagInfo_of_error htag hinfo)
    | ok info =>
      have hflag : fieldFlag parseInt field =
          some { name := info.name, value := info.initial field.value.kind } := by
        rw [fieldFlag, if_pos hexp, flagInfo_of_ok htag hinfo, Option.map_some]
      exact .define hflag (define_defines _ _)
  · rename_i hnot
    apply Extracts.skip
    unfold fieldFlag
    split
    · rename_i hexp
      cases htag : field.tag with
      | none =>
        rw [flagInfo, htag]
        rfl
      | some tag => exact absurd htag (hnot tag hexp)
    · rfl

def flagNamed (parseInt : Nat → List UInt8 → Option Int) (name : List UInt8) (field : FlagField) :
    Option Flag :=
  (fieldFlag parseInt field).filter fun flag => flag.name = name

def flagKinds (parseInt : Nat → List UInt8 → Option Int) (fields : List FlagField)
    (name : List UInt8) : Option FlagKind :=
  (fields.findSome? (flagNamed parseInt name)).map fun flag => flag.value.kind

theorem flagNamed_of_flag {flag : Flag} (h : fieldFlag parseInt field = some flag)
    (name : List UInt8) :
    flagNamed parseInt name field = if flag.name = name then some flag else none := by
  rw [flagNamed, h]
  by_cases hn : flag.name = name
  · rw [if_pos hn]
    exact Option.filter_some_pos (decide_eq_true hn)
  · rw [if_neg hn]
    exact Option.filter_some_neg (by simpa using hn)

theorem findSome?_skip (h : fieldFlag parseInt field = none) (name : List UInt8) :
    (field :: fields).findSome? (flagNamed parseInt name) =
      fields.findSome? (flagNamed parseInt name) := by
  have hnone : flagNamed parseInt name field = none := by
    rw [flagNamed, h]
    rfl
  rw [List.findSome?_cons, hnone]

theorem extractFlags_get (h : extractFlags parseInt fs fields = .ok fs') (name : List UInt8) :
    fs'.get name = (fs.get name).or (fields.findSome? (flagNamed parseInt name)) := by
  induction fields generalizing fs with
  | nil =>
    cases h
    exact Option.or_none.symm
  | cons field fields ih =>
    rw [extractFlags] at h
    have hext : Extracts parseInt fs field _ := extractField_extracts fs field
    generalize extractField parseInt fs field = r at h hext
    cases hext with
    | skip hnone =>
      rw [findSome?_skip hnone]
      exact ih h
    | badTag => cases h
    | define hflag hdef =>
      cases hdef with
      | badName | redefined => cases h
      | new hget =>
        rw [ih h, Keyed.get_insert, List.findSome?_cons, flagNamed_of_flag hflag]
        split
        · rename_i hname
          rw [← hname, hget]
          rfl
        · rfl

theorem extractFlags_kindOf (h : extractFlags parseInt .empty fields = .ok fs) :
    fs.kindOf = flagKinds parseInt fields := by
  funext name
  rw [FlagSet.kindOf, extractFlags_get h, flagKinds]
  rfl

def DistinctFlags (parseInt : Nat → List UInt8 → Option Int) (fields : List FlagField) : Prop :=
  fields.Pairwise fun f g => ∀ info ∈ flagInfo parseInt f, ∀ info' ∈ flagInfo parseInt g,
    info.name ≠ info'.name

instance : Decidable (DistinctFlags parseInt fields) :=
  inferInstanceAs (Decidable (fields.Pairwise _))

theorem DistinctFlags.eq {info' : FlagInfo} (h : DistinctFlags parseInt fields) (hf : f ∈ fields)
    (hg : g ∈ fields) (hinfo : flagInfo parseInt f = some info)
    (hinfo' : flagInfo parseInt g = some info') (hname : info.name = info'.name) : f = g := by
  by_contra hne
  have hsymm : Std.Symm fun f g : FlagField => ∀ info ∈ flagInfo parseInt f,
      ∀ info' ∈ flagInfo parseInt g, info.name ≠ info'.name :=
    ⟨fun f g hfg info hi info' hi' => Ne.symm (hfg info' hi' info hi)⟩
  exact h.forall hf hg hne info hinfo info' hinfo' hname

theorem exists_of_fieldFlag {flag : Flag} (h : fieldFlag parseInt field = some flag) :
    ∃ info, flagInfo parseInt field = some info ∧
      flag = { name := info.name, value := info.initial field.value.kind } := by
  unfold fieldFlag at h
  split at h
  · obtain ⟨info, hinfo, rfl⟩ := Option.map_eq_some_iff.1 h
    exact ⟨info, hinfo, rfl⟩
  · cases h

theorem findSome?_flag (hd : DistinctFlags parseInt fields) (hf : f ∈ fields)
    (hexp : f.exported = true) (hinfo : flagInfo parseInt f = some info) :
    fields.findSome? (flagNamed parseInt info.name) =
      some { name := info.name, value := info.initial f.value.kind } := by
  have hflag : fieldFlag parseInt f =
      some { name := info.name, value := info.initial f.value.kind } := by
    rw [fieldFlag, if_pos hexp, hinfo, Option.map_some]
  cases hfind : fields.findSome? (flagNamed parseInt info.name) with
  | none =>
    have hnone := List.findSome?_eq_none_iff.1 hfind f hf
    rw [flagNamed_of_flag hflag, if_pos rfl] at hnone
    cases hnone
  | some flag =>
    obtain ⟨g, hg, hnamed⟩ := List.exists_of_findSome?_eq_some hfind
    obtain ⟨hg', hname⟩ := Option.filter_eq_some_iff.1 hnamed
    obtain ⟨info', hinfo', rfl⟩ := exists_of_fieldFlag hg'
    have heq : f = g := hd.eq hf hg hinfo hinfo' (of_decide_eq_true hname).symm
    subst heq
    rw [hflag] at hg'
    exact hg'.symm

theorem extractFlags_error (hd : DistinctFlags parseInt fields)
    (hnew : ∀ g ∈ fields, ∀ info, flagInfo parseInt g = some info → fs.get info.name = none)
    (h : extractFlags parseInt fs fields = .error e) :
    ∃ g ∈ fields, (flagInfo parseInt g = none ∧ ∃ te, e = .tag g.name te) ∨
      ∃ name, e = .badName name ∧ ¬ ValidName name := by
  induction fields generalizing fs with
  | nil => cases h
  | cons field fields ih =>
    obtain ⟨hfirst, hrest⟩ := List.pairwise_cons.1 hd
    have hnew' : ∀ g ∈ fields, ∀ info, flagInfo parseInt g = some info →
        fs.get info.name = none := fun g hg => hnew g (List.mem_cons_of_mem field hg)
    rw [extractFlags] at h
    have hext : Extracts parseInt fs field _ := extractField_extracts fs field
    generalize extractField parseInt fs field = r at h hext
    cases hext with
    | skip =>
      obtain ⟨g, hg, he⟩ := ih hrest hnew' h
      exact ⟨g, List.mem_cons_of_mem field hg, he⟩
    | badTag hinfo =>
      cases h
      exact ⟨field, List.mem_cons_self, .inl ⟨hinfo, _, rfl⟩⟩
    | define hflag hdef =>
      obtain ⟨info, hinfo, rfl⟩ := exists_of_fieldFlag hflag
      cases hdef with
      | badName hbad =>
        cases h
        exact ⟨field, List.mem_cons_self, .inr ⟨_, rfl, hbad⟩⟩
      | redefined hget =>
        rw [hnew field List.mem_cons_self info hinfo] at hget
        cases hget
      | new =>
        obtain ⟨g, hg, he⟩ := ih hrest (by
          intro g hg info' hinfo'
          rw [Keyed.get_insert, if_neg (hfirst g hg info hinfo info' hinfo')]
          exact hnew' g hg info' hinfo') h
        exact ⟨g, List.mem_cons_of_mem field hg, he⟩

def FlagError.OnAccountOf (field name : List UInt8) : FlagError → Prop
  | .tag f _ => f = field
  | .badName n | .redefined n => n = name
  | .parse e => e.About name
  | .required n => n = name
  | .positional _ => False
  | .unexported f => f = field
  | .unspecified _ => False

inductive FieldError (parseInt : Nat → List UInt8 → Option Int) (field : FlagField) :
    FlagError → Prop where
  | tag : flagInfo parseInt field = none → FieldError parseInt field (.tag field.name te)
  | positional : FieldError parseInt field (.positional position)
  | required (info : FlagInfo) : flagInfo parseInt field = some info →
      FieldError parseInt field (.required info.name)
  | unexported : field.exported = false → FieldError parseInt field (.unexported field.name)

theorem assignField_error (hinfo : flagInfo parseInt field = some info)
    (h : assignField field info val = .error e) : FieldError parseInt field e := by
  unfold assignField at h
  split at h
  · cases h
    exact .required info hinfo
  · split at h
    · cases h
    · split at h
      · cases h
      · split at h
        · cases h
        · cases h
          exact .unexported ((Bool.not_eq_true _).mp ‹_›)

theorem fieldValue_error (hinfo : flagInfo parseInt field = some info)
    (h : fieldValue parseInt fs args kind info = .error e) : FieldError parseInt field e := by
  unfold fieldValue at h
  split at h
  · split at h
    · cases h
    · split at h
      · cases h
        exact .positional
      · cases h
  · split at h
    · split at h
      · cases h
        exact .required info hinfo
      · cases h
    · cases h

theorem unmarshalField_error (h : unmarshalField parseInt fs args field = .error e) :
    FieldError parseInt field e := by
  unfold unmarshalField at h
  split at h
  · cases h
  · rename_i tag htag
    split at h
    · rename_i hparse
      cases h
      obtain ⟨te, rfl⟩ := parseFlagInfo_error hparse
      exact .tag (flagInfo_of_error htag hparse)
    · rename_i info hparse
      have hinfo := flagInfo_of_ok htag hparse
      split at h
      · rename_i hvalue
        cases h
        exact fieldValue_error hinfo hvalue
      · exact assignField_error hinfo h

theorem unmarshalFields_error (h : (unmarshalFields parseInt fs args fields).2 = some e) :
    ∃ g ∈ fields, unmarshalField parseInt fs args g = .error e := by
  induction fields with
  | nil => cases h
  | cons field fields ih =>
    rw [unmarshalFields] at h
    split at h
    · rename_i hfield
      cases h
      exact ⟨field, List.mem_cons_self, hfield⟩
    · obtain ⟨g, hg, he⟩ := ih h
      exact ⟨g, List.mem_cons_of_mem field hg, he⟩

theorem unmarshalFields_ok {i : Nat} (h : (unmarshalFields parseInt fs args fields).2 = none)
    (hf : fields[i]? = some f) :
    ∃ f', unmarshalField parseInt fs args f = .ok f' ∧
      (unmarshalFields parseInt fs args fields).1[i]? = some f' := by
  induction fields generalizing i with
  | nil => cases hf
  | cons field fields ih =>
    rw [unmarshalFields] at h ⊢
    split at h
    · cases h
    · rename_i field' hfield
      cases i with
      | zero =>
        cases hf
        exact ⟨field', hfield, rfl⟩
      | succ i => exact ih h hf

theorem unmarshalField_named {value : FlagValue} (hexp : f.exported = true)
    (hinfo : flagInfo parseInt f = some info) (hnamed : info.position = none)
    (hget : fs.get info.name = some { name := info.name, value }) :
    unmarshalField parseInt fs args f =
      if info.required && value.isZero then .error (.required info.name)
      else if !info.defaultSet && value.isZero then .ok f
      else .ok { f with value } := by
  obtain ⟨tag, htag, hparse⟩ := exists_of_flagInfo hinfo
  simp only [unmarshalField, htag, hparse, fieldValue, hnamed, hget, assignField, Option.all_some,
    hexp, if_true]

/-- `UnmarshalFlags` does what an explicit value asks for. -/
def Honours (f : FlagField) (info : FlagInfo) (value : FlagValue) : Prop :=
  value.isZero = false ∨ info.required = false ∧ (info.defaultSet = true ∨ f.value = value)

theorem unmarshalField_honours {value : FlagValue} (hexp : f.exported = true)
    (hinfo : flagInfo parseInt f = some info) (hnamed : info.position = none)
    (hget : fs.get info.name = some { name := info.name, value }) (args : List (List UInt8)) :
    (∀ e, unmarshalField parseInt fs args f = .error e → ¬ Honours f info value) ∧
    ∀ f', unmarshalField parseInt fs args f = .ok f' →
      (f'.value = value ↔ Honours f info value) := by
  rw [unmarshalField_named hexp hinfo hnamed hget, Honours]
  cases info.required <;> cases info.defaultSet <;> cases value.isZero <;> simp

theorem unmarshalFlags_error (h : (unmarshalFlags parseInt fs args fields).2 = some e) :
    (unmarshalFields parseInt fs args fields).2 = some e ∨ ∃ left, e = .unspecified left := by
  unfold unmarshalFlags at h
  split at h
  · rename_i hfields
    rw [hfields]
    exact .inl h
  · simp only at h
    split at h
    · cases h
    · cases h
      exact .inr ⟨_, rfl⟩

theorem unmarshalFlags_ok (h : (unmarshalFlags parseInt fs args fields).2 = none) :
    unmarshalFields parseInt fs args fields =
      ((unmarshalFlags parseInt fs args fields).1, none) := by
  unfold unmarshalFlags at h ⊢
  split at h
  · cases h
  · rename_i hfields
    rw [hfields]
    simp only at h ⊢
    split at h
    · simp_all
    · cases h

theorem FlagStruct.eq_of_name (s : FlagStruct) (hf : f ∈ s.fields) (hg : g ∈ s.fields)
    (h : g.name = f.name) : g = f :=
  List.inj_on_of_nodup_map s.distinct hg hf h

theorem fieldError_onAccountOf {s : FlagStruct} (hd : DistinctFlags parseInt s.fields)
    (hf : f ∈ s.fields) (hinfo : flagInfo parseInt f = some info)
    (hg : g ∈ s.fields) (h : FieldError parseInt g e) (he : e.OnAccountOf f.name info.name) :
    g = f := by
  cases h with
  | tag _ | unexported _ => exact s.eq_of_name hf hg he
  | positional => cases he
  | required info' hinfo' => exact hd.eq hg hf hinfo' hinfo he

theorem extractFlags_not_onAccountOf {s : FlagStruct} (hd : DistinctFlags parseInt s.fields)
    (hf : f ∈ s.fields) (hinfo : flagInfo parseInt f = some info) (hvalid : ValidName info.name)
    (h : extractFlags parseInt .empty s.fields = .error e) :
    ¬ e.OnAccountOf f.name info.name := by
  intro he
  obtain ⟨g, hg, ⟨hnone, te, rfl⟩ | ⟨name, rfl, hbad⟩⟩ :=
    extractFlags_error hd (fun _ _ _ _ => rfl) h
  · rw [s.eq_of_name hf hg he, hinfo] at hnone
    cases hnone
  · exact absurd (he ▸ hvalid) hbad

theorem extractFlags_flag (hd : DistinctFlags parseInt fields) (hf : f ∈ fields)
    (hexp : f.exported = true) (hinfo : flagInfo parseInt f = some info)
    (h : extractFlags parseInt .empty fields = .ok fs) :
    ∃ value, fs.get info.name = some { name := info.name, value } ∧ value.kind = f.value.kind := by
  refine ⟨info.initial f.value.kind, ?_, ?_⟩
  · rw [extractFlags_get h, findSome?_flag hd hf hexp hinfo]
    rfl
  · cases f.value <;> rfl

/-- If the values for a flag can be read, the field gets the last of them in the cases of
`Honours`, and not in the others. -/
theorem explicit_flag_iff {s : FlagStruct} {values : List FlagValue} {value : FlagValue} {i : Nat}
    (hd : DistinctFlags parseInt s.fields) (hf : s.fields[i]? = some f)
    (hexp : f.exported = true) (hinfo : flagInfo parseInt f = some info)
    (hnamed : info.position = none) (prog : List UInt8) (args : List (List UInt8))
    (hreads : Reads parseInt f.value.kind
      (given (flagKinds parseInt s.fields) info.name args) values)
    (hlast : values.getLast? = some value) :
    (∀ e, (parseFlags parseInt (prog :: args) s.fields).2 = some e →
      e.OnAccountOf f.name info.name → ¬ Honours f info value) ∧
    ((parseFlags parseInt (prog :: args) s.fields).2 = none →
      ((parseFlags parseInt (prog :: args) s.fields).1[i]?.map FlagField.value = some value ↔
        Honours f info value)) := by
  have hmem : f ∈ s.fields := List.mem_of_getElem? hf
  unfold parseFlags
  simp only
  cases hextract : extractFlags parseInt .empty s.fields with
  | error e =>
    refine ⟨?_, nofun⟩
    rintro _ ⟨⟩ he
    have hgiven : given (flagKinds parseInt s.fields) info.name args ≠ [] := by
      intro hnil
      rw [hnil] at hreads
      rw [hreads.nil] at hlast
      cases hlast
    have hvalid := FlagSet.validName_of_given hgiven
    exact absurd he (extractFlags_not_onAccountOf hd hmem hinfo hvalid hextract)
  | ok fs =>
    obtain ⟨initial, hget, hkind⟩ := extractFlags_flag hd hmem hexp hinfo hextract
    rw [← extractFlags_kindOf hextract, ← hkind] at hreads
    obtain ⟨herror, hok⟩ := FlagSet.parse_given hget hreads
    simp only
    cases hparse : FlagSet.parse parseInt fs args with
    | error e =>
      refine ⟨?_, nofun⟩
      rintro _ ⟨⟩ he
      exact absurd he (herror e hparse)
    | ok r =>
      obtain ⟨fs', rest⟩ := r
      have hget' := hok fs' rest hparse
      rw [List.getLastD_eq_getLast?, hlast, Option.getD_some] at hget'
      obtain ⟨hrefused, hset⟩ := unmarshalField_honours hexp hinfo hnamed hget' rest
      constructor
      · intro e he hon
        rcases unmarshalFlags_error he with he | ⟨left, rfl⟩
        · obtain ⟨g, hg, hfail⟩ := unmarshalFields_error he
          have heq := fieldError_onAccountOf hd hmem hinfo hg (unmarshalField_error hfail) hon
          exact hrefused e (heq ▸ hfail)
        · cases hon
      · intro hnone
        have hfields := unmarshalFlags_ok hnone
        obtain ⟨f', hf', hat⟩ := unmarshalFields_ok (by rw [hfields]) hf
        rw [hfields] at hat
        rw [hat, Option.map_some, Option.some.injEq]
        exact hset f' hf'

end Model

def parseDigit (_ : Nat) (s : List UInt8) : Option Int :=
  ["0", "1", "2", "3"].findIdx? (fun d => goString d = s) |>.map Int.ofNat

/-- `-n 0` is honoured for a field with a default. -/
theorem explicit_flag_default :
    ∃ s : FlagStruct, DistinctFlags parseDigit s.fields ∧
      (parseFlags parseDigit (["cmd", "-n=2", "-v", "-n", "0"].map goString) s.fields).2 = none ∧
      (parseFlags parseDigit (["cmd", "-n=2", "-v", "-n", "0"].map goString) s.fields).1[0]?.map
        FlagField.value = some (.int 0) := by
  let n : FlagField := {
    name := goString "N", tag := some (goString "n,default=3"), value := .int 2 }
  let v : FlagField := { name := goString "V", tag := some (goString "v"), value := .bool false }
  let s : FlagStruct := ⟨[n, v], by decide +kernel⟩
  let info : FlagInfo := {
    name := goString "n", default := goString "3", defaultIfc := some (.int 3), defaultSet := true }
  have hd : DistinctFlags parseDigit s.fields := by decide +kernel
  have hinfo : flagInfo parseDigit n = some info := by decide +kernel
  have hreads : Reads parseDigit .int (given (flagKinds parseDigit s.fields) info.name
      (["-n=2", "-v", "-n", "0"].map goString)) [.int 2, .int 0] := by
    rw [Reads]
    decide +kernel
  have hok : (parseFlags parseDigit (["cmd", "-n=2", "-v", "-n", "0"].map goString) s.fields).2 =
      none := by decide +kernel
  have hvalue := (explicit_flag_iff (i := 0) (f := n) hd rfl rfl hinfo rfl (goString "cmd") _ hreads
    rfl).2 hok
  exact ⟨s, hd, hok, hvalue.2 (.inr ⟨rfl, .inl rfl⟩)⟩

/-- An explicit empty string for a required flag is refused, and explicit zero values do not replace
what the fields have. -/
theorem explicit_zero_ignored :
    ∃ s s' : FlagStruct, DistinctFlags parseDigit s.fields ∧ DistinctFlags parseDigit s'.fields ∧
      given (flagKinds parseDigit s.fields) (goString "name") [goString "-name="] = [some []] ∧
      (parseFlags parseDigit (["cmd", "-name="].map goString) s.fields).2 =
        some (.required (goString "name")) ∧
      s'.fields.map FlagField.value = [.string (goString "old"), .int 2, .bool true] ∧
      parseFlags parseDigit (["cmd", "-name=", "-n=0", "-v=false"].map goString) s'.fields =
        (s'.fields, none) := by
  refine ⟨
    ⟨[{ name := goString "Name", tag := some (goString "name,required"), value := .string [] }],
      ?_⟩, ⟨[
      { name := goString "Name", tag := some (goString "name"), value := .string (goString "old") },
      { name := goString "N", tag := some (goString "n"), value := .int 2 },
      { name := goString "V", tag := some (goString "v"), value := .bool true }], ?_⟩, ?_⟩
  all_goals decide +kernel

end Goutils.Utils
