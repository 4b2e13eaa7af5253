import Goutils.Lib.Keyed
import Goutils.Lib.Utf8

namespace Lib
set_option autoImplicit true

inductive FlagKind where
  | string
  | int
  | bool

inductive FlagValue where
  | string (s : List UInt8)
  | int (i : Int)
  | bool (b : Bool)
  deriving DecidableEq

def parseBool (s : List UInt8) : Option Bool :=
  if s ∈ ["1", "t", "T", "TRUE", "true", "True"].map goString then some true
  else if s ∈ ["0", "f", "F", "FALSE", "false", "False"].map goString then some false
  else none

namespace FlagValue

def kind : FlagValue → FlagKind
  | .string _ => .string
  | .int _ => .int
  | .bool _ => .bool

def isZero : FlagValue → Bool
  | .string s => s.isEmpty
  | .int i => i == 0
  | .bool b => !b

/-- The value that a text stands for, if `strconv.ParseInt` reads numbers of a base by
`parseInt`. -/
def parse (parseInt : Nat → List UInt8 → Option Int) (base : Nat) :
    FlagKind → List UInt8 → Option FlagValue
  | .string, s => some (.string s)
  | .int, s => (parseInt base s).map .int
  | .bool, s => (parseBool s).map .bool

theorem kind_of_parse {k : FlagKind} (h : parse parseInt base k s = some v) : v.kind = k := by
  cases k with
  | string =>
    cases h
    rfl
  | int =>
    obtain ⟨i, _, rfl⟩ := Option.map_eq_some_iff.1 h
    rfl
  | bool =>
    obtain ⟨b, _, rfl⟩ := Option.map_eq_some_iff.1 h
    rfl

end FlagValue

structure Flag where
  name : List UInt8
  value : FlagValue

/-- A `flag.FlagSet` of Go by its formal flags. -/
abbrev FlagSet := Keyed Flag.name

namespace FlagSet

/-- How an argument is read: it ends the flags, or is a flag with a value in it. -/
inductive Arg where
  | positional
  | terminator
  | bad
  | flag (name : List UInt8) (value : Option (List UInt8))

def cut (sep : UInt8) : List UInt8 → List UInt8 × Option (List UInt8)
  | [] => ([], none)
  | c :: s => if c = sep then ([], some s) else (c :: (cut sep s).1, (cut sep s).2)

def lexFlag : List UInt8 → Arg
  | [] => .bad
  | c :: s =>
    if c = '-'.toUInt8 ∨ c = '='.toUInt8 then .bad
    else .flag (c :: (cut '='.toUInt8 s).1) (cut '='.toUInt8 s).2

def lexArg : List UInt8 → Arg
  | c :: d :: s =>
    if c ≠ '-'.toUInt8 then .positional
    else if d ≠ '-'.toUInt8 then lexFlag (d :: s)
    else if s = [] then .terminator
    else lexFlag s
  | _ => .positional

def ValidName (name : List UInt8) : Prop :=
  name.head? ≠ some '-'.toUInt8 ∧ '='.toUInt8 ∉ name

instance (name : List UInt8) : Decidable (ValidName name) := inferInstanceAs (Decidable (_ ∧ _))

def inlineValue : FlagKind → Option (List UInt8) → Option (List UInt8)
  | .bool, value => some (value.getD (goString "true"))
  | _, value => value

inductive ParseError where
  | help
  | badSyntax (arg : List UInt8)
  | notDefined (name : List UInt8)
  | invalidValue (name value : List UInt8)
  | needsArgument (name : List UInt8)
  deriving DecidableEq

section Parse
variable (parseInt : Nat → List UInt8 → Option Int)

def set (fs : FlagSet) (flag : Flag) (text : List UInt8) : Except ParseError FlagSet :=
  match FlagValue.parse parseInt 0 flag.value.kind text with
  | none => .error (.invalidValue flag.name text)
  | some value => .ok (fs.insert { flag with value })

def parse (fs : FlagSet) : List (List UInt8) → Except ParseError (FlagSet × List (List UInt8))
  | [] => .ok (fs, [])
  | s :: args =>
    match lexArg s with
    | .positional => .ok (fs, s :: args)
    | .terminator => .ok (fs, args)
    | .bad => .error (.badSyntax s)
    | .flag name value =>
      match fs.get name with
      | none =>
        .error (if name = goString "help" ∨ name = goString "h" then .help else .notDefined name)
      | some flag =>
        match inlineValue flag.value.kind value with
        | some text =>
          match set parseInt fs flag text with
          | .error e => .error e
          | .ok fs => parse fs args
        | none =>
          match args with
          | [] => .error (.needsArgument name)
          | text :: args =>
            match set parseInt fs flag text with
            | .error e => .error e
            | .ok fs => parse fs args

end Parse

/-- The flags that arguments give values to, in order; the last may lack its value. -/
def readArgs (kinds : List UInt8 → Option FlagKind) :
    List (List UInt8) → List (List UInt8 × Option (List UInt8))
  | [] => []
  | s :: args =>
    match lexArg s with
    | .flag name value =>
      match kinds name with
      | none => []
      | some kind =>
        match inlineValue kind value with
        | some text => (name, some text) :: readArgs kinds args
        | none =>
          match args with
          | [] => [(name, none)]
          | text :: args => (name, some text) :: readArgs kinds args
    | _ => []

def valuesOf (name : List UInt8) :
    List (List UInt8 × Option (List UInt8)) → List (Option (List UInt8))
  | [] => []
  | (n, text) :: l => if n = name then text :: valuesOf name l else valuesOf name l

def given (kinds : List UInt8 → Option FlagKind) (name : List UInt8) (args : List (List UInt8)) :
    List (Option (List UInt8)) :=
  valuesOf name (readArgs kinds args)

def kindOf (fs : FlagSet) (name : List UInt8) : Option FlagKind :=
  (fs.get name).map fun flag => flag.value.kind

theorem cut_fst_not_mem (sep : UInt8) (s : List UInt8) : sep ∉ (cut sep s).1 := by
  induction s with
  | nil => exact List.not_mem_nil
  | cons c s ih =>
    rw [cut]
    split
    · exact List.not_mem_nil
    · rename_i hne
      rw [List.mem_cons]
      rintro (rfl | hmem)
      · exact hne rfl
      · exact ih hmem

theorem validName_of_lexFlag (h : lexFlag s = .flag name value) : ValidName name := by
  cases s with
  | nil => cases h
  | cons c s =>
    rw [lexFlag] at h
    split at h
    · cases h
    · rename_i hc
      cases h
      rw [not_or] at hc
      refine ⟨?_, ?_⟩
      · rw [List.head?_cons]
        exact fun heq => hc.1 (Option.some.inj heq)
      · rw [List.mem_cons, not_or]
        exact ⟨Ne.symm hc.2, cut_fst_not_mem _ s⟩

/-- No argument can name a flag that `FlagSet.Var` panics for. -/
theorem validName_of_lexArg (h : lexArg s = .flag name value) : ValidName name := by
  unfold lexArg at h
  split at h
  · split at h
    · cases h
    · split at h
      · exact validName_of_lexFlag h
      · split at h
        · cases h
        · exact validName_of_lexFlag h
  · cases h

theorem validName_of_readArgs (h : (name, text) ∈ readArgs kinds args) : ValidName name := by
  fun_induction readArgs kinds args with
  | case1 | case2 s args n value hlex | case6 s args hlex => cases h
  | case3 s args n value hlex kind hkind text' hinline ih
  | case5 s n value hlex kind hkind hinline text' args ih =>
    rcases List.mem_cons.1 h with h | h
    · cases h
      exact validName_of_lexArg hlex
    · exact ih h
  | case4 s n value hlex kind hkind hinline =>
    cases List.mem_singleton.1 h
    exact validName_of_lexArg hlex

theorem exists_of_valuesOf {l : List (List UInt8 × Option (List UInt8))}
    (h : valuesOf name l ≠ []) : ∃ text, (name, text) ∈ l := by
  fun_induction valuesOf name l with
  | case1 => exact absurd rfl h
  | case2 text l => exact ⟨text, List.mem_cons_self⟩
  | case3 n text l hne ih =>
    obtain ⟨text', hmem⟩ := ih h
    exact ⟨text', List.mem_cons_of_mem _ hmem⟩

theorem validName_of_given (h : given kinds name args ≠ []) : ValidName name := by
  obtain ⟨text, hmem⟩ := exists_of_valuesOf h
  exact validName_of_readArgs hmem

section Parse
variable {parseInt : Nat → List UInt8 → Option Int} {fs fs' : FlagSet} {flag : Flag}

theorem set_eq_ok (h : set parseInt fs flag text = .ok fs') :
    ∃ value, FlagValue.parse parseInt 0 flag.value.kind text = some value ∧
      fs' = fs.insert { flag with value } := by
  unfold set at h
  split at h
  · cases h
  · rename_i value hvalue
    cases h
    exact ⟨value, hvalue, rfl⟩

theorem kindOf_of_set (hget : fs.get name = some flag) (h : set parseInt fs flag text = .ok fs') :
    fs'.kindOf = fs.kindOf := by
  obtain ⟨value, hvalue, rfl⟩ := set_eq_ok h
  funext n
  simp only [kindOf, Keyed.get_insert]
  split
  · rename_i hn
    have hkey := (Keyed.get_eq_some hget).2
    have hsame : n = name := hn.symm.trans hkey
    rw [hsame, hget, Option.map_some, Option.map_some, FlagValue.kind_of_parse hvalue]
  · rfl

def ParseError.About (name : List UInt8) : ParseError → Prop
  | .notDefined n | .invalidValue n _ | .needsArgument n => n = name
  | _ => False

def Reads (parseInt : Nat → List UInt8 → Option Int) (kind : FlagKind)
    (texts : List (Option (List UInt8))) (values : List FlagValue) : Prop :=
  texts.map (fun text => text.bind (FlagValue.parse parseInt 0 kind)) = values.map some

theorem Reads.cons {n : List UInt8} {texts : List (Option (List UInt8))}
    (h : Reads parseInt k (if n = name then text :: texts else texts) values) :
    n = name ∧ (∃ v vs, text.bind (FlagValue.parse parseInt 0 k) = some v ∧ values = v :: vs ∧
      Reads parseInt k texts vs) ∨ n ≠ name ∧ Reads parseInt k texts values := by
  split at h
  · rename_i hn
    refine .inl ⟨hn, ?_⟩
    unfold Reads at h
    cases values with
    | nil => cases h
    | cons v vs =>
      rw [List.map_cons, List.map_cons, List.cons.injEq] at h
      exact ⟨v, vs, h.1, rfl, h.2⟩
  · exact .inr ⟨‹_›, h⟩

theorem not_about_of_set {n : List UInt8} {g : Flag} {texts : List (Option (List UInt8))}
    (hg : fs.get n = some g) (hget : fs.get name = some flag)
    (hreads : Reads parseInt flag.value.kind
      (if n = name then some text :: texts else texts) values)
    (h : set parseInt fs g text = .error e) : ¬ e.About name := by
  obtain ⟨_, rfl⟩ := Keyed.get_eq_some hg
  unfold set at h
  split at h
  · rename_i hparse
    cases h
    rintro rfl
    rw [hg] at hget
    cases hget
    rcases hreads.cons with ⟨_, v, _, hv, _⟩ | ⟨hne, _⟩
    · rw [Option.bind_some, hparse] at hv
      cases hv
    · exact hne rfl
  · cases h

theorem reads_of_set {n : List UInt8} {g : Flag} {texts : List (Option (List UInt8))}
    (hg : fs.get n = some g) (hget : fs.get name = some flag)
    (hreads : Reads parseInt flag.value.kind
      (if n = name then some text :: texts else texts) values)
    (h : set parseInt fs g text = .ok fs') :
    ∃ value values', fs'.get name = some { flag with value } ∧
      Reads parseInt value.kind texts values' ∧
      values'.getLastD value = values.getLastD flag.value := by
  obtain ⟨_, rfl⟩ := Keyed.get_eq_some hg
  obtain ⟨value, hvalue, rfl⟩ := set_eq_ok h
  rw [Keyed.get_insert]
  rcases hreads.cons with ⟨rfl, v, vs, hv, rfl, hvs⟩ | ⟨hne, hreads⟩
  · rw [hg] at hget
    cases hget
    rw [Option.bind_some, hvalue] at hv
    cases hv
    refine ⟨value, vs, if_pos rfl, ?_, (List.getLastD_cons ..).symm⟩
    rw [FlagValue.kind_of_parse hvalue]
    exact hvs
  · exact ⟨flag.value, values, (if_neg hne).trans hget, hreads, rfl⟩

section Given
variable {kinds : List UInt8 → Option FlagKind} {s n : List UInt8} {args : List (List UInt8)}

theorem given_of_stop (h : ∀ n value, lexArg s ≠ .flag n value) :
    given kinds name (s :: args) = [] := by
  rw [given, readArgs]
  split
  · rename_i hlex
    exact absurd hlex (h _ _)
  · rfl

theorem given_inline (hlex : lexArg s = .flag n value) (hkind : kinds n = some k)
    (hinline : inlineValue k value = some text) :
    given kinds name (s :: args) =
      if n = name then some text :: given kinds name args else given kinds name args := by
  simp only [given, readArgs, hlex, hkind, hinline, valuesOf]

theorem given_next (hlex : lexArg s = .flag n value) (hkind : kinds n = some k)
    (hinline : inlineValue k value = none) :
    given kinds name (s :: text :: args) =
      if n = name then some text :: given kinds name args else given kinds name args := by
  simp only [given, readArgs, hlex, hkind, hinline, valuesOf]

theorem given_missing (hlex : lexArg s = .flag n value) (hkind : kinds n = some k)
    (hinline : inlineValue k value = none) :
    given kinds name [s] = if n = name then [none] else [] := by
  simp only [given, readArgs, hlex, hkind, hinline, valuesOf]

end Given

theorem kindOf_of_get (h : fs.get name = some flag) : fs.kindOf name = some flag.value.kind := by
  rw [kindOf, h, Option.map_some]

theorem Reads.nil (h : Reads parseInt k [] values) : values = [] :=
  List.map_eq_nil_iff.1 h.symm

theorem parse_stop (hget : fs.get name = some flag)
    (hreads : Reads parseInt flag.value.kind (given fs.kindOf name (s :: args)) values)
    (h : ∀ n value, lexArg s ≠ .flag n value) :
    fs.get name = some { flag with value := values.getLastD flag.value } := by
  rw [given_of_stop h] at hreads
  rw [hreads.nil]
  exact hget

/-- Parsing leaves each flag with the last value given; readable values cause no error. -/
theorem parse_given {args : List (List UInt8)} (hget : fs.get name = some flag)
    (hreads : Reads parseInt flag.value.kind (given fs.kindOf name args) values) :
    (∀ e, parse parseInt fs args = .error e → ¬ e.About name) ∧
    ∀ fs' rest, parse parseInt fs args = .ok (fs', rest) →
      fs'.get name = some { flag with value := values.getLastD flag.value } := by
  fun_induction parse parseInt fs args generalizing flag values with
  | case1 fs =>
    refine ⟨nofun, ?_⟩
    rintro _ _ ⟨⟩
    rw [show values = [] from hreads.nil]
    exact hget
  | case2 fs s args hlex | case3 fs s args hlex =>
    refine ⟨nofun, ?_⟩
    rintro _ _ ⟨⟩
    exact parse_stop hget hreads (by simp [hlex])
  | case4 fs s args hlex =>
    refine ⟨?_, nofun⟩
    rintro _ ⟨⟩
    exact id
  | case5 fs s args n value hlex hn =>
    refine ⟨?_, nofun⟩
    rintro _ ⟨⟩
    split
    · exact id
    · rintro rfl
      rw [hn] at hget
      cases hget
  | case6 fs s args n value hlex g hg text hinline e hset =>
    refine ⟨?_, nofun⟩
    rintro _ ⟨⟩
    rw [given_inline hlex (kindOf_of_get hg) hinline] at hreads
    exact not_about_of_set hg hget hreads hset
  | case7 fs s args n value hlex g hg text hinline fs₁ hset ih =>
    rw [given_inline hlex (kindOf_of_get hg) hinline] at hreads
    obtain ⟨v, vs, hget₁, hvs, hlast⟩ := reads_of_set hg hget hreads hset
    rw [← kindOf_of_set hg hset] at hvs
    rw [← hlast]
    exact ih hget₁ hvs
  | case8 fs s n value hlex g hg hinline =>
    refine ⟨?_, nofun⟩
    rintro _ ⟨⟩ rfl
    rw [given_missing hlex (kindOf_of_get hg) hinline, if_pos rfl] at hreads
    cases values with
    | nil => cases hreads
    | cons v vs => cases (List.cons.inj hreads).1
  | case9 fs s n value hlex g hg hinline text args e hset =>
    refine ⟨?_, nofun⟩
    rintro _ ⟨⟩
    rw [given_next hlex (kindOf_of_get hg) hinline] at hreads
    exact not_about_of_set hg hget hreads hset
  | case10 fs s n value hlex g hg hinline text args fs₁ hset ih =>
    rw [given_next hlex (kindOf_of_get hg) hinline] at hreads
    obtain ⟨v, vs, hget₁, hvs, hlast⟩ := reads_of_set hg hget hreads hset
    rw [← kindOf_of_set hg hset] at hvs
    rw [← hlast]
    exact ih hget₁ hvs

end Parse

end FlagSet

end Lib
