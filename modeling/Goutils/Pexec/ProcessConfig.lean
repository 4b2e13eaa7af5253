import Goutils.Lib.JsonDocument

namespace Goutils.Pexec
open Lib Lib.Document
open Lib.Json (Decoding UnmarshalTypeError)
set_option autoImplicit true

/-- The systems that `managed_process_unix.go` is built for. -/
inductive GOOS where
  | linux
  | darwin
  deriving DecidableEq

inductive Signal where
  | SIGHUP
  | SIGINT
  | SIGQUIT
  | SIGABRT
  | SIGUSR1
  | SIGUSR2
  | SIGTERM
  | SIGKILL
  deriving DecidableEq

def Signal.string (os : GOOS) : Signal → String
  | .SIGHUP => "hangup"
  | .SIGINT => "interrupt"
  | .SIGQUIT => "quit"
  | .SIGABRT =>
    match os with
    | .linux => "aborted"
    | .darwin => "abort trap"
  | .SIGUSR1 => "user defined signal 1"
  | .SIGUSR2 => "user defined signal 2"
  | .SIGTERM => "terminated"
  | .SIGKILL => "killed"

inductive ConfigErr where
  | type (err : UnmarshalTypeError)
  | duration (text : List UInt8)
  | unknownName (sigStr : List UInt8)
  deriving DecidableEq

def signalNames : List (String × Signal) :=
  [("HUP", .SIGHUP), ("SIGHUP", .SIGHUP), ("hangup", .SIGHUP), ("1", .SIGHUP),
    ("INT", .SIGINT), ("SIGINT", .SIGINT), ("interrupt", .SIGINT), ("2", .SIGINT),
    ("QUIT", .SIGQUIT), ("SIGQUIT", .SIGQUIT), ("quit", .SIGQUIT), ("3", .SIGQUIT),
    ("ABRT", .SIGABRT), ("SIGABRT", .SIGABRT), ("aborted", .SIGABRT), ("abort", .SIGABRT),
    ("6", .SIGABRT), ("KILL", .SIGKILL), ("SIGKILL", .SIGKILL), ("killed", .SIGKILL),
    ("kill", .SIGKILL), ("9", .SIGKILL), ("TERM", .SIGTERM), ("SIGTERM", .SIGTERM),
    ("terminated", .SIGTERM), ("terminate", .SIGTERM), ("15", .SIGTERM)]

def parseSignal (sigStr : List UInt8) : Except ConfigErr (Option Signal) :=
  if sigStr = [] then .ok none
  else match signalNames.find? fun name => goString name.1 = sigStr with
    | some name => .ok (some name.2)
    | none => .error (.unknownName sigStr)

/-- `time.Duration`'s `String`, and `time.ParseDuration`, which undoes it. -/
structure DurationText where
  string : Int → String
  parse : List UInt8 → Option Int
  parse_string : ∀ d, parse (goString (string d)) = some d
  parse_nil : parse [] = none

/-- `ProcessConfig` without a writer and a function. Strings are of any bytes. -/
structure ProcessConfig where
  id : List UInt8 := []
  name : List UInt8 := []
  args : Option (List (List UInt8)) := none
  cwd : List UInt8 := []
  oneShot : Bool := false
  username : List UInt8 := []
  environment : Option StringMap := none
  log : Bool := false
  stopSignal : Option Signal := none
  stopTimeout : Int := 0
  deriving DecidableEq

structure ConfigData where
  id : List UInt8 := []
  name : List UInt8 := []
  args : Option (List (List UInt8)) := none
  cwd : List UInt8 := []
  oneShot : Bool := false
  username : List UInt8 := []
  environment : Option StringMap := none
  log : Bool := false
  stopSignal : List UInt8 := []
  stopTimeout : List UInt8 := []

namespace ConfigData

def omitEmpty (key : String) (s : List UInt8) : List (String × Document) :=
  if s = [] then [] else [(key, .ofString s)]

def toDocument (temp : ConfigData) : Document :=
  .object (("id", .ofString temp.id) :: ("name", .ofString temp.name) ::
    ("args", .ofStrings temp.args) :: ("cwd", .ofString temp.cwd) ::
    ("one_shot", .bool temp.oneShot) :: ("username", .ofString temp.username) ::
    ("env", .ofStringMap temp.environment) :: ("log", .bool temp.log) ::
    (omitEmpty "stop_signal" temp.stopSignal ++ omitEmpty "stop_timeout" temp.stopTimeout))

def fields : List String :=
  ["id", "name", "args", "cwd", "one_shot", "username", "env", "log", "stop_signal",
    "stop_timeout"]

def intoField (field : String) : Document → Decoding ConfigData → Decoding ConfigData :=
  match field with
  | "id" => intoPart ConfigData.id (fun x s => { s with id := x }) intoString
  | "name" => intoPart ConfigData.name (fun x s => { s with name := x }) intoString
  | "args" => intoPart ConfigData.args (fun x s => { s with args := x }) intoStrings
  | "cwd" => intoPart ConfigData.cwd (fun x s => { s with cwd := x }) intoString
  | "one_shot" => intoPart ConfigData.oneShot (fun x s => { s with oneShot := x }) intoBool
  | "username" => intoPart ConfigData.username (fun x s => { s with username := x }) intoString
  | "env" =>
    intoPart ConfigData.environment (fun x s => { s with environment := x }) intoStringMap
  | "log" => intoPart ConfigData.log (fun x s => { s with log := x }) intoBool
  | "stop_signal" =>
    intoPart ConfigData.stopSignal (fun x s => { s with stopSignal := x }) intoString
  | "stop_timeout" =>
    intoPart ConfigData.stopTimeout (fun x s => { s with stopTimeout := x }) intoString
  | _ => fun _ s => s

def ofDocument : Document → Decoding ConfigData
  | .null => ({}, none)
  | .object members => intoStruct fields intoField members ({}, none)
  | v => Json.saveError v.kind "pexec.configData" ({}, none)

end ConfigData

namespace ProcessConfig

def marshalJSON (t : DurationText) (os : GOOS) (config : ProcessConfig) : Document :=
  ConfigData.toDocument {
    id := config.id
    name := config.name
    args := config.args
    cwd := config.cwd
    oneShot := config.oneShot
    username := config.username
    environment := config.environment
    log := config.log
    stopSignal := goString (match config.stopSignal with
      | none => ""
      | some sig => sig.string os)
    stopTimeout := goString (t.string config.stopTimeout) }

def parseTimeout (t : DurationText) (text : List UInt8) : Except ConfigErr Int :=
  if text = [] then .ok 0
  else match t.parse text with
    | none => .error (.duration text)
    | some d => .ok d

def unmarshalJSON (t : DurationText) (data : Document) : Except ConfigErr ProcessConfig :=
  match ConfigData.ofDocument data with
  | (_, some err) => .error (.type err)
  | (temp, none) => do
    let stopTimeout ← parseTimeout t temp.stopTimeout
    let stopSignal ← parseSignal temp.stopSignal
    pure {
      id := temp.id
      name := temp.name
      args := temp.args
      cwd := temp.cwd
      oneShot := temp.oneShot
      username := temp.username
      environment := temp.environment
      log := temp.log
      stopSignal
      stopTimeout }

def SameMap : Option StringMap → Option StringMap → Prop
  | none, none => True
  | some m, some m' => m.list.Perm m'.list
  | _, _ => False

def Equals (config other : ProcessConfig) : Prop :=
  { config with environment := none } = { other with environment := none } ∧
    SameMap config.environment other.environment

structure AllUtf8 (config : ProcessConfig) : Prop where
  id : Utf8.Valid config.id
  name : Utf8.Valid config.name
  args : ∀ l, config.args = some l → ∀ s ∈ l, Utf8.Valid s
  cwd : Utf8.Valid config.cwd
  username : Utf8.Valid config.username
  environment : ∀ m, config.environment = some m → ValidMap m

end ProcessConfig

namespace ConfigData

def readBack (temp : ConfigData) : ConfigData where
  id := sanitize temp.id
  name := sanitize temp.name
  args := temp.args.map (List.map sanitize)
  cwd := sanitize temp.cwd
  oneShot := temp.oneShot
  username := sanitize temp.username
  environment := temp.environment.map Document.readBack
  log := temp.log
  stopSignal := sanitize temp.stopSignal
  stopTimeout := sanitize temp.stopTimeout

theorem intoStruct_omitEmpty {key : String} {x : List UInt8} {rest : List (String × Document)}
    {get : ConfigData → List UInt8} {set : List UInt8 → ConfigData → ConfigData} {s : ConfigData}
    (hkey : key ∈ fields) (hfield : intoField key = intoPart get set intoString)
    (hset : set [] s = s) :
    intoStruct fields intoField (omitEmpty key x ++ rest) (s, none) =
      intoStruct fields intoField rest (set (sanitize x) s, none) := by
  unfold omitEmpty
  split
  · rename_i hx
    have hnil : sanitize [] = [] := rfl
    rw [hx, hnil, hset, List.nil_append]
  · rw [List.singleton_append, intoStruct_cons hkey, hfield, intoPart, intoString_ofString]

theorem ofDocument_toDocument (temp : ConfigData) :
    ofDocument temp.toDocument = (temp.readBack, none) := by
  have hsignal : intoField "stop_signal" =
    intoPart ConfigData.stopSignal (fun x s => { s with stopSignal := x }) intoString := rfl
  have htimeout : intoField "stop_timeout" =
    intoPart ConfigData.stopTimeout (fun x s => { s with stopTimeout := x }) intoString := rfl
  rw [toDocument, ofDocument]
  repeat rw [intoStruct_cons (by decide)]
  simp only [intoField, intoPart, intoString_ofString, intoStrings_ofStrings,
    intoStringMap_ofStringMap, intoBool]
  rw [intoStruct_omitEmpty (by decide) hsignal rfl,
    ← List.append_nil (omitEmpty "stop_timeout" _),
    intoStruct_omitEmpty (by decide) htimeout rfl]
  rfl

end ConfigData

def Signal.Accepted (os : GOOS) (sig : Signal) : Prop :=
  sig ≠ .SIGUSR1 ∧ sig ≠ .SIGUSR2 ∧ ¬ (os = .darwin ∧ sig = .SIGABRT)

instance : DecidablePred (Signal.Accepted os) := fun _ => inferInstanceAs (Decidable (_ ∧ _))

theorem parseSignal_string (os : GOOS) (sig : Signal) :
    parseSignal (goString (sig.string os)) =
      if sig.Accepted os then .ok (some sig)
      else .error (.unknownName (goString (sig.string os))) := by
  cases os <;> cases sig <;> decide +kernel

theorem sanitize_goString (s : String) : sanitize (goString s) = goString s :=
  sanitize_eq_iff.2 ⟨s.toList, rfl⟩

theorem args_readBack_iff {args : Option (List (List UInt8))} :
    args.map (List.map sanitize) = args ↔ ∀ l, args = some l → ∀ s ∈ l, Utf8.Valid s := by
  cases args with
  | none => exact iff_of_true rfl nofun
  | some l =>
    rw [Option.map_some, Option.some.injEq]
    constructor
    · rintro h _ ⟨⟩ s hs
      rw [← h] at hs
      obtain ⟨s', _, rfl⟩ := List.mem_map.1 hs
      exact valid_sanitize s'
    · intro h
      have hvalid : ∀ s ∈ l, sanitize s = id s := fun s hs => sanitize_eq_iff.2 (h l rfl s hs)
      rw [List.map_congr_left hvalid, List.map_id]

namespace ProcessConfig

theorem parseTimeout_string (t : DurationText) (d : Int) :
    parseTimeout t (goString (t.string d)) = .ok d := by
  have hne : goString (t.string d) ≠ [] := by
    intro hnil
    have hparse := t.parse_string d
    rw [hnil, t.parse_nil] at hparse
    cases hparse
  rw [parseTimeout, if_neg hne, t.parse_string]

def readBack (config : ProcessConfig) : ProcessConfig :=
  { config with
    id := sanitize config.id
    name := sanitize config.name
    args := config.args.map (List.map sanitize)
    cwd := sanitize config.cwd
    username := sanitize config.username
    environment := config.environment.map Document.readBack }

theorem unmarshalJSON_of_marshalJSON (t : DurationText) (os : GOOS) (config : ProcessConfig) :
    unmarshalJSON t (config.marshalJSON t os) =
      match config.stopSignal with
      | none => .ok config.readBack
      | some sig =>
        if sig.Accepted os then .ok config.readBack
        else .error (.unknownName (goString (sig.string os))) := by
  rw [unmarshalJSON, marshalJSON, ConfigData.ofDocument_toDocument]
  simp only [ConfigData.readBack, sanitize_goString, parseTimeout_string]
  obtain ⟨id, name, args, cwd, oneShot, username, environment, log, stopSignal, stopTimeout⟩ :=
    config
  cases stopSignal with
  | none => rfl
  | some sig =>
    simp only [parseSignal_string]
    split
    · rfl
    · rfl

theorem environment_readBack_iff {environment : Option StringMap} :
    SameMap (environment.map Document.readBack) environment ↔
      ∀ m, environment = some m → ValidMap m := by
  cases environment with
  | none => exact iff_of_true trivial nofun
  | some m =>
    rw [Option.map_some, SameMap, readBack_perm_iff]
    constructor
    · rintro h _ ⟨⟩
      exact h
    · exact fun h => h m rfl

theorem equals_readBack_iff {config : ProcessConfig} :
    config.readBack.Equals config ↔ config.AllUtf8 := by
  obtain ⟨id, name, args, cwd, oneShot, username, environment, log, stopSignal, stopTimeout⟩ :=
    config
  simp only [Equals, readBack, ProcessConfig.mk.injEq, sanitize_eq_iff, args_readBack_iff,
    environment_readBack_iff, true_and, and_true]
  constructor
  · rintro ⟨⟨hid, hname, hargs, hcwd, husername⟩, henv⟩
    exact ⟨hid, hname, hargs, hcwd, husername, henv⟩
  · rintro ⟨hid, hname, hargs, hcwd, husername, henv⟩
    exact ⟨⟨hid, hname, hargs, hcwd, husername⟩, henv⟩

end ProcessConfig

/-- A config is read back equal just if all strings are UTF-8 and `parseSignal` knows the text of
the stop signal. -/
theorem config_round_trip_iff (t : DurationText) (os : GOOS) (config : ProcessConfig) :
    (∃ config', ProcessConfig.unmarshalJSON t (config.marshalJSON t os) = .ok config' ∧
        config'.Equals config) ↔
      config.AllUtf8 ∧ ∀ sig, config.stopSignal = some sig →
        sig ≠ .SIGUSR1 ∧ sig ≠ .SIGUSR2 ∧ ¬ (os = .darwin ∧ sig = .SIGABRT) := by
  have hread : (∃ config', Except.ok config.readBack = (.ok config' : Except ConfigErr _) ∧
      config'.Equals config) ↔ config.AllUtf8 := by
    rw [← ProcessConfig.equals_readBack_iff]
    constructor
    · rintro ⟨_, ⟨⟩, h⟩
      exact h
    · exact fun h => ⟨_, rfl, h⟩
  rw [ProcessConfig.unmarshalJSON_of_marshalJSON]
  cases hsig : config.stopSignal with
  | none => simp only [hread, reduceCtorEq, false_imp_iff, implies_true, and_true]
  | some sig =>
    simp only [Option.some.injEq, forall_eq']
    by_cases ha : sig.Accepted os
    · rw [if_pos ha, hread]
      exact ⟨fun h => ⟨h, ha⟩, fun h => h.1⟩
    · rw [if_neg ha]
      constructor
      · rintro ⟨_, ⟨⟩, _⟩
      · exact fun h => absurd h.2 ha

def unaryDurations : DurationText where
  string d := String.ofList ((if 0 ≤ d then '+' else '-') :: List.replicate d.natAbs '1')
  parse text :=
    match Utf8.runes text with
    | [] => none
    | sign :: marks => some (if sign = '+' then marks.length else -marks.length)
  parse_string := by
    intro d
    simp only [goString, String.toList_ofList, Utf8.runes_encode, List.length_replicate]
    split
    · rw [if_pos rfl, Option.some.injEq]
      omega
    · rw [if_neg (by decide), Option.some.injEq]
      omega
  parse_nil := rfl

/-- The text of `SIGUSR1` is not one that `parseSignal` knows, and a string that is not UTF-8 comes
back as another. -/
theorem config_round_trip_fails :
    ∃ (t : DurationText) (a b : ProcessConfig),
      a.stopSignal = some .SIGUSR1 ∧
      ProcessConfig.unmarshalJSON t (a.marshalJSON t .linux) =
        .error (.unknownName (goString "user defined signal 1")) ∧
      b.id = [0xff] ∧
      (ProcessConfig.unmarshalJSON t (b.marshalJSON t .linux)).map ProcessConfig.id =
        .ok [0xef, 0xbf, 0xbd] := by
  refine ⟨unaryDurations, { stopSignal := some .SIGUSR1 }, { id := [0xff] }, rfl, ?_, rfl, ?_⟩
  · decide +kernel
  · decide +kernel

end Goutils.Pexec
