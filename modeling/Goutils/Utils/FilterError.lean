import Goutils.Lib.Strings
import Goutils.Lib.Utf8

namespace Goutils.Utils
open Lib
set_option autoImplicit true

/-- An error that is neither a multierr nor wraps another one, told from others of the same text by
its identity. -/
structure LeafError where
  id : Nat
  text : List UInt8
  comparable : Bool := true
  deriving DecidableEq

/-! The errors that leaves, `multierr` and wrapping give. What a multierr holds is flat: it has at
least two members, and none of them is a multierr. -/

mutual

/-- An error that is not a multierr. A wrapped one has its text in front. -/
inductive SingleError where
  | leaf (l : LeafError)
  | wrap (id : Nat) (before after : List UInt8) (err : GoError)
  deriving DecidableEq

inductive GoError where
  | single (e : SingleError)
  | multi (id : Nat) (first second : SingleError) (rest : ErrorList)
  deriving DecidableEq

inductive ErrorList where
  | nil
  | cons (e : SingleError) (rest : ErrorList)

end

mutual

def SingleError.text : SingleError → List UInt8
  | .leaf l => l.text
  | .wrap _ before after err => before ++ err.text ++ after

def GoError.text : GoError → List UInt8
  | .single e => e.text
  | .multi _ first second rest => first.text ++ (goString "; " ++ second.text ++ rest.text)

def ErrorList.text : ErrorList → List UInt8
  | .nil => []
  | .cons e rest => goString "; " ++ e.text ++ rest.text

end

def GoError.comparable : GoError → Bool
  | .single (.leaf l) => l.comparable
  | _ => true

section Is
-- The methods `Is` that the types of leaves may have.
variable (isMethod : LeafError → GoError → Bool) (target : GoError)

mutual

/-- `errors.Is`. -/
def SingleError.is : SingleError → Bool
  | .leaf l =>
    (target.comparable && decide (.single (.leaf l) = target)) || isMethod l target
  | .wrap id before after err =>
    (target.comparable && decide (.single (.wrap id before after err) = target)) || err.is

@[inherit_doc SingleError.is]
def GoError.is : GoError → Bool
  | .single e => e.is
  | .multi id first second rest =>
    (target.comparable && decide (.multi id first second rest = target)) ||
      (first.is || (second.is || rest.is))

def ErrorList.is : ErrorList → Bool
  | .nil => false
  | .cons e rest => e.is || rest.is

end

end Is

mutual

def SingleError.leaves : SingleError → List LeafError
  | .leaf l => [l]
  | .wrap _ _ _ err => err.leaves

def GoError.leaves : GoError → List LeafError
  | .single e => e.leaves
  | .multi _ first second rest => first.leaves ++ (second.leaves ++ rest.leaves)

def ErrorList.leaves : ErrorList → List LeafError
  | .nil => []
  | .cons e rest => e.leaves ++ rest.leaves

end

namespace ErrorList

def toList : ErrorList → List SingleError
  | .nil => []
  | .cons e rest => e :: rest.toList

def ofList : List SingleError → ErrorList
  | [] => .nil
  | e :: rest => .cons e (ofList rest)

@[simp] theorem toList_ofList (l : List SingleError) : (ofList l).toList = l := by
  induction l with
  | nil => rfl
  | cons e l ih => rw [ofList, toList, ih]

theorem leaves_eq (l : ErrorList) : l.leaves = l.toList.flatMap SingleError.leaves := by
  cases l with
  | nil => rfl
  | cons e rest => rw [leaves, toList, List.flatMap_cons, leaves_eq rest]

end ErrorList

namespace Multierr

def errors : Option GoError → List SingleError
  | none => []
  | some (.single e) => [e]
  | some (.multi _ first second rest) => first :: second :: rest.toList

def ofMembers (id : Nat) : List SingleError → Option GoError
  | [] => none
  | [e] => some (.single e)
  | first :: second :: rest => some (.multi id first second (.ofList rest))

def combine (id : Nat) (errs : List (Option GoError)) : Option GoError :=
  match errs.filterMap fun err => err with
  | [] => none
  | [err] => some err
  | errs => ofMembers id (errs.flatMap fun err => errors (some err))

theorem errors_ofMembers (id : Nat) (l : List SingleError) : errors (ofMembers id l) = l := by
  match l with
  | [] | [e] => rfl
  | first :: second :: rest => rw [ofMembers, errors, ErrorList.toList_ofList]

theorem combine_singles (id : Nat) (l : List SingleError) :
    combine id (l.map fun e => some (.single e)) = ofMembers id l := by
  have hmap : (l.map fun e => some (GoError.single e)).filterMap (fun err => err) =
      l.map .single := by
    rw [List.filterMap_map]
    exact List.filterMap_eq_map ▸ rfl
  rw [combine, hmap]
  match l with
  | [] | [e] => rfl
  | first :: second :: rest =>
    have hflat : ((first :: second :: rest).map GoError.single).flatMap
        (fun err => errors (some err)) = first :: second :: rest := by
      rw [List.flatMap_map]
      exact List.flatMap_singleton' _
    exact congrArg (ofMembers id) hflat

end Multierr

section Filter
variable (isMethod : LeafError → GoError → Bool)

def SingleError.filtered (target : GoError) (e : SingleError) : Bool :=
  e.is isMethod target || contains e.text target.text

def filterOutSingle (e : SingleError) (target : GoError) : Option GoError :=
  if e.filtered isMethod target then none else some (.single e)

/-- Members are no multierrs, so calls end in the first branch. `id` is the new identity. -/
def filterOutError (id : Nat) (err target : Option GoError) : Option GoError :=
  match err, target with
  | none, _ => none
  | some err, none => some err
  | some err, some target =>
    match Multierr.errors (some err) with
    | [e] => filterOutSingle isMethod e target
    | errs => Multierr.combine id
        ((errs.filter fun e => (filterOutSingle isMethod e target).isSome).map
          fun e => some (.single e))

variable {isMethod}

theorem filterOutSingle_isSome (e : SingleError) (target : GoError) :
    (filterOutSingle isMethod e target).isSome = !e.filtered isMethod target := by
  rw [filterOutSingle]
  cases e.filtered isMethod target <;> rfl

theorem errors_filterOutSingle (e : SingleError) (target : GoError) :
    Multierr.errors (filterOutSingle isMethod e target) =
      [e].filter fun e => !e.filtered isMethod target := by
  rw [filterOutSingle, List.filter_singleton]
  cases e.filtered isMethod target <;> rfl

theorem errors_filterOutError (id : Nat) (err : Option GoError) (target : GoError) :
    Multierr.errors (filterOutError isMethod id err (some target)) =
      (Multierr.errors err).filter fun e => !e.filtered isMethod target := by
  cases err with
  | none => rfl
  | some err =>
    cases err with
    | single e => exact errors_filterOutSingle e target
    | multi id' first second rest =>
      show Multierr.errors (Multierr.combine id _) = _
      rw [Multierr.combine_singles, Multierr.errors_ofMembers]
      simp only [filterOutSingle_isSome]
      rfl

theorem errors_filterOutError_twice (id id' : Nat) (err target : Option GoError) :
    Multierr.errors (filterOutError isMethod id' (filterOutError isMethod id err target) target) =
      Multierr.errors (filterOutError isMethod id err target) := by
  cases target with
  | none =>
    cases err with
    | none | some err => rfl
  | some target =>
    simp only [errors_filterOutError, List.filter_filter, Bool.and_self]

end Filter

def leavesOf : Option GoError → List LeafError
  | none => []
  | some err => err.leaves

theorem leavesOf_eq (err : Option GoError) :
    leavesOf err = (Multierr.errors err).flatMap SingleError.leaves := by
  match err with
  | none => rfl
  | some (.single e) => exact (List.append_nil _).symm
  | some (.multi id first second rest) =>
    rw [leavesOf, GoError.leaves, ErrorList.leaves_eq]
    rfl

theorem mem_leavesOf {err : Option GoError} :
    l ∈ leavesOf err ↔ ∃ e ∈ Multierr.errors err, l ∈ e.leaves := by
  rw [leavesOf_eq, List.mem_flatMap]

section Related
variable (isMethod : LeafError → GoError → Bool)

def LeafError.Related (target : Option GoError) (l : LeafError) : Prop :=
  ∃ t, target = some t ∧ (SingleError.leaf l).filtered isMethod t = true

/-- A leaf that is not related to the target is kept just if it stands by itself, or in a wrapped
member that is not filtered. Filtering twice does no more than once. -/
theorem filterOutError_keeps_iff (id id' : Nat) (err target : Option GoError) :
    (∀ l ∈ leavesOf err, ¬ l.Related isMethod target →
      (l ∈ leavesOf (filterOutError isMethod id err target) ↔
        .leaf l ∈ Multierr.errors err ∨
          ∃ e ∈ Multierr.errors err, l ∈ e.leaves ∧
            ∀ t, target = some t → e.is isMethod t = false ∧ contains e.text t.text = false)) ∧
    Multierr.errors (filterOutError isMethod id' (filterOutError isMethod id err target) target) =
      Multierr.errors (filterOutError isMethod id err target) := by
  refine ⟨?_, errors_filterOutError_twice id id' err target⟩
  intro l hl hrel
  cases target with
  | none =>
    have hsame : filterOutError isMethod id err none = err := by
      cases err with
      | none | some err => rfl
    rw [hsame]
    obtain ⟨e, he, hle⟩ := mem_leavesOf.1 hl
    exact ⟨fun _ => .inr ⟨e, he, hle, nofun⟩, fun _ => hl⟩
  | some t =>
    rw [mem_leavesOf, errors_filterOutError]
    constructor
    · rintro ⟨e, he, hle⟩
      obtain ⟨he, hkept⟩ := List.mem_filter.1 he
      refine .inr ⟨e, he, hle, ?_⟩
      rintro _ ⟨⟩
      simpa [SingleError.filtered] using hkept
    · rintro (he | ⟨e, he, hle, hkept⟩)
      · refine ⟨.leaf l, List.mem_filter.2 ⟨he, ?_⟩, List.mem_singleton_self l⟩
        simpa using fun h => hrel ⟨t, rfl, h⟩
      · obtain ⟨his, htext⟩ := hkept t rfl
        refine ⟨e, List.mem_filter.2 ⟨he, ?_⟩, hle⟩
        rw [SingleError.filtered, his, htext]
        rfl

end Related

def wrapError (id id' : Nat) (err : GoError) (message : String) : GoError :=
  .single (.wrap id [] [] (.single (.wrap id' (goString (message ++ ": ")) [] err)))

/-- The leaf in a wrapped member that does not match and the one that stands by itself are kept. -/
theorem filterOutError_keeps_both :
    ∃ (target : GoError) (l l' : LeafError) (err : Option GoError),
      l ∈ leavesOf err ∧ l' ∈ leavesOf err ∧
      l ∈ leavesOf (filterOutError (fun _ _ => false) 9 err (some target)) ∧
      l' ∈ leavesOf (filterOutError (fun _ _ => false) 9 err (some target)) := by
  let target : LeafError := { id := 0, text := goString "context canceled" }
  let l : LeafError := { id := 1, text := goString "disk full" }
  let l' : LeafError := { id := 2, text := goString "no route" }
  let err : Option GoError := Multierr.combine 5
    [some (wrapError 3 4 (.single (.leaf l)) "close"), some (.single (.leaf target)), none,
      some (.single (.leaf l'))]
  have hl : l ∈ leavesOf err := by decide +kernel
  have hl' : l' ∈ leavesOf err := by decide +kernel
  have hunrelated : ∀ m ∈ [l, l'],
      ¬ m.Related (fun _ _ => false) (some (.single (.leaf target))) := by
    rintro m hm ⟨_, ⟨⟩, h⟩
    revert m
    decide +kernel
  have hkeeps := (filterOutError_keeps_iff (fun _ _ => false) 9 10 err
    (some (.single (.leaf target)))).1
  refine ⟨.single (.leaf target), l, l', err, hl, hl', ?_, ?_⟩
  · refine (hkeeps l hl (hunrelated l (by simp))).2 (.inr ?_)
    refine ⟨.wrap 3 [] [] (.single (.wrap 4 (goString "close: ") [] (.single (.leaf l)))),
      ?_, ?_, ?_⟩
    · decide +kernel
    · decide +kernel
    · rintro _ ⟨⟩
      decide +kernel
  · refine (hkeeps l' hl' (hunrelated l' (by simp))).2 (.inl ?_)
    decide +kernel

/-- A multierr of a cancellation and of another error is lost when it is wrapped, and an error whose
wrapping speaks of a cancellation is lost too. -/
theorem filterOutError_loses :
    ∃ (target l : LeafError) (err err' : GoError),
      l ∈ err.leaves ∧ l ∈ err'.leaves ∧
      ¬ l.Related (fun _ _ => false) (some (.single (.leaf target))) ∧
      filterOutError (fun _ _ => false) 9 (some err) (some (.single (.leaf target))) = none ∧
      filterOutError (fun _ _ => false) 9 (some err') (some (.single (.leaf target))) = none := by
  let target : LeafError := { id := 0, text := goString "context canceled" }
  let l : LeafError := { id := 1, text := goString "disk full" }
  refine ⟨target, l, wrapError 2 3 (.multi 4 (.leaf target) (.leaf l) .nil) "close",
    wrapError 2 3 (.single (.leaf l)) "close after context canceled", ?_, ?_, ?_, ?_, ?_⟩
  · decide +kernel
  · decide +kernel
  · rintro ⟨_, ⟨⟩, h⟩
    revert h
    decide +kernel
  · decide +kernel
  · decide +kernel

end Goutils.Utils
