import Goutils.Artifact.Tree

namespace Goutils.Artifact.Fields
open Lib
set_option autoImplicit true

abbrev TreeNodeExternal := Artifact.TreeNodeExternal String

/-- A map of nodes: `internal` is nil for a `bare` one, `external` may be nil for both. -/
inductive Entries where
  | nil
  | bare (name : String) (external : Option TreeNodeExternal) (rest : Entries)
  | dir (name : String) (internal : Entries) (external : Option TreeNodeExternal) (rest : Entries)

/-- `TreeNodeTree`; a nil map is `none`. -/
abbrev TreeNodeTree := Option Entries

/-- `TreeNode` as the source has it, with two fields that may both be nil or both be set. -/
structure TreeNode where
  internal : TreeNodeTree := none
  external : Option TreeNodeExternal := none

def TreeNode.isInternal (tn : TreeNode) : Bool := tn.internal.isSome

namespace Entries

def cons (name : String) (rest : Entries) (node : TreeNode) : Entries :=
  match node.internal with
  | none => .bare name node.external rest
  | some internal => .dir name internal node.external rest

def names : Entries → List String
  | .nil => []
  | .bare n _ rest | .dir n _ _ rest => n :: rest.names

def get : Entries → String → Option TreeNode
  | .nil, _ => none
  | .bare n external rest, x => if n = x then some { external } else rest.get x
  | .dir n internal external rest, x =>
    if n = x then some { internal := some internal, external } else rest.get x

def set (x : String) (node : TreeNode) : Entries → Entries
  | .nil => cons x .nil node
  | .bare n external rest =>
    if n = x then cons x rest node else .bare n external (set x node rest)
  | .dir n internal external rest =>
    if n = x then cons x rest node else .dir n internal external (set x node rest)

def erase (x : String) : Entries → Entries
  | .nil => .nil
  | .bare n external rest => if n = x then erase x rest else .bare n external (erase x rest)
  | .dir n internal external rest =>
    if n = x then erase x rest else .dir n internal external (erase x rest)

end Entries

namespace TreeNodeTree

def lookup : TreeNodeTree → List String → Option TreeNode
  | none, _ | some _, [] => none
  | some tnt, x :: path =>
    match tnt.get x with
    | none => none
    | some node => if path = [] then some node else lookup node.internal path

def storeHash (nodeHash : String) (nodeSize : Int) : TreeNodeTree → List String → TreeNodeTree
  | none, _ => none
  | some tnt, [] => some tnt
  | some tnt, [x] =>
    some (tnt.set x { external := some { hash := nodeHash, size := nodeSize } })
  | some tnt, x :: y :: path =>
    match tnt.get x with
    | none =>
      some (tnt.set x { internal := storeHash nodeHash nodeSize (some .nil) (y :: path) })
    | some node =>
      let node := if node.isInternal then node else { internal := some .nil }
      some (tnt.set x
        { node with internal := storeHash nodeHash nodeSize node.internal (y :: path) })

def removePath : TreeNodeTree → List String → TreeNodeTree
  | none, _ => none
  | some tnt, [] => some tnt
  | some tnt, [x] => some (tnt.erase x)
  | some tnt, x :: y :: path =>
    match tnt.get x with
    | none => some tnt
    | some node => some (tnt.set x { node with internal := removePath node.internal (y :: path) })

end TreeNodeTree

namespace Entries

/-- Every node of the map, at any depth, is internal or external but not both, and no map has a key
twice. -/
def Valid : Entries → Prop
  | .nil => True
  | .bare n external rest => external.isSome = true ∧ n ∉ rest.names ∧ rest.Valid
  | .dir n internal external rest =>
    external = none ∧ n ∉ rest.names ∧ internal.Valid ∧ rest.Valid

def Valid.decide : (m : Entries) → Decidable m.Valid
  | .nil => isTrue trivial
  | .bare _ _ rest => @instDecidableAnd _ _ _ (@instDecidableAnd _ _ _ (Valid.decide rest))
  | .dir _ internal _ rest =>
    @instDecidableAnd _ _ _ (@instDecidableAnd _ _ _
      (@instDecidableAnd _ _ (Valid.decide internal) (Valid.decide rest)))

instance (m : Entries) : Decidable m.Valid := Valid.decide m

def ofForest : Forest String TreeNodeExternal → Entries
  | .nil => .nil
  | .leaf n e rest => .bare n (some e) (ofForest rest)
  | .node n c rest => .dir n (ofForest c) none (ofForest rest)

end Entries

def TreeNode.ofEntry : Entry String TreeNodeExternal → TreeNode
  | .leaf e => { external := some e }
  | .node c => { internal := some (.ofForest c) }

variable (f : Forest String TreeNodeExternal)

namespace Entries

@[simp] theorem names_ofForest : (ofForest f).names = f.names := by
  induction f with
  | nil => rfl
  | leaf n e rest ih | node n c rest _ ih => rw [ofForest, names, Forest.names, ih]

variable {f} in
theorem valid_ofForest (h : f.Distinct) : (ofForest f).Valid := by
  induction f with
  | nil => trivial
  | leaf n e rest ih => exact ⟨rfl, by simpa using h.1, ih h.2⟩
  | node n c rest ihc ih => exact ⟨rfl, by simpa using h.1, ihc h.2.1, ih h.2.2⟩

theorem Valid.exists_forest {m : Entries} (h : m.Valid) :
    ∃ f : Forest String TreeNodeExternal, f.Distinct ∧ m = ofForest f := by
  induction m with
  | nil => exact ⟨.nil, trivial, rfl⟩
  | bare n external rest ih =>
    obtain ⟨hext, hn, hrest⟩ := h
    obtain ⟨e, rfl⟩ := Option.isSome_iff_exists.1 hext
    obtain ⟨f, hf, rfl⟩ := ih hrest
    rw [names_ofForest] at hn
    exact ⟨.leaf n e f, ⟨hn, hf⟩, rfl⟩
  | dir n internal external rest ihc ih =>
    obtain ⟨rfl, hn, hinternal, hrest⟩ := h
    obtain ⟨c, hc, rfl⟩ := ihc hinternal
    obtain ⟨f, hf, rfl⟩ := ih hrest
    rw [names_ofForest] at hn
    exact ⟨.node n c f, ⟨hn, hc, hf⟩, rfl⟩

theorem get_ofForest (x : String) : (ofForest f).get x = (f.get x).map .ofEntry := by
  induction f with
  | nil => rfl
  | leaf n e rest ih | node n c rest _ ih =>
    rw [ofForest, get, Forest.get, ih]
    split <;> rfl

theorem cons_ofForest (x : String) (e : Entry String TreeNodeExternal) :
    cons x (ofForest f) (.ofEntry e) = ofForest (Forest.cons x f e) := by
  cases e <;> rfl

theorem set_ofForest (x : String) (e : Entry String TreeNodeExternal) :
    (ofForest f).set x (.ofEntry e) = ofForest (f.set x e) := by
  induction f with
  | nil => exact cons_ofForest .nil x e
  | leaf n a rest ih | node n c rest _ ih =>
    rw [ofForest, set, Forest.set, ih, cons_ofForest]
    split <;> rfl

theorem erase_ofForest (x : String) : (ofForest f).erase x = ofForest (f.erase x) := by
  induction f with
  | nil => rfl
  | leaf n a rest ih | node n c rest _ ih =>
    rw [ofForest, erase, Forest.erase, ih]
    split <;> rfl

end Entries

namespace TreeNodeTree

open Entries (ofForest)

theorem lookup_ofForest (path : List String) :
    lookup (some (ofForest f)) path = (f.find path).map .ofEntry := by
  induction path generalizing f with
  | nil => rfl
  | cons x path ih =>
    rw [lookup, Entries.get_ofForest, Forest.find_cons]
    cases f.get x with
    | none => rfl
    | some e =>
      simp only [Option.map_some, Option.bind_some]
      split
      · rfl
      · rename_i hne
        cases e with
        | leaf a =>
          obtain ⟨y, path, rfl⟩ := List.exists_cons_of_ne_nil hne
          rfl
        | node c => exact ih c

theorem storeHash_ofForest (nodeHash : String) (nodeSize : Int) (path : List String) :
    storeHash nodeHash nodeSize (some (ofForest f)) path =
      some (ofForest (f.put (.leaf { hash := nodeHash, size := nodeSize }) path)) := by
  induction path generalizing f with
  | nil => rfl
  | cons x path ih =>
    cases path with
    | nil => exact congrArg some (Entries.set_ofForest f x (.leaf _))
    | cons y path =>
      have hput (c : Forest String TreeNodeExternal) :
          (ofForest f).set x
              { internal := storeHash nodeHash nodeSize (some (ofForest c)) (y :: path) }
            = ofForest (f.set x (.node (c.put (.leaf { hash := nodeHash, size := nodeSize })
                (y :: path)))) := by
        rw [ih c]
        exact Entries.set_ofForest f x (.node _)
      rw [storeHash, Entries.get_ofForest, Forest.put, Forest.sub]
      cases f.get x with
      | none => exact congrArg some (hput .nil)
      | some e =>
        cases e with
        | leaf a => exact congrArg some (hput .nil)
        | node c => exact congrArg some (hput c)

theorem removePath_ofForest (path : List String) :
    removePath (some (ofForest f)) path = some (ofForest (f.remove path)) := by
  induction path generalizing f with
  | nil => rfl
  | cons x path ih =>
    cases path with
    | nil => exact congrArg some (Entries.erase_ofForest f x)
    | cons y path =>
      rw [removePath, Entries.get_ofForest, Forest.remove]
      cases hget : f.get x with
      | none => rfl
      | some e =>
        cases e with
        | leaf a =>
          -- the method of a nil map leaves the node as it is
          have hset := Entries.set_ofForest f x (.leaf a)
          rw [Forest.set_of_get hget] at hset
          exact congrArg some hset
        | node c =>
          simp only [Option.map_some, TreeNode.ofEntry, ih c]
          exact congrArg some (Entries.set_ofForest f x (.node _))

end TreeNodeTree

/-- A tree: a map that is not nil, all of whose nodes are internal or external but not both. -/
structure Tree where
  entries : Entries
  valid : entries.Valid

namespace Tree

def lookup (t : Tree) (path : List String) : Option TreeNode :=
  TreeNodeTree.lookup (some t.entries) path

theorem exists_forest (t : Tree) :
    ∃ f : Forest String TreeNodeExternal, f.Distinct ∧ t.entries = .ofForest f ∧
      ∀ path, t.lookup path = (f.find path).map .ofEntry := by
  obtain ⟨f, hf, heq⟩ := t.valid.exists_forest
  refine ⟨f, hf, heq, ?_⟩
  intro path
  rw [lookup, heq, TreeNodeTree.lookup_ofForest]

/-- The second tree is the first with an external node stored at the path. The empty path names no
node of a tree. -/
structure Stored (t t' : Tree) (p : List String) (e : TreeNodeExternal) : Prop where
  self : t'.lookup p = some { external := some e }
  above : ∀ q, q ≠ [] → q <+: p → q ≠ p →
    ∃ node, t'.lookup q = some node ∧ node.isInternal = true ∧ node.external = none
  below : ∀ q, p <+: q → q ≠ p → t'.lookup q = none
  other : ∀ q, ¬ p <+: q → ¬ q <+: p → t'.lookup q = t.lookup q

/-- The second tree is the first without what is at the path and below it. -/
structure Removed (t t' : Tree) (p : List String) : Prop where
  below : ∀ q, p <+: q → t'.lookup q = none
  other : ∀ q, ¬ p <+: q → ¬ q <+: p → t'.lookup q = t.lookup q

theorem exists_stored (t : Tree) (nodeHash : String) (nodeSize : Int) (hp : p ≠ []) :
    ∃ t' : Tree, TreeNodeTree.storeHash nodeHash nodeSize (some t.entries) p = some t'.entries ∧
      Stored t t' p { hash := nodeHash, size := nodeSize } := by
  obtain ⟨f, hf, heq, hlookup⟩ := t.exists_forest
  have hput : (f.put (.leaf { hash := nodeHash, size := nodeSize }) p).Distinct :=
    hf.put (by intro c hc; cases hc) p
  refine ⟨⟨_, Entries.valid_ofForest hput⟩, ?_, ?_, ?_, ?_, ?_⟩
  · rw [heq, TreeNodeTree.storeHash_ofForest]
  · rw [lookup, TreeNodeTree.lookup_ofForest, Forest.find_put_self _ _ hp]
    rfl
  · intro q hq hqp hne
    obtain ⟨c, hc⟩ :=
      Forest.find_put_above f (.leaf { hash := nodeHash, size := nodeSize }) hq hqp hne
    refine ⟨.ofEntry (.node c), ?_, rfl, rfl⟩
    rw [lookup, TreeNodeTree.lookup_ofForest, hc]
    rfl
  · rintro q ⟨r, rfl⟩ hne
    have hr : r ≠ [] := by
      rintro rfl
      exact hne (List.append_nil p)
    obtain ⟨y, r, rfl⟩ := List.exists_cons_of_ne_nil hr
    rw [lookup, TreeNodeTree.lookup_ofForest, Forest.find_put_below _ _ hp hr]
    rfl
  · intro q hpq hqp
    rw [hlookup, lookup, TreeNodeTree.lookup_ofForest, Forest.find_put_other _ _ hpq hqp]

theorem exists_removed (t : Tree) (hp : p ≠ []) :
    ∃ t' : Tree, TreeNodeTree.removePath (some t.entries) p = some t'.entries ∧
      Removed t t' p := by
  obtain ⟨f, hf, heq, hlookup⟩ := t.exists_forest
  refine ⟨⟨_, Entries.valid_ofForest (hf.remove p)⟩, ?_, ?_, ?_⟩
  · rw [heq, TreeNodeTree.removePath_ofForest]
  · intro q hpq
    rw [lookup, TreeNodeTree.lookup_ofForest, Forest.find_remove_below _ hp hpq]
    rfl
  · intro q hpq hqp
    rw [hlookup, lookup, TreeNodeTree.lookup_ofForest, Forest.find_remove_other _ hpq hqp]

/-- A tree is a map from paths to nodes: storing and removing change a path, what is below it and
the maps above. -/
theorem tree_pathMap (t : Tree) (hp : p ≠ []) (nodeHash : String) (nodeSize : Int) :
    (∃ t' : Tree, TreeNodeTree.storeHash nodeHash nodeSize (some t.entries) p = some t'.entries ∧
      Stored t t' p { hash := nodeHash, size := nodeSize }) ∧
    ∃ t' : Tree, TreeNodeTree.removePath (some t.entries) p = some t'.entries ∧ Removed t t' p :=
  ⟨t.exists_stored nodeHash nodeSize hp, t.exists_removed hp⟩

def twoFiles : Tree where
  entries := .bare "one" (some { hash := "hash1", size := 5 })
    (.dir "two" (.bare "three" (some { hash := "hash2", size := 0 }) .nil) none .nil)
  valid := by decide

theorem tree_pathMap_twoFiles :
    (∃ t' : Tree, TreeNodeTree.storeHash "new" 1 (some twoFiles.entries) ["one", "four"] =
        some t'.entries ∧ Stored twoFiles t' ["one", "four"] { hash := "new", size := 1 }) ∧
    ∃ t' : Tree, TreeNodeTree.removePath (some twoFiles.entries) ["one", "four"] =
        some t'.entries ∧ Removed twoFiles t' ["one", "four"] :=
  tree_pathMap twoFiles (List.cons_ne_nil _ _) "new" 1

end Tree

end Goutils.Artifact.Fields
