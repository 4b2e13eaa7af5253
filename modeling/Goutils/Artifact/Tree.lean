import Goutils.Lib.Forest

namespace Goutils.Artifact
open Lib
set_option autoImplicit true

def validName (s : String) : Bool :=
  s != "" && s != "." && s != ".." && s.toList.all fun c => c != '/' && c.toNat != 0

/-- The name of a directory entry. The keys of the versioned tree are file names too: a tree with
any other key is not modelled. -/
structure FileName where
  name : String
  valid : validName name = true
  deriving DecidableEq

def FileName.ofString (s : String) : Option FileName :=
  if h : validName s = true then some ⟨s, h⟩ else none

/-- `strings.Split(path, "/")`, if all parts can be names of entries. -/
def splitPath (path : String) : Option (List FileName) :=
  (path.toList.splitOn '/').mapM fun part => FileName.ofString (String.ofList part)

/-- `TreeNodeExternal`, with hashes of any kind. -/
structure TreeNodeExternal (H : Type) where
  hash : H
  size : Int
  deriving DecidableEq

abbrev TreeNodeTree (H : Type) := Forest FileName (TreeNodeExternal H)

/-- `TreeNode`: internal with its map, or external. -/
abbrev TreeNode (H : Type) := Entry FileName (TreeNodeExternal H)

def TreeNode.internal : TreeNode H → TreeNodeTree H
  | .leaf _ => .nil
  | .node c => c

namespace TreeNodeTree

def lookup (tnt : TreeNodeTree H) : List FileName → Option (TreeNode H)
  | [] => none
  | x :: path =>
    match tnt.get x with
    | none => none
    | some node => if path = [] then some node else lookup (TreeNode.internal node) path

def storeHash (nodeHash : H) (nodeSize : Int) (tnt : TreeNodeTree H) :
    List FileName → TreeNodeTree H
  | [] => tnt
  | [x] => tnt.set x (.leaf { hash := nodeHash, size := nodeSize })
  | x :: y :: path =>
    match tnt.get x with
    | none | some (.leaf _) => tnt.set x (.node (storeHash nodeHash nodeSize .nil (y :: path)))
    | some (.node internal) => tnt.set x (.node (storeHash nodeHash nodeSize internal (y :: path)))

def removePath (tnt : TreeNodeTree H) : List FileName → TreeNodeTree H
  | [] => tnt
  | [x] => tnt.erase x
  | x :: y :: path =>
    match tnt.get x with
    | none | some (.leaf _) => tnt
    | some (.node internal) => tnt.set x (.node (removePath internal (y :: path)))

theorem storeHash_eq_put (nodeHash : H) (nodeSize : Int) (tnt : TreeNodeTree H)
    (path : List FileName) : storeHash nodeHash nodeSize tnt path =
      tnt.put (.leaf { hash := nodeHash, size := nodeSize }) path := by
  induction path generalizing tnt with
  | nil => rfl
  | cons x path ih =>
    cases path with
    | nil => rfl
    | cons y path =>
      simp only [storeHash, Forest.put, Forest.sub, ih]
      split <;> simp_all

theorem removePath_eq_remove (tnt : TreeNodeTree H) (path : List FileName) :
    removePath tnt path = tnt.remove path := by
  induction path generalizing tnt with
  | nil => rfl
  | cons x path ih =>
    cases path with
    | nil => rfl
    | cons y path =>
      simp only [removePath, Forest.remove, ih]
      split <;> simp_all

theorem lookup_kindAt (tnt : TreeNodeTree H) (hp : p ≠ []) (q : List FileName) :
    (lookup tnt p).bind (fun node => node.kindAt q) = tnt.kindAt (p ++ q) := by
  induction p generalizing tnt with
  | nil => exact absurd rfl hp
  | cons x p ih =>
    rw [lookup, List.cons_append, Forest.kindAt_cons]
    cases hget : tnt.get x with
    | none => rfl
    | some node =>
      simp only [Option.bind_some]
      split
      · subst_vars
        rfl
      · rename_i hne
        rw [ih _ hne]
        cases node with
        | leaf e =>
          obtain ⟨y, p, rfl⟩ := List.exists_cons_of_ne_nil hne
          rfl
        | node c => rfl

end TreeNodeTree

abbrev Tree (H : Type) := FileTree FileName (TreeNodeExternal H)

namespace Tree

def lookup (t : Tree H) (path : List FileName) : Option (TreeNode H) :=
  TreeNodeTree.lookup t.forest path

def storeHash (t : Tree H) (nodeHash : H) (nodeSize : Int) (path : List FileName) : Tree H where
  forest := TreeNodeTree.storeHash nodeHash nodeSize t.forest path
  distinct := by
    rw [TreeNodeTree.storeHash_eq_put]
    exact (t.store path { hash := nodeHash, size := nodeSize }).distinct

def removePath (t : Tree H) (path : List FileName) : Tree H where
  forest := TreeNodeTree.removePath t.forest path
  distinct := by
    rw [TreeNodeTree.removePath_eq_remove]
    exact (t.remove path).distinct

theorem storeHash_eq (t : Tree H) (nodeHash : H) (nodeSize : Int) (path : List FileName) :
    t.storeHash nodeHash nodeSize path = t.store path { hash := nodeHash, size := nodeSize } := by
  simp only [storeHash, FileTree.store, TreeNodeTree.storeHash_eq_put]

theorem removePath_eq (t : Tree H) (path : List FileName) : t.removePath path = t.remove path := by
  simp only [removePath, FileTree.remove, TreeNodeTree.removePath_eq_remove]

theorem kindAt_eq_lookup (t : Tree H) (hp : p ≠ []) :
    t.kindAt p = (t.lookup p).bind fun node => node.kindAt [] := by
  have h := TreeNodeTree.lookup_kindAt t.forest hp []
  rw [List.append_nil] at h
  exact h.symm

theorem lookup_eq_leaf {t : Tree H} (hp : p ≠ []) :
    t.lookup p = some (.leaf e) ↔ t.kindAt p = some (.leaf e) := by
  rw [kindAt_eq_lookup t hp]
  cases t.lookup p with
  | none => simp
  | some node =>
    cases node with
    | leaf e' | node c => simp [Entry.kindAt]

theorem lookup_leaf_iff {t : Tree H} {p : List FileName} :
    t.lookup p = some (.leaf e) ↔ t.kindAt p = some (.leaf e) := by
  cases p with
  | nil =>
    rw [FileTree.kindAt_nil]
    constructor <;> intro h <;> cases h
  | cons x p => exact lookup_eq_leaf (List.cons_ne_nil x p)

theorem lookup_eq_node {t : Tree H} (hp : p ≠ []) :
    (∃ c, t.lookup p = some (.node c)) ↔ t.kindAt p = some .node := by
  rw [kindAt_eq_lookup t hp]
  cases t.lookup p with
  | none => simp
  | some node =>
    cases node with
    | leaf e' | node c => simp [Entry.kindAt]

def AllHashes (t : Tree H) (P : H → Prop) : Prop :=
  ∀ p e, t.kindAt p = some (.leaf e) → P e.hash

theorem allHashes_iff_lookup {t : Tree H} {P : H → Prop} :
    t.AllHashes P ↔ ∀ p e, t.lookup p = some (.leaf e) → P e.hash := by
  simp only [AllHashes, lookup_leaf_iff]

namespace AllHashes

variable {t : Tree H} {P Q : H → Prop}

theorem imp (h : t.AllHashes P) (hPQ : ∀ hash, P hash → Q hash) : t.AllHashes Q :=
  fun p e hp => hPQ e.hash (h p e hp)

theorem storeHash {nodeHash : H} (h : t.AllHashes P) (hash : P nodeHash) (nodeSize : Int)
    (hpath : path ≠ []) : (t.storeHash nodeHash nodeSize path).AllHashes P := by
  intro p e hp
  rw [storeHash_eq, FileTree.kindAt_store _ hpath] at hp
  split at hp
  · cases hp
    exact hash
  · split at hp
    · cases hp
    · split at hp
      · cases hp
      · exact h p e hp

theorem makeNode (h : t.AllHashes P) (hpath : path ≠ []) :
    Tree.AllHashes (t.makeNode path) P := by
  intro p e hp
  rw [FileTree.kindAt_makeNode _ hpath] at hp
  split at hp
  · cases hp
  · split at hp
    · cases hp
    · split at hp
      · cases hp
      · exact h p e hp

theorem removePath (h : t.AllHashes P) (path : List FileName) :
    (t.removePath path).AllHashes P := by
  intro p e hp
  rw [removePath_eq] at hp
  cases path with
  | nil => exact h p e hp
  | cons x path =>
    rw [FileTree.kindAt_remove _ (List.cons_ne_nil x path)] at hp
    split at hp
    · cases hp
    · exact h p e hp

end AllHashes

end Tree

end Goutils.Artifact
