import Goutils.Lib.Stateful
import Goutils.Lib.Strings
import Goutils.Lib.Wire
import Goutils.Artifact.Tree

namespace Goutils.Artifact
open Lib
open Lib.Wire (Bytes)
set_option autoImplicit true

/-- The directory tree under the root, of regular files and directories. -/
abbrev Directory := FileTree FileName Bytes

/-- The accesses to the outside that may fail, each made at most once in a call: what was loaded
for one path is in the cache for the others. Paths are below the root. -/
inductive IoOp (H : Type) where
  | readDir (path : List FileName)
  | stat (path : List FileName)
  | openFile (path : List FileName)
  | readFile (path : List FileName)
  | removeFile (path : List FileName)
  | removeAll (path : List FileName)
  | mkdirAll (path : List FileName)
  | writeFile (path : List FileName)
  | sourceStore (path : List FileName) (hash : H)
  | cacheStore (path : List FileName) (hash : H)
  | sourceLoad (hash : H)
  | cacheLoaded (hash : H)
  | cacheContains (path : List FileName) (hash : H)
  | commit
  deriving DecidableEq

/-- The accesses that fail in one call, and what the failure says. -/
abbrev Faults (H : Type) := IoOp H → Option String

inductive ArtifactErr (H : Type) where
  | io (msg : String)
  | notFoundHash (hash : H)
  | notFoundPath (path : String)
  | removingOld (path : List FileName)
  | wrap (msg : String) (err : ArtifactErr H)
  deriving DecidableEq

/-- What a cache is made with: the fields of `Config` that its operations read, and the root. -/
structure Settings (H : Type) where
  computeHash : Bytes → H
  ignoreSet : List String := []
  sourcePullSizeLimit : Int := 4194304
  rootDir : String := "/"

/-- `cachedStore` with its tree, its stores, the files under the root and the trees it has written.
-/
structure CachedStore (H : Type) where
  tree : Tree H := .empty
  root : Directory := .empty
  cache : H → Option Bytes := fun _ => none
  source : Option (H → Option Bytes) := none
  committed : List (Tree H) := []

abbrev Op (H α : Type) := Stateful (CachedStore H) (ArtifactErr H) α

variable {H : Type} [DecidableEq H]

namespace CachedStore

def sourceLoad (s : CachedStore H) (hash : H) : Option Bytes := s.source.getD s.cache hash

def cacheStore (hash : H) (data : Bytes) (s : CachedStore H) : CachedStore H :=
  { s with cache := Function.update s.cache hash (some data) }

def sourceStore (hash : H) (data : Bytes) (s : CachedStore H) : CachedStore H :=
  match s.source with
  | none => s.cacheStore hash data
  | some source => { s with source := some (Function.update source hash (some data)) }

end CachedStore

def attempt (io : Faults H) (op : IoOp H) : Op H Unit :=
  match io op with
  | none => pure ()
  | some msg => .fail (.io msg)

def wrapped (msg : String) (m : Op H α) : Op H α := m.mapError (.wrap msg)

def store (io : Faults H) (path : List FileName) (hash : H) (data : Bytes) : Op H Unit := do
  attempt io (.sourceStore path hash)
  Stateful.modify (CachedStore.sourceStore hash data)
  attempt io (.cacheStore path hash)
  Stateful.modify (CachedStore.cacheStore hash data)

inductive NodeChangeType where
  | unstored
  | modified
  deriving DecidableEq

/-- What is called for a file that differs from the tree; what it reports is collected. -/
abbrev Visit (H β : Type) := NodeChangeType → H → List FileName → Bytes → Op H (List β)

/-- The part of `walkUserTreeUncached` for a regular file. -/
def walkFile (c : Settings H) (io : Faults H) (visit : Visit H β) (path : List FileName)
    (name : FileName) (data : Bytes) : Op H (List β) :=
  if name.name ∈ c.ignoreSet then pure [] else do
    attempt io (.stat path)
    let s ← Stateful.get
    wrapped "error opening file to write through cache" (attempt io (.openFile path))
    attempt io (.readFile path)
    match s.tree.lookup path with
    | some (.leaf e) =>
      if e.hash = c.computeHash data then pure []
      else visit .modified (c.computeHash data) path data
    | some (.node _) => visit .modified (c.computeHash data) path data
    | none => visit .unstored (c.computeHash data) path data

/-- A directory becomes an internal node, unless it is one. -/
def enterDir (path : List FileName) (s : CachedStore H) : CachedStore H :=
  match s.tree.lookup path with
  | some (.node _) => s
  | _ => { s with tree := s.tree.makeNode path }

/-- The loop of `walkUserTreeUncached`; its map is the one at `treePath`. -/
def walkEntries (c : Settings H) (io : Faults H) (visit : Visit H β) (treePath : List FileName) :
    Forest FileName Bytes → Op H (List β)
  | .nil => pure []
  | .leaf name data rest => do
    let r ← walkFile c io visit (treePath ++ [name]) name data
    let rs ← walkEntries c io visit treePath rest
    pure (r ++ rs)
  | .node name children rest => do
    attempt io (.stat (treePath ++ [name]))
    Stateful.modify (enterDir (treePath ++ [name]))
    attempt io (.readDir (treePath ++ [name]))
    let r ← walkEntries c io visit (treePath ++ [name]) children
    let rs ← walkEntries c io visit treePath rest
    pure (r ++ rs)

def walkUserTreeUncached (c : Settings H) (io : Faults H) (visit : Visit H β) :
    Op H (List β) := do
  attempt io (.readDir [])
  let s ← Stateful.get
  walkEntries c io visit [] s.root.forest

def writeThrough (io : Faults H) : Visit H Unit := fun _ nodeHash path data => do
  store io path nodeHash data
  Stateful.modify fun s => { s with tree := s.tree.storeHash nodeHash data.length path }
  pure []

def commitFn (io : Faults H) : Op H Unit := do
  attempt io .commit
  Stateful.modify fun s => { s with committed := s.committed ++ [s.tree] }

def writeThroughUser (c : Settings H) (io : Faults H) : Op H Unit := do
  let _ ← walkUserTreeUncached c io (writeThrough io)
  commitFn io

structure Status where
  modified : List (List FileName) := []
  unstored : List (List FileName) := []
  deriving DecidableEq

def report : Visit H (NodeChangeType × List FileName) := fun changeType _ path _ =>
  pure [(changeType, path)]

def status (c : Settings H) (io : Faults H) : Op H Status := do
  let changes ← walkUserTreeUncached c io report
  pure {
    modified := (changes.filter fun r => r.1 = .modified).map fun r => r.2
    unstored := (changes.filter fun r => r.1 = .unstored).map fun r => r.2 }

def removedPath (c : Settings H) (path : String) : String :=
  let path := if hasPrefix path c.rootDir then trimPrefix path (c.rootDir ++ "/") else path
  if path = "/" then path else trimPrefix path "/"

def remove (c : Settings H) (io : Faults H) (path : String) : Op H Unit := do
  match splitPath (removedPath c path) with
  | none => pure ()
  | some parts => Stateful.modify fun s => { s with tree := s.tree.removePath parts }
  commitFn io

def removeAll (io : Faults H) (path : List FileName) : Op H Unit := do
  attempt io (.removeAll path)
  Stateful.modify fun s => { s with root := s.root.remove path }

/-- The loop of `cleanTree`; `os.ReadDir` fails where an internal node has a file's name. -/
def cleanEntries (io : Faults H) (tree : TreeNodeTree H) (localPath : List FileName) :
    Forest FileName Bytes → Op H Unit
  | .nil => pure ()
  | .leaf name _ rest =>
    match tree.get name with
    | some (.node _) => .fail (.io "not a directory")
    | some (.leaf _) => cleanEntries io tree localPath rest
    | none => do
      removeAll io (localPath ++ [name])
      cleanEntries io tree localPath rest
  | .node name children rest =>
    match tree.get name with
    | some (.node internal) => do
      attempt io (.readDir (localPath ++ [name]))
      cleanEntries io internal (localPath ++ [name]) children
      cleanEntries io tree localPath rest
    | some (.leaf _) => cleanEntries io tree localPath rest
    | none => do
      removeAll io (localPath ++ [name])
      cleanEntries io tree localPath rest

def clean (io : Faults H) : Op H Unit := do
  attempt io (.readDir [])
  let s ← Stateful.get
  cleanEntries io s.tree.forest [] s.root.forest

/-- The second half of `emplaceFile`: the file is written beside its place and renamed to it. -/
def placeFile (io : Faults H) (hash : H) (path : List FileName) : Op H Unit := do
  attempt io (.mkdirAll path)
  let s ← Stateful.get
  match s.root.makeAll path.dropLast with
  | none => .fail (.io "not a directory")
  | some root => do
    Stateful.modify fun s => { s with root }
    match s.cache hash with
    | none => .fail (.notFoundHash hash)
    | some data =>
      if root.kindAt path = some .node then .fail (.io "file exists") else do
        attempt io (.writeFile path)
        Stateful.modify fun s => { s with root := s.root.store path data }

def removeOld (io : Faults H) (path : List FileName) : Op H Unit :=
  match io (.removeFile path) with
  | none => Stateful.modify fun s => { s with root := s.root.remove path }
  | some _ => .fail (.removingOld path)

def emplaceFile (c : Settings H) (io : Faults H) (hash : H) (path : List FileName) :
    Op H Unit := do
  let s ← Stateful.get
  if (s.cache hash).isNone then .fail (.notFoundHash hash)
  else if (io (.openFile path)).isSome then placeFile io hash path
  else match s.root.kindAt path with
    | none => placeFile io hash path
    | some .node => .fail (.io "is a directory")
    | some (.leaf data) => do
      attempt io (.readFile path)
      if c.computeHash data = hash then pure () else do
        removeOld io path
        placeFile io hash path

/-- The part of `ensureNode` for an external node. A file that is too large to load gives no
path. -/
def ensureExternal (c : Settings H) (io : Faults H) (ignoreLimit : Bool) (node : TreeNodeExternal H)
    (dstPath : List FileName) : Op H (Option (List FileName)) := do
  wrapped "error checking if hash is in file system cache"
    (attempt io (.cacheContains dstPath node.hash))
  let s ← Stateful.get
  if (s.cache node.hash).isSome then do
    wrapped "error emplacing into file system cache" (emplaceFile c io node.hash dstPath)
    pure (some dstPath)
  else if ignoreLimit = false ∧ c.sourcePullSizeLimit ≠ 0 ∧ c.sourcePullSizeLimit < node.size then
    pure none
  else do
    wrapped "error loading from source cache" (attempt io (.sourceLoad node.hash))
    match s.sourceLoad node.hash with
    | none => wrapped "error loading from source cache" (.fail (.notFoundHash node.hash))
    | some data => do
      wrapped "error storing into file system cache" (attempt io (.cacheLoaded node.hash))
      Stateful.modify (CachedStore.cacheStore node.hash data)
      wrapped "error emplacing into file system cache" (emplaceFile c io node.hash dstPath)
      pure (some dstPath)

def ensureEntries (c : Settings H) (io : Faults H) (ignoreLimit : Bool) (dstPath : List FileName) :
    TreeNodeTree H → Op H Unit
  | .nil => pure ()
  | .leaf name node rest => do
    let _ ← ensureExternal c io ignoreLimit node (dstPath ++ [name])
    ensureEntries c io ignoreLimit dstPath rest
  | .node name internal rest => do
    ensureEntries c io ignoreLimit (dstPath ++ [name]) internal
    ensureEntries c io ignoreLimit dstPath rest

/-- The order in which the maps of a tree are ranged over. -/
structure MapOrder (H : Type) where
  order : TreeNodeTree H → TreeNodeTree H
  distinct : ∀ t, t.Distinct → (order t).Distinct
  same : ∀ t p, (order t).kindAt p = t.kindAt p

def ensureNode (c : Settings H) (io : Faults H) (ord : MapOrder H) (ignoreLimit : Bool)
    (dstPath : List FileName) : TreeNode H → Op H (Option (List FileName))
  | .leaf node => ensureExternal c io ignoreLimit node dstPath
  | .node internal => do
    ensureEntries c io ignoreLimit dstPath (ord.order internal)
    pure (some dstPath)

/-- `Config.Lookup`, with the parts of the path. -/
def configLookup (s : CachedStore H) (path : String) : Option (List FileName × TreeNode H) :=
  if path = "/" then some ([], .node s.tree.forest)
  else do
    let parts ← splitPath path
    let node ← s.tree.lookup parts
    pure (parts, node)

def ensure (c : Settings H) (io : Faults H) (ord : MapOrder H) (path : String)
    (ignoreLimit : Bool) : Op H (Option (List FileName)) := do
  let s ← Stateful.get
  match configLookup s path with
  | none => .fail (.notFoundPath path)
  | some (parts, node) => ensureNode c io ord ignoreLimit parts node

end Goutils.Artifact
