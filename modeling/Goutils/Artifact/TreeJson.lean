import Goutils.Artifact.TreeNode
import Goutils.Lib.Json

namespace Goutils.Artifact.Fields
open Lib Lib.Json
set_option autoImplicit true

/-- Why a node cannot be decoded. There is no `nilNode` in the source: the entry of a null member is
a nil pointer there, which the maps of the model do not have, so that decoding ends with it. -/
inductive UnmarshalErr where
  | type (err : UnmarshalTypeError)
  | nilNode

def TreeNodeExternal.marshal (e : TreeNodeExternal) : Members :=
  .leaf "hash" (.str e.hash) (.leaf "size" (.num e.size) .nil)

def Entries.marshal : Entries → Members
  | .nil => .nil
  | .bare name none rest => .leaf name .null rest.marshal
  | .bare name (some e) rest => .node name (TreeNodeExternal.marshal e) rest.marshal
  | .dir name internal _ rest => .node name internal.marshal rest.marshal

def TreeNodeTree.marshal : TreeNodeTree → Json
  | none => .leaf .null
  | some tnt => .node tnt.marshal

namespace TreeNode

def marshalJSON (tn : TreeNode) : Json :=
  if tn.isInternal then TreeNodeTree.marshal tn.internal
  else
    match tn.external with
    | none => .leaf .null
    | some e => .node (TreeNodeExternal.marshal e)

/-- `json.Unmarshal` into the struct with the field `Size` alone. -/
def probe (members : Members) : Decoding (Option Int) :=
  intoStruct ["size"] (fun _ => intoIntPtr) members (none, none)

def hasSize (members : Members) : Bool :=
  (probe members).2.isNone && (probe members).1.isSome

end TreeNode

def TreeNodeExternal.unmarshal (members : Members) : Decoding TreeNodeExternal :=
  intoStruct ["hash", "size"] (fun field =>
    if field = "hash" then intoPart (·.hash) (fun hash e => { e with hash }) intoString
    else intoPart (·.size) (fun size e => { e with size }) intoInt)
    members ({ hash := "", size := 0 }, none)

def TreeNode.unmarshalObject (members : Members) (internal : Except UnmarshalErr Entries) :
    Except UnmarshalErr TreeNode :=
  if hasSize members then
    match TreeNodeExternal.unmarshal members with
    | (_, some err) => .error (.type err)
    | (e, none) => .ok { external := some e }
  else internal.map fun tnt => { internal := some tnt }

/-- `json.Unmarshal` into a map with the given entries. -/
def Entries.unmarshal (tnt : Entries) : Members → Except UnmarshalErr Entries
  | .nil => .ok tnt
  | .leaf _ .null _ => .error .nilNode
  | .leaf _ v _ => .error (.type { value := Json.kind (.leaf v), type := "artifact.TreeNodeTree" })
  | .node key members rest =>
    (TreeNode.unmarshalObject members (Entries.unmarshal .nil members)).bind fun node =>
      Entries.unmarshal (tnt.set key node) rest

/-- `json.Unmarshal` into a nil map, which null leaves nil. -/
def TreeNodeTree.unmarshal : Json → Except UnmarshalErr TreeNodeTree
  | .leaf .null => .ok none
  | .leaf v => .error (.type { value := Json.kind (.leaf v), type := "artifact.TreeNodeTree" })
  | .node members => (Entries.unmarshal .nil members).map some

/-- `UnmarshalJSON` of a new node. -/
def TreeNode.unmarshalJSON : Json → Except UnmarshalErr TreeNode
  | .leaf v => (TreeNodeTree.unmarshal (.leaf v)).map fun internal => { internal }
  | .node members => TreeNode.unmarshalObject members (Entries.unmarshal .nil members)

/-- The node is internal or external but not both, and so is every node below it. -/
inductive TreeNode.Valid : TreeNode → Prop where
  | internal : tnt.Valid → Valid { internal := some tnt }
  | external : Valid { external := some e }

variable {m tnt : Entries}

namespace TreeNode

theorem allObjects_marshal (h : tnt.Valid) : AllObjects tnt.marshal := by
  induction tnt with
  | nil => trivial
  | bare name external rest ih =>
    obtain ⟨hext, _, hrest⟩ := h
    obtain ⟨e, rfl⟩ := Option.isSome_iff_exists.1 hext
    exact ih hrest
  | dir name internal external rest _ ih => exact ih h.2.2.2

theorem hasSize_objects {members : Members} (h : AllObjects members) :
    hasSize members = false := by
  have hprobe : (probe members).1 = none ∨ (probe members).2.isSome = true := by
    apply intoStruct_objects (P := fun s => s.1 = none ∨ s.2.isSome = true) h
    · rintro _ ms ⟨size, err⟩ _
      right
      cases err <;> rfl
    · exact .inl rfl
  unfold hasSize
  rcases hprobe with hnone | herr
  · rw [hnone, Option.isSome_none, Bool.and_false]
  · obtain ⟨err, herr⟩ := Option.isSome_iff_exists.1 herr
    rw [herr]
    rfl

theorem unmarshalObject_external (e : TreeNodeExternal)
    (internal : Except UnmarshalErr Entries) :
    unmarshalObject (TreeNodeExternal.marshal e) internal = .ok { external := some e } := by
  rfl

theorem unmarshalObject_internal (h : tnt.Valid) (internal : Except UnmarshalErr Entries) :
    unmarshalObject tnt.marshal internal =
      internal.map fun tnt => { internal := some tnt } := by
  unfold unmarshalObject
  rw [hasSize_objects (allObjects_marshal h)]
  rfl

end TreeNode

namespace Entries

def append : Entries → Entries → Entries
  | .nil, m => m
  | .bare n external rest, m => .bare n external (rest.append m)
  | .dir n internal external rest, m => .dir n internal external (rest.append m)

theorem append_nil (m : Entries) : m.append .nil = m := by
  induction m with
  | nil => rfl
  | bare n external rest ih | dir n internal external rest _ ih => rw [append, ih]

theorem names_append (m m' : Entries) : (m.append m').names = m.names ++ m'.names := by
  induction m with
  | nil => rfl
  | bare n external rest ih => rw [append, names, ih, names, List.cons_append]
  | dir n internal external rest _ ih => rw [append, names, ih, names, List.cons_append]

theorem append_assoc (m m' m'' : Entries) :
    (m.append m').append m'' = m.append (m'.append m'') := by
  induction m with
  | nil => rfl
  | bare n external rest ih | dir n internal external rest _ ih => rw [append, append, append, ih]

theorem append_cons (m : Entries) (x : String) (node : TreeNode) (rest : Entries) :
    (m.append (cons x .nil node)).append rest = m.append (cons x rest node) := by
  rw [append_assoc]
  obtain ⟨internal, external⟩ := node
  cases internal <;> rfl

theorem set_of_not_mem (h : x ∉ m.names) (node : TreeNode) :
    m.set x node = m.append (cons x .nil node) := by
  induction m with
  | nil => rfl
  | bare n external rest ih | dir n internal external rest _ ih =>
    rw [names, List.mem_cons, not_or] at h
    rw [set, if_neg (Ne.symm h.1), ih h.2, append]

theorem unmarshal_node {members rest : Members} {node : TreeNode}
    (hnode : TreeNode.unmarshalObject members (unmarshal .nil members) = .ok node)
    (hx : x ∉ m.names) :
    m.unmarshal (.node x members rest) = (m.append (cons x .nil node)).unmarshal rest := by
  rw [unmarshal, hnode, ← set_of_not_mem hx]
  rfl

theorem not_mem_append_cons {rest : Entries} (node : TreeNode) (hx : x ∉ rest.names)
    (hd : ∀ y ∈ x :: rest.names, y ∉ m.names) :
    ∀ y ∈ rest.names, y ∉ (m.append (cons x .nil node)).names := by
  have hnames : (cons x .nil node).names = [x] := by
    obtain ⟨internal, external⟩ := node
    cases internal <;> rfl
  intro y hy
  rw [names_append, hnames, List.mem_append, List.mem_singleton]
  rintro (hm | rfl)
  · exact hd y (List.mem_cons_of_mem x hy) hm
  · exact hx hy

theorem unmarshal_marshal (h : tnt.Valid) (hd : ∀ x ∈ tnt.names, x ∉ m.names) :
    m.unmarshal tnt.marshal = .ok (m.append tnt) := by
  induction tnt generalizing m with
  | nil => rw [append_nil, marshal, unmarshal]
  | bare name external rest ih =>
    obtain ⟨hext, hname, hrest⟩ := h
    obtain ⟨e, rfl⟩ := Option.isSome_iff_exists.1 hext
    have hnew : name ∉ m.names := hd name List.mem_cons_self
    have hnode := TreeNode.unmarshalObject_external e
      (unmarshal .nil (TreeNodeExternal.marshal e))
    rw [marshal, unmarshal_node hnode hnew, ih hrest (not_mem_append_cons _ hname hd), append_cons]
    rfl
  | dir name internal external rest ihc ih =>
    obtain ⟨rfl, hname, hinternal, hrest⟩ := h
    have hnew : name ∉ m.names := hd name List.mem_cons_self
    have hchildren : unmarshal .nil internal.marshal = .ok internal :=
      ihc hinternal fun _ _ => List.not_mem_nil
    have hnode : TreeNode.unmarshalObject internal.marshal (unmarshal .nil internal.marshal) =
        .ok { internal := some internal } := by
      rw [TreeNode.unmarshalObject_internal hinternal, hchildren]
      rfl
    rw [marshal, unmarshal_node hnode hnew, ih hrest (not_mem_append_cons _ hname hd), append_cons]
    rfl

theorem unmarshal_nil_marshal (h : tnt.Valid) : unmarshal .nil tnt.marshal = .ok tnt :=
  unmarshal_marshal h fun _ _ => List.not_mem_nil

end Entries

theorem Tree.unmarshal_marshal (t : Tree) :
    TreeNodeTree.unmarshal (TreeNodeTree.marshal (some t.entries)) = .ok (some t.entries) := by
  rw [TreeNodeTree.marshal, TreeNodeTree.unmarshal, Entries.unmarshal_nil_marshal t.valid]
  rfl

/-- Decoding the JSON of a node gives the node again, with any names and at any depth. -/
theorem unmarshalJSON_marshalJSON {tn : TreeNode} (h : tn.Valid) :
    TreeNode.unmarshalJSON tn.marshalJSON = .ok tn := by
  cases h with
  | @internal tnt htnt =>
    change TreeNode.unmarshalObject tnt.marshal (Entries.unmarshal .nil tnt.marshal) = _
    rw [TreeNode.unmarshalObject_internal htnt, Entries.unmarshal_nil_marshal htnt]
    rfl
  | external => exact TreeNode.unmarshalObject_external _ _

def namesake : TreeNode :=
  { internal := some (.bare "size" (some { hash := "h", size := 0 })
      (.dir "SIZE" (.dir "hash" .nil none .nil) none .nil)) }

theorem unmarshalJSON_namesake :
    TreeNode.unmarshalJSON namesake.marshalJSON = .ok namesake :=
  unmarshalJSON_marshalJSON (.internal (by decide))

end Goutils.Artifact.Fields
