import Goutils.Artifact.Dangling

namespace Goutils.Artifact
open Lib Lib.Stateful
open Lib.Wire (Bytes)
set_option autoImplicit true

variable {H : Type}

/-- Whether `cleanTree` leaves a path: nothing is looked at below an external node. -/
def survives (tree : TreeNodeTree H) : List FileName → Bool
  | [] => true
  | x :: p =>
    match tree.get x with
    | none => false
    | some (.leaf _) => true
    | some (.node internal) => survives internal p

section Survives

variable {tree internal : TreeNodeTree H} {e : TreeNodeExternal H} {x : FileName}

theorem not_survives_of_none (h : tree.get x = none) (p : List FileName) :
    survives tree (x :: p) = false := by
  rw [survives, h]

theorem survives_of_leaf (h : tree.get x = some (.leaf e)) (p : List FileName) :
    survives tree (x :: p) = true := by
  rw [survives, h]

theorem survives_of_node (h : tree.get x = some (.node internal)) (p : List FileName) :
    survives tree (x :: p) = survives internal p := by
  rw [survives, h]

theorem survives_iff (tree : TreeNodeTree H) (p : List FileName) :
    survives tree p = true ↔
      tree.kindAt p = some .node ∨ ∃ q e, q <+: p ∧ tree.kindAt q = some (.leaf e) := by
  induction p generalizing tree with
  | nil => exact ⟨fun _ => .inl (Forest.kindAt_nil tree), fun _ => rfl⟩
  | cons x p ih =>
    cases hget : tree.get x with
    | none =>
      rw [not_survives_of_none hget]
      refine ⟨fun h => (by cases h), ?_⟩
      rintro (h | ⟨q, e, hq, h⟩)
      · rw [Forest.kindAt_cons, hget] at h
        cases h
      · cases q with
        | nil =>
          rw [Forest.kindAt_nil] at h
          cases h
        | cons y q =>
          obtain ⟨rfl, _⟩ := List.cons_prefix_cons.1 hq
          rw [Forest.kindAt_cons, hget] at h
          cases h
    | some node =>
      cases node with
      | leaf e =>
        refine ⟨fun _ => .inr ⟨[x], e, by simp, ?_⟩, fun _ => survives_of_leaf hget p⟩
        rw [Forest.kindAt_cons, hget]
        rfl
      | node internal =>
        rw [survives_of_node hget, ih internal]
        apply or_congr
        · rw [Forest.kindAt_cons, hget]
          rfl
        · constructor
          · rintro ⟨q, e, hq, h⟩
            refine ⟨x :: q, e, List.cons_prefix_cons.2 ⟨rfl, hq⟩, ?_⟩
            rw [Forest.kindAt_cons, hget]
            exact h
          · rintro ⟨q, e, hq, h⟩
            cases q with
            | nil =>
              rw [Forest.kindAt_nil] at h
              cases h
            | cons y q =>
              obtain ⟨rfl, hpre⟩ := List.cons_prefix_cons.1 hq
              rw [Forest.kindAt_cons, hget] at h
              exact ⟨q, e, hpre, h⟩

end Survives

def remains (tree : TreeNodeTree H) (d : Forest FileName Bytes) (p : List FileName) :
    Option (Kind Bytes) := if survives tree p then d.kindAt p else none

def Shows (root : Directory) (path : List FileName) (d : Forest FileName Bytes)
    (given : List FileName → Option (Kind Bytes)) : Prop :=
  ∀ x ∈ d.names, ∀ q, root.kindAt (path ++ x :: q) = given (x :: q)

def NoFileAtNode (tree : TreeNodeTree H) (d : Forest FileName Bytes) : Prop :=
  ∀ p data, d.kindAt p = some (.leaf data) → tree.kindAt p ≠ some .node

/-- What has become of a directory at the path when its entries were cleaned. -/
structure Cleaned (tree : TreeNodeTree H) (path : List FileName) (d : Forest FileName Bytes)
    (before after : Directory) : Prop where
  shows : Shows after path d (remains tree d)
  frame : FileTree.Frame path d.names before after
  files : NoFileAtNode tree d

section Cleaned

variable {tree : TreeNodeTree H} {path : List FileName} {x : FileName}
  {d : Forest FileName Bytes} {e : Entry FileName Bytes} {root root₁ root₂ : Directory}

theorem Shows.rest (h : Shows root path (.cons x d e) (Forest.cons x d e).kindAt)
    (hx : x ∉ d.names) (hf : FileTree.Frame path [x] root root₁) : Shows root₁ path d d.kindAt := by
  intro y hy q
  have hne : y ∉ [x] := by
    rintro hmem
    exact hx (List.mem_singleton.1 hmem ▸ hy)
  rw [hf.of_not_mem hne (by simp), h y (Forest.mem_names_cons.2 (.inr hy)),
    Forest.kindAt_cons_other e hx hy]

theorem Cleaned.cons (hx : x ∉ d.names)
    (hentry : ∀ q, root₁.kindAt (path ++ x :: q) =
      if survives tree (x :: q) then e.kindAt q else none)
    (hfiles : ∀ q data, e.kindAt q = some (.leaf data) → tree.kindAt (x :: q) ≠ some .node)
    (hframe : FileTree.Frame path [x] root root₁) (hrest : Cleaned tree path d root₁ root₂) :
    Cleaned tree path (.cons x d e) root root₂ := by
  constructor
  · intro y hy q
    rw [remains]
    obtain rfl | hy := Forest.mem_names_cons.1 hy
    · rw [hrest.frame.of_not_mem hx (by simp), hentry, Forest.kindAt_cons_self]
    · rw [hrest.shows y hy, remains, Forest.kindAt_cons_other e hx hy]
  · apply (hframe.trans hrest.frame).mono
    intro y hy
    exact Forest.mem_names_cons.2 (List.mem_cons.1 hy)
  · intro p data hp
    obtain ⟨q, rfl, hq⟩ | hp := Forest.leaf_of_cons hp
    · exact hfiles q data hq
    · exact hrest.files p data hp

theorem Cleaned.removed (hget : tree.get x = none) (hx : x ∉ d.names)
    (hrest : Cleaned tree path d (root.remove (path ++ [x])) root₂) :
    Cleaned tree path (.cons x d e) root root₂ := by
  refine .cons hx ?_ ?_ (.remove root path x) hrest
  · intro q
    rw [FileTree.kindAt_remove _ (by simp), if_pos (by simp), not_survives_of_none hget]
    rfl
  · intro q data _ hk
    rw [Forest.kindAt_cons, hget] at hk
    cases hk

theorem Cleaned.kept (hget : tree.get x = some (.leaf external)) (hx : x ∉ d.names)
    (hshows : Shows root path (.cons x d e) (Forest.cons x d e).kindAt)
    (hrest : Cleaned tree path d root root₂) : Cleaned tree path (.cons x d e) root root₂ := by
  refine .cons hx ?_ ?_ (.refl _ _ _) hrest
  · intro q
    rw [hshows x (Forest.mem_names_cons.2 (.inl rfl)), Forest.kindAt_cons_self,
      survives_of_leaf hget, if_pos rfl]
  · intro q data _ hk
    rw [Forest.kindAt_cons, hget] at hk
    cases q <;> cases hk

theorem Cleaned.entered {children : Forest FileName Bytes}
    (hget : tree.get x = some (.node internal)) (hx : x ∉ d.names)
    (hshows : Shows root path (.node x children d) (Forest.node x children d).kindAt)
    (hchildren : Cleaned internal (path ++ [x]) children root root₁)
    (hrest : Cleaned tree path d root₁ root₂) :
    Cleaned tree path (.node x children d) root root₂ := by
  have hbelow (q : List FileName) : root.kindAt (path ++ x :: q) = children.kindAt q := by
    rw [hshows x List.mem_cons_self]
    exact Forest.kindAt_cons_self d (.node children) x q
  refine Cleaned.cons (e := .node children) hx ?_ ?_ hchildren.frame.below hrest
  · intro q
    rw [survives_of_node hget, Entry.kindAt]
    cases q with
    | nil =>
      rw [hchildren.frame.kindAt_self, hbelow]
      rfl
    | cons y q =>
      rw [List.append_cons]
      by_cases hy : y ∈ children.names
      · exact hchildren.shows y hy q
      · rw [hchildren.frame.of_not_mem hy (by simp), ← List.append_cons, hbelow,
          Forest.kindAt_of_not_mem hy, ite_self]
  · intro q data hq
    rw [Forest.kindAt_cons, hget]
    exact hchildren.files q data hq

end Cleaned

theorem removeAll_root (io : Faults H) (path : List FileName) (root : Directory) :
    Triple (fun s => s.root = root) (removeAll io path) (fun _ s => s.root = root.remove path)
      fun _ => True := by
  apply Triple.bind (attempt_keeps io _ _).orFails
  intro _
  apply Triple.modify
  rintro s rfl
  rfl

theorem cleanEntries_cleans (io : Faults H) {d : Forest FileName Bytes} (hd : d.Distinct)
    {tree : TreeNodeTree H} {root : Directory} (h : Shows root path d d.kindAt) :
    Triple (fun s => s.root = root) (cleanEntries io tree path d)
      (fun _ s => Cleaned tree path d root s.root) fun _ => True := by
  induction d generalizing path root tree with
  | nil =>
    apply Triple.pure
    rintro s rfl
    refine ⟨fun x hx => (by cases hx), .refl _ _ _, ?_⟩
    intro p data hp
    cases p <;> cases hp
  | leaf name data rest ih =>
    unfold cleanEntries
    split
    · exact .fail fun _ _ => trivial
    · rename_i external hget
      have hrest := h.rest (e := .leaf data) hd.1 (.refl _ _ _)
      apply (ih hd.2 hrest).post
      intro _ s hs
      exact Cleaned.kept (e := .leaf data) hget hd.1 h hs
    · rename_i hget
      apply Triple.bind (removeAll_root io _ root)
      intro _
      have hrest := h.rest (e := .leaf data) hd.1 (.remove _ _ _)
      apply (ih hd.2 hrest).post
      intro _ s hs
      exact Cleaned.removed (e := .leaf data) hget hd.1 hs
  | node name children rest ihc ih =>
    unfold cleanEntries
    split
    · rename_i internal hget
      have hchildren : Shows root (path ++ [name]) children children.kindAt := by
        intro x hx q
        rw [← List.append_cons, h name List.mem_cons_self]
        exact Forest.kindAt_cons_self rest (.node children) name (x :: q)
      apply Triple.bind (attempt_keeps io _ _).orFails
      intro _
      apply Triple.bind (ihc hd.2.1 hchildren)
      intro _
      apply Triple.of_forall
      intro s₁ hs₁
      have hrest := h.rest (e := .node children) hd.1 hs₁.frame.below
      apply ((ih hd.2.2 hrest).pre (by rintro _ rfl; rfl)).post
      intro _ s hs
      exact Cleaned.entered hget hd.1 h hs₁ hs
    · rename_i external hget
      have hrest := h.rest (e := .node children) hd.1 (.refl _ _ _)
      apply (ih hd.2.2 hrest).post
      intro _ s hs
      exact Cleaned.kept (e := .node children) hget hd.1 h hs
    · rename_i hget
      apply Triple.bind (removeAll_root io _ root)
      intro _
      have hrest := h.rest (e := .node children) hd.1 (.remove _ _ _)
      apply (ih hd.2.2 hrest).post
      intro _ s hs
      exact Cleaned.removed (e := .node children) hget hd.1 hs

theorem clean_cleans {io : Faults H} {s s' : CachedStore H} (h : clean io s = (s', .ok ())) :
    Cleaned s.tree.forest [] s.root.forest s.root s'.root := by
  have hclean : Triple (· = s) (clean io)
      (fun _ s' => Cleaned s.tree.forest [] s.root.forest s.root s'.root) fun _ => True := by
    apply Triple.bind (attempt_keeps io _ _).orFails
    intro _
    apply Triple.get_bind
    rintro s rfl
    have hself : Shows s.root [] s.root.forest s.root.forest.kindAt := fun _ _ _ => rfl
    exact (cleanEntries_cleans io s.root.distinct hself).pre (by rintro _ rfl; rfl)
  exact hclean.ok rfl h

theorem clean_root {io : Faults H} {s s' : CachedStore H} (h : clean io s = (s', .ok ()))
    (p : List FileName) :
    s'.root.kindAt p = if survives s.tree.forest p then s.root.kindAt p else none := by
  have hcleaned := clean_cleans h
  cases p with
  | nil => exact hcleaned.frame.kindAt_self
  | cons x p =>
    by_cases hx : x ∈ s.root.forest.names
    · exact hcleaned.shows x hx p
    · have hnone : s.root.kindAt (x :: p) = none := Forest.kindAt_of_not_mem hx p
      rw [hcleaned.frame.of_not_mem (q := x :: p) hx (by simp), hnone, ite_self]

theorem clean_leaf_iff {io : Faults H} {s s' : CachedStore H} (h : clean io s = (s', .ok ())) :
    s'.root.kindAt p = some (.leaf data) ↔ s.root.kindAt p = some (.leaf data) ∧
      ∃ q e, q <+: p ∧ s.tree.kindAt q = some (.leaf e) := by
  rw [clean_root h]
  constructor
  · intro hp
    split at hp
    · rename_i hs
      refine ⟨hp, ((survives_iff _ _).1 hs).resolve_left ?_⟩
      exact (clean_cleans h).files p data hp
    · cases hp
  · rintro ⟨hp, hq⟩
    rw [if_pos ((survives_iff _ _).2 (.inr hq)), hp]

/-- A second `Clean` finds nothing to remove. -/
theorem clean_idempotent {io io' : Faults H} {s s₁ s₂ : CachedStore H}
    (h : clean io s = (s₁, .ok ())) (h' : clean io' s₁ = (s₂, .ok ())) (p : List FileName) :
    s₂.root.kindAt p = s₁.root.kindAt p := by
  have hsame := (clean_same io s).state (.refl s)
  rw [h] at hsame
  rw [clean_root h', hsame.tree]
  split
  · rfl
  · rename_i hgone
    rw [clean_root h, if_neg hgone]

theorem clean_idempotent_one : ∃ s₁ s₂ : CachedStore Bytes,
    clean (fun _ => none) s₁ = (s₂, .ok ()) ∧
      s₂.root.kindAt [⟨"d", rfl⟩, ⟨"f", rfl⟩] = some (.leaf [1]) ∧
      s₂.root.kindAt [⟨"d", rfl⟩, ⟨"g", rfl⟩] = none ∧ s₂.root.kindAt [⟨"h", rfl⟩] = none := by
  let s : CachedStore Bytes := {
    tree := Tree.storeHash .empty [1] 1 [⟨"d", rfl⟩, ⟨"f", rfl⟩]
    root := ⟨.node ⟨"d", rfl⟩ (.leaf ⟨"f", rfl⟩ [1] (.leaf ⟨"g", rfl⟩ [2] .nil))
      (.leaf ⟨"h", rfl⟩ [3] .nil), by decide⟩ }
  have hs : clean (fun _ => none) s = ((clean (fun _ => none) s).1, .ok ()) :=
    Prod.ext rfl (by decide +kernel)
  have hs₁ : clean (fun _ => none) (clean (fun _ => none) s).1 =
      ((clean (fun _ => none) (clean (fun _ => none) s).1).1, .ok ()) :=
    Prod.ext rfl (by decide +kernel)
  have hsame := clean_idempotent hs hs₁
  exact ⟨_, _, hs₁, (hsame _).trans (by decide +kernel), (hsame _).trans (by decide +kernel),
    (hsame _).trans (by decide +kernel)⟩

/-- `Clean` keeps every versioned file, and leaves no other just if there was none in a directory
that has the name of a versioned file. -/
theorem clean_versioned_iff {io : Faults H} {s s' : CachedStore H}
    (h : clean io s = (s', .ok ())) :
    s'.tree = s.tree ∧
      (∀ p e data, s.tree.lookup p = some (.leaf e) → s.root.kindAt p = some (.leaf data) →
        s'.root.kindAt p = some (.leaf data)) ∧
      ((∀ p data, s'.root.kindAt p = some (.leaf data) → ∃ e, s.tree.lookup p = some (.leaf e)) ↔
        ∀ p q e data, s.tree.lookup p = some (.leaf e) →
          s.root.kindAt (p ++ q) = some (.leaf data) → q = []) := by
  simp only [Tree.lookup_leaf_iff]
  refine ⟨?_, ?_, ?_, ?_⟩
  · have hsame := (clean_same io s).state (.refl s)
    rw [h] at hsame
    exact hsame.tree
  · intro p e data he hp
    exact (clean_leaf_iff h).2 ⟨hp, p, e, List.prefix_rfl, he⟩
  · intro hall p q e data he hp
    have hkept := (clean_leaf_iff h).2 ⟨hp, p, e, List.prefix_append p q, he⟩
    obtain ⟨e', he'⟩ := hall _ _ hkept
    by_contra hq
    -- An external node has nothing below it.
    have hnode : s.tree.kindAt p = some .node :=
      FileTree.kindAt_of_isPrefix (List.prefix_append p q) (by simpa using hq) he'
    rw [he] at hnode
    cases hnode
  · intro hnone p data hp
    obtain ⟨hp, q, e, ⟨r, rfl⟩, he⟩ := (clean_leaf_iff h).1 hp
    obtain rfl := hnone q r e data he hp
    rw [List.append_nil]
    exact ⟨e, he⟩

/-- A versioned file stays, with what the user made of it; what is not versioned goes. -/
theorem clean_versioned_some :
    ∃ s s' : CachedStore Bytes, clean (fun _ => none) s = (s', .ok ()) ∧
      (∀ p data, s'.root.kindAt p = some (.leaf data) → ∃ e, s.tree.lookup p = some (.leaf e)) ∧
      s'.root.kindAt [⟨"f", rfl⟩] = some (.leaf [2]) ∧ s'.root.kindAt [⟨"g", rfl⟩] = none := by
  let s : CachedStore Bytes := {
    tree := ⟨.leaf ⟨"f", rfl⟩ { hash := [1], size := 1 } .nil, List.not_mem_nil, trivial⟩
    root := ⟨.leaf ⟨"f", rfl⟩ [2] (.leaf ⟨"g", rfl⟩ [3] .nil),
      by decide, List.not_mem_nil, trivial⟩ }
  have hflat (x y : FileName) (p : List FileName) : s.root.kindAt (x :: y :: p) = none := by
    simp only [s, FileTree.kindAt, Forest.kindAt_cons, Forest.get]
    split
    · rfl
    · split <;> rfl
  have hok : (clean (fun _ => none) s).2 = .ok () := by decide +kernel
  have hs : clean (fun _ => none) s = ((clean (fun _ => none) s).1, .ok ()) := Prod.ext rfl hok
  refine ⟨s, (clean (fun _ => none) s).1, hs, ?_, ?_, by decide +kernel⟩
  · apply (clean_versioned_iff hs).2.2.2
    intro p q e data he hp
    cases p with
    | nil => cases he
    | cons x p =>
      cases p with
      | nil =>
        cases q with
        | nil => rfl
        | cons y q =>
          rw [List.singleton_append, hflat] at hp
          cases hp
      | cons y p =>
        rw [List.cons_append, List.cons_append, hflat] at hp
        cases hp
  · exact (clean_versioned_iff hs).2.1 _ { hash := [1], size := 1 } _ (by decide) (by decide)

/-- A directory that has the name of a versioned file keeps what is in it. -/
theorem clean_leaves_unversioned :
    ∃ s s' : CachedStore Bytes, clean (fun _ => none) s = (s', .ok ()) ∧
      s'.root.kindAt [⟨"f", rfl⟩, ⟨"g", rfl⟩] = some (.leaf [2]) ∧
      s.tree.lookup [⟨"f", rfl⟩, ⟨"g", rfl⟩] = none := by
  let s : CachedStore Bytes := {
    tree := .storeHash .empty [1] 1 [⟨"f", rfl⟩]
    root := ⟨.node ⟨"f", rfl⟩ (.leaf ⟨"g", rfl⟩ [2] .nil) .nil,
      List.not_mem_nil, ⟨List.not_mem_nil, trivial⟩, trivial⟩ }
  have hok : (clean (fun _ => none) s).2 = .ok () := by decide +kernel
  exact ⟨s, (clean (fun _ => none) s).1, Prod.ext rfl hok, by decide +kernel, by decide +kernel⟩

end Goutils.Artifact
