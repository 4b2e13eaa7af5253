import Goutils.Artifact.RoundTrip

namespace Goutils.Artifact
open Lib Lib.Stateful
open Lib.Wire (Bytes)
set_option autoImplicit true

variable {H : Type} [DecidableEq H]

def DirsVersioned (t : Tree H) (path : List FileName) (d : Forest FileName Bytes) : Prop :=
  ∀ q, d.kindAt q = some .node → t.kindAt (path ++ q) = some .node

namespace DirsVersioned

variable {t t' : Tree H} {path : List FileName} {d f : Forest FileName Bytes}

omit [DecidableEq H]

theorem rest {e : Entry FileName Bytes} (h : DirsVersioned t path (.cons x d e))
    (hx : x ∉ d.names) : DirsVersioned t path d :=
  fun q hq => h q (Forest.kindAt_rest e hx hq)

theorem children (h : DirsVersioned t path (.node x f d)) : DirsVersioned t (path ++ [x]) f := by
  intro q hq
  rw [List.append_assoc]
  apply h (x :: q)
  rw [Forest.kindAt_cons, Forest.get, if_pos rfl]
  exact hq

theorem cons {e : Entry FileName Bytes} (hpath : t.kindAt path = some .node)
    (hentry : ∀ q, e.kindAt q = some .node → t.kindAt (path ++ x :: q) = some .node)
    (hrest : DirsVersioned t path d) : DirsVersioned t path (.cons x d e) := by
  intro q hq
  by_cases hne : q = []
  · rw [hne, List.append_nil]
    exact hpath
  · rcases Forest.kindAt_of_cons hne hq with ⟨q, rfl, hk⟩ | hk
    · exact hentry q hk
    · exact hrest q hk

end DirsVersioned

def NodesStay (t t' : Tree H) : Prop := ∀ p, t.kindAt p = some .node → t'.kindAt p = some .node

omit [DecidableEq H] in
theorem DirsVersioned.stay {t t' : Tree H} (h : DirsVersioned t path d) (hs : NodesStay t t') :
    DirsVersioned t' path d := fun q hq => hs _ (h q hq)

omit [DecidableEq H] in
theorem enterDir_of_node {s : CachedStore H} (hp : path ≠ [])
    (h : s.tree.kindAt path = some .node) : enterDir path s = s := by
  obtain ⟨internal, hl⟩ := (Tree.lookup_eq_node hp).2 h
  unfold enterDir
  rw [hl]

omit [DecidableEq H] in
theorem enterDir_node (s : CachedStore H) (hp : path ≠ []) :
    (enterDir path s).tree.kindAt path = some .node := by
  unfold enterDir
  split
  · rename_i internal hl
    exact (Tree.lookup_eq_node hp).1 ⟨internal, hl⟩
  · show (s.tree.makeNode path).kindAt path = _
    rw [FileTree.kindAt_makeNode _ hp, if_pos rfl]

omit [DecidableEq H] in
theorem enterDir_stay (s : CachedStore H) (hp : path ≠ []) :
    NodesStay s.tree (enterDir path s).tree := by
  intro p hnode
  by_cases hpath : s.tree.kindAt path = some .node
  · rw [enterDir_of_node hp hpath]
    exact hnode
  · have hother : ¬ path <+: p := by
      intro hpre
      by_cases heq : path = p
      · exact hpath (heq ▸ hnode)
      · exact hpath (FileTree.kindAt_of_isPrefix hpre heq hnode)
    unfold enterDir
    split
    · exact hnode
    · show (s.tree.makeNode path).kindAt p = _
      rw [FileTree.kindAt_makeNode _ hp, if_neg hother]
      split
      · rfl
      · split
        · rfl
        · exact hnode

theorem walkEntries_unchanged {c : Settings H} {s : CachedStore H} {d : Forest FileName Bytes}
    (hd : d.Distinct) (h : DirsVersioned s.tree path d) (io : Faults H) :
    Keeps (· = s) (walkEntries c io report path d) := by
  induction d generalizing path with
  | nil => exact .pure
  | leaf name data rest ih =>
    have hrest : DirsVersioned s.tree path rest := DirsVersioned.rest (e := .leaf data) h hd.1
    apply (walkFile_keeps (fun _ => Keeps.pure) io name).bind
    intro _
    apply (ih hd.2 hrest).bind
    intro _
    exact .pure
  | node name children rest ihc ih =>
    have hrest : DirsVersioned s.tree path rest := DirsVersioned.rest (e := .node children) h hd.1
    have hnode : s.tree.kindAt (path ++ [name]) = some .node := by
      have hself := h.children []
      rw [List.append_nil] at hself
      exact hself (Forest.kindAt_nil _)
    apply (attempt_keeps io _ _).bind
    intro _
    refine (Keeps.modify ?_).bind fun _ => ?_
    · rintro _ rfl
      exact enterDir_of_node (by simp) hnode
    apply (attempt_keeps io _ _).bind
    intro _
    apply (ihc hd.2.1 h.children).bind
    intro _
    apply (ih hd.2.2 hrest).bind
    intro _
    exact .pure

theorem walkFile_reports (c : Settings H) (P : CachedStore H → Prop) :
    Triple P (walkFile c (fun _ => none) report path name data) (fun _ => P) fun _ => False := by
  unfold walkFile
  split
  · exact .pure fun _ hs => hs
  · apply Triple.bind (attempt_works _ _)
    intro _
    apply Triple.get_bind
    intro s hs
    apply Triple.bind ((attempt_works _ _).mapError _)
    intro _
    apply Triple.bind (attempt_works _ _)
    intro _
    have hpure (l : List (NodeChangeType × List FileName)) :
        Triple (· = s) (pure l : Op H _) (fun _ => P) fun _ => False := .pure fun _ h => h ▸ hs
    split
    · split
      · exact hpure _
      · exact hpure _
    · exact hpure _
    · exact hpure _

theorem walkEntries_enters (c : Settings H) {s₀ : CachedStore H} (d : Forest FileName Bytes)
    (hpath : s₀.tree.kindAt path = some .node) :
    Triple (· = s₀) (walkEntries c (fun _ => none) report path d)
      (fun _ s => DirsVersioned s.tree path d ∧ NodesStay s₀.tree s.tree) fun _ => False := by
  induction d generalizing path s₀ with
  | nil =>
    apply Triple.pure
    rintro _ rfl
    refine ⟨?_, fun _ h => h⟩
    intro q hq
    cases q with
    | nil =>
      rw [List.append_nil]
      exact hpath
    | cons x q => cases hq
  | leaf name data rest ih =>
    apply Triple.bind (walkFile_reports c _)
    intro _
    apply Triple.bind (ih hpath)
    intro _
    apply Triple.pure
    rintro s ⟨hrest, hstay⟩
    refine ⟨DirsVersioned.cons (e := .leaf data) (hstay _ hpath) ?_ hrest, hstay⟩
    intro q hq
    rw [Entry.kindAt] at hq
    split at hq <;> cases hq
  | node name children rest ihc ih =>
    have hne : path ++ [name] ≠ [] := by simp
    apply Triple.bind (attempt_works _ _)
    intro _
    apply Triple.bind (Q := fun _ s => s = enterDir (path ++ [name]) s₀)
    · apply Triple.modify
      rintro _ rfl
      rfl
    · intro _
      apply Triple.bind (attempt_works _ _)
      intro _
      apply Triple.bind (ihc (enterDir_node s₀ hne))
      intro _
      apply Triple.of_forall
      rintro s₁ ⟨hchildren, hstay₁⟩
      have hstay : NodesStay s₀.tree s₁.tree := fun p hp => hstay₁ p (enterDir_stay s₀ hne p hp)
      apply Triple.bind (ih (hstay _ hpath))
      intro _
      apply Triple.pure
      rintro s₂ ⟨hrest, hstay₂⟩
      refine ⟨DirsVersioned.cons (e := .node children) (hstay₂ _ (hstay _ hpath)) ?_ hrest,
        fun p hp => hstay₂ p (hstay p hp)⟩
      intro q hq
      have hbelow := hchildren.stay hstay₂ q hq
      rw [List.append_assoc] at hbelow
      exact hbelow

/-- `Status` changes nothing, wherever it fails, just if every directory under the root is an
internal node of the tree. -/
theorem status_readOnly_iff (c : Settings H) (s : CachedStore H) :
    (∀ io, (status c io s).1 = s) ↔
      ∀ p, s.root.kindAt p = some .node → s.tree.kindAt p = some .node := by
  constructor
  · intro h p hp
    have hwalk := walkEntries_enters c s.root.forest (FileTree.kindAt_nil s.tree)
    have hstatus : Triple (· = s) (status c fun _ => none)
        (fun _ s' => DirsVersioned s'.tree [] s.root.forest) fun _ => False := by
      unfold status
      apply Triple.bind (Q := fun _ s' => DirsVersioned s'.tree [] s.root.forest)
      · unfold walkUserTreeUncached
        apply Triple.bind (attempt_works _ _)
        intro _
        apply Triple.get_bind
        rintro _ rfl
        exact hwalk.post fun _ _ hs => hs.1
      · intro _
        exact .pure fun _ hs => hs
    obtain ⟨r, s', hrun, hdirs⟩ := hstatus.run rfl
    have hsame := h fun _ => none
    rw [hrun] at hsame
    subst hsame
    exact hdirs p hp
  · intro h io
    have hkeeps : Keeps (· = s) (status c io) := by
      unfold status walkUserTreeUncached
      refine Keeps.bind ?_ fun _ => Keeps.pure
      apply (attempt_keeps io _ _).bind
      intro _
      apply Keeps.get_bind
      rintro s rfl
      have hdirs : DirsVersioned s.tree [] s.root.forest := h
      exact walkEntries_unchanged s.root.distinct hdirs io
    exact hkeeps.state rfl

/-- A directory shadows a versioned file: `Status` drops the file from the tree, and the next
commit writes that. -/
theorem status_forgets_file :
    ∃ (c : Settings Bytes) (s : CachedStore Bytes),
      s.tree.lookup [⟨"f", rfl⟩] = some (.leaf { hash := [1], size := 1 }) ∧
      (status c (fun _ => none) s).2 = .ok {} ∧
      ((remove c (fun _ => none) "old" (status c (fun _ => none) s).1).1.committed.map
        fun t => t.lookup [⟨"f", rfl⟩]) = [some (.node .nil)] ∧
      ((remove c (fun _ => none) "old" s).1.committed.map
        fun t => t.lookup [⟨"f", rfl⟩]) = [some (.leaf { hash := [1], size := 1 })] := by
  refine ⟨{ computeHash := id }, {
    tree := Tree.storeHash .empty [1] 1 [⟨"f", rfl⟩]
    root := ⟨.node ⟨"f", rfl⟩ .nil .nil, by decide⟩ }, ?_⟩
  decide +kernel

end Goutils.Artifact
