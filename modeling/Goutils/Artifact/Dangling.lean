import Goutils.Lib.Machine
import Goutils.Artifact.Cache

namespace Goutils.Artifact
open Lib Lib.Stateful
open Lib.Wire (Bytes)
set_option autoImplicit true

variable {H : Type} [DecidableEq H] (c : Settings H) (io : Faults H)

omit [DecidableEq H] in
theorem attempt_keeps (op : IoOp H) (I : CachedStore H → Prop) : Keeps I (attempt io op) := by
  unfold attempt
  split
  · exact .pure
  · exact .fail

namespace CachedStore

theorem sourceLoad_cacheStore (s : CachedStore H) (hash h : H) (data : Bytes) :
    (s.cacheStore hash data).sourceLoad h =
      if s.source = none ∧ h = hash then some data else s.sourceLoad h := by
  unfold sourceLoad cacheStore
  cases hs : s.source with
  | none => simp [Function.update_apply]
  | some source => simp

theorem sourceLoad_sourceStore (s : CachedStore H) (hash h : H) (data : Bytes) :
    (s.sourceStore hash data).sourceLoad h = if h = hash then some data else s.sourceLoad h := by
  unfold sourceStore
  split
  · rename_i hs
    rw [sourceLoad_cacheStore]
    simp [hs]
  · rename_i source hs
    simp [sourceLoad, hs, Function.update_apply]

variable {s s' : CachedStore H} {hash hash' : H}

def InSource (s : CachedStore H) (hash : H) : Prop := (s.sourceLoad hash).isSome = true

/-- The source has what the tree, and every tree that was committed, refers to. -/
structure NoDangling (s : CachedStore H) : Prop where
  tree : s.tree.AllHashes s.InSource
  committed : ∀ t ∈ s.committed, t.AllHashes s.InSource

omit [DecidableEq H] in
theorem NoDangling.of_source (h : s.NoDangling) (hl : ∀ hash, s.InSource hash → s'.InSource hash)
    (ht : s'.tree = s.tree) (hc : s'.committed = s.committed) : s'.NoDangling := by
  constructor
  · rw [ht]
    exact h.tree.imp hl
  · rw [hc]
    exact fun t hmem => (h.committed t hmem).imp hl

theorem InSource.sourceStore (h : s.InSource hash) (hash' : H) (data : Bytes) :
    (s.sourceStore hash' data).InSource hash := by
  rw [InSource, sourceLoad_sourceStore]
  split
  · rfl
  · exact h

theorem InSource.cacheStore (h : s.InSource hash) (hash' : H) (data : Bytes) :
    (s.cacheStore hash' data).InSource hash := by
  rw [InSource, sourceLoad_cacheStore]
  split
  · rfl
  · exact h

theorem sourceStore_same (s : CachedStore H) (hash : H) (data : Bytes) :
    (s.sourceStore hash data).tree = s.tree ∧ (s.sourceStore hash data).root = s.root ∧
      (s.sourceStore hash data).committed = s.committed := by
  unfold sourceStore
  split <;> exact ⟨rfl, rfl, rfl⟩

theorem NoDangling.sourceStore (h : s.NoDangling) (hash : H) (data : Bytes) :
    (s.sourceStore hash data).NoDangling := by
  obtain ⟨ht, _, hc⟩ := s.sourceStore_same hash data
  exact h.of_source (fun _ hh => hh.sourceStore hash data) ht hc

theorem NoDangling.cacheStore (h : s.NoDangling) (hash : H) (data : Bytes) :
    (s.cacheStore hash data).NoDangling :=
  h.of_source (fun _ hh => hh.cacheStore hash data) rfl rfl

omit [DecidableEq H] in
theorem NoDangling.enterDir (h : s.NoDangling) (hp : path ≠ []) :
    (enterDir path s).NoDangling := by
  unfold Artifact.enterDir
  split
  · exact h
  · exact ⟨h.tree.makeNode hp, h.committed⟩

omit [DecidableEq H] in
theorem NoDangling.commit (h : s.NoDangling) :
    ({ s with committed := s.committed ++ [s.tree] } : CachedStore H).NoDangling := by
  refine ⟨h.tree, ?_⟩
  intro t ht
  obtain ht | ht := List.mem_append.1 ht
  · exact h.committed t ht
  · rw [List.mem_singleton.1 ht]
    exact h.tree

/-- The versioned part of `s₀`: its trees, and what the source holds. -/
structure SameVersioned (s₀ s : CachedStore H) : Prop where
  tree : s.tree = s₀.tree
  committed : s.committed = s₀.committed
  sourceLoad : ∀ hash, s.sourceLoad hash = s₀.sourceLoad hash

omit [DecidableEq H] in
theorem SameVersioned.refl (s : CachedStore H) : SameVersioned s s := ⟨rfl, rfl, fun _ => rfl⟩

omit [DecidableEq H] in
theorem SameVersioned.root (h : SameVersioned s s') (root : Directory) :
    SameVersioned s { s' with root } := { h with }

theorem SameVersioned.cacheStore (h : SameVersioned s s') (hd : s.sourceLoad hash = some data) :
    SameVersioned s (s'.cacheStore hash data) := by
  refine ⟨h.tree, h.committed, ?_⟩
  intro hash'
  rw [sourceLoad_cacheStore]
  split
  · rename_i hh
    rw [hh.2, hd]
  · exact h.sourceLoad hash'

omit [DecidableEq H] in
theorem NoDangling.of_same (h : s.NoDangling) (hs : SameVersioned s s') : s'.NoDangling := by
  apply h.of_source _ hs.tree hs.committed
  intro hash hh
  rw [InSource, hs.sourceLoad]
  exact hh

end CachedStore

theorem walkFile_keeps {c : Settings H} {visit : Visit H β} {I : CachedStore H → Prop}
    (hvisit : ∀ k, Keeps I (visit k (c.computeHash data) path data)) (io : Faults H)
    (name : FileName) : Keeps I (walkFile c io visit path name data) := by
  unfold walkFile
  split
  · exact .pure
  · apply (attempt_keeps io _ I).bind
    intro _
    apply Keeps.get_bind
    intro s _
    apply ((attempt_keeps io _ I).mapError _).bind
    intro _
    apply (attempt_keeps io _ I).bind
    intro _
    split
    · split
      · exact .pure
      · exact hvisit .modified
    · exact hvisit .modified
    · exact hvisit .unstored

theorem walkEntries_keeps {c : Settings H} {visit : Visit H β} {I : CachedStore H → Prop}
    (hvisit : ∀ k path data, path ≠ [] → Keeps I (visit k (c.computeHash data) path data))
    (hdir : ∀ path s, path ≠ [] → I s → I (enterDir path s)) (io : Faults H)
    (treePath : List FileName) (d : Forest FileName Bytes) :
    Keeps I (walkEntries c io visit treePath d) := by
  induction d generalizing treePath with
  | nil => exact .pure
  | leaf name data rest ih =>
    apply (walkFile_keeps (fun k => hvisit k _ data (by simp)) io name).bind
    intro _
    apply (ih treePath).bind
    intro _
    exact .pure
  | node name children rest ihc ih =>
    apply (attempt_keeps io _ I).bind
    intro _
    apply (Keeps.modify fun s hs => hdir _ s (by simp) hs).bind
    intro _
    apply (attempt_keeps io _ I).bind
    intro _
    apply (ihc _).bind
    intro _
    apply (ih treePath).bind
    intro _
    exact .pure

theorem walkUserTreeUncached_keeps {c : Settings H} {visit : Visit H β} {I : CachedStore H → Prop}
    (hvisit : ∀ k path data, path ≠ [] → Keeps I (visit k (c.computeHash data) path data))
    (hdir : ∀ path s, path ≠ [] → I s → I (enterDir path s)) (io : Faults H) :
    Keeps I (walkUserTreeUncached c io visit) := by
  apply (attempt_keeps io _ I).bind
  intro _
  apply Keeps.get_bind
  intro s _
  exact walkEntries_keeps hvisit hdir io [] s.root.forest

/-- The tree gets the hash of a file only after both stores have the file, whatever fails. -/
theorem writeThrough_keeps {hash : H} {I J : CachedStore H → Prop}
    (hsource : ∀ s, I s → I (s.sourceStore hash data))
    (hcache : ∀ s, I s → I (s.cacheStore hash data))
    (hstored : ∀ s : CachedStore H, J ((s.sourceStore hash data).cacheStore hash data))
    (htree : ∀ s, I s → J s → I { s with tree := s.tree.storeHash hash data.length path })
    (k : NodeChangeType) : Keeps I (writeThrough io k hash path data) := by
  have hstore : Triple I (store io path hash data) (fun _ s => I s ∧ J s) I := by
    apply Triple.bind (attempt_keeps io _ I)
    intro _
    apply Triple.bind (Q := fun _ s => I s ∧ ∃ s₀, s = CachedStore.sourceStore hash data s₀)
    · exact .modify fun s hs => ⟨hsource s hs, s, rfl⟩
    · intro _
      apply Triple.bind ((attempt_keeps io _ _).error fun _ h => h.1)
      intro _
      apply Triple.modify
      rintro s ⟨hs, s₀, rfl⟩
      exact ⟨hcache _ hs, hstored s₀⟩
  apply Triple.bind hstore
  intro _
  apply Triple.bind (Q := fun _ => I)
  · exact .modify fun s hs => htree s hs.1 hs.2
  · intro _
    exact Keeps.pure

theorem writeThrough_noDangling (k : NodeChangeType) (hash : H) (data : Bytes) (hp : path ≠ []) :
    Keeps CachedStore.NoDangling (writeThrough io k hash path data) := by
  apply writeThrough_keeps (J := fun s => s.InSource hash)
  · exact fun s hs => hs.sourceStore hash data
  · exact fun s hs => hs.cacheStore hash data
  · intro s
    apply CachedStore.InSource.cacheStore
    rw [CachedStore.InSource, s.sourceLoad_sourceStore, if_pos rfl]
    rfl
  · exact fun s hs hash => ⟨hs.tree.storeHash hash _ hp, hs.committed⟩

omit [DecidableEq H] in
theorem commitFn_noDangling : Keeps CachedStore.NoDangling (commitFn io) := by
  apply (attempt_keeps io _ _).bind
  intro _
  apply Keeps.modify
  intro s hs
  exact hs.commit

theorem writeThroughUser_noDangling : Keeps CachedStore.NoDangling (writeThroughUser c io) := by
  have hwalk := walkUserTreeUncached_keeps
    (fun k path data hp => writeThrough_noDangling io k (c.computeHash data) data hp)
    (fun path s hp hs => hs.enterDir hp) io
  apply hwalk.bind
  intro _
  exact commitFn_noDangling io

theorem status_noDangling : Keeps CachedStore.NoDangling (status c io) := by
  have hwalk : Keeps CachedStore.NoDangling (walkUserTreeUncached c io report) :=
    walkUserTreeUncached_keeps (fun k path data hp => Keeps.pure)
      (fun path s hp hs => hs.enterDir hp) io
  apply hwalk.bind
  intro _
  exact .pure

omit [DecidableEq H] in
theorem remove_noDangling (path : String) : Keeps CachedStore.NoDangling (remove c io path) := by
  unfold remove
  split
  · exact commitFn_noDangling io
  · apply (Keeps.modify fun s hs => ⟨hs.tree.removePath _, hs.committed⟩).bind
    intro _
    exact commitFn_noDangling io

section Same

variable (s₀ : CachedStore H)

section

omit [DecidableEq H]

theorem removeAll_same (path : List FileName) :
    Keeps (CachedStore.SameVersioned s₀) (removeAll io path) := by
  apply (attempt_keeps io _ _).bind
  intro _
  exact .modify fun s hs => hs.root _

theorem cleanEntries_same (tree : TreeNodeTree H) (localPath : List FileName)
    (d : Forest FileName Bytes) :
    Keeps (CachedStore.SameVersioned s₀) (cleanEntries io tree localPath d) := by
  induction d generalizing tree localPath with
  | nil => exact .pure
  | leaf name data rest ih =>
    unfold cleanEntries
    split
    · exact .fail
    · exact ih tree localPath
    · apply (removeAll_same io s₀ _).bind
      intro _
      exact ih tree localPath
  | node name children rest ihc ih =>
    unfold cleanEntries
    split
    · apply (attempt_keeps io _ _).bind
      intro _
      apply (ihc _ _).bind
      intro _
      exact ih tree localPath
    · exact ih tree localPath
    · apply (removeAll_same io s₀ _).bind
      intro _
      exact ih tree localPath

theorem clean_same : Keeps (CachedStore.SameVersioned s₀) (clean io) := by
  apply (attempt_keeps io _ _).bind
  intro _
  apply Keeps.get_bind
  intro s _
  exact cleanEntries_same io s₀ _ _ _

theorem placeFile_same (hash : H) (path : List FileName) :
    Keeps (CachedStore.SameVersioned s₀) (placeFile io hash path) := by
  apply (attempt_keeps io _ _).bind
  intro _
  apply Keeps.get_bind
  intro s _
  split
  · exact .fail
  · apply (Keeps.modify fun s hs => hs.root _).bind
    intro _
    split
    · exact .fail
    · split
      · exact .fail
      · apply (attempt_keeps io _ _).bind
        intro _
        exact .modify fun s hs => hs.root _

theorem removeOld_same (path : List FileName) :
    Keeps (CachedStore.SameVersioned s₀) (removeOld io path) := by
  unfold removeOld
  split
  · exact .modify fun s hs => hs.root _
  · exact .fail

end

theorem emplaceFile_same (hash : H) (path : List FileName) :
    Keeps (CachedStore.SameVersioned s₀) (emplaceFile c io hash path) := by
  apply Keeps.get_bind
  intro s _
  split
  · exact .fail
  · split
    · exact placeFile_same io s₀ hash path
    · split
      · exact placeFile_same io s₀ hash path
      · exact .fail
      · apply (attempt_keeps io _ _).bind
        intro _
        split
        · exact .pure
        · apply (removeOld_same io s₀ path).bind
          intro _
          exact placeFile_same io s₀ hash path

theorem ensureExternal_same (ignoreLimit : Bool) (node : TreeNodeExternal H)
    (dstPath : List FileName) :
    Keeps (CachedStore.SameVersioned s₀) (ensureExternal c io ignoreLimit node dstPath) := by
  have hplace : Keeps (CachedStore.SameVersioned s₀)
      (wrapped "error emplacing into file system cache" (emplaceFile c io node.hash dstPath) >>=
        fun _ => pure (some dstPath)) := by
    apply ((emplaceFile_same c io s₀ _ _).mapError _).bind
    intro _
    exact .pure
  apply ((attempt_keeps io _ _).mapError _).bind
  intro _
  apply Keeps.get_bind
  intro s hs
  split
  · exact hplace
  · split
    · exact .pure
    · apply ((attempt_keeps io _ _).mapError _).bind
      intro _
      split
      · exact Keeps.fail.mapError _
      · rename_i data hd
        apply ((attempt_keeps io _ _).mapError _).bind
        intro _
        rw [hs.sourceLoad] at hd
        apply (Keeps.modify fun s' hs' => hs'.cacheStore hd).bind
        intro _
        exact hplace

theorem ensureEntries_same (ignoreLimit : Bool) (dstPath : List FileName) (t : TreeNodeTree H) :
    Keeps (CachedStore.SameVersioned s₀) (ensureEntries c io ignoreLimit dstPath t) := by
  induction t generalizing dstPath with
  | nil => exact .pure
  | leaf name node rest ih =>
    apply (ensureExternal_same c io s₀ ignoreLimit node _).bind
    intro _
    exact ih dstPath
  | node name internal rest ihc ih =>
    apply (ihc _).bind
    intro _
    exact ih dstPath

theorem ensureNode_same (ord : MapOrder H) (ignoreLimit : Bool) (dstPath : List FileName)
    (node : TreeNode H) :
    Keeps (CachedStore.SameVersioned s₀) (ensureNode c io ord ignoreLimit dstPath node) := by
  cases node with
  | leaf node => exact ensureExternal_same c io s₀ ignoreLimit node dstPath
  | node internal =>
    apply (ensureEntries_same c io s₀ ignoreLimit dstPath _).bind
    intro _
    exact .pure

theorem ensure_same (ord : MapOrder H) (path : String) (ignoreLimit : Bool) :
    Keeps (CachedStore.SameVersioned s₀) (ensure c io ord path ignoreLimit) := by
  apply Keeps.get_bind
  intro s _
  split
  · exact .fail
  · exact ensureNode_same c io s₀ ord ignoreLimit _ _

end Same

/-- The operations on a cache, with what fails during each, and the changes that a user makes under
the root. -/
inductive CacheOp (H : Type) where
  | edit (root : Directory)
  | writeThroughUser (io : Faults H)
  | remove (io : Faults H) (path : String)
  | clean (io : Faults H)
  | ensure (io : Faults H) (ord : MapOrder H) (path : String) (ignoreLimit : Bool)
  | status (io : Faults H)

/-- An operation holds the lock of the cache until it returns, so they come one after the other. -/
def CacheOp.apply (c : Settings H) (s : CachedStore H) : CacheOp H → CachedStore H
  | .edit root => { s with root }
  | .writeThroughUser io => (Artifact.writeThroughUser c io s).1
  | .remove io path => (Artifact.remove c io path s).1
  | .clean io => (Artifact.clean io s).1
  | .ensure io ord path ignoreLimit => (Artifact.ensure c io ord path ignoreLimit s).1
  | .status io => (Artifact.status c io s).1

theorem CacheOp.noDangling {s : CachedStore H} (h : s.NoDangling) (c : Settings H)
    (op : CacheOp H) : (op.apply c s).NoDangling := by
  cases op with
  | edit root => exact h.of_same ((CachedStore.SameVersioned.refl s).root root)
  | writeThroughUser io => exact (writeThroughUser_noDangling c io).state h
  | remove io path => exact (remove_noDangling c io path).state h
  | clean io => exact h.of_same ((clean_same io s).state (.refl s))
  | ensure io ord path ignoreLimit =>
    exact h.of_same ((ensure_same c io s ord path ignoreLimit).state (.refl s))
  | status io => exact (status_noDangling c io).state h

/-- A cache in use. It starts with any tree whose external nodes are in the source. -/
def cacheMachine (c : Settings H) : Machine (CachedStore H) (CacheOp H) where
  init s := s.committed = [] ∧
    ∀ p e, s.tree.lookup p = some (.leaf e) → (s.sourceLoad e.hash).isSome = true
  step s op := some (op.apply c s)

theorem CachedStore.reachable_noDangling {c : Settings H} {s : CachedStore H}
    (h : (cacheMachine c).Reachable s) : s.NoDangling := by
  apply h.invariant
  · rintro s ⟨hcommitted, htree⟩
    refine ⟨Tree.allHashes_iff_lookup.2 htree, ?_⟩
    simp [hcommitted]
  · intro s op s' hI hs
    cases hs
    exact op.noDangling hI c

/-- Whatever operations are called, and wherever they fail: what the tree in memory, and every tree
written to `tree.json`, refers to is in the source. -/
theorem external_mem_source {c : Settings H} {s : CachedStore H}
    (h : (cacheMachine c).Reachable s) {t : Tree H} (ht : t = s.tree ∨ t ∈ s.committed)
    {p : List FileName} {e : TreeNodeExternal H} (hp : t.lookup p = some (.leaf e)) :
    (s.sourceLoad e.hash).isSome = true := by
  have hI := CachedStore.reachable_noDangling h
  obtain rfl | ht := ht
  · exact Tree.allHashes_iff_lookup.1 hI.tree p e hp
  · exact Tree.allHashes_iff_lookup.1 (hI.committed t ht) p e hp

/-- The cache's disk is full when the second of two files is written through: the tree has the
first, and the removal of something else commits it. -/
theorem external_mem_source_partial :
    ∃ s t, (cacheMachine { computeHash := id }).Reachable s ∧ t ∈ s.committed ∧
      t.lookup [⟨"a", rfl⟩] = some (.leaf { hash := [1], size := 1 }) ∧
      t.lookup [⟨"b", rfl⟩] = none ∧ (s.sourceLoad [1]).isSome = true := by
  have hrun : ((cacheMachine { computeHash := id }).exec { source := some fun _ => none }
      [.edit ⟨.leaf ⟨"a", rfl⟩ [1] (.leaf ⟨"b", rfl⟩ [2] .nil), by decide⟩,
        .writeThroughUser fun op =>
          if op = .cacheStore [⟨"b", rfl⟩] [2] then some "no space left" else none,
        .status fun _ => none, .remove (fun _ => none) "old"]).any (fun s =>
          s.committed.head?.any fun t => decide (
            t.lookup [⟨"a", rfl⟩] = some (.leaf { hash := [1], size := 1 }) ∧
              t.lookup [⟨"b", rfl⟩] = none)) = true := by decide +kernel
  obtain ⟨s, hs, hp⟩ := exists_of_any hrun
  obtain ⟨t, ht, hp⟩ := exists_of_any hp
  obtain ⟨ha, hb⟩ := of_decide_eq_true hp
  have hr : (cacheMachine { computeHash := id }).Reachable s := by
    apply Machine.reachable_exec _ hs
    refine ⟨rfl, ?_⟩
    intro p e hp
    cases p <;> cases hp
  have hmem := List.mem_of_head? ht
  exact ⟨s, t, hr, hmem, ha, hb, external_mem_source hr (.inr hmem) ha⟩

end Goutils.Artifact
