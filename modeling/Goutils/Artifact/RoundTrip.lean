import Goutils.Artifact.Dangling

namespace Goutils.Artifact
open Lib Lib.Stateful
open Lib.Wire (Bytes)
set_option autoImplicit true

variable {H : Type} [DecidableEq H]

def Tree.HasFile (c : Settings H) (t : Tree H) (path : List FileName) (data : Bytes) : Prop :=
  ∃ e, t.kindAt path = some (.leaf e) ∧ e.hash = c.computeHash data

namespace Tree.HasFile

variable {c : Settings H} {t : Tree H}

omit [DecidableEq H]

theorem ne_nil (h : t.HasFile c path data) : path ≠ [] := by
  rintro rfl
  obtain ⟨e, he, _⟩ := h
  rw [FileTree.kindAt_nil] at he
  cases he

theorem node (h : t.HasFile c path data) (hq : q <+: path) (hne : q ≠ path) :
    t.kindAt q = some .node := by
  obtain ⟨e, he, _⟩ := h
  exact FileTree.kindAt_of_isPrefix hq hne he

theorem eq_of_isPrefix (h : t.HasFile c path data) (hq : t.HasFile c q data') (hpre : q <+: path) :
    q = path := by
  by_contra hne
  obtain ⟨e, he, _⟩ := hq
  rw [h.node hpre hne] at he
  cases he

end Tree.HasFile

def Covers (c : Settings H) (t : Tree H) (path : List FileName) : Forest FileName Bytes → Prop
  | .nil => True
  | .leaf name data rest =>
    (name.name ∉ c.ignoreSet → t.HasFile c (path ++ [name]) data) ∧ Covers c t path rest
  | .node name children rest =>
    t.kindAt (path ++ [name]) = some .node ∧ Covers c t (path ++ [name]) children ∧
      Covers c t path rest

namespace Covers

variable {c : Settings H} {t t' : Tree H}

omit [DecidableEq H]

theorem congr (h : Covers c t path d) (heq : ∀ x ∈ d.names, ∀ q, path ++ [x] <+: q →
    t'.kindAt q = t.kindAt q) : Covers c t' path d := by
  induction d generalizing path with
  | nil => trivial
  | leaf name data rest ih =>
    obtain ⟨hfile, hrest⟩ := h
    refine ⟨?_, ih hrest fun x hx => heq x (List.mem_cons_of_mem _ hx)⟩
    intro hig
    obtain ⟨e, he, hh⟩ := hfile hig
    exact ⟨e, by rw [heq name List.mem_cons_self _ List.prefix_rfl, he], hh⟩
  | node name children rest ihc ih =>
    obtain ⟨hnode, hchildren, hrest⟩ := h
    have hbelow := heq name List.mem_cons_self
    refine ⟨by rw [hbelow _ List.prefix_rfl, hnode], ihc hchildren ?_,
      ih hrest fun x hx => heq x (List.mem_cons_of_mem _ hx)⟩
    intro x _ q hq
    exact hbelow q ((List.prefix_append _ _).trans hq)

theorem frame (h : Covers c t (path ++ [name]) d) (hf : FileTree.Frame path names t t')
    (hn : name ∉ names) : Covers c t' (path ++ [name]) d := by
  apply h.congr
  intro x _ q hq
  exact hf.of_not_mem hn ((List.prefix_append _ _).trans hq)

theorem hasFile (h : Covers c t path d) (hp : d.kindAt p = some (.leaf data))
    (hlast : p.getLast? = some name) (hig : name.name ∉ c.ignoreSet) :
    t.HasFile c (path ++ p) data := by
  induction d generalizing path p with
  | nil =>
    cases p with
    | nil => cases hlast
    | cons x p => cases hp
  | leaf n a rest ih =>
    cases p with
    | nil => cases hlast
    | cons x p =>
      rw [Forest.kindAt_cons, Forest.get] at hp
      split at hp
      · cases p with
        | nil =>
          cases hp
          cases hlast
          subst_vars
          exact h.1 hig
        | cons y p => cases hp
      · rw [← Forest.kindAt_cons] at hp
        exact ih h.2 hp hlast
  | node n children rest ihc ih =>
    cases p with
    | nil => cases hlast
    | cons x p =>
      rw [Forest.kindAt_cons, Forest.get] at hp
      split at hp
      · cases p with
        | nil => cases hp
        | cons y p =>
          subst_vars
          rw [List.append_cons]
          exact ihc h.2.1 hp hlast
      · rw [← Forest.kindAt_cons] at hp
        exact ih h.2.2 hp hlast

end Covers

theorem store_tree (io : Faults H) (path : List FileName) (hash : H) (data : Bytes) (t : Tree H) :
    Keeps (fun s => s.tree = t) (store io path hash data) := by
  apply (attempt_keeps io _ _).bind
  intro _
  apply (Keeps.modify fun s hs => (s.sourceStore_same hash data).1.trans hs).bind
  intro _
  apply (attempt_keeps io _ _).bind
  intro _
  exact .modify fun s hs => hs

theorem writeThrough_tree (io : Faults H) (k : NodeChangeType) (hash : H) (path : List FileName)
    (data : Bytes) (t : Tree H) :
    Triple (fun s => s.tree = t) (writeThrough io k hash path data)
      (fun _ s => s.tree = t.store path { hash, size := data.length }) (fun _ => True) := by
  apply Triple.bind (store_tree io path hash data t).orFails
  intro _
  have hset : Triple (fun s => s.tree = t)
      (Stateful.modify fun s => { s with tree := s.tree.storeHash hash data.length path } :
        Op H Unit)
      (fun _ s => s.tree = t.store path { hash, size := data.length }) (fun _ => True) := by
    apply Triple.modify
    rintro s rfl
    exact Tree.storeHash_eq _ _ _ _
  apply Triple.bind hset
  intro _
  exact .pure fun _ h => h

theorem walkFile_covers (c : Settings H) (io : Faults H) {t : Tree H}
    (ht : t.kindAt path = some .node) (name : FileName) (data : Bytes) :
    Triple (fun s => s.tree = t) (walkFile c io (writeThrough io) (path ++ [name]) name data)
      (fun _ s => (name.name ∉ c.ignoreSet → s.tree.HasFile c (path ++ [name]) data) ∧
        FileTree.Frame path [name] t s.tree) (fun _ => True) := by
  have hvisit (k : NodeChangeType) : Triple (fun s => s.tree = t)
      (writeThrough io k (c.computeHash data) (path ++ [name]) data)
      (fun _ s => (name.name ∉ c.ignoreSet → s.tree.HasFile c (path ++ [name]) data) ∧
        FileTree.Frame path [name] t s.tree) (fun _ => True) := by
    apply (writeThrough_tree io k (c.computeHash data) (path ++ [name]) data t).post
    intro _ s hs
    rw [hs]
    refine ⟨fun _ => ⟨{ hash := c.computeHash data, size := data.length }, ?_, rfl⟩,
      .store ht name _⟩
    rw [FileTree.kindAt_store _ (by simp), if_pos rfl]
  unfold walkFile
  split
  · rename_i hig
    apply Triple.pure
    rintro s rfl
    exact ⟨fun h => absurd hig h, .refl _ _ _⟩
  · apply Triple.bind (attempt_keeps io _ _).orFails
    intro _
    apply Triple.get_bind
    rintro s₀ rfl
    apply Triple.pre (P := fun s => s.tree = s₀.tree) _ (by rintro _ rfl; rfl)
    apply Triple.bind ((attempt_keeps io _ _).orFails.mapError _)
    intro _
    apply Triple.bind (attempt_keeps io _ _).orFails
    intro _
    split
    · rename_i e he
      split
      · rename_i hh
        apply Triple.pure
        intro s hs
        rw [hs]
        exact ⟨fun _ => ⟨e, (Tree.lookup_eq_leaf (by simp)).1 he, hh⟩, .refl _ _ _⟩
      · exact hvisit .modified
    · exact hvisit .modified
    · exact hvisit .unstored

variable {s : CachedStore H}

omit [DecidableEq H] in
theorem enterDir_tree (h : s.tree.kindAt path = some .node) (name : FileName) :
    (enterDir (path ++ [name]) s).tree.kindAt (path ++ [name]) = some .node ∧
      FileTree.Frame path [name] s.tree (enterDir (path ++ [name]) s).tree := by
  unfold enterDir
  split
  · rename_i internal hl
    exact ⟨(Tree.lookup_eq_node (by simp)).1 ⟨internal, hl⟩, .refl _ _ _⟩
  · refine ⟨?_, .makeNode h name⟩
    rw [FileTree.kindAt_makeNode _ (by simp), if_pos rfl]

theorem walkEntries_covers (c : Settings H) (io : Faults H) {d : Forest FileName Bytes}
    (hd : d.Distinct) {t : Tree H} (ht : t.kindAt path = some .node) :
    Triple (fun s => s.tree = t) (walkEntries c io (writeThrough io) path d)
      (fun _ s => Covers c s.tree path d ∧ FileTree.Frame path d.names t s.tree)
      (fun _ => True) := by
  induction d generalizing path t with
  | nil => exact .pure (by rintro s rfl; exact ⟨trivial, .refl _ _ _⟩)
  | leaf name data rest ih =>
    apply Triple.bind (walkFile_covers c io ht name data)
    intro r
    apply Triple.of_forall
    rintro s₁ ⟨hfile, hframe₁⟩
    have hrest := ih hd.2 (hframe₁.kindAt_self.trans ht)
    apply Triple.bind (hrest.pre (by rintro _ rfl; rfl))
    intro rs
    apply Triple.pure
    rintro s ⟨hcovers, hframe⟩
    refine ⟨⟨?_, hcovers⟩, hframe₁.trans hframe⟩
    intro hig
    obtain ⟨e, he, hh⟩ := hfile hig
    exact ⟨e, by rw [hframe.of_not_mem hd.1 List.prefix_rfl, he], hh⟩
  | node name children rest ihc ih =>
    apply Triple.bind (attempt_keeps io _ _).orFails
    intro _
    apply Triple.of_forall
    rintro s₀ rfl
    obtain ⟨hnode, hframe₀⟩ := enterDir_tree ht name
    have hmodify : Triple (· = s₀) (Stateful.modify (enterDir (path ++ [name])) : Op H Unit)
        (fun _ s => s.tree = (enterDir (path ++ [name]) s₀).tree) (fun _ => True) :=
      Triple.modify (by rintro s rfl; rfl)
    apply Triple.bind hmodify
    intro _
    apply Triple.bind (attempt_keeps io _ _).orFails
    intro _
    apply Triple.bind (ihc hd.2.1 hnode)
    intro r
    apply Triple.of_forall
    rintro s₁ ⟨hchildren, hframe₁⟩
    have hbefore := hframe₀.trans hframe₁.below
    have hrest := ih hd.2.2 (hbefore.kindAt_self.trans ht)
    apply Triple.bind (hrest.pre (by rintro _ rfl; rfl))
    intro rs
    apply Triple.pure
    rintro s ⟨hcovers, hframe⟩
    refine ⟨⟨?_, hchildren.frame hframe hd.1, hcovers⟩, (hbefore.trans hframe).mono ?_⟩
    · rw [hframe.of_not_mem hd.1 List.prefix_rfl, hframe₁.kindAt_self, hnode]
    · intro x hx
      simpa [Forest.names] using hx

omit [DecidableEq H] in
theorem attempt_works (op : IoOp H) (P : CachedStore H → Prop) :
    Triple P (attempt (fun _ => none) op) (fun _ => P) fun _ => False := .pure fun _ h => h

theorem walkFile_report (c : Settings H) {name : FileName} {data : Bytes}
    (h : name.name ∉ c.ignoreSet → s.tree.HasFile c (path ++ [name]) data) :
    Triple (· = s) (walkFile c (fun _ => none) report (path ++ [name]) name data)
      (fun r s' => r = [] ∧ s' = s) fun _ => False := by
  have hnil : Triple (· = s) (pure [] : Op H (List (NodeChangeType × List FileName)))
      (fun r s' => r = [] ∧ s' = s) fun _ => False := .pure fun _ hs => ⟨rfl, hs⟩
  unfold walkFile
  split
  · exact hnil
  · rename_i hig
    obtain ⟨e, he, hh⟩ := h hig
    apply Triple.bind (attempt_works _ _)
    intro _
    apply Triple.get_bind
    rintro _ rfl
    apply Triple.bind ((attempt_works _ _).mapError _)
    intro _
    apply Triple.bind (attempt_works _ _)
    intro _
    rw [(Tree.lookup_eq_leaf (by simp)).2 he]
    simp only [hh, if_true]
    exact hnil

theorem Covers.report {c : Settings H} (h : Covers c s.tree path d) :
    Triple (· = s) (walkEntries c (fun _ => none) report path d)
      (fun r s' => r = [] ∧ s' = s) fun _ => False := by
  induction d generalizing path with
  | nil => exact .pure fun _ hs => ⟨rfl, hs⟩
  | leaf name data rest ih =>
    apply Triple.bind (walkFile_report c h.1)
    intro r
    apply Triple.of_forall
    rintro _ ⟨rfl, rfl⟩
    apply Triple.bind (ih h.2)
    intro rs
    apply Triple.pure
    rintro _ ⟨rfl, rfl⟩
    exact ⟨rfl, rfl⟩
  | node name children rest ihc ih =>
    obtain ⟨hnode, hchildren, hrest⟩ := h
    obtain ⟨internal, hl⟩ := (Tree.lookup_eq_node (by simp)).2 hnode
    have henter : enterDir (path ++ [name]) s = s := by
      unfold enterDir
      rw [hl]
    apply Triple.bind (attempt_works _ _)
    intro _
    apply Triple.bind (Q := fun _ s' => s' = s)
    · apply Triple.modify
      rintro _ rfl
      exact henter
    · intro _
      apply Triple.bind (attempt_works _ _)
      intro _
      apply Triple.bind (ihc hchildren)
      intro r
      apply Triple.of_forall
      rintro _ ⟨rfl, rfl⟩
      apply Triple.bind (ih hrest)
      intro rs
      apply Triple.pure
      rintro _ ⟨rfl, rfl⟩
      exact ⟨rfl, rfl⟩

namespace CachedStore

/-- The source has the content of the hash, and the cache nothing else under it. -/
structure Stored (c : Settings H) (s : CachedStore H) (hash : H) : Prop where
  source : ∃ data, s.sourceLoad hash = some data ∧ c.computeHash data = hash
  cache : ∀ data, s.cache hash = some data → c.computeHash data = hash

variable {c : Settings H} {s s' : CachedStore H} {hash : H} {dir : Directory}

omit [DecidableEq H] in
theorem Stored.congr (h : s.Stored c hash) (hsource : s'.source = s.source)
    (hcache : s'.cache = s.cache) : s'.Stored c hash := by
  have hload : s'.sourceLoad = s.sourceLoad := by
    unfold sourceLoad
    rw [hsource, hcache]
  exact ⟨hload ▸ h.source, hcache ▸ h.cache⟩

theorem cache_cacheStore (s : CachedStore H) (hash h : H) (data : Bytes) :
    (s.cacheStore hash data).cache h = if h = hash then some data else s.cache h :=
  Function.update_apply _ _ _ _

theorem Stored.cacheStore (h : s.Stored c hash) (data : Bytes) :
    (s.cacheStore (c.computeHash data) data).Stored c hash := by
  constructor
  · rw [sourceLoad_cacheStore]
    split
    · rename_i heq
      exact ⟨data, rfl, heq.2.symm⟩
    · exact h.source
  · intro data' hd'
    rw [cache_cacheStore] at hd'
    split at hd'
    · rename_i heq
      cases hd'
      exact heq.symm
    · exact h.cache data' hd'

theorem Stored.sourceStore (h : s.Stored c hash) (data : Bytes) :
    (s.sourceStore (c.computeHash data) data).Stored c hash := by
  constructor
  · rw [sourceLoad_sourceStore]
    split
    · rename_i heq
      exact ⟨data, rfl, heq.symm⟩
    · exact h.source
  · unfold CachedStore.sourceStore
    split
    · exact (h.cacheStore data).cache
    · exact h.cache

theorem stored_store (c : Settings H) (s : CachedStore H) (data : Bytes) :
    ((s.sourceStore (c.computeHash data) data).cacheStore (c.computeHash data) data).Stored c
      (c.computeHash data) := by
  constructor
  · refine ⟨data, ?_, rfl⟩
    rw [sourceLoad_cacheStore, sourceLoad_sourceStore, if_pos rfl, ite_self]
  · intro data' hd'
    rw [cache_cacheStore, if_pos rfl] at hd'
    cases hd'
    rfl

/-- The stores have what the tree refers to, and the files under the root are the given ones. -/
structure Versioned (c : Settings H) (dir : Directory) (s : CachedStore H) : Prop where
  stored : s.tree.AllHashes (s.Stored c)
  root : s.root = dir

theorem Versioned.sourceStore (h : s.Versioned c dir) (data : Bytes) :
    (s.sourceStore (c.computeHash data) data).Versioned c dir := by
  obtain ⟨ht, hroot, _⟩ := s.sourceStore_same (c.computeHash data) data
  constructor
  · rw [ht]
    exact h.stored.imp fun _ hh => hh.sourceStore data
  · rw [hroot, h.root]

theorem Versioned.cacheStore (h : s.Versioned c dir) (data : Bytes) :
    (s.cacheStore (c.computeHash data) data).Versioned c dir :=
  ⟨h.stored.imp fun _ hh => hh.cacheStore data, h.root⟩

omit [DecidableEq H] in
theorem Versioned.with_tree (h : s.Versioned c dir) (ht : t.AllHashes (s.Stored c)) :
    ({ s with tree := t } : CachedStore H).Versioned c dir :=
  ⟨ht.imp fun _ hh => hh.congr rfl rfl, h.root⟩

omit [DecidableEq H] in
theorem Versioned.enterDir (h : s.Versioned c dir) (hp : path ≠ []) :
    (enterDir path s).Versioned c dir := by
  unfold Artifact.enterDir
  split
  · exact h
  · exact h.with_tree (h.stored.makeNode hp)

end CachedStore

theorem writeThrough_versioned (c : Settings H) (dir : Directory) (io : Faults H)
    (k : NodeChangeType) (data : Bytes) (hp : path ≠ []) :
    Keeps (CachedStore.Versioned c dir)
      (writeThrough io k (c.computeHash data) path data) := by
  apply writeThrough_keeps (J := fun s => s.Stored c (c.computeHash data))
  · exact fun s hs => hs.sourceStore data
  · exact fun s hs => hs.cacheStore data
  · exact fun s => s.stored_store c data
  · exact fun s hs hash => hs.with_tree (hs.stored.storeHash hash _ hp)

theorem writeThroughUser_covers {c : Settings H} {io : Faults H} {w w' : CachedStore H}
    (hstored : w.tree.AllHashes (w.Stored c)) (h : writeThroughUser c io w = (w', .ok ())) :
    Covers c w'.tree [] w.root.forest ∧ w'.Versioned c w.root := by
  have hwalk := walkEntries_covers c io w.root.distinct (FileTree.kindAt_nil w.tree)
  have hkeeps := walkEntries_keeps
    (fun k path data hp => writeThrough_versioned c w.root io k data hp)
    (fun path s hp hs => hs.enterDir hp) io [] w.root.forest
  have hboth : Triple (· = w) (walkEntries c io (writeThrough io) [] w.root.forest)
      (fun _ s => Covers c s.tree [] w.root.forest ∧ s.Versioned c w.root) (fun _ => True) := by
    apply Triple.error (((hwalk.pre _).post fun _ _ h => h.1).and (hkeeps.pre _)) fun _ _ => trivial
    · rintro _ rfl
      rfl
    · rintro _ rfl
      exact ⟨hstored, rfl⟩
  have hall : Triple (· = w) (writeThroughUser c io)
      (fun _ s => Covers c s.tree [] w.root.forest ∧ s.Versioned c w.root) (fun _ => True) := by
    apply Triple.bind (Q := fun _ s => Covers c s.tree [] w.root.forest ∧ s.Versioned c w.root)
    · apply Triple.bind (attempt_keeps io _ _).orFails
      intro _
      apply Triple.get_bind
      rintro _ rfl
      exact hboth
    · intro _
      apply Triple.bind (attempt_keeps io _ _).orFails
      intro _
      exact .modify fun s hs => ⟨hs.1, hs.2.stored.imp fun _ hh => hh.congr rfl rfl, hs.2.root⟩
  exact hall.ok rfl h

/-- The files under the root are files of the tree, those at the given paths at least. -/
structure Filling (c : Settings H) (t : Tree H) (placed : List FileName → Prop)
    (s : CachedStore H) : Prop where
  stored : t.AllHashes (s.Stored c)
  files : ∀ p data, s.root.kindAt p = some (.leaf data) → t.HasFile c p data
  dirs : ∀ p, s.root.kindAt p = some .node → t.kindAt p = some .node
  placed : ∀ p, placed p → ∃ data, s.root.kindAt p = some (.leaf data)

namespace Filling

variable {c : Settings H} {t : Tree H} {placed placed' : List FileName → Prop} {s : CachedStore H}

omit [DecidableEq H] in
theorem mono (h : Filling c t placed s) (hp : ∀ p, placed' p → placed p) :
    Filling c t placed' s :=
  { h with placed := fun p hp' => h.placed p (hp p hp') }

theorem cacheStore (h : Filling c t placed s) (data : Bytes) :
    Filling c t placed (s.cacheStore (c.computeHash data) data) :=
  { h with stored := h.stored.imp fun _ hh => hh.cacheStore data }

omit [DecidableEq H] in
theorem of_leaf (h : Filling c t placed s) (hp : s.root.kindAt path = some (.leaf data)) :
    Filling c t (fun p => placed p ∨ p = path) s := by
  refine { h with placed := ?_ }
  rintro p (hplaced | rfl)
  · exact h.placed p hplaced
  · exact ⟨data, hp⟩

omit [DecidableEq H] in
theorem makeAll (h : Filling c t placed s) (hp : t.HasFile c path data) :
    ∃ root, s.root.makeAll path.dropLast = some root := by
  apply FileTree.makeAll_isSome
  intro q a hq hleaf
  have hparent := List.dropLast_prefix path
  have heq := hp.eq_of_isPrefix (h.files q a hleaf) (hq.trans hparent)
  rw [heq] at hq
  exact FileTree.not_prefix_dropLast hp.ne_nil hq

omit [DecidableEq H] in
theorem store (h : Filling c t placed s) (hp : t.HasFile c path data)
    (hroot : ∀ q, root.kindAt q = (s.root.store path data).kindAt q) :
    Filling c t (fun p => placed p ∨ p = path) { s with root } := by
  simp only [FileTree.kindAt_store _ hp.ne_nil] at hroot
  refine ⟨h.stored.imp fun _ hh => hh.congr rfl rfl, ?_, ?_, ?_⟩
  · intro p data' hleaf
    rw [hroot] at hleaf
    split at hleaf
    · cases hleaf
      subst_vars
      exact hp
    · split at hleaf
      · cases hleaf
      · split at hleaf
        · cases hleaf
        · exact h.files p data' hleaf
  · intro p hnode
    rw [hroot] at hnode
    split at hnode
    · cases hnode
    · rename_i hne
      split at hnode
      · cases hnode
      · split at hnode
        · rename_i hpre
          exact hp.node hpre hne
        · exact h.dirs p hnode
  · rintro p (hplaced | rfl)
    · obtain ⟨data', hleaf⟩ := h.placed p hplaced
      have hfile := h.files p data' hleaf
      rw [hroot]
      split
      · exact ⟨data, rfl⟩
      · rename_i hne
        rw [if_neg fun hpre => hne (hfile.eq_of_isPrefix hp hpre).symm,
          if_neg fun hpre => hne (hp.eq_of_isPrefix hfile hpre)]
        exact ⟨data', hleaf⟩
    · exact ⟨data, by rw [hroot, if_pos rfl]⟩

end Filling

section Ensure

variable {c : Settings H} {t : Tree H} {placed : List FileName → Prop} {hash : H}

omit [DecidableEq H] in
theorem placeFile_works (hp : t.HasFile c path data) (hash : H) :
    Triple (fun s => Filling c t placed s ∧ s.cache hash = some data ∧ s.root.kindAt path = none)
      (placeFile (fun _ => none) hash path)
      (fun _ s => Filling c t (fun p => placed p ∨ p = path) s) fun _ => False := by
  apply Triple.bind (attempt_works _ _)
  intro _
  apply Triple.get_bind
  rintro s ⟨hs, hcache, hnone⟩
  obtain ⟨root, hroot⟩ := hs.makeAll hp
  have hnot : root.kindAt path ≠ some .node := by
    rw [FileTree.kindAt_makeAll hroot, if_neg (FileTree.not_prefix_dropLast hp.ne_nil), hnone]
    exact (Option.some_ne_none _).symm
  simp only [hroot, hcache, hnot, if_false]
  apply Triple.bind (Q := fun _ s' => s' = { s with root })
  · exact .modify (by rintro _ rfl; rfl)
  · intro _
    apply Triple.bind (attempt_works _ _)
    intro _
    apply Triple.modify
    rintro _ rfl
    exact hs.store hp fun q => FileTree.kindAt_makeAll_store hp.ne_nil hroot data q

theorem emplaceFile_works (hp : t.HasFile c path data) :
    Triple (fun s => Filling c t placed s ∧ s.cache (c.computeHash data) = some data)
      (emplaceFile c (fun _ => none) (c.computeHash data) path)
      (fun _ s => Filling c t (fun p => placed p ∨ p = path) s) fun _ => False := by
  apply Triple.get_bind
  rintro s ⟨hs, hcache⟩
  simp only [hcache, Option.isNone_some, Option.isSome_none, Bool.false_eq_true, if_false]
  obtain ⟨e, he, hh⟩ := hp
  cases hk : s.root.kindAt path with
  | none =>
    apply (placeFile_works ⟨e, he, hh⟩ (c.computeHash data)).pre
    rintro _ rfl
    exact ⟨hs, hcache, hk⟩
  | some k =>
    cases k with
    | node =>
      have hnode := hs.dirs path hk
      rw [he] at hnode
      cases hnode
    | leaf data' =>
      obtain ⟨e', he', hh'⟩ := hs.files path data' hk
      rw [he] at he'
      cases he'
      apply Triple.bind (attempt_works _ _)
      intro _
      rw [if_pos (hh'.symm.trans hh)]
      apply Triple.pure
      rintro _ rfl
      exact hs.of_leaf hk

theorem ensureExternal_works (hp : t.kindAt dstPath = some (.leaf node)) :
    Triple (Filling c t placed) (ensureExternal c (fun _ => none) true node dstPath)
      (fun _ s => Filling c t (fun p => placed p ∨ p = dstPath) s) fun _ => False := by
  -- the file is right, because of its hash, wherever it comes from
  have hemplace {data : Bytes} (hd : c.computeHash data = node.hash) :
      Triple (fun s => Filling c t placed s ∧ s.cache node.hash = some data)
        (wrapped "error emplacing into file system cache"
          (emplaceFile c (fun _ => none) node.hash dstPath) >>= fun _ => pure (some dstPath))
        (fun _ s => Filling c t (fun p => placed p ∨ p = dstPath) s) fun _ => False := by
    rw [← hd]
    apply Triple.bind ((emplaceFile_works ⟨node, hp, hd.symm⟩).mapError _)
    intro _
    exact .pure fun _ h => h
  apply Triple.bind ((attempt_works _ _).mapError _)
  intro _
  apply Triple.get_bind
  intro s hs
  obtain ⟨⟨data, hload, hd⟩, hcached⟩ := hs.stored dstPath node hp
  cases hc : s.cache node.hash with
  | some data' =>
    simp only [Option.isSome_some, if_true]
    apply (hemplace (hcached data' hc)).pre
    rintro _ rfl
    exact ⟨hs, hc⟩
  | none =>
    simp only [Option.isSome_none, Bool.false_eq_true, if_false, Bool.true_eq_false, false_and,
      hload]
    apply Triple.bind ((attempt_works _ _).mapError _)
    intro _
    apply Triple.bind ((attempt_works _ _).mapError _)
    intro _
    apply Triple.bind (Q := fun _ s => Filling c t placed s ∧ s.cache node.hash = some data)
    · apply Triple.modify
      rintro _ rfl
      refine ⟨?_, by rw [CachedStore.cache_cacheStore, if_pos rfl]⟩
      rw [← hd]
      exact hs.cacheStore data
    · intro _
      exact hemplace hd

theorem ensureEntries_works {f : TreeNodeTree H} (hd : f.Distinct)
    (hf : ∀ q e, f.kindAt q = some (.leaf e) → t.kindAt (dstPath ++ q) = some (.leaf e)) :
    Triple (Filling c t placed) (ensureEntries c (fun _ => none) true dstPath f)
      (fun _ s => Filling c t
        (fun p => placed p ∨ ∃ q e, p = dstPath ++ q ∧ f.kindAt q = some (.leaf e)) s)
      fun _ => False := by
  induction f generalizing dstPath placed with
  | nil =>
    apply Triple.pure
    intro s hs
    apply hs.mono
    rintro p (hp | ⟨q, e, rfl, hq⟩)
    · exact hp
    · cases q <;> cases hq
  | leaf name node rest ih =>
    have hrest : ∀ q e, rest.kindAt q = some (.leaf e) →
        t.kindAt (dstPath ++ q) = some (.leaf e) := fun q e hq =>
      hf q e (Forest.kindAt_rest (.leaf node) hd.1 hq)
    have hnode : (Forest.cons name rest (.leaf node)).kindAt [name] = some (.leaf node) := by
      rw [Forest.kindAt_cons, Forest.get_cons, if_pos rfl]
      rfl
    apply Triple.bind (ensureExternal_works (hf [name] node hnode))
    intro _
    apply (ih hd.2 hrest).post
    intro _ s hs
    apply hs.mono
    rintro p (hp | ⟨q, e, rfl, hq⟩)
    · exact .inl (.inl hp)
    · obtain ⟨r, rfl, hr⟩ | hq := Forest.leaf_of_cons (e := .leaf node) hq
      · cases r with
        | nil => exact .inl (.inr rfl)
        | cons x r => cases hr
      · exact .inr ⟨q, e, rfl, hq⟩
  | node name internal rest ihc ih =>
    have hrest : ∀ q e, rest.kindAt q = some (.leaf e) →
        t.kindAt (dstPath ++ q) = some (.leaf e) := fun q e hq =>
      hf q e (Forest.kindAt_rest (.node internal) hd.1 hq)
    have hinternal : ∀ q e, internal.kindAt q = some (.leaf e) →
        t.kindAt (dstPath ++ [name] ++ q) = some (.leaf e) := by
      intro q e hq
      rw [List.append_assoc]
      apply hf
      change (Forest.cons name rest (.node internal)).kindAt (name :: q) = _
      rw [Forest.kindAt_cons, Forest.get_cons, if_pos rfl]
      exact hq
    apply Triple.bind (ihc hd.2.1 hinternal)
    intro _
    apply (ih hd.2.2 hrest).post
    intro _ s hs
    apply hs.mono
    rintro p (hp | ⟨q, e, rfl, hq⟩)
    · exact .inl (.inl hp)
    · obtain ⟨r, rfl, hr⟩ | hq := Forest.leaf_of_cons (e := .node internal) hq
      · exact .inl (.inr ⟨r, e, by simp, hr⟩)
      · exact .inr ⟨q, e, rfl, hq⟩

omit [DecidableEq H] in
theorem Filling.of_empty (h : t.AllHashes (s.Stored c)) (hroot : s.root = .empty) :
    Filling c t (fun _ => False) s := by
  refine ⟨h, ?_, ?_, fun p hp => hp.elim⟩
  · intro p data hp
    rw [hroot, FileTree.empty_kindAt] at hp
    split at hp <;> cases hp
  · intro p hp
    rw [hroot, FileTree.empty_kindAt] at hp
    split at hp
    · subst_vars
      exact FileTree.kindAt_nil t
    · cases hp

theorem ensure_root_works (ord : MapOrder H) (h : s.tree.AllHashes (s.Stored c))
    (hroot : s.root = .empty) :
    ∃ s', ensure c (fun _ => none) ord "/" true s = (s', .ok (some [])) ∧
      Filling c s.tree (fun p => ∃ e, s.tree.kindAt p = some (.leaf e)) s' := by
  have hall : Triple (· = s) (ensure c (fun _ => none) ord "/" true)
      (fun r s' => r = some [] ∧
        Filling c s.tree (fun p => ∃ e, s.tree.kindAt p = some (.leaf e)) s') fun _ => False := by
    apply Triple.get_bind
    intro s₀ hs₀
    obtain rfl := hs₀.symm
    have hentries : Triple (Filling c s.tree fun _ => False)
        (ensureEntries c (fun _ => none) true [] (ord.order s.tree.forest))
        (fun _ s' => Filling c s.tree (fun p => ∃ e, s.tree.kindAt p = some (.leaf e)) s')
        fun _ => False := by
      have hsame := ord.same s.tree.forest
      have hleaf : ∀ q e, (ord.order s.tree.forest).kindAt q = some (.leaf e) →
          s.tree.kindAt ([] ++ q) = some (.leaf e) := fun q e hq => (hsame q).symm.trans hq
      apply (ensureEntries_works (ord.distinct _ s.tree.distinct) hleaf).post
      intro _ s' hs'
      apply hs'.mono
      rintro p ⟨e, he⟩
      exact .inr ⟨p, e, rfl, (hsame p).trans he⟩
    apply Triple.bind (hentries.pre _)
    · intro _
      exact .pure fun s' hs' => ⟨rfl, hs'⟩
    · rintro _ rfl
      exact .of_empty h hroot
  obtain ⟨r, s', hrun, rfl, hfill⟩ := hall.run rfl
  exact ⟨s', hrun, hfill⟩

theorem status_nothing (h : Covers c s.tree [] s.root.forest) :
    (status c (fun _ => none) s).2 = .ok {} := by
  have hall : Triple (· = s) (status c fun _ => none) (fun r _ => r = {}) fun _ => False := by
    apply Triple.bind (Q := fun r _ => r = [])
    · apply Triple.bind (attempt_works _ _)
      intro _
      apply Triple.get_bind
      rintro _ rfl
      exact h.report.post fun _ _ h => h.1
    · intro changes
      apply Triple.pure
      rintro s rfl
      rfl
  obtain ⟨r, s', hrun, rfl⟩ := hall.run rfl
  rw [hrun]

end Ensure

/-- What was written through comes back: with the root emptied, `Ensure` makes every file that is
not ignored again. -/
theorem ensure_restores_writeThrough {c : Settings H} (hinj : Function.Injective c.computeHash)
    {io : Faults H} {w w' : CachedStore H}
    (hstored : ∀ p e, w.tree.lookup p = some (.leaf e) → w.Stored c e.hash)
    (hw : writeThroughUser c io w = (w', .ok ())) (ord : MapOrder H) :
    (∃ s, ensure c (fun _ => none) ord "/" true { w' with root := .empty } = (s, .ok (some [])) ∧
      ∀ p name data, w.root.kindAt (p ++ [name]) = some (.leaf data) → name.name ∉ c.ignoreSet →
        s.root.kindAt (p ++ [name]) = some (.leaf data)) ∧
      (status c (fun _ => none) w').2 = .ok {} := by
  obtain ⟨hcovers, hversioned⟩ := writeThroughUser_covers (Tree.allHashes_iff_lookup.2 hstored) hw
  constructor
  · have hempty : w'.tree.AllHashes
        (({ w' with root := .empty } : CachedStore H).Stored c) :=
      hversioned.stored.imp fun _ hh => hh.congr rfl rfl
    obtain ⟨s, hrun, hfill⟩ := ensure_root_works (s := { w' with root := .empty }) ord hempty rfl
    refine ⟨s, hrun, ?_⟩
    intro p name data hp hig
    obtain ⟨e, he, hh⟩ := hcovers.hasFile hp (by simp) hig
    obtain ⟨data', hd'⟩ := hfill.placed (p ++ [name]) ⟨e, he⟩
    -- the file that was placed has the hash of the one that was written through
    obtain ⟨e', he', hh'⟩ := hfill.files _ _ hd'
    rw [List.nil_append] at he
    rw [he] at he'
    cases he'
    rw [hd', hinj (hh'.symm.trans hh)]
  · apply status_nothing
    rw [hversioned.root]
    exact hcovers

/-- A file stands where the tree has a directory, and a directory where it has a file. -/
theorem ensure_restores_writeThrough_swapped :
    ∃ (c : Settings Bytes) (ord : MapOrder Bytes) (w w' s : CachedStore Bytes),
      w.tree.kindAt [⟨"d", rfl⟩] = some (.leaf { hash := [3], size := 1 }) ∧
      w.tree.kindAt [⟨"f", rfl⟩] = some .node ∧
      writeThroughUser c (fun _ => none) w = (w', .ok ()) ∧
      ensure c (fun _ => none) ord "/" true { w' with root := .empty } = (s, .ok (some [])) ∧
      s.root.kindAt [⟨"d", rfl⟩, ⟨"g", rfl⟩] = some (.leaf [1]) ∧
      s.root.kindAt [⟨"f", rfl⟩] = some (.leaf [2]) ∧
      (status c (fun _ => none) w').2 = .ok {} := by
  let c : Settings Bytes := { computeHash := id, ignoreSet := ["i"] }
  let w : CachedStore Bytes := {
    tree := (Tree.storeHash .empty [3] 1 [⟨"d", rfl⟩]).storeHash [3] 1 [⟨"f", rfl⟩, ⟨"x", rfl⟩]
    root := ⟨.node ⟨"d", rfl⟩ (.leaf ⟨"g", rfl⟩ [1] (.leaf ⟨"i", rfl⟩ [4] .nil))
      (.leaf ⟨"f", rfl⟩ [2] .nil), by decide⟩
    source := some fun h => if h = [3] then some [3] else none }
  have hw : writeThroughUser c (fun _ => none) w =
      ((writeThroughUser c (fun _ => none) w).1, .ok ()) := Prod.ext rfl rfl
  have hempty : Tree.AllHashes .empty (w.Stored c) := by
    intro p e hp
    rw [FileTree.empty_kindAt] at hp
    split at hp <;> cases hp
  have hthree : w.Stored c [3] := ⟨⟨[3], rfl, rfl⟩, by rintro _ ⟨⟩⟩
  have hstored : w.tree.AllHashes (w.Stored c) := by
    apply Tree.AllHashes.storeHash _ hthree 1 (List.cons_ne_nil _ _)
    exact hempty.storeHash hthree 1 (List.cons_ne_nil _ _)
  obtain ⟨⟨s, hrun, hs⟩, hstatus⟩ := ensure_restores_writeThrough Function.injective_id
    (Tree.allHashes_iff_lookup.1 hstored) hw ⟨id, fun _ h => h, fun _ _ => rfl⟩
  refine ⟨c, _, w, _, s, by decide, by decide, hw, hrun, ?_, ?_, hstatus⟩
  · exact hs [⟨"d", rfl⟩] ⟨"g", rfl⟩ [1] (by decide) (by decide)
  · exact hs [] ⟨"f", rfl⟩ [2] (by decide) (by decide)

/-- The walk stores nothing for a file whose hash is in the tree, and `Ensure` trusts what the
cache has under that hash. -/
theorem ensure_restores_corrupted :
    ∃ (c : Settings Bytes) (ord : MapOrder Bytes) (w w' s : CachedStore Bytes),
      Function.Injective c.computeHash ∧
      (∀ p e, w.tree.lookup p = some (.leaf e) →
        ∃ data, w.sourceLoad e.hash = some data ∧ c.computeHash data = e.hash) ∧
      w.root.kindAt [⟨"f", rfl⟩] = some (.leaf [1]) ∧
      writeThroughUser c (fun _ => none) w = (w', .ok ()) ∧
      ensure c (fun _ => none) ord "/" true { w' with root := .empty } = (s, .ok (some [])) ∧
      s.root.kindAt [⟨"f", rfl⟩] = some (.leaf [9]) := by
  let c : Settings Bytes := { computeHash := id }
  let ord : MapOrder Bytes := ⟨id, fun _ h => h, fun _ _ => rfl⟩
  let w : CachedStore Bytes := {
    tree := Tree.storeHash .empty [1] 1 [⟨"f", rfl⟩]
    root := ⟨.leaf ⟨"f", rfl⟩ [1] .nil, by decide⟩
    cache := fun h => if h = [1] then some [9] else none
    source := some fun h => if h = [1] then some [1] else none }
  have hempty : Tree.AllHashes .empty fun h : Bytes => h = [1] := by
    intro p e hp
    rw [FileTree.empty_kindAt] at hp
    split at hp <;> cases hp
  have hone := Tree.allHashes_iff_lookup.1 (hempty.storeHash rfl 1 (List.cons_ne_nil ⟨"f", rfl⟩ []))
  refine ⟨c, ord, w, _, _, Function.injective_id, fun p e hp => ⟨[1], ?_, (hone p e hp).symm⟩,
    by decide, Prod.ext rfl rfl, Prod.ext rfl rfl, by decide +kernel⟩
  rw [hone p e hp]
  rfl

end Goutils.Artifact
