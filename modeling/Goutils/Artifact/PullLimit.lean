import Goutils.Artifact.RoundTrip

namespace Goutils.Artifact
open Lib Lib.Stateful
open Lib.Wire (Bytes)
set_option autoImplicit true

variable {H : Type}

/-- Whether `Ensure` takes the file of an external node from the source if the cache has not got
it. -/
def WithinLimit (c : Settings H) (ignoreLimit : Bool) (e : TreeNodeExternal H) : Prop :=
  ignoreLimit = true ∨ c.sourcePullSizeLimit = 0 ∨ e.size ≤ c.sourcePullSizeLimit

def Pulled (c : Settings H) (ignoreLimit : Bool) (s₀ : CachedStore H) (e : TreeNodeExternal H) :
    Prop := (s₀.cache e.hash).isSome = true ∨ WithinLimit c ignoreLimit e

def stored (s₀ : CachedStore H) (hash : H) : Option Bytes :=
  (s₀.cache hash).or (s₀.sourceLoad hash)

/-- What the call that begins with `s₀` may rely on. -/
structure WellSourced (s₀ : CachedStore H) : Prop where
  sizes : ∀ p q e e', s₀.tree.kindAt p = some (.leaf e) → s₀.tree.kindAt q = some (.leaf e') →
    e.hash = e'.hash → e.size = e'.size
  source : ∀ p e, s₀.tree.kindAt p = some (.leaf e) → (s₀.sourceLoad e.hash).isSome = true

/-- The accesses to a node's file succeed; one that cannot be opened counts as missing. -/
structure Accessible (c : Settings H) (io : Faults H) (ignoreLimit : Bool) (s₀ : CachedStore H)
    (path : List FileName) (e : TreeNodeExternal H) : Prop where
  contains : io (.cacheContains path e.hash) = none
  mkdirAll : Pulled c ignoreLimit s₀ e → io (.mkdirAll path) = none
  writeFile : Pulled c ignoreLimit s₀ e → io (.writeFile path) = none
  sourceLoad : s₀.cache e.hash = none → WithinLimit c ignoreLimit e → io (.sourceLoad e.hash) = none
  cacheLoaded : s₀.cache e.hash = none → WithinLimit c ignoreLimit e →
    io (.cacheLoaded e.hash) = none

structure Placed (c : Settings H) (ignoreLimit : Bool) (s₀ : CachedStore H)
    (visited : List FileName → Prop) (path : List FileName) (e : TreeNodeExternal H) : Prop where
  visited : visited path
  node : s₀.tree.kindAt path = some (.leaf e)
  pulled : Pulled c ignoreLimit s₀ e

/-- What stands under the root when the nodes at some paths were visited. -/
structure RootOf (c : Settings H) (ignoreLimit : Bool) (s₀ : CachedStore H)
    (visited : List FileName → Prop) (root : Directory) : Prop where
  files : ∀ p data, root.kindAt p = some (.leaf data) ↔
    ∃ e, Placed c ignoreLimit s₀ visited p e ∧ stored s₀ e.hash = some data
  dirs : ∀ p, root.kindAt p = some .node ↔
    p = [] ∨ ∃ q e, Placed c ignoreLimit s₀ visited q e ∧ p <+: q ∧ p ≠ q

def CacheOf (c : Settings H) (ignoreLimit : Bool) (s₀ : CachedStore H)
    (visited : List FileName → Prop) (cache : H → Option Bytes) : Prop :=
  ∀ hash data, cache hash = some data ↔ s₀.cache hash = some data ∨
    (s₀.cache hash = none ∧ s₀.sourceLoad hash = some data ∧
      ∃ p e, Placed c ignoreLimit s₀ visited p e ∧ e.hash = hash)

/-- What a call has done depends on which external nodes it has visited, not on their order. -/
structure Pulling (c : Settings H) (io : Faults H) (ignoreLimit : Bool) (s₀ : CachedStore H)
    (visited : List FileName → Prop) (s : CachedStore H) : Prop where
  same : CachedStore.SameVersioned s₀ s
  root : RootOf c ignoreLimit s₀ visited s.root
  cache : CacheOf c ignoreLimit s₀ visited s.cache
  accessible : ∀ p e, visited p → s₀.tree.kindAt p = some (.leaf e) →
    Accessible c io ignoreLimit s₀ p e

section Pull

variable {c : Settings H} {io : Faults H} {ignoreLimit : Bool} {s₀ s s' : CachedStore H}
  {visited visited' : List FileName → Prop} {path p q : List FileName} {e e' : TreeNodeExternal H}
  {data : Bytes} {root root' : Directory} {hash : H}

theorem withinLimit_iff : WithinLimit c ignoreLimit e ↔
    ¬ (ignoreLimit = false ∧ c.sourcePullSizeLimit ≠ 0 ∧ c.sourcePullSizeLimit < e.size) := by
  unfold WithinLimit
  cases ignoreLimit with
  | true => simp
  | false => simp; omega

namespace Placed

theorem visit_iff (he : s₀.tree.kindAt path = some (.leaf e)) :
    Placed c ignoreLimit s₀ (fun p => visited p ∨ p = path) p e' ↔
      Placed c ignoreLimit s₀ visited p e' ∨ p = path ∧ e' = e ∧ Pulled c ignoreLimit s₀ e := by
  constructor
  · rintro ⟨hv | rfl, hnode, hp⟩
    · exact .inl ⟨hv, hnode, hp⟩
    · rw [he] at hnode
      cases hnode
      exact .inr ⟨rfl, rfl, hp⟩
  · rintro (⟨hv, hnode, hp⟩ | ⟨rfl, rfl, hp⟩)
    · exact ⟨.inl hv, hnode, hp⟩
    · exact ⟨.inr rfl, he, hp⟩

theorem above (h : Placed c ignoreLimit s₀ visited q e) (hpre : p <+: q) (hne : p ≠ q) :
    s₀.tree.kindAt p = some .node := FileTree.kindAt_of_isPrefix hpre hne h.node

end Placed

namespace RootOf

theorem of_empty (h : root = .empty) : RootOf c ignoreLimit s₀ (fun _ => False) root := by
  subst h
  constructor
  · intro p data
    rw [FileTree.empty_kindAt]
    constructor
    · intro h
      split at h <;> cases h
    · rintro ⟨e, h, _⟩
      exact h.visited.elim
  · intro p
    rw [FileTree.empty_kindAt]
    constructor
    · intro h
      split at h
      · exact .inl ‹_›
      · cases h
    · rintro (rfl | ⟨q, e, h, _⟩)
      · rfl
      · exact h.visited.elim

variable (h : RootOf c ignoreLimit s₀ visited root)

include h

theorem leaf_node (hk : root.kindAt p = some (.leaf data)) :
    ∃ e, s₀.tree.kindAt p = some (.leaf e) := by
  obtain ⟨e, he, _⟩ := (h.files p data).1 hk
  exact ⟨e, he.node⟩

variable (he : s₀.tree.kindAt path = some (.leaf e))

include he

theorem skip (hp : ¬ Pulled c ignoreLimit s₀ e) :
    RootOf c ignoreLimit s₀ (fun p => visited p ∨ p = path) root := by
  constructor
  · intro p data
    rw [h.files]
    simp only [Placed.visit_iff he, hp, and_false, or_false]
  · intro p
    rw [h.dirs]
    simp only [Placed.visit_iff he, hp, and_false, or_false]

theorem kindAt_new (hnew : ¬ visited path) : root.kindAt path = none := by
  cases hk : root.kindAt path with
  | none => rfl
  | some k =>
    cases k with
    | leaf data =>
      obtain ⟨e', he', _⟩ := (h.files path data).1 hk
      exact absurd he'.visited hnew
    | node =>
      obtain rfl | ⟨q, e', hq, hpre, hne⟩ := (h.dirs path).1 hk
      · rw [FileTree.kindAt_nil] at he
        cases he
      · rw [hq.above hpre hne] at he
        cases he

theorem makeAll (hpath : path ≠ []) : ∃ root', root.makeAll path.dropLast = some root' := by
  apply FileTree.makeAll_isSome
  intro q data hq hleaf
  obtain ⟨e', he'⟩ := h.leaf_node hleaf
  have hne : q ≠ path := by
    rintro rfl
    exact FileTree.not_prefix_dropLast hpath hq
  rw [FileTree.kindAt_of_isPrefix (hq.trans (List.dropLast_prefix path)) hne he] at he'
  cases he'

theorem place (hpath : path ≠ []) (hnew : ¬ visited path) (hp : Pulled c ignoreLimit s₀ e)
    (hd : stored s₀ e.hash = some data)
    (hroot : ∀ q, root'.kindAt q = (root.store path data).kindAt q) :
    RootOf c ignoreLimit s₀ (fun p => visited p ∨ p = path) root' := by
  simp only [FileTree.kindAt_store _ hpath] at hroot
  -- Of two external nodes none is below the other.
  have hbelow {q : List FileName} {e' : TreeNodeExternal H}
      (hq : s₀.tree.kindAt q = some (.leaf e')) (hpre : path <+: q) : q = path := by
    by_contra hne
    rw [FileTree.kindAt_of_isPrefix hpre (Ne.symm hne) hq] at he
    cases he
  have habove {q : List FileName} {e' : TreeNodeExternal H}
      (hq : s₀.tree.kindAt q = some (.leaf e')) (hpre : q <+: path) : q = path := by
    by_contra hne
    rw [FileTree.kindAt_of_isPrefix hpre hne he] at hq
    cases hq
  constructor
  · intro p data'
    rw [hroot]
    simp only [Placed.visit_iff he]
    by_cases hpp : p = path
    · subst hpp
      rw [if_pos rfl]
      constructor
      · intro hk
        cases hk
        exact ⟨e, .inr ⟨rfl, rfl, hp⟩, hd⟩
      · rintro ⟨e', hplaced | ⟨_, rfl, _⟩, hd'⟩
        · exact absurd hplaced.visited hnew
        · rw [hd] at hd'
          cases hd'
          rfl
    · simp only [hpp, false_and, or_false, if_false]
      rw [← h.files]
      split
      · rename_i hpre
        refine ⟨fun hk => (by cases hk), fun hk => ?_⟩
        obtain ⟨e', he'⟩ := h.leaf_node hk
        exact absurd (hbelow he' hpre) hpp
      · split
        · rename_i hpre
          refine ⟨fun hk => (by cases hk), fun hk => ?_⟩
          obtain ⟨e', he'⟩ := h.leaf_node hk
          exact absurd (habove he' hpre) hpp
        · rfl
  · intro p
    rw [hroot]
    by_cases hpp : p = path
    · subst hpp
      rw [if_pos rfl]
      refine ⟨fun hk => (by cases hk), ?_⟩
      rintro (rfl | ⟨q, e', hq, hpre, hne⟩)
      · exact absurd rfl hpath
      · exact absurd (hbelow hq.node hpre).symm hne
    · rw [if_neg hpp]
      split
      · rename_i hpre
        refine ⟨fun hk => (by cases hk), ?_⟩
        rintro (rfl | ⟨q, e', hq, hpq, _⟩)
        · exact absurd (List.prefix_nil.1 hpre) hpath
        · rw [hbelow hq.node (hpre.trans hpq)] at hpq
          exact absurd (hpq.eq_of_length_le hpre.length_le) hpp
      · split
        · rename_i hpre
          exact iff_of_true rfl (.inr ⟨path, e, ⟨.inr rfl, he, hp⟩, hpre, hpp⟩)
        · rename_i hpre
          rw [h.dirs]
          simp only [Placed.visit_iff he]
          apply or_congr_right
          constructor
          · rintro ⟨q, e', hq, hpq, hne⟩
            exact ⟨q, e', .inl hq, hpq, hne⟩
          · rintro ⟨q, e', hq | ⟨rfl, _⟩, hpq, hne⟩
            · exact ⟨q, e', hq, hpq, hne⟩
            · exact absurd hpq hpre

end RootOf

namespace CacheOf

variable {cache : H → Option Bytes}

theorem self (c : Settings H) (ignoreLimit : Bool) (s₀ : CachedStore H) :
    CacheOf c ignoreLimit s₀ (fun _ => False) s₀.cache := by
  intro hash data
  refine ⟨.inl, ?_⟩
  rintro (h | ⟨_, _, p, e, h, _⟩)
  · exact h
  · exact h.visited.elim

variable (h : CacheOf c ignoreLimit s₀ visited cache)

include h

theorem of_none (hc : cache hash = none) : s₀.cache hash = none := by
  cases h₀ : s₀.cache hash with
  | none => rfl
  | some data =>
    rw [(h hash data).2 (.inl h₀)] at hc
    cases hc

theorem hit_stored (hc : cache hash = some data) : stored s₀ hash = some data := by
  obtain h₀ | ⟨h₀, hload, _⟩ := (h hash data).1 hc
  · rw [stored, h₀, Option.some_or]
  · rw [stored, h₀, Option.none_or, hload]

variable (he : s₀.tree.kindAt path = some (.leaf e))

include he

theorem skip (hp : ¬ Pulled c ignoreLimit s₀ e) :
    CacheOf c ignoreLimit s₀ (fun p => visited p ∨ p = path) cache := by
  intro hash data
  rw [h]
  simp only [Placed.visit_iff he, hp, and_false, or_false]

theorem hit_pulled (hw : WellSourced s₀) (hc : cache e.hash = some data) :
    Pulled c ignoreLimit s₀ e := by
  obtain h₀ | ⟨h₀, _, q, e', hq, hh⟩ := (h e.hash data).1 hc
  · exact .inl (by rw [h₀]; rfl)
  · have hwithin := hq.pulled
    rw [Pulled, hh, h₀, WithinLimit, hw.sizes q path e' e hq.node he hh] at hwithin
    exact .inr (hwithin.resolve_left (by simp))

theorem hit (hc : cache e.hash = some data) :
    CacheOf c ignoreLimit s₀ (fun p => visited p ∨ p = path) cache := by
  intro hash data'
  constructor
  · intro hd
    obtain h₀ | ⟨h₀, hload, q, e', hq, hh⟩ := (h hash data').1 hd
    · exact .inl h₀
    · exact .inr ⟨h₀, hload, q, e', (Placed.visit_iff he).2 (.inl hq), hh⟩
  · rintro (h₀ | ⟨h₀, hload, q, e', hq, rfl⟩)
    · exact (h hash data').2 (.inl h₀)
    · obtain hq | ⟨rfl, rfl, _⟩ := (Placed.visit_iff he).1 hq
      · exact (h _ data').2 (.inr ⟨h₀, hload, q, e', hq, rfl⟩)
      · have hstored := h.hit_stored hc
        rw [stored, h₀, Option.none_or, hload] at hstored
        rw [hc, hstored]

theorem load [DecidableEq H] (hp : Pulled c ignoreLimit s₀ e) (hc : cache e.hash = none)
    (hd : s₀.sourceLoad e.hash = some data) :
    CacheOf c ignoreLimit s₀ (fun p => visited p ∨ p = path)
      (Function.update cache e.hash (some data)) := by
  have h₀ := h.of_none hc
  intro hash data'
  rw [Function.update_apply]
  split
  · rename_i hh
    subst hh
    rw [h₀, hd]
    constructor
    · intro hk
      cases hk
      exact .inr ⟨rfl, rfl, path, e, ⟨.inr rfl, he, hp⟩, rfl⟩
    · rintro (hk | ⟨_, hk, _⟩)
      · cases hk
      · exact hk
  · rename_i hne
    rw [h]
    apply or_congr_right
    apply and_congr_right
    intro _
    apply and_congr_right
    intro _
    constructor
    · rintro ⟨q, e', hq, hh⟩
      exact ⟨q, e', (Placed.visit_iff he).2 (.inl hq), hh⟩
    · rintro ⟨q, e', hq, hh⟩
      obtain hq | ⟨rfl, rfl, _⟩ := (Placed.visit_iff he).1 hq
      · exact ⟨q, e', hq, hh⟩
      · exact absurd hh.symm hne

end CacheOf

namespace Pulling

theorem init (c : Settings H) (io : Faults H) (ignoreLimit : Bool) (h : s₀.root = .empty) :
    Pulling c io ignoreLimit s₀ (fun _ => False) s₀ where
  same := .refl s₀
  root := .of_empty h
  cache := .self c ignoreLimit s₀
  accessible := fun _ _ hv => hv.elim

theorem congr (h : Pulling c io ignoreLimit s₀ visited s) (hv : ∀ p, visited p ↔ visited' p) :
    Pulling c io ignoreLimit s₀ visited' s := by
  obtain rfl : visited = visited' := funext fun p => propext (hv p)
  exact h

theorem root_eq (h : Pulling c io ignoreLimit s₀ visited s)
    (h' : Pulling c io ignoreLimit s₀ visited s') (p : List FileName) :
    s.root.kindAt p = s'.root.kindAt p := by
  ext k
  cases k with
  | leaf data => rw [h.root.files, h'.root.files]
  | node => rw [h.root.dirs, h'.root.dirs]

theorem cache_eq (h : Pulling c io ignoreLimit s₀ visited s)
    (h' : Pulling c io ignoreLimit s₀ visited s') : s.cache = s'.cache := by
  funext hash
  ext data
  rw [h.cache, h'.cache]

theorem accessible_visit (h : Pulling c io ignoreLimit s₀ visited s)
    (he : s₀.tree.kindAt path = some (.leaf e)) (ha : Accessible c io ignoreLimit s₀ path e)
    (p : List FileName) (e' : TreeNodeExternal H) (hv : visited p ∨ p = path)
    (hp : s₀.tree.kindAt p = some (.leaf e')) : Accessible c io ignoreLimit s₀ p e' := by
  obtain hv | rfl := hv
  · exact h.accessible p e' hv hp
  · rw [he] at hp
    cases hp
    exact ha

end Pulling

theorem attempt_needed (P : CachedStore H → Prop) (h : A → io op = none) :
    Triple P (attempt io op) (fun _ s => P s ∧ io op = none) fun _ => ¬ A := by
  unfold attempt
  split
  · exact .pure fun _ hs => ⟨hs, ‹_›⟩
  · rename_i msg hio
    apply Triple.fail
    intro _ _ hA
    rw [h hA] at hio
    cases hio

section Visit

variable (he : s₀.tree.kindAt path = some (.leaf e)) (hnew : ¬ visited path)

include he hnew

section Place

variable (hp : Pulled c ignoreLimit s₀ e) (hroot : RootOf c ignoreLimit s₀ visited s.root)
  (hc : s.cache e.hash = some data) (hd : stored s₀ e.hash = some data)
  (hA : A → io (.mkdirAll path) = none ∧ io (.writeFile path) = none)

include hp hroot hc hd hA

theorem placeFile_pulls :
    Triple (· = s) (placeFile io e.hash path)
      (fun _ s' => (io (.mkdirAll path) = none ∧ io (.writeFile path) = none) ∧
        ∃ root, s' = { s with root } ∧
          RootOf c ignoreLimit s₀ (fun p => visited p ∨ p = path) root) fun _ => ¬ A := by
  have hpath : path ≠ [] := by
    rintro rfl
    rw [FileTree.kindAt_nil] at he
    cases he
  apply Triple.bind (attempt_needed (· = s) fun ha => (hA ha).1)
  intro _
  apply Triple.get_bind
  rintro s ⟨rfl, hmkdir⟩
  obtain ⟨root, hmake⟩ := hroot.makeAll he hpath
  have hnot : root.kindAt path ≠ some .node := by
    rw [FileTree.kindAt_makeAll hmake, if_neg (FileTree.not_prefix_dropLast hpath),
      hroot.kindAt_new he hnew]
    exact (Option.some_ne_none _).symm
  simp only [hmake, hc, hnot, if_false]
  apply Triple.bind (Q := fun _ s' => s' = { s with root })
  · exact .modify (by rintro _ rfl; rfl)
  · intro _
    apply Triple.bind (attempt_needed _ fun ha => (hA ha).2)
    intro _
    apply Triple.modify
    rintro _ ⟨rfl, hwrite⟩
    refine ⟨⟨hmkdir, hwrite⟩, _, rfl, hroot.place he hpath hnew hp hd ?_⟩
    exact fun q => FileTree.kindAt_makeAll_store hpath hmake data q

theorem emplaceFile_pulls [DecidableEq H] :
    Triple (· = s) (emplaceFile c io e.hash path)
      (fun _ s' => (io (.mkdirAll path) = none ∧ io (.writeFile path) = none) ∧
        ∃ root, s' = { s with root } ∧
          RootOf c ignoreLimit s₀ (fun p => visited p ∨ p = path) root) fun _ => ¬ A := by
  have hplace := placeFile_pulls he hnew hp hroot hc hd hA
  apply Triple.get_bind
  rintro s rfl
  simp only [hc, Option.isNone_some, Bool.false_eq_true, if_false, hroot.kindAt_new he hnew]
  split
  · exact hplace
  · exact hplace

end Place

theorem ensureExternal_pulls [DecidableEq H] (hw : WellSourced s₀) :
    Triple (Pulling c io ignoreLimit s₀ visited) (ensureExternal c io ignoreLimit e path)
      (fun r s => Pulling c io ignoreLimit s₀ (fun p => visited p ∨ p = path) s ∧
        (Pulled c ignoreLimit s₀ e → r = some path) ∧ (¬ Pulled c ignoreLimit s₀ e → r = none))
      fun _ => ¬ Accessible c io ignoreLimit s₀ path e := by
  unfold ensureExternal
  apply Triple.bind ((attempt_needed _ fun ha => ha.contains).mapError _)
  intro _
  apply Triple.get_bind
  rintro s ⟨hs, hcontains⟩
  -- The end of both branches that make the file.
  have hplace {s₁ : CachedStore H} {data : Bytes} (hp : Pulled c ignoreLimit s₀ e)
      (hsame : CachedStore.SameVersioned s₀ s₁) (hroot : s₁.root = s.root)
      (hcache : CacheOf c ignoreLimit s₀ (fun p => visited p ∨ p = path) s₁.cache)
      (hc : s₁.cache e.hash = some data)
      (hload : s₀.cache e.hash = none → WithinLimit c ignoreLimit e →
        io (.sourceLoad e.hash) = none ∧ io (.cacheLoaded e.hash) = none) :
      Triple (· = s₁)
        (wrapped "error emplacing into file system cache" (emplaceFile c io e.hash path) >>=
          fun _ => pure (some path))
        (fun r s => Pulling c io ignoreLimit s₀ (fun p => visited p ∨ p = path) s ∧
          (Pulled c ignoreLimit s₀ e → r = some path) ∧ (¬ Pulled c ignoreLimit s₀ e → r = none))
        fun _ => ¬ Accessible c io ignoreLimit s₀ path e := by
    have hroot₁ : RootOf c ignoreLimit s₀ visited s₁.root := hroot ▸ hs.root
    have haccesses (ha : Accessible c io ignoreLimit s₀ path e) :
        io (.mkdirAll path) = none ∧ io (.writeFile path) = none :=
      ⟨ha.mkdirAll hp, ha.writeFile hp⟩
    apply Triple.bind ((emplaceFile_pulls he hnew hp hroot₁ hc (hcache.hit_stored hc)
      haccesses).mapError _)
    intro _
    apply Triple.pure
    rintro _ ⟨⟨hmkdir, hwrite⟩, root, rfl, hroot'⟩
    have haccess : Accessible c io ignoreLimit s₀ path e :=
      ⟨hcontains, fun _ => hmkdir, fun _ => hwrite, fun h₀ hl => (hload h₀ hl).1,
        fun h₀ hl => (hload h₀ hl).2⟩
    exact ⟨⟨hsame.root root, hroot', hcache, hs.accessible_visit he haccess⟩, fun _ => rfl,
      fun hn => absurd hp hn⟩
  cases hc : s.cache e.hash with
  | some data =>
    simp only [Option.isSome_some, if_true]
    have hp := hs.cache.hit_pulled he hw hc
    apply hplace hp hs.same rfl (hs.cache.hit he hc) hc
    -- The accesses to load it were those of a node of the same hash.
    intro h₀ hl
    obtain h₁ | ⟨_, _, q, e', hq, hh⟩ := (hs.cache e.hash data).1 hc
    · rw [h₀] at h₁
      cases h₁
    · have haccess := hs.accessible q e' hq.visited hq.node
      rw [WithinLimit, ← hw.sizes q path e' e hq.node he hh] at hl
      rw [← hh] at h₀ ⊢
      exact ⟨haccess.sourceLoad h₀ hl, haccess.cacheLoaded h₀ hl⟩
  | none =>
    have h₀ := hs.cache.of_none hc
    simp only [Option.isSome_none, Bool.false_eq_true, if_false]
    split
    · rename_i hlarge
      have hnot : ¬ WithinLimit c ignoreLimit e := fun hl => withinLimit_iff.1 hl hlarge
      have hp : ¬ Pulled c ignoreLimit s₀ e := by
        rw [Pulled, h₀]
        exact fun h => hnot (h.resolve_left (by simp))
      apply Triple.pure
      rintro s rfl
      have haccess : Accessible c io ignoreLimit s₀ path e :=
        ⟨hcontains, fun h => absurd h hp, fun h => absurd h hp, fun _ h => absurd h hnot,
          fun _ h => absurd h hnot⟩
      exact ⟨⟨hs.same, hs.root.skip he hp, hs.cache.skip he hp, hs.accessible_visit he haccess⟩,
        fun h => absurd h hp, fun _ => rfl⟩
    · rename_i hsmall
      have hl := withinLimit_iff.2 hsmall
      have hp : Pulled c ignoreLimit s₀ e := .inr hl
      obtain ⟨data, hdata⟩ := Option.isSome_iff_exists.1 (hw.source path e he)
      simp only [hs.same.sourceLoad, hdata]
      apply Triple.bind ((attempt_needed _ fun ha => ha.sourceLoad h₀ hl).mapError _)
      intro _
      apply Triple.bind ((attempt_needed _ fun ha => ha.cacheLoaded h₀ hl).mapError _)
      intro _
      apply Triple.of_forall
      rintro s₁ ⟨⟨rfl, hload⟩, hstore⟩
      apply Triple.bind (Q := fun _ s => s = CachedStore.cacheStore e.hash data s₁)
      · exact .modify (by rintro _ rfl; rfl)
      · intro _
        have hcached : (CachedStore.cacheStore e.hash data s₁).cache e.hash = some data := by
          rw [CachedStore.cache_cacheStore, if_pos rfl]
        exact hplace hp (hs.same.cacheStore hdata) rfl (hs.cache.load he hp hc hdata) hcached
          fun _ _ => ⟨hload, hstore⟩

end Visit

def externals (path : List FileName) (f : TreeNodeTree H) (p : List FileName) : Prop :=
  ∃ q e, p = path ++ q ∧ f.kindAt q = some (.leaf e)

section Externals

variable {name : FileName} {rest internal : TreeNodeTree H}

theorem externals_leaf (hname : name ∉ rest.names) :
    externals path (.leaf name e rest) p ↔ p = path ++ [name] ∨ externals path rest p := by
  constructor
  · rintro ⟨q, e', rfl, hq⟩
    obtain ⟨r, rfl, hr⟩ | hq := Forest.leaf_of_cons (e := .leaf e) hq
    · cases r with
      | nil => exact .inl rfl
      | cons x r => cases hr
    · exact .inr ⟨q, e', rfl, hq⟩
  · rintro (rfl | ⟨q, e', rfl, hq⟩)
    · exact ⟨[name], e, rfl, Forest.kindAt_cons_self rest (.leaf e) name []⟩
    · exact ⟨q, e', rfl, Forest.kindAt_rest (.leaf e) hname hq⟩

theorem externals_node (hname : name ∉ rest.names) :
    externals path (.node name internal rest) p ↔
      externals (path ++ [name]) internal p ∨ externals path rest p := by
  constructor
  · rintro ⟨q, e', rfl, hq⟩
    obtain ⟨r, rfl, hr⟩ | hq := Forest.leaf_of_cons (e := .node internal) hq
    · exact .inl ⟨r, e', List.append_cons path name r, hr⟩
    · exact .inr ⟨q, e', rfl, hq⟩
  · rintro (⟨q, e', rfl, hq⟩ | ⟨q, e', rfl, hq⟩)
    · refine ⟨name :: q, e', (List.append_cons path name q).symm, ?_⟩
      exact (Forest.kindAt_cons_self rest (.node internal) name q).trans hq
    · exact ⟨q, e', rfl, Forest.kindAt_rest (.node internal) hname hq⟩

theorem not_externals_of_name (hname : name ∉ rest.names) (hp : path ++ [name] <+: p) :
    ¬ externals path rest p := by
  rintro ⟨q, e', rfl, hq⟩
  obtain ⟨r, hr⟩ := hp
  rw [List.append_assoc] at hr
  rw [← List.append_cancel_left hr] at hq
  exact hname (Forest.mem_names_of_kindAt hq)

end Externals

/-- The nodes of a map that stands in the tree at a path, none of which was visited. -/
structure Unvisited (s₀ : CachedStore H) (visited : List FileName → Prop) (path : List FileName)
    (f : TreeNodeTree H) : Prop where
  distinct : f.Distinct
  nodes : ∀ q e, f.kindAt q = some (.leaf e) → s₀.tree.kindAt (path ++ q) = some (.leaf e)
  fresh : ∀ p, externals path f p → ¬ visited p

namespace Unvisited

variable {name : FileName} {rest internal : TreeNodeTree H}

theorem head (h : Unvisited s₀ visited path (.leaf name e rest)) :
    s₀.tree.kindAt (path ++ [name]) = some (.leaf e) ∧ ¬ visited (path ++ [name]) :=
  ⟨h.nodes [name] e (Forest.kindAt_cons_self rest (.leaf e) name []),
    h.fresh _ ((externals_leaf h.distinct.1).2 (.inl rfl))⟩

theorem leaf_rest (h : Unvisited s₀ visited path (.leaf name e rest)) :
    Unvisited s₀ (fun p => visited p ∨ p = path ++ [name]) path rest where
  distinct := h.distinct.2
  nodes := fun q e' hq => h.nodes q e' (Forest.kindAt_rest (.leaf e) h.distinct.1 hq)
  fresh := by
    rintro p hp (hv | rfl)
    · exact h.fresh p ((externals_leaf h.distinct.1).2 (.inr hp)) hv
    · exact not_externals_of_name h.distinct.1 List.prefix_rfl hp

theorem children (h : Unvisited s₀ visited path (.node name internal rest)) :
    Unvisited s₀ visited (path ++ [name]) internal where
  distinct := h.distinct.2.1
  nodes := by
    intro q e hq
    rw [← List.append_cons]
    exact h.nodes _ e ((Forest.kindAt_cons_self rest (.node internal) name q).trans hq)
  fresh := fun p hp => h.fresh p ((externals_node h.distinct.1).2 (.inl hp))

theorem node_rest (h : Unvisited s₀ visited path (.node name internal rest)) :
    Unvisited s₀ (fun p => visited p ∨ externals (path ++ [name]) internal p) path rest where
  distinct := h.distinct.2.2
  nodes := fun q e hq => h.nodes q e (Forest.kindAt_rest (.node internal) h.distinct.1 hq)
  fresh := by
    rintro p hp (hv | ⟨q, e, rfl, hq⟩)
    · exact h.fresh p ((externals_node h.distinct.1).2 (.inr hp)) hv
    · exact not_externals_of_name h.distinct.1 (List.prefix_append _ _) hp

end Unvisited

theorem ensureEntries_pulls [DecidableEq H] (hw : WellSourced s₀) {f : TreeNodeTree H}
    (hf : Unvisited s₀ visited path f) :
    Triple (Pulling c io ignoreLimit s₀ visited) (ensureEntries c io ignoreLimit path f)
      (fun _ => Pulling c io ignoreLimit s₀ fun p => visited p ∨ externals path f p)
      fun _ => ¬ ∀ p e, externals path f p → s₀.tree.kindAt p = some (.leaf e) →
        Accessible c io ignoreLimit s₀ p e := by
  induction f generalizing path visited with
  | nil =>
    apply Triple.pure
    intro s hs
    apply hs.congr
    intro p
    refine ⟨.inl, ?_⟩
    rintro (hp | ⟨q, e, rfl, hq⟩)
    · exact hp
    · cases q <;> cases hq
  | leaf name node rest ih =>
    obtain ⟨hnode, hnew⟩ := hf.head
    have hmem {p : List FileName} : externals path (.leaf name node rest) p ↔
        p = path ++ [name] ∨ externals path rest p := externals_leaf hf.distinct.1
    apply Triple.bind
      (Q := fun _ => Pulling c io ignoreLimit s₀ fun p => visited p ∨ p = path ++ [name])
    · apply (ensureExternal_pulls hnode hnew hw).imp (fun _ _ h => h.1)
      intro _ hfail hall
      exact hfail (hall _ node (hmem.2 (.inl rfl)) hnode)
    · intro _
      apply (ih hf.leaf_rest).imp
      · intro _ s hs
        apply hs.congr
        intro p
        rw [hmem, or_assoc]
      · intro _ hfail hall
        exact hfail fun p e hp => hall p e (hmem.2 (.inr hp))
  | node name internal rest ihc ih =>
    have hmem {p : List FileName} : externals path (.node name internal rest) p ↔
        externals (path ++ [name]) internal p ∨ externals path rest p :=
      externals_node hf.distinct.1
    apply Triple.bind (Q := fun _ => Pulling c io ignoreLimit s₀ fun p =>
      visited p ∨ externals (path ++ [name]) internal p)
    · apply (ihc hf.children).error
      intro _ hfail hall
      exact hfail fun p e hp => hall p e (hmem.2 (.inl hp))
    · intro _
      apply (ih hf.node_rest).imp
      · intro _ s hs
        apply hs.congr
        intro p
        rw [hmem, or_assoc]
      · intro _ hfail hall
        exact hfail fun p e hp => hall p e (hmem.2 (.inr hp))

def nodeExternals (path : List FileName) (node : TreeNode H) (p : List FileName) : Prop :=
  ∃ q e, p = path ++ q ∧ node.kindAt q = some (.leaf e)

def Returned (c : Settings H) (ignoreLimit : Bool) (s₀ : CachedStore H) (path : List FileName) :
    TreeNode H → Option (List FileName) → Prop
  | .leaf e, r =>
    (Pulled c ignoreLimit s₀ e → r = some path) ∧ (¬ Pulled c ignoreLimit s₀ e → r = none)
  | .node _, r => r = some path

theorem Returned.unique {node : TreeNode H} (h : Returned c ignoreLimit s₀ path node r)
    (h' : Returned c ignoreLimit s₀ path node r') : r = r' := by
  cases node with
  | leaf e =>
    by_cases hp : Pulled c ignoreLimit s₀ e
    · rw [h.1 hp, h'.1 hp]
    · rw [h.2 hp, h'.2 hp]
  | node internal => exact Eq.trans h (Eq.symm h')

theorem ensureNode_pulls [DecidableEq H] (hw : WellSourced s₀) {node : TreeNode H}
    (hnode : ∀ q, s₀.tree.kindAt (path ++ q) = node.kindAt q)
    (hd : ∀ internal, node = .node internal → internal.Distinct) (ord : MapOrder H) :
    Triple (Pulling c io ignoreLimit s₀ fun _ => False) (ensureNode c io ord ignoreLimit path node)
      (fun r s => Pulling c io ignoreLimit s₀ (nodeExternals path node) s ∧
        Returned c ignoreLimit s₀ path node r)
      fun _ => ¬ ∀ p e, nodeExternals path node p → s₀.tree.kindAt p = some (.leaf e) →
        Accessible c io ignoreLimit s₀ p e := by
  cases node with
  | leaf e =>
    have he : s₀.tree.kindAt path = some (.leaf e) := by
      have hself := hnode []
      rw [List.append_nil] at hself
      exact hself
    have hmem (p : List FileName) : nodeExternals path (.leaf e) p ↔ p = path := by
      constructor
      · rintro ⟨q, e', rfl, hq⟩
        cases q with
        | nil => exact List.append_nil path
        | cons x q => cases hq
      · rintro rfl
        exact ⟨[], e, (List.append_nil p).symm, rfl⟩
    apply (ensureExternal_pulls he id hw).imp
    · rintro r s ⟨hs, hr⟩
      refine ⟨hs.congr ?_, hr⟩
      intro p
      rw [hmem, false_or]
    · intro _ hfail hall
      exact hfail (hall path e ((hmem path).2 rfl) he)
  | node internal =>
    have hsame := ord.same internal
    have hmem (p : List FileName) :
        externals path (ord.order internal) p ↔ nodeExternals path (.node internal) p := by
      simp only [externals, nodeExternals, hsame]
      rfl
    have hf : Unvisited s₀ (fun _ => False) path (ord.order internal) :=
      ⟨ord.distinct internal (hd internal rfl),
        fun q e hq => (hnode q).trans ((hsame q).symm.trans hq), fun _ _ => id⟩
    apply Triple.bind
      (Q := fun _ => Pulling c io ignoreLimit s₀ (nodeExternals path (.node internal)))
    · apply (ensureEntries_pulls hw hf).imp
      · intro _ s hs
        apply hs.congr
        intro p
        rw [hmem, false_or]
      · intro _ hfail hall
        exact hfail fun p e hp => hall p e ((hmem p).1 hp)
    · intro _
      exact .pure fun s hs => ⟨hs, rfl⟩

theorem TreeNodeTree.lookup_distinct {tnt internal : TreeNodeTree H} (ht : tnt.Distinct)
    (h : TreeNodeTree.lookup tnt path = some (.node internal)) : internal.Distinct := by
  induction path generalizing tnt with
  | nil => cases h
  | cons x path ih =>
    rw [TreeNodeTree.lookup] at h
    split at h
    · cases h
    · rename_i node hget
      split at h
      · cases h
        exact ht.get hget
      · cases node with
        | leaf e =>
          have hnil : (Forest.nil : TreeNodeTree H).Distinct := trivial
          exact ih hnil h
        | node c => exact ih (ht.get hget) h

section Lookup

variable {name : String} {parts : List FileName} {node : TreeNode H}

theorem configLookup_kindAt (h : configLookup s name = some (parts, node)) (q : List FileName) :
    s.tree.kindAt (parts ++ q) = node.kindAt q := by
  unfold configLookup at h
  split at h
  · cases h
    rfl
  · obtain ⟨parts', _, h⟩ := Option.bind_eq_some_iff.1 h
    obtain ⟨node', hl, h⟩ := Option.bind_eq_some_iff.1 h
    cases h
    have hne : parts ≠ [] := by
      rintro rfl
      cases hl
    have hk := TreeNodeTree.lookup_kindAt s.tree.forest hne q
    rw [Tree.lookup] at hl
    rw [hl] at hk
    exact hk.symm

theorem configLookup_distinct (h : configLookup s name = some (parts, .node internal)) :
    internal.Distinct := by
  unfold configLookup at h
  split at h
  · cases h
    exact s.tree.distinct
  · obtain ⟨parts', _, h⟩ := Option.bind_eq_some_iff.1 h
    obtain ⟨node', hl, h⟩ := Option.bind_eq_some_iff.1 h
    cases h
    exact TreeNodeTree.lookup_distinct s.tree.distinct hl

theorem ensure_pulls [DecidableEq H] (hw : WellSourced s₀) (hroot : s₀.root = .empty)
    (hlookup : configLookup s₀ name = some (parts, node)) (ord : MapOrder H) :
    Triple (· = s₀) (ensure c io ord name ignoreLimit)
      (fun r s => Pulling c io ignoreLimit s₀ (nodeExternals parts node) s ∧
        Returned c ignoreLimit s₀ parts node r)
      fun _ => ¬ ∀ p e, nodeExternals parts node p → s₀.tree.kindAt p = some (.leaf e) →
        Accessible c io ignoreLimit s₀ p e := by
  apply Triple.get_bind
  rintro s rfl
  rw [hlookup]
  apply (ensureNode_pulls hw (configLookup_kindAt hlookup) _ ord).pre
  · rintro s rfl
    exact .init c io ignoreLimit hroot
  · rintro internal rfl
    exact configLookup_distinct hlookup

end Lookup

end Pull

variable [DecidableEq H]

/-- Under an empty root `Ensure` makes just the files that the cache had or the limit lets through,
in whatever order the maps are read. -/
theorem ensure_pulls_exactly {c : Settings H} {io : Faults H} {ord : MapOrder H} {path : String}
    {ignoreLimit : Bool} {s s' : CachedStore H} {r : Option (List FileName)}
    (hsizes : ∀ p q e e', s.tree.lookup p = some (.leaf e) → s.tree.lookup q = some (.leaf e') →
      e.hash = e'.hash → e.size = e'.size)
    (hsource : ∀ p e, s.tree.lookup p = some (.leaf e) → (s.sourceLoad e.hash).isSome = true)
    (hroot : s.root = .empty) (h : ensure c io ord path ignoreLimit s = (s', .ok r)) :
    ∃ parts node, configLookup s path = some (parts, node) ∧
      (∀ p data, s'.root.kindAt p = some (.leaf data) ↔
        ∃ q e, p = parts ++ q ∧ node.kindAt q = some (.leaf e) ∧
          ((s.cache e.hash).isSome = true ∨ ignoreLimit = true ∨ c.sourcePullSizeLimit = 0 ∨
            e.size ≤ c.sourcePullSizeLimit) ∧
          (s.cache e.hash).or (s.sourceLoad e.hash) = some data) ∧
      ((∀ hash data, s.cache hash = some data ∨ s.sourceLoad hash = some data →
          c.computeHash data = hash) →
        ∀ q e data, node.kindAt q = some (.leaf e) →
          s'.root.kindAt (parts ++ q) = some (.leaf data) → c.computeHash data = e.hash) ∧
      ∀ ord', ∃ s'', ensure c io ord' path ignoreLimit s = (s'', .ok r) ∧
        (∀ p, s''.root.kindAt p = s'.root.kindAt p) ∧ s''.cache = s'.cache ∧
        s''.tree = s'.tree ∧ s''.committed = s'.committed ∧
        ∀ hash, s''.sourceLoad hash = s'.sourceLoad hash := by
  simp only [Tree.lookup_leaf_iff] at hsizes hsource
  have hw : WellSourced s := ⟨hsizes, hsource⟩
  cases hl : configLookup s path with
  | none =>
    have hfail : Triple (· = s) (ensure c io ord path ignoreLimit) (fun _ _ => False)
        fun _ => True := by
      apply Triple.get_bind
      rintro s rfl
      rw [hl]
      exact .fail fun _ _ => trivial
    exact (hfail.ok rfl h).elim
  | some found =>
    obtain ⟨parts, node⟩ := found
    have hnode := configLookup_kindAt hl
    obtain ⟨hs', hr⟩ : Pulling c io ignoreLimit s (nodeExternals parts node) s' ∧
        Returned c ignoreLimit s parts node r := (ensure_pulls hw hroot hl ord).ok rfl h
    refine ⟨parts, node, rfl, ?_, ?_, ?_⟩
    · intro p data
      rw [hs'.root.files]
      constructor
      · rintro ⟨e, ⟨⟨q, e', rfl, hq⟩, hk, hp⟩, hd⟩
        rw [hnode] at hk
        exact ⟨q, e, rfl, hk, hp, hd⟩
      · rintro ⟨q, e, rfl, hq, hp, hd⟩
        exact ⟨e, ⟨⟨q, e, rfl, hq⟩, (hnode q).trans hq, hp⟩, hd⟩
    · intro hcontent q e data hq hk
      obtain ⟨e', hplaced, hd⟩ := (hs'.root.files _ data).1 hk
      have he := (hnode q).symm.trans hplaced.node
      rw [hq] at he
      cases he
      apply hcontent
      obtain hc | ⟨_, hload⟩ := Option.or_eq_some_iff.1 hd
      · exact .inl hc
      · exact .inr hload
    · intro ord'
      -- The accesses are the same, so that none of them fails.
      have hworks : Triple (· = s) (ensure c io ord' path ignoreLimit)
          (fun r' s'' => Pulling c io ignoreLimit s (nodeExternals parts node) s'' ∧
            Returned c ignoreLimit s parts node r') fun _ => False := by
        apply (ensure_pulls hw hroot hl ord').error
        intro _ hfail
        exact hfail hs'.accessible
      obtain ⟨r', s'', hrun, hs'', hr'⟩ := hworks.run rfl
      obtain rfl := hr.unique hr'
      exact ⟨s'', hrun, hs''.root_eq hs', hs''.cache_eq hs',
        hs''.same.tree.trans hs'.same.tree.symm, hs''.same.committed.trans hs'.same.committed.symm,
        fun hash => (hs''.same.sourceLoad hash).trans (hs'.same.sourceLoad hash).symm⟩

/-- Of two files that are larger than the limit one is in the cache. -/
theorem ensure_pulls_some :
    ∃ (c : Settings Nat) (ord : MapOrder Nat) (s s' : CachedStore Nat),
      ensure c (fun _ => none) ord "/" false s = (s', .ok (some [])) ∧
      s'.root.kindAt [⟨"small", rfl⟩] = some (.leaf [1]) ∧
      s'.root.kindAt [⟨"cached", rfl⟩] = some (.leaf [2]) ∧
      s'.root.kindAt [⟨"large", rfl⟩] = none ∧
      ∀ ord', ∃ s'', ensure c (fun _ => none) ord' "/" false s = (s'', .ok (some [])) ∧
        ∀ p, s''.root.kindAt p = s'.root.kindAt p := by
  let c : Settings Nat := { computeHash := List.length, sourcePullSizeLimit := 5 }
  let ord : MapOrder Nat := { order := id, distinct := fun _ h => h, same := fun _ _ => rfl }
  let s : CachedStore Nat := {
    tree := ⟨.leaf ⟨"small", rfl⟩ { hash := 1, size := 1 }
      (.leaf ⟨"cached", rfl⟩ { hash := 8, size := 8 }
        (.leaf ⟨"large", rfl⟩ { hash := 9, size := 9 } .nil)), by decide⟩
    cache := fun hash => if hash = 8 then some [2] else none
    source := some fun hash => some [1] }
  have hleaf (p : List FileName) (e : TreeNodeExternal Nat)
      (h : s.tree.kindAt p = some (.leaf e)) : e.size = e.hash := by
    have hentry {e' : TreeNodeExternal Nat} {q : List FileName} (he : e'.size = e'.hash)
        (hq : (Entry.leaf e' : TreeNode Nat).kindAt q = some (.leaf e)) : e.size = e.hash := by
      rw [Entry.kindAt] at hq
      split at hq
      · cases hq
        exact he
      · cases hq
    cases p with
    | nil => cases h
    | cons x p =>
      simp only [FileTree.kindAt, Forest.kindAt_cons, s, Forest.get] at h
      split at h
      · exact hentry rfl h
      · split at h
        · exact hentry rfl h
        · split at h
          · exact hentry rfl h
          · cases h
  have hsizes (p q : List FileName) (e e' : TreeNodeExternal Nat)
      (hp : s.tree.lookup p = some (.leaf e)) (hq : s.tree.lookup q = some (.leaf e'))
      (hh : e.hash = e'.hash) : e.size = e'.size := by
    rw [hleaf p e (Tree.lookup_leaf_iff.1 hp), hleaf q e' (Tree.lookup_leaf_iff.1 hq), hh]
  have hok : (ensure c (fun _ => none) ord "/" false s).2 = .ok (some []) := by decide +kernel
  have hs : ensure c (fun _ => none) ord "/" false s =
      ((ensure c (fun _ => none) ord "/" false s).1, .ok (some [])) := Prod.ext rfl hok
  obtain ⟨parts, node, _, _, _, horder⟩ :=
    ensure_pulls_exactly hsizes (fun _ _ _ => rfl) rfl hs
  refine ⟨c, ord, s, _, hs, by decide +kernel, by decide +kernel, by decide +kernel, ?_⟩
  intro ord'
  obtain ⟨s'', hrun, hroot, _⟩ := horder ord'
  exact ⟨s'', hrun, hroot⟩

end Goutils.Artifact
