import VaultSync.Opfs.OplogPages

/-! The state of the oplog's page store between two of its operations. -/

namespace VaultSync.Opfs

open Async StoreState PageFn PageStore Finmap PageLib PageCache

variable {F D B : Type}

namespace StoreState

variable (p : StoreState F D)

def current : ℕ := p.memory.manifest.currentPage

def index : ContentIndex := p.memory.manifest.contentIndex

def Increasing : Prop := p.handedOut.Pairwise (· > ·)

/-- Page files hold oplog entries or are tombstoned; a file that is not is indexed; a cached page is
as on disk, unless its file is gone and nothing refers to it; and only ids that were handed out
occur. -/
structure Consistent (lib : PageLib F D B) (p : StoreState F D) : Prop extends Sound lib p where
  oplog : ∀ id d, p.dir.pages.lookup id = some (lib.encodeV3Page d 0) → ∃ l, d = lib.encodeOplog l
  live : ∀ id d, p.dir.pages.lookup id = some (lib.encodeV3Page d 0) → id ∈ p.index.livePages
  cached : ∀ id d, p.memory.pageCache.entries.lookup id = some d →
    p.dir.pages.lookup id = some (lib.encodeV3Page d 0) ∨
      (id ∉ p.dir.pages ∧ id ∉ p.index.livePages ∧ id ≠ p.current)
  numbered : p.index.Numbered
  page_handed : ∀ id ∈ p.dir.pages, id ∈ p.handedOut
  cache_handed : ∀ id d, p.memory.pageCache.entries.lookup id = some d → id ∈ p.handedOut
  index_handed : ∀ id ∈ p.index.pageById, id ∈ p.handedOut
  current_handed : p.current = 0 ∨ p.current ∈ p.handedOut

structure Tracked (id : ℕ) (p' : StoreState F D) : Prop where
  pages : p'.dir.pages = p.dir.pages
  manifest : p'.dir.manifest = .valid p'.memory.manifest
  index : p'.index = p.index.track id
  current : p'.current = p.current
  cache : p'.memory.pageCache = p.memory.pageCache
  gcNeeded : p'.memory.gcNeeded = p.memory.gcNeeded
  handedOut : p'.handedOut = id :: p.handedOut

variable {lib : PageLib F D B} {p p' : StoreState F D} {id : ℕ}

lemma Tracked.lt (h : Tracked p id p') (hinc : p'.Increasing) {a : ℕ} (ha : a ∈ p.handedOut) :
    a < id := by
  rw [Increasing, h.handedOut, List.pairwise_cons] at hinc
  exact hinc.1 a ha

section

variable (h : Consistent lib p)

include h

lemma Consistent.tracked (ht : Tracked p id p') (hinc : p'.Increasing) : Consistent lib p' := by
  have hmono : ∀ {a}, a ∈ p.handedOut → a ∈ p'.handedOut := fun ha => by
    rw [ht.handedOut]
    exact List.mem_cons_of_mem id ha
  refine ⟨⟨ht.manifest, ht.pages ▸ h.formatted⟩, ?_, ?_, ?_, ?_, ?_, ?_, ?_, ?_⟩
  · rw [ht.pages]
    exact h.oplog
  · rw [ht.pages, ht.index]
    exact fun a d hf => Finset.mem_insert_of_mem (h.live a d hf)
  · rw [ht.pages, ht.index, ht.cache, ht.current]
    intro a d hd
    -- a page that is cached has been handed out before
    have hne : a ≠ id := ne_of_lt (ht.lt hinc (h.cache_handed a d hd))
    refine (h.cached a d hd).imp_right fun hgone => ⟨hgone.1, ?_, hgone.2.2⟩
    exact fun hmem => hgone.2.1 ((Finset.mem_insert.1 hmem).resolve_left hne)
  · rw [ht.index]
    exact h.numbered
  · rw [ht.pages]
    exact fun a ha => hmono (h.page_handed a ha)
  · rw [ht.cache]
    exact fun a d hd => hmono (h.cache_handed a d hd)
  · rw [ht.index]
    intro a ha
    rcases ContentIndex.mem_track_pageById.1 ha with rfl | ha
    · rw [ht.handedOut]
      exact List.mem_cons_self
    · exact hmono (h.index_handed a ha)
  · rw [ht.current]
    exact h.current_handed.imp_right hmono

lemma Consistent.withCache {c : PageCache D}
    (hc : ∀ a d, c.entries.lookup a = some d → p.memory.pageCache.entries.lookup a = some d ∨
      p.dir.pages.lookup a = some (lib.encodeV3Page d 0)) :
    Consistent lib (p.mapCache fun _ => c) :=
  { h with
    toSound := h.toSound.mapCache _
    cached := fun a d hd => (hc a d hd).elim (h.cached a d) .inl
    cache_handed := fun a d hd =>
      (hc a d hd).elim (h.cache_handed a d) fun hf => h.page_handed a (mem_iff.2 ⟨_, hf⟩) }

lemma Consistent.writtenRaw (hlive : id ∈ p.index.livePages) (hid : id ∈ p.handedOut)
    (l : List (OplogEntry B)) : Consistent lib (p.writtenRaw lib id (lib.encodeOplog l)) := by
  set data := lib.encodeOplog l
  have hfile : ∀ a d, (p.dir.pages.insert id (lib.encodeV3Page data 0)).lookup a =
      some (lib.encodeV3Page d 0) →
      (a = id ∧ d = data) ∨ p.dir.pages.lookup a = some (lib.encodeV3Page d 0) := by
    intro a d hf
    by_cases ha : a = id
    · rw [ha, lookup_insert, Option.some.injEq] at hf
      exact .inl ⟨ha, (encodeV3Page_inj hf).1.symm⟩
    · rw [lookup_insert_of_ne _ ha] at hf
      exact .inr hf
  refine ⟨h.toSound.writtenRaw id data, fun a d hf => ?_, fun a d hf => ?_, fun a d hd => ?_,
    h.numbered, fun a ha => ?_, fun a d hd => ?_, h.index_handed, h.current_handed⟩
  · rcases hfile a d hf with ⟨-, rfl⟩ | hf
    · exact ⟨l, rfl⟩
    · exact h.oplog a d hf
  · rcases hfile a d hf with ⟨rfl, -⟩ | hf
    · exact hlive
    · exact h.live a d hf
  · by_cases ha : a = id
    · subst ha
      have hself : (p.memory.pageCache.insert lib.len a data).entries.lookup a = some data :=
        lookup_insert_self
      obtain rfl := Option.some.inj (hself.symm.trans hd)
      exact .inl (lookup_insert _)
    · refine (h.cached a d (lookup_of_insert_of_ne ha hd)).imp (fun hf => ?_) fun hgone => ?_
      · exact (lookup_insert_of_ne _ ha).trans hf
      · exact ⟨fun hmem => hgone.1 ((mem_insert.1 hmem).resolve_left ha), hgone.2⟩
  · rcases mem_insert.1 ha with rfl | ha
    · exact hid
    · exact h.page_handed a ha
  · by_cases ha : a = id
    · exact ha ▸ hid
    · exact h.cache_handed a d (lookup_of_insert_of_ne ha hd)

lemma Consistent.tombstoned (hid : id ∈ p.handedOut) (d : D) :
    Consistent lib ((p.mapCache (·.remove lib.len id)).putFile id (lib.encodeV3Page d 0x02)) := by
  have hfile : ∀ a d', (p.dir.pages.insert id (lib.encodeV3Page d 0x02)).lookup a =
      some (lib.encodeV3Page d' 0) → p.dir.pages.lookup a = some (lib.encodeV3Page d' 0) := by
    intro a d' hf
    by_cases ha : a = id
    · rw [ha, lookup_insert, Option.some.injEq] at hf
      exact absurd (encodeV3Page_inj hf).2 (by decide)
    · rwa [lookup_insert_of_ne _ ha] at hf
  have hcache : ∀ a d', (p.memory.pageCache.remove lib.len id).entries.lookup a = some d' →
      a ≠ id ∧ p.memory.pageCache.entries.lookup a = some d' := by
    intro a d' hd
    by_cases ha : a = id
    · rw [ha, lookup_remove_self] at hd
      cases hd
    · exact ⟨ha, (lookup_remove_of_ne ha).symm.trans hd⟩
  refine ⟨(h.toSound.mapCache _).putFile id d (.inr rfl), fun a d' hf => h.oplog a d' (hfile a d' hf),
    fun a d' hf => h.live a d' (hfile a d' hf), fun a d' hd => ?_, h.numbered, fun a ha => ?_,
    fun a d' hd => h.cache_handed a d' (hcache a d' hd).2, h.index_handed, h.current_handed⟩
  · obtain ⟨ha, hd⟩ := hcache a d' hd
    refine (h.cached a d' hd).imp (fun hf => ?_) fun hgone => ?_
    · exact (lookup_insert_of_ne _ ha).trans hf
    · exact ⟨fun hmem => hgone.1 ((mem_insert.1 hmem).resolve_left ha), hgone.2⟩
  · rcases mem_insert.1 ha with rfl | ha
    · exact hid
    · exact h.page_handed a ha

lemma Consistent.commit {m : StoreManifest} (hcurrent : m.currentPage = p.current)
    (hlive : ∀ a d, p.dir.pages.lookup a = some (lib.encodeV3Page d 0) →
      a ∈ m.contentIndex.livePages) (hsub : ∀ a ∈ m.contentIndex.livePages, a ∈ p.index.livePages)
    (hnum : m.contentIndex.Numbered) (hhanded : ∀ a ∈ m.contentIndex.pageById, a ∈ p.handedOut) :
    Consistent lib (p.commit m) where
  toSound := h.toSound.commit m
  oplog := h.oplog
  live := hlive
  cached a d hd := by
    refine (h.cached a d hd).imp_right fun hgone => ⟨hgone.1, fun hmem => hgone.2.1 (hsub a hmem), ?_⟩
    change a ≠ m.currentPage
    rw [hcurrent]
    exact hgone.2.2
  numbered := hnum
  page_handed := h.page_handed
  cache_handed := h.cache_handed
  index_handed := hhanded
  current_handed := by
    change m.currentPage = 0 ∨ m.currentPage ∈ p.handedOut
    rw [hcurrent]
    exact h.current_handed

lemma Consistent.withFlags (gc split : Bool) (pending : ℕ) : Consistent lib { p with memory :=
      { p.memory with gcNeeded := gc, splitPending := split, cachedPendingCount := pending } } :=
  { h with }

lemma Consistent.setCurrent (hid : id ∈ p.handedOut)
    (hcached : ∀ d, p.memory.pageCache.entries.lookup id = some d →
      p.dir.pages.lookup id = some (lib.encodeV3Page d 0)) :
    Consistent lib (p.persist { p.memory.manifest with currentPage := id }) :=
  { h with
    toSound := h.toSound.persist _
    cached := fun a d hd => by
      by_cases ha : a = id
      · exact .inl (ha ▸ hcached d (ha ▸ hd))
      · exact (h.cached a d hd).imp_right fun hgone => ⟨hgone.1, hgone.2.1, ha⟩
    current_handed := .inr hid }

lemma Consistent.collected {stale ids : List ℕ}
    (hstale : ∀ a, a ∈ stale ↔ a ∈ p.dir.pages ∧ a < p.current)
    (hids : ids.Perm (ascending (p.dropFiles stale).dir.pages.keys)) :
    Consistent lib (collected ((p.dropFiles stale).persist
      { lib.rebuilt (p.dropFiles stale).dir.pages ids with currentPage := p.current })) := by
  have hnum : (lib.rebuilt (p.dropFiles stale).dir.pages ids).contentIndex.Numbered :=
    (rebuilt_index ids).1
  have hindex : ∀ a ∈ (lib.rebuilt (p.dropFiles stale).dir.pages ids).contentIndex.pageById,
    a ∈ (p.dropFiles stale).dir.pages := (rebuilt_index ids).2
  have hkept : ∀ a f, (p.dropFiles stale).dir.pages.lookup a = some f →
      p.dir.pages.lookup a = some f := by
    intro a f hf
    rw [lookup_dropFiles] at hf
    split at hf
    · cases hf
    · exact hf
  have hmem : ∀ a ∈ (p.dropFiles stale).dir.pages, a ∈ p.handedOut := by
    intro a ha
    obtain ⟨f, hf⟩ := mem_iff.1 ha
    exact h.page_handed a (mem_iff.2 ⟨f, hkept a f hf⟩)
  refine ⟨((h.toSound.dropFiles stale).persist _).collected, fun a d hf => h.oplog a d (hkept a _ hf),
    fun a d hf => ?_, fun a d hd => ?_, hnum, hmem, h.cache_handed,
    fun a ha => hmem a (hindex a ha), h.current_handed⟩
  · exact (mem_rebuilt_livePages hids a).2 (hasLiveFile_of_lookup hf)
  · -- a cached page whose file is removed is below the current page, and no longer indexed
    change (p.dropFiles stale).dir.pages.lookup a = some (lib.encodeV3Page d 0) ∨
      (a ∉ (p.dropFiles stale).dir.pages ∧
        a ∉ (lib.rebuilt (p.dropFiles stale).dir.pages ids).contentIndex.livePages ∧ a ≠ p.current)
    have hgone : ∀ {a}, a ∉ (p.dropFiles stale).dir.pages →
        a ∉ (lib.rebuilt (p.dropFiles stale).dir.pages ids).contentIndex.livePages :=
      fun ha hlive => ha (mem_of_hasLiveFile ((mem_rebuilt_livePages hids _).1 hlive))
    have hnot : ∀ {a}, (p.dropFiles stale).dir.pages.lookup a = none →
        a ∉ (p.dropFiles stale).dir.pages := lookup_eq_none.1
    rcases h.cached a d hd with hf | hold
    · by_cases hs : a ∈ stale
      · have hmiss : (p.dropFiles stale).dir.pages.lookup a = none := by
          rw [lookup_dropFiles, if_pos hs]
        exact .inr ⟨hnot hmiss, hgone (hnot hmiss), ne_of_lt ((hstale a).1 hs).2⟩
      · refine .inl ?_
        rw [lookup_dropFiles, if_neg hs]
        exact hf
    · have hmiss : (p.dropFiles stale).dir.pages.lookup a = none := by
        rw [lookup_dropFiles, lookup_eq_none.2 hold.1, ite_self]
      exact .inr ⟨hnot hmiss, hgone (hnot hmiss), hold.2.2⟩

end

lemma consistent_created : Consistent lib (created : StoreState F D) where
  toSound := sound_created
  oplog _ _ hf := by cases hf
  live _ _ hf := by cases hf
  cached _ _ hd := by cases hd
  numbered _ _ h := by cases h
  page_handed _ h := absurd h notMem_empty
  cache_handed _ _ hd := by cases hd
  index_handed _ h := absurd h notMem_empty
  current_handed := .inl rfl

end StoreState

end VaultSync.Opfs
