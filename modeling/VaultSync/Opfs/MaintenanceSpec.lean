import VaultSync.Opfs.PageStoreSpec

/-! Rebuilding the manifest from the directory, and the maintenance that ends in it. -/

namespace VaultSync.Opfs

open Async StoreState PageFn List PageLib Finmap

variable {F D B : Type}

namespace PageLib

variable (lib : PageLib F D B) (pages : Finmap fun _ : ℕ => F) (acc : ℕ × ContentIndex)

def scanPage (id : ℕ) : ℕ × ContentIndex :=
  (max acc.1 id,
    match pages.lookup id with
    | some f =>
      match lib.readPageFile id f with
      | .ok (header, data) => PageStore.indexPage lib acc.2 id header data
      | .error _ => acc.2
    | none => acc.2)

def rebuilt (ids : List ℕ) : StoreManifest :=
  let acc := ids.foldl (lib.scanPage pages) (0, .new)
  { generation := 0
    highestPageId := acc.1
    currentPage := 0
    lastSequence := 0
    pendingCount := 0
    livePages := acc.2.livePages.card
    tombstonedPages := acc.2.tombstonedPages.card
    contentIndex := acc.2 }

def hasLiveFile (id : ℕ) : Bool :=
  match pages.lookup id with
  | some f =>
    match lib.readPageFile id f with
    | .ok (header, _) => !header.tombstoned
    | .error _ => false
  | none => false

variable {lib pages} {id : ℕ} {ids : List ℕ}

lemma mem_of_hasLiveFile (h : lib.hasLiveFile pages id = true) : id ∈ pages := by
  by_contra hid
  rw [hasLiveFile, lookup_eq_none.2 hid] at h
  cases h

lemma indexPage_livePages {index : ContentIndex} {header : PageHeader} {data : D} :
    (PageStore.indexPage lib index id header data).livePages =
      if header.tombstoned then index.livePages else insert id index.livePages := by
  unfold PageStore.indexPage
  split
  · rfl
  · split
    · exact Finset.insert_idem id index.livePages
    · rfl

lemma scanPage_livePages (id : ℕ) :
    (lib.scanPage pages acc id).2.livePages =
      if lib.hasLiveFile pages id then insert id acc.2.livePages else acc.2.livePages := by
  rcases hf : pages.lookup id with _ | f
  · simp [scanPage, hasLiveFile, hf]
  · rcases hr : lib.readPageFile id f with e | ⟨header, data⟩
    · simp [scanPage, hasLiveFile, hf, hr]
    · simp only [scanPage, hasLiveFile, hf, hr, indexPage_livePages]
      cases header.tombstoned <;> rfl

lemma mem_foldl_scanPage (ids : List ℕ) (acc : ℕ × ContentIndex) (id : ℕ) :
    id ∈ (ids.foldl (lib.scanPage pages) acc).2.livePages ↔
      id ∈ acc.2.livePages ∨ id ∈ ids ∧ lib.hasLiveFile pages id = true := by
  induction ids generalizing acc with
  | nil => simp
  | cons a ids ih =>
    rw [foldl_cons, ih, scanPage_livePages, mem_cons]
    by_cases ha : lib.hasLiveFile pages a = true
    · rw [if_pos ha, Finset.mem_insert]
      constructor
      · rintro ((rfl | h) | h)
        · exact .inr ⟨.inl rfl, ha⟩
        · exact .inl h
        · exact .inr ⟨.inr h.1, h.2⟩
      · rintro (h | ⟨rfl | h, hl⟩)
        · exact .inl (.inr h)
        · exact .inl (.inl rfl)
        · exact .inr ⟨h, hl⟩
    · rw [if_neg ha]
      constructor
      · rintro (h | h)
        · exact .inl h
        · exact .inr ⟨.inr h.1, h.2⟩
      · rintro (h | ⟨rfl | h, hl⟩)
        · exact .inl h
        · exact absurd hl ha
        · exact .inr ⟨h, hl⟩

lemma foldl_scanPage_fst (ids : List ℕ) (acc : ℕ × ContentIndex) :
    (ids.foldl (lib.scanPage pages) acc).1 = ids.foldl max acc.1 := by
  induction ids generalizing acc with
  | nil => rfl
  | cons a ids ih => rw [foldl_cons, foldl_cons, ih]; rfl

lemma mem_rebuilt_livePages (hids : ids.Perm (ascending pages.keys)) (id : ℕ) :
    id ∈ (lib.rebuilt pages ids).contentIndex.livePages ↔ lib.hasLiveFile pages id = true := by
  refine (mem_foldl_scanPage ids _ id).trans ?_
  constructor
  · rintro (h | h)
    · exact absurd h (Finset.notMem_empty id)
    · exact h.2
  · intro h
    refine .inr ⟨hids.mem_iff.2 ?_, h⟩
    exact mem_ascending.2 (mem_keys.2 (mem_of_hasLiveFile h))

lemma le_foldl_max (ids : List ℕ) (a : ℕ) :
    a ≤ ids.foldl max a ∧ ∀ id ∈ ids, id ≤ ids.foldl max a := by
  induction ids generalizing a with
  | nil => simp
  | cons b ids ih =>
    obtain ⟨hacc, hmem⟩ := ih (max a b)
    refine ⟨le_trans (le_max_left a b) hacc, fun id hid => ?_⟩
    rcases mem_cons.1 hid with rfl | hid
    · exact le_trans (le_max_right a id) hacc
    · exact hmem id hid

lemma le_rebuilt_highestPageId (hids : ids.Perm (ascending pages.keys)) (h : id ∈ pages) :
    id ≤ (lib.rebuilt pages ids).highestPageId := by
  have hfst : (lib.rebuilt pages ids).highestPageId = ids.foldl max 0 := foldl_scanPage_fst ids _
  rw [hfst]
  refine (le_foldl_max ids 0).2 id (hids.mem_iff.2 ?_)
  exact mem_ascending.2 (mem_keys.2 h)

end PageLib

namespace PageStore

section scanning

variable {lib : PageLib F D B} {s : StoreState F D}

lemma wp_scanPages {Q : Except VaultSyncError (ℕ × ContentIndex) → StoreState F D → Prop}
    (ids : List ℕ) (highest : ℕ) (index : ContentIndex) :
    wp (machine B) Q (scanPages lib ids highest index) s ↔
      Q (.ok (ids.foldl (lib.scanPage s.dir.pages) (highest, index))) s := by
  induction ids generalizing highest index with
  | nil => rfl
  | cons id ids ih =>
    rw [scanPages, wp_bind, wp_attempt, wp_readPageFile, foldl_cons]
    unfold pageFile scanPage
    dsimp only
    cases s.dir.pages.lookup id with
    | none => exact ih _ _
    | some f =>
      dsimp only
      cases lib.readPageFile id f with
      | error e | ok r => exact ih _ _

@[simp] lemma wp_rebuildManifestWithIndex
    {Q : Except VaultSyncError StoreManifest → StoreState F D → Prop} :
    wp (machine B) Q (rebuildManifestWithIndex lib) s ↔
      ∀ ids : List ℕ, ids.Perm (ascending s.dir.pages.keys) →
        Q (.ok (lib.rebuilt s.dir.pages ids)) s := by
  simp only [rebuildManifestWithIndex, wp_bind, wp_entries, wp_scanPages, wp_pure]
  rfl

variable {Q : Except VaultSyncError Unit → StoreState F D → Prop}

lemma wp_openStore_of_valid {m : StoreManifest} (h : s.dir.manifest = .valid m) :
    wp (machine B) Q (openStore lib) s ↔ Q (.ok ()) { s with memory := opened m } := by
  simp [openStore, openManifest, wp_bind, h, ManifestFile.verified]

lemma wp_openStore_of_invalid (h : s.dir.manifest.verified = none) :
    wp (machine B) Q (openStore lib) s ↔
      ∀ ids : List ℕ, ids.Perm (ascending s.dir.pages.keys) →
        Q (.ok ()) { (s.setManifestFile (.valid (lib.rebuilt s.dir.pages ids))) with
          memory := opened (lib.rebuilt s.dir.pages ids) } := by
  simp [openStore, openManifest, wp_bind, h]

lemma wp_openStore_ok (s : StoreState F D) :
    wp (machine B) (fun r _ => r = .ok ()) (openStore lib) s := by
  cases h : s.dir.manifest.verified with
  | none => exact (wp_openStore_of_invalid h).2 fun _ _ => rfl
  | some m => exact (wp_openStore_of_valid (ManifestFile.verified_eq_some.1 h)).2 rfl

end scanning

/-! ## Removing page files -/

section removing

variable {lib : PageLib F D B} {s : StoreState F D}

def Formatted (lib : PageLib F D B) (pages : Finmap fun _ : ℕ => F) : Prop :=
  ∀ id f, pages.lookup id = some f →
    ∃ data flags, (flags = 0 ∨ flags = 0x02) ∧ f = lib.encodeV3Page data flags

variable {id : ℕ} {data : D} {flags : UInt8} {ids : List ℕ} {pages : Finmap fun _ : ℕ => F}
  {Q : Except VaultSyncError ℕ → StoreState F D → Prop}

lemma hasLiveFile_of_lookup
    (h : pages.lookup id = some (lib.encodeV3Page data 0)) : lib.hasLiveFile pages id = true := by
  rw [hasLiveFile, h]
  simp [readPageFile_encodeV3Page, v3Header_live]

lemma hasLiveFile_of_tombstoned (h : pages.lookup id = some (lib.encodeV3Page data 0x02)) :
    lib.hasLiveFile pages id = false := by
  rw [hasLiveFile, h]
  simp [readPageFile_encodeV3Page, v3Header_tombstoned]

lemma Formatted.mem_cases (h : Formatted lib pages) (hid : id ∈ pages) :
    (∃ data, pages.lookup id = some (lib.encodeV3Page data 0)) ∨
      ∃ data, pages.lookup id = some (lib.encodeV3Page data 0x02) := by
  obtain ⟨f, hf⟩ := mem_iff.1 hid
  obtain ⟨data, flags, rfl | rfl, rfl⟩ := h id f hf
  · exact .inl ⟨data, hf⟩
  · exact .inr ⟨data, hf⟩

lemma wp_staleCheckpoint {Q : Except VaultSyncError Bool → StoreState F D → Prop}
    (h : s.dir.pages.lookup id = some (lib.encodeV3Page data flags)) :
    wp (machine B) Q (staleCheckpoint lib id) s ↔ Q (.ok false) s := by
  unfold staleCheckpoint
  split
  · simp [wp_bind, fileAt_of_lookup h, encodeV3Page, lib.isJson_encode]
  · rfl

lemma wp_removable_of_lookup {Q : Except VaultSyncError Bool → StoreState F D → Prop}
    (h : s.dir.pages.lookup id = some (lib.encodeV3Page data flags)) :
    wp (machine B) Q (removable lib id) s ↔ Q (.ok (lib.v3Header data flags).tombstoned) s := by
  simp [removable, wp_bind, wp_staleCheckpoint h, wp_attempt, readPageHeader, fileAt_of_lookup h, readPageHeader_encodeV3Page]

lemma wp_removable {Q : Except VaultSyncError Bool → StoreState F D → Prop}
    (hs : Formatted lib s.dir.pages) (hid : id ∈ s.dir.pages) :
    wp (machine B) Q (removable lib id) s ↔ Q (.ok (!lib.hasLiveFile s.dir.pages id)) s := by
  rcases hs.mem_cases hid with ⟨data, h⟩ | ⟨data, h⟩
  · rw [wp_removable_of_lookup h, hasLiveFile_of_lookup h, v3Header_live, Bool.not_true]
  · rw [wp_removable_of_lookup h, hasLiveFile_of_tombstoned h, v3Header_tombstoned,
      Bool.not_false]

lemma Formatted.erase (h : Formatted lib pages) (a : ℕ) : Formatted lib (pages.erase a) := by
  intro id f hf
  by_cases ha : id = a
  · rw [ha, lookup_erase] at hf
    cases hf
  · rw [lookup_erase_ne ha] at hf
    exact h id f hf

lemma mem_entries (h : ids.Perm (ascending s.dir.pages.keys)) (hid : id ∈ ids) : id ∈ s.dir.pages :=
  mem_keys.1 (mem_ascending.1 (h.mem_iff.1 hid))

lemma nodup_entries (h : ids.Perm (ascending s.dir.pages.keys)) : ids.Nodup :=
  h.nodup_iff.2 (nodup_ascending _)

section

variable (hs : Formatted lib s.dir.pages)

include hs

lemma wp_removePages (hnd : ids.Nodup) (hids : ∀ id ∈ ids, id ∈ s.dir.pages) (n : ℕ) :
    wp (machine B) Q (removePages lib ids n) s ↔
      Q (.ok (n + (ids.filter fun id => !lib.hasLiveFile s.dir.pages id).length))
        (s.dropFiles (ids.filter fun id => !lib.hasLiveFile s.dir.pages id)) := by
  induction ids generalizing s n with
  | nil => rfl
  | cons id ids ih =>
    rw [nodup_cons] at hnd
    have hid : id ∈ s.dir.pages := hids id mem_cons_self
    rw [removePages, wp_bind, wp_removable hs hid]
    cases hlive : lib.hasLiveFile s.dir.pages id with
    | true =>
      have hrest : ∀ a ∈ ids, a ∈ s.dir.pages := fun a ha => hids a (mem_cons_of_mem id ha)
      rw [filter_cons_of_neg (by simp [hlive])]
      exact ih hs hnd.2 hrest n
    | false =>
      rw [filter_cons_of_pos (by simp [hlive])]
      -- the file of `id` goes; the other files of the list stay as they are
      have hne : ∀ a ∈ ids, a ≠ id := fun a ha h => hnd.1 (h ▸ ha)
      have hfilter : (ids.filter fun a => !lib.hasLiveFile (s.dropFile id).dir.pages a) =
          ids.filter fun a => !lib.hasLiveFile s.dir.pages a :=
        filter_congr fun a ha => by
          rw [show (s.dropFile id).dir.pages = s.dir.pages.erase id from rfl,
            hasLiveFile, hasLiveFile, lookup_erase_ne (hne a ha)]
      have hrest : ∀ a ∈ ids, a ∈ (s.dropFile id).dir.pages := fun a ha =>
        mem_erase.2 ⟨hne a ha, hids a (mem_cons_of_mem id ha)⟩
      simp only [Bool.not_false, if_true, wp_bind]
      rw [wp_deleteFile hid]
      dsimp only
      rw [ih (hs.erase id) hnd.2 hrest (n + 1), hfilter, length_cons, Nat.add_right_comm,
        Nat.add_assoc]
      rfl

lemma wp_cleanupTombstonedPages
    (hidle : (∀ id ∈ s.dir.pages.keys, lib.hasLiveFile s.dir.pages id) → Q (.ok 0) s)
    (hQ : ∀ n dead ids, (¬ ∀ id ∈ s.dir.pages.keys, lib.hasLiveFile s.dir.pages id) →
      (∀ a, a ∈ dead ↔ a ∈ s.dir.pages ∧ lib.hasLiveFile s.dir.pages a = false) →
      ids.Perm (ascending (s.dropFiles dead).dir.pages.keys) →
      Q (.ok n) ((s.dropFiles dead).persist (lib.rebuilt (s.dropFiles dead).dir.pages ids))) :
    wp (machine B) Q (cleanupTombstonedPages lib) s := by
  rw [cleanupTombstonedPages, wp_bind, wp_entries]
  intro ids hids
  have hperm : ∀ a, a ∈ ids.filter (fun id => !lib.hasLiveFile s.dir.pages id) ↔
      a ∈ s.dir.pages ∧ lib.hasLiveFile s.dir.pages a = false := by
    intro a
    rw [mem_filter, hids.mem_iff, mem_ascending, Finmap.mem_keys, Bool.not_eq_true']
  dsimp only
  rw [wp_bind, wp_removePages hs (nodup_entries hids) fun _ => mem_entries hids]
  rcases hdead : ids.filter (fun id => !lib.hasLiveFile s.dir.pages id) with _ | ⟨a, rest⟩
  · refine hidle fun id hid => ?_
    by_contra hnot
    have := (hperm id).2 ⟨mem_keys.1 hid, Bool.eq_false_iff.2 hnot⟩
    rw [hdead] at this
    cases this
  · rw [hdead] at hperm
    obtain ⟨ha, hnot⟩ := (hperm a).1 mem_cons_self
    simp only [Nat.zero_add, length_cons, Nat.succ_pos, if_true, wp_bind,
      wp_rebuildManifestWithIndex, wp_persistManifest, wp_pure]
    exact fun ids' => hQ _ _ ids' (fun hlive => by simp [hlive a (mem_keys.2 ha)] at hnot) hperm

end

lemma wp_removePagesBelow (current : ℕ)
    (hnd : ids.Nodup) (hids : ∀ id ∈ ids, id ∈ s.dir.pages) (n : ℕ) :
    wp (machine B) Q (removePagesBelow current ids n) s ↔
      Q (.ok (n + (ids.filter fun id => id < current).length))
        (s.dropFiles (ids.filter fun id => id < current)) := by
  induction ids generalizing s n with
  | nil => rfl
  | cons id ids ih =>
    rw [nodup_cons] at hnd
    have hid : id ∈ s.dir.pages := hids id mem_cons_self
    rw [removePagesBelow]
    by_cases hlt : id < current
    · have hrest : ∀ a ∈ ids, a ∈ (s.dropFile id).dir.pages := fun a ha =>
        mem_erase.2 ⟨fun h => hnd.1 (h ▸ ha), hids a (mem_cons_of_mem id ha)⟩
      rw [if_pos hlt, wp_bind, wp_removeFile hid, filter_cons_of_pos (by simpa using hlt)]
      dsimp only
      rw [ih hnd.2 hrest (n + 1), length_cons, Nat.add_right_comm, Nat.add_assoc]
      rfl
    · have hrest : ∀ a ∈ ids, a ∈ s.dir.pages := fun a ha => hids a (mem_cons_of_mem id ha)
      rw [if_neg hlt, filter_cons_of_neg (by simpa using hlt)]
      exact ih hnd.2 hrest n

def collected (s : StoreState F D) : StoreState F D :=
  { s with memory := { s.memory with gcNeeded := false } }

lemma wp_collect (current : ℕ)
    (hidle : (∀ id ∈ s.dir.pages, current ≤ id) → Q (.ok 0) (collected s))
    (hQ : ∀ n stale ids, (∃ id ∈ s.dir.pages, id < current) →
      (∀ a, a ∈ stale ↔ a ∈ s.dir.pages ∧ a < current) →
      ids.Perm (ascending (s.dropFiles stale).dir.pages.keys) →
      Q (.ok n) (collected ((s.dropFiles stale).persist
        { lib.rebuilt (s.dropFiles stale).dir.pages ids with currentPage := current }))) :
    wp (machine B) Q (collect lib current) s := by
  rw [collect, wp_bind, wp_entries]
  intro ids hids
  have hperm : ∀ a, a ∈ ids.filter (fun id => id < current) ↔ a ∈ s.dir.pages ∧ a < current := by
    intro a
    rw [mem_filter, hids.mem_iff, mem_ascending, Finmap.mem_keys, decide_eq_true_iff]
  dsimp only
  rw [wp_bind, wp_removePagesBelow current (nodup_entries hids) fun _ => mem_entries hids]
  rcases hstale : ids.filter (fun id => id < current) with _ | ⟨a, rest⟩
  · simp only [length_nil, lt_irrefl, if_false, wp_bind, wp_pure, wp_modify, Nat.add_zero]
    refine hidle fun id hid => ?_
    by_contra hlt
    have := (hperm id).2 ⟨hid, not_le.1 hlt⟩
    rw [hstale] at this
    cases this
  · rw [hstale] at hperm
    have ha := (hperm a).1 mem_cons_self
    simp only [Nat.zero_add, length_cons, Nat.succ_pos, if_true, wp_bind,
      wp_rebuildManifestWithIndex, wp_persistManifest, wp_pure, wp_modify]
    exact fun ids' hids' => hQ _ _ ids' ⟨a, ha⟩ hperm hids'

lemma wp_runPendingGc :
    wp (machine B) Q (runPendingGc lib) s ↔
      if s.memory.gcNeeded then
        match s.dir.manifest.verified with
        | some m =>
          if 0 < m.currentPage then wp (machine B) Q (collect lib m.currentPage) s else Q (.ok 0) s
        | none => Q (.ok 0) s
      else Q (.ok 0) s := by
  rw [runPendingGc, wp_bind, wp_read]
  cases s.memory.gcNeeded with
  | false => rfl
  | true =>
    simp only [Bool.not_true, Bool.false_eq_true, if_false, if_true, wp_bind, wp_readManifest]
    cases s.dir.manifest.verified with
    | none => rfl
    | some m =>
      dsimp only
      split <;> rfl

end removing

end PageStore

/-! ## What every function of the store keeps -/

namespace StoreState

open PageStore

/-- The manifest file is the manifest in memory, and the page files are this version's. -/
structure Sound (lib : PageLib F D B) (s : StoreState F D) : Prop where
  manifest : s.dir.manifest = .valid s.memory.manifest
  formatted : Formatted lib s.dir.pages

variable {lib : PageLib F D B} {s : StoreState F D}

section

variable (h : Sound lib s)

include h

lemma Sound.commit (m : StoreManifest) : Sound lib (s.commit m) :=
  ⟨rfl, h.formatted⟩

lemma Sound.persist (m : StoreManifest) : Sound lib (s.persist m) :=
  ⟨rfl, h.formatted⟩

lemma Sound.mapCache (f : PageCache D → PageCache D) : Sound lib (s.mapCache f) :=
  ⟨h.manifest, h.formatted⟩

lemma Sound.handOut (id : ℕ) : Sound lib (s.handOut id) :=
  ⟨h.manifest, h.formatted⟩

lemma Sound.collected : Sound lib (collected s) := ⟨h.manifest, h.formatted⟩

lemma Sound.putFile (id : ℕ) (data : D) {flags : UInt8} (hflags : flags = 0 ∨ flags = 0x02) :
    Sound lib (s.putFile id (lib.encodeV3Page data flags)) := by
  refine ⟨h.manifest, fun id' f hf => ?_⟩
  have hf' : (s.dir.pages.insert id (lib.encodeV3Page data flags)).lookup id' = some f := hf
  by_cases hid : id' = id
  · rw [hid, lookup_insert, Option.some.injEq] at hf'
    exact ⟨data, flags, hflags, hf'.symm⟩
  · rw [lookup_insert_of_ne _ hid] at hf'
    exact h.formatted id' f hf'

lemma Sound.writtenRaw (id : ℕ) (data : D) : Sound lib (s.writtenRaw lib id data) :=
  (h.putFile id data (.inl rfl)).mapCache _

lemma Sound.dropFiles (ids : List ℕ) : Sound lib (s.dropFiles ids) := by
  refine ⟨h.manifest, fun id f hf => ?_⟩
  rw [lookup_dropFiles] at hf
  split at hf
  · cases hf
  · exact h.formatted id f hf

lemma Sound.opened : Sound lib { s with memory := opened s.memory.manifest } :=
  ⟨h.manifest, h.formatted⟩

end

def created : StoreState F D :=
  let m : StoreManifest :=
    { generation := 0
      highestPageId := 0
      currentPage := 0
      lastSequence := 0
      pendingCount := 0
      livePages := 0
      tombstonedPages := 0
      contentIndex := .new }
  { memory := PageStore.opened m
    dir := { pages := ∅, manifest := .valid m }
    handedOut := [] }

lemma sound_created : Sound lib (created : StoreState F D) :=
  ⟨rfl, fun _ _ hf => by cases hf⟩

lemma wp_openStore_empty {Q : Except VaultSyncError Unit → StoreState F D → Prop}
    (p : PageStore D) :
    wp (machine B) Q (openStore lib) ⟨p, ⟨∅, .missing⟩, []⟩ ↔ Q (.ok ()) created := by
  rw [wp_openStore_of_invalid rfl]
  have hempty : ascending (∅ : Finmap fun _ : ℕ => F).keys = [] := rfl
  constructor
  · exact fun h => h [] (hempty ▸ .refl _)
  · intro h ids hids
    obtain rfl : ids = [] := perm_nil.1 (hempty ▸ hids)
    exact h

end StoreState

end VaultSync.Opfs
