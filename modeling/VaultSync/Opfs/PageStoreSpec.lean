import VaultSync.Opfs.PageStore

/-! What the functions of the page store do when they run alone on a disk that works. -/

namespace VaultSync.Opfs

open Async StoreState PageFn List

variable {F D B α : Type}

namespace StoreState

variable (lib : PageLib F D B) (s : StoreState F D)

def commit (m : StoreManifest) : StoreState F D :=
  (s.setManifest m).setManifestFile (.valid m)

def mapCache (f : PageCache D → PageCache D) : StoreState F D :=
  { s with memory := { s.memory with pageCache := f s.memory.pageCache } }

def allocated : StoreState F D :=
  (s.commit s.memory.manifest.allocatePageId.2).handOut s.memory.manifest.nextPageId

def writtenRaw (id : ℕ) (data : D) : StoreState F D :=
  (s.putFile id (lib.encodeV3Page data 0)).mapCache (·.insert lib.len id data)

def writtenInPlace (id : ℕ) (data : D) : StoreState F D :=
  let soft := PageStore.softSplitBytes < lib.len data ∨
    PageStore.maxEntriesPerPage < PageStore.estimateEntryCount lib data
  let s := if soft then { s with memory := { s.memory with splitPending := true } } else s
  (s.writtenRaw lib id data).commit (s.memory.manifest.commitPageWrite id none)

def persist (m : StoreManifest) : StoreState F D :=
  s.commit { m with pendingCount := s.memory.cachedPendingCount }

def rotated : StoreState F D :=
  (s.persist s.memory.manifest.allocateAndRotate.2).handOut s.memory.manifest.nextPageId

def halved (entries : List (OplogEntry B)) : StoreState F D :=
  let mid := entries.length / 2
  (s.allocated.allocated.writtenRaw lib s.memory.manifest.nextPageId
    (lib.encodeOplog (entries.take mid))).writtenRaw lib s.allocated.memory.manifest.nextPageId
    (lib.encodeOplog (entries.drop mid))

def splitInto (id : ℕ) (entries : List (OplogEntry B)) (data : D) : StoreState F D :=
  let s' := ((s.halved lib entries).mapCache (·.remove lib.len id)).putFile id
    (lib.encodeV3Page data 0x02)
  s'.commit (s'.memory.manifest.commitTx
    [.write s.memory.manifest.nextPageId none, .write s.allocated.memory.manifest.nextPageId none,
      .tombstone id])

def pageFile (id : ℕ) : Except VaultSyncError (Option (PageHeader × D)) :=
  match s.dir.pages.lookup id with
  | none => .ok none
  | some f => (lib.readPageFile id f).map some

variable (ids : List ℕ)

def dropFiles : StoreState F D :=
  { s with dir := { s.dir with pages := ids.foldl (fun pages id => pages.erase id) s.dir.pages } }

lemma lookup_foldl_erase (pages : Finmap fun _ : ℕ => F) (id : ℕ) :
    (ids.foldl (fun pages id => pages.erase id) pages).lookup id =
      if id ∈ ids then none else pages.lookup id := by
  induction ids generalizing pages with
  | nil => rfl
  | cons a ids ih =>
    rw [foldl_cons, ih]
    by_cases ha : id = a
    · subst ha
      simp
    · simp [ha, Finmap.lookup_erase_ne ha]

lemma lookup_dropFiles (id : ℕ) :
    (s.dropFiles ids).dir.pages.lookup id = if id ∈ ids then none else s.dir.pages.lookup id :=
  lookup_foldl_erase ids s.dir.pages id

end StoreState

section calls

variable {Q : Except VaultSyncError α → StoreState F D → Prop} {s : StoreState F D}

@[simp] lemma wp_read (f : PageStore D → α) :
    wp (machine B) Q (Prog.read f : PageFn F D α) s ↔ Q (.ok (f s.memory)) s := Iff.rfl

@[simp] lemma wp_modify (f : PageStore D → PageStore D)
    {Q : Except VaultSyncError Unit → StoreState F D → Prop} :
    wp (machine B) Q (Prog.modify f : PageFn F D Unit) s ↔
      Q (.ok ()) { s with memory := f s.memory } := Iff.rfl

lemma run_of_wp {t : PageFn F D α} (h : wp (machine B) Q t s) (envs : List (Env B)) :
    Q (Async.run (machine B) t envs s).1 (Async.run (machine B) t envs s).2 :=
  wp_iff_outcome.1 h _ _ (run_outcome t envs s fun _ _ => ⟨trivial, fun _ _ => trivial⟩)

end calls

namespace PageFn

variable {s : StoreState F D}

@[simp] lemma wp_readManifest
    {Q : Except VaultSyncError (Option StoreManifest) → StoreState F D → Prop} :
    wp (machine B) Q readManifest s ↔ Q (.ok s.dir.manifest.verified) s :=
  ⟨fun h => h default trivial, fun h _ _ => h⟩

@[simp] lemma wp_readAllBytes
    {Q : Except VaultSyncError (Except FileError F) → StoreState F D → Prop} (id : ℕ) :
    wp (machine B) Q (readAllBytes id) s ↔ Q (.ok (s.fileAt id)) s :=
  ⟨fun h => h default trivial, fun h _ _ => h⟩

@[simp] lemma wp_entries {Q : Except VaultSyncError (List ℕ) → StoreState F D → Prop} :
    wp (machine B) Q entries s ↔
      ∀ ids : List ℕ, ids.Perm (ascending s.dir.pages.keys) → Q (.ok ids) s := by
  constructor
  · intro h ids hids
    -- an environment that enumerates this directory as `ids`
    let order : (l : List ℕ) → Order l := fun l =>
      if hl : ids.Perm l then ⟨ids, hl⟩ else ⟨l, .refl _⟩
    have horder : (order (ascending s.dir.pages.keys)).1 = ids := by
      simp only [order]
      rw [dif_pos hids]
    have hQ := h { (default : Env B) with dirOrder := order } trivial
    rw [← horder]
    exact hQ
  · exact fun h e _ => h _ (e.dirOrder _).2

variable {Q : Except VaultSyncError Unit → StoreState F D → Prop}

@[simp] lemma wp_writeManifest (m : StoreManifest) :
    wp (machine B) Q (writeManifest m) s ↔ Q (.ok ()) (s.setManifestFile (.valid m)) :=
  ⟨fun h => h default trivial, fun h _ _ => h⟩

@[simp] lemma wp_writeFile (id : ℕ) (f : F) :
    wp (machine B) Q (writeFile id f) s ↔ Q (.ok ()) (s.putFile id f) :=
  ⟨fun h => h default trivial, fun h _ _ => h⟩

lemma wp_removeFile {Q : Except VaultSyncError (Except FileError Unit) → StoreState F D → Prop}
    {id : ℕ} (h : id ∈ s.dir.pages) :
    wp (machine B) Q (.call (.removeFile id) .ret : PageFn F D (Except FileError Unit)) s ↔
      Q (.ok (.ok ())) (s.dropFile id) := by
  have hhandle : ∀ e : Env B, StoreState.handle (.removeFile id) e s = (.ok (), s.dropFile id) :=
    fun _ => if_pos h
  constructor
  · intro hQ
    have := hQ default trivial
    rw [show (machine B).handle (.removeFile id) default s = _ from hhandle default] at this
    exact this
  · intro hQ e _
    rw [show (machine B).handle (.removeFile id) e s = _ from hhandle e]
    exact hQ

lemma wp_deleteFile {id : ℕ} (h : id ∈ s.dir.pages) :
    wp (machine B) Q (deleteFile id) s ↔ Q (.ok ()) (s.dropFile id) := by
  have hbind : (deleteFile id : PageFn F D Unit) =
      (.call (.removeFile id) .ret : PageFn F D (Except FileError Unit)) >>= ofFile := rfl
  rw [hbind, wp_bind, wp_removeFile h]
  rfl

@[simp] lemma wp_updateManifest (f : StoreManifest → StoreManifest)
    {Q : Except VaultSyncError StoreManifest → StoreState F D → Prop} :
    wp (machine B) Q (updateManifest f) s ↔
      Q (.ok (f s.memory.manifest)) (s.setManifest (f s.memory.manifest)) := Iff.rfl

@[simp] lemma wp_setCache (f : PageCache D → PageCache D) :
    wp (machine B) Q (setCache f) s ↔ Q (.ok ()) (s.mapCache f) := Iff.rfl

end PageFn

namespace PageStore

section updates

variable {Q : Except VaultSyncError Unit → StoreState F D → Prop} {s : StoreState F D}
  {lib : PageLib F D B}

@[simp] lemma wp_commitManifest (f : StoreManifest → StoreManifest) :
    wp (machine B) Q (commitManifest f) s ↔ Q (.ok ()) (s.commit (f s.memory.manifest)) := by
  simp only [commitManifest, wp_bind, wp_updateManifest, wp_writeManifest]
  rfl

@[simp] lemma wp_persistManifest (m : StoreManifest) :
    wp (machine B) Q (persistManifest m) s ↔ Q (.ok ()) (s.persist m) := by
  simp only [persistManifest, wp_bind, wp_read, wp_writeManifest, wp_modify]
  rfl

@[simp] lemma wp_setCurrentPage (id : ℕ) :
    wp (machine B) Q (setCurrentPage id) s ↔
      Q (.ok ()) (s.persist { s.memory.manifest with currentPage := id }) := by
  simp [setCurrentPage, wp_bind]

@[simp] lemma wp_writePageRaw (id : ℕ) (data : D) :
    wp (machine B) Q (writePageRaw lib id data) s ↔ Q (.ok ()) (s.writtenRaw lib id data) := by
  simp only [writePageRaw, wp_bind, wp_writeFile, wp_setCache]
  rfl

lemma wp_writeInPlace (id : ℕ) (data : D) :
    wp (machine B) Q (writeInPlace lib id data) s ↔ Q (.ok ()) (s.writtenInPlace lib id data) := by
  unfold writeInPlace writtenInPlace
  by_cases h : softSplitBytes < lib.len data ∨ maxEntriesPerPage < estimateEntryCount lib data
  · simp only [if_pos h, wp_bind, wp_modify, wp_writePageRaw, commitPageWrite, wp_commitManifest]
    rfl
  · simp only [if_neg h, wp_bind, wp_writePageRaw, commitPageWrite, wp_commitManifest]
    rfl

@[simp] lemma wp_allocatePageId {Q : Except VaultSyncError ℕ → StoreState F D → Prop} :
    wp (machine B) Q allocatePageId s ↔ Q (.ok s.memory.manifest.nextPageId) s.allocated :=
  ⟨fun h => h default trivial default trivial, fun h _ _ _ _ => h⟩

@[simp] lemma wp_allocateAndRotate {Q : Except VaultSyncError (ℕ × ℕ) → StoreState F D → Prop} :
    wp (machine B) Q allocateAndRotate s ↔
      Q (.ok (s.memory.manifest.nextPageId, s.memory.manifest.currentPage)) s.rotated :=
  ⟨fun h => h default trivial default trivial, fun h _ _ _ _ => h⟩

@[simp] lemma wp_currentPage {Q : Except VaultSyncError ℕ → StoreState F D → Prop} :
    wp (machine B) Q currentPage s ↔
      Q (.ok ((s.dir.manifest.verified.map StoreManifest.currentPage).getD 0)) s := by
  simp [currentPage, wp_bind]

end updates

/-! ## Files in the current format -/

section formatted

variable {Q : Except VaultSyncError Unit → StoreState F D → Prop} {s : StoreState F D}
  {lib : PageLib F D B} {id : ℕ} {data : D} {flags : UInt8}

lemma fileAt_of_lookup {f : F} (h : s.dir.pages.lookup id = some f) : s.fileAt id = .ok f := by
  simp [fileAt, h]

lemma fileAt_of_missing (h : id ∉ s.dir.pages) : s.fileAt id = .error .notFound := by
  simp [fileAt, Finmap.lookup_eq_none.2 h]

@[simp] lemma fileAt_mapCache (f : PageCache D → PageCache D) :
    (s.mapCache f).fileAt id = s.fileAt id := rfl

lemma wp_tombstoneFile :
    wp (machine B) Q (tombstoneFile lib id (lib.encodeV3Page data flags)) s ↔
      Q (.ok ()) (s.putFile id (lib.encodeV3Page data 0x02)) := by
  simp [tombstoneFile, PageLib.extractPageData_encodeV3Page, wp_bind]

lemma wp_tombstonePage (h : s.dir.pages.lookup id = some (lib.encodeV3Page data flags)) :
    wp (machine B) Q (tombstonePage lib id) s ↔
      Q (.ok ()) (((s.putFile id (lib.encodeV3Page data 0x02)).mapCache (·.remove lib.len id)).commit
        (s.memory.manifest.removeFromIndex id)) := by
  simp only [tombstonePage, wp_bind, wp_readAllBytes, fileAt_of_lookup h, wp_tombstoneFile,
    wp_setCache, removeFromManifestIndex, wp_commitManifest]
  rfl

lemma wp_tombstonePage_of_missing (h : id ∉ s.dir.pages) :
    wp (machine B) Q (tombstonePage lib id) s ↔
      Q (.ok ()) (s.commit (s.memory.manifest.removeFromIndex id)) := by
  simp [tombstonePage, wp_bind, fileAt_of_missing h, removeFromManifestIndex]

lemma wp_tombstonePageFileOnly (h : s.dir.pages.lookup id = some (lib.encodeV3Page data flags)) :
    wp (machine B) Q (tombstonePageFileOnly lib id) s ↔
      Q (.ok ()) ((s.mapCache (·.remove lib.len id)).putFile id (lib.encodeV3Page data 0x02)) := by
  simp [tombstonePageFileOnly, wp_bind, fileAt_of_lookup h, wp_tombstoneFile]

lemma wp_tombstonePageFileOnly_of_missing (h : id ∉ s.dir.pages) :
    wp (machine B) Q (tombstonePageFileOnly lib id) s ↔
      Q (.ok ()) (s.mapCache (·.remove lib.len id)) := by
  simp [tombstonePageFileOnly, wp_bind, fileAt_of_missing h]

variable {Q : Except VaultSyncError (List PageTxOp) → StoreState F D → Prop}

lemma wp_tombstonePageTx (h : s.dir.pages.lookup id = some (lib.encodeV3Page data flags)) :
    wp (machine B) Q (tombstonePageTx lib id) s ↔
      Q (.ok [.tombstone id])
        ((s.mapCache (·.remove lib.len id)).putFile id (lib.encodeV3Page data 0x02)) := by
  simp [tombstonePageTx, wp_bind, fileAt_of_lookup h, wp_tombstoneFile]

lemma wp_tombstonePageTx_of_missing (h : id ∉ s.dir.pages) :
    wp (machine B) Q (tombstonePageTx lib id) s ↔ Q (.ok []) (s.mapCache (·.remove lib.len id)) := by
  simp [tombstonePageTx, wp_bind, fileAt_of_missing h]

@[simp] lemma wp_writePageTx (key : Option IndexKey) :
    wp (machine B) Q (writePageTx lib id key data) s ↔
      Q (.ok [.write id key]) (s.writtenRaw lib id data) := by
  simp [writePageTx, wp_bind]

end formatted

/-! ## Reading -/

section reading

variable {s : StoreState F D} {lib : PageLib F D B} {id : ℕ} {data : D}

@[simp] lemma wp_readPageFile
    {Q : Except VaultSyncError (Option (PageHeader × D)) → StoreState F D → Prop} :
    wp (machine B) Q (readPageFile lib id) s ↔ Q (s.pageFile lib id) s := by
  simp only [readPageFile, wp_bind, wp_readAllBytes]
  cases hf : s.dir.pages.lookup id with
  | none => simp [fileAt, pageFile, hf]
  | some f =>
    simp only [fileAt, pageFile, hf, wp_bind, wp_ofExcept]
    cases lib.readPageFile id f <;> rfl

lemma pageFile_of_missing (h : id ∉ s.dir.pages) : s.pageFile lib id = .ok none := by
  simp [pageFile, Finmap.lookup_eq_none.2 h]

lemma pageFile_of_lookup {flags : UInt8}
    (h : s.dir.pages.lookup id = some (lib.encodeV3Page data flags)) :
    s.pageFile lib id = .ok (some (lib.v3Header data flags, data)) := by
  simp only [pageFile, h, PageLib.readPageFile_encodeV3Page]
  rfl

lemma wp_writePageVerify [DecidableEq D] {Q : Except VaultSyncError Unit → StoreState F D → Prop} :
    wp (machine B) Q (writePageVerify lib id data) s ↔
      Q (.ok ()) ((((s.putFile ((id + 2 ^ 63) % 2 ^ 64) (lib.encodeV3Page data 0)).putFile id
        (lib.encodeV3Page data 0)).dropFile ((id + 2 ^ 63) % 2 ^ 64)).commit
          (s.memory.manifest.commitPageWrite id none)) := by
  unfold writePageVerify
  set tmp := (id + 2 ^ 63) % 2 ^ 64
  have htmp : (s.putFile tmp (lib.encodeV3Page data 0)).dir.pages.lookup tmp =
    some (lib.encodeV3Page data 0) := Finmap.lookup_insert _
  have hmem : tmp ∈ ((s.putFile tmp (lib.encodeV3Page data 0)).putFile id
      (lib.encodeV3Page data 0)).dir.pages :=
    Finmap.mem_insert.2 (.inr (Finmap.mem_insert.2 (.inl rfl)))
  simp only [wp_bind, wp_writeFile, wp_readPageFile, pageFile_of_lookup htmp, ne_eq,
    not_true_eq_false, if_false, wp_readAllBytes, fileAt_of_lookup htmp, wp_deleteFile hmem,
    commitPageWrite, wp_commitManifest]
  rfl

variable {Q : Except VaultSyncError (Option D) → StoreState F D → Prop}

lemma wp_readPage : wp (machine B) Q (readPage lib id) s ↔
    wp (machine B) Q
      (match (s.memory.pageCache.get id).1 with
        | some data => return some data
        | none => readUncached lib id)
      (s.mapCache fun c => (c.get id).2) := Iff.rfl

lemma wp_readPage_cached (h : s.memory.pageCache.entries.lookup id = some data) :
    wp (machine B) Q (readPage lib id) s ↔ Q (.ok (some data)) (s.mapCache (·.touch id)) := by
  have hget : s.memory.pageCache.get id = (some data, s.memory.pageCache.touch id) := by
    simp [PageCache.get, h]
  rw [wp_readPage, hget]
  simp only [wp_pure]
  rw [show s.mapCache (fun c => (c.get id).2) = s.mapCache (·.touch id) by
    simp only [mapCache, hget]]

lemma wp_readPage_uncached (h : s.memory.pageCache.entries.lookup id = none) :
    wp (machine B) Q (readPage lib id) s ↔ wp (machine B) Q (readUncached lib id) s := by
  have hget : s.memory.pageCache.get id = (none, s.memory.pageCache) := by
    simp [PageCache.get, h]
  rw [wp_readPage, hget]
  rw [show s.mapCache (fun c => (c.get id).2) = s by simp [mapCache, hget]]

lemma wp_readUncached_of_missing (h : id ∉ s.dir.pages) :
    wp (machine B) Q (readUncached lib id) s ↔ Q (.ok none) s := by
  simp [readUncached, wp_bind, pageFile_of_missing h]

lemma wp_readUncached_of_live (h : s.dir.pages.lookup id = some (lib.encodeV3Page data 0)) :
    wp (machine B) Q (readUncached lib id) s ↔
      Q (.ok (some data)) (s.mapCache (·.insert lib.len id data)) := by
  have hlive : (lib.v3Header data 0).tombstoned = false := PageLib.v3Header_live
  have hcrc : lib.crc32 data = (lib.v3Header data 0).checksum := rfl
  simp [readUncached, wp_bind, pageFile_of_lookup h, hcrc, hlive]

lemma wp_readUncached_of_tombstoned
    (h : s.dir.pages.lookup id = some (lib.encodeV3Page data 0x02)) :
    wp (machine B) Q (readUncached lib id) s ↔ Q (.ok none) s := by
  have hdead : (lib.v3Header data 0x02).tombstoned = true := PageLib.v3Header_tombstoned
  have hcrc : lib.crc32 data = (lib.v3Header data 0x02).checksum := rfl
  simp [readUncached, wp_bind, pageFile_of_lookup h, hcrc, hdead]

end reading

/-! ## Splitting -/

section splitting

variable {Q : Except VaultSyncError Unit → StoreState F D → Prop} {s : StoreState F D}
  {lib : PageLib F D B} {id : ℕ} {data : D}

lemma wp_commitTx {op : PageTxOp} {ops : List PageTxOp} :
    wp (machine B) Q (commitTx (op :: ops)) s ↔
      Q (.ok ()) (s.commit (s.memory.manifest.commitTx (op :: ops))) := by
  simp [commitTx]

lemma wp_splitEntries (entries : List (OplogEntry B))
    (h : s.dir.pages.lookup id = some (lib.encodeV3Page data 0))
    (hleft : id ≠ s.memory.manifest.nextPageId)
    (hright : id ≠ s.allocated.memory.manifest.nextPageId) :
    wp (machine B) Q (splitEntries lib id entries) s ↔
      Q (.ok ()) (s.splitInto lib id entries data) := by
  have hfile : (s.halved lib entries).dir.pages.lookup id = some (lib.encodeV3Page data 0) := by
    refine (Finmap.lookup_insert_of_ne _ hright).trans ?_
    exact (Finmap.lookup_insert_of_ne _ hleft).trans h
  simp only [splitEntries, wp_bind, wp_allocatePageId, wp_writePageTx]
  change wp (machine B) _ (tombstonePageTx lib id) (s.halved lib entries) ↔ _
  rw [wp_tombstonePageTx hfile]
  simp only [cons_append, nil_append, wp_commitTx]
  rfl

lemma wp_emergencySplit_read :
    wp (machine B) Q (emergencySplit lib data) s ↔
      wp (machine B) Q
        (match lib.decodeOplog data with
          | none => return ()
          | some entries => splitEntries lib s.memory.manifest.nextPageId entries)
        ((s.allocated.writtenRaw lib s.memory.manifest.nextPageId data).mapCache
          (·.touch s.memory.manifest.nextPageId)) := by
  have hcached : (s.allocated.writtenRaw lib s.memory.manifest.nextPageId
      data).memory.pageCache.entries.lookup s.memory.manifest.nextPageId = some data :=
    PageCache.lookup_insert_self
  simp only [emergencySplit, splitPage, wp_bind, wp_allocatePageId, wp_writePageRaw]
  exact wp_readPage_cached hcached

lemma wp_emergencySplit_of_some {entries : List (OplogEntry B)}
    (h : lib.decodeOplog data = some entries) :
    wp (machine B) Q (emergencySplit lib data) s ↔
      Q (.ok ()) (((s.allocated.writtenRaw lib s.memory.manifest.nextPageId data).mapCache
        (·.touch s.memory.manifest.nextPageId)).splitInto lib s.memory.manifest.nextPageId entries
          data) := by
  set tmp := s.memory.manifest.nextPageId
  set written := (s.allocated.writtenRaw lib tmp data).mapCache (·.touch tmp)
  have hfile : written.dir.pages.lookup tmp = some (lib.encodeV3Page data 0) :=
    Finmap.lookup_insert _
  have hleft : written.memory.manifest.nextPageId = tmp + 1 :=
    StoreManifest.nextPageId_allocatePageId
  have hright : written.allocated.memory.manifest.nextPageId = tmp + 2 :=
    StoreManifest.nextPageId_allocatePageId.trans (congrArg (· + 1) hleft)
  have hne : tmp ≠ written.memory.manifest.nextPageId := by omega
  have hne' : tmp ≠ written.allocated.memory.manifest.nextPageId := by omega
  rw [wp_emergencySplit_read, h]
  exact wp_splitEntries entries hfile hne hne'

end splitting

end PageStore

end VaultSync.Opfs
