import VaultSync.Opfs.OplogRefinement

/-! The documents of `OpfsStorage`: one page for each, found by the content index. -/

namespace VaultSync.Opfs

open Async OplogRefinement PageStore StorageRuntime

variable {F D B : Type}

/-- A page format with the encoding of documents; a page that does not decode as a document is
read as raw bytes. -/
structure DocLib (F D B : Type) extends PageLib F D B where
  encodeDoc : DocEntry B → D
  rawBytes : D → B
  decodeDoc_encodeDoc : ∀ e, decodeDoc (encodeDoc e) = some e

namespace DocLib

variable (lib : DocLib F D B)

def docBytes (data : D) : B :=
  match lib.decodeDoc data with
  | some doc => doc.bytes
  | none => lib.rawBytes data

def docPage (k : Key) (bytes : B) : D := lib.encodeDoc ⟨k.docId, k.recordId, bytes⟩

lemma docBytes_docPage (k : Key) (bytes : B) : lib.docBytes (lib.docPage k bytes) = bytes := by
  simp only [docBytes, docPage, lib.decodeDoc_encodeDoc]

end DocLib

/-! ## The content index -/

def ContentIndex.lookupDocument (ci : ContentIndex) (k : Key) : Option IndexEntry :=
  match ci.entries (.document k) with
  | some entry => some entry
  | none => ci.pageByDocument k

lemma ContentIndex.lookupDocument_insert {ci : ContentIndex} {k : Key} {entry : IndexEntry} :
    (ci.insert (.document k) entry).lookupDocument k = some entry := by
  simp [lookupDocument, ContentIndex.insert]

namespace StoreManifest

def updateContentIndex (m : StoreManifest) (key : IndexKey) (id : ℕ) : StoreManifest :=
  let m := m.incrementGeneration
  let index := m.contentIndex.insert key (m.freshEntry id)
  { m with contentIndex := index, livePages := index.livePages.card }

def removeKey (m : StoreManifest) (key : IndexKey) : StoreManifest :=
  let m := m.incrementGeneration
  let index := m.contentIndex.remove key
  { m with
    contentIndex := index
    tombstonedPages := m.tombstonedPages + 1
    livePages := index.livePages.card }

end StoreManifest

namespace PageStore

def contentIndexLookup (k : Key) : PageFn F D (Option IndexEntry) :=
  .read fun p => p.manifest.contentIndex.lookupDocument k

def updateContentIndex (key : IndexKey) (id : ℕ) : PageFn F D Unit :=
  commitManifest (·.updateContentIndex key id)

def removeFromIndex (key : IndexKey) : PageFn F D Unit := commitManifest (·.removeKey key)

end PageStore

def StorageRuntime.enqueueTombstonePage (lib : PageLib F D B) (store : StoreName) (id : ℕ) :
    TabFn F D B Unit := do
  enqueue (.tombstonePage store id)
  processPending lib

namespace OpfsStorage

section functions

variable (lib : DocLib F D B)

def allocDocData : TabFn F D B ℕ := do
  match ← allocatePageId .docData with
  | some id => do
    onStore .docData (commitAllocatedPageId id)
    return id
  | none => onStore .docData allocatePageId

def writeDocPage (id : ℕ) (data : D) : TabFn F D B Unit := do
  if ← .read fun t => t.runtime.isSome then
    enqueueWritePage lib.toPageLib .docData id data
  else onStore .docData (writePage lib.toPageLib id data)

def tombstoneDocPage (id : ℕ) : TabFn F D B Unit := do
  if ← .read fun t => t.runtime.isSome then
    enqueueTombstonePage lib.toPageLib .docData id
  else onStore .docData (tombstonePage lib.toPageLib id)

variable (k : Key)

def tombstoneExistingDocPages : TabFn F D B ℕ := do
  match ← onStore .docData (contentIndexLookup k) with
  | some entry => do
    tombstoneDocPage lib entry.pageId
    onStore .docData (removeFromIndex (.document k))
    return 1
  | none => return 0

def writeNewDocPage (bytes : B) : TabFn F D B ℕ := do
  let _ ← tombstoneExistingDocPages lib k
  let id ← allocDocData
  writeDocPage lib id (lib.docPage k bytes)
  return id

def insertDocument (bytes : B) : TabFn F D B Unit := do
  let id ← writeNewDocPage lib k bytes
  onStore .docData (updateContentIndex (.document k) id)

def getDocument : TabFn F D B (Option B) := do
  match ← onStore .docData (contentIndexLookup k) with
  | some entry => do
    let data ← onStore .docData (readPage lib.toPageLib entry.pageId)
    return data.map lib.docBytes
  | none => return none

def writeDocumentAndOplog (bytes : B) (entry : OplogEntry B) : TabFn F D B Unit := do
  insertDocument lib k bytes
  appendOplog lib.toPageLib entry

end functions

end OpfsStorage

/-! ## Directly or through the runtime -/

lemma StorageRuntime.wp_routed {σ ε : Type} {M : Machine (TabOps F B) (Tab D) ε σ}
    (hM : M.LawfulMemory) {lib : PageLib F D B} {store : StoreName} {op : StorageOp D}
    {t : PageFn F D Unit} {Q : σ → Prop} {u : σ}
    (hop : (perform lib op : TabFn F D B Unit) = do let _ ← (onStore store t).attempt)
    (hq : ∀ rt, (M.memory u).runtime = some rt → rt.queue = [])
    (h : wp M (fun _ u' => Q u') (onStore store t) u) :
    wp M (fun _ u' => Q u') (do
      if ← .read fun tab => tab.runtime.isSome then (do enqueue op; processPending lib)
      else onStore store t) u := by
  have hread : ∀ t' : Bool → TabFn F D B Unit,
      wp M (fun _ u' => Q u') ((.read fun tab => tab.runtime.isSome) >>= t') u ↔
        wp M (fun _ u' => Q u') (t' (M.memory u).runtime.isSome) u := by
    intro t'
    rw [wp_bind]
    change wp M _ (t' _) (M.setMemory (M.memory u) u) ↔ _
    rw [hM.setMemory_memory]
  rw [hread]
  rcases hrt : (M.memory u).runtime with _ | rt
  · exact h
  · refine (wp_enqueue hM hrt (hq rt hrt) op).2 ?_
    rw [hop, wp_bind, wp_attempt]
    exact h.mono fun _ _ hQ => hQ

lemma OpfsStorage.queueEmpty_runtimeAllocate {s : TabState F D} (hq : QueueEmpty s)
    (store : StoreName) : QueueEmpty (s.runtimeAllocate store).2 := by
  intro rt hrt
  unfold TabState.runtimeAllocate at hrt
  cases hs : s.tab.runtime with
  | none =>
    rw [hs] at hrt
    exact hq rt hrt
  | some rt' =>
    rw [hs] at hrt
    cases hrt
    exact hq rt' hs

/-! ## What a read gives -/

namespace PageStore

variable (lib : DocLib F D B) (k : Key) (s : StoreState F D)

def uncachedData (lib : PageLib F D B) (s : StoreState F D) (id : ℕ) :
    Except VaultSyncError (Option D) :=
  match s.pageFile lib id with
  | .error e => .error e
  | .ok none => .ok none
  | .ok (some (header, data)) =>
    if 1 ≤ header.version ∧ lib.crc32 data ≠ header.checksum then
      .error (.storage
        s!"checksum mismatch page {id}: expected {header.checksum} got {lib.crc32 data}")
    else if header.tombstoned then .ok none
    else .ok (some data)

def documentAt : Except VaultSyncError (Option B) :=
  match s.memory.manifest.contentIndex.lookupDocument k with
  | none => .ok none
  | some entry =>
    match s.memory.pageCache.entries.lookup entry.pageId with
    | some data => .ok (some (lib.docBytes data))
    | none => (uncachedData lib.toPageLib s entry.pageId).map (Option.map lib.docBytes)

variable {lib k s}

lemma wp_readUncached {lib : PageLib F D B} {id : ℕ} {R : Except VaultSyncError (Option D) → Prop} :
    wp (StoreState.machine B) (fun r _ => R r) (readUncached lib id) s ↔
      R (uncachedData lib s id) := by
  simp only [readUncached, wp_bind, wp_readPageFile, uncachedData]
  rcases s.pageFile lib id with e | _ | ⟨header, data⟩
  · rfl
  · rfl
  · dsimp only
    split
    · rfl
    · split
      · rfl
      · rfl

lemma documentAt_congr {s' : StoreState F D} (hm : s'.memory = s.memory) (hd : s'.dir = s.dir) :
    documentAt lib k s' = documentAt lib k s := by
  simp only [documentAt, uncachedData, StoreState.pageFile, hm, hd]

lemma documentAt_of_live {entry : IndexEntry} {data : D}
    (hindex : s.memory.manifest.contentIndex.lookupDocument k = some entry)
    (hcache : s.memory.pageCache.entries.lookup entry.pageId = none)
    (hfile : s.dir.pages.lookup entry.pageId = some (lib.encodeV3Page data 0)) :
    documentAt lib k s = .ok (some (lib.docBytes data)) := by
  have hlive : (lib.v3Header data 0).tombstoned = false := PageLib.v3Header_live
  have hcrc : lib.crc32 data = (lib.v3Header data 0).checksum := rfl
  simp only [documentAt, hindex, hcache, uncachedData, pageFile_of_lookup hfile, hcrc, ne_eq,
    not_true_eq_false, and_false, if_false, hlive, Bool.false_eq_true]
  rfl

end PageStore

namespace OpfsStorage

variable {lib : DocLib F D B} {k : Key} {s : TabState F D}

lemma wp_getDocument {R : Except VaultSyncError (Option B) → Prop} :
    wp (TabState.machine B) (fun r _ => R r) (getDocument lib k) s ↔
      R (documentAt lib k (s.part .docData)) := by
  simp only [getDocument, wp_bind, wp_onStore, contentIndexLookup, wp_read]
  unfold documentAt
  rcases (s.part .docData).memory.manifest.contentIndex.lookupDocument k with _ | entry
  · rfl
  · simp only [wp_bind, wp_onStore, TabState.replace_part]
    rcases hcache : (s.part .docData).memory.pageCache.entries.lookup entry.pageId with _ | data
    · rw [wp_readPage_uncached hcache]
      refine Iff.trans ?_ (wp_readUncached
        (R := fun r => R (r.map (Option.map lib.docBytes))))
      refine iff_of_eq (congrFun (congrFun (congrArg (wp (StoreState.machine B)) ?_) _) _)
      funext r p
      cases r <;> rfl
    · rw [wp_readPage_cached hcache]
      rfl

end OpfsStorage

/-! ## A page format of terms -/

inductive Term (B : Type) where
  | oplog (entries : List (OplogEntry B))
  | doc (entry : DocEntry B)

def Term.oplog? : Term B → Option (List (OplogEntry B))
  | oplog entries => some entries
  | _ => none

def Term.doc? : Term B → Option (DocEntry B)
  | doc entry => some entry
  | _ => none

def terms [Inhabited B] (length : Term B → UInt32) : DocLib (PageHeader × Term B) (Term B) B where
  encode h d := (h, d)
  isEmpty _ := false
  isJson _ := false
  decodePageHeader f := .ok f.1
  extractPageData f := .ok f.2
  decodePage f := .ok f
  crc32 _ := 0
  len d := (length d).toNat
  decodeDoc := Term.doc?
  decodeOplog := Term.oplog?
  decodeEntry _ := none
  encodeOplog := .oplog
  encodeDoc := .doc
  rawBytes _ := default
  len_lt d := (length d).toNat_lt
  isEmpty_encode _ _ := rfl
  isJson_encode _ _ := rfl
  decodePageHeader_encode _ _ _ := rfl
  decodePage_encode _ _ _ := rfl
  extractPageData_encode _ _ _ _ := rfl
  decodeOplog_encodeOplog _ := rfl
  decodeDoc_encodeDoc _ := rfl

def OpfsStorage.sampleKey : Key := ⟨"doc", "record"⟩

end VaultSync.Opfs
