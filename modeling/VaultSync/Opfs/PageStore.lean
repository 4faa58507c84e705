import VaultSync.Opfs.Files

/-! The page store. An error that the source propagates with `?` ends the function. -/

namespace VaultSync.Opfs

open Async

variable {F D B : Type}

namespace PageFn

variable {α : Type}

def ofFile : Except FileError α → PageFn F D α
  | .ok a => .ret a
  | .error e => .fail e.toError

def readManifest : PageFn F D (Option StoreManifest) := .call .readManifest fun f => .ret f.verified

def writeManifest (m : StoreManifest) : PageFn F D Unit := .call (.writeManifest m) ofFile

def readAllBytes (id : ℕ) : PageFn F D (Except FileError F) := .call (.readFile id) .ret

def writeFile (id : ℕ) (f : F) : PageFn F D Unit := .call (.writeFile id f) ofFile

def deleteFile (id : ℕ) : PageFn F D Unit := .call (.removeFile id) ofFile

def entries : PageFn F D (List ℕ) := .call .entries .ret

def updateManifest (f : StoreManifest → StoreManifest) : PageFn F D StoreManifest :=
  .sync (fun p => { p with manifest := f p.manifest }) fun p => .ret (f p.manifest)

def setCache (f : PageCache D → PageCache D) : PageFn F D Unit :=
  .modify fun p => { p with pageCache := f p.pageCache }

end PageFn

namespace PageStore

open PageFn

def softSplitBytes : ℕ := 8000000
def hardSplitBytes : ℕ := 16000000
def maxEntriesPerPage : ℕ := 4096

variable (lib : PageLib F D B) (id : ℕ)

def listPageIds : PageFn F D (List ℕ) :=
  .read fun p => ascending p.manifest.contentIndex.livePages

def commitManifest (f : StoreManifest → StoreManifest) : PageFn F D Unit := do
  writeManifest (← updateManifest f)

def commitAllocatedPageId : PageFn F D Unit :=
  commitManifest (·.commitAllocatedPageId id)

def allocatePageId : PageFn F D ℕ := do
  let (id, m) ← .call .allocatePageId .ret
  writeManifest m
  return id

variable (data : D)

def writePageRaw : PageFn F D Unit := do
  writeFile id (lib.encodeV3Page data 0)
  setCache (·.insert lib.len id data)

def commitPageWrite (key : Option IndexKey) : PageFn F D Unit :=
  commitManifest (·.commitPageWrite id key)

def readPageFile : PageFn F D (Option (PageHeader × D)) := do
  match ← readAllBytes id with
  | .error .notFound => return none
  | .error e => .fail e.toError
  | .ok f => return some (← .ofExcept (lib.readPageFile id f))

def readUncached : PageFn F D (Option D) := do
  match ← readPageFile lib id with
  | none => return none
  | some (header, data) =>
    if 1 ≤ header.version ∧ lib.crc32 data ≠ header.checksum then
      .fail (.storage s!"checksum mismatch page {id}: expected {header.checksum} got {lib.crc32 data}")
    else if header.tombstoned then
      return none
    else do
      setCache (·.insert lib.len id data)
      return some data

def readPage : PageFn F D (Option D) := do
  let cached ← .sync (fun p => { p with pageCache := (p.pageCache.get id).2 })
    fun p => .ret (p.pageCache.get id).1
  match cached with
  | some data => return some data
  | none => readUncached lib id

def tombstoneFile (f : F) : PageFn F D Unit := do
  let data ← .ofExcept (lib.extractPageData f)
  writeFile id (lib.encodeV3Page data 0x02)

def removeFromManifestIndex : PageFn F D Unit :=
  commitManifest (·.removeFromIndex id)

def tombstonePage : PageFn F D Unit := do
  match ← readAllBytes id with
  | .error .notFound => removeFromManifestIndex id
  | .error .notReadable => removeFromManifestIndex id
  | .error e => .fail e.toError
  | .ok f => do
    tombstoneFile lib id f
    setCache (·.remove lib.len id)
    removeFromManifestIndex id

def tombstonePageFileOnly : PageFn F D Unit := do
  setCache (·.remove lib.len id)
  match ← readAllBytes id with
  | .error .notFound => return ()
  | .error .notReadable => return ()
  | .error e => .fail e.toError
  | .ok f => tombstoneFile lib id f

def deletePage : PageFn F D Unit := do
  deleteFile id
  setCache (·.remove lib.len id)
  commitManifest fun m =>
    let m := m.incrementGeneration
    if 0 < m.livePages then { m with livePages := m.livePages - 1 }
    else { m with tombstonedPages := m.tombstonedPages - 1 }

/-! ## Transactions and splits -/

def writePageTx (key : Option IndexKey) (data : D) : PageFn F D (List PageTxOp) := do
  writePageRaw lib id data
  return [.write id key]

def tombstonePageTx : PageFn F D (List PageTxOp) := do
  setCache (·.remove lib.len id)
  match ← readAllBytes id with
  | .error .notFound => return []
  | .error e => .fail e.toError
  | .ok f => do
    tombstoneFile lib id f
    return [.tombstone id]

def commitTx (ops : List PageTxOp) : PageFn F D Unit :=
  if ops.isEmpty then return () else commitManifest (·.commitTx ops)

inductive TxStep (D : Type) where
  | write (id : ℕ) (key : Option IndexKey) (data : D)
  | tombstone (id : ℕ)

def TxStep.prog : TxStep D → PageFn F D (List PageTxOp)
  | write id key data => writePageTx lib id key data
  | tombstone id => tombstonePageTx lib id

def transactionOps : List (TxStep D) → List PageTxOp → PageFn F D (List PageTxOp)
  | [], ops => return ops
  | step :: rest, ops => do
    let recorded ← step.prog lib
    transactionOps rest (ops ++ recorded)

def transaction (steps : List (TxStep D)) : PageFn F D Unit := do
  commitTx (← transactionOps lib steps [])

def splitEntries (entries : List (OplogEntry B)) : PageFn F D Unit := do
  let mid := entries.length / 2
  let left ← allocatePageId
  let right ← allocatePageId
  let written ← writePageTx lib left none (lib.encodeOplog (entries.take mid))
  let written' ← writePageTx lib right none (lib.encodeOplog (entries.drop mid))
  let tombstoned ← tombstonePageTx lib id
  commitTx (written ++ written' ++ tombstoned)

def splitPage : PageFn F D Unit := do
  match ← readPage lib id with
  | none => return ()
  | some data =>
    match lib.decodeOplog data with
    | none => return ()
    | some entries => splitEntries lib id entries

def estimateEntryCount : ℕ :=
  match lib.decodeOplog data with
  | some entries => entries.length
  | none => if lib.len data = 0 then 0 else max 1 (lib.len data / 256)

def Oversized : Prop :=
  hardSplitBytes < lib.len data ∨ maxEntriesPerPage * 2 < estimateEntryCount lib data

instance (data : D) : Decidable (Oversized lib data) := inferInstanceAs (Decidable (_ ∨ _))

def emergencySplit : PageFn F D Unit := do
  let tmp ← allocatePageId
  writePageRaw lib tmp data
  splitPage lib tmp

def writeInPlace : PageFn F D Unit := do
  if softSplitBytes < lib.len data ∨ maxEntriesPerPage < estimateEntryCount lib data then
    .modify fun p => { p with splitPending := true }
  writePageRaw lib id data
  commitPageWrite id none

def writePage : PageFn F D Unit :=
  if Oversized lib data then emergencySplit lib data else writeInPlace lib id data

/-- The page is written under another name, read back and renamed. -/
def writePageVerify [DecidableEq D] (id : ℕ) (data : D) : PageFn F D Unit := do
  let tmp := (id + 2 ^ 63) % 2 ^ 64
  writeFile tmp (lib.encodeV3Page data 0)
  match ← readPageFile lib tmp with
  | none => .fail (.storage "verify read failed")
  | some (_, readData) =>
    if readData ≠ data then
      let _ ← (deleteFile tmp).attempt
      .fail (.storage "verify mismatch on write")
    else
      match ← readAllBytes tmp with
      | .error e => .fail e.toError
      | .ok f => do
        writeFile id f
        deleteFile tmp
        commitPageWrite id none

/-! ## The manifest -/

/-- The manifest with the pending count of the memory, on disk and in memory. -/
def persistManifest (m : StoreManifest) : PageFn F D Unit := do
  let m ← .read fun p => { m with pendingCount := p.cachedPendingCount }
  writeManifest m
  .modify fun p => { p with manifest := m }

def setCurrentPage : PageFn F D Unit := do
  let m ← .read fun p => { p.manifest with currentPage := id }
  persistManifest m

def currentPage : PageFn F D ℕ := do
  return ((← readManifest).map StoreManifest.currentPage).getD 0

def allocateAndRotate : PageFn F D (ℕ × ℕ) := do
  let (pages, m) ← .call .allocateAndRotate .ret
  persistManifest m
  return pages

def scheduleGc : PageFn F D Unit := .modify fun p => { p with gcNeeded := true }

def adjustPendingCount (delta : Int) : PageFn F D Unit :=
  .modify fun p => { p with cachedPendingCount := (p.cachedPendingCount + delta).toNat }

def indexPage (index : ContentIndex) (id : ℕ) (header : PageHeader) (data : D) : ContentIndex :=
  if header.tombstoned then
    { index with tombstonedPages := insert id index.tombstonedPages }
  else
    let index := { index with livePages := insert id index.livePages }
    let entry : IndexEntry :=
      { pageId := id
        storageGen := 0
        checksum := header.checksum
        size := lib.len data
        version := 1
        dirty := false }
    match lib.decodeDoc data with
    | some doc => index.insert (.document doc.key) entry
    | none =>
      { index with
        entries := Function.update index.entries (.sequence id) (some entry)
        pageById := index.pageById.insert id (.sequence id) }

/-- The scan of the directory. A page that cannot be read is skipped, but its id counts. -/
def scanPages : List ℕ → ℕ → ContentIndex → PageFn F D (ℕ × ContentIndex)
  | [], highest, index => return (highest, index)
  | id :: rest, highest, index => do
    match ← (readPageFile lib id).attempt with
    | .ok (some (header, data)) =>
      scanPages rest (max highest id) (indexPage lib index id header data)
    | _ => scanPages rest (max highest id) index

/-- `highest_page_id` is the largest id found, not the one after it; there is no current page. -/
def rebuildManifestWithIndex : PageFn F D StoreManifest := do
  let (highest, index) ← scanPages lib (← entries) 0 .new
  return {
    generation := 0
    highestPageId := highest
    currentPage := 0
    lastSequence := 0
    pendingCount := 0
    livePages := index.livePages.card
    tombstonedPages := index.tombstonedPages.card
    contentIndex := index }

/-- `PageStore::open`: a valid manifest is taken as it is, else it is rebuilt. -/
def openManifest : PageFn F D StoreManifest := do
  match ← readManifest with
  | some m => return m
  | none => do
    let rebuilt ← rebuildManifestWithIndex lib
    writeManifest rebuilt
    return rebuilt

def opened (m : StoreManifest) : PageStore D where
  manifest := m
  pageCache := .new 500 (20 * 1024 * 1024)
  gcNeeded := false
  splitPending := false
  cachedPendingCount := m.pendingCount

def openStore : PageFn F D Unit := do
  let m ← openManifest lib
  .modify fun _ => opened m

/-! ## Removing page files -/

def readPageHeader : PageFn F D (Option PageHeader) := do
  match ← readAllBytes id with
  | .error .notFound => return none
  | .error e => .fail e.toError
  | .ok f => return some (← .ofExcept (lib.readPageHeader id f))

def staleCheckpoint : PageFn F D Bool :=
  if id = 0 then do
    match ← readAllBytes id with
    | .ok f => return lib.isJson f
    | .error _ => return false
  else return false

def namesEmptyPage (e : VaultSyncError) : Bool := decide ("empty page".toList <:+: e.display.toList)

def removable : PageFn F D Bool := do
  if ← staleCheckpoint lib id then return true
  match ← (readPageHeader lib id).attempt with
  | .ok (some header) => return header.tombstoned
  | .ok none => return false
  | .error e => if namesEmptyPage e then return true else .fail e

def removePages : List ℕ → ℕ → PageFn F D ℕ
  | [], cleaned => return cleaned
  | id :: rest, cleaned => do
    if ← removable lib id then
      deleteFile id
      removePages rest (cleaned + 1)
    else removePages rest cleaned

def cleanupTombstonedPages : PageFn F D ℕ := do
  let cleaned ← removePages lib (← entries) 0
  if 0 < cleaned then
    persistManifest (← rebuildManifestWithIndex lib)
  return cleaned

def removePagesBelow (current : ℕ) : List ℕ → ℕ → PageFn F D ℕ
  | [], deleted => return deleted
  | id :: rest, deleted => do
    if id < current then
      match ← (.call (.removeFile id) .ret : PageFn F D (Except FileError Unit)) with
      | .ok () => removePagesBelow current rest (deleted + 1)
      | .error .notFound => removePagesBelow current rest (deleted + 1)
      | .error e => .fail e.toError
    else removePagesBelow current rest deleted

def collect (current : ℕ) : PageFn F D ℕ := do
  let deleted ← removePagesBelow current (← entries) 0
  if 0 < deleted then
    let rebuilt ← rebuildManifestWithIndex lib
    persistManifest { rebuilt with currentPage := current }
  .modify fun p => { p with gcNeeded := false }
  return deleted

def runPendingGc : PageFn F D ℕ := do
  if !(← .read PageStore.gcNeeded) then return 0
  match ← readManifest with
  | some m => if 0 < m.currentPage then collect lib m.currentPage else return 0
  | none => return 0

end PageStore

end VaultSync.Opfs
