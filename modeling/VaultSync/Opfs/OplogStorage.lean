import VaultSync.Log.Versions
import VaultSync.Opfs.StorageRuntime

/-! The oplog of `OpfsStorage`: one page for each change, and a version chain that reads the pages
back. -/

namespace VaultSync.Opfs

open Async Versions PageStore

variable {F D B : Type} (lib : PageLib F D B)

/-! ## The version chain -/

structure VersionChain where
  baseId : ℕ
  deltaIds : List ℕ
  orphanIds : List ℕ

namespace VersionChain

def ofPages (current : ℕ) (pageIds : List ℕ) : VersionChain :=
  if 0 < current then
    { baseId := current
      deltaIds := pageIds.filter fun id => current < id
      orphanIds := pageIds.filter fun id => id < current }
  else
    { baseId := 0
      deltaIds := pageIds
      orphanIds := [] }

def baseEntries (data : D) : List (OplogEntry B) := (lib.decodeOplog data).getD []

def pageEntries (data : D) : List (OplogEntry B) :=
  match lib.decodeOplog data with
  | some entries => entries
  | none => (lib.decodeEntry data).toList

def resolvePages (entries : D → List (OplogEntry B)) :
    List ℕ → List (OplogEntry B) → PageFn F D (List (OplogEntry B))
  | [], seen => return seen
  | id :: ids, seen => do
    match ← (readPage lib id).attempt with
    | .ok (some data) => resolvePages entries ids (absorb OplogEntry.id seen (entries data))
    | _ => resolvePages entries ids seen

/-- The base, the deltas and then the orphans, each in ascending order; a later version of an
entry replaces an earlier one. The pages come in ascending order already. -/
def resolve (chain : VersionChain) : PageFn F D (List (OplogEntry B)) := do
  let seen ← if 0 < chain.baseId then resolvePages lib (baseEntries lib) [chain.baseId] [] else pure []
  let seen ← resolvePages lib (pageEntries lib) chain.deltaIds seen
  resolvePages lib (pageEntries lib) chain.orphanIds seen

end VersionChain

namespace OpfsStorage

def readAllOplogEntries : TabFn F D B (List (OplogEntry B)) := do
  let current ← onStore .oplog currentPage
  let pageIds ← onStore .oplog listPageIds
  if pageIds.isEmpty then return []
  let seen ← onStore .oplog ((VersionChain.ofPages current pageIds).resolve lib)
  let entries ← .call (.hashOrder seen) .ret
  return entries.1

/-! ## Through the runtime, or on the store itself -/

def allocOplog : TabFn F D B ℕ := do
  match ← StorageRuntime.allocatePageId .oplog with
  | some id => do
    onStore .oplog (commitAllocatedPageId id)
    return id
  | none => onStore .oplog allocatePageId

def writeOplogPage (id : ℕ) (data : D) : TabFn F D B Unit := do
  if ← .read fun t => t.runtime.isSome then StorageRuntime.enqueueWritePage lib .oplog id data
  else onStore .oplog (writePage lib id data)

def adjustOplogPendingCount (delta : Int) : TabFn F D B Unit :=
  onStore .oplog (adjustPendingCount delta)

def scheduleOplogGc : TabFn F D B Unit := onStore .oplog scheduleGc

def runOplogGc : TabFn F D B ℕ := onStore .oplog (runPendingGc lib)

def setOplogCurrentPage (id : ℕ) : TabFn F D B Unit := onStore .oplog (setCurrentPage id)

/-- What is read here is only logged. -/
def verifyOplogWrite (id : ℕ) : TabFn F D B Unit := do
  let _ ← onStore .oplog (readPage lib id)
  let _ ← readAllOplogEntries lib

/-! ## The storage interface -/

def appendOplog (entry : OplogEntry B) : TabFn F D B Unit := do
  let id ← allocOplog
  writeOplogPage lib id (lib.encodeOplog [entry])
  if entry.syncStatus.isUploadable then adjustOplogPendingCount 1
  verifyOplogWrite lib id

def synced (sequence : ℕ) (e : OplogEntry B) : OplogEntry B :=
  { e with syncStatus := .synced, sequence := some sequence }

def failed (e : OplogEntry B) : OplogEntry B := { e with syncStatus := .failed }

def markSynced (id : String) (sequence : ℕ) : TabFn F D B Unit := do
  let entries ← readAllOplogEntries lib
  let updated := (entries.filter fun e => e.id = id).map (synced sequence)
  if updated.isEmpty then return ()
  let page ← allocOplog
  writeOplogPage lib page (lib.encodeOplog updated)
  let _ ← readAllOplogEntries lib
  adjustOplogPendingCount (-1)
  scheduleOplogGc

def markFailed (id : String) : TabFn F D B Unit := do
  let entries ← readAllOplogEntries lib
  let updated := (entries.filter fun e => e.id = id).map failed
  if updated.isEmpty then return ()
  let page ← allocOplog
  writeOplogPage lib page (lib.encodeOplog updated)
  adjustOplogPendingCount (-1)
  scheduleOplogGc

/-- All entries but the removed ones go to a new page, which becomes the current one; the older
pages stay until the next collection. -/
def rewriteOplog (removed : OplogEntry B → Bool) : TabFn F D B ℕ := do
  let entries ← readAllOplogEntries lib
  let remaining := entries.filter fun e => !removed e
  let page ← allocOplog
  writeOplogPage lib page (lib.encodeOplog remaining)
  setOplogCurrentPage page
  scheduleOplogGc
  return entries.length - remaining.length

variable («namespace» : String)

def syncedBefore (cutoff : ℕ) (e : OplogEntry B) : Bool :=
  e.namespace = «namespace» ∧ e.syncStatus = .synced ∧ e.createdAt < cutoff

def deleteSyncedBefore (cutoff : ℕ) : TabFn F D B ℕ := do
  let _ ← runOplogGc lib
  rewriteOplog lib (syncedBefore «namespace» cutoff)

def cutoff (now olderThanSecs : ℕ) : ℕ := now - olderThanSecs * 1000 % 2 ^ 64

def deleteSyncedOplogOlderThan (olderThanSecs : ℕ) : TabFn F D B ℕ := do
  let _ ← runOplogGc lib
  let now ← .call .now .ret
  rewriteOplog lib (syncedBefore «namespace» (cutoff now olderThanSecs))

def syncedOfDocumentBefore (key : Key) (timestamp : ℕ) (e : OplogEntry B) : Bool :=
  e.namespace = «namespace» ∧ e.key = key ∧ e.syncStatus = .synced ∧ e.createdAt < timestamp

def deleteSyncedOplogBeforeTimestamp (key : Key) (timestamp : ℕ) : TabFn F D B ℕ := do
  let _ ← runOplogGc lib
  rewriteOplog lib (syncedOfDocumentBefore «namespace» key timestamp)

end OpfsStorage

end VaultSync.Opfs
