import Mathlib.Data.List.Sort
import VaultSync.E2ee.Keyring
import VaultSync.Sync.Reconciler

/-! The download queue: pulled batches, pushed mutations and snapshots. -/

namespace VaultSync

open Async AsyncFn

variable {B : Type}

def CoordinatorError.debug : CoordinatorError → String
  | .notAvailable => "NotAvailable"
  | .authFailed => "AuthFailed"
  | .schemaMismatch => "SchemaMismatch"
  | .timeout => "Timeout"
  | .notSupported msg => s!"NotSupported({msg.quote})"
  | .internal msg => s!"Internal({msg.quote})"

inductive PushOutcome where
  | contiguous
  | gapDetected
  | stale
  deriving DecidableEq, Repr

def Client.setReplayMode (c : Client B) (active : Bool) : Client B :=
  { c with
    replayMode := active
    fireSuppressed := active
    replayChangedDocs := if active then c.replayChangedDocs else [] }

namespace DownloadQueue

/-- An update with an empty state vector is taken for a tombstone. -/
def remoteMutationType (L : Lib B) (decrypted : B) : MutationType :=
  match L.decodeV1 decrypted with
  | .ok u => if u.stateVector = 0 then .crdtDelete else .crdtUpdate
  | .error _ => .crdtUpdate

def remoteEntry (L : Lib B) (m : PendingMutation B) (decrypted : B) (origin : MutationOrigin) :
    OplogEntry B where
  id := m.id
  replicaId := ""
  «namespace» := m.namespace
  mutationType := remoteMutationType L decrypted
  docId := m.docId
  recordId := m.recordId
  yrsUpdate := decrypted
  encryptedBlob := some m.encryptedBlob
  timestamp := m.timestamp
  sequence := some m.sequence
  syncStatus := .synced
  syncedAt := none
  createdAt := m.timestamp
  schemaVersion := 0
  origin := origin
  originContext := ""

def snapshotEntry (cfg : Config) (s : Snapshot B) : OplogEntry B where
  id := s!"snap-{s.sequence}"
  replicaId := ""
  «namespace» := cfg.namespace
  mutationType := .crdtUpdate
  docId := s.docId
  recordId := s.recordId
  yrsUpdate := s.bytes
  encryptedBlob := none
  timestamp := s.createdAt
  sequence := some s.sequence
  syncStatus := .synced
  syncedAt := none
  createdAt := s.createdAt
  schemaVersion := 0
  origin := .snapshot
  originContext := ""

/-- The generation is only compared for a log line. -/
def checkGeneration (cfg : Config) : AsyncFn B Unit := do
  let serverGen ← generationId
  if serverGen = "" then
    return ()
  let _ ← readSyncState cfg.namespace

/-! ## Snapshots -/

def keepLatest (latest : List (Snapshot B)) (s : Snapshot B) : List (Snapshot B) :=
  match latest.find? fun t => t.key = s.key with
  | some existing =>
    if existing.sequence < s.sequence then latest.map fun t => if t.key = s.key then s else t
    else latest
  | none => latest ++ [s]

def latestSnapshots (applicable : List (Snapshot B)) : List (Snapshot B) :=
  applicable.foldl keepLatest []

def inSequenceOrder (latest : List (Snapshot B)) (keys : List Key) : List (Snapshot B) :=
  (keys.filterMap fun k => latest.find? fun s => s.key = k).insertionSort
    fun a b => a.sequence ≤ b.sequence

variable [DecidableEq B] (L : Lib B) (cfg : Config)

def flushReplayNotifications : AsyncFn B Unit := do
  let changed ← read (·.replayChangedDocs)
  let keys ← hashOrder changed
  keys.forM (fireDoc L)
  modify fun c => { c with replayChangedDocs := [] }

def applySnapshots : List (Snapshot B) → AsyncFn B Unit
  | [] => pure ()
  | s :: ss => do
    applyRemoteUpdate L (snapshotEntry cfg s)
    applySnapshots ss

def restoreSnapshots (latest : List (Snapshot B)) : AsyncFn B Bool := do
  let keys ← hashOrder (latest.map Snapshot.key)
  let toApply := inSequenceOrder latest keys
  let maxSeq := (toApply.getLast?.map Snapshot.sequence).getD 0
  applySnapshots L cfg toApply
  setCursor maxSeq "download::snapshot"
  let _ ← swapLastSequence maxSeq
  return true

def tryFetchSnapshot : AsyncFn B Bool := do
  let after ← loadLastSequence
  if cfg.snapshotThreshold = 0 then
    return false
  match ← listSnapshots cfg.namespace with
  | .error _ => return false
  | .ok snapshots =>
    let applicable := snapshots.filter fun s => after < s.sequence
    if applicable.isEmpty then
      return false
    restoreSnapshots L cfg (latestSnapshots applicable)

/-! ## Pulled batches -/

def pulledEntries :
    List (PendingMutation B) → Except VaultSyncError (List (OplogEntry B))
  | [] => .ok []
  | m :: ms =>
    if m.replicaId = cfg.replicaId then pulledEntries ms
    else do
      let decrypted ← decryptSymmetric L m.encryptedBlob cfg.namespace
      let entries ← pulledEntries ms
      return remoteEntry L m decrypted .remotePull :: entries

def mergePulled (entries : List (OplogEntry B)) : AsyncFn B Unit :=
  if entries.isEmpty then pure () else applyBatch L entries

def endReplay : AsyncFn B Unit := do
  if ← read (·.replayMode) then
    modify (·.setReplayMode false)
    flushReplayNotifications L

def advanceCursor (mutations : List (PendingMutation B)) : AsyncFn B Unit :=
  match mutations.getLast? with
  | some last => do
    setCursor last.sequence "download::process_batch"
    let _ ← swapLastSequence last.sequence
  | none => pure ()

def snapshotCatchUp : AsyncFn B Unit :=
  if 0 < cfg.snapshotThreshold then do
    let _ ← (tryFetchSnapshot L cfg).attempt
  else pure ()

/-- The page is pulled after the cursor as it was before the
snapshots. -/
def processBatch : AsyncFn B ℕ := do
  checkGeneration cfg
  let after ← loadLastSequence
  snapshotCatchUp L cfg
  match ← pull cfg.namespace after cfg.downloadBatchSize with
  | .ok mutations =>
    let entries ← Prog.ofExcept (pulledEntries L cfg mutations)
    mergePulled L entries
    endReplay L
    advanceCursor mutations
    return mutations.length
  | .error .notAvailable => return 0
  | .error e => Prog.fail (.coordinator s!"download failed: {e.debug}")

/-! ## Pushed mutations -/

variable (m : PendingMutation B)

def pushOwn : AsyncFn B PushOutcome := do
  let cursorBefore ← loadLastSequence
  if cursorBefore < m.sequence then
    setCursor m.sequence "download::push_self_replica"
    let _ ← swapLastSequence m.sequence
    return .contiguous
  return .contiguous

def noteReplayed (k : Key) : AsyncFn B Unit :=
  modify fun c =>
    if c.replayMode then { c with replayChangedDocs := c.replayChangedDocs.insert k } else c

def pushForeign (decrypted : B) (cursorBefore : ℕ) : AsyncFn B PushOutcome := do
  applyRemoteUpdate L (remoteEntry L m decrypted .pushMutation)
  noteReplayed m.key
  setCursor m.sequence "download::push_apply"
  let _ ← swapLastSequence m.sequence
  modify fun c => { c with staleSkipCount := 0 }
  return if m.sequence = (cursorBefore + 1) % 2 ^ 64 then .contiguous else .gapDetected

def processPushMutation : AsyncFn B PushOutcome :=
  if m.replicaId = cfg.replicaId then pushOwn m
  else do
    let decrypted ← Prog.ofExcept (decryptSymmetric L m.encryptedBlob cfg.namespace)
    let cursorBefore ← loadLastSequence
    if m.sequence ≤ cursorBefore then
      modify fun c => { c with staleSkipCount := (c.staleSkipCount + 1) % 2 ^ 32 }
      return .stale
    pushForeign L m decrypted cursorBefore

end DownloadQueue

end VaultSync
