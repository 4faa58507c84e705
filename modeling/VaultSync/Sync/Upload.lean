import VaultSync.Sync.Download

/-! The upload queue and its retry engine. -/

namespace VaultSync

open Async AsyncFn

variable {B : Type}

namespace RetryEngine

def isExhausted (cfg : Config) (c : Client B) (id : String) : Bool :=
  cfg.maxAttempts ≤ c.attempts id

def canRetry (cfg : Config) (c : Client B) (now : String → ℕ) (id : String) : Bool :=
  !isExhausted cfg c id &&
    match c.nextRetry id with
    | some time => time ≤ now id
    | none => true

def recordFailure (cfg : Config) (c : Client B) (retryAt : ℕ) (id : String) : Client B :=
  let attempts := c.attempts id + 1
  { c with
    attempts := Function.update c.attempts id attempts
    nextRetry := Function.update c.nextRetry id
      (if cfg.maxAttempts ≤ attempts then none else some retryAt) }

def recordSuccess (c : Client B) (id : String) : Client B :=
  { c with
    attempts := Function.update c.attempts id 0
    nextRetry := Function.update c.nextRetry id none }

def recordFailures (cfg : Config) (retryAt : String → ℕ) :
    List String → Client B → List (String × ℕ) × Client B
  | [], c => ([], c)
  | id :: ids, c =>
    let c := recordFailure cfg c (retryAt id) id
    let (exhausted, c') := recordFailures cfg retryAt ids c
    (if isExhausted cfg c id then (id, c.attempts id) :: exhausted else exhausted, c')

end RetryEngine

namespace UploadQueue

def toMutation (L : Lib B) (e : OplogEntry B) : EncryptedMutation B where
  id := e.id
  «namespace» := e.namespace
  replicaId := e.replicaId
  docId := e.docId
  recordId := e.recordId
  encryptedBlob := e.encryptedBlob.getD L.empty
  timestamp := e.timestamp
  schemaVersion := 0
  keyVersion :=
    match e.encryptedBlob with
    | some blob => if 8 ≤ L.len blob then L.leU64 blob else 1
    | none => 1

def markEach : List (OplogEntry B × ℕ) → AsyncFn B Unit
  | [] => pure ()
  | (e, seq) :: rest => do
    markSynced e.id seq
    markEach rest

/-- Marking inside a transaction; at its first error all are marked one by one. -/
def markInTransaction (all : List (OplogEntry B × ℕ)) : List (OplogEntry B × ℕ) → AsyncFn B Unit
  | [] => pure ()
  | (e, seq) :: rest => do
    match ← txMarkSynced e.id seq with
    | .ok () => markInTransaction all rest
    | .error _ => markEach all

variable (all : List (OplogEntry B × ℕ))

def commitOrMarkEach : AsyncFn B Unit := do
  match ← txCommit with
  | .ok () => pure ()
  | .error _ => markEach all

def markAcked : AsyncFn B Unit := do
  match ← beginTransaction with
  | .ok () =>
    markInTransaction all all
    commitOrMarkEach all
  | .error _ => markEach all

def advanceCursor (cfg : Config) (sequences : List ℕ) : AsyncFn B Unit :=
  match cfg.uploadMovesCursor, sequences.max? with
  | true, some maxSeq => do
    let cursorBefore ← storeCursor
    if cursorBefore.toOption.getD 0 < maxSeq then
      setCursor maxSeq "upload::mark_done"
  | _, _ => pure ()

def markFailedEach (msg : ℕ → String) : List (String × ℕ) → AsyncFn B Unit
  | [] => pure ()
  | (id, count) :: rest => do
    markFailed id (msg count)
    markFailedEach msg rest

def pushFailed (cfg : Config) (entries : List (OplogEntry B)) (msg : ℕ → String) :
    AsyncFn B Unit := do
  let retryAt ← instants
  let exhausted ← update (RetryEngine.recordFailures cfg retryAt (entries.map OplogEntry.id))
  markFailedEach msg exhausted

def pushAcked (cfg : Config) (entries : List (OplogEntry B)) (sequences : List ℕ) :
    AsyncFn B ℕ := do
  markAcked (entries.zip sequences)
  advanceCursor cfg sequences
  modify fun c => entries.foldl (fun c e => RetryEngine.recordSuccess c e.id) c
  return entries.length

def pushEntries (L : Lib B) (cfg : Config) (entries : List (OplogEntry B)) : AsyncFn B ℕ := do
  match ← push cfg.namespace (entries.map (toMutation L)) with
  | .ok sequences => pushAcked cfg entries sequences
  | .error .notAvailable =>
    pushFailed cfg entries fun count =>
      s!"Coordinator not available ({count} retries exhausted)"
    return 0
  | .error e =>
    let msg := s!"upload failed: {e.debug}"
    pushFailed cfg entries fun _ => msg
    Prog.fail (.coordinator msg)

def processBatch (L : Lib B) (cfg : Config) : AsyncFn B ℕ := do
  if (← read (·.online)) = some false then
    return 0
  let raw ← readPendingOplog cfg.namespace cfg.uploadBatchSize
  if raw.isEmpty then
    return 0
  let now ← instants
  let entries ← read fun c => raw.filter fun e => RetryEngine.canRetry cfg c now e.id
  if entries.isEmpty then
    return 0
  pushEntries L cfg entries

end UploadQueue

end VaultSync
