import VaultSync.Async.Sequential
import VaultSync.Coordinator.Memory
import VaultSync.Crdt.Document
import VaultSync.Storage.Memory

/-! One client with its storage, its cursor store and a coordinator: the calls its code awaits,
and the machine that answers them. -/

namespace VaultSync

open Async

structure Config where
  «namespace» : String
  replicaId : String
  uploadBatchSize : ℕ
  downloadBatchSize : ℕ
  snapshotThreshold : ℕ
  maxAttempts : ℕ
  maxDocumentSize : ℕ
  keyVersion : ℕ
  /-- The version of each collection's registered schema. -/
  schemaVersion : String → Option ℕ
  /-- Whether the upload queue was given the cursor store. -/
  uploadMovesCursor : Bool
  /-- `CoordinatorMode::Offline`. -/
  offline : Bool

structure DedupCache where
  seen : Finset String
  queue : List String

def dedupCacheSize : ℕ := 10000

def DedupCache.mark (c : DedupCache) (id : String) : DedupCache :=
  let seen := insert id c.seen
  let queue := c.queue ++ [id]
  if dedupCacheSize < queue.length then
    match queue with
    | oldest :: rest => ⟨seen.erase oldest, rest⟩
    | [] => ⟨seen, queue⟩
  else ⟨seen, queue⟩

variable {c : DedupCache} {x : String}

lemma DedupCache.mem_seen_mark {id : String} (h : x ∈ (c.mark id).seen) : x = id ∨ x ∈ c.seen := by
  unfold mark at h
  dsimp only at h
  split_ifs at h
  · split at h
    · exact Finset.mem_insert.1 (Finset.mem_of_mem_erase h)
    · exact Finset.mem_insert.1 h
  · exact Finset.mem_insert.1 h

lemma DedupCache.mem_seen_foldl_mark {ids : List String}
    (h : x ∈ (ids.foldl mark c).seen) : x ∈ ids ∨ x ∈ c.seen := by
  induction ids generalizing c with
  | nil => exact .inr h
  | cons id ids ih =>
    rcases ih h with hx | hx
    · exact .inl (List.mem_cons_of_mem _ hx)
    · rcases mem_seen_mark hx with rfl | hx
      · exact .inl List.mem_cons_self
      · exact .inr hx

inductive FireSource where
  | localWrite
  | reconcilerPush
  | reconcilerPull
  | reconcilerSnapshot
  deriving DecidableEq, Repr

abbrev Notification := FireSource × Key × CrdtState

/-- The memory of the client process. `batches` logs what `apply_batch` was called with. -/
structure Client (B : Type) where
  dedup : DedupCache
  fireSuppressed : Bool
  fired : List Notification
  batches : List (List (OplogEntry B))
  replayMode : Bool
  replayChangedDocs : List Key
  staleSkipCount : ℕ
  attempts : String → ℕ
  nextRetry : String → Option ℕ
  online : Option Bool
  initialized : Bool
  /-- The wall part of the hybrid logical clock. -/
  hlcWall : ℕ

/-- The calls a client awaits: the storage, the coordinator and the cursor store behind their
traits, the download cursor, and what it draws from the platform. -/
inductive Call (B : Type) where
  | getDocument (k : Key)
  | insertDocument (k : Key) (bytes : B)
  | writeDocumentAndOplog (k : Key) (bytes : B) (entry : OplogEntry B)
  | writeBatchReconciliation (docs : List (Key × B))
  | readPendingOplog (ns : String) (limit : ℕ)
  | beginTransaction
  | txMarkSynced (id : String) (sequence : ℕ)
  | txCommit
  | markSynced (id : String) (sequence : ℕ)
  | markFailed (id : String) (msg : String)
  | readSyncState (ns : String)
  | writeSyncState (st : SyncState)
  | listActiveDocuments (ns : String)
  | readSyncedOplogForDocument (ns : String) (k : Key)
  | deleteSyncedOplogBeforeTimestamp (ns : String) (k : Key) (timestamp : ℕ)
  | deleteSyncedOplogOlderThan (ns : String) (olderThanSecs : ℕ)
  | listTombstonedDocuments (ns : String) (olderThanSecs : ℕ)
  | deleteDocument (k : Key)
  | push (ns : String) (ms : List (EncryptedMutation B))
  | pull (ns : String) (after limit : ℕ)
  | listSnapshots (ns : String)
  | storeSnapshot (ns : String) (s : Snapshot B)
  | register (ns : String) (lastSequence : ℕ)
  | subscribe (ns : String) (fromSequence : ℕ)
  | disconnect
  | generationId
  | historyPreserved
  | maxSequence
  | storeCursor
  | setCursor (seq : ℕ) (caller : String)
  | loadLastSequence
  | swapLastSequence (seq : ℕ)
  | newClientId
  | newUuid
  | nonce
  | now
  | instants
  | hashOrder (keys : List Key)
  | fieldOrder (fields : List (String × CrdtValue))

namespace Call

variable {B : Type}

abbrev Order {α : Type} (l : List α) := { l' : List α // l'.Perm l }

def Ans : Call B → Type
  | getDocument _ => Except VaultSyncError (Option B)
  | insertDocument _ _ => Except VaultSyncError Unit
  | writeDocumentAndOplog _ _ _ => Except VaultSyncError Unit
  | writeBatchReconciliation _ => Except VaultSyncError Unit
  | readPendingOplog _ _ => Except VaultSyncError (List (OplogEntry B))
  | beginTransaction => Except VaultSyncError Unit
  | txMarkSynced _ _ => Except VaultSyncError Unit
  | txCommit => Except VaultSyncError Unit
  | markSynced _ _ => Except VaultSyncError Unit
  | markFailed _ _ => Except VaultSyncError Unit
  | readSyncState _ => Except VaultSyncError (Option SyncState)
  | writeSyncState _ => Except VaultSyncError Unit
  | listActiveDocuments _ => Except VaultSyncError (List Key)
  | readSyncedOplogForDocument _ _ => Except VaultSyncError (List (OplogEntry B))
  | deleteSyncedOplogBeforeTimestamp _ _ _ => Except VaultSyncError ℕ
  | deleteSyncedOplogOlderThan _ _ => Except VaultSyncError ℕ
  | listTombstonedDocuments _ _ => Except VaultSyncError (List Key)
  | deleteDocument _ => Except VaultSyncError Unit
  | push _ _ => Except CoordinatorError (List ℕ)
  | pull _ _ _ => Except CoordinatorError (List (PendingMutation B))
  | listSnapshots _ => Except CoordinatorError (List (Snapshot B))
  | storeSnapshot _ _ => Except CoordinatorError Unit
  | register _ _ => Except CoordinatorError Unit
  | subscribe _ _ => Except CoordinatorError Unit
  | disconnect => Except CoordinatorError Unit
  | generationId => String
  | historyPreserved => Bool
  | maxSequence => ℕ
  | storeCursor => Except VaultSyncError ℕ
  | setCursor _ _ => Except VaultSyncError Unit
  | loadLastSequence => ℕ
  | swapLastSequence _ => ℕ
  | newClientId => ClientId
  | newUuid => String
  | nonce => Nonce
  | now => ℕ
  | instants => String → ℕ
  | hashOrder keys => Order keys
  | fieldOrder fields => Order fields

end Call

abbrev Calls (B : Type) : Signature := ⟨Call B, Call.Ans⟩

abbrev AsyncFn (B : Type) := Prog (Calls B) (Client B) VaultSyncError

/-! ## The machine -/

variable {B : Type}

/-- A coordinator as the client sees it. `maxSequence` is what it reports of its state. -/
structure Service (B : Type) where
  log : InMemoryCoordinator B
  generationId : String
  historyPreserved : Bool
  maxSequence : InMemoryCoordinator B → ℕ

/-- `reads n k` is what call number `n` last read of document `k`. -/
structure World (B : Type) where
  client : Client B
  lastSequence : ℕ
  storage : InMemoryStorage B
  storeCursor : ℕ
  service : Service B
  reads : ℕ → Key → Option B

/-- The environment's choices for one call: whether the storage, the coordinator or the cursor
store reports an error (`happened` when the coordinator had acted by then), the random draws,
the clock, and the order of hash maps. -/
structure Env (B : Type) where
  storageFault : Option VaultSyncError
  coordinatorFault : Option CoordinatorError
  happened : Bool
  cursorFault : Option VaultSyncError
  clientId : ClientId
  uuid : String
  nonce : Nonce
  now : ℕ
  instants : String → ℕ
  keyOrder : (keys : List Key) → Call.Order keys
  fieldOrder : (fields : List (String × CrdtValue)) → Call.Order fields
  snapshotOrder : (l : List (Snapshot B)) → Call.Order l

instance : Inhabited (Env B) :=
  ⟨{ storageFault := none
     coordinatorFault := none
     happened := false
     cursorFault := none
     clientId := 0
     uuid := ""
     nonce := 0
     now := 0
     instants := fun _ => 0
     keyOrder := fun keys => ⟨keys, .refl _⟩
     fieldOrder := fun fields => ⟨fields, .refl _⟩
     snapshotOrder := fun l => ⟨l, .refl _⟩ }⟩

namespace World

variable (w : World B)

@[simps]
def setClient (c : Client B) : World B := { w with client := c }

@[simps]
def setStorage (st : InMemoryStorage B) : World B := { w with storage := st }

@[simps]
def setLog (log : InMemoryCoordinator B) : World B :=
  { w with service := { w.service with log := log } }

@[simps]
def setStoreCursor (seq : ℕ) : World B := { w with storeCursor := seq }

@[simps]
def setLastSequence (seq : ℕ) : World B := { w with lastSequence := seq }

@[simps]
def setReads (r : ℕ → Key → Option B) : World B := { w with reads := r }

@[simp] lemma setClient_self : w.setClient w.client = w := rfl

def onStorage {α : Type} (e : Env B) (w : World B) (a : α) (st : InMemoryStorage B) :
    Except VaultSyncError α × World B :=
  match e.storageFault with
  | some err => (.error err, w)
  | none => (.ok a, w.setStorage st)

def onCoordinator {α : Type} (e : Env B) (w : World B) (a : α) (log : InMemoryCoordinator B) :
    Except CoordinatorError α × World B :=
  match e.coordinatorFault with
  | some err => (.error err, if e.happened then w.setLog log else w)
  | none => (.ok a, w.setLog log)

def onCursor {α : Type} (e : Env B) (w : World B) (a : α) (seq : ℕ) :
    Except VaultSyncError α × World B :=
  match e.cursorFault with
  | some err => (.error err, w)
  | none => (.ok a, w.setStoreCursor seq)

def recordRead (n : ℕ) (k : Key) (w : World B) : World B :=
  w.setReads (Function.update w.reads n (Function.update (w.reads n) k (w.storage.documents k)))

lemma recordRead_reads_of_ne {n n' : ℕ} (h : n' ≠ n) (k : Key) (w : World B) :
    (w.recordRead n k).reads n' = w.reads n' := Function.update_of_ne h _ _

@[simp] lemma recordRead_reads_self (n : ℕ) (k : Key) (w : World B) :
    (w.recordRead n k).reads n k = w.storage.documents k := by
  simp [recordRead]

def handle (n : ℕ) : (op : Call B) → Env B → World B → op.Ans × World B
  | .getDocument k, e, w =>
    match e.storageFault with
    | some err => (.error err, w)
    | none => (.ok (w.storage.documents k), w.recordRead n k)
  | .insertDocument k b, e, w => onStorage e w () (w.storage.insertDocument k b)
  | .writeDocumentAndOplog k b entry, e, w =>
    onStorage e w () (w.storage.writeDocumentAndOplog k b entry)
  | .writeBatchReconciliation docs, e, w =>
    onStorage e w () (w.storage.writeBatchReconciliation docs)
  | .readPendingOplog ns limit, e, w =>
    onStorage e w (w.storage.readPendingOplog ns limit) w.storage
  -- the in-memory storage has no transactions
  | .beginTransaction, _, w => (.error (.storage "transactions not supported"), w)
  | .txMarkSynced _ _, _, w => (.error (.storage "transactions not supported"), w)
  | .txCommit, _, w => (.error (.storage "transactions not supported"), w)
  | .markSynced id seq, e, w => onStorage e w () (w.storage.markSynced id seq e.now)
  | .markFailed id _, e, w => onStorage e w () (w.storage.markFailed id)
  | .readSyncState ns, e, w => onStorage e w (w.storage.syncStates ns) w.storage
  | .writeSyncState st, e, w => onStorage e w () (w.storage.writeSyncState st)
  | .listActiveDocuments ns, e, w =>
    onStorage e w (e.keyOrder (w.storage.listActiveDocuments ns)).1 w.storage
  | .readSyncedOplogForDocument ns k, e, w =>
    onStorage e w (w.storage.readSyncedOplogForDocument ns k) w.storage
  | .deleteSyncedOplogBeforeTimestamp ns k t, e, w =>
    let st := w.storage.deleteSyncedOplogBeforeTimestamp ns k t
    onStorage e w (w.storage.oplog.length - st.oplog.length) st
  | .deleteSyncedOplogOlderThan ns secs, e, w =>
    let st := w.storage.deleteSyncedOplogOlderThan ns secs (e.now / 1000)
    onStorage e w (w.storage.oplog.length - st.oplog.length) st
  | .listTombstonedDocuments ns secs, e, w =>
    onStorage e w (e.keyOrder (w.storage.listTombstonedDocuments ns secs e.now)).1 w.storage
  | .deleteDocument k, e, w => onStorage e w () (w.storage.deleteDocument k)
  | .push ns ms, e, w =>
    onCoordinator e w (w.service.log.push ns ms).1 (w.service.log.push ns ms).2
  | .pull ns after limit, e, w =>
    onCoordinator e w (w.service.log.pull ns after limit) w.service.log
  | .listSnapshots ns, e, w =>
    onCoordinator e w (e.snapshotOrder (w.service.log.listSnapshots ns)).1 w.service.log
  | .storeSnapshot ns s, e, w => onCoordinator e w () (w.service.log.storeSnapshot ns s)
  | .register _ _, e, w => onCoordinator e w () w.service.log
  | .subscribe _ _, e, w => onCoordinator e w () w.service.log
  | .disconnect, e, w => onCoordinator e w () w.service.log
  | .generationId, _, w => (w.service.generationId, w)
  | .historyPreserved, _, w => (w.service.historyPreserved, w)
  | .maxSequence, _, w => (w.service.maxSequence w.service.log, w)
  | .storeCursor, e, w => onCursor e w w.storeCursor w.storeCursor
  | .setCursor seq _, e, w => onCursor e w () seq
  | .loadLastSequence, _, w => (w.lastSequence, w)
  | .swapLastSequence seq, _, w => (w.lastSequence, w.setLastSequence seq)
  | .newClientId, e, w => (e.clientId, w)
  | .newUuid, e, w => (e.uuid, w)
  | .nonce, e, w => (e.nonce, w)
  | .now, e, w => (e.now, w)
  | .instants, e, w => (e.instants, w)
  | .hashOrder keys, e, w => (e.keyOrder keys, w)
  | .fieldOrder fields, e, w => (e.fieldOrder fields, w)

def machine (n : ℕ) (allow : Call B → Env B → World B → Prop) :
    Machine (Calls B) (Client B) (Env B) (World B) where
  handle := handle n
  allow := allow
  memory w := w.client
  setMemory c w := w.setClient c

end World

end VaultSync
