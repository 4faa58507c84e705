import VaultSync.Coordinator.SqliteTables
import VaultSync.Storage.Memory

/-! The SQLite storage: the `documents` and `oplog` tables behind one connection mutex. Enumerations
are stored as their `Debug` text. -/

namespace VaultSync

open SQLiteCoordinator List

variable {B : Type}

def SyncStatus.debug : SyncStatus → String
  | .pending => "Pending"
  | .synced => "Synced"
  | .failed => "Failed"
  | .optimistic => "Optimistic"

def MutationType.debug : MutationType → String
  | .crdtUpdate => "CrdtUpdate"
  | .crdtInsert => "CrdtInsert"
  | .crdtDelete => "CrdtDelete"
  | .crdtBatch => "CrdtBatch"

structure OplogRow (B : Type) where
  id : String
  «namespace» : String
  replicaId : String
  mutationType : String
  docId : String
  recordId : String
  yrsUpdate : B
  encryptedBlob : Option B
  timestamp : ℤ
  sequence : Option ℤ
  syncStatus : String
  syncedAt : Option ℤ
  createdAt : ℤ

/-- `map_oplog_entry`. The schema version and the provenance of an entry are not in the table. -/
def OplogRow.toEntry (r : OplogRow B) : OplogEntry B where
  id := r.id
  replicaId := r.replicaId
  «namespace» := r.namespace
  mutationType :=
    if r.mutationType = "CrdtInsert" then .crdtInsert
    else if r.mutationType = "CrdtDelete" then .crdtDelete
    else if r.mutationType = "CrdtBatch" then .crdtBatch
    else .crdtUpdate
  docId := r.docId
  recordId := r.recordId
  yrsUpdate := r.yrsUpdate
  encryptedBlob := r.encryptedBlob
  timestamp := asU64 r.timestamp
  sequence := r.sequence.map asU64
  syncStatus :=
    if r.syncStatus = "Synced" then .synced
    else if r.syncStatus = "Failed" then .failed
    else .pending
  syncedAt := r.syncedAt.map asU64
  createdAt := asU64 r.createdAt
  schemaVersion := 0
  origin := .unknown
  originContext := ""

/-- The row an `INSERT` stores: `synced_at` is not among its columns. -/
def OplogRow.inserted (e : OplogEntry B) : OplogRow B where
  id := e.id
  «namespace» := e.namespace
  replicaId := e.replicaId
  mutationType := e.mutationType.debug
  docId := e.docId
  recordId := e.recordId
  yrsUpdate := e.yrsUpdate
  encryptedBlob := e.encryptedBlob
  timestamp := e.timestamp
  sequence := e.sequence.map fun q => (q : ℤ)
  syncStatus := e.syncStatus.debug
  syncedAt := none
  createdAt := e.createdAt

/-- How `ORDER BY created_at` lists some rows; it may break ties in any way. -/
def Sorter (B : Type) :=
  { sort : List (OplogRow B) → List (OplogRow B) //
    ∀ l, (sort l).Perm l ∧ (sort l).Pairwise fun a b => a.createdAt ≤ b.createdAt }

/-- `oplog` in the order of insertion. -/
structure SQLiteStorage (B : Type) where
  documents : Key → Option B
  oplog : List (OplogRow B)
  unique : (oplog.map OplogRow.id).Nodup

namespace SQLiteStorage

def new : SQLiteStorage B where
  documents _ := none
  oplog := []
  unique := List.nodup_nil

/-- A `u64` above `i64::MAX` cannot be bound to a statement. -/
def Bindable (e : OplogEntry B) : Prop :=
  e.timestamp < 2 ^ 63 ∧ (∀ q ∈ e.sequence, q < 2 ^ 63) ∧ e.createdAt < 2 ^ 63

instance (e : OplogEntry B) : Decidable (Bindable e) := inferInstanceAs (Decidable (_ ∧ _ ∧ _))

variable (s : SQLiteStorage B)

/-- `INSERT INTO oplog`; the errors are the texts of `VaultSyncError::Sqlite`. -/
def appendOplog (e : OplogEntry B) : Except String Unit × SQLiteStorage B :=
  if Bindable e then
    if h : e.id ∈ s.oplog.map OplogRow.id then (.error "UNIQUE constraint failed: oplog.id", s)
    else (.ok (), { s with
      oplog := s.oplog ++ [.inserted e]
      unique := by
        rw [map_append, nodup_append]
        refine ⟨s.unique, nodup_singleton _, fun a ha b hb heq => h ?_⟩
        rw [map_singleton, mem_singleton] at hb
        have hid : a = e.id := heq.trans hb
        exact hid ▸ ha })
  else (.error "out of range integral type conversion attempted", s)

/-- One transaction: without the entry, the document is not written either. -/
def writeDocumentAndOplog (k : Key) (bytes : B) (e : OplogEntry B) :
    Except String Unit × SQLiteStorage B :=
  match s.appendOplog e with
  | (.ok (), s') => (.ok (), { s' with documents := Function.update s'.documents k (some bytes) })
  | (.error msg, _) => (.error msg, s)

def update (p : OplogRow B → Prop) [DecidablePred p]
    (set : OplogRow B → OplogRow B) (hset : ∀ r, (set r).id = r.id) : ℕ × SQLiteStorage B :=
  (s.oplog.countP p, { s with
    oplog := s.oplog.map fun r => if p r then set r else r
    unique := by
      have hid : OplogRow.id ∘ (fun r => if p r then set r else r) = OplogRow.id (B := B) := by
        funext r
        by_cases hp : p r
        · simp [if_pos hp, hset]
        · simp [if_neg hp]
      rw [map_map, hid]
      exact s.unique })

def delete (p : OplogRow B → Prop) [DecidablePred p] : ℕ × SQLiteStorage B :=
  (s.oplog.countP p, { s with
    oplog := s.oplog.filter fun r => ¬ p r
    unique := s.unique.sublist (filter_sublist.map _) })

/-- A negative `LIMIT` is none. -/
def readPendingOplog (sort : Sorter B) (ns : String) (limit : ℕ) : List (OplogEntry B) :=
  let rows := sort.1 (s.oplog.filter fun r =>
    r.namespace = ns ∧ (r.syncStatus = "Pending" ∨ r.syncStatus = "Optimistic"))
  (if 2 ^ 63 ≤ limit then rows else rows.take limit).map OplogRow.toEntry

def markSynced (id : String) (sequence now : ℕ) : SQLiteStorage B :=
  (s.update (fun r => r.id = id) (fun r => { r with
    syncStatus := "Synced", sequence := some (asI64 sequence), syncedAt := some now }) fun _ => rfl).2

def markFailed (id : String) : SQLiteStorage B :=
  (s.update (fun r => r.id = id) (fun r => { r with syncStatus := "Failed" }) fun _ => rfl).2

def resetStalePending (ns : String) (olderThanMs now : ℕ) : ℕ × SQLiteStorage B :=
  s.update (fun r => r.namespace = ns ∧ r.syncStatus ≠ "Synced" ∧
    r.createdAt < asI64 (now - olderThanMs)) (fun r => { r with syncStatus := "Pending" }) fun _ => rfl

def deleteSyncedBefore (ns : String) (cutoffMs : ℕ) : ℕ × SQLiteStorage B :=
  s.delete fun r => r.namespace = ns ∧ r.syncStatus = "Synced" ∧ r.createdAt < asI64 cutoffMs

/-- A comparison with `NULL` does not hold. -/
def deleteSyncedOplogOlderThan (ns : String) (olderThanSecs nowSecs : ℕ) : ℕ × SQLiteStorage B :=
  s.delete fun r => r.namespace = ns ∧ r.syncStatus = "Synced" ∧
    ∃ synced ∈ r.syncedAt, synced < asI64 (nowSecs - olderThanSecs)

end SQLiteStorage

end VaultSync
