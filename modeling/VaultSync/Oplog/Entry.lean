import VaultSync.Coordinator.Types

/-! Oplog entries. -/

namespace VaultSync

inductive SyncStatus where
  | pending
  | synced
  | failed
  | optimistic
  deriving DecidableEq, Repr

def SyncStatus.isUploadable : SyncStatus → Bool
  | .pending | .optimistic => true
  | .synced | .failed => false

inductive MutationType where
  | crdtUpdate
  | crdtInsert
  | crdtDelete
  | crdtBatch
  deriving DecidableEq, Repr

inductive MutationOrigin where
  | unknown
  | insert
  | update
  | delete
  | crashRecovery
  | remotePull
  | pushMutation
  | p2pBroadcast
  | snapshot
  | testUtils
  | testHarness
  deriving DecidableEq, Repr

structure OplogEntry (B : Type) where
  id : String
  replicaId : String
  «namespace» : String
  mutationType : MutationType
  docId : String
  recordId : String
  yrsUpdate : B
  encryptedBlob : Option B
  timestamp : ℕ
  sequence : Option ℕ
  syncStatus : SyncStatus
  syncedAt : Option ℕ
  createdAt : ℕ
  schemaVersion : ℕ
  origin : MutationOrigin
  originContext : String
  deriving DecidableEq

def OplogEntry.key {B : Type} (e : OplogEntry B) : Key := ⟨e.docId, e.recordId⟩

end VaultSync
