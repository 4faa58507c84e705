import Mathlib.Algebra.Group.Nat.Defs
import Mathlib.Data.List.Dedup
import VaultSync.Oplog.Entry

/-! The in-memory storage: documents, oplog and sync states, each behind its lock. -/

namespace VaultSync

open List

structure SyncState where
  «namespace» : String
  lastSyncedSequence : ℕ
  generationId : String
  deriving DecidableEq

structure InMemoryStorage (B : Type) where
  documents : Key → Option B
  oplog : List (OplogEntry B)
  syncStates : String → Option SyncState

variable {B : Type}

namespace InMemoryStorage

def new : InMemoryStorage B where
  documents _ := none
  oplog := []
  syncStates _ := none

variable (s : InMemoryStorage B)

def insertDocument (k : Key) (bytes : B) : InMemoryStorage B :=
  { s with documents := Function.update s.documents k (some bytes) }

def writeDocumentAndOplog (k : Key) (bytes : B) (e : OplogEntry B) : InMemoryStorage B :=
  { s.insertDocument k bytes with oplog := s.oplog ++ [e] }

def appendOplog (e : OplogEntry B) : InMemoryStorage B :=
  { s with oplog := s.oplog ++ [e] }

def writeBatchReconciliation (docs : List (Key × B)) : InMemoryStorage B :=
  docs.foldl (fun s d => s.insertDocument d.1 d.2) s

variable (ns : String)

def readPendingOplog (limit : ℕ) : List (OplogEntry B) :=
  (s.oplog.filter fun e => e.namespace = ns ∧ e.syncStatus.isUploadable).take limit

/-- Every entry with the id, of whatever namespace and status. -/
def markSynced (id : String) (sequence now : ℕ) : InMemoryStorage B :=
  { s with oplog := s.oplog.map fun e =>
      if e.id = id then
        { e with syncStatus := .synced, sequence := some sequence, syncedAt := some now }
      else e }

def markFailed (id : String) : InMemoryStorage B :=
  { s with oplog := s.oplog.map fun e => if e.id = id then { e with syncStatus := .failed } else e }

def writeSyncState (st : SyncState) : InMemoryStorage B :=
  { s with syncStates := Function.update s.syncStates st.namespace (some st) }

def listActiveDocuments : List Key :=
  ((s.oplog.filter fun e => e.namespace = ns).map OplogEntry.key).dedup

def readSyncedOplogForDocument (k : Key) : List (OplogEntry B) :=
  s.oplog.filter fun e => e.namespace = ns ∧ e.key = k ∧ e.syncStatus = .synced

def deleteSyncedOplogBeforeTimestamp (k : Key) (timestamp : ℕ) : InMemoryStorage B :=
  { s with oplog := s.oplog.filter fun e =>
      ¬ (e.namespace = ns ∧ e.key = k ∧ e.syncStatus = .synced ∧ e.createdAt < timestamp) }

def deleteSyncedBefore (cutoffMs : ℕ) : InMemoryStorage B :=
  { s with oplog := s.oplog.filter fun e =>
      ¬ (e.namespace = ns ∧ e.syncStatus = .synced ∧ e.createdAt < cutoffMs) }

def deleteSyncedOplogOlderThan (olderThanSecs nowSecs : ℕ) : InMemoryStorage B :=
  { s with oplog := s.oplog.filter fun e =>
      ¬ (e.namespace = ns ∧ e.syncStatus = .synced ∧
        e.syncedAt.getD 0 < nowSecs - olderThanSecs) }

def listTombstonedDocuments (olderThanSecs nowMs : ℕ) : List Key :=
  ((s.oplog.filter fun e => e.namespace = ns ∧ e.mutationType = .crdtDelete ∧
    e.syncStatus = .synced ∧
      e.createdAt < nowMs - olderThanSecs * 1000 % 2 ^ 64).map OplogEntry.key).dedup

def deleteDocument (k : Key) : InMemoryStorage B :=
  { s with documents := Function.update s.documents k none }

def Stale (olderThanMs now : ℕ) (e : OplogEntry B) : Prop :=
  e.namespace = ns ∧ e.syncStatus ≠ .synced ∧ e.createdAt < now - olderThanMs

instance (ns : String) (olderThanMs now : ℕ) (e : OplogEntry B) :
    Decidable (Stale ns olderThanMs now e) :=
  inferInstanceAs (Decidable (_ ∧ _))

def resetStalePending (olderThanMs now : ℕ) : InMemoryStorage B × ℕ :=
  ({ s with oplog := s.oplog.map fun e =>
      if Stale ns olderThanMs now e then { e with syncStatus := .pending } else e },
    s.oplog.countP fun e => Stale ns olderThanMs now e)

def setBlob (id : String) (blob : B) : List (OplogEntry B) → List (OplogEntry B)
  | [] => []
  | e :: es =>
    if e.id = id then { e with encryptedBlob := some blob } :: es else e :: setBlob id blob es

def updateOplogEncryptedBlob (id : String) (blob : B) : InMemoryStorage B :=
  { s with oplog := setBlob id blob s.oplog }

variable {s : InMemoryStorage B} {k : Key} {bytes : B}

@[simp] lemma insertDocument_documents :
    (s.insertDocument k bytes).documents = Function.update s.documents k (some bytes) := rfl

@[simp] lemma writeBatchReconciliation_oplog (docs : List (Key × B)) :
    (s.writeBatchReconciliation docs).oplog = s.oplog := by
  unfold writeBatchReconciliation
  induction docs generalizing s with
  | nil => rfl
  | cons d docs ih => exact ih

variable {docs : List (Key × B)}

lemma writeBatchReconciliation_of_notMem (h : k ∉ docs.map Prod.fst) :
    (s.writeBatchReconciliation docs).documents k = s.documents k := by
  unfold writeBatchReconciliation
  induction docs generalizing s with
  | nil => rfl
  | cons d docs ih =>
    rw [map_cons, mem_cons, not_or] at h
    rw [foldl_cons, ih h.2, insertDocument_documents, Function.update_of_ne h.1]

lemma writeBatchReconciliation_of_mem (hnd : (docs.map Prod.fst).Nodup)
    (h : (k, bytes) ∈ docs) : (s.writeBatchReconciliation docs).documents k = some bytes := by
  induction docs generalizing s with
  | nil => cases h
  | cons d docs ih =>
    rw [map_cons, nodup_cons] at hnd
    rcases mem_cons.1 h with rfl | h
    · refine (writeBatchReconciliation_of_notMem (s := s.insertDocument k bytes) hnd.1).trans ?_
      rw [insertDocument_documents, Function.update_self]
    · exact ih hnd.2 h

end InMemoryStorage

end VaultSync
