import Mathlib.Data.Nat.Notation

/-! What the coordinator trait exchanges, over a type `B` of byte strings. -/

namespace VaultSync

structure Key where
  docId : String
  recordId : String
  deriving DecidableEq, Repr

structure EncryptedMutation (B : Type) where
  id : String
  «namespace» : String
  replicaId : String
  docId : String
  recordId : String
  encryptedBlob : B
  timestamp : ℕ
  schemaVersion : ℕ
  keyVersion : ℕ

def EncryptedMutation.key {B : Type} (m : EncryptedMutation B) : Key := ⟨m.docId, m.recordId⟩

structure PendingMutation (B : Type) where
  id : String
  «namespace» : String
  sequence : ℕ
  docId : String
  recordId : String
  encryptedBlob : B
  timestamp : ℕ
  keyVersion : ℕ
  replicaId : String
  deriving DecidableEq

def PendingMutation.key {B : Type} (m : PendingMutation B) : Key := ⟨m.docId, m.recordId⟩

/-- `sequence` is the last oplog sequence the bytes are meant to include. -/
structure Snapshot (B : Type) where
  docId : String
  recordId : String
  schemaVersion : ℕ
  sequence : ℕ
  createdAt : ℕ
  bytes : B
  deriving DecidableEq

def Snapshot.key {B : Type} (s : Snapshot B) : Key := ⟨s.docId, s.recordId⟩

structure ReplicaInfo (B : Type) where
  replicaId : String
  «namespace» : String
  publicKey : B
  schemaVersion : ℕ
  deriving DecidableEq

inductive CoordinatorError where
  | notAvailable
  | authFailed
  | schemaMismatch
  | timeout
  | notSupported (msg : String)
  | internal (msg : String)
  deriving DecidableEq, Repr

inductive CursorValidation where
  | unknown
  | valid
  | invalid
  deriving DecidableEq, Repr

def validateCursor (serverMax cursor : ℕ) : CursorValidation :=
  if serverMax = 0 then .unknown
  else if cursor ≤ serverMax then .valid
  else .invalid

end VaultSync
