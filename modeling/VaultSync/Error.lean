import Mathlib.Data.Nat.Notation

namespace VaultSync

/-- `VaultSyncError`, without the input/output and SQLite cases of the native storages. -/
inductive VaultSyncError where
  | storage (msg : String)
  | coordinator (msg : String)
  | crdt (msg : String)
  | encryption (msg : String)
  | schema (msg : String)
  | config (msg : String)
  | documentTooLarge (len limit : ℕ)
  | clockSkew (timestamp now : ℕ)
  | versionMismatch (proposed registered : ℕ) (docId : String)
  deriving DecidableEq, Repr

def VaultSyncError.display : VaultSyncError → String
  | storage msg => s!"Storage error: {msg}"
  | coordinator msg => s!"Coordinator error: {msg}"
  | crdt msg => s!"CRDT error: {msg}"
  | encryption msg => s!"Encryption error: {msg}"
  | schema msg => s!"Schema error: {msg}"
  | config msg => s!"Configuration error: {msg}"
  | documentTooLarge len limit => s!"Document too large: {len} bytes, limit is {limit} bytes"
  | clockSkew timestamp now =>
    s!"Clock skew error: mutation timestamp {timestamp} is skewed compared to system time {now}"
  | versionMismatch proposed registered docId =>
    s!"Version mismatch: document schema version {proposed} does not match registered version {registered} for doc '{docId}'"

end VaultSync
